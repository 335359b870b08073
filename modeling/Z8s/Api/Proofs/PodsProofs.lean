import Z8s.Api.Pods
import Z8s.Proofs.TypesProofs
import Z8s.Transition.Proofs.RunProofs

/-!
# Proofs: creating and updating pods

What the store says about running pods is right in every state of a run exactly when no request starts a pod
in vain.
-/

namespace Z8s.Api.PodServer

open Z8s.Types Cri Scheduler Transition

variable {s s' : PodServer}
variable {start : StartOutcome} {r : AnyResource} {e : ServerEvent}

/-! ### What keeps running pods started -/

section

variable (h : RunningStarted s)
include h

/-- A resource that is stored anew keeps its state, and is `Pending` otherwise. -/
theorem RunningStarted.apply (r : AnyResource) : RunningStarted { s with store := s.store.apply r } := by
  intro uid t hget hstate
  rw [ResourceStore.get_apply] at hget
  split_ifs at hget with huid
  · subst huid
    cases hget
    cases hold : s.store.get r.uid with
    | none => simp [hold] at hstate
    | some old => exact h r.uid old hold (by simpa [hold] using hstate)
  · exact h uid t hget hstate

theorem RunningStarted.updateState {u : String} {state : ResourceState}
    (hu : state = .running → u ∈ s.started) :
    RunningStarted { s with store := s.store.updateState u state } := by
  intro uid t hget hstate
  rw [ResourceStore.get_updateState] at hget
  split_ifs at hget with huid
  · obtain ⟨old, -, rfl⟩ := Option.map_eq_some_iff.1 hget
    exact huid ▸ hu hstate
  · exact h uid t hget hstate

theorem RunningStarted.delete (r : AnyResource) : RunningStarted { s with
      store := s.store.delete r
      started := s.started.filter (· != r.uid) } := by
  intro uid t hget hstate
  rw [ResourceStore.get_delete] at hget
  split_ifs at hget with huid
  exact List.mem_filter.2 ⟨h uid t hget hstate, bne_iff_ne.2 huid⟩

theorem RunningStarted.startPod (r : AnyResource) (start : StartOutcome) :
    RunningStarted (s.startPod r start) := by
  unfold PodServer.startPod
  split_ifs
  · have hmore : RunningStarted { s with running := start.running, started := r.uid :: s.started } :=
      fun uid t hget hstate => List.mem_cons_of_mem _ (h uid t hget hstate)
    exact hmore.updateState fun _ => List.mem_cons_self
  · exact h

/-- After a start that succeeded the handler says again what `start_pod` has said. -/
theorem RunningStarted.startApplied (r : AnyResource) (hok : start.ok = true) :
    RunningStarted (s.startApplied r start) := by
  refine (h.startPod r start).updateState fun _ => ?_
  rw [PodServer.startPod, if_pos hok]
  exact List.mem_cons_self

end

/-- After a start that failed the pod is stored as `Running` all the same. -/
theorem not_retried_startApplied (hfail : start.ok = false) :
    ¬ Reported (startApplied { s with store := s.store.apply r } r start) := by
  intro h
  have hstate := h.retried r.uid (by simp [PodServer.startApplied, hfail])
  have hstore : (startApplied { s with store := s.store.apply r } r start).store =
      (s.store.apply r).updateState r.uid .running := by
    simp [PodServer.startApplied, PodServer.startPod, hfail]
  rw [hstore, ResourceStore.get_updateState, if_pos rfl, ResourceStore.get_apply, if_pos rfl] at hstate
  cases hstate

/-! ### Runs -/

/-- The invariant: no request has failed to start its pod. -/
structure Invariant (s : PodServer) : Prop where
  running : RunningStarted s
  failed : s.failed = none

theorem Invariant.reported (h : Invariant s) : Reported s where
  running := h.running
  retried uid huid := by rw [h.failed] at huid; cases huid

theorem failed_startApplied (hok : start.ok = true) : (s.startApplied r start).failed = none :=
  if_pos hok

theorem failed_startPod (r : AnyResource) (start : StartOutcome) :
    (s.startPod r start).failed = s.failed := by
  unfold PodServer.startPod
  split_ifs <;> rfl

theorem Invariant.startApplied (h : RunningStarted s) (r : AnyResource) {start : StartOutcome}
    (hok : start.ok = true) : Invariant (startApplied { s with store := s.store.apply r } r start) :=
  ⟨(h.apply r).startApplied r hok, failed_startApplied hok⟩

theorem Invariant.step (h : Invariant s) (hok : StartSucceeds s e) (hstep : step s e = some s') :
    Invariant s' := by
  have hcleared : RunningStarted { s with failed := none } := h.running
  cases e with
  | create ns body start =>
    cases hstep
    cases hstored : (ServerEvent.create ns body start).stored with
    | none => exact ⟨hcleared, rfl⟩
    | some r =>
      have hstart : start.ok = true := hok (by rw [hstored]; rfl)
      exact Invariant.startApplied hcleared r hstart
  | update ns name body start =>
    cases hstep
    cases hstored : (ServerEvent.update ns name body start).stored with
    | none => exact ⟨hcleared, rfl⟩
    | some r =>
      show Invariant (updatePod { s with failed := none } r start)
      unfold updatePod
      split_ifs with hrunning
      · exact ⟨hcleared.apply r, rfl⟩
      · have hstart : start.ok = true := hok (by rw [hstored]; simpa using hrunning)
        exact Invariant.startApplied hcleared r hstart
  | reconciled r start =>
    cases hstep
    exact ⟨hcleared.startPod r start, failed_startPod r start⟩
  | apply r =>
    cases hstep
    exact ⟨hcleared.apply r, rfl⟩
  | delete r =>
    cases hstep
    exact ⟨hcleared.delete r, rfl⟩
  | settle uid state =>
    cases hstep
    refine ⟨hcleared.updateState fun hrunning => ?_, rfl⟩
    cases state <;> cases hrunning
  | containers running =>
    cases hstep
    exact ⟨hcleared, rfl⟩

theorem startSucceeds_of_reported (hstep : step s e = some s') (h : Reported s') : StartSucceeds s e := by
  cases e with
  | create ns body start =>
    intro hstored
    cases hstep
    obtain ⟨r, hr⟩ := Option.isSome_iff_exists.1 hstored
    rw [hr] at h
    by_contra hfail
    exact not_retried_startApplied (Bool.not_eq_true _ ▸ hfail) h
  | update ns name body start =>
    intro hstored
    cases hstep
    obtain ⟨r, hr, hrunning⟩ := (Option.any_eq_true _ _).1 hstored
    rw [hr] at h
    by_contra hfail
    have hupdate : updatePod { s with failed := none } r start =
        startApplied { s with failed := none, store := s.store.apply r } r start :=
      if_neg (by simpa using hrunning)
    rw [Option.map_some, Option.getD_some, hupdate] at h
    exact not_retried_startApplied (s := { s with failed := none }) (Bool.not_eq_true _ ▸ hfail) h
  | _ => trivial

theorem always_reported_iff (es : List ServerEvent) :
    Always step Reported init es ↔ Along step StartSucceeds init es := by
  have hinit : Invariant init := by
    refine ⟨fun uid t hget _ => ?_, rfl⟩
    rw [show init.store.get uid = none from rfl] at hget
    cases hget
  have htotal : ∀ s e, (step s e).isSome = true := by
    intro s e
    cases e <;> rfl
  exact always_iff_along (I := Invariant) (fun _ _ _ h hok hstep => h.step hok hstep)
    (fun _ h => h.reported) (fun _ _ _ _ hstep h => startSucceeds_of_reported hstep h) hinit
    (isSome_run htotal init es)

/-- A pod whose start failed is stored as `Running`, so the reconciler does not try again. -/
theorem failed_start_is_running :
    ((run step init [.create "default" (some ⟨none, some { metadata := { name := some "web" } }⟩)
        ⟨false, ∅⟩]).bind fun s => (s.store.get "Pod/default/web").map fun t => (t.state, s.started)) =
      some (.running, []) := by
  decide +kernel

end Z8s.Api.PodServer
