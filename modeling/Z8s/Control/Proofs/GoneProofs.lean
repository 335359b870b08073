import Z8s.Control.Proofs.DaemonProofs

/-!
# Proofs: deleted pods stay away

When `stop_pod` is called for a pod, all entries of the pod are under ids that the stop is going to take
away, and no start is left that could make a new one.
-/

namespace Z8s.Control

open Rust Collections Z8s.Types Netmux Cri Pods Transition ResourceStore ControlSystem List

variable {s : ControlSystem} {uid : String}
variable {r : AnyResource} {s' : ControlSystem} {e : ControlEvent} {m : List (AnyResource × CallPhase)}

/-- The pod was stopped, and nothing is left of it. -/
structure Cleared (d : Daemon) (uid : String) : Prop where
  stopCalled : StopCalled d uid
  notInFlight : ¬ InFlight d uid
  notRecorded : ¬ Recorded d uid

structure PodInv (uid : String) (d : Daemon) (m : List (AnyResource × CallPhase)) : Prop where
  tidy : Tidy uid d
  stopped : ∀ i, (uid, i) ∈ d.stopCalls → ¬ InFlight d uid ∧
    ∃ t, d.pods.stops[i]? = some t ∧ ∀ e ∈ d.running.iter, e.2.startedFor = uid → e.1 ∈ left t
  waiting : ∀ x ∈ m, x.1.uid = uid → ∀ i, x.2 = .waiting i → (uid, i) ∈ d.stopCalls
  returned : ∀ x ∈ m, x.1.uid = uid → x.2 = .returned → Cleared d uid

/-! ### The pods by themselves -/

section PodMove

variable {d : Daemon} {pods' : PodSystem}

section

variable (hmove : PodMove d.pods pods')
include hmove

theorem PodMove.not_inFlight (h : ¬ InFlight d uid) : ¬ InFlight { d with pods := pods' } uid := by
  rintro ⟨t', ht', hdone, huid⟩
  obtain ⟨t, ht, htdone, hspec⟩ := hmove.starts t' ht' hdone
  exact h ⟨t, ht, htdone, hspec ▸ huid⟩

theorem PodMove.recorded_before (h : ¬ InFlight d uid)
    {e : String × RunningContainer} (he : e ∈ pods'.sup.running.iter) (huid : e.2.startedFor = uid) :
    ∃ e₀ ∈ d.running.iter, e₀.1 = e.1 ∧ e₀.2.startedFor = uid := by
  obtain ⟨cid, rc⟩ := e
  rcases hmove.running cid rc (HashMap.mem_iter.1 he) with ⟨rc₀, hget, hsame⟩ | ⟨t, ht, hdone, hfor, -⟩
  · exact ⟨(cid, rc₀), HashMap.mem_iter.2 hget, rfl, hsame.trans huid⟩
  · exact absurd ⟨t, ht, hdone, hfor.trans huid⟩ h

theorem PodMove.not_recorded (h : ¬ InFlight d uid)
    (hrec : ¬ Recorded d uid) : ¬ Recorded { d with pods := pods' } uid := by
  rintro ⟨e, he, huid⟩
  obtain ⟨e₀, he₀, -, huid₀⟩ := hmove.recorded_before h he huid
  exact hrec ⟨e₀, he₀, huid₀⟩

theorem PodMove.get_eq_none (h : pods'.pt.store.get uid = none) : d.store.get uid = none := by
  by_contra hne
  obtain ⟨r, hholds, huid⟩ := get_ne_none_iff.1 hne
  exact get_ne_none_iff.2 ⟨r, (hmove.holds r).2 hholds, huid⟩ h

end

theorem PodInv.podMove (h : PodInv uid d m) (hmove : PodMove d.pods pods') :
    PodInv uid { d with pods := pods' } m where
  tidy := {
    own := hmove.own
    absent := fun hnone => by
      obtain ⟨hrec, hfl⟩ := h.tidy.absent (hmove.get_eq_none hnone)
      exact ⟨hmove.not_recorded hfl hrec, hmove.not_inFlight hfl⟩
    recorded := fun r hholds huid e he hfor => by
      have hholds' : d.store.Holds r := (hmove.holds r).1 hholds
      obtain ⟨cid, rc⟩ := e
      rcases hmove.running cid rc (HashMap.mem_iter.1 he) with ⟨rc₀, hget, hsame⟩ | ⟨t, ht, hdone, hpod, hid⟩
      · exact h.tidy.recorded r hholds' huid (cid, rc₀) (HashMap.mem_iter.2 hget) (hsame.trans hfor)
      · rw [← h.tidy.started r hholds' huid t ht hdone (hpod.trans hfor)]
        exact hid
    started := fun r hholds huid t' ht' hdone hpod => by
      obtain ⟨t, ht, htdone, hspec⟩ := hmove.starts t' ht' hdone
      rw [← hspec]
      exact h.tidy.started r ((hmove.holds r).1 hholds) huid t ht htdone (hspec ▸ hpod) }
  stopped i hi := by
    obtain ⟨hfl, t, ht, hleft⟩ := h.stopped i hi
    obtain ⟨t', ht', hleft'⟩ := hmove.stops i t ht
    refine ⟨hmove.not_inFlight hfl, t', ht', fun e he hfor => ?_⟩
    obtain ⟨e₀, he₀, hid, hfor₀⟩ := hmove.recorded_before hfl he hfor
    rcases hleft' e.1 (hid ▸ hleft e₀ he₀ hfor₀) with hmem | hnone
    · exact hmem
    · have hget : pods'.sup.running.get e.1 = some e.2 := HashMap.mem_iter.1 he
      rw [hnone] at hget
      cases hget
  waiting := h.waiting
  returned x hx huid hret := by
    obtain ⟨hcalled, hfl, hrec⟩ := h.returned x hx huid hret
    exact ⟨hcalled, hmove.not_inFlight hfl, hmove.not_recorded hfl hrec⟩

end PodMove

/-! ### The tasks -/

namespace PodInv

variable {d d' : Daemon} {m m' rest : List (AnyResource × CallPhase)}

theorem mono (h : PodInv uid d m) (hsub : ∀ x ∈ m', x ∈ m) : PodInv uid d m' :=
  { h with
    waiting := fun x hx => h.waiting x (hsub x hx)
    returned := fun x hx => h.returned x (hsub x hx) }

theorem uncalled_append (h : PodInv uid d rest) (hm : Uncalled m') : PodInv uid d (m' ++ rest) where
  tidy := h.tidy
  stopped := h.stopped
  waiting x hx huid i hi := by
    rcases mem_append.1 hx with hx | hx
    · rw [hm x hx] at hi
      cases hi
    · exact h.waiting x hx huid i hi
  returned x hx huid hret := by
    rcases mem_append.1 hx with hx | hx
    · rw [hm x hx] at hret
      cases hret
    · exact h.returned x hx huid hret

theorem setDetached (h : PodInv uid d m) (detached : List Detached) : PodInv uid { d with detached } m where
  tidy := ⟨h.tidy.own, h.tidy.absent, h.tidy.recorded, h.tidy.started⟩
  stopped := h.stopped
  waiting := h.waiting
  returned x hx huid hret := by
    obtain ⟨hcalled, hfl, hrec⟩ := h.returned x hx huid hret
    exact ⟨hcalled, hfl, hrec⟩

section

variable (h : PodInv uid d m)
include h

/-- The store may change as long as it holds no new resource under the uid, or one of which nothing is
there yet. -/
theorem setStore {store : ResourceStore}
    (habsent : store.get uid = none → ¬ Recorded d uid ∧ ¬ InFlight d uid)
    (hholds : ∀ r, store.Holds r → r.uid = uid →
      d.store.Holds r ∨ (¬ Recorded d uid ∧ ¬ InFlight d uid)) : PodInv uid (d.setStore store) m where
  tidy := {
    own := h.tidy.own
    absent := habsent
    recorded := fun r hr huid e he hfor => by
      rcases hholds r hr huid with hold | ⟨hrec, -⟩
      · exact h.tidy.recorded r hold huid e he hfor
      · exact absurd ⟨e, he, hfor⟩ hrec
    started := fun r hr huid t ht hdone hpod => by
      rcases hholds r hr huid with hold | ⟨-, hfl⟩
      · exact h.tidy.started r hold huid t ht hdone hpod
      · exact absurd ⟨t, ht, hdone, hpod⟩ hfl }
  stopped := h.stopped
  waiting := h.waiting
  returned x hx huid hret := by
    obtain ⟨hcalled, hfl, hrec⟩ := h.returned x hx huid hret
    exact ⟨hcalled, hfl, hrec⟩

theorem updateState (uid' : String) (state : ResourceState) :
    PodInv uid (d.setStore (d.store.updateState uid' state)) m := by
  refine h.setStore (fun hnone => h.tidy.absent ?_) fun r hr _ => .inl (holds_updateState.1 hr)
  by_contra hne
  obtain ⟨r, hr, huid⟩ := get_ne_none_iff.1 hne
  exact get_ne_none_iff.2 ⟨r, holds_updateState.2 hr, huid⟩ hnone

theorem delete (hcleared : r.uid = uid → Cleared d uid) : PodInv uid (d.setStore (d.store.delete r)) m := by
  refine h.setStore (fun hnone => ?_) fun r' hr' _ => .inl (holds_delete.1 hr').2
  by_cases huid : r.uid = uid
  · exact ⟨(hcleared huid).notRecorded, (hcleared huid).notInFlight⟩
  · rw [get_delete_of_ne (Ne.symm huid)] at hnone
    exact h.tidy.absent hnone

theorem apply (hok : r.uid = uid → d.store.get uid = none ∧ ¬ StopCalled d uid) :
    PodInv uid (d.setStore (d.store.apply r)) m := by
  by_cases huid : r.uid = uid
  · have hnothing := h.tidy.absent (hok huid).1
    exact h.setStore (fun _ => hnothing) fun _ _ _ => .inr hnothing
  · refine h.setStore (fun hnone => ?_) fun r' hr' huid' => ?_
    · rw [get_apply_of_ne (Ne.symm huid)] at hnone
      exact h.tidy.absent hnone
    · rcases holds_apply.1 hr' with rfl | ⟨-, hr'⟩
      · exact absurd huid' huid
      · exact .inl hr'

theorem callStart {pod : Pod}
    (hok : (AnyResource.pod pod).uid = uid → d.store.Holds (.pod pod) ∧ ¬ StopCalled d uid) :
    PodInv uid (d.callStart pod) m := by
  have hfor : (buildSpec (.pod pod)).podUid = (AnyResource.pod pod).uid := rfl
  have hmem : ∀ t ∈ (d.callStart pod).pods.starts, t ∈ d.pods.starts ∨ t = ⟨buildSpec (.pod pod), .entered⟩ :=
    fun t ht => (mem_append.1 ht).imp_right mem_singleton.1
  -- a start of the pod is new only where the pod is stored and was not stopped
  have hfl : (d.store.get uid = none ∨ StopCalled d uid) → ¬ InFlight d uid →
      ¬ InFlight (d.callStart pod) uid := by
    rintro hsome hnot ⟨t, ht, hdone, hpod⟩
    rcases hmem t ht with ht | rfl
    · exact hnot ⟨t, ht, hdone, hpod⟩
    · obtain ⟨⟨state, hget⟩, hnotCalled⟩ := hok (hfor.symm.trans hpod)
      rcases hsome with hnone | hcalled
      · rw [← hpod, hfor, hget] at hnone
        cases hnone
      · exact hnotCalled hcalled
  refine ⟨⟨fun t ht => ?_, fun hnone => ?_, h.tidy.recorded, fun r hr huid t ht hdone hpod => ?_⟩,
    fun i hi => ?_, h.waiting, fun x hx huid hret => ?_⟩
  · rcases hmem t ht with ht | rfl
    · exact h.tidy.own t ht
    · exact ⟨nofun, nofun⟩
  · obtain ⟨hrec, hnot⟩ := h.tidy.absent hnone
    exact ⟨hrec, hfl (.inl hnone) hnot⟩
  · rcases hmem t ht with ht | rfl
    · exact h.tidy.started r hr huid t ht hdone hpod
    · obtain ⟨hstored, -⟩ := hok (hfor.symm.trans hpod)
      rw [ResourceStore.Holds.eq_of_uid hr hstored (huid.trans (hfor.symm.trans hpod).symm)]
  · obtain ⟨hnot, hleft⟩ := h.stopped i hi
    exact ⟨hfl (.inr (mem_map_of_mem hi)) hnot, hleft⟩
  · obtain ⟨hcalled, hnot, hrec⟩ := h.returned x hx huid hret
    exact ⟨hcalled, hfl (.inr hcalled) hnot, hrec⟩

theorem callStop (hok : r.uid = uid → ¬ InFlight d uid ∧ (d.store.Holds r ∨ d.store.get uid = none)) :
    PodInv uid (d.callStop r) ((r, .waiting d.pods.stops.length) :: m) where
  tidy := ⟨h.tidy.own, h.tidy.absent, h.tidy.recorded, h.tidy.started⟩
  stopped i hi := by
    rcases mem_append.1 hi with hi | hi
    · obtain ⟨hfl, t, ht, hleft⟩ := h.stopped i hi
      refine ⟨hfl, t, ?_, hleft⟩
      exact (List.getElem?_append_left (List.getElem?_eq_some_iff.1 ht).1).trans ht
    · obtain ⟨huid, rfl⟩ := Prod.mk.inj (mem_singleton.1 hi)
      obtain ⟨hfl, hstored⟩ := hok huid.symm
      refine ⟨hfl, _, getElem?_concat_length, fun e he hfor => ?_⟩
      rcases hstored with hstored | hnone
      · exact h.tidy.recorded r hstored huid.symm e he hfor
      · exact absurd ⟨e, he, hfor⟩ (h.tidy.absent hnone).1
  waiting x hx huid i hi := by
    rcases mem_cons.1 hx with rfl | hx
    · obtain rfl := CallPhase.waiting.inj hi
      exact mem_append_right _ (mem_singleton.2 (Prod.ext huid.symm rfl))
    · exact mem_append_left _ (h.waiting x hx huid i hi)
  returned x hx huid hret := by
    rcases mem_cons.1 hx with rfl | hx
    · cases hret
    · obtain ⟨hcalled, hfl, hrec⟩ := h.returned x hx huid hret
      refine ⟨?_, hfl, hrec⟩
      show uid ∈ (d.stopCalls ++ _).map Prod.fst
      rw [map_append]
      exact mem_append_left _ hcalled

theorem cleared_of_stopFinished {i : Nat} (hi : (uid, i) ∈ d.stopCalls)
    (hfinished : d.stopFinished i = true) : Cleared d uid := by
  obtain ⟨hfl, t, ht, hleft⟩ := h.stopped i hi
  refine ⟨mem_map_of_mem hi, hfl, fun ⟨e, he, hfor⟩ => ?_⟩
  have hempty : t.todo = [] := by
    simp only [Daemon.stopFinished, ht, Option.any_some] at hfinished
    exact isEmpty_iff.1 hfinished
  have hmem := hleft e he hfor
  unfold left at hmem
  split at hmem <;> simp [hempty] at hmem

end

theorem move {call : Option Call} (h : PodInv uid d (m ++ rest))
    (hpod : ∃ pod, (AnyResource.pod pod).uid = uid) (hok : OrderlyCall uid d call)
    (hmove : Move d m call d' m') : PodInv uid d' (m' ++ rest) := by
  have hrest : PodInv uid d rest := h.mono fun x hx => mem_append_right m hx
  cases hmove with
  | quiet hm => exact hrest.uncalled_append hm
  | spawn t hm => exact (hrest.setDetached _).uncalled_append hm
  | start pod hm => exact (hrest.callStart hok).uncalled_append hm
  | stop r => exact hrest.callStop hok
  | apply pod hm => exact (hrest.apply hok).uncalled_append hm
  | state uid' state hm => exact (hrest.updateState uid' state).uncalled_append hm
  | @stopped r i hfinished =>
    have hnew : PodInv uid d ((r, .returned) :: rest) :=
      { hrest with
        waiting := fun x hx huid j hj => by
          rcases mem_cons.1 hx with rfl | hx
          · cases hj
          · exact hrest.waiting x hx huid j hj
        returned := fun x hx huid hret => by
          rcases mem_cons.1 hx with rfl | hx
          · exact h.cleared_of_stopFinished (h.waiting _ mem_cons_self huid i rfl) hfinished
          · exact hrest.returned x hx huid hret }
    exact hnew.updateState r.uid .terminated
  | @delete r _ hm =>
    exact (hrest.delete fun huid => h.returned _ mem_cons_self huid rfl).uncalled_append hm
  | deleteOther hkind hm =>
    refine (hrest.delete fun huid => ?_).uncalled_append hm
    obtain ⟨pod, hpod⟩ := hpod
    exact absurd (AnyResource.kind_eq_of_uid (huid.trans hpod.symm)) hkind

end PodInv

def ControlSystem.removing (s : ControlSystem) : List (AnyResource × CallPhase) :=
  s.sweeps.flatMap Sweep.removing ++ s.deletions.flatMap Deletion.removing

theorem OrderlyCall.of_own {d : Daemon} {call : Call}
    (h : call.uid = uid → OrderlyCall call.uid d (some call)) : OrderlyCall uid d (some call) := by
  cases call with
  | start pod | stop r | apply r =>
    intro huid
    subst huid
    exact h rfl rfl

theorem mem_flatMap_perm {τ : Type} {f : τ → List (AnyResource × CallPhase)} {tasks others : List τ}
    {task : τ} (hperm : tasks.Perm (task :: others)) {x : AnyResource × CallPhase} :
    x ∈ tasks.flatMap f ↔ x ∈ f task ∨ x ∈ others.flatMap f := by
  rw [mem_flatMap, mem_flatMap]
  simp [hperm.mem_iff]

/-- A step of the system leaves the removals of other tasks as they are. -/
theorem PodInv.step_append {rest : List (AnyResource × CallPhase)}
    (h : PodInv uid s.daemon (s.removing ++ rest)) (hpod : ∃ pod, (AnyResource.pod pod).uid = uid)
    (hok : Orderly uid s e) (hstep : s.step e = some s') : PodInv uid s'.daemon (s'.removing ++ rest) := by
  cases e with
  | sweep i e =>
    obtain ⟨d', sweeps', task, task', others, hget, hmove, hperm, hperm', rfl⟩ := stepAt_map_eq_some hstep
    simp only [Orderly, call, hget, Option.bind_some] at hok
    have hinv : PodInv uid s.daemon (task.removing ++
        (others.flatMap Sweep.removing ++ s.deletions.flatMap Deletion.removing ++ rest)) := by
      refine h.mono fun x hx => ?_
      simp only [removing, mem_append, mem_flatMap_perm hperm] at hx ⊢
      tauto
    refine (hinv.move hpod hok (Sweep.move_of_step hmove)).mono fun x hx => ?_
    simp only [removing, mem_append, mem_flatMap_perm hperm'] at hx ⊢
    tauto
  | deletion i e =>
    obtain ⟨d', deletions', task, task', others, hget, hmove, hperm, hperm', rfl⟩ :=
      stepAt_map_eq_some hstep
    simp only [Orderly, call, hget, Option.bind_some] at hok
    have hinv : PodInv uid s.daemon (task.removing ++
        (others.flatMap Deletion.removing ++ s.sweeps.flatMap Sweep.removing ++ rest)) := by
      refine h.mono fun x hx => ?_
      simp only [removing, mem_append, mem_flatMap_perm hperm] at hx ⊢
      tauto
    refine (hinv.move hpod hok (Deletion.move_of_step hmove)).mono fun x hx => ?_
    simp only [removing, mem_append, mem_flatMap_perm hperm'] at hx ⊢
    tauto
  | detached i e =>
    obtain ⟨d', detached', task, task', others, hget, hmove, -, -, rfl⟩ := stepAt_map_eq_some hstep
    simp only [Orderly, call, hget, Option.bind_some] at hok
    have hinv : PodInv uid s.daemon ([] ++ (s.removing ++ rest)) := h
    exact (hinv.move hpod hok (Detached.move_of_step hmove)).setDetached detached'
  | pods e =>
    simp only [step] at hstep
    split_ifs at hstep with hint
    obtain ⟨pods', hpods, rfl⟩ := Option.map_eq_some_iff.1 hstep
    exact h.podMove (podMove_of_internal hint h.tidy.own hpods)
  | apply r =>
    simp only [step] at hstep
    split_ifs at hstep
    cases hstep
    exact h.apply hok

theorem PodInv.step (h : PodInv uid s.daemon s.removing) (hpod : ∃ pod, (AnyResource.pod pod).uid = uid)
    (hok : Orderly uid s e) (hstep : s.step e = some s') : PodInv uid s'.daemon s'.removing := by
  have happend : PodInv uid s.daemon (s.removing ++ []) := by rwa [append_nil]
  simpa using happend.step_append hpod hok hstep

theorem PodInv.gone (h : PodInv uid s.daemon m) : Gone uid s :=
  fun hnone => (h.tidy.absent hnone).1

theorem PodInv.init {pods : PodSystem} {sweeps : Nat} {requests : List (DeletionKind × String × String)}
    (htidy : Tidy uid (init pods sweeps requests).daemon) :
    PodInv uid (init pods sweeps requests).daemon
      (ControlSystem.init pods sweeps requests).removing := by
  have hnone : (ControlSystem.init pods sweeps requests).removing = [] := by
    simp [ControlSystem.removing, ControlSystem.init, Sweep.removing, Deletion.removing,
      List.flatMap_replicate, List.flatMap_map]
  rw [hnone]
  exact ⟨htidy, fun i hi => absurd hi not_mem_nil, fun x hx => absurd hx not_mem_nil,
    fun x hx => absurd hx not_mem_nil⟩

/-- Sweeps, deletions and starts of their own do not resurrect a pod, while each one starts it only before
its first stop, and stops it only when no start of it is under way. -/
theorem gone_along {pod : Pod} {pods : PodSystem} {sweeps : Nat}
    {requests : List (DeletionKind × String × String)} {es : List ControlEvent}
    (htidy : Tidy (AnyResource.pod pod).uid (ControlSystem.init pods sweeps requests).daemon)
    (hok : Along ControlSystem.step (Orderly (AnyResource.pod pod).uid)
      (ControlSystem.init pods sweeps requests) es) :
    Always ControlSystem.step (Gone (AnyResource.pod pod).uid)
      (ControlSystem.init pods sweeps requests) es :=
  always_of_invariant (I := fun s => PodInv (AnyResource.pod pod).uid s.daemon s.removing)
    (fun _ _ _ h hok hstep => h.step ⟨pod, rfl⟩ hok hstep)
    (fun _ h => h.gone) (PodInv.init htidy) hok

theorem tidy_init (uid : String) (nm : NetMux) (store : ResourceStore) (sweeps : Nat)
    (requests : List (DeletionKind × String × String)) :
    Tidy uid (init (.init nm store) sweeps requests).daemon where
  own := forall_mem_nil _
  absent := fun _ => ⟨fun ⟨_, he, _⟩ => absurd he not_mem_nil, fun ⟨_, ht, _⟩ => absurd ht not_mem_nil⟩
  recorded := fun _ _ _ _ he => absurd he not_mem_nil
  started := fun _ _ _ _ ht => absurd ht not_mem_nil

private def dbPod : Pod where
  metadata := { name := some "db", inNamespace := some "default" }
  spec := some { containers := [{ name := "app", image := some "host" }] }

private def smallNet : NetMux :=
  ⟨IpPool.new ⟨Ipv4Addr.new 10 42 0 0, 30⟩, ∅, 30, Ipv4Addr.new 10 42 0 1⟩

/-- The pod is stored and pending, a sweep begins and a deletion of the pod is requested. -/
private def sweptAndDeleted : ControlSystem :=
  .init (.init smallNet (ResourceStore.new.apply (.pod dbPod))) 1 [(.pod, "default", "db")]

private def sweepSpawns : List ControlEvent :=
  [.sweep 0 (.snapshot [.new (.pod dbPod)]), .sweep 0 .next]

private def startRuns : List ControlEvent :=
  [.detached 0 .call, .pods (.start 0 .checkDuplicate), .pods (.start 0 .insertPlaceholders),
    .pods (.start 0 (.createCgroup (.ok ()))),
    .pods (.start 0 (.spawnNext (.ok "") ⟨true, .ok 100, .ok true, .ok (), .attached 4 5, []⟩)),
    .pods (.start 0 .record), .detached 0 .returned]

private def deletionRuns (state : ResourceState) : List ControlEvent :=
  [.deletion 0 (.list [⟨.pod dbPod, state⟩]), .deletion 0 .call, .pods (.stop 0 (.detach [])),
    .pods (.stop 0 .stopContainer), .pods (.stop 0 .removeRestartCount), .deletion 0 .stopped,
    .deletion 0 .delete, .deletion 0 .leave]

theorem gone_along_started_before_deletion :
    (∃ s ∈ run ControlSystem.step sweptAndDeleted (sweepSpawns ++ startRuns ++ deletionRuns .running),
      s.isIdle = true ∧ s.daemon.store.get "Pod/default/db" = none ∧ s.daemon.running.keys = []) ∧
    Always ControlSystem.step (Gone (AnyResource.pod dbPod).uid) sweptAndDeleted
      (sweepSpawns ++ startRuns ++ deletionRuns .running) :=
  ⟨by decide +kernel, gone_along (tidy_init _ _ _ _ _) (by decide +kernel)⟩

/-- The sweep has left the start to a task of its own. The deletion stops and deletes the pod before this
task gets to run, and the container is running when all is over. -/
theorem deleted_pod_started_again :
    ∃ s ∈ run ControlSystem.step sweptAndDeleted (sweepSpawns ++ deletionRuns .pending ++ startRuns),
      s.isIdle = true ∧ s.daemon.store.get "Pod/default/db" = none ∧
      (s.daemon.running.get "db-app").map (fun rc => (rc.startedFor, rc.inst.pid)) =
        some ("Pod/default/db", some 100) ∧
      ¬ Gone (AnyResource.pod dbPod).uid s := by
  decide +kernel

end Z8s.Control
