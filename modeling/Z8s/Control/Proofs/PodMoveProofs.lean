import Z8s.Control.Safety
import Z8s.Pods.Proofs.SystemProofs

/-!
# Proofs: what the pods do by themselves

`PodMove` says what a step of the pods can change that is not a call of `start_pod` or `stop_pod`: starts
only come to their ends, an entry is new only if a start under way made it, and a stop takes the containers
away one by one.
-/

namespace Z8s.Control

open Collections Z8s.Types Netmux Cri Scheduler Pods Transition List

variable {sup sup' : Supervisor} {pods pods' : PodSystem}

def left (t : StopTask) : List String :=
  match t.phase with
  | .forgetting => t.todo.tail.map ContainerConfig.containerId
  | _ => t.todo.map ContainerConfig.containerId

structure PodMove (pods pods' : PodSystem) : Prop where
  own : ∀ t ∈ pods'.starts, OwnWork t
  starts : ∀ t' ∈ pods'.starts, t'.isDone = false →
    ∃ t ∈ pods.starts, t.isDone = false ∧ t.spec = t'.spec
  running : ∀ cid rc, pods'.sup.running.get cid = some rc →
    (∃ rc₀, pods.sup.running.get cid = some rc₀ ∧ rc₀.startedFor = rc.startedFor) ∨
      ∃ t ∈ pods.starts, t.isDone = false ∧ t.spec.podUid = rc.startedFor ∧ cid ∈ t.spec.ids
  stops : ∀ (i : Nat) t, pods.stops[i]? = some t → ∃ t', pods'.stops[i]? = some t' ∧
    ∀ cid ∈ left t, cid ∈ left t' ∨ pods'.sup.running.get cid = none
  holds : ∀ r, pods'.pt.store.Holds r ↔ pods.pt.store.Holds r

theorem OwnWork.of_idle {t : StartTask} (htodo : t.todo = []) (hprepared : t.prepared = []) : OwnWork t := by
  constructor
  · rw [htodo]
    exact forall_mem_nil _
  · rw [hprepared]
    exact forall_mem_nil _

theorem ownWork_startMove {task task' : StartTask} {e : StartEvent} (hown : OwnWork task)
    (hspec : task'.spec = task.spec) (hmove : StartMove sup task.spec task.phase e sup' task'.phase) :
    task.isDone = false ∧ OwnWork task' ∧
      ∀ cid rc, sup'.running.get cid = some rc → sup.running.get cid = some rc ∨
        (task.spec.podUid = rc.startedFor ∧ cid ∈ task.spec.ids) := by
  obtain ⟨spec, phase⟩ := task
  obtain ⟨spec', phase'⟩ := task'
  obtain rfl : spec' = spec := hspec
  have hopen : (⟨spec', phase⟩ : StartTask).isDone = false := by cases hmove <;> rfl
  refine ⟨hopen, ?_, fun cid rc hget => ?_⟩
  · cases hmove with
    | cgroup => exact ⟨fun cfg hcfg => mem_map_of_mem hcfg, forall_mem_nil _⟩
    | spawnFails e _ _ => exact ⟨forall_mem_nil _, hown.prepared⟩
    | @spawned cfg todo prepared _ _ _ _ _ _ pid _ _ =>
      obtain ⟨hcfg, htodo⟩ := forall_mem_cons.1 hown.todo
      refine ⟨htodo, fun x hx => ?_⟩
      rcases mem_append.1 hx with hx | hx
      · exact hown.prepared x hx
      · obtain rfl := mem_singleton.1 hx
        exact ⟨hcfg, rfl⟩
    | _ => exact .of_idle rfl rfl
  · rcases StartMove.get_running (t := ⟨spec', phase⟩) hmove hget with hold | ⟨cfg, hcfg, rfl, rfl⟩ | hmem
    · exact .inl hold
    · exact .inr ⟨rfl, mem_map_of_mem hcfg⟩
    · obtain ⟨hid, huid⟩ := hown.prepared _ hmem
      exact .inr ⟨huid.symm, hid⟩

theorem left_stopMove {task task' : StopTask} {e : StopEvent} (hstep : task.step sup e = some (sup', task')) :
    (∀ cid rc, sup'.running.get cid = some rc → sup.running.get cid = some rc) ∧
      ∀ cid ∈ left task, cid ∈ left task' ∨ sup'.running.get cid = none := by
  refine ⟨(StopTask.get_of_step hstep).1, fun cid hcid => ?_⟩
  obtain ⟨cfg, todo, htodo, ⟨order, -, hphase, rfl, rfl⟩ | ⟨-, hphase, rfl, rfl⟩ | ⟨-, hphase, rfl, rfl⟩⟩ :=
    StopTask.step_cases hstep
  · left
    simpa only [left, hphase] using hcid
  · simp only [left, hphase, htodo, map_cons] at hcid ⊢
    rcases mem_cons.1 hcid with rfl | hcid
    · exact .inr (by simp [stopContainer, HashMap.get_remove])
    · exact .inl hcid
  · left
    simpa only [left, hphase, htodo, tail_cons] using hcid

/-- Where starts, stops and resources are as before, a move is in order if every entry was there before. -/
theorem PodMove.of_running (hown : ∀ t ∈ pods.starts, OwnWork t) (hstarts : pods'.starts = pods.starts)
    (hstops : pods'.stops = pods.stops) (hholds : ∀ r, pods'.pt.store.Holds r ↔ pods.pt.store.Holds r)
    (hrunning : ∀ cid rc, pods'.sup.running.get cid = some rc →
      ∃ rc₀, pods.sup.running.get cid = some rc₀ ∧ rc₀.startedFor = rc.startedFor) :
    PodMove pods pods' where
  own := hstarts ▸ hown
  starts t ht hdone := ⟨t, hstarts ▸ ht, hdone, rfl⟩
  running cid rc hget := .inl (hrunning cid rc hget)
  stops _ t ht := ⟨t, hstops ▸ ht, fun _ hcid => .inl hcid⟩
  holds := hholds

theorem holds_settleExit (pt : ProcessTracker) (d : Exited) (decision : ExitDecision) (r : AnyResource) :
    (settleExit pt d decision).store.Holds r ↔ pt.store.Holds r := by
  unfold settleExit
  split_ifs
  · rfl
  · rfl
  · rfl
  · exact ResourceStore.holds_updateState
  · exact ResourceStore.holds_updateState

theorem podMove_of_internal {e : PodEvent} (hint : isInternal e = true)
    (hown : ∀ t ∈ pods.starts, OwnWork t) (hstep : pods.step e = some pods') : PodMove pods pods' := by
  cases e with
  | start t e =>
    obtain ⟨sup', starts', task, task', others, -, hf, hperm, hperm', rfl⟩ := stepAt_map_eq_some hstep
    obtain ⟨hspec, hmove⟩ := StartTask.move_of_step hf
    have htask : task ∈ pods.starts := hperm.mem_iff.2 mem_cons_self
    have hothers : ∀ t ∈ others, t ∈ pods.starts := fun t ht => hperm.mem_iff.2 (mem_cons_of_mem _ ht)
    obtain ⟨hdone, hown', hrunning⟩ := ownWork_startMove (hown task htask) hspec hmove
    refine ⟨fun t ht => ?_, fun t ht htdone => ?_, fun cid rc hget => ?_,
      fun i t ht => ⟨t, ht, fun _ hcid => .inl hcid⟩, fun r => Iff.rfl⟩
    · rcases mem_cons.1 (hperm'.mem_iff.1 ht) with rfl | ht
      · exact hown'
      · exact hown t (hothers t ht)
    · rcases mem_cons.1 (hperm'.mem_iff.1 ht) with rfl | ht
      · exact ⟨task, htask, hdone, hspec.symm⟩
      · exact ⟨t, hothers t ht, htdone, rfl⟩
    · rcases hrunning cid rc hget with hold | ⟨huid, hid⟩
      · exact .inl ⟨rc, hold, rfl⟩
      · exact .inr ⟨task, htask, hdone, huid, hid⟩
  | stop t e =>
    obtain ⟨⟨sup', stops'⟩, hat, rfl⟩ := Option.map_eq_some_iff.1 hstep
    obtain ⟨task, htask, hmap⟩ := Option.bind_eq_some_iff.1 hat
    obtain ⟨⟨sup'', task'⟩, hf, heq⟩ := Option.map_eq_some_iff.1 hmap
    cases heq
    obtain ⟨hrunning, hleft⟩ := left_stopMove hf
    refine ⟨hown, fun t ht htdone => ⟨t, ht, htdone, rfl⟩,
      fun cid rc hget => .inl ⟨rc, hrunning cid rc hget, rfl⟩, fun i u hu => ?_, fun r => Iff.rfl⟩
    by_cases hi : t = i
    · subst hi
      obtain rfl := Option.some.inj (htask.symm.trans hu)
      refine ⟨task', ?_, hleft⟩
      exact List.getElem?_set_self (List.getElem?_eq_some_iff.1 htask).1
    · exact ⟨u, (getElem?_set_ne hi).trans hu, fun _ hcid => .inl hcid⟩
  | reaped pids =>
    cases hstep
    exact .of_running hown rfl rfl (fun r => Iff.rfl) fun cid rc hget => ⟨rc, hget, rfl⟩
  | exit t e =>
    obtain ⟨pt', exits', task, task', others, -, hf, -, -, rfl⟩ := stepAt_map_eq_some hstep
    obtain ⟨d, todo, -, ⟨-, rfl, -⟩ | ⟨-, rfl, -⟩ | ⟨-, -, decision, rfl⟩⟩ := ExitTask.step_cases hf
    · exact .of_running hown rfl rfl (fun r => Iff.rfl) fun cid rc hget => ⟨rc, hget, rfl⟩
    · refine .of_running hown rfl rfl (fun r => Iff.rfl) fun cid rc hget => ?_
      have hrem : (pods.sup.running.remove d.containerId).get cid = some rc := hget
      rw [HashMap.get_remove] at hrem
      split_ifs at hrem
      exact ⟨rc, hrem, rfl⟩
    · refine .of_running hown rfl rfl (holds_settleExit pods.pt d decision) fun cid rc hget => ⟨rc, ?_, rfl⟩
      exact (sup_settleExit pods.pt d decision).1 ▸ hget
  | delayed d =>
    simp only [PodSystem.step] at hstep
    split_ifs at hstep
    cases hstep
    exact .of_running hown rfl rfl (fun r => ResourceStore.holds_updateState)
      fun cid rc hget => ⟨rc, hget, rfl⟩
  | registerSubnet name cidrStr =>
    simp only [PodSystem.step] at hstep
    split at hstep
    · cases hstep
      exact .of_running hown rfl rfl (fun r => Iff.rfl) fun cid rc hget => ⟨rc, hget, rfl⟩
    · cases hstep
      exact .of_running hown rfl rfl (fun r => Iff.rfl) fun cid rc hget => ⟨rc, hget, rfl⟩
  | probe containerId ready =>
    cases hstep
    refine .of_running hown rfl rfl (fun r => Iff.rfl) fun cid rc hget => ?_
    have hupd : (pods.sup.running.update containerId ({ · with ready })).get cid = some rc := hget
    rw [HashMap.get_update] at hupd
    split_ifs at hupd
    · obtain ⟨rc₀, hrc₀, rfl⟩ := Option.map_eq_some_iff.1 hupd
      exact ⟨rc₀, hrc₀, rfl⟩
    · exact ⟨rc, hupd, rfl⟩
  | _ => cases hint

end Z8s.Control
