import Z8s.Cri.Proofs.RuntimeProofs
import Z8s.Pods.System
import Z8s.Transition.Proofs.RunProofs

/-!
# Proofs: what the tasks can do

The moves of each kind of task, once and for all: `StartMove` lists those of a start with their
guards and effects, and `StopTask.step_cases` and `ExitTask.step_cases` those of the others.
-/

namespace Z8s.Pods

open Collections Netmux Cri Scheduler Transition StartTask Function

variable {sup sup' : Supervisor}

/-- The moves of a start of `spec`: phase, event, supervisor and phase afterwards. -/
inductive StartMove (sup : Supervisor) (spec : ContainerSpec) :
    StartPhase → StartEvent → Supervisor → StartPhase → Prop
  | duplicate (h : checkDuplicateStart sup.running spec.podName = true) :
    StartMove sup spec .entered .checkDuplicate sup (.done (.ok ()))
  | fresh (h : checkDuplicateStart sup.running spec.podName = false) :
    StartMove sup spec .entered .checkDuplicate sup .checked
  | place : StartMove sup spec .checked .insertPlaceholders
      { sup with running := (insertPlaceholders sup.running spec).1 } .placed
  | cgroup : StartMove sup spec .placed (.createCgroup (.ok ())) sup (.spawning spec.containers [])
  | cgroupFails (e : Error) :
    StartMove sup spec .placed (.createCgroup (.error e)) sup (.failing e [])
  | unpackFails {cfg todo prepared unpackImage env e} (h : prepareRootfs cfg unpackImage = .error e) :
    StartMove sup spec (.spawning (cfg :: todo) prepared) (.spawnNext unpackImage env) sup
      (.done (.error e))
  | spawnFails {cfg todo prepared unpackImage env rootfs} (e : Error)
      (hprep : prepareRootfs cfg unpackImage = .ok rootfs) (h : env.succeeds cfg = false) :
    StartMove sup spec (.spawning (cfg :: todo) prepared) (.spawnNext unpackImage env) sup
      (.failing e prepared)
  | spawned {cfg todo prepared unpackImage env rootfs podIp idx nm} (pid : Nat)
      (hprep : prepareRootfs cfg unpackImage = .ok rootfs)
      (hnet : NetworkOf sup.netmux (env.attaches cfg) spec.subnet env podIp idx nm) :
    StartMove sup spec (.spawning (cfg :: todo) prepared) (.spawnNext unpackImage env)
      { sup with netmux := nm }
      (.spawning todo (prepared ++ [(cfg.containerId, buildRunningFromInstance spec.podUid
        (buildContainerInstance cfg pid rootfs podIp idx))]))
  | unplace {e prepared} : StartMove sup spec (.failing e prepared) .removePlaceholders
      { sup with running := removePlaceholders sup.running spec.ids } (.done (.error e))
  | record {prepared} : StartMove sup spec (.spawning [] prepared) .record
      { sup with running := sup.running.insertAll prepared } (.done (.ok ()))

theorem StartTask.move_of_step {t t' : StartTask} {e : StartEvent} (h : t.step sup e = some (sup', t')) :
    t'.spec = t.spec ∧ StartMove sup t.spec t.phase e sup' t'.phase := by
  obtain ⟨spec, phase⟩ := t
  cases e with
  | checkDuplicate =>
    simp only [step] at h
    split at h
    · split_ifs at h with hdup
      · cases h
        exact ⟨rfl, .duplicate hdup⟩
      · cases h
        exact ⟨rfl, .fresh (Bool.not_eq_true _ ▸ hdup)⟩
    · cases h
  | insertPlaceholders =>
    simp only [step] at h
    split at h
    · cases h
      exact ⟨rfl, .place⟩
    · cases h
  | createCgroup result =>
    simp only [step] at h
    split at h
    · cases h
      exact ⟨rfl, .cgroup⟩
    · cases h
      exact ⟨rfl, .cgroupFails _⟩
    · cases h
  | spawnNext unpackImage env =>
    simp only [step] at h
    split at h
    · rename_i cfg todo prepared
      split at h
      · rename_i e hprep
        cases h
        exact ⟨rfl, .unpackFails hprep⟩
      · rename_i rootfs hprep
        rcases spawnContainerFromConfig_cases sup.netmux cfg rootfs spec.podUid spec.subnet env with
          ⟨hfail, e, hs⟩ | ⟨-, pid, podIp, idx, nm, hs, hnet⟩
        · rw [hs] at h
          cases h
          exact ⟨rfl, .spawnFails _ hprep hfail⟩
        · rw [hs] at h
          cases h
          exact ⟨rfl, .spawned pid hprep hnet⟩
    · cases h
  | removePlaceholders =>
    simp only [step] at h
    split at h
    · cases h
      exact ⟨rfl, .unplace⟩
    · cases h
  | record =>
    simp only [step] at h
    split at h
    · cases h
      exact ⟨rfl, .record⟩
    · cases h

/-- An entry after a move of a start was there before, or the start has made it. -/
theorem StartMove.get_running {t : StartTask} {e : StartEvent} {phase' : StartPhase}
    (h : StartMove sup t.spec t.phase e sup' phase') {cid : String} {rc : RunningContainer}
    (hget : sup'.running.get cid = some rc) :
    sup.running.get cid = some rc ∨
      (∃ cfg ∈ t.spec.containers, cfg.containerId = cid ∧ placeholder t.spec.podUid cfg = rc) ∨
      (cid, rc) ∈ t.prepared := by
  obtain ⟨spec, phase⟩ := t
  cases h with
  | place =>
    rcases get_insertPlaceholders sup.running spec cid with ⟨-, hsame⟩ | ⟨-, cfg, hcfg, hid, hnew⟩
    · exact .inl (hsame.symm.trans hget)
    · exact .inr (.inl ⟨cfg, hcfg, hid, Option.some.inj (hnew.symm.trans hget)⟩)
  | unplace =>
    have hrem : (sup.running.removeAll spec.ids).get cid = some rc := hget
    rw [HashMap.get_removeAll] at hrem
    split_ifs at hrem
    exact .inl hrem
  | record =>
    rcases HashMap.mem_of_get_insertAll hget with hmem | ⟨-, hold⟩
    · exact .inr (.inr hmem)
    · exact .inl hold
  | _ => exact .inl hget

/-! ### An uninterrupted start -/

theorem run_spawnAllContainers (spec : ContainerSpec) (env : Nat → ContainerEnv)
    (todo : List ContainerConfig) (prepared : List (String × RunningContainer)) (sup : Supervisor) :
    ∃ es, run (uncurry step) (sup, ⟨spec, .spawning todo prepared⟩) es =
      match spawnAllContainers spec spec.ids env todo prepared sup with
      | (.ok all, sup') => some (sup', ⟨spec, .spawning [] all⟩)
      | (.error e, sup') => some (sup', ⟨spec, .done (.error e)⟩) := by
  induction todo generalizing prepared sup with
  | nil => exact ⟨[], rfl⟩
  | cons cfg todo ih =>
    unfold spawnAllContainers
    generalize env prepared.length = c
    cases hprep : prepareRootfs cfg c.unpackImage with
    | error e =>
      refine ⟨[.spawnNext c.unpackImage c.spawn], ?_⟩
      simp only [run, uncurry, step, hprep, Option.bind_some]
    | ok rootfs =>
      rcases spawnContainerFromConfig_cases sup.netmux cfg rootfs spec.podUid spec.subnet c.spawn with
        ⟨-, e, hs⟩ | ⟨-, pid, podIp, idx, nm, hs, -⟩
      · -- a failed spawn needs a second move, which removes the placeholders
        refine ⟨[.spawnNext c.unpackImage c.spawn, .removePlaceholders], ?_⟩
        simp only [run, uncurry, step, hprep, hs, Option.bind_some]
      · obtain ⟨es, hes⟩ := ih (prepared ++ [(cfg.containerId, buildRunningFromInstance spec.podUid
          (buildContainerInstance cfg pid rootfs podIp idx))]) { sup with netmux := nm }
        refine ⟨.spawnNext c.unpackImage c.spawn :: es, ?_⟩
        rw [run, uncurry]
        simp only [step, hprep, hs, Option.bind_some]
        exact hes

/-- `startPodFromSpec` is what the moves of a start amount to when nothing happens in between. -/
theorem run_startPodFromSpec (sup : Supervisor) (spec : ContainerSpec)
    (createCgroup : Except Error Unit) (env : Nat → ContainerEnv) :
    ∃ es, run (uncurry step) (sup, ⟨spec, .entered⟩) es =
      some ((startPodFromSpec sup spec createCgroup env).2,
        ⟨spec, .done (startPodFromSpec sup spec createCgroup env).1⟩) := by
  by_cases hdup : checkDuplicateStart sup.running spec.podName = true
  · refine ⟨[.checkDuplicate], ?_⟩
    simp only [startPodFromSpec, run, uncurry, step, hdup, if_true, Option.bind_some]
  cases createCgroup with
  | error e =>
    refine ⟨[.checkDuplicate, .insertPlaceholders, .createCgroup (.error e), .removePlaceholders], ?_⟩
    simp only [startPodFromSpec, run, uncurry, step, hdup, Option.bind_some,
      Bool.false_eq_true, if_false]
    rfl
  | ok u =>
    simp only [startPodFromSpec, hdup, Bool.false_eq_true, if_false, insertPlaceholders]
    set sup₁ : Supervisor := { sup with running := _ } with hsup₁
    have hpre : ∀ es, run (uncurry step) (sup, ⟨spec, .entered⟩)
        (.checkDuplicate :: .insertPlaceholders :: .createCgroup (.ok u) :: es) =
        run (uncurry step) (sup₁, ⟨spec, .spawning spec.containers []⟩) es := by
      intro es
      simp only [run, uncurry, step, hdup, Option.bind_some, Bool.false_eq_true, if_false, insertPlaceholders, hsup₁]
    obtain ⟨es, hes⟩ := run_spawnAllContainers spec env spec.containers [] sup₁
    rcases hall : spawnAllContainers spec spec.ids env spec.containers [] sup₁ with ⟨e | all, sup'⟩
    · rw [hall] at hes
      exact ⟨_, (hpre es).trans hes⟩
    · rw [hall] at hes
      refine ⟨_, (hpre (es ++ [.record])).trans ?_⟩
      rw [run_append, hes]
      rfl

theorem StopTask.step_cases {t t' : StopTask} {e : StopEvent} (h : t.step sup e = some (sup', t')) :
    ∃ cfg todo, t.todo = cfg :: todo ∧
      ((∃ order, e = .detach order ∧ t.phase = .detaching ∧
          sup' = detachContainer sup cfg.containerId order ∧ t' = { t with phase := .stopping }) ∨
        (e = .stopContainer ∧ t.phase = .stopping ∧ sup' = stopContainer sup cfg.containerId ∧
          t' = { t with phase := .forgetting }) ∨
        (e = .removeRestartCount ∧ t.phase = .forgetting ∧
          sup' = removeRestartCount sup cfg.containerId ∧ t' = ⟨todo, .detaching⟩)) := by
  cases e with
  | detach order =>
    simp only [StopTask.step] at h
    split at h
    · rename_i cfg todo htodo hphase
      cases h
      exact ⟨cfg, todo, htodo, .inl ⟨order, rfl, hphase, rfl, rfl⟩⟩
    · cases h
  | stopContainer =>
    simp only [StopTask.step] at h
    split at h
    · rename_i cfg todo htodo hphase
      cases h
      exact ⟨cfg, todo, htodo, .inr (.inl ⟨rfl, hphase, rfl, rfl⟩)⟩
    · cases h
  | removeRestartCount =>
    simp only [StopTask.step] at h
    split at h
    · rename_i cfg todo htodo hphase
      cases h
      exact ⟨cfg, todo, htodo, .inr (.inr ⟨rfl, hphase, rfl, rfl⟩)⟩
    · cases h

/-- A move of a stop puts no entry and no restart count there. -/
theorem StopTask.get_of_step {t t' : StopTask} {e : StopEvent} (h : t.step sup e = some (sup', t')) :
    (∀ cid rc, sup'.running.get cid = some rc → sup.running.get cid = some rc) ∧
      ∀ cid c, sup'.restartCounts.get cid = some c → sup.restartCounts.get cid = some c := by
  obtain ⟨cfg, todo, -, ⟨order, -, -, rfl, -⟩ | ⟨-, -, rfl, -⟩ | ⟨-, -, rfl, -⟩⟩ := StopTask.step_cases h
  · rw [running_detachContainer, restartCounts_detachContainer]
    exact ⟨fun _ _ => id, fun _ _ => id⟩
  · refine ⟨fun cid rc hget => ?_, fun _ _ => id⟩
    simp only [stopContainer, HashMap.get_remove] at hget
    split_ifs at hget
    exact hget
  · refine ⟨fun _ _ => id, fun cid c hget => ?_⟩
    simp only [removeRestartCount, HashMap.get_remove] at hget
    split_ifs at hget
    exact hget

theorem ExitTask.step_cases {pt pt' : ProcessTracker} {t t' : ExitTask} {e : ExitEvent}
    (h : t.step pt e = some (pt', t')) :
    ∃ d todo, t.todo = d :: todo ∧
      ((e = .decide ∧ pt' = pt ∧ t'.todo = t.todo) ∨
        (e = .remove ∧ pt' = removeExited pt d ∧ t'.todo = t.todo) ∨
        (e = .settle ∧ t'.todo = todo ∧ ∃ decision, pt' = settleExit pt d decision)) := by
  cases e with
  | decide =>
    simp only [ExitTask.step] at h
    split at h
    · rename_i d todo htodo _
      cases h
      exact ⟨d, todo, htodo, .inl ⟨rfl, rfl, rfl⟩⟩
    · cases h
  | remove =>
    simp only [ExitTask.step] at h
    split at h
    · rename_i d todo decision htodo _
      cases h
      exact ⟨d, todo, htodo, .inr (.inl ⟨rfl, rfl, rfl⟩)⟩
    · cases h
  | settle =>
    simp only [ExitTask.step] at h
    split at h
    · rename_i d todo decision htodo _
      cases h
      exact ⟨d, todo, htodo, .inr (.inr ⟨rfl, rfl, decision, rfl⟩)⟩
    · cases h

/-- Settling an exit touches neither the running map nor the network, and counts at most the
restart of the container. -/
theorem sup_settleExit (pt : ProcessTracker) (d : Exited) (decision : ExitDecision) :
    (settleExit pt d decision).sup.running = pt.sup.running ∧
      (settleExit pt d decision).sup.netmux = pt.sup.netmux ∧
      ((settleExit pt d decision).sup.restartCounts = pt.sup.restartCounts ∨
        ∃ count, (settleExit pt d decision).sup.restartCounts =
          pt.sup.restartCounts.insert d.containerId ⟨count, d.startedFor⟩) := by
  unfold settleExit
  split_ifs
  · exact ⟨rfl, rfl, .inr ⟨_, rfl⟩⟩
  · exact ⟨rfl, rfl, .inr ⟨_, rfl⟩⟩
  all_goals exact ⟨rfl, rfl, .inl rfl⟩

end Z8s.Pods
