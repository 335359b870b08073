import Z8s.Cri.Runtime

/-!
# Proofs: the container runtime

What a spawn can return, what the placeholders do to lookups in the running map, and what a failed
start leaves behind.
-/

namespace Z8s.Cri

open Rust Collections Netmux

variable {running : HashMap String RunningContainer}
variable {spec : ContainerSpec} {podName : String}

/-- The network of a spawned container: what the attachment gave, if there was one. -/
def NetworkOf (nm : NetMux) (attaches : Bool) (subnet : Option String) (env : SpawnEnv)
    (podIp : Option Ipv4Addr) (idx : Option Nat) (nm' : NetMux) : Prop :=
  (if attaches then attachContainer nm subnet env else ((none, none), nm)) = ((podIp, idx), nm')

theorem handleVethNetns_networkOf {nm nm' : NetMux} {isolateNet : Bool} {subnet : Option String}
    {env : SpawnEnv} {podIp : Option Ipv4Addr} {idx : Option Nat}
    (h : handleVethNetns nm isolateNet subnet env = ((podIp, idx), nm')) :
    NetworkOf nm (isolateNet && env.sync.toOption == some true) subnet env podIp idx nm' := by
  unfold NetworkOf
  rw [← h]
  unfold handleVethNetns
  rcases isolateNet with _ | _
  · rfl
  · rcases env.sync with e | _ | _ <;> rfl

theorem spawnUsernsContainer_cases (nm : NetMux) (cfg : ContainerConfig) (rootfs podUid : String)
    (subnet : Option String) (env : SpawnEnv) {pid : Nat} (hfork : env.fork = .ok pid)
    (hnative : ¬ cfg.isNative = true) (hroot : ¬ env.isRoot = true) :
    (env.succeeds cfg = false ∧
      ∃ e, spawnUsernsContainer nm cfg rootfs podUid subnet env = (.error e, nm)) ∨
    (env.succeeds cfg = true ∧ ∃ pid podIp idx nm',
      spawnUsernsContainer nm cfg rootfs podUid subnet env =
        (.ok (buildRunningFromInstance podUid (buildContainerInstance cfg pid rootfs podIp idx)), nm') ∧
      NetworkOf nm (env.attaches cfg) subnet env podIp idx nm') := by
  unfold spawnUsernsContainer
  have hsucc : env.succeeds cfg = (env.sync.toOption == some true && env.usernsMaps.isOk) := by
    unfold SpawnEnv.succeeds
    rw [hfork]
    simp [hnative, hroot, Except.isOk, Except.toBool]
  rw [hfork]
  cases hsync : env.sync with
  | error e =>
    rw [hsync] at hsucc
    exact .inl ⟨hsucc, _, rfl⟩
  | ok synced =>
    rw [hsync] at hsucc
    cases synced with
    | false => exact .inl ⟨hsucc, _, rfl⟩
    | true =>
      cases hmaps : env.usernsMaps with
      | error e =>
        rw [hmaps] at hsucc
        exact .inl ⟨hsucc, _, rfl⟩
      | ok u =>
        rw [hmaps] at hsucc
        right
        refine ⟨hsucc, pid, ?_⟩
        have hatt : env.attaches cfg = cfg.isolatedNet := by
          unfold SpawnEnv.attaches
          rw [hsucc, hsync]
          simp [hnative, Except.toOption, Except.isOk, Except.toBool]
        rw [hatt]
        unfold NetworkOf
        rcases if cfg.isolatedNet = true then attachContainer nm subnet env else ((none, none), nm) with
          ⟨⟨podIp, idx⟩, nm'⟩
        exact ⟨podIp, idx, nm', rfl, rfl⟩

/-- A spawn fails without touching the network engine, or it succeeds with a new entry for the
container. -/
theorem spawnContainerFromConfig_cases (nm : NetMux) (cfg : ContainerConfig) (rootfs podUid : String)
    (subnet : Option String) (env : SpawnEnv) :
    (env.succeeds cfg = false ∧
      ∃ e, spawnContainerFromConfig nm cfg rootfs podUid subnet env = (.error e, nm)) ∨
    (env.succeeds cfg = true ∧ ∃ pid podIp idx nm',
      spawnContainerFromConfig nm cfg rootfs podUid subnet env =
        (.ok (buildRunningFromInstance podUid (buildContainerInstance cfg pid rootfs podIp idx)), nm') ∧
      NetworkOf nm (env.attaches cfg) subnet env podIp idx nm') := by
  unfold spawnContainerFromConfig
  cases hfork : env.fork with
  | error e =>
    left
    refine ⟨by simp [SpawnEnv.succeeds, hfork, Except.isOk, Except.toBool], e, ?_⟩
    simp only [spawnRootNsContainer, spawnUsernsContainer, hfork, ite_self]
  | ok pid =>
    have hok : env.fork.isOk = true := by rw [hfork]; rfl
    by_cases hnative : cfg.isNative
    · right
      refine ⟨by simp [SpawnEnv.succeeds, hok, hnative], pid, none, none, nm, ?_, ?_⟩
      · rw [if_pos hnative]
      · simp [NetworkOf, SpawnEnv.attaches, hnative]
    by_cases hroot : env.isRoot
    · right
      have hsucc : env.succeeds cfg = true := by simp [SpawnEnv.succeeds, hok, hroot]
      refine ⟨hsucc, pid, ?_⟩
      rcases hnet : handleVethNetns nm cfg.isolatedNet subnet env with ⟨⟨podIp, idx⟩, nm'⟩
      refine ⟨podIp, idx, nm', ?_, ?_⟩
      · rw [if_neg hnative, if_pos hroot]
        simp only [spawnRootNsContainer, hfork, hnet]
      · have hatt := handleVethNetns_networkOf hnet
        simpa [SpawnEnv.attaches, hnative, hsucc] using hatt
    · rw [if_neg hnative, if_neg hroot]
      exact spawnUsernsContainer_cases nm cfg rootfs podUid subnet env hfork hnative hroot

/-! ### Placeholders -/

/-- A placeholder is stored exactly for the containers without an entry; all other lookups are as
before. -/
theorem get_insertPlaceholders (running : HashMap String RunningContainer) (spec : ContainerSpec)
    (cid : String) :
    ((cid ∈ spec.ids → running.get cid ≠ none) ∧
      (insertPlaceholders running spec).1.get cid = running.get cid) ∨
    (running.get cid = none ∧ ∃ cfg ∈ spec.containers, cfg.containerId = cid ∧
      (insertPlaceholders running spec).1.get cid = some (placeholder spec.podUid cfg)) := by
  unfold insertPlaceholders ContainerSpec.ids
  induction spec.containers generalizing running with
  | nil => exact .inl ⟨by simp, rfl⟩
  | cons cfg rest ih =>
    rw [List.foldl_cons]
    have hget : (insertPlaceholder spec.podUid running cfg).get cid =
        if cid = cfg.containerId ∧ running.get cid = none then some (placeholder spec.podUid cfg)
        else running.get cid := by
      unfold insertPlaceholder HashMap.containsKey
      by_cases hc : cid = cfg.containerId
      · subst hc
        cases hr : running.get cfg.containerId <;> simp [hr]
      · cases hr : running.get cfg.containerId <;> simp [HashMap.get_insert, hc]
    -- a container that is given a placeholder here keeps it
    by_cases hnew : cid = cfg.containerId ∧ running.get cid = none
    · right
      rw [if_pos hnew] at hget
      rcases ih (insertPlaceholder spec.podUid running cfg) with ⟨-, h⟩ | ⟨h, -⟩
      · exact ⟨hnew.2, cfg, List.mem_cons_self, hnew.1.symm, h.trans hget⟩
      · rw [hget] at h
        cases h
    · rw [if_neg hnew] at hget
      rcases ih (insertPlaceholder spec.podUid running cfg) with ⟨hin, h⟩ | ⟨hnone, cfg', hcfg', hid, h⟩
      · left
        refine ⟨fun hmem hnone => ?_, h.trans hget⟩
        rcases List.mem_cons.1 hmem with hc | hmem
        · exact hnew ⟨hc, hnone⟩
        · exact hin hmem (hget.trans hnone)
      · exact .inr ⟨hget.symm.trans hnone, cfg', List.mem_cons_of_mem cfg hcfg', hid, h⟩

theorem get_insertPlaceholders_of_notMem {cid : String} (h : cid ∉ spec.ids) :
    (insertPlaceholders running spec).1.get cid = running.get cid := by
  rcases get_insertPlaceholders running spec cid with ⟨-, hget⟩ | ⟨-, cfg, hcfg, rfl, -⟩
  · exact hget
  · exact absurd (List.mem_map_of_mem hcfg) h

theorem checkDuplicateStart_iff :
    checkDuplicateStart running podName = true ↔
      ∃ cid rc, running.get cid = some rc ∧ startsWith cid (podName ++ "-") = true := by
  unfold checkDuplicateStart
  rw [List.any_eq_true]
  constructor
  · rintro ⟨cid, hmem, hpre⟩
    obtain ⟨rc, hrc⟩ := HashMap.mem_keys.1 hmem
    exact ⟨cid, rc, hrc, hpre⟩
  · rintro ⟨cid, rc, hrc, hpre⟩
    exact ⟨cid, HashMap.mem_keys.2 ⟨rc, hrc⟩, hpre⟩

theorem checkDuplicateStart_congr {m m' : HashMap String RunningContainer}
    (h : ∀ cid, m'.get cid = m.get cid) (podName : String) :
    checkDuplicateStart m' podName = checkDuplicateStart m podName := by
  rw [Bool.eq_iff_iff, checkDuplicateStart_iff, checkDuplicateStart_iff]
  simp only [h]

/-! ### A failed start -/

theorem prepareRootfs_isOk (cfg : ContainerConfig) (r : Except Error String) :
    (prepareRootfs cfg r).isOk = (cfg.isNative || r.isOk) := by
  unfold prepareRootfs
  cases cfg.isNative <;> cases r <;> rfl

/-- The loop over the containers leaves the running map alone, unless a container whose image was
prepared cannot be spawned. -/
theorem spawnAllContainers_running (spec : ContainerSpec) (placeholders : List String)
    (env : Nat → ContainerEnv) (todo : List ContainerConfig)
    (prepared : List (String × RunningContainer)) (sup : Supervisor) :
    (failsInPreparation env prepared.length todo = true ∧
      ∃ e sup', spawnAllContainers spec placeholders env todo prepared sup = (.error e, sup') ∧
        sup'.running = sup.running) ∨
    (failsInPreparation env prepared.length todo = false ∧
      ((∃ e sup', spawnAllContainers spec placeholders env todo prepared sup = (.error e, sup') ∧
        sup'.running = removePlaceholders sup.running placeholders) ∨
      ∃ all sup', spawnAllContainers spec placeholders env todo prepared sup = (.ok all, sup'))) := by
  induction todo generalizing prepared sup with
  | nil => exact .inr ⟨rfl, .inr ⟨prepared, sup, rfl⟩⟩
  | cons cfg todo ih =>
    simp only [spawnAllContainers, failsInPreparation]
    have hprep := prepareRootfs_isOk cfg (env prepared.length).unpackImage
    cases hroot : prepareRootfs cfg (env prepared.length).unpackImage with
    | error e =>
      rw [hroot] at hprep
      have : cfg.isNative = false ∧ (env prepared.length).unpackImage.isOk = false := by
        simpa [Except.isOk, Except.toBool] using hprep.symm
      exact .inl ⟨by simp [this], e, sup, rfl, rfl⟩
    | ok rootfs =>
      rw [hroot] at hprep
      have hfirst : (!cfg.isNative && !(env prepared.length).unpackImage.isOk) = false := by
        rw [← Bool.not_or, ← hprep]
        rfl
      rw [hfirst, Bool.false_or]
      rcases spawnContainerFromConfig_cases sup.netmux cfg rootfs spec.podUid spec.subnet
          (env prepared.length).spawn with ⟨hfail, e, hs⟩ | ⟨hsucc, pid, ip, idx, nm', hs, -⟩
      · rw [hfail, Bool.false_and]
        right
        refine ⟨rfl, .inl ?_⟩
        simp only [hs]
        exact ⟨_, _, rfl, rfl⟩
      · rw [hsucc, Bool.true_and]
        simp only [hs]
        have := ih (prepared ++ [(cfg.containerId, buildRunningFromInstance spec.podUid
          (buildContainerInstance cfg pid rootfs ip idx))]) { sup with netmux := nm' }
        rwa [List.length_append] at this

theorem get_removePlaceholders_insertPlaceholders (h : ∀ cid ∈ spec.ids, running.get cid = none)
    (cid : String) :
    (removePlaceholders (insertPlaceholders running spec).1 spec.ids).get cid = running.get cid := by
  unfold removePlaceholders
  rw [HashMap.get_removeAll]
  by_cases hmem : cid ∈ spec.ids
  · rw [if_pos hmem, h cid hmem]
  · rw [if_neg hmem, get_insertPlaceholders_of_notMem hmem]

/-- The running map after a failed start: as before, so that the pod can be started again. -/
def NoTrace (sup sup' : Supervisor) (podName : String) : Prop :=
  (∀ cid, sup'.running.get cid = sup.running.get cid) ∧
    checkDuplicateStart sup'.running podName = false

theorem noTrace_of_get {sup sup' : Supervisor} (hdup : checkDuplicateStart sup.running podName = false)
    (h : ∀ cid, sup'.running.get cid = sup.running.get cid) : NoTrace sup sup' podName :=
  ⟨h, by rw [checkDuplicateStart_congr h, hdup]⟩

/-- A failed start leaves no trace, except when it is the preparation of an image that fails: then
the placeholders stay. -/
theorem noTrace_of_failed_start_iff (sup : Supervisor) (spec : ContainerSpec)
    (createCgroup : Except Error Unit) (env : Nat → ContainerEnv)
    (h : ∀ cid ∈ spec.ids, sup.running.get cid = none) :
    (∀ e sup', startPodFromSpec sup spec createCgroup env = (.error e, sup') →
      NoTrace sup sup' spec.podName) ↔
    (checkDuplicateStart sup.running spec.podName = true ∨ createCgroup.isOk = false ∨
      failsInPreparation env 0 spec.containers = false) := by
  have hundo := get_removePlaceholders_insertPlaceholders h
  unfold startPodFromSpec
  by_cases hdup : checkDuplicateStart sup.running spec.podName = true
  · simp [hdup]
  rw [Bool.not_eq_true] at hdup
  simp only [hdup, Bool.false_eq_true, if_false, false_or]
  cases createCgroup with
  | error e =>
    refine ⟨fun _ => .inl rfl, fun _ e' sup' hrun => ?_⟩
    obtain ⟨-, rfl⟩ := Prod.mk.inj hrun
    exact noTrace_of_get hdup hundo
  | ok u =>
    rcases spawnAllContainers_running spec (insertPlaceholders sup.running spec).2 env spec.containers []
        { sup with running := (insertPlaceholders sup.running spec).1 } with
      ⟨hprep, e, sup', hs, hrun⟩ | ⟨hprep, ⟨e, sup', hs, hrun⟩ | ⟨all, sup', hs⟩⟩
    · -- the placeholder of the first container is still there
      rw [List.length_nil] at hprep
      have hne : ∃ cfg, cfg ∈ spec.containers := by
        cases hc : spec.containers with
        | nil => rw [hc] at hprep; cases hprep
        | cons cfg rest => exact ⟨cfg, List.mem_cons_self⟩
      obtain ⟨cfg, hcfg⟩ := hne
      have hnone := h _ (List.mem_map_of_mem hcfg)
      have hsome : ∃ rc, sup'.running.get cfg.containerId = some rc := by
        rw [hrun]
        rcases get_insertPlaceholders sup.running spec cfg.containerId with
          ⟨hin, -⟩ | ⟨-, cfg', -, -, hget⟩
        · exact absurd hnone (hin (List.mem_map_of_mem hcfg))
        · exact ⟨_, hget⟩
      simp only [hs, hprep, Except.isOk, Except.toBool, Bool.true_eq_false, or_self, iff_false]
      intro hall
      obtain ⟨rc, hrc⟩ := hsome
      have := (hall e sup' rfl).1 cfg.containerId
      rw [hrc, hnone] at this
      cases this
    · rw [List.length_nil] at hprep
      simp only [hs, hprep, or_true, iff_true]
      intro e' sup'' heq
      obtain ⟨-, rfl⟩ := Prod.mk.inj heq
      refine noTrace_of_get hdup fun cid => ?_
      rw [hrun]
      exact hundo cid
    · rw [List.length_nil] at hprep
      simp only [hs, hprep, or_true, iff_true]
      intro e' sup'' heq
      cases (Prod.mk.inj heq).1

/-! ### Detaching -/

theorem detachContainer_cases (sup : Supervisor) (cid : String) (order : List String) :
    (∃ rc ip, sup.running.get cid = some rc ∧ rc.inst.podIp = some ip ∧
      rc.inst.hostVethIfindex.isSome = true ∧
      detachContainer sup cid order = { sup with netmux := sup.netmux.releaseIp ip order }) ∨
    ((∀ rc ip, sup.running.get cid = some rc → rc.inst.podIp = some ip →
      rc.inst.hostVethIfindex.isSome = false) ∧ detachContainer sup cid order = sup) := by
  unfold detachContainer
  cases hget : sup.running.get cid with
  | none =>
    refine .inr ⟨fun rc ip h => ?_, rfl⟩
    cases h
  | some rc =>
    cases hip : rc.inst.podIp with
    | none =>
      refine .inr ⟨fun rc' ip h hip' => ?_, ?_⟩
      · cases h
        rw [hip] at hip'
        cases hip'
      · simp only [hip]
    | some ip =>
      cases hidx : rc.inst.hostVethIfindex with
      | none =>
        refine .inr ⟨fun rc' ip' h _ => ?_, ?_⟩
        · cases h
          rw [hidx, Option.isSome_none]
        · simp only [hip, hidx]
      | some idx =>
        refine .inl ⟨rc, ip, rfl, hip, by rw [hidx, Option.isSome_some], ?_⟩
        simp only [hip, hidx]
        rfl

theorem running_detachContainer (sup : Supervisor) (cid : String) (order : List String) :
    (detachContainer sup cid order).running = sup.running := by
  rcases detachContainer_cases sup cid order with ⟨rc, ip, -, -, -, heq⟩ | ⟨-, heq⟩ <;> rw [heq]

theorem restartCounts_detachContainer (sup : Supervisor) (cid : String) (order : List String) :
    (detachContainer sup cid order).restartCounts = sup.restartCounts := by
  rcases detachContainer_cases sup cid order with ⟨rc, ip, -, -, -, heq⟩ | ⟨-, heq⟩ <;> rw [heq]

private def web : ContainerSpec where
  podName := "web"
  podUid := "Pod/default/web"
  containers := [⟨"web-app", "app", "nginx", false, false⟩]
  subnet := none

private def emptySupervisor : Supervisor where
  running := ∅
  restartCounts := ∅
  netmux := ⟨IpPool.new ⟨Ipv4Addr.new 10 42 0 0, 30⟩, ∅, 30, Ipv4Addr.new 10 42 0 1⟩

private def spawnEnv (fork : Except Error Nat) : SpawnEnv :=
  ⟨true, fork, .ok true, .ok (), .attached 4 5, []⟩

/-- The image is unpacked, but the process cannot be forked: the start fails and leaves no trace. -/
theorem noTrace_of_failed_fork : ∃ e sup',
    startPodFromSpec emptySupervisor web (.ok ())
      (fun _ => ⟨.ok "/rootfs", spawnEnv (.error ["Failed to fork"])⟩) = (.error e, sup') ∧
    NoTrace emptySupervisor sup' "web" := by
  have hall := (noTrace_of_failed_start_iff emptySupervisor web (.ok ())
    (fun _ => ⟨.ok "/rootfs", spawnEnv (.error ["Failed to fork"])⟩) fun _ _ => rfl).2
    (.inr (.inr rfl))
  exact ⟨_, _, rfl, hall _ _ rfl⟩

/-- The image cannot be unpacked: the start fails, the placeholder of its container stays and the
next start is taken as a duplicate. -/
theorem trace_of_failed_unpack : ∃ e sup',
    startPodFromSpec emptySupervisor web (.ok ())
      (fun _ => ⟨.error ["pull failed"], spawnEnv (.ok 100)⟩) = (.error e, sup') ∧
    sup'.running.keys = ["web-app"] ∧ emptySupervisor.running.keys = [] ∧
    checkDuplicateStart sup'.running "web" = true ∧ ¬ NoTrace emptySupervisor sup' "web" := by
  refine ⟨_, _, rfl, by decide, by decide, by decide, fun h => ?_⟩
  have := h.2
  revert this
  decide

end Z8s.Cri
