import Z8s.Proofs.TypesProofs
import Z8s.Scheduler.Proofs.ProcessProofs
import Z8s.Scheduler.RunOnce
import Z8s.Transition.Proofs.RunProofs

/-!
# Proofs: pods that run once

The state of a pod is that of the last exit which is charged to it, so it tells about all exits exactly
when each of them tells the same.
-/

namespace Z8s.Scheduler

open Rust Collections Z8s.Types Cri Transition HashMap List

variable {pt : ProcessTracker}
variable {reaped : List (Nat × Int)} {t : ResourceTracker} {d : Exited} {uid : String}

/-! ### Handling one exit -/

theorem running_handleExited (pt : ProcessTracker) (d : Exited) :
    (handleExited pt d).sup.running = pt.sup.running.remove d.containerId := by
  unfold handleExited settleExit
  split_ifs <;> rfl

theorem charged_eq_find (store : ResourceStore) (uid cid : String) :
    charged store uid cid = ((resources store).find? (matchesPod cid)).any (·.uid == uid) := by
  rw [← findPod_resource, charged]
  cases findPod store cid <;> rfl

theorem charged_congr {store store' : ResourceStore} (h : resources store' = resources store)
    (uid cid : String) : charged store' uid cid = charged store uid cid := by
  rw [charged_eq_find, charged_eq_find, h]

theorem get_handleExited_of_not_charged (h : charged pt.store uid d.containerId = false) :
    (handleExited pt d).store.get uid = pt.store.get uid := by
  rcases store_handleExited pt d with hs | ⟨t, state, hfind, hs⟩
  · rw [hs]
  · have hne : uid ≠ t.resource.uid := by
      rintro rfl
      simp [charged, hfind] at h
    rw [hs, ResourceStore.get_updateState_of_ne hne]

def exitState (exitCode : Int) : ResourceState :=
  if exitCode = 0 then .succeeded else .failed ("exit code " ++ toString exitCode)

theorem phaseIs_exitState (failed : Bool) (exitCode : Int) :
    phaseIs failed (exitState exitCode) = true ↔ (exitCode != 0) = failed := by
  unfold exitState
  by_cases h : exitCode = 0
  · subst h
    cases failed <;> decide
  · have hne : (exitCode != 0) = true := bne_iff_ne.2 h
    rw [if_neg h, hne, phaseIs, eq_comm]

theorem uid_ne_empty (r : AnyResource) : r.uid ≠ "" := by
  intro h
  have hlist := congrArg String.toList h
  simp [AnyResource.uid] at hlist

theorem get_handleExited_of_charged (hstored : pt.store.get t.resource.uid = some t)
    (hnever : t.resource.restartPolicy = some "Never")
    (h : charged pt.store t.resource.uid d.containerId = true) :
    (handleExited pt d).store.get t.resource.uid = some { t with state := exitState d.exitCode } := by
  obtain ⟨t', hfind, huid⟩ := (Option.any_eq_true _ _).1 h
  have hmem : t' ∈ pt.store.getAll := mem_of_find?_eq_some hfind
  obtain rfl : t' = t := by
    have hget := ResourceStore.mem_getAll.1 hmem
    rw [beq_iff_eq.1 huid, hstored] at hget
    exact (Option.some.inj hget).symm
  have hdecide : decideExit pt.store d = ⟨false, t'.resource.uid⟩ := by
    rw [decideExit, hfind, Option.bind_some, hnever]
    rfl
  have hstore : (handleExited pt d).store =
      pt.store.updateState t'.resource.uid (exitState d.exitCode) := by
    rw [handleExited, hdecide, settleExit, if_neg Bool.false_ne_true, if_neg (uid_ne_empty _), exitState]
    split_ifs <;> rfl
  rw [hstore, ResourceStore.get_updateState, if_pos rfl, hstored]
  rfl

/-! ### Handling the exits of a call -/

theorem running_foldl_handleExited (pt : ProcessTracker) (ds : List Exited) :
    (ds.foldl handleExited pt).sup.running = pt.sup.running.removeAll (ds.map Exited.containerId) := by
  induction ds generalizing pt with
  | nil => rfl
  | cons d ds ih =>
    rw [foldl_cons, ih, running_handleExited]
    rfl

theorem resources_foldl_handleExited (pt : ProcessTracker) (ds : List Exited) :
    resources (ds.foldl handleExited pt).store = resources pt.store := by
  induction ds generalizing pt with
  | nil => rfl
  | cons d ds ih => rw [foldl_cons, ih, resources_handleExited]

theorem mem_collectExited {codes : Nat → Int} {running : HashMap String RunningContainer}
    (hcodes : ∀ r ∈ reaped, r.2 = codes r.1) :
    d ∈ collectExited running reaped ↔
      ∃ rc ∈ running.values, ∃ pid, rc.inst.pid = some pid ∧ pid ∈ reaped.map Prod.fst ∧
        d = ⟨rc.inst.containerId, pid, codes pid, rc.startedFor⟩ := by
  have hget (pid : Nat) (code : Int) : (HashMap.ofList reaped).get pid = some code ↔
      pid ∈ reaped.map Prod.fst ∧ code = codes pid := by
    constructor
    · intro h
      rcases mem_of_get_insertAll h with hmem | ⟨-, hnone⟩
      · exact ⟨mem_map_of_mem hmem, hcodes _ hmem⟩
      · cases hnone
    · rintro ⟨hmem, rfl⟩
      have hsome := (isSome_get_insertAll ∅ reaped pid).2 (.inl hmem)
      obtain ⟨code, hcode⟩ := Option.isSome_iff_exists.1 hsome
      rcases mem_of_get_insertAll hcode with hin | ⟨-, hnone⟩
      · exact hcode.trans (congrArg some (hcodes _ hin))
      · cases hnone
  simp only [collectExited, mem_filterMap, Option.bind_eq_bind, Option.bind_eq_some_iff,
    Option.some.injEq, hget]
  constructor
  · rintro ⟨rc, hrc, pid, hpid, code, ⟨hmem, rfl⟩, rfl⟩
    exact ⟨rc, hrc, pid, hpid, hmem, rfl⟩
  · rintro ⟨rc, hrc, pid, hpid, hmem, rfl⟩
    exact ⟨rc, hrc, pid, hpid, _, ⟨hmem, rfl⟩, rfl⟩

theorem get_foldl_of_not_charged {ds : List Exited}
    (h : ∀ d ∈ ds, charged pt.store uid d.containerId = false) :
    (ds.foldl handleExited pt).store.get uid = pt.store.get uid := by
  induction ds generalizing pt with
  | nil => rfl
  | cons d ds ih =>
    obtain ⟨hd, hds⟩ := forall_mem_cons.1 h
    rw [foldl_cons, ih, get_handleExited_of_not_charged hd]
    intro d' hd'
    rw [charged_congr (resources_handleExited pt d)]
    exact hds d' hd'

theorem exists_state_foldl (h : pt.store.get t.resource.uid = some t) (ds : List Exited) :
    ∃ state, (ds.foldl handleExited pt).store.get t.resource.uid = some { t with state } := by
  induction ds generalizing pt t with
  | nil => exact ⟨t.state, h⟩
  | cons d ds ih =>
    rcases store_handleExited pt d with hs | ⟨t', state, -, hs⟩
    · exact ih (by rw [hs, h])
    · by_cases huid : t.resource.uid = t'.resource.uid
      · refine ih (t := { t with state }) ?_
        rw [hs, ResourceStore.get_updateState, if_pos huid, h]
        rfl
      · refine ih ?_
        rw [hs, ResourceStore.get_updateState_of_ne huid, h]

namespace RunOncePod

variable {codes : Nat → Int} {p : RunOncePod} {pt' : ProcessTracker}

/-! ### Each charged exit tells the phase -/

/-- What holds while exits are reported: either an exit has been charged to the pod and its state is the
final one, or its state is the first one and no such container has exited. -/
structure Invariant (codes : Nat → Int) (p : RunOncePod) (pt : ProcessTracker) : Prop where
  resources : resources pt.store = resources p.pt.store
  running : ∀ cid rc, pt.sup.running.get cid = some rc → p.pt.sup.running.get cid = some rc
  phase : ∃ state, pt.store.get p.uid = some { p.tracker with state } ∧
    (phaseIs (p.fails codes) state = true ∨ (state = p.tracker.state ∧
      ∀ cid rc, p.pt.sup.running.get cid = some rc → charged p.pt.store p.uid cid = true →
        pt.sup.running.get cid = some rc))

theorem Invariant.handleExited (h : Invariant codes p pt) {d : Exited}
    (hd : charged p.pt.store p.uid d.containerId = true → (d.exitCode != 0) = p.fails codes) :
    Invariant codes p (handleExited pt d) where
  resources := (resources_handleExited pt d).trans h.resources
  running cid rc hget := by
    rw [running_handleExited, get_remove] at hget
    split_ifs at hget
    exact h.running cid rc hget
  phase := by
    obtain ⟨state, hget, hphase⟩ := h.phase
    by_cases hcharged : charged pt.store p.uid d.containerId = true
    · -- the exit decides the state
      have hnew := get_handleExited_of_charged (t := { p.tracker with state }) hget p.never hcharged
      rw [charged_congr h.resources] at hcharged
      exact ⟨exitState d.exitCode, hnew, .inl ((phaseIs_exitState _ _).2 (hd hcharged))⟩
    · rw [Bool.not_eq_true] at hcharged
      refine ⟨state, (get_handleExited_of_not_charged hcharged).trans hget, hphase.imp_right ?_⟩
      rintro ⟨hstate, hkept⟩
      refine ⟨hstate, fun cid rc hrc hcid => ?_⟩
      rw [charged_congr h.resources] at hcharged
      have hne : cid ≠ d.containerId := by
        rintro rfl
        exact absurd hcid (by rw [hcharged]; exact Bool.false_ne_true)
      rw [running_handleExited, get_remove, if_neg hne]
      exact hkept cid rc hrc hcid

theorem Invariant.exitStep (htells : p.EachTells codes) (h : Invariant codes p pt) {b : ExitBatch}
    (hstep : exitStep codes pt b = some pt') : Invariant codes p pt' := by
  unfold Scheduler.exitStep at hstep
  split_ifs at hstep with hb
  obtain ⟨hcodes, hperm⟩ := hb
  obtain rfl := Option.some.inj hstep
  -- the exits of the call are of containers that ran at first
  have hfrom : ∀ d ∈ b.order, charged p.pt.store p.uid d.containerId = true →
      (d.exitCode != 0) = p.fails codes := by
    intro d hd hcharged
    obtain ⟨rc, hrc, pid, hpid, -, rfl⟩ := (mem_collectExited hcodes).1 (hperm.mem_iff.1 hd)
    obtain ⟨cid, hget⟩ := mem_values.1 hrc
    exact htells.1 rc (mem_values.2 ⟨cid, h.running cid rc hget⟩) hcharged pid hpid
  clear hperm hstep
  generalize b.order = ds at hfrom
  induction ds generalizing pt with
  | nil => exact h
  | cons d ds ih =>
    obtain ⟨hd, hds⟩ := forall_mem_cons.1 hfrom
    exact ih (h.handleExited hd) hds

theorem orderFree_of_eachTells (htells : p.EachTells codes) : p.OrderFree codes := by
  intro batches pt' hrun hexited
  have hfirst : Invariant codes p p.pt :=
    ⟨rfl, fun _ _ h => h, p.tracker.state, p.stored, .inr ⟨rfl, fun _ _ h _ => h⟩⟩
  have hlast : Invariant codes p pt' :=
    invariant_of_run (fun _ _ _ h hstep => h.exitStep htells hstep) hfirst hrun
  obtain ⟨state, hget, hphase⟩ := hlast.phase
  refine ⟨_, hget, ?_⟩
  rcases hphase with hphase | ⟨rfl, hkept⟩
  · exact hphase
  · refine htells.2.resolve_left ?_
    rintro ⟨rc, hrc, hown, hcharged⟩
    obtain ⟨cid, hcid⟩ := mem_values.1 hrc
    rw [p.keyed cid rc hcid] at hcharged
    exact hexited rc (mem_values.2 ⟨cid, hkept cid rc hcid hcharged⟩) hown

/-! ### Runs that decide otherwise -/

/-- All containers of the pod exit in one call that reports their processes. -/
theorem run_one_call {order : List Exited} (hcodes : ∀ r ∈ reaped, r.2 = codes r.1)
    (hperm : order.Perm (collectExited p.pt.sup.running reaped))
    (hall : ∀ rc ∈ p.pt.sup.running.values, rc.startedFor = p.uid → ∀ pid ∈ rc.inst.pid, pid ∈ reaped.map Prod.fst) :
    run (Scheduler.exitStep codes) p.pt [⟨reaped, order⟩] = some (order.foldl Scheduler.handleExited p.pt) ∧
      ∀ rc ∈ (order.foldl Scheduler.handleExited p.pt).sup.running.values, rc.startedFor ≠ p.uid := by
  refine ⟨run_cons_eq_some.2 ⟨_, if_pos ⟨hcodes, hperm⟩, rfl⟩, fun rc hrc hown => ?_⟩
  obtain ⟨cid, hget⟩ := mem_values.1 hrc
  rw [running_foldl_handleExited, get_removeAll] at hget
  split_ifs at hget with hmem
  obtain ⟨pid, hpid⟩ := Option.isSome_iff_exists.1 (p.started cid rc hget hown)
  have hvalues : rc ∈ p.pt.sup.running.values := mem_values.2 ⟨cid, hget⟩
  have hcollected := (mem_collectExited hcodes).2 ⟨rc, hvalues, pid, hpid, hall rc hvalues hown pid hpid, rfl⟩
  refine hmem (mem_map.2 ⟨_, hperm.mem_iff.2 hcollected, ?_⟩)
  exact p.keyed cid rc hget

theorem code_of_orderFree (h : p.OrderFree codes) {rc : RunningContainer}
    (hrc : rc ∈ p.pt.sup.running.values) (hcharged : charged p.pt.store p.uid rc.inst.containerId = true)
    {pid : Nat} (hpid : rc.inst.pid = some pid) : (codes pid != 0) = p.fails codes := by
  let reaped : List (Nat × Int) :=
    p.pt.sup.running.values.filterMap fun rc => rc.inst.pid.map fun pid => (pid, codes pid)
  have hcodes : ∀ r ∈ reaped, r.2 = codes r.1 := by
    intro r hr
    obtain ⟨rc', -, hr⟩ := mem_filterMap.1 hr
    obtain ⟨pid', -, rfl⟩ := Option.map_eq_some_iff.1 hr
    rfl
  have hreaped (rc' : RunningContainer) (hrc' : rc' ∈ p.pt.sup.running.values) (pid' : Nat)
      (hpid' : rc'.inst.pid = some pid') : pid' ∈ reaped.map Prod.fst :=
    mem_map.2 ⟨(pid', codes pid'), mem_filterMap.2 ⟨rc', hrc', by rw [hpid']; rfl⟩, rfl⟩
  let d : Exited := ⟨rc.inst.containerId, pid, codes pid, rc.startedFor⟩
  have hd : d ∈ collectExited p.pt.sup.running reaped :=
    (mem_collectExited hcodes).2 ⟨rc, hrc, pid, hpid, hreaped rc hrc pid hpid, rfl⟩
  let others := (collectExited p.pt.sup.running reaped).erase d
  have hperm : (others ++ [d]).Perm (collectExited p.pt.sup.running reaped) :=
    (perm_append_singleton d others).trans (perm_cons_erase hd).symm
  obtain ⟨hrun, hexited⟩ := run_one_call hcodes hperm fun rc' hrc' _ => hreaped rc' hrc'
  obtain ⟨t, hget, hphase⟩ := h _ _ hrun hexited
  obtain ⟨state, hstate⟩ := exists_state_foldl p.stored others
  rw [foldl_append, foldl_cons, foldl_nil] at hget
  have hcharged' : charged (others.foldl handleExited p.pt).store p.uid d.containerId = true := by
    rw [charged_congr (resources_foldl_handleExited p.pt others)]
    exact hcharged
  have hlast : (handleExited (others.foldl handleExited p.pt) d).store.get p.uid =
      some { p.tracker with state := exitState d.exitCode } :=
    get_handleExited_of_charged (t := { p.tracker with state }) hstate p.never hcharged'
  obtain rfl := Option.some.inj (hlast.symm.trans hget)
  exact (phaseIs_exitState _ _).1 hphase

theorem phase_of_orderFree (h : p.OrderFree codes)
    (hnone : ∀ rc ∈ p.pt.sup.running.values, rc.startedFor = p.uid →
      charged p.pt.store p.uid rc.inst.containerId = false) :
    phaseIs (p.fails codes) p.tracker.state = true := by
  let reaped : List (Nat × Int) :=
    (p.pt.sup.running.values.filter (·.startedFor == p.uid)).filterMap fun rc =>
      rc.inst.pid.map fun pid => (pid, codes pid)
  have hmem (r : Nat × Int) (hr : r ∈ reaped) : ∃ rc ∈ p.pt.sup.running.values,
      rc.startedFor = p.uid ∧ rc.inst.pid = some r.1 ∧ r.2 = codes r.1 := by
    obtain ⟨rc, hrc, hr⟩ := mem_filterMap.1 hr
    obtain ⟨hrc, hown⟩ := mem_filter.1 hrc
    obtain ⟨pid, hpid, rfl⟩ := Option.map_eq_some_iff.1 hr
    exact ⟨rc, hrc, beq_iff_eq.1 hown, hpid, rfl⟩
  have hcodes : ∀ r ∈ reaped, r.2 = codes r.1 := by
    intro r hr
    obtain ⟨rc, -, -, -, hcode⟩ := hmem r hr
    exact hcode
  obtain ⟨hrun, hexited⟩ := run_one_call (p := p) hcodes (.refl _) fun rc hrc hown pid hpid =>
    mem_map.2 ⟨(pid, codes pid), mem_filterMap.2
      ⟨rc, mem_filter.2 ⟨hrc, beq_iff_eq.2 hown⟩, by rw [hpid]; rfl⟩, rfl⟩
  obtain ⟨t, hget, hphase⟩ := h _ _ hrun hexited
  rw [get_foldl_of_not_charged] at hget
  · obtain rfl := Option.some.inj (p.stored.symm.trans hget)
    exact hphase
  · -- a process belongs to one container, so only own containers have exited
    intro d hd
    obtain ⟨rc, hrc, pid, hpid, hreaped, rfl⟩ := (mem_collectExited hcodes).1 hd
    obtain ⟨⟨pid', code⟩, hr, rfl⟩ := mem_map.1 hreaped
    obtain ⟨rc', hrc', hown, hpid', -⟩ := hmem _ hr
    obtain ⟨cid, hcid⟩ := mem_values.1 hrc
    obtain ⟨cid', hcid'⟩ := mem_values.1 hrc'
    obtain rfl := p.processes cid cid' rc rc' pid' hcid hcid' hpid hpid'
    obtain rfl := Option.some.inj (hcid.symm.trans hcid')
    exact hnone rc hrc hown

theorem orderFree_iff_eachTells (codes : Nat → Int) (p : RunOncePod) : p.OrderFree codes ↔ p.EachTells codes := by
  refine ⟨fun h => ⟨fun rc hrc hcharged pid hpid => code_of_orderFree h hrc hcharged hpid, ?_⟩,
    orderFree_of_eachTells⟩
  by_cases hown : ∃ rc ∈ p.pt.sup.running.values, rc.startedFor = p.uid ∧
      charged p.pt.store p.uid rc.inst.containerId = true
  · exact .inl hown
  · refine .inr (phase_of_orderFree h fun rc hrc hstarted => ?_)
    rw [← Bool.not_eq_true]
    exact fun hcharged => hown ⟨rc, hrc, hstarted, hcharged⟩

private def jobPod : AnyResource :=
  .pod { metadata := { name := some "job" }, spec := some { restartPolicy := some "Never" } }

private def jobEntry (container : String) (pid : Nat) : RunningContainer :=
  buildRunningFromInstance jobPod.uid
    (buildContainerInstance ⟨"job-" ++ container, container, "busybox", false, false⟩ pid "/rootfs" none none)

private def jobTracker : ProcessTracker where
  sup :=
    { running := HashMap.ofList [("job-a", jobEntry "a" 10), ("job-b", jobEntry "b" 11)]
      restartCounts := ∅
      netmux := ⟨Netmux.IpPool.new ⟨Ipv4Addr.new 10 42 0 0, 30⟩, ∅, 30, Ipv4Addr.new 10 42 0 1⟩ }
  store := (ResourceStore.new.apply jobPod).updateState jobPod.uid .running
  delayed := []

private def phaseAfter (calls : List (List (Nat × Int))) : Option ResourceState :=
  ((calls.foldl handleExitedContainers jobTracker).store.get jobPod.uid).map ResourceTracker.state

/-- A pod whose first container fails counts as succeeded when the second one exits later. -/
theorem phase_depends_on_exit_order :
    phaseAfter [[(10, 1)], [(11, 0)]] = some .succeeded ∧
      phaseAfter [[(11, 0)], [(10, 1)]] = some (.failed "exit code 1") := by
  decide +kernel

end RunOncePod

end Z8s.Scheduler
