import Z8s.Scheduler.Process

/-!
# Proofs: which pod an exit is charged to

The trackers that the handling of exited containers consults and changes are those that `findPod`
finds; handling an exit changes no resource and no iteration order of the store, so what is found
for a container depends on the resources of the first store only.
-/

namespace Z8s.Scheduler

open Rust Collections Z8s.Types Cri List

variable {pt : ProcessTracker}
variable {t : DelayedPending} {ds : List Exited}

theorem findPod_resource (store : ResourceStore) (cid : String) :
    (findPod store cid).map ResourceTracker.resource = (resources store).find? (matchesPod cid) := by
  unfold findPod resources
  rw [find?_map]
  rfl

theorem resources_updateState (store : ResourceStore) (uid : String) (state : ResourceState) :
    resources (store.updateState uid state) = resources store := by
  unfold resources ResourceStore.getAll ResourceStore.updateState HashMap.values
  simp only [HashMap.iter_update, map_map]
  refine map_congr_left fun e _ => ?_
  by_cases he : e.1 = uid <;> simp [he]

theorem store_handleExited (pt : ProcessTracker) (d : Exited) :
    (handleExited pt d).store = pt.store ∨
      ∃ p state, findPod pt.store d.containerId = some p ∧
        (handleExited pt d).store = pt.store.updateState p.resource.uid state := by
  unfold handleExited settleExit
  cases hfind : findPod pt.store d.containerId with
  | none =>
    have huid : (decideExit pt.store d).podUid = "" := by simp [decideExit, hfind]
    left
    simp only [huid, if_true]
    split <;> rfl
  | some p =>
    have huid : (decideExit pt.store d).podUid = p.resource.uid := by simp [decideExit, hfind]
    rw [huid]
    split_ifs
    · exact .inl rfl
    · exact .inl rfl
    · exact .inl rfl
    · exact .inr ⟨p, _, rfl, rfl⟩
    · exact .inr ⟨p, _, rfl, rfl⟩

theorem delayed_handleExited {d : Exited} (h : t ∈ (handleExited pt d).delayed) :
    t ∈ pt.delayed ∨ ∃ p, findPod pt.store d.containerId = some p ∧ p.resource.uid = t.uid := by
  unfold handleExited settleExit at h
  split_ifs at h with hr hu
  · exact .inl h
  · rcases mem_append.1 h with h | h
    · exact .inl h
    · obtain rfl := mem_singleton.1 h
      right
      cases hfind : findPod pt.store d.containerId with
      | none => exact absurd (by simp [decideExit, hfind]) hu
      | some p => exact ⟨p, rfl, by simp [decideExit, hfind]⟩
  all_goals exact .inl h

theorem resources_handleExited (pt : ProcessTracker) (d : Exited) :
    resources (handleExited pt d).store = resources pt.store := by
  rcases store_handleExited pt d with h | ⟨p, state, -, h⟩
  · rw [h]
  · rw [h, resources_updateState]

/-- The trackers consulted while the exited containers are handled one after the other. -/
def consulted (pt : ProcessTracker) : List Exited → List (Exited × Option ResourceTracker)
  | [] => []
  | d :: ds => (d, findPod pt.store d.containerId) :: consulted (handleExited pt d) ds

theorem consulted_resource (pt : ProcessTracker) (ds : List Exited) :
    (consulted pt ds).map (fun c => (c.1, c.2.map ResourceTracker.resource)) =
      ds.map fun d => (d, (resources pt.store).find? (matchesPod d.containerId)) := by
  induction ds generalizing pt with
  | nil => rfl
  | cons d ds ih =>
    simp only [consulted, map_cons]
    rw [ih, findPod_resource, resources_handleExited]

/-- Exits are charged to the pods they belong to: the policy of no other pod is consulted, no other
tracker is changed, and no task is spawned for another pod. -/
structure ExitsCharged (pt : ProcessTracker) (reaped : List (Nat × Int)) : Prop where
  policy : ∀ d p, (d, some p) ∈ consulted pt (collectExited pt.sup.running reaped) →
    p.resource.uid = d.startedFor
  state : ∀ uid, (∀ d ∈ collectExited pt.sup.running reaped, d.startedFor ≠ uid) →
    (handleExitedContainers pt reaped).store.get uid = pt.store.get uid
  delayed : ∀ t ∈ (handleExitedContainers pt reaped).delayed, t ∈ pt.delayed ∨
    ∃ d ∈ collectExited pt.sup.running reaped, d.startedFor = t.uid

def OwnerOnly (store : ResourceStore) (d : Exited) : Prop :=
  ∀ r ∈ resources store, matchesPod d.containerId r = true → r.uid = d.startedFor

theorem findPod_owner {store : ResourceStore} {d : Exited} {p : ResourceTracker}
    (h : OwnerOnly store d) (hfind : findPod store d.containerId = some p) :
    p.resource.uid = d.startedFor := by
  have hres := findPod_resource store d.containerId
  rw [hfind, Option.map_some] at hres
  exact h _ (mem_of_find?_eq_some hres.symm) (find?_some hres.symm)

theorem OwnerOnly.handleExited {pt : ProcessTracker} {d d' : Exited} (h : OwnerOnly pt.store d) :
    OwnerOnly (handleExited pt d').store d := by
  unfold OwnerOnly
  rw [resources_handleExited]
  exact h

theorem get_foldl_handleExited {uid : String} (h : ∀ d ∈ ds, OwnerOnly pt.store d)
    (huid : ∀ d ∈ ds, d.startedFor ≠ uid) :
    (ds.foldl handleExited pt).store.get uid = pt.store.get uid := by
  induction ds generalizing pt with
  | nil => rfl
  | cons d ds ih =>
    rw [foldl_cons, ih (fun d' hd' => (h d' (mem_cons_of_mem d hd')).handleExited)
      fun d' hd' => huid d' (mem_cons_of_mem d hd')]
    rcases store_handleExited pt d with hs | ⟨p, state, hfind, hs⟩
    · rw [hs]
    · have hne : uid ≠ p.resource.uid := by
        rw [findPod_owner (h d mem_cons_self) hfind]
        exact (huid d mem_cons_self).symm
      rw [hs]
      unfold ResourceStore.get ResourceStore.updateState
      rw [HashMap.get_update, if_neg hne]

theorem delayed_foldl_handleExited (h : ∀ d ∈ ds, OwnerOnly pt.store d)
    (ht : t ∈ (ds.foldl handleExited pt).delayed) : t ∈ pt.delayed ∨ ∃ d ∈ ds, d.startedFor = t.uid := by
  induction ds generalizing pt with
  | nil => exact .inl ht
  | cons d ds ih =>
    rw [foldl_cons] at ht
    rcases ih (fun d' hd' => (h d' (mem_cons_of_mem d hd')).handleExited) ht with
      ht | ⟨d', hd', hown⟩
    · rcases delayed_handleExited ht with ht | ⟨p, hfind, hp⟩
      · exact .inl ht
      · have howner := findPod_owner (h d mem_cons_self) hfind
        exact .inr ⟨d, mem_cons_self, howner.symm.trans hp⟩
    · exact .inr ⟨d', mem_cons_of_mem d hd', hown⟩

theorem exitsCharged_of_ownerOnly {reaped : List (Nat × Int)}
    (h : ∀ d ∈ collectExited pt.sup.running reaped, OwnerOnly pt.store d) : ExitsCharged pt reaped where
  policy d p hmem := by
    have hc : (d, some p.resource) ∈ (collectExited pt.sup.running reaped).map
        fun d => (d, (resources pt.store).find? (matchesPod d.containerId)) := by
      rw [← consulted_resource]
      exact mem_map.2 ⟨_, hmem, rfl⟩
    obtain ⟨d', hd', heq⟩ := mem_map.1 hc
    obtain ⟨rfl, hfind⟩ := Prod.mk.inj heq
    exact h d' hd' _ (mem_of_find?_eq_some hfind) (find?_some hfind)
  state _ huid := get_foldl_handleExited h huid
  delayed _ ht := delayed_foldl_handleExited h ht

theorem exists_store_from (store : ResourceStore) {r : AnyResource} (h : r ∈ resources store) :
    ∃ store' : ResourceStore, store'.resources.entries.Perm store.resources.entries ∧
      ∃ rest, resources store' = r :: rest := by
  obtain ⟨t, ht, rfl⟩ := mem_map.1 h
  obtain ⟨⟨uid, t'⟩, he, rfl⟩ := mem_map.1 ht
  obtain ⟨e, hmem, heq⟩ := mem_map.1 he
  obtain ⟨pre, post, hsplit⟩ := append_of_mem hmem
  have hperm : (e :: (pre ++ post)).Perm store.resources.entries := by
    rw [hsplit]
    exact perm_middle.symm
  have hnodup : (e :: (pre ++ post)).NodupKeys :=
    (perm_nodupKeys hperm).2 store.resources.nodupKeys
  refine ⟨⟨⟨_, hnodup⟩, fun u t'' hget => store.keyed u t'' ?_⟩, hperm, ?_⟩
  · rw [← hget]
    exact (@AList.perm_lookup _ _ _ u ⟨_, hnodup⟩ store.resources hperm).symm
  · obtain ⟨-, rfl⟩ := Prod.mk.inj heq
    exact ⟨_, rfl⟩

/-- Exits are charged to the right pod under every iteration order of the store exactly when no
exited container's id starts with the name of a stored pod that is not its own. -/
theorem exitsCharged_iff (pt : ProcessTracker) (reaped : List (Nat × Int)) :
    (∀ store' : ResourceStore, store'.resources.entries.Perm pt.store.resources.entries →
      ExitsCharged { pt with store := store' } reaped) ↔
    ∀ d ∈ collectExited pt.sup.running reaped, OwnerOnly pt.store d := by
  constructor
  · intro hall d hd r hr hmatch
    obtain ⟨store', hperm, rest, hres⟩ := exists_store_from pt.store hr
    have hcharged := hall store' hperm
    -- with `r` first, it is what is found for `d`
    have hc : (d, some r) ∈ (consulted { pt with store := store' }
        (collectExited pt.sup.running reaped)).map (fun c => (c.1, c.2.map ResourceTracker.resource)) := by
      rw [consulted_resource]
      refine mem_map.2 ⟨d, hd, ?_⟩
      show (d, (resources store').find? (matchesPod d.containerId)) = (d, some r)
      rw [hres, find?_cons_of_pos hmatch]
    obtain ⟨⟨d', p⟩, hmem, heq⟩ := mem_map.1 hc
    obtain ⟨rfl, hp⟩ := Prod.mk.inj heq
    obtain ⟨t, rfl, rfl⟩ := Option.map_eq_some_iff.1 hp
    exact hcharged.policy d' t hmem
  · intro h store' hperm
    refine exitsCharged_of_ownerOnly fun d hd r hr => h d hd r ?_
    have hp : (resources store').Perm (resources pt.store) :=
      ((hperm.map _).map _).map ResourceTracker.resource
    exact hp.mem_iff.1 hr

private def podNamed (name : String) : AnyResource :=
  .pod { metadata := { name := some name }, spec := some { restartPolicy := some "Never" } }

private def entryOf (name uid : String) (pid : Nat) : RunningContainer :=
  buildRunningFromInstance uid
    (buildContainerInstance ⟨name ++ "-app", "app", "nginx", false, false⟩ pid "/rootfs" none none)

/-- Two running pods, `web` and `web-1`, and the container of `web-1`. -/
private def twoPods : ProcessTracker where
  sup :=
    { running := HashMap.ofList [("web-1-app", entryOf "web-1" "Pod/default/web-1" 100)]
      restartCounts := ∅
      netmux := ⟨Netmux.IpPool.new ⟨Ipv4Addr.new 10 42 0 0, 30⟩, ∅, 30, Ipv4Addr.new 10 42 0 1⟩ }
  store := (((ResourceStore.new.apply (podNamed "web-1")).apply (podNamed "web")).updateState
    "Pod/default/web" .running).updateState "Pod/default/web-1" .running
  delayed := []

/-- The container of `web-1` exits with code 1, and it is `web` that fails. -/
theorem exit_charged_to_other_pod :
    collectExited twoPods.sup.running [(100, 1)] = [⟨"web-1-app", 100, 1, "Pod/default/web-1"⟩] ∧
    ((handleExitedContainers twoPods [(100, 1)]).store.get "Pod/default/web").map
      ResourceTracker.state = some (.failed "exit code 1") ∧
    ((handleExitedContainers twoPods [(100, 1)]).store.get "Pod/default/web-1").map
      ResourceTracker.state = some .running ∧
    ¬ ExitsCharged twoPods [(100, 1)] := by
  refine ⟨by decide, by decide, by decide, fun h => ?_⟩
  have hstate := h.state "Pod/default/web" (by decide)
  revert hstate
  decide

end Z8s.Scheduler
