import Z8s.Types

/-!
# Proofs: the resource store

How a lookup and the list of all trackers see each operation of the store.
-/

namespace Z8s.Types

open ResourceStore AnyResource ResourceTracker List

variable {uid : String} {r' : AnyResource}
variable {state : ResourceState} {r : AnyResource}

theorem AnyResource.takeWhile_uid (r : AnyResource) :
    r.uid.toList.takeWhile (· ≠ '/') = r.kind.toList := by
  have hslash : ∀ c ∈ r.kind.toList, decide (c ≠ '/') = true := by
    cases r <;> simp [kind]
  unfold uid
  simp only [String.toList_append, append_assoc]
  rw [takeWhile_append_of_pos hslash]
  simp

theorem AnyResource.kind_eq_of_uid (h : r.uid = r'.uid) : r.kind = r'.kind := by
  rw [← String.toList_inj, ← r.takeWhile_uid, ← r'.takeWhile_uid, h]

theorem AnyResource.namespaceOf_eq_of_uid (h : r.uid = r'.uid) (hname : r.name = r'.name) :
    r.namespaceOf = r'.namespaceOf := by
  have hkind := kind_eq_of_uid h
  unfold uid at h
  rw [hkind, hname, ← String.toList_inj] at h
  rw [← String.toList_inj]
  simpa using h

theorem AnyResource.uid_persistentVolume (pv : PersistentVolume) :
    (persistentVolume pv).uid =
      "PersistentVolume" ++ "/" ++ "" ++ "/" ++ pv.metadata.name.getD "<unnamed>" := rfl

theorem AnyResource.uid_persistentVolumeClaim (pvc : PersistentVolumeClaim) :
    (persistentVolumeClaim pvc).uid = "PersistentVolumeClaim" ++ "/" ++
      pvc.metadata.inNamespace.getD "default" ++ "/" ++ pvc.metadata.name.getD "<unnamed>" := rfl

namespace ResourceStore

open Collections HashMap

variable {s : ResourceStore} {r : AnyResource} {t : ResourceTracker}

theorem get_apply (s : ResourceStore) (r : AnyResource) (uid : String) :
    (s.apply r).get uid = if uid = r.uid then
      some { resource := r, state := ((s.get r.uid).map ResourceTracker.state).getD .pending }
      else s.get uid :=
  get_insert _ _ _ _

theorem get_delete (s : ResourceStore) (r : AnyResource) (uid : String) :
    (s.delete r).get uid = if uid = r.uid then none else s.get uid :=
  get_remove _ _ _

theorem get_updateState (s : ResourceStore) (u uid : String) (state : ResourceState) :
    (s.updateState u state).get uid =
      if uid = u then (s.get uid).map ({ · with state }) else s.get uid :=
  get_update _ _ _ _

theorem get_apply_of_ne (h : uid ≠ r.uid) : (s.apply r).get uid = s.get uid := by
  rw [get_apply, if_neg h]

theorem get_delete_of_ne (h : uid ≠ r.uid) : (s.delete r).get uid = s.get uid := by
  rw [get_delete, if_neg h]

theorem get_updateState_of_ne {u : String} (h : uid ≠ u) : (s.updateState u state).get uid = s.get uid := by
  rw [get_updateState, if_neg h]

theorem uid_of_get (h : s.get uid = some t) : t.resource.uid = uid := s.keyed uid t h

theorem mem_getAll : t ∈ s.getAll ↔ s.get t.resource.uid = some t := by
  constructor
  · intro h
    obtain ⟨⟨uid, t'⟩, hmem, rfl⟩ := mem_map.1 h
    have hget := mem_iter.1 hmem
    rw [s.keyed uid t' hget]
    exact hget
  · intro h
    exact mem_map.2 ⟨(t.resource.uid, t), mem_iter.2 h, rfl⟩

theorem mem_getByKind {kind : String} :
    t ∈ s.getByKind kind ↔ s.get t.resource.uid = some t ∧ t.resource.kind = kind := by
  rw [getByKind, mem_filter, mem_getAll, beq_iff_eq]

theorem eq_of_uid {t' : ResourceTracker} (h : s.get t.resource.uid = some t)
    (h' : s.get t'.resource.uid = some t') (huid : t.resource.uid = t'.resource.uid) : t = t' := by
  rw [huid] at h
  exact Option.some.inj (h.symm.trans h')

theorem nodup_uids (s : ResourceStore) : (s.getAll.map fun t => t.resource.uid).Nodup := by
  have h : s.getAll.map (fun t => t.resource.uid) = s.resources.keys := by
    unfold getAll HashMap.values HashMap.keys
    rw [map_map]
    exact map_congr_left fun e he => s.keyed e.1 e.2 (mem_iter.1 he)
  rw [h]
  exact nodup_keys s.resources

theorem getAll_apply (s : ResourceStore) (r : AnyResource) :
    (s.apply r).getAll =
      { resource := r, state := ((s.get r.uid).map ResourceTracker.state).getD .pending } ::
        (s.delete r).getAll :=
  values_insert _ _ _

theorem getAll_perm (h : s.get r.uid = some t) : s.getAll.Perm (t :: (s.delete r).getAll) :=
  values_perm h

theorem ext_resources {s s' : ResourceStore} (h : s.resources = s'.resources) : s = s' := by
  cases s
  cases s'
  cases h
  rfl

theorem delete_eq_self (h : s.get r.uid = none) : s.delete r = s :=
  ext_resources (remove_eq_self h)

theorem map_getAll_updateState (s : ResourceStore) (uid : String) (state : ResourceState) :
    (s.updateState uid state).getAll.map resource =
      s.getAll.map resource := by
  unfold getAll updateState HashMap.values
  rw [iter_update, map_map, map_map, map_map]
  refine map_congr_left fun e _ => ?_
  by_cases he : e.1 = uid <;> simp [he]

def Holds (s : ResourceStore) (r : AnyResource) : Prop := ∃ state, s.get r.uid = some ⟨r, state⟩

theorem holds_iff : s.Holds r ↔ (s.get r.uid).map resource = some r := by
  constructor
  · rintro ⟨state, h⟩
    rw [h]
    rfl
  · intro h
    obtain ⟨t, ht, rfl⟩ := Option.map_eq_some_iff.1 h
    exact ⟨t.state, ht⟩

theorem holds_of_get (h : s.get uid = some t) : s.Holds t.resource :=
  ⟨t.state, by rw [uid_of_get h, h]⟩

theorem Holds.eq_of_uid (h : s.Holds r) (h' : s.Holds r') (huid : r.uid = r'.uid) : r = r' := by
  rw [holds_iff] at h h'
  rw [huid, h'] at h
  exact (Option.some.inj h).symm

theorem holds_apply : (s.apply r).Holds r' ↔ r' = r ∨ (r'.uid ≠ r.uid ∧ s.Holds r') := by
  by_cases huid : r'.uid = r.uid
  · rw [holds_iff, get_apply, if_pos huid]
    simp [huid, eq_comm]
  · rw [holds_iff, get_apply_of_ne huid, ← holds_iff]
    have hne : r' ≠ r := fun h => huid (by rw [h])
    simp [huid, hne]

theorem holds_delete : (s.delete r).Holds r' ↔ r'.uid ≠ r.uid ∧ s.Holds r' := by
  rw [holds_iff, get_delete]
  split_ifs with huid
  · simp [huid]
  · simp [huid, holds_iff]

theorem holds_updateState : (s.updateState uid state).Holds r ↔ s.Holds r := by
  rw [holds_iff, holds_iff, get_updateState]
  split_ifs
  · rw [Option.map_map]
    rfl
  · rfl

theorem get_ne_none_iff : s.get uid ≠ none ↔ ∃ r, s.Holds r ∧ r.uid = uid := by
  rw [Option.ne_none_iff_exists']
  constructor
  · rintro ⟨t, ht⟩
    exact ⟨t.resource, holds_of_get ht, uid_of_get ht⟩
  · rintro ⟨r, ⟨state, hget⟩, rfl⟩
    exact ⟨_, hget⟩

theorem mem_map_getAll : r ∈ s.getAll.map resource ↔ s.Holds r := by
  constructor
  · intro h
    obtain ⟨t, ht, rfl⟩ := mem_map.1 h
    exact holds_of_get (mem_getAll.1 ht)
  · rintro ⟨state, h⟩
    exact mem_map.2 ⟨⟨r, state⟩, mem_getAll.2 h, rfl⟩

end ResourceStore

/-! ### Keys -/

section Keys

variable {r : AnyResource} {rs : Set AnyResource}

private theorem shifted_of_append {ns name ns' name' : String} {rest : List Char}
    (hns : ns'.toList = ns.toList ++ rest) (h : '/' :: name.toList = rest ++ '/' :: name'.toList) :
    (ns = ns' ∧ name = name') ∨ ∃ part : String, ns' = ns ++ "/" ++ part ∧ name = part ++ "/" ++ name' := by
  simp only [← String.toList_inj, String.toList_append]
  cases rest with
  | nil => exact .inl ⟨by simpa using hns.symm, by simpa using h⟩
  | cons c part =>
    obtain ⟨rfl, hname⟩ := List.cons.inj h
    exact .inr ⟨String.ofList part, by simpa using hns, by simpa using hname⟩

/-- Two resources have one uid if they have one key, or if a part of one namespace can be read as a part of the other
name. -/
theorem AnyResource.uid_eq_iff : r.uid = r'.uid ↔ r.key = r'.key ∨ r.Shifted r' ∨ r'.Shifted r := by
  simp only [key, Prod.mk.injEq]
  constructor
  · intro h
    have hkind := kind_eq_of_uid h
    have hrest : r.namespaceOf.toList ++ '/' :: r.name.toList = r'.namespaceOf.toList ++ '/' :: r'.name.toList := by
      rw [← String.toList_inj] at h
      simpa [uid, hkind] using h
    rcases append_eq_append_iff.1 hrest with ⟨rest, hns, hname⟩ | ⟨rest, hns, hname⟩
    · rcases shifted_of_append hns hname with ⟨hns, hname⟩ | ⟨part, hns, hname⟩
      · exact .inl ⟨hkind, hns, hname⟩
      · exact .inr (.inl ⟨part, hkind, hns, hname⟩)
    · rcases shifted_of_append hns hname with ⟨hns, hname⟩ | ⟨part, hns, hname⟩
      · exact .inl ⟨hkind, hns.symm, hname.symm⟩
      · exact .inr (.inr ⟨part, hkind.symm, hns, hname⟩)
  · unfold uid
    rintro (⟨hkind, hns, hname⟩ | ⟨part, hkind, hns, hname⟩ | ⟨part, hkind, hns, hname⟩) <;>
      simp [hkind, hns, hname, String.append_assoc]

theorem not_key_eq_of_shifted (h : r.Shifted r') : r.key ≠ r'.key := by
  obtain ⟨part, -, hns, -⟩ := h
  intro hkey
  have hlength := congrArg String.length (hns.symm.trans (congrArg (fun k => k.2.1) hkey).symm)
  have hslash : "/".length = 1 := rfl
  simp only [String.length_append, key] at hlength
  omega

namespace StoreOp

variable {s : ResourceStore} {op : StoreOp}

theorem holds_run : (op.run s).Holds r ↔ op = .apply r ∨ (r.uid ≠ op.resource.uid ∧ s.Holds r) := by
  cases op with
  | apply r' =>
    rw [StoreOp.apply.injEq, eq_comm]
    exact holds_apply
  | delete r' =>
    rw [or_iff_right nofun]
    exact holds_delete

theorem next_eq_some_iff {key : String × String × String} {old : Option AnyResource} :
    next key old op = some r ↔ (op = .apply r ∧ r.key = key) ∨ (op.resource.key ≠ key ∧ old = some r) := by
  unfold next
  by_cases hkey : op.resource.key = key
  · cases op with
    | apply r' =>
      have hsame : r' = r → r.key = key := fun h => h ▸ hkey
      simpa [hkey] using hsame
    | delete r' => simp [hkey]
  · have hother : op = .apply r → r.key ≠ key := fun h => by rwa [h] at hkey
    rw [if_neg hkey]
    exact ⟨fun h => .inr ⟨hkey, h⟩, fun h => (h.resolve_left fun ⟨hop, hr⟩ => hother hop hr).2⟩

theorem get_run_of_ne (h : uid ≠ op.resource.uid) : (op.run s).get uid = s.get uid := by
  cases op with
  | apply r => exact get_apply_of_ne h
  | delete r => exact get_delete_of_ne h

/-- The store holds what is left under each key. -/
def Mirrors (rs : Set AnyResource) (s : ResourceStore) (left : String × String × String → Option AnyResource) : Prop :=
  (∀ r, s.Holds r → r ∈ rs) ∧ ∀ key r, (s.Holds r ∧ r.key = key) ↔ left key = some r

variable {left : String × String × String → Option AnyResource}
  (huid : ∀ r ∈ rs, ∀ r' ∈ rs, r.uid = r'.uid ↔ r.key = r'.key)

include huid

theorem Mirrors.run (h : Mirrors rs s left) (hop : op.resource ∈ rs) :
    Mirrors rs (op.run s) fun key => next key (left key) op := by
  refine ⟨fun r hr => ?_, fun key r => ?_⟩
  · rcases holds_run.1 hr with rfl | ⟨-, hr⟩
    · exact hop
    · exact h.1 r hr
  · rw [holds_run, next_eq_some_iff, ← h.2 key r, or_and_right]
    refine or_congr_right ⟨fun ⟨⟨hne, hr⟩, hkey⟩ => ?_, fun ⟨hne, hr, hkey⟩ => ?_⟩
    · rw [Ne, huid r (h.1 r hr) _ hop, hkey] at hne
      exact ⟨fun heq => hne heq.symm, hr, hkey⟩
    · refine ⟨⟨fun heq => hne ?_, hr⟩, hkey⟩
      rw [← hkey, (huid r (h.1 r hr) _ hop).1 heq]

theorem Mirrors.foldl (h : Mirrors rs s left) {ops : List StoreOp} (hops : ∀ op ∈ ops, op.resource ∈ rs) :
    Mirrors rs (ops.foldl StoreOp.run s) fun key => ops.foldl (next key) (left key) := by
  induction ops generalizing s left with
  | nil => exact h
  | cons op ops ih =>
    rw [forall_mem_cons] at hops
    exact ih (h.run huid hops.1) hops.2

theorem mem_getAll_run (hs : ∀ t ∈ s.getAll, t.resource ∈ rs) (hop : op.resource ∈ rs) {t : ResourceTracker}
    (hkey : t.resource.key ≠ op.resource.key) : t ∈ (op.run s).getAll ↔ t ∈ s.getAll := by
  have hne (h : t ∈ (op.run s).getAll ∨ t ∈ s.getAll) : t.resource.uid ≠ op.resource.uid := by
    rcases h with h | h
    · rcases holds_run.1 (holds_of_get (mem_getAll.1 h)) with rfl | ⟨hne, -⟩
      · exact absurd rfl hkey
      · exact hne
    · exact fun heq => hkey ((huid _ (hs t h) _ hop).1 heq)
  constructor
  · intro h
    exact mem_getAll.2 ((get_run_of_ne (hne (.inl h))).symm.trans (mem_getAll.1 h))
  · intro h
    exact mem_getAll.2 ((get_run_of_ne (hne (.inr h))).trans (mem_getAll.1 h))

end StoreOp

/-- The store keeps the resources of a set apart exactly if no namespace in it can take over a part of a name. -/
theorem keysIdentify_iff (rs : Set AnyResource) : KeysIdentify rs ↔ ∀ r ∈ rs, ∀ r' ∈ rs, ¬ r.Shifted r' := by
  constructor
  · intro h r hr r' hr' hshifted
    exact not_key_eq_of_shifted hshifted ((h.uid_iff r hr r' hr').1 (uid_eq_iff.2 (.inr (.inl hshifted))))
  · intro hapart
    have huid : ∀ r ∈ rs, ∀ r' ∈ rs, r.uid = r'.uid ↔ r.key = r'.key := by
      intro r hr r' hr'
      rw [uid_eq_iff]
      exact or_iff_left fun h => h.elim (hapart r hr r' hr') (hapart r' hr' r hr)
    refine ⟨huid, fun ops hops key r => ?_, fun s hs op hop t ht => StoreOp.mem_getAll_run huid hs hop ht⟩
    have hempty (r : AnyResource) : ¬ ResourceStore.new.Holds r := fun ⟨_, h⟩ => nomatch h
    have hnew : StoreOp.Mirrors rs .new fun _ => none := ⟨fun r h => absurd h (hempty r), by simp [hempty]⟩
    rw [mem_map_getAll]
    exact (hnew.foldl huid hops).2 key r

private def configMapOf (ns name : String) : AnyResource :=
  .configMap { metadata := { name := some name, inNamespace := some ns } }

/-- The ConfigMaps `b/c` in namespace `a` and `c` in namespace `a/b` have one uid. -/
theorem configMaps_share_uid : ¬ KeysIdentify {configMapOf "a" "b/c", configMapOf "a/b" "c"} := by
  intro h
  have hkey := (h.uid_iff (configMapOf "a" "b/c") (.inl rfl) (configMapOf "a/b" "c") (.inr rfl)).1 (by decide)
  exact absurd hkey (by decide)

end Keys

end Z8s.Types
