import Z8s.Collections.Proofs.BTreeMapProofs
import Z8s.Rust.Json

/-!
# Proofs: JSON objects

An object is a map: a value given to a field is the one that is found, and an object with optional
fields is determined by them (`record_inj`).
-/

namespace Z8s.Rust.Json

open Collections List

variable {α : Type}
variable {fields : List (String × Option Json)} {k : String}

theorem lookup_cons_eq_ite (k key : String) (v : α) (fields : List (String × α)) :
    ((key, v) :: fields).lookup k = if k = key then some v else fields.lookup k :=
  BTreeMap.lookup_cons_eq_ite k (key, v) fields

theorem lookup_eq_none_of_not_mem {fields : List (String × α)} (h : k ∉ fields.map Prod.fst) :
    fields.lookup k = none := by
  rw [lookup_eq_none_iff]
  intro p hp
  rw [bne_iff_ne]
  rintro rfl
  exact h (mem_map_of_mem hp)

theorem insertField_eq_insertEntry (k : String) (v : Json) (fields : List (String × Json)) :
    insertField k v fields = BTreeMap.insertEntry k v fields := by
  induction fields with
  | nil => rfl
  | cons e fields ih =>
    unfold insertField BTreeMap.insertEntry
    rw [ih]
    by_cases heq : k = e.1
    · rw [if_pos heq, if_neg (heq ▸ lt_irrefl k), if_pos heq]
    · by_cases hlt : k < e.1
      · rw [if_neg heq, if_pos hlt, if_pos hlt]
      · rw [if_neg heq, if_neg hlt, if_neg hlt, if_neg heq]

theorem lookup_insertField (key k : String) (v : Json) (fields : List (String × Json)) :
    (insertField key v fields).lookup k = if k = key then some v else fields.lookup k := by
  rw [insertField_eq_insertEntry]
  exact BTreeMap.lookup_insertEntry key k v fields

theorem insertField_ne_nil (key : String) (v : Json) (fields : List (String × Json)) :
    insertField key v fields ≠ [] := by
  cases fields with
  | nil => exact cons_ne_nil _ _
  | cons kv fields =>
    rw [insertField]
    split_ifs <;> exact cons_ne_nil _ _

theorem foldl_insertField_eq_nil_iff {fields acc : List (String × Json)} :
    fields.foldl (fun acc kv => insertField kv.1 kv.2 acc) acc = [] ↔ fields = [] ∧ acc = [] := by
  induction fields generalizing acc with
  | nil => simp
  | cons kv fields ih => simp [ih, insertField_ne_nil]

theorem get_ofFields {fields : List (String × Json)} (hnodup : (fields.map Prod.fst).Nodup) :
    (ofFields fields).get k = fields.lookup k := by
  have hfold : ∀ acc, (fields.foldl (fun acc kv => insertField kv.1 kv.2 acc) acc).lookup k =
      (fields.lookup k).or (acc.lookup k) := by
    induction fields with
    | nil => intro acc; rfl
    | cons kv fields ih =>
      intro acc
      obtain ⟨key, v⟩ := kv
      obtain ⟨hkey, htail⟩ := nodup_cons.1 hnodup
      rw [foldl_cons, ih htail, lookup_insertField, lookup_cons_eq_ite]
      by_cases hk : k = key
      · rw [if_pos hk, if_pos hk, lookup_eq_none_of_not_mem (hk ▸ hkey)]
        rfl
      · rw [if_neg hk, if_neg hk]
  simpa [ofFields, get] using hfold []

theorem ofFields_append (fields fields' : List (String × Json)) :
    ofFields (fields ++ fields') =
      fields'.foldl (fun out kv => out.insert kv.1 kv.2) (ofFields fields) := by
  have hfold : ∀ acc, fields'.foldl (fun out kv => out.insert kv.1 kv.2) (obj acc) =
      obj (fields'.foldl (fun acc kv => insertField kv.1 kv.2 acc) acc) := by
    induction fields' with
    | nil => intro acc; rfl
    | cons kv fields' ih => intro acc; exact ih _
  rw [ofFields, foldl_append]
  exact (hfold _).symm

/-! ### Objects with optional fields -/

theorem record_append_some (fields : List (String × Option Json)) (k : String) (v : Json) :
    record (fields ++ [(k, some v)]) = (record fields).insert k v := by
  rw [record, filterMap_append, ofFields_append]
  rfl

theorem record_append_none (fields : List (String × Option Json)) (k : String) :
    record (fields ++ [(k, none)]) = record fields := by
  rw [record, filterMap_append, ofFields_append]
  rfl

theorem ite_insert_record (c : Prop) [Decidable c] (fields : List (String × Option Json))
    (k : String) (v : Json) :
    (if c then record fields else (record fields).insert k v) =
      record (fields ++ [(k, if c then none else some v)]) := by
  split_ifs
  · rw [record_append_none]
  · rw [record_append_some]

theorem elim_insert_record {α : Type} (x : Option α) (g : α → Json)
    (fields : List (String × Option Json)) (k : String) :
    (x.elim (record fields) fun a => (record fields).insert k (g a)) =
      record (fields ++ [(k, x.map g)]) := by
  cases x with
  | none => rw [Option.map_none, record_append_none]; rfl
  | some a => rw [Option.map_some, record_append_some]; rfl

theorem get_record (hnodup : (fields.map Prod.fst).Nodup) :
    (record fields).get k = (fields.lookup k).join := by
  have hsub : ((fields.filterMap fun kv => kv.2.map (kv.1, ·)).map Prod.fst).Sublist
      (fields.map Prod.fst) := by
    induction fields with
    | nil => exact .slnil
    | cons kv fields ih =>
      obtain ⟨key, v⟩ := kv
      have htail := ih (nodup_cons.1 hnodup).2
      cases v with
      | none => exact htail.cons _
      | some v => exact htail.cons_cons _
  rw [record, get_ofFields (hnodup.sublist hsub)]
  clear hsub
  induction fields with
  | nil => rfl
  | cons kv fields ih =>
    obtain ⟨key, v⟩ := kv
    obtain ⟨hkey, htail⟩ := nodup_cons.1 hnodup
    rw [lookup_cons_eq_ite]
    cases v with
    | none =>
      rw [filterMap_cons_none rfl, ih htail]
      by_cases hk : k = key
      · rw [if_pos hk, lookup_eq_none_of_not_mem (hk ▸ hkey)]
        rfl
      · rw [if_neg hk]
    | some v =>
      show ((key, v) :: fields.filterMap fun kv => kv.2.map (kv.1, ·)).lookup k = _
      rw [lookup_cons_eq_ite, ih htail]
      split_ifs <;> rfl

theorem record_inj {fields' : List (String × Option Json)}
    (hkeys : fields.map Prod.fst = fields'.map Prod.fst) (hnodup : (fields.map Prod.fst).Nodup) :
    record fields = record fields' ↔ fields = fields' := by
  refine ⟨fun h => ?_, fun h => h ▸ rfl⟩
  have hget : ∀ k, (fields.lookup k).join = (fields'.lookup k).join := by
    intro k
    rw [← get_record hnodup, ← get_record (hkeys ▸ hnodup), h]
  clear h
  induction fields generalizing fields' with
  | nil => exact (map_eq_nil_iff.1 hkeys.symm).symm
  | cons kv fields ih =>
    obtain ⟨key, v⟩ := kv
    obtain ⟨⟨key', v'⟩, tail', rfl, rfl, htail'⟩ := map_eq_cons_iff.1 hkeys.symm
    obtain ⟨hkey, hnodup'⟩ := nodup_cons.1 hnodup
    have hhead := hget key'
    rw [lookup_cons_eq_ite, lookup_cons_eq_ite, if_pos rfl, if_pos rfl] at hhead
    obtain rfl : v = v' := hhead
    refine congrArg _ (ih htail'.symm hnodup' fun k => ?_)
    by_cases hk : k = key'
    · rw [lookup_eq_none_of_not_mem (hk ▸ hkey), lookup_eq_none_of_not_mem]
      rw [htail', hk]
      exact hkey
    · have htl := hget k
      rwa [lookup_cons_eq_ite, lookup_cons_eq_ite, if_neg hk, if_neg hk] at htl

end Z8s.Rust.Json
