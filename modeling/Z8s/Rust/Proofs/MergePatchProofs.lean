import Z8s.Rust.MergePatch
import Z8s.Rust.Proofs.JsonProofs

/-!
# Proofs: JSON Merge Patch

A pass over the members of a patch with distinct keys does to each field what its rule says
(`lookup_updateFields`).
-/

namespace Z8s.Rust.Json

open Collections List

variable {b fields p : List (String × Json)}

/-- The keys increase. -/
abbrev Increasing (fields : List (String × Json)) : Prop := fields.Pairwise fun e e' => e.1 < e'.1

theorem wellFormedFields_iff :
    wellFormedFields fields = true ↔ Increasing fields ∧ ∀ e ∈ fields, e.2.wellFormed = true := by
  induction fields with
  | nil => simp [wellFormedFields]
  | cons e fields ih =>
    obtain ⟨k, v⟩ := e
    unfold Increasing at ih ⊢
    rw [wellFormedFields, Bool.and_eq_true, Bool.and_eq_true, ih, pairwise_cons,
      forall_mem_cons, all_eq_true]
    simp only [decide_eq_true_eq]
    constructor
    · rintro ⟨⟨hk, hv⟩, hinc, hfields⟩
      exact ⟨⟨hk, hinc⟩, hv, hfields⟩
    · rintro ⟨⟨hk, hinc⟩, hv, hfields⟩
      exact ⟨⟨hk, hv⟩, hinc, hfields⟩

theorem mem_of_lookup_eq_some {k : String} {v : Json} (h : fields.lookup k = some v) : (k, v) ∈ fields := by
  obtain ⟨front, back, rfl, -⟩ := lookup_eq_some_iff.1 h
  exact mem_append_right _ mem_cons_self

theorem Increasing.insertField {fields : List (String × Json)} (h : Increasing fields) (k : String)
    (v : Json) : Increasing (insertField k v fields) := by
  rw [insertField_eq_insertEntry]
  exact BTreeMap.sorted_insertEntry k v h

theorem insertField_of_lookup (h : Increasing fields) {k : String} {v : Json}
    (hv : fields.lookup k = some v) : insertField k v fields = fields := by
  induction fields with
  | nil => simp at hv
  | cons e fields ih =>
    obtain ⟨k', v'⟩ := e
    obtain ⟨hhead, htail⟩ := pairwise_cons.1 h
    rw [lookup_cons_eq_ite] at hv
    unfold insertField
    by_cases hk : k = k'
    · rw [if_pos hk] at hv ⊢
      rw [hk, Option.some.inj hv]
    · rw [if_neg hk] at hv ⊢
      have hlt : k' < k := hhead _ (mem_of_lookup_eq_some hv)
      rw [if_neg (String.lt_asymm hlt), ih htail hv]

/-! ### Setting one field -/

theorem lookup_setField (key k : String) (v : Option Json) (fields : List (String × Json)) :
    (setField key v fields).lookup k = if k = key then v else fields.lookup k := by
  cases v with
  | some v => exact lookup_insertField key k v fields
  | none =>
    unfold setField
    induction fields with
    | nil => exact (ite_self _).symm
    | cons e fields ih =>
      obtain ⟨key', w⟩ := e
      by_cases hkey : key' = key
      · rw [filter_cons_of_neg (by simp [hkey]), ih, lookup_cons_eq_ite, hkey]
        split_ifs <;> rfl
      · rw [filter_cons_of_pos (by simpa using hkey), lookup_cons_eq_ite, lookup_cons_eq_ite, ih]
        by_cases hk : k = key'
        · rw [if_pos hk, if_pos hk, if_neg (hk ▸ hkey)]
        · rw [if_neg hk, if_neg hk]

theorem Increasing.setField {fields : List (String × Json)} (h : Increasing fields) (k : String)
    (v : Option Json) : Increasing (setField k v fields) := by
  cases v with
  | some v => exact h.insertField k v
  | none => exact h.filter _

theorem setField_of_lookup (h : Increasing fields) (k : String) :
    setField k (fields.lookup k) fields = fields := by
  cases hv : fields.lookup k with
  | some v => exact insertField_of_lookup h hv
  | none =>
    refine filter_eq_self.2 fun e he => ?_
    rw [lookup_eq_none_iff] at hv
    have hne : k ≠ e.1 := by simpa using hv e he
    exact bne_iff_ne.2 hne.symm

/-! ### Passing over the members of a patch -/

variable {rule rule' : Option Json → Json → Option Json}

theorem Increasing.updateFields {b : List (String × Json)} (h : Increasing b)
    (p : List (String × Json)) : Increasing (updateFields rule b p) := by
  unfold Json.updateFields
  induction p generalizing b with
  | nil => exact h
  | cons e p ih => exact ih (h.setField _ _)

theorem lookup_updateFields (hp : Increasing p) (k : String) :
    (updateFields rule b p).lookup k =
      match p.lookup k with
      | some v => rule (b.lookup k) v
      | none => b.lookup k := by
  unfold updateFields
  induction p generalizing b with
  | nil => rfl
  | cons e p ih =>
    obtain ⟨hhead, htail⟩ := pairwise_cons.1 hp
    rw [foldl_cons, ih htail, lookup_setField, lookup_cons_eq_ite]
    by_cases hk : k = e.1
    · -- no later member has the key of the first
      have hnone : p.lookup k = none := by
        refine lookup_eq_none_of_not_mem fun hmem => ?_
        obtain ⟨e', he', hke'⟩ := mem_map.1 hmem
        exact String.lt_irrefl k (by simpa only [← hk, hke'] using hhead e' he')
      rw [hnone, if_pos hk, if_pos hk, hk]
    · rw [if_neg hk, if_neg hk]

theorem lookup_of_mem (hp : Increasing p) {e : String × Json} (he : e ∈ p) : p.lookup e.1 = some e.2 :=
  (BTreeMap.mem_iff_lookup hp).1 he

/-- Two rules make the same of an object exactly when they make the same of every field that the patch
has a member for. -/
theorem updateFields_eq_iff (hp : Increasing p) :
    updateFields rule b p = updateFields rule' b p ↔
      ∀ e ∈ p, rule (b.lookup e.1) e.2 = rule' (b.lookup e.1) e.2 := by
  constructor
  · intro h e he
    have hlookup := congrArg (List.lookup e.1) h
    rwa [lookup_updateFields hp, lookup_updateFields hp, lookup_of_mem hp he] at hlookup
  · intro h
    unfold updateFields
    induction p generalizing b with
    | nil => rfl
    | cons a p ih =>
      obtain ⟨hhead, htail⟩ := pairwise_cons.1 hp
      obtain ⟨ha, hrest⟩ := forall_mem_cons.1 h
      rw [foldl_cons, foldl_cons, ha]
      refine ih htail fun e he => ?_
      have hne : e.1 ≠ a.1 := fun heq => String.lt_irrefl a.1 (by simpa [heq] using hhead e he)
      rw [lookup_setField, if_neg hne]
      exact hrest e he

theorem updateFields_idem (hb : Increasing b) (hp : Increasing p)
    (hrule : ∀ e ∈ p, rule (rule (b.lookup e.1) e.2) e.2 = rule (b.lookup e.1) e.2) :
    updateFields rule (updateFields rule b p) p = updateFields rule b p := by
  have hinc : Increasing (updateFields rule b p) := hb.updateFields p
  have hsettled : ∀ e ∈ p, rule ((updateFields rule b p).lookup e.1) e.2 =
      (updateFields rule b p).lookup e.1 := by
    intro e he
    rw [lookup_updateFields hp, lookup_of_mem hp he]
    exact hrule e he
  generalize updateFields rule b p = c at hinc hsettled
  unfold updateFields
  clear hrule hp
  induction p with
  | nil => rfl
  | cons e p ih =>
    obtain ⟨he, hrest⟩ := forall_mem_cons.1 hsettled
    rw [foldl_cons, he, setField_of_lookup hinc]
    exact ih hrest

/-! ### The algorithm of the RFC -/

/-- What the loop of `MergePatch` makes of one field. -/
def patchField (target : Option Json) : Json → Option Json
  | null => none
  | v => some (mergePatch target v)

theorem patchField_of_ne {v : Json} (h : v ≠ null) (target : Option Json) :
    patchField target v = some (mergePatch target v) := by
  cases v with
  | null => exact absurd rfl h
  | _ => rfl

theorem mergeMembers_eq_updateFields (b p : List (String × Json)) :
    mergeMembers b p = updateFields patchField b p := by
  induction p generalizing b with
  | nil => rw [mergeMembers]; rfl
  | cons e p ih =>
    obtain ⟨k, v⟩ := e
    by_cases hnull : v = null
    · rw [hnull, mergeMembers, ih]
      rfl
    · rw [mergeMembers, ih, updateFields, updateFields, foldl_cons, patchField_of_ne hnull]
      · rfl
      · exact hnull

end Z8s.Rust.Json
