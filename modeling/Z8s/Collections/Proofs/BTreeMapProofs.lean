import Z8s.Collections.BTreeMap

/-!
# Proofs: ordered maps

How a lookup sees the operations, and that the entries of a map are what a lookup finds.
-/

namespace Z8s.Collections.BTreeMap

variable {K V : Type} [LinearOrder K]

theorem lookup_cons_eq_ite (k : K) (e : K × V) (es : List (K × V)) :
    (e :: es).lookup k = if k = e.1 then some e.2 else es.lookup k := by
  obtain ⟨a, v⟩ := e
  by_cases h : k = a
  · rw [h, List.lookup_cons_self, if_pos rfl]
  · rw [List.lookup_cons, beq_eq_false_iff_ne.2 h, if_neg h]

theorem lookup_insertEntry (k k' : K) (v : V) (es : List (K × V)) :
    (insertEntry k v es).lookup k' = if k' = k then some v else es.lookup k' := by
  induction es with
  | nil => rw [insertEntry, lookup_cons_eq_ite]
  | cons e es ih =>
    unfold insertEntry
    by_cases hlt : k < e.1
    · rw [if_pos hlt, lookup_cons_eq_ite]
    · rw [if_neg hlt]
      by_cases heq : k = e.1
      · rw [if_pos heq, lookup_cons_eq_ite, lookup_cons_eq_ite]
        split_ifs with hk hk'
        · rfl
        · exact absurd (hk'.trans heq.symm) hk
        · rfl
      · rw [if_neg heq, lookup_cons_eq_ite, lookup_cons_eq_ite, ih]
        split_ifs with hk hk'
        · exact absurd (hk'.symm.trans hk) heq
        · rfl
        · rfl
        · rfl

theorem get_insert (m : BTreeMap K V) (k k' : K) (v : V) :
    (m.insert k v).get k' = if k' = k then some v else m.get k' :=
  lookup_insertEntry k k' v m.iter

theorem mem_iff_lookup {es : List (K × V)} (h : es.Pairwise fun a b => a.1 < b.1) {k : K} {v : V} :
    (k, v) ∈ es ↔ es.lookup k = some v := by
  induction es with
  | nil => simp
  | cons e es ih =>
    obtain ⟨hhead, htail⟩ := List.pairwise_cons.1 h
    rw [lookup_cons_eq_ite, List.mem_cons]
    by_cases hk : k = e.1
    · -- a later entry has another key
      have hnot : (k, v) ∉ es := fun hmem => absurd (hhead _ hmem) (by simp [hk])
      rw [if_pos hk, Option.some.injEq]
      constructor
      · rintro (rfl | hmem)
        · rfl
        · exact absurd hmem hnot
      · intro hv
        exact .inl (Prod.ext hk hv.symm)
    · rw [if_neg hk, ← ih htail]
      constructor
      · rintro (rfl | hmem)
        · exact absurd rfl hk
        · exact hmem
      · exact .inr

theorem mem_iter {m : BTreeMap K V} {k : K} {v : V} : (k, v) ∈ m.iter ↔ m.get k = some v :=
  mem_iff_lookup m.sorted

theorem get_foldl_insert {es : List (K × V)} (h : es.Pairwise fun a b => a.1 < b.1)
    (m : BTreeMap K V) (k : K) :
    (es.foldl (fun m e => m.insert e.1 e.2) m).get k = (es.lookup k).or (m.get k) := by
  induction es generalizing m with
  | nil => rfl
  | cons e es ih =>
    obtain ⟨hhead, htail⟩ := List.pairwise_cons.1 h
    rw [List.foldl_cons, ih htail, get_insert, lookup_cons_eq_ite]
    by_cases hk : k = e.1
    · have hnone : es.lookup k = none := by
        rw [Option.eq_none_iff_forall_ne_some]
        intro v hv
        exact absurd (hhead _ ((mem_iff_lookup htail).2 hv)) (by simp [hk])
      rw [hnone, if_pos hk, if_pos hk]
      rfl
    · rw [if_neg hk, if_neg hk]

theorem get_extend (m m' : BTreeMap K V) (k : K) :
    (m.extend m').get k = (m'.get k).or (m.get k) :=
  get_foldl_insert m'.sorted m k

theorem get_ofList (es : List (K × V)) (k : K) : (ofList es).get k = es.reverse.lookup k := by
  rw [ofList, List.foldl_eq_foldr_reverse]
  induction es.reverse with
  | nil => rfl
  | cons e es ih => rw [List.foldr_cons, get_insert, ih, lookup_cons_eq_ite]

end Z8s.Collections.BTreeMap
