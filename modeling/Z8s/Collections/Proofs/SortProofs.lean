import Mathlib.Data.List.MinMax
import Mathlib.Data.List.Sort

/-!
# Proofs: searching a sorted list

A search in a list that was sorted by a key finds the first of the least elements.
-/

namespace Z8s.Collections

variable {α β : Type*} [LinearOrder β] {f : α → β} {p : α → Bool}

theorem find?_orderedInsert (a : α) {l : List α} (h : l.Pairwise fun b c => f b ≤ f c) :
    (l.orderedInsert (fun b c => f b ≤ f c) a).find? p =
      if p a then (l.find? p).elim (some a) fun b => if f b < f a then some b else some a
      else l.find? p := by
  induction l with
  | nil => by_cases hp : p a <;> simp [hp]
  | cons b l ih =>
    rw [List.pairwise_cons] at h
    rw [List.orderedInsert_cons]
    by_cases hab : f a ≤ f b
    · rw [if_pos hab, List.find?_cons]
      by_cases hp : p a
      · -- what the search finds behind `a` is no smaller than `a`
        have hle : ∀ c ∈ (b :: l).find? p, ¬ f c < f a := by
          intro c hc
          rcases List.mem_cons.1 (List.mem_of_find?_eq_some hc) with rfl | hmem
          · exact not_lt.2 hab
          · exact not_lt.2 (hab.trans (h.1 c hmem))
        simp only [hp, if_true]
        cases hfind : (b :: l).find? p with
        | none => rfl
        | some c => simp [hle c hfind]
      · simp [hp]
    · rw [if_neg hab, List.find?_cons, List.find?_cons, ih h.2]
      by_cases hb : p b
      · have hlt : f b < f a := not_le.1 hab
        simp [hb, hlt]
      · simp [hb]

theorem find?_insertionSort (l : List α) :
    (l.insertionSort fun a b => f a ≤ f b).find? p = (l.filter p).argmin f := by
  induction l with
  | nil => rfl
  | cons a l ih =>
    have hsorted : (l.insertionSort fun a b => f a ≤ f b).Pairwise fun a b => f a ≤ f b :=
      List.pairwise_insertionSort _ l
    rw [List.insertionSort_cons, find?_orderedInsert a hsorted, ih]
    by_cases hp : p a
    · rw [List.filter_cons_of_pos hp, List.argmin_cons, if_pos hp]
      cases (l.filter p).argmin f <;> rfl
    · rw [List.filter_cons_of_neg hp, if_neg hp]

theorem find?_and_of_find? {q : α → Bool} {l : List α} {a : α} (h : l.find? p = some a)
    (hq : q a = true) : (l.find? fun b => p b && q b) = some a := by
  obtain ⟨hp, before, behind, rfl, hbefore⟩ := List.find?_eq_some_iff_append.1 h
  refine List.find?_eq_some_iff_append.2 ⟨by simp [hp, hq], before, behind, rfl, fun b hb => ?_⟩
  have hnot := hbefore b hb
  simp only [Bool.not_eq_true'] at hnot
  simp [hnot]

end Z8s.Collections
