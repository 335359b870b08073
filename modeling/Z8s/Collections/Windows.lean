import Mathlib.Data.List.Pairwise
import Mathlib.Data.List.TakeWhile
import Mathlib.Tactic.Common

/-!
# Windows over a list

`windows n l` are the stretches of `n` neighbouring elements of `l`. In a list whose elements have increasing
values, a stretch of consecutive values is a window as soon as all of its values occur.
-/

namespace Z8s.Collections

open List

variable {α : Type*}

def windows (n : Nat) : List α → List (List α)
  | [] => []
  | a :: l => if n ≤ l.length + 1 then (a :: l).take n :: windows n l else []

theorem mem_windows {n : Nat} (hn : 0 < n) {l w : List α} :
    w ∈ windows n l ↔ ∃ front back, l = front ++ back ∧ n ≤ back.length ∧ w = back.take n := by
  induction l with
  | nil =>
    constructor
    · intro h
      cases h
    · rintro ⟨front, back, hl, hlen, -⟩
      obtain ⟨-, rfl⟩ := append_eq_nil_iff.1 hl.symm
      exact absurd hlen (by simp; omega)
  | cons a l ih =>
    rw [windows]
    constructor
    · intro h
      split_ifs at h with hlen
      · rcases mem_cons.1 h with rfl | h
        · exact ⟨[], a :: l, rfl, hlen, rfl⟩
        · obtain ⟨front, back, rfl, hback, rfl⟩ := ih.1 h
          exact ⟨a :: front, back, rfl, hback, rfl⟩
      · cases h
    · rintro ⟨front, back, hl, hback, rfl⟩
      have hlen : n ≤ l.length + 1 := by
        have := congrArg List.length hl
        simp only [length_cons, length_append] at this
        omega
      rw [if_pos hlen, mem_cons]
      cases front with
      | nil => exact .inl (by rw [hl, nil_append])
      | cons b front =>
        obtain ⟨rfl, rfl⟩ := List.cons.inj hl
        exact .inr (ih.2 ⟨front, back, rfl, hback, rfl⟩)

theorem pairwise_windows {n : Nat} (hn : 0 < n) {R : α → α → Prop} {l : List α} (h : l.Pairwise R) :
    (windows n l).Pairwise fun w w' => ∀ a ∈ w.head?, ∀ b ∈ w'.head?, R a b := by
  induction l with
  | nil => exact .nil
  | cons a l ih =>
    obtain ⟨ha, hl⟩ := pairwise_cons.1 h
    rw [windows]
    split_ifs
    · refine pairwise_cons.2 ⟨fun w hw x hx b hb => ?_, ih hl⟩
      obtain ⟨front, back, rfl, -, rfl⟩ := (mem_windows hn).1 hw
      rw [head?_take, if_neg (by omega)] at hx hb
      obtain rfl : a = x := Option.some.inj hx
      exact ha b (mem_append_right front (mem_of_mem_head? hb))
    · exact .nil

section Consecutive

variable {val : α → Nat} {l : List α} {n s : Nat}

/-- A list that has the values `s`, `s + 1` and so on and no smaller ones begins with them. -/
theorem map_take_eq_range' (hsorted : l.Pairwise fun a b => val a < val b)
    (hmem : ∀ k < n, s + k ∈ l.map val) (hle : ∀ a ∈ l, s ≤ val a) :
    (l.take n).map val = List.range' s n := by
  induction n generalizing s l with
  | zero => rfl
  | succ n ih =>
    cases l with
    | nil => exact absurd (hmem 0 n.succ_pos) (by simp)
    | cons a l =>
      obtain ⟨ha, hl⟩ := pairwise_cons.1 hsorted
      -- the first element has the least value, so it is `s`
      have hval : val a = s := by
        obtain ⟨b, hb, hbs⟩ := mem_map.1 (hmem 0 n.succ_pos)
        have hsa := hle a mem_cons_self
        rcases mem_cons.1 hb with rfl | hb
        · omega
        · have := ha b hb
          omega
      have hrest : ∀ k < n, s + 1 + k ∈ l.map val := by
        intro k hk
        have hk' := hmem (k + 1) (Nat.succ_lt_succ hk)
        rw [map_cons, mem_cons] at hk'
        rcases hk' with hk' | hk'
        · omega
        · rwa [Nat.add_assoc, Nat.add_comm 1 k]
      rw [take_succ_cons, map_cons, List.range'_succ, hval,
        ih hl hrest fun b hb => hval ▸ ha b hb]

theorem exists_window (hn : 0 < n) (hsorted : l.Pairwise fun a b => val a < val b)
    (hmem : ∀ k < n, s + k ∈ l.map val) : ∃ w ∈ windows n l, w.map val = List.range' s n := by
  set back := l.dropWhile fun a => decide (val a < s) with hback
  have hsplit : l.takeWhile (fun a => decide (val a < s)) ++ back = l := takeWhile_append_dropWhile
  have hsuffix : back <:+ l := dropWhile_suffix _
  have hbackSorted := hsorted.sublist hsuffix.sublist
  have hle : ∀ a ∈ back, s ≤ val a := by
    cases hcons : back with
    | nil => simp
    | cons b back' =>
      have hb : s ≤ val b := by
        have := head?_dropWhile_not (fun a => decide (val a < s)) l
        rw [← hback, hcons] at this
        simpa using this
      rw [hcons] at hbackSorted
      intro a ha
      rcases mem_cons.1 ha with rfl | ha
      · exact hb
      · exact Nat.le_trans hb (Nat.le_of_lt ((pairwise_cons.1 hbackSorted).1 a ha))
  have hmemBack : ∀ k < n, s + k ∈ back.map val := by
    intro k hk
    obtain ⟨a, ha, hval⟩ := mem_map.1 (hmem k hk)
    rw [← hsplit, mem_append] at ha
    rcases ha with ha | ha
    · have := mem_takeWhile_imp ha
      simp only [decide_eq_true_eq] at this
      omega
    · exact mem_map.2 ⟨a, ha, hval⟩
  have hmap := map_take_eq_range' hbackSorted hmemBack hle
  have hlen : n ≤ back.length := by
    have := congrArg List.length hmap
    simp only [length_map, length_take, length_range'] at this
    omega
  exact ⟨back.take n, (mem_windows hn).2 ⟨_, back, hsplit.symm, hlen, rfl⟩, hmap⟩

end Consecutive

end Z8s.Collections
