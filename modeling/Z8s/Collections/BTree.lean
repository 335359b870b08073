import Mathlib.Data.Finset.Image
import Mathlib.Data.Finset.Max
import Mathlib.Data.Finset.Sort
import Mathlib.Order.Interval.Finset.Nat
import Mathlib.Order.Lattice.Nat

/-!
# Ordered sets

A B-tree set is a finite set of a linear order. `popFirst` takes out its least element, and `iter` goes through
the elements from the least to the greatest.
-/

namespace Z8s.Collections

/-- Unsigned machine words in their usual order. -/
instance linearOrderBitVec {w : Nat} : LinearOrder (BitVec w) where
  le := (· ≤ ·)
  lt := (· < ·)
  le_refl x := BitVec.le_refl x
  le_trans x y z := BitVec.le_trans
  lt_iff_le_not_ge x y := by simp only [BitVec.lt_def, BitVec.le_def]; omega
  le_antisymm x y := BitVec.le_antisymm
  le_total x y := BitVec.le_total x y
  toDecidableLE := inferInstance
  toDecidableEq := inferInstance
  toDecidableLT := inferInstance

namespace BTreeSet

variable {α : Type} [LinearOrder α]

def popFirst (s : Finset α) : Option (α × Finset α) :=
  if h : s.Nonempty then some (s.min' h, s.erase (s.min' h)) else none

theorem popFirst_eq_some {s t : Finset α} {a : α} (h : popFirst s = some (a, t)) :
    a ∈ s ∧ t = s.erase a := by
  unfold popFirst at h
  split_ifs at h with hs
  cases h
  exact ⟨s.min'_mem hs, rfl⟩

def iter (s : Finset α) : List α := s.sort (· ≤ ·)

@[simp] theorem mem_iter {s : Finset α} {a : α} : a ∈ iter s ↔ a ∈ s := Finset.mem_sort (· ≤ ·)

@[simp] theorem length_iter (s : Finset α) : (iter s).length = s.card := Finset.length_sort (· ≤ ·)

theorem pairwise_iter (s : Finset α) : (iter s).Pairwise (· < ·) := (Finset.sortedLT_sort s).pairwise

end BTreeSet

end Z8s.Collections
