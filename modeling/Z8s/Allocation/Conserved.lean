import Mathlib.Data.Finset.Insert
import Mathlib.Data.List.Nodup
import Mathlib.Tactic.Common

/-!
# Conservation of resources

Resources are free or out. Nothing is handed out twice and nothing is lost as long as the two sides stay apart and
have the same resources together.
-/

namespace Z8s.Allocation

variable {α : Type*}

/-- No resource is out twice, none is free and out, and free or out are exactly those of `isOwn`. -/
structure Conserved (isOwn : α → Prop) (free : Finset α) (out : List α) : Prop where
  nodup : out.Nodup
  apart : ∀ a ∈ out, a ∉ free
  own : ∀ a, a ∈ free ∨ a ∈ out ↔ isOwn a

namespace Conserved

variable {isOwn : α → Prop} {free free' : Finset α} {out : List α}

theorem init (h : ∀ a, a ∈ free ↔ isOwn a) : Conserved isOwn free [] :=
  ⟨.nil, fun _ ha => absurd ha List.not_mem_nil, fun a => by rw [← h a]; simp⟩

theorem take (h : Conserved isOwn free out) {block : List α} (hnodup : block.Nodup)
    (hblock : ∀ a ∈ block, a ∈ free) (hfree : ∀ a, a ∈ free' ↔ a ∈ free ∧ a ∉ block) :
    Conserved isOwn free' (block ++ out) := by
  refine ⟨List.nodup_append'.2 ⟨hnodup, h.nodup, fun a ha hout => h.apart a hout (hblock a ha)⟩, ?_, ?_⟩
  · intro a ha hmem
    obtain ⟨hfree', hnot⟩ := (hfree a).1 hmem
    rcases List.mem_append.1 ha with ha | ha
    · exact hnot ha
    · exact h.apart a ha hfree'
  · intro a
    rw [← h.own a, hfree, List.mem_append]
    by_cases ha : a ∈ block
    · exact iff_of_true (.inr (.inl ha)) (.inl (hblock a ha))
    · simp only [ha, not_false_eq_true, and_true, false_or]

theorem give [DecidableEq α] (h : Conserved isOwn free out) {a : α} (ha : a ∈ out) :
    Conserved isOwn (insert a free) (out.erase a) := by
  refine ⟨h.nodup.erase a, ?_, ?_⟩
  · intro b hb hmem
    obtain ⟨hne, hb⟩ := h.nodup.mem_erase_iff.1 hb
    exact h.apart b hb ((Finset.mem_insert.1 hmem).resolve_left hne)
  · intro b
    rw [← h.own b, Finset.mem_insert, h.nodup.mem_erase_iff]
    by_cases hb : b = a
    · subst hb
      exact iff_of_true (.inl (.inl rfl)) (.inr ha)
    · simp only [hb, false_or, ne_eq, not_false_eq_true, true_and]

end Conserved

end Z8s.Allocation
