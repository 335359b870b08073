import Mathlib.Data.Finset.Image
import Mathlib.Tactic.Common

/-!
# Families of resource pools

Resources of a type `α` are handed out from pools indexed by `ι`; `free i` is the set of resources
that pool `i` can still hand out, and `held` the resources that are out. `Exclusive`: no resource is out twice,
nor free while it is out, nor free in two pools. `Accounted`: every resource that was taken from a pool is free
there again or held by someone.
-/

namespace Z8s.Allocation

variable {ι α : Type*}

/-- No resource is out twice, free while it is out, or free in two pools. -/
structure Exclusive (free : ι → Finset α) (held : List α) : Prop where
  nodup : held.Nodup
  apart : ∀ i j, i ≠ j → ∀ a ∈ free i, a ∉ free j
  out : ∀ a ∈ held, ∀ i, a ∉ free i

namespace Exclusive

variable {free : ι → Finset α} {held : List α}

theorem take [DecidableEq ι] [DecidableEq α] (h : Exclusive free held) {i : ι} {a : α}
    (ha : a ∈ free i) :
    Exclusive (Function.update free i ((free i).erase a)) (a :: held) := by
  have hsub : ∀ j b, b ∈ Function.update free i ((free i).erase a) j →
      b ∈ free j ∧ (j = i → b ≠ a) := by
    intro j b hb
    by_cases hj : j = i
    · subst hj
      rw [Function.update_self, Finset.mem_erase] at hb
      exact ⟨hb.2, fun _ => hb.1⟩
    · rw [Function.update_of_ne hj] at hb
      exact ⟨hb, fun e => absurd e hj⟩
  refine ⟨?_, ?_, ?_⟩
  · rw [List.nodup_cons]
    exact ⟨fun hm => h.out a hm i ha, h.nodup⟩
  · intro j k hjk b hb hb'
    exact h.apart j k hjk b (hsub j b hb).1 (hsub k b hb').1
  · intro b hb j hj
    rcases List.mem_cons.1 hb with rfl | hb
    · -- the resource just taken is free in no other pool, and it left pool `i`
      by_cases hji : j = i
      · exact (hsub j b hj).2 hji rfl
      · exact h.apart j i hji b (hsub j b hj).1 ha
    · exact h.out b hb j (hsub j b hj).1

theorem give [DecidableEq ι] [DecidableEq α] (h : Exclusive free held) {a : α} {rest : List α}
    (hperm : held.Perm (a :: rest)) (i : ι) :
    Exclusive (Function.update free i (insert a (free i))) rest := by
  have hnodup : a ∉ rest ∧ rest.Nodup := List.nodup_cons.1 (hperm.nodup_iff.1 h.nodup)
  have hout : ∀ b ∈ a :: rest, ∀ j, b ∉ free j := fun b hb => h.out b (hperm.mem_iff.2 hb)
  have hsub : ∀ j b, b ∈ Function.update free i (insert a (free i)) j →
      b ∈ free j ∨ (j = i ∧ b = a) := by
    intro j b hb
    by_cases hj : j = i
    · subst hj
      rw [Function.update_self, Finset.mem_insert] at hb
      rcases hb with rfl | hb
      · exact .inr ⟨rfl, rfl⟩
      · exact .inl hb
    · rw [Function.update_of_ne hj] at hb
      exact .inl hb
  refine ⟨hnodup.2, ?_, ?_⟩
  · intro j k hjk b hb hb'
    rcases hsub j b hb with hj | ⟨rfl, rfl⟩
    · rcases hsub k b hb' with hk | ⟨-, rfl⟩
      · exact h.apart j k hjk b hj hk
      · exact hout b List.mem_cons_self j hj
    · rcases hsub k b hb' with hk | ⟨rfl, -⟩
      · exact hout b List.mem_cons_self k hk
      · exact hjk rfl
  · intro b hb j hj
    rcases hsub j b hj with hj | ⟨-, rfl⟩
    · exact hout b (List.mem_cons_of_mem a hb) j hj
    · exact hnodup.1 hb

theorem replace [DecidableEq ι] (h : Exclusive free held) (i : ι) {S : Finset α}
    (hS : ∀ a ∈ S, a ∉ held ∧ ∀ j, j ≠ i → a ∉ free j) :
    Exclusive (Function.update free i S) held := by
  refine ⟨h.nodup, ?_, ?_⟩
  · intro j k hjk b hb hb'
    by_cases hj : j = i
    · subst hj
      rw [Function.update_self] at hb
      rw [Function.update_of_ne (Ne.symm hjk)] at hb'
      exact (hS b hb).2 k (Ne.symm hjk) hb'
    · rw [Function.update_of_ne hj] at hb
      by_cases hk : k = i
      · subst hk
        rw [Function.update_self] at hb'
        exact (hS b hb').2 j hj hb
      · rw [Function.update_of_ne hk] at hb'
        exact h.apart j k hjk b hb hb'
  · intro b hb j hj
    by_cases hji : j = i
    · subst hji
      rw [Function.update_self] at hj
      exact (hS b hj).1 hb
    · rw [Function.update_of_ne hji] at hj
      exact h.out b hb j hj

end Exclusive

/-- Every resource that was taken from a pool is free there again, or held by someone. `taken` lists
the resources with the pools they were taken from. -/
def Accounted (taken : List (ι × α)) (free : ι → Finset α) (held : α → Prop) : Prop :=
  ∀ i a, (i, a) ∈ taken → a ∉ free i → held a

namespace Accounted

variable {taken : List (ι × α)} {free : ι → Finset α} {held : α → Prop}

section

variable (h : Accounted taken free held)
include h

theorem take [DecidableEq ι] [DecidableEq α]
    {held' : α → Prop} {i : ι} {a : α} (hheld : ∀ b, held b → held' b) (ha : held' a) :
    Accounted ((i, a) :: taken) (Function.update free i ((free i).erase a)) held' := by
  intro j b hmem hfree
  rcases List.mem_cons.1 hmem with heq | hmem
  · obtain ⟨-, rfl⟩ := Prod.mk.inj heq
    exact ha
  · by_cases hba : b = a
    · rw [hba]
      exact ha
    · refine hheld b (h j b hmem fun hb => hfree ?_)
      by_cases hj : j = i
      · subst hj
        rw [Function.update_self]
        exact Finset.mem_erase.2 ⟨hba, hb⟩
      · rw [Function.update_of_ne hj]
        exact hb

theorem grow {free' : ι → Finset α} (hfree : ∀ i, free i ⊆ free' i) : Accounted taken free' held :=
  fun i a hmem hout => h i a hmem fun ha => hout (hfree i ha)

theorem imp {held' : α → Prop} (hheld : ∀ a, held a → held' a) : Accounted taken free held' :=
  fun i a hmem hout => hheld a (h i a hmem hout)

theorem drop {held' : α → Prop} (hheld : ∀ a, held a → held' a ∨ ∀ i, (i, a) ∈ taken → a ∈ free i) :
    Accounted taken free held' := by
  intro i a hmem hout
  rcases hheld a (h i a hmem hout) with ha | hfree
  · exact ha
  · exact absurd (hfree i hmem) hout

theorem replace [DecidableEq ι] (i : ι) (S : Finset α) :
    Accounted (taken.filter fun x => x.1 ≠ i) (Function.update free i S) held := by
  intro j a hmem hout
  obtain ⟨hmem, hj⟩ := List.mem_filter.1 hmem
  have hne : j ≠ i := by simpa using hj
  rw [Function.update_of_ne hne] at hout
  exact h j a hmem hout

end

end Accounted

end Z8s.Allocation
