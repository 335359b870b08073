import Mathlib.Data.List.Perm.Basic

/-!
# The first match of an unordered list

What `findSome?` can give for a list whose order is not known: any of its matches may come first, so the
result is the same in every order exactly when all matches are.
-/

namespace Z8s.Collections

variable {α β : Type*} {f : α → Option β} {l : List α}

theorem exists_perm_findSome? {x : α} {b : β} (hx : x ∈ l) (hb : f x = some b) :
    ∃ l' : List α, l'.Perm l ∧ l'.findSome? f = some b := by
  obtain ⟨before, after, rfl⟩ := List.append_of_mem hx
  refine ⟨x :: (before ++ after), List.perm_middle.symm, ?_⟩
  rw [List.findSome?_cons, hb]

theorem exists_mem_of_perm_findSome? {l' : List α} {b : β} (hperm : l'.Perm l)
    (hb : l'.findSome? f = some b) : ∃ x ∈ l, f x = some b := by
  obtain ⟨x, hx, hfx⟩ := List.exists_of_findSome?_eq_some hb
  exact ⟨x, hperm.subset hx, hfx⟩

theorem findSome?_eq_some_of_unique {x : α} {b : β} (hx : x ∈ l) (hb : f x = some b)
    (hunique : ∀ y ∈ l, ∀ c, f y = some c → c = b) : l.findSome? f = some b := by
  cases hfound : l.findSome? f with
  | none =>
    rw [List.findSome?_eq_none_iff] at hfound
    rw [hfound x hx] at hb
    cases hb
  | some c =>
    obtain ⟨y, hy, hc⟩ := List.exists_of_findSome?_eq_some hfound
    rw [hunique y hy c hc]

def MatchesAgree (f : α → Option β) (l : List α) : Prop :=
  ∀ x ∈ l, ∀ y ∈ l, ∀ a b, f x = some a → f y = some b → a = b

/-- The first match of a list, or else a default, is the same in every order exactly when all matches
are. -/
theorem findSome?_orderFree_iff (d : β) :
    (∀ l₁ l₂ : List α, l₁.Perm l → l₂.Perm l → (l₁.findSome? f).getD d = (l₂.findSome? f).getD d) ↔
      MatchesAgree f l := by
  constructor
  · intro h x hx y hy a b ha hb
    obtain ⟨l₁, hperm₁, h₁⟩ := exists_perm_findSome? hx ha
    obtain ⟨l₂, hperm₂, h₂⟩ := exists_perm_findSome? hy hb
    have hsame := h l₁ l₂ hperm₁ hperm₂
    rwa [h₁, h₂] at hsame
  · intro h l₁ l₂ hperm₁ hperm₂
    cases h₁ : l₁.findSome? f with
    | none =>
      have hnone : l₂.findSome? f = none := by
        rw [List.findSome?_eq_none_iff] at h₁ ⊢
        intro x hx
        exact h₁ x (hperm₁.mem_iff.2 (hperm₂.mem_iff.1 hx))
      rw [hnone]
    | some a =>
      obtain ⟨x, hx, ha⟩ := exists_mem_of_perm_findSome? hperm₁ h₁
      have h₂ : l₂.findSome? f = some a := by
        refine findSome?_eq_some_of_unique (hperm₂.mem_iff.2 hx) ha fun y hy c hc => ?_
        exact h y (hperm₂.mem_iff.1 hy) x hx c a hc ha
      rw [h₂]

theorem exists_perm_find? {p : α → Bool} {x : α} (hx : x ∈ l) (hp : p x = true) :
    ∃ l' : List α, l'.Perm l ∧ l'.find? p = some x := by
  obtain ⟨before, after, rfl⟩ := List.append_of_mem hx
  exact ⟨x :: (before ++ after), List.perm_middle.symm, List.find?_cons_of_pos hp⟩

end Z8s.Collections
