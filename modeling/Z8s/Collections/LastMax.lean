import Mathlib.Data.List.Induction
import Mathlib.Tactic.Common

/-!
# The last of the greatest

Some elements of a list have a rank. Of those with the greatest rank the last one is chosen; a loop that keeps
the best element so far, and takes the later one of two that are equal, finds it.
-/

namespace Z8s.Collections

variable {α : Type*} {rank rank' : α → Option Nat} {l : List α} {a b : α}

def LastMax (rank : α → Option Nat) (l : List α) (a : α) : Prop :=
  ∃ pre post r, l = pre ++ a :: post ∧ rank a = some r ∧ (∀ b ∈ pre, ∀ s ∈ rank b, s ≤ r) ∧
    ∀ b ∈ post, ∀ s ∈ rank b, s < r

/-- One step of the loop. -/
def keepBest (rank : α → Option Nat) (best : Option α) (a : α) : Option α :=
  (rank a).elim best fun r => if (best.bind rank).all (· ≤ r) then some a else best

def lastMax (rank : α → Option Nat) (l : List α) : Option α := l.foldl (keepBest rank) none

theorem LastMax.mem (h : LastMax rank l a) : a ∈ l := by
  obtain ⟨pre, post, r, rfl, -⟩ := h
  exact List.mem_append_right _ List.mem_cons_self

theorem LastMax.exists_rank (h : LastMax rank l a) : ∃ r, rank a = some r ∧ ∀ b ∈ l, ∀ s ∈ rank b, s ≤ r := by
  obtain ⟨pre, post, r, rfl, hr, hpre, hpost⟩ := h
  refine ⟨r, hr, fun b hb s hs => ?_⟩
  rcases List.mem_append.1 hb with hb | hb
  · exact hpre b hb s hs
  · rcases List.mem_cons.1 hb with rfl | hb
    · exact Nat.le_of_eq (Option.some.inj (hs.symm.trans hr))
    · exact Nat.le_of_lt (hpost b hb s hs)

/-- Two elements chosen by different ranks are one if neither rank tells them apart. -/
theorem LastMax.eq_of_ranks (ha : LastMax rank l a) (hb : LastMax rank' l b) (h : rank b = rank a)
    (h' : rank' a = rank' b) : a = b := by
  obtain ⟨pre, post, r, rfl, hr, -, hpost⟩ := ha
  obtain ⟨pre', post', r', hl, hr', -, hpost'⟩ := hb
  rcases List.append_eq_append_iff.1 hl with ⟨mid, -, hmid⟩ | ⟨mid, -, hmid⟩
  · cases mid with
    | nil => exact (List.cons.inj hmid).1
    | cons x mid =>
      have hmem : b ∈ post := by
        rw [(List.cons.inj hmid).2]
        exact List.mem_append_right _ List.mem_cons_self
      exact absurd (hpost b hmem r (h.trans hr)) (Nat.lt_irrefl r)
  · cases mid with
    | nil => exact (List.cons.inj hmid).1.symm
    | cons x mid =>
      have hmem : a ∈ post' := by
        rw [(List.cons.inj hmid).2]
        exact List.mem_append_right _ List.mem_cons_self
      exact absurd (hpost' a hmem r' (h'.trans hr')) (Nat.lt_irrefl r')

theorem LastMax.unique (ha : LastMax rank l a) (hb : LastMax rank l b) : a = b := by
  obtain ⟨r, hr, hle⟩ := ha.exists_rank
  obtain ⟨s, hs, hle'⟩ := hb.exists_rank
  have hrs : r = s := Nat.le_antisymm (hle' a ha.mem r hr) (hle b hb.mem s hs)
  subst hrs
  exact ha.eq_of_ranks hb (hs.trans hr.symm) (hr.trans hs.symm)

/-- An element that is not better does not change what is chosen. -/
theorem LastMax.append (h : LastMax rank l a) (hb : ∀ r ∈ rank a, ∀ s ∈ rank b, s < r) :
    LastMax rank (l ++ [b]) a := by
  obtain ⟨pre, post, r, rfl, hr, hpre, hpost⟩ := h
  refine ⟨pre, post ++ [b], r, by simp, hr, hpre, fun c hc => ?_⟩
  rcases List.mem_append.1 hc with hc | hc
  · exact hpost c hc
  · rw [List.mem_singleton.1 hc]
    exact hb r hr

theorem LastMax.of_forall_le {r : Nat} (hr : rank a = some r) (h : ∀ b ∈ l, ∀ s ∈ rank b, s ≤ r) :
    LastMax rank (l ++ [a]) a :=
  ⟨l, [], r, rfl, hr, h, fun _ hb => absurd hb List.not_mem_nil⟩

/-- The invariant of the loop, after the elements of `l`. -/
theorem lastMax_spec (rank : α → Option Nat) (l : List α) :
    (lastMax rank l).elim (∀ b ∈ l, rank b = none) (LastMax rank l) := by
  induction l using List.reverseRecOn with
  | nil => exact fun _ hb => absurd hb List.not_mem_nil
  | append_singleton l x ih =>
    have hstep : lastMax rank (l ++ [x]) = keepBest rank (lastMax rank l) x := by simp [lastMax]
    rw [hstep]
    cases hx : rank x with
    | none =>
      rw [keepBest, hx]
      cases hbest : lastMax rank l with
      | none =>
        rw [hbest] at ih
        intro b hb
        rcases List.mem_append.1 hb with hb | hb
        · exact ih b hb
        · rw [List.mem_singleton.1 hb, hx]
      | some a =>
        rw [hbest] at ih
        exact ih.append fun r _ s hs => by simp [hx] at hs
    | some r =>
      rw [keepBest, hx]
      cases hbest : lastMax rank l with
      | none =>
        rw [hbest] at ih
        exact .of_forall_le hx fun b hb s hs => by simp [ih b hb] at hs
      | some a =>
        rw [hbest] at ih
        obtain ⟨s, hs, hle⟩ := ih.exists_rank
        by_cases hsr : s ≤ r
        · have hle' : ∀ b ∈ l, ∀ s' ∈ rank b, s' ≤ r := fun b hb s' hs' => Nat.le_trans (hle b hb s' hs') hsr
          simpa [hs, hsr] using LastMax.of_forall_le hx hle'
        · have hlt : ∀ s' ∈ rank a, ∀ r' ∈ rank x, r' < s' := by
            intro s' hs' r' hr'
            cases Option.some.inj (hs.symm.trans hs')
            cases Option.some.inj (hx.symm.trans hr')
            omega
          simpa [hs, hsr] using ih.append hlt

theorem lastMax_eq_some_iff : lastMax rank l = some a ↔ LastMax rank l a := by
  have hspec := lastMax_spec rank l
  cases hbest : lastMax rank l with
  | none =>
    rw [hbest] at hspec
    refine ⟨fun h => absurd h (by simp), fun h => ?_⟩
    obtain ⟨r, hr, -⟩ := h.exists_rank
    exact absurd (hspec a h.mem) (by simp [hr])
  | some b =>
    rw [hbest] at hspec
    refine ⟨fun h => Option.some.inj h ▸ hspec, fun h => ?_⟩
    rw [h.unique hspec]

theorem lastMax_eq_none_iff : lastMax rank l = none ↔ ∀ b ∈ l, rank b = none := by
  have hspec := lastMax_spec rank l
  cases hbest : lastMax rank l with
  | none =>
    rw [hbest] at hspec
    exact ⟨fun _ => hspec, fun _ => rfl⟩
  | some a =>
    rw [hbest] at hspec
    obtain ⟨r, hr, -⟩ := hspec.exists_rank
    exact ⟨fun h => absurd h (by simp), fun h => absurd (h a hspec.mem) (by simp [hr])⟩

end Z8s.Collections
