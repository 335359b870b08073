import Mathlib.Tactic.Common

/-!
# Values from a counter

Holders with keys hold values. A counter hands out `give next`, `give (next + 1)` and so on, up to `limit`;
holders may also take values of their own choice. No value is held twice as long as nobody takes a value that
is held elsewhere or still to come, and the counter stays below its limit.
-/

namespace Z8s.Allocation

variable {H K V : Type*}

/-- No value is held twice, and none that is held is still to come. -/
structure Allotted (isPresent : H → Prop) (key : H → K) (held : H → List V) (give : Nat → V)
    (next limit : Nat) : Prop where
  nodup : ∀ x, isPresent x → (held x).Nodup
  apart : ∀ x y v, isPresent x → isPresent y → v ∈ held x → v ∈ held y → key x = key y
  toCome : ∀ x v, isPresent x → v ∈ held x → ∀ i, next ≤ i → i < limit → v ≠ give i

namespace Allotted

variable {isPresent isPresent' : H → Prop} {key : H → K} {held : H → List V} {give : Nat → V}
  {next limit : Nat}

theorem empty (h : ∀ x, ¬ isPresent x) : Allotted isPresent key held give next limit :=
  ⟨fun x hx => absurd hx (h x), fun x _ _ hx => absurd hx (h x), fun x _ hx => absurd hx (h x)⟩

theorem leave (h : Allotted isPresent key held give next limit) (hsub : ∀ x, isPresent' x → isPresent x) :
    Allotted isPresent' key held give next limit :=
  ⟨fun x hx => h.nodup x (hsub x hx), fun x y v hx hy => h.apart x y v (hsub x hx) (hsub y hy),
    fun x v hx => h.toCome x v (hsub x hx)⟩

/-- A holder comes, in the place of the one with its key. The values it brings are held by nobody else, or
were just handed out. -/
theorem enter (h : Allotted isPresent key held give next limit) {r : H} {next' : Nat}
    (hpresent : ∀ x, isPresent' x → x = r ∨ key x ≠ key r ∧ isPresent x) (hnodup : (held r).Nodup)
    (hfree : ∀ v ∈ held r, (∃ i, next ≤ i ∧ i < limit ∧ v = give i) ∨
      ∀ x, isPresent x → key x ≠ key r → v ∉ held x)
    (htoCome : ∀ v ∈ held r, ∀ i, next' ≤ i → i < limit → v ≠ give i) (hnext : next ≤ next') :
    Allotted isPresent' key held give next' limit := by
  -- what the new holder brings is held by no holder that stays
  have hnew : ∀ x v, isPresent x → key x ≠ key r → v ∈ held r → v ∉ held x := by
    intro x v hx hkey hv hxv
    rcases hfree v hv with ⟨i, hle, hlt, rfl⟩ | hother
    · exact h.toCome x _ hx hxv i hle hlt rfl
    · exact hother x hx hkey hxv
  refine ⟨fun x hx => ?_, fun x y v hx hy hxv hyv => ?_, fun x v hx hxv i hle hlt => ?_⟩
  · rcases hpresent x hx with rfl | ⟨-, hx⟩
    · exact hnodup
    · exact h.nodup x hx
  · rcases hpresent x hx with rfl | ⟨hkx, hx⟩ <;> rcases hpresent y hy with rfl | ⟨hky, hy⟩
    · rfl
    · exact absurd hyv (hnew y v hy hky hxv)
    · exact absurd hxv (hnew x v hx hkx hyv)
    · exact h.apart x y v hx hy hxv hyv
  · rcases hpresent x hx with rfl | ⟨-, hx⟩
    · exact htoCome v hxv i hle hlt
    · exact h.toCome x v hx hxv i (Nat.le_trans hnext hle) hlt

end Allotted

end Z8s.Allocation
