import Mathlib.Algebra.Ring.Int.Defs
import Mathlib.Algebra.Ring.Nat
import Mathlib.Tactic.Common

/-!
# Casts between machine integers

`as` casts of the Rust language on a 64-bit target: they keep the low bits.
-/

namespace Z8s.Rust

abbrev I32 := {n : Int // -2 ^ 31 ≤ n ∧ n < 2 ^ 31}

def asI32 (n : Int) : I32 := ⟨(n + 2 ^ 31) % 2 ^ 32 - 2 ^ 31, by omega⟩

def asUsize (n : Int) : Nat := (n % 2 ^ 64).toNat

end Z8s.Rust
