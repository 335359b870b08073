import Mathlib.Algebra.Order.Floor.Semiring
import Mathlib.Data.Rat.Floor
import Z8s.Quantities.Grammar
import Z8s.Types

/-!
# Sizes of storage and memory

What `parse_quantity_bytes` (`src/types.rs`) is for: the number of bytes that a quantity stands for.
-/

namespace Z8s.Storage

open Z8s.Types Quantities

/-- A text that is a quantity and not negative. -/
structure Size where
  text : String
  amount : Amount
  parsed : Amount.parse text = some amount
  nonneg : 0 ≤ amount.value

namespace Size

/-- The value rounded up to whole bytes, or the largest `u64` if it does not fit. -/
def bytes (s : Size) : Nat := min ⌈s.amount.value⌉₊ (2 ^ 64 - 1)

/-- Two quantities are read at their true sizes, and the larger one is not read as the smaller. -/
def ReadTrue (s t : Size) : Prop :=
  parseQuantityBytes s.text = s.bytes ∧ parseQuantityBytes t.text = t.bytes ∧
    (s.amount.value ≤ t.amount.value → parseQuantityBytes s.text ≤ parseQuantityBytes t.text)

end Size

/-- The factor of a suffix that is read, which is 1 without a suffix. -/
def readUnit : Suffix → Option Nat
  | .scale .one => some 1
  | .scale s => quantitySuffixes.lookup (String.ofList s.chars)
  | .exponent .. => none

/-- A size that is read: one without a point, with a suffix that is known, that fits in 64 bits. -/
def Size.Readable (s : Size) : Prop :=
  s.amount.value = 0 ∨
    s.amount.mantissa.fraction = none ∧
      ∃ unit ∈ readUnit s.amount.suffix, s.amount.mantissa.digits * unit < 2 ^ 64

end Z8s.Storage
