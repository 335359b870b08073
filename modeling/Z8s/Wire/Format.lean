import Mathlib.Algebra.Ring.Int.Defs
import Mathlib.Algebra.Ring.Nat
import Mathlib.Data.List.Sort

/-!
# The protobuf wire format

A message is a list of fields, each with a number and a value of one of four wire types. `encode`
writes the fields one after the other: a varint with number and wire type, then the value.

`arrange` puts further fields among the fields of a message, in the order of their numbers.
-/

namespace Z8s.Wire

inductive Value
  | varint (n : Nat)
  | bytes (b : List UInt8)
  | fixed32 (n : Nat)
  | fixed64 (n : Nat)
  deriving DecidableEq, Repr

structure Field where
  num : Nat
  value : Value
  deriving DecidableEq, Repr

namespace Value

def isBytes : Value → Bool
  | bytes _ => true
  | _ => false

def Fits : Value → Prop
  | varint n | fixed64 n => n < 2 ^ 64
  | fixed32 n => n < 2 ^ 32
  | bytes _ => True

instance : DecidablePred Fits
  | varint n | fixed64 n => inferInstanceAs (Decidable (n < 2 ^ 64))
  | fixed32 n => inferInstanceAs (Decidable (n < 2 ^ 32))
  | bytes _ => inferInstanceAs (Decidable True)

def wireType : Value → Nat
  | varint _ => 0
  | fixed64 _ => 1
  | bytes _ => 2
  | fixed32 _ => 5

end Value

/-- A field whose number and value the format can express. -/
structure Field.Valid (f : Field) : Prop where
  num_pos : 1 ≤ f.num
  num_lt : f.num < 2 ^ 29
  fits : f.value.Fits

instance (f : Field) : Decidable f.Valid :=
  decidable_of_iff (1 ≤ f.num ∧ f.num < 2 ^ 29 ∧ f.value.Fits)
    ⟨fun ⟨h, h', h''⟩ => ⟨h, h', h''⟩, fun ⟨h, h', h''⟩ => ⟨h, h', h''⟩⟩

/-! ### Encoding -/

/-- The base 128 digits of a number, the lowest first, all but the last marked; at most `rounds`. -/
def varintDigits : (rounds : Nat) → Nat → List UInt8
  | 0, _ => []
  | rounds + 1, n =>
    if n < 128 then [.ofNat n] else .ofNat (n % 128 + 128) :: varintDigits rounds (n / 128)

/-- A number below `2 ^ 64` as a varint. -/
def encodeVarint (n : Nat) : List UInt8 := varintDigits 10 n

/-- The `width` lowest bytes of a number, the lowest first. -/
def littleEndian : (width : Nat) → Nat → List UInt8
  | 0, _ => []
  | width + 1, n => .ofNat (n % 256) :: littleEndian width (n / 256)

def encodeValue : Value → List UInt8
  | .varint n => encodeVarint n
  | .fixed64 n => littleEndian 8 n
  | .bytes b => encodeVarint b.length ++ b
  | .fixed32 n => littleEndian 4 n

def encodeField (f : Field) : List UInt8 :=
  encodeVarint (f.num * 8 + f.value.wireType) ++ encodeValue f.value

def encode (fields : List Field) : List UInt8 := fields.flatMap encodeField

/-! ### Fields in the order of their numbers -/

def Field.Le (f g : Field) : Prop := f.num ≤ g.num

instance : Std.Total Field.Le := ⟨fun f g => Nat.le_total f.num g.num⟩

instance : IsTrans Field Field.Le := ⟨fun _ _ _ h h' => Nat.le_trans h h'⟩

instance : DecidableRel Field.Le := fun f g => inferInstanceAs (Decidable (f.num ≤ g.num))

/-- `others` put among `fields`. -/
def arrange (fields others : List Field) : List Field := others.foldr (List.orderedInsert Field.Le) fields

/-- Well-formed fields with numbers other than the `known` ones. -/
structure Others (known : List Nat) where
  fields : List Field
  valid : ∀ f ∈ fields, f.Valid
  unknown : ∀ f ∈ fields, f.num ∉ known

instance (known : List Nat) : EmptyCollection (Others known) where
  emptyCollection := ⟨[], fun _ h => absurd h List.not_mem_nil, fun _ h => absurd h List.not_mem_nil⟩

def numbered (blocks : List (Nat × List Value)) : List Field :=
  blocks.flatMap fun b => b.2.map (Field.mk b.1)

def message {known : List Nat} (blocks : List (Nat × List Value)) (o : Others known) : List Field :=
  arrange (numbered blocks) o.fields

/-- Known fields with increasing numbers and values that fit. -/
structure Layout (known : List Nat) (blocks : List (Nat × List Value)) : Prop where
  nums : blocks.map Prod.fst = known
  sorted : known.Pairwise (· < ·)
  range : ∀ num ∈ known, 1 ≤ num ∧ num < 2 ^ 29
  fits : ∀ b ∈ blocks, ∀ v ∈ b.2, v.Fits

/-! ### Scanning -/

/-- Some field before number `t` is not length-delimited. -/
def blocked (t : Nat) (fields : List Field) : Bool :=
  fields.any fun f => decide (f.num < t) && !f.value.isBytes

def Value.contents : Value → Option (List UInt8)
  | .bytes b => some b
  | _ => none

/-- The contents of a length-delimited field with number `t`. -/
def Field.contents (t : Nat) (f : Field) : Option (List UInt8) :=
  if f.num = t then f.value.contents else none

/-- The contents of the fields with number `t` that come before any field that is not
length-delimited. -/
def scanned (t : Nat) (fields : List Field) : List (List UInt8) :=
  (fields.takeWhile fun f => f.value.isBytes).filterMap (Field.contents t)

def contentsAt (t : Nat) (blocks : List (Nat × List Value)) : List (List UInt8) :=
  blocks.flatMap fun b => if b.1 = t then b.2.filterMap Value.contents else []

def AllBytes (blocks : List (Nat × List Value)) : Prop :=
  ∀ b ∈ blocks, ∀ v ∈ b.2, v.isBytes = true

end Z8s.Wire
