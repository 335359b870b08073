import Z8s.Api.Proto

/-!
# What an arbitrary body can do to the decoder

The abstract side of the parser: where the value of the next field ends when positions are not
bounded (`Parser.valueEnd`), and what it means that a body is decoded safely.
-/

namespace Z8s.Api

open Wire

namespace Parser

/-- The position after the value of the next field, for the wire types whose value is a slice of
the data. -/
def valueEnd (p : Parser) : Option Nat :=
  match p.readVarint with
  | none => none
  | some (tag, p) =>
    match tag &&& 0x7 with
    | 1 => some (p.pos + 8)
    | 2 => p.readVarint.map fun (len, p) => p.pos + len
    | 5 => some (p.pos + 4)
    | _ => none

/-- The position after the next field is a `usize`. -/
def EndFits (p : Parser) : Prop := ∀ stop ∈ p.valueEnd, stop < 2 ^ 64
  deriving Decidable

/-- A call of `next_field` returns nothing, or a field and a position after the old one and within
the data. -/
def Advances (prof : Profile) (p : Parser) : Prop :=
  p.nextField prof = .ok none ∨
    ∃ f p', p.nextField prof = .ok (some (f, p')) ∧ p.pos < p'.pos ∧ p'.pos ≤ p.data.length

/-- Calls of `next_field`, one after the other, return exactly these fields and then nothing, at the end of the
data. -/
def Yields (prof : Profile) : Parser → List Field → Prop
  | p, [] => p.nextField prof = .ok none ∧ p.pos = p.data.length
  | p, f :: fields => ∃ p', p.nextField prof = .ok (some (f, p')) ∧ Yields prof p' fields

end Parser

/-- Fields that the wire format can express, with an encoding that fits in memory as a slice. -/
structure WireMessage where
  fields : List Field
  num_lt : ∀ f ∈ fields, f.num < 2 ^ 29
  fits : ∀ f ∈ fields, f.value.Fits
  short : (encode fields).length < 2 ^ 63

/-- The parsers for which `next_field` is called while a body is decoded. -/
def calls (prof : Profile) (bytes : List UInt8) : List Parser :=
  (decodeBody bytes).asked (Parser.nextField prof)

/-- The body is decoded to a document or refused, and every call of `next_field` on the way
advances. -/
structure DecodedSafely (prof : Profile) (bytes : List UInt8) : Prop where
  returns : ∃ r, tryProtoToJson prof bytes = .ok r
  advances : ∀ p ∈ calls prof bytes, p.Advances prof

end Z8s.Api
