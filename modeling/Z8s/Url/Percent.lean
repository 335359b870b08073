import Z8s.Rust.Utf8

/-!
# Percent-encoding

The texts that stand for a sequence of bytes in the query of a URL. Each byte is written as a `%` and two
hexadecimal digits, or as its character where it is a plain one; where forms are encoded, a space may also be
written as `+`. A text has many encodings, and a decoder has to read all of them.
-/

namespace Z8s.Url

def hexValue (c : Char) : Option Nat :=
  if '0' ≤ c ∧ c ≤ '9' then some (c.toNat - '0'.toNat)
  else if 'a' ≤ c ∧ c ≤ 'f' then some (c.toNat - 'a'.toNat + 10)
  else if 'A' ≤ c ∧ c ≤ 'F' then some (c.toNat - 'A'.toNat + 10)
  else none

/-- The characters that may stand for themselves: those of ASCII that can be seen, without the ones that separate
parameters, end the query or start an escape. -/
def isPlain (c : Char) : Bool :=
  0x21 ≤ c.toNat && c.toNat ≤ 0x7E && c != '%' && c != '&' && c != '+' && c != '#'

/-- The ways to write one byte; a space is written as `+` only where forms are encoded. -/
inductive EncodesByte (form : Bool) : UInt8 → List Char → Prop
  | plain {c : Char} (h : isPlain c = true) : EncodesByte form (UInt8.ofNat c.toNat) [c]
  | escape {b : UInt8} {hi lo : Char} (hhi : hexValue hi = some (b.toNat / 16))
      (hlo : hexValue lo = some (b.toNat % 16)) : EncodesByte form b ['%', hi, lo]
  | space (h : form = true) : EncodesByte form 0x20 ['+']

/-- The ways to write a sequence of bytes. -/
inductive Encodes (form : Bool) : List UInt8 → List Char → Prop
  | nil : Encodes form [] []
  | cons {b : UInt8} {bytes : List UInt8} {first raw : List Char} (hfirst : EncodesByte form b first)
      (hrest : Encodes form bytes raw) : Encodes form (b :: bytes) (first ++ raw)

def latin1 (bytes : List UInt8) : List Char := bytes.map fun b => Char.ofNat b.toNat

def isAscii (s : String) : Bool := s.toList.all fun c => c.toNat < 128

end Z8s.Url
