import Mathlib.Tactic.Common

/-!
# UTF-8

`String::from_utf8_lossy`: the characters of the valid parts, and one replacement character for
every maximal part of an invalid sequence.
-/

namespace Z8s.Rust

def utf8 (s : String) : List UInt8 := s.toList.flatMap String.utf8EncodeChar

/-- The number of bytes that one replacement character stands for, at the start of bytes that do not
start with a character: the first byte and the continuation bytes that could follow it. -/
def invalidLength (bytes : List UInt8) : Nat :=
  let cont (i : Nat) (lo hi : UInt8) : Bool := bytes[i]?.any fun b => lo ≤ b && b ≤ hi
  match bytes.head? with
  | none => 0
  | some b =>
    if 0xE0 ≤ b ∧ b ≤ 0xEF then
      if cont 1 (if b = 0xE0 then 0xA0 else 0x80) (if b = 0xED then 0x9F else 0xBF) then 2 else 1
    else if 0xF0 ≤ b ∧ b ≤ 0xF4 then
      if cont 1 (if b = 0xF0 then 0x90 else 0x80) (if b = 0xF4 then 0x8F else 0xBF) then
        if cont 2 0x80 0xBF then 3 else 2
      else 1
    else 1

/-- The characters of `from_utf8_lossy`, of which there are at most `fuel`. -/
def lossyChars : (fuel : Nat) → List UInt8 → List Char
  | 0, _ | _, [] => []
  | fuel + 1, bytes =>
    match bytes.toByteArray.utf8DecodeChar? 0 with
    | some c => c :: lossyChars fuel (bytes.drop c.utf8Size)
    | none => '\uFFFD' :: lossyChars fuel (bytes.drop (invalidLength bytes))

def fromUtf8Lossy (bytes : List UInt8) : String := .ofList (lossyChars bytes.length bytes)

/-- `str::from_utf8`: the bytes are those of a string. -/
def fromUtf8 (bytes : List UInt8) : Option String :=
  if utf8 (fromUtf8Lossy bytes) = bytes then some (fromUtf8Lossy bytes) else none

end Z8s.Rust
