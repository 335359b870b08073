import Mathlib.Algebra.Order.Field.Rat
import Z8s.Rust.Str

/-!
# Quantities of Kubernetes

The texts for amounts of a resource: a decimal number with an optional sign and point, and a suffix that is a scale or
a decimal exponent. `Amount.parse` finds the parts of a text again.
-/

namespace Z8s.Quantities

open Rust

inductive Sign
  | plus
  | minus
  deriving DecidableEq, Repr

def Sign.chars : Option Sign → List Char
  | none => []
  | some plus => ['+']
  | some minus => ['-']

def Sign.factor : Option Sign → ℤ
  | some minus => -1
  | _ => 1

/-- The sign at the start, if there is one, and what follows it. -/
def Sign.split : List Char → Option Sign × List Char
  | '+' :: cs => (some plus, cs)
  | '-' :: cs => (some minus, cs)
  | cs => (none, cs)

/-- The scales that have a suffix; `one` has the empty suffix. -/
inductive Scale
  | n | u | m | one | k | M | G | T | P | E
  | Ki | Mi | Gi | Ti | Pi | Ei
  deriving DecidableEq, Repr

namespace Scale

def chars : Scale → List Char
  | n => ['n'] | u => ['u'] | m => ['m'] | one => [] | k => ['k'] | M => ['M'] | G => ['G'] | T => ['T']
  | P => ['P'] | E => ['E']
  | Ki => ['K', 'i'] | Mi => ['M', 'i'] | Gi => ['G', 'i'] | Ti => ['T', 'i'] | Pi => ['P', 'i'] | Ei => ['E', 'i']

def factor : Scale → ℚ
  | n => (10 ^ 9)⁻¹ | u => (10 ^ 6)⁻¹ | m => (10 ^ 3)⁻¹ | one => 1 | k => 10 ^ 3 | M => 10 ^ 6 | G => 10 ^ 9
  | T => 10 ^ 12 | P => 10 ^ 15 | E => 10 ^ 18
  | Ki => 1024 | Mi => 1024 ^ 2 | Gi => 1024 ^ 3 | Ti => 1024 ^ 4 | Pi => 1024 ^ 5 | Ei => 1024 ^ 6

def all : List Scale := [n, u, m, one, k, M, G, T, P, E, Ki, Mi, Gi, Ti, Pi, Ei]

end Scale

structure Digits where
  chars : List Char
  ne_nil : chars ≠ []
  isDigit : chars.all Char.isDigit = true
  deriving DecidableEq

def Digits.ofChars (cs : List Char) : Option Digits :=
  if h : cs ≠ [] ∧ cs.all Char.isDigit = true then some ⟨cs, h.1, h.2⟩ else none

inductive Suffix
  | scale (s : Scale)
  /-- A power of ten, after the letter `E` if `upper` and `e` if not. -/
  | exponent (upper : Bool) (sign : Option Sign) (digits : Digits)
  deriving DecidableEq

namespace Suffix

def chars : Suffix → List Char
  | scale s => s.chars
  | exponent upper sign digits => (if upper then 'E' else 'e') :: (Sign.chars sign ++ digits.chars)

def factor : Suffix → ℚ
  | scale s => s.factor
  | exponent _ sign digits => 10 ^ (Sign.factor sign * digitsValue digits.chars : ℤ)

def parseExponent (upper : Bool) (cs : List Char) : Option Suffix :=
  (Digits.ofChars (Sign.split cs).2).map (exponent upper (Sign.split cs).1)

/-- A scale if the text is that of one, an exponent if not: `E` and `Ei` are scales. -/
def parse (cs : List Char) : Option Suffix :=
  ((Scale.all.find? (·.chars == cs)).map scale).or
    (match cs with
    | 'e' :: cs => parseExponent false cs
    | 'E' :: cs => parseExponent true cs
    | _ => none)

end Suffix

/-- Digits with at most one point among them, or at an end. -/
structure Mantissa where
  whole : List Char
  /-- The digits after the point, if there is one. -/
  fraction : Option (List Char)
  ne_nil : whole ++ fraction.getD [] ≠ []
  isDigit : (whole ++ fraction.getD []).all Char.isDigit = true
  deriving DecidableEq

namespace Mantissa

def chars (m : Mantissa) : List Char := m.whole ++ m.fraction.elim [] ('.' :: ·)

def digits (m : Mantissa) : Nat := digitsValue (m.whole ++ m.fraction.getD [])

def value (m : Mantissa) : ℚ := m.digits / 10 ^ (m.fraction.getD []).length

def ofParts (whole : List Char) (fraction : Option (List Char)) : Option Mantissa :=
  if h : whole ++ fraction.getD [] ≠ [] ∧ (whole ++ fraction.getD []).all Char.isDigit = true then
    some ⟨whole, fraction, h.1, h.2⟩
  else none

/-- The longest number at the start, and what follows it. -/
def split (cs : List Char) : Option Mantissa × List Char :=
  match cs.dropWhile Char.isDigit with
  | '.' :: rest =>
    (ofParts (cs.takeWhile Char.isDigit) (some (rest.takeWhile Char.isDigit)), rest.dropWhile Char.isDigit)
  | rest => (ofParts (cs.takeWhile Char.isDigit) none, rest)

end Mantissa

structure Amount where
  sign : Option Sign
  mantissa : Mantissa
  suffix : Suffix
  deriving DecidableEq

namespace Amount

def text (a : Amount) : String := String.ofList (Sign.chars a.sign ++ (a.mantissa.chars ++ a.suffix.chars))

def value (a : Amount) : ℚ := Sign.factor a.sign * a.mantissa.value * a.suffix.factor

def parse (s : String) : Option Amount :=
  let signed := Sign.split s.toList
  let number := Mantissa.split signed.2
  number.1.bind fun mantissa => (Suffix.parse number.2).map fun suffix => ⟨signed.1, mantissa, suffix⟩

end Amount

end Z8s.Quantities
