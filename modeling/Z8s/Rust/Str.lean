import Mathlib.Algebra.Ring.Int.Defs
import Mathlib.Algebra.Ring.Nat
import Mathlib.Data.List.DropRight
import Mathlib.Data.List.Infix
import Mathlib.Data.List.SplitOn
import Mathlib.Tactic.Common

/-!
# Strings and number parsing of the Rust standard library

The functions on `str` that the modelled code calls, with their documented behaviour. A `String`
here is a sequence of Unicode scalar values, as a Rust `String` is.
-/

namespace Z8s.Rust

variable (c : Char) (s : String)

def startsWith (p : String) : Bool := p.toList.isPrefixOf s.toList

def contains (p : String) : Bool := decide (p.toList <:+: s.toList)

def stripPrefix (p : String) : Option String :=
  if startsWith s p then some (String.ofList (s.toList.drop p.toList.length)) else none

def stripSuffix (p : String) : Option String :=
  if p.toList.isSuffixOf s.toList then
    some (String.ofList (s.toList.take (s.toList.length - p.toList.length)))
  else none

/-- `c.is_whitespace()`: the characters with the property `White_Space`. -/
def isWhitespace : Bool :=
  (0x09 ≤ c.toNat && c.toNat ≤ 0x0D) || (0x2000 ≤ c.toNat && c.toNat ≤ 0x200A) ||
    [0x20, 0x85, 0xA0, 0x1680, 0x2028, 0x2029, 0x202F, 0x205F, 0x3000].contains c.toNat

def trim : String :=
  String.ofList ((s.toList.dropWhile isWhitespace).rdropWhile isWhitespace)

def trimStartMatches : String := String.ofList (s.toList.dropWhile (· == c))

def trimEndMatches : String := String.ofList (s.toList.rdropWhile (· == c))

def replaceChar (d : Char) (s : String) : String :=
  String.ofList (s.toList.map fun x => if x = c then d else x)

def splitChar : List String := (s.toList.splitOn c).map String.ofList

def joinChar (parts : List String) : String :=
  String.ofList ([c].intercalate (parts.map String.toList))

/-- `s.split_once(c)`: the parts before and after the first `c`. -/
def splitOnce : Option (String × String) :=
  if c ∈ s.toList then
    some (String.ofList (s.toList.takeWhile (· != c)),
      String.ofList ((s.toList.dropWhile (· != c)).drop 1))
  else none

/-- `s.splitn(n, c)`: at most `n` parts, the last one with what follows. -/
def splitn (c : Char) : (n : Nat) → String → List String
  | 0, _ => []
  | 1, s => [s]
  | n + 2, s =>
    match splitOnce c s with
    | none => [s]
    | some (a, b) => a :: splitn c (n + 1) b

/-- `s.lines()`: a line ends with a newline, which may follow a carriage return. -/
def lines : List String :=
  (splitChar '\n' s).dropLast.map (fun line => (stripSuffix line "\r").getD line) ++
    (splitChar '\n' s).getLast?.toList.filter (· != "")

/-- `s.split_whitespace()`. -/
def splitWhitespace : List String :=
  ((s.toList.splitOnP isWhitespace).filter (· != [])).map String.ofList

/-- What stands before the first occurrence of `p`. -/
def before (p : List Char) : List Char → Option (List Char)
  | [] => if p = [] then some [] else none
  | c :: cs => if p.isPrefixOf (c :: cs) then some [] else (before p cs).map (c :: ·)

def IsBefore (p s head : List Char) : Prop :=
  head ++ p <+: s ∧ ∀ head', head' ++ p <+: s → head.length ≤ head'.length

/-- `s.rsplit(c).next()`: what follows the last `c`, all of `s` if there is none. -/
def rsplitNext : String := String.ofList (s.toList.rtakeWhile (· != c))

/-- The value of a list of decimal digits, most significant first. -/
def digitsValue (ds : List Char) : Nat := ds.foldl (fun n d => n * 10 + (d.toNat - '0'.toNat)) 0

/-- `s.parse::<uN>()` for the unsigned type with largest value `max`: an optional `+`, then at least
one ASCII digit and nothing else, with a value that fits. Leading zeros are accepted. -/
def parseUnsigned (max : Nat) (s : String) : Option Nat :=
  let ds := match s.toList with
    | '+' :: ds => ds
    | ds => ds
  if ds ≠ [] ∧ ds.all Char.isDigit ∧ digitsValue ds ≤ max then some (digitsValue ds) else none

/-- One octet of a dotted address: one to three digits without a leading zero, at most 255. -/
def parseOctet (ds : List Char) : Option Nat :=
  if ds ≠ [] ∧ ds.length ≤ 3 ∧ ds.all Char.isDigit ∧ (ds.head? ≠ some '0' ∨ ds.length = 1) ∧
      digitsValue ds ≤ 255 then
    some (digitsValue ds)
  else none

/-- An IPv4 address, as the `u32` whose most significant byte is the first octet. -/
abbrev Ipv4Addr := BitVec 32

def Ipv4Addr.new (a b c d : Nat) : Ipv4Addr :=
  BitVec.ofNat 32 (a * 2 ^ 24 + b * 2 ^ 16 + c * 2 ^ 8 + d)

/-- `s.parse::<Ipv4Addr>()`: exactly four octets separated by dots. -/
def Ipv4Addr.parse : Option Ipv4Addr :=
  match s.toList.splitOn '.' with
  | [a, b, c, d] => do
    let a ← parseOctet a
    let b ← parseOctet b
    let c ← parseOctet c
    let d ← parseOctet d
    pure (Ipv4Addr.new a b c d)
  | _ => none

end Z8s.Rust
