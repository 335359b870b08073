import Mathlib.Tactic.Common

/-!
# DNS messages

The wire format of DNS messages and how a receiver reads it. A name is a list of labels of at most 63
bytes, at most 255 bytes in all with the lengths and the byte 0 at the end; two bytes that begin with two
set bits point to another place of the message, where the name goes on.
-/

namespace Z8s.Dns

variable (msg : List UInt8)

abbrev Label := List UInt8

def be16 (n : Nat) : List UInt8 := [UInt8.ofNat (n / 256), UInt8.ofNat n]

/-! ### Names -/

/-- The bytes of a label: its length in one byte, then the label. -/
def encodeLabel (l : Label) : List UInt8 := UInt8.ofNat l.length :: l

def encodeLabels (labels : List Label) : List UInt8 := labels.flatMap encodeLabel ++ [0]

/-- The number of bytes that a name takes without pointers. -/
def wireLength (labels : List Label) : Nat := labels.foldr (fun l n => l.length + 1 + n) 1

def ValidLabel (l : Label) : Prop := 1 ≤ l.length ∧ l.length ≤ 63
  deriving Decidable

@[mk_iff] structure ValidName (labels : List Label) : Prop where
  label : ∀ l ∈ labels, ValidLabel l
  short : wireLength labels ≤ 255

instance (labels : List Label) : Decidable (ValidName labels) := decidable_of_iff' _ (validName_iff labels)

/-- The labels from an offset on, at most `fuel` labels and pointers with the end of the name. -/
def readLabels (msg : List UInt8) : (fuel : Nat) → (i : Nat) → Option (List Label)
  | 0, _ => none
  | fuel + 1, i =>
    match msg[i]? with
    | none => none
    | some b =>
      if b.toNat = 0 then some []
      else if b.toNat < 64 then
        if i + 1 + b.toNat ≤ msg.length then
          (readLabels msg fuel (i + 1 + b.toNat)).map (((msg.drop (i + 1)).take b.toNat) :: ·)
        else none
      else if 192 ≤ b.toNat then
        msg[i + 1]?.bind fun low => readLabels msg fuel ((b.toNat - 192) * 256 + low.toNat)
      else none

/-- Where a name ends that begins at an offset: a pointer is its end. -/
def skipName (msg : List UInt8) : (fuel : Nat) → (i : Nat) → Option Nat
  | 0, _ => none
  | fuel + 1, i =>
    match msg[i]? with
    | none => none
    | some b =>
      if b.toNat = 0 then some (i + 1)
      else if b.toNat < 64 then
        if i + 1 + b.toNat ≤ msg.length then skipName msg fuel (i + 1 + b.toNat) else none
      else if 192 ≤ b.toNat then
        if i + 2 ≤ msg.length then some (i + 2) else none
      else none

def nameFuel : Nat := 128

def readName (i : Nat) : Option (List Label × Nat) :=
  match readLabels msg nameFuel i, skipName msg nameFuel i with
  | some labels, some next => if wireLength labels ≤ 255 then some (labels, next) else none
  | _, _ => none

/-- Names are compared without regard to the case of ASCII letters. -/
def foldCase (b : UInt8) : UInt8 := if 65 ≤ b.toNat ∧ b.toNat ≤ 90 then b + 32 else b

def SameName (a b : List Label) : Prop := a.map (·.map foldCase) = b.map (·.map foldCase)
  deriving Decidable

/-! ### Messages -/

def readU16 (i : Nat) : Option Nat :=
  match msg[i]?, msg[i + 1]? with
  | some high, some low => some (high.toNat * 256 + low.toNat)
  | _, _ => none

structure Question where
  name : List Label
  qtype : Nat
  qclass : Nat
  deriving DecidableEq, Repr

inductive Rdata
  | a (octets : List UInt8)
  | cname (target : List Label)
  | other (bytes : List UInt8)
  deriving DecidableEq, Repr

structure Record where
  owner : List Label
  rtype : Nat
  rclass : Nat
  ttl : Nat
  rdata : Rdata
  deriving DecidableEq, Repr

structure Message where
  id : Nat
  flags : Nat
  questions : List Question
  answers : List Record
  authority : List Record
  additional : List Record
  deriving DecidableEq, Repr

def Message.qr (m : Message) : Bool := m.flags.testBit 15

def Message.rd (m : Message) : Bool := m.flags.testBit 8

def readQuestion (i : Nat) : Option (Question × Nat) := do
  let (name, i) ← readName msg i
  let qtype ← readU16 msg i
  let qclass ← readU16 msg (i + 2)
  pure (⟨name, qtype, qclass⟩, i + 4)

/-- The data of a record, which take up exactly the length that is given. -/
def readRdata (rtype i length : Nat) : Option Rdata :=
  if i + length ≤ msg.length then
    if rtype = 1 then
      if length = 4 then some (.a ((msg.drop i).take 4)) else none
    else if rtype = 5 then
      match readName msg i with
      | some (target, next) => if next = i + length then some (.cname target) else none
      | none => none
    else some (.other ((msg.drop i).take length))
  else none

def readRecord (i : Nat) : Option (Record × Nat) := do
  let (owner, i) ← readName msg i
  let rtype ← readU16 msg i
  let rclass ← readU16 msg (i + 2)
  let ttlHigh ← readU16 msg (i + 4)
  let ttlLow ← readU16 msg (i + 6)
  let length ← readU16 msg (i + 8)
  let rdata ← readRdata msg rtype (i + 10) length
  pure (⟨owner, rtype, rclass, ttlHigh * 65536 + ttlLow, rdata⟩, i + 10 + length)

def readMany {α : Type} (read : Nat → Option (α × Nat)) : (count : Nat) → (i : Nat) → Option (List α × Nat)
  | 0, i => some ([], i)
  | count + 1, i => do
    let (x, i) ← read i
    let (xs, i) ← readMany read count i
    pure (x :: xs, i)

def encodeRecord (owner : List Label) (rtype rclass ttlHigh ttlLow : Nat) (rdata : List UInt8) : List UInt8 :=
  encodeLabels owner ++ ([rtype, rclass, ttlHigh, ttlLow, rdata.length].flatMap be16 ++ rdata)

def decode : Option Message := do
  let id ← readU16 msg 0
  let flags ← readU16 msg 2
  let qdcount ← readU16 msg 4
  let ancount ← readU16 msg 6
  let nscount ← readU16 msg 8
  let arcount ← readU16 msg 10
  let (questions, i) ← readMany (readQuestion msg) qdcount 12
  let (answers, i) ← readMany (readRecord msg) ancount i
  let (authority, i) ← readMany (readRecord msg) nscount i
  let (additional, i) ← readMany (readRecord msg) arcount i
  if i = msg.length then some ⟨id, flags, questions, answers, authority, additional⟩ else none

end Z8s.Dns
