import Mathlib.Data.Nat.Digits.Defs
import Z8s.Rust.Proofs.StrProofs
import Z8s.Wire.Proofs.FormatProofs

/-!
# Netlink messages

A message is a header of 16 bytes and a body. An attribute has a length, a type and a payload; the length
counts the header of the attribute and not the padding, and the next attribute begins at a multiple of four.
What a payload is depends on the type: a `Policy` says so, for nested attributes as well. Numbers are in the
byte order of the machine.
-/

namespace Z8s.Netlink

open Rust Wire List

/-! ### Numbers -/

inductive ByteOrder where
  | little
  | big
  deriving DecidableEq, Repr

namespace ByteOrder

def arrange (order : ByteOrder) (bytes : List UInt8) : List UInt8 :=
  match order with
  | .little => bytes
  | .big => bytes.reverse

def toBytes (order : ByteOrder) (width n : Nat) : List UInt8 := order.arrange (littleEndian width n)

def value (order : ByteOrder) (bytes : List UInt8) : Nat :=
  Nat.ofDigits 256 ((order.arrange bytes).map UInt8.toNat)

end ByteOrder

/-! ### Attributes -/

structure RawAttr where
  type : Nat
  payload : List UInt8
  deriving DecidableEq, Repr

/-- The next multiple of four. -/
def align (n : Nat) : Nat := (n + 3) / 4 * 4

section

variable (order : ByteOrder)

def attrLength (bytes : List UInt8) : Nat := order.value (bytes.take 2)

/-- The attribute at the start, and what follows it. -/
def readAttr (bytes : List UInt8) : Option (RawAttr × List UInt8) :=
  if 4 ≤ attrLength order bytes ∧ attrLength order bytes ≤ bytes.length then
    some (⟨order.value ((bytes.take 4).drop 2), (bytes.take (attrLength order bytes)).drop 4⟩,
      bytes.drop (align (attrLength order bytes)))
  else none

theorem length_lt_of_readAttr {bytes rest : List UInt8} {a : RawAttr}
    (h : readAttr order bytes = some (a, rest)) : rest.length < bytes.length := by
  unfold readAttr at h
  split_ifs at h with hlength
  cases h
  rw [length_drop, align]
  omega

/-- The attributes that the bytes consist of, with nothing left over. -/
def readAttrs (bytes : List UInt8) : Option (List RawAttr) :=
  if bytes = [] then some []
  else
    match _h : readAttr order bytes with
    | none => none
    | some (a, rest) => (readAttrs rest).map (a :: ·)
termination_by bytes.length
decreasing_by exact length_lt_of_readAttr order _h

end

/-! ### Policies -/

/-- What a payload is. Before nested attributes there may be a header of a fixed size. -/
inductive Policy where
  | raw
  | text
  | word
  | nested (skip : Nat) (policy : Nat → Policy)

/-- A payload that was read; a text is without the zeros at its end. -/
inductive Value where
  | raw (payload : List UInt8)
  | text (bytes : List UInt8)
  | word (n : Nat)
  | nested (head : List UInt8) (attrs : List (Nat × Value))

def Policy.read (order : ByteOrder) : Policy → List UInt8 → Option Value
  | .raw, payload => some (.raw payload)
  | .text, payload => some (.text (payload.rdropWhile (· == 0)))
  | .word, payload => if payload.length = 4 then some (.word (order.value payload)) else none
  | .nested skip policy, payload =>
    if payload.length < skip then none
    else do
      let attrs ← readAttrs order (payload.drop skip)
      let values ← attrs.mapM fun a => ((policy a.type).read order a.payload).map (a.type, ·)
      some (.nested (payload.take skip) values)

structure Message where
  length : Nat
  type : Nat
  flags : Nat
  seq : Nat
  port : Nat
  body : Value

def readMessage (order : ByteOrder) (policy : Policy) (bytes : List UInt8) : Option Message :=
  if bytes.length < 16 then none
  else
    (policy.read order (bytes.drop 16)).map fun body =>
      { length := order.value (bytes.take 4)
        type := order.value ((bytes.drop 4).take 2)
        flags := order.value ((bytes.drop 6).take 2)
        seq := order.value ((bytes.drop 8).take 4)
        port := order.value ((bytes.drop 12).take 4)
        body }

/-- The attributes of a link that are looked at here: its name, its MTU, the process whose network it goes to,
and what kind of link it is. The other end of a veth pair is a link of its own. -/
def linkPolicy : Policy :=
  .nested 16 (link (.nested 0 info))
where
  link (linkinfo : Policy) : Nat → Policy
    | 3 => .text
    | 4 => .word
    | 18 => linkinfo
    | 19 => .word
    | _ => .raw
  info : Nat → Policy
    | 1 => .text
    | 2 => .nested 0 veth
    | _ => .raw
  veth : Nat → Policy
    | 1 => .nested 16 (link .raw)
    | _ => .raw

/-! ### Reading what was written -/

variable (order : ByteOrder)

theorem ofDigits_littleEndian (width n : Nat) :
    Nat.ofDigits 256 ((littleEndian width n).map UInt8.toNat) = n % 256 ^ width := by
  induction width generalizing n with
  | zero => rw [Nat.pow_zero, Nat.mod_one]; rfl
  | succ width ih =>
    have hbyte : (UInt8.ofNat (n % 256)).toNat = n % 256 := by simp
    rw [littleEndian, map_cons, Nat.ofDigits_cons, ih, hbyte, Nat.pow_succ', Nat.mod_mul]

namespace ByteOrder

@[simp] theorem arrange_arrange (bytes : List UInt8) : order.arrange (order.arrange bytes) = bytes := by
  cases order with
  | little => rfl
  | big => exact reverse_reverse bytes

@[simp] theorem length_toBytes (width n : Nat) : (order.toBytes width n).length = width := by
  cases order with
  | little => exact littleEndian_length width n
  | big => rw [toBytes, arrange, length_reverse, littleEndian_length]

theorem value_toBytes {width n : Nat} (h : n < 256 ^ width) : order.value (order.toBytes width n) = n := by
  rw [value, toBytes, arrange_arrange, ofDigits_littleEndian, Nat.mod_eq_of_lt h]

end ByteOrder

/-- The bytes of an attribute. -/
def RawAttr.bytes (a : RawAttr) : List UInt8 :=
  order.toBytes 2 (a.payload.length + 4) ++ order.toBytes 2 a.type ++ a.payload

structure RawAttr.Fits (a : RawAttr) : Prop where
  length : a.payload.length + 4 < 2 ^ 16
  type : a.type < 2 ^ 16
  aligned : a.payload.length % 4 = 0

variable {order}

theorem RawAttr.length_bytes (a : RawAttr) : (a.bytes order).length = a.payload.length + 4 := by
  simp only [RawAttr.bytes, length_append, ByteOrder.length_toBytes]
  omega

theorem readAttr_bytes {a : RawAttr} (h : a.Fits) (rest : List UInt8) :
    readAttr order (a.bytes order ++ rest) = some (a, rest) := by
  have hsplit : a.bytes order ++ rest =
      order.toBytes 2 (a.payload.length + 4) ++ (order.toBytes 2 a.type ++ (a.payload ++ rest)) := by
    simp only [RawAttr.bytes, append_assoc]
  have hlength : attrLength order (a.bytes order ++ rest) = a.payload.length + 4 := by
    rw [attrLength, hsplit, take_left' (order.length_toBytes 2 _)]
    exact order.value_toBytes h.length
  have htype : order.value (((a.bytes order ++ rest).take 4).drop 2) = a.type := by
    rw [drop_take, hsplit, drop_left' (order.length_toBytes 2 _), take_left' (order.length_toBytes 2 _)]
    exact order.value_toBytes h.type
  have hpayload : ((a.bytes order ++ rest).take (a.payload.length + 4)).drop 4 = a.payload := by
    rw [take_left' a.length_bytes, RawAttr.bytes]
    exact drop_left' (by simp)
  have hrest : (a.bytes order ++ rest).drop (align (a.payload.length + 4)) = rest := by
    have halign : align (a.payload.length + 4) = a.payload.length + 4 := by
      have := h.aligned
      unfold align
      omega
    rw [halign, drop_left' a.length_bytes]
  have hlong : a.payload.length + 4 ≤ (a.bytes order ++ rest).length := by
    rw [length_append, a.length_bytes]
    omega
  rw [readAttr, hlength, if_pos ⟨by omega, hlong⟩, htype, hpayload, hrest]

theorem readAttrs_flatMap {attrs : List RawAttr} (h : ∀ a ∈ attrs, a.Fits) :
    readAttrs order (attrs.flatMap (RawAttr.bytes order)) = some attrs := by
  induction attrs with
  | nil => rw [flatMap_nil, readAttrs, if_pos rfl]
  | cons a attrs ih =>
    obtain ⟨ha, hattrs⟩ := forall_mem_cons.1 h
    have hread : readAttr order _ = _ := readAttr_bytes ha (attrs.flatMap (RawAttr.bytes order))
    have hne : a.bytes order ++ attrs.flatMap (RawAttr.bytes order) ≠ [] := by
      intro hnil
      have hlength : (a.bytes order).length = _ := a.length_bytes
      rw [(append_eq_nil_iff.1 hnil).1] at hlength
      cases hlength
    rw [flatMap_cons, readAttrs, if_neg hne]
    split
    · rename_i hnone
      rw [hread] at hnone
      cases hnone
    · rename_i hsome
      rw [hread] at hsome
      cases hsome
      rw [ih hattrs]
      rfl

/-! ### Attributes with their values -/

/-- An attribute that is read as the value beside it. -/
structure Reads (order : ByteOrder) (policy : Nat → Policy) (a : RawAttr × Value) : Prop where
  fits : a.1.Fits
  read : (policy a.1.type).read order a.1.payload = some a.2

/-- A text with `k` zeros behind it. -/
def textAttr (type : Nat) (bytes : List UInt8) (k : Nat) : RawAttr × Value :=
  (⟨type, bytes ++ .replicate k 0⟩, .text bytes)

def attrBytes (order : ByteOrder) (attrs : List (RawAttr × Value)) : List UInt8 :=
  attrs.flatMap fun a => a.1.bytes order

def nestedAttr (order : ByteOrder) (type : Nat) (head : List UInt8) (attrs : List (RawAttr × Value)) :
    RawAttr × Value :=
  (⟨type, head ++ attrBytes order attrs⟩, .nested head (attrs.map fun a => (a.1.type, a.2)))

theorem rdropWhile_append_replicate {bytes : List UInt8} (h : 0 ∉ bytes) (k : Nat) :
    (bytes ++ List.replicate k 0).rdropWhile (· == 0) = bytes := by
  induction k with
  | zero =>
    rw [replicate_zero, append_nil, rdropWhile_eq_self_iff]
    intro hne hlast
    rw [beq_iff_eq] at hlast
    exact h (hlast ▸ getLast_mem hne)
  | succ k ih => rw [replicate_succ', ← append_assoc, rdropWhile_concat_pos _ _ _ rfl, ih]

variable {policy : Nat → Policy} {type : Nat} {head : List UInt8} {attrs : List (RawAttr × Value)}

theorem Reads.text (htype : type < 2 ^ 16) (hpolicy : policy type = .text) {bytes : List UInt8} (hbytes : 0 ∉ bytes)
    {k : Nat} (haligned : (bytes.length + k) % 4 = 0) (hlength : bytes.length + k + 4 < 2 ^ 16) :
    Reads order policy (textAttr type bytes k) where
  fits := by
    have hpayload : (textAttr type bytes k).1.payload.length = bytes.length + k := by simp [textAttr]
    exact ⟨hpayload ▸ hlength, htype, hpayload ▸ haligned⟩
  read := by
    show (policy type).read order _ = some (.text bytes)
    rw [hpolicy, Policy.read]
    exact congrArg (some ∘ Value.text) (rdropWhile_append_replicate hbytes k)

theorem Reads.word (htype : type < 2 ^ 16) (hpolicy : policy type = .word) {n : Nat} (hn : n < 2 ^ 32) :
    Reads order policy (⟨type, order.toBytes 4 n⟩, .word n) where
  fits := ⟨by simp, htype, by simp⟩
  read := by
    show (policy type).read order _ = _
    rw [hpolicy, Policy.read, if_pos (order.length_toBytes 4 n), order.value_toBytes hn]

theorem read_nestedAttr (hattrs : ∀ a ∈ attrs, Reads order policy a) :
    (Policy.nested head.length policy).read order (nestedAttr order type head attrs).1.payload =
      some (nestedAttr order type head attrs).2 := by
  have hraw : readAttrs order (attrBytes order attrs) = some (attrs.map Prod.fst) := by
    rw [attrBytes, ← flatMap_map Prod.fst (RawAttr.bytes order)]
    exact readAttrs_flatMap (forall_mem_map.2 fun a ha => (hattrs a ha).fits)
  have hvalues : (attrs.map Prod.fst).mapM (fun a => ((policy a.type).read order a.payload).map (a.type, ·)) =
      some (attrs.map fun a => (a.1.type, a.2)) := by
    rw [mapM_eq_some_iff, map_map, map_map]
    refine map_congr_left fun a ha => ?_
    show ((policy a.1.type).read order a.1.payload).map _ = _
    rw [(hattrs a ha).read]
    rfl
  rw [nestedAttr, Policy.read, if_neg (by rw [length_append]; omega), drop_left, take_left, hraw]
  show Option.bind (List.mapM _ (attrs.map Prod.fst)) _ = _
  rw [hvalues]
  rfl

theorem read_rawAttrs {attrs : List RawAttr} (h : ∀ a ∈ attrs, a.Fits) (head : List UInt8) :
    (Policy.nested head.length fun _ => .raw).read order (head ++ attrs.flatMap (RawAttr.bytes order)) =
      some (.nested head (attrs.map fun a => (a.type, .raw a.payload))) := by
  have hreads : ∀ a ∈ attrs.map fun a => (a, Value.raw a.payload), Reads order (fun _ => .raw) a :=
    forall_mem_map.2 fun a ha => ⟨h a ha, rfl⟩
  have hread : Policy.read order _ (nestedAttr order 0 head _).1.payload = some _ := read_nestedAttr hreads
  rwa [nestedAttr, attrBytes, flatMap_map, map_map] at hread

@[simp] theorem length_attrBytes_cons (a : RawAttr × Value) (attrs : List (RawAttr × Value)) :
    (attrBytes order (a :: attrs)).length = a.1.payload.length + 4 + (attrBytes order attrs).length := by
  simp [attrBytes, RawAttr.length_bytes]

@[simp] theorem length_attrBytes_nil : (attrBytes order []).length = 0 := rfl

@[simp] theorem length_nestedAttr : (nestedAttr order type head attrs).1.payload.length =
    head.length + (attrBytes order attrs).length :=
  length_append

theorem length_attrBytes_mod (h : ∀ a ∈ attrs, a.1.Fits) : (attrBytes order attrs).length % 4 = 0 := by
  induction attrs with
  | nil => rfl
  | cons a attrs ih =>
    obtain ⟨ha, hattrs⟩ := forall_mem_cons.1 h
    have haligned := ha.aligned
    have hrest := ih hattrs
    rw [length_attrBytes_cons]
    omega

theorem Reads.nested {inner : Nat → Policy} (htype : type < 2 ^ 16) (hpolicy : policy type = .nested head.length inner)
    (hhead : head.length % 4 = 0) (hattrs : ∀ a ∈ attrs, Reads order inner a)
    (hlength : head.length + (attrBytes order attrs).length + 4 < 2 ^ 16) :
    Reads order policy (nestedAttr order type head attrs) where
  fits := by
    have haligned : (attrBytes order attrs).length % 4 = 0 := length_attrBytes_mod fun a ha => (hattrs a ha).fits
    refine ⟨length_nestedAttr ▸ hlength, htype, ?_⟩
    rw [length_nestedAttr]
    omega
  read := by
    show (policy type).read order _ = _
    rw [hpolicy]
    exact read_nestedAttr hattrs

/-! ### Messages -/

def messageBytes (order : ByteOrder) (length type flags seq port : Nat) (body : List UInt8) : List UInt8 :=
  order.toBytes 4 length ++ order.toBytes 2 type ++ order.toBytes 2 flags ++ order.toBytes 4 seq ++
    order.toBytes 4 port ++ body

theorem readMessage_bytes {policy : Policy} {length type flags seq port : Nat} {body : List UInt8} {value : Value}
    (hlength : length < 256 ^ 4) (htype : type < 256 ^ 2) (hflags : flags < 256 ^ 2) (hseq : seq < 256 ^ 4)
    (hport : port < 256 ^ 4) (hbody : policy.read order body = some value) :
    readMessage order policy (messageBytes order length type flags seq port body) =
      some ⟨length, type, flags, seq, port, value⟩ := by
  have hsize : ¬ (messageBytes order length type flags seq port body).length < 16 := by
    simp only [messageBytes, length_append, ByteOrder.length_toBytes]
    omega
  rw [readMessage, if_neg hsize]
  simp [messageBytes, drop_append, drop_eq_nil_of_le, hbody, order.value_toBytes hlength,
    order.value_toBytes htype, order.value_toBytes hflags, order.value_toBytes hseq, order.value_toBytes hport]

end Z8s.Netlink
