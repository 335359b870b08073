import Z8s.Api.Proofs.BoundsProofs
import Z8s.Wire.Proofs.FormatProofs

/-!
# Proofs: reading what was encoded

On an encoded message that fits in memory, `next_field` returns the fields one after the other
(`nextField_encodeField`), so a loop of the decoder is a loop over the list of fields
(`run_forFields`), and the helpers that stop at a field that is not length-delimited see the fields
that are `scanned`.
-/

namespace Z8s.Api

open Rust Wire Program List Api.Parser Value

variable {n : Nat} {rest : List UInt8} {fields : List Field} {p : Parser}
variable {data : List UInt8} {inner : List Field}

/-! ### Varints -/

theorem and_0x7f (n : Nat) : n &&& 0x7f = n % 128 := Nat.and_two_pow_sub_one_eq_mod n 7

theorem and_0x80_eq_zero_iff : ∀ n < 256, n &&& 0x80 = 0 ↔ n < 128 := by decide +kernel

theorem toNat_ofNat_of_lt (h : n < 256) : (UInt8.ofNat n).toNat = n := by
  rw [UInt8.toNat_ofNat']
  exact Nat.mod_eq_of_lt h

theorem getElem?_of_drop {pos : Nat} {b : UInt8} (h : data.drop pos = b :: rest) :
    data[pos]? = some b ∧ data.drop (pos + 1) = rest := by
  constructor
  · have hhead := congrArg List.head? h
    rwa [head?_drop] at hhead
  · have htail := congrArg List.tail h
    rwa [tail_drop] at htail

namespace Parser

theorem readVarintLoop_digits {rounds pos shift result : Nat}
    (hdrop : data.drop pos = varintDigits rounds n ++ rest) (hshift : shift + 7 * rounds = 70)
    (hrounds : 0 < rounds) (hresult : result < 2 ^ shift) (hn : n * 2 ^ shift < 2 ^ 64) :
    readVarintLoop data rounds pos shift result =
      some (result + n * 2 ^ shift, ⟨data, pos + (varintDigits rounds n).length⟩) := by
  induction rounds generalizing n pos shift result with
  | zero => omega
  | succ rounds ih =>
    have hor : ∀ d, d * 2 ^ shift < 2 ^ 64 →
        result ||| (d <<< shift) % 2 ^ 64 = result + d * 2 ^ shift := by
      intro d hd
      rw [Nat.shiftLeft_eq, Nat.mod_eq_of_lt hd, Nat.or_comm, Nat.mul_comm d,
        ← Nat.two_pow_add_eq_or_of_lt hresult, Nat.add_comm]
    rw [varintDigits] at hdrop ⊢
    by_cases hsmall : n < 128
    · rw [if_pos hsmall] at hdrop ⊢
      obtain ⟨hbyte, -⟩ := getElem?_of_drop hdrop
      rw [readVarintLoop, hbyte]
      simp only [toNat_ofNat_of_lt (show n < 256 by omega), and_0x7f, Nat.mod_eq_of_lt hsmall,
        (and_0x80_eq_zero_iff n (by omega)).2 hsmall, if_true, hor n hn, length_singleton]
    · rw [if_neg hsmall] at hdrop ⊢
      obtain ⟨hbyte, hrest⟩ := getElem?_of_drop hdrop
      have hpow : 2 ^ (shift + 7) = 128 * 2 ^ shift := by rw [Nat.pow_add, Nat.mul_comm]
      have hsplit : n * 2 ^ shift = n % 128 * 2 ^ shift + n / 128 * 2 ^ (shift + 7) := by
        rw [hpow, ← Nat.mul_assoc, ← Nat.add_mul]
        congr 1
        omega
      -- the last round has shift 63, and then `n` is below 2
      have hmore : 0 < rounds := by
        rcases Nat.eq_zero_or_pos rounds with rfl | hpos
        · obtain rfl : shift = 63 := by omega
          omega
        · exact hpos
      have hlow : result + n % 128 * 2 ^ shift < 2 ^ (shift + 7) := by
        have hle : n % 128 * 2 ^ shift ≤ 127 * 2 ^ shift := Nat.mul_le_mul_right _ (by omega)
        omega
      have hcur : n % 128 * 2 ^ shift < 2 ^ 64 := by omega
      have hmark : ¬ (n % 128 + 128) &&& 0x80 = 0 := by
        rw [and_0x80_eq_zero_iff _ (by omega)]
        omega
      rw [readVarintLoop, hbyte]
      simp only [toNat_ofNat_of_lt (show n % 128 + 128 < 256 by omega), and_0x7f,
        Nat.add_mod_right, Nat.mod_mod, hor _ hcur, ge_iff_le,
        if_neg hmark,
        if_neg (show ¬ 64 ≤ shift + 7 by omega)]
      rw [ih hrest (by omega) hmore hlow (by omega), hsplit, length_cons, Nat.add_assoc,
        Nat.add_assoc pos, Nat.add_comm 1]

theorem readVarint_encodeVarint (hdrop : p.data.drop p.pos = encodeVarint n ++ rest) (hn : n < 2 ^ 64) :
    p.readVarint = some (n, ⟨p.data, p.pos + (encodeVarint n).length⟩) := by
  have h : readVarintLoop p.data 10 p.pos 0 0 =
      some (0 + n * 2 ^ 0, ⟨p.data, p.pos + (varintDigits 10 n).length⟩) :=
    readVarintLoop_digits hdrop (by omega) (by omega) (by omega) (by omega)
  simpa [readVarint, encodeVarint] using h

theorem fromLeBytes_littleEndian {width : Nat} (h : n < 256 ^ width) :
    fromLeBytes (littleEndian width n) = n := by
  induction width generalizing n with
  | zero =>
    obtain rfl : n = 0 := by omega
    rfl
  | succ width ih =>
    have hdiv : n / 256 < 256 ^ width := by
      rw [Nat.pow_succ] at h
      exact Nat.div_lt_of_lt_mul (by omega)
    rw [littleEndian, fromLeBytes, ih hdiv, toNat_ofNat_of_lt (Nat.mod_lt _ (by omega))]
    omega

/-! ### Fields -/

/-- The unread data starts with `bytes`. -/
structure Unread (p : Parser) (bytes rest : List UInt8) : Prop where
  drop : p.data.drop p.pos = bytes ++ rest
  le : p.pos ≤ p.data.length
  lt : p.data.length < 2 ^ 63

namespace Unread

variable {bytes : List UInt8}

theorem end_le (h : p.Unread bytes rest) : p.pos + bytes.length ≤ p.data.length := by
  have hlen := congrArg List.length h.drop
  have hle := h.le
  simp only [length_drop, length_append] at hlen
  omega

theorem advance {b b' : List UInt8} (h : p.Unread (b ++ b') rest) :
    Unread ⟨p.data, p.pos + b.length⟩ b' rest where
  drop := by
    rw [← drop_drop, h.drop, append_assoc, drop_left]
  le := by
    have hle := h.end_le
    rw [length_append] at hle
    show p.pos + b.length ≤ p.data.length
    omega
  lt := h.lt

theorem readVarint (h : p.Unread (encodeVarint n ++ bytes) rest) (hn : n < 2 ^ 64) :
    p.readVarint = some (n, ⟨p.data, p.pos + (encodeVarint n).length⟩) :=
  readVarint_encodeVarint (by rw [h.drop, append_assoc]) hn

theorem takeBytes (h : p.Unread bytes rest) (prof : Profile) :
    p.takeBytes prof bytes.length = .ok (some (bytes, ⟨p.data, p.pos + bytes.length⟩)) := by
  have hend := h.end_le
  have hlt := h.lt
  have hslice : (p.data.take (p.pos + bytes.length)).drop p.pos = bytes := by
    rw [drop_take, Nat.add_sub_cancel_left, h.drop, take_left]
  rw [takeBytes_eq prof h.le (by omega), if_pos (by omega), takeExact, if_pos hend, hslice]

end Unread

theorem tag_parts {num wire : Nat} (hnum : num < 2 ^ 29) (hwire : wire < 8) :
    ((num * 8 + wire) >>> 3) % 2 ^ 32 = num ∧ (num * 8 + wire) &&& 0x7 = wire := by
  constructor
  · rw [Nat.shiftRight_eq_div_pow]
    omega
  · rw [show (0x7 : Nat) = 2 ^ 3 - 1 from rfl, Nat.and_two_pow_sub_one_eq_mod]
    omega

theorem nextField_encodeField (prof : Profile) {f : Field} (h : p.Unread (encodeField f) rest)
    (hnum : f.num < 2 ^ 29) (hfits : f.value.Fits) :
    p.nextField prof = .ok (some (f, ⟨p.data, p.pos + (encodeField f).length⟩)) := by
  obtain ⟨num, value⟩ := f
  simp only at hnum hfits
  have hwire : value.wireType < 8 := by cases value <;> simp [wireType]
  have htag := Unread.readVarint h (show num * 8 + value.wireType < 2 ^ 64 by omega)
  have hvalue : Unread _ (encodeValue value) rest := Unread.advance h
  obtain ⟨hfield, hand⟩ := tag_parts hnum hwire
  rw [nextField, htag]
  simp only [hfield, hand, encodeField, length_append, ← Nat.add_assoc]
  cases value with
  | varint n =>
    have hread := readVarint_encodeVarint hvalue.drop hfits
    simp only [wireType, encodeValue] at hread ⊢
    rw [hread]
    rfl
  | fixed64 n | fixed32 n =>
    have htake := hvalue.takeBytes prof
    simp only [wireType, encodeValue, littleEndian_length] at htake ⊢
    rw [htake, Except.map, Option.map_some, fromLeBytes_littleEndian hfits]
  | bytes b =>
    have hlen : b.length < 2 ^ 64 := by
      have hend := hvalue.end_le
      have hlt := hvalue.lt
      simp only [encodeValue, length_append] at hend hlt
      omega
    have hread := Unread.readVarint hvalue hlen
    have htake := (Unread.advance hvalue).takeBytes prof
    simp only [wireType, encodeValue, length_append, ← Nat.add_assoc] at hread htake ⊢
    rw [hread]
    simp only [htake, Except.map, Option.map_some]

theorem nextField_end (prof : Profile) (h : p.Unread [] []) :
    p.nextField prof = .ok none ∧ p.pos = p.data.length := by
  have hle := drop_eq_nil_iff.1 h.drop
  have hread : p.readVarint = none := by
    simp [readVarint, readVarintLoop, getElem?_eq_none hle]
  rw [nextField, hread]
  exact ⟨rfl, Nat.le_antisymm h.le hle⟩

theorem Unread.of_cons {f : Field} (h : p.Unread (encode (f :: fields)) []) :
    p.Unread (encodeField f) (encode fields) ∧
      Unread ⟨p.data, p.pos + (encodeField f).length⟩ (encode fields) [] := by
  refine ⟨⟨by rw [h.drop, append_nil, encode_cons], h.le, h.lt⟩, Unread.advance ?_⟩
  rw [← encode_cons]
  exact h

theorem yields_of_unread (prof : Profile) (hp : p.Unread (encode fields) [])
    (hnum : ∀ f ∈ fields, f.num < 2 ^ 29) (hfits : ∀ f ∈ fields, f.value.Fits) : p.Yields prof fields := by
  induction fields generalizing p with
  | nil => exact nextField_end prof hp
  | cons f fields ih =>
    rw [forall_mem_cons] at hnum hfits
    obtain ⟨hfirst, hrest⟩ := hp.of_cons
    exact ⟨_, nextField_encodeField prof hfirst hnum.1 hfits.1, ih hrest hnum.2 hfits.2⟩

theorem unread_new (h : (encode fields).length < 2 ^ 63) :
    (new (encode fields)).Unread (encode fields) [] :=
  ⟨by rw [append_nil]; exact drop_zero, Nat.zero_le _, h⟩

end Parser

/-- The parser returns the fields of an encoded message, in their order, and then nothing. -/
theorem WireMessage.yields (m : WireMessage) (prof : Profile) : (Parser.new (encode m.fields)).Yields prof m.fields :=
  yields_of_unread prof (unread_new m.short) m.num_lt m.fits

/-! ### Loops over an encoded message -/

section Loops

variable {prof : Profile} {α : Type}

/-- A loop over the unread fields of a message is a loop over the list of fields. -/
theorem run_whileFields {body : α → Field → Decode (ForInStep α)} (hvalid : ∀ f ∈ fields, f.Valid)
    {fuel : Nat} (hfuel : fields.length < fuel) (hp : p.Unread (encode fields) []) (acc : α) :
    (whileFields body fuel p acc).run (nextField prof) =
      forIn fields acc fun f acc => (body acc f).run (nextField prof) := by
  induction fields generalizing fuel p acc with
  | nil =>
    obtain ⟨fuel, rfl⟩ : ∃ n, fuel = n + 1 := ⟨fuel - 1, by simp at hfuel; omega⟩
    rw [whileFields, Query.run_ask, (nextField_end prof hp).1]
    rfl
  | cons f fields ih =>
    obtain ⟨fuel, rfl⟩ : ∃ n, fuel = n + 1 := ⟨fuel - 1, by simp at hfuel; omega⟩
    obtain ⟨hf, hfields⟩ := forall_mem_cons.1 hvalid
    obtain ⟨hfirst, hrest⟩ := hp.of_cons
    rw [whileFields, Query.run_ask, nextField_encodeField prof hfirst hf.num_lt hf.fits, forIn_cons]
    show (body acc f >>= _ : Decode α).run (nextField prof) = _
    rw [Query.run_bind]
    refine congrArg _ (funext fun s => ?_)
    cases s with
    | done acc' => rfl
    | yield acc' => exact ih hfields (by simp at hfuel; omega) hrest acc'

/-- A message of valid fields that fits in memory. -/
structure Readable (fields : List Field) : Prop where
  valid : ∀ f ∈ fields, f.Valid
  lt : (encode fields).length < 2 ^ 63

theorem run_forFields (h : Readable fields) (acc : α) (body : α → Field → Decode (ForInStep α)) :
    (forFields (encode fields) acc body).run (nextField prof) =
      forIn fields acc fun f acc => (body acc f).run (nextField prof) := by
  have hfuel := length_le_encode fields
  exact run_whileFields h.valid (by omega) (unread_new h.lt) acc

theorem run_forEachField (h : Readable fields) (acc : α) (visit : α → Field → Decode α) :
    (forEachField (encode fields) acc visit).run (nextField prof) =
      fields.foldlM (fun acc f => (visit acc f).run (nextField prof)) acc := by
  rw [forEachField, run_forFields h]
  clear h
  induction fields generalizing acc with
  | nil => rfl
  | cons f fields ih =>
    rw [forIn_cons, foldlM_cons, Query.run_bind]
    cases (visit acc f).run (nextField prof) with
    | error e => rfl
    | ok acc' => exact ih acc'

theorem run_getBytesField (h : Readable fields) (t : Nat) :
    (getBytesField (encode fields) t).run (nextField prof) = .ok (scanned t fields).head? := by
  rw [getBytesField, forBytes, run_forFields h]
  clear h
  induction fields with
  | nil => rfl
  | cons f fields ih =>
    obtain ⟨num, value⟩ := f
    rw [forIn_cons]
    cases value with
    | varint n | fixed32 n | fixed64 n => rfl
    | bytes b =>
      by_cases hnum : num = t
      · simp [scanned, Field.contents, contents, isBytes, hnum]
        rfl
      · simp only [scanned, Field.contents, contents, isBytes, takeWhile_cons, if_true,
          filterMap_cons, hnum, if_false] at ih ⊢
        exact ih

theorem run_getStringField (h : Readable fields) (t : Nat) :
    (getStringField (encode fields) t).run (nextField prof) =
      .ok ((scanned t fields).head?.map fromUtf8Lossy) := by
  rw [getStringField, Query.run_bind, run_getBytesField h]
  rfl

/-- The number in a varint field with number `t`. -/
def varintAt (t : Nat) (f : Field) : Option Nat :=
  match f.value with
  | .varint n => if f.num = t then some n else none
  | _ => none

theorem run_getVarintField (h : Readable fields) (t : Nat) :
    (getVarintField (encode fields) t).run (nextField prof) =
      .ok (fields.findSome? (varintAt t)) := by
  rw [getVarintField, run_forFields h]
  clear h
  induction fields with
  | nil => rfl
  | cons f fields ih =>
    obtain ⟨num, value⟩ := f
    rw [forIn_cons, findSome?_cons]
    cases value with
    | bytes b | fixed32 n | fixed64 n => exact ih
    | varint n =>
      by_cases hnum : num = t
      · simp [varintAt, hnum]
        rfl
      · simp only [varintAt, hnum, if_false]
        exact ih

theorem run_forBytesOf (h : Readable fields) (t : Nat) (acc : α)
    (visit : α → List UInt8 → Decode α) :
    (forBytesOf (encode fields) t acc visit).run (nextField prof) =
      (scanned t fields).foldlM (fun acc b => (visit acc b).run (nextField prof)) acc := by
  rw [forBytesOf, forBytes, run_forFields h]
  clear h
  induction fields generalizing acc with
  | nil => rfl
  | cons f fields ih =>
    obtain ⟨num, value⟩ := f
    rw [forIn_cons]
    cases value with
    | varint n | fixed32 n | fixed64 n => rfl
    | bytes b =>
      by_cases hnum : num = t
      · have hcons : scanned t (⟨num, .bytes b⟩ :: fields) = b :: scanned t fields := by
          simp [scanned, Field.contents, contents, isBytes, hnum]
        rw [hcons, foldlM_cons]
        simp only [hnum, if_true, Query.run_bind]
        cases (visit acc b).run (nextField prof) with
        | error e => rfl
        | ok acc' => exact ih acc'
      · have hcons : scanned t (⟨num, .bytes b⟩ :: fields) = scanned t fields := by
          simp [scanned, Field.contents, contents, isBytes, hnum]
        rw [hcons]
        simp only [hnum, if_false]
        exact ih acc

theorem Readable.of_mem {t : Nat} (h : Readable fields) (hmem : ⟨t, .bytes (encode inner)⟩ ∈ fields)
    (hvalid : ∀ f ∈ inner, f.Valid) :
    Readable inner where
  valid := hvalid
  lt := Nat.lt_of_le_of_lt (length_le_encode_of_mem hmem) h.lt

theorem Readable.embedded {t : Nat} (h : Readable fields) (hmem : encode inner ∈ scanned t fields)
    (hvalid : ∀ f ∈ inner, f.Valid) : Readable inner :=
  h.of_mem (mem_of_mem_scanned hmem) hvalid

end Loops

end Z8s.Api
