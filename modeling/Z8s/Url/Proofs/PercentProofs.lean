import Z8s.Rust.Proofs.Utf8Proofs
import Z8s.Url.Percent

/-!
# Proofs: percent-encoding

What encoded texts consist of, and when the bytes of a text read as characters are the text.
-/

namespace Z8s.Url

open Rust List

variable {form : Bool} {b : UInt8} {bytes : List UInt8} {raw : List Char} {c : Char} {s : String}

/-! ### Encoded texts -/

theorem isPlain_iff : isPlain c = true ↔
    0x21 ≤ c.toNat ∧ c.toNat ≤ 0x7E ∧ c ≠ '%' ∧ c ≠ '&' ∧ c ≠ '+' ∧ c ≠ '#' := by
  simp [isPlain, and_assoc]

theorem isPlain_ascii (h : isPlain c = true) : c.toNat < 128 := by
  have := isPlain_iff.1 h
  omega

theorem isPlain_of_hexValue {n : Nat} (h : hexValue c = some n) : isPlain c = true := by
  have hrange : (48 ≤ c.toNat ∧ c.toNat ≤ 57) ∨ (97 ≤ c.toNat ∧ c.toNat ≤ 102) ∨
      (65 ≤ c.toNat ∧ c.toNat ≤ 70) := by
    unfold hexValue at h
    split_ifs at h with hdigit hlower hupper
    · exact .inl hdigit
    · exact .inr (.inl hlower)
    · exact .inr (.inr hupper)
  have hne {d : Char} (hd : c.toNat ≠ d.toNat) : c ≠ d := fun heq => hd (by rw [heq])
  rw [isPlain_iff]
  refine ⟨by omega, by omega, hne ?_, hne ?_, hne ?_, hne ?_⟩ <;> simp only [Char.reduceToNat] <;> omega

theorem EncodesByte.mem (h : EncodesByte form b raw) (hc : c ∈ raw) :
    isPlain c = true ∨ c = '%' ∨ c = '+' := by
  cases h with
  | plain hplain => exact .inl (mem_singleton.1 hc ▸ hplain)
  | escape hhi hlo =>
    simp only [mem_cons, not_mem_nil, or_false] at hc
    rcases hc with rfl | rfl | rfl
    · exact .inr (.inl rfl)
    · exact .inl (isPlain_of_hexValue hhi)
    · exact .inl (isPlain_of_hexValue hlo)
  | space _ => exact .inr (.inr (mem_singleton.1 hc))

section

variable (h : Encodes form bytes raw)
include h

theorem Encodes.mem (hc : c ∈ raw) : isPlain c = true ∨ c = '%' ∨ c = '+' := by
  induction h with
  | nil => cases hc
  | cons hfirst _ ih =>
    rcases mem_append.1 hc with hc | hc
    · exact hfirst.mem hc
    · exact ih hc

theorem Encodes.ascii (hc : c ∈ raw) : c.toNat < 128 := by
  rcases h.mem hc with hplain | rfl | rfl
  · exact isPlain_ascii hplain
  · decide
  · decide

theorem Encodes.amp_notMem : '&' ∉ raw := by
  intro hc
  rcases h.mem hc with hplain | heq | heq
  · exact (isPlain_iff.1 hplain).2.2.2.1 rfl
  · exact absurd heq (by decide)
  · exact absurd heq (by decide)

theorem Encodes.append {bytes' : List UInt8} {raw' : List Char}
    (h' : Encodes form bytes' raw') : Encodes form (bytes ++ bytes') (raw ++ raw') := by
  induction h with
  | nil => exact h'
  | cons hfirst _ ih =>
    rw [cons_append, append_assoc]
    exact .cons hfirst ih

end

/-! ### Bytes as characters -/

theorem ofNat_byte (h : c.toNat < 128) : Char.ofNat (UInt8.ofNat c.toNat).toNat = c := by
  rw [UInt8.toNat_ofNat', Nat.mod_eq_of_lt (by omega), Char.ofNat_toNat]

theorem isAscii_iff : isAscii s = true ↔ ∀ c ∈ s.toList, c.toNat < 128 := by
  simp [isAscii]

theorem latin1_utf8_of_ascii (h : isAscii s = true) : latin1 (utf8 s) = s.toList := by
  rw [isAscii_iff] at h
  rw [utf8_of_ascii h, latin1, map_map]
  refine (map_congr_left fun c hc => ?_).trans (map_id _)
  exact ofNat_byte (h c hc)

theorem encodes_self (h : s.toList.all isPlain = true) : Encodes form (utf8 s) s.toList := by
  rw [all_eq_true] at h
  rw [utf8_of_ascii fun c hc => isPlain_ascii (h c hc)]
  generalize s.toList = cs at h
  induction cs with
  | nil => exact .nil
  | cons c cs ih => exact .cons (.plain (h c mem_cons_self)) (ih fun d hd => h d (mem_cons_of_mem c hd))

theorem length_flatMap_utf8EncodeChar (cs : List Char) :
    cs.length ≤ (cs.flatMap String.utf8EncodeChar).length ∧
      ((cs.flatMap String.utf8EncodeChar).length ≤ cs.length → ∀ c ∈ cs, c.toNat < 128) := by
  induction cs with
  | nil => simp
  | cons c cs ih =>
    have hpos := Char.utf8Size_pos c
    rw [flatMap_cons, length_append, String.length_utf8EncodeChar, length_cons]
    refine ⟨by omega, fun hle d hd => ?_⟩
    rcases mem_cons.1 hd with rfl | hd
    · have hone : d.utf8Size = 1 := by omega
      have := Char.utf8Size_eq_one_iff.1 hone
      exact Nat.lt_succ_of_le this
    · exact ih.2 (by omega) d hd

/-- A text is what its bytes read as only if it is ASCII: any other character has more than one byte. -/
theorem latin1_utf8_eq_iff : latin1 (utf8 s) = s.toList ↔ isAscii s = true := by
  refine ⟨fun h => ?_, latin1_utf8_of_ascii⟩
  have hlen := congrArg List.length h
  rw [latin1, length_map] at hlen
  exact isAscii_iff.2 ((length_flatMap_utf8EncodeChar s.toList).2 (Nat.le_of_eq hlen))

end Z8s.Url
