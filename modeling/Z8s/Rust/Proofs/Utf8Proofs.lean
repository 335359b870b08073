import Z8s.Rust.Proofs.StrProofs
import Z8s.Rust.Utf8

/-!
# Proofs: UTF-8

Decoding the bytes of a string gives the string back.
-/

namespace Z8s.Rust

open List

variable {bytes : List UInt8} {s : String} {c : Char}

theorem utf8DecodeChar?_append (c : Char) (rest : List UInt8) :
    (String.utf8EncodeChar c ++ rest).toByteArray.utf8DecodeChar? 0 = some c := by
  rw [toByteArray_append]
  exact ByteArray.utf8DecodeChar?_utf8EncodeChar_append

theorem lossyChars_append (cs : List Char) (rest : List UInt8) {fuel : Nat}
    (hfuel : (cs.flatMap String.utf8EncodeChar ++ rest).length ≤ fuel) :
    ∃ fuel', lossyChars fuel (cs.flatMap String.utf8EncodeChar ++ rest) = cs ++ lossyChars fuel' rest := by
  induction cs generalizing fuel with
  | nil => exact ⟨fuel, rfl⟩
  | cons c cs ih =>
    have hlen : (String.utf8EncodeChar c).length = c.utf8Size := String.length_utf8EncodeChar c
    have hpos : 0 < c.utf8Size := Char.utf8Size_pos c
    simp only [flatMap_cons, append_assoc, length_append, hlen] at hfuel ih ⊢
    obtain ⟨fuel, rfl⟩ : ∃ n, fuel = n + 1 := ⟨fuel - 1, by omega⟩
    have hne : String.utf8EncodeChar c ++ (cs.flatMap String.utf8EncodeChar ++ rest) ≠ [] := by
      intro hnil
      have := congrArg List.length hnil
      simp only [length_append, hlen, length_nil] at this
      omega
    obtain ⟨fuel', hrest⟩ := @ih fuel (by omega)
    refine ⟨fuel', ?_⟩
    rw [lossyChars]
    · rw [utf8DecodeChar?_append]
      show c :: lossyChars fuel (List.drop c.utf8Size _) = _
      rw [drop_left' hlen, hrest, cons_append]
    · exact hne

@[simp] theorem fromUtf8Lossy_utf8 (s : String) : fromUtf8Lossy (utf8 s) = s := by
  obtain ⟨fuel, hchars⟩ := lossyChars_append s.toList [] (Nat.le_refl _)
  have hnil : lossyChars fuel [] = [] := by cases fuel <;> rfl
  rw [append_nil, hnil, append_nil] at hchars
  rw [fromUtf8Lossy, utf8, hchars, String.ofList_toList]

theorem fromUtf8_utf8 (s : String) : fromUtf8 (utf8 s) = some s := by
  rw [fromUtf8, fromUtf8Lossy_utf8, if_pos rfl]

theorem utf8_of_fromUtf8 (h : fromUtf8 bytes = some s) : utf8 s = bytes := by
  rw [fromUtf8] at h
  split_ifs at h with hbytes
  cases h
  exact hbytes

theorem utf8_append (s t : String) : utf8 (s ++ t) = utf8 s ++ utf8 t := by
  rw [utf8, String.toList_append, flatMap_append]
  rfl

theorem utf8_injective {t : String} (h : utf8 s = utf8 t) : s = t := by
  rw [← fromUtf8Lossy_utf8 s, h, fromUtf8Lossy_utf8]

theorem utf8EncodeChar_of_ascii (h : c.toNat < 128) : String.utf8EncodeChar c = [UInt8.ofNat c.toNat] := by
  unfold String.utf8EncodeChar
  exact if_pos (Nat.le_of_lt_succ h)

theorem utf8_of_ascii (h : ∀ c ∈ s.toList, c.toNat < 128) :
    utf8 s = s.toList.map fun c => UInt8.ofNat c.toNat := by
  rw [utf8, flatMap_congr fun c hc => utf8EncodeChar_of_ascii (h c hc)]
  exact flatMap_pure_eq_map _ _

theorem le_of_mem_utf8EncodeChar (hc : 128 ≤ c.toNat) {b : UInt8} (hb : b ∈ String.utf8EncodeChar c) :
    128 ≤ b.toNat := by
  have hbyte {n : Nat} (h : 128 ≤ n ∧ n < 256) (hb : b = UInt8.ofNat n) : 128 ≤ b.toNat := by
    rw [hb, UInt8.toNat_ofNat', Nat.mod_eq_of_lt h.2]
    exact h.1
  unfold String.utf8EncodeChar at hb
  change 128 ≤ c.val.toNat at hc
  generalize c.val.toNat = v at hb hc
  simp only [show ¬ v ≤ 127 by omega, if_false] at hb
  split_ifs at hb <;> simp only [mem_cons, not_mem_nil, or_false] at hb
  · rcases hb with hb | hb <;> exact hbyte (by omega) hb
  · rcases hb with hb | hb | hb <;> exact hbyte (by omega) hb
  · rcases hb with hb | hb | hb | hb <;> exact hbyte (by omega) hb

/-- The byte of an ASCII character comes from that character only. -/
theorem ascii_mem_utf8_iff (hc : c.toNat < 128) : UInt8.ofNat c.toNat ∈ utf8 s ↔ c ∈ s.toList := by
  have hbyte : (UInt8.ofNat c.toNat).toNat = c.toNat := by
    rw [UInt8.toNat_ofNat', Nat.mod_eq_of_lt (by omega)]
  constructor
  · intro h
    obtain ⟨d, hd, hmem⟩ := mem_flatMap.1 h
    by_cases hascii : d.toNat < 128
    · rw [utf8EncodeChar_of_ascii hascii, mem_singleton] at hmem
      have hval := congrArg UInt8.toNat hmem
      rw [hbyte, UInt8.toNat_ofNat', Nat.mod_eq_of_lt (by omega)] at hval
      exact Char.toNat_inj.1 hval ▸ hd
    · have hle := le_of_mem_utf8EncodeChar (not_lt.1 hascii) hmem
      rw [hbyte] at hle
      omega
  · intro h
    refine mem_flatMap.2 ⟨c, h, ?_⟩
    rw [utf8EncodeChar_of_ascii hc]
    exact mem_singleton.2 rfl

theorem splitOn_utf8 (hc : c.toNat < 128) (s : String) :
    (utf8 s).splitOn (UInt8.ofNat c.toNat) = (splitChar c s).map utf8 := by
  have hbyte : utf8 (String.ofList [c]) = [UInt8.ofNat c.toNat] := by
    rw [utf8, String.toList_ofList, flatMap_singleton, utf8EncodeChar_of_ascii hc]
  have hparts {p : String} (hp : c ∉ p.toList) : UInt8.ofNat c.toNat ∉ utf8 p :=
    fun h => hp ((ascii_mem_utf8_iff hc).1 h)
  have hnot : ∀ p ∈ splitChar c s, c ∉ p.toList := fun p hp => notMem_of_mem_splitChar hp
  have hne := splitChar_ne_nil c s
  conv_lhs => rw [← joinChar_splitChar c s]
  generalize splitChar c s = parts at hne hnot ⊢
  induction parts with
  | nil => exact absurd rfl hne
  | cons p parts ih =>
    have hsplit := splitOn_eq_singleton (hparts (hnot p mem_cons_self))
    cases parts with
    | nil => simpa using hsplit
    | cons q parts =>
      rw [joinChar_cons c p (by simp), utf8_append, utf8_append, hbyte, append_assoc, singleton_append,
        splitOn_append_cons_self, hsplit, ih (by simp) fun p hp => hnot p (mem_cons_of_mem _ hp)]
      rfl

theorem prefix_of_lossyChars {cs : List Char} (hcs : '\uFFFD' ∉ cs) {fuel : Nat}
    (h : cs <+: lossyChars fuel bytes) : cs.flatMap String.utf8EncodeChar <+: bytes := by
  induction cs generalizing fuel bytes with
  | nil => exact nil_prefix
  | cons c cs ih =>
    rw [mem_cons, not_or] at hcs
    cases fuel with
    | zero => simp [lossyChars] at h
    | succ fuel =>
      by_cases hbytes : bytes = []
      · subst hbytes
        simp [lossyChars] at h
      · rw [lossyChars.eq_3 _ _ hbytes] at h
        cases hdecode : bytes.toByteArray.utf8DecodeChar? 0 with
        | none =>
          simp only [hdecode, cons_prefix_cons] at h
          exact absurd h.1.symm hcs.1
        | some d =>
          simp only [hdecode, cons_prefix_cons] at h
          obtain ⟨rfl, hrest⟩ := h
          obtain ⟨rest, hbytes'⟩ := ByteArray.exists_of_utf8DecodeChar?_eq_some hdecode
          have hlist : bytes = String.utf8EncodeChar c ++ rest.data.toList := by
            simpa using congrArg (fun b => b.data.toList) hbytes'
          rw [hlist, drop_left' (String.length_utf8EncodeChar c)] at hrest
          rw [hlist, flatMap_cons]
          exact (prefix_append_right_inj _).2 (ih hcs.2 hrest)

theorem startsWith_fromUtf8Lossy_iff (hs : '\uFFFD' ∉ s.toList) :
    startsWith (fromUtf8Lossy bytes) s = true ↔ utf8 s <+: bytes := by
  rw [startsWith, isPrefixOf_iff_prefix, fromUtf8Lossy, String.toList_ofList]
  constructor
  · exact prefix_of_lossyChars hs
  · rintro ⟨rest, rfl⟩
    obtain ⟨fuel, hchars⟩ := lossyChars_append s.toList rest (Nat.le_refl _)
    rw [utf8, hchars]
    exact prefix_append _ _

end Z8s.Rust
