import Mathlib.Tactic.Linarith
import Mathlib.Tactic.NormNum
import Mathlib.Tactic.Positivity
import Mathlib.Tactic.Ring
import Z8s.Quantities.Grammar
import Z8s.Rust.Proofs.StrProofs

/-!
# Proofs: quantities

The parser accepts the texts of amounts and no others, and finds the amount that was written.
-/

namespace Z8s.Quantities

open Rust List Sign Option

variable {cs rest : List Char}
variable {m : Mantissa} {c : Char}
variable {a : Amount} {s : Suffix}

/-! ### Signs -/

theorem Sign.chars_append_split (cs : List Char) : chars (split cs).1 ++ (split cs).2 = cs := by
  unfold split
  split <;> rfl

theorem Sign.not_whitespace {sign : Option Sign} (h : c ∈ chars sign) : isWhitespace c = false := by
  match sign with
  | some .plus =>
    rw [mem_singleton.1 h]
    decide
  | some .minus =>
    rw [mem_singleton.1 h]
    decide
  | none => cases h

theorem Sign.split_append (sign : Option Sign) (h : ∀ c ∈ cs.head?, c ≠ '+' ∧ c ≠ '-') :
    split (chars sign ++ cs) = (sign, cs) := by
  match sign with
  | some .plus => rfl
  | some .minus => rfl
  | none =>
    rw [chars, nil_append]
    unfold split
    split
    · exact absurd rfl (h '+' rfl).1
    · exact absurd rfl (h '-' rfl).2
    · rfl

/-! ### Digits -/

theorem span_isDigit (hcs : cs.all Char.isDigit = true) (hrest : ∀ c ∈ rest.head?, c.isDigit = false) :
    (cs ++ rest).takeWhile Char.isDigit = cs ∧ (cs ++ rest).dropWhile Char.isDigit = rest := by
  have hall := all_eq_true.1 hcs
  rw [takeWhile_append_of_pos hall, dropWhile_append_of_pos hall]
  cases rest with
  | nil => simp
  | cons c rest =>
    have hc : c.isDigit = false := hrest c rfl
    simp [hc]

theorem isDigit_of_mem (h : cs.all Char.isDigit = true) (hc : c ∈ cs) : c.isDigit = true :=
  all_eq_true.1 h c hc

theorem isDigit_not_whitespace (h : c.isDigit = true) : isWhitespace c = false := by
  have hrange : 48 ≤ c.toNat ∧ c.toNat ≤ 57 := Char.isDigit_iff_toNat.1 h
  exact isWhitespace_of_visible (by omega)

theorem Digits.ofChars_eq_some {d : Digits} : Digits.ofChars cs = some d ↔ d.chars = cs := by
  unfold Digits.ofChars
  constructor
  · intro h
    split_ifs at h
    rw [← some_inj.1 h]
  · rintro rfl
    rw [dif_pos ⟨d.ne_nil, d.isDigit⟩]

/-! ### Suffixes -/

namespace Suffix

theorem parseExponent_eq_some {upper : Bool} : parseExponent upper cs = some s ↔
    ∃ sign digits, s = exponent upper sign digits ∧ Sign.chars sign ++ digits.chars = cs := by
  constructor
  · intro h
    obtain ⟨digits, hdigits, rfl⟩ := map_eq_some_iff.1 h
    refine ⟨_, digits, rfl, ?_⟩
    rw [Digits.ofChars_eq_some.1 hdigits, chars_append_split]
  · rintro ⟨sign, digits, rfl, rfl⟩
    have hhead : ∀ c ∈ digits.chars.head?, c ≠ '+' ∧ c ≠ '-' := by
      intro c hc
      have hdigit := isDigit_of_mem digits.isDigit (mem_of_mem_head? hc)
      exact ⟨by rintro rfl; exact absurd hdigit (by decide), by rintro rfl; exact absurd hdigit (by decide)⟩
    rw [parseExponent, split_append sign hhead, Digits.ofChars_eq_some.2 rfl]
    rfl

theorem find_scale (s : Scale) : Scale.all.find? (·.chars == s.chars) = some s := by
  cases s <;> decide

/-- No scale is written like an exponent: after an `E` there is nothing or an `i`. -/
theorem find_scale_exponent (upper : Bool) (sign : Option Sign) (digits : Digits) :
    Scale.all.find? (·.chars == (exponent upper sign digits).chars) = none := by
  rw [find?_eq_none]
  intro s _ hs
  have hchars : s.chars = (exponent upper sign digits).chars := beq_iff_eq.1 hs
  have hlower : ∀ t, s.chars ≠ 'e' :: t := by cases s <;> simp [Scale.chars]
  have hupper : ∀ t, s.chars = 'E' :: t → t = [] ∨ t = ['i'] := by cases s <;> simp [Scale.chars]
  cases upper with
  | false => exact hlower _ hchars
  | true =>
    rcases hupper _ hchars with hnil | hi
    · exact digits.ne_nil (append_eq_nil_iff.1 hnil).2
    · have hdigit := digits.isDigit
      match sign with
      | none =>
        have hdigits : digits.chars = ['i'] := hi
        rw [hdigits] at hdigit
        exact absurd hdigit (by decide)
      | some .plus => exact absurd (List.cons.inj hi).1 (by decide)
      | some .minus => exact absurd (List.cons.inj hi).1 (by decide)

theorem parse_eq_some_iff : parse cs = some s ↔ s.chars = cs := by
  unfold parse
  constructor
  · intro h
    rcases or_eq_some_iff.1 h with hscale | ⟨-, hexponent⟩
    · obtain ⟨s, hs, rfl⟩ := map_eq_some_iff.1 hscale
      have hchars := find?_some hs
      exact beq_iff_eq.1 hchars
    · split at hexponent
      · obtain ⟨sign, digits, rfl, rfl⟩ := parseExponent_eq_some.1 hexponent
        rfl
      · obtain ⟨sign, digits, rfl, rfl⟩ := parseExponent_eq_some.1 hexponent
        rfl
      · cases hexponent
  · rintro rfl
    cases s with
    | scale s => rw [chars, find_scale, map_some, some_or]
    | exponent upper sign digits =>
      rw [find_scale_exponent, map_none, none_or]
      have hparse : parseExponent upper (Sign.chars sign ++ digits.chars) = some (exponent upper sign digits) :=
        parseExponent_eq_some.2 ⟨sign, digits, rfl, rfl⟩
      cases upper with
      | false => exact hparse
      | true => exact hparse

theorem head_chars (s : Suffix) : ∀ c ∈ s.chars.head?, c.isDigit = false ∧ c ≠ '.' := by
  cases s with
  | scale s =>
    have hall : (s.chars.head?.all fun c => !c.isDigit && c != '.') = true := by cases s <;> decide
    intro c hc
    have hhead : s.chars.head? = some c := hc
    rw [hhead] at hall
    simpa using hall
  | exponent upper sign digits => cases upper <;> simp [chars]

theorem not_whitespace (h : c ∈ s.chars) : isWhitespace c = false := by
  cases s with
  | scale s =>
    have hall : s.chars.all fun c => !isWhitespace c := by cases s <;> decide
    simpa using all_eq_true.1 hall c h
  | exponent upper sign digits =>
    rw [chars, mem_cons, mem_append] at h
    rcases h with rfl | hsign | hdigits
    · cases upper <;> decide
    · exact not_whitespace hsign
    · exact isDigit_not_whitespace (isDigit_of_mem digits.isDigit hdigits)

theorem factor_pos (s : Suffix) : 0 < s.factor := by
  cases s with
  | scale s => cases s <;> norm_num [factor, Scale.factor]
  | exponent upper sign digits => exact zpow_pos (by norm_num) _

end Suffix

/-! ### Numbers -/

namespace Mantissa

theorem ofParts_eq_some {whole : List Char} {fraction : Option (List Char)} :
    ofParts whole fraction = some m ↔ m.whole = whole ∧ m.fraction = fraction := by
  unfold ofParts
  constructor
  · intro h
    split_ifs at h
    rw [← some_inj.1 h]
    exact ⟨rfl, rfl⟩
  · rintro ⟨rfl, rfl⟩
    rw [dif_pos ⟨m.ne_nil, m.isDigit⟩]

theorem chars_append_of_split (h : split cs = (some m, rest)) : m.chars ++ rest = cs := by
  unfold split at h
  split at h
  · rename_i rest' hdrop
    obtain ⟨hparts, rfl⟩ := Prod.mk.inj h
    obtain ⟨hwhole, hfraction⟩ := ofParts_eq_some.1 hparts
    rw [chars, hwhole, hfraction, elim_some, append_assoc, cons_append, takeWhile_append_dropWhile,
      ← hdrop, takeWhile_append_dropWhile]
  · obtain ⟨hparts, rfl⟩ := Prod.mk.inj h
    obtain ⟨hwhole, hfraction⟩ := ofParts_eq_some.1 hparts
    rw [chars, hwhole, hfraction, elim_none, append_nil, takeWhile_append_dropWhile]

theorem split_append (m : Mantissa) (h : ∀ c ∈ rest.head?, c.isDigit = false ∧ c ≠ '.') :
    split (m.chars ++ rest) = (some m, rest) := by
  have hdigit : ∀ c ∈ rest.head?, c.isDigit = false := fun c hc => (h c hc).1
  have hall := m.isDigit
  rw [all_append, Bool.and_eq_true] at hall
  cases hfraction : m.fraction with
  | none =>
    obtain ⟨htake, hdrop⟩ := span_isDigit hall.1 hdigit
    rw [chars, hfraction, elim_none, append_nil, split, hdrop, htake]
    split
    · exact absurd rfl (h '.' rfl).2
    · rw [ofParts_eq_some.2 ⟨rfl, hfraction⟩]
  | some fraction =>
    rw [hfraction] at hall
    have hpoint : ∀ c ∈ ('.' :: (fraction ++ rest)).head?, c.isDigit = false := by simp
    obtain ⟨htake, hdrop⟩ := span_isDigit hall.1 hpoint
    obtain ⟨htake', hdrop'⟩ := span_isDigit hall.2 hdigit
    rw [chars, hfraction, elim_some, append_assoc, cons_append, split, hdrop, htake]
    simp only [getD_some] at htake' hdrop'
    simp only [htake', hdrop', ofParts_eq_some.2 ⟨rfl, hfraction⟩]

theorem head_chars_append (m : Mantissa) (rest : List Char) : ∀ c ∈ (m.chars ++ rest).head?, c ≠ '+' ∧ c ≠ '-' := by
  have hall := m.isDigit
  have hne := m.ne_nil
  rw [chars]
  cases hwhole : m.whole with
  | nil =>
    cases hfraction : m.fraction with
    | none => simp [hwhole, hfraction] at hne
    | some fraction => simp
  | cons d ds =>
    rw [hwhole, cons_append, all_cons, Bool.and_eq_true] at hall
    rintro c hc
    obtain rfl : d = c := by simpa using hc
    exact ⟨by rintro rfl; exact absurd hall.1 (by decide), by rintro rfl; exact absurd hall.1 (by decide)⟩

theorem chars_ne_nil (m : Mantissa) : m.chars ≠ [] := by
  have hne := m.ne_nil
  rw [chars]
  cases hfraction : m.fraction with
  | none => simpa [hfraction] using hne
  | some fraction => simp

theorem isDigit_or_point (h : c ∈ m.chars) : c.isDigit = true ∨ c = '.' := by
  have hall := m.isDigit
  rw [all_append, Bool.and_eq_true] at hall
  rw [chars, mem_append] at h
  rcases h with hwhole | hfraction
  · exact .inl (isDigit_of_mem hall.1 hwhole)
  · cases hm : m.fraction with
    | none =>
      rw [hm] at hfraction
      cases hfraction
    | some fraction =>
      rw [hm] at hfraction hall
      exact (mem_cons.1 hfraction).symm.imp_left (isDigit_of_mem hall.2)

theorem value_nonneg (m : Mantissa) : 0 ≤ m.value := by
  unfold value
  positivity

theorem value_eq_zero_iff : m.value = 0 ↔ m.digits = 0 := by
  rw [value, div_eq_zero_iff, Nat.cast_eq_zero]
  exact or_iff_left (by positivity)

theorem not_whitespace (h : c ∈ m.chars) : isWhitespace c = false := by
  rcases isDigit_or_point h with hdigit | rfl
  · exact isDigit_not_whitespace hdigit
  · decide

end Mantissa

namespace Amount

theorem parse_eq_some_iff {s : String} : parse s = some a ↔ a.text = s := by
  rw [← String.toList_inj, text, String.toList_ofList]
  constructor
  · intro h
    obtain ⟨mantissa, hmantissa, h⟩ := bind_eq_some_iff.1 h
    obtain ⟨suffix, hsuffix, rfl⟩ := map_eq_some_iff.1 h
    have hsplit := Mantissa.chars_append_of_split (Prod.ext hmantissa rfl)
    simp only [Suffix.parse_eq_some_iff.1 hsuffix, hsplit, chars_append_split]
  · intro h
    have hsign := split_append a.sign (a.mantissa.head_chars_append a.suffix.chars)
    have hsuffix : Suffix.parse a.suffix.chars = some a.suffix := Suffix.parse_eq_some_iff.2 rfl
    simp only [parse, ← h, hsign, Mantissa.split_append a.mantissa a.suffix.head_chars, bind_some, hsuffix,
      map_some]

theorem value_eq_zero_iff : a.value = 0 ↔ a.mantissa.digits = 0 := by
  have hsign : (factor a.sign : ℚ) ≠ 0 := by
    match a.sign with
    | some .plus => norm_num [factor]
    | some .minus => norm_num [factor]
    | none => norm_num [factor]
  rw [value, mul_eq_zero, mul_eq_zero, Mantissa.value_eq_zero_iff]
  simp [hsign, a.suffix.factor_pos.ne']

theorem sign_ne_minus (h : 0 < a.value) : a.sign ≠ some .minus := by
  intro hsign
  have hle : 0 ≤ a.mantissa.value * a.suffix.factor :=
    mul_nonneg a.mantissa.value_nonneg a.suffix.factor_pos.le
  have hvalue : a.value = -(a.mantissa.value * a.suffix.factor) := by
    rw [value, hsign, factor]
    ring
  linarith

theorem value_of_whole (hsign : a.sign ≠ some .minus) (hfraction : a.mantissa.fraction = none) :
    a.value = a.mantissa.digits * a.suffix.factor := by
  have hfactor : factor a.sign = 1 := by
    match hs : a.sign with
    | some .plus => rfl
    | some .minus => exact absurd hs hsign
    | none => rfl
  simp [value, hfactor, Mantissa.value, hfraction]

end Amount

end Z8s.Quantities
