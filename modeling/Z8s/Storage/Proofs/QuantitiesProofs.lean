import Mathlib.Tactic.FieldSimp
import Z8s.Quantities.Proofs.GrammarProofs
import Z8s.Storage.Quantities

/-!
# Reading sizes

The parser takes a suffix of its table off the text and reads digits before it.
-/

namespace Z8s.Storage

open Rust Z8s.Types Quantities List

variable {unit : Nat}

/-! ### Suffixes of texts -/

theorem stripSuffix_append (cs : List Char) (e : String) :
    stripSuffix (String.ofList (cs ++ e.toList)) e = some (String.ofList cs) := by
  rw [stripSuffix, String.toList_ofList, if_pos (isSuffixOf_iff_suffix.2 (suffix_append cs e.toList))]
  simp

theorem stripSuffix_eq_none {s e : String} (h : ¬ e.toList <:+ s.toList) : stripSuffix s e = none :=
  if_neg fun hsuffix => h (isSuffixOf_iff_suffix.1 hsuffix)

theorem findSome?_eq_of_unique {α β : Type} {f : α → Option β} {l : List α} {a : α} (ha : a ∈ l)
    (h : ∀ a' ∈ l, a' ≠ a → f a' = none) : l.findSome? f = f a := by
  classical
  induction l with
  | nil => cases ha
  | cons b l ih =>
    rw [findSome?_cons]
    by_cases hb : b = a
    · subst hb
      cases hfb : f b with
      | some v => rfl
      | none =>
        refine findSome?_eq_none_iff.2 fun a' ha' => ?_
        by_cases heq : a' = b
        · rw [heq, hfb]
        · exact h a' (mem_cons_of_mem b ha') heq
    · rw [h b mem_cons_self hb]
      exact ih ((mem_cons.1 ha).resolve_left (Ne.symm hb)) fun a' ha' => h a' (mem_cons_of_mem b ha')

/-! ### The table of suffixes -/

theorem readUnit_factor {s : Suffix} (h : readUnit s = some unit) :
    s.factor = unit ∧ 0 < unit ∧ (unit = 1 ∨ unit % 2 = 0) := by
  cases s with
  | exponent upper sign digits => cases h
  | scale s =>
    have hall : (readUnit (.scale s)).all
        fun unit : Nat => decide (s.factor = unit ∧ 0 < unit ∧ (unit = 1 ∨ unit % 2 = 0)) := by
      cases s <;> decide +kernel
    rw [h, Option.all_some, decide_eq_true_eq] at hall
    exact hall

theorem suffix_table {s : Scale} (hs : s ≠ .one) : ∀ e ∈ quantitySuffixes,
    e.1.toList <:+ s.chars ∨ s.chars <:+ e.1.toList → e.1.toList = s.chars ∧ readUnit (.scale s) = some e.2 := by
  revert hs
  cases s <;> decide +kernel

theorem mem_quantitySuffixes {s : Scale} (hs : s ≠ .one) (h : readUnit (.scale s) = some unit) :
    (String.ofList s.chars, unit) ∈ quantitySuffixes := by
  have hall : (readUnit (.scale s)).all fun unit => decide ((String.ofList s.chars, unit) ∈ quantitySuffixes) := by
    revert hs
    clear h
    cases s <;> decide +kernel
  rw [h, Option.all_some, decide_eq_true_eq] at hall
  exact hall

def readDigits (cs : List Char) : Nat := (parseUnsigned (2 ^ 64 - 1) (String.ofList cs)).getD 0

variable {cs : List Char}

theorem parseQuantityBytes_of_readUnit {s : Scale} (hs : s ≠ .one) (h : readUnit (.scale s) = some unit)
    (hspace : ∀ c ∈ cs ++ s.chars, isWhitespace c = false) :
    parseQuantityBytes (String.ofList (cs ++ s.chars)) = readDigits cs * unit % 2 ^ 64 := by
  have htrim : trim (String.ofList (cs ++ s.chars)) = String.ofList (cs ++ s.chars) :=
    trim_of_not_whitespace (by simpa using hspace)
  have hstrip : stripSuffix (String.ofList (cs ++ s.chars)) (String.ofList s.chars) = some (String.ofList cs) := by
    simpa using stripSuffix_append cs (String.ofList s.chars)
  have hother : ∀ e ∈ quantitySuffixes, e ≠ (String.ofList s.chars, unit) →
      stripSuffix (String.ofList (cs ++ s.chars)) e.1 = none := by
    intro e he hne
    -- of two suffixes of one text, one is a suffix of the other
    refine stripSuffix_eq_none fun hsuffix => hne ?_
    rw [String.toList_ofList] at hsuffix
    obtain ⟨hchars, hunit⟩ := suffix_table hs e he
      (suffix_or_suffix_of_suffix hsuffix (suffix_append cs s.chars))
    rw [h, Option.some_inj] at hunit
    exact Prod.ext (by rw [← hchars, String.ofList_toList]) hunit.symm
  rw [parseQuantityBytes]
  simp only [htrim]
  rw [findSome?_eq_of_unique (mem_quantitySuffixes hs h) fun e he hne => by rw [hother e he hne, Option.map_none]]
  simp only [hstrip, Option.map_some, Option.getD_some, readDigits]

theorem parseQuantityBytes_of_no_suffix (h : ∀ e ∈ quantitySuffixes, ¬ e.1.toList <:+ cs)
    (hspace : ∀ c ∈ cs, isWhitespace c = false) : parseQuantityBytes (String.ofList cs) = readDigits cs := by
  have htrim : trim (String.ofList cs) = String.ofList cs := trim_of_not_whitespace (by simpa using hspace)
  have hnone : ∀ e ∈ quantitySuffixes, stripSuffix (String.ofList cs) e.1 = none := by
    intro e he
    refine stripSuffix_eq_none fun hsuffix => h e he ?_
    rwa [String.toList_ofList] at hsuffix
  rw [parseQuantityBytes]
  simp only [htrim]
  rw [findSome?_eq_none_iff.2 fun e he => by rw [hnone e he, Option.map_none]]
  rfl

/-! ### Digits -/

theorem readDigits_of_not_digit {c : Char} (hc : c ∈ cs) (hplus : c ≠ '+') (hdigit : c.isDigit = false) :
    readDigits cs = 0 := by
  have hall {ds : List Char} (hmem : c ∈ ds) : ¬ (ds ≠ [] ∧ ds.all Char.isDigit ∧ digitsValue ds ≤ 2 ^ 64 - 1) := by
    rintro ⟨-, hds, -⟩
    rw [all_eq_true] at hds
    rw [hds c hmem] at hdigit
    cases hdigit
  rw [readDigits, parseUnsigned, String.toList_ofList]
  split
  · rename_i ds
    rw [if_neg (hall ((mem_cons.1 hc).resolve_left hplus))]
    rfl
  · rw [if_neg (hall hc)]
    rfl

theorem readDigits_of_plus (hne : cs ≠ []) (hall : cs.all Char.isDigit = true) :
    readDigits ('+' :: cs) = if digitsValue cs < 2 ^ 64 then digitsValue cs else 0 := by
  simp only [readDigits, parseUnsigned, String.toList_ofList]
  by_cases hlt : digitsValue cs < 2 ^ 64
  · rw [if_pos ⟨hne, hall, by omega⟩, if_pos hlt, Option.getD_some]
  · rw [if_neg fun h => hlt (by omega), if_neg hlt, Option.getD_none]

theorem readDigits_of_digits (hne : cs ≠ []) (hall : cs.all Char.isDigit = true) :
    readDigits cs = if digitsValue cs < 2 ^ 64 then digitsValue cs else 0 := by
  rw [← readDigits_of_plus hne hall]
  simp only [readDigits, parseUnsigned, String.toList_ofList]
  split
  · exact absurd hall (by simp)
  · rfl

theorem readDigits_lt (cs : List Char) : readDigits cs < 2 ^ 64 := by
  rw [readDigits, parseUnsigned]
  split_ifs with h
  · have hle := h.2.2
    rw [Option.getD_some]
    omega
  · decide

/-! ### Amounts -/

variable (a : Amount)

def body (a : Amount) : List Char := Sign.chars a.sign ++ a.mantissa.chars

theorem text_eq : a.text = String.ofList (body a ++ a.suffix.chars) := by
  rw [Amount.text, body, append_assoc]

theorem not_whitespace : ∀ c ∈ body a ++ a.suffix.chars, isWhitespace c = false := by
  intro c hc
  simp only [body, mem_append] at hc
  rcases hc with (hsign | hmantissa) | hsuffix
  · exact Sign.not_whitespace hsign
  · exact Mantissa.not_whitespace hmantissa
  · exact Suffix.not_whitespace hsuffix

theorem no_suffix_append (xs : List Char) {ys : List Char} (hne : ys ≠ [])
    (hys : ∀ c ∈ ys, c.isDigit = true ∨ c = '.') : ∀ e ∈ quantitySuffixes, ¬ e.1.toList <:+ xs ++ ys := by
  have htable : ∀ e ∈ quantitySuffixes,
      e.1.toList ≠ [] ∧ (e.1.toList.all fun c => !(c.isDigit || c == '.')) = true := by
    decide +kernel
  intro e he hsuffix
  obtain ⟨hne', hall⟩ := htable e he
  have hchars : ∀ c ∈ e.1.toList, ¬ (c.isDigit = true ∨ c = '.') := by
    intro c hc
    simpa using all_eq_true.1 hall c hc
  rcases suffix_or_suffix_of_suffix hsuffix (suffix_append xs ys) with hsub | hsub
  · obtain ⟨c, hc⟩ := exists_mem_of_ne_nil _ hne'
    exact hchars c hc (hys c (hsub.subset hc))
  · obtain ⟨c, hc⟩ := exists_mem_of_ne_nil _ hne
    exact hchars c (hsub.subset hc) (hys c hc)

theorem parseQuantityBytes_known (h : readUnit a.suffix = some unit) :
    parseQuantityBytes a.text = readDigits (body a) * unit % 2 ^ 64 := by
  have hspace := not_whitespace a
  rw [text_eq]
  cases hsuffix : a.suffix with
  | exponent upper sign digits =>
    rw [hsuffix] at h
    cases h
  | scale s =>
    rw [hsuffix] at h hspace
    by_cases hs : s = .one
    · subst hs
      obtain rfl : 1 = unit := Option.some_inj.1 h
      have hnone : ∀ e ∈ quantitySuffixes, ¬ e.1.toList <:+ body a :=
        no_suffix_append (Sign.chars a.sign) a.mantissa.chars_ne_nil fun c => Mantissa.isDigit_or_point
      rw [Suffix.chars, Scale.chars, append_nil] at hspace ⊢
      rw [parseQuantityBytes_of_no_suffix hnone hspace, Nat.mul_one, Nat.mod_eq_of_lt (readDigits_lt _)]
    · exact parseQuantityBytes_of_readUnit hs h hspace

theorem parseQuantityBytes_unknown (h : readUnit a.suffix = none) : parseQuantityBytes a.text = 0 := by
  have hspace := not_whitespace a
  rw [text_eq]
  cases hsuffix : a.suffix with
  | exponent upper sign digits =>
    rw [hsuffix] at hspace
    have hsplit : body a ++ (Suffix.exponent upper sign digits).chars =
        (body a ++ (if upper then 'E' else 'e') :: Sign.chars sign) ++ digits.chars := by
      simp [Suffix.chars]
    have hnone := no_suffix_append (body a ++ (if upper then 'E' else 'e') :: Sign.chars sign) digits.ne_nil
      fun c hc => .inl (isDigit_of_mem digits.isDigit hc)
    rw [← hsplit] at hnone
    rw [parseQuantityBytes_of_no_suffix hnone hspace]
    refine readDigits_of_not_digit (c := if upper then 'E' else 'e') ?_ ?_ ?_
    · simp [Suffix.chars]
    · cases upper <;> decide
    · cases upper <;> decide
  | scale s =>
    rw [hsuffix] at h hspace
    have hs : s ≠ .one := by
      rintro rfl
      cases h
    have hnone : ∀ e ∈ quantitySuffixes, ¬ e.1.toList <:+ body a ++ s.chars := by
      intro e he hsub
      have hunit := (suffix_table hs e he (suffix_or_suffix_of_suffix hsub (suffix_append _ _))).2
      rw [h] at hunit
      cases hunit
    have hletter : (s.chars.any fun c => c != '+' && !c.isDigit) = true := by
      revert hs
      clear h hspace hnone hsuffix
      cases s <;> decide
    obtain ⟨c, hc, hother⟩ := any_eq_true.1 hletter
    rw [Bool.and_eq_true, bne_iff_ne, Bool.not_eq_true'] at hother
    exact (parseQuantityBytes_of_no_suffix hnone hspace).trans
      (readDigits_of_not_digit (mem_append_right _ hc) hother.1 hother.2)

theorem readDigits_body_of_fraction (h : a.mantissa.fraction ≠ none) : readDigits (body a) = 0 := by
  obtain ⟨fraction, hfraction⟩ := Option.ne_none_iff_exists'.1 h
  refine readDigits_of_not_digit (c := '.') ?_ (by decide) (by decide)
  simp [body, Mantissa.chars, hfraction]

theorem readDigits_body_of_minus (h : a.sign = some .minus) : readDigits (body a) = 0 := by
  refine readDigits_of_not_digit (c := '-') ?_ (by decide) (by decide)
  simp [body, h, Sign.chars]

theorem readDigits_body (hfraction : a.mantissa.fraction = none) (hsign : a.sign ≠ some .minus) :
    readDigits (body a) = if a.mantissa.digits < 2 ^ 64 then a.mantissa.digits else 0 := by
  have hne := a.mantissa.ne_nil
  have hall := a.mantissa.isDigit
  have hdigits : a.mantissa.digits = digitsValue a.mantissa.whole := by simp [Mantissa.digits, hfraction]
  have hchars : a.mantissa.chars = a.mantissa.whole := by simp [Mantissa.chars, hfraction]
  rw [hfraction, Option.getD_none, append_nil] at hne hall
  rw [body, hchars, hdigits]
  cases hs : a.sign with
  | none => exact readDigits_of_digits hne hall
  | some sign =>
    cases sign with
    | plus => exact readDigits_of_plus hne hall
    | minus => exact absurd hs hsign

theorem readDigits_body_of_zero (h : a.mantissa.digits = 0) : readDigits (body a) = 0 := by
  by_cases hfraction : a.mantissa.fraction = none
  · by_cases hsign : a.sign = some .minus
    · exact readDigits_body_of_minus a hsign
    · rw [readDigits_body a hfraction hsign, h, ite_self]
  · exact readDigits_body_of_fraction a hfraction

/-- A product that does not fit is never read as the largest number: the factors of the suffixes are even. -/
theorem product_ne_max {n : Nat} (hunit : unit = 1 ∨ unit % 2 = 0) (hlarge : ¬ n * unit < 2 ^ 64) :
    (if n < 2 ^ 64 then n else 0) * unit % 2 ^ 64 ≠ 2 ^ 64 - 1 := by
  by_cases hn : n < 2 ^ 64
  · rcases hunit with rfl | heven
    · rw [Nat.mul_one] at hlarge
      exact absurd hn hlarge
    · have hmod : n * unit % 2 = 0 := by rw [Nat.mul_mod, heven, Nat.mul_zero, Nat.zero_mod]
      rw [if_pos hn]
      omega
  · rw [if_neg hn, Nat.zero_mul]
    decide

namespace Size

variable (s t : Size)

theorem text_amount : s.amount.text = s.text := Amount.parse_eq_some_iff.1 s.parsed

theorem parse_of_zero (h : s.amount.value = 0) : parseQuantityBytes s.text = 0 := by
  have hdigits := readDigits_body_of_zero s.amount (Amount.value_eq_zero_iff.1 h)
  rw [← text_amount]
  cases hunit : readUnit s.amount.suffix with
  | none => exact parseQuantityBytes_unknown _ hunit
  | some unit => rw [parseQuantityBytes_known _ hunit, hdigits, Nat.zero_mul, Nat.zero_mod]

theorem bytes_pos (h : 0 < s.amount.value) : 0 < s.bytes :=
  lt_min (Nat.ceil_pos.2 h) (by decide)

theorem parse_eq_bytes_of_whole (h : 0 < s.amount.value) (hfraction : s.amount.mantissa.fraction = none)
    (hunit : readUnit s.amount.suffix = some unit) :
    parseQuantityBytes s.text = s.bytes ↔ s.amount.mantissa.digits * unit < 2 ^ 64 := by
  obtain ⟨hfactor, hpos, heven⟩ := readUnit_factor hunit
  have hsign := Amount.sign_ne_minus h
  have hceil : ⌈s.amount.value⌉₊ = s.amount.mantissa.digits * unit := by
    rw [Amount.value_of_whole hsign hfraction, hfactor, ← Nat.cast_mul, Nat.ceil_natCast]
  rw [← text_amount, parseQuantityBytes_known _ hunit, readDigits_body _ hfraction hsign, bytes, hceil]
  constructor
  · intro heq
    by_contra hlarge
    rw [min_eq_right (by omega)] at heq
    exact product_ne_max heven hlarge heq
  · intro hlt
    have hdigits : s.amount.mantissa.digits < 2 ^ 64 := (Nat.le_mul_of_pos_right _ hpos).trans_lt hlt
    rw [if_pos hdigits, Nat.mod_eq_of_lt hlt, min_eq_left (by omega)]

theorem parse_eq_bytes_iff : parseQuantityBytes s.text = s.bytes ↔ s.Readable := by
  rw [Readable]
  rcases s.nonneg.eq_or_lt with hzero | hpos
  · have hbytes : s.bytes = 0 := by rw [bytes, ← hzero, Nat.ceil_zero, Nat.zero_min]
    rw [parse_of_zero s hzero.symm, hbytes]
    exact iff_of_true rfl (.inl hzero.symm)
  -- A positive amount is never read as 0.
  have hread : parseQuantityBytes s.text = 0 → parseQuantityBytes s.text ≠ s.bytes := by
    intro hparse heq
    exact (bytes_pos s hpos).ne' (heq.symm.trans hparse)
  rw [or_iff_right hpos.ne']
  cases hunit : readUnit s.amount.suffix with
  | none =>
    refine iff_of_false (hread ?_) (by simp)
    rw [← text_amount, parseQuantityBytes_unknown _ hunit]
  | some unit =>
    by_cases hfraction : s.amount.mantissa.fraction = none
    · rw [parse_eq_bytes_of_whole s hpos hfraction hunit]
      simp [hfraction]
    · refine iff_of_false (hread ?_) fun h => hfraction h.1
      rw [← text_amount, parseQuantityBytes_known _ hunit, readDigits_body_of_fraction _ hfraction, Nat.zero_mul,
        Nat.zero_mod]

theorem readTrue_iff : ReadTrue s t ↔ s.Readable ∧ t.Readable := by
  rw [ReadTrue, ← parse_eq_bytes_iff, ← parse_eq_bytes_iff]
  constructor
  · rintro ⟨hs, ht, -⟩
    exact ⟨hs, ht⟩
  · rintro ⟨hs, ht⟩
    refine ⟨hs, ht, fun hle => ?_⟩
    rw [hs, ht, bytes, bytes]
    exact min_le_min_right _ (Nat.ceil_mono hle)

/-- The size `1Gi`. -/
def gibi : Size where
  text := "1Gi"
  amount := ⟨none, ⟨['1'], none, by decide, by decide⟩, .scale .Gi⟩
  parsed := by decide
  nonneg := by decide +kernel

/-- The size `1.5Gi`. -/
def gibiAndHalf : Size where
  text := "1.5Gi"
  amount := ⟨none, ⟨['1'], some ['5'], by decide, by decide⟩, .scale .Gi⟩
  parsed := by decide
  nonneg := by decide +kernel

/-- The larger size is read as 0 because of its point. -/
theorem larger_size_read_as_zero : gibi.amount.value ≤ gibiAndHalf.amount.value ∧
    gibi.bytes = 1073741824 ∧ parseQuantityBytes gibi.text = 1073741824 ∧
    gibiAndHalf.bytes = 1610612736 ∧ parseQuantityBytes gibiAndHalf.text = 0 ∧ ¬ ReadTrue gibi gibiAndHalf := by
  have hread : parseQuantityBytes gibiAndHalf.text = 0 := by decide +kernel
  have hbytes : gibiAndHalf.bytes = 1610612736 := by decide +kernel
  refine ⟨by decide +kernel, by decide +kernel, by decide +kernel, hbytes, hread, fun h => ?_⟩
  have htrue := h.2.1
  rw [hread, hbytes] at htrue
  exact absurd htrue (by decide)

/-- A quantity of `2 ^ 64` bytes wraps around to 0. -/
example : parseQuantityBytes "16Ei" = 0 ∧ (Amount.parse "16Ei").map Amount.value = some (2 ^ 64) := by decide +kernel

end Size

end Z8s.Storage
