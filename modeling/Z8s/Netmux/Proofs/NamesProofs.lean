import Z8s.Netmux.Proofs.ReplyProofs
import Z8s.Program.Proofs.QueryProofs

/-!
# Proofs: names on the wire

A label takes one iteration of `parse_name` and the end of the name another one, and there are 51 of
them.
-/

namespace Z8s.Netmux

open Rust Dns Program.Query List Access

variable {lower : Lowercase} {buf : List UInt8}

/-! ### Encoded names -/

theorem parseLabels_label {label : String} (hl : ValidLabel (utf8 label)) (steps : Nat) (pre post : List UInt8)
    (offset : Option Nat) :
    parseLabels lower (pre ++ (encodeLabel (utf8 label) ++ post)) (steps + 1) pre.length offset =
      (parseLabels lower (pre ++ (encodeLabel (utf8 label) ++ post)) steps
        (pre ++ encodeLabel (utf8 label)).length offset).map fun r => (lower.apply label :: r.1, r.2) := by
  have hbyte := toNat_length (Nat.lt_of_le_of_lt hl.2 (by decide))
  have hptr : ¬ (UInt8.ofNat (utf8 label).length).toNat &&& 0xC0 = 0xC0 := by
    rw [and_C0_eq_iff, hbyte]
    have := hl.2
    omega
  have hfits := le_length_encodeLabel (utf8 label) pre post
  rw [parseLabels, getElem?_encodeLabel]
  simp only [if_neg hptr]
  rw [hbyte, if_neg (by have := hl.1; omega), if_neg (Nat.not_lt.2 hfits), take_drop_encodeLabel, fromUtf8_utf8,
    Option.bind_some, length_append_encodeLabel]

/-- Every label takes a step, and the end of the name another one. -/
theorem parseLabels_encode {labels : List String} (hlabels : ∀ l ∈ labels, ValidLabel (utf8 l)) (steps : Nat)
    (pre post : List UInt8) :
    parseLabels lower (pre ++ (encodeLabels (labels.map utf8) ++ post)) steps pre.length none =
      if labels.length < steps then
        some (labels.map lower.apply, pre.length + (encodeLabels (labels.map utf8)).length)
      else none := by
  induction labels generalizing steps pre with
  | nil =>
    cases steps with
    | zero => rfl
    | succ steps =>
      have hend : (pre ++ (encodeLabels [] ++ post))[pre.length]? = some 0 := getElem?_append_at pre _ 0
      rw [map_nil, parseLabels, hend]
      rfl
  | cons l labels ih =>
    rw [forall_mem_cons] at hlabels
    have hmsg : pre ++ (encodeLabels ((l :: labels).map utf8) ++ post) =
        pre ++ (encodeLabel (utf8 l) ++ (encodeLabels (labels.map utf8) ++ post)) := by
      simp [encodeLabels]
    cases steps with
    | zero => rfl
    | succ steps =>
      have hlen : pre.length + (encodeLabels ((l :: labels).map utf8)).length =
          (pre ++ encodeLabel (utf8 l)).length + (encodeLabels (labels.map utf8)).length := by
        simp only [encodeLabels, map_cons, flatMap_cons, length_append]
        omega
      rw [hmsg, parseLabels_label hlabels.1, ← append_assoc pre, ih hlabels.2, hlen, length_cons]
      by_cases hsteps : labels.length < steps
      · rw [if_pos hsteps, if_pos (Nat.succ_lt_succ hsteps)]
        rfl
      · rw [if_neg hsteps, if_neg fun h => hsteps (Nat.lt_of_succ_lt_succ h)]
        rfl

theorem isAscii_of_isNameChar {c : Char} (h : isNameChar c = true) : c.toNat < 128 := by
  rw [isNameChar, Bool.or_eq_true, Bool.or_eq_true, beq_iff_eq, beq_iff_eq] at h
  rcases h with (halnum | rfl) | rfl
  · have hrange := isAlphanum_range halnum
    omega
  · decide
  · decide

theorem asciiLower_append (s t : String) : asciiLower (s ++ t) = asciiLower s ++ asciiLower t := by
  simp [asciiLower]

theorem joinChar_map_asciiLower (parts : List String) :
    joinChar '.' (parts.map asciiLower) = asciiLower (joinChar '.' parts) := by
  induction parts with
  | nil => rfl
  | cons p parts ih =>
    by_cases hparts : parts = []
    · rw [hparts, map_singleton, joinChar_singleton, joinChar_singleton]
    · rw [map_cons, joinChar_cons _ _ (by simpa using hparts), joinChar_cons _ _ hparts, ih, asciiLower_append,
        asciiLower_append]
      rfl

namespace LegalName

variable (n : LegalName)

theorem chars_ascii {l : String} (hl : l ∈ n.labels) : ∀ c ∈ l.toList, c.toNat < 128 :=
  fun c hc => isAscii_of_isNameChar (all_eq_true.1 (n.chars l hl) c hc)

theorem validLabel {l : String} (hl : l ∈ n.labels) : ValidLabel (utf8 l) := by
  rw [ValidLabel, utf8_of_ascii (n.chars_ascii hl), length_map, String.length_toList]
  exact n.length l hl

theorem writtenLabels_text : writtenLabels n.text = n.labels.map utf8 := by
  have hbase : writtenLabels n.base = n.labels.map utf8 := by
    by_cases hlabels : n.labels = []
    · rw [base, hlabels]
      decide
    · have hdots : ∀ l ∈ n.labels, '.' ∉ l.toList := fun l hl hdot =>
        absurd (all_eq_true.1 (n.chars l hl) '.' hdot) (by decide)
      rw [writtenLabels, base, splitChar_joinChar_of_notMem hlabels hdots, filter_eq_self.2]
      intro l hl
      refine decide_eq_true ?_
      rintro rfl
      exact absurd (n.length "" hl).1 (by decide)
  unfold text
  split_ifs
  · rw [writtenLabels_dot, hbase]
  · exact hbase

theorem parseName_text (lower : AsciiLowercase) (pre post : List UInt8) :
    parseName lower.toLowercase (pre ++ encodeName n.text ++ post) pre.length =
      if n.labels.length ≤ 50 then some (asciiLower n.base, pre.length + (encodeName n.text).length) else none := by
  have hlower : n.labels.map lower.apply = n.labels.map asciiLower :=
    map_congr_left fun l hl => lower.ascii l (n.chars_ascii hl)
  rw [parseName, encodeName_eq, n.writtenLabels_text, append_assoc,
    parseLabels_encode (fun l hl => n.validLabel hl), hlower]
  by_cases hlabels : n.labels.length ≤ 50
  · rw [if_pos (Nat.lt_succ_of_le hlabels), if_pos hlabels, Option.map_some, joinChar_map_asciiLower, base]
  · rw [if_neg fun h => hlabels (Nat.le_of_lt_succ h), if_neg hlabels, Option.map_none]

/-- A legal name survives encoding exactly if it has at most 50 labels. -/
theorem survives_iff (n : LegalName) (lower : AsciiLowercase) : n.Survives lower ↔ n.labels.length ≤ 50 := by
  constructor
  · intro h
    have hempty := h [] []
    rw [n.parseName_text] at hempty
    by_contra hlabels
    rw [if_neg hlabels] at hempty
    cases hempty
  · intro h pre post
    rw [n.parseName_text, if_pos h]

end LegalName

private def LegalName.letters : LegalName where
  labels := List.replicate 51 "a"
  trailingDot := false
  length := by decide
  chars := by decide
  short := by decide

/-- A name of 51 labels is cut off. -/
theorem letters_cut_off : ¬ LegalName.letters.Survives ⟨.ascii, fun _ _ => rfl⟩ := by
  intro h
  have hempty := h [] []
  rw [LegalName.parseName_text] at hempty
  cases hempty

/-! ### Any bytes -/

section Reading

theorem eval_byte {i : Nat} {b : UInt8} (h : buf[i]? = some b) :
    eval buf (.byte i) = .ok [b] ∧ eval buf (.lengthByte i) = .ok [b] := by
  obtain ⟨hlt, rfl⟩ := List.getElem?_eq_some_iff.1 h
  have hone : (buf.drop i).take 1 = [buf[i]] := by rw [drop_eq_getElem_cons hlt]; rfl
  exact ⟨by rw [eval, if_pos hlt, hone], by rw [eval, if_pos hlt, hone]⟩

theorem run_readingLabels (steps cur : Nat) (offset : Option Nat) (labels : List String) :
    (readingLabels lower buf.length steps cur offset labels).run (eval buf) =
      .ok ((parseLabels lower buf steps cur offset).map fun r => (joinChar '.' (labels ++ r.1), r.2)) := by
  induction steps generalizing cur offset labels with
  | zero => rfl
  | succ steps ih =>
    rw [readingLabels, parseLabels]
    cases hb : buf[cur]? with
    | none =>
      rw [if_pos (getElem?_eq_none_iff.1 hb)]
      rfl
    | some b =>
      rw [if_neg (Nat.not_le.2 (List.getElem?_eq_some_iff.1 hb).1), run_ask, (eval_byte hb).2]
      show Program.Query.run _ _ = _
      dsimp only [headD_cons]
      by_cases hzero : b.toNat = 0
      · rw [if_pos hzero, if_pos hzero, Option.map_some, append_nil]
        rfl
      rw [if_neg hzero, if_neg hzero]
      by_cases hptr : b.toNat &&& 0xC0 = 0xC0
      · rw [if_pos hptr, if_pos hptr]
        cases hlow : buf[cur + 1]? with
        | none =>
          rw [if_pos (getElem?_eq_none_iff.1 hlow)]
          rfl
        | some low =>
          rw [if_neg (Nat.not_le.2 (List.getElem?_eq_some_iff.1 hlow).1), run_ask, (eval_byte hlow).1]
          exact ih _ _ _
      rw [if_neg hptr, if_neg hptr]
      by_cases hlen : cur + 1 + b.toNat > buf.length
      · rw [if_pos hlen, if_pos hlen]
        rfl
      rw [if_neg hlen, if_neg hlen, run_ask, eval,
        if_pos ⟨Nat.le_add_right _ _, Nat.not_lt.1 hlen⟩, Nat.add_sub_cancel_left]
      show Program.Query.run _ _ = _
      cases fromUtf8 ((buf.drop (cur + 1)).take b.toNat) with
      | none => rfl
      | some label =>
        refine (ih _ _ _).trans ?_
        rw [Option.bind_some, Option.map_map]
        congr 2
        funext r
        simp

theorem sound_readingLabels (size steps cur : Nat) (offset : Option Nat) (labels : List String) :
    (readingLabels lower size steps cur offset labels).Sound (eval buf) := by
  induction steps generalizing cur offset labels with
  | zero => trivial
  | succ steps ih =>
    rw [readingLabels]
    split
    · trivial
    · intro b _
      dsimp only
      split_ifs
      · trivial
      · trivial
      · intro low _
        exact ih _ _ _
      · trivial
      · intro bytes _
        dsimp only
        split
        · trivial
        · exact ih _ _ _

/-- Every iteration reads the length of one label. -/
theorem countP_asked_readingLabels (size steps cur : Nat) (offset : Option Nat) (labels : List String) :
    ((readingLabels lower size steps cur offset labels).asked (eval buf)).countP isLength ≤ steps := by
  induction steps generalizing cur offset labels with
  | zero => exact Nat.le_refl 0
  | succ steps ih =>
    rw [readingLabels]
    split
    · exact Nat.zero_le _
    · refine countP_asked_ask fun b => ?_
      dsimp only
      split_ifs
      · exact Nat.zero_le _
      · exact Nat.zero_le _
      · exact countP_asked_ask fun low => ih _ _ _
      · exact Nat.zero_le _
      · refine countP_asked_ask fun bytes => ?_
        split
        · exact Nat.zero_le _
        · exact ih _ _ _

theorem parseLabels_bounds {steps cur : Nat} {r : List String × Nat} (h : parseLabels lower buf steps cur none = some r) :
    cur < r.2 ∧ r.2 ≤ buf.length := by
  induction steps generalizing cur r with
  | zero => cases h
  | succ steps ih =>
    obtain ⟨b, hb, ⟨-, rfl⟩ | ⟨-, low, hlow, hrest⟩ | ⟨-, -, -, label, rest, -, hrest, rfl⟩⟩ := parseLabels_succ h
    · exact ⟨Nat.lt_succ_self cur, (List.getElem?_eq_some_iff.1 hb).1⟩
    · rw [parseLabels_offset hrest]
      exact ⟨by omega, (List.getElem?_eq_some_iff.1 hlow).1⟩
    · have hbounds := ih hrest
      exact ⟨by omega, hbounds.2⟩

theorem nameReadSafely (lower : Lowercase) (buf : List UInt8) (offset : Nat) : NameReadSafely lower buf offset := by
  have hrun : (readingName lower buf.length offset).run (eval buf) = .ok (parseName lower buf offset) :=
    run_readingLabels 51 offset none []
  refine ⟨hrun, ?_, countP_asked_readingLabels _ _ _ _ _, fun r hr => ?_⟩
  · exact (run_ok_iff (sound_readingLabels _ _ _ _ _)).1 ⟨_, hrun⟩
  · obtain ⟨r', hr', rfl⟩ := Option.map_eq_some_iff.1 hr
    exact parseLabels_bounds hr'

theorem exists_readU16 {i : Nat} (h : i + 2 ≤ buf.length) :
    ∃ n, readU16 buf i = some n ∧ (readingU16 i).run (eval buf) = .ok n := by
  have hhigh : buf[i]? = some buf[i] := getElem?_eq_getElem (by omega)
  have hlow : buf[i + 1]? = some buf[i + 1] := getElem?_eq_getElem (by omega)
  refine ⟨_, by rw [readU16, hhigh, hlow], ?_⟩
  rw [readingU16, run_ask, (eval_byte hhigh).1]
  show Program.Query.run _ _ = _
  rw [run_ask, (eval_byte hlow).1]
  rfl

theorem sound_readingU16 (i : Nat) : (readingU16 i).Sound (eval buf) := fun _ _ _ _ => trivial

theorem sound_readingQuery (lower : Lowercase) (size : Nat) : (readingQuery lower size).Sound (eval buf) := by
  unfold readingQuery
  split
  · trivial
  refine sound_bind (sound_readingU16 0) fun id => ?_
  refine sound_bind (sound_readingU16 2) fun flags => ?_
  split
  · trivial
  refine sound_bind (sound_readingU16 4) fun qdcount => ?_
  split
  · trivial
  refine sound_bind (sound_readingLabels _ _ _ _ _) fun r => ?_
  split
  · trivial
  split
  · trivial
  exact sound_bind (sound_readingU16 _) fun qtype _ _ => trivial

theorem run_readingQuery (lower : Lowercase) (buf : List UInt8) :
    (readingQuery lower buf.length).run (eval buf) = .ok (parseQuery lower buf) := by
  unfold readingQuery parseQuery
  by_cases hsize : buf.length < 12
  · rw [if_pos hsize]
    simp [guard, Nat.not_le.2 hsize]
  obtain ⟨id, hid, hid'⟩ : ∃ n, readU16 buf 0 = some n ∧ _ := exists_readU16 (by omega)
  obtain ⟨flags, hflags, hflags'⟩ : ∃ n, readU16 buf 2 = some n ∧ _ := exists_readU16 (by omega)
  obtain ⟨qdcount, hqdcount, hqdcount'⟩ : ∃ n, readU16 buf 4 = some n ∧ _ := exists_readU16 (by omega)
  have hname := (nameReadSafely lower buf 12).returns
  simp only [guard, if_pos (Nat.not_lt.1 hsize), hid, hflags, hqdcount, Option.bind_eq_bind, Option.bind_some,
    Option.pure_def]
  rw [if_neg hsize, run_bind, hid']
  show Program.Query.run _ _ = _
  rw [run_bind, hflags']
  show Program.Query.run _ _ = _
  by_cases hresponse : flags &&& 0x8000 = 0
  swap
  · rw [if_pos hresponse]
    simp [hresponse]
  rw [if_neg (not_not_intro hresponse), if_pos hresponse, Option.bind_some, run_bind, hqdcount']
  show Program.Query.run _ _ = _
  by_cases hcount : qdcount = 0
  · rw [if_pos hcount]
    simp [hcount]
  rw [if_neg hcount, if_pos hcount, Option.bind_some, run_bind, hname]
  show Program.Query.run _ _ = _
  cases hparse : parseName lower buf 12 with
  | none => rfl
  | some r =>
    have hadvances := (nameReadSafely lower buf 12).advances r hparse
    rw [Option.bind_some]
    by_cases hoffset : r.2 + 4 > buf.length
    · simp only [if_pos hoffset, if_neg (Nat.not_le.2 hoffset)]
      rfl
    · obtain ⟨qtype, hqtype, hqtype'⟩ : ∃ n, readU16 buf r.2 = some n ∧ _ := exists_readU16 (by omega)
      simp only [if_neg hoffset, if_pos (Nat.not_lt.1 hoffset), Option.bind_some, hqtype, run_bind,
        hqtype']
      show Program.Query.run _ _ = _
      rw [run_ask, eval, if_pos ⟨by omega, Nat.not_lt.1 hoffset⟩]
      rfl

/-- Whatever the bytes are, `parse_name` returns after at most 51 lengths without an access out of range, its offset
moves forward within the buffer, and so `handle_query` finds all that it reads. -/
theorem dns_readSafely (lower : Lowercase) (buf : List UInt8) :
    (∀ offset, NameReadSafely lower buf offset) ∧ QueryReadSafely lower buf := by
  have hrun := run_readingQuery lower buf
  refine ⟨fun offset => nameReadSafely lower buf offset, hrun, ?_⟩
  exact (run_ok_iff (sound_readingQuery lower buf.length)).1 ⟨_, hrun⟩

end Reading

end Z8s.Netmux
