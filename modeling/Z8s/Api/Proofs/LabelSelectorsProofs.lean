import Z8s.Api.LabelSelectors
import Z8s.Collections.Constraints
import Z8s.Labels.Proofs.RequirementProofs
import Z8s.Url.Proofs.PercentProofs

/-!
# What label selectors mean

The entries read from `k=v`, `k==v` and `k` ask for what these requirements say.
-/

namespace Z8s.Api

open Rust Collections Url Labels List Requirement

variable {s : String}
variable {entry : String × Option String} {labels : BTreeMap String String} {r : Requirement}
  {raw : List Char}

/-! ### Decoding -/

theorem urlpathDecodeBytes_cons {b : UInt8} (h : b ≠ 0x25) (bytes : List UInt8) :
    urlpathDecodeBytes (b :: bytes) = Char.ofNat b.toNat :: urlpathDecodeBytes bytes := by
  match bytes with
  | [] => rfl
  | [_] => rfl
  | hi :: lo :: bytes =>
    have hescape : escapeValue b hi lo = none := if_neg h
    rw [urlpathDecodeBytes, hescape]

theorem urlpathDecodeBytes_of_notMem {bytes : List UInt8} (h : 0x25 ∉ bytes) :
    urlpathDecodeBytes bytes = latin1 bytes := by
  induction bytes with
  | nil => rfl
  | cons b bytes ih =>
    rw [mem_cons, not_or] at h
    rw [urlpathDecodeBytes_cons (Ne.symm h.1), ih h.2]
    rfl

theorem urlpathDecode_eq_self (hascii : isAscii s = true) (hpercent : '%' ∉ s.toList) :
    urlpathDecode s = s := by
  have hbyte : (0x25 : UInt8) ∉ utf8 s := fun hmem => hpercent ((ascii_mem_utf8_iff (by decide)).1 hmem)
  rw [urlpathDecode, urlpathDecodeBytes_of_notMem hbyte, latin1_utf8_of_ascii hascii, String.ofList_toList]

theorem urlpathDecodeBytes_of_encodesByte {b : UInt8} (h : EncodesByte false b raw) (rest : List UInt8) :
    urlpathDecodeBytes (raw.map (fun c => UInt8.ofNat c.toNat) ++ rest) =
      Char.ofNat b.toNat :: urlpathDecodeBytes rest := by
  have hback {c : Char} (hc : isPlain c = true) : Char.ofNat (UInt8.ofNat c.toNat).toNat = c :=
    ofNat_byte (isPlain_ascii hc)
  cases h with
  | plain hplain =>
    rename_i c
    refine urlpathDecodeBytes_cons (fun (heq : UInt8.ofNat c.toNat = 0x25) => ?_) rest
    have hc := hback hplain
    rw [heq] at hc
    exact (isPlain_iff.1 hplain).2.2.1 hc.symm
  | escape hhi hlo =>
    rename_i hi lo
    have hescape : escapeValue (UInt8.ofNat '%'.toNat) (UInt8.ofNat hi.toNat) (UInt8.ofNat lo.toNat) =
        some (b.toNat / 16 * 16 + b.toNat % 16) := by
      rw [escapeValue, if_pos (by decide), hback (isPlain_of_hexValue hhi), hback (isPlain_of_hexValue hlo), hhi, hlo]
      rfl
    simp only [map_cons, map_nil, cons_append, nil_append, urlpathDecodeBytes, hescape,
      Nat.div_add_mod']
  | space h => cases h

theorem urlpathDecode_of_encodes (h : Encodes false (utf8 s) raw) (hascii : isAscii s = true) :
    urlpathDecode (String.ofList raw) = s := by
  have hbytes : utf8 (String.ofList raw) = raw.map fun c => UInt8.ofNat c.toNat := by
    rw [utf8_of_ascii fun c hc => h.ascii (by simpa using hc), String.toList_ofList]
  have hdecode {bytes : List UInt8} {raw : List Char} (h : Encodes false bytes raw) :
      urlpathDecodeBytes (raw.map fun c => UInt8.ofNat c.toNat) = latin1 bytes := by
    induction h with
    | nil => rfl
    | cons hfirst _ ih =>
      rw [map_append, urlpathDecodeBytes_of_encodesByte hfirst, ih]
      rfl
  rw [urlpathDecode, hbytes, hdecode h, latin1_utf8_of_ascii hascii, String.ofList_toList]

/-! ### Entries of a selector -/

theorem parseLabelSelector_eq (raw : String) :
    parseLabelSelector raw = ((splitChar ',' raw).filter (· != "")).map parseRequirement := by
  rw [parseLabelSelector]
  by_cases hraw : raw = ""
  · rw [if_pos hraw, hraw]
    rfl
  · rw [if_neg hraw]

theorem parseLabelSelector_joinChar (parts : List String) :
    parseLabelSelector (joinChar ',' parts) = parts.flatMap parseLabelSelector := by
  by_cases hparts : parts = []
  · rw [hparts]
    rfl
  rw [parseLabelSelector_eq, splitChar_joinChar hparts]
  simp only [filter_flatMap, map_flatMap, ← parseLabelSelector_eq]

theorem parseLabelSelector_of_notMem (hne : s ≠ "") (hcomma : ',' ∉ s.toList) :
    parseLabelSelector s = [parseRequirement s] := by
  rw [parseLabelSelector_eq, splitChar_of_notMem hcomma]
  simp [hne]

theorem urlpathDecode_trim (h : ∀ c ∈ s.toList, isTextChar c = true) : urlpathDecode (trim s) = trim s := by
  refine urlpathDecode_eq_self (isAscii_iff.2 fun c hc => isTextChar_ascii (h c (mem_of_mem_trim hc))) fun hmem => ?_
  exact absurd (h '%' (mem_of_mem_trim hmem)) (by decide)

theorem parseRequirement_of_eq_notMem (h : ∀ c ∈ s.toList, isTextChar c = true) (heq : '=' ∉ s.toList) :
    parseRequirement s = (trim s, none) := by
  have hsplit : splitOnce '=' (trim s) = none := if_neg fun hmem => heq (mem_of_mem_trim hmem)
  unfold parseRequirement
  simp only [urlpathDecode_trim h, hsplit]

/-- The requirement is read as an entry for a key that no label has. -/
def Foreign (entry : String × Option String) : Prop := '!' ∈ entry.1.toList ∨ '(' ∈ entry.1.toList

theorem Foreign.ne_key (h : Foreign entry) (k : LabelKey) : k.text ≠ entry.1 := by
  intro heq
  rw [Foreign, ← heq] at h
  rcases h with hmem | hmem
  · exact absurd (k.isLabelChar hmem) (by decide)
  · exact absurd (k.isLabelChar hmem) (by decide)

/-- A text without `=` is read as entries for labels that have to be there, one of them with any of its characters. -/
theorem exists_entry_of_mem (h : ∀ c ∈ s.toList, isTextChar c = true) (heq : '=' ∉ s.toList) {c : Char}
    (hc : c ∈ s.toList) (hcomma : c ≠ ',') (hspace : isWhitespace c = false) :
    ∃ entry ∈ parseLabelSelector s, c ∈ entry.1.toList := by
  obtain ⟨part, hpart, hcpart⟩ := exists_mem_splitChar hc hcomma
  have hne : part ≠ "" := by
    rintro rfl
    cases hcpart
  have hread : parseRequirement part = (trim part, none) :=
    parseRequirement_of_eq_notMem (fun d hd => h d (mem_of_mem_splitChar hpart hd))
      fun hmem => heq (mem_of_mem_splitChar hpart hmem)
  refine ⟨(trim part, none), ?_, mem_trim_of_mem hcpart hspace⟩
  rw [parseLabelSelector_eq, ← hread]
  exact mem_map_of_mem (mem_filter.2 ⟨hpart, bne_iff_ne.2 hne⟩)

def NoList (cs : List Char) : Prop := ∀ c ∈ cs, c = '=' ∨ c = '!' ∨ isLabelChar c = true

theorem NoList.isTextChar {cs : List Char} (h : NoList cs) : ∀ c ∈ cs, isTextChar c = true := by
  intro c hc
  rcases h c hc with rfl | rfl | hlabel
  · decide
  · decide
  · exact Bool.or_eq_true_iff.2 (.inr hlabel)

theorem NoList.not_whitespace {cs : List Char} (h : NoList cs) : ∀ c ∈ cs, isWhitespace c = false := by
  intro c hc
  rcases h c hc with rfl | rfl | hlabel
  · decide
  · decide
  · exact isLabelChar_not_whitespace hlabel

theorem noList_key (k : LabelKey) : NoList k.text.toList := fun _ hc => .inr (.inr (k.isLabelChar hc))

theorem noList_value (v : LabelValue) : NoList v.text.toList := fun _ hc => .inr (.inr (v.isLabelChar hc))

theorem eq_notMem_key (k : LabelKey) : '=' ∉ k.text.toList := fun hmem => absurd (k.isLabelChar hmem) (by decide)

theorem eq_notMem_value (v : LabelValue) : '=' ∉ v.text.toList := fun hmem => absurd (v.isLabelChar hmem) (by decide)

/-- What stands before the first `=` is read as the key. -/
theorem parseLabelSelector_of_eq {k : String} {rest : List Char} (h : NoList (k.toList ++ '=' :: rest))
    (heq : '=' ∉ k.toList) : parseLabelSelector (String.ofList (k.toList ++ '=' :: rest)) =
      [(k, some (trimStartMatches '=' (String.ofList rest)))] := by
  have hne : String.ofList (k.toList ++ '=' :: rest) ≠ "" := by
    intro hempty
    simpa using congrArg String.toList hempty
  have hcomma : ',' ∉ (String.ofList (k.toList ++ '=' :: rest)).toList := by
    rw [String.toList_ofList]
    exact fun hmem => absurd (h ',' hmem) (by decide)
  have htext : ∀ c ∈ (String.ofList (k.toList ++ '=' :: rest)).toList, isTextChar c = true := by
    rw [String.toList_ofList]
    exact h.isTextChar
  have hspace : ∀ c ∈ (String.ofList (k.toList ++ '=' :: rest)).toList, isWhitespace c = false := by
    rw [String.toList_ofList]
    exact h.not_whitespace
  have htrim : trim k = k := trim_of_not_whitespace fun c hc => h.not_whitespace c (mem_append_left _ hc)
  rw [parseLabelSelector_of_notMem hne hcomma]
  unfold parseRequirement
  rw [urlpathDecode_trim htext, trim_of_not_whitespace hspace]
  simp only [splitOnce_append heq, htrim]

/-- The text after the first `=`, and the value that is read from it. -/
theorem equals_text (k : LabelKey) (double : Bool) (v : LabelValue) : ∃ rest, NoList rest ∧
    (equals k double v).text = String.ofList (k.text.toList ++ '=' :: rest) ∧
    trimStartMatches '=' (String.ofList rest) = v.text := by
  have hvalue : trimStartMatches '=' v.text = v.text := trimStartMatches_of_notMem (eq_notMem_value v)
  cases double with
  | false =>
    refine ⟨v.text.toList, noList_value v, ?_, by rw [String.ofList_toList, hvalue]⟩
    rw [← String.toList_inj]
    simp [text]
  | true =>
    refine ⟨'=' :: v.text.toList, forall_mem_cons.2 ⟨.inl rfl, noList_value v⟩, ?_, ?_⟩
    · rw [← String.toList_inj]
      simp [text]
    · have hdrop : trimStartMatches '=' (String.ofList ('=' :: v.text.toList)) = trimStartMatches '=' v.text := by
        simp [trimStartMatches]
      rw [hdrop, hvalue]

theorem parseLabelSelector_of_isSimple (h : r.isSimple = true) :
    ∃ val, parseLabelSelector r.text = [(r.key.text, val)] ∧ ∀ label, entryMatches val label = r.holds label := by
  cases r with
  | equals k double v =>
    obtain ⟨rest, hrest, htext, hvalue⟩ := equals_text k double v
    have hall : NoList (k.text.toList ++ '=' :: rest) :=
      forall_mem_append.2 ⟨noList_key k, forall_mem_cons.2 ⟨.inl rfl, hrest⟩⟩
    refine ⟨some v.text, ?_, fun label => rfl⟩
    rw [htext, parseLabelSelector_of_eq hall (eq_notMem_key k), hvalue]
    rfl
  | present k =>
    refine ⟨none, ?_, fun label => rfl⟩
    have hcomma : ',' ∉ k.text.toList := fun hmem => absurd (k.isLabelChar hmem) (by decide)
    rw [text, parseLabelSelector_of_notMem k.ne_empty hcomma,
      parseRequirement_of_eq_notMem (noList_key k).isTextChar (eq_notMem_key k),
      trim_of_not_whitespace (noList_key k).not_whitespace]
    rfl
  | _ => cases h

theorem exists_foreign (h : r.isSimple = false) : ∃ entry ∈ parseLabelSelector r.text, Foreign entry := by
  have htext := all_eq_true.1 r.all_isTextChar
  have hvalues {v : LabelValue} {vs : List LabelValue} : '=' ∉ (valuesText v vs).toList := by
    intro hmem
    rcases mem_valuesText hmem with heq | hlabel
    · exact absurd heq (by decide)
    · exact absurd hlabel (by decide)
  cases r with
  | notEquals k v =>
    have hsplit : (notEquals k v).text =
        String.ofList ((k.text ++ "!").toList ++ '=' :: v.text.toList) := by
      rw [← String.toList_inj]
      simp [text]
    have hall : NoList ((k.text ++ "!").toList ++ '=' :: v.text.toList) := by
      rw [String.toList_append, append_assoc]
      exact forall_mem_append.2 ⟨noList_key k, forall_mem_cons.2
        ⟨.inr (.inl rfl), forall_mem_cons.2 ⟨.inl rfl, noList_value v⟩⟩⟩
    rw [hsplit, parseLabelSelector_of_eq hall (by simp [eq_notMem_key])]
    exact ⟨_, mem_singleton_self _, .inl (by simp)⟩
  | absent k =>
    obtain ⟨entry, hentry, hmem⟩ := exists_entry_of_mem (c := '!') htext (by simp [text, eq_notMem_key])
      (by simp [text]) (by decide) (by decide)
    exact ⟨entry, hentry, .inl hmem⟩
  | isIn k v vs | notIn k v vs =>
    obtain ⟨entry, hentry, hmem⟩ := exists_entry_of_mem (c := '(') htext (by simp [text, eq_notMem_key, hvalues])
      (by simp [text]) (by decide) (by decide)
    exact ⟨entry, hentry, .inr hmem⟩
  | _ => cases h

/-! ### The parameter in the query -/

theorem selectorParam_own (q : SelectorQuery) :
    selectorParam (String.ofList (q.name ++ '=' :: q.value)) = some (selectorText q.reqs) := by
  have hascii : isAscii ("labelSelector=" ++ selectorText q.reqs) = true := by
    rw [isAscii_iff]
    intro c hc
    rw [String.toList_append, mem_append] at hc
    rcases hc with hname | htext
    · have hliteral : isAscii "labelSelector=" = true := by decide
      exact isAscii_iff.1 hliteral c hname
    · exact isTextChar_ascii (isTextChar_selectorText htext)
  -- The `=` between the name and the value stands for itself, so the whole parameter is an encoded text.
  have hencodes : Encodes false (utf8 ("labelSelector=" ++ selectorText q.reqs)) (q.name ++ '=' :: q.value) := by
    have hbytes : utf8 ("labelSelector=" ++ selectorText q.reqs) =
        utf8 "labelSelector" ++ UInt8.ofNat '='.toNat :: utf8 (selectorText q.reqs) := by
      have hname : utf8 "labelSelector=" = utf8 "labelSelector" ++ utf8 "=" := utf8_append "labelSelector" "="
      rw [utf8_append, hname, append_assoc]
      rfl
    rw [hbytes]
    exact q.name_encodes.append (.cons (.plain (by decide)) q.value_encodes)
  rw [selectorParam, urlpathDecode_of_encodes hencodes hascii, stripPrefix_append]

theorem findSome?_selectorParam_filter (parts : List String) :
    (parts.filter (· != "")).findSome? selectorParam = parts.findSome? selectorParam := by
  have hempty : selectorParam "" = none := by decide
  induction parts with
  | nil => rfl
  | cons part parts ih =>
    by_cases hpart : part = ""
    · rw [filter_cons_of_neg (by simp [hpart]), ih, hpart, findSome?_cons, hempty]
    · rw [filter_cons_of_pos (by simp [hpart]), findSome?_cons, findSome?_cons, ih]

theorem extractLabelSelector_eq (rawQuery : String) : extractLabelSelector rawQuery =
    (((splitChar '&' rawQuery).findSome? selectorParam).map parseLabelSelector).getD [] := by
  rw [extractLabelSelector, findSome?_selectorParam_filter]
  by_cases hempty : rawQuery = ""
  · rw [if_pos hempty, hempty]
    decide
  · rw [if_neg hempty]

namespace SelectorQuery

variable (q : SelectorQuery)

theorem splitChar_text :
    splitChar '&' q.text = q.before ++ String.ofList (q.name ++ '=' :: q.value) :: q.after := by
  refine splitChar_joinChar_of_notMem (by simp) ?_
  have hown : '&' ∉ (String.ofList (q.name ++ '=' :: q.value)).toList := by
    rw [String.toList_ofList, mem_append, mem_cons, not_or, not_or]
    exact ⟨q.name_encodes.amp_notMem, by decide, q.value_encodes.amp_notMem⟩
  exact forall_mem_append.2 ⟨fun part hpart => (q.before_other part hpart).1,
    forall_mem_cons.2 ⟨hown, fun part hpart => (q.after_other part hpart).1⟩⟩

theorem extractLabelSelector_text :
    extractLabelSelector q.text = parseLabelSelector (q.taken.getD (selectorText q.reqs)) := by
  rw [extractLabelSelector_eq, splitChar_text, findSome?_append, findSome?_cons, selectorParam_own, taken]
  cases q.before.findSome? selectorParam with
  | none => rfl
  | some v => rfl

end SelectorQuery

/-! ### Entries and requirements label by label -/

section Constraints

variable {selector : List (String × Option String)} {reqs : List Requirement}

theorem labelsMatchSelector_iff :
    labelsMatchSelector selector labels = true ↔ BTreeMap.Meets (Admits selector) labels := by
  rw [labelsMatchSelector, all_eq_true]
  constructor
  · rintro h key entry hentry rfl
    exact h entry hentry
  · intro h entry hentry
    exact h entry.1 entry hentry rfl

theorem satisfies_iff : satisfies reqs labels = true ↔ BTreeMap.Meets (Allows reqs) labels := by
  rw [satisfies, all_eq_true]
  constructor
  · rintro h key r hr rfl
    exact h r hr
  · intro h r hr
    exact h r.key.text r hr rfl

theorem admits_onlyOn (selector : List (String × Option String)) :
    BTreeMap.OnlyOn (selector.map Prod.fst) (Admits selector) := by
  rintro key hkey label entry hentry rfl
  exact absurd (mem_map_of_mem hentry) hkey

theorem allows_onlyOn (reqs : List Requirement) :
    BTreeMap.OnlyOn (reqs.map fun r => r.key.text) (Allows reqs) := by
  rintro key hkey label r hr rfl
  exact absurd (mem_map_of_mem hr) hkey

theorem impossible_admits_iff : BTreeMap.Impossible (Admits selector) ↔ Clashing selector := by
  constructor
  · rintro ⟨key, hkey⟩
    by_contra hclash
    by_cases hvalue : ∃ v, (key, some v) ∈ selector
    · obtain ⟨v, hv⟩ := hvalue
      refine hkey (some v) ?_
      rintro ⟨key', val⟩ hentry rfl
      cases val with
      | none => rfl
      | some v' =>
        have hsame : v = v' := by
          by_contra hne
          exact hclash ⟨key', v, v', hv, hentry, hne⟩
        simp [entryMatches, hsame]
    · refine hkey (some "") ?_
      rintro ⟨key', val⟩ hentry rfl
      cases val with
      | none => rfl
      | some v => exact absurd ⟨v, hentry⟩ hvalue
  · rintro ⟨key, v, v', hv, hv', hne⟩
    refine ⟨key, fun label hadmits => hne ?_⟩
    have h := hadmits _ hv rfl
    have h' := hadmits _ hv' rfl
    simp only [entryMatches, beq_iff_eq] at h h'
    exact Option.some_inj.1 (h.symm.trans h')

theorem not_admits_none (h : entry ∈ selector) : ¬ Admits selector entry.1 none := by
  intro hadmits
  have hentry := hadmits entry h rfl
  cases hval : entry.2 with
  | none => simp [entryMatches, hval] at hentry
  | some v => simp [entryMatches, hval] at hentry

theorem admits_iff_allows_iff : (∀ key label, Admits (parseLabelSelector (selectorText reqs)) key label ↔
    Allows reqs key label) ↔ ∀ r ∈ reqs, r.isSimple = true := by
  have hmem {entry : String × Option String} : entry ∈ parseLabelSelector (selectorText reqs) ↔
      ∃ r ∈ reqs, entry ∈ parseLabelSelector r.text := by
    rw [selectorText, parseLabelSelector_joinChar]
    simp [mem_flatMap]
  constructor
  · intro hsame r hr
    by_contra hsimple
    -- a label with the key of this entry may be missing for the requirements, but not for the entry
    obtain ⟨entry, hentry, hforeign⟩ := exists_foreign (Bool.eq_false_iff.2 hsimple)
    refine not_admits_none (hmem.2 ⟨r, hr, hentry⟩) ((hsame entry.1 none).2 ?_)
    exact fun r' _ hkey => absurd hkey (hforeign.ne_key r'.key)
  · intro hsimple key label
    constructor
    · intro hadmits r hr hkey
      obtain ⟨val, hentries, hholds⟩ := parseLabelSelector_of_isSimple (hsimple r hr)
      rw [← hholds]
      exact hadmits (r.key.text, val) (hmem.2 ⟨r, hr, by simp [hentries]⟩) hkey
    · intro hallows entry hentry hkey
      obtain ⟨r, hr, hentry⟩ := hmem.1 hentry
      obtain ⟨val, hentries, hholds⟩ := parseLabelSelector_of_isSimple (hsimple r hr)
      rw [hentries, mem_singleton] at hentry
      subst hentry
      rw [hholds]
      exact hallows r hr hkey

end Constraints

namespace SelectorQuery

variable (q : SelectorQuery)

theorem filters_iff : q.Filters ↔
    q.Faithful ∨ Clashing (extractLabelSelector q.text) ∧ Contradictory q.reqs := by
  have hfaithful : q.Faithful ↔
      ∀ key label, Admits (extractLabelSelector q.text) key label ↔ Allows q.reqs key label := by
    rw [Faithful, extractLabelSelector_text]
    cases q.taken with
    | none => exact admits_iff_allows_iff.symm
    | some v => exact Iff.rfl
  rw [hfaithful, Filters, ← impossible_admits_iff, Contradictory]
  simp only [labelsMatchSelector_iff, satisfies_iff]
  exact BTreeMap.meets_iff_meets_iff (admits_onlyOn _) (allows_onlyOn _)

/-- The pods without a label `app` that is `web`. -/
def notWeb : SelectorQuery where
  before := []
  name := "labelSelector".toList
  reqs := [.notEquals ⟨"app", by decide⟩ ⟨"web", by decide⟩]
  value := "app%21%3Dweb".toList
  after := []
  before_other := by simp
  name_encodes := encodes_self (by decide)
  value_encodes := by
    have happ : Encodes false (utf8 "app") "app".toList := encodes_self (by decide)
    have hweb : Encodes false (utf8 "web") "web".toList := encodes_self (by decide)
    exact happ.append (.cons (b := 0x21) (.escape (by decide) (by decide))
      (.cons (b := 0x3D) (.escape (by decide) (by decide)) hweb))
  after_other := by simp

/-- Labels without `app` satisfy the requirement, but the parser looks for a label `app!`. -/
theorem not_equals_drops_unlabelled : notWeb.text = "labelSelector=app%21%3Dweb" ∧
    extractLabelSelector notWeb.text = [("app!", some "web")] ∧ satisfies notWeb.reqs ∅ = true ∧
    labelsMatchSelector (extractLabelSelector notWeb.text) ∅ = false ∧ ¬ notWeb.Filters := by
  have hmatch : labelsMatchSelector (extractLabelSelector notWeb.text) ∅ = false := by decide
  refine ⟨by decide, by decide, by decide, hmatch, fun hfilters => ?_⟩
  have hall := (hfilters ∅).2 (by decide)
  rw [hmatch] at hall
  exact absurd hall (by decide)

end SelectorQuery

end Z8s.Api
