import Mathlib.Data.Nat.Bitwise
import Mathlib.Data.Option.Basic
import Z8s.Dns.Proofs.MessageProofs
import Z8s.Netmux.Dns
import Z8s.Rust.Proofs.StrProofs
import Z8s.Rust.Proofs.Utf8Proofs

/-!
# Proofs: replies of the DNS server

The question is copied into the reply byte by byte, and the name that was read from it is written
again as the owner of a record.
-/

namespace Z8s.Netmux

open Rust Z8s.Types Dns List Option

variable {lower : Lowercase} {zone : Zone} {query reply buf : List UInt8} {q : Query} {answer : LocalAnswer}
variable {labels : List Label} {question : Question}
variable {rdata : List UInt8} {part s : String} {fuel rtype : Nat}

/-! ### Texts as labels -/

theorem utf8_length_le_joinChar {c : Char} {parts : List String} (h : part ∈ parts) :
    (utf8 part).length ≤ (utf8 (joinChar c parts)).length := by
  induction parts with
  | nil => cases h
  | cons p rest ih =>
    by_cases hrest : rest = []
    · subst hrest
      rw [mem_singleton.1 h, joinChar_singleton]
    · rw [joinChar_cons c p hrest, utf8_append, utf8_append, length_append, length_append]
      rcases mem_cons.1 h with rfl | h
      · omega
      · have := ih h
        omega

theorem utf8_length_le_of_mem_splitChar {c : Char} {names : List String} {bound : Nat}
    (h : ∀ name ∈ names, (utf8 name).length ≤ bound) (hpart : part ∈ splitChar c (joinChar c names)) :
    (utf8 part).length ≤ bound := by
  have hone (name : String) (hname : (utf8 name).length ≤ bound) (hpart : part ∈ splitChar c name) :
      (utf8 part).length ≤ bound := by
    have := utf8_length_le_joinChar (c := c) hpart
    rw [joinChar_splitChar] at this
    exact Nat.le_trans this hname
  by_cases hnames : names = []
  · subst hnames
    exact hone (joinChar c []) (Nat.zero_le _) hpart
  · rw [splitChar_joinChar hnames] at hpart
    obtain ⟨name, hname, hpart⟩ := mem_flatMap.1 hpart
    exact hone name (h name hname) hpart

theorem encodeName_eq (name : String) : encodeName name = encodeLabels (writtenLabels name) := by
  rw [encodeName, encodeLabels, writtenLabels, flatMap_map]

theorem utf8_ne_nil (h : s ≠ "") : utf8 s ≠ [] := by
  intro hnil
  exact h (utf8_injective (by rw [hnil]; rfl))

theorem one_le_of_mem_writtenLabels {name : String} {l : Label} (h : l ∈ writtenLabels name) : 1 ≤ l.length := by
  obtain ⟨part, hpart, rfl⟩ := mem_map.1 h
  have hne : part ≠ "" := by simpa using (mem_filter.1 hpart).2
  exact length_pos_iff.2 (utf8_ne_nil hne)

theorem stripSuffix_eq_some {p base : String} (h : stripSuffix s p = some base) : s = base ++ p := by
  rw [stripSuffix] at h
  split_ifs at h with hp
  obtain ⟨front, hfront⟩ := isSuffixOf_iff_suffix.1 hp
  rw [← hfront, length_append, Nat.add_sub_cancel, take_left] at h
  apply String.toList_inj.1
  rw [← Option.some.inj h, String.toList_append, String.toList_ofList, hfront]

/-- A dot at the end only adds an empty part. -/
theorem writtenLabels_dot (base : String) : writtenLabels (base ++ ".") = writtenLabels base := by
  have hsplit := splitChar_append '.' base ""
  rw [String.append_empty] at hsplit
  rw [writtenLabels, show base ++ "." = base ++ String.ofList ['.'] from rfl, hsplit, filter_append,
    map_append, show (splitChar '.' "").filter (· ≠ "") = [] by decide, map_nil, append_nil,
    writtenLabels]

theorem writtenLabels_of_valid {ext : String} (h : ValidName (nameLabels ext)) :
    writtenLabels ext = nameLabels ext := by
  have hwritten : writtenLabels ext = writtenLabels ((stripSuffix ext ".").getD ext) := by
    cases hstrip : stripSuffix ext "." with
    | none => rfl
    | some base => rw [stripSuffix_eq_some hstrip, writtenLabels_dot, getD_some]
  rw [nameLabels] at h ⊢
  rw [hwritten]
  generalize (stripSuffix ext ".").getD ext = base at h ⊢
  have hlabel := h.label
  split_ifs at hlabel ⊢ with hempty
  · rw [hempty]
    decide
  · rw [writtenLabels, filter_eq_self.2]
    intro part hpart
    have hlen := (hlabel (utf8 part) (mem_map_of_mem hpart)).1
    refine decide_eq_true ?_
    rintro rfl
    cases hlen

/-! ### How the server reads a name -/

theorem and_C0_eq_iff (b : UInt8) : b.toNat &&& 0xC0 = 0xC0 ↔ 192 ≤ b.toNat := by
  have h : ∀ n < 256, n &&& 0xC0 = 0xC0 ↔ 192 ≤ n := by decide +kernel
  exact h b.toNat b.toNat_lt

theorem pointer_eq {b : UInt8} (hb : 192 ≤ b.toNat) (low : UInt8) :
    ((b.toNat &&& 0x3F) <<< 8) ||| low.toNat = (b.toNat - 192) * 256 + low.toNat := by
  have h : ∀ n < 256, 192 ≤ n → n &&& 0x3F = n - 192 := by decide +kernel
  rw [h b.toNat b.toNat_lt hb, ← Nat.shiftLeft_add_eq_or_of_lt low.toNat_lt, Nat.shiftLeft_eq]

section ParseName

variable {steps cur : Nat} {offset : Option Nat} {r : List String × Nat}

/-- What can be at an offset where `parse_name` reads on: the end, a pointer, or a label. -/
theorem parseLabels_succ (h : parseLabels lower buf (steps + 1) cur offset = some r) :
    ∃ b, buf[cur]? = some b ∧
      (b.toNat = 0 ∧ r = ([], offset.getD (cur + 1)) ∨
        (192 ≤ b.toNat ∧ ∃ low, buf[cur + 1]? = some low ∧
          parseLabels lower buf steps ((b.toNat - 192) * 256 + low.toNat) (offset.or (some (cur + 2))) = some r) ∨
        (1 ≤ b.toNat ∧ b.toNat < 192 ∧ cur + 1 + b.toNat ≤ buf.length ∧
          ∃ label rest, utf8 label = (buf.drop (cur + 1)).take b.toNat ∧
            parseLabels lower buf steps (cur + 1 + b.toNat) offset = some rest ∧
            r = (lower.apply label :: rest.1, rest.2))) := by
  rw [parseLabels] at h
  cases hb : buf[cur]? with
  | none =>
    rw [hb] at h
    cases h
  | some b =>
    rw [hb] at h
    refine ⟨b, rfl, ?_⟩
    simp only at h
    split_ifs at h with hzero hptr hlen
    · exact .inl ⟨hzero, (Option.some.inj h).symm⟩
    · have hle := (and_C0_eq_iff b).1 hptr
      obtain ⟨low, hlow, hrest⟩ := bind_eq_some_iff.1 h
      rw [pointer_eq hle] at hrest
      exact .inr (.inl ⟨hle, low, hlow, hrest⟩)
    · have hlt : b.toNat < 192 := Nat.lt_of_not_le fun hle => hptr ((and_C0_eq_iff b).2 hle)
      obtain ⟨label, hlabel, hmap⟩ := bind_eq_some_iff.1 h
      obtain ⟨rest, hrest, hr⟩ := map_eq_some_iff.1 hmap
      exact .inr (.inr ⟨by omega, hlt, by omega, label, rest, utf8_of_fromUtf8 hlabel, hrest, hr.symm⟩)

theorem parseLabels_offset {next : Nat} (h : parseLabels lower buf steps cur (some next) = some r) :
    r.2 = next := by
  induction steps generalizing cur r with
  | zero => cases h
  | succ steps ih =>
    obtain ⟨b, -, ⟨-, rfl⟩ | ⟨-, low, -, hrest⟩ | ⟨-, -, -, label, rest, -, hrest, rfl⟩⟩ := parseLabels_succ h
    · rfl
    · exact ih hrest
    · have hend := ih hrest
      exact hend

theorem parseLabels_readLabels_succ (h : parseLabels lower buf (steps + 1) cur offset = some r)
    (hread : readLabels buf (fuel + 1) cur = some labels) :
    ∃ b, buf[cur]? = some b ∧
      (b.toNat = 0 ∧ r = ([], offset.getD (cur + 1)) ∨
        (192 ≤ b.toNat ∧ cur + 2 ≤ buf.length ∧ ∃ next,
          parseLabels lower buf steps next (offset.or (some (cur + 2))) = some r ∧
          readLabels buf fuel next = some labels) ∨
        (1 ≤ b.toNat ∧ b.toNat ≤ 63 ∧ cur + 1 + b.toNat ≤ buf.length ∧
          ∃ label rest labels', (utf8 label).length ≤ 63 ∧
            parseLabels lower buf steps (cur + 1 + b.toNat) offset = some rest ∧
            readLabels buf fuel (cur + 1 + b.toNat) = some labels' ∧
            r = (lower.apply label :: rest.1, rest.2))) := by
  obtain ⟨b, hb, hparse⟩ := parseLabels_succ h
  obtain ⟨b', hb', hlabels⟩ := readLabels_succ hread
  obtain rfl : b = b' := Option.some.inj (hb.symm.trans hb')
  refine ⟨b, hb, ?_⟩
  rcases hparse with hend | ⟨hptr, low, hlow, hrest⟩ | ⟨hpos, hlt, hlen, label, rest, hlabel, hrest, hr⟩
  · exact .inl hend
  · rcases hlabels with ⟨hzero, -⟩ | ⟨-, hle, -⟩ | ⟨-, low', hlow', hread⟩
    · omega
    · omega
    · obtain rfl : low = low' := Option.some.inj (hlow.symm.trans hlow')
      exact .inr (.inl ⟨hptr, (List.getElem?_eq_some_iff.1 hlow).1, _, hrest, hread⟩)
  · rcases hlabels with ⟨hzero, -⟩ | ⟨-, hle, -, labels', hread, -⟩ | ⟨hptr, -⟩
    · omega
    · refine .inr (.inr ⟨hpos, hle, hlen, label, rest, labels', ?_, hrest, hread, hr⟩)
      rw [hlabel, length_take]
      omega
    · omega

/-- Where a name can be read both ways, no label of it is longer than 63 bytes before it is put in lower
case. -/
theorem length_le_of_parseLabels (h : parseLabels lower buf steps cur offset = some r)
    (hread : readLabels buf fuel cur = some labels) : ∀ name ∈ r.1, (utf8 name).length ≤ 189 := by
  induction steps generalizing cur fuel offset r labels with
  | zero => cases h
  | succ steps ih =>
    cases fuel with
    | zero => cases hread
    | succ fuel =>
      obtain ⟨b, -, ⟨-, rfl⟩ | ⟨-, -, next, hrest, hread⟩ |
        ⟨-, -, -, label, rest, labels', hlabel, hrest, hread, rfl⟩⟩ := parseLabels_readLabels_succ h hread
      · exact fun name hname => absurd hname not_mem_nil
      · exact ih hrest hread
      · intro name hname
        rcases mem_cons.1 hname with rfl | hname
        · have := lower.length_le label
          omega
        · exact ih hrest hread name hname

theorem skipName_of_parseLabels (h : parseLabels lower buf steps cur none = some r)
    (hread : readLabels buf fuel cur = some labels) : skipName buf fuel cur = some r.2 := by
  induction steps generalizing cur fuel r labels with
  | zero => cases h
  | succ steps ih =>
    cases fuel with
    | zero => cases hread
    | succ fuel =>
      obtain ⟨b, hb, hcases⟩ := parseLabels_readLabels_succ h hread
      rw [skipName, hb]
      simp only
      rcases hcases with ⟨hzero, rfl⟩ | ⟨hptr, hlen, next, hrest, -⟩ |
        ⟨hpos, hle, hlen, label, rest, labels', -, hrest, hread, rfl⟩
      · rw [if_pos hzero]
        rfl
      · rw [if_neg (by omega), if_neg (by omega), if_pos hptr, if_pos hlen, parseLabels_offset hrest]
      · rw [if_neg (by omega), if_pos (by omega), if_pos hlen]
        have hend := ih hrest hread
        exact hend

end ParseName

/-! ### The query -/

/-- What the server takes from a query: where its name ends, and the question up to there and the type and
the class behind it. -/
structure Parsed (lower : Lowercase) (query : List UInt8) (q : Query) (names : List String) (offset : Nat) :
    Prop where
  id : readU16 query 0 = some q.id
  rd : (readU16 query 2).map (·.testBit 8) = some q.rd
  labels : parseLabels lower query 51 12 none = some (names, offset)
  name : q.name = joinChar '.' names
  offset_le : offset + 4 ≤ query.length
  questionBytes : q.questionBytes = (query.drop 12).take (offset + 4 - 12)

theorem decide_and_eq_testBit (flags : Nat) : decide (flags &&& 0x0100 ≠ 0) = flags.testBit 8 := by
  rw [show 0x0100 = 2 ^ 8 from rfl, Nat.and_two_pow]
  cases flags.testBit 8 <;> rfl

theorem parsed_of_parseQuery (h : parseQuery lower query = some q) :
    ∃ names offset, Parsed lower query q names offset := by
  simp only [parseQuery, bind_eq_bind, bind_eq_some_iff] at h
  obtain ⟨-, -, id, hid, flags, hflags, -, -, qdcount, -, -, -, ⟨name, offset⟩, hname, _, hguard, qtype, -, h⟩ := h
  cases h
  obtain ⟨⟨names, offset'⟩, hlabels, hsplit⟩ := map_eq_some_iff.1 hname
  cases hsplit
  refine ⟨names, offset', hid, ?_, hlabels, rfl, ?_, rfl⟩
  · rw [hflags, map_some, decide_and_eq_testBit]
  · exact (guard_eq_some' _).1 hguard

theorem length_of_parseIpv4 {text : String} {ip : List UInt8} (h : parseIpv4 text = some ip) : ip.length = 4 := by
  rw [parseIpv4] at h
  split at h
  · simp only [bind_eq_bind, bind_eq_some_iff] at h
    obtain ⟨a, -, b, -, c, -, d, -, h⟩ := h
    rw [← Option.some.inj h]
    rfl
  · cases h

/-- The answers that the server gives: the addresses have four bytes, and an alias is the external name of
the Service that was found. -/
theorem answerFor_cases (h : answerFor zone q = .ok (some answer)) :
    answer = .noData ∨ answer = .nxdomain ∨ (∃ ip, answer = .address ip ∧ ip.length = 4) ∨
      ∃ ext, answer = .cname ext ∧ resolveService zone.domain q.name zone.services = .externalName ext := by
  have hdata {a : LocalAnswer} (h : (.ok (some (dataFor q.qtype a)) : Except Unit _) = .ok (some answer)) :
      answer = .noData ∨ answer = a := by
    rw [← Option.some.inj (Except.ok.inj h), dataFor]
    split_ifs
    · exact .inl rfl
    · exact .inr rfl
  have haddress {ip : List UInt8} (hlen : ip.length = 4)
      (h : (.ok (some (dataFor q.qtype (.address ip))) : Except Unit _) = .ok (some answer)) (P Q : Prop) :
      answer = .noData ∨ P ∨ (∃ ip, answer = .address ip ∧ ip.length = 4) ∨ Q := by
    rcases hdata h with h | h
    · exact .inl h
    · exact .inr (.inr (.inl ⟨ip, h, hlen⟩))
  rw [answerFor] at h
  by_cases hqtype : q.qtype ≠ 1 ∧ q.qtype ≠ 28 ∧ q.qtype ≠ 255
  · rw [if_pos hqtype] at h
    cases h
  rw [if_neg hqtype] at h
  cases hrecord : zone.records.get (trimEndMatches '.' q.name) with
  | some ip =>
    rw [hrecord] at h
    exact haddress rfl h _ _
  | none =>
    rw [hrecord] at h
    cases hservice : resolveService zone.domain q.name zone.services with
    | clusterIp text =>
      rw [hservice] at h
      cases hip : parseIpv4 text with
      | some ip =>
        simp only [hip] at h
        exact haddress (length_of_parseIpv4 hip) h _ _
      | none =>
        simp only [hip] at h
        cases h
    | externalName ext =>
      rw [hservice] at h
      cases hip : parseIpv4 ext with
      | some ip =>
        simp only [hip] at h
        exact haddress (length_of_parseIpv4 hip) h _ _
      | none =>
        simp only [hip] at h
        rcases hdata h with h | h
        · exact .inl h
        · exact .inr (.inr (.inr ⟨ext, h, rfl⟩))
    | none =>
      rw [hservice] at h
      cases hrd : q.rd with
      | true =>
        simp only [hrd] at h
        cases h
      | false =>
        simp only [hrd] at h
        exact .inr (.inl (Option.some.inj (Except.ok.inj h)).symm)

theorem handleQuery_eq_answered (h : handleQuery lower zone query = .answered reply) :
    ∃ q answer, parseQuery lower query = some q ∧ answerFor zone q = .ok (some answer) ∧
      reply = makeResponse q.id q.rd q.questionBytes (answer.answers q.name) answer.rcode := by
  rw [handleQuery] at h
  split at h
  · cases h
  · split at h
    · cases h
    · cases h
    · exact ⟨_, _, ‹_›, ‹_›, (QueryOutcome.answered.inj h).symm⟩

/-! ### The reply -/

theorem responseFlags_lt (rd : Bool) (rcode : Nat) : responseFlags rd rcode < 65536 := by
  have hcode : rcode &&& 0xF < 2 ^ 16 := Nat.lt_of_le_of_lt Nat.and_le_right (by decide)
  have hhigh : 0x8000 ||| (if rd then 0x0180 else 0x0100) < 2 ^ 16 := by cases rd <;> decide
  exact Nat.or_lt_two_pow hhigh hcode

theorem testBit_responseFlags (rd : Bool) (rcode : Nat) :
    (responseFlags rd rcode).testBit 15 = true ∧ (responseFlags rd rcode).testBit 8 = true := by
  have hhigh : (0x8000 ||| (if rd then 0x0180 else 0x0100)).testBit 15 = true ∧
      (0x8000 ||| (if rd then 0x0180 else 0x0100)).testBit 8 = true := by cases rd <;> decide
  constructor
  · rw [responseFlags, Nat.testBit_or, hhigh.1, Bool.true_or]
  · rw [responseFlags, Nat.testBit_or, hhigh.2, Bool.true_or]

def header (id : Nat) (rd : Bool) (rcode ancount : Nat) : List UInt8 :=
  [id, responseFlags rd rcode, 1, ancount, 0, 0].flatMap be16

theorem length_header (id : Nat) (rd : Bool) (rcode ancount : Nat) :
    (header id rd rcode ancount).length = 12 :=
  length_flatMap_be16 _

theorem makeResponse_eq (id : Nat) (rd : Bool) (questionBytes : List UInt8) (answers : List (List UInt8))
    (rcode : Nat) : makeResponse id rd questionBytes answers rcode =
      header id rd rcode answers.length ++ (questionBytes ++ answers.flatten) := by
  simp only [makeResponse, header, flatMap_cons, flatMap_nil, append_assoc, append_nil]

theorem record_eq (name : String) (rtype : Nat) (rdata : List UInt8) :
    record name rtype rdata = encodeRecord (writtenLabels name) rtype 1 0 30 rdata := by
  simp only [record, encodeRecord, encodeName_eq, flatMap_cons, flatMap_nil, append_assoc,
    nil_append]

theorem length_answers_le (name : String) (answer : LocalAnswer) : (answer.answers name).length ≤ 1 := by
  cases answer <;> simp [LocalAnswer.answers]

section Reply

variable {names : List String} {offset next : Nat} {name : List Label}

theorem Parsed.skipName_eq (hp : Parsed lower query q names offset)
    (hname : readName query 12 = some (name, next)) :
    skipName query nameFuel 12 = some offset :=
  skipName_of_parseLabels hp.labels (readName_eq_some.1 hname).1

theorem Parsed.length_writtenLabels (hp : Parsed lower query q names offset)
    (hname : readName query 12 = some (name, next)) :
    ∀ l ∈ writtenLabels q.name, 1 ≤ l.length ∧ l.length < 192 := by
  have hnames := length_le_of_parseLabels hp.labels (readName_eq_some.1 hname).1
  intro l hl
  refine ⟨one_le_of_mem_writtenLabels hl, ?_⟩
  obtain ⟨part, hpart, rfl⟩ := mem_map.1 hl
  have hmem := (mem_filter.1 hpart).1
  rw [hp.name] at hmem
  exact Nat.lt_of_le_of_lt (utf8_length_le_of_mem_splitChar hnames hmem) (by decide)

variable (hp : Parsed lower query q names offset) (hoffset : 12 ≤ offset)
  (hreply : reply = makeResponse q.id q.rd q.questionBytes (answer.answers q.name) answer.rcode)

include hp hoffset in
theorem Parsed.length_question (rcode ancount : Nat) :
    (header q.id q.rd rcode ancount ++ q.questionBytes).length = offset + 4 := by
  have := hp.offset_le
  rw [length_append, length_header, hp.questionBytes, length_take, length_drop]
  omega

include hp hoffset hreply in
theorem Parsed.getElem?_reply {k : Nat} (hk : 12 ≤ k) (hlt : k < offset + 4) : query[k]? = reply[k]? := by
  have hlen := hp.length_question hoffset answer.rcode (answer.answers q.name).length
  rw [length_append, length_header] at hlen
  rw [hreply, makeResponse_eq, getElem?_append_right (by rw [length_header]; exact hk), length_header,
    getElem?_append_left (by omega), hp.questionBytes, getElem?_take_of_lt (by omega),
    getElem?_drop]
  congr 1
  omega

include hp hreply in
theorem Parsed.readQuestion_eq (hname : readName query 12 = some (name, next))
    (hlabels : readLabels reply nameFuel 12 = some name) :
    12 ≤ offset ∧ ∃ question, question.name = name ∧ readQuestion query 12 = some (question, offset + 4) ∧
      readQuestion reply 12 = some (question, offset + 4) := by
  have hskip := hp.skipName_eq hname
  have hoffset : 12 ≤ offset := Nat.le_of_lt (skipName_bounds hskip).1
  have hsame {k : Nat} (hk : 12 ≤ k) (hlt : k < offset + 4) := hp.getElem?_reply hoffset hreply hk hlt
  obtain ⟨-, hnext, hshort⟩ := readName_eq_some.1 hname
  obtain rfl : offset = next := Option.some.inj (hskip.symm.trans hnext)
  have hname' : readName reply 12 = some (name, offset) :=
    readName_eq_some.2
      ⟨hlabels, skipName_congr (fun k hk hlt => hsame hk (Nat.lt_add_right 4 hlt)) hskip, hshort⟩
  have hnum {k : Nat} (hk : offset ≤ k) (hlt : k + 1 < offset + 4) : ∃ n, readU16 query k = some n := by
    have := hp.offset_le
    rw [readU16, getElem?_eq_getElem (by omega), getElem?_eq_getElem (by omega)]
    exact ⟨_, rfl⟩
  obtain ⟨qtype, hqtype⟩ := hnum (Nat.le_refl offset) (by omega)
  obtain ⟨qclass, hqclass⟩ := hnum (Nat.le_add_right offset 2) (by omega)
  have hqtype' : readU16 reply offset = some qtype := by
    rw [← readU16_congr (hsame hoffset (by omega)) (hsame (by omega) (by omega)), hqtype]
  have hqclass' : readU16 reply (offset + 2) = some qclass := by
    rw [← readU16_congr (hsame (by omega) (by omega)) (hsame (by omega) (by omega)), hqclass]
  refine ⟨hoffset, ⟨name, qtype, qclass⟩, rfl, ?_, ?_⟩
  · simp only [readQuestion, hname, hqtype, hqclass, Option.bind_eq_bind, Option.bind_some, Option.pure_def]
  · simp only [readQuestion, hname', hqtype', hqclass', Option.bind_eq_bind, Option.bind_some, Option.pure_def]

include hp hreply in
theorem Parsed.decode_eq :
    decode reply = (readQuestion reply 12).bind fun question =>
      (readMany (readRecord reply) (answer.answers q.name).length question.2).bind fun rs =>
        if rs.2 = reply.length then
          some ⟨q.id, responseFlags q.rd answer.rcode, [question.1], rs.1, [], []⟩
        else none := by
  have hns : ∀ n ∈ [q.id, responseFlags q.rd answer.rcode, 1, (answer.answers q.name).length, 0, 0],
      n < 65536 := by
    have hid := readU16_lt hp.id
    have hflags := responseFlags_lt q.rd answer.rcode
    have hlen := length_answers_le q.name answer
    intro n hn
    simp only [mem_cons, not_mem_nil, or_false] at hn
    omega
  rw [decode_header hns _ (hreply.trans (makeResponse_eq _ _ _ _ _)), readMany_one]
  cases readQuestion reply 12 <;> rfl

include hp hoffset hreply in
theorem Parsed.reply_eq (hanswer : answer.answers q.name = [record q.name rtype rdata]) :
    ∃ pre, pre.length = offset + 4 ∧
      reply = pre ++ (encodeRecord (writtenLabels q.name) rtype 1 0 30 rdata ++ []) := by
  refine ⟨_, hp.length_question hoffset answer.rcode (answer.answers q.name).length, ?_⟩
  rw [hreply, makeResponse_eq, hanswer, flatten_cons, flatten_nil, record_eq, append_assoc]

include hp hoffset hreply in
theorem Parsed.decode_of_nil (hq : readQuestion reply 12 = some (question, offset + 4))
    (hnil : answer.answers q.name = []) :
    decode reply = some ⟨q.id, responseFlags q.rd answer.rcode, [question], [], [], []⟩ := by
  have hlen : offset + 4 = reply.length := by
    rw [hreply, makeResponse_eq, hnil, flatten_nil, append_nil, hp.length_question hoffset]
  rw [hp.decode_eq hreply, hq, hnil]
  exact if_pos hlen

include hp hoffset hreply in
theorem Parsed.decode_of_record {data : Rdata} (hq : readQuestion reply 12 = some (question, offset + 4))
    (hone : answer.answers q.name = [record q.name rtype rdata]) (howner : ValidName (writtenLabels q.name))
    (htype : rtype < 65536) (hlen : rdata.length < 65536)
    (hdata : ∀ pre post, readRdata (pre ++ (rdata ++ post)) rtype pre.length rdata.length = some data) :
    decode reply = some ⟨q.id, responseFlags q.rd answer.rcode, [question],
      [⟨writtenLabels q.name, rtype, 1, 30, data⟩], [], []⟩ := by
  obtain ⟨pre, hpre, heq⟩ := hp.reply_eq hoffset hreply hone
  have hns : ∀ n ∈ [rtype, 1, 0, 30, rdata.length], n < 65536 := by
    intro n hn
    simp only [mem_cons, not_mem_nil, or_false] at hn
    omega
  have hread := readRecord_encode howner hns hdata pre []
  rw [← heq, hpre, Nat.zero_mul, Nat.zero_add] at hread
  have hend : offset + 4 + (encodeRecord (writtenLabels q.name) rtype 1 0 30 rdata).length = reply.length := by
    rw [heq, length_append, append_nil, hpre]
  rw [hp.decode_eq hreply, hq, bind_some, hone, length_singleton, readMany_one, hread,
    map_some, bind_some, if_pos hend]

end Reply

/-! ### Well-formed replies -/

section WellFormed

variable {names : List String} {offset : Nat} (hquery : parseQuery lower query = some q)
  (hanswer : answerFor zone q = .ok (some answer))
  (hreply : reply = makeResponse q.id q.rd q.questionBytes (answer.answers q.name) answer.rcode)

include hquery hanswer hreply

omit hquery hanswer hreply in
theorem Parsed.echoes (hp : Parsed lower query q names offset) (hrd : q.rd = true) {answers : List Record}
    (hq : readQuestion query 12 = some (question, offset + 4))
    (howner : ∀ r ∈ answers, SameName r.owner question.name)
    (htarget : ∀ r ∈ answers, ∀ target, r.rdata = .cname target → IsExternalName lower zone query target) :
    Echoes lower zone query ⟨q.id, responseFlags q.rd answer.rcode, [question], answers, [], []⟩ where
  id := hp.id
  qr := (testBit_responseFlags q.rd answer.rcode).1
  rd := by rw [hp.rd, hrd, Message.rd, (testBit_responseFlags true answer.rcode).2]
  question := by rw [hq, map_some]
  owner := by
    intro r hr question' hquestion'
    rw [mem_singleton.1 hquestion']
    exact howner r hr
  target := htarget

theorem wellFormed_of_answerable (h : Answerable query reply q answer) :
    WellFormedReply lower zone query reply := by
  obtain ⟨names, offset, hp⟩ := parsed_of_parseQuery hquery
  obtain ⟨name, next, hname, hlabels, howner⟩ := h.name
  obtain ⟨hoffset, question, rfl, hq, hq'⟩ := hp.readQuestion_eq hreply hname hlabels
  -- A record has the name of the question as its owner; its data are read back by `hdata`.
  have hrecord {rtype : Nat} {rdata : List UInt8} (data : Rdata)
      (hone : answer.answers q.name = [record q.name rtype rdata]) (htype : rtype < 65536)
      (hlen : rdata.length < 65536)
      (hdata : ∀ pre post, readRdata (pre ++ (rdata ++ post)) rtype pre.length rdata.length = some data)
      (htarget : ∀ target, data = .cname target → IsExternalName lower zone query target) :
      WellFormedReply lower zone query reply := by
    have hsame := howner (by rw [hone]; exact cons_ne_nil _ _)
    have hvalid := (validName_of_readName hname).of_sameName hsame
    refine ⟨_, hp.decode_of_record hoffset hreply hq' hone hvalid htype hlen hdata, hp.echoes h.rd hq ?_ ?_⟩
    · intro r hr
      rw [mem_singleton.1 hr]
      exact hsame
    · intro r hr
      rw [mem_singleton.1 hr]
      exact htarget
  have hnone (hnil : answer.answers q.name = []) : WellFormedReply lower zone query reply :=
    ⟨_, hp.decode_of_nil hoffset hreply hq' hnil,
      hp.echoes h.rd hq (fun r hr => absurd hr not_mem_nil) (fun r hr => absurd hr not_mem_nil)⟩
  rcases answerFor_cases hanswer with rfl | rfl | ⟨ip, rfl, hip⟩ | ⟨ext, rfl, hext⟩
  · exact hnone rfl
  · exact hnone rfl
  · refine hrecord (.a ip) rfl (by decide) (by rw [hip]; decide) (readRdata_a hip) ?_
    intro target htarget
    cases htarget
  · have htarget := h.target ext rfl
    have hwritten : encodeName ext = encodeLabels (nameLabels ext) := by
      rw [encodeName_eq, writtenLabels_of_valid htarget]
    have hlen : (encodeName ext).length < 65536 := by
      have := htarget.short
      rw [hwritten, length_encodeLabels]
      omega
    refine hrecord (.cname (nameLabels ext)) rfl (by decide) hlen ?_ ?_
    · rw [hwritten]
      exact readRdata_cname htarget
    · intro target heq
      exact ⟨q, ext, hquery, hext, (Rdata.cname.inj heq).symm⟩

theorem answerable_of_wellFormed (h : WellFormedReply lower zone query reply) :
    Answerable query reply q answer := by
  obtain ⟨names, offset, hp⟩ := parsed_of_parseQuery hquery
  obtain ⟨msg, hdecode, hecho⟩ := h
  rw [hp.decode_eq hreply] at hdecode
  obtain ⟨⟨question, i⟩, hq', hdecode⟩ := bind_eq_some_iff.1 hdecode
  obtain ⟨⟨rs, e⟩, hrs, hdecode⟩ := bind_eq_some_iff.1 hdecode
  split_ifs at hdecode
  cases hdecode
  obtain ⟨⟨question', next⟩, hq, hquestion⟩ := map_eq_some_iff.1 hecho.question
  obtain rfl : question' = question := head_eq_of_cons_eq hquestion
  obtain ⟨e₁, hname, -⟩ := readQuestion_eq_some hq
  obtain ⟨e₂, hname', -⟩ := readQuestion_eq_some hq'
  have hlabels := (readName_eq_some.1 hname').1
  obtain ⟨hoffset, question, -, -, hend⟩ := hp.readQuestion_eq hreply hname hlabels
  obtain ⟨rfl, rfl⟩ := Prod.mk.inj (Option.some.inj (hq'.symm.trans hend))
  have hrecord {rtype : Nat} {rdata : List UInt8} (hone : answer.answers q.name = [record q.name rtype rdata])
      (htype : rtype < 65536) :
      ∃ r ∈ rs, r.owner = writtenLabels q.name ∧
        ∃ msg i length, readRdata msg rtype i length = some r.rdata := by
    obtain ⟨pre, hpre, heq⟩ := hp.reply_eq hoffset hreply hone
    rw [hone, length_singleton, readMany_one] at hrs
    obtain ⟨⟨r, next⟩, hr, hsplit⟩ := map_eq_some_iff.1 hrs
    obtain ⟨rfl, -⟩ := Prod.mk.inj hsplit
    simp only at hr
    rw [← hpre, heq] at hr
    obtain ⟨howner, -, hdata⟩ := readRecord_encode_eq_some (hp.length_writtenLabels hname) htype hr
    exact ⟨r, mem_singleton.2 rfl, howner, hdata⟩
  have hsame {rtype : Nat} {rdata : List UInt8} (hone : answer.answers q.name = [record q.name rtype rdata])
      (htype : rtype < 65536) : SameName (writtenLabels q.name) question'.name := by
    obtain ⟨r, hr, howner, -⟩ := hrecord hone htype
    rw [← howner]
    exact hecho.owner r hr question' (mem_singleton.2 rfl)
  refine ⟨?_, ⟨question'.name, e₁, hname, hlabels, fun hne => ?_⟩, ?_⟩
  · have hrd := hecho.rd
    rw [hp.rd, Message.rd, (testBit_responseFlags q.rd answer.rcode).2] at hrd
    exact Option.some.inj hrd
  · cases answer with
    | address ip | cname ext => exact hsame rfl (by decide)
    | noData => exact absurd rfl hne
    | nxdomain => exact absurd rfl hne
  · rintro ext rfl
    obtain ⟨r, hr, -, msg, i, length, hdata⟩ := hrecord rfl (by decide)
    obtain ⟨target, htarget, hvalid⟩ := cname_of_readRdata hdata
    obtain ⟨q', ext', hq', hext', rfl⟩ := hecho.target r hr target htarget
    obtain rfl : q = q' := Option.some.inj (hquery.symm.trans hq')
    rcases answerFor_cases hanswer with hother | hother | ⟨ip, hother, -⟩ | ⟨ext'', hother, hext⟩
    · cases hother
    · cases hother
    · cases hother
    · obtain rfl := LocalAnswer.cname.inj hother
      rw [hext] at hext'
      obtain rfl := ServiceResolution.externalName.inj hext'
      exact hvalid

end WellFormed

theorem length_utf8EncodeChar_toLower (c : Char) :
    (String.utf8EncodeChar c.toLower).length = (String.utf8EncodeChar c).length := by
  by_cases hupper : 65 ≤ c.toNat ∧ c.toNat ≤ 90
  · have hlower : ∀ n < 91, (Char.ofNat n).toLower.toNat < 128 := by decide +kernel
    have hc := hlower c.toNat (by omega)
    rw [Char.ofNat_toNat] at hc
    rw [utf8EncodeChar_of_ascii hc, utf8EncodeChar_of_ascii (by omega), length_singleton,
      length_singleton]
  · have hc : c.toLower = c := by
      unfold Char.toLower
      refine dif_neg fun h => hupper ?_
      simp only [UInt32.le_iff_toNat_le, ge_iff_le] at h
      exact h
    rw [hc]

theorem length_utf8_map_toLower (s : String) :
    (utf8 (String.ofList (s.toList.map Char.toLower))).length ≤ 3 * (utf8 s).length := by
  have hlen : (utf8 (String.ofList (s.toList.map Char.toLower))).length = (utf8 s).length := by
    rw [utf8, utf8, String.toList_ofList, flatMap_map, length_flatMap, length_flatMap]
    simp only [length_utf8EncodeChar_toLower]
  omega

/-- The ASCII letters in lower case, and all other characters as they are. -/
def Lowercase.ascii : Lowercase := ⟨fun s => String.ofList (s.toList.map Char.toLower), length_utf8_map_toLower⟩

private def mailService : Service :=
  { metadata := { name := some "mail", inNamespace := some "shop" }
    spec := some { type := some "ExternalName", externalName := some "mx.example.com" } }

private def mailZone : Zone :=
  { domain := "cluster.local", records := ∅, services := [.new (.service mailService)] }

private def mailQuery (flags : UInt8) : List UInt8 :=
  [0x12, 0x34, flags, 0, 0, 1, 0, 0, 0, 0, 0, 0] ++ encodeName "Mail.shop" ++ be16 1 ++ be16 1

private def mailQuestion : Query :=
  { id := 0x1234, rd := true, name := "mail.shop", qtype := 1
    questionBytes := encodeName "Mail.shop" ++ be16 1 ++ be16 1 }

private def mailReply (rd : Bool) : List UInt8 :=
  makeResponse 0x1234 rd (encodeName "Mail.shop" ++ be16 1 ++ be16 1) [cnameRecord "mail.shop" "mx.example.com"] 0

end Z8s.Netmux
