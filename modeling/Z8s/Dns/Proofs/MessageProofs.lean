import Z8s.Dns.Message

/-!
# Proofs: DNS messages

Reading back what was written: labels and numbers in the middle of a message. What is read of a name
depends on the bytes that it takes only, unless it has a pointer.
-/

namespace Z8s.Dns

open List

variable {msg msg' pre post : List UInt8} {labels read : List Label} {fuel i e : Nat}
variable {data : Rdata} {next : Nat}

/-! ### Numbers -/

theorem getElem?_append_at (pre post : List UInt8) (k : Nat) : (pre ++ post)[pre.length + k]? = post[k]? := by
  rw [getElem?_append_right (Nat.le_add_right _ _), Nat.add_sub_cancel_left]

theorem readU16_be16 {n : Nat} (hn : n < 65536) (pre post : List UInt8) :
    readU16 (pre ++ (be16 n ++ post)) pre.length = some n := by
  have hhigh := getElem?_append_at pre (be16 n ++ post) 0
  have hlow := getElem?_append_at pre (be16 n ++ post) 1
  rw [Nat.add_zero] at hhigh
  simp only [be16, cons_append, getElem?_cons_zero, getElem?_cons_succ, nil_append]
    at hhigh hlow
  simp only [readU16, be16, cons_append, nil_append, hhigh, hlow, UInt8.toNat_ofNat', Option.some.injEq]
  omega

theorem length_flatMap_be16 (ns : List Nat) : (ns.flatMap be16).length = 2 * ns.length := by
  induction ns with
  | nil => rfl
  | cons n ns ih =>
    rw [flatMap_cons, length_append, ih, length_cons, be16]
    simp only [length_cons, length_nil]
    omega

theorem readU16_flatMap {ns : List Nat} (hns : ∀ n ∈ ns, n < 65536) (pre post : List UInt8) (k n : Nat)
    (hk : ns[k]? = some n) :
    readU16 (pre ++ (ns.flatMap be16 ++ post)) (pre.length + 2 * k) = some n := by
  obtain ⟨hlt, hget⟩ := List.getElem?_eq_some_iff.1 hk
  have hsplit : ns = ns.take k ++ n :: ns.drop (k + 1) := by
    conv_lhs => rw [← take_append_drop k ns, drop_eq_getElem_cons hlt, hget]
  have hlen : pre.length + 2 * k = (pre ++ (ns.take k).flatMap be16).length := by
    rw [length_append, length_flatMap_be16, length_take, Nat.min_eq_left (Nat.le_of_lt hlt)]
  have hflat : ns.flatMap be16 = (ns.take k).flatMap be16 ++ (be16 n ++ (ns.drop (k + 1)).flatMap be16) := by
    conv_lhs => rw [hsplit, flatMap_append, flatMap_cons]
  rw [hlen, hflat, append_assoc, append_assoc, ← append_assoc pre]
  exact readU16_be16 (hns n (mem_of_getElem? hk)) _ _

theorem readU16_lt {n : Nat} (h : readU16 msg i = some n) : n < 65536 := by
  rw [readU16] at h
  split at h
  · rename_i high low _ _
    have := high.toNat_lt
    have := low.toNat_lt
    have := Option.some.inj h
    omega
  · cases h

theorem readU16_congr (h0 : msg[i]? = msg'[i]?) (h1 : msg[i + 1]? = msg'[i + 1]?) :
    readU16 msg i = readU16 msg' i := by
  rw [readU16, readU16, h0, h1]

/-! ### Lengths -/

theorem wireLength_cons (l : Label) (labels : List Label) :
    wireLength (l :: labels) = l.length + 1 + wireLength labels := rfl

theorem encodeLabels_cons (l : Label) (labels : List Label) :
    encodeLabels (l :: labels) = encodeLabel l ++ encodeLabels labels := by
  simp [encodeLabels]

theorem length_encodeLabels (labels : List Label) : (encodeLabels labels).length = wireLength labels := by
  induction labels with
  | nil => rfl
  | cons l labels ih =>
    rw [encodeLabels_cons, length_append, ih, wireLength_cons, encodeLabel, length_cons]

theorem ValidName.length_lt (h : ValidName labels) : labels.length < nameFuel := by
  have hle : 2 * labels.length < wireLength labels := by
    have hlabels := h.label
    clear h
    induction labels with
    | nil => simp [wireLength]
    | cons l labels ih =>
      have hl := (hlabels l mem_cons_self).1
      have := ih fun l hl => hlabels l (mem_cons_of_mem _ hl)
      rw [wireLength_cons, length_cons]
      omega
  have := h.short
  unfold nameFuel
  omega

theorem ValidName.of_sameName {a b : List Label} (h : ValidName b) (hsame : SameName a b) : ValidName a := by
  have hlen : a.map List.length = b.map List.length := by
    have := congrArg (List.map List.length) hsame
    simpa only [map_map, Function.comp_def, length_map] using this
  constructor
  · intro l hl
    have hmem : l.length ∈ b.map List.length := hlen ▸ mem_map_of_mem hl
    obtain ⟨l', hl', heq⟩ := mem_map.1 hmem
    rw [ValidLabel, ← heq]
    exact h.label l' hl'
  · have hwire (labels : List Label) :
        wireLength labels = (labels.map List.length).foldr (fun k n => k + 1 + n) 1 := by
      rw [wireLength, foldr_map]
    rw [hwire, hlen, ← hwire]
    exact h.short

/-! ### Names that were written -/

section Label

variable {l : Label}

theorem getElem?_encodeLabel (l : Label) (pre post : List UInt8) :
    (pre ++ (encodeLabel l ++ post))[pre.length]? = some (UInt8.ofNat l.length) :=
  getElem?_append_at pre (encodeLabel l ++ post) 0

theorem toNat_length (h : l.length < 256) : (UInt8.ofNat l.length).toNat = l.length := by
  rw [UInt8.toNat_ofNat', Nat.mod_eq_of_lt h]

theorem length_append_encodeLabel (l : Label) (pre : List UInt8) :
    (pre ++ encodeLabel l).length = pre.length + 1 + l.length := by
  rw [length_append, encodeLabel, length_cons]
  omega

theorem take_drop_encodeLabel (l : Label) (pre post : List UInt8) :
    ((pre ++ (encodeLabel l ++ post)).drop (pre.length + 1)).take l.length = l := by
  rw [← drop_drop, drop_left, encodeLabel, cons_append, drop_succ_cons, drop_zero,
    take_left]

theorem le_length_encodeLabel (l : Label) (pre post : List UInt8) :
    pre.length + 1 + l.length ≤ (pre ++ (encodeLabel l ++ post)).length := by
  rw [← append_assoc, length_append, length_append_encodeLabel]
  omega

theorem readLabels_label (hl : ValidLabel l) (fuel : Nat) (pre post : List UInt8) :
    readLabels (pre ++ (encodeLabel l ++ post)) (fuel + 1) pre.length =
      (readLabels (pre ++ (encodeLabel l ++ post)) fuel (pre ++ encodeLabel l).length).map (l :: ·) := by
  have hbyte := toNat_length (Nat.lt_of_le_of_lt hl.2 (by decide))
  rw [readLabels, getElem?_encodeLabel]
  simp only [hbyte]
  rw [if_neg (by have := hl.1; omega), if_pos (by have := hl.2; omega), if_pos (le_length_encodeLabel l pre post),
    take_drop_encodeLabel, length_append_encodeLabel]

theorem readLabels_long (hlo : 63 < l.length) (hhi : l.length < 192) (fuel : Nat) (pre post : List UInt8) :
    readLabels (pre ++ (encodeLabel l ++ post)) fuel pre.length = none := by
  have hbyte := toNat_length (Nat.lt_trans hhi (by decide))
  cases fuel with
  | zero => rfl
  | succ fuel =>
    rw [readLabels, getElem?_encodeLabel]
    simp only [hbyte]
    rw [if_neg (by omega), if_neg (by omega), if_neg (by omega)]

theorem skipName_label (hl : ValidLabel l) (fuel : Nat) (pre post : List UInt8) :
    skipName (pre ++ (encodeLabel l ++ post)) (fuel + 1) pre.length =
      skipName (pre ++ (encodeLabel l ++ post)) fuel (pre ++ encodeLabel l).length := by
  have hbyte := toNat_length (Nat.lt_of_le_of_lt hl.2 (by decide))
  rw [skipName, getElem?_encodeLabel]
  simp only [hbyte]
  rw [if_neg (by have := hl.1; omega), if_pos (by have := hl.2; omega), if_pos (le_length_encodeLabel l pre post),
    length_append_encodeLabel]

end Label

theorem encodeLabels_cons_append (l : Label) (labels : List Label) (pre post : List UInt8) :
    pre ++ (encodeLabels (l :: labels) ++ post) = pre ++ (encodeLabel l ++ (encodeLabels labels ++ post)) ∧
      pre ++ (encodeLabels (l :: labels) ++ post) = (pre ++ encodeLabel l) ++ (encodeLabels labels ++ post) := by
  simp [encodeLabels_cons]

theorem read_encodeLabels (h : ∀ l ∈ labels, ValidLabel l) (hfuel : labels.length < fuel)
    (pre post : List UInt8) :
    readLabels (pre ++ (encodeLabels labels ++ post)) fuel pre.length = some labels ∧
      skipName (pre ++ (encodeLabels labels ++ post)) fuel pre.length = some (pre.length + wireLength labels) := by
  induction labels generalizing fuel pre with
  | nil =>
    obtain ⟨fuel, rfl⟩ := Nat.exists_eq_add_of_lt hfuel
    have hend : (pre ++ (encodeLabels [] ++ post))[pre.length]? = some 0 := getElem?_append_at pre _ 0
    rw [readLabels, skipName, hend]
    exact ⟨rfl, rfl⟩
  | cons l labels ih =>
    rw [length_cons] at hfuel
    obtain ⟨fuel, rfl⟩ : ∃ n, fuel = n + 1 := ⟨fuel - 1, by omega⟩
    obtain ⟨hmsg, hmsg'⟩ := encodeLabels_cons_append l labels pre post
    have hl := h l mem_cons_self
    obtain ⟨hread, hskip⟩ := ih (fun l hl => h l (mem_cons_of_mem _ hl)) (Nat.lt_of_succ_lt_succ hfuel)
      (pre ++ encodeLabel l)
    rw [hmsg, readLabels_label hl, skipName_label hl, ← hmsg, hmsg', hread, hskip, wireLength_cons,
      length_append_encodeLabel]
    exact ⟨rfl, congrArg some (by omega)⟩

theorem readName_encode (h : ValidName labels) (pre post : List UInt8) :
    readName (pre ++ (encodeLabels labels ++ post)) pre.length =
      some (labels, pre.length + wireLength labels) := by
  obtain ⟨hread, hskip⟩ := read_encodeLabels h.label h.length_lt pre post
  rw [readName, hread, hskip]
  exact if_pos h.short

theorem eq_of_readLabels_encode (hlen : ∀ l ∈ labels, 1 ≤ l.length ∧ l.length < 192)
    (h : readLabels (pre ++ (encodeLabels labels ++ post)) fuel pre.length = some read) : read = labels := by
  induction labels generalizing fuel pre read with
  | nil =>
    cases fuel with
    | zero => cases h
    | succ fuel =>
      rw [readLabels, show (pre ++ (encodeLabels [] ++ post))[pre.length]? = some 0 from
        getElem?_append_at pre _ 0] at h
      exact (Option.some.inj h).symm
  | cons l labels ih =>
    obtain ⟨hmsg, hmsg'⟩ := encodeLabels_cons_append l labels pre post
    obtain ⟨hpos, hlt⟩ := hlen l mem_cons_self
    by_cases hvalid : l.length ≤ 63
    · cases fuel with
      | zero => cases h
      | succ fuel =>
        rw [hmsg, readLabels_label ⟨hpos, hvalid⟩, ← hmsg, hmsg'] at h
        obtain ⟨rest, hrest, rfl⟩ := Option.map_eq_some_iff.1 h
        rw [ih (fun l hl => hlen l (mem_cons_of_mem _ hl)) hrest]
    · rw [hmsg, readLabels_long (Nat.not_le.1 hvalid) hlt] at h
      cases h

/-! ### Names that are read -/

theorem readLabels_succ (h : readLabels msg (fuel + 1) i = some labels) :
    ∃ b, msg[i]? = some b ∧
      (b.toNat = 0 ∧ labels = [] ∨
        (1 ≤ b.toNat ∧ b.toNat ≤ 63 ∧ i + 1 + b.toNat ≤ msg.length ∧
          ∃ rest, readLabels msg fuel (i + 1 + b.toNat) = some rest ∧
            labels = (msg.drop (i + 1)).take b.toNat :: rest) ∨
        (192 ≤ b.toNat ∧ ∃ low, msg[i + 1]? = some low ∧
          readLabels msg fuel ((b.toNat - 192) * 256 + low.toNat) = some labels)) := by
  rw [readLabels] at h
  cases hb : msg[i]? with
  | none =>
    rw [hb] at h
    cases h
  | some b =>
    rw [hb] at h
    refine ⟨b, rfl, ?_⟩
    simp only at h
    split_ifs at h with hzero hlabel hlen hptr
    · exact .inl ⟨hzero, (Option.some.inj h).symm⟩
    · obtain ⟨rest, hrest, hlabels⟩ := Option.map_eq_some_iff.1 h
      exact .inr (.inl ⟨by omega, by omega, hlen, rest, hrest, hlabels.symm⟩)
    · obtain ⟨low, hlow, hrest⟩ := Option.bind_eq_some_iff.1 h
      exact .inr (.inr ⟨hptr, low, hlow, hrest⟩)

theorem validLabel_of_readLabels (h : readLabels msg fuel i = some labels) : ∀ l ∈ labels, ValidLabel l := by
  induction fuel generalizing i labels with
  | zero => cases h
  | succ fuel ih =>
    obtain ⟨b, -, ⟨-, rfl⟩ | ⟨hpos, hle, hlen, rest, hrest, rfl⟩ | ⟨-, low, -, hrest⟩⟩ := readLabels_succ h
    · exact fun l hl => absurd hl not_mem_nil
    · intro l hl
      rcases mem_cons.1 hl with rfl | hl
      · have hlength : ((msg.drop (i + 1)).take b.toNat).length = b.toNat := by
          rw [length_take, length_drop]
          omega
        rw [ValidLabel, hlength]
        exact ⟨hpos, hle⟩
      · exact ih hrest l hl
    · exact ih hrest

theorem readName_eq_some {labels : List Label} :
    readName msg i = some (labels, next) ↔
      readLabels msg nameFuel i = some labels ∧ skipName msg nameFuel i = some next ∧
        wireLength labels ≤ 255 := by
  rw [readName]
  cases readLabels msg nameFuel i with
  | none => simp
  | some labels' =>
    cases skipName msg nameFuel i with
    | none => simp
    | some next' =>
      by_cases hshort : wireLength labels' ≤ 255
      · simp only [hshort, if_true, Option.some.injEq, Prod.mk.injEq]
        constructor
        · rintro ⟨rfl, rfl⟩
          exact ⟨rfl, rfl, hshort⟩
        · rintro ⟨rfl, rfl, -⟩
          exact ⟨rfl, rfl⟩
      · simp only [hshort, if_false, reduceCtorEq, Option.some.injEq, false_iff]
        rintro ⟨rfl, -, h⟩
        exact hshort h

theorem validName_of_readName (h : readName msg i = some (labels, next)) : ValidName labels := by
  obtain ⟨hlabels, -, hshort⟩ := readName_eq_some.1 h
  exact ⟨validLabel_of_readLabels hlabels, hshort⟩

/-! ### Where a name ends -/

theorem skipName_succ (h : skipName msg (fuel + 1) i = some e) :
    ∃ b, msg[i]? = some b ∧
      (b.toNat = 0 ∧ e = i + 1 ∨
        (1 ≤ b.toNat ∧ b.toNat ≤ 63 ∧ skipName msg fuel (i + 1 + b.toNat) = some e) ∨
        (192 ≤ b.toNat ∧ i + 2 ≤ msg.length ∧ e = i + 2)) := by
  rw [skipName] at h
  cases hb : msg[i]? with
  | none =>
    rw [hb] at h
    cases h
  | some b =>
    rw [hb] at h
    refine ⟨b, rfl, ?_⟩
    simp only at h
    split_ifs at h with hzero hlabel hlen hptr hlen
    · exact .inl ⟨hzero, (Option.some.inj h).symm⟩
    · exact .inr (.inl ⟨by omega, by omega, h⟩)
    · exact .inr (.inr ⟨hptr, hlen, (Option.some.inj h).symm⟩)

theorem skipName_bounds (h : skipName msg fuel i = some e) : i < e ∧ e ≤ msg.length := by
  induction fuel generalizing i with
  | zero => cases h
  | succ fuel ih =>
    obtain ⟨b, hb, ⟨-, rfl⟩ | ⟨-, -, hrest⟩ | ⟨-, hlen, rfl⟩⟩ := skipName_succ h
    · exact ⟨Nat.lt_succ_self i, (List.getElem?_eq_some_iff.1 hb).1⟩
    · obtain ⟨hlt, hle⟩ := ih hrest
      exact ⟨by omega, hle⟩
    · exact ⟨by omega, hlen⟩

theorem skipName_congr (hmsg : ∀ k, i ≤ k → k < e → msg[k]? = msg'[k]?) (h : skipName msg fuel i = some e) :
    skipName msg' fuel i = some e := by
  have hlen' : e ≤ msg'.length := by
    obtain ⟨hlt, hle⟩ := skipName_bounds h
    have hlast := hmsg (e - 1) (by omega) (by omega)
    rw [getElem?_eq_getElem (by omega)] at hlast
    have := (List.getElem?_eq_some_iff.1 hlast.symm).1
    omega
  induction fuel generalizing i with
  | zero => cases h
  | succ fuel ih =>
    obtain ⟨hlt, -⟩ := skipName_bounds h
    obtain ⟨b, hb, hcases⟩ := skipName_succ h
    rw [skipName, ← hmsg i (Nat.le_refl i) hlt, hb]
    simp only
    rcases hcases with ⟨hzero, rfl⟩ | ⟨hpos, hle, hrest⟩ | ⟨hptr, -, rfl⟩
    · rw [if_pos hzero]
    · obtain ⟨hlt', -⟩ := skipName_bounds hrest
      rw [if_neg (by omega), if_pos (by omega), if_pos (by omega)]
      exact ih (fun k hk hke => hmsg k (by omega) hke) hrest
    · rw [if_neg (by omega), if_neg (by omega), if_pos hptr, if_pos hlen']

/-! ### Records -/

section Record

variable {owner target : List Label} {rtype rclass ttlHigh ttlLow next : Nat} {rdata : List UInt8} {r : Record}

theorem length_encodeRecord (owner : List Label) (rtype rclass ttlHigh ttlLow : Nat) (rdata : List UInt8) :
    (encodeRecord owner rtype rclass ttlHigh ttlLow rdata).length = wireLength owner + 10 + rdata.length := by
  rw [encodeRecord, length_append, length_append, length_flatMap_be16, length_encodeLabels]
  simp only [length_cons, length_nil]
  omega

theorem readRecord_encode (howner : ValidName owner)
    (hns : ∀ n ∈ [rtype, rclass, ttlHigh, ttlLow, rdata.length], n < 65536)
    (hdata : ∀ pre post, readRdata (pre ++ (rdata ++ post)) rtype pre.length rdata.length = some data)
    (pre post : List UInt8) :
    readRecord (pre ++ (encodeRecord owner rtype rclass ttlHigh ttlLow rdata ++ post)) pre.length =
      some (⟨owner, rtype, rclass, ttlHigh * 65536 + ttlLow, data⟩,
        pre.length + (encodeRecord owner rtype rclass ttlHigh ttlLow rdata).length) := by
  set msg := pre ++ (encodeRecord owner rtype rclass ttlHigh ttlLow rdata ++ post) with hmsg
  set nums := [rtype, rclass, ttlHigh, ttlLow, rdata.length].flatMap be16 with hnums
  have hname : readName msg pre.length = some (owner, pre.length + wireLength owner) := by
    rw [hmsg, encodeRecord, append_assoc]
    exact readName_encode howner _ _
  have hnum := readU16_flatMap hns (pre ++ encodeLabels owner) (rdata ++ post)
  have hsame : (pre ++ encodeLabels owner) ++ (nums ++ (rdata ++ post)) = msg := by
    rw [hmsg, encodeRecord]
    simp only [append_assoc, hnums]
  rw [← hnums, hsame, length_append, length_encodeLabels] at hnum
  have h0 : readU16 msg (pre.length + wireLength owner) = some rtype := hnum 0 _ rfl
  have h1 : readU16 msg (pre.length + wireLength owner + 2) = some rclass := hnum 1 _ rfl
  have h2 : readU16 msg (pre.length + wireLength owner + 4) = some ttlHigh := hnum 2 _ rfl
  have h3 : readU16 msg (pre.length + wireLength owner + 6) = some ttlLow := hnum 3 _ rfl
  have h4 : readU16 msg (pre.length + wireLength owner + 8) = some rdata.length := hnum 4 _ rfl
  have hrdata : readRdata msg rtype (pre.length + wireLength owner + 10) rdata.length = some data := by
    have hread := hdata ((pre ++ encodeLabels owner) ++ nums) post
    rw [append_assoc, hsame, length_append, length_append, length_encodeLabels, hnums,
      length_flatMap_be16] at hread
    exact hread
  simp only [readRecord, hname, h0, h1, h2, h3, h4, hrdata, Option.bind_eq_bind, Option.bind_some,
    Option.pure_def]
  simp only [length_encodeRecord, Nat.add_assoc]

theorem readRecord_eq_some (h : readRecord msg i = some (r, next)) :
    ∃ e length, readName msg i = some (r.owner, e) ∧ readU16 msg e = some r.rtype ∧
      readRdata msg r.rtype (e + 10) length = some r.rdata := by
  rw [readRecord] at h
  obtain ⟨⟨owner, e⟩, hname, h⟩ := Option.bind_eq_some_iff.1 h
  obtain ⟨rtype, htype, h⟩ := Option.bind_eq_some_iff.1 h
  obtain ⟨rclass, -, h⟩ := Option.bind_eq_some_iff.1 h
  obtain ⟨ttlHigh, -, h⟩ := Option.bind_eq_some_iff.1 h
  obtain ⟨ttlLow, -, h⟩ := Option.bind_eq_some_iff.1 h
  obtain ⟨length, -, h⟩ := Option.bind_eq_some_iff.1 h
  obtain ⟨data, hdata, h⟩ := Option.bind_eq_some_iff.1 h
  obtain rfl : _ = r := congrArg Prod.fst (Option.some.inj h)
  exact ⟨e, length, hname, htype, hdata⟩

/-- The owner and the type that are read are those that were written, if anything is read at all: also where
a label or the data are too long. -/
theorem readRecord_encode_eq_some (hlen : ∀ l ∈ owner, 1 ≤ l.length ∧ l.length < 192) (htype : rtype < 65536)
    (h : readRecord (pre ++ (encodeRecord owner rtype rclass ttlHigh ttlLow rdata ++ post)) pre.length =
      some (r, next)) :
    r.owner = owner ∧ ValidName owner ∧
      ∃ msg i length, readRdata msg rtype i length = some r.rdata := by
  obtain ⟨e, length, hname, hrtype, hdata⟩ := readRecord_eq_some h
  rw [encodeRecord, append_assoc] at hname hrtype
  obtain ⟨hlabels, -⟩ := readName_eq_some.1 hname
  have howner := eq_of_readLabels_encode hlen hlabels
  have hvalid : ValidName owner := howner ▸ validName_of_readName hname
  rw [readName_encode hvalid] at hname
  obtain rfl : pre.length + wireLength owner = e := congrArg Prod.snd (Option.some.inj hname)
  have hmsg : pre ++ (encodeLabels owner ++
      ([rtype, rclass, ttlHigh, ttlLow, rdata.length].flatMap be16 ++ rdata ++ post)) =
        (pre ++ encodeLabels owner) ++
          (be16 rtype ++ ([rclass, ttlHigh, ttlLow, rdata.length].flatMap be16 ++ (rdata ++ post))) := by
    simp only [flatMap_cons, append_assoc]
  rw [hmsg, ← length_encodeLabels, ← length_append, readU16_be16 htype] at hrtype
  rw [← Option.some.inj hrtype] at hdata
  exact ⟨howner, hvalid, _, _, length, hdata⟩

theorem readRdata_a (hlen : rdata.length = 4) (pre post : List UInt8) :
    readRdata (pre ++ (rdata ++ post)) 1 pre.length rdata.length = some (.a rdata) := by
  rw [readRdata, if_pos (by rw [length_append, length_append]; omega), if_pos rfl, if_pos hlen,
    drop_left, ← hlen, take_left]

theorem readRdata_cname (htarget : ValidName target) (pre post : List UInt8) :
    readRdata (pre ++ (encodeLabels target ++ post)) 5 pre.length (encodeLabels target).length =
      some (.cname target) := by
  rw [readRdata, if_pos (by rw [length_append, length_append]; omega), if_neg (by decide), if_pos rfl,
    readName_encode htarget, length_encodeLabels]
  simp only [if_true]

theorem cname_of_readRdata {length : Nat} (h : readRdata msg 5 i length = some data) :
    ∃ target, data = .cname target ∧ ValidName target := by
  by_cases hlen : i + length ≤ msg.length
  · rw [readRdata, if_pos hlen, if_neg (by decide), if_pos rfl] at h
    cases hname : readName msg i with
    | none =>
      rw [hname] at h
      cases h
    | some named =>
      obtain ⟨target, next⟩ := named
      rw [hname] at h
      simp only at h
      split_ifs at h
      exact ⟨target, (Option.some.inj h).symm, validName_of_readName hname⟩
  · rw [readRdata, if_neg hlen] at h
    cases h

end Record

/-! ### Whole messages -/

theorem readQuestion_eq_some {question : Question} (h : readQuestion msg i = some (question, next)) :
    ∃ e, readName msg i = some (question.name, e) ∧ next = e + 4 := by
  rw [readQuestion] at h
  obtain ⟨⟨name, e⟩, hname, h⟩ := Option.bind_eq_some_iff.1 h
  obtain ⟨qtype, -, h⟩ := Option.bind_eq_some_iff.1 h
  obtain ⟨qclass, -, h⟩ := Option.bind_eq_some_iff.1 h
  cases h
  exact ⟨e, hname, rfl⟩

theorem readMany_one {α : Type} (read : Nat → Option (α × Nat)) (i : Nat) :
    readMany read 1 i = (read i).map fun r => ([r.1], r.2) := by
  cases h : read i <;> simp [readMany, h]

theorem decode_header {id flags qdcount ancount : Nat}
    (hns : ∀ n ∈ [id, flags, qdcount, ancount, 0, 0], n < 65536) (body : List UInt8)
    (hmsg : msg = [id, flags, qdcount, ancount, 0, 0].flatMap be16 ++ body) :
    decode msg = (readMany (readQuestion msg) qdcount 12).bind fun qs =>
      (readMany (readRecord msg) ancount qs.2).bind fun rs =>
        if rs.2 = msg.length then some ⟨id, flags, qs.1, rs.1, [], []⟩ else none := by
  have hnum := readU16_flatMap hns [] body
  rw [nil_append, ← hmsg] at hnum
  have h0 : readU16 msg 0 = some id := hnum 0 _ rfl
  have h1 : readU16 msg 2 = some flags := hnum 1 _ rfl
  have h2 : readU16 msg 4 = some qdcount := hnum 2 _ rfl
  have h3 : readU16 msg 6 = some ancount := hnum 3 _ rfl
  have h4 : readU16 msg 8 = some 0 := hnum 4 _ rfl
  have h5 : readU16 msg 10 = some 0 := hnum 5 _ rfl
  simp only [decode, h0, h1, h2, h3, h4, h5, Option.bind_eq_bind, Option.bind_some, readMany]

end Z8s.Dns
