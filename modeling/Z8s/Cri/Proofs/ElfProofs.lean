import Z8s.Cri.Elf
import Z8s.Rust.Proofs.Utf8Proofs

/-!
# Proofs: the interpreter of an ELF file

Where the end of the table fits, every sum of the loop does, so that the loop finds the first header of type
PT_INTERP. The sum of `p_offset` and `p_filesz` is left, which the file is free to choose.
-/

namespace Z8s.Cri

open Rust Api ElfHeader

variable {prof : Profile} {data : List UInt8} {h : ElfHeader}

theorem usizeAdd_of_lt (prof : Profile) {a b : Nat} (hfits : a + b < 2 ^ 64) : usizeAdd prof a b = .ok (a + b) :=
  if_pos hfits

/-! ### Numbers of the header -/

theorem fromLeBytes_lt (bytes : List UInt8) : fromLeBytes bytes < 256 ^ bytes.length := by
  induction bytes with
  | nil => decide
  | cons b bytes ih =>
    have hb := b.toNat_lt
    rw [fromLeBytes, List.length_cons, Nat.pow_succ]
    omega

theorem leAt_eq_some {start stop n : Nat} (hle : leAt data start stop = some n) :
    start ≤ stop ∧ stop ≤ data.length ∧ n < 256 ^ (stop - start) := by
  obtain ⟨bytes, hbytes, rfl⟩ := Option.map_eq_some_iff.1 hle
  unfold getRange at hbytes
  split_ifs at hbytes with hrange
  obtain ⟨hstart, hstop⟩ := hrange
  refine ⟨hstart, hstop, ?_⟩
  have hlt := fromLeBytes_lt bytes
  have hlength : bytes.length = stop - start := by
    rw [← Option.some.inj hbytes, List.length_drop, List.length_take, Nat.min_eq_left hstop]
  rwa [hlength] at hlt

theorem elfHeader_bounds (hh : elfHeader data = some h) :
    h.phentsize < 2 ^ 16 ∧ h.phnum < 2 ^ 16 ∧ (h.is64 = true ↔ data[4]? = some 2) := by
  unfold elfHeader at hh
  split_ifs at hh
  split at hh
  · rename_i hclass
    obtain ⟨phoff, -, hh⟩ := Option.bind_eq_some_iff.1 hh
    obtain ⟨phentsize, hsize, hh⟩ := Option.bind_eq_some_iff.1 hh
    obtain ⟨phnum, hnum, hh⟩ := Option.bind_eq_some_iff.1 hh
    cases hh
    exact ⟨(leAt_eq_some hsize).2.2, (leAt_eq_some hnum).2.2, iff_of_true rfl hclass⟩
  · rename_i hclass
    obtain ⟨phoff, -, hh⟩ := Option.bind_eq_some_iff.1 hh
    obtain ⟨phentsize, hsize, hh⟩ := Option.bind_eq_some_iff.1 hh
    obtain ⟨phnum, hnum, hh⟩ := Option.bind_eq_some_iff.1 hh
    cases hh
    refine ⟨(leAt_eq_some hsize).2.2, (leAt_eq_some hnum).2.2, iff_of_false Bool.false_ne_true ?_⟩
    rw [hclass]
    decide
  · cases hh

/-! ### The loop -/

theorem leFrom_eq (prof : Profile) (data : List UInt8) {off start stop : Nat} (hstart : start ≤ stop)
    (hstop : off + stop < 2 ^ 64) :
    leFrom prof data off start stop = .ok (leAt data (off + start) (off + stop)) := by
  rw [leFrom, usizeAdd_of_lt prof (by omega), usizeAdd_of_lt prof hstop]
  rfl

theorem fileRange_eq (prof : Profile) (data : List UInt8) (h : ElfHeader) {i : Nat}
    (hfits : h.offsetOf i + 40 < 2 ^ 64) : fileRange prof data h.is64 (h.offsetOf i) = .ok (h.segmentOf data i) := by
  unfold fileRange segmentOf
  rw [leFrom_eq prof data (by decide) (by omega), leFrom_eq prof data (by decide) (by omega),
    leFrom_eq prof data (by decide) (by omega), leFrom_eq prof data (by decide) (by omega)]
  cases h.is64 with
  | false => cases hoffset : leAt data (h.offsetOf i + 4) (h.offsetOf i + 8) <;> simp [hoffset] <;> rfl
  | true => cases hoffset : leAt data (h.offsetOf i + 8) (h.offsetOf i + 16) <;> simp [hoffset] <;> rfl

theorem scanHeaders_eq (prof : Profile) (hdata : data.length < 2 ^ 63) (hsize : 8 ≤ h.phentsize) {todo i : Nat}
    (htable : h.offsetOf (i + todo) ≤ data.length) :
    scanHeaders prof data h todo i =
      (((List.range' i todo).find? (h.isInterp data)).bind (h.segmentOf data)).elim (.ok none)
        fun segment => interpreterText prof data segment.1 segment.2 := by
  induction todo generalizing i with
  | zero => rfl
  | succ todo ih =>
    have hnext : h.offsetOf (i + 1) = h.offsetOf i + h.phentsize := by
      rw [offsetOf, offsetOf, Nat.succ_mul, Nat.add_assoc]
    have hrest : h.offsetOf (i + 1) ≤ h.offsetOf (i + (todo + 1)) :=
      Nat.add_le_add_left (Nat.mul_le_mul_right _ (by omega)) _
    have htype : ∃ ptype, leAt data (h.offsetOf i + 0) (h.offsetOf i + 4) = some ptype := by
      rw [leAt, getRange, if_pos ⟨by omega, by omega⟩]
      exact ⟨_, rfl⟩
    obtain ⟨ptype, htype⟩ := htype
    have hinterp : h.isInterp data i = (ptype == 3) := by
      rw [isInterp, show h.offsetOf i = h.offsetOf i + 0 from rfl, htype]
      rfl
    have hoff : h.phoff + i * h.phentsize = h.offsetOf i := rfl
    rw [scanHeaders, usizeAdd_of_lt prof (by omega), hoff]
    show (leFrom prof data (h.offsetOf i) 0 4 >>= _) = _
    rw [leFrom_eq prof data (by decide) (by omega), htype, List.range'_succ, List.find?_cons, hinterp]
    show (if ptype ≠ 3 then _ else _) = _
    by_cases hptype : ptype = 3
    · rw [if_neg (not_not_intro hptype), fileRange_eq prof data h (by omega), beq_iff_eq.2 hptype]
      show _ = ((some i).bind (h.segmentOf data)).elim _ _
      rw [Option.bind_some]
      cases h.segmentOf data i <;> rfl
    · rw [if_pos hptype, ih (by rw [Nat.add_right_comm]; exact htable), beq_eq_false_iff_ne.2 hptype]

/-! ### The text -/

theorem take_position (bytes : List UInt8) :
    bytes.take ((bytes.findIdx? (· == 0)).getD bytes.length) = bytes.takeWhile (· != 0) := by
  rw [← List.findIdx_eq_getD_findIdx?, List.takeWhile_eq_take_findIdx_not]
  simp [bne]

theorem interpreterText_eq (prof : Profile) {segment : Nat × Nat}
    (hfits : segment.2 ≠ 0 → segment.1 + segment.2 < 2 ^ 64) :
    interpreterText prof data segment.1 segment.2 =
      .ok (if segment.2 = 0 ∨ segment.1 + segment.2 > data.length then none
        else some (fromUtf8Lossy (textBytes data segment))) := by
  unfold interpreterText
  by_cases hzero : segment.2 = 0
  · rw [if_pos hzero, if_pos (.inl hzero)]
    rfl
  rw [if_neg hzero, usizeAdd_of_lt prof (hfits hzero)]
  show (if segment.1 + segment.2 > data.length then _ else _) = _
  by_cases hlong : segment.1 + segment.2 > data.length
  · rw [if_pos hlong, if_pos (.inr hlong)]
    rfl
  rw [if_neg hlong, if_neg (by simp [hzero, hlong]), slice, if_pos ⟨by omega, by omega⟩]
  show Except.ok (some _) = _
  rw [take_position, List.drop_take, Nat.add_sub_cancel_left]
  rfl

theorem interpreterText_overflow {segment : Nat × Nat} (hzero : segment.2 ≠ 0)
    (hover : ¬ segment.1 + segment.2 < 2 ^ 64) :
    interpreterText ⟨true⟩ data segment.1 segment.2 = .error .overflow := by
  rw [interpreterText, if_neg hzero, usizeAdd, if_neg hover]
  rfl

/-! ### The file -/

theorem utf8_fromUtf8Lossy_eq_iff {bytes : List UInt8} :
    utf8 (fromUtf8Lossy bytes) = bytes ↔ (fromUtf8 bytes).isSome = true := by
  unfold fromUtf8
  split_ifs with hsame
  · exact iff_of_true hsame rfl
  · exact iff_of_false hsame Bool.false_ne_true

theorem readElfInterpreter_eq (prof : Profile) (hdata : data.length < 2 ^ 63) (hh : elfHeader data = some h)
    (htable : 8 ≤ h.phentsize → h.tableEnd < 2 ^ 64) :
    readElfInterpreter prof data = if h.phentsize < 8 ∨ h.tableEnd > data.length then .ok none
      else (h.interpSegment data).elim (.ok none) fun segment => interpreterText prof data segment.1 segment.2 := by
  rw [readElfInterpreter, hh]
  show (if h.phentsize < 8 then _ else _) = _
  by_cases hsize : h.phentsize < 8
  · rw [if_pos hsize, if_pos (.inl hsize)]
    rfl
  replace htable := htable (Nat.not_lt.1 hsize)
  have hmin : min (h.phnum * h.phentsize) (2 ^ 64 - 1) = h.phnum * h.phentsize := by
    unfold tableEnd at htable
    omega
  rw [if_neg hsize, hmin, usizeAdd_of_lt prof htable]
  show (if h.tableEnd > data.length then _ else _) = _
  by_cases hlong : h.tableEnd > data.length
  · rw [if_pos hlong, if_pos (.inr hlong)]
    rfl
  have hin : h.offsetOf (0 + h.phnum) ≤ data.length := by
    rw [Nat.zero_add]
    exact Nat.not_lt.1 hlong
  rw [if_neg hlong, if_neg (by simp [hsize, hlong]), interpSegment, List.range_eq_range']
  exact scanHeaders_eq prof hdata (Nat.not_lt.1 hsize) hin

theorem tableEnd_lt_of_returns (hh : elfHeader data = some h) (hsize : 8 ≤ h.phentsize) {r : Option String}
    (hreturns : readElfInterpreter ⟨true⟩ data = .ok r) : h.tableEnd < 2 ^ 64 := by
  obtain ⟨hentsize, hnum, -⟩ := elfHeader_bounds hh
  have hproduct : h.phnum * h.phentsize < 2 ^ 16 * 2 ^ 16 := Nat.mul_lt_mul'' hnum hentsize
  have hmin : min (h.phnum * h.phentsize) (2 ^ 64 - 1) = h.phnum * h.phentsize := by omega
  by_contra hover
  unfold tableEnd at hover
  rw [readElfInterpreter, hh] at hreturns
  change (if h.phentsize < 8 then _ else _) = _ at hreturns
  rw [if_neg (Nat.not_lt.2 hsize), hmin, usizeAdd, if_neg hover] at hreturns
  cases hreturns

theorem elfFits_of_readSafely (hdata : data.length < 2 ^ 63) (hsafe : ElfReadSafely data) : ElfFits data := by
  intro h hh hsize
  obtain ⟨r, hr⟩ := hsafe.returns ⟨true⟩
  have htable := tableEnd_lt_of_returns hh hsize hr
  refine ⟨htable, fun hin segment hsegment hzero => ?_⟩
  have hread : readElfInterpreter ⟨true⟩ data = interpreterText ⟨true⟩ data segment.1 segment.2 := by
    rw [readElfInterpreter_eq _ hdata hh fun _ => htable, if_neg (by omega), Option.mem_def.1 hsegment]
    rfl
  have hfits : segment.1 + segment.2 < 2 ^ 64 := by
    by_contra hover
    rw [hread, interpreterText_overflow hzero hover] at hr
    cases hr
  refine ⟨hfits, fun hinside his64 hle => ?_⟩
  rw [interpreterText_eq _ fun _ => hfits, if_neg (by omega)] at hread
  obtain ⟨h', hh', segment', hsegment', hutf8⟩ := hsafe.text _ _ hread ((elfHeader_bounds hh).2.2.1 his64) hle
  cases Option.mem_unique hh hh'
  cases Option.mem_unique hsegment hsegment'
  exact utf8_fromUtf8Lossy_eq_iff.1 hutf8

theorem readSafely_of_elfFits (hdata : data.length < 2 ^ 63) (hfits : ElfFits data) : ElfReadSafely data := by
  have hnone (hread : ∀ prof, readElfInterpreter prof data = .ok none) : ElfReadSafely data :=
    ⟨fun prof => ⟨none, hread prof⟩, fun prof s hs => by rw [hread] at hs; cases hs⟩
  cases hh : elfHeader data with
  | none => exact hnone fun prof => by rw [readElfInterpreter, hh]; rfl
  | some h =>
    have hread (prof : Profile) := readElfInterpreter_eq prof hdata hh fun hsize => (hfits h hh hsize).1
    by_cases hskip : h.phentsize < 8 ∨ h.tableEnd > data.length
    · exact hnone fun prof => by rw [hread, if_pos hskip]
    obtain ⟨hsize, hin⟩ := not_or.1 hskip
    cases hsegment : h.interpSegment data with
    | none => exact hnone fun prof => by rw [hread, if_neg hskip, hsegment]; rfl
    | some segment =>
      have hsegments := (hfits h hh (Nat.not_lt.1 hsize)).2 (Nat.not_lt.1 hin) segment hsegment
      have htext (prof : Profile) : readElfInterpreter prof data =
          .ok (if segment.2 = 0 ∨ segment.1 + segment.2 > data.length then none
            else some (fromUtf8Lossy (textBytes data segment))) := by
        rw [hread, if_neg hskip, hsegment]
        exact interpreterText_eq prof fun hzero => (hsegments hzero).1
      refine ⟨fun prof => ⟨_, htext prof⟩, fun prof s hs his64 hle => ⟨h, hh, segment, hsegment, ?_⟩⟩
      rw [htext] at hs
      split_ifs at hs with hempty
      · cases hs
      · obtain ⟨hzero, hinside⟩ := not_or.1 hempty
        cases hs
        exact utf8_fromUtf8Lossy_eq_iff.2
          ((hsegments hzero).2 (Nat.not_lt.1 hinside) ((elfHeader_bounds hh).2.2.2 his64) hle)

/-- A file is read safely, and its interpreter is read as it stands there, exactly if the sums fit and the text is
UTF-8. -/
theorem elfReadSafely_iff (file : FileContent) : ElfReadSafely file.bytes ↔ ElfFits file.bytes :=
  ⟨elfFits_of_readSafely file.short, readSafely_of_elfFits file.short⟩

private def wrappingFile : FileContent where
  bytes := [0x7f, 0x45, 0x4c, 0x46, 2, 1] ++ List.replicate 26 0 ++ [64] ++ List.replicate 21 0 ++ [56, 0, 1] ++
    List.replicate 7 0 ++ [3] ++ List.replicate 7 0 ++ List.replicate 8 0xff ++ List.replicate 16 0 ++ [2] ++
    List.replicate 23 0
  short := by decide

/-- The offset of the segment is the largest number of 64 bits, and its size is 2: without overflow checks the slice
ends before it begins. -/
theorem wrapping_segment_panics : ¬ ElfReadSafely wrappingFile.bytes := by
  intro hsafe
  obtain ⟨r, hr⟩ := hsafe.returns ⟨false⟩
  have hslice : readElfInterpreter ⟨false⟩ wrappingFile.bytes = .error .slice := by decide +kernel
  rw [hslice] at hr
  cases hr

end Z8s.Cri
