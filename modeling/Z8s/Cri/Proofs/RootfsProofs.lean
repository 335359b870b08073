import Z8s.Cri.Rootfs
import Z8s.Files.Proofs.LexicalProofs
import Z8s.Rust.Proofs.Utf8Proofs

/-!
# Proofs: entering a root file system

The first malformed line ends the search for a subordinate range. The parent mount is chosen by the texts of the
paths.
-/

namespace Z8s.Cri

open Rust Collections Files Option List

/-! ### Subordinate ids -/

section Subid

variable {hostId : UInt32} {username : Option String}

/-- A fourth field would stand in the third part, which is no number then. -/
theorem scanSubids_cons (line : String) (rest : List String) :
    scanSubids hostId username (line :: rest) =
      if isIgnored (trim line) then scanSubids hostId username rest
      else (subidEntry line).bind fun e =>
        if idMatches hostId username e.1 then some e.2 else scanSubids hostId username rest := by
  rw [scanSubids, subidEntry]
  split_ifs with hignored
  · rfl
  generalize (2 ^ 64 - 1 : Nat) = max
  cases ha : splitOnce ':' (trim line) with
  | none =>
    rw [splitOnce_eq_none ha, splitn_of_none ha]
    rfl
  | some ab =>
    obtain ⟨a, b⟩ := ab
    rw [splitChar_of_splitOnce ha, splitn_of_some ha]
    cases hb : splitOnce ':' b with
    | none =>
      rw [splitOnce_eq_none hb, splitn_of_none hb]
      simp
    | some cd =>
      obtain ⟨c, d⟩ := cd
      rw [splitChar_of_splitOnce hb, splitn_of_some hb, splitn]
      cases hd : splitOnce ':' d with
      | none => simp [splitOnce_eq_none hd, bind_assoc]
      | some xy =>
        obtain ⟨x, y⟩ := xy
        obtain ⟨z, parts, hparts⟩ := exists_cons_of_ne_nil (splitChar_ne_nil ':' y)
        have hcolon : ':' ∈ d.toList := by simp [(splitOnce_eq_some hd).1]
        have hcount : parseUnsigned max d = none := by
          refine eq_none_iff_forall_not_mem.2 fun n hn => ?_
          have hdigit := mem_of_parseUnsigned hn hcolon
          exact absurd hdigit (by decide)
        simp [splitChar_of_splitOnce hd, hparts, hcount]

theorem scanSubids_append_empty (ls : List String) :
    scanSubids hostId username (ls ++ [""]) = scanSubids hostId username ls := by
  induction ls with
  | nil => rfl
  | cons line ls ih => rw [cons_append, scanSubids_cons, scanSubids_cons, ih]

theorem scanSubids_stripped (ls tail : List String) :
    scanSubids hostId username (ls.map (fun line => (stripSuffix line "\r").getD line) ++ tail) =
      scanSubids hostId username (ls ++ tail) := by
  induction ls with
  | nil => rfl
  | cons line ls ih =>
    rw [map_cons, cons_append, cons_append, scanSubids_cons, scanSubids_cons, ih, subidEntry, subidEntry,
      trim_stripSuffix]

theorem scanSubids_lines (text : String) :
    scanSubids hostId username (lines text) = scanSubids hostId username (splitChar '\n' text) := by
  obtain ⟨init, last, hparts⟩ := (eq_nil_or_concat' (splitChar '\n' text)).resolve_left (splitChar_ne_nil _ _)
  rw [lines, hparts, dropLast_concat, getLast?_concat, scanSubids_stripped]
  by_cases hlast : last = ""
  · subst hlast
    rw [scanSubids_append_empty]
    simp
  · simp [hlast]

theorem subidEntry_of_ignored {line : String} (h : isIgnored (trim line) = true) : subidEntry line = none := if_pos h

/-- The induction is on the lines. Only a line that is neither ignored nor well-formed ends the search early, which does
no harm if there is no line for the user after it. -/
theorem scanSubids_eq_findSome_iff (ls : List String) :
    scanSubids hostId username ls = ls.findSome? (entryFor hostId username) ↔
      ((∃ line ∈ ls, (entryFor hostId username line).isSome = true) →
        ∀ line ∈ ls.takeWhile fun line => (entryFor hostId username line).isNone,
          isIgnored (trim line) = true ∨ (subidEntry line).isSome = true) := by
  induction ls with
  | nil => simp [scanSubids]
  | cons line ls ih =>
    rw [scanSubids_cons, findSome?_cons, takeWhile_cons]
    by_cases hignored : isIgnored (trim line) = true
    · have hfor : entryFor hostId username line = none := by rw [entryFor, subidEntry_of_ignored hignored]; rfl
      simpa [hfor, hignored] using ih
    cases hentry : subidEntry line with
    | none =>
      -- the search ends here
      have hfor : entryFor hostId username line = none := by rw [entryFor, hentry]; rfl
      rw [if_neg hignored, bind_none, hfor, eq_comm]
      simp [hfor, hignored, hentry]
    | some e =>
      by_cases hid : idMatches hostId username e.1 = true
      · have hfor : entryFor hostId username line = some e.2 := by
          rw [entryFor, hentry, filter_some, if_pos hid, map_some]
        simp [hfor, hignored, hid]
      · have hfor : entryFor hostId username line = none := by
          rw [entryFor, hentry, filter_some, if_neg hid, map_none]
        simpa [hfor, hignored, hentry, hid] using ih

theorem byteEntryFor_utf8 (line : String) : byteEntryFor hostId username (utf8 line) = entryFor hostId username line := by
  rw [byteEntryFor, fromUtf8_utf8, bind_some]

end Subid

/-- A malformed line before the one for the user ends the search, and so does a byte of the file that is not UTF-8. -/
theorem subidFound_iff (hostId : UInt32) (username : Option String) (content : List UInt8) :
    SubidFound hostId username content ↔ SubidsReadable hostId username content := by
  rw [SubidFound, SubidsReadable, readSubid, bind_some]
  cases htext : fromUtf8 content with
  | none =>
    rw [bind_none, eq_comm, findSome?_eq_none_iff]
    simp
  | some text =>
    have hsplit : content.splitOn 10 = (splitChar '\n' text).map utf8 := by
      rw [← utf8_of_fromUtf8 htext]
      exact splitOn_utf8 (c := '\n') (by decide) text
    rw [bind_some, scanSubids_lines, hsplit, findSome?_map, takeWhile_map]
    have hfun : byteEntryFor hostId username ∘ utf8 = entryFor hostId username := by
      funext line
      rw [Function.comp_apply, byteEntryFor_utf8]
    rw [hfun, scanSubids_eq_findSome_iff]
    simp [byteEntryFor_utf8, fromUtf8_utf8, Function.comp_def]

/-- The second line is for the user, but the first one has no colon. -/
theorem broken_line_before : ¬ SubidFound 1000 none (utf8 "broken\n1000:100000:65536\n") := by
  decide +kernel

/-! ### The parent mount -/

theorem hasSharedTag_iff {text : String} :
    hasSharedTag text = true ↔ ∃ field ∈ (splitWhitespace text).drop 6, "shared:".toList <+: field.toList := by
  simp only [hasSharedTag, List.any_eq_true, startsWith_iff]

theorem isShared_iff (line : String) : isShared line = true ↔ SharedLine line := by
  rw [isShared, SharedLine]
  cases hbefore : before " - ".toList line.toList with
  | none =>
    have hno := before_eq_none_iff.1 hbefore
    constructor
    · intro h
      refine ⟨_, .inr ⟨hno, rfl⟩, ?_⟩
      rw [String.ofList_toList]
      exact hasSharedTag_iff.1 h
    · rintro ⟨head, hhead | ⟨-, rfl⟩, hfield⟩
      · exact absurd ((suffix_append _ _).isInfix.trans hhead.1.isInfix) hno
      · rw [String.ofList_toList] at hfield
        exact hasSharedTag_iff.2 hfield
  | some head =>
    have hhead := before_eq_some hbefore
    constructor
    · intro h
      exact ⟨head, .inl hhead, hasSharedTag_iff.1 h⟩
    · rintro ⟨head', hhead' | ⟨hno, -⟩, hfield⟩
      · rw [← hhead.unique hhead'] at hfield
        exact hasSharedTag_iff.2 hfield
      · exact absurd ((suffix_append _ _).isInfix.trans hhead.1.isInfix) hno

section Mounts

variable {rootfs : List UInt8} {mountinfo line line' mp : String}

/-- What the loop keeps of a line. -/
def kept (rootfs : List UInt8) (line : Option String) : BestMount :=
  line.elim {} fun line => ⟨mountPoint line, (textLength rootfs line).getD 0, isShared line⟩

theorem considerLine_kept (rootfs : List UInt8) (best : Option String) (line : String) :
    considerLine (fromUtf8Lossy rootfs) (kept rootfs best) line =
      kept rootfs (keepBest (textLength rootfs) best line) := by
  cases hmp : mountPoint line with
  | none => simp [considerLine, keepBest, textLength, hmp]
  | some mount =>
    by_cases hmatch : mountMatches (fromUtf8Lossy rootfs) (trimEndMatches '/' mount) = true
    · have hlen : textLength rootfs line = some (utf8 (trimEndMatches '/' mount)).length := by
        simp [textLength, hmp, filter_some, hmatch]
      have hle : (kept rootfs best).len ≤ (utf8 (trimEndMatches '/' mount)).length ↔
          (best.bind (textLength rootfs)).all (· ≤ (utf8 (trimEndMatches '/' mount)).length) = true := by
        cases best with
        | none => simp [kept]
        | some line' => cases hlen' : textLength rootfs line' <;> simp [kept, hlen']
      simp only [considerLine, hmp, keepBest, hlen, elim_some, hmatch, Bool.true_and, ge_iff_le, decide_eq_true_eq,
        hle]
      split_ifs
      · simp [kept, hmp, hlen]
      · rfl
    · have hlen : textLength rootfs line = none := by simp [textLength, hmp, filter_some, hmatch]
      simp [considerLine, keepBest, hmp, hlen, hmatch]

theorem bestMount_eq (rootfs : List UInt8) (mountinfo : String) :
    bestMount rootfs mountinfo = kept rootfs (lastMax (textLength rootfs) (lines mountinfo)) := by
  rw [bestMount, lastMax, ← foldl_hom (kept rootfs) (considerLine_kept rootfs)]
  rfl

theorem mount_eq_some_iff : (bestMount rootfs mountinfo).mount = some mp ↔
    ∃ line, LastMax (textLength rootfs) (lines mountinfo) line ∧ mountPoint line = some mp := by
  simp only [bestMount_eq, ← lastMax_eq_some_iff]
  cases lastMax (textLength rootfs) (lines mountinfo) <;> simp [kept]

theorem makeParentMountPrivate_eq_some_iff : makeParentMountPrivate rootfs mountinfo = some mp ↔
    ∃ line, LastMax (textLength rootfs) (lines mountinfo) line ∧ mountPoint line = some mp ∧ SharedLine line := by
  simp only [makeParentMountPrivate, bestMount_eq, ← lastMax_eq_some_iff, ← isShared_iff]
  cases lastMax (textLength rootfs) (lines mountinfo) with
  | none => simp [kept]
  | some line => by_cases hshared : isShared line = true <;> simp [kept, hshared]

theorem prefix_of_mountMatches {text : String} (h : mountMatches text mp = true) : utf8 mp <+: utf8 text := by
  rw [mountMatches] at h
  split_ifs at h with hempty
  · simp [hempty, utf8]
  · rcases Bool.or_eq_true_iff.1 h with h | h
    · rw [beq_iff_eq.1 h]
    · obtain ⟨rest, hrest⟩ := startsWith_iff.1 h
      have htext : text = mp ++ "/" ++ String.ofList rest := by
        rw [← String.ofList_toList (s := text), ← hrest, String.ofList_append, String.ofList_toList]
      rw [htext, utf8_append, utf8_append, append_assoc]
      exact prefix_append _ _

theorem textLength_eq_some {n : Nat} (h : textLength rootfs line = some n) : ∃ mount, mountPoint line = some mount ∧
    mountMatches (fromUtf8Lossy rootfs) (trimEndMatches '/' mount) = true ∧
      (utf8 (trimEndMatches '/' mount)).length = n := by
  simpa [textLength, filter_eq_some_iff, and_assoc] using h

/-- Of the prefixes of a text only one has a given length. -/
theorem parentDepth_eq_of_textLength {n : Nat} (h : textLength rootfs line = some n)
    (h' : textLength rootfs line' = some n) : parentDepth rootfs line = parentDepth rootfs line' := by
  obtain ⟨mount, hmount, hmatch, hlen⟩ := textLength_eq_some h
  obtain ⟨mount', hmount', hmatch', hlen'⟩ := textLength_eq_some h'
  have heq : trimEndMatches '/' mount = trimEndMatches '/' mount' := by
    have hpre := prefix_of_mountMatches hmatch
    have hpre' := prefix_of_mountMatches hmatch'
    have hle := prefix_of_prefix_length_le hpre hpre' (by omega)
    exact utf8_injective (hle.eq_of_length (by omega))
  have hne := ne_empty_of_mem_splitWhitespace (mem_of_getElem? hmount)
  have hne' := ne_empty_of_mem_splitWhitespace (mem_of_getElem? hmount')
  have hpath : Path.ofStr mount = Path.ofStr mount' := by
    rw [Path.ofStr_trimEndMatches hne, Path.ofStr_trimEndMatches hne', heq]
  simp only [parentDepth, hmount, hmount', filter_some, hpath]
  split_ifs <;> simp [hpath]

theorem exists_mountPoint_of_isParent (h : IsParent rootfs mountinfo line) : ∃ mp, mountPoint line = some mp := by
  obtain ⟨r, hr, -⟩ := h.exists_rank
  cases hmp : mountPoint line with
  | none => simp [parentDepth, hmp] at hr
  | some mp => exact ⟨mp, rfl⟩

theorem textLength_congr (h : mountPoint line = mountPoint line') : textLength rootfs line = textLength rootfs line' := by
  rw [textLength, textLength, h]

/-- Both choices are of the line with the longest text, and only one path has it. -/
theorem ParentInText.eq (h : ParentInText rootfs mountinfo) (hline : IsParent rootfs mountinfo line)
    (hline' : LastMax (textLength rootfs) (lines mountinfo) line') : line = line' := by
  obtain ⟨n, hn, hle⟩ := h.parent line hline
  obtain ⟨m, hm, hle'⟩ := hline'.exists_rank
  have hnm : n = m := Nat.le_antisymm (hle' line hline.mem n hn) (hle line' hline'.mem m hm)
  subst hnm
  exact hline.eq_of_ranks hline' (parentDepth_eq_of_textLength hm hn) (hn.trans hm.symm)

theorem ParentInText.lastMax_iff (h : ParentInText rootfs mountinfo) :
    LastMax (textLength rootfs) (lines mountinfo) line ↔ IsParent rootfs mountinfo line := by
  constructor
  · intro hline
    by_contra hnot
    have hnone : ∀ line', ¬ IsParent rootfs mountinfo line' := fun line' hline' => hnot (h.eq hline' hline ▸ hline')
    obtain ⟨n, hn, -⟩ := hline.exists_rank
    exact absurd (h.none hnone line hline.mem) (by simp [hn])
  · intro hline
    cases hbest : lastMax (textLength rootfs) (lines mountinfo) with
    | none =>
      obtain ⟨n, hn, -⟩ := h.parent line hline
      exact absurd (lastMax_eq_none_iff.1 hbest line hline.mem) (by simp [hn])
    | some line' =>
      have hline' := lastMax_eq_some_iff.1 hbest
      rwa [h.eq hline hline']

end Mounts

/-- Paths are compared by their texts, in which a slash may stand twice and `.` and `..` may stand between. -/
theorem parentChosen_iff (rootfs : List UInt8) (mountinfo : String) :
    ParentChosen rootfs mountinfo ↔ ParentInText rootfs mountinfo := by
  constructor
  · intro h
    refine ⟨fun line hline => ?_, fun hnone => ?_⟩
    · obtain ⟨mp, hmp⟩ := exists_mountPoint_of_isParent hline
      obtain ⟨line', hline', hmp'⟩ := mount_eq_some_iff.1 ((h.considered mp).2 ⟨line, hline, hmp⟩)
      rw [textLength_congr (hmp.trans hmp'.symm)]
      exact hline'.exists_rank
    · rw [← lastMax_eq_none_iff, eq_none_iff_forall_not_mem]
      intro line hline
      have hline := lastMax_eq_some_iff.1 hline
      obtain ⟨n, hn, -⟩ := hline.exists_rank
      obtain ⟨mp, hmp, -⟩ := textLength_eq_some hn
      obtain ⟨line', hline', -⟩ := (h.considered mp).1 (mount_eq_some_iff.2 ⟨line, hline, hmp⟩)
      exact hnone line' hline'
  · intro h
    constructor
    · intro mp
      simp only [mount_eq_some_iff, h.lastMax_iff]
    · intro mp
      simp only [makeParentMountPrivate_eq_some_iff, h.lastMax_iff]

/-- The root file system is on the second mount, which is shared. The first one is considered. -/
theorem doubled_slash_hides_parent : ¬ ParentChosen (utf8 "/data//z8s/rootfs")
    "1 0 8:1 / / rw - ext4 /dev/sda1 rw\n2 1 8:2 / /data/z8s rw shared:7 - ext4 /dev/sdb1 rw\n" := by
  intro h
  have hmount := (h.considered "/data/z8s").2 ⟨"2 1 8:2 / /data/z8s rw shared:7 - ext4 /dev/sdb1 rw",
    lastMax_eq_some_iff.1 (by decide +kernel), by decide +kernel⟩
  exact absurd hmount (by decide +kernel)

end Z8s.Cri
