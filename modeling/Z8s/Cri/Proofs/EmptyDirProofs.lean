import Z8s.Cri.Volumes
import Z8s.Files.Proofs.LexicalProofs
import Z8s.Rust.Proofs.StrProofs

/-!
# Proofs: directories of emptyDir volumes

Every directory of a pod is meant to be an entry of `emptydir` that begins with the mark of the pod.
-/

namespace Z8s.Cri

open Rust Files Z8s.Types List

variable {base : String} {p q : PodName} {v w : String} {location : List Name}
variable {entry name : Name}

/-! ### Marks -/

theorem notMem_of_nameChars {s : String} (h : s.toList.all isNameChar = true) {c : Char}
    (hc : isNameChar c = false) : c ∉ s.toList := by
  intro hmem
  rw [all_eq_true.1 h c hmem] at hc
  cases hc

/-- The byte of `_`. -/
theorem underscore_notMem_utf8 {s : String} (h : s.toList.all isNameChar = true) : 95 ∉ utf8 s := by
  intro hmem
  exact notMem_of_nameChars h (by decide) ((ascii_mem_utf8_iff (c := '_') (by decide)).1 hmem)

theorem safeUid_uid (p : PodName) : safeUid p.uid = "Pod_" ++ (p.ns ++ ("_" ++ p.name)) := by
  have huid : p.uid = "Pod/" ++ p.ns ++ "/" ++ p.name := rfl
  have hns := notMem_of_nameChars p.ns_chars (show isNameChar '/' = false by decide)
  have hname := notMem_of_nameChars p.name_chars (show isNameChar '/' = false by decide)
  rw [safeUid, huid, replaceChar_append, replaceChar_append, replaceChar_append, replaceChar_of_notMem _ hns,
    replaceChar_of_notMem _ hname, String.append_assoc, String.append_assoc]
  rfl

theorem utf8_dirMark (p : PodName) :
    utf8 (dirMark p) = utf8 "Pod_" ++ (utf8 p.ns ++ 95 :: utf8 (p.name ++ "-")) := by
  rw [dirMark, safeUid_uid, String.append_assoc, String.append_assoc, String.append_assoc, utf8_append,
    utf8_append, utf8_append]
  rfl

/-- The mark of a pod begins an entry of another pod only in the same namespace. -/
theorem dirMark_prefix_iff {rest : Name} :
    utf8 (dirMark p) <+: utf8 (dirMark q) ++ rest ↔
      p.ns = q.ns ∧ utf8 (p.name ++ "-") <+: utf8 (q.name ++ "-") ++ rest := by
  rw [utf8_dirMark, utf8_dirMark, append_assoc, append_assoc, prefix_append_right_inj,
    cons_append]
  constructor
  · rintro ⟨more, h⟩
    rw [append_assoc, cons_append] at h
    obtain ⟨hns, hname⟩ := append_cons_inj_of_notMem (underscore_notMem_utf8 p.ns_chars)
      (underscore_notMem_utf8 q.ns_chars) h
    exact ⟨utf8_injective hns, more, hname⟩
  · rintro ⟨hns, hname⟩
    rw [hns, prefix_append_right_inj]
    exact cons_prefix_cons.2 ⟨rfl, hname⟩

/-! ### Paths -/

theorem slash_notMem_mark (podUid : String) : '/' ∉ (safeUid podUid ++ "-").toList := by
  rw [safeUid, String.toList_append, mem_append, not_or]
  exact ⟨notMem_replaceChar (by decide) podUid, by decide⟩

theorem isProper_of_dash (h : 45 ∈ name) : isProper name = true := by
  simp only [isProper, Bool.and_eq_true, bne_iff_ne]
  refine ⟨⟨?_, ?_⟩, ?_⟩ <;> rintro rfl <;> simp [dotdot] at h

theorem ne_dotdot_of_isProper (h : isProper name = true) : name ≠ dotdot := by
  rintro rfl
  cases h

theorem isProper_mark (podUid v : String) : isProper (utf8 (safeUid podUid ++ "-" ++ v)) = true := by
  refine isProper_of_dash ?_
  rw [utf8_append, utf8_append]
  exact mem_append_left _ (mem_append_right _ (by decide))

theorem ofStr_emptyDirPath (base podUid v : String) :
    Path.ofStr (emptyDirPath base podUid v) = ⟨(Path.ofStr (emptyDirBase base)).absolute,
      (Path.ofStr (emptyDirBase base)).comps ++ (Path.ofStr (safeUid podUid ++ "-" ++ v)).comps⟩ := by
  have hpath : emptyDirPath base podUid v = emptyDirBase base ++ "/" ++ (safeUid podUid ++ "-" ++ v) := by
    simp only [emptyDirPath, String.append_assoc]
  have hbase : utf8 (emptyDirBase base) ≠ [] := by
    rw [emptyDirBase, utf8_append]
    exact append_ne_nil_of_right_ne_nil _ (by decide)
  rw [hpath, Path.ofStr_append_slash hbase]

/-- The directory of a volume, whatever its name, is reached through an entry that the clean-up removes. -/
theorem exists_entry_of_emptyDirPath (base podUid volume : String) : ∃ entry more,
    Path.ofStr (emptyDirPath base podUid volume) = ⟨(Path.ofStr (emptyDirBase base)).absolute,
      (Path.ofStr (emptyDirBase base)).comps ++ entry :: more⟩ ∧
    isProper entry = true ∧ ∀ entries, entry ∈ entries → entry ∈ cleanupEmptydir podUid entries := by
  obtain ⟨v, more, hcomps⟩ :=
    Path.exists_comps_append (slash_notMem_mark podUid) (isProper_mark podUid) volume
  refine ⟨utf8 (safeUid podUid ++ "-" ++ v), more, ?_, isProper_mark podUid v, fun entries hmem => ?_⟩
  · rw [ofStr_emptyDirPath, hcomps]
  · refine mem_filter.2 ⟨hmem, ?_⟩
    rw [fromUtf8Lossy_utf8]
    exact startsWith_append _ _

/-! ### Removal -/

theorem mem_cleanupEmptydir {entries : List Name} :
    entry ∈ cleanupEmptydir p.uid entries ↔ entry ∈ entries ∧ utf8 (dirMark p) <+: entry := by
  have hmark : '\uFFFD' ∉ (dirMark p).toList := by
    have hns := notMem_of_nameChars p.ns_chars (show isNameChar '\uFFFD' = false by decide)
    have hname := notMem_of_nameChars p.name_chars (show isNameChar '\uFFFD' = false by decide)
    simp [dirMark, safeUid_uid, hns, hname]
  rw [cleanupEmptydir, mem_filter, ← dirMark.eq_def, startsWith_fromUtf8Lossy_iff hmark]

theorem entryOf_eq_some :
    entryOf base location = some entry ↔ emptyDirRoot base ++ [entry] <+: location := by
  unfold entryOf
  constructor
  · intro h
    split_ifs at h with hroot
    obtain ⟨rest, rfl⟩ := hroot
    rw [drop_left] at h
    obtain ⟨more, rfl⟩ := head?_eq_some_iff.1 h
    exact ⟨more, by simp⟩
  · rintro ⟨more, rfl⟩
    rw [append_assoc, if_pos (prefix_append _ _), drop_left]
    rfl

theorem removes_iff {entries : List Name} (hlisted : ∀ entry ∈ entryOf base location, entry ∈ entries) :
    Removes base p entries location ↔ ∃ entry ∈ entryOf base location, utf8 (dirMark p) <+: entry := by
  unfold Removes
  constructor
  · rintro ⟨entry, hentry, hin⟩
    exact ⟨entry, entryOf_eq_some.2 hin, (mem_cleanupEmptydir.1 hentry).2⟩
  · rintro ⟨entry, hentry, hmark⟩
    exact ⟨entry, mem_cleanupEmptydir.2 ⟨hlisted entry hentry, hmark⟩, entryOf_eq_some.1 hentry⟩

/-! ### Separation -/

section Separate

variable {x y : Name}

theorem Separate.entries (h : Separate base p v q w) :
    ∃ x y, entryOf base (emptyDirLocation base p v) = some (utf8 (dirMark p) ++ x) ∧
      entryOf base (emptyDirLocation base q w) = some (utf8 (dirMark q) ++ y) ∧
      ¬ utf8 (dirMark p) <+: utf8 (dirMark q) ++ y ∧ ¬ utf8 (dirMark q) <+: utf8 (dirMark p) ++ x := by
  -- any listing with both entries will do
  set entries := (entryOf base (emptyDirLocation base p v)).toList ++
    (entryOf base (emptyDirLocation base q w)).toList with hentries
  have hlisted : ∀ entry ∈ entryOf base (emptyDirLocation base p v), entry ∈ entries := fun entry h =>
    mem_append_left _ (Option.mem_toList.2 h)
  have hlisted' : ∀ entry ∈ entryOf base (emptyDirLocation base q w), entry ∈ entries := fun entry h =>
    mem_append_right _ (Option.mem_toList.2 h)
  have hall := h.cleanup entries hlisted hlisted'
  rw [removes_iff hlisted, removes_iff hlisted', removes_iff hlisted', removes_iff hlisted] at hall
  obtain ⟨⟨_, hp, x, rfl⟩, hqp, ⟨_, hq, y, rfl⟩, hpq⟩ := hall
  exact ⟨x, y, hp, hq, fun hmark => hqp ⟨_, hq, hmark⟩, fun hmark => hpq ⟨_, hp, hmark⟩⟩

theorem separate_of_entries (hp : entryOf base (emptyDirLocation base p v) = some (utf8 (dirMark p) ++ x))
    (hq : entryOf base (emptyDirLocation base q w) = some (utf8 (dirMark q) ++ y))
    (hqp : ¬ utf8 (dirMark p) <+: utf8 (dirMark q) ++ y) (hpq : ¬ utf8 (dirMark q) <+: utf8 (dirMark p) ++ x) :
    Separate base p v q w := by
  refine ⟨fun hsame => hqp ?_, fun entries hlisted hlisted' => ?_⟩
  · rw [hsame, hq, Option.some.injEq] at hp
    rw [hp]
    exact prefix_append _ _
  · rw [removes_iff hlisted, removes_iff hlisted', removes_iff hlisted', removes_iff hlisted, hp, hq]
    simp only [Option.mem_some_iff, exists_eq_left']
    exact ⟨prefix_append _ _, hqp, prefix_append _ _, hpq⟩

/-- Neither mark begins the entry of the other pod. -/
theorem marks_apart_iff :
    (¬ utf8 (dirMark p) <+: utf8 (dirMark q) ++ y ∧ ¬ utf8 (dirMark q) <+: utf8 (dirMark p) ++ x) ↔
      (p.ns = q.ns → ¬ utf8 (p.name ++ "-") <+: utf8 (q.name ++ "-") ++ y ∧
        ¬ utf8 (q.name ++ "-") <+: utf8 (p.name ++ "-") ++ x) := by
  rw [dirMark_prefix_iff, dirMark_prefix_iff]
  constructor
  · rintro ⟨hqp, hpq⟩ hns
    exact ⟨fun hname => hqp ⟨hns, hname⟩, fun hname => hpq ⟨hns.symm, hname⟩⟩
  · intro hapart
    exact ⟨fun h => (hapart h.1).1 h.2, fun h => (hapart h.1.symm).2 h.2⟩

end Separate

/-! ### Volume names without a slash -/

private def podA : PodName := ⟨"default", "a", rfl, rfl⟩

private def podAB : PodName := ⟨"default", "a-b", rfl, rfl⟩

end Z8s.Cri
