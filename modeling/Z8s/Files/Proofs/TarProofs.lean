import Z8s.Files.Proofs.FileSystemProofs
import Z8s.Files.Tar

/-!
# Proofs: tar archives

What unpacking one entry does at every location, when nothing of another type is in the way.
-/

namespace Z8s.Files

open List

variable {dir x : Location} {name : Name}
variable {cwd l root : Location} {kind : EntryKind} {comps : List Name} {comp : Name} {target : Path}

theorem Path.comps_ofBytes {bytes : List UInt8} (h : comp ∈ (Path.ofBytes bytes).comps)
    (hdots : comp ≠ dotdot) : isProper comp = true := by
  have hfilter := (mem_filter.1 h).2
  rw [isProper, hfilter, Bool.true_and, bne_iff_ne]
  exact hdots

theorem EntryKind.eq_file_of_isFile (h : kind.isFile = true) : ∃ content, kind = .file content := by
  cases kind with
  | file content => exact ⟨content, rfl⟩
  | _ => cases h

namespace FileSystem

variable {fs : FileSystem}

theorem between_cons :
    l <+: x ∧ x <+: l ++ comp :: comps ↔ x = l ∨ l ++ [comp] <+: x ∧ x <+: l ++ [comp] ++ comps := by
  constructor
  · rintro ⟨⟨rest, rfl⟩, hx⟩
    cases rest with
    | nil => exact .inl (append_nil l)
    | cons a rest =>
      rw [prefix_append_right_inj, cons_prefix_cons] at hx
      obtain ⟨rfl, hrest⟩ := hx
      exact .inr (by simpa using hrest)
  · rintro (rfl | ⟨hl, hx⟩)
    · exact ⟨prefix_refl _, prefix_append _ _⟩
    · exact ⟨(prefix_append _ _).trans hl, by simpa using hx⟩

theorem createDirs_spec (hl : fs.node l = some .directory) (hproper : ∀ comp ∈ comps, isProper comp = true)
    (hfree : ∀ q, q <+: comps → fs.node (l ++ q) = none ∨ fs.node (l ++ q) = some .directory) :
    ∃ fs', fs.createDirs l comps = (fs', true) ∧ ∀ x,
      fs'.node x = if l <+: x ∧ x <+: l ++ comps then some .directory else fs.node x := by
  induction comps generalizing fs l with
  | nil =>
    refine ⟨fs, rfl, fun x => ?_⟩
    split
    · rename_i hx
      rw [append_nil] at hx
      rw [hx.2.eq_of_length (Nat.le_antisymm hx.2.length_le hx.1.length_le), hl]
    · rfl
  | cons comp comps ih =>
    rw [forall_mem_cons] at hproper
    -- the rest of the way, in a file system that has the first directory
    have hgo : ∀ made : FileSystem,
        (∀ x, made.node x = if x = l ++ [comp] then some .directory else fs.node x) →
        ∃ fs', made.createDirs (l ++ [comp]) comps = (fs', true) ∧ ∀ x,
          fs'.node x = if l <+: x ∧ x <+: l ++ comp :: comps then some .directory else fs.node x := by
      intro made hmade
      have hfree' : ∀ q, q <+: comps →
          made.node (l ++ [comp] ++ q) = none ∨ made.node (l ++ [comp] ++ q) = some .directory := by
        intro q hq
        rw [hmade]
        split
        · exact .inr rfl
        · rw [append_assoc]
          exact hfree (comp :: q) ((prefix_cons_inj comp).2 hq)
      obtain ⟨fs', hcreate, hnode⟩ := ih (by rw [hmade, if_pos rfl]) hproper.2 hfree'
      refine ⟨fs', hcreate, fun x => ?_⟩
      simp only [hnode, hmade, between_cons]
      by_cases hx : l ++ [comp] <+: x ∧ x <+: l ++ [comp] ++ comps
      · rw [if_pos hx, if_pos (.inr hx)]
      · rw [if_neg hx]
        by_cases hxl : x = l
        · have hne : l ≠ l ++ [comp] := by simp
          rw [hxl, if_neg hne, if_pos (.inl rfl), hl]
        · rw [if_neg (not_or.2 ⟨hxl, hx⟩), if_neg]
          rintro rfl
          exact hx ⟨prefix_refl _, prefix_append _ _⟩
    rcases hfree [comp] (by simp) with hnone | hdir
    · obtain ⟨made, hput⟩ := put_isSome (n := .directory) hproper.1 hl (by simp [hnone])
      rw [createDirs, hnone]
      simp only [hput]
      exact hgo made (put_eq_some hput)
    · rw [createDirs, hdir]
      refine hgo fs fun x => ?_
      split
      · rename_i hx
        rw [hx, hdir]
      · rfl

theorem putNode_spec {n : Node} (hname : isProper name = true) (hdir : fs.node dir = some .directory)
    (hfree : fs.node (dir ++ [name]) ≠ some .directory) :
    ∃ fs', fs.putNode dir name n = (fs', true) ∧ ∀ x,
      fs'.node x = if x = dir ++ [name] then some n else fs.node x := by
  obtain ⟨fs', hput⟩ := put_isSome (n := n) hname hdir hfree
  exact ⟨fs', by rw [putNode, hput], put_eq_some hput⟩

theorem unpackNode_spec (hname : isProper name = true) (hdir : fs.node dir = some .directory)
    (hkind : kind = .directory ∨ ∃ content, kind = .file content)
    (hfree : fs.node (dir ++ [name]) ≠ some .directory ∨ kind = .directory)
    (hempty : kind = .directory → fs.node (dir ++ [name]) = none ∨ fs.node (dir ++ [name]) = some .directory) :
    ∃ fs', fs.unpackNode dir name kind = (fs', true) ∧ ∀ x,
      fs'.node x = if x = dir ++ [name] then some kind.node else fs.node x := by
  rcases hkind with rfl | ⟨content, rfl⟩
  · rcases hempty rfl with hnone | hthere
    · obtain ⟨fs', hput, hnode⟩ := putNode_spec (n := .directory) hname hdir (by simp [hnone])
      exact ⟨fs', by rw [unpackNode, hnone, if_neg (by simp), if_pos rfl, hput], hnode⟩
    · refine ⟨fs, by rw [unpackNode, if_pos hthere], fun x => ?_⟩
      split
      · rename_i hx
        rw [hx, hthere]
        rfl
      · rfl
  · exact putNode_spec hname hdir (hfree.resolve_right nofun)

theorem unpackIn_spec {entry : TarEntry} {dir : List Name}
    (hcomps : (Path.ofBytes entry.path).comps = dir ++ [name])
    (hdots : dotdot ∉ (Path.ofBytes entry.path).comps) (hroot : fs.resolve cwd target = some root)
    (hdir : fs.node root = some .directory)
    (hkind : entry.kind = .directory ∨ ∃ content, entry.kind = .file content)
    (habove : ∀ q, q <+: dir → fs.node (root ++ q) = none ∨ fs.node (root ++ q) = some .directory)
    (hthere : if entry.kind.node = .directory then
        fs.node (root ++ dir ++ [name]) = none ∨ fs.node (root ++ dir ++ [name]) = some .directory
      else fs.node (root ++ dir ++ [name]) ≠ some .directory) :
    ∃ fs', unpackIn cwd target entry fs = (fs', true) ∧ ∀ x,
      fs'.node x = if x = root ++ dir ++ [name] then some entry.kind.node
        else if root <+: x ∧ x <+: root ++ dir then some .directory else fs.node x := by
  have hproper : ∀ comp ∈ dir ++ [name], isProper comp = true := by
    intro comp hmem
    rw [← hcomps] at hmem
    exact Path.comps_ofBytes hmem fun heq => hdots (heq ▸ hmem)
  obtain ⟨made, hmade, hnode⟩ :=
    createDirs_spec hdir (fun comp hmem => hproper comp (mem_append_left _ hmem)) habove
  have hnew : made.node (root ++ dir ++ [name]) = fs.node (root ++ dir ++ [name]) := by
    rw [hnode, if_neg]
    rintro ⟨-, hpre⟩
    have hlen := hpre.length_le
    rw [length_append, length_singleton] at hlen
    omega
  have hmadeDir : made.node (root ++ dir) = some .directory := by
    rw [hnode, if_pos ⟨prefix_append _ _, prefix_refl _⟩]
  have hspec : ∃ fs', made.unpackNode (root ++ dir) name entry.kind = (fs', true) ∧ ∀ x,
      fs'.node x = if x = root ++ dir ++ [name] then some entry.kind.node else made.node x := by
    rw [← hnew] at hthere
    refine unpackNode_spec (hproper name (by simp)) hmadeDir hkind ?_ fun heq => ?_
    · rcases hkind with heq | ⟨content, heq⟩
      · exact .inr heq
      · rw [heq, if_neg nofun] at hthere
        exact .inl hthere
    · rw [heq] at hthere
      exact hthere
  obtain ⟨fs', hunpack, hfs'⟩ := hspec
  refine ⟨fs', ?_, fun x => by rw [hfs', hnode]⟩
  rw [unpackIn, if_neg hdots, hcomps, hroot]
  simp only [getLast?_append, getLast?_singleton, Option.some_or, dropLast_concat, hmade,
    hunpack, if_true]

/-! ### Where nothing happens -/

theorem putNode_of_ne (hx : x ≠ dir ++ [name]) (n : Node) :
    (fs.putNode dir name n).1.node x = fs.node x := by
  rw [putNode]
  split
  · rename_i fs' hput
    rw [put_eq_some hput, if_neg hx]
  · rfl

theorem createDirs_outside (hx : l <+: x → x = l) (comps : List Name) :
    (fs.createDirs l comps).1.node x = fs.node x := by
  induction comps generalizing fs l with
  | nil => rfl
  | cons comp comps ih =>
    have hne : x ≠ l ++ [comp] := by
      rintro rfl
      simpa using hx (prefix_append _ _)
    have hx' : l ++ [comp] <+: x → x = l ++ [comp] := fun hpre =>
      absurd (hx ((prefix_append _ _).trans hpre)) fun heq => by
        have hlen := hpre.length_le
        rw [heq, length_append, length_singleton] at hlen
        omega
    rw [createDirs]
    split
    · exact ih hx'
    · rfl
    · split
      · rename_i fs' hput
        rw [ih hx', put_eq_some hput, if_neg hne]
      · rfl

theorem unpackNode_of_ne (hx : x ≠ dir ++ [name]) (kind : EntryKind) :
    (fs.unpackNode dir name kind).1.node x = fs.node x := by
  cases kind with
  | directory =>
    rw [unpackNode]
    split
    · rfl
    · split
      · exact putNode_of_ne hx _
      · rfl
  | file content => exact putNode_of_ne hx _
  | symlink => rfl
  | other => rfl

theorem unpackIn_outside (hroot : fs.resolve cwd target = some root) (hx : root <+: x → x = root)
    (entry : TarEntry) : (unpackIn cwd target entry fs).1.node x = fs.node x := by
  rw [unpackIn]
  split
  · rfl
  · rw [hroot]
    split
    · rfl
    · rename_i hnone
      cases hnone
    · rename_i name root' hname hroot'
      cases hroot'
      simp only
      split
      · rw [unpackNode_of_ne, createDirs_outside hx]
        rintro rfl
        have heq := hx (by simp)
        simp at heq
      · exact createDirs_outside hx _

end FileSystem

end Z8s.Files
