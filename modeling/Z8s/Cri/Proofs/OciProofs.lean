import Z8s.Cri.Oci
import Z8s.Cri.Proofs.ConfinementProofs
import Z8s.Files.Proofs.OverlayProofs
import Z8s.Rust.Proofs.StrProofs
import Z8s.Rust.Proofs.Utf8Proofs

/-!
# Layers by the image specification: proofs

The invariant of the loop over the entries of a layer: the file system has, below the target, the
tree of the entries so far on top of the layers below.
-/

namespace Z8s.Cri

open Files Rust FileSystem List Path

variable {cwd root : Location} {target : Path} {fs : FileSystem} {tree lower : Tree}
variable {dir : List Name} {path : Location}
variable {done : List Change} {name : Name} {entry : TarEntry}

/-- The file system has the tree below the target. -/
structure Shows (fs : FileSystem) (cwd : Location) (target : Path) (root : Location) (tree : Tree) : Prop where
  leads : Leads fs cwd target root
  node : ∀ q, fs.node (root ++ q) = tree q
  plain : Plain tree

section

variable (h : Shows fs cwd target root tree)
include h

theorem Shows.noLinks (comps : List Name) : NoLinks fs root comps := by
  intro q _ t hnode
  rw [h.node] at hnode
  exact (h.plain q _ hnode).1 t rfl

/-- In a tree without links `dir/name` stands for itself. -/
theorem Shows.isDir_iff (hdots : dotdot ∉ dir) (hname : isProper name = true) :
    fs.isDir cwd (belowTarget target dir) name = true ↔
      fs.node (root ++ (dir ++ [name])) = some .directory := by
  have hcomps : dotdot ∉ dir ++ [name] := by
    rw [mem_append, mem_singleton, not_or]
    refine ⟨hdots, fun heq => ?_⟩
    rw [← heq] at hname
    cases hname
  have hname' : ¬ (name = [] ∨ name = [46]) := by
    simp only [isProper, Bool.and_eq_true, bne_iff_ne] at hname
    exact not_or.2 ⟨hname.1.1, hname.1.2⟩
  have hpath : fs.resolveAt cwd (belowTarget target dir) name =
      fs.resolve cwd ⟨target.absolute, target.comps ++ (dir ++ [name])⟩ := by
    rw [resolveAt, if_neg hname', belowTarget, append_assoc]
  rw [isDir, beq_iff_eq, hpath]
  constructor
  · intro hdir
    obtain ⟨l, hl, hnode⟩ := Option.bind_eq_some_iff.1 hdir
    rw [h.leads.resolve_eq hcomps (h.noLinks _) hl] at hnode
    exact hnode
  · intro hnode
    obtain ⟨links, hwalk⟩ := h.leads.resolve_append (dir ++ [name])
    rw [hwalk, walk_to_directory hcomps hnode]
    exact hnode

theorem Shows.not_directory (hdots : dotdot ∉ dir)
    (hnone : fs.resolve cwd (belowTarget target dir) = none) : fs.node (root ++ dir) ≠ some .directory := by
  intro hdir
  obtain ⟨links, hwalk⟩ := h.leads.resolve_append dir
  rw [belowTarget, hwalk, walk_to_directory hdots hdir] at hnone
  cases hnone

end

theorem removeAt_plain (cwd : Location) (fs : FileSystem) (dir : Path) (name : Name) :
    removeAt (.plain cwd) fs dir name =
      if fs.isDir cwd dir name then fs.removeDirAll cwd dir name fun _ => []
      else fs.removeFile cwd dir name fun _ => [] :=
  rfl

section

variable (h : Shows fs cwd target root tree)
include h

/-- Removing `dir/name` removes what is there and below it. -/
theorem Shows.node_removeAt (hdots : dotdot ∉ dir) (hname : isProper name = true) (x : Location) :
    (removeAt (.plain cwd) fs (belowTarget target dir) name).node x =
      if root ++ (dir ++ [name]) <+: x then none else fs.node x := by
  have hremove : (fs.remove (root ++ (dir ++ [name])) []).node x =
      if root ++ (dir ++ [name]) <+: x then none else fs.node x := node_remove_nil (by simp) x
  have hentry : fs.entryAt cwd (belowTarget target dir) name =
      (fs.resolve cwd (belowTarget target dir)).map (· ++ [name]) := by
    rw [entryAt, if_pos hname]
  rw [removeAt_plain, removeDirAll, removeFile, if_pos hname]
  cases hresolve : fs.resolve cwd (belowTarget target dir) with
  | none =>
    -- the directory is missing, and with it everything below
    rw [hresolve, Option.map_none] at hentry
    simp only [hentry, ite_self]
    split
    · rename_i hpre
      obtain ⟨rest, rfl⟩ := hpre
      rw [← append_assoc, append_assoc (root ++ dir)]
      exact node_eq_none_of_append (by simp) (h.not_directory hdots hresolve)
    · rfl
  | some l =>
    have hl : l = root ++ dir := h.leads.resolve_eq hdots (h.noLinks _) hresolve
    rw [hresolve, hl, Option.map_some, append_assoc] at hentry
    simp only [hentry]
    by_cases hdir : fs.node (root ++ (dir ++ [name])) = some .directory
    · rw [if_pos ((h.isDir_iff hdots hname).2 hdir)]
      simp only [hdir]
      exact hremove
    · rw [if_neg fun hisDir => hdir ((h.isDir_iff hdots hname).1 hisDir), if_neg hdir]
      exact hremove

theorem Shows.shrink {fs' : FileSystem} {gone : Location → Prop}
    [DecidablePred gone] (hnode : ∀ x, fs'.node x = if gone x then none else fs.node x)
    (hbelow : ∀ x, gone x → Below root x) :
    Shows fs' cwd target root fun q => if gone (root ++ q) then none else tree q := by
  refine ⟨h.leads.of_outside fun l hl => ?_, fun q => ?_, fun q n hq => ?_⟩
  · rw [hnode, if_neg fun hgone => hl (hbelow l hgone)]
  · rw [hnode, h.node]
  · split at hq
    · cases hq
    · exact h.plain q n hq

theorem Shows.removeAt {dir : List Name} {name : Name} (hdots : dotdot ∉ dir) (hname : isProper name = true) :
    Shows (removeAt (.plain cwd) fs (belowTarget target dir) name) cwd target root fun q =>
      if root ++ (dir ++ [name]) <+: root ++ q then none else tree q :=
  h.shrink (h.node_removeAt hdots hname) fun x hx =>
    .mono (.of_append (prefix_refl _) (by simp)) hx

theorem Shows.node_clearEntries (hdots : dotdot ∉ dir)
    {names : List Name} (hnames : ∀ name ∈ names, isProper name = true)
    (hmarkers : ∀ name ∈ names, startsWith (fromUtf8Lossy name) ".wh." = false) (x : Location) :
    (clearEntries (.plain cwd) (belowTarget target dir) fs names).node x =
      if ∃ name ∈ names, root ++ (dir ++ [name]) <+: x then none else fs.node x := by
  induction names generalizing fs tree with
  | nil => simp [clearEntries]
  | cons name names ih =>
    rw [forall_mem_cons] at hnames hmarkers
    have hstep : clearEntries (.plain cwd) (belowTarget target dir) fs (name :: names) =
        clearEntries (.plain cwd) (belowTarget target dir)
          (Cri.removeAt (.plain cwd) fs (belowTarget target dir) name) names := by
      rw [clearEntries, foldl_cons, hmarkers.1]
      rfl
    rw [hstep, ih (h.removeAt hdots hnames.1) hnames.2 hmarkers.2, h.node_removeAt hdots hnames.1]
    simp only [exists_mem_cons_iff]
    by_cases hx : root ++ (dir ++ [name]) <+: x <;> simp [hx]

theorem Shows.node_clearDir (hdots : dotdot ∉ dir) (x : Location) :
    (clearDir (.plain cwd) fs (belowTarget target dir)).node x =
      if Below (root ++ dir) x then none else fs.node x := by
  have hcases : Below (root ++ dir) x → ∃ name rest, x = root ++ dir ++ name :: rest := by
    rintro ⟨⟨rest, rfl⟩, hne⟩
    cases rest with
    | nil => simp at hne
    | cons name rest => exact ⟨name, rest, rfl⟩
  have hcwd : (Host.plain cwd).cwd = cwd := rfl
  cases hresolve : fs.resolve cwd (belowTarget target dir) with
  | none =>
    rw [clearDir, hcwd, hresolve]
    simp only
    split
    · rename_i hbelow
      obtain ⟨name, rest, rfl⟩ := hcases hbelow
      exact node_eq_none_of_append (cons_ne_nil _ _) (h.not_directory hdots hresolve)
    · rfl
  | some l =>
    have hl : l = root ++ dir := h.leads.resolve_eq hdots (h.noLinks _) hresolve
    have hmarkers : ∀ name ∈ fs.children l, startsWith (fromUtf8Lossy name) ".wh." = false := by
      intro name hmem
      rw [mem_children, hl, append_assoc, h.node, Option.isSome_iff_exists] at hmem
      obtain ⟨n, hn⟩ := hmem
      by_contra hstarts
      rw [Bool.not_eq_false] at hstarts
      have hpre := (startsWith_fromUtf8Lossy_iff (by decide)).1 hstarts
      have hfree := (h.plain _ n hn).2 name (by simp)
      rw [isReserved, isPrefixOf_iff_prefix.2 hpre] at hfree
      cases hfree
    rw [clearDir, hcwd, hresolve]
    simp only
    rw [h.node_clearEntries hdots (fun _ => isProper_of_mem_children) hmarkers]
    by_cases hbelow : Below (root ++ dir) x
    · rw [if_pos hbelow]
      obtain ⟨name, rest, rfl⟩ := hcases hbelow
      split
      · rfl
      · rename_i hnone
        -- a node below is below an entry of the directory
        by_contra hne
        obtain ⟨n, hn⟩ := Option.ne_none_iff_exists'.1 hne
        refine hnone ⟨name, ?_, by simp⟩
        rw [append_cons] at hn
        rw [mem_children, hl, isSome_of_append hn]
    · rw [if_neg hbelow, if_neg]
      rintro ⟨name, -, hpre⟩
      refine hbelow (.mono ?_ hpre)
      rw [← append_assoc]
      exact .of_append (prefix_refl _) (cons_ne_nil _ _)

end

/-! ### What an entry is -/

section Entry

variable {entry : TarEntry} (hsafe : SafeEntry entry)
include hsafe

theorem SafeEntry.filename (hlast : (ofBytes entry.path).comps.getLast? = some name) :
    Cri.filename (ofBytes entry.path) = fromUtf8Lossy name := by
  have hne : name ≠ dotdot := fun heq => hsafe.2.1 (heq ▸ mem_of_getLast? hlast)
  rw [Cri.filename, fileName, hlast, Option.filter_some, if_pos (by simpa using hne)]
  rfl

theorem SafeEntry.dots : dotdot ∉ (ofBytes entry.path).comps.dropLast :=
  fun hmem => hsafe.2.1 (dropLast_subset _ hmem)

theorem entryName_of_put {n : Node} (h : change entry = .put path n) :
    entryName (ofBytes entry.path) = .ordinary := by
  cases hlast : (ofBytes entry.path).comps.getLast? with
  | none =>
    have hname : Cri.filename (ofBytes entry.path) = "" := by
      simp [Cri.filename, fileName, hlast]
    rw [entryName, hname]
    rfl
  | some name =>
    have hfree : isReserved name = false := by
      simp only [change, hlast] at h
      split at h
      · cases h
      · split at h
        · cases h
        · exact Bool.eq_false_iff.2 ‹_›
    have hstarts : startsWith (fromUtf8Lossy name) ".wh." = false := by
      by_contra hstarts
      rw [Bool.not_eq_false] at hstarts
      have hpre := (startsWith_fromUtf8Lossy_iff (by decide)).1 hstarts
      rw [isReserved, isPrefixOf_iff_prefix.2 hpre] at hfree
      cases hfree
    have hopq : fromUtf8Lossy name ≠ ".wh..wh..opq" := by
      intro heq
      rw [heq] at hstarts
      revert hstarts
      decide
    rw [entryName, hsafe.filename hlast, if_neg hopq, stripPrefix, hstarts]
    rfl

theorem entryName_of_opq {dir : Location} (h : change entry = .opq dir) :
    entryName (ofBytes entry.path) = .opq ∧ dir = (ofBytes entry.path).comps.dropLast := by
  cases hlast : (ofBytes entry.path).comps.getLast? with
  | none =>
    simp only [change, hlast] at h
    cases h
  | some name =>
    simp only [change, hlast] at h
    split at h
    · rename_i hname
      cases h
      rw [entryName, hsafe.filename hlast, hname, fromUtf8Lossy_utf8, if_pos rfl]
      exact ⟨rfl, rfl⟩
    · split at h <;> cases h

theorem entryName_of_whiteout (h : change entry = .whiteout path)
    (hnamed : Change.wellNamed (.whiteout path) = true) :
    ∃ realName, entryName (ofBytes entry.path) = .whiteout realName ∧ isProper realName = true ∧
      path = (ofBytes entry.path).comps.dropLast ++ [realName] := by
  cases hlast : (ofBytes entry.path).comps.getLast? with
  | none =>
    simp only [change, hlast] at h
    cases h
  | some name =>
    simp only [change, hlast] at h
    split at h
    · cases h
    · rename_i hopq
      split at h
      · rename_i hreserved
        cases h
        simp only [Change.wellNamed, getLast?_append, getLast?_singleton, Option.some_or,
          Option.all_some, Bool.and_eq_true, beq_iff_eq] at hnamed
        refine ⟨name.drop 4, ?_, hnamed.1, rfl⟩
        -- the name is the encoding of `.wh.` and of what follows it
        obtain ⟨rest, rfl⟩ := isPrefixOf_iff_prefix.1 hreserved
        have hdrop : (utf8 ".wh." ++ rest).drop 4 = rest := rfl
        rw [hdrop] at hnamed ⊢
        have hname : utf8 ".wh." ++ rest = utf8 (".wh." ++ fromUtf8Lossy rest) := by
          rw [utf8_append, hnamed.2]
        have hopq' : ".wh." ++ fromUtf8Lossy rest ≠ ".wh..wh..opq" := by
          intro heq
          rw [heq] at hname
          exact hopq hname
        rw [entryName, hsafe.filename hlast, hname, fromUtf8Lossy_utf8, if_neg hopq', stripPrefix_append]
        simp only [hnamed.2]
      · cases h

end Entry

/-! ### Steps -/

theorem Shows.closed (h : Shows fs cwd target root tree) {p : Location} (hpre : path <+: p) (hne : p ≠ path)
    (hdir : tree path ≠ some .directory) : tree p = none := by
  obtain ⟨rest, rfl⟩ := hpre
  rw [← h.node] at hdir ⊢
  rw [← append_assoc]
  refine node_eq_none_of_append (fun hnil => hne ?_) hdir
  rw [hnil, append_nil]

def putInto (tree : Tree) (path : Location) (n : Node) : Tree := fun p =>
  if p = path then some n else if p <+: path then some .directory else tree p

theorem Plain.putInto (h : Plain tree) {path : Location} {n : Node} (hn : ∀ t, n ≠ .symlink t)
    (hnames : ∀ name ∈ path, isReserved name = false) : Plain (putInto tree path n) := by
  intro q m hm
  rw [Cri.putInto] at hm
  split at hm
  · rename_i heq
    cases hm
    exact ⟨hn, heq ▸ hnames⟩
  · split at hm
    · rename_i hpre
      cases hm
      exact ⟨fun _ => nofun, fun name hmem => hnames name (hpre.subset hmem)⟩
    · exact h q m hm

theorem Shows.unpackIn (h : Shows fs cwd target root tree) (hsafe : SafeEntry entry) {n : Node}
    (hchange : change entry = .put path n) (hnamed : Change.wellNamed (.put path n) = true)
    (hfits : (Change.put path n).fits tree) :
    ∃ fs', unpackIn cwd target entry fs = (fs', true) ∧
      Shows fs' cwd target root (putInto tree path n) := by
  obtain ⟨hrel, hdots, hkind⟩ := hsafe
  have hroot : fs.resolve cwd target = some root := by
    obtain ⟨links, hwalk⟩ := h.leads.resolve_append []
    simpa using hwalk
  have hnames : ∀ name ∈ path, isReserved name = false := by
    simpa [Change.wellNamed] using hnamed
  cases hlast : (ofBytes entry.path).comps.getLast? with
  | none =>
    -- the directory entry of the target itself
    simp only [change, hlast] at hchange
    cases hchange
    refine ⟨fs, by rw [unpackIn, if_neg hdots, hlast], h.leads, fun q => ?_,
      h.plain.putInto (fun t => by simp) hnames⟩
    rw [putInto]
    split
    · rename_i heq
      rw [heq, append_nil, h.leads.directory]
    · rename_i hne
      rw [if_neg fun hpre => hne (prefix_nil.1 hpre), h.node]
  | some name =>
    have hcomps := (dropLast_append_getLast? name hlast).symm
    obtain ⟨rfl, rfl⟩ : (ofBytes entry.path).comps = path ∧ entry.kind.node = n := by
      simp only [change, hlast] at hchange
      split at hchange
      · cases hchange
      · split at hchange
        · cases hchange
        · exact Change.put.inj hchange
    have hkind' : entry.kind = .directory ∨ ∃ content, entry.kind = .file content :=
      hkind.imp_right fun h => EntryKind.eq_file_of_isFile h.2
    have hthere := hfits.2
    rw [← h.node, hcomps, ← append_assoc] at hthere
    obtain ⟨fs', hunpack, hnode⟩ := unpackIn_spec hcomps hdots hroot h.leads.directory hkind'
      (fun q hq => by rw [h.node]; exact hfits.1 q ((mem_inits _ _).2 hq)) hthere
    refine ⟨fs', hunpack, h.leads.of_outside fun l hl => ?_, fun q => ?_, h.plain.putInto ?_ hnames⟩
    · have hne : l ≠ root ++ (ofBytes entry.path).comps.dropLast ++ [name] := by
        rintro rfl
        exact hl (.of_append (prefix_append _ _) (cons_ne_nil _ _))
      rw [hnode, if_neg hne]
      split
      · rename_i hbetween
        rw [Classical.byContradiction fun hne => hl ⟨hbetween.1, hne⟩, h.leads.directory]
      · rfl
    · have hpath : root ++ q = root ++ (ofBytes entry.path).comps.dropLast ++ [name] ↔
          q = (ofBytes entry.path).comps := by
        rw [append_assoc, ← hcomps, append_cancel_left_eq]
      have habove : root <+: root ++ q ∧ root ++ q <+: root ++ (ofBytes entry.path).comps.dropLast ↔
          q <+: (ofBytes entry.path).comps.dropLast := by
        simp
      simp only [hnode, hpath, habove, putInto, h.node]
      split
      · rfl
      · rename_i hne
        have hiff : q <+: (ofBytes entry.path).comps.dropLast ↔ q <+: (ofBytes entry.path).comps :=
          ⟨fun hpre => hpre.trans (List.dropLast_prefix _), fun hpre => prefix_dropLast hpre hne⟩
        simp only [hiff]
    · intro t hlink
      rcases hkind' with heq | ⟨content, heq⟩
      · rw [heq] at hlink
        cases hlink
      · rw [heq] at hlink
        cases hlink

theorem Shows.congr {tree' : Tree} (h : Shows fs cwd target root tree) (heq : ∀ q, tree' q = tree q) :
    Shows fs cwd target root tree' := by
  rw [show tree' = tree from funext heq]
  exact h

theorem Shows.unpackEntry (h : Shows fs cwd target root (overlay done lower)) (hsafe : SafeEntry entry)
    (horder : InOrder lower done (change entry)) :
    ∃ fs', Cri.unpackEntry (.plain cwd) target fs entry = (fs', true) ∧
      Shows fs' cwd target root (overlay (done ++ [change entry]) lower) := by
  obtain ⟨hfits, hspares, hnamed⟩ := horder
  cases hchange : change entry with
  | put path n =>
    rw [hchange] at hfits hnamed
    obtain ⟨fs', hunpack, hshows⟩ := h.unpackIn hsafe hchange hnamed hfits
    refine ⟨fs', by rw [Cri.unpackEntry, entryName_of_put hsafe hchange]; exact hunpack, ?_⟩
    exact hshows.congr (overlay_append_put hfits fun p hpre hne hdir => h.closed hpre hne hdir)
  | whiteout path =>
    rw [hchange] at hspares hnamed
    obtain ⟨realName, hname, hproper, rfl⟩ := entryName_of_whiteout hsafe hchange hnamed
    have hne := comps_ne_nil_of_entryName (by rw [hname]; simp)
    refine ⟨_, by rw [Cri.unpackEntry, hname], ?_⟩
    simp only [entryDir_eq hsafe.1 hne]
    refine (h.removeAt hsafe.dots hproper).congr fun q => ?_
    rw [overlay_append_hides (fun _ _ => rfl) hspares, Change.hides]
    simp
  | opq dir =>
    rw [hchange] at hspares
    obtain ⟨hname, rfl⟩ := entryName_of_opq hsafe hchange
    have hne := comps_ne_nil_of_entryName (by rw [hname]; simp)
    refine ⟨_, by rw [Cri.unpackEntry, hname], ?_⟩
    simp only [entryDir_eq hsafe.1 hne]
    refine (h.shrink (h.node_clearDir hsafe.dots) fun x hx => ⟨?_, ?_⟩).congr fun q => ?_
    · exact (prefix_append _ _).trans hx.1
    · rintro rfl
      have hlen := hx.1.length_le
      rw [length_append] at hlen
      exact hx.2 (hx.1.eq_of_length (by rw [length_append]; omega)).symm
    · rw [overlay_append_hides (fun _ _ => rfl) hspares, Change.hides]
      simp [Below]

theorem Shows.unpackLayer (h : Shows fs cwd target root (overlay done lower)) {entries : List TarEntry}
    (hsafe : ∀ entry ∈ entries, SafeEntry entry) (horder : LayerInOrder lower done (entries.map change)) :
    ∃ fs', Cri.unpackLayer (.plain cwd) target fs (entries.map some) = (fs', true) ∧
      Shows fs' cwd target root (overlay (done ++ entries.map change) lower) := by
  -- on the entries: `done` are the changes of those before
  induction entries generalizing fs done with
  | nil => exact ⟨fs, rfl, by simpa using h⟩
  | cons entry entries ih =>
    rw [forall_mem_cons] at hsafe
    obtain ⟨fs', hunpack, hshows⟩ := h.unpackEntry hsafe.1 horder.1
    obtain ⟨fs'', hrest, hshows'⟩ := ih hshows hsafe.2 horder.2
    refine ⟨fs'', ?_, by simpa using hshows'⟩
    rw [map_cons, Cri.unpackLayer, hunpack]
    exact hrest

theorem overlay_nil (lower : Tree) : overlay [] lower = lower := by
  funext p
  have hcovered : covered [] p = false := by
    rw [Bool.eq_false_iff]
    intro h
    obtain ⟨q, n, -, -, hown, -⟩ := covered_eq_true.1 h
    cases hown
  simp [overlay, own, hcovered]

private def cacheTarget : Path := Path.ofBytes (utf8 "/cache")

private def emptyCache : FileSystem := (FileSystem.empty.put [] (utf8 "cache") .directory).getD .empty

private theorem node_emptyCache (x : Location) :
    emptyCache.node x = if x = [utf8 "cache"] then some .directory else empty.node x := by
  have hsome : (empty.put [] (utf8 "cache") .directory).isSome = true := by decide +kernel
  obtain ⟨fs, hfs⟩ := Option.isSome_iff_exists.1 hsome
  have hput : empty.put [] (utf8 "cache") .directory = some emptyCache := by
    rw [emptyCache, hfs]
    rfl
  exact put_eq_some hput x

private theorem plain_emptyCache : Plain fun q => emptyCache.node ([utf8 "cache"] ++ q) := by
  intro q n hq
  simp only [node_emptyCache] at hq
  split at hq
  · rename_i heq
    obtain rfl : q = [] := by simpa using heq
    cases hq
    exact ⟨fun _ => nofun, fun _ hmem => absurd hmem not_mem_nil⟩
  · cases hq

private theorem leads_emptyCache : Leads emptyCache [] cacheTarget [utf8 "cache"] :=
  ⟨by decide +kernel, by decide +kernel, by decide +kernel⟩

private def fileOf (path : String) (content : List UInt8) : TarEntry := ⟨utf8 path, .file content⟩

private def dirOf (path : String) : TarEntry := ⟨utf8 path, .directory⟩

/-- A layer with a directory, and one that replaces what is in it and hides a file. -/
private def baseAndTop : List (List TarEntry) :=
  [[dirOf "./", dirOf "app/", fileOf "app/old" [1], fileOf "motd" [2]],
    [fileOf ".wh.motd" [], fileOf "app/.wh..wh..opq" [], fileOf "app/new" [3]]]

/-- The opaque whiteout of the layer comes after a file of the same layer. -/
private def lateWhiteout : List (List TarEntry) :=
  [[dirOf "app/", fileOf "app/new" [3], fileOf "app/.wh..wh..opq" []]]

private def changedType : List (List TarEntry) := [[fileOf "app" [1]], [dirOf "app/", fileOf "app/new" [3]]]

end Z8s.Cri
