import Z8s.Cri.Confinement
import Z8s.Files.Proofs.TarProofs

/-!
# Unpacking stays below the target: proofs

A careful whiteout resolves its directory to a location below the target, because the way there has
neither `..` nor links.
-/

namespace Z8s.Cri

open Files Rust FileSystem List

variable {host : Host} {target : Path} {root : Location} {fs fs' : FileSystem}
variable {l : Location} {comps : List Name}

theorem Below.of_append {rest : Location} (hroot : root <+: l) (hrest : rest ≠ []) :
    Below root (l ++ rest) := by
  refine ⟨hroot.trans (prefix_append _ _), fun heq => ?_⟩
  have hlen := hroot.length_le
  have hpos := length_pos_iff.2 hrest
  rw [← heq, length_append] at hlen
  omega

theorem Below.mono {x : Location} (h : Below root l) (hx : l <+: x) : Below root x := by
  refine ⟨h.1.trans hx, fun heq => h.2 ?_⟩
  subst heq
  exact hx.eq_of_length (Nat.le_antisymm hx.length_le h.1.length_le)

/-! ### The target -/

variable {cwd : Location}

theorem node_pruned (fs : FileSystem) (root l : Location) :
    (fs.remove root [root]).node l = if Below root l then none else fs.node l := by
  rw [node_remove]
  by_cases hbelow : Below root l
  · rw [if_pos hbelow, if_pos]
    refine ⟨fun hnil => ?_, hbelow.1, fun y hy hpre => ?_⟩
    · subst hnil
      exact hbelow.2 (prefix_nil.1 hbelow.1).symm
    · rw [mem_singleton] at hy
      subst hy
      exact hbelow.2 (hpre.eq_of_length (Nat.le_antisymm hpre.length_le hbelow.1.length_le))
  · rw [if_neg hbelow, if_neg]
    rintro ⟨-, hpre, hleft⟩
    exact hbelow ⟨hpre, fun heq => hleft root mem_cons_self (heq ▸ prefix_refl l)⟩

theorem Leads.of_outside (h : Leads fs cwd target root)
    (hout : ∀ l, ¬ Below root l → fs'.node l = fs.node l) : Leads fs' cwd target root := by
  have hnode : ∀ l, (fs'.remove root [root]).node l = (fs.remove root [root]).node l := by
    intro l
    rw [node_pruned, node_pruned]
    split
    · rfl
    · exact hout l ‹_›
  refine ⟨by rw [hnode, h.start], ?_, by rw [hout root fun hb => hb.2 rfl, h.directory]⟩
  exact walk_mono (fun l x hx => by rw [hnode, hx]) h.resolves

theorem Leads.node_of_pruned {x : Node} (h : (fs.remove root [root]).node l = some x) :
    fs.node l = some x := by
  rw [node_pruned] at h
  split at h
  · cases h
  · exact h

theorem Leads.resolve_append (h : Leads fs cwd target root) (comps : List Name) :
    ∃ links, fs.resolve cwd ⟨target.absolute, target.comps ++ comps⟩ = fs.walk links root comps := by
  have htarget : fs.walk 40 (if target.absolute then [] else cwd) target.comps = some root :=
    walk_mono (fun _ _ => Leads.node_of_pruned) h.resolves
  rcases splitsWalk 40 (Leads.node_of_pruned h.start) target.comps comps with
    ⟨b, links, hb, -, hwalk⟩ | ⟨-, hnot⟩
  · obtain rfl : b = root := Option.some.inj (hb.symm.trans htarget)
    exact ⟨links, hwalk⟩
  · exact absurd h.directory (hnot root htarget)

theorem Leads.resolve_eq (h : Leads fs cwd target root) (hdots : dotdot ∉ comps)
    (hlinks : NoLinks fs root comps) (hl : fs.resolve cwd ⟨target.absolute, target.comps ++ comps⟩ = some l) :
    l = root ++ comps := by
  obtain ⟨links, hwalk⟩ := h.resolve_append comps
  rw [hwalk] at hl
  exact walk_eq_append hdots hlinks hl

/-! ### Removing -/

/-- Nodes are removed below the directory and nothing else happens. -/
structure Shrinks (root : Location) (fs fs' : FileSystem) : Prop where
  nodes : ∀ l x, fs'.node l = some x → fs.node l = some x
  outside : ∀ l, ¬ Below root l → fs'.node l = fs.node l

theorem Shrinks.refl (root : Location) (fs : FileSystem) : Shrinks root fs fs :=
  ⟨fun _ _ h => h, fun _ _ => rfl⟩

theorem Shrinks.trans {fs'' : FileSystem} (h : Shrinks root fs fs') (h' : Shrinks root fs' fs'') :
    Shrinks root fs fs'' :=
  ⟨fun l x hx => h.nodes l x (h'.nodes l x hx), fun l hl => (h'.outside l hl).trans (h.outside l hl)⟩

theorem Shrinks.noLinks (h : Shrinks root fs fs') (hlinks : NoLinks fs root comps) :
    NoLinks fs' root comps :=
  fun q hq t ht => hlinks q hq t (h.nodes _ _ ht)

theorem shrinks_remove {left : List Location} (hl : Below root l ∨ l = root ∧ root ∈ left) :
    Shrinks root fs (fs.remove l left) := by
  constructor
  · intro x n hx
    rw [node_remove] at hx
    split at hx
    · cases hx
    · exact hx
  · intro x hx
    rcases hl with hl | ⟨rfl, hleft⟩
    · exact node_remove_of_not_prefix (fun hpre => hx (hl.mono hpre)) left
    · by_cases hpre : l <+: x
      · have heq : x = l := Classical.byContradiction fun hne => hx ⟨hpre, hne⟩
        rw [heq]
        exact node_remove_of_left hleft (prefix_refl _)
      · exact node_remove_of_not_prefix hpre left

/-- What `removeAt` removes: the entry that the path ends in, or what a path that does not end in a proper name
leads to, which is then kept itself unless the path ends in a slash. -/
theorem removeAt_cases (host : Host) (fs : FileSystem) (dir : Path) (name : Name) :
    removeAt host fs dir name = fs ∨ ∃ l left, removeAt host fs dir name = fs.remove l left ∧
      (isProper name = true ∧ fs.entryAt host.cwd dir name = some l ∨
        isProper name = false ∧ fs.resolveAt host.cwd dir name = some l ∧ (name ≠ [] → l ∈ left)) := by
  rw [removeAt]
  split
  · rw [removeDirAll]
    split
    · rename_i hname
      cases hentry : fs.entryAt host.cwd dir name with
      | none => exact .inl rfl
      | some l =>
        simp only
        split
        · exact .inl rfl
        · exact .inr ⟨l, _, rfl, .inl ⟨hname, rfl⟩⟩
    · rename_i hname
      cases hentry : fs.resolveAt host.cwd dir name with
      | none => exact .inl rfl
      | some l =>
        simp only
        split
        · refine .inr ⟨l, _, rfl, .inr ⟨by simpa using hname, rfl, fun hne => ?_⟩⟩
          have hends : fs.endsInDirectory host.cwd dir name = false := by
            simp [endsInDirectory, hne]
          rw [hends]
          exact mem_cons_self
        · exact .inl rfl
  · rw [removeFile]
    cases hentry : fs.entryAt host.cwd dir name with
    | none => exact .inl rfl
    | some l =>
      simp only
      split
      · exact .inl rfl
      · refine .inr ⟨l, _, rfl, .inl ⟨?_, rfl⟩⟩
        rw [entryAt] at hentry
        split at hentry
        · assumption
        · cases hentry

/-- The directory `comps` below the target, as a path. -/
def belowTarget (target : Path) (comps : List Name) : Path := ⟨target.absolute, target.comps ++ comps⟩

theorem shrinks_removeAt (h : Leads fs host.cwd target root) (hdots : dotdot ∉ comps)
    (hlinks : NoLinks fs root comps) {name : Name} (hname : name ≠ dotdot) (hne : name ≠ [] ∨ comps ≠ []) :
    Shrinks root fs (removeAt host fs (belowTarget target comps) name) := by
  rcases removeAt_cases host fs (belowTarget target comps) name with heq | ⟨l, left, heq, hcases⟩
  · rw [heq]
    exact .refl _ _
  rw [heq]
  refine shrinks_remove ?_
  rcases hcases with ⟨hproper, hentry⟩ | ⟨hproper, hresolve, hleft⟩
  · rw [entryAt, if_pos hproper, Option.map_eq_some_iff] at hentry
    obtain ⟨d, hd, rfl⟩ := hentry
    rw [h.resolve_eq hdots hlinks hd]
    exact .inl (.of_append (prefix_append _ _) (cons_ne_nil _ _))
  · -- an improper name other than `..` is empty or `.`
    have hstay : name = [] ∨ name = [46] := by
      simpa [isProper, hname, or_comm, Classical.or_iff_not_imp_left] using hproper
    rw [resolveAt, if_pos hstay, append_nil] at hresolve
    rw [h.resolve_eq hdots hlinks hresolve] at hleft ⊢
    by_cases hcomps : comps = []
    · refine .inr ⟨by simp [hcomps], ?_⟩
      have hmem := hleft (hne.resolve_right fun hc => hc hcomps)
      simpa [hcomps] using hmem
    · exact .inl (.of_append (prefix_refl _) hcomps)

theorem shrinks_clearEntries (h : Leads fs host.cwd target root) (hdots : dotdot ∉ comps)
    (hlinks : NoLinks fs root comps) {names : List Name} (hnames : ∀ name ∈ names, isProper name = true) :
    Shrinks root fs (clearEntries host (belowTarget target comps) fs names) := by
  -- on the names: what was removed before leaves the target and the way to the directory as they were
  induction names generalizing fs with
  | nil => exact .refl _ _
  | cons name names ih =>
    rw [forall_mem_cons] at hnames
    have hstep : Shrinks root fs (if startsWith (fromUtf8Lossy name) ".wh." then fs else
        removeAt host fs (belowTarget target comps) name) := by
      split
      · exact .refl _ _
      · have hproper : name ≠ [] ∧ name ≠ dotdot := by
          have := hnames.1
          simp only [isProper, Bool.and_eq_true, bne_iff_ne] at this
          exact ⟨this.1.1, this.2⟩
        exact shrinks_removeAt h hdots hlinks hproper.2 (.inl hproper.1)
    exact hstep.trans (ih (h.of_outside hstep.outside) (hstep.noLinks hlinks) hnames.2)

theorem isProper_of_mem_children {name : Name} (h : name ∈ fs.children l) : isProper name = true := by
  rw [mem_children, node_append_singleton] at h
  exact (fs.closed l name h).1

/-! ### Entries -/

theorem noLinks_of_inits (h : ∀ q ∈ comps.inits, isLink (fs.node (root ++ q)) = false) :
    NoLinks fs root comps := by
  intro q hq target hnode
  have hfalse := h q ((mem_inits _ _).2 hq)
  rw [hnode] at hfalse
  cases hfalse

theorem comps_ne_nil_of_entryName {path : Path} (h : entryName path ≠ .ordinary) : path.comps ≠ [] := by
  intro hnil
  refine h ?_
  have hname : filename path = "" := by simp [filename, Path.fileName, hnil]
  rw [entryName, hname]
  rfl

theorem entryDir_eq {path : Path} (hrel : path.absolute = false) (hne : path.comps ≠ []) :
    entryDir target path = belowTarget target path.comps.dropLast := by
  simp [entryDir, Path.parent, hne, Path.join, hrel, belowTarget]

theorem unpackEntry_outside (hunpack : UnpacksBelow host target) (h : Leads fs host.cwd target root)
    {entry : TarEntry} (hcareful : Careful root fs entry) (hl : ¬ Below root l) :
    (unpackEntry host target fs entry).1.node l = fs.node l := by
  rcases hcareful with hordinary | ⟨hrel, hdots, hremoves, hinits⟩
  · rw [unpackEntry, hordinary]
    exact hunpack fs root entry h l hl
  · rw [unpackEntry]
    cases hname : entryName (Path.ofBytes entry.path) with
    | ordinary => exact hunpack fs root entry h l hl
    | opq =>
      have hne := comps_ne_nil_of_entryName (by rw [hname]; exact nofun)
      have hdir := fun hmem => hdots (dropLast_subset _ hmem)
      simp only [entryDir_eq hrel hne, clearDir]
      split
      · refine (shrinks_clearEntries h hdir (noLinks_of_inits hinits) ?_).outside l hl
        exact fun _ => isProper_of_mem_children
      · rfl
    | whiteout realName =>
      have hne := comps_ne_nil_of_entryName (by rw [hname]; exact nofun)
      have hdir := fun hmem => hdots (dropLast_subset _ hmem)
      simp only [entryDir_eq hrel hne]
      rw [hname, removesBelow, Bool.and_eq_true, bne_iff_ne, Bool.or_eq_true, bne_iff_ne, bne_iff_ne]
        at hremoves
      exact (shrinks_removeAt h hdir (noLinks_of_inits hinits) hremoves.1 hremoves.2).outside l hl

/-- A layer whose whiteouts are all handled with care is unpacked below the target: every other location has
what it had. -/
theorem unpackLayer_outside (hunpack : UnpacksBelow host target) (h : Leads fs host.cwd target root)
    {entries : List (Option TarEntry)} (hcareful : CarefulAlong host target root fs entries)
    {l : Location} (hl : ¬ Below root l) :
    (unpackLayer host target fs entries).1.node l = fs.node l := by
  induction entries generalizing fs with
  | nil => rfl
  | cons entry entries ih =>
    cases entry with
    | none => rfl
    | some entry =>
      have hout : ∀ l, ¬ Below root l → (unpackEntry host target fs entry).1.node l = fs.node l :=
        fun _ => unpackEntry_outside hunpack h hcareful.1
      rw [unpackLayer]
      split
      · rename_i hok
        rw [ih (h.of_outside hout) (hcareful.2 hok), hout l hl]
      · exact hout l hl

theorem unpacksBelow_plain (cwd : Location) (target : Path) : UnpacksBelow (.plain cwd) target := by
  intro fs root entry h l hl
  have hroot : fs.resolve cwd target = some root := walk_mono (fun _ _ => Leads.node_of_pruned) h.resolves
  exact unpackIn_outside hroot (fun hpre => Classical.byContradiction fun hne => hl ⟨hpre, hne⟩) entry

private def cacheDir : Path := Path.ofBytes (utf8 "/cache")

private def treeOf (nodes : List (Location × Name × Node)) : FileSystem :=
  nodes.foldl (fun fs n => (fs.put n.1 n.2.1 n.2.2).getD fs) .empty

/-- A cache directory with one directory and one link in it, and a file elsewhere. -/
private def cacheAndEtc : FileSystem :=
  treeOf [([], utf8 "cache", .directory), ([], utf8 "etc", .directory),
    ([utf8 "etc"], utf8 "passwd", .file [1]), ([utf8 "cache"], utf8 "app", .directory),
    ([utf8 "cache", utf8 "app"], utf8 "old", .file [2]),
    ([utf8 "cache"], utf8 "link", .symlink (Path.ofBytes (utf8 "/etc")))]

private def fileEntry (path : String) : Option TarEntry := some ⟨utf8 path, .file []⟩

private def carefulLayer : List (Option TarEntry) :=
  [fileEntry "app/.wh..wh..opq", fileEntry "app/new", fileEntry ".wh.link"]

theorem unpackLayer_outside_file_elsewhere :
    (unpackLayer (.plain []) cacheDir cacheAndEtc carefulLayer).1.node [utf8 "cache", utf8 "app", utf8 "old"] =
        none ∧
      (unpackLayer (.plain []) cacheDir cacheAndEtc carefulLayer).1.node [utf8 "etc", utf8 "passwd"] =
        cacheAndEtc.node [utf8 "etc", utf8 "passwd"] := by
  have hleads : Leads cacheAndEtc [] cacheDir [utf8 "cache"] :=
    ⟨by decide +kernel, by decide +kernel, by decide +kernel⟩
  refine ⟨by decide +kernel, unpackLayer_outside (unpacksBelow_plain _ _) hleads ?_ ?_⟩
  · decide +kernel
  · decide +kernel

/-- Four entries, each of which removes a file outside the target: by `..`, by an absolute path, through a link
in the target, and by the name `..` after `.wh.`. -/
theorem whiteout_removes_outside_target :
    UnpacksBelow (.plain []) cacheDir ∧ Leads cacheAndEtc [] cacheDir [utf8 "cache"] ∧
      cacheAndEtc.node [utf8 "etc", utf8 "passwd"] = some (.file [1]) ∧
      ¬ Below [utf8 "cache"] [utf8 "etc", utf8 "passwd"] ∧
      ∀ path ∈ ["../etc/.wh.passwd", "/etc/.wh.passwd", "link/.wh.passwd", ".wh..."],
        (unpackLayer (.plain []) cacheDir cacheAndEtc [fileEntry path]).1.node
          [utf8 "etc", utf8 "passwd"] = none := by
  refine ⟨unpacksBelow_plain _ _, ⟨?_, ?_, ?_⟩, ?_, ?_, ?_⟩ <;> decide +kernel

end Z8s.Cri
