import Z8s.Compute.VolumeFiles
import Z8s.Files.Proofs.FileSystemProofs
import Z8s.Files.Proofs.LexicalProofs
import Z8s.Transition.Proofs.RunProofs

/-!
# Proofs: versions of a mounted object

A mount writes the files of its keys, and it takes nothing away. So the directory shows the version exactly if it had
no other entries before.
-/

namespace Z8s.Compute

open Rust Files Z8s.Types Transition
open Files.FileSystem Path

variable {cwd : Location} {fs fs' : FileSystem}
variable {limits : Nat → Option Nat} {ops : List FileOp} {l : Location} {dir key : String}

/-! ### Operations -/

theorem keeps_run (op : FileOp) (limit : Option Nat) (fs : FileSystem) : Keeps fs (op.run cwd limit fs).1 := by
  cases op with
  | createDirAll path => exact (sub_createDirAll fs cwd limit _).keeps
  | write path content =>
    rw [FileOp.run]
    split_ifs
    · exact .refl fs
    · exact keeps_writeFile fs cwd _ content limit
  | setPermissions path mode => exact .refl fs

theorem keeps_runAll (limits : Nat → Option Nat) (fs : FileSystem) (ops : List FileOp) :
    Keeps fs (runAll cwd limits fs ops).1 := by
  induction ops generalizing limits fs with
  | nil => exact .refl fs
  | cons op ops ih =>
    unfold runAll
    dsimp only
    split_ifs
    · exact keeps_run op _ fs
    · exact (keeps_run op _ fs).trans (ih _ _)

/-- What has to succeed when all goes well. -/
theorem runAll_cons {op : FileOp} (h : (runAll cwd limits fs (op :: ops)).2 = true) :
    (op.required = true → (op.run cwd (limits 0) fs).2 = true) ∧
      runAll cwd limits fs (op :: ops) = runAll cwd (fun i => limits (i + 1)) (op.run cwd (limits 0) fs).1 ops := by
  have hrun : runAll cwd limits fs (op :: ops) =
      if op.required && !(op.run cwd (limits 0) fs).2 then ((op.run cwd (limits 0) fs).1, false)
      else runAll cwd (fun i => limits (i + 1)) (op.run cwd (limits 0) fs).1 ops := rfl
  rw [hrun] at h ⊢
  split_ifs at h ⊢ with hfails
  rw [Bool.and_eq_true, not_and, Bool.not_eq_true', Bool.not_eq_false] at hfails
  exact ⟨hfails, rfl⟩

/-! ### Files of keys -/

/-- The operations write one file for each entry, in their order. -/
inductive WritesFiles (dir : String) : List (String × List UInt8) → List FileOp → Prop
  | nil : WritesFiles dir [] []
  | write {e es ops}
      (rest : WritesFiles dir es ops) : WritesFiles dir (e :: es) (.write (Path.joinStr dir e.1) e.2 :: ops)
  | setPermissions {es ops} (path : String) (mode : Nat)
      (rest : WritesFiles dir es ops) : WritesFiles dir es (.setPermissions path mode :: ops)

theorem writesFiles_map (dir : String) (es : List (String × List UInt8)) :
    WritesFiles dir es (es.map fun e => .write (joinStr dir e.1) e.2) := by
  induction es with
  | nil => exact .nil
  | cons e es ih => exact .write ih

theorem writesFiles_flatMap (dir : String) (es : List (String × List UInt8)) :
    WritesFiles dir es (es.flatMap fun e => secretFile dir e.1 e.2) := by
  induction es with
  | nil => exact .nil
  | cons e es ih => exact .write (.setPermissions _ _ ih)

theorem exists_writesFiles {o : MountedObject} (r : Resolution o) :
    ∃ ops, (volumeSource r.ctx o.ns r.podUid r.vol).1 = .createDirAll o.dir :: ops ∧
      WritesFiles o.dir r.version.entries ops := by
  have hgives := r.gives
  unfold volumeSource
  rw [r.noHostPath, r.noEmptyDir, r.base_eq]
  cases hversion : r.version with
  | configMap cm =>
    rw [hversion] at hgives
    obtain ⟨hkind, hvol, hget⟩ := hgives
    have hdir : o.dir = o.base ++ "/configmaps/" ++ o.ns ++ "/" ++ o.name := by rw [MountedObject.dir, hkind]
    refine ⟨materializeConfigmap cm o.dir, by simp [hvol, hget, hdir], ?_⟩
    have hops : materializeConfigmap cm o.dir =
        (ObjectVersion.configMap cm).entries.map fun e => .write (joinStr o.dir e.1) e.2 := by
      simp [materializeConfigmap, ObjectVersion.entries, Function.comp_def]
    rw [hops]
    exact writesFiles_map _ _
  | secret sec =>
    rw [hversion] at hgives
    obtain ⟨hkind, hcm, hvol, hget⟩ := hgives
    have hdir : o.dir = o.base ++ "/secrets/" ++ o.ns ++ "/" ++ o.name := by rw [MountedObject.dir, hkind]
    refine ⟨materializeSecret sec o.dir, by simp [hcm, hvol, hget, hdir], ?_⟩
    have hops : materializeSecret sec o.dir =
        (ObjectVersion.secret sec).entries.flatMap fun e => secretFile o.dir e.1 e.2 := by
      simp [materializeSecret, ObjectVersion.entries, List.flatMap_map]
    rw [hops]
    exact writesFiles_flatMap _ _

theorem ofStr_joinStr_plain (dir : String) (h : PlainKey key) :
    ofStr (joinStr dir key) = (ofStr dir).child (utf8 key) := by
  have hrelative : (ofStr key).absolute = false := by
    have hbyte : 47 ∉ utf8 key := fun hmem => h.1 ((ascii_mem_utf8_iff (c := '/') (by decide)).1 hmem)
    rw [ofStr, ofBytes, beq_eq_false_iff_ne]
    exact fun hhead => hbyte (List.mem_of_mem_head? hhead)
  rw [ofStr_joinStr, join, hrelative, if_neg Bool.false_ne_true, comps_ofStr h.1 h.2, child]

def OnlyFiles (fs : FileSystem) (l : Location) : Prop :=
  ∀ name n, fs.node (l ++ [name]) = some n → ∃ c, n = .file c

theorem node_write {content : List UInt8} {limit : Option Nat} (hkey : PlainKey key)
    (hdir : fs.resolve cwd (.ofStr dir) = some l) (hfiles : OnlyFiles fs l)
    (h : ((FileOp.write (joinStr dir key) content).run cwd limit fs).2 = true) (x : Location) :
    ((FileOp.write (joinStr dir key) content).run cwd limit fs).1.node x =
      if x = l ++ [utf8 key] then some (.file content) else fs.node x := by
  rw [FileOp.run] at h ⊢
  by_cases hends : endsInDir (utf8 (joinStr dir key)) = true
  · rw [if_pos hends] at h
    cases h
  · rw [if_neg hends, ofStr_joinStr_plain dir hkey] at h ⊢
    exact node_writeFile_child hkey.2 hdir (hfiles _) (Prod.ext rfl h) x

/-- In a directory of files, every name stands for the value of a last key that has it, or for what it stood for
before. -/
theorem runAll_writesFiles {es : List (String × List UInt8)} (hops : WritesFiles dir es ops)
    (hplain : ∀ e ∈ es, PlainKey e.1) (hdir : fs.resolve cwd (.ofStr dir) = some l)
    (hfiles : OnlyFiles fs l) (h : (runAll cwd limits fs ops).2 = true) (name : Name) :
    (∃ e ∈ es, utf8 e.1 = name ∧ (runAll cwd limits fs ops).1.node (l ++ [name]) = some (.file e.2)) ∨
      ((∀ e ∈ es, utf8 e.1 ≠ name) ∧ (runAll cwd limits fs ops).1.node (l ++ [name]) = fs.node (l ++ [name])) := by
  induction hops generalizing fs limits with
  | nil => exact .inr ⟨by simp, rfl⟩
  | @write e es ops rest ih =>
    have hkey := hplain e List.mem_cons_self
    obtain ⟨hwritten, hrun⟩ := runAll_cons h
    have hnode := node_write hkey hdir hfiles (hwritten rfl)
    have hkeeps : Keeps fs ((FileOp.write (joinStr dir e.1) e.2).run cwd (limits 0) fs).1 := keeps_run _ _ fs
    have hfiles' : OnlyFiles ((FileOp.write (joinStr dir e.1) e.2).run cwd (limits 0) fs).1 l := by
      intro name n hn
      rw [hnode] at hn
      split_ifs at hn
      · exact ⟨e.2, (Option.some.inj hn).symm⟩
      · exact hfiles name n hn
    rw [hrun] at h ⊢
    rcases ih (fun e he => hplain e (List.mem_cons_of_mem _ he)) (hkeeps.resolve hdir) hfiles' h with
      ⟨e', he', hname, hfile⟩ | ⟨hothers, hsame⟩
    · exact .inl ⟨e', List.mem_cons_of_mem _ he', hname, hfile⟩
    · -- no later entry has the name, so this write decides
      by_cases hname : utf8 e.1 = name
      · refine .inl ⟨e, List.mem_cons_self, hname, ?_⟩
        rw [hsame, hnode, if_pos (by rw [hname])]
      · refine .inr ⟨fun e' he' => ?_, ?_⟩
        · rcases List.mem_cons.1 he' with rfl | he'
          · exact hname
          · exact hothers e' he'
        · rw [hsame, hnode, if_neg]
          exact fun heq => hname (List.singleton_inj.1 (List.append_cancel_left heq)).symm
  | setPermissions path mode rest ih =>
    rw [(runAll_cons h).2] at h ⊢
    exact ih hplain hdir hfiles h

/-! ### Mounts -/

section Mounts

variable {o : MountedObject} {r : Resolution o}

theorem comps_dir_ne_nil (o : MountedObject) : (ofStr o.dir).comps ≠ [] := by
  have hbelow (kind rest : String) (hkind : (ofStr kind).comps ≠ []) :
      (ofStr (o.base ++ "/" ++ kind ++ "/" ++ rest)).comps ≠ [] := by
    rw [comps_ofStr_append, comps_ofStr_append]
    simp [hkind]
  unfold MountedObject.dir
  cases o.kind with
  | configMap =>
    have hdir : "/configmaps/" = "/" ++ "configmaps" ++ "/" := rfl
    simpa only [hdir, String.append_assoc] using hbelow "configmaps" (o.ns ++ "/" ++ o.name) (by decide)
  | secret =>
    have hdir : "/secrets/" = "/" ++ "secrets" ++ "/" := rfl
    simpa only [hdir, String.append_assoc] using hbelow "secrets" (o.ns ++ "/" ++ o.name) (by decide)

/-- A mount without an error: the directory is there, and the files are written from the tree that has it. -/
theorem run_eq (h : (r.run cwd fs).2 = true) : ∃ l ops limits, WritesFiles o.dir r.version.entries ops ∧
    (r.made cwd fs).resolve cwd (.ofStr o.dir) = some l ∧ (r.made cwd fs).node l = some .directory ∧
      r.run cwd fs = runAll cwd limits (r.made cwd fs) ops := by
  obtain ⟨ops, hops, hwrites⟩ := exists_writesFiles r
  rw [Resolution.run, hops] at h ⊢
  obtain ⟨hmade, hrun⟩ := runAll_cons h
  have hself : ofStr o.dir ∈ (ofStr o.dir).ancestors := by
    obtain ⟨comp, comps, hcomps⟩ := List.exists_cons_of_ne_nil (comps_dir_ne_nil o)
    rw [ancestors]
    exact List.mem_map.2 ⟨(ofStr o.dir).comps, by simp [hcomps], rfl⟩
  have hdir : (r.made cwd fs).isDirectory cwd (.ofStr o.dir) = true :=
    isDirectory_createDirAll (Prod.ext rfl (hmade rfl)) hself
  rw [isDirectory, beq_iff_eq] at hdir
  obtain ⟨l, hl, hnode⟩ := Option.bind_eq_some_iff.1 hdir
  exact ⟨l, ops, _, hwrites, hl, hnode, hrun⟩

/-- One mount: the directory shows its version exactly if it had only files of its keys. -/
theorem shows_iff (h : (r.run cwd fs).2 = true) :
    (∃ l, Shows o cwd (r.run cwd fs).1 r.version l) ↔
      ∀ l ∈ (r.made cwd fs).resolve cwd (.ofStr o.dir), ∀ name ∈ (r.made cwd fs).children l,
        (∃ e ∈ r.version.entries, utf8 e.1 = name) ∧
          ∃ content, (r.made cwd fs).node (l ++ [name]) = some (.file content) := by
  obtain ⟨l, ops, limits, hops, hl, hdir, hrun⟩ := run_eq h
  have hkeeps : Keeps (r.made cwd fs) (r.run cwd fs).1 := by
    rw [hrun]
    exact keeps_runAll _ _ _
  constructor
  · rintro ⟨l', hshows⟩ l'' hl'' name hname
    obtain rfl := Option.some.inj (hl.symm.trans hl'')
    obtain rfl := Option.some.inj ((hkeeps.resolve hl).symm.trans hshows.resolves)
    obtain ⟨e, he, rfl⟩ := hshows.nothingElse name (mem_children.2 (hkeeps.isSome (mem_children.1 hname)))
    refine ⟨⟨e, he, rfl⟩, ?_⟩
    -- a link or a directory would still be one
    obtain ⟨n, hn⟩ := Option.isSome_iff_exists.1 (mem_children.1 hname)
    obtain ⟨e', -, -, hfile⟩ := hshows.files e he
    rcases hkeeps _ n hn with hsame | ⟨c, -, rfl, -⟩
    · rw [hsame] at hfile
      cases hfile
      exact ⟨_, hn⟩
    · exact ⟨c, hn⟩
  · intro hkept
    have hfiles : OnlyFiles (r.made cwd fs) l := by
      intro name n hn
      obtain ⟨-, content, hcontent⟩ := hkept l hl name (mem_children.2 (by rw [hn]; rfl))
      exact ⟨content, Option.some.inj (hn.symm.trans hcontent)⟩
    rw [hrun] at h
    have hwritten := runAll_writesFiles hops r.plain hl hfiles h
    refine ⟨l, hkeeps.resolve hl, hkeeps.node_directory hdir, fun e he => ?_, fun name hname => ?_⟩
    · rw [hrun]
      rcases hwritten (utf8 e.1) with ⟨e', he', hsame, hfile⟩ | ⟨hnone, -⟩
      · exact ⟨e', he', utf8_injective hsame, hfile⟩
      · exact absurd rfl (hnone e he)
    · rw [hrun] at hname
      rcases hwritten name with ⟨e, he, hname', -⟩ | ⟨-, hsame⟩
      · exact ⟨e, he, hname'⟩
      · rw [mem_children, hsame] at hname
        exact (hkept l hl name (mem_children.2 hname)).1

/-- Over any sequence of versions, the directory shows the current one after every mount without an error exactly if
none of those mounts finds an entry in it that is no file of a key of its own version. -/
theorem showsCurrent_always_iff (o : MountedObject) (cwd : Location) (fs : FileSystem) (rs : List (Resolution o)) :
    Always (VolumeState.step o cwd) (ShowsCurrent o cwd) { fs } rs ↔
      Along (VolumeState.step o cwd) (EntriesKept o cwd) { fs } rs := by
  have hstep {s s' : VolumeState} {r : Resolution o} (h : s.step o cwd r = some s') :
      ShowsCurrent o cwd s' ↔ EntriesKept o cwd s r := by
    cases h
    unfold ShowsCurrent EntriesKept
    by_cases hok : (r.run cwd s.fs).2 = true
    · simp only [hok, if_true, Option.mem_def, Option.some.injEq, forall_eq', true_implies]
      exact shows_iff hok
    · simp [hok]
  refine always_iff_along (I := ShowsCurrent o cwd) (fun s r s' _ hok h => (hstep h).2 hok) (fun s hs => hs)
    (fun s r s' _ h hs' => (hstep h).1 hs') (fun v hv => by cases hv) (isSome_run (fun s r => rfl) _ _)

theorem shows_second {r' : Resolution o}
    (h : Always (VolumeState.step o cwd) (ShowsCurrent o cwd) { fs } [r, r'])
    (hok : (r'.run cwd (r.run cwd fs).1).2 = true) : ∃ l, Shows o cwd (r'.run cwd (r.run cwd fs).1).1 r'.version l :=
  (h.2 _ rfl).2 _ rfl _ (if_pos hok)

end Mounts

private def mountedSettings : MountedObject := ⟨"/z8s", .configMap, "default", "settings"⟩

private def settingsWith (entries : List (String × String)) : ConfigMap where
  metadata := { name := some "settings" }
  data := some (entries.foldl (fun m e => m.insert e.1 e.2) ∅)

private def mountSettings (entries : List (String × String))
    (plain : ∀ e ∈ (ObjectVersion.configMap (settingsWith entries)).entries, PlainKey e.1) :
    Resolution mountedSettings where
  ctx := ⟨"/z8s", fun _ _ => some (settingsWith entries), fun _ _ => none, fun _ _ => none⟩
  podUid := "Pod/default/web"
  vol := { name := "settings", configMap := some "settings" }
  version := .configMap (settingsWith entries)
  limits := fun _ => none
  base_eq := rfl
  noHostPath := rfl
  noEmptyDir := rfl
  gives := ⟨rfl, rfl, rfl⟩
  plain := plain

private def withBoth : Resolution mountedSettings := mountSettings [("a", "1"), ("b", "2")] (by decide +kernel)

private def withOne : Resolution mountedSettings := mountSettings [("a", "1")] (by decide +kernel)

private def mountedTwice : FileSystem × Bool := withOne.run [] (withBoth.run [] .empty).1

private def settingsDir : Location := ["z8s", "configmaps", "default", "settings"].map utf8

/-- The key `b` is removed from a ConfigMap, and the next pod that mounts it still finds the file. -/
theorem removed_key_stays :
    ¬ Always (VolumeState.step mountedSettings []) (ShowsCurrent mountedSettings []) { fs := .empty }
      [withBoth, withOne] := by
  have hok : mountedTwice.2 = true := by decide +kernel
  have hdir : mountedTwice.1.resolve [] (.ofStr mountedSettings.dir) = some settingsDir := by decide +kernel
  have hfile : (mountedTwice.1.node (settingsDir ++ [utf8 "b"])).isSome = true := by decide +kernel
  have hkeys : ∀ e ∈ withOne.version.entries, utf8 e.1 ≠ utf8 "b" := by decide +kernel
  intro halways
  obtain ⟨l, hl⟩ : ∃ l, Shows mountedSettings [] mountedTwice.1 withOne.version l := shows_second halways hok
  obtain rfl := Option.some.inj (hdir.symm.trans hl.resolves)
  obtain ⟨e, he, hname⟩ := hl.nothingElse (utf8 "b") (mem_children.2 hfile)
  exact hkeys e he hname

end Z8s.Compute
