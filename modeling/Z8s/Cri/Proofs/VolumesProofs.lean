import Z8s.Cri.Volumes
import Z8s.Files.Proofs.LexicalProofs

/-!
# Proofs: volumes in the root file system of a container

Every operation is on the destination of its volume, on a path above it that is missing, or on a
path below it that `copy_tree` reaches through proper names.
-/

namespace Z8s.Cri

open Files

variable {rootfs dst p : Path} {missing : Path → Bool}
variable {env : Nat → InstallEnv} {ops : List VolumeOp} {op : VolumeOp} {volumes : List ResolvedVolume}

theorem TargetOk.child (h : TargetOk rootfs dst) {name : Name} (hname : isProper name = true) :
    TargetOk rootfs (dst.child name) := by
  have hne : name ≠ dotdot := by
    rintro rfl
    cases hname
  refine ⟨h.1.child hne, fun p hp hlast => ?_⟩
  rcases Path.mem_ancestors_child.1 hp with hp | rfl
  · exact h.2 p hp hlast
  · exact .inr (h.1.child hne)

/-! ### Operations -/

def AllBelow (rootfs : Path) (ops : List VolumeOp) : Prop :=
  ∀ op ∈ ops, ∀ dst ∈ op.target, Path.StrictlyUnder rootfs dst

theorem allBelow_nil (rootfs : Path) : AllBelow rootfs [] := by simp [AllBelow]

theorem allBelow_append {ops' : List VolumeOp} :
    AllBelow rootfs (ops ++ ops') ↔ AllBelow rootfs ops ∧ AllBelow rootfs ops' := by
  simp only [AllBelow, List.forall_mem_append]

theorem AllBelow.take (h : AllBelow rootfs ops) (n : Nat) :
    AllBelow rootfs (ops.take n) := fun op hop => h op (List.mem_of_mem_take hop)

theorem mem_createDirAll :
    op ∈ createDirAll missing dst ↔ ∃ p ∈ dst.ancestors,
      (missing p = true ∧ p.comps.getLast? ≠ some dotdot) ∧ .createDir p = op := by
  simp [createDirAll, and_assoc]

/-- No directory that is missing is one of those above the root file system. -/
def MissingBelow (rootfs : Path) (missing : Path → Bool) : Prop := ∀ p, missing p = true → ¬ Above rootfs p

theorem allBelow_createDirAll (hmissing : MissingBelow rootfs missing)
    (h : ∀ p ∈ dst.ancestors, p.comps.getLast? ≠ some dotdot → Above rootfs p ∨ Path.StrictlyUnder rootfs p) :
    AllBelow rootfs (createDirAll missing dst) := by
  intro op hop target htarget
  obtain ⟨p, hp, ⟨hmiss, hlast⟩, rfl⟩ := mem_createDirAll.1 hop
  obtain rfl : p = target := Option.some.inj htarget
  exact (h p hp hlast).resolve_left (hmissing p hmiss)

namespace TargetOk

theorem allBelow_createParent (h : TargetOk rootfs dst) (hmissing : MissingBelow rootfs missing) :
    AllBelow rootfs (createParent missing dst) := by
  unfold createParent
  cases hparent : dst.parent with
  | none => exact allBelow_nil _
  | some parent =>
    refine allBelow_createDirAll hmissing fun p hp hlast => h.2 p ?_ hlast
    exact Path.mem_ancestors_iff_parent.2 (.inr ⟨parent, hparent, hp⟩)

theorem allBelow_singleton (h : TargetOk rootfs dst) (hop : op.target = some dst) :
    AllBelow rootfs [op] := by
  intro op' hmem target htarget
  obtain rfl := List.mem_singleton.1 hmem
  obtain rfl : dst = target := Option.some.inj (hop.symm.trans htarget)
  exact h.1

mutual

theorem allBelow_copyTree {dst : Path} (h : TargetOk rootfs dst) (hmissing : MissingBelow rootfs missing)
    (src : Path) : ∀ tree : SourceTree, AllBelow rootfs (copyTree missing src dst tree)
  | .file => by
    rw [copyTree, allBelow_append]
    exact ⟨h.allBelow_createParent hmissing, h.allBelow_singleton rfl⟩
  | .dir entries => by
    rw [copyTree, allBelow_append]
    exact ⟨allBelow_createDirAll hmissing h.2, h.allBelow_copyEntries hmissing src entries⟩
  | .other => allBelow_nil _

theorem allBelow_copyEntries {dst : Path} (h : TargetOk rootfs dst) (hmissing : MissingBelow rootfs missing)
    (src : Path) : ∀ entries : SourceEntries, AllBelow rootfs (copyEntries missing src dst entries)
  | .nil => allBelow_nil _
  | .cons name proper tree rest => by
    rw [copyEntries, allBelow_append]
    exact ⟨(h.child proper).allBelow_copyTree hmissing _ tree, h.allBelow_copyEntries hmissing src rest⟩

end

end TargetOk

/-! ### One volume -/

section Volume

variable {root : String} {e : InstallEnv} {vol : ResolvedVolume}

theorem TargetOk.allBelow_removeTarget (h : TargetOk rootfs dst) : AllBelow rootfs (removeTarget e dst) := by
  unfold removeTarget
  split_ifs
  · exact h.allBelow_singleton rfl
  · exact h.allBelow_singleton rfl
  · exact allBelow_nil _

theorem allBelow_stageVolume (h : TargetOk (.ofStr root) (joinedTarget root vol)) (he : e.Fits root) :
    AllBelow (.ofStr root) (stageVolume root e vol) := by
  unfold stageVolume
  rw [allBelow_append, allBelow_append]
  refine ⟨⟨h.allBelow_removeTarget, h.allBelow_createParent he⟩, ?_⟩
  split_ifs
  · exact allBelow_createDirAll he h.2
  · exact h.allBelow_singleton rfl
  · exact (h.allBelow_copyTree he _ _).take _
  · exact h.allBelow_singleton rfl
  · exact h.allBelow_singleton rfl
  · exact allBelow_nil _

theorem allBelow_bindMountVolume (h : TargetOk (.ofStr root) (concatTarget root vol)) (he : e.Fits root) :
    AllBelow (.ofStr root) (bindMountVolume root e vol) := by
  unfold bindMountVolume
  rw [allBelow_append, allBelow_append, allBelow_append]
  refine ⟨⟨⟨?_, ?_⟩, ?_⟩, ?_⟩
  · split_ifs
    · exact allBelow_nil _
    · simp [AllBelow, VolumeOp.target]
  · split_ifs
    · exact h.allBelow_singleton rfl
    · exact h.allBelow_singleton rfl
    · exact allBelow_nil _
    · exact allBelow_nil _
  · split_ifs
    · exact allBelow_createDirAll he h.2
    · exact allBelow_append.2 ⟨h.allBelow_createParent he, h.allBelow_singleton rfl⟩
    · exact allBelow_append.2 ⟨h.allBelow_createParent he, allBelow_nil _⟩
  · split_ifs
    · exact allBelow_append.2 ⟨h.allBelow_singleton rfl, h.allBelow_singleton rfl⟩
    · exact h.allBelow_singleton rfl
    · exact h.allBelow_singleton rfl
    · exact allBelow_nil _
    · exact (h.allBelow_copyTree he _ _).take _

/-- Everything is there at first, and everything below the root file system is missing. -/
def openEnv (rootfs : Path) : InstallEnv where
  dstExists := true
  dstIsSymlink := false
  dstIsDir := true
  dstIsFile := false
  dstExistsLater := false
  srcExists := true
  srcIsDir := false
  srcIsFile := false
  missing p := !decide (Above rootfs p)
  tree := .other
  linked := false
  mounted := true
  copied := 0

theorem fits_openEnv (root : String) : (openEnv (.ofStr root)).Fits root := by
  intro p hp
  simpa [openEnv] using hp

theorem targetOk_of_allBelow (hdst : Path.StrictlyUnder rootfs dst)
    (hparent : AllBelow rootfs (createParent (openEnv rootfs).missing dst)) : TargetOk rootfs dst := by
  refine ⟨hdst, fun p hp hlast => ?_⟩
  rcases Path.mem_ancestors_iff_parent.1 hp with ⟨rfl, -⟩ | ⟨parent, hdst, hp⟩
  · exact .inr hdst
  · by_cases habove : Above rootfs p
    · exact .inl habove
    · right
      rw [createParent, hdst] at hparent
      refine hparent (.createDir p) (mem_createDirAll.2 ⟨p, hp, ⟨?_, hlast⟩, rfl⟩) p rfl
      simp [openEnv, habove]

theorem targetOk_joinedTarget (hscrub : AllBelow (.ofStr root) (scrubVolume root (openEnv (.ofStr root)) vol))
    (hstage : AllBelow (.ofStr root) (stageVolume root (openEnv (.ofStr root)) vol)) :
    TargetOk (.ofStr root) (joinedTarget root vol) := by
  unfold stageVolume at hstage
  rw [allBelow_append, allBelow_append] at hstage
  exact targetOk_of_allBelow (hscrub (.removeDirAll _) List.mem_cons_self _ rfl) hstage.1.2

theorem targetOk_concatTarget (hbind : AllBelow (.ofStr root) (bindMountVolume root (openEnv (.ofStr root)) vol)) :
    TargetOk (.ofStr root) (concatTarget root vol) := by
  unfold bindMountVolume at hbind
  rw [allBelow_append, allBelow_append, allBelow_append] at hbind
  have hmounted := hbind.2 (.mount (.ofStr vol.hostPath) (concatTarget root vol) false) List.mem_cons_self _ rfl
  exact targetOk_of_allBelow hmounted (allBelow_append.1 hbind.1.2).1

end Volume

/-! ### All volumes -/

theorem mem_forVolumes {one : InstallEnv → ResolvedVolume → List VolumeOp} :
    op ∈ forVolumes one env volumes ↔ ∃ vol i, (vol, i) ∈ volumes.zipIdx ∧ op ∈ one (env i) vol := by
  simp [forVolumes]

section ForVolumes

variable {one : InstallEnv → ResolvedVolume → List VolumeOp} {volumes : List ResolvedVolume}

theorem AllBelow.of_forVolumes {e : InstallEnv} (h : AllBelow rootfs (forVolumes one (fun _ => e) volumes))
    {vol : ResolvedVolume} (hvol : vol ∈ volumes) : AllBelow rootfs (one e vol) := by
  obtain ⟨i, hi⟩ := List.mem_iff_getElem?.1 hvol
  intro op hop
  exact h op (mem_forVolumes.2 ⟨vol, i, List.mk_mem_zipIdx_iff_getElem?.2 hi, hop⟩)

theorem allBelow_forVolumes (h : ∀ vol ∈ volumes, ∀ i, AllBelow rootfs (one (env i) vol)) :
    AllBelow rootfs (forVolumes one env volumes) := by
  intro op hop
  obtain ⟨vol, i, hidx, hop⟩ := mem_forVolumes.1 hop
  exact h vol (List.fst_mem_of_mem_zipIdx hidx) i op hop

end ForVolumes

theorem TargetsStay.allBelow_openEnv {root : String} (h : TargetsStay root volumes) :
    AllBelow (.ofStr root) (scrubRootfsVolumeMounts root (fun _ => openEnv (.ofStr root)) volumes) ∧
      AllBelow (.ofStr root) (stageVolumesInRootfs root (fun _ => openEnv (.ofStr root)) volumes) ∧
      AllBelow (.ofStr root) (bindMountVolumes root (fun _ => openEnv (.ofStr root)) volumes) := by
  have hfits := fits_openEnv root
  have hall := h (fun _ => openEnv (.ofStr root)) (fun _ => openEnv (.ofStr root))
    (fun _ => openEnv (.ofStr root)) fun _ => ⟨hfits, hfits, hfits⟩
  obtain ⟨⟨hscrub, hstage⟩, hbind⟩ := (allBelow_append.1 hall).imp_left allBelow_append.1
  exact ⟨hscrub, hstage, hbind⟩

/-- One volume at `/` and one at `/../db`. -/
private def strayVolumes : List ResolvedVolume := [⟨"/data", "/", false⟩, ⟨"/data", "/../db", false⟩]

end Z8s.Cri
