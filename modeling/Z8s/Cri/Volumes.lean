import Z8s.Files.Lexical
import Z8s.Types

/-!
# Volumes in the root file system of a container

Model of `src/cri/volumes.rs`: where volumes are put in a root file system (`scrub_rootfs_volume_mounts`,
`stage_volumes_in_rootfs`, `bind_mount_volumes`), and what `cleanup_emptydir` removes. What the file system
answers while a volume is installed is an argument.
-/

namespace Z8s.Cri

open Rust Files Z8s.Types

variable (base rootfs : String)

structure ResolvedVolume where
  hostPath : String
  containerPath : String
  readOnly : Bool
  deriving DecidableEq, Repr

/-! ### Targets in a root file system -/

/-- What is done to the file system. A mount that is made read-only is mounted once more. -/
inductive VolumeOp
  | removeFile (dst : Path)
  | removeDirAll (dst : Path)
  | createDir (dst : Path)
  | symlink (src dst : Path)
  | copy (src dst : Path)
  | write (dst : Path)
  | mount (src dst : Path) (readOnly : Bool)
  | createSource (src : Path)
  deriving DecidableEq, Repr

def VolumeOp.target : VolumeOp → Option Path
  | removeFile dst | removeDirAll dst | createDir dst | symlink _ dst | copy _ dst | write dst
  | mount _ dst _ => some dst
  | createSource _ => none

mutual

/-- What is at a path of the host. The entries of a directory have proper names. -/
inductive SourceTree
  | file
  | dir (entries : SourceEntries)
  | other

inductive SourceEntries
  | nil
  | cons (name : Name) (proper : isProper name = true) (tree : SourceTree) (rest : SourceEntries)

end

structure InstallEnv where
  dstExists : Bool
  dstIsSymlink : Bool
  dstIsDir : Bool
  dstIsFile : Bool
  /-- The destination exists after what was there has been removed. -/
  dstExistsLater : Bool
  srcExists : Bool
  srcIsDir : Bool
  srcIsFile : Bool
  /-- The directories that are missing when `create_dir_all` gets to them. -/
  missing : Path → Bool
  tree : SourceTree
  linked : Bool
  mounted : Bool
  /-- How many operations `copy_tree` gets to. -/
  copied : Nat

def isEmptydirHostPath (hostPath : String) : Bool := contains hostPath "/emptydir/"

/-- `create_dir_all`: the paths that are missing, from the top. A path that ends with `..` is never
created. -/
def createDirAll (missing : Path → Bool) (p : Path) : List VolumeOp :=
  (p.ancestors.filter fun q => missing q && q.comps.getLast? != some dotdot).map .createDir

def createParent (missing : Path → Bool) (p : Path) : List VolumeOp :=
  match p.parent with
  | some parent => createDirAll missing parent
  | none => []

mutual

def copyTree (missing : Path → Bool) (src dst : Path) : SourceTree → List VolumeOp
  | .file => createParent missing dst ++ [.copy src dst]
  | .dir entries => createDirAll missing dst ++ copyEntries missing src dst entries
  | .other => []

def copyEntries (missing : Path → Bool) (src dst : Path) : SourceEntries → List VolumeOp
  | .nil => []
  | .cons name _ tree rest =>
    copyTree missing (src.child name) (dst.child name) tree ++ copyEntries missing src dst rest

end

def joinedTarget (vol : ResolvedVolume) : Path :=
  (Path.ofStr rootfs).join (.ofStr (trimStartMatches '/' vol.containerPath))

def concatTarget (vol : ResolvedVolume) : Path := .ofStr (rootfs ++ vol.containerPath)

def removeTarget (e : InstallEnv) (dst : Path) : List VolumeOp :=
  if e.dstExists || e.dstIsSymlink then
    if e.dstIsDir && !e.dstIsSymlink then [.removeDirAll dst] else [.removeFile dst]
  else []

def scrubVolume (e : InstallEnv) (vol : ResolvedVolume) : List VolumeOp :=
  removeTarget e (joinedTarget rootfs vol)

def stageVolume (e : InstallEnv) (vol : ResolvedVolume) : List VolumeOp :=
  let dst := joinedTarget rootfs vol
  let src := Path.ofStr vol.hostPath
  removeTarget e dst ++ createParent e.missing dst ++
    if isEmptydirHostPath vol.hostPath then createDirAll e.missing dst
    else if e.srcIsDir then
      if e.linked then [.symlink src dst] else (copyTree e.missing src dst e.tree).take e.copied
    else if e.srcIsFile then
      if e.linked then [.symlink src dst] else [.copy src dst]
    else []

def bindMountVolume (e : InstallEnv) (vol : ResolvedVolume) : List VolumeOp :=
  let dst := concatTarget rootfs vol
  let src := Path.ofStr vol.hostPath
  let emptydir := isEmptydirHostPath vol.hostPath
  (if e.srcExists then [] else [.createSource src]) ++
  (if e.dstExists || e.dstIsSymlink then
    if e.dstIsSymlink || e.dstIsFile then [.removeFile dst]
    else if e.dstIsDir && emptydir then [.removeDirAll dst]
    else []
  else []) ++
  (if e.srcIsDir then createDirAll e.missing dst
  else createParent e.missing dst ++
    if dst.parent.isSome && !e.dstExistsLater then [.write dst] else []) ++
  if e.mounted then
    .mount src dst false :: if vol.readOnly then [.mount src dst true] else []
  else if emptydir then
    if e.linked then [.symlink src dst] else []
  else (copyTree e.missing src dst e.tree).take e.copied

def forVolumes (one : InstallEnv → ResolvedVolume → List VolumeOp) (env : Nat → InstallEnv)
    (volumes : List ResolvedVolume) : List VolumeOp :=
  volumes.zipIdx.flatMap fun e => one (env e.2) e.1

def scrubRootfsVolumeMounts (env : Nat → InstallEnv) (volumes : List ResolvedVolume) : List VolumeOp :=
  forVolumes (scrubVolume rootfs) env volumes

def stageVolumesInRootfs (env : Nat → InstallEnv) (volumes : List ResolvedVolume) : List VolumeOp :=
  forVolumes (stageVolume rootfs) env volumes

def bindMountVolumes (env : Nat → InstallEnv) (volumes : List ResolvedVolume) : List VolumeOp :=
  forVolumes (bindMountVolume rootfs) env volumes

/-! ### Staying in the root file system -/

/-- The path leads to the root file system or to a directory above it. -/
def Above (rootfs p : Path) : Prop := p.absolute = rootfs.absolute ∧ p.normal <+: rootfs.normal
  deriving Decidable

/-- The root file system is there, and so are the directories above it. -/
def InstallEnv.Fits (e : InstallEnv) : Prop :=
  ∀ p, e.missing p = true → ¬ Above (.ofStr rootfs) p

/-- Whatever the file system answers, all destinations are below the root file system. -/
def TargetsStay (volumes : List ResolvedVolume) : Prop :=
  ∀ env₁ env₂ env₃ : Nat → InstallEnv,
    (∀ i, (env₁ i).Fits rootfs ∧ (env₂ i).Fits rootfs ∧ (env₃ i).Fits rootfs) →
      ∀ op ∈ scrubRootfsVolumeMounts rootfs env₁ volumes ++ stageVolumesInRootfs rootfs env₂ volumes ++
        bindMountVolumes rootfs env₃ volumes, ∀ dst ∈ op.target, Path.StrictlyUnder (.ofStr rootfs) dst

/-- A destination leads to a place below the root file system, and so does every path on the way to it
that may have to be created. -/
def TargetOk (rootfs dst : Path) : Prop :=
  Path.StrictlyUnder rootfs dst ∧ ∀ p ∈ dst.ancestors, p.comps.getLast? ≠ some dotdot →
    Above rootfs p ∨ Path.StrictlyUnder rootfs p
  deriving Decidable

/-! ### Directories of emptyDir volumes -/

def safeUid (podUid : String) : String := replaceChar '/' '_' podUid

def emptyDirBase : String := base ++ "/emptydir"

def emptyDirPath (podUid volume : String) : String :=
  emptyDirBase base ++ "/" ++ safeUid podUid ++ "-" ++ volume

/-- The entries of the directory `emptydir` that `cleanup_emptydir` removes, with all that is in them. -/
def cleanupEmptydir (podUid : String) (entries : List Name) : List Name :=
  entries.filter fun name => startsWith (fromUtf8Lossy name) (safeUid podUid ++ "-")

/-! ### Pods and their directories -/

def isNameChar (c : Char) : Bool := c.isLower || c.isDigit || c == '-' || c == '.'

structure PodName where
  ns : String
  name : String
  ns_chars : ns.toList.all isNameChar = true
  name_chars : name.toList.all isNameChar = true

def PodName.uid (p : PodName) : String :=
  (AnyResource.pod { metadata := { name := some p.name, inNamespace := some p.ns } }).uid

def emptyDirRoot : List Name := (Path.ofStr (emptyDirBase base)).normal

def emptyDirLocation (p : PodName) (volume : String) : List Name :=
  (Path.ofStr (emptyDirPath base p.uid volume)).normal

def entryOf (location : List Name) : Option Name :=
  if emptyDirRoot base <+: location then (location.drop (emptyDirRoot base).length).head? else none

/-- The clean-up for a pod removes what is at a location. -/
def Removes (p : PodName) (entries location : List Name) : Prop :=
  ∃ entry ∈ cleanupEmptydir p.uid entries, emptyDirRoot base ++ [entry] <+: location

/-- Volumes of two pods have got different directories, and the clean-up for one pod removes its own
directory and not the other one. -/
structure Separate (base : String) (p : PodName) (v : String) (q : PodName) (w : String) : Prop where
  different : emptyDirLocation base p v ≠ emptyDirLocation base q w
  cleanup : ∀ entries : List Name,
    (∀ entry ∈ entryOf base (emptyDirLocation base p v), entry ∈ entries) →
    (∀ entry ∈ entryOf base (emptyDirLocation base q w), entry ∈ entries) →
      Removes base p entries (emptyDirLocation base p v) ∧ ¬ Removes base p entries (emptyDirLocation base q w) ∧
        Removes base q entries (emptyDirLocation base q w) ∧ ¬ Removes base q entries (emptyDirLocation base p v)

/-- What the names of the directories of a pod begin with. -/
def dirMark (p : PodName) : String := safeUid p.uid ++ "-"

end Z8s.Cri
