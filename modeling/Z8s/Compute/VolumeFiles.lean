import Z8s.Compute.SpecBuilder
import Z8s.Cri.Spec
import Z8s.Files.Create
import Z8s.Transition.Run

/-!
# What `build_spec` does to the file system

The operations of `prepare_volumes` on a tree. What is outside of the tree is an argument: for an operation,
the limit at which it fails.

A ConfigMap or a Secret changes between the pods that mount it. What its directory holds is followed over any
sequence of versions.
-/

namespace Z8s.Compute

open Rust Files Z8s.Types Cri

/-- The tree after the operation, and whether it succeeded. Modes are not in the tree. -/
def FileOp.run (cwd : Location) (limit : Option Nat) (fs : FileSystem) : FileOp → FileSystem × Bool
  | createDirAll path => fs.createDirAll cwd limit (Path.ofStr path).ancestors
  | write path content =>
    if endsInDir (utf8 path) then (fs, false) else fs.writeFile cwd (.ofStr path) content limit
  | setPermissions _ _ => (fs, limit.isNone)

/-- The operations one after the other, up to the first one whose failure is fatal. -/
def runAll (cwd : Location) (limits : Nat → Option Nat) (fs : FileSystem) :
    List FileOp → FileSystem × Bool
  | [] => (fs, true)
  | op :: ops =>
    let done := op.run cwd (limits 0) fs
    if op.required && !done.2 then (done.1, false)
    else runAll cwd (fun i => limits (i + 1)) done.1 ops

/-- The tree after `prepare_volumes`. An error for one mount does not keep the next ones from being
prepared. -/
def prepareFiles (ctx : VolumeContext) (cwd : Location) (limits : Nat → Nat → Option Nat) (pod : Pod)
    (container podUid : String) (fs : FileSystem) : FileSystem :=
  (mountsOf pod container).zipIdx.foldl (fun fs mount =>
    match volumeNamed pod mount.1.name with
    | some vol => (runAll cwd (limits mount.2) fs (volumeSource ctx (podNamespace pod) podUid vol).1).1
    | none => fs) fs

/-- The tree after `build_spec`, which prepares the volumes of all containers with an image. -/
def buildFiles (ctx : VolumeContext) (cwd : Location) (limits : Nat → Nat → Nat → Option Nat) (pod : Pod)
    (fs : FileSystem) : FileSystem :=
  (buildSpec (.pod pod)).containers.zipIdx.foldl (fun fs cfg =>
    if cfg.1.isNative then fs
    else prepareFiles ctx cwd (limits cfg.2) pod cfg.1.containerName (AnyResource.pod pod).uid fs) fs

/-! ### Versions of a mounted object -/

inductive ObjectKind
  | configMap
  | secret
  deriving DecidableEq, Repr

structure MountedObject where
  base : String
  kind : ObjectKind
  ns : String
  name : String

def MountedObject.dir (o : MountedObject) : String :=
  match o.kind with
  | .configMap => o.base ++ "/configmaps/" ++ o.ns ++ "/" ++ o.name
  | .secret => o.base ++ "/secrets/" ++ o.ns ++ "/" ++ o.name

inductive ObjectVersion
  | configMap (cm : ConfigMap)
  | secret (sec : Secret)

/-- The keys with their values. A key can stand in both maps of an object. -/
def ObjectVersion.entries : ObjectVersion → List (String × List UInt8)
  | configMap cm => ((cm.data.getD ∅).iter.map fun e => (e.1, utf8 e.2)) ++ (cm.binaryData.getD ∅).iter
  | secret sec => (sec.data.getD ∅).iter ++ (sec.stringData.getD ∅).iter.map fun e => (e.1, utf8 e.2)

/-- The volume is one of the object, and the lookups give this version of it. -/
def MountedObject.Gives (o : MountedObject) (ctx : VolumeContext) (vol : Volume) : ObjectVersion → Prop
  | .configMap cm => o.kind = .configMap ∧ vol.configMap = some o.name ∧ ctx.getConfigmap o.ns o.name = some cm
  | .secret sec => o.kind = .secret ∧ vol.configMap = none ∧ vol.secret = some (some o.name) ∧
      ctx.getSecret o.ns o.name = some sec

def PlainKey (key : String) : Prop := '/' ∉ key.toList ∧ isProper (utf8 key) = true
  deriving Decidable

/-- A volume of the object, as it is resolved for a mount of some pod. -/
structure Resolution (o : MountedObject) where
  ctx : VolumeContext
  podUid : String
  vol : Volume
  version : ObjectVersion
  limits : Nat → Option Nat
  base_eq : ctx.base = o.base
  noHostPath : vol.hostPath = none
  noEmptyDir : vol.emptyDir = false
  gives : o.Gives ctx vol version
  plain : ∀ e ∈ version.entries, PlainKey e.1

section Versions

variable (o : MountedObject) (cwd : Location)

def Resolution.run {o : MountedObject} (r : Resolution o) (cwd : Location) (fs : FileSystem) : FileSystem × Bool :=
  runAll cwd r.limits fs (volumeSource r.ctx o.ns r.podUid r.vol).1

def Resolution.made {o : MountedObject} (r : Resolution o) (cwd : Location) (fs : FileSystem) : FileSystem :=
  (fs.createDirAll cwd (r.limits 0) (Path.ofStr o.dir).ancestors).1

/-- The tree, and the version of the last mount unless that ended with an error. -/
structure VolumeState where
  fs : FileSystem
  current : Option ObjectVersion := none

def VolumeState.step (s : VolumeState) (r : Resolution o) : Option VolumeState :=
  let done := r.run cwd s.fs
  some { fs := done.1, current := if done.2 then some r.version else none }

/-- The directory has one file for each key, with a value of the key, and nothing else. -/
structure Shows (fs : FileSystem) (v : ObjectVersion) (l : Location) : Prop where
  resolves : fs.resolve cwd (.ofStr o.dir) = some l
  directory : fs.node l = some .directory
  files : ∀ e ∈ v.entries, ∃ e' ∈ v.entries, e'.1 = e.1 ∧ fs.node (l ++ [utf8 e.1]) = some (.file e'.2)
  nothingElse : ∀ name ∈ fs.children l, ∃ e ∈ v.entries, utf8 e.1 = name

def ShowsCurrent (s : VolumeState) : Prop := ∀ v ∈ s.current, ∃ l, Shows o cwd s.fs v l

/-- When the volume is resolved without an error, all that the directory already has are files of keys that the
version has as well. -/
def EntriesKept (s : VolumeState) (r : Resolution o) : Prop :=
  (r.run cwd s.fs).2 = true → ∀ l ∈ (r.made cwd s.fs).resolve cwd (.ofStr o.dir),
    ∀ name ∈ (r.made cwd s.fs).children l,
      (∃ e ∈ r.version.entries, utf8 e.1 = name) ∧
        ∃ content, (r.made cwd s.fs).node (l ++ [name]) = some (.file content)

end Versions

end Z8s.Compute
