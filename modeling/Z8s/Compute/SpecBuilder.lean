import Z8s.Cri.Volumes

/-!
# Sources of volumes

Model of `prepare_volumes`, `resolve_volume_source`, `materialize_configmap` and `materialize_secret`
(`src/components/compute/spec_builder.rs`): which directory of the host a volume of a pod is, and what is
written into it. Whether an operation on the file system succeeds is an argument.
-/

namespace Z8s.Compute

open Rust Files Z8s.Types Cri

variable (ctx : VolumeContext) (pod : Pod)

/-! ### Operations on the file system -/

inductive FileOp
  | createDirAll (path : String)
  | write (path : String) (content : List UInt8)
  | setPermissions (path : String) (mode : Nat)
  deriving DecidableEq, Repr

/-- The rest is given up when the operation fails. -/
def FileOp.required : FileOp → Bool
  | setPermissions _ _ => false
  | _ => true

/-- The operations that are tried, and whether none of them was fatal. The `i`-th one succeeds if `ok i`. -/
def tryAll (ok : Nat → Bool) : List FileOp → List FileOp × Bool
  | [] => ([], true)
  | op :: ops =>
    if op.required && !ok 0 then ([op], false)
    else
      let rest := tryAll (fun i => ok (i + 1)) ops
      (op :: rest.1, rest.2)

def materializeConfigmap (cm : ConfigMap) (dir : String) : List FileOp :=
  ((cm.data.getD ∅).iter.map fun e => .write (Path.joinStr dir e.1) (utf8 e.2)) ++
    (cm.binaryData.getD ∅).iter.map fun e => .write (Path.joinStr dir e.1) e.2

def secretFile (dir key : String) (content : List UInt8) : List FileOp :=
  [.write (Path.joinStr dir key) content, .setPermissions (Path.joinStr dir key) 0o400]

def materializeSecret (sec : Secret) (dir : String) : List FileOp :=
  ((sec.data.getD ∅).iter.flatMap fun e => secretFile dir e.1 e.2) ++
    (sec.stringData.getD ∅).iter.flatMap fun e => secretFile dir e.1 (utf8 e.2)

/-! ### Volumes -/

/-- What the volumes of a pod are resolved with: the state directory, and the lookups by namespace and
name. -/
structure VolumeContext where
  base : String
  getConfigmap : String → String → Option ConfigMap
  getSecret : String → String → Option Secret
  getPvcHostpath : String → String → Option String

/-- The operations for a volume, and its directory if its source is supported. -/
def volumeSource (ns podUid : String) (vol : Volume) : List FileOp × Option String :=
  match vol.hostPath with
  | some path => ([.createDirAll path], some path)
  | none =>
    if vol.emptyDir then
      let dir := emptyDirPath ctx.base podUid vol.name
      ([.createDirAll dir, .setPermissions dir 0o777], some dir)
    else
      match vol.configMap, vol.secret.bind id with
      | some name, _ =>
        let dir := ctx.base ++ "/configmaps/" ++ ns ++ "/" ++ name
        let files := (ctx.getConfigmap ns name).map (materializeConfigmap · dir)
        (.createDirAll dir :: files.getD [], some dir)
      | none, some name =>
        let dir := ctx.base ++ "/secrets/" ++ ns ++ "/" ++ name
        let files := (ctx.getSecret ns name).map (materializeSecret · dir)
        (.createDirAll dir :: files.getD [], some dir)
      | none, none => ([], vol.persistentVolumeClaim.bind (ctx.getPvcHostpath ns))

/-- The operations that are tried, and the directory; an error if one of them failed. -/
def resolveVolumeSource (ok : Nat → Bool) (ns podUid : String) (vol : Volume) :
    List FileOp × Except Unit (Option String) :=
  let source := volumeSource ctx ns podUid vol
  let tried := tryAll ok source.1
  (tried.1, if tried.2 then .ok source.2 else .error ())

structure MountStep where
  mount : VolumeMount
  vol : Volume
  ops : List FileOp
  resolved : Option ResolvedVolume

def podNamespace : String := pod.metadata.inNamespace.getD "default"

/-- The volume of a name. Of several ones the last counts. -/
def volumeNamed (name : String) : Option Volume :=
  ((pod.spec.bind PodSpec.volumes).getD []).reverse.find? (·.name == name)

def mountsOf (container : String) : List VolumeMount :=
  ((((pod.spec.map PodSpec.containers).getD []).find? (·.name == container)).bind
    Container.volumeMounts).getD []

def prepareMount (ok : Nat → Bool) (pod : Pod) (podUid : String) (mount : VolumeMount) : Option MountStep :=
  (volumeNamed pod mount.name).map fun vol =>
    let source := resolveVolumeSource ctx ok (podNamespace pod) podUid vol
    { mount, vol
      ops := source.1
      resolved := match source.2 with
        | .ok (some hostPath) => some {
            hostPath := match mount.subPath with
              | some sub => Path.joinStr hostPath sub
              | none => hostPath
            containerPath := mount.mountPath
            readOnly := mount.readOnly.getD false }
        | _ => none }

/-- All that is done for the mounts of a container. For the `i`-th mount, `ok i` is which operations
succeed. -/
def prepareSteps (ok : Nat → Nat → Bool) (pod : Pod) (container podUid : String) : List MountStep :=
  (mountsOf pod container).zipIdx.filterMap fun e => prepareMount ctx (ok e.2) pod podUid e.1

def prepareVolumes (ok : Nat → Nat → Bool) (pod : Pod) (container podUid : String) : List ResolvedVolume :=
  (prepareSteps ctx ok pod container podUid).filterMap MountStep.resolved

/-! ### Staying in the volume -/

/-- Whatever fails, all that is written for a volume and what it resolves to lies in the directory of the
volume. Volumes that are a path of the host are left out. -/
def SourcesStay (container podUid : String) : Prop :=
  ∀ ok, ∀ step ∈ prepareSteps ctx ok pod container podUid, step.vol.hostPath = none →
    ∀ dir ∈ (volumeSource ctx (podNamespace pod) podUid step.vol).2,
      (∀ path content, .write path content ∈ step.ops → Path.Under (.ofStr dir) (.ofStr path)) ∧
        ∀ r ∈ step.resolved, Path.Under (.ofStr dir) (.ofStr r.hostPath)

def fileKeys (ns : String) (vol : Volume) : List String :=
  if vol.hostPath.isSome || vol.emptyDir then []
  else
    match vol.configMap, vol.secret.bind id with
    | some name, _ =>
      match ctx.getConfigmap ns name with
      | some cm => (cm.data.getD ∅).iter.map Prod.fst ++ (cm.binaryData.getD ∅).iter.map Prod.fst
      | none => []
    | none, some name =>
      match ctx.getSecret ns name with
      | some sec => (sec.data.getD ∅).iter.map Prod.fst ++ (sec.stringData.getD ∅).iter.map Prod.fst
      | none => []
    | none, none => []

/-- No key and no sub path of the mount leads out of the directory of its volume. -/
def MountStays (podUid : String) (mount : VolumeMount) : Prop :=
  ∀ vol ∈ volumeNamed pod mount.name, vol.hostPath = none →
    ∀ dir ∈ (volumeSource ctx (podNamespace pod) podUid vol).2,
      (∀ key ∈ fileKeys ctx (podNamespace pod) vol, Path.Stays (.ofStr dir) (.ofStr key)) ∧
        ∀ sub ∈ mount.subPath, Path.Stays (.ofStr dir) (.ofStr sub)

end Z8s.Compute
