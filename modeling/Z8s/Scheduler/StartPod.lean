import Z8s.Compute.VolumeFiles
import Z8s.Scheduler.Process

/-!
# Starting a pod, with the file system

Model of `ProcessTracker::start_pod` (`src/scheduler/process.rs`) with its effects on the state directory:
`build_spec` prepares the volumes, and `start_pod_from_spec` begins with `cleanup_emptydir`.
-/

namespace Z8s.Scheduler

open Z8s.Types Netmux Files Cri Compute

structure Host where
  pt : ProcessTracker
  files : FileSystem
  cwd : Location

structure StartEnv where
  /-- Where the operations that prepare volumes fail: for a container, a mount of it and an operation. -/
  limits : Nat → Nat → Nat → Option Nat
  /-- The entries of the directory `emptydir` that are read without an error, in order. -/
  entries : List Name
  /-- What cannot be removed. -/
  left : Location → List Location
  createCgroup : Except Error Unit
  containers : Nat → ContainerEnv
  /-- What the spawn of a container does to the file system. -/
  install : Nat → FileSystem → FileSystem

def cleanupFiles (base : String) (cwd : Location) (podUid : String) (entries : List Name)
    (left : Location → List Location) (fs : FileSystem) : FileSystem :=
  match fs.resolve cwd (.ofStr (emptyDirBase base)) with
  | some dir =>
    (cleanupEmptydir podUid (entries.filter fun name => (fs.node (dir ++ [name])).isSome)).foldl
      (fun fs name => fs.removeDirAll cwd (.ofStr (emptyDirBase base)) name left) fs
  | none => fs

section StartPod

variable (ctx : VolumeContext) (h : Host) (pod : Pod) (env : StartEnv)

/-- The tree when the start comes to look for a duplicate. -/
def filesChecked : FileSystem :=
  cleanupFiles ctx.base h.cwd (AnyResource.pod pod).uid env.entries env.left
    (buildFiles ctx h.cwd env.limits pod h.files)

def startPod : Except Error Unit × Host :=
  let spec := buildSpec (.pod pod)
  let files := filesChecked ctx h pod env
  let files :=
    if checkDuplicateStart h.pt.sup.running spec.podName then files
    else spec.containers.zipIdx.foldl (fun fs cfg => env.install cfg.2 fs) files
  match startPodFromSpec h.pt.sup spec env.createCgroup env.containers with
  | (.ok _, sup) => (.ok (), { h with
      files, pt := { h.pt with sup, store := h.pt.store.updateState spec.podUid .running } })
  | (.error e, sup) => (.error e, { h with files, pt := { h.pt with sup } })

end StartPod

/-! ### Starting a pod that runs -/

/-- A pod all of whose containers are in the running map. -/
structure RunningPod where
  host : Host
  pod : Pod
  running : ∀ cid ∈ (buildSpec (.pod pod)).ids, (host.pt.sup.running.get cid).isSome = true

/-- What is in a directory, by the names that lead there. -/
def contents (cwd : Location) (dir : String) (fs : FileSystem) (names : List Name) : Option Node :=
  (fs.resolve cwd (.ofStr dir)).bind fun l => fs.node (l ++ names)

def emptyDirs (base : String) (pod : Pod) : List String :=
  (((pod.spec.bind PodSpec.volumes).getD []).filter fun vol => vol.hostPath.isNone && vol.emptyDir).map
    fun vol => emptyDirPath base (AnyResource.pod pod).uid vol.name

/-- The running map, the address pools and the contents of the emptyDir volumes are the same. -/
structure Unchanged (dirs : List String) (h h' : Host) : Prop where
  running : h'.pt.sup.running = h.pt.sup.running
  pools : h'.pt.sup.netmux = h.pt.sup.netmux
  emptyDirs : ∀ dir ∈ dirs, ∀ names ≠ [], contents h.cwd dir h'.files names = contents h.cwd dir h.files names

/-- Starting the pod once more changes nothing, whatever the environment answers. -/
def RunningPod.StartIsNoOp (ctx : VolumeContext) (r : RunningPod) : Prop :=
  ∀ env, Unchanged (emptyDirs ctx.base r.pod) r.host (startPod ctx r.host r.pod env).2

def HoldsNothing (cwd : Location) (dir : String) (fs : FileSystem) : Prop :=
  ∀ names ≠ [], contents cwd dir fs names = none

/-- Nothing is in an emptyDir volume, neither before nor when the volumes have been prepared. -/
def RunningPod.NothingToLose (ctx : VolumeContext) (r : RunningPod) : Prop :=
  ∀ dir ∈ emptyDirs ctx.base r.pod, HoldsNothing r.host.cwd dir r.host.files ∧
    ∀ limits, HoldsNothing r.host.cwd dir (buildFiles ctx r.host.cwd limits r.pod r.host.files)

end Z8s.Scheduler
