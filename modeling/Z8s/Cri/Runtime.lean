import Z8s.Cri.Spec
import Z8s.Netmux.NetMux

/-!
# The container runtime

Model of the start and stop paths of `ProcessSupervisor` (`src/cri/runtime.rs`). What the environment answers
is an argument: whether an image can be unpacked, how far a spawn comes, what the kernel says to the requests
of an attachment. Signals, logs, volumes and cgroup limits change nothing that is modelled.
-/

namespace Z8s.Cri

open Rust Collections Netmux

variable (env : SpawnEnv) (podUid : String) (cfg : ContainerConfig) (sup : Supervisor)

structure ContainerInstance where
  containerId : String
  containerName : String
  image : String
  pid : Option Nat
  rootfs : String
  publishedPorts : HashMap Nat Nat
  isolatedNet : Bool
  podIp : Option Ipv4Addr
  hostVethIfindex : Option Nat

/-- An entry of the running map. `startedFor` is a ghost: the uid of the pod whose start made the
entry. The source does not record it, and no function reads it. -/
structure RunningContainer where
  inst : ContainerInstance
  restartCount : Nat
  ready : Bool
  healthy : Bool
  startedFor : String

/-- An entry of the restart counts, with the same ghost. -/
structure RestartCount where
  count : Nat
  startedFor : String
  deriving DecidableEq, Repr

structure Supervisor where
  running : HashMap String RunningContainer
  restartCounts : HashMap String RestartCount
  netmux : NetMux

/-! ### Spawning one container -/

structure SpawnEnv where
  /-- `rootfs::is_root()`. -/
  isRoot : Bool
  /-- The pid of the new process, or the error of the first step that fails up to there. -/
  fork : Except Error Nat
  /-- The read of the byte with which the child reports that its namespaces are set up: whether it
  was there. -/
  sync : Except Error Bool
  /-- `write_userns_maps`. -/
  usernsMaps : Except Error Unit
  veth : VethOutcome
  /-- The order in which a rollback walks over the subnet pools. -/
  order : List String

def buildContainerInstance (pid : Nat) (rootfs : String) (podIp : Option Ipv4Addr)
    (hostVethIfindex : Option Nat) : ContainerInstance where
  containerId := cfg.containerId
  containerName := cfg.containerName
  image := cfg.image
  pid := some pid
  rootfs := rootfs
  publishedPorts := ∅
  isolatedNet := cfg.isolatedNet
  podIp := podIp
  hostVethIfindex := hostVethIfindex

/-- `build_running_from_instance`; `spawn_probes` starts with a container that is ready and
healthy. -/
def buildRunningFromInstance (inst : ContainerInstance) : RunningContainer where
  inst := inst
  restartCount := 0
  ready := true
  healthy := true
  startedFor := podUid

/-- Attach a container to the pod network. A failure is only logged. -/
def attachContainer (nm : NetMux) (subnet : Option String) (env : SpawnEnv) :
    (Option Ipv4Addr × Option Nat) × NetMux :=
  match nm.attachPod subnet env.veth env.order with
  | (.ok (ip, hostIdx, _), nm) => ((some ip, some hostIdx), nm)
  | (.error _, nm) => ((none, none), nm)

def handleVethNetns (nm : NetMux) (isolateNet : Bool) (subnet : Option String) (env : SpawnEnv) :
    (Option Ipv4Addr × Option Nat) × NetMux :=
  match isolateNet, env.sync with
  | true, .ok true => attachContainer nm subnet env
  | _, _ => ((none, none), nm)

def spawnRootNsContainer (nm : NetMux) (cfg : ContainerConfig) (rootfs podUid : String)
    (subnet : Option String) (env : SpawnEnv) : Except Error RunningContainer × NetMux :=
  match env.fork with
  | .error e => (.error e, nm)
  | .ok pid =>
    let ((podIp, idx), nm) := handleVethNetns nm cfg.isolatedNet subnet env
    (.ok (buildRunningFromInstance podUid (buildContainerInstance cfg pid rootfs podIp idx)), nm)

def spawnUsernsContainer (nm : NetMux) (cfg : ContainerConfig) (rootfs podUid : String)
    (subnet : Option String) (env : SpawnEnv) : Except Error RunningContainer × NetMux :=
  match env.fork with
  | .error e => (.error e, nm)
  | .ok pid =>
    match env.sync, env.usernsMaps with
    | .error e, _ => (.error ("Failed to read sync from child" :: e), nm)
    | .ok false, _ => (.error ["Child process died before completing namespace setup"], nm)
    | .ok true, .error e => (.error e, nm)
    | .ok true, .ok _ =>
      let ((podIp, idx), nm) :=
        if cfg.isolatedNet then attachContainer nm subnet env else ((none, none), nm)
      (.ok (buildRunningFromInstance podUid (buildContainerInstance cfg pid rootfs podIp idx)), nm)

/-- A native process has no network of its own, whatever ports it declares. -/
def spawnContainerFromConfig (nm : NetMux) (cfg : ContainerConfig) (rootfs podUid : String)
    (subnet : Option String) (env : SpawnEnv) : Except Error RunningContainer × NetMux :=
  if cfg.isNative then
    match env.fork with
    | .error e => (.error e, nm)
    | .ok pid =>
      (.ok (buildRunningFromInstance podUid (buildContainerInstance cfg pid rootfs none none)), nm)
  else if env.isRoot then spawnRootNsContainer nm cfg rootfs podUid subnet env
  else spawnUsernsContainer nm cfg rootfs podUid subnet env

/-- Whether the spawn of a container succeeds. The network has no say in it. -/
def SpawnEnv.succeeds : Bool :=
  env.fork.isOk && (cfg.isNative || env.isRoot || (env.sync.toOption == some true && env.usernsMaps.isOk))

/-- Whether a spawn that succeeds comes to attach the container to the pod network. -/
def SpawnEnv.attaches : Bool :=
  !cfg.isNative && cfg.isolatedNet && env.succeeds cfg && env.sync.toOption == some true

/-! ### Starting a pod -/

def checkDuplicateStart (running : HashMap String RunningContainer) (podName : String) : Bool :=
  running.keys.any fun cid => startsWith cid (podName ++ "-")

def placeholder : RunningContainer where
  inst :=
    { containerId := cfg.containerId, containerName := cfg.containerName, image := cfg.image
      pid := none, rootfs := "", publishedPorts := ∅, isolatedNet := false, podIp := none
      hostVethIfindex := none }
  restartCount := 0
  ready := false
  healthy := true
  startedFor := podUid

def insertPlaceholder (running : HashMap String RunningContainer) (cfg : ContainerConfig) :
    HashMap String RunningContainer :=
  if running.containsKey cfg.containerId then running
  else running.insert cfg.containerId (placeholder podUid cfg)

/-- The map with a placeholder for every container that has no entry yet, and the ids of all
containers of the pod. -/
def insertPlaceholders (running : HashMap String RunningContainer) (spec : ContainerSpec) :
    HashMap String RunningContainer × List String :=
  (spec.containers.foldl (insertPlaceholder spec.podUid) running, spec.ids)

def removePlaceholders (running : HashMap String RunningContainer) (placeholders : List String) :
    HashMap String RunningContainer :=
  running.removeAll placeholders

structure ContainerEnv where
  /-- `image_manager.unpack_image`. -/
  unpackImage : Except Error String
  spawn : SpawnEnv

def prepareRootfs (unpackImage : Except Error String) : Except Error String :=
  if cfg.isNative then .ok ""
  else match unpackImage with
    | .ok path => .ok path
    | .error e =>
      .error (("Failed to prepare image " ++ cfg.image ++ " for " ++ cfg.containerName) :: e)

/-- Whether the first container that cannot be started is one whose image cannot be unpacked;
`env n` answers for the first container of the list. -/
def failsInPreparation (env : Nat → ContainerEnv) : Nat → List ContainerConfig → Bool
  | _, [] => false
  | n, cfg :: todo =>
    (!cfg.isNative && !(env n).unpackImage.isOk) ||
      ((env n).spawn.succeeds cfg && failsInPreparation env (n + 1) todo)

/-- The loop over the containers; `env n` answers for the container number `n`. A failed spawn
removes the placeholders, a failed preparation returns at once. -/
def spawnAllContainers (spec : ContainerSpec) (placeholders : List String) (env : Nat → ContainerEnv) :
    List ContainerConfig → List (String × RunningContainer) → Supervisor →
      Except Error (List (String × RunningContainer)) × Supervisor
  | [], prepared, sup => (.ok prepared, sup)
  | cfg :: todo, prepared, sup =>
    match prepareRootfs cfg (env prepared.length).unpackImage with
    | .error e => (.error e, sup)
    | .ok rootfs =>
      match spawnContainerFromConfig sup.netmux cfg rootfs spec.podUid spec.subnet
          (env prepared.length).spawn with
      | (.error e, nm) =>
        (.error (("Failed to spawn container " ++ spec.podName ++ "/" ++ cfg.containerName) :: e),
          { sup with netmux := nm, running := removePlaceholders sup.running placeholders })
      | (.ok rc, nm) =>
        spawnAllContainers spec placeholders env todo (prepared ++ [(cfg.containerId, rc)])
          { sup with netmux := nm }

/-- `start_pod_from_spec`, run without interruption. -/
def startPodFromSpec (spec : ContainerSpec) (createCgroup : Except Error Unit) (env : Nat → ContainerEnv) :
    Except Error Unit × Supervisor :=
  if checkDuplicateStart sup.running spec.podName then (.ok (), sup)
  else
    let (running, placeholders) := insertPlaceholders sup.running spec
    let sup := { sup with running }
    match createCgroup with
    | .error e => (.error e, { sup with running := removePlaceholders sup.running placeholders })
    | .ok _ =>
      match spawnAllContainers spec placeholders env spec.containers [] sup with
      | (.error e, sup) => (.error e, sup)
      | (.ok prepared, sup) => (.ok (), { sup with running := sup.running.insertAll prepared })

/-! ### Stopping a pod -/

/-- The first critical section of `stop_pod_from_spec` for a container: give its address back. -/
def detachContainer (containerId : String) (order : List String) : Supervisor :=
  match sup.running.get containerId with
  | none => sup
  | some rc =>
    match rc.inst.podIp, rc.inst.hostVethIfindex with
    | some ip, some _ => { sup with netmux := sup.netmux.detachPod ip order }
    | _, _ => sup

/-- `stop_container`: take the entry out of the map (and kill its process group). -/
def stopContainer (containerId : String) : Supervisor :=
  { sup with running := sup.running.remove containerId }

def removeRestartCount (containerId : String) : Supervisor :=
  { sup with restartCounts := sup.restartCounts.remove containerId }

def stopOne (containerId : String) (order : List String) : Supervisor :=
  removeRestartCount (stopContainer (detachContainer sup containerId order) containerId) containerId

/-- The loop over the containers; `order n` is the iteration order of the subnet pools for the container
number `n`. -/
def stopContainers (order : Nat → List String) : Nat → List ContainerConfig → Supervisor → Supervisor
  | _, [], sup => sup
  | n, cfg :: todo, sup => stopContainers order (n + 1) todo (stopOne sup cfg.containerId (order n))

/-- `stop_pod_from_spec`, run without interruption. -/
def stopPodFromSpec (spec : ContainerSpec) (order : Nat → List String) : Supervisor :=
  stopContainers order 0 spec.containers sup

end Z8s.Cri
