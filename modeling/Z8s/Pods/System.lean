import Z8s.Scheduler.Process
import Z8s.Transition.Run
import Z8s.Transition.Tasks

/-!
# Pods that start, stop and exit at the same time

The calls of `start_pod_from_spec`, `stop_pod_from_spec` and `handle_exited_containers` that are under way
are tasks over the shared process tracker. A task moves from one acquisition of a lock to the next, so every
interleaving of the calls is a list of events. `taken` is a ghost: the addresses handed out so far.
-/

namespace Z8s.Pods

open Rust Z8s.Types Netmux Cri Scheduler Transition

/-! ### Starting -/

inductive StartPhase
  /-- `check_duplicate_start`. -/
  | entered
  /-- `insert_placeholders`. -/
  | checked
  /-- `create_pod_cgroup`. -/
  | placed
  /-- Spawn the first container of `todo`; record the prepared ones when there is none left. -/
  | spawning (todo : List ContainerConfig) (prepared : List (String × RunningContainer))
  /-- `remove_placeholders`, and then return the error. -/
  | failing (e : Error) (prepared : List (String × RunningContainer))
  | done (result : Except Error Unit)

structure StartTask where
  spec : ContainerSpec
  phase : StartPhase

inductive StartEvent
  | checkDuplicate
  | insertPlaceholders
  | createCgroup (result : Except Error Unit)
  | spawnNext (unpackImage : Except Error String) (env : SpawnEnv)
  | removePlaceholders
  | record

namespace StartTask

def todo (t : StartTask) : List ContainerConfig :=
  match t.phase with
  | .spawning todo _ => todo
  | _ => []

def prepared (t : StartTask) : List (String × RunningContainer) :=
  match t.phase with
  | .spawning _ prepared | .failing _ prepared => prepared
  | _ => []

def isDone (t : StartTask) : Bool :=
  match t.phase with
  | .done _ => true
  | _ => false

def step (sup : Supervisor) (t : StartTask) : StartEvent → Option (Supervisor × StartTask)
  | .checkDuplicate =>
    match t.phase with
    | .entered =>
      if checkDuplicateStart sup.running t.spec.podName then
        some (sup, { t with phase := .done (.ok ()) })
      else some (sup, { t with phase := .checked })
    | _ => none
  | .insertPlaceholders =>
    match t.phase with
    | .checked =>
      some ({ sup with running := (insertPlaceholders sup.running t.spec).1 }, { t with phase := .placed })
    | _ => none
  | .createCgroup result =>
    match t.phase, result with
    | .placed, .ok _ => some (sup, { t with phase := .spawning t.spec.containers [] })
    | .placed, .error e => some (sup, { t with phase := .failing e [] })
    | _, _ => none
  | .spawnNext unpackImage env =>
    match t.phase with
    | .spawning (cfg :: todo) prepared =>
      match prepareRootfs cfg unpackImage with
      | .error e => some (sup, { t with phase := .done (.error e) })
      | .ok rootfs =>
        match spawnContainerFromConfig sup.netmux cfg rootfs t.spec.podUid t.spec.subnet env with
        | (.error e, nm) =>
          let e := ("Failed to spawn container " ++ t.spec.podName ++ "/" ++ cfg.containerName) :: e
          some ({ sup with netmux := nm }, { t with phase := .failing e prepared })
        | (.ok rc, nm) =>
          some ({ sup with netmux := nm },
            { t with phase := .spawning todo (prepared ++ [(cfg.containerId, rc)]) })
    | _ => none
  | .removePlaceholders =>
    match t.phase with
    | .failing e _ =>
      some ({ sup with running := removePlaceholders sup.running t.spec.ids },
        { t with phase := .done (.error e) })
    | _ => none
  | .record =>
    match t.phase with
    | .spawning [] prepared =>
      some ({ sup with running := sup.running.insertAll prepared }, { t with phase := .done (.ok ()) })
    | _ => none

/-- The address that an attachment takes, with the pool it is taken from. -/
def takenFrom (nm : NetMux) (subnet : Option String) : List (Option String × Ipv4Addr) :=
  match nm.takeIp subnet with
  | .ok (ip, _) => [(subnet, ip)]
  | .error _ => []

def takes (sup : Supervisor) (t : StartTask) : StartEvent → List (Option String × Ipv4Addr)
  | .spawnNext unpackImage env =>
    match t.todo with
    | [] => []
    | cfg :: _ =>
      if (prepareRootfs cfg unpackImage).isOk && env.attaches cfg then
        takenFrom sup.netmux t.spec.subnet
      else []
  | _ => []

end StartTask

/-! ### Stopping -/

/-- What a call of `stop_pod_from_spec` does next for its first remaining container. -/
inductive StopPhase
  | detaching
  | stopping
  | forgetting
  deriving DecidableEq, Repr

structure StopTask where
  todo : List ContainerConfig
  phase : StopPhase
  deriving DecidableEq, Repr

inductive StopEvent
  /-- `order` is the iteration order of the subnet pools. -/
  | detach (order : List String)
  | stopContainer
  | removeRestartCount

def StopTask.step (sup : Supervisor) (t : StopTask) : StopEvent → Option (Supervisor × StopTask)
  | .detach order =>
    match t.todo, t.phase with
    | cfg :: _, .detaching => some (detachContainer sup cfg.containerId order, { t with phase := .stopping })
    | _, _ => none
  | .stopContainer =>
    match t.todo, t.phase with
    | cfg :: _, .stopping => some (stopContainer sup cfg.containerId, { t with phase := .forgetting })
    | _, _ => none
  | .removeRestartCount =>
    match t.todo, t.phase with
    | cfg :: todo, .forgetting =>
      some (removeRestartCount sup cfg.containerId, { todo, phase := .detaching })
    | _, _ => none

/-! ### Exits -/

/-- What a call of `handle_exited_containers` does next for its first remaining container. -/
inductive ExitPhase
  | deciding
  | removing (decision : ExitDecision)
  | settling (decision : ExitDecision)
  deriving DecidableEq, Repr

structure ExitTask where
  todo : List Exited
  phase : ExitPhase
  deriving DecidableEq, Repr

inductive ExitEvent
  | decide
  | remove
  | settle
  deriving DecidableEq, Repr

def ExitTask.step (pt : ProcessTracker) (t : ExitTask) : ExitEvent → Option (ProcessTracker × ExitTask)
  | .decide =>
    match t.todo, t.phase with
    | d :: _, .deciding => some (pt, { t with phase := .removing (decideExit pt.store d) })
    | _, _ => none
  | .remove =>
    match t.todo, t.phase with
    | d :: _, .removing decision => some (removeExited pt d, { t with phase := .settling decision })
    | _, _ => none
  | .settle =>
    match t.todo, t.phase with
    | d :: todo, .settling decision => some (settleExit pt d decision, { todo, phase := .deciding })
    | _, _ => none

/-! ### The system -/

structure PodSystem where
  pt : ProcessTracker
  starts : List StartTask
  stops : List StopTask
  exits : List ExitTask
  taken : List (Option String × Ipv4Addr)

inductive PodEvent
  /-- A call of `start_pod_from_spec`. -/
  | startPod (spec : ContainerSpec)
  | start (t : Nat) (e : StartEvent)
  /-- A call of `stop_pod_from_spec`. -/
  | stopPod (spec : ContainerSpec)
  | stop (t : Nat) (e : StopEvent)
  /-- A call of `handle_exited_containers`, up to the end of its first critical section. -/
  | reaped (pids : List (Nat × Int))
  | exit (t : Nat) (e : ExitEvent)
  /-- A spawned task sets a pod to `Pending`. -/
  | delayed (d : DelayedPending)
  | applyResource (r : AnyResource)
  | deleteResource (r : AnyResource)
  | updateState (uid : String) (state : ResourceState)
  | registerSubnet (name cidrStr : String)
  /-- A probe of a recorded container sets its readiness. -/
  | probe (containerId : String) (ready : Bool)

namespace PodSystem

def sup (s : PodSystem) : Supervisor := s.pt.sup

def init (nm : NetMux) (store : ResourceStore) : PodSystem where
  pt := { sup := { running := ∅, restartCounts := ∅, netmux := nm }, store, delayed := [] }
  starts := []
  stops := []
  exits := []
  taken := []

def step (s : PodSystem) : PodEvent → Option PodSystem
  | .startPod spec => some { s with starts := s.starts ++ [{ spec, phase := .entered }] }
  | .start t e =>
    (stepAt s.starts t (·.step s.sup e)).map fun (sup, starts) =>
      { s with
        pt := { s.pt with sup }
        starts
        taken := ((s.starts[t]?.map (·.takes s.sup e)).getD []) ++ s.taken }
  | .stopPod spec => some { s with stops := s.stops ++ [{ todo := spec.containers, phase := .detaching }] }
  | .stop t e =>
    (stepAt s.stops t (·.step s.sup e)).map fun (sup, stops) => { s with pt := { s.pt with sup }, stops }
  | .reaped pids => some { s with
      exits := s.exits ++ [{ todo := collectExited s.sup.running pids, phase := .deciding }] }
  | .exit t e => (stepAt s.exits t (·.step s.pt e)).map fun (pt, exits) => { s with pt, exits }
  | .delayed d => if d ∈ s.pt.delayed then some { s with pt := fireDelayed s.pt d } else none
  | .applyResource r => some { s with pt := { s.pt with store := s.pt.store.apply r } }
  | .deleteResource r => some { s with pt := { s.pt with store := s.pt.store.delete r } }
  | .updateState uid state => some { s with pt := { s.pt with store := s.pt.store.updateState uid state } }
  | .registerSubnet name cidrStr =>
    match s.sup.netmux.registerSubnetCidr name cidrStr with
    | .ok netmux => some { s with
        pt := { s.pt with sup := { s.sup with netmux } }
        taken := s.taken.filter (·.1 ≠ some name) }
    | .error _ => some s
  | .probe containerId ready => some { s with
      pt := { s.pt with sup := { s.sup with
        running := s.sup.running.update containerId ({ · with ready }) } } }

end PodSystem

end Z8s.Pods
