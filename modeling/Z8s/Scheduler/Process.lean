import Z8s.Cri.Runtime

/-!
# The process tracker

Model of `ProcessTracker` (`src/scheduler/process.rs`): the questions it answers about the containers
of a pod, and what it does with the children that were reaped.

The trackers of the store are scanned in iteration order, as are the entries of the running map; a
result that must not depend on an order is stated for all orders.
-/

namespace Z8s.Scheduler

open Rust Collections Z8s.Types Cri

/-- A task that will set a pod to `Pending` after a delay. -/
structure DelayedPending where
  uid : String
  delaySecs : Nat
  deriving DecidableEq, Repr

/-- The tracker: the maps it shares with the supervisor, the store, and the tasks it has spawned. -/
structure ProcessTracker where
  sup : Supervisor
  store : ResourceStore
  delayed : List DelayedPending

/-! ### Looking up a pod -/

section Lookups

variable (running : HashMap String RunningContainer) (podName : String)

def isRunning : Bool := running.keys.any fun cid => startsWith cid (podName ++ "-")

def isReady : Bool :=
  isRunning running podName &&
    running.iter.any fun (cid, rc) => startsWith cid (podName ++ "-") && rc.ready

def podIp : Option Ipv4Addr :=
  running.iter.findSome? fun (cid, rc) =>
    if startsWith cid (podName ++ "-") then rc.inst.podIp else none

/-- The port to dial for a container port, decided by the first container of the pod. -/
def backendConnectPort (containerPort : Nat) : Nat :=
  match running.iter.find? fun (cid, _) => startsWith cid (podName ++ "-") with
  | some (_, rc) =>
    if rc.inst.isolatedNet then (rc.inst.publishedPorts.get containerPort).getD containerPort
    else containerPort
  | none => containerPort

end Lookups

def podRestartCounts (restartCounts : HashMap String RestartCount) (podName : String) :
    HashMap String Nat :=
  HashMap.ofList ((restartCounts.iter.filter fun (k, _) => startsWith k (podName ++ "-")).map
    fun (k, v) => ((stripPrefix k (podName ++ "-")).getD k, v.count))


/-! ### Exited containers -/

/-- A container whose process was reaped. `startedFor` is the ghost of its entry. -/
structure Exited where
  containerId : String
  pid : Nat
  exitCode : Int
  startedFor : String
  deriving DecidableEq, Repr

/-- The entries whose pid was reaped; of two reports for one pid the later one counts. -/
def collectExited (running : HashMap String RunningContainer) (reaped : List (Nat × Int)) :
    List Exited :=
  let reapedMap := HashMap.ofList reaped
  running.values.filterMap fun rc => do
    let pid ← rc.inst.pid
    let exitCode ← reapedMap.get pid
    some { containerId := rc.inst.containerId, pid, exitCode, startedFor := rc.startedFor }

def resources (store : ResourceStore) : List AnyResource := store.getAll.map ResourceTracker.resource

def matchesPod (containerId : String) (resource : AnyResource) : Bool :=
  resource.isPod && startsWith containerId (resource.name ++ "-")

/-- The first pod of the store that the container is taken to belong to. -/
def findPod (store : ResourceStore) (containerId : String) : Option ResourceTracker :=
  store.getAll.find? fun t => matchesPod containerId t.resource

def shouldRestart (restartPolicy : String) (exitCode : Int) : Bool :=
  if restartPolicy = "Always" then true
  else if restartPolicy = "OnFailure" then exitCode ≠ 0
  else if restartPolicy = "Never" then false
  else true

/-- What is decided for an exited container from the store, before any map changes. -/
structure ExitDecision where
  restart : Bool
  podUid : String
  deriving DecidableEq, Repr

def decideExit (store : ResourceStore) (d : Exited) : ExitDecision :=
  let podTracker := findPod store d.containerId
  let restartPolicy := (podTracker.bind fun t => t.resource.restartPolicy).getD "Always"
  { restart := shouldRestart restartPolicy d.exitCode
    podUid := (podTracker.map fun t => t.resource.uid).getD "" }

/-- The back-off: none for the first restart, then 10 s doubling up to 300 s. -/
def delaySecs (restartCount : Nat) : Nat :=
  if restartCount ≤ 1 then 0 else min (10 <<< min (restartCount - 2) 5) 300

def removeExited (pt : ProcessTracker) (d : Exited) : ProcessTracker :=
  { pt with sup := { pt.sup with running := pt.sup.running.remove d.containerId } }

/-- Count the restart and spawn the task that sets the pod to `Pending`, or settle its final
state. -/
def settleExit (pt : ProcessTracker) (d : Exited) (decision : ExitDecision) : ProcessTracker :=
  if decision.restart then
    let count := (((pt.sup.restartCounts.get d.containerId).map RestartCount.count).getD 0 + 1) % 2 ^ 32
    { pt with
      sup := { pt.sup with
        restartCounts := pt.sup.restartCounts.insert d.containerId ⟨count, d.startedFor⟩ }
      delayed := if decision.podUid = "" then pt.delayed
        else pt.delayed ++ [⟨decision.podUid, delaySecs count⟩] }
  else if decision.podUid = "" then pt
  else if d.exitCode = 0 then { pt with store := pt.store.updateState decision.podUid .succeeded }
  else { pt with
    store := pt.store.updateState decision.podUid (.failed ("exit code " ++ toString d.exitCode)) }

def handleExited (pt : ProcessTracker) (d : Exited) : ProcessTracker :=
  settleExit (removeExited pt d) d (decideExit pt.store d)

/-- `handle_exited_containers`, run without interruption. -/
def handleExitedContainers (pt : ProcessTracker) (reaped : List (Nat × Int)) : ProcessTracker :=
  (collectExited pt.sup.running reaped).foldl handleExited pt

def fireDelayed (pt : ProcessTracker) (t : DelayedPending) : ProcessTracker :=
  { pt with store := pt.store.updateState t.uid .pending, delayed := pt.delayed.erase t }

end Z8s.Scheduler
