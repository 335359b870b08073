import Z8s.Compute.Deployment
import Z8s.Pods.System

/-!
# Reconciliation and deletion at the same time

Model of `reconcile_all` (`src/components/mod.rs`), of `PodResource::reconcile` and `on_delete`
(`src/components/compute/pod.rs`), and of `delete_pod` and `delete_deployment` (`src/api/handlers`), over
the pods that start, stop and exit. Every call of the store is one step, and so is every move of a start or
a stop. What the other components do with a sweep is left to the event `apply`.
-/

namespace Z8s.Control

open Collections Z8s.Types Netmux Cri Pods Compute Transition

/-- How far a call of `start_pod` or `stop_pod` has come; `i` is the number of the start or the stop. -/
inductive CallPhase
  | calling
  | waiting (i : Nat)
  | returned
  deriving DecidableEq, Repr

structure Detached where
  pod : Pod
  phase : CallPhase
  deriving DecidableEq, Repr

/-- What the tasks share. `stopCalls` is a ghost: the uid of every pod that `stop_pod` was called for, with
the number of the stop. -/
structure Daemon where
  pods : PodSystem
  detached : List Detached
  stopCalls : List (String × Nat)

namespace Daemon

variable (d : Daemon)

def store : ResourceStore := d.pods.pt.store

def running : HashMap String RunningContainer := d.pods.sup.running

def setStore (store : ResourceStore) : Daemon :=
  { d with pods := { d.pods with pt := { d.pods.pt with store } } }

/-- `start_pod`, up to the start of its containers. -/
def callStart (pod : Pod) : Daemon :=
  { d with pods := { d.pods with
      starts := d.pods.starts ++ [{ spec := buildSpec (.pod pod), phase := .entered }] } }

/-- `stop_pod`, up to the stop of the first container. -/
def callStop (r : AnyResource) : Daemon where
  pods := { d.pods with
    stops := d.pods.stops ++ [{ todo := (buildSpec r).containers, phase := .detaching }] }
  detached := d.detached
  stopCalls := d.stopCalls ++ [(r.uid, d.pods.stops.length)]

def startResult (i : Nat) : Option (Except Error Unit) :=
  d.pods.starts[i]?.bind fun t =>
    match t.phase with
    | .done result => some result
    | _ => none

def stopFinished (i : Nat) : Bool := d.pods.stops[i]?.any fun t => t.todo.isEmpty

end Daemon

/-- What a task asks of the pods, or newly stores. -/
inductive Call
  | start (pod : Pod)
  | stop (r : AnyResource)
  | apply (r : AnyResource)

/-! ### Starts in tasks of their own -/

namespace Detached

inductive Event
  | call
  | returned
  deriving DecidableEq, Repr

def step (d : Daemon) (t : Detached) : Event → Option (Daemon × Detached)
  | .call =>
    match t.phase with
    | .calling => some (d.callStart t.pod, { t with phase := .waiting d.pods.starts.length })
    | _ => none
  | .returned =>
    match t.phase with
    | .waiting i =>
      match d.startResult i with
      | some (.ok _) => some (d.setStore (d.store.updateState (AnyResource.pod t.pod).uid .running),
          { t with phase := .returned })
      | some (.error _) => some (d, { t with phase := .returned })
      | none => none
    | _ => none

def call (t : Detached) : Event → Option Call
  | .call => some (.start t.pod)
  | .returned => none

end Detached

/-! ### Sweeps -/

inductive SweepPhase
  /-- Take the snapshot. -/
  | entered
  | walking (todo : List ResourceTracker)
  /-- Wait for the pass over a deployment, and for a start or a stop that it has called. -/
  | reconciling (todo : List ResourceTracker) (pass : Pass) (call : CallPhase)

structure Sweep where
  phase : SweepPhase

namespace Sweep

inductive Event
  | snapshot (trackers : List ResourceTracker)
  | next
  /-- A call of the store by the pass: `list`, `create`, `find` or `delete`. -/
  | store (e : PassEvent)
  | callStart
  | started
  | callStop
  | stopped
  | leave

/-- Whether a move of a pass is a call of the store, and not the end of a start or a stop. -/
def isStoreCall : PassEvent → Bool
  | .started _ | .stopped => false
  | _ => true

/-- The pass makes a move, after which it waits for no call. -/
def passMoves (d : Daemon) (todo : List ResourceTracker) (pass : Pass) (e : PassEvent) :
    Option (Daemon × Sweep) :=
  (pass.step d.store e).map fun r => (d.setStore r.1, ⟨.reconciling todo r.2 .calling⟩)

def step (d : Daemon) (t : Sweep) : Event → Option (Daemon × Sweep)
  | .snapshot trackers =>
    match t.phase with
    | .entered => if trackers.Perm d.store.getAll then some (d, ⟨.walking trackers⟩) else none
    | _ => none
  | .next =>
    match t.phase with
    | .walking (tracker :: todo) =>
      match tracker.resource with
      | .pod pod =>
        if tracker.state = .pending then
          some ({ d with detached := d.detached ++ [{ pod, phase := .calling }] }, ⟨.walking todo⟩)
        else some (d, ⟨.walking todo⟩)
      | .deployment deploy => some (d, ⟨.reconciling todo (Pass.enter deploy) .calling⟩)
      | _ => some (d, ⟨.walking todo⟩)
    | _ => none
  | .store e =>
    match t.phase with
    | .reconciling todo pass _ => if isStoreCall e then passMoves d todo pass e else none
    | _ => none
  | .callStart =>
    match t.phase with
    | .reconciling todo pass .calling =>
      match pass.phase with
      | .starting _ _ pod =>
        some (d.callStart pod, ⟨.reconciling todo pass (.waiting d.pods.starts.length)⟩)
      | _ => none
    | _ => none
  | .started =>
    match t.phase with
    | .reconciling todo pass (.waiting i) =>
      (d.startResult i).bind fun result => passMoves d todo pass (.started result)
    | _ => none
  | .callStop =>
    match t.phase with
    | .reconciling todo pass .calling =>
      match pass.phase with
      | .stopping _ _ remove =>
        some (d.callStop remove, ⟨.reconciling todo pass (.waiting d.pods.stops.length)⟩)
      | _ => none
    | _ => none
  | .stopped =>
    match t.phase with
    | .reconciling todo pass (.waiting i) =>
      if d.stopFinished i then passMoves d todo pass .stopped else none
    | _ => none
  | .leave =>
    match t.phase with
    | .reconciling todo pass _ => if pass.isDone then some (d, ⟨.walking todo⟩) else none
    | _ => none

def call (t : Sweep) : Event → Option Call
  | .store (.create uuid) =>
    match t.phase with
    | .reconciling _ pass _ =>
      match pass.phase, newPod pass.deploy uuid with
      | .creating _ _, .ok pod => some (.apply (.pod pod))
      | _, _ => none
    | _ => none
  | .callStart =>
    match t.phase with
    | .reconciling _ pass _ =>
      match pass.phase with
      | .starting _ _ pod => some (.start pod)
      | _ => none
    | _ => none
  | .callStop =>
    match t.phase with
    | .reconciling _ pass _ =>
      match pass.phase with
      | .stopping _ _ remove => some (.stop remove)
      | _ => none
    | _ => none
  | _ => none

def isDone (t : Sweep) : Bool :=
  match t.phase with
  | .walking [] => true
  | _ => false

end Sweep

/-! ### Deletions -/

inductive DeletionKind
  | pod
  | deployment
  deriving DecidableEq, Repr

def DeletionKind.toString : DeletionKind → String
  | .pod => "Pod"
  | .deployment => "Deployment"

inductive DeletionPhase
  | listing
  | listingPods (deploy : Deployment) (labels : BTreeMap String String)
  /-- Stop the first pod and delete it, and at the end delete the deployment. -/
  | walking (todo : List AnyResource) (call : CallPhase) (deploy : Option Deployment)
  | done (found : Bool)
  deriving DecidableEq

/-- A call of `delete_pod` or `delete_deployment` with its path. -/
structure Deletion where
  kind : DeletionKind
  inNamespace : String
  name : String
  phase : DeletionPhase

/-- The pods that `delete_deployment` deletes with the deployment of the path. -/
def deletesPod (inNamespace name : String) (labels : BTreeMap String String) : AnyResource → Bool
  | .pod pod =>
    (AnyResource.pod pod).namespaceOf == inNamespace &&
      labelsMatch labels (pod.metadata.labels.getD ∅) && podOwnedByDeployment pod name
  | _ => false

namespace Deletion

inductive Event
  | list (trackers : List ResourceTracker)
  | listPods (trackers : List ResourceTracker)
  | call
  | stopped
  | delete
  | leave

def found (kind : DeletionKind) (r : AnyResource) : DeletionPhase :=
  match kind, r with
  | .pod, r => .walking [r] .calling none
  | .deployment, .deployment deploy =>
    match deploy.spec.bind fun s => s.selector.matchLabels with
    | some labels => .listingPods deploy labels
    | none => .walking [] .calling (some deploy)
  -- the list has no other kinds
  | .deployment, _ => .done true

def step (d : Daemon) (t : Deletion) : Event → Option (Daemon × Deletion)
  | .list trackers =>
    match t.phase with
    | .listing =>
      if trackers.Perm (d.store.getByKind t.kind.toString) then
        match trackers.find? fun x => x.resource.name == t.name && x.resource.namespaceOf == t.inNamespace with
        | some x => some (d, { t with phase := found t.kind x.resource })
        | none => some (d, { t with phase := .done false })
      else none
    | _ => none
  | .listPods trackers =>
    match t.phase with
    | .listingPods deploy labels =>
      if trackers.Perm (d.store.getByKind "Pod") then
        some (d, { t with phase := .walking ((trackers.map ResourceTracker.resource).filter
          (deletesPod t.inNamespace t.name labels)) .calling (some deploy) })
      else none
    | _ => none
  | .call =>
    match t.phase with
    | .walking (r :: todo) .calling deploy =>
      some (d.callStop r, { t with phase := .walking (r :: todo) (.waiting d.pods.stops.length) deploy })
    | _ => none
  | .stopped =>
    match t.phase with
    | .walking (r :: todo) (.waiting i) deploy =>
      if d.stopFinished i then
        some (d.setStore (d.store.updateState r.uid .terminated),
          { t with phase := .walking (r :: todo) .returned deploy })
      else none
    | _ => none
  | .delete =>
    match t.phase with
    | .walking (r :: todo) .returned deploy =>
      some (d.setStore (d.store.delete r), { t with phase := .walking todo .calling deploy })
    | _ => none
  | .leave =>
    match t.phase with
    | .walking [] _ (some deploy) =>
      some (d.setStore (d.store.delete (.deployment deploy)), { t with phase := .done true })
    | .walking [] _ none => some (d, { t with phase := .done true })
    | _ => none

def call (t : Deletion) : Event → Option Call
  | .call =>
    match t.phase with
    | .walking (r :: _) _ _ => some (.stop r)
    | _ => none
  | _ => none

def isDone (t : Deletion) : Bool :=
  match t.phase with
  | .done _ => true
  | _ => false

end Deletion

/-! ### The system -/

structure ControlSystem where
  daemon : Daemon
  sweeps : List Sweep
  deletions : List Deletion

inductive ControlEvent
  | sweep (i : Nat) (e : Sweep.Event)
  | deletion (i : Nat) (e : Deletion.Event)
  | detached (i : Nat) (e : Detached.Event)
  /-- A start, a stop or the handling of exits moves on, children are reaped, a delayed task sets a pod to
  `Pending`, a subnet is registered, or a probe reports. -/
  | pods (e : PodEvent)
  /-- Another component stores something that is neither a pod nor a deployment. -/
  | apply (r : AnyResource)

/-- Whether an event of the pods is not one of those that the tasks of the system make. -/
def isInternal : PodEvent → Bool
  | .start _ _ | .stop _ _ | .reaped _ | .exit _ _ | .delayed _ | .registerSubnet _ _ | .probe _ _ => true
  | _ => false

namespace ControlSystem

def init (pods : PodSystem) (sweeps : Nat) (requests : List (DeletionKind × String × String)) :
    ControlSystem where
  daemon := { pods, detached := [], stopCalls := [] }
  sweeps := List.replicate sweeps ⟨.entered⟩
  deletions := requests.map fun x =>
    { kind := x.1, inNamespace := x.2.1, name := x.2.2, phase := .listing }

def step (s : ControlSystem) : ControlEvent → Option ControlSystem
  | .sweep i e => (stepAt s.sweeps i (·.step s.daemon e)).map fun (daemon, sweeps) =>
      { s with daemon, sweeps }
  | .deletion i e => (stepAt s.deletions i (·.step s.daemon e)).map fun (daemon, deletions) =>
      { s with daemon, deletions }
  | .detached i e => (stepAt s.daemon.detached i (·.step s.daemon e)).map fun (daemon, detached) =>
      { s with daemon := { daemon with detached } }
  | .pods e =>
    if isInternal e then (s.daemon.pods.step e).map fun pods => { s with daemon := { s.daemon with pods } }
    else none
  | .apply r =>
    if r.kind ≠ "Pod" ∧ r.kind ≠ "Deployment" then
      some { s with daemon := s.daemon.setStore (s.daemon.store.apply r) }
    else none

def call (s : ControlSystem) : ControlEvent → Option Call
  | .sweep i e => s.sweeps[i]?.bind (·.call e)
  | .deletion i e => s.deletions[i]?.bind (·.call e)
  | .detached i e => s.daemon.detached[i]?.bind (·.call e)
  | .pods _ => none
  | .apply r => some (.apply r)

end ControlSystem

end Z8s.Control
