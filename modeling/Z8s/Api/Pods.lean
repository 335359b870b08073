import Z8s.Scheduler.Process
import Z8s.Transition.Run

/-!
# Creating and updating pods

Model of `create_pod` and of the methods PUT and PATCH of `pod_handler` (`src/api/handlers/pod.rs`), with the
`on_apply` of the component `Pod`. Whether `ProcessTracker::start_pod` succeeds, and the running map that it
leaves, is part of the event. So is what the rest of the daemon does between two requests.
-/

namespace Z8s.Api

open Collections Z8s.Types Cri Scheduler

variable (s : PodServer)

/-- The state that the handlers work on. `started` and `failed` are ghosts: the pods, by uid, of which a
start has returned `Ok` since they were stored, and the pod of the last request if its start failed. -/
structure PodServer where
  store : ResourceStore
  running : HashMap String RunningContainer
  started : List String
  failed : Option String

def PodServer.init : PodServer := ⟨.new, ∅, [], none⟩

structure StartOutcome where
  ok : Bool
  running : HashMap String RunningContainer

/-- The body of a request: its `kind`, and the pod if it reads as one. -/
structure PodBody where
  kind : Option String
  pod : Option Pod

/-- A state that is written by the rest of the daemon (exits, stops and back-off). -/
inductive SettledState
  | pending
  | succeeded
  | failed (message : String)
  | terminated

def SettledState.toState : SettledState → ResourceState
  | pending => .pending
  | succeeded => .succeeded
  | failed message => .failed message
  | terminated => .terminated

inductive ServerEvent
  /-- `create_pod`. A body that is no JSON is none. -/
  | create (ns : String) (body : Option PodBody) (start : StartOutcome)
  /-- `pod_handler` with PUT or PATCH. -/
  | update (ns name : String) (body : Option PodBody) (start : StartOutcome)
  /-- A task that the reconciler has spawned for a pod comes to its end. -/
  | reconciled (resource : AnyResource) (start : StartOutcome)
  | apply (resource : AnyResource)
  | delete (resource : AnyResource)
  | settle (uid : String) (state : SettledState)
  | containers (running : HashMap String RunningContainer)

/-- Of the metadata that is filled in, the uid is kept. -/
def fillPodMetadata (pod : Pod) : Pod :=
  let ns := pod.metadata.inNamespace.getD "default"
  let name := pod.metadata.name.getD "unknown"
  { pod with metadata := { pod.metadata with
      uid := pod.metadata.uid.or (some ("Pod/" ++ ns ++ "/" ++ name)) } }

/-- The pod that a request stores. A request with another kind or without a pod is refused. -/
def ServerEvent.stored : ServerEvent → Option AnyResource
  | .create ns body _ => body.bind fun b =>
    if b.kind.getD "Pod" = "Pod" then
      b.pod.map fun pod => .pod (fillPodMetadata { pod with metadata := { pod.metadata with
        inNamespace := pod.metadata.inNamespace.or (some ns) } })
    else none
  | .update ns name body _ => body.bind fun b =>
    b.pod.map fun pod => .pod (fillPodMetadata { pod with metadata := { pod.metadata with
      inNamespace := pod.metadata.inNamespace.or (some ns)
      name := pod.metadata.name.or (some name) } })
  | _ => none

namespace PodServer

def startPod (resource : AnyResource) (start : StartOutcome) : PodServer :=
  if start.ok then
    { s with
      running := start.running
      store := s.store.updateState resource.uid .running
      started := resource.uid :: s.started }
  else { s with running := start.running }

/-- `on_apply`, whose error is not seen, and then the handler's own update of the state. -/
def startApplied (resource : AnyResource) (start : StartOutcome) : PodServer :=
  let s' := s.startPod resource start
  { s' with
    store := s'.store.updateState resource.uid .running
    failed := if start.ok then none else some resource.uid }

def createPod (resource : AnyResource) (start : StartOutcome) : PodServer :=
  startApplied { s with store := s.store.apply resource } resource start

def updatePod (resource : AnyResource) (start : StartOutcome) : PodServer :=
  if isRunning s.running resource.name then { s with store := s.store.apply resource }
  else startApplied { s with store := s.store.apply resource } resource start

def step (server : PodServer) (e : ServerEvent) : Option PodServer :=
  let s := { server with failed := none }
  match e with
  | .create _ _ start => some ((e.stored.map (s.createPod · start)).getD s)
  | .update _ _ _ start => some ((e.stored.map (s.updatePod · start)).getD s)
  | .reconciled resource start => some (s.startPod resource start)
  | .apply resource => some { s with store := s.store.apply resource }
  | .delete resource => some { s with
      store := s.store.delete resource
      started := s.started.filter (· != resource.uid) }
  | .settle uid state => some { s with store := s.store.updateState uid state.toState }
  | .containers running => some { s with running }

/-- What is stored as `Running` has been started. -/
def RunningStarted : Prop :=
  ∀ uid t, s.store.get uid = some t → t.state = .running → uid ∈ s.started

/-- A pod that is stored as `Running` has been started, and one whose start failed in the last request is
left to the reconciler, which starts pods that are `Pending`. -/
structure Reported (s : PodServer) : Prop where
  running : RunningStarted s
  retried : ∀ uid ∈ s.failed, (s.store.get uid).map ResourceTracker.state = some .pending

def StartSucceeds (e : ServerEvent) : Prop :=
  match e with
  | .create _ _ start => e.stored.isSome → start.ok = true
  | .update _ _ _ start => (e.stored.any fun r => !isRunning s.running r.name) → start.ok = true
  | _ => True

end PodServer

end Z8s.Api
