import Z8s.Control.Safety
import Z8s.Storage.Volumes

/-!
# Deletion of a namespace

Model of `delete_namespace` (`src/api/handlers/namespace.rs`) beside sweeps, deletions and starts. For a fixed
list of kinds the request lists the resources of the kind, and for each one in the namespace it calls
`on_delete` of the component and deletes it. Every call of the store is one step.
-/

namespace Z8s.Control

open Rust Z8s.Types Storage

/-- The kinds that go with a namespace, in the order in which they are listed. -/
def cascadedKinds : List String :=
  ["Pod", "Deployment", "Service", "ConfigMap", "Secret", "PersistentVolumeClaim"]

inductive CascadePhase
  | entered
  /-- List the resources of the first kind. -/
  | listing (kinds : List String)
  /-- Call `on_delete` for the first resource and delete it. -/
  | walking (todo : List AnyResource) (call : CallPhase) (kinds : List String)
  /-- `on_delete` of a claim, the first of the resources, looks for the volume of the name. -/
  | releasing (pvc : PersistentVolumeClaim) (volume : String) (todo : List AnyResource)
      (kinds : List String)
  | dropping (pvc : PersistentVolumeClaim) (pv : PersistentVolume) (todo : List AnyResource)
      (kinds : List String)
  | done (deleted : Bool)

structure Cascade where
  name : String
  phase : CascadePhase

/-- The volume of a claim that is to be deleted; the stored claim has precedence. -/
def claimedVolume (store : ResourceStore) (pvc : PersistentVolumeClaim) : Option String :=
  match store.get (AnyResource.persistentVolumeClaim pvc).uid with
  | some t => match t.resource with
    | .persistentVolumeClaim p => volumeName p
    | _ => none
  | none => volumeName pvc

namespace Cascade

inductive Event
  | remove
  | list (trackers : List ResourceTracker)
  | call
  | stopped
  | listVolumes (trackers : List ResourceTracker)
  | deleteVolume
  | delete
  | next

/-- `on_delete` is called for the first resource. -/
def calls (d : Daemon) (r : AnyResource) (todo : List AnyResource) (kinds : List String) :
    Daemon × CascadePhase :=
  match r with
  | .pod _ => (d.callStop r, .walking (r :: todo) (.waiting d.pods.stops.length) kinds)
  | .persistentVolumeClaim pvc =>
    match claimedVolume d.store pvc with
    | some volume => (d, .releasing pvc volume todo kinds)
    | none => (d, .walking (r :: todo) .returned kinds)
  | _ => (d, .walking (r :: todo) .returned kinds)

def step (namespaces : List String) (d : Daemon) (t : Cascade) : Event → Option (Daemon × Cascade)
  | .remove =>
    match t.phase with
    | .entered =>
      if t.name = "default" ∨ t.name ∉ namespaces then some (d, { t with phase := .done false })
      else some (d, { t with phase := .listing cascadedKinds })
    | _ => none
  | .list trackers =>
    match t.phase with
    | .listing (kind :: kinds) =>
      if trackers.Perm (d.store.getByKind kind) then
        let todo := (trackers.map ResourceTracker.resource).filter (·.namespaceOf == t.name)
        some (d, { t with phase := .walking todo .calling kinds })
      else none
    | _ => none
  | .call =>
    match t.phase with
    | .walking (r :: todo) .calling kinds =>
      let c := calls d r todo kinds
      some (c.1, { t with phase := c.2 })
    | _ => none
  | .stopped =>
    match t.phase with
    | .walking (r :: todo) (.waiting i) kinds =>
      if d.stopFinished i then
        some (d.setStore (d.store.updateState r.uid .terminated),
          { t with phase := .walking (r :: todo) .returned kinds })
      else none
    | _ => none
  | .listVolumes trackers =>
    match t.phase with
    | .releasing pvc volume todo kinds =>
      if trackers.Perm (d.store.getByKind "PersistentVolume") then
        match (trackers.find? fun x => x.resource.name == volume).map ResourceTracker.resource with
        | some (.persistentVolume pv) => some (d, { t with phase := .dropping pvc pv todo kinds })
        -- the list has no other kinds
        | _ => some (d, { t with phase := .walking (.persistentVolumeClaim pvc :: todo) .returned kinds })
      else none
    | _ => none
  | .deleteVolume =>
    match t.phase with
    | .dropping pvc pv todo kinds =>
      some (d.setStore (d.store.delete (.persistentVolume pv)),
        { t with phase := .walking (.persistentVolumeClaim pvc :: todo) .returned kinds })
    | _ => none
  | .delete =>
    match t.phase with
    | .walking (r :: todo) .returned kinds =>
      some (d.setStore (d.store.delete r), { t with phase := .walking todo .calling kinds })
    | _ => none
  | .next =>
    match t.phase with
    | .walking [] _ kinds => some (d, { t with phase := .listing kinds })
    | .listing [] => some (d, { t with phase := .done true })
    | _ => none

def keeps (namespaces : List String) (t : Cascade) : Event → List String
  | .remove => if t.name = "default" then namespaces else namespaces.filter (· != t.name)
  | _ => namespaces

def call (t : Cascade) : Event → Option Call
  | .call =>
    match t.phase with
    | .walking (r :: _) .calling _ => if r.isPod then some (.stop r) else none
    | _ => none
  | _ => none

def isDone (t : Cascade) : Bool :=
  match t.phase with
  | .done _ => true
  | _ => false

def pendingKinds (t : Cascade) : List String :=
  match t.phase with
  | .entered => cascadedKinds
  | .listing kinds | .walking _ _ kinds | .releasing _ _ _ kinds | .dropping _ _ _ kinds => kinds
  | .done _ => []

def todo (t : Cascade) : List AnyResource :=
  match t.phase with
  | .walking todo _ _ => todo
  | .releasing pvc _ todo _ | .dropping pvc _ todo _ => .persistentVolumeClaim pvc :: todo
  | _ => []

end Cascade

/-! ### The system -/

structure NamespaceSystem where
  control : ControlSystem
  namespaces : List String
  cascade : Cascade

inductive NamespaceEvent
  | control (e : ControlEvent)
  | cascade (e : Cascade.Event)

namespace NamespaceSystem

def init (name : String) (namespaces : List String) (control : ControlSystem) : NamespaceSystem where
  control
  namespaces
  cascade := { name, phase := .entered }

def step (s : NamespaceSystem) : NamespaceEvent → Option NamespaceSystem
  | .control e => (s.control.step e).map fun control => { s with control }
  | .cascade e => (s.cascade.step s.namespaces s.control.daemon e).map fun r =>
      { control := { s.control with daemon := r.1 }
        namespaces := s.cascade.keeps s.namespaces e
        cascade := r.2 }

def call (s : NamespaceSystem) : NamespaceEvent → Option Call
  | .control e => s.control.call e
  | .cascade e => s.cascade.call e

def daemon (s : NamespaceSystem) : Daemon := s.control.daemon

end NamespaceSystem

/-! ### What should be left of a namespace -/

def InNamespace (name : String) (r : AnyResource) : Prop :=
  r.namespaceOf = name ∧ r.kind ≠ "PersistentVolume"
  deriving Decidable

/-- Nothing in the namespace is stored, and no container is running that was started for one of its
pods: one with the uid of such a pod belongs to a stored resource of another namespace. -/
structure NamespaceEmpty (name : String) (d : Daemon) : Prop where
  stored : ∀ r, d.store.Holds r → ¬ InNamespace name r
  running : ∀ pod : Pod, InNamespace name (.pod pod) → Recorded d (AnyResource.pod pod).uid →
    ∃ r, d.store.Holds r ∧ r.uid = (AnyResource.pod pod).uid ∧ ¬ InNamespace name r

/-- Once the request and the other tasks have come to their end, the namespace is empty. -/
def EmptiedWhenDone (s : NamespaceSystem) : Prop :=
  s.cascade.isDone = true → s.control.isIdle = true → NamespaceEmpty s.cascade.name s.daemon

/-- The request is still to come to the resource: its kind is not listed yet, or a resource with its uid
is yet to be deleted. -/
def Cascade.Ahead (t : Cascade) (r : AnyResource) : Prop :=
  r.kind ∈ t.pendingKinds ∨ r.uid ∈ t.todo.map AnyResource.uid
  deriving Decidable

def isPodUidOf (name uid : String) : Bool := startsWith uid ("Pod/" ++ name ++ "/")

/-- What the call newly stores in the namespace is still ahead of the request. -/
def Call.storesAhead (t : Cascade) : Call → Prop
  | .apply r => InNamespace t.name r → t.Ahead r
  | _ => True

instance (t : Cascade) : (call : Call) → Decidable (call.storesAhead t)
  | .apply _ => inferInstanceAs (Decidable (_ → _))
  | .start _ | .stop _ => inferInstanceAs (Decidable True)

/-- The step makes no call out of order for a pod of the namespace, and stores nothing in the namespace
that the request has passed already or never comes to. -/
def KeepsAhead (s : NamespaceSystem) (e : NamespaceEvent) : Prop :=
  ∀ call ∈ s.call e, (isPodUidOf s.cascade.name call.uid = true →
    OrderlyCall call.uid s.daemon (some call)) ∧ call.storesAhead s.cascade
  deriving Decidable

end Z8s.Control
