import Z8s.Api.Update
import Z8s.Transition.Tasks

/-!
# Updates of one object at the same time

Requests to one path, each with its patch. A request reads the object in one call of the store and
writes it in another one; between the two, other requests may run.
-/

namespace Z8s.Api

open Rust Z8s.Types Compute Transition

variable {α : Type}

inductive UpdatePhase (α : Type)
  | reading
  | writing (x : α)
  | done
  | failed (e : ApiError)

structure UpdateTask (α : Type) where
  patch : Json
  phase : UpdatePhase α

inductive UpdateEvent
  /-- The list comes in an order of the environment. -/
  | read (trackers : List ResourceTracker)
  | write

def UpdateTask.step (h : UpdateHandler α) (ns name : String) (store : ResourceStore) (t : UpdateTask α) :
    UpdateEvent → Option (ResourceStore × UpdateTask α)
  | .read trackers =>
    match t.phase with
    | .reading =>
      if trackers.Perm (store.getByKind h.kind) then
        match h.updated ns name trackers t.patch with
        | .ok x => some (store, { t with phase := .writing x })
        | .error e => some (store, { t with phase := .failed e })
      else none
    | _ => none
  | .write =>
    match t.phase with
    | .writing x => some (store.apply (h.wrap x), { t with phase := .done })
    | _ => none

structure UpdateSystem (α : Type) where
  store : ResourceStore
  tasks : List (UpdateTask α)

structure UpdateSystemEvent where
  i : Nat
  e : UpdateEvent

def UpdateSystem.step (h : UpdateHandler α) (ns name : String) (s : UpdateSystem α)
    (e : UpdateSystemEvent) : Option (UpdateSystem α) :=
  (stepAt s.tasks e.i (·.step h ns name s.store e.e)).map fun (store, tasks) => { store, tasks }

def UpdateSystem.init (store : ResourceStore) (patches : List Json) : UpdateSystem α where
  store := store
  tasks := patches.map fun patch => { patch, phase := .reading }

def UpdateTask.isWriting (t : UpdateTask α) : Bool :=
  match t.phase with
  | .writing _ => true
  | _ => false

def UpdateTask.isDone (t : UpdateTask α) : Bool :=
  match t.phase with
  | .done => true
  | _ => false

def Contains (h : UpdateHandler α) (ns name : String) (store : ResourceStore) (patch : Json) : Prop :=
  ∃ t ∈ store.getByKind h.kind, (t.resource.namespaceOf = ns ∧ t.resource.name = name) ∧
    ∃ x ∈ h.unwrap t.resource, containsChanges (h.serde.toValue x) patch = true
  deriving Decidable

/-- The stored object contains the changes of every request that has been served. -/
def KeepsPatches (h : UpdateHandler α) (ns name : String) (s : UpdateSystem α) : Prop :=
  ∀ t ∈ s.tasks, t.isDone = true → Contains h ns name s.store t.patch
  deriving Decidable

/-- The change that a request makes by itself: the object stays under its namespace and name, and it
contains the changes of the patch. The value it is read from is one of `plain`. -/
def TakesEffect (h : UpdateHandler α) (ns name : String) (plain : Json → Prop)
    (trackers : List ResourceTracker) (patch : Json) : Prop :=
  match h.updated ns name trackers patch with
  | .ok x => ((h.wrap x).namespaceOf = ns ∧ (h.wrap x).name = name) ∧
      containsChanges (h.serde.toValue x) patch = true ∧ plain (h.merged ns name trackers patch)
  | .error _ => True

instance (h : UpdateHandler α) (ns name : String) (plain : Json → Prop) [DecidablePred plain]
    (trackers : List ResourceTracker) (patch : Json) :
    Decidable (TakesEffect h ns name plain trackers patch) := by
  unfold TakesEffect
  cases h.updated ns name trackers patch <;> infer_instance

/-- A request reads only while no other request is about to write. -/
def ReadsAlone (h : UpdateHandler α) (ns name : String) (plain : Json → Prop) (s : UpdateSystem α)
    (e : UpdateSystemEvent) : Prop :=
  match e.e with
  | .read trackers => (∀ t ∈ s.tasks, t.isWriting = false) ∧
      ∀ t ∈ s.tasks[e.i]?, TakesEffect h ns name plain trackers t.patch
  | .write => True

instance (h : UpdateHandler α) (ns name : String) (plain : Json → Prop) [DecidablePred plain]
    (s : UpdateSystem α) (e : UpdateSystemEvent) : Decidable (ReadsAlone h ns name plain s e) := by
  unfold ReadsAlone
  cases e.e <;> infer_instance

/-- Changes that an object can hold stay when a value that contains them is read: reading drops only
what the type of the object does not know, and `complete` fills in only what is missing. The type may
make an exception of values that are not `plain`. -/
def UpdateHandler.KeepsKnown (h : UpdateHandler α) (ns name : String) (plain : Json → Prop) : Prop :=
  ∀ x v u q, h.complete ns name x = x → plain v → h.serde.fromValue v = .ok u →
    containsChanges (h.serde.toValue x) q = true → containsChanges v q = true →
    containsChanges (h.serde.toValue (h.complete ns name u)) q = true

end Z8s.Api
