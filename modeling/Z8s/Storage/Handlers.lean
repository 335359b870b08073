import Z8s.Storage.Safety

/-!
# Handlers of volumes and claims at the same time

The handlers `on_apply` of volumes and of claims without a class, each with the object that was
posted. A handler lists the other kind, and later writes the two halves of a binding in two calls of
the store; between any two of its calls other handlers may run.
-/

namespace Z8s.Storage

open Z8s.Types Transition

inductive Posted
  | volume (pv : PersistentVolume)
  | claim (pvc : PersistentVolumeClaim)

inductive BindPhase
  | listing
  | writingPv (pv : PersistentVolume) (pvc : PersistentVolumeClaim)
  | writingPvc (pvc : PersistentVolumeClaim)
  /-- The claim has a class and goes to the provisioner. -/
  | provisioning
  | done

structure BindTask where
  posted : Posted
  phase : BindPhase

/-- A call of `on_apply`, up to its first call of the store. -/
def BindTask.enter : Posted → BindTask
  | .volume pv => { posted := .volume pv, phase := if looksForClaim pv then .listing else .done }
  | .claim pvc => {
      posted := .claim pvc
      phase := if (volumeName pvc).isSome then .done
        else if (className pvc).isSome then .provisioning
        else .listing }

/-- What the handler writes when it has listed `trackers`. -/
def Posted.bind (trackers : List ResourceTracker) :
    Posted → Option (PersistentVolume × PersistentVolumeClaim)
  | .volume pv => bindVolume pv trackers
  | .claim pvc => bindClaim pvc trackers

def Posted.listedKind : Posted → String
  | .volume _ => "PersistentVolumeClaim"
  | .claim _ => "PersistentVolume"

inductive BindEvent
  | list (trackers : List ResourceTracker)
  | writePv
  | writePvc

def BindTask.step (store : ResourceStore) (t : BindTask) : BindEvent → Option (ResourceStore × BindTask)
  | .list trackers =>
    match t.phase with
    | .listing =>
      if trackers.Perm (store.getByKind t.posted.listedKind) then
        match t.posted.bind trackers with
        | some (pv, pvc) => some (store, { t with phase := .writingPv pv pvc })
        | none => some (store, { t with phase := .done })
      else none
    | _ => none
  | .writePv =>
    match t.phase with
    | .writingPv pv pvc =>
      some (store.apply (.persistentVolume pv), { t with phase := .writingPvc pvc })
    | _ => none
  | .writePvc =>
    match t.phase with
    | .writingPvc pvc => some (store.apply (.persistentVolumeClaim pvc), { t with phase := .done })
    | _ => none

structure BindSystem where
  store : ResourceStore
  tasks : List BindTask

structure BindSystemEvent where
  i : Nat
  e : BindEvent

def BindSystem.step (s : BindSystem) (e : BindSystemEvent) : Option BindSystem :=
  (stepAt s.tasks e.i (·.step s.store e.e)).map fun (store, tasks) => { store, tasks }

/-- Handlers of objects that the store holds already, none of which has made a step. -/
def BindSystem.init (store : ResourceStore) (posted : List Posted) : BindSystem where
  store := store
  tasks := posted.map BindTask.enter

/-- No two claims carry one volume, and none carries a volume that refers to another one. -/
@[mk_iff] structure NoSharedVolume (store : ResourceStore) : Prop where
  unshared : ∀ c ∈ claims store, ∀ c' ∈ claims store, ∀ v ∈ volumeName c,
    volumeName c' = some v → c = c'
  own : CarriesOwn store

instance (store : ResourceStore) : Decidable (NoSharedVolume store) := decidable_of_iff' _ (noSharedVolume_iff store)

/-- The handler has decided on a binding and not written both halves yet. -/
def BindTask.isBinding (t : BindTask) : Bool :=
  match t.phase with
  | .writingPv _ _ | .writingPvc _ => true
  | _ => false

def Posted.Held (store : ResourceStore) : Posted → Prop
  | .volume pv => pv ∈ volumes store
  | .claim pvc => pvc ∈ claims store

instance (store : ResourceStore) : (p : Posted) → Decidable (p.Held store)
  | .volume _ | .claim _ => inferInstanceAs (Decidable (_ ∈ _))

/-- A handler lists only while no handler is about to write a binding, and while the store still holds
its own object as it was posted. -/
def ListsAlone (s : BindSystem) (e : BindSystemEvent) : Prop :=
  match e.e with
  | .list _ => (∀ t ∈ s.tasks, t.isBinding = false) ∧ ∀ t ∈ s.tasks[e.i]?, t.posted.Held s.store
  | _ => True

instance (s : BindSystem) (e : BindSystemEvent) : Decidable (ListsAlone s e) := by
  unfold ListsAlone
  cases e.e <;> infer_instance

end Z8s.Storage
