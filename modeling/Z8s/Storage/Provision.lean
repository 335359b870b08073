import Z8s.Storage.Volumes
import Z8s.Transition.Run
import Z8s.Transition.Tasks

/-!
# Dynamic provisioning

Model of `src/storage/mod.rs`. A call of `provision_for_pvc` moves from one step to the next that others can
see: the two acquisitions of the lock of `inflight`, the calls of the store and the call of the backend.
-/

namespace Z8s.Storage

open Collections Z8s.Types Netmux Transition

variable (pvc : PersistentVolumeClaim)

/-! ### Classes -/

structure StorageClass where
  name : String
  provisioner : String
  deriving DecidableEq, Repr

def StorageClass.builtin : List StorageClass :=
  [{ name := "standard", provisioner := "z8s.io/loop" },
    { name := "hostpath", provisioner := "z8s.io/hostpath" }]

def StorageClass.byName (name : String) : Option StorageClass :=
  StorageClass.builtin.find? (·.name == name)

inductive Backend
  | loop
  | hostpath
  deriving DecidableEq, Repr

def select (cls : StorageClass) : Except Error Backend :=
  if cls.provisioner = "z8s.io/loop" then .ok .loop
  else if cls.provisioner = "z8s.io/hostpath" then .ok .hostpath
  else .error ["unknown provisioner '" ++ cls.provisioner ++ "'"]

/-! ### Names -/

def provisionedName (inNamespace name : String) : String := "pvc-" ++ inNamespace ++ "--" ++ name

def provisionedPath (pvName : String) : String := "/var/lib/z8s/pv/" ++ pvName

def provisionedNameOf : String :=
  provisionedName (pvc.metadata.inNamespace.getD "default") (pvc.metadata.name.getD "unknown")

def claimKey : String :=
  "PersistentVolumeClaim/" ++ pvc.metadata.inNamespace.getD "default" ++ "/" ++
    pvc.metadata.name.getD "unknown"

/-! ### One call -/

def newPv (spec : PersistentVolumeClaimSpec) (cls : StorageClass) (uid : String) : PersistentVolume where
  metadata := {
    name := some (provisionedNameOf pvc)
    uid := some uid
    annotations := some [("z8s.io/provisioner", cls.provisioner)] }
  spec := some {
    capacity := spec.resources.bind (·.requests)
    accessModes := spec.accessModes
    claimRef := some {
      kind := some "PersistentVolumeClaim"
      name := pvc.metadata.name
      inNamespace := pvc.metadata.inNamespace }
    hostPath := some (provisionedPath (provisionedNameOf pvc)) }
  status := some { phase := some "Available" }

/-- The volume that `do_provision` hands to a backend, and the backend. -/
def preparePv (cls uid : String) : Except Error (PersistentVolume × Backend) :=
  match pvc.spec with
  | none => .error ["PVC has no spec"]
  | some spec =>
    match StorageClass.byName cls with
    | none => .error ["unknown storage class '" ++ cls ++ "'"]
    | some c => (select c).map fun backend => (newPv pvc spec c uid, backend)

/-- The volume when its backend has provisioned it. -/
def provisionedPv (pv : PersistentVolume) : PersistentVolume :=
  { pv with status := pv.status.map fun s => { s with phase := some "Bound" } }

def provisionedPvc (pv : PersistentVolume) : PersistentVolumeClaim :=
  { pvc with
    spec := pvc.spec.map fun s => { s with volumeName := some (provisionedNameOf pvc) }
    status := some {
      phase := some "Bound"
      capacity := pv.spec.bind (·.capacity)
      accessModes := pv.spec.bind (·.accessModes) } }

/-- What `do_provision` writes when the backend answers `result`; `uid` is the new uid of the volume. -/
def doProvision (cls uid : String) (result : Except Error Unit) :
    Except Error (PersistentVolume × PersistentVolumeClaim) :=
  match preparePv pvc cls uid, result with
  | .error e, _ => .error e
  | .ok _, .error e => .error e
  | .ok (pv, _), .ok _ => .ok (provisionedPv pv, provisionedPvc pvc pv)

/-- What a call finds out before it takes the lock: nothing to do, or the class and the uid. -/
def needsProvision : Except Error (Option (String × String)) :=
  match pvc.spec with
  | none => .error ["PVC has no spec"]
  | some spec =>
    match spec.storageClassName with
    | none => .ok none
    | some cls =>
      if spec.volumeName.isSome then .ok none
      else match pvc.metadata.uid with
        | some uid => .ok (some (cls, uid))
        | none => .error ["PVC has no uid"]

/-- Whether the store holds the claim with a volume. -/
def boundInStore (store : ResourceStore) (pvc : PersistentVolumeClaim) : Bool :=
  match store.get (claimKey pvc) with
  | some t => match t.resource with
    | .persistentVolumeClaim p => (volumeName p).isSome
    | _ => false
  | none => false

/-- A call of `provision_for_pvc` while no other one is under way. -/
def provisionForPvc (store : ResourceStore) (pvc : PersistentVolumeClaim) (uid : String)
    (result : Except Error Unit) : Except Error Unit × ResourceStore :=
  match needsProvision pvc with
  | .error e => (.error e, store)
  | .ok none => (.ok (), store)
  | .ok (some (cls, _)) =>
    if boundInStore store pvc then (.ok (), store)
    else match doProvision pvc cls uid result with
      | .error e => (.error e, store)
      | .ok (pv, pvc) => (.ok (), writeBinding store pv pvc)

/-! ### Calls at the same time -/

inductive ProvisionPhase
  /-- Look for the uid in `inflight`, and put it there. -/
  | locking
  /-- Look for the claim in the store. -/
  | checking
  /-- Call the backend. -/
  | provisioning
  | writingPv (pv : PersistentVolume) (pvc : PersistentVolumeClaim)
  | writingPvc (pvc : PersistentVolumeClaim)
  /-- Take the uid out of `inflight`. -/
  | unlocking (result : Except Error Unit)
  | done (result : Except Error Unit)

structure ProvisionTask where
  pvc : PersistentVolumeClaim
  cls : String
  uid : String
  phase : ProvisionPhase

def ProvisionTask.isDone (t : ProvisionTask) : Bool :=
  match t.phase with
  | .done _ => true
  | _ => false

/-- A call of `provision_for_pvc`, up to the lock. -/
def ProvisionTask.enter : ProvisionTask :=
  match needsProvision pvc with
  | .error e => { pvc, cls := "", uid := "", phase := .done (.error e) }
  | .ok none => { pvc, cls := "", uid := "", phase := .done (.ok ()) }
  | .ok (some (cls, uid)) => { pvc, cls, uid, phase := .locking }

inductive ProvisionEvent
  | lock
  | check
  /-- `pvUid` is the new uid of the volume. -/
  | backend (pvUid : String) (result : Except Error Unit)
  | writePv
  | writePvc
  | unlock

/-- The store, the uids of the claims that are being provisioned, and, as a ghost, the number of times
that a backend has provisioned a volume. -/
structure Dispatcher where
  store : ResourceStore
  inflight : HashMap String Unit
  provisioned : Nat

def ProvisionTask.step (d : Dispatcher) (t : ProvisionTask) :
    ProvisionEvent → Option (Dispatcher × ProvisionTask)
  | .lock =>
    match t.phase with
    | .locking =>
      if d.inflight.containsKey t.uid then some (d, { t with phase := .done (.ok ()) })
      else some ({ d with inflight := d.inflight.insert t.uid () }, { t with phase := .checking })
    | _ => none
  | .check =>
    match t.phase with
    | .checking =>
      if boundInStore d.store t.pvc then some (d, { t with phase := .unlocking (.ok ()) })
      else some (d, { t with phase := .provisioning })
    | _ => none
  | .backend pvUid result =>
    match t.phase with
    | .provisioning =>
      match doProvision t.pvc t.cls pvUid result with
      | .error e => some (d, { t with phase := .unlocking (.error e) })
      | .ok (pv, pvc) =>
        some ({ d with provisioned := d.provisioned + 1 }, { t with phase := .writingPv pv pvc })
    | _ => none
  | .writePv =>
    match t.phase with
    | .writingPv pv pvc =>
      some ({ d with store := d.store.apply (.persistentVolume pv) }, { t with phase := .writingPvc pvc })
    | _ => none
  | .writePvc =>
    match t.phase with
    | .writingPvc pvc => some ({ d with store := d.store.apply (.persistentVolumeClaim pvc) },
        { t with phase := .unlocking (.ok ()) })
    | _ => none
  | .unlock =>
    match t.phase with
    | .unlocking result =>
      some ({ d with inflight := d.inflight.remove t.uid }, { t with phase := .done result })
    | _ => none

structure ProvisionSystem where
  dispatcher : Dispatcher
  tasks : List ProvisionTask

/-- A call makes a move, or something else happens to the store and to `inflight`. -/
inductive ProvisionSystemEvent
  | call (i : Nat) (e : ProvisionEvent)
  | other (store : ResourceStore) (inflight : HashMap String Unit)

def ProvisionSystem.step (s : ProvisionSystem) : ProvisionSystemEvent → Option ProvisionSystem
  | .call i e => (stepAt s.tasks i (·.step s.dispatcher e)).map fun (dispatcher, tasks) =>
      { dispatcher, tasks }
  | .other store inflight => some { s with dispatcher := { s.dispatcher with store, inflight } }

end Z8s.Storage
