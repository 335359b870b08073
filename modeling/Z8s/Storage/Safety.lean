import Z8s.Storage.Api

/-!
# What should hold of volumes and claims

The properties of provisioning and of the bindings, with the conditions under which the source keeps
them.
-/

namespace Z8s.Storage

open Collections Z8s.Types Netmux

variable (store : ResourceStore)

/-! ### Provisioning -/

/-- A part of the text moves from the namespace to the name: a dash, or everything between two
separators. -/
def Shifted (inNamespace name inNamespace' name' : String) : Prop :=
  (inNamespace' = inNamespace ++ "-" ∧ name = "-" ++ name') ∨
    ∃ mid, inNamespace' = inNamespace ++ "--" ++ mid ∧ name = mid ++ "--" ++ name'

/-- A claim with this uid, namespace and name. -/
@[mk_iff] structure SameClaim (uid : String) (inNamespace name : Option String) (pvc : PersistentVolumeClaim) :
    Prop where
  uid : pvc.metadata.uid = some uid
  inNamespace : pvc.metadata.inNamespace = inNamespace
  name : pvc.metadata.name = name

instance (uid : String) (inNamespace name : Option String) (pvc : PersistentVolumeClaim) :
    Decidable (SameClaim uid inNamespace name pvc) :=
  decidable_of_iff' _ (sameClaim_iff uid inNamespace name pvc)

/-- Calls for some claims, none of which has made a step. -/
def ProvisionSystem.init (inflight : HashMap String Unit) (pvcs : List PersistentVolumeClaim) :
    ProvisionSystem where
  dispatcher := { store, inflight, provisioned := 0 }
  tasks := pvcs.map ProvisionTask.enter

/-- At most one backend call has succeeded, and when all calls have returned the uid is free again. -/
def ProvisionedOnce (uid : String) (s : ProvisionSystem) : Prop :=
  s.dispatcher.provisioned ≤ 1 ∧
    ((∀ t ∈ s.tasks, t.isDone = true) → s.dispatcher.inflight.get uid = none)
  deriving Decidable

def claimUid (inNamespace name : Option String) : String :=
  (AnyResource.persistentVolumeClaim { metadata := { inNamespace, name } }).uid

/-- Nobody else replaces the claim or touches its mark. -/
def LeavesClaim (uid : String) (inNamespace name : Option String) (s : ProvisionSystem) :
    ProvisionSystemEvent → Prop
  | .call _ _ => True
  | .other store inflight =>
    (store.get (claimUid inNamespace name)).map ResourceTracker.resource =
        (s.dispatcher.store.get (claimUid inNamespace name)).map ResourceTracker.resource ∧
      inflight.get uid = s.dispatcher.inflight.get uid

instance (uid : String) (inNamespace name : Option String) (s : ProvisionSystem) :
    (e : ProvisionSystemEvent) → Decidable (LeavesClaim uid inNamespace name s e)
  | .call _ _ => inferInstanceAs (Decidable True)
  | .other _ _ => inferInstanceAs (Decidable (_ = _ ∧ _ = _))

/-! ### Bindings -/

def volumes : List PersistentVolume :=
  store.getAll.filterMap fun t => match t.resource with
    | .persistentVolume pv => some pv
    | _ => none

def claims : List PersistentVolumeClaim :=
  store.getAll.filterMap fun t => match t.resource with
    | .persistentVolumeClaim pvc => some pvc
    | _ => none

def pvName (pv : PersistentVolume) : String := (AnyResource.persistentVolume pv).name

/-- A reference names a claim. The handlers write an empty name for a claim without a name. -/
def refersTo (ref : ObjectReference) (pvc : PersistentVolumeClaim) : Bool :=
  ref.name.getD "" == pvc.metadata.name.getD "" &&
    ref.inNamespace.getD "default" == pvc.metadata.inNamespace.getD "default"

/-- No two claims carry one volume, and a volume that refers to a claim is the one it carries. -/
@[mk_iff] structure OneClaimPerVolume (store : ResourceStore) : Prop where
  unshared : ∀ c ∈ claims store, ∀ c' ∈ claims store, ∀ v ∈ volumeName c,
    volumeName c' = some v → c = c'
  carried : ∀ pv ∈ volumes store, ∀ ref ∈ claimRef pv, ∀ c ∈ claims store, refersTo ref c = true →
    volumeName c = some (pvName pv)

instance (store : ResourceStore) : Decidable (OneClaimPerVolume store) :=
  decidable_of_iff' _ (oneClaimPerVolume_iff store)

/-- The requests that leave the bindings to the daemon. -/
def PlainRequest : VolumeRequest → Prop
  | .createPv pv _ _ => claimRef pv = none
  | .createPvc _ pvc _ _ _ _ => volumeName pvc = none ∧ className pvc = none
  | .deletePvc _ _ _ _ => True
  | .deletePv _ _ => False

instance : (req : VolumeRequest) → Decidable (PlainRequest req)
  | .createPv _ _ _ => inferInstanceAs (Decidable (_ = none))
  | .createPvc _ _ _ _ _ _ => inferInstanceAs (Decidable (_ ∧ _))
  | .deletePvc _ _ _ _ => inferInstanceAs (Decidable True)
  | .deletePv _ _ => inferInstanceAs (Decidable False)

/-- The request posts no object that takes part in a binding, and no claim without a name. -/
def PostsUnbound : VolumeRequest → Prop
  | .createPv pv _ _ => ∀ c ∈ claims store, volumeName c ≠ some (pvName pv)
  | .createPvc inNamespace pvc uid _ _ _ => pvc.metadata.name.isSome ∧
      ∀ pv ∈ volumes store, ∀ ref ∈ claimRef pv, refersTo ref (postedPvc inNamespace pvc uid) = false
  | _ => True

instance (store : ResourceStore) : (req : VolumeRequest) → Decidable (PostsUnbound store req)
  | .createPv pv _ _ => inferInstanceAs (Decidable (∀ c ∈ claims store, _ ≠ _))
  | .createPvc _ _ _ _ _ _ => inferInstanceAs (Decidable (_ ∧ ∀ pv ∈ volumes store, ∀ ref ∈ claimRef pv, _))
  | .deletePvc _ _ _ _ | .deletePv _ _ => inferInstanceAs (Decidable True)

/-- No claim carries a volume that refers to another claim. -/
def CarriesOwn : Prop :=
  ∀ c ∈ claims store, ∀ pv ∈ volumes store, volumeName c = some (pvName pv) →
    ∀ ref ∈ claimRef pv, refersTo ref c = true
  deriving Decidable

/-- Deleting a claim hands no volume to `deprovision_pv`, and removes none, that refers to another claim. -/
def SparesOthers : Prop :=
  ∀ c ∈ claims store, ∀ pvs : List ResourceTracker, pvs.Perm (store.getByKind "PersistentVolume") →
    ∀ pv, volumeOfDeleted store c pvs = some (.persistentVolume pv) →
      ∀ ref ∈ claimRef pv, refersTo ref c = true

/-- No claim carries the volume, but for the one that is posted. -/
def CarriedByNoOther (pvc : PersistentVolumeClaim) (pvName : String) : Prop :=
  ∀ c ∈ claims store, volumeName c = some pvName →
    (AnyResource.persistentVolumeClaim c).uid = (AnyResource.persistentVolumeClaim pvc).uid
  deriving Decidable

/-- A volume is posted under a name that no claim carries, but for the one it refers to. A claim is
posted with a volume only if that does not refer to another claim, and otherwise gets only a
volume that no other claim carries. -/
def KeepsApart : VolumeRequest → Prop
  | .createPv pv _ _ => ∀ c ∈ claims store, volumeName c = some (pvName pv) →
      ∃ ref ∈ claimRef pv, refersTo ref c = true
  | .createPvc inNamespace pvc uid pvs _ _ =>
    if (volumeName pvc).isSome then
      ∀ pv ∈ volumes store, volumeName pvc = some (pvName pv) →
        ∀ ref ∈ claimRef pv, refersTo ref (postedPvc inNamespace pvc uid) = true
    else if (className pvc).isSome then
      CarriedByNoOther store (postedPvc inNamespace pvc uid)
        (provisionedNameOf (postedPvc inNamespace pvc uid))
    else ∀ b ∈ bindClaim (postedPvc inNamespace pvc uid) pvs,
      CarriedByNoOther store (postedPvc inNamespace pvc uid) (pvName b.1)
  | .deletePv _ _ | .deletePvc _ _ _ _ => True

instance (store : ResourceStore) : (req : VolumeRequest) → Decidable (KeepsApart store req)
  | .createPv pv _ _ => inferInstanceAs (Decidable (∀ c ∈ claims store, _ → ∃ ref ∈ claimRef pv, _))
  | .createPvc _ _ _ _ _ _ => by
    unfold KeepsApart
    infer_instance
  | .deletePvc _ _ _ _ | .deletePv _ _ => inferInstanceAs (Decidable True)

/-! ### Order of creation -/

/-- The volume that the claim with this uid carries. -/
def carriedBy (uid : String) : Option String :=
  (store.get uid).bind fun t => match t.resource with
    | .persistentVolumeClaim pvc => volumeName pvc
    | _ => none

/-- The store holds a volume of this name that refers to the claim. -/
def Refers (pvc : PersistentVolumeClaim) (v : String) : Prop :=
  ∃ pv ∈ volumes store, pvName pv = v ∧ ∃ ref ∈ claimRef pv, refersTo ref pvc = true

/-- Both halves of the binding of a claim are the same in two stores. -/
def SameBinding (pvc : PersistentVolumeClaim) (s s' : ResourceStore) : Prop :=
  carriedBy s (AnyResource.persistentVolumeClaim pvc).uid =
      carriedBy s' (AnyResource.persistentVolumeClaim pvc).uid ∧
    ∀ v, Refers s pvc v ↔ Refers s' pvc v

/-- For which volumes and claims it does not matter which one is created first. Without a class: the
volume does not fit, or it is not posted as bound. With a class: a volume was provisioned and has
another name than this one, or none was provisioned and this one does not fit. -/
def OrderIrrelevant (pv : PersistentVolume) (pvc : PersistentVolumeClaim) (pvUid : String)
    (backend : Except Error Unit) : Prop :=
  match className pvc with
  | none => (tryBindPvc pv pvc).isSome → pv.status.bind (·.phase) ≠ some "Bound"
  | some cls =>
    if (doProvision pvc cls pvUid backend).isOk then pvName pv ≠ provisionedNameOf pvc
    else (tryBindPvc pv pvc).isSome = false

instance (pv : PersistentVolume) (pvc : PersistentVolumeClaim) (pvUid : String)
    (backend : Except Error Unit) : Decidable (OrderIrrelevant pv pvc pvUid backend) := by
  unfold OrderIrrelevant
  cases className pvc <;> infer_instance

end Z8s.Storage
