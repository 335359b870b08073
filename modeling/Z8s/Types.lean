import Z8s.Collections.BTreeMap
import Z8s.Collections.Proofs.HashMapProofs
import Z8s.Rust.Int
import Z8s.Rust.Str

/-!
# Resources and the resource store

Model of `src/types.rs`: the resource kinds with the metadata the daemon reads, their uids, and the
store of tracked resources. Of the Kubernetes objects only the fields are kept that a modelled
function reads; the time of the last update of a tracker is left out.
-/

namespace Z8s.Types

open Collections Rust

variable (s : ResourceStore)

structure OwnerReference where
  apiVersion : String
  kind : String
  name : String
  controller : Option Bool
  blockOwnerDeletion : Option Bool
  uid : String
  deriving DecidableEq, Repr

structure ObjectMeta where
  name : Option String := none
  inNamespace : Option String := none
  annotations : Option (List (String × String)) := none
  labels : Option (BTreeMap String String) := none
  ownerReferences : Option (List OwnerReference) := none
  uid : Option String := none
  deriving DecidableEq, Repr

structure ContainerPort where
  containerPort : Int
  name : Option String := none
  deriving DecidableEq, Repr

structure VolumeMount where
  name : String
  mountPath : String
  subPath : Option String := none
  readOnly : Option Bool := none
  deriving DecidableEq, Repr

structure EnvVar where
  name : String
  value : Option String := none
  deriving DecidableEq, Repr

/-- Variables from a ConfigMap or a Secret, which are referred to by name. -/
structure EnvFromSource where
  namePrefix : Option String := none
  configMapRef : Option String := none
  secretRef : Option String := none
  deriving DecidableEq, Repr

structure Container where
  name : String
  image : Option String := none
  command : Option (List String) := none
  args : Option (List String) := none
  workingDir : Option String := none
  env : Option (List EnvVar) := none
  envFrom : Option (List EnvFromSource) := none
  ports : Option (List ContainerPort) := none
  volumeMounts : Option (List VolumeMount) := none
  deriving DecidableEq, Repr

/-- A volume of a pod, with those sources that are supported. Of a hostPath the path is kept, of a
ConfigMap and of a claim the name, and of a Secret its name if it has one. -/
structure Volume where
  name : String
  hostPath : Option String := none
  emptyDir : Bool := false
  configMap : Option String := none
  secret : Option (Option String) := none
  persistentVolumeClaim : Option String := none
  deriving DecidableEq, Repr

structure PodSpec where
  containers : List Container := []
  initContainers : Option (List Container) := none
  restartPolicy : Option String := none
  volumes : Option (List Volume) := none
  deriving DecidableEq, Repr

structure Pod where
  metadata : ObjectMeta
  spec : Option PodSpec := none
  deriving DecidableEq, Repr

structure PodTemplateSpec where
  metadata : Option ObjectMeta := none
  spec : Option PodSpec := none
  deriving DecidableEq, Repr

structure LabelSelectorRequirement where
  key : String
  operator : String
  values : Option (List String) := none
  deriving DecidableEq, Repr

structure LabelSelector where
  matchLabels : Option (BTreeMap String String) := none
  matchExpressions : Option (List LabelSelectorRequirement) := none
  deriving DecidableEq, Repr

structure DeploymentSpec where
  replicas : Option I32 := none
  selector : LabelSelector := {}
  template : PodTemplateSpec := {}
  deriving DecidableEq, Repr

structure Deployment where
  metadata : ObjectMeta
  spec : Option DeploymentSpec := none
  deriving DecidableEq, Repr

def Deployment.template (r : Deployment) : Option PodSpec := r.spec.bind fun s => s.template.spec

structure ObjectReference where
  kind : Option String := none
  name : Option String := none
  inNamespace : Option String := none
  deriving DecidableEq, Repr

/-- A `Quantity` is kept as the text it was written as. -/
abbrev Quantity := String

structure PersistentVolumeSpec where
  capacity : Option (BTreeMap String Quantity) := none
  accessModes : Option (List String) := none
  claimRef : Option ObjectReference := none
  hostPath : Option String := none
  deriving DecidableEq, Repr

structure PersistentVolumeStatus where
  phase : Option String := none
  deriving DecidableEq, Repr

structure PersistentVolume where
  metadata : ObjectMeta
  spec : Option PersistentVolumeSpec := none
  status : Option PersistentVolumeStatus := none
  deriving DecidableEq, Repr

structure VolumeResourceRequirements where
  requests : Option (BTreeMap String Quantity) := none
  deriving DecidableEq, Repr

structure PersistentVolumeClaimSpec where
  accessModes : Option (List String) := none
  resources : Option VolumeResourceRequirements := none
  storageClassName : Option String := none
  volumeName : Option String := none
  deriving DecidableEq, Repr

structure PersistentVolumeClaimStatus where
  phase : Option String := none
  capacity : Option (BTreeMap String Quantity) := none
  accessModes : Option (List String) := none
  deriving DecidableEq, Repr

structure PersistentVolumeClaim where
  metadata : ObjectMeta
  spec : Option PersistentVolumeClaimSpec := none
  status : Option PersistentVolumeClaimStatus := none
  deriving DecidableEq, Repr

inductive IntOrString
  | int (n : I32)
  | string (s : String)
  deriving DecidableEq, Repr

structure ServicePort where
  port : I32
  name : Option String := none
  targetPort : Option IntOrString := none
  nodePort : Option I32 := none
  deriving DecidableEq, Repr

structure ServiceSpec where
  type : Option String := none
  clusterIp : Option String := none
  clusterIps : Option (List String) := none
  externalName : Option String := none
  selector : Option (BTreeMap String String) := none
  ports : Option (List ServicePort) := none
  deriving DecidableEq, Repr

/-- The conditions and the addresses of a load balancer, which nothing looks into. -/
structure ServiceStatus where
  conditions : Option (List String) := none
  loadBalancer : Option (List String) := none
  deriving DecidableEq, Repr

structure Service where
  metadata : ObjectMeta
  spec : Option ServiceSpec := none
  status : Option ServiceStatus := none
  deriving DecidableEq, Repr

structure ConfigMap where
  metadata : ObjectMeta
  data : Option (BTreeMap String String) := none
  binaryData : Option (BTreeMap String (List UInt8)) := none
  immutable : Option Bool := none
  deriving DecidableEq, Repr

structure Secret where
  metadata : ObjectMeta
  data : Option (BTreeMap String (List UInt8)) := none
  stringData : Option (BTreeMap String String) := none
  type : Option String := none
  immutable : Option Bool := none
  deriving DecidableEq, Repr

structure IngressServiceBackend where
  name : String
  portNumber : Option I32 := none
  deriving DecidableEq, Repr

/-- A rule of an ingress, with the service that each of its paths leads to. -/
structure IngressRule where
  host : Option String := none
  http : Option (List (Option IngressServiceBackend)) := none
  deriving DecidableEq, Repr

structure IngressSpec where
  rules : Option (List IngressRule) := none
  deriving DecidableEq, Repr

structure Ingress where
  metadata : ObjectMeta
  spec : Option IngressSpec := none
  deriving DecidableEq, Repr

structure IpBlock where
  cidr : String
  except : Option (List String) := none
  deriving DecidableEq, Repr

structure NetworkPolicyPeer where
  podSelector : Option LabelSelector := none
  namespaceSelector : Option LabelSelector := none
  ipBlock : Option IpBlock := none
  deriving DecidableEq, Repr

/-- The ingress rules of a policy, each with the peers it lets in. -/
structure NetworkPolicySpec where
  ingress : Option (List (Option (List NetworkPolicyPeer))) := none
  deriving DecidableEq, Repr

structure NetworkPolicy where
  metadata : ObjectMeta
  spec : Option NetworkPolicySpec := none
  deriving DecidableEq, Repr

structure VNetSpec where
  cidr : Option String := none
  internetAccess : Bool := true
  deriving DecidableEq, Repr

structure VNet where
  metadata : ObjectMeta
  spec : VNetSpec
  deriving DecidableEq, Repr

inductive AnyResource
  | pod (r : Pod)
  | deployment (r : Deployment)
  | service (r : Service)
  | configMap (r : ConfigMap)
  | secret (r : Secret)
  | persistentVolume (r : PersistentVolume)
  | persistentVolumeClaim (r : PersistentVolumeClaim)
  | vNet (r : VNet)
  | subnet (metadata : ObjectMeta)
  | nsg (metadata : ObjectMeta)
  | routeTable (metadata : ObjectMeta)
  | ingress (r : Ingress)
  | networkPolicy (r : NetworkPolicy)
  deriving DecidableEq, Repr

namespace AnyResource

def metadata : AnyResource → ObjectMeta
  | pod r => r.metadata
  | deployment r => r.metadata
  | persistentVolume r => r.metadata
  | persistentVolumeClaim r => r.metadata
  | service r => r.metadata
  | configMap r => r.metadata
  | secret r => r.metadata
  | ingress r => r.metadata
  | networkPolicy r => r.metadata
  | vNet r => r.metadata
  | subnet m | nsg m | routeTable m => m

/-- Change the metadata (`metadata_mut`). -/
def mapMetadata (f : ObjectMeta → ObjectMeta) : AnyResource → AnyResource
  | pod r => pod { r with metadata := f r.metadata }
  | deployment r => deployment { r with metadata := f r.metadata }
  | persistentVolume r => persistentVolume { r with metadata := f r.metadata }
  | persistentVolumeClaim r => persistentVolumeClaim { r with metadata := f r.metadata }
  | service r => service { r with metadata := f r.metadata }
  | configMap r => configMap { r with metadata := f r.metadata }
  | secret r => secret { r with metadata := f r.metadata }
  | ingress r => ingress { r with metadata := f r.metadata }
  | networkPolicy r => networkPolicy { r with metadata := f r.metadata }
  | vNet r => vNet { r with metadata := f r.metadata }
  | subnet m => subnet (f m)
  | nsg m => nsg (f m)
  | routeTable m => routeTable (f m)

def kind : AnyResource → String
  | pod _ => "Pod"
  | deployment _ => "Deployment"
  | service _ => "Service"
  | configMap _ => "ConfigMap"
  | secret _ => "Secret"
  | persistentVolume _ => "PersistentVolume"
  | persistentVolumeClaim _ => "PersistentVolumeClaim"
  | vNet _ => "VNet"
  | subnet _ => "Subnet"
  | nsg _ => "NSG"
  | routeTable _ => "RouteTable"
  | ingress _ => "Ingress"
  | networkPolicy _ => "NetworkPolicy"

def name (r : AnyResource) : String := r.metadata.name.getD "<unnamed>"

def namespaceOf : AnyResource → String
  | persistentVolume _ => ""
  | r => r.metadata.inNamespace.getD "default"

def uid (r : AnyResource) : String := r.kind ++ "/" ++ r.namespaceOf ++ "/" ++ r.name

def isPod : AnyResource → Bool
  | pod _ => true
  | _ => false

/-- `pod.spec.as_ref()?.restart_policy.clone()` of a pod, nothing for the other kinds. -/
def restartPolicy : AnyResource → Option String
  | pod r => r.spec.bind PodSpec.restartPolicy
  | _ => none

end AnyResource

/-- The suffixes of a quantity in the order in which they are tried, each with its unit. -/
def quantitySuffixes : List (String × Nat) :=
  [("Ti", 1024 ^ 4), ("Gi", 1024 ^ 3), ("Mi", 1024 ^ 2), ("Ki", 1024), ("Pi", 1024 ^ 5),
    ("Ei", 1024 ^ 6), ("T", 10 ^ 12), ("G", 10 ^ 9), ("M", 10 ^ 6), ("k", 10 ^ 3)]

/-- The bytes of a quantity; what is no number counts as 0. The product is one of `u64`, which wraps
around in a release build. -/
def parseQuantityBytes (q : Quantity) : Nat :=
  let s := trim q
  let parse (s : String) : Nat := (parseUnsigned (2 ^ 64 - 1) s).getD 0
  (quantitySuffixes.findSome? fun e =>
    (stripSuffix s e.1).map fun rest => parse rest * e.2 % 2 ^ 64).getD (parse s)

/-- The containers of a pod spec, the init containers last. -/
def PodSpec.allContainers (s : PodSpec) : List Container := s.containers ++ s.initContainers.getD []

def extractContainers : AnyResource → List Container
  | .pod r => (r.spec.map PodSpec.allContainers).getD []
  | .deployment r => (r.template.map PodSpec.allContainers).getD []
  | _ => []

inductive ResourceState
  | pending
  | running
  | succeeded
  | failed (message : String)
  | terminated
  deriving DecidableEq, Repr

structure ResourceTracker where
  resource : AnyResource
  state : ResourceState
  deriving DecidableEq, Repr

def ResourceTracker.new (resource : AnyResource) : ResourceTracker := { resource, state := .pending }

/-- The store. Every tracker stands under the uid of its resource. -/
structure ResourceStore where
  resources : HashMap String ResourceTracker
  keyed : ∀ uid t, resources.get uid = some t → t.resource.uid = uid

namespace ResourceStore

def new : ResourceStore := ⟨∅, by simp⟩

/-- Store a resource; one that was there keeps its state. -/
def apply (resource : AnyResource) : ResourceStore where
  resources := s.resources.insert resource.uid
    { ResourceTracker.new resource with
      state := ((s.resources.get resource.uid).map ResourceTracker.state).getD .pending }
  keyed uid t h := by
    rw [HashMap.get_insert] at h
    split_ifs at h with hu
    · cases h
      exact hu.symm
    · exact s.keyed uid t h

def delete (resource : AnyResource) : ResourceStore where
  resources := s.resources.remove resource.uid
  keyed uid t h := by
    rw [HashMap.get_remove] at h
    split_ifs at h
    exact s.keyed uid t h

def getAll : List ResourceTracker := s.resources.values

def getByKind (kind : String) : List ResourceTracker :=
  s.getAll.filter (·.resource.kind == kind)

def get (s : ResourceStore) (uid : String) : Option ResourceTracker := s.resources.get uid

/-- Set the state of a tracked resource; an unknown uid is ignored. -/
def updateState (uid : String) (state : ResourceState) : ResourceStore where
  resources := s.resources.update uid ({ · with state })
  keyed u t h := by
    rw [HashMap.get_update] at h
    split_ifs at h
    · obtain ⟨t', ht', rfl⟩ := Option.map_eq_some_iff.1 h
      exact s.keyed u t' ht'
    · exact s.keyed u t h

end ResourceStore

/-! ### Keys -/

def AnyResource.key (r : AnyResource) : String × String × String := (r.kind, r.namespaceOf, r.name)

inductive StoreOp
  | apply (r : AnyResource)
  | delete (r : AnyResource)
  deriving DecidableEq, Repr

namespace StoreOp

def resource : StoreOp → AnyResource
  | apply r | delete r => r

def run : StoreOp → ResourceStore
  | apply r => s.apply r
  | delete r => s.delete r

/-- What is left under a key of the resource that was there. -/
def next (key : String × String × String) (old : Option AnyResource) (op : StoreOp) : Option AnyResource :=
  if op.resource.key = key then
    match op with
    | apply r => some r
    | delete _ => none
  else old

/-- The last resource that was applied under a key and not deleted. -/
def last (key : String × String × String) (ops : List StoreOp) : Option AnyResource := ops.foldl (next key) none

end StoreOp

/-- The store keeps the resources of a set apart by kind, namespace and name. -/
structure KeysIdentify (rs : Set AnyResource) : Prop where
  uid_iff : ∀ r ∈ rs, ∀ r' ∈ rs, r.uid = r'.uid ↔ r.key = r'.key
  holds_last : ∀ ops : List StoreOp, (∀ op ∈ ops, op.resource ∈ rs) → ∀ key r,
    (r ∈ (ops.foldl StoreOp.run .new).getAll.map ResourceTracker.resource ∧ r.key = key) ↔
      StoreOp.last key ops = some r
  leaves_others : ∀ s : ResourceStore, (∀ t ∈ s.getAll, t.resource ∈ rs) → ∀ op : StoreOp, op.resource ∈ rs →
    ∀ t : ResourceTracker, t.resource.key ≠ op.resource.key → (t ∈ (op.run s).getAll ↔ t ∈ s.getAll)

/-- One namespace goes on where the other one has ended, and the names make up for it. -/
def AnyResource.Shifted (r r' : AnyResource) : Prop :=
  ∃ part : String, r.kind = r'.kind ∧ r'.namespaceOf = r.namespaceOf ++ "/" ++ part ∧ r.name = part ++ "/" ++ r'.name

end Z8s.Types
