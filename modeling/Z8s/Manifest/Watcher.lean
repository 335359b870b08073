import Z8s.Api.Services
import Z8s.Network.Ingress
import Z8s.Network.Safety
import Z8s.Storage.Api

/-!
# Manifests and requests

The two ways of a document into the store: `ManifestWatcher::process_file` (`src/manifest/watcher.rs`), and
the create handlers for Services, claims and Ingresses (`src/api/handlers`). A pass of `reconcile_all` does
nothing for these kinds themselves; for a pod that is ready it synchronises the Services that select it.
-/

namespace Z8s.Manifest

open Rust Collections Z8s.Types Netmux Network Storage Api

inductive Document
  | service (svc : Service)
  | claim (pvc : PersistentVolumeClaim)
  | ingress (ing : Ingress)
  deriving DecidableEq

def Document.resource : Document → AnyResource
  | service svc => .service svc
  | claim pvc => .persistentVolumeClaim pvc
  | ingress ing => .ingress ing

/-- The store, the counters of the create handlers, and what the components have set up. -/
structure World where
  services : ServiceState
  manager : NetworkManager
  routes : IngressRoutes
  dnsRecords : DnsRecords
  gateway : Ipv4Addr

namespace World

def store (w : World) : ResourceStore := w.services.store

def setStore (w : World) (store : ResourceStore) : World :=
  { w with services := { w.services with store } }

end World

/-! ### The manifest directory -/

def setDefaultNamespace : AnyResource → AnyResource :=
  AnyResource.mapMetadata fun m => { m with inNamespace := m.inNamespace.or (some "default") }

def processFile (w : World) (resources : List AnyResource) : World :=
  w.setStore (resources.foldl (fun store r => store.apply (setDefaultNamespace r)) w.store)

/-! ### The create handlers -/

/-- What a handler gets from elsewhere: the build and the configuration, a fresh uuid, what the
synchronisation of the proxies sees, the volumes as they are listed, the uid of a provisioned volume and
the answer of its backend. -/
structure PostEnv where
  prof : Profile
  cfg : Config
  uuid : String
  ports : Nat → PortEnv
  volumes : List ResourceTracker
  pvUid : String
  backend : Except Error Unit

/-- The state after a request; none when the handler panics, or when the volumes are not listed like
this. -/
def post (env : PostEnv) (ns : String) (w : World) : Document → Option World
  | .service svc =>
    match createdService env.prof env.cfg w.services ns env.uuid svc with
    | .ok (svc, ipCounter, nodePortCounter) => some { w with
        services := ⟨w.store.apply (.service svc), ipCounter, nodePortCounter⟩
        manager := syncServiceProxies svc w.manager env.ports }
    | .error _ => none
  | .claim pvc =>
    (VolumeRequest.step w.store (.createPvc ns pvc env.uuid env.volumes env.pvUid env.backend)).map w.setStore
  | .ingress ing =>
    let ing := { ing with metadata := fillCreated ns env.uuid ing.metadata }
    some { w.setStore (w.store.apply (.ingress ing)) with
      routes := applyIngress w.routes ing
      dnsRecords := recordHosts w.dnsRecords w.gateway ing }

/-! ### Passes -/

inductive PassStep
  /-- A pod with the labels is ready. The Services stand under the uids in the order of the list, and `env`
  is what the synchronisation of each one sees. -/
  | syncServicesForLabels (ns : String) (labels : BTreeMap String String) (uids : List String)
      (env : String → Nat → PortEnv)
  | applyPod (pod : Pod)
  | deletePod (pod : Pod)
  | updateState (uid : String) (state : ResourceState)

/-- The Service is synchronised when a pod of the namespace with the labels is ready. -/
def selectsLabels (ns : String) (labels : BTreeMap String String) (svc : Service) : Bool :=
  svcNamespace svc == ns && !(selectorOf svc).iter.isEmpty &&
    (selectorOf svc).iter.all fun e => labels.get e.1 == some e.2

def asService : AnyResource → Option Service
  | .service svc => some svc
  | _ => none

def syncService (ns : String) (labels : BTreeMap String String) (env : String → Nat → PortEnv)
    (store : ResourceStore) (manager : NetworkManager) (uid : String) : NetworkManager :=
  match (store.get uid).bind fun t => asService t.resource with
  | some svc => if selectsLabels ns labels svc then syncServiceProxies svc manager (env uid) else manager
  | none => manager

def pass (w : World) : PassStep → World
  | .syncServicesForLabels ns labels uids env =>
    { w with manager := uids.foldl (syncService ns labels env w.store) w.manager }
  | .applyPod pod => w.setStore (w.store.apply (.pod pod))
  | .deletePod pod => w.setStore (w.store.delete (.pod pod))
  | .updateState uid state => w.setStore (w.store.updateState uid state)

def passes (w : World) (steps : List PassStep) : World := steps.foldl pass w

/-! ### When both ways agree -/

def eraseUid (m : ObjectMeta) : ObjectMeta := { m with uid := none }

/-- A ClusterIP that is assigned is as good as any other. -/
def blankIp (ip : String) : String := if ip = "" then "" else "0.0.0.0"

def blankPort (p : ServicePort) : ServicePort := { p with nodePort := p.nodePort.map fun _ => asI32 0 }

/-- The spec without the concrete numbers that are allocated. -/
def blankSpec (spec : ServiceSpec) : ServiceSpec :=
  { spec with
    clusterIp := spec.clusterIp.map blankIp
    clusterIps := spec.clusterIps.map fun ips => ips.map blankIp
    ports := spec.ports.map fun ports => ports.map blankPort }

/-- The resource without its uid and without allocated numbers. -/
def blank : AnyResource → AnyResource
  | .service svc => .service { svc with metadata := eraseUid svc.metadata, spec := svc.spec.map blankSpec }
  | r => r.mapMetadata eraseUid

def blankTracker (t : ResourceTracker) : ResourceTracker := { t with resource := blank t.resource }

/-- The same entries in the store up to uids and allocated numbers, and the same side effects. -/
structure SameOutcome (w w' : World) : Prop where
  entries : ∀ uid, (w.store.get uid).map blankTracker = (w'.store.get uid).map blankTracker
  manager : w.manager = w'.manager
  routes : w.routes = w'.routes
  dnsRecords : w.dnsRecords = w'.dnsRecords

/-- From any state, a file with the document and a request with it lead to the same outcome, after the
same passes. -/
def Agrees (ns : String) (doc : Document) : Prop :=
  ∀ w env posted steps, post env ns w doc = some posted →
    SameOutcome (passes (processFile w [doc.resource]) steps) (passes posted steps)

def Complete (svc : Service) : Prop :=
  svc.status.isSome ∧ ∀ spec ∈ svc.spec, needsClusterIp spec = false ∧ ∀ p ∈ spec.ports.getD [],
    p.targetPort.isSome ∧ (hasNodePorts spec = true → p.nodePort.isSome)

/-- The handler binds the claim to no volume, whatever is stored: it has one, or no spec, or a class that
no backend provisions. -/
def NeverBound (pvc : PersistentVolumeClaim) : Prop :=
  (volumeName pvc).isSome ∨ pvc.spec = none ∨
    ∃ cls ∈ className pvc, (preparePv pvc cls "").isOk = false

/-- Nothing is left to the handler: no default, no binding and no set-up. -/
def Inert : Document → Prop
  | .service svc => Complete svc ∧ keysOf svc = []
  | .claim pvc => NeverBound pvc
  | .ingress ing => ing.spec = none

/-- The namespace of the document is the same on both ways. -/
def SameNamespace (ns : String) (doc : Document) : Prop :=
  doc.resource.metadata.inNamespace.isSome ∨ ns = "default"

end Z8s.Manifest
