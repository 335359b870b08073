import Z8s.Network.Service
import Z8s.Proofs.TypesProofs

/-!
# What should hold of the service proxies

The DNAT chain of a Service should name the backends of the last synchronisation, the removal of a
Service should take away what belongs to it and nothing else, and the backends of a Service should be
the addresses of the pods that it selects. The conditions under which the source does that stand
beside the properties.
-/

namespace Z8s.Network

open Rust Collections Z8s.Types Netmux Nftables Cri

variable (store : ResourceStore) (svc : Service)

/-! ### Synchronisation -/

structure SyncCall where
  svc : Service
  env : Nat → PortEnv

/-- Calls one after the other; each holds the lock of the proxies to its end. -/
def syncAll (nm : NetworkManager) (calls : List SyncCall) : NetworkManager :=
  calls.foldl (fun nm call => syncServiceProxies call.svc nm call.env) nm

def freshManager (e : NftEngine) : NetworkManager where
  proxies := ∅
  nft := initialised e

def Answered (env : Nat → PortEnv) : Prop :=
  ∀ i n, (env i).clusterOut n = .answered ∧ (env i).nodeClusterOut n = .answered ∧
    (env i).nodeOut n = .answered

/-- The backends that a call resolves for the chains of the ClusterIP, in the order of the calls of
`add_dnat`. -/
def clusterCalls (svc : Service) (env : Nat → PortEnv) :
    List ServicePort → List (U16 × List (Ipv4Addr × U16))
  | [] => []
  | p :: rest =>
    (if hasClusterIp svc then [(asU16 p.port, backendsOf svc p (env 0).cluster)] else []) ++
      (if (nodePortOf svc p).isSome then [(asU16 p.port, backendsOf svc p (env 0).node)] else []) ++
      clusterCalls svc (fun i => env (i + 1)) rest

def resolvedFor (env : Nat → PortEnv) (port : U16) : List (U16 × List (Ipv4Addr × U16)) :=
  (clusterCalls svc env (proxiedPorts svc)).filter (·.1 == port)

def dnatTarget (r : Rule Match) : Option (Ipv4Addr × U16) :=
  match r.verdict with
  | .dnat addr port => some (addr, port)
  | _ => none

def dnatTargets (e : NftEngine) (ip : Ipv4Addr) (port : U16) : List (Ipv4Addr × U16) :=
  ((e.ruleset.rules natTable (chainName ip port)).getD []).filterMap dnatTarget

/-- Every chain of the ClusterIP has one rule for each backend that was resolved last, and no other. -/
def MirrorsBackends (env : Nat → PortEnv) (nm : NetworkManager) : Prop :=
  ∀ port, ∀ last ∈ (resolvedFor svc env port).getLast?,
    (dnatTargets nm.nft (clusterIpAddr svc) port).Perm last.2

/-- The call finds no rules in the chains that it fills, and the resolutions before the last one of each
port have no backends. -/
def FindsNoRules (env : Nat → PortEnv) (nm : NetworkManager) : Prop :=
  ∀ port, resolvedFor svc env port ≠ [] → dnatTargets nm.nft (clusterIpAddr svc) port = [] ∧
    ∀ call ∈ (resolvedFor svc env port).dropLast, call.2 = []

/-! ### Removal -/

/-- The keys that a synchronisation of the Service puts into the set of proxies. -/
def keysOf : List String :=
  (proxiedPorts svc).flatMap fun p =>
    (if hasClusterIp svc then [clusterKey svc p] else []) ++ ((nodePortOf svc p).map (nodeKey svc)).toList

/-- The chains that a synchronisation of the Service can fill. -/
def chainsOf : List String :=
  (proxiedPorts svc).flatMap fun p =>
    (if hasClusterIp svc || (nodePortOf svc p).isSome then [chainName (clusterIpAddr svc) (asU16 p.port)]
      else []) ++ ((nodePortOf svc p).map nodeportChainName).toList

/-- `delete_service`: the first listed Service of this namespace and name is removed. -/
def deleteService (nm : NetworkManager) (store : ResourceStore) (listed : List ResourceTracker)
    (ns name : String) (env : RemoveEnv) : NetworkManager × ResourceStore :=
  match listed.find? fun t => t.resource.namespaceOf == ns && t.resource.name == name with
  | some t => (removeService nm t.resource.namespaceOf t.resource.name env, store.delete t.resource)
  | none => (nm, store)

/-- A Service is taken away, and nothing else. -/
structure RemovedExactly (svcs : List Service) (svc : Service) (before after : NetworkManager) : Prop where
  keys : ∀ k, after.proxies.containsKey k = true ↔ before.proxies.containsKey k = true ∧ k ∉ keysOf svc
  gone : ∀ c ∈ chainsOf svc, ∀ h ∈ NftEngine.jumpHooks, after.nft.ruleset.jumpCount natTable h c = 0
  others : ∀ other ∈ svcs, other ≠ svc → ∀ c ∈ chainsOf other,
    after.nft.ruleset.rules natTable c = before.nft.ruleset.rules natTable c ∧
      ∀ h ∈ NftEngine.jumpHooks,
        after.nft.ruleset.jumpCount natTable h c = before.nft.ruleset.jumpCount natTable h c

/-- The Service forwards nothing, and its keys are those that start with its namespace and name. -/
def RemovesCleanly (nm : NetworkManager) : Prop :=
  (∀ c ∈ chainsOf svc, nm.nft.ruleset.rules natTable c = none) ∧
    ∀ k, nm.proxies.containsKey k = true →
      (startsWith k ((AnyResource.service svc).namespaceOf ++ "/" ++ (AnyResource.service svc).name) = true ↔
        k ∈ keysOf svc)

/-! ### Selection -/

def podNamespace (pod : Pod) : String := pod.metadata.inNamespace.getD "default"

def podLabels (pod : Pod) : BTreeMap String String := pod.metadata.labels.getD ∅

/-- The pod is in the namespace of the Service, and its labels satisfy the selector. -/
def Selected (pod : Pod) : Prop :=
  podNamespace pod = svcNamespace svc ∧ ∀ e ∈ (selectorOf svc).iter, (podLabels pod).get e.1 = some e.2

/-- A container with this address was started for the pod. -/
def HasAddress (running : HashMap String RunningContainer) (pod : Pod) (ip : Ipv4Addr) : Prop :=
  ∃ cid rc, running.get cid = some rc ∧ rc.startedFor = (AnyResource.pod pod).uid ∧ rc.inst.podIp = some ip

/-- What `resolve_backend_pods` gives for a Service, for some order of the listed pods and of the running
map. -/
def IsBackend (running : HashMap String RunningContainer) (svc : Service) (b : Ipv4Addr × U16) : Prop :=
  ∃ (pods : List ResourceTracker) (running' : HashMap String RunningContainer) (port : U16),
    pods.Perm (store.getByKind "Pod") ∧ running'.entries.Perm running.entries ∧
      b ∈ resolveBackendPods { pods, running := fun _ => running' } (selectorOf svc) (svcNamespace svc) port

/-- Every backend of a Service with a selector is the address of a pod that it selects. -/
def BackendsSelected (running : HashMap String RunningContainer) : Prop :=
  ∀ svc : Service, (selectorOf svc).iter ≠ [] → ∀ b, IsBackend store running svc b →
    ∃ pod, store.Holds (.pod pod) ∧ Selected svc pod ∧ HasAddress running pod b.1

/-- Whatever selects the first pod selects the second. -/
def Subsumes (pod pod' : Pod) : Prop :=
  podNamespace pod' = podNamespace pod ∧
    ∀ e ∈ (podLabels pod).iter, (podLabels pod').get e.1 = some e.2

/-- An address under an id that starts with the name of a stored pod is that of the pod, or of a pod in the
same namespace with at least the same labels. -/
def AddressesSubsumed (running : HashMap String RunningContainer) : Prop :=
  ∀ pod : Pod, store.Holds (.pod pod) → (podLabels pod).iter ≠ [] → ∀ cid rc ip,
    running.get cid = some rc → startsWith cid (pod.metadata.name.getD "" ++ "-") = true →
      rc.inst.podIp = some ip →
        ∃ pod', store.Holds (.pod pod') ∧ Subsumes pod pod' ∧ HasAddress running pod' ip

/-! ### Target ports -/

/-- The numbers of the ports of this name, in the order in which a resource declares them. -/
def declaredPorts (name : String) (r : AnyResource) : List Int :=
  (((extractContainers r).flatMap fun c => c.ports.getD []).filter fun p => p.name == some name).map
    ContainerPort.containerPort

/-- The number of the first port of this name, for a resource in the namespace of the Service. -/
def namedPort (name : String) (r : AnyResource) : Option Int :=
  if r.namespaceOf == svcNamespace svc then (declaredPorts name r).head? else none

def targetOf (p : ServicePort) : IntOrString := p.targetPort.getD (.int p.port)

/-- The number that the port of the backends is cast from. -/
def targetValue (p : ServicePort) (pods : List ResourceTracker) : Int :=
  match targetOf p with
  | .int n => n
  | .string name => (pods.findSome? fun t => namedPort svc name t.resource).getD
      (((parseUnsigned 65535 name).map Int.ofNat).getD p.port)

/-- A selected pod declares the number under this name. -/
def DeclaredBySelected (name : String) (n : Int) : Prop :=
  ∃ pod, store.Holds (.pod pod) ∧ Selected svc pod ∧ n ∈ declaredPorts name (.pod pod)

/-- The port of the backends is the one that the target port of the Service means, and no number is turned into
another one. -/
structure ResolvesTarget (store : ResourceStore) (svc : Service) (p : ServicePort) (lookup : PodLookup) : Prop where
  integer : ∀ n : I32, targetOf p = .int n → 1 ≤ n.val → n.val ≤ 65535 →
    ((containerPort svc p lookup).toNat : Int) = n
  named : ∀ name, targetOf p = .string name → (∃ n, DeclaredBySelected store svc name n) →
    DeclaredBySelected store svc name (containerPort svc p lookup).toNat
  outside : ¬ (1 ≤ targetValue svc p lookup.named ∧ targetValue svc p lookup.named ≤ 65535) →
    ((containerPort svc p lookup).toNat : Int) = targetValue svc p lookup.named

/-- All ports of the Service resolve, in whichever order the pods are listed. -/
def TargetsResolve : Prop :=
  ∀ p ∈ proxiedPorts svc, ∀ lookup : PodLookup, lookup.named.Perm (store.getByKind "Pod") →
    ResolvesTarget store svc p lookup

def FitsU16 (n : Int) : Prop := 0 ≤ n ∧ n ≤ 65535

/-- The numbers that a target port may be read as fit in 16 bits, and all pods of the namespace mean by its name
what the selected ones mean. -/
def TargetUnambiguous (p : ServicePort) : Prop :=
  match targetOf p with
  | .int n => FitsU16 n
  | .string name =>
    (∀ pod, store.Holds (.pod pod) → ∀ n ∈ namedPort svc name (.pod pod),
      FitsU16 n ∧ ((∃ m, DeclaredBySelected store svc name m) → DeclaredBySelected store svc name n)) ∧
    ((∀ pod, store.Holds (.pod pod) → namedPort svc name (.pod pod) = none) → parseUnsigned 65535 name = none →
      FitsU16 p.port)

end Z8s.Network
