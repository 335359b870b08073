import Z8s.Netmux.Dnat
import Z8s.Scheduler.Process

/-!
# Service proxies

Model of `NetworkManager` (`src/components/network/service.rs`) and of `delete_service`
(`src/api/handlers/service.rs`). Between any two questions that a call asks, pods may start, exit or be deleted,
so what a call gets to see is an argument.
-/

namespace Z8s.Network

open Rust Collections Z8s.Types Netmux Nftables Cri Scheduler

def asU16 (n : Int) : U16 := BitVec.ofInt 16 n

/-- What the resolution of one port gets to see: the pods listed for a named port, the pods listed for
the backends, and the running map when the address of the pod number `i` is looked up. -/
structure PodLookup where
  named : List ResourceTracker := []
  pods : List ResourceTracker := []
  running : Nat → HashMap String RunningContainer := fun _ => ∅

/-- The port of this name in a pod of the namespace; a text that is a number will do as well. -/
def resolveNamedPort (pods : List ResourceTracker) (ns name : String) : Option U16 :=
  let ports := (pods.filter fun t => t.resource.namespaceOf == ns).flatMap fun t =>
    (extractContainers t.resource).flatMap fun c => c.ports.getD []
  match ports.find? fun p => p.name == some name with
  | some p => some (asU16 p.containerPort)
  | none => (parseUnsigned 65535 name).map (BitVec.ofNat 16)

/-- The pods of the namespace that the selector matches, those without an address left out. -/
def resolveBackendPods (lookup : PodLookup) (selector : BTreeMap String String) (ns : String)
    (port : U16) : List (Ipv4Addr × U16) :=
  lookup.pods.zipIdx.filterMap fun (t, i) =>
    match t.resource with
    | .pod pod =>
      if pod.metadata.inNamespace.getD "default" != ns then none
      else if !(selector.iter.all fun e => (pod.metadata.labels.getD ∅).get e.1 == some e.2) then none
      else (podIp (lookup.running i) (pod.metadata.name.getD "")).map fun ip => (ip, port)
    | _ => none

structure NetworkManager where
  /-- A set of keys. -/
  proxies : HashMap String Unit
  nft : NftEngine

/-- What happens while one port of a Service is handled: the lookups for the ClusterIP and for the
NodePort, and what becomes of the batches of each call of the engine. -/
structure PortEnv where
  cluster : PodLookup := {}
  node : PodLookup := {}
  clusterOut : Nat → Nftables.Outcome := fun _ => .answered
  nodeClusterOut : Nat → Nftables.Outcome := fun _ => .answered
  nodeOut : Nat → Nftables.Outcome := fun _ => .answered

section Sync

variable (svc : Service)

def svcNamespace : String := svc.metadata.inNamespace.getD "default"

def proxyKey : String := svcNamespace svc ++ "/" ++ svc.metadata.name.getD ""

def selectorOf : BTreeMap String String := (svc.spec.bind ServiceSpec.selector).getD ∅

def svcType : String := (svc.spec.bind ServiceSpec.type).getD "ClusterIP"

def clusterIpText : String := (svc.spec.bind ServiceSpec.clusterIp).getD ""

/-- An address that cannot be read is replaced by a default. -/
def clusterIpAddr : Ipv4Addr := (Ipv4Addr.parse (clusterIpText svc)).getD (Ipv4Addr.new 10 96 0 1)

def hasClusterIp : Bool := clusterIpText svc != "" && clusterIpText svc != "None"

/-- The node port of a port, for the types of Services that have one. -/
def nodePortOf (p : ServicePort) : Option U16 :=
  if svcType svc == "NodePort" || svcType svc == "LoadBalancer" then p.nodePort.map fun n => asU16 n
  else none

def clusterKey (p : ServicePort) : String := proxyKey svc ++ ":clusterip:" ++ toString p.port.val

def nodeKey (nodePort : U16) : String := proxyKey svc ++ ":nodeport:" ++ toString nodePort.toNat

def containerPort (p : ServicePort) (lookup : PodLookup) : U16 :=
  match p.targetPort.getD (.int p.port) with
  | .int n => asU16 n
  | .string name => (resolveNamedPort lookup.named (svcNamespace svc) name).getD (asU16 p.port)

def backendsOf (p : ServicePort) (lookup : PodLookup) : List (Ipv4Addr × U16) :=
  resolveBackendPods lookup (selectorOf svc) (svcNamespace svc) (containerPort svc p lookup)

/-- The ClusterIP of one port. An error of the engine is logged only. -/
def syncClusterIp (nm : NetworkManager) (p : ServicePort) (env : PortEnv) : NetworkManager :=
  if hasClusterIp svc then
    { proxies := (nm.proxies.remove (clusterKey svc p)).insert (clusterKey svc p) ()
      nft := (nm.nft.addDnat (clusterIpAddr svc) (asU16 p.port) (backendsOf svc p env.cluster)
        env.clusterOut).1 }
  else nm

/-- The node port of one port; the chain of the ClusterIP is filled here as well. -/
def syncNodePort (nm : NetworkManager) (p : ServicePort) (env : PortEnv) : NetworkManager :=
  match nodePortOf svc p with
  | some nodePort =>
    let backends := backendsOf svc p env.node
    let nft := (nm.nft.addDnat (clusterIpAddr svc) (asU16 p.port) backends env.nodeClusterOut).1
    { proxies := (nm.proxies.remove (nodeKey svc nodePort)).insert (nodeKey svc nodePort) ()
      nft := (nft.addNodeportDnat nodePort backends env.nodeOut).1 }
  | none => nm

def syncPorts (nm : NetworkManager) (env : Nat → PortEnv) : List ServicePort → NetworkManager
  | [] => nm
  | p :: rest =>
    syncPorts (syncNodePort svc (syncClusterIp svc nm p (env 0)) p (env 0)) (fun i => env (i + 1)) rest

/-- The ports that are handled: those of a Service with a spec and a selector. -/
def proxiedPorts : List ServicePort :=
  if (selectorOf svc).iter.isEmpty then [] else (svc.spec.bind ServiceSpec.ports).getD []

def syncServiceProxies (nm : NetworkManager) (env : Nat → PortEnv) : NetworkManager :=
  syncPorts svc nm env (proxiedPorts svc)

end Sync

/-! ### Removal -/

/-- One key of a Service that is removed. The address comes from the Services that are `listed`, the
port from the key. -/
def removeKey (ns name : String) (listed : List ResourceTracker) (out : Nat → Nat → Nftables.Outcome)
    (nm : NetworkManager) (key : String) : NetworkManager :=
  let dnat (nft : NftEngine) (t : ResourceTracker × Nat) : NftEngine :=
    match t.1.resource with
    | .service svc =>
      if svc.metadata.inNamespace.getD "default" == ns && t.1.resource.name == name then
        match (svc.spec.bind ServiceSpec.clusterIp).bind Ipv4Addr.parse,
            parseUnsigned 65535 (rsplitNext ':' key) with
        | some ip, some port => (nft.removeDnat ip (BitVec.ofNat 16 port) (out t.2)).1
        | _, _ => nft
      else nft
    | _ => nft
  { proxies := nm.proxies.remove key, nft := listed.zipIdx.foldl dnat nm.nft }

/-- What `remove_service` sees and what becomes of its batches: the order of the keys, and for each key
the Services that are listed and the outcomes. -/
structure RemoveEnv where
  keys : List String
  listed : Nat → List ResourceTracker
  out : Nat → Nat → Nat → Nftables.Outcome

def removeService (nm : NetworkManager) (ns name : String) (env : RemoveEnv) : NetworkManager :=
  (env.keys.filter fun k => startsWith k (ns ++ "/" ++ name)).zipIdx.foldl
    (fun nm (key, i) => removeKey ns name (env.listed i) (env.out i) nm key) nm

end Z8s.Network
