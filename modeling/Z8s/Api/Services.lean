import Z8s.Api.Update
import Z8s.Rust.Fmt

/-!
# Creating, updating and deleting Services

Model of `create_service`, `update_service` and `delete_service` (`src/api/handlers/service.rs`) with the two
counters they draw from: `alloc_cluster_ip` (`src/config.rs`) and `alloc_node_port`. Requests come one after
the other.
-/

namespace Z8s.Api

open Rust Z8s.Types

variable (prof : Profile) (cfg : Config) (s : ServiceState)

/-- The part of the configuration that ClusterIPs are allocated from. A longer prefix is refused when the
command line is read. -/
structure Config where
  serviceCidrBase : Ipv4Addr
  serviceCidrPrefix : Fin 33

def Config.new : Config := ⟨Ipv4Addr.new 10 96 0 0, 16⟩

namespace Config

def hostBits : Nat := 32 - cfg.serviceCidrPrefix.val

/-- The number of addresses without the first and the last one. A shift by all 32 bits overflows; without
checks it is a shift by none. -/
def maxHosts : Except Fault Nat :=
  if cfg.hostBits < 32 then .ok (2 ^ cfg.hostBits - 2)
  else if prof.overflowChecks then .error .overflow
  else .ok 0

/-- The address for a value of the counter. The counter has 32 bits. -/
def clusterIpAt (hosts counter : Nat) : String :=
  dotted (cfg.serviceCidrBase ||| BitVec.ofNat 32 (counter % 2 ^ 32 % max hosts 1))

def allocClusterIp (counter : Nat) : Except Fault (String × Nat) :=
  (cfg.maxHosts prof).map fun hosts => (cfg.clusterIpAt hosts counter, counter + 1)

end Config

/-- The port for a value of the counter, which has 16 bits. -/
def nodePortAt (counter : Nat) : I32 := asI32 (counter % 2 ^ 16 : Nat)

def allocNodePort (counter : Nat) : I32 × Nat := (nodePortAt counter, counter + 1)

def typeOf (spec : ServiceSpec) : String := spec.type.getD "ClusterIP"

def hasNodePorts (spec : ServiceSpec) : Bool := typeOf spec == "NodePort" || typeOf spec == "LoadBalancer"

def needsClusterIp (spec : ServiceSpec) : Bool :=
  spec.clusterIp.getD "" == "" && typeOf spec != "ExternalName"

def assignClusterIp (counter : Nat) (spec : ServiceSpec) : Except Fault (ServiceSpec × Nat) :=
  if needsClusterIp spec then
    (cfg.allocClusterIp prof counter).map fun (ip, counter) =>
      ({ spec with clusterIp := some ip, clusterIps := some [ip] }, counter)
  else .ok (spec, counter)

/-- The loop over the ports: the ports, and the counter afterwards. -/
def assignPorts (withNodePort : Bool) : Nat → List ServicePort → List ServicePort × Nat
  | counter, [] => ([], counter)
  | counter, p :: ports =>
    if withNodePort && p.nodePort.isNone then
      let (nodePort, counter) := allocNodePort counter
      let rest := assignPorts withNodePort counter ports
      ({ fillTargetPort p with nodePort := some nodePort } :: rest.1, rest.2)
    else
      let rest := assignPorts withNodePort counter ports
      (fillTargetPort p :: rest.1, rest.2)

structure ServiceState where
  store : ResourceStore
  /-- The counter of ClusterIPs, without its wrap-around. -/
  ipCounter : Nat
  /-- The counter of node ports, without its wrap-around. -/
  nodePortCounter : Nat

def ServiceState.init : ServiceState := ⟨.new, 1, 30000⟩

/-- The namespace of the path and a fresh uid, where the metadata have none. -/
def fillCreated (ns uuid : String) (m : ObjectMeta) : ObjectMeta :=
  { m with inNamespace := m.inNamespace.or (some ns), uid := m.uid.or (some uuid) }

/-- The Service that is stored for a request, and the two counters afterwards. -/
def createdService (ns uuid : String) (svc : Service) : Except Fault (Service × Nat × Nat) :=
  let svc := { svc with
    metadata := fillCreated ns uuid svc.metadata
    status := svc.status.or (some {}) }
  match svc.spec with
  | none => .ok (svc, s.ipCounter, s.nodePortCounter)
  | some spec =>
    (assignClusterIp prof cfg s.ipCounter spec).map fun (filled, ipCounter) =>
      let ports := assignPorts (hasNodePorts spec) s.nodePortCounter (spec.ports.getD [])
      ({ svc with spec := some { filled with ports := spec.ports.map fun _ => ports.1 } }, ipCounter, ports.2)

/-- What `update_service` stores when the merged object reads as `merged`. -/
def updatedService (ns name : String) (merged : Service) : Service :=
  { merged with
    metadata := fillPath ns name merged.metadata
    spec := merged.spec.map fillTargetPorts }

inductive ServiceRequest
  | create (ns uuid : String) (svc : Service)
  /-- The body, merged into the Service of the path, reads as `merged`. -/
  | update (ns name : String) (merged : Service)
  | delete (ns name : String)
  deriving DecidableEq

/-- One request. A panic leaves everything as it was. -/
def ServiceState.step :
    ServiceRequest → Option ServiceState
  | .create ns uuid svc =>
    match createdService prof cfg s ns uuid svc with
    | .ok (svc, ipCounter, nodePortCounter) =>
      some ⟨s.store.apply (.service svc), ipCounter, nodePortCounter⟩
    | .error _ => some s
  | .update ns name merged => some { s with store := s.store.apply (.service (updatedService ns name merged)) }
  | .delete ns name =>
    match (s.store.getByKind "Service").find? fun t =>
        t.resource.namespaceOf == ns && t.resource.name == name with
    | some t => some { s with store := s.store.delete t.resource }
    | none => some s

/-! ### What must not be shared -/

def clusterIpsOf : AnyResource → List String
  | .service svc =>
    ((svc.spec.bind ServiceSpec.clusterIp).filter fun ip => ip != "" && ip != "None").toList
  | _ => []

def nodePortsOf : AnyResource → List I32
  | .service svc => ((svc.spec.bind ServiceSpec.ports).getD []).filterMap ServicePort.nodePort
  | _ => []

/-- No value is held by two resources of the store, nor twice by one. -/
structure Unshared {V : Type} (held : AnyResource → List V) (store : ResourceStore) : Prop where
  once : ∀ t ∈ store.getAll, (held t.resource).Nodup
  apart : ∀ t ∈ store.getAll, ∀ t' ∈ store.getAll, ∀ v ∈ held t.resource, v ∈ held t'.resource → t = t'

def HeldByNoOther {V : Type} (held : AnyResource → List V) (store : ResourceStore) (uid : String) (v : V) :
    Prop :=
  ∀ t ∈ store.getAll, t.resource.uid ≠ uid → v ∉ held t.resource

instance {V : Type} [DecidableEq V] (held : AnyResource → List V) (store : ResourceStore) (uid : String)
    (v : V) : Decidable (HeldByNoOther held store uid v) :=
  inferInstanceAs (Decidable (∀ t ∈ store.getAll, _ → _))

def Config.Aligned : Prop := cfg.serviceCidrBase.toNat % 2 ^ cfg.hostBits = 0

/-- The Service may be stored with the ClusterIP of its own choice: no other Service has it, and the counter
does not come to it. -/
def FreeClusterIp (svc : Service) : Prop :=
  ∀ ip ∈ clusterIpsOf (.service svc),
    HeldByNoOther clusterIpsOf s.store (AnyResource.service svc).uid ip ∧
      ∀ i < 2 ^ cfg.hostBits - 2, s.ipCounter ≤ i → ip ≠ cfg.clusterIpAt (2 ^ cfg.hostBits - 2) i

instance (cfg : Config) (s : ServiceState) (svc : Service) : Decidable (FreeClusterIp cfg s svc) :=
  inferInstanceAs (Decidable (∀ ip ∈ clusterIpsOf (.service svc), _ ∧ ∀ i < _, _ → _))

/-- A ClusterIP of the user's own choice is free, and one is allocated only while the counter has not gone
through the range. -/
def KeepsClusterIps : ServiceRequest → Prop
  | .create ns uuid svc =>
    if (svc.spec.map needsClusterIp).getD false then s.ipCounter < 2 ^ cfg.hostBits - 2 ∧ cfg.hostBits < 32
    else FreeClusterIp cfg s { svc with metadata := fillCreated ns uuid svc.metadata }
  | .update ns name merged => FreeClusterIp cfg s (updatedService ns name merged)
  | .delete _ _ => True

instance (cfg : Config) (s : ServiceState) : (e : ServiceRequest) → Decidable (KeepsClusterIps cfg s e)
  | .create ns uuid svc =>
    inferInstanceAs (Decidable (if (svc.spec.map needsClusterIp).getD false = true then
        s.ipCounter < 2 ^ cfg.hostBits - 2 ∧ cfg.hostBits < 32
      else FreeClusterIp cfg s { svc with metadata := fillCreated ns uuid svc.metadata }))
  | .update _ _ _ => inferInstanceAs (Decidable (FreeClusterIp _ _ _))
  | .delete _ _ => inferInstanceAs (Decidable True)

/-- The ports that the Service asks for are different, no other Service has one of them, and the counter does
not come to them. -/
def FreeNodePorts (svc : Service) : Prop :=
  (nodePortsOf (.service svc)).Nodup ∧ ∀ port ∈ nodePortsOf (.service svc),
    HeldByNoOther nodePortsOf s.store (AnyResource.service svc).uid port ∧
      ¬ (s.nodePortCounter ≤ port.val ∧ port.val < 2 ^ 16)
  deriving Decidable

/-- Node ports of the user's own choice are free, and those that are allocated are below the end of the
counter. -/
def KeepsNodePorts : ServiceRequest → Prop
  | .create ns uuid svc =>
    FreeNodePorts s { svc with metadata := fillCreated ns uuid svc.metadata } ∧
      ∀ created ∈ (createdService prof cfg s ns uuid svc).toOption, created.2.2 ≤ 2 ^ 16
  | .update ns name merged => FreeNodePorts s (updatedService ns name merged)
  | .delete _ _ => True

instance (prof : Profile) (cfg : Config) (s : ServiceState) :
    (e : ServiceRequest) → Decidable (KeepsNodePorts prof cfg s e)
  | .create ns uuid svc =>
    inferInstanceAs (Decidable (FreeNodePorts _ _ ∧ ∀ created ∈ (createdService prof cfg s ns uuid svc).toOption, _))
  | .update _ _ _ => inferInstanceAs (Decidable (FreeNodePorts _ _))
  | .delete _ _ => inferInstanceAs (Decidable True)

def drawnNodePorts : ServiceRequest → List I32
  | .create ns uuid svc =>
    match createdService prof cfg s ns uuid svc with
    | .ok (_, _, counter) => (List.range' s.nodePortCounter (counter - s.nodePortCounter)).map nodePortAt
    | .error _ => []
  | _ => []

end Z8s.Api
