import Z8s.Netmux.NetMux
import Z8s.Netmux.Subnets

/-!
# Runs of the network engine

The engine together with the attachments that exist, each with the address `attach_pod` returned for it. The
events are the calls that hand addresses out, take them back or replace a pool.
-/

namespace Z8s.Netmux

open Rust Transition

structure Attachment where
  podUid : String
  ip : Ipv4Addr
  hostIdx : Nat
  deriving DecidableEq, Repr

structure NetState where
  netmux : NetMux
  attached : List Attachment

inductive NetEvent
  /-- `register_subnet_cidr`, with a valid CIDR or not. -/
  | registerSubnet (name cidrStr : String)
  /-- An `attach_pod` that returns `Ok`. -/
  | attach (podUid : String) (subnet : Option String) (hostIdx peerIdx : Nat)
  /-- `detach_pod` of an attachment; `order` is the iteration order of the subnet pools. -/
  | detach (a : Attachment) (order : List String)

namespace NetState

def init (nm : NetMux) : NetState := { netmux := nm, attached := [] }

def step (s : NetState) : NetEvent → Option NetState
  | .registerSubnet name cidrStr =>
    match s.netmux.registerSubnetCidr name cidrStr with
    | .ok nm => some { s with netmux := nm }
    | .error _ => some s
  | .attach podUid subnet hostIdx peerIdx =>
    match s.netmux.attachPod subnet (.attached hostIdx peerIdx) [] with
    | (.ok (ip, hostIdx, _), nm) =>
      some { netmux := nm, attached := { podUid, ip, hostIdx } :: s.attached }
    | (.error _, _) => none
  | .detach a order =>
    if a ∈ s.attached ∧ order.Perm s.netmux.subnetPools.keys then
      some { netmux := s.netmux.detachPod a.ip order, attached := s.attached.erase a }
    else none

def UniqueIps (s : NetState) : Prop := (s.attached.map Attachment.ip).Nodup
  deriving Decidable

/-- The pools stay apart in a step: a subnet is registered only with addresses that no attachment
holds and that are free in no other pool, and an address is given back only while no registered
subnet contains it (`release_ip` would put it into two pools). -/
def KeepsApart (s : NetState) : NetEvent → Prop
  | .registerSubnet name cidrStr => ∀ cidr ∈ Ipv4Cidr.parse cidrStr,
      cidr.usable ∩ (s.attached.map Attachment.ip).toFinset = ∅ ∧ cidr.usable ∩ s.netmux.pool.free = ∅ ∧
        ∀ e ∈ s.netmux.subnetPools.iter, e.1 ≠ name → cidr.usable ∩ e.2.free = ∅
  | .attach _ _ _ _ => True
  | .detach a _ => ∀ e ∈ s.netmux.subnetPools.iter, e.2.cidr.contains a.ip = false

instance (s : NetState) : (e : NetEvent) → Decidable (s.KeepsApart e)
  | .registerSubnet name cidrStr => inferInstanceAs (Decidable (∀ cidr ∈ Ipv4Cidr.parse cidrStr,
      cidr.usable ∩ (s.attached.map Attachment.ip).toFinset = ∅ ∧ cidr.usable ∩ s.netmux.pool.free = ∅ ∧
        ∀ e ∈ s.netmux.subnetPools.iter, e.1 ≠ name → cidr.usable ∩ e.2.free = ∅))
  | .attach _ _ _ _ => inferInstanceAs (Decidable True)
  | .detach a _ => inferInstanceAs (Decidable (∀ e ∈ s.netmux.subnetPools.iter,
      e.2.cidr.contains a.ip = false))

end NetState

/-! ### A failed attachment -/

/-- An attachment that fails leaves all pools as they were. -/
def NetMux.Undone (nm : NetMux) (subnet : Option String) (veth : VethOutcome) (order : List String) : Prop :=
  ∀ e, (nm.attachPod subnet veth order).1 = .error e → (nm.attachPod subnet veth order).2.freeOf = nm.freeOf

/-- Where the address goes that a failed attachment gives back. It goes into the global pool and into the first
subnet pool whose CIDR contains it; one of these has to be the pool it was taken from, and the other one has to
have it already. -/
def NetMux.ReturnsTo (nm : NetMux) (ip : Ipv4Addr) (order : List String) : Option String → Prop
  | none => ∀ n, nm.subnetOf ip order = some n → ip ∈ nm.freeOf (some n)
  | some n => nm.subnetOf ip order = some n ∧ ip ∈ nm.freeOf none

/-! ### The gateway -/

/-- The subnets that are registered at the start; an invalid CIDR is refused. -/
def NetMux.registerAll (subnets : List (String × String)) (nm : NetMux) : NetMux :=
  subnets.foldl (fun nm subnet =>
    match nm.registerSubnetCidr subnet.1 subnet.2 with
    | .ok nm => nm
    | .error _ => nm) nm

/-- An engine after its start, before any pod is attached. -/
structure StartedNet where
  podCidr : String
  subnets : List (String × String)
  netmux : NetMux
  started : (NetMux.new podCidr).map (NetMux.registerAll subnets) = .ok netmux

/-- The calls for pods, with what the kernel answers and the iteration order of the subnet pools. -/
inductive PodCall
  | attach (podUid : String) (subnet : Option String) (veth : VethOutcome) (order : List String)
  /-- `detach_pod` of an attachment. -/
  | detach (a : Attachment) (order : List String)

namespace NetState

def call (s : NetState) : PodCall → Option NetState
  | .attach podUid subnet veth order =>
    if order.Perm s.netmux.subnetPools.keys then
      match s.netmux.attachPod subnet veth order with
      | (.ok (ip, hostIdx, _), nm) =>
        some { netmux := nm, attached := { podUid, ip, hostIdx } :: s.attached }
      | (.error _, nm) => some { s with netmux := nm }
    else none
  | .detach a order =>
    if a ∈ s.attached ∧ order.Perm s.netmux.subnetPools.keys then
      some { netmux := s.netmux.detachPod a.ip order, attached := s.attached.erase a }
    else none

def SparesGateway (gateway : Ipv4Addr) (s : NetState) : Prop := ∀ a ∈ s.attached, a.ip ≠ gateway
  deriving Decidable

end NetState

/-- The gateway lies in the pod CIDR, and no pod ever gets its address. -/
def StartedNet.GatewayApart (net : StartedNet) : Prop :=
  net.netmux.pool.cidr.Holds net.netmux.gateway ∧
    ∀ calls, Always NetState.call (NetState.SparesGateway net.netmux.gateway) (.init net.netmux) calls

end Z8s.Netmux
