import Z8s.Collections.HashMap
import Z8s.Netmux.Pool

/-!
# The network engine: addresses of pods

Model of the address handling of `NetMux` (`src/netmux/mod.rs`): the global pool, the pools of the
registered subnets, and attaching and detaching a pod. What the kernel answers to the netlink requests
is an argument (`VethOutcome`), and so is the order in which `release_ip` walks over the subnet pools.
-/

namespace Z8s.Netmux

open Rust Collections

variable (nm : NetMux)

/-- An `anyhow` error: the texts of its context chain, outermost first. -/
abbrev Error := List String

structure NetMux where
  pool : IpPool
  subnetPools : HashMap String IpPool
  /-- The prefix length of the pod CIDR, `prefix` in the source. -/
  prefixLen : Nat
  gateway : Ipv4Addr

/-- How far the kernel lets an attachment come. The indices are those of the host and of the peer
interface. -/
inductive VethOutcome
  /-- The veth pair is not created. -/
  | createFails
  /-- The pair is created, but the host side cannot be brought up. -/
  | linkUpFails (hostIdx peerIdx : Nat)
  /-- The host side is up, but the host route is refused. -/
  | routeFails (hostIdx peerIdx : Nat)
  /-- Everything the attachment insists on works. -/
  | attached (hostIdx peerIdx : Nat)
  deriving DecidableEq, Repr

namespace NetMux

def deriveGateway (cidr : Ipv4Cidr) : Ipv4Addr := cidr.network + 1

def new (podCidr : String) : Except Error NetMux :=
  match Ipv4Cidr.parse podCidr with
  | none => .error ["Invalid pod CIDR"]
  | some cidr => .ok {
      pool := IpPool.new cidr
      subnetPools := ∅
      prefixLen := cidr.prefixLen
      gateway := deriveGateway cidr }

def allocateIp : Option (Ipv4Addr × NetMux) :=
  nm.pool.allocate.map fun (ip, pool) => (ip, { nm with pool })

def allocateSubnetIp (subnet : String) : Option (Ipv4Addr × NetMux) := do
  let p ← nm.subnetPools.get subnet
  let (ip, p) ← p.allocate
  some (ip, { nm with subnetPools := nm.subnetPools.update subnet fun _ => p })

/-- The first subnet, in the given iteration order, whose CIDR contains `ip`. -/
def subnetOf (ip : Ipv4Addr) (order : List String) : Option String :=
  order.find? fun n => (nm.subnetPools.get n).any (·.cidr.contains ip)

/-- Give an address back: to the global pool, and to the first subnet pool whose CIDR contains
it. -/
def releaseIp (ip : Ipv4Addr) (order : List String) : NetMux :=
  let nm := { nm with pool := nm.pool.release ip }
  match nm.subnetOf ip order with
  | some n => { nm with subnetPools := nm.subnetPools.update n (·.release ip) }
  | none => nm

def countFree (nm : NetMux) : Nat := nm.pool.countFree

/-- The free addresses of the global pool (`none`) and of the subnet pools (`some n`). -/
def freeOf : Option String → Finset Ipv4Addr
  | none => nm.pool.free
  | some n => ((nm.subnetPools.get n).map IpPool.free).getD ∅

/-- Register a subnet under `name`; a pool that was registered under the name before is replaced by
a new one. -/
def registerSubnetCidr (name cidrStr : String) : Except Error NetMux :=
  match Ipv4Cidr.parse cidrStr with
  | none => .error ["Invalid subnet CIDR"]
  | some cidr => .ok { nm with subnetPools := nm.subnetPools.insert name (IpPool.new cidr) }

/-- The part of `attach_pod` that takes an address: from the subnet's pool if one is named, else
from the global pool. -/
def takeIp (subnet : Option String) : Except Error (Ipv4Addr × NetMux) :=
  match subnet with
  | some subnetName =>
    match nm.allocateSubnetIp subnetName with
    | some r => .ok r
    | none => .error ["No IPs available in subnet '" ++ subnetName ++ "'"]
  | none =>
    match nm.allocateIp with
    | some r => .ok r
    | none => .error ["No IPs available in pod CIDR"]

/-- The part of `attach_pod` after an address was taken. A failure to bring the link up or to add
the route rolls the attachment back (`rollback_veth`), which gives the address back; a failure to
create the pair returns at once. A failure to assign the gateway address is only logged. -/
def finishAttach (ip : Ipv4Addr) (veth : VethOutcome) (order : List String) :
    Except Error (Ipv4Addr × Nat × Nat) × NetMux :=
  match veth with
  | .createFails => (.error ["create_pod_veth", "create_veth_pair"], nm)
  | .linkUpFails _ _ => (.error ["bring_up_veth", "set_link_up"], nm.releaseIp ip order)
  | .routeFails _ _ => (.error ["add_pod_host_route", "add_pod_route"], nm.releaseIp ip order)
  | .attached hostIdx peerIdx => (.ok (ip, hostIdx, peerIdx), nm)

/-- Attach a pod: take an address, create the veth pair, bring it up and route the address to it. -/
def attachPod (subnet : Option String) (veth : VethOutcome) (order : List String) :
    Except Error (Ipv4Addr × Nat × Nat) × NetMux :=
  match nm.takeIp subnet with
  | .error e => (.error e, nm)
  | .ok (ip, nm) => nm.finishAttach ip veth order

/-- Detach a pod: remove its route and its veth pair, whose failures are only logged, and give its
address back. -/
def detachPod (podIp : Ipv4Addr) (order : List String) : NetMux :=
  nm.releaseIp podIp order

end NetMux

end Z8s.Netmux
