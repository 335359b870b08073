import Z8s.Allocation.Conserved
import Z8s.Blocks.Aligned
import Z8s.Netmux.Pool
import Z8s.Transition.Run

/-!
# Blocks and single addresses from one pool

What `allocate_subnet` is for, and a pool together with the addresses that are out. The addresses of a CIDR are
those of one aligned block.
-/

namespace Z8s.Netmux

open Rust Blocks Allocation

def Ipv4Cidr.Holds (cidr : Ipv4Cidr) (ip : Ipv4Addr) : Prop :=
  SameBlock (32 - cidr.prefixLen) cidr.network ip
  deriving Decidable

def Ipv4Cidr.broadcast (cidr : Ipv4Cidr) : Ipv4Addr := last (32 - cidr.prefixLen) cidr.network

/-- The prefix lengths that a subnet may have. -/
abbrev SubnetPrefix := {n : Nat // 1 ≤ n ∧ n ≤ 32}

/-- An aligned block of `2 ^ bits` addresses starts at `start`, and all of them are free. -/
def FreeBlock (free : Finset Ipv4Addr) (bits : Nat) (start : Ipv4Addr) : Prop :=
  Aligned bits start ∧ ∀ ip, SameBlock bits start ip → ip ∈ free

/-- The allocation of a subnet finds the lowest free block if there is one, and takes exactly its addresses. -/
structure TakesLowest (p : IpPool) (subnetPrefix : SubnetPrefix) : Prop where
  found : (p.allocateSubnet subnetPrefix).1.isSome ↔ ∃ start, FreeBlock p.free (32 - subnetPrefix) start
  lowest : ∀ cidr ∈ (p.allocateSubnet subnetPrefix).1, cidr.prefixLen = subnetPrefix ∧
    FreeBlock p.free (32 - subnetPrefix) cidr.network ∧
      ∀ start, FreeBlock p.free (32 - subnetPrefix) start → cidr.network ≤ start
  removed : ∀ cidr ∈ (p.allocateSubnet subnetPrefix).1, ∀ ip,
    ip ∈ (p.allocateSubnet subnetPrefix).2.free ↔ ip ∈ p.free ∧ ¬ cidr.Holds ip
  kept : (p.allocateSubnet subnetPrefix).1 = none → (p.allocateSubnet subnetPrefix).2.free = p.free

/-- The start of the last block, which ends at 255.255.255.255. -/
def lastBlock (bits : Nat) : Ipv4Addr := first bits (BitVec.allOnes 32)

/-! ### Runs of a pool -/

/-- A pool and the addresses that are out. -/
structure PoolState where
  pool : IpPool
  outstanding : List Ipv4Addr

/-- The calls of a pool. Only addresses that are out are released. -/
inductive PoolCall
  | allocate
  | allocateSubnet (subnetPrefix : SubnetPrefix)
  | release (ip : Ipv4Addr)

namespace PoolState

def init (cidr : Ipv4Cidr) : PoolState := ⟨.new cidr, []⟩

def step (s : PoolState) : PoolCall → Option PoolState
  | .allocate =>
    match s.pool.allocate with
    | some (ip, pool) => some ⟨pool, ip :: s.outstanding⟩
    | none => some s
  | .allocateSubnet subnetPrefix =>
    match s.pool.allocateSubnet subnetPrefix with
    | (some cidr, pool) =>
      some ⟨pool, members (32 - cidr.prefixLen) cidr.network ++ s.outstanding⟩
    | (none, pool) => some ⟨pool, s.outstanding⟩
  | .release ip =>
    if ip ∈ s.outstanding then some ⟨s.pool.release ip, s.outstanding.erase ip⟩ else none

/-- No address is out twice, or free while it is out; and free or out are exactly the addresses of the CIDR
without the network address, the first host and the broadcast address. -/
def Conserves (cidr : Ipv4Cidr) (s : PoolState) : Prop :=
  Conserved (fun ip => cidr.Holds ip ∧ ip ≠ cidr.network ∧ ip ≠ cidr.network + 1 ∧ ip ≠ cidr.broadcast)
    s.pool.free s.outstanding

end PoolState

end Z8s.Netmux
