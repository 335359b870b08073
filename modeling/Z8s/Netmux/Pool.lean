import Z8s.Collections.BTree
import Z8s.Collections.Windows
import Z8s.Rust.Str

/-!
# The IP pool allocator

Model of `src/netmux/pool.rs`: CIDR blocks and the pool of free addresses behind `allocate`,
`allocate_subnet` and `release`.

Arithmetic is that of the release profile, in which `u32` additions wrap and the amount of a shift
is reduced modulo 32; `!0u32 << (32 - prefix)` and `1u32 << bits` are therefore what they would be
for a shift by zero when `prefix` is 0. (A build with overflow checks panics there instead.)
-/

namespace Z8s.Netmux

open Rust Collections

structure Ipv4Cidr where
  /-- The network address. -/
  network : Ipv4Addr
  /-- The prefix length, `prefix` in the source. -/
  prefixLen : Nat
  deriving DecidableEq, Repr

def netMask (prefixLen : Nat) : Ipv4Addr := BitVec.allOnes 32 <<< ((32 - prefixLen) % 32)

namespace Ipv4Cidr

/-- Parse `a.b.c.d/n`; the host bits of the address are cleared. -/
def parse (s : String) : Option Ipv4Cidr := do
  let (ipStr, prefixStr) ← splitOnce '/' s
  let prefixLen ← parseUnsigned 255 prefixStr
  if prefixLen > 32 then none
  let ip ← Ipv4Addr.parse ipStr
  some { network := ip &&& netMask prefixLen, prefixLen }

/-- Whether `ip` agrees with the network address in the bits of the mask. -/
def contains (cidr : Ipv4Cidr) (ip : Ipv4Addr) : Bool :=
  ip &&& netMask cidr.prefixLen == cidr.network &&& netMask cidr.prefixLen

/-- The addresses a new pool hands out: all of a /31 or /32, and otherwise all but the network
address, the first host and the broadcast address. -/
def usable (cidr : Ipv4Cidr) : Finset Ipv4Addr :=
  let total := 2 ^ ((32 - cidr.prefixLen) % 32)
  if cidr.prefixLen ≥ 31 then
    (Finset.Ico 0 total).image fun i => cidr.network + BitVec.ofNat 32 i
  else
    (Finset.Ico 2 (total - 1)).image fun i => cidr.network + BitVec.ofNat 32 i

end Ipv4Cidr

/-- A pool of addresses over a CIDR, with the set of its free addresses. -/
structure IpPool where
  cidr : Ipv4Cidr
  free : Finset Ipv4Addr
  deriving DecidableEq

namespace IpPool

def new (cidr : Ipv4Cidr) : IpPool := { cidr, free := cidr.usable }

def allocate (p : IpPool) : Option (Ipv4Addr × IpPool) :=
  (BTreeSet.popFirst p.free).map fun (ip, free) => (ip, { p with free })

/-- Take an address back. The pool does not check that it is one of its own. -/
def release (p : IpPool) (ip : Ipv4Addr) : IpPool := { p with free := insert ip p.free }

def countFree (p : IpPool) : Nat := p.free.card

def subnetSize (subnetPrefix : Nat) : Ipv4Addr := 1#32 <<< ((2 ^ 32 + 32 - subnetPrefix) % 32)

/-- The window starts at a multiple of the size and has no gap. -/
def isBlock (size : Ipv4Addr) (window : List Ipv4Addr) : Bool :=
  let start := window.headD 0
  (start &&& (size - 1)) == 0 && window.zipIdx.all fun (v, i) => v == start + BitVec.ofNat 32 i

def addressRange (start stop : Ipv4Addr) : List Ipv4Addr :=
  (List.range (stop.toNat - start.toNat)).map fun i => start + BitVec.ofNat 32 i

/-- Hand out the first aligned block of free addresses. -/
def allocateSubnet (p : IpPool) (subnetPrefix : Nat) : Option Ipv4Cidr × IpPool :=
  let size := subnetSize subnetPrefix
  let freeVec := BTreeSet.iter p.free
  if freeVec.length % 2 ^ 32 < size.toNat then (none, p)
  else match (windows size.toNat freeVec).find? (isBlock size) with
    | some window =>
      let start := window.headD 0
      (some { network := start, prefixLen := subnetPrefix },
        { p with free := (addressRange start (start + size)).foldl (fun free ip => free.erase ip) p.free })
    | none => (none, p)

end IpPool

end Z8s.Netmux
