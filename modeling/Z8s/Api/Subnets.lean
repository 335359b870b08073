import Z8s.Api.ClusterIps
import Z8s.Netmux.Subnets

/-!
# Texts of CIDRs

Model of `ip_in_cidr` (`src/api/handlers/subnet.rs`), and what the three readers of CIDRs should agree on: the pools,
the counts of the subnets and the check of the command line. Arithmetic is that of the release profile, as for the
pools.
-/

namespace Z8s.Api

open Rust Blocks Netmux

/-- The mask of `ip_in_cidr`, which treats the length 0 apart. From a longer prefix than 32 bits the subtraction wraps. -/
def subnetMask (prefixLen : Nat) : Ipv4Addr :=
  if prefixLen = 0 then 0 else BitVec.allOnes 32 <<< ((2 ^ 32 + 32 - prefixLen) % 2 ^ 32 % 32)

/-- The parts between the dots that are octets; the other ones are left out. -/
def octets (s : String) : List Nat := (splitChar '.' s).filterMap (parseUnsigned 255)

def ipInCidr (ip cidr : String) : Bool :=
  match splitChar '/' cidr with
  | [base, prefixStr] =>
    match parseUnsigned (2 ^ 32 - 1) prefixStr with
    | none => false
    | some prefixLen =>
      match octets ip, octets base with
      | [a, b, c, d], [a', b', c', d'] =>
        Ipv4Addr.new a b c d &&& subnetMask prefixLen == Ipv4Addr.new a' b' c' d' &&& subnetMask prefixLen
      | _, _ => false
  | _ => false

/-- A text that `Ipv4Cidr::parse` accepts, with its value. -/
structure CidrText where
  text : String
  cidr : Ipv4Cidr
  parsed : Ipv4Cidr.parse text = some cidr

namespace CidrText

def address (c : CidrText) : Ipv4Addr :=
  ((splitOnce '/' c.text).bind fun (ipStr, _) => Ipv4Addr.parse ipStr).getD 0

/-- The address has the first bits of the one that is written. -/
def Covers (c : CidrText) (ip : Ipv4Addr) : Prop := SameBlock (32 - c.cidr.prefixLen) c.address ip
  deriving Decidable

/-- The tests say the same about an address, the network address is a member, and texts of one network have one
value. -/
structure Agrees (c c' : CidrText) (ip : Ipv4Addr) : Prop where
  contains_iff : c.cidr.contains ip = true ↔ c.Covers ip
  ipInCidr_iff : ipInCidr (dotted ip) c.text = true ↔ c.Covers ip
  network : c.cidr.contains c.cidr.network = true
  normalised : c.cidr.prefixLen = c'.cidr.prefixLen → c.Covers c'.address → c.cidr = c'.cidr

end CidrText

/-- The check of the command line accepts a text exactly when a network can be made with it. -/
structure ChecksPodCidr (podCidr : String) : Prop where
  same : (Config.parseCidr podCidr).isSome = (Ipv4Cidr.parse podCidr).isSome
  starts : (Config.parseCidr podCidr).isSome = true → (NetMux.new podCidr).isOk = true

/-- An octet without a sign and without a zero in front of it. -/
def PlainOctet (octet : String) : Prop :=
  octet.toList.head? ≠ some '+' ∧ (octet.toList.head? = some '0' → octet.toList.length = 1)
  deriving Decidable

def PlainAddress (cidr : String) : Prop :=
  ∀ parts ∈ splitOnce '/' cidr, ∀ octet ∈ splitChar '.' parts.1, PlainOctet octet

end Z8s.Api
