import Z8s.Netmux.Dnat
import Mathlib.Data.List.MinMax
import Mathlib.Data.List.Sort

/-!
# Network security groups

Model of `NetMux::apply_nsg` (`src/netmux/mod.rs`) and of the groups it applies
(`src/netmux/crds.rs`), and what a group says about a packet. Applying a group goes over its rules
in the order of their priorities, with one rule of the kernel for each pair of a source and a
destination.
-/

namespace Z8s.Netmux

open Rust Nftables

structure NsgRule where
  name : String
  action : String
  srcCidrs : List String := []
  dstCidrs : List String := []
  ports : List String := []
  protocol : String := ""
  priority : Nat := 1000
  deriving DecidableEq, Repr

structure NsgSpec where
  targetVnets : List String := []
  rules : List NsgRule := []
  deriving DecidableEq, Repr

section Apply

variable (parse : String → Except Error IpNetwork)

/-- The rules of the kernel for one rule of the group; one with an unknown action has none. -/
def NsgRule.steps (r : NsgRule) : List (Except Error (Rule Match)) :=
  match r.action with
  | "deny" => r.srcCidrs.flatMap fun src => r.dstCidrs.map fun dst =>
      NftEngine.addForwardDeny parse src dst
  | "allow" => r.srcCidrs.flatMap fun src => r.dstCidrs.map fun dst =>
      NftEngine.addForwardAllow parse src dst
  | _ => []

/-- The rules sorted by priority, those of one priority as they are listed. -/
def NsgSpec.sorted (nsg : NsgSpec) : List NsgRule :=
  nsg.rules.insertionSort fun a b => a.priority ≤ b.priority

/-- Everything that is appended to the chain, the default deny last. -/
def NsgSpec.steps (nsg : NsgSpec) : List (Except Error (Rule Match)) :=
  nsg.sorted.flatMap (NsgRule.steps parse) ++ [NftEngine.addForwardDeny parse "0.0.0.0/0" "0.0.0.0/0"]

def applyNsg (e : NftEngine) (nsg : NsgSpec) (out : Nat → Outcome) : NftEngine × Except Error Unit :=
  andThen (e.run out NftEngine.resetNsgRules) fun e =>
    e.run (later NftEngine.resetNsgRules.length out)
      (appendScript filterTable "nsg-rules" (nsg.steps parse))

/-- The rules that a call appends to the chain until it ends. -/
def nsgAppended (nsg : NsgSpec) (out : Nat → Outcome) : List (Rule Match) :=
  if ((out 0).result sendResult).isOk && ((out 1).result sendResult).isOk then
    appended sendResult (later 2 out) (nsg.steps parse)
  else []

end Apply

def NftEngine.nsgRules (e : NftEngine) : Option (List (Rule Match)) :=
  e.ruleset.rules filterTable "nsg-rules"

/-! ### What a group says about a packet -/

/-- What a rule can see of an IPv4 packet; `protocol` is the name of its transport protocol, and
`srcSets` are the sets that its source address is in. -/
structure Packet where
  src : Ipv4Addr
  dst : Ipv4Addr
  protocol : String
  dport : U16
  established : Bool := false
  srcSets : List String := []
  deriving DecidableEq, Repr

def Match.holds (p : Packet) : Match → Bool
  | nfProto family => family == 2
  | daddr ip => p.dst == ip
  | tcpDport port => p.dport == port
  | snetwork net => net.contains p.src
  | dnetwork net => net.contains p.dst
  | established => p.established
  | lookup set => p.srcSets.contains set

def NftEngine.nsgVerdict (e : NftEngine) (p : Packet) : Option Verdict :=
  e.nsgRules.bind (firstMatch (Match.holds p))

namespace NsgRule

def verdict (r : NsgRule) : Option Verdict :=
  match r.action with
  | "deny" => some .drop
  | "allow" => some .accept
  | _ => none

/-- The protocol and the port of the packet are among those that the rule lists, when it lists any. -/
def listsService (p : Packet) (r : NsgRule) : Bool :=
  (r.protocol == "" || r.protocol == p.protocol) &&
    (r.ports.isEmpty || r.ports.any fun port => port == "*" || parseUnsigned 65535 port == some p.dport.toNat)

variable (parse : String → Except Error IpNetwork)

def inCidr (addr : Ipv4Addr) (cidr : String) : Bool :=
  match parse cidr with
  | .ok net => net.contains addr
  | .error _ => false

def listsAddresses (p : Packet) (r : NsgRule) : Bool :=
  r.srcCidrs.any (inCidr parse p.src) && r.dstCidrs.any (inCidr parse p.dst)

end NsgRule

namespace NsgSpec

variable (parse : String → Except Error IpNetwork)

/-- Of the rules that allow or deny and that satisfy `q`, the one with the lowest priority number; of
several ones the first. -/
def first (nsg : NsgSpec) (q : NsgRule → Bool) : Option NsgRule :=
  (nsg.rules.filter fun r => r.verdict.isSome && q r).argmin NsgRule.priority

def decision (nsg : NsgSpec) (p : Packet) : Verdict :=
  ((nsg.first fun r => r.listsAddresses parse p && r.listsService p).bind NsgRule.verdict).getD .drop

/-- The first rule that lists the addresses of the packet lists its protocol and port as well, or has
the verdict that the group asks for in any case. -/
def DecidedByAddresses (nsg : NsgSpec) (p : Packet) : Prop :=
  ∀ r ∈ nsg.first (·.listsAddresses parse p),
    r.listsService p = true ∨ r.verdict = some (nsg.decision parse p)
  deriving Decidable

/-- All CIDRs of the group are texts that the parser accepts. -/
def ValidCidrs (nsg : NsgSpec) : Prop :=
  ∀ r ∈ nsg.rules, ∀ cidr ∈ r.srcCidrs ++ r.dstCidrs, (parse cidr).isOk = true
  deriving Decidable

end NsgSpec

/-! ### What a failed call leaves -/

def anyNetwork : IpNetwork := .v4 0 0

def denyAll : Rule Match where
  conditions := [.snetwork anyNetwork, .dnetwork anyNetwork]
  verdict := .drop

/-- The chain is as before, or it still ends with the rule that drops everything. -/
def EndsClosed (prior : List (Rule Match)) (rules : Option (List (Rule Match))) : Prop :=
  rules = some prior ∨ rules.bind List.getLast? = some denyAll
  deriving Decidable

/-- The reset leaves the chain as it is: a rule jumps to it, or the deletion is not carried out. -/
def ResetKeeps (e : NftEngine) (out : Nat → Outcome) : Prop :=
  (out 0).executes = true → e.ruleset.Targeted filterTable "nsg-rules"

/-- Either nothing at all was done to the chain, or it exists after the reset and the last rule that was
appended drops everything. -/
def StopsClosed (parse : String → Except Error IpNetwork) (e : NftEngine) (nsg : NsgSpec)
    (out : Nat → Outcome) : Prop :=
  (ResetKeeps e out ∧ nsgAppended parse nsg out = []) ∨
    ((ResetKeeps e out ∨ (out 1).executes = true) ∧
      (nsgAppended parse nsg out).getLast? = some denyAll)

end Z8s.Netmux
