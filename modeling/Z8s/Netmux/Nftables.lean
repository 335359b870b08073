import Z8s.Netmux.NetMux
import Z8s.Nftables.Ruleset
import Z8s.Rust.Fmt

/-!
# The nftables engine

Model of `NftEngine` (`src/netmux/nftables.rs`) together with the kernel's ruleset, which only the
engine changes. What becomes of the batches of a call is an argument. The two lists of tracked jumps
are those of the source.
-/

namespace Z8s.Netmux

open Rust Nftables

abbrev U16 := BitVec 16

inductive IpNetwork
  | v4 (ip : Ipv4Addr) (prefixLen : Nat)
  | v6 (ip : BitVec 128) (prefixLen : Nat)
  deriving DecidableEq, Repr

def IpNetwork.parseV4 (s : String) : Except Error IpNetwork :=
  match Ipv4Cidr.parse s with
  | some cidr => .ok (.v4 cidr.network cidr.prefixLen)
  | none => .error ["invalid address: " ++ s]

/-- Whether an IPv4 address has the first bits of the network. -/
def IpNetwork.contains (addr : Ipv4Addr) : IpNetwork → Bool
  | v4 ip prefixLen => addr >>> (32 - prefixLen) == ip >>> (32 - prefixLen)
  | v6 _ _ => false

/-- The expressions of a rule that look at the packet. -/
inductive Match
  | nfProto (family : Nat)
  | daddr (ip : Ipv4Addr)
  | tcpDport (port : U16)
  | snetwork (net : IpNetwork)
  | dnetwork (net : IpNetwork)
  | established
  /-- The source address is in a named set. -/
  | lookup (set : String)
  deriving DecidableEq, Repr

inductive ChainType
  | filter
  | nat
  deriving DecidableEq, Repr

inductive HookClass
  | preRouting
  | input
  | forward
  | out
  | postRouting
  deriving DecidableEq, Repr

/-- How a base chain is registered; its policy is `Accept` everywhere. -/
structure Hook where
  type : ChainType
  hook : HookClass
  priority : Int
  deriving DecidableEq, Repr

def natTable : String := "z8s_nat"

def filterTable : String := "z8s_filter"

def hookPrioNat : Int := -100

def hookPrioFilter : Int := 0

def chainName (ip : Ipv4Addr) (port : U16) : String :=
  "svc-" ++ hexPadded 8 ip.toNat ++ "-" ++ hexPadded 4 port.toNat

def nodeportChainName (nodePort : U16) : String := "np-" ++ hexPadded 4 nodePort.toNat

structure NftEngine where
  ruleset : Ruleset Hook Match
  jumpTrack : List (Ipv4Addr × U16)
  nodeportJumpTrack : List U16

abbrev NftScript := Script Error Hook Match

def codeName (c : Nat) : String :=
  match c with
  | 1 => "EPERM"
  | 2 => "ENOENT"
  | 3 => "ESRCH"
  | 4 => "EINTR"
  | 5 => "EIO"
  | 6 => "ENXIO"
  | 11 => "EAGAIN"
  | 12 => "ENOMEM"
  | 13 => "EACCES"
  | 16 => "EBUSY"
  | 17 => "EEXIST"
  | 22 => "EINVAL"
  | 25 => "ENOTTY"
  | 26 => "ETXTBSY"
  | 95 => "EOPNOTSUPP"
  | 105 => "ENOBUFS"
  | 114 => "EALREADY"
  | _ => "UNKNOWN"

/-- What `send` returns for an error: three error numbers of the kernel count as success. -/
def sendResult : SendError → Except Error Unit
  | .netlink error =>
    let code := error.natAbs
    if code = 2 ∨ code = 16 ∨ code = 17 then .ok ()
    else .error ["nftables error " ++ toString code ++ " (" ++ codeName code ++ ")"]
  | .query text => .error [text]
  | .join text => .error ["spawn_blocking", text]

/-- The remaining batches of a call after its first `n` ones. -/
def later (n : Nat) (out : Nat → Outcome) : Nat → Outcome := fun i => out (i + n)

namespace NftEngine

def new : NftEngine where
  ruleset := ∅
  jumpTrack := []
  nodeportJumpTrack := []

def run (e : NftEngine) (out : Nat → Outcome) (script : NftScript) : NftEngine × Except Error Unit :=
  let r := Script.run sendResult e.ruleset out script
  ({ e with ruleset := r.1 }, r.2)

/-! ### Init -/

def initTables : NftScript :=
  [natTable, filterTable].flatMap fun t => [.ok [.delTable t], .ok [.addTable t]]

def initChains : NftScript :=
  [.ok [.addChain natTable "prerouting" (some ⟨.nat, .preRouting, hookPrioNat⟩),
      .addChain natTable "postrouting" (some ⟨.nat, .postRouting, hookPrioNat⟩),
      .addChain natTable "output" (some ⟨.nat, .out, hookPrioNat⟩)],
    .ok [.addChain filterTable "forward" (some ⟨.filter, .forward, hookPrioFilter⟩),
      .addChain filterTable "input" (some ⟨.filter, .input, hookPrioFilter⟩),
      .addChain filterTable "output" (some ⟨.filter, .out, hookPrioFilter⟩),
      .addRule filterTable "forward" { conditions := [.established], verdict := .accept }],
    .ok [.addChain filterTable "nsg-rules" none,
      .addRule filterTable "forward" { verdict := .jump "nsg-rules" }]]

def init (e : NftEngine) (out : Nat → Outcome) : NftEngine × Except Error Unit :=
  andThen (e.run out initTables) fun e =>
    run { e with jumpTrack := [], nodeportJumpTrack := [] } (later initTables.length out) initChains

/-! ### DNAT -/

def dnatRule (conditions : List Match) (backend : Ipv4Addr × U16) : Rule Match where
  conditions := .nfProto 2 :: conditions
  verdict := .dnat backend.1 backend.2

def updateDnatChain (svc : String) (backends : List (Ipv4Addr × U16)) (conditions : List Match) :
    NftScript :=
  .ok [.addChain natTable svc none] ::
    appendScript natTable svc (backends.map fun b => .ok (dnatRule conditions b))

def addJumpRules (svc : String) (hooks : List String) : NftScript :=
  hooks.map fun h => .ok [.addRule natTable h { verdict := .jump svc }]

/-- The chains from which packets jump to the chains of the services. -/
def jumpHooks : List String := ["prerouting", "output"]

def addDnat (e : NftEngine) (clusterIp : Ipv4Addr) (port : U16) (backends : List (Ipv4Addr × U16))
    (out : Nat → Outcome) : NftEngine × Except Error Unit :=
  let svc := chainName clusterIp port
  let script := updateDnatChain svc backends [.daddr clusterIp, .tcpDport port]
  andThen (e.run out script) fun e =>
    if e.jumpTrack.any fun (ip, p) => ip == clusterIp && p == port then (e, .ok ())
    else run { e with jumpTrack := e.jumpTrack ++ [(clusterIp, port)] } (later script.length out)
      (addJumpRules svc jumpHooks)

def removeDnat (e : NftEngine) (clusterIp : Ipv4Addr) (port : U16) (out : Nat → Outcome) :
    NftEngine × Except Error Unit :=
  andThen (e.run out [.ok [.delChain natTable (chainName clusterIp port)]]) fun e =>
    ({ e with jumpTrack := e.jumpTrack.filter fun (ip, p) => ip != clusterIp || p != port }, .ok ())

def addNodeportDnat (e : NftEngine) (nodePort : U16) (backends : List (Ipv4Addr × U16))
    (out : Nat → Outcome) : NftEngine × Except Error Unit :=
  if backends.isEmpty then (e, .ok ())
  else
    let svc := nodeportChainName nodePort
    let script := updateDnatChain svc backends [.tcpDport nodePort]
    andThen (e.run out script) fun e =>
      if e.nodeportJumpTrack.contains nodePort then (e, .ok ())
      else run { e with nodeportJumpTrack := e.nodeportJumpTrack ++ [nodePort] }
        (later script.length out) (addJumpRules svc jumpHooks)

def removeNodeportDnat (e : NftEngine) (nodePort : U16) (out : Nat → Outcome) :
    NftEngine × Except Error Unit :=
  andThen (e.run out [.ok [.delChain natTable (nodeportChainName nodePort)]]) fun e =>
    ({ e with nodeportJumpTrack := e.nodeportJumpTrack.filter (· != nodePort) }, .ok ())

/-! ### Rules of the network security groups -/

section

-- The parser of CIDR texts is one of a library.
variable (parse : String → Except Error IpNetwork)

/-- The rule of `add_forward_allow` and of `add_forward_deny`. -/
def forwardRule (verdict : Verdict) (srcCidr dstCidr : String) : Except Error (Rule Match) := do
  let src ← parse srcCidr
  let dst ← parse dstCidr
  return { conditions := [.snetwork src, .dnetwork dst], verdict }

def addForwardAllow (srcCidr dstCidr : String) : Except Error (Rule Match) :=
  forwardRule parse .accept srcCidr dstCidr

def addForwardDeny (srcCidr dstCidr : String) : Except Error (Rule Match) :=
  forwardRule parse .drop srcCidr dstCidr

def addForwardAllowSetSrc (setName dstCidr : String) : Except Error (Rule Match) := do
  let dst ← parse dstCidr
  return { conditions := [.lookup setName, .dnetwork dst], verdict := .accept }

/-- The rule of `add_snat`, which goes to the chain `postrouting`. -/
def addSnat (vnetCidr : String) : Except Error (Rule Match) := do
  let cidr ← parse vnetCidr
  return { conditions := [.snetwork cidr], verdict := .masquerade }

end

def resetNsgRules : NftScript :=
  [.ok [.delChain filterTable "nsg-rules"], .ok [.addChain filterTable "nsg-rules" none]]

end NftEngine

end Z8s.Netmux
