import Z8s.Netmux.NpController

/-!
# Network policies

How the components for policies and for pods drive the controller
(`src/components/network/networkpolicy.rs`, `src/components/compute/pod.rs`): each of their calls makes a
controller of its own. What the calls have said about policies and pods is kept beside the state of the
kernel, to say what the sets should hold.
-/

namespace Z8s.Network

open Rust Collections Z8s.Types Netmux Nftables
open Netmux.NetworkPolicyController

structure PolicyState where
  kernel : NftState
  /-- The policies in their last version, under namespace and name. -/
  applied : HashMap (String × String) NetworkPolicy
  /-- The labels with which a pod was reported last, under its address, unless it was removed since. -/
  reported : HashMap Ipv4Addr Labels

def PolicyState.new (e : NftEngine) : PolicyState where
  kernel := { engine := e, sets := ∅ }
  applied := ∅
  reported := ∅

inductive PolicyEvent
  /-- `on_apply` of the policies. -/
  | applyPolicy (np : NetworkPolicy) (out : Nat → Outcome)
  /-- `reconcile` of a pod, with the answers of `is_ready` and of `pod_ip`. -/
  | reconcilePod (tracker : ResourceTracker) (ready : Bool) (podIp : Option Ipv4Addr)
      (out : String → Outcome)
  /-- `on_delete` of a pod, with the answer of `pod_ip`. -/
  | deletePod (resource : AnyResource) (podIp : Option Ipv4Addr) (out : String → Outcome)

/-- The arguments of `update_pod` when a pod is reconciled, if it is called. -/
def podReport (tracker : ResourceTracker) (ready : Bool) (podIp : Option Ipv4Addr) :
    Option (Ipv4Addr × Labels) :=
  if tracker.state = .running ∧ ready = true then
    match tracker.resource with
    | .pod pod => podIp.map fun ip => (ip, pod.metadata.labels.getD ∅)
    | _ => none
  else none

/-- The argument of `remove_pod` when a resource is deleted, if it is called. -/
def podRemoval (resource : AnyResource) (podIp : Option Ipv4Addr) : Option Ipv4Addr :=
  if resource.isPod then podIp else none

namespace PolicyState

def update (s : PolicyState) (ip : Ipv4Addr) (labels : Labels) (out : String → Outcome) : PolicyState :=
  { s with
    kernel := (NetworkPolicyController.new.updatePod s.kernel ip labels out).2
    reported := s.reported.insert ip labels }

def remove (s : PolicyState) (ip : Ipv4Addr) (out : String → Outcome) : PolicyState :=
  { s with
    kernel := (NetworkPolicyController.new.removePod s.kernel ip out).2
    reported := s.reported.remove ip }

def step (parse : String → Except Error IpNetwork) (s : PolicyState) : PolicyEvent → Option PolicyState
  | .applyPolicy np out => some { s with
      kernel := (NetworkPolicyController.new.applyNetworkPolicy parse s.kernel np out).1.2
      applied := s.applied.insert (policyNamespace np, policyName np) np }
  | .reconcilePod tracker ready podIp out =>
    match podReport tracker ready podIp with
    | some (ip, labels) => some (s.update ip labels out)
    | none => some s
  | .deletePod resource podIp out =>
    match podRemoval resource podIp with
    | some ip => some (s.remove ip out)
    | none => some s

end PolicyState

/-! ### What the sets should hold -/

/-- The pod selectors of a policy, each with the set of its peer. -/
def podSelectors (np : NetworkPolicy) : List (String × LabelSelector) :=
  (peers np).filterMap fun p => p.1.podSelector.map fun ps => (setName np p.2, ps)

/-- The set of every peer with a pod selector holds exactly the addresses of the reported pods that the
selector matches. -/
def SetsHoldSelected (s : PolicyState) : Prop :=
  ∀ key, ∀ np ∈ s.applied.get key, ∀ sel ∈ podSelectors np, ∀ ip,
    ip ∈ s.kernel.elements sel.1 ↔ ∃ labels ∈ s.reported.get ip, labelsMatchSelector labels sel.2 = true

/-- No selector of an applied policy matches the labels. -/
def Unselected (s : PolicyState) (labels : Labels) : Prop :=
  ∀ np ∈ s.applied.values, ∀ sel ∈ podSelectors np, labelsMatchSelector labels sel.2 = false

/-- The selectors of a policy that is applied match no reported pod, and no selector matches a pod that
is reported. -/
def SelectsNone (s : PolicyState) : PolicyEvent → Prop
  | .applyPolicy np _ => ∀ sel ∈ podSelectors np, ∀ labels ∈ s.reported.values,
      labelsMatchSelector labels sel.2 = false
  | .reconcilePod tracker ready podIp _ =>
    ∀ report ∈ podReport tracker ready podIp, Unselected s report.2
  | .deletePod _ _ _ => True

/-! ### Address blocks -/

def ipBlocks (np : NetworkPolicy) : List IpBlock := (peers np).filterMap fun p => p.1.ipBlock

section Blocks

variable (parse : String → Except Error IpNetwork)

/-- The policy selects by address blocks only, and the parser accepts all their CIDRs. -/
structure OfBlocks (np : NetworkPolicy) : Prop where
  only : ∀ p ∈ peers np, p.1.podSelector = none ∧ p.1.namespaceSelector = none
  valid : ∀ b ∈ ipBlocks np, ∀ cidr ∈ b.cidr :: b.except.getD [], (parse cidr).isOk = true

def blockCovers (addr : Ipv4Addr) (b : IpBlock) : Bool := NsgRule.inCidr parse addr b.cidr

def blockExcepts (addr : Ipv4Addr) (b : IpBlock) : Bool :=
  (b.except.getD []).any (NsgRule.inCidr parse addr)

/-- The address lies in the CIDR of the block and in none of its exceptions. -/
def blockAdmits (addr : Ipv4Addr) (b : IpBlock) : Bool := blockCovers parse addr b && !blockExcepts parse addr b

/-- Of the policy on an engine after its init, the chain accepts a packet exactly if some block admits its
source. -/
def HonoursBlocks (e : NftEngine) (np : NetworkPolicy) (p : Packet) : Prop :=
  (NetworkPolicyController.new.applyNetworkPolicy parse
      { engine := initialised e, sets := ∅ } np fun _ => .answered).1.2.engine.nsgVerdict p =
    some .accept ↔ ∃ b ∈ ipBlocks np, blockAdmits parse p.src b = true

/-- The first block that lists the address, in its CIDR or as an exception, has it in its CIDR exactly if some
block admits it. -/
def FirstBlockDecides (np : NetworkPolicy) (addr : Ipv4Addr) : Prop :=
  ∀ b ∈ (ipBlocks np).find? (fun b => blockCovers parse addr b || blockExcepts parse addr b),
    (blockCovers parse addr b = true ↔ ∃ b ∈ ipBlocks np, blockAdmits parse addr b = true)
  deriving Decidable

end Blocks

end Z8s.Network
