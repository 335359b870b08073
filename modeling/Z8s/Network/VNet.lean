import Z8s.Netmux.Nsg
import Z8s.Types

/-!
# Virtual networks

Model of `VNetResource` (`src/components/network/vnet.rs`), of `NetMux::apply_vnet`
(`src/netmux/mod.rs`) and of the requests that store and delete a VNet (`src/api/handlers/crd.rs`), and
which rules of the kernel should come from the VNets of the store.
-/

namespace Z8s.Network

open Z8s.Types Netmux Nftables

structure VNetState where
  store : ResourceStore
  nft : NftEngine

inductive VNetRequest
  /-- `generic_create`, with a fresh uuid and what becomes of the batches. -/
  | create (uuid : String) (vnet : VNet) (out : Nat → Outcome)
  /-- `generic_delete`, with the VNets in the order in which the store lists them. -/
  | delete (name : String) (listing : List ResourceTracker)

def createdVNet (uuid : String) (vnet : VNet) : VNet :=
  { vnet with metadata := { vnet.metadata with uid := vnet.metadata.uid.or (some uuid) } }

def VNet.cidr (vnet : VNet) : String := vnet.spec.cidr.getD "10.42.0.0/20"

section Requests

variable (parse : String → Except Error IpNetwork)

def applyVnet (e : NftEngine) (vnet : VNet) (cidr : String) (out : Nat → Outcome) :
    NftEngine × Except Error Unit :=
  if vnet.spec.internetAccess = false then
    e.run out (appendScript filterTable "nsg-rules" [NftEngine.addForwardDeny parse cidr "0.0.0.0/0"])
  else (e, .ok ())

/-- `on_apply` of the component. At most one of its two calls sends a batch. -/
def onApplyVNet (e : NftEngine) (vnet : VNet) (out : Nat → Outcome) : NftEngine × Except Error Unit :=
  andThen (applyVnet parse e vnet (VNet.cidr vnet) out) fun e =>
    if vnet.spec.internetAccess then
      e.run out (appendScript natTable "postrouting" [NftEngine.addSnat parse (VNet.cidr vnet)])
    else (e, .ok ())

/-- One request. The component does nothing when a VNet is deleted. -/
def VNetState.step (s : VNetState) : VNetRequest → Option VNetState
  | .create uuid vnet out =>
    let vnet := createdVNet uuid vnet
    some { store := s.store.apply (.vNet vnet), nft := (onApplyVNet parse s.nft vnet out).1 }
  | .delete name listing =>
    if listing.Perm (s.store.getByKind "VNet") then
      match listing.find? (·.resource.name == name) with
      | some t => some { s with store := s.store.delete t.resource }
      | none => some s
    else none

end Requests

/-! ### The rules that belong to the stored VNets -/

/-- The chains with rules of VNets. -/
inductive VNetChain
  | nsgRules
  | postrouting
  deriving DecidableEq, Repr

def VNetChain.rules (e : NftEngine) : VNetChain → Option (List (Rule Match))
  | nsgRules => e.nsgRules
  | postrouting => e.ruleset.rules natTable "postrouting"

def vnetAt (store : ResourceStore) (uid : String) : Option VNet :=
  match (store.get uid).map ResourceTracker.resource with
  | some (.vNet vnet) => some vnet
  | _ => none

def storedVNets (store : ResourceStore) : List VNet :=
  store.getAll.filterMap fun t => vnetAt store t.resource.uid

/-- The rules behind those that the chain has from the start. -/
def contributed (base : VNetChain → List (Rule Match)) (e : NftEngine) (c : VNetChain) :
    List (Rule Match) :=
  ((c.rules e).getD []).drop (base c).length

section Rules

variable (parse : String → Except Error IpNetwork)

/-- The rule that a VNet asks for: without internet access everything from it is dropped, with it the
source addresses are translated. -/
def VNet.rule (vnet : VNet) : VNetChain → Option (Rule Match)
  | .nsgRules =>
    if vnet.spec.internetAccess then none
    else (NftEngine.addForwardDeny parse (VNet.cidr vnet) "0.0.0.0/0").toOption
  | .postrouting =>
    if vnet.spec.internetAccess then (NftEngine.addSnat parse (VNet.cidr vnet)).toOption else none

def determined (store : ResourceStore) (c : VNetChain) : List (Rule Match) :=
  (storedVNets store).filterMap (VNet.rule parse · c)

/-- Both chains have got exactly the rules that the stored VNets ask for. -/
def MirrorsVNets (base : VNetChain → List (Rule Match)) (s : VNetState) : Prop :=
  ∀ c r, r ∈ contributed base s.nft c ↔ r ∈ determined parse s.store c

def VNetState.lost (s : VNetState) : VNetRequest → Option VNet
  | .create _ vnet _ => vnetAt s.store (AnyResource.vNet vnet).uid
  | .delete name listing =>
    (listing.find? (·.resource.name == name)).bind fun t => vnetAt s.store t.resource.uid

/-- The rule of a VNet that is applied reaches the kernel or is there already. -/
def AddsVNetRule (s : VNetState) : VNetRequest → Prop
  | .create _ vnet out => ∀ c, ∀ r ∈ VNet.rule parse vnet c,
      (out 0).executes = true ∨ r ∈ determined parse s.store c
  | .delete _ _ => True

/-- Besides, the rule of a VNet that is replaced or deleted is one that the VNets stored afterwards ask
for as well. -/
def KeepsVNetRules (s : VNetState) (req : VNetRequest) : Prop :=
  AddsVNetRule parse s req ∧ ∀ s' ∈ s.step parse req, ∀ old ∈ s.lost req, ∀ c,
    ∀ r ∈ VNet.rule parse old c, r ∈ determined parse s'.store c

instance decidableForallVNetChain {p : VNetChain → Prop} [DecidablePred p] : Decidable (∀ c, p c) :=
  decidable_of_iff (p .nsgRules ∧ p .postrouting)
    ⟨fun h c => VNetChain.casesOn c h.1 h.2, fun h => ⟨h _, h _⟩⟩

instance (base : VNetChain → List (Rule Match)) (s : VNetState) : Decidable (MirrorsVNets parse base s) :=
  decidable_of_iff (∀ c, (∀ r ∈ contributed base s.nft c, r ∈ determined parse s.store c) ∧
      ∀ r ∈ determined parse s.store c, r ∈ contributed base s.nft c)
    ⟨fun h c r => ⟨(h c).1 r, (h c).2 r⟩, fun h c => ⟨fun r => (h c r).1, fun r => (h c r).2⟩⟩

instance (s : VNetState) : (req : VNetRequest) → Decidable (AddsVNetRule parse s req)
  | .create _ vnet _ => inferInstanceAs (Decidable (∀ c, ∀ r ∈ VNet.rule parse vnet c, _ ∨ _))
  | .delete _ _ => inferInstanceAs (Decidable True)

instance (s : VNetState) (req : VNetRequest) : Decidable (KeepsVNetRules parse s req) :=
  inferInstanceAs (Decidable (_ ∧ ∀ s' ∈ s.step parse req, ∀ old ∈ s.lost req, ∀ c,
    ∀ r ∈ VNet.rule parse old c, r ∈ determined parse s'.store c))

end Rules

end Z8s.Network
