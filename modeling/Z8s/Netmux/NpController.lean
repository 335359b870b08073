import Z8s.Netmux.Nsg
import Z8s.Types

/-!
# The controller of network policies

Model of `NetworkPolicyController` (`src/netmux/np_controller.rs`) and of the sets of the nftables engine
that it fills. Applying a policy is a list of calls, one after the other until the first error; what
becomes of the batch of a call is an argument. The loops over the tracked sets update every set for
itself, so what becomes of their batches is given for each name.
-/

namespace Z8s.Netmux

open Rust Collections Z8s.Types Nftables

variable (k : NftState) (np : NetworkPolicy)

abbrev Labels := BTreeMap String String

structure NftState where
  engine : NftEngine
  sets : HashMap String (List Ipv4Addr)

namespace NftState

/-- The elements of a set; one that does not exist has none. -/
def elements (name : String) : List Ipv4Addr := (k.sets.get name).getD []

/-- The elements are added to those that an existing set has. -/
def createSet (name : String) (initialIps : List Ipv4Addr) (o : Outcome) : NftState × Except Error Unit :=
  ({ k with sets := if o.executes then k.sets.insert name (k.elements name ∪ initialIps) else k.sets },
    o.result sendResult)

def replaceSet (name : String) (ips : List Ipv4Addr) (o : Outcome) : NftState × Except Error Unit :=
  k.createSet name ips o

/-- Append a rule to the chain for the security groups. -/
def addForwardRule (rule : Except Error (Rule Match)) (o : Outcome) : NftState × Except Error Unit :=
  let r := k.engine.run (fun _ => o) (appendScript filterTable "nsg-rules" [rule])
  ({ k with engine := r.1 }, r.2)

end NftState

/-- A batch that names an object which does not exist is refused. -/
def refusedUnless (found : Bool) : Outcome → Outcome
  | .answered => if found then .answered else .failed false (.netlink Errno.enoent.code)
  | .failed executed e => .failed (executed && found) e

/-! ### Selectors -/

def LabelSelectorRequirement.admits (podLabels : Labels) (expr : LabelSelectorRequirement) : Bool :=
  let podVal := podLabels.get expr.key
  match expr.operator with
  | "In" => (expr.values.map fun values => podVal.any values.contains).getD false
  | "NotIn" => (expr.values.map fun values => podVal.all fun v => !values.contains v).getD true
  | "Exists" => podVal.isSome
  | "DoesNotExist" => podVal.isNone
  | _ => false

def labelsMatchSelector (podLabels : Labels) (sel : LabelSelector) : Bool :=
  ((sel.matchLabels.map BTreeMap.iter).getD []).all (fun e => podLabels.get e.1 == some e.2) &&
    (sel.matchExpressions.getD []).all (LabelSelectorRequirement.admits podLabels)

/-! ### The controller -/

structure PolicySet where
  ipAddrs : List Ipv4Addr := []
  podSelector : Option LabelSelector := none
  namespaceSelector : Option LabelSelector := none
  deriving DecidableEq, Repr

structure NetworkPolicyController where
  sets : HashMap String PolicySet

namespace NetworkPolicyController

def new : NetworkPolicyController := ⟨∅⟩

/-- One call of `apply_network_policy`, or the entry of a set in the map of tracked sets. -/
inductive PolicyStep
  | createSet (name : String)
  | addForwardAllowSetSrc (name : String)
  | track (name : String) (set : PolicySet)
  | addForwardAllow (cidr : String)
  | addForwardDeny (cidr : String)
  deriving DecidableEq, Repr

def policyNamespace : String := np.metadata.inNamespace.getD "default"

def policyName : String := np.metadata.name.getD "unknown"

def setName (idx : Nat) : String :=
  "np:" ++ policyNamespace np ++ ":" ++ policyName np ++ ":" ++ toString idx

def nsSetName (idx : Nat) : String :=
  "np:ns:" ++ policyNamespace np ++ ":" ++ policyName np ++ ":" ++ toString idx

/-- Create a set without elements, let its elements in, and track it. -/
def setSteps (name : String) (set : PolicySet) : List PolicyStep :=
  [.createSet name, .addForwardAllowSetSrc name, .track name set]

def peerSteps (idx : Nat) (peer : NetworkPolicyPeer) : List PolicyStep :=
  ((peer.podSelector.map fun ps => setSteps (setName np idx) { podSelector := some ps }).getD []) ++
  ((peer.namespaceSelector.map fun nsSel =>
    setSteps (nsSetName np idx) { namespaceSelector := some nsSel }).getD []) ++
  ((peer.ipBlock.map fun ipBlock =>
    .addForwardAllow ipBlock.cidr :: (ipBlock.except.getD []).map .addForwardDeny).getD [])

/-- The peers of a policy, each with the number of its ingress rule. -/
def peers : List (NetworkPolicyPeer × Nat) :=
  (((np.spec.bind NetworkPolicySpec.ingress).getD []).zipIdx).flatMap fun rule =>
    (rule.1.getD []).map fun peer => (peer, rule.2)

def policySteps : List PolicyStep :=
  (peers np).flatMap fun p => peerSteps np p.2 p.1

section Apply

variable (parse : String → Except Error IpNetwork)

def PolicyStep.exec (s : NetworkPolicyController × NftState) (o : Outcome) :
    PolicyStep → (NetworkPolicyController × NftState) × Except Error Unit
  | createSet name =>
    let r := s.2.createSet name [] o
    ((s.1, r.1), r.2)
  | addForwardAllowSetSrc name =>
    let r := s.2.addForwardRule (NftEngine.addForwardAllowSetSrc parse name "0.0.0.0/0")
      (refusedUnless (s.2.sets.containsKey name) o)
    ((s.1, r.1), r.2)
  | track name set =>
    ((⟨if s.1.sets.containsKey name then s.1.sets else s.1.sets.insert name set⟩, s.2), .ok ())
  | addForwardAllow cidr =>
    let r := s.2.addForwardRule (NftEngine.addForwardAllow parse cidr "0.0.0.0/0") o
    ((s.1, r.1), r.2)
  | addForwardDeny cidr =>
    let r := s.2.addForwardRule (NftEngine.addForwardDeny parse cidr "0.0.0.0/0") o
    ((s.1, r.1), r.2)

def runSteps (s : NetworkPolicyController × NftState) (out : Nat → Outcome) :
    List PolicyStep → (NetworkPolicyController × NftState) × Except Error Unit
  | [] => (s, .ok ())
  | step :: rest =>
    andThen (step.exec parse s (out 0)) fun s => runSteps s (fun n => out (n + 1)) rest

def applyNetworkPolicy (c : NetworkPolicyController) (k : NftState) (np : NetworkPolicy)
    (out : Nat → Outcome) : (NetworkPolicyController × NftState) × Except Error Unit :=
  runSteps parse (c, k) out (policySteps np)

end Apply

/-- Change the addresses of some tracked sets and send them to the kernel; errors are only logged. -/
def updateSets (c : NetworkPolicyController) (k : NftState) (names : List String)
    (change : List Ipv4Addr → List Ipv4Addr) (out : String → Outcome) :
    NetworkPolicyController × NftState :=
  let sets := names.foldl
    (fun sets name => sets.update name fun ps => { ps with ipAddrs := change ps.ipAddrs }) c.sets
  let ips (name : String) := ((sets.get name).map PolicySet.ipAddrs).getD []
  (⟨sets⟩, names.foldl (fun k name => (k.replaceSet name (ips name) (out name)).1) k)

def updatePod (c : NetworkPolicyController) (k : NftState) (podIp : Ipv4Addr) (labels : Labels)
    (out : String → Outcome) : NetworkPolicyController × NftState :=
  let toUpdate := c.sets.iter.filter fun e =>
    ((e.2.podSelector.map (labelsMatchSelector labels)).getD true) && !e.2.ipAddrs.contains podIp
  c.updateSets k (toUpdate.map Prod.fst) (· ++ [podIp]) out

def removePod (c : NetworkPolicyController) (k : NftState) (podIp : Ipv4Addr) (out : String → Outcome) :
    NetworkPolicyController × NftState :=
  let toUpdate := c.sets.iter.filter fun e => e.2.ipAddrs.contains podIp
  c.updateSets k (toUpdate.map Prod.fst) (·.erase podIp) out

end NetworkPolicyController

end Z8s.Netmux
