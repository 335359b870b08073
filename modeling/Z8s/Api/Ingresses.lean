import Z8s.Api.Services
import Z8s.Network.Ingress
import Z8s.Proofs.TypesProofs

/-!
# Creating, updating and deleting Ingresses

Model of `create_ingress`, `update_ingress` and `delete_ingress` (`src/api/handlers/ingress.rs`) with the
routes, under the uid of the metadata, and the DNS records, under the hosts. Requests come one after the other.
-/

namespace Z8s.Api

open Rust Collections Z8s.Types Network Netmux

variable (s : IngressState) (ing : Ingress)

structure IngressState where
  store : ResourceStore
  routes : IngressRoutes
  dnsRecords : DnsRecords

def IngressState.init : IngressState := ⟨.new, ∅, ∅⟩

inductive IngressRequest
  | create (ns uuid : String) (ing : Ingress)
  /-- The body, merged into the Ingress of the path, reads as `merged`. -/
  | update (ns name : String) (merged : Ingress)
  | delete (ns name : String)
  deriving DecidableEq

def IngressState.applied (gateway : Ipv4Addr) (s : IngressState) (ing : Ingress) : IngressState where
  store := s.store.apply (.ingress ing)
  routes := applyIngress s.routes ing
  dnsRecords := recordHosts s.dnsRecords gateway ing

/-- `on_delete` of the component runs, and the Ingress is taken out of the store. -/
def IngressState.deleted : IngressState where
  store := s.store.delete (.ingress ing)
  routes := removeIngress s.routes ing
  dnsRecords := forgetHosts s.dnsRecords ing

def IngressState.find (s : IngressState) (ns name : String) : Option Ingress :=
  ((s.store.getByKind "Ingress").find? fun t =>
      t.resource.namespaceOf == ns && t.resource.name == name).bind fun t =>
    match t.resource with
    | .ingress ing => some ing
    | _ => none

def IngressRequest.stored : IngressRequest → Option Ingress
  | .create ns uuid ing => some { ing with metadata := fillCreated ns uuid ing.metadata }
  | .update ns name merged => some { merged with metadata := fillPath ns name merged.metadata }
  | .delete _ _ => none

def IngressState.step (gateway : Ipv4Addr) (s : IngressState) (req : IngressRequest) :
    Option IngressState :=
  match req with
  | .delete ns name =>
    match s.find ns name with
    | some ing => some (s.deleted ing)
    | none => some s
  | req => req.stored.map (s.applied gateway)

/-! ### Routes and records that belong to the stored Ingresses -/

def routeKey : String := ing.metadata.uid.getD ""

def routeAt (routes : IngressRoutes) (key host : String) : Option (String × U16) :=
  (routes.get key).bind (HashMap.get · host)

def hostsOf : List String := (ingressRules ing).filterMap IngressRule.host

/-- The routes are those of the Ingresses of the store. -/
structure MirrorsRoutes (s : IngressState) : Prop where
  current : ∀ ing, s.store.Holds (.ingress ing) → ∀ host,
    routeAt s.routes (routeKey ing) host = (routesByHost ing).get host
  only : ∀ key host backend, routeAt s.routes key host = some backend →
    ∃ ing, s.store.Holds (.ingress ing) ∧ routeKey ing = key ∧ (routesByHost ing).get host = some backend

/-- There is a record for exactly the hosts of the Ingresses of the store. -/
def MirrorsHosts : Prop :=
  ∀ host, host ≠ "" → ((s.dnsRecords.get host).isSome ↔
    ∃ ing, s.store.Holds (.ingress ing) ∧ host ∈ hostsOf ing)

/-! ### Requests that keep them in step -/

def IngressState.removed : IngressRequest → Option Ingress
  | .delete ns name => s.find ns name
  | _ => none

def IngressState.Other (other : Ingress) : Prop :=
  s.store.Holds (.ingress other) ∧ (AnyResource.ingress other).uid ≠ (AnyResource.ingress ing).uid

def IngressState.Replaced (old : Ingress) : Prop :=
  s.store.Holds (.ingress old) ∧ (AnyResource.ingress old).uid = (AnyResource.ingress ing).uid

/-- Storing an Ingress under its uid takes away no route of another Ingress and leaves no route of the
version before. -/
structure StoresRoutes (s : IngressState) (new : Ingress) : Prop where
  others : ∀ other, s.Other new other → routeKey other = routeKey new →
    ∀ host, (routesByHost other).get host = (routesByHost new).get host
  replaced : ∀ old, s.Replaced new old → ∀ host, ((routesByHost old).get host).isSome →
    (routeKey old = routeKey new ∧ new.spec.isSome) ∨ ∃ other, s.Other new other ∧ routeKey other = routeKey old

def RemovesRoutes (old : Ingress) : Prop :=
  ∀ other, s.Other old other → routeKey other = routeKey old → ∀ host, (routesByHost other).get host = none

def KeepsRoutes (req : IngressRequest) : Prop :=
  (∀ new ∈ req.stored, StoresRoutes s new) ∧ ∀ old ∈ s.removed req, RemovesRoutes s old

/-- Every host of the version before is still one of the new version or of another Ingress. -/
def StoresHosts (new : Ingress) : Prop :=
  ∀ old, s.Replaced new old → ∀ host ∈ hostsOf old, host ≠ "" →
    host ∈ hostsOf new ∨ ∃ other, s.Other new other ∧ host ∈ hostsOf other

def RemovesHosts (old : Ingress) : Prop :=
  ∀ other, s.Other old other → ∀ host ∈ hostsOf other, host ≠ "" → host ∉ hostsOf old

def KeepsHosts (req : IngressRequest) : Prop :=
  (∀ new ∈ req.stored, StoresHosts s new) ∧ ∀ old ∈ s.removed req, RemovesHosts s old

end Z8s.Api
