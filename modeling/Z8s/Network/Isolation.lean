import Z8s.Netmux.Dns
import Z8s.Network.Ingress
import Z8s.Proofs.TypesProofs

/-!
# Namespaces of Ingresses

Which Service a connection to the HTTP listener ends at (`handle_connection` of `src/netmux/ingress.rs`) after
any history of calls of `apply_ingress` and `remove_ingress`. The routes do not say which Ingress they come
from; the ghost `owners` does.
-/

namespace Z8s.Network

open Collections Z8s.Types Netmux

/-- The routes, with the Ingress that each table was made from. -/
structure OwnedRoutes where
  routes : IngressRoutes
  owners : HashMap String Ingress
  owned : ∀ key, routes.get key = (owners.get key).map routesByHost

namespace OwnedRoutes

def empty : OwnedRoutes := ⟨∅, ∅, fun _ => rfl⟩

def apply (r : OwnedRoutes) (ing : Ingress) : OwnedRoutes where
  routes := applyIngress r.routes ing
  owners := if ing.spec.isSome then r.owners.insert (ing.metadata.uid.getD "") ing else r.owners
  owned key := by
    unfold applyIngress
    split_ifs
    · rw [HashMap.get_insert, HashMap.get_insert, r.owned]
      split_ifs <;> rfl
    · exact r.owned key

def remove (r : OwnedRoutes) (ing : Ingress) : OwnedRoutes where
  routes := removeIngress r.routes ing
  owners := r.owners.remove (ing.metadata.uid.getD "")
  owned key := by
    unfold removeIngress
    rw [HashMap.get_remove, HashMap.get_remove, r.owned]
    split_ifs <;> rfl

end OwnedRoutes

inductive IngressOp
  | apply (ing : Ingress)
  | remove (ing : Ingress)

def OwnedRoutes.step (r : OwnedRoutes) : IngressOp → OwnedRoutes
  | .apply ing => r.apply ing
  | .remove ing => r.remove ing

def routesAfter (ops : List IngressOp) : OwnedRoutes := ops.foldl OwnedRoutes.step .empty

/-- Where a connection for a host is led to. The tables and the Services stand in the order in which they are
gone through. -/
def handleConnection (host : String) (tables : List (HashMap String (String × U16)))
    (trackers : List ResourceTracker) : Option (String × U16) :=
  (chosenBackend host tables).map fun backend => resolveEndpoint backend.1 backend.2 trackers

/-- The key of the table that leads a host to its backend, and the backend. -/
def routedBy (host : String) (entries : List (String × HashMap String (String × U16))) :
    Option (String × String × U16) :=
  entries.findSome? fun e => (backendFor host e.2).map (e.1, ·)

def ingressNamespace (ing : Ingress) : String := (AnyResource.ingress ing).namespaceOf

/-- The address is that of a stored Service of the namespace and the name. -/
def ServiceAddress (store : ResourceStore) (ns name ip : String) : Prop :=
  ∃ svc, store.Holds (.service svc) ∧ (AnyResource.service svc).namespaceOf = ns ∧
    svc.metadata.name = some name ∧ svc.spec.bind ServiceSpec.clusterIp = some ip

/-- A connection whose host is routed by an Ingress ends at a Service of its backend's name in its own
namespace, in whichever order the routes and the Services are gone through. -/
def StaysInNamespace (r : OwnedRoutes) (store : ResourceStore) : Prop :=
  ∀ host entries trackers, entries.Perm r.routes.iter → trackers.Perm (store.getByKind "Service") →
    ∀ key backend, routedBy host entries = some (key, backend) → ∀ ing ∈ r.owners.get key,
      ∃ ip, handleConnection host (entries.map Prod.snd) trackers = some (ip, backend.2) ∧
        ServiceAddress store (ingressNamespace ing) backend.1 ip

/-- Some Service has the name and an address, and every such address, in whichever namespace, is one of a
Service of that name in the namespace. -/
structure ResolvesWithin (store : ResourceStore) (ns name : String) : Prop where
  exists_address : ∃ r ip, store.Holds r ∧ endpointFor name r = some ip
  within : ∀ r ip, store.Holds r → endpointFor name r = some ip → ServiceAddress store ns name ip

/-- The backends of every routed Ingress resolve within its namespace. -/
def BackendsWithin (r : OwnedRoutes) (store : ResourceStore) : Prop :=
  ∀ key ing, r.owners.get key = some ing → ∀ host backend, (routesByHost ing).get host = some backend →
    ResolvesWithin store (ingressNamespace ing) backend.1

end Z8s.Network
