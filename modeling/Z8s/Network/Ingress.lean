import Z8s.Network.Service

/-!
# Ingress routes

Model of `apply_ingress`, `remove_ingress` and the choice of a backend in `handle_connection`
(`src/netmux/ingress.rs`), and of `IngressResource::on_apply` and `on_delete`
(`src/components/network/ingress.rs`): the routes of the HTTP listener, and the DNS records of the hosts.
-/

namespace Z8s.Network

open Rust Collections Z8s.Types Netmux

/-- The service and the port of each host, under the uid of the Ingress. -/
abbrev IngressRoutes := HashMap String (HashMap String (String × U16))

abbrev DnsRecords := HashMap String Ipv4Addr

def ingressRules (ing : Ingress) : List IngressRule := (ing.spec.bind IngressSpec.rules).getD []

def pathTarget (service : Option IngressServiceBackend) : String × U16 :=
  ((service.map IngressServiceBackend.name).getD "",
    match service.bind IngressServiceBackend.portNumber with
    | some n => asU16 n
    | none => 80)

/-- Of several paths of one host the last one stays. -/
def routesByHost (ing : Ingress) : HashMap String (String × U16) :=
  .ofList ((ingressRules ing).flatMap fun rule =>
    (rule.http.getD []).map fun path => (rule.host.getD "*", pathTarget path))

def applyIngress (routes : IngressRoutes) (ing : Ingress) : IngressRoutes :=
  if ing.spec.isSome then routes.insert (ing.metadata.uid.getD "") (routesByHost ing) else routes

def recordHosts (records : DnsRecords) (gateway : Ipv4Addr) (ing : Ingress) : DnsRecords :=
  records.insertAll (((ingressRules ing).filterMap fun rule =>
    rule.host.filter (· != "")).map fun host => (host, gateway))

def removeIngress (routes : IngressRoutes) (ing : Ingress) : IngressRoutes :=
  routes.remove (ing.metadata.uid.getD "")

def forgetHosts (records : DnsRecords) (ing : Ingress) : DnsRecords :=
  records.removeAll ((ingressRules ing).filterMap IngressRule.host)

/-! ### The backend of a connection -/

def backendFor (host : String) (table : HashMap String (String × U16)) : Option (String × U16) :=
  (table.get host).or (table.get "*")

/-- The first backend, in the order in which the Ingresses are gone through. -/
def chosenBackend (host : String) (tables : List (HashMap String (String × U16))) :
    Option (String × U16) :=
  tables.findSome? (backendFor host)

/-- The Ingress that the chosen backend comes from. -/
def decidingTable (host : String) (tables : List (HashMap String (String × U16))) :
    Option (HashMap String (String × U16)) :=
  tables.find? fun table => (backendFor host table).isSome

/-- The chosen backend is that of the host `*`, for want of the host itself. -/
def UsesWildcard (host : String) (tables : List (HashMap String (String × U16))) : Prop :=
  ∃ table ∈ decidingTable host tables, table.get host = none

def HasHost (routes : IngressRoutes) (host : String) : Prop :=
  ∃ table ∈ routes.values, (table.get host).isSome

/-- Entries for the host itself come before those for `*`, in whichever order the Ingresses are gone
through. -/
structure ExactWins (routes : IngressRoutes) (host : String) : Prop where
  exact : HasHost routes host → ∀ tables : List _, tables.Perm routes.values →
    ∃ table ∈ routes.values, ∃ backend, table.get host = some backend ∧
      chosenBackend host tables = some backend
  wildcard : ∀ tables : List _, tables.Perm routes.values → UsesWildcard host tables →
    ¬ HasHost routes host
  orderFree : ∀ tables tables' : List _, tables.Perm routes.values → tables'.Perm routes.values →
    (UsesWildcard host tables ↔ UsesWildcard host tables')

end Z8s.Network
