import Z8s.Compute.Frame
import Z8s.Rust.Json
import Z8s.Transition.Drive

/-!
# Scaling a deployment

Model of `patch_deployment_scale` (`src/api/handlers/deployment.rs`), and of a pass that runs to its end
with every start succeeding. What is left to the environment is then the order in which the store
lists the pods and the names of the new pods.
-/

namespace Z8s.Compute

open Rust Z8s.Types Transition

structure ApiError where
  status : Nat
  message : String
  deriving DecidableEq, Repr

def ApiError.notFound (message : String) : ApiError := { status := 404, message }

structure Scale where
  name : String
  inNamespace : String
  uid : String
  specReplicas : I32
  statusReplicas : I32
  selector : Option String
  deriving DecidableEq, Repr

/-- The value of `replicas` in the body: that of `spec`, or else that of the body itself. -/
def bodyReplicas (body : Json) (read : Json → Option Int) : Option Int :=
  (((body.get "spec").bind (·.get "replicas")).bind read).or ((body.get "replicas").bind read)

def scaledReplicas (body : Json) (deploy : Deployment) : I32 :=
  asI32 ((bodyReplicas body Json.asI64).getD
    ((deploy.spec.bind DeploymentSpec.replicas).elim 1 Subtype.val))

def findDeployment (store : ResourceStore) (inNamespace name : String) : Option Deployment :=
  (store.getByKind "Deployment").findSome? fun t =>
    match t.resource with
    | .deployment d =>
      if t.resource.name == name && t.resource.namespaceOf == inNamespace then some d else none
    | _ => none

def setReplicas (deploy : Deployment) (replicas : I32) : Deployment :=
  { deploy with spec := deploy.spec.map ({ · with replicas := some replicas }) }

def patchDeploymentScale (store : ResourceStore) (inNamespace name : String) (body : Json) :
    Except ApiError Scale × ResourceStore :=
  match findDeployment store inNamespace name with
  | none => (.error (.notFound ("deployment \"" ++ name ++ "\" not found")), store)
  | some deploy =>
    let replicas := scaledReplicas body deploy
    (.ok {
      name
      inNamespace
      uid := "Deployment/" ++ inNamespace ++ "/" ++ name
      specReplicas := replicas
      statusReplicas := replicas
      selector := (deploy.spec.bind fun s => s.selector.matchLabels).map fun l =>
        ",".intercalate (l.iter.map fun e => e.1 ++ "=" ++ e.2) },
      if deploy.spec.isSome then store.apply (.deployment (setReplicas deploy replicas)) else store)

/-! ### A pass from its beginning to its end -/

/-- What the environment answers to a pass: in which order the store lists what it holds, and which
UUIDs are generated. -/
structure PassEnv where
  order : Nat → List ResourceTracker → List ResourceTracker
  perm : ∀ k l, (order k l).Perm l
  uuids : Nat → UuidGroup

def PassEnv.next (env : PassEnv) (k : Nat) (s : ResourceStore × Pass) : Option PassEvent :=
  match s.2.phase with
  | .entered => some (.list (env.order k (s.1.getByKind "Pod")))
  | .creating _ created => some (.create (env.uuids created.length))
  | .starting _ _ _ => some (.started (.ok ()))
  | .removing _ _ => some (.find (env.order k (s.1.getByKind "Pod")))
  | .stopping _ _ _ => some .stopped
  | .deleting _ _ _ => some .delete
  | .done _ => none

/-- A pass over `deploy` comes to its end with the store `store'`. -/
def PassEnds (env : PassEnv) (deploy : Deployment) (store store' : ResourceStore) : Prop :=
  ∃ t, Ends passStep env.next 0 (store, Pass.enter deploy) (store', t)

/-- The names that are generated for the missing pods are new. -/
def FreshNames (deploy : Deployment) (store : ResourceStore) (uuids : Nat → UuidGroup) : Prop :=
  ∀ i < replicaCount deploy - podCount deploy store,
    store.get (newPodUid deploy (uuids i)) = none ∧ ∀ j < i, uuids j ≠ uuids i

instance (deploy : Deployment) (store : ResourceStore) (uuids : Nat → UuidGroup) :
    Decidable (FreshNames deploy store uuids) :=
  inferInstanceAs (Decidable (∀ i < _, _ = none ∧ ∀ j < i, _ ≠ _))

/-- A pass ends with exactly `n` selected pods (none for a negative `n`), and a second pass changes
nothing. -/
def Converges (env : PassEnv) (store : ResourceStore) (deploy : Deployment) (n : Int) : Prop :=
  ∃ store', PassEnds env deploy store store' ∧ (podCount deploy store' : Int) = max n 0 ∧
    ∀ env', PassEnds env' deploy store' store'

/-- No pod of another namespace has the name of a selected pod. -/
def NoForeignName (deploy : Deployment) (store : ResourceStore) : Prop :=
  ∀ t ∈ store.getAll, selects deploy t.resource = true →
    ∀ t' ∈ store.getByKind "Pod", t'.resource.name = t.resource.name →
      t'.resource.namespaceOf = passNamespace deploy

/-- The casts to `i32` and `usize` keep `n`, or make 0 of a negative one. What is no `i64` is not
read, and kept only if the number in its place is the same. -/
def SurvivesCasts (body : Json) (deploy : Deployment) (n : Int) : Prop :=
  if -2 ^ 63 ≤ n ∧ n < 2 ^ 63 then (0 ≤ n ∧ n < 2 ^ 31) ∨ (n < 0 ∧ 2 ^ 32 ∣ n)
  else (asUsize (scaledReplicas body deploy).val : Int) = max n 0

/-- The deployment and the store for which a request for `n` replicas is kept: `n` survives the casts,
and no name leads a pass that removes pods to another namespace. A deployment without a spec
keeps the pods it has. -/
def KeepsScale (body : Json) (deploy : Deployment) (store : ResourceStore) (n : Int) : Prop :=
  if deploy.spec.isSome then
    SurvivesCasts body deploy n ∧ (max n 0 < podCount deploy store → NoForeignName deploy store)
  else (podCount deploy store : Int) = max n 0

end Z8s.Compute
