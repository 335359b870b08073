import Z8s.Netmux.NetMux
import Z8s.Types

/-!
# Deployments

Model of `src/components/compute/deployment.rs`. One call of `reconcile_impl` is a `Pass`, which moves from
one call of the store to the next; between two moves other tasks may run. The order in which `get_by_kind`
lists the pods, the name of a new pod and the result of a start are part of the event.
-/

namespace Z8s.Compute

open Rust Collections Z8s.Types Netmux

/-! ### Pods of a deployment -/

def labelsMatch (selector labels : BTreeMap String String) : Bool :=
  selector.iter.all fun e => labels.get e.1 == some e.2

def podOwnedByDeployment (pod : Pod) (deployName : String) : Bool :=
  pod.metadata.ownerReferences.any (fun refs => refs.any fun r =>
      r.controller == some true && r.kind == "Deployment" && r.name == deployName) ||
    pod.metadata.name.any fun n => startsWith n (deployName ++ "-pod-")

def createPodFromTemplate (deploy : Deployment) (name : String) : Except Error Pod :=
  match deploy.spec with
  | none => .error ["Deployment has no spec"]
  | some spec =>
    let metadata := spec.template.metadata.getD {}
    .ok {
      metadata := { metadata with
        name := some name
        ownerReferences := some [{
          apiVersion := "apps/v1"
          kind := "Deployment"
          name := deploy.metadata.name.getD "deployment"
          controller := some true
          blockOwnerDeletion := some true
          uid := deploy.metadata.uid.getD "" }]
        labels := some ((metadata.labels.getD ∅).extend (spec.selector.matchLabels.getD ∅)) }
      spec := spec.template.spec }

/-- The first group of a random UUID: eight hexadecimal digits. -/
structure UuidGroup where
  digits : List Char
  length_eq : digits.length = 8
  hex : ∀ c ∈ digits, c ∈ "0123456789abcdef".toList
  deriving DecidableEq

def UuidGroup.toString (u : UuidGroup) : String := String.ofList u.digits

/-! ### What a pass reads of its deployment -/

section Reads

variable (deploy : Deployment)

def passName : String := deploy.metadata.name.getD "unknown"

def passNamespace : String := deploy.metadata.inNamespace.getD "default"

def replicaCount : Nat := asUsize ((deploy.spec.bind DeploymentSpec.replicas).elim 1 Subtype.val)

def passLabels : BTreeMap String String :=
  (deploy.spec.bind fun s => s.selector.matchLabels).getD ∅

def selects : AnyResource → Bool
  | .pod pod =>
    podOwnedByDeployment pod (passName deploy) &&
      labelsMatch (passLabels deploy) (pod.metadata.labels.getD ∅) &&
      pod.metadata.inNamespace == some (passNamespace deploy)
  | _ => false

def matchingPods (pods : List ResourceTracker) : List String :=
  (pods.filter fun t => selects deploy t.resource).map fun t => t.resource.name

def newPodName (uuid : UuidGroup) : String := passName deploy ++ "-pod-" ++ uuid.toString

def newPod (uuid : UuidGroup) : Except Error Pod :=
  (createPodFromTemplate deploy (newPodName deploy uuid)).map fun pod =>
    { pod with metadata := { pod.metadata with inNamespace := some (passNamespace deploy) } }

def newPodUid (uuid : UuidGroup) : String :=
  "Pod" ++ "/" ++ passNamespace deploy ++ "/" ++ newPodName deploy uuid

def podCount (store : ResourceStore) : Nat :=
  store.getAll.countP fun t => selects deploy t.resource

end Reads

/-! ### The pass -/

inductive PassPhase
  /-- List the pods. -/
  | entered
  /-- Create a pod. -/
  | creating (matching created : List String)
  /-- Wait for the start of the pod that was created. -/
  | starting (matching created : List String) (pod : Pod)
  /-- Look for the pod with the last of the names; `excess` rounds are left. -/
  | removing (excess : Nat) (matching : List String)
  /-- Wait for the stop of the pod that was found; `excess` rounds are left after it. -/
  | stopping (excess : Nat) (matching : List String) (remove : AnyResource)
  | deleting (excess : Nat) (matching : List String) (remove : AnyResource)
  | done (result : Except Error Unit)

structure Pass where
  deploy : Deployment
  phase : PassPhase

def Pass.isDone (t : Pass) : Bool :=
  match t.phase with
  | .done _ => true
  | _ => false

inductive PassEvent
  | list (pods : List ResourceTracker)
  | create (uuid : UuidGroup)
  | started (result : Except Error Unit)
  | find (pods : List ResourceTracker)
  | stopped
  | delete

/-- A call of `reconcile_impl`; a deployment without a spec is an error. -/
def Pass.enter (deploy : Deployment) : Pass where
  deploy := deploy
  phase := match deploy.spec with
    | none => .done (.error ["Deployment has no spec"])
    | some _ => .entered

def loopRemove : (excess : Nat) → (matching : List String) → PassPhase
  | 0, _ => .done (.ok ())
  | excess + 1, matching => .removing (excess + 1) matching

/-- The way from the loop that creates pods to the one that removes them. -/
def leaveCreate (deploy : Deployment) (matching created : List String) : PassPhase :=
  loopRemove ((matching ++ created).length - replicaCount deploy) (matching ++ created)

def loopCreate (deploy : Deployment) (matching created : List String) : PassPhase :=
  if matching.length + created.length < replicaCount deploy then .creating matching created
  else leaveCreate deploy matching created

def displayError (e : Error) : String := e.headD ""

def Pass.step (store : ResourceStore) (t : Pass) : PassEvent → Option (ResourceStore × Pass)
  | .list pods =>
    match t.phase with
    | .entered =>
      if pods.Perm (store.getByKind "Pod") then
        some (store, { t with phase := loopCreate t.deploy (matchingPods t.deploy pods) [] })
      else none
    | _ => none
  | .create uuid =>
    match t.phase with
    | .creating matching created =>
      match newPod t.deploy uuid with
      | .error e => some (store, { t with phase := .done (.error e) })
      | .ok pod => some (store.apply (.pod pod), { t with phase := .starting matching created pod })
    | _ => none
  | .started result =>
    match t.phase with
    | .starting matching created pod =>
      match result with
      | .ok _ => some (store.updateState (AnyResource.pod pod).uid .running,
          { t with phase := loopCreate t.deploy matching (created ++ [(AnyResource.pod pod).name]) })
      | .error e => some (store.updateState (AnyResource.pod pod).uid (.failed (displayError e)),
          { t with phase := leaveCreate t.deploy matching created })
    | _ => none
  | .find pods =>
    match t.phase with
    | .removing excess matching =>
      if pods.Perm (store.getByKind "Pod") then
        match matching.getLast? with
        | none => some (store, { t with phase := loopRemove (excess - 1) matching })
        | some excessName =>
          match pods.find? fun t => t.resource.name == excessName with
          | some remove => some (store,
              { t with phase := .stopping (excess - 1) matching.dropLast remove.resource })
          | none => some (store, { t with phase := loopRemove (excess - 1) matching.dropLast })
      else none
    | _ => none
  | .stopped =>
    match t.phase with
    | .stopping excess matching remove =>
      some (store.updateState remove.uid .terminated,
        { t with phase := .deleting excess matching remove })
    | _ => none
  | .delete =>
    match t.phase with
    | .deleting excess matching remove =>
      some (store.delete remove, { t with phase := loopRemove excess matching })
    | _ => none

end Z8s.Compute
