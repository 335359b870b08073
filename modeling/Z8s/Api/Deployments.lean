import Z8s.Control.Daemon
import Z8s.Proofs.TypesProofs

/-!
# The pods of a deployment

Model of `count_deployment_pods` and `delete_deployment` (`src/api/handlers/deployment.rs`). Which pods belong
to a deployment is decided three times: here, twice, and in `reconcile_impl`
(`src/components/compute/deployment.rs`). The order in which the store lists its resources is an argument;
what other tasks do while a deployment is deleted is the subject of `Z8s.Control`.
-/

namespace Z8s.Api

open Rust Collections Z8s.Types Cri Compute Control

section

variable (deploy : Deployment)

def matchLabels : Option (BTreeMap String String) := deploy.spec.bind fun s => s.selector.matchLabels

/-- The pods that `reconcile_impl` selects. Without a spec it is left with an error. -/
def reconcilesPod (r : AnyResource) : Bool := deploy.spec.isSome && selects deploy r

def podManagedByDeployment (pod : Pod) (deployName : String) : Bool :=
  pod.metadata.name.any fun n => startsWith n (deployName ++ "-pod-")

/-- The filter of `count_deployment_pods`. -/
def countsPod : AnyResource → Bool
  | .pod pod =>
    (matchLabels deploy).any fun labels =>
      pod.metadata.inNamespace == some (deploy.metadata.inNamespace.getD "default") &&
        podManagedByDeployment pod (deploy.metadata.name.getD "") &&
        pod.metadata.labels.any fun pl => labels.iter.all fun e => pl.get e.1 == some e.2
  | _ => false

def isContainerReady (running : HashMap String RunningContainer) (cid : String) : Bool :=
  (running.get cid).any RunningContainer.ready

def countDeploymentPods (running : HashMap String RunningContainer) (pods : List ResourceTracker) :
    Nat × Nat :=
  let matching := pods.filter fun t => countsPod deploy t.resource
  let ready (t : ResourceTracker) : Bool := (extractContainers t.resource).any fun c =>
    isContainerReady running (t.resource.name ++ "-" ++ c.name)
  (matching.countP ready, matching.length)

/-- The pods that `delete_deployment` deletes for the path of the deployment. -/
def removesPod (r : AnyResource) : Bool :=
  (matchLabels deploy).any fun labels =>
    deletesPod (AnyResource.deployment deploy).namespaceOf (AnyResource.deployment deploy).name labels r

end

def deletePod (store : ResourceStore) (r : AnyResource) : ResourceStore :=
  (store.updateState r.uid .terminated).delete r

/-- The store after `delete_deployment`, with the resources as they were listed. -/
def deleteDeployment (store : ResourceStore) (ns name : String)
    (deployments pods : List ResourceTracker) : ResourceStore :=
  match deployments.find? fun t => t.resource.name == name && t.resource.namespaceOf == ns with
  | none => store
  | some t =>
    match t.resource with
    | .deployment deploy =>
      let removed := (matchLabels deploy).elim [] fun labels =>
        (pods.map ResourceTracker.resource).filter (deletesPod ns name labels)
      (removed.foldl deletePod store).delete t.resource
    | r => store.delete r

structure StoredDeployment where
  store : ResourceStore
  deploy : Deployment
  held : store.Holds (.deployment deploy)

namespace StoredDeployment

variable (d : StoredDeployment)

def resource : AnyResource := .deployment d.deploy

/-- The three places agree on the pods of the deployment. -/
structure PodsAgree : Prop where
  counted : ∀ r, d.store.Holds r → countsPod d.deploy r = reconcilesPod d.deploy r
  removed : ∀ deployments pods, deployments.Perm (d.store.getByKind "Deployment") →
    pods.Perm (d.store.getByKind "Pod") → ∀ r, d.store.Holds r → r.isPod = true →
      (¬ (deleteDeployment d.store d.resource.namespaceOf d.resource.name deployments pods).Holds r ↔
        reconcilesPod d.deploy r = true)

end StoredDeployment

/-- The deployment says which labels its pods have; the pod has a namespace, labels and a name that is made
from that of the deployment. The three places call a deployment without a name by different names. -/
def marked (deploy : Deployment) (pod : Pod) : Bool :=
  (matchLabels deploy).isSome && pod.metadata.inNamespace.isSome && pod.metadata.labels.isSome &&
    podManagedByDeployment pod (deploy.metadata.name.getD "") &&
    (deploy.metadata.name.isSome ||
      podOwnedByDeployment pod "unknown" && podOwnedByDeployment pod "<unnamed>")

/-- A pod that one of the three places takes for a pod of the deployment is marked as one. -/
def StoredDeployment.PodsMarked (d : StoredDeployment) : Prop :=
  ∀ pod, d.store.Holds (.pod pod) →
    reconcilesPod d.deploy (.pod pod) = true ∨ countsPod d.deploy (.pod pod) = true ∨
      removesPod d.deploy (.pod pod) = true → marked d.deploy pod = true

end Z8s.Api
