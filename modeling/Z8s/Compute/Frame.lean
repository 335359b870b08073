import Z8s.Compute.Deployment
import Z8s.Transition.Run

/-!
# What a pass leaves alone

A pass that runs without interruption is a run of `passStep`. Two properties of such a pass: it
touches nothing but the pods of its own deployment (`TouchesOnlyOwn`), and it leaves the pods alone
that were created for another deployment (`Spares`). Each comes with the condition on names under
which the source keeps it.
-/

namespace Z8s.Compute

open Rust Z8s.Types Transition

/-- A pass on its own: store and pass move together. -/
def passStep (s : ResourceStore × Pass) (e : PassEvent) : Option (ResourceStore × Pass) :=
  s.2.step s.1 e

def Pass.stopTarget (t : Pass) : Option AnyResource :=
  match t.phase with
  | .stopping _ _ remove | .deleting _ _ remove => some remove
  | _ => none

/-- A pod in the namespace of the deployment that is owned by it. -/
def ownPod (deploy : Deployment) : AnyResource → Bool
  | .pod pod =>
    (AnyResource.pod pod).namespaceOf == passNamespace deploy &&
      podOwnedByDeployment pod (passName deploy)
  | _ => false

/-- However a pass goes on, it changes no entry of the store that is not an own pod, and stops only
pods that its filter selects. -/
def TouchesOnlyOwn (deploy : Deployment) (store : ResourceStore) : Prop :=
  ∀ es store' t', run passStep (store, Pass.enter deploy) es = some (store', t') →
    (∀ uid t, store.get uid = some t → ownPod deploy t.resource = false → store'.get uid = some t) ∧
      ∀ remove ∈ t'.stopTarget, selects deploy remove = true

/-- No name leads the pass to a foreign entry: when pods are missing, the uid of a new pod is free or
that of an own pod; when there are too many, no pod of another namespace has the name of a
selected pod. -/
structure NamesOnlyOwn (deploy : Deployment) (store : ResourceStore) : Prop where
  created : podCount deploy store < replicaCount deploy → ∀ uuid,
    ∀ t ∈ store.get (newPodUid deploy uuid), ownPod deploy t.resource = true
  removed : replicaCount deploy < podCount deploy store →
    ∀ t ∈ store.getAll, selects deploy t.resource = true →
    ∀ t' ∈ store.getByKind "Pod", t'.resource.name = t.resource.name →
      t'.resource.namespaceOf = passNamespace deploy

/-- Pods created for `a` are not counted as pods of `b`, and no pass of `b` stops or changes one. -/
def Spares (a b : Deployment) : Prop :=
  ∀ uuid pod, newPod a uuid = .ok pod →
    podOwnedByDeployment pod (passName b) = false ∧
    ∀ store t, store.get (AnyResource.pod pod).uid = some t → t.resource = .pod pod →
      ∀ es store' p, run passStep (store, Pass.enter b) es = some (store', p) →
        store'.get (AnyResource.pod pod).uid = some t ∧ AnyResource.pod pod ∉ p.stopTarget

/-- The name of `b` is neither that of `a`, nor followed by `-pod` or `-pod-` the beginning of it. -/
def DeployNamesApart (a b : Deployment) : Prop :=
  a.metadata.name.getD "deployment" ≠ passName b ∧ passName a ≠ passName b ∧
    startsWith (passName a ++ "-") (passName b ++ "-pod-") = false
  deriving Decidable

end Z8s.Compute
