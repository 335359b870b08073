import Z8s.Compute.Frame
import Z8s.Transition.Tasks

/-!
# Passes at the same time

`main` spawns a first pass over all resources and the reconciler starts another one with every tick,
so that several passes over one deployment may be under way. Each of their calls of the store is one
step of the system, in any interleaving.
-/

namespace Z8s.Compute

open Z8s.Types Transition

structure PassSystem where
  store : ResourceStore
  passes : List Pass

structure PassSystemEvent where
  i : Nat
  e : PassEvent

namespace PassSystem

def init (store : ResourceStore) (deploy : Deployment) (passes : Nat) : PassSystem where
  store
  passes := List.replicate passes (Pass.enter deploy)

def step (s : PassSystem) (e : PassSystemEvent) : Option PassSystem :=
  (stepAt s.passes e.i (·.step s.store e.e)).map fun (store, passes) => { store, passes }

end PassSystem

/-- The pass has counted the pods and is in the loop that creates the missing ones. -/
def Pass.inCreation (t : Pass) : Bool :=
  match t.phase with
  | .creating _ _ | .starting _ _ _ => true
  | _ => false

/-- There are not more pods than there were at first, or than there should be. -/
def WithinReplicas (deploy : Deployment) (initial : ResourceStore) (s : PassSystem) : Prop :=
  podCount deploy s.store ≤ max (podCount deploy initial) (replicaCount deploy)
  deriving Decidable

/-- A pass counts the pods only while no pass is creating some. -/
def CountsAlone (s : PassSystem) (e : PassSystemEvent) : Prop :=
  match e.e with
  | .list _ => ∀ t ∈ s.passes, t.inCreation = false
  | _ => True

instance (s : PassSystem) (e : PassSystemEvent) : Decidable (CountsAlone s e) := by
  unfold CountsAlone
  cases e.e <;> infer_instance

end Z8s.Compute
