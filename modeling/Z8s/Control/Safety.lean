import Z8s.Control.Daemon
import Z8s.Proofs.TypesProofs

/-!
# What deletions should leave behind

A pod that is not stored has no containers in the running map (`Gone`), and a deployment that was deleted
has no pods (`DeploymentGone`). Each comes with the condition on the single steps under which it is kept.
-/

namespace Z8s.Control

open Z8s.Types Cri Pods Compute

/-- The running map has an entry that was made by a start of the pod. -/
def Recorded (d : Daemon) (uid : String) : Prop := ∃ e ∈ d.running.iter, e.2.startedFor = uid
  deriving Decidable

def InFlight (d : Daemon) (uid : String) : Prop :=
  ∃ t ∈ d.pods.starts, t.isDone = false ∧ t.spec.podUid = uid
  deriving Decidable

def StopCalled (d : Daemon) (uid : String) : Prop := uid ∈ d.stopCalls.map Prod.fst
  deriving Decidable

/-- What a start works on is its pod. -/
structure OwnWork (t : StartTask) : Prop where
  todo : ∀ cfg ∈ t.todo, cfg.containerId ∈ t.spec.ids
  prepared : ∀ e ∈ t.prepared, e.1 ∈ t.spec.ids ∧ e.2.startedFor = t.spec.podUid

/-- The containers and the starts of the pod are those of the stored pod. -/
structure Tidy (uid : String) (d : Daemon) : Prop where
  own : ∀ t ∈ d.pods.starts, OwnWork t
  absent : d.store.get uid = none → ¬ Recorded d uid ∧ ¬ InFlight d uid
  recorded : ∀ r, d.store.Holds r → r.uid = uid → ∀ e ∈ d.running.iter, e.2.startedFor = uid →
    e.1 ∈ (buildSpec r).ids
  started : ∀ r, d.store.Holds r → r.uid = uid → ∀ t ∈ d.pods.starts, t.isDone = false →
    t.spec.podUid = uid → t.spec = buildSpec r

/-- The pod is not resurrected: while it is not stored, none of its containers is running. -/
def Gone (uid : String) (s : ControlSystem) : Prop :=
  s.daemon.store.get uid = none → ¬ Recorded s.daemon uid
  deriving Decidable

/-- A pod is started only as it is stored and before it is stopped for the first time, it is stopped only
while no start of it is under way, and it is stored anew only under a uid without a history. -/
def OrderlyCall (uid : String) (d : Daemon) : Option Call → Prop
  | some (.start pod) => (AnyResource.pod pod).uid = uid → d.store.Holds (.pod pod) ∧ ¬ StopCalled d uid
  | some (.stop r) => r.uid = uid → ¬ InFlight d uid ∧ (d.store.Holds r ∨ d.store.get uid = none)
  | some (.apply r) => r.uid = uid → d.store.get uid = none ∧ ¬ StopCalled d uid
  | none => True

instance decidableHolds (store : ResourceStore) (r : AnyResource) : Decidable (store.Holds r) :=
  decidable_of_iff _ ResourceStore.holds_iff.symm

instance (uid : String) (d : Daemon) : (call : Option Call) → Decidable (OrderlyCall uid d call)
  | some (.start _) | some (.stop _) | some (.apply _) => inferInstanceAs (Decidable (_ → _ ∧ _))
  | none => inferInstanceAs (Decidable True)

/-- The step makes no call out of order for the pod. -/
def Orderly (uid : String) (s : ControlSystem) (e : ControlEvent) : Prop :=
  OrderlyCall uid s.daemon (s.call e)
  deriving Decidable

def ControlSystem.isIdle (s : ControlSystem) : Bool :=
  s.sweeps.all Sweep.isDone && s.deletions.all Deletion.isDone &&
    s.daemon.detached.all fun t => t.phase == .returned

/-! ### Deployments -/

def Call.uid : Call → String
  | .start pod => (AnyResource.pod pod).uid
  | .stop r | .apply r => r.uid

def AllOrderly (s : ControlSystem) (e : ControlEvent) : Prop :=
  ∀ call ∈ s.call e, Orderly call.uid s e
  deriving Decidable

def Deletion.deletes (t : Deletion) (deploy : Deployment) : Bool :=
  t.kind == .deployment && t.inNamespace == passNamespace deploy &&
    t.name == (AnyResource.deployment deploy).name

def Deletion.hasListed (t : Deletion) : Bool :=
  match t.phase with
  | .walking _ _ _ | .done true => true
  | _ => false

/-- No stored pod is selected by the filter of the deployment, and every container that is running for a pod
belongs to a stored pod that is not. -/
structure DeploymentGone (deploy : Deployment) (d : Daemon) : Prop where
  stored : ∀ r, d.store.Holds r → selects deploy r = false
  running : ∀ pod : Pod, Recorded d (AnyResource.pod pod).uid →
    ∃ r, d.store.Holds r ∧ r.uid = (AnyResource.pod pod).uid ∧ selects deploy r = false

def StaysDeleted (deploy : Deployment) (s : ControlSystem) : Prop :=
  (∃ t ∈ s.deletions, t.deletes deploy = true ∧ t.phase = .done true) → DeploymentGone deploy s.daemon

def Call.storesPodOf (deploy : Deployment) : Call → Bool
  | .apply r => selects deploy r
  | _ => false

/-- Once a request to delete the deployment has listed the pods, no pod that the filter of the deployment
selects is stored. -/
def CreatesNone (deploy : Deployment) (s : ControlSystem) (e : ControlEvent) : Prop :=
  (∃ t ∈ s.deletions, t.deletes deploy = true ∧ t.hasListed = true) →
    ∀ call ∈ s.call e, call.storesPodOf deploy = false
  deriving Decidable

end Z8s.Control
