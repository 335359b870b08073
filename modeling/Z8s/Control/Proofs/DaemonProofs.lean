import Z8s.Compute.Proofs.DeploymentProofs
import Z8s.Control.Proofs.PodMoveProofs

/-!
# Proofs: what the tasks of the daemon do

`Move` lists everything that a step of a sweep, a deletion or a start of its own can do to what the tasks
share, with the call it makes and with the removal of a pod that the task is at before and after it.
-/

namespace Z8s.Control

open Collections Z8s.Types Pods Compute Sweep Deletion

variable {d d' : Daemon}
variable {todo : List ResourceTracker} {e : Deletion.Event} {call : CallPhase} {t t' : Deletion}
  {pass : Pass}

/-- The pod that the task is to stop and to delete, and how far the stop has come. -/
def Sweep.removing (t : Sweep) : List (AnyResource × CallPhase) :=
  match t.phase with
  | .reconciling _ pass call =>
    match pass.phase with
    | .stopping _ _ remove => [(remove, call)]
    | .deleting _ _ remove => [(remove, .returned)]
    | _ => []
  | _ => []

def Deletion.removing (t : Deletion) : List (AnyResource × CallPhase) :=
  match t.phase with
  | .walking (r :: _) call _ => [(r, call)]
  | _ => []

def Uncalled (m : List (AnyResource × CallPhase)) : Prop := ∀ x ∈ m, x.2 = .calling

theorem uncalled_nil : Uncalled [] := fun _ hx => absurd hx List.not_mem_nil

theorem uncalled_singleton (r : AnyResource) : Uncalled [(r, .calling)] := by
  intro x hx
  obtain rfl := List.mem_singleton.1 hx
  rfl

/-- The steps of a task: what it removes, the call it makes, what is shared and what it removes
afterwards. -/
inductive Move (d : Daemon) : List (AnyResource × CallPhase) → Option Call → Daemon →
    List (AnyResource × CallPhase) → Prop
  | quiet {m m'} (h : Uncalled m') : Move d m none d m'
  | spawn {m m'} (t : Detached) (h : Uncalled m') :
    Move d m none { d with detached := d.detached ++ [t] } m'
  | start {m m'} (pod : Pod) (h : Uncalled m') : Move d m (some (.start pod)) (d.callStart pod) m'
  | stop {m} (r : AnyResource) :
    Move d m (some (.stop r)) (d.callStop r) [(r, .waiting d.pods.stops.length)]
  | apply {m m'} (pod : Pod) (h : Uncalled m') :
    Move d m (some (.apply (.pod pod))) (d.setStore (d.store.apply (.pod pod))) m'
  | state {m m'} (uid : String) (state : ResourceState) (h : Uncalled m') :
    Move d m none (d.setStore (d.store.updateState uid state)) m'
  | stopped {r i} (h : d.stopFinished i = true) :
    Move d [(r, .waiting i)] none (d.setStore (d.store.updateState r.uid .terminated)) [(r, .returned)]
  | delete {r m'} (h : Uncalled m') : Move d [(r, .returned)] none (d.setStore (d.store.delete r)) m'
  | deleteOther {m m' r} (hkind : r.kind ≠ "Pod") (h : Uncalled m') :
    Move d m none (d.setStore (d.store.delete r)) m'

theorem Detached.move_of_step {t t' : Detached} {e : Detached.Event} (hstep : t.step d e = some (d', t')) :
    Move d [] (t.call e) d' [] := by
  cases e with
  | call =>
    simp only [Detached.step] at hstep
    split at hstep
    · obtain ⟨rfl, -⟩ := Prod.mk.inj (Option.some.inj hstep)
      exact .start t.pod uncalled_nil
    · cases hstep
  | returned =>
    simp only [Detached.step] at hstep
    split at hstep
    · split at hstep
      · obtain ⟨rfl, -⟩ := Prod.mk.inj (Option.some.inj hstep)
        exact .state _ _ uncalled_nil
      · obtain ⟨rfl, -⟩ := Prod.mk.inj (Option.some.inj hstep)
        exact .quiet uncalled_nil
      · cases hstep
    · cases hstep

theorem Deletion.uncalled_found (t : Deletion) (kind : DeletionKind) (r : AnyResource) :
    Uncalled ({ t with phase := found kind r } : Deletion).removing := by
  unfold found removing
  split
  · rename_i hphase
    dsimp only at hphase
    split at hphase
    · cases hphase
      exact uncalled_singleton _
    · split at hphase <;> cases hphase
    · cases hphase
  · exact uncalled_nil

theorem Deletion.uncalled_calling (t : Deletion) (todo : List AnyResource) (deploy : Option Deployment) :
    Uncalled ({ t with phase := .walking todo .calling deploy } : Deletion).removing := by
  cases todo with
  | nil => exact uncalled_nil
  | cons r todo => exact uncalled_singleton r

/-- The moves of a deletion, with the state of the daemon and the phase after them. -/
inductive Deletion.Moves (d : Daemon) (t : Deletion) : Deletion.Event → Daemon → DeletionPhase → Prop
  | found {trackers x : _} (hphase : t.phase = .listing)
    (hperm : trackers.Perm (d.store.getByKind t.kind.toString))
    (hfind : trackers.find? (fun x => x.resource.name == t.name && x.resource.namespaceOf == t.inNamespace) =
      some x) : Moves d t (.list trackers) d (Deletion.found t.kind x.resource)
  | notFound {trackers : _} (hphase : t.phase = .listing)
    (hperm : trackers.Perm (d.store.getByKind t.kind.toString))
    (hfind : trackers.find? (fun x => x.resource.name == t.name && x.resource.namespaceOf == t.inNamespace) =
      none) : Moves d t (.list trackers) d (.done false)
  | listPods {trackers deploy labels : _}
    (hphase : t.phase = .listingPods deploy labels) (hperm : trackers.Perm (d.store.getByKind "Pod")) :
    Moves d t (.listPods trackers) d (.walking ((trackers.map ResourceTracker.resource).filter
      (deletesPod t.inNamespace t.name labels)) .calling (some deploy))
  | call {r todo deploy : _} (hphase : t.phase = .walking (r :: todo) .calling deploy) :
    Moves d t .call (d.callStop r) (.walking (r :: todo) (.waiting d.pods.stops.length) deploy)
  | stopped {r todo i deploy : _}
    (hphase : t.phase = .walking (r :: todo) (.waiting i) deploy) (hfinished : d.stopFinished i = true) :
    Moves d t .stopped (d.setStore (d.store.updateState r.uid .terminated))
      (.walking (r :: todo) .returned deploy)
  | delete {r todo deploy : _} (hphase : t.phase = .walking (r :: todo) .returned deploy) :
    Moves d t .delete (d.setStore (d.store.delete r)) (.walking todo .calling deploy)
  | leaveDeployment {call deploy : _} (hphase : t.phase = .walking [] call (some deploy)) :
    Moves d t .leave (d.setStore (d.store.delete (.deployment deploy))) (.done true)
  | leave {call : _} (hphase : t.phase = .walking [] call none) : Moves d t .leave d (.done true)

theorem Deletion.moves_of_step (hstep : t.step d e = some (d', t')) :
    ∃ phase, t' = { t with phase } ∧ Moves d t e d' phase := by
  cases e with
  | list trackers =>
    simp only [step] at hstep
    split at hstep
    · rename_i hphase
      split_ifs at hstep with hperm
      split at hstep <;> cases hstep
      · rename_i x hfind
        exact ⟨_, rfl, .found hphase hperm hfind⟩
      · rename_i hfind
        exact ⟨_, rfl, .notFound hphase hperm hfind⟩
    · cases hstep
  | listPods trackers =>
    simp only [step] at hstep
    split at hstep
    · rename_i deploy labels hphase
      split_ifs at hstep with hperm
      cases hstep
      exact ⟨_, rfl, .listPods hphase hperm⟩
    · cases hstep
  | call =>
    simp only [step] at hstep
    split at hstep
    · rename_i r todo deploy hphase
      cases hstep
      exact ⟨_, rfl, .call hphase⟩
    · cases hstep
  | stopped =>
    simp only [step] at hstep
    split at hstep
    · rename_i r todo i deploy hphase
      split_ifs at hstep with hfinished
      cases hstep
      exact ⟨_, rfl, .stopped hphase hfinished⟩
    · cases hstep
  | delete =>
    simp only [step] at hstep
    split at hstep
    · rename_i r todo deploy hphase
      cases hstep
      exact ⟨_, rfl, .delete hphase⟩
    · cases hstep
  | leave =>
    simp only [step] at hstep
    split at hstep
    · rename_i hphase
      cases hstep
      exact ⟨_, rfl, .leaveDeployment hphase⟩
    · rename_i hphase
      cases hstep
      exact ⟨_, rfl, .leave hphase⟩
    · cases hstep

theorem Deletion.move_of_step (hstep : t.step d e = some (d', t')) :
    Move d t.removing (t.call e) d' t'.removing := by
  obtain ⟨phase, rfl, hmove⟩ := moves_of_step hstep
  cases hmove with
  | found => exact .quiet (uncalled_found t t.kind _)
  | notFound | leave => exact .quiet uncalled_nil
  | listPods => exact .quiet (uncalled_calling t _ _)
  | @call r todo deploy hphase =>
    have hcall : t.call .call = some (.stop r) := by simp [call, hphase]
    rw [hcall]
    exact .stop r
  | @stopped r todo i deploy hphase hfinished =>
    have hremoving : t.removing = [(r, .waiting i)] := by simp [removing, hphase]
    rw [hremoving]
    exact .stopped hfinished
  | @delete r todo deploy hphase =>
    have hremoving : t.removing = [(r, .returned)] := by simp [removing, hphase]
    rw [hremoving]
    exact .delete (uncalled_calling t todo deploy)
  | leaveDeployment => exact .deleteOther (by simp [AnyResource.kind]) uncalled_nil

/-! ### Sweeps -/

theorem Sweep.uncalled_loopRemove (deploy : Deployment) (excess : Nat) (matching : List String) :
    Uncalled (⟨.reconciling todo ⟨deploy, loopRemove excess matching⟩ call⟩ : Sweep).removing := by
  cases excess <;> exact uncalled_nil

theorem Sweep.uncalled_loopCreate (deploy : Deployment) (matching created : List String) :
    Uncalled (⟨.reconciling todo ⟨deploy, loopCreate deploy matching created⟩ call⟩ : Sweep).removing := by
  unfold loopCreate
  split_ifs
  · exact uncalled_nil
  · exact uncalled_loopRemove _ _ _

theorem Sweep.uncalled_enter (deploy : Deployment) :
    Uncalled (⟨.reconciling todo (Pass.enter deploy) call⟩ : Sweep).removing := by
  unfold Pass.enter
  cases deploy.spec <;> exact uncalled_nil

theorem Sweep.move_of_passMoves {t' : Sweep} {e : PassEvent}
    (hstep : passMoves d todo pass e = some (d', t'))
    (hstopped : e = .stopped → ∃ i, call = .waiting i ∧ d.stopFinished i = true) :
    Move d (⟨.reconciling todo pass call⟩ : Sweep).removing
      ((⟨.reconciling todo pass call⟩ : Sweep).call (.store e)) d' t'.removing := by
  obtain ⟨⟨store', pass'⟩, hpass, heq⟩ := Option.map_eq_some_iff.1 hstep
  cases heq
  obtain ⟨hdeploy, hmove⟩ := Pass.move_of_step hpass
  obtain ⟨deploy, phase⟩ := pass
  obtain ⟨deploy', phase'⟩ := pass'
  obtain rfl : deploy' = deploy := hdeploy
  cases hmove with
  | list _ => exact .quiet (uncalled_loopCreate _ _ _)
  | @create matching created uuid pod hpod =>
    have hpod' : newPod deploy' uuid = .ok pod := hpod
    have hcall : (⟨.reconciling todo ⟨deploy', .creating matching created⟩ call⟩ : Sweep).call
        (.store (.create uuid)) = some (.apply (.pod pod)) := by
      simp only [Sweep.call, hpod']
    rw [hcall]
    exact .apply _ uncalled_nil
  | @createFails matching created uuid e hpod =>
    have hpod' : newPod deploy' uuid = .error e := hpod
    have hcall : (⟨.reconciling todo ⟨deploy', .creating matching created⟩ call⟩ : Sweep).call
        (.store (.create uuid)) = none := by
      simp only [Sweep.call, hpod']
    rw [hcall]
    exact .quiet uncalled_nil
  | started => exact .state _ _ (uncalled_loopCreate _ _ _)
  | startFails e => exact .state _ _ (uncalled_loopRemove _ _ _)
  | found _ _ _ => exact .quiet (uncalled_singleton _)
  | missing _ _ => exact .quiet (uncalled_loopRemove _ _ _)
  | stopped =>
    obtain ⟨i, rfl, hfinished⟩ := hstopped rfl
    exact .stopped hfinished
  | delete => exact .delete (uncalled_loopRemove _ _ _)

theorem Sweep.move_of_step {t t' : Sweep} {e : Sweep.Event} (hstep : t.step d e = some (d', t')) :
    Move d t.removing (t.call e) d' t'.removing := by
  obtain ⟨phase⟩ := t
  cases e with
  | snapshot trackers | leave =>
    simp only [step] at hstep
    split at hstep
    · split_ifs at hstep
      cases hstep
      exact .quiet uncalled_nil
    · cases hstep
  | next =>
    simp only [step] at hstep
    split at hstep
    · split at hstep
      · split_ifs at hstep <;> cases hstep
        · exact .spawn _ uncalled_nil
        · exact .quiet uncalled_nil
      · cases hstep
        exact .quiet (uncalled_enter _)
      · cases hstep
        exact .quiet uncalled_nil
    · cases hstep
  | store e =>
    simp only [step] at hstep
    split at hstep
    · split_ifs at hstep with hcall
      refine move_of_passMoves hstep fun he => ?_
      rw [he] at hcall
      cases hcall
    · cases hstep
  | callStart =>
    simp only [step] at hstep
    split at hstep
    · split at hstep
      · rename_i pod hphase
        cases hstep
        simp only [call, removing, hphase]
        exact .start pod uncalled_nil
      · cases hstep
    · cases hstep
  | started =>
    simp only [step] at hstep
    split at hstep
    · obtain ⟨result, -, hmoves⟩ := Option.bind_eq_some_iff.1 hstep
      exact move_of_passMoves hmoves nofun
    · cases hstep
  | callStop =>
    simp only [step] at hstep
    split at hstep
    · split at hstep
      · rename_i remove hphase
        cases hstep
        simp only [call, removing, hphase]
        exact .stop remove
      · cases hstep
    · cases hstep
  | stopped =>
    simp only [step] at hstep
    split at hstep
    · split_ifs at hstep with hfinished
      exact move_of_passMoves hstep fun _ => ⟨_, rfl, hfinished⟩
    · cases hstep

end Z8s.Control
