import Z8s.Compute.Concurrent
import Z8s.Compute.Proofs.DeploymentProofs
import Z8s.Transition.Proofs.RunProofs

/-!
# Proofs: passes at the same time

While one pass creates pods and no other one does, the store holds no more pods than the pass knows
of.
-/

namespace Z8s.Compute

open Rust Z8s.Types Netmux Transition List

variable {others : List Pass} {task : Pass}
variable {task' : Pass}

def KnowsPods (deploy : Deployment) (store : ResourceStore) : PassPhase → Prop
  | .creating matching created =>
    podCount deploy store ≤ matching.length + created.length ∧
      matching.length + created.length < replicaCount deploy
  | .starting matching created _ =>
    podCount deploy store ≤ matching.length + created.length + 1 ∧
      matching.length + created.length < replicaCount deploy
  | _ => True

/-- The invariant of the passes over `deploy` when there are never more than `bound` pods. -/
structure PassesInv (deploy : Deployment) (bound : Nat) (store : ResourceStore) (passes : List Pass) :
    Prop where
  within : podCount deploy store ≤ bound
  same : ∀ t ∈ passes, t.deploy = deploy
  knows : ∀ t ∈ passes, KnowsPods deploy store t.phase
  alone : passes.Pairwise fun t t' => ¬ (t.inCreation = true ∧ t'.inCreation = true)

section

variable {deploy : Deployment} {bound : Nat} {store store' : ResourceStore}

theorem KnowsPods.mono {phase : PassPhase} (h : KnowsPods deploy store phase)
    (hle : podCount deploy store' ≤ podCount deploy store) : KnowsPods deploy store' phase := by
  cases phase with
  | creating _ _ | starting _ _ _ => exact ⟨hle.trans h.1, h.2⟩
  | _ => trivial

theorem knowsPods_of_not_inCreation {t : Pass} (h : t.inCreation = false) :
    KnowsPods deploy store t.phase := by
  unfold Pass.inCreation at h
  cases hp : t.phase with
  | creating _ _ => simp [hp] at h
  | starting _ _ _ => simp [hp] at h
  | _ => trivial

theorem knowsPods_loopRemove (excess : Nat) (matching : List String) :
    KnowsPods deploy store (loopRemove excess matching) := by
  cases excess <;> trivial

theorem knowsPods_loopCreate {matching created : List String}
    (h : podCount deploy store ≤ matching.length + created.length) :
    KnowsPods deploy store (loopCreate deploy matching created) := by
  unfold loopCreate
  split_ifs with hlt
  · exact ⟨h, hlt⟩
  · exact knowsPods_loopRemove _ _

namespace PassesInv

theorem perm {passes passes' : List Pass} (h : PassesInv deploy bound store passes)
    (hperm : passes.Perm passes') : PassesInv deploy bound store passes' where
  within := h.within
  same t ht := h.same t (hperm.mem_iff.2 ht)
  knows t ht := h.knows t (hperm.mem_iff.2 ht)
  alone := (hperm.pairwise_iff fun hnot ⟨ht, ht'⟩ => hnot ⟨ht', ht⟩).1 h.alone

section

variable (h : PassesInv deploy bound store (task :: others))
include h

theorem replace (hsame : task'.deploy = deploy)
    (hidle : ∀ t ∈ others, t.inCreation = false) (hwithin : podCount deploy store' ≤ bound)
    (hknows : KnowsPods deploy store' task'.phase) :
    PassesInv deploy bound store' (task' :: others) where
  within := hwithin
  same := forall_mem_cons.2 ⟨hsame, fun t ht => h.same t (mem_cons_of_mem _ ht)⟩
  knows := forall_mem_cons.2 ⟨hknows, fun t ht => knowsPods_of_not_inCreation (hidle t ht)⟩
  alone := by
    refine pairwise_cons.2 ⟨fun t ht hboth => ?_, (pairwise_cons.1 h.alone).2⟩
    rw [hidle t ht] at hboth
    cases hboth.2

theorem shrink (hsame : task'.deploy = deploy)
    (hle : podCount deploy store' ≤ podCount deploy store) (hidle : task'.inCreation = false) :
    PassesInv deploy bound store' (task' :: others) where
  within := hle.trans h.within
  same := forall_mem_cons.2 ⟨hsame, fun t ht => h.same t (mem_cons_of_mem _ ht)⟩
  knows := forall_mem_cons.2 ⟨knowsPods_of_not_inCreation hidle,
    fun t ht => (h.knows t (mem_cons_of_mem _ ht)).mono hle⟩
  alone := by
    refine pairwise_cons.2 ⟨fun t _ hboth => ?_, (pairwise_cons.1 h.alone).2⟩
    rw [hidle] at hboth
    cases hboth.1

theorem others_idle (htask : task.inCreation = true) : ∀ t ∈ others, t.inCreation = false := by
  intro t ht
  have hnot := (pairwise_cons.1 h.alone).1 t ht
  rw [← Bool.not_eq_true]
  exact fun h' => hnot ⟨htask, h'⟩

end

end PassesInv

theorem loopRemove_not_inCreation (deploy : Deployment) (excess : Nat) (matching : List String) :
    (Pass.mk deploy (loopRemove excess matching)).inCreation = false := by
  cases excess <;> rfl

theorem PassesInv.move {e : PassEvent} (h : PassesInv deploy bound store (task :: others))
    (hbound : replicaCount deploy ≤ bound)
    (halone : ∀ pods, e = .list pods → ∀ t ∈ others, t.inCreation = false)
    (hstep : task.step store e = some (store', task')) :
    PassesInv deploy bound store' (task' :: others) := by
  have hsame : task.deploy = deploy := h.same task mem_cons_self
  have hknows := h.knows task mem_cons_self
  obtain ⟨hdeploy', hmove⟩ := Pass.move_of_step hstep
  rw [hsame] at hmove hdeploy'
  obtain ⟨_, phase⟩ := task
  obtain ⟨_, phase'⟩ := task'
  dsimp only at hsame hdeploy'
  subst hsame hdeploy'
  cases hmove with
  | list hperm =>
    refine h.replace rfl (halone _ rfl) h.within (knowsPods_loopCreate ?_)
    rw [length_matchingPods hperm, length_nil]
    exact le_rfl
  | create hpod =>
    obtain ⟨hcount, hlt⟩ := hknows
    have hadd := podCount_apply_le store (selects_newPod hpod)
    exact h.replace rfl (h.others_idle rfl) (by omega) ⟨by omega, hlt⟩
  | createFails _ | found _ _ _ => exact h.shrink rfl le_rfl rfl
  | started =>
    obtain ⟨hcount, hlt⟩ := hknows
    refine h.replace rfl (h.others_idle rfl) ?_ (knowsPods_loopCreate ?_)
    · rw [podCount_updateState]
      exact h.within
    · rw [podCount_updateState, length_append, length_singleton]
      omega
  | startFails e =>
    exact h.shrink rfl (podCount_updateState _ _ _ _).le (loopRemove_not_inCreation _ _ _)
  | missing _ _ => exact h.shrink rfl le_rfl (loopRemove_not_inCreation _ _ _)
  | stopped => exact h.shrink rfl (podCount_updateState _ _ _ _).le rfl
  | delete =>
    exact h.shrink rfl (podCount_delete_le _ _ _) (loopRemove_not_inCreation _ _ _)

theorem passesInv_step {s s' : PassSystem} {e : PassSystemEvent} (hbound : replicaCount deploy ≤ bound)
    (h : PassesInv deploy bound s.store s.passes) (hok : CountsAlone s e) (hstep : s.step e = some s') :
    PassesInv deploy bound s'.store s'.passes := by
  obtain ⟨store', passes', task, task', others, -, hmove, hperm, hperm', rfl⟩ := stepAt_map_eq_some hstep
  refine ((h.perm hperm).move hbound (fun pods he t ht => ?_) hmove).perm hperm'.symm
  unfold CountsAlone at hok
  rw [he] at hok
  exact hok t (hperm.mem_iff.2 (mem_cons_of_mem _ ht))

theorem enter_not_inCreation (deploy : Deployment) : (Pass.enter deploy).inCreation = false := by
  unfold Pass.enter Pass.inCreation
  cases deploy.spec <;> rfl

theorem passesInv_init (deploy : Deployment) (store : ResourceStore) (passes : Nat) {bound : Nat}
    (hbound : podCount deploy store ≤ bound) :
    PassesInv deploy bound store (PassSystem.init store deploy passes).passes where
  within := hbound
  same t ht := by rw [eq_of_mem_replicate ht]; rfl
  knows t ht := by
    rw [eq_of_mem_replicate ht]
    exact knowsPods_of_not_inCreation (enter_not_inCreation deploy)
  alone := by
    refine pairwise_replicate.2 (.inr fun hboth => ?_)
    rw [enter_not_inCreation] at hboth
    cases hboth.1

end

/-- However the passes over a deployment interleave, they create no pod too many, provided that none
of them counts the pods while another one creates some. -/
theorem withinReplicas_along (deploy : Deployment) (store : ResourceStore) (passes : Nat)
    {es : List PassSystemEvent}
    (hok : Along PassSystem.step CountsAlone (PassSystem.init store deploy passes) es) :
    Always PassSystem.step (WithinReplicas deploy store) (PassSystem.init store deploy passes) es := by
  refine always_of_invariant
    (I := fun s => PassesInv deploy (max (podCount deploy store) (replicaCount deploy)) s.store s.passes)
    (fun s e s' h hok hstep => ?_) (fun s h => h.within) ?_ hok
  · exact passesInv_step (le_max_right _ _) h hok hstep
  · exact passesInv_init deploy store passes (le_max_left _ _)

private def webOfOne : Deployment where
  metadata := { name := some "web", inNamespace := some "default" }
  spec := some { replicas := some (asI32 1) }

private def zeros : UuidGroup := .zeros

private def ones : UuidGroup := ⟨List.replicate 8 '1', rfl, by simp⟩

private def startedPod (uuid : UuidGroup) : ResourceTracker where
  resource := .pod { metadata := {
    name := some (newPodName webOfOne uuid)
    inNamespace := some "default"
    labels := some ∅
    ownerReferences := some [⟨"apps/v1", "Deployment", "web", some true, some true, ""⟩] } }
  state := .running

private def oneAfterTheOther : List PassSystemEvent :=
  [⟨0, .list []⟩, ⟨0, .create zeros⟩, ⟨0, .started (.ok ())⟩, ⟨1, .list [startedPod zeros]⟩]

/-- The second pass counts when the first one has created its pod, and creates none. -/
theorem withinReplicas_along_oneAfterTheOther :
    (∃ s ∈ run PassSystem.step (PassSystem.init .new webOfOne 2) oneAfterTheOther,
      ∀ t ∈ s.passes, t.isDone = true) ∧
    Always PassSystem.step (WithinReplicas webOfOne .new) (PassSystem.init .new webOfOne 2)
      oneAfterTheOther :=
  ⟨by decide +kernel, withinReplicas_along webOfOne .new 2 (by decide +kernel)⟩

/-- Both passes count before either of them creates a pod: two pods for one replica. -/
theorem two_pods_for_one_replica :
    (∃ s ∈ run PassSystem.step (PassSystem.init .new webOfOne 2)
        [⟨0, .list []⟩, ⟨1, .list []⟩, ⟨0, .create zeros⟩, ⟨0, .started (.ok ())⟩, ⟨1, .create ones⟩,
          ⟨1, .started (.ok ())⟩],
      (∀ t ∈ s.passes, t.isDone = true) ∧ podCount webOfOne .new = 0 ∧ replicaCount webOfOne = 1 ∧
        podCount webOfOne s.store = 2 ∧ ¬ WithinReplicas webOfOne .new s) := by
  decide +kernel

end Z8s.Compute
