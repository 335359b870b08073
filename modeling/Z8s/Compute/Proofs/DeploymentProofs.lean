import Z8s.Collections.Proofs.BTreeMapProofs
import Z8s.Compute.Deployment
import Z8s.Proofs.TypesProofs
import Z8s.Rust.Proofs.StrProofs

/-!
# Proofs: the moves of a pass

`PassMove` lists everything a move of a pass can do.
-/

namespace Z8s.Compute

open Rust Collections Z8s.Types Netmux ResourceStore AnyResource

variable {r : AnyResource} {store : ResourceStore} {deploy : Deployment}

/-! ### Moves -/

/-- The moves of a pass over `deploy`: phase, event, store and phase afterwards. -/
inductive PassMove (deploy : Deployment) (store : ResourceStore) :
    PassPhase → PassEvent → ResourceStore → PassPhase → Prop
  | list {pods} (h : pods.Perm (store.getByKind "Pod")) :
    PassMove deploy store .entered (.list pods) store
      (loopCreate deploy (matchingPods deploy pods) [])
  | create {matching created uuid pod} (h : newPod deploy uuid = .ok pod) :
    PassMove deploy store (.creating matching created) (.create uuid) (store.apply (.pod pod))
      (.starting matching created pod)
  | createFails {matching created uuid e} (h : newPod deploy uuid = .error e) :
    PassMove deploy store (.creating matching created) (.create uuid) store (.done (.error e))
  | started {matching created pod} :
    PassMove deploy store (.starting matching created pod) (.started (.ok ()))
      (store.updateState (AnyResource.pod pod).uid .running)
      (loopCreate deploy matching (created ++ [(AnyResource.pod pod).name]))
  | startFails {matching created pod} (e : Error) :
    PassMove deploy store (.starting matching created pod) (.started (.error e))
      (store.updateState (AnyResource.pod pod).uid (.failed (displayError e)))
      (leaveCreate deploy matching created)
  | found {excess matching pods excessName remove} (h : pods.Perm (store.getByKind "Pod"))
      (hlast : matching.getLast? = some excessName)
      (hfind : pods.find? (fun t => t.resource.name == excessName) = some remove) :
    PassMove deploy store (.removing excess matching) (.find pods) store
      (.stopping (excess - 1) matching.dropLast remove.resource)
  | missing {excess matching pods} (h : pods.Perm (store.getByKind "Pod"))
      (hfind : ∀ excessName, matching.getLast? = some excessName →
        pods.find? (fun t => t.resource.name == excessName) = none) :
    PassMove deploy store (.removing excess matching) (.find pods) store
      (loopRemove (excess - 1) matching.dropLast)
  | stopped {excess matching remove} :
    PassMove deploy store (.stopping excess matching remove) .stopped
      (store.updateState remove.uid .terminated) (.deleting excess matching remove)
  | delete {excess matching remove} :
    PassMove deploy store (.deleting excess matching remove) .delete (store.delete remove)
      (loopRemove excess matching)

theorem Pass.move_of_step {store' : ResourceStore} {t t' : Pass} {e : PassEvent}
    (h : t.step store e = some (store', t')) :
    t'.deploy = t.deploy ∧ PassMove t.deploy store t.phase e store' t'.phase := by
  obtain ⟨deploy, phase⟩ := t
  cases e with
  | list pods =>
    simp only [Pass.step] at h
    split at h
    · split_ifs at h with hperm
      cases h
      exact ⟨rfl, .list hperm⟩
    · cases h
  | create uuid =>
    simp only [Pass.step] at h
    split at h
    · split at h
      · rename_i hpod
        cases h
        exact ⟨rfl, .createFails hpod⟩
      · rename_i hpod
        cases h
        exact ⟨rfl, .create hpod⟩
    · cases h
  | started result =>
    simp only [Pass.step] at h
    split at h
    · cases result with
      | ok u =>
        cases h
        exact ⟨rfl, .started⟩
      | error e =>
        cases h
        exact ⟨rfl, .startFails e⟩
    · cases h
  | find pods =>
    simp only [Pass.step] at h
    split at h
    · split_ifs at h with hperm
      split at h
      · rename_i hlast
        cases h
        obtain rfl := List.getLast?_eq_none_iff.1 hlast
        exact ⟨rfl, .missing hperm (by simp)⟩
      · rename_i excessName hlast
        split at h
        · rename_i remove hfind
          cases h
          exact ⟨rfl, .found hperm hlast hfind⟩
        · rename_i hfind
          cases h
          refine ⟨rfl, .missing hperm fun name hname => ?_⟩
          obtain rfl := Option.some.inj (hlast.symm.trans hname)
          exact hfind
    · cases h
  | stopped =>
    simp only [Pass.step] at h
    split at h
    · cases h
      exact ⟨rfl, .stopped⟩
    · cases h
  | delete =>
    simp only [Pass.step] at h
    split at h
    · cases h
      exact ⟨rfl, .delete⟩
    · cases h

/-! ### Pods -/

theorem mem_listed {pods : List ResourceTracker} {t : ResourceTracker}
    (h : pods.Perm (store.getByKind "Pod")) :
    t ∈ pods ↔ store.get t.resource.uid = some t ∧ t.resource.kind = "Pod" := by
  rw [h.mem_iff, mem_getByKind]

theorem kind_of_selects (h : selects deploy r = true) : r.kind = "Pod" := by
  cases r with
  | pod pod => rfl
  | _ => cases h

theorem namespaceOf_of_selects (h : selects deploy r = true) : r.namespaceOf = passNamespace deploy := by
  cases r with
  | pod pod =>
    simp only [selects, Bool.and_eq_true, beq_iff_eq] at h
    simp [namespaceOf, metadata, h.2]
  | _ => cases h

theorem labelsMatch_extend (labels selector : BTreeMap String String) :
    labelsMatch selector (labels.extend selector) = true := by
  unfold labelsMatch
  rw [List.all_eq_true]
  intro e he
  rw [BTreeMap.get_extend, BTreeMap.mem_iter.1 he]
  simp

theorem string_append_left_cancel {s a b : String} (h : s ++ a = s ++ b) : a = b := by
  rw [← String.toList_inj] at h ⊢
  simpa using h

section NewPod

variable {uuid : UuidGroup} {pod : Pod}

theorem newPod_eq_ok (h : newPod deploy uuid = .ok pod) :
    ∃ spec, deploy.spec = some spec ∧ pod.metadata.name = some (newPodName deploy uuid) ∧
      pod.metadata.inNamespace = some (passNamespace deploy) ∧
      pod.metadata.labels = some (((spec.template.metadata.getD {}).labels.getD ∅).extend
        (passLabels deploy)) ∧
      pod.metadata.ownerReferences = some [⟨"apps/v1", "Deployment",
        deploy.metadata.name.getD "deployment", some true, some true,
        deploy.metadata.uid.getD ""⟩] := by
  unfold newPod createPodFromTemplate at h
  cases hspec : deploy.spec with
  | none => simp [hspec, Except.map] at h
  | some spec =>
    simp only [hspec, Except.map, Except.ok.injEq] at h
    subst h
    refine ⟨spec, rfl, rfl, rfl, ?_, rfl⟩
    simp [passLabels, hspec]

def UuidGroup.zeros : UuidGroup where
  digits := List.replicate 8 '0'
  length_eq := rfl
  hex := by simp

theorem exists_newPod (h : deploy.spec.isSome) (uuid : UuidGroup) :
    ∃ pod, newPod deploy uuid = .ok pod := by
  obtain ⟨spec, hspec⟩ := Option.isSome_iff_exists.1 h
  exact ⟨_, by unfold newPod createPodFromTemplate; rw [hspec]; rfl⟩

section

variable (h : newPod deploy uuid = .ok pod)
include h

theorem name_newPod : (AnyResource.pod pod).name = newPodName deploy uuid := by
  obtain ⟨-, -, hname, -⟩ := newPod_eq_ok h
  simp [name, metadata, hname]

theorem namespaceOf_newPod : (AnyResource.pod pod).namespaceOf = passNamespace deploy := by
  obtain ⟨-, -, -, hns, -⟩ := newPod_eq_ok h
  simp [namespaceOf, metadata, hns]

theorem uid_newPod : (AnyResource.pod pod).uid = newPodUid deploy uuid := by
  rw [AnyResource.uid, namespaceOf_newPod h, name_newPod h]
  rfl

theorem owned_newPod : podOwnedByDeployment pod (passName deploy) = true := by
  obtain ⟨-, -, hname, -⟩ := newPod_eq_ok h
  simp [podOwnedByDeployment, hname, newPodName, startsWith_append]

theorem selects_newPod : selects deploy (.pod pod) = true := by
  obtain ⟨spec, -, -, hns, hlabels, -⟩ := newPod_eq_ok h
  simp only [selects, owned_newPod h, hlabels, hns, Option.getD_some, labelsMatch_extend,
    Bool.and_self, beq_self_eq_true]

end

end NewPod

/-! ### The loops -/

theorem loopCreate_of_le {matching : List String} (h : replicaCount deploy ≤ matching.length) :
    loopCreate deploy matching [] =
      loopRemove (matching.length - replicaCount deploy) matching := by
  unfold loopCreate leaveCreate
  rw [if_neg (by rw [List.length_nil]; omega), List.append_nil]

/-! ### Counting -/

theorem length_matchingPods {pods : List ResourceTracker} (h : pods.Perm (store.getByKind "Pod")) :
    (matchingPods deploy pods).length = podCount deploy store := by
  unfold matchingPods podCount
  rw [List.length_map, ← List.countP_eq_length_filter, h.countP_eq, ResourceStore.getByKind,
    List.countP_filter]
  refine List.countP_congr fun t _ => ?_
  simp only [Bool.and_eq_true, beq_iff_eq, and_iff_left_iff_imp]
  exact kind_of_selects

theorem podCount_updateState (deploy : Deployment) (store : ResourceStore) (uid : String)
    (state : ResourceState) : podCount deploy (store.updateState uid state) = podCount deploy store := by
  have h : ∀ s : ResourceStore, podCount deploy s =
      (s.getAll.map ResourceTracker.resource).countP (selects deploy) := by
    intro s
    rw [List.countP_map]
    rfl
  rw [h, h, map_getAll_updateState]

theorem podCount_apply (store : ResourceStore) (h : selects deploy r = true) :
    podCount deploy (store.apply r) = podCount deploy (store.delete r) + 1 := by
  unfold podCount
  rw [getAll_apply, List.countP_cons, if_pos h]

theorem podCount_eq_delete {t : ResourceTracker} (hget : store.get r.uid = some t) :
    podCount deploy store =
      podCount deploy (store.delete r) + if selects deploy t.resource = true then 1 else 0 := by
  unfold podCount
  rw [(getAll_perm hget).countP_eq, List.countP_cons]

theorem podCount_delete_le (deploy : Deployment) (store : ResourceStore) (r : AnyResource) :
    podCount deploy (store.delete r) ≤ podCount deploy store := by
  cases hget : store.get r.uid with
  | none => rw [delete_eq_self hget]
  | some t =>
    rw [podCount_eq_delete hget]
    exact Nat.le_add_right _ _

theorem podCount_apply_le (store : ResourceStore) (h : selects deploy r = true) :
    podCount deploy (store.apply r) ≤ podCount deploy store + 1 := by
  rw [podCount_apply store h]
  exact Nat.succ_le_succ (podCount_delete_le deploy store r)

theorem podCount_le_delete (deploy : Deployment) (store : ResourceStore) (r : AnyResource) :
    podCount deploy store ≤ podCount deploy (store.delete r) + 1 := by
  cases hget : store.get r.uid with
  | none =>
    rw [delete_eq_self hget]
    exact Nat.le_succ _
  | some t =>
    rw [podCount_eq_delete hget]
    split_ifs <;> omega

end Z8s.Compute
