import Z8s.Pods.Proofs.SystemProofs
import Z8s.Pods.Safety

/-!
# Proofs: no container is spawned twice

Among the starts of one pod at most one is past its placeholders and has containers to spawn
(`alone`): its placeholders make every other duplicate check positive.
-/

namespace Z8s.Pods

open Rust Collections Netmux Cri Scheduler Transition List StartTask

variable {others : List StartTask} {task task' : StartTask}
variable {running' : HashMap String RunningContainer} {t : StartTask}

def StartTask.isActive (t : StartTask) : Bool :=
  match t.phase with
  | .placed | .spawning _ _ | .failing _ _ => true
  | .entered | .checked | .done _ => false

/-- A start of the pod, whose prepared and remaining containers are among its containers. -/
structure StartTask.WellFormed (podName : String) (t : StartTask) : Prop where
  named : t.spec.podName = podName
  ids : ∀ cid ∈ t.spec.ids, startsWith cid (podName ++ "-") = true
  nodup : t.spec.ids.Nodup
  progress : (t.prepared.map Prod.fst ++ t.todo.map ContainerConfig.containerId).Sublist t.spec.ids

/-- The invariant of the starts of one pod. -/
structure StartsInv (podName : String) (running : HashMap String RunningContainer)
    (starts : List StartTask) : Prop where
  wf : ∀ t ∈ starts, t.WellFormed podName
  placed : ∀ t ∈ starts, t.isActive = true → ∀ cid ∈ t.spec.ids,
    ∃ rc, running.get cid = some rc ∧ rc.inst.pid = none
  alone : starts.Pairwise fun t t' => t.isActive = true → t'.isActive = true →
    t.spec.ids = [] ∨ t'.spec.ids = []

theorem StartTask.isActive_of_prepared (h : t.prepared ≠ []) : t.isActive = true := by
  unfold prepared at h
  unfold isActive
  cases hp : t.phase <;> simp [hp] at h ⊢

namespace StartsInv

variable {podName : String} {running : HashMap String RunningContainer} {starts : List StartTask}

theorem perm {starts' : List StartTask} (h : StartsInv podName running starts)
    (hperm : starts.Perm starts') : StartsInv podName running starts' where
  wf t ht := h.wf t (hperm.mem_iff.2 ht)
  placed t ht := h.placed t (hperm.mem_iff.2 ht)
  alone := by
    have hsymm : ∀ {t t' : StartTask},
        (t.isActive = true → t'.isActive = true → t.spec.ids = [] ∨ t'.spec.ids = []) →
        (t'.isActive = true → t.isActive = true → t'.spec.ids = [] ∨ t.spec.ids = []) :=
      fun h ht' ht => (h ht ht').symm
    exact (hperm.pairwise_iff hsymm).1 h.alone

section

variable (h : StartsInv podName running (task :: others))
include h

theorem replace (hwf : task'.WellFormed podName)
    (hplaced : ∀ t ∈ task' :: others, t.isActive = true →
      ∀ cid ∈ t.spec.ids, ∃ rc, running'.get cid = some rc ∧ rc.inst.pid = none)
    (halone : task'.isActive = true → task.isActive = true ∧ task'.spec = task.spec) :
    StartsInv podName running' (task' :: others) where
  wf t ht := by
    rcases mem_cons.1 ht with rfl | ht
    · exact hwf
    · exact h.wf t (mem_cons_of_mem _ ht)
  placed := hplaced
  alone := by
    obtain ⟨hhead, htail⟩ := pairwise_cons.1 h.alone
    refine pairwise_cons.2 ⟨fun t ht hact' hact => ?_, htail⟩
    obtain ⟨hactive, hspec⟩ := halone hact'
    rw [hspec]
    exact hhead t ht hactive hact

theorem retire (hwf : task'.WellFormed podName) (hactive : task'.isActive = false)
    (hkeep : ∀ t ∈ others, t.isActive = true →
      ∀ cid ∈ t.spec.ids, ∃ rc, running'.get cid = some rc ∧ rc.inst.pid = none) :
    StartsInv podName running' (task' :: others) := by
  have hnever : ¬ task'.isActive = true := by rw [hactive]; exact Bool.false_ne_true
  refine h.replace hwf (fun t ht hact => ?_) fun hact => absurd hact hnever
  rcases mem_cons.1 ht with rfl | ht
  · exact absurd hact hnever
  · exact hkeep t ht hact

theorem advance (hwf : task'.WellFormed podName)
    (hspec : task'.spec = task.spec) (hactive : task.isActive = true) :
    StartsInv podName running (task' :: others) := by
  refine h.replace hwf (fun t ht hact => ?_) fun _ => ⟨hactive, hspec⟩
  rcases mem_cons.1 ht with rfl | ht
  · rw [hspec]
    exact h.placed task mem_cons_self hactive
  · exact h.placed t (mem_cons_of_mem _ ht) hact

end

theorem ids_eq_nil_of_fresh (h : StartsInv podName running starts)
    (hfresh : checkDuplicateStart running podName = false) (ht : t ∈ starts) (hact : t.isActive = true) :
    t.spec.ids = [] := by
  rw [eq_nil_iff_forall_not_mem]
  intro cid hcid
  obtain ⟨rc, hrc, -⟩ := h.placed t ht hact cid hcid
  have hdup : checkDuplicateStart running podName = true :=
    checkDuplicateStart_iff.2 ⟨cid, rc, hrc, (h.wf t ht).ids cid hcid⟩
  rw [hfresh] at hdup
  cases hdup

theorem spawnedOnce {s : PodSystem} (h : StartsInv podName s.sup.running s.starts) : SpawnedOnce s := by
  have hsub : ∀ t ∈ s.starts, (t.prepared.map Prod.fst).Sublist t.spec.ids := fun t ht =>
    (sublist_append_left _ _).trans (h.wf t ht).progress
  constructor
  · unfold PodSystem.inProgress
    rw [map_flatMap, nodup_flatMap]
    refine ⟨fun t ht => (h.wf t ht).nodup.sublist (hsub t ht), ?_⟩
    refine h.alone.imp_of_mem fun {t t'} ht ht' halone => ?_
    -- two starts with something prepared would both be active and have containers
    rw [Function.onFun, disjoint_left]
    intro cid hcid hcid'
    have hact : t.isActive = true :=
      isActive_of_prepared fun hnil => by simp [hnil] at hcid
    have hact' : t'.isActive = true :=
      isActive_of_prepared fun hnil => by simp [hnil] at hcid'
    have hids := (hsub t ht).subset hcid
    have hids' := (hsub t' ht').subset hcid'
    rcases halone hact hact' with hnil | hnil
    · rw [hnil] at hids
      cases hids
    · rw [hnil] at hids'
      cases hids'
  · intro e he rc hrc
    obtain ⟨t, ht, he⟩ := mem_flatMap.1 he
    have hact : t.isActive = true := isActive_of_prepared (ne_nil_of_mem he)
    have hcid : e.1 ∈ t.spec.ids := (hsub t ht).subset (mem_map_of_mem he)
    obtain ⟨rc', hrc', hpid⟩ := h.placed t ht hact e.1 hcid
    obtain rfl : rc' = rc := Option.some.inj (hrc'.symm.trans hrc)
    exact hpid

/-- Every move of a start that inserts its placeholders only after a negative check keeps the
invariant. -/
theorem startMove {sup sup' : Supervisor} {e : StartEvent}
    (h : StartsInv podName sup.running (task :: others))
    (hok : e = .insertPlaceholders → checkDuplicateStart sup.running task.spec.podName = false)
    (hspec : task'.spec = task.spec) (hmove : StartMove sup task.spec task.phase e sup' task'.phase) :
    StartsInv podName sup'.running (task' :: others) := by
  obtain ⟨spec, phase⟩ := task
  obtain ⟨spec', phase'⟩ := task'
  obtain rfl : spec' = spec := hspec
  have hwf := h.wf _ mem_cons_self
  have hothers : ∀ t ∈ others, t.isActive = true → ∀ cid ∈ t.spec.ids,
      ∃ rc, sup.running.get cid = some rc ∧ rc.inst.pid = none := fun t ht =>
    h.placed t (mem_cons_of_mem _ ht)
  -- a phase without progress is well formed
  have hidle : ∀ phase', (⟨spec', phase'⟩ : StartTask).prepared = [] →
      (⟨spec', phase'⟩ : StartTask).todo = [] → (⟨spec', phase'⟩ : StartTask).WellFormed podName :=
    fun phase' hp ht => ⟨hwf.named, hwf.ids, hwf.nodup, by rw [hp, ht]; exact nil_sublist _⟩
  cases hmove with
  | duplicate _ | fresh _ | unpackFails _ => exact h.retire (hidle _ rfl rfl) rfl hothers
  | place =>
    have hfresh : checkDuplicateStart sup.running podName = false := by
      rw [← hwf.named]
      exact hok rfl
    have hnil : ∀ t ∈ others, t.isActive = true → t.spec.ids = [] := fun t ht =>
      h.ids_eq_nil_of_fresh hfresh (mem_cons_of_mem _ ht)
    refine ⟨fun t ht => ?_, fun t ht hact cid hcid => ?_, ?_⟩
    · rcases mem_cons.1 ht with rfl | ht
      · exact hidle _ rfl rfl
      · exact h.wf t (mem_cons_of_mem _ ht)
    · rcases mem_cons.1 ht with rfl | ht
      · rcases get_insertPlaceholders sup.running spec' cid with ⟨hin, -⟩ | ⟨-, cfg, -, -, hget⟩
        · -- a container with an entry would have made the check positive
          obtain ⟨rc, hrc⟩ := Option.ne_none_iff_exists'.1 (hin hcid)
          have hdup := checkDuplicateStart_iff.2 ⟨cid, rc, hrc, hwf.ids cid hcid⟩
          rw [hfresh] at hdup
          cases hdup
        · exact ⟨_, hget, rfl⟩
      · rw [hnil t ht hact] at hcid
        cases hcid
    · exact pairwise_cons.2 ⟨fun t ht _ hact => .inr (hnil t ht hact),
        (pairwise_cons.1 h.alone).2⟩
  | cgroup =>
    exact h.advance ⟨hwf.named, hwf.ids, hwf.nodup, List.Sublist.refl _⟩ rfl rfl
  | cgroupFails e => exact h.advance (hidle _ rfl rfl) rfl rfl
  | spawnFails e _ _ =>
    refine h.advance ⟨hwf.named, hwf.ids, hwf.nodup, ?_⟩ rfl rfl
    have hsub := (sublist_append_left _ _).trans hwf.progress
    simpa [prepared, todo] using hsub
  | spawned pid _ _ =>
    refine h.advance ⟨hwf.named, hwf.ids, hwf.nodup, ?_⟩ rfl rfl
    have hsub := hwf.progress
    simpa [prepared, todo] using hsub
  | unplace =>
    refine h.retire (hidle _ rfl rfl) rfl fun t ht hact cid hcid => ?_
    rcases (pairwise_cons.1 h.alone).1 t ht rfl hact with hnil | hnil
    · have hnil' : spec'.ids = [] := hnil
      rw [hnil']
      exact hothers t ht hact cid hcid
    · rw [hnil] at hcid
      cases hcid
  | @record prepared =>
    refine h.retire (hidle _ rfl rfl) rfl fun t ht hact cid hcid => ?_
    rcases (pairwise_cons.1 h.alone).1 t ht rfl hact with hnil | hnil
    · have hprep : prepared = [] := by
        have hsub := hwf.progress
        rw [show (⟨spec', .spawning [] prepared⟩ : StartTask).spec.ids = [] from hnil] at hsub
        simpa [StartTask.prepared, StartTask.todo] using hsub
      rw [hprep]
      exact hothers t ht hact cid hcid
    · rw [hnil] at hcid
      cases hcid

end StartsInv

theorem startsInv_step (podName : String) (s : PodSystem) (e : PodEvent) (s' : PodSystem)
    (h : StartsInv podName s.sup.running s.starts) (hok : StartOf podName e ∧ PlacesFresh s e)
    (hstep : s.step e = some s') : StartsInv podName s'.sup.running s'.starts := by
  obtain ⟨hof, hfresh⟩ := hok
  cases e with
  | startPod spec =>
    cases hstep
    have hcons : StartsInv podName s.sup.running (⟨spec, .entered⟩ :: s.starts) := by
      refine ⟨fun t ht => ?_, fun t ht hact => ?_, ?_⟩
      · rcases mem_cons.1 ht with rfl | ht
        · exact ⟨hof.1, hof.2, hfresh, nil_sublist _⟩
        · exact h.wf t ht
      · rcases mem_cons.1 ht with rfl | ht
        · cases hact
        · exact h.placed t ht hact
      · exact pairwise_cons.2 ⟨fun t _ hact => (by cases hact), h.alone⟩
    exact hcons.perm (perm_append_singleton _ _).symm
  | start t e =>
    obtain ⟨sup', starts', task, task', others, ht, hf, hperm, hperm', rfl⟩ := stepAt_map_eq_some hstep
    obtain ⟨hspec, hmove⟩ := move_of_step hf
    have hmoved := (h.perm hperm).startMove (fun he => by subst he; exact hfresh task ht) hspec hmove
    exact hmoved.perm hperm'.symm
  | _ => exact hof.elim

/-- In every run of starts of one pod that insert placeholders only while the duplicate check is
negative, no container is spawned twice in any state. -/
theorem spawnedOnce_along (podName : String) (s : PodSystem) (hs : s.starts = []) (es : List PodEvent)
    (hok : Along PodSystem.step (fun s e => StartOf podName e ∧ PlacesFresh s e) s es) :
    Always PodSystem.step SpawnedOnce s es := by
  refine always_of_invariant (startsInv_step podName) (fun _ h => h.spawnedOnce) ?_ hok
  rw [hs]
  exact ⟨nofun, nofun, List.Pairwise.nil⟩

private def dbSpec : ContainerSpec where
  podName := "db"
  podUid := "Pod/default/db"
  containers := [⟨"db-app", "app", "postgres", false, false⟩]
  subnet := none

private def noPods : PodSystem :=
  .init ⟨IpPool.new ⟨Ipv4Addr.new 10 42 0 0, 30⟩, ∅, 30, Ipv4Addr.new 10 42 0 1⟩ .new

private def spawnWith (pid : Nat) : StartEvent :=
  .spawnNext (.ok "/rootfs") ⟨true, .ok pid, .ok true, .ok (), .attached 4 5, []⟩

/-- Two starts of a pod, of which the second checks when the first has inserted its placeholders. -/
theorem spawnedOnce_along_two_starts : Always PodSystem.step SpawnedOnce noPods
    [.startPod dbSpec, .startPod dbSpec, .start 0 .checkDuplicate, .start 0 .insertPlaceholders,
      .start 1 .checkDuplicate, .start 0 (.createCgroup (.ok ())), .start 0 (spawnWith 100),
      .start 0 .record] :=
  spawnedOnce_along "db" noPods rfl _ (by decide +kernel)

/-- Two starts of a pod that both check before either inserts its placeholders: the container is
spawned twice, and the process recorded first is overwritten by the other. -/
theorem spawned_twice_after_two_checks : ∃ s ∈ run PodSystem.step noPods
    [.startPod dbSpec, .startPod dbSpec, .start 0 .checkDuplicate, .start 1 .checkDuplicate,
      .start 0 .insertPlaceholders, .start 1 .insertPlaceholders, .start 0 (.createCgroup (.ok ())),
      .start 1 (.createCgroup (.ok ())), .start 0 (spawnWith 100), .start 0 .record,
      .start 1 (spawnWith 101)],
    (s.inProgress.map fun e => (e.1, e.2.inst.pid)) = [("db-app", some 101)] ∧
    (s.sup.running.get "db-app").bind (·.inst.pid) = some 100 ∧ ¬ SpawnedOnce s := by
  decide +kernel

end Z8s.Pods
