import Z8s.Api.Proofs.SerdeProofs
import Z8s.Api.Proofs.UpdateProofs
import Z8s.Transition.Proofs.RunProofs

/-!
# Proofs: updates of one object at the same time

While at most one request is between its read and its write, the object that this request is going to
write contains its own changes and those of all requests served before.
-/

namespace Z8s.Api

open Rust Collections Z8s.Types Compute Transition List

variable {α : Type} {h : UpdateHandler α} {ns name : String} {plain : Json → Prop}
variable {trackers : List ResourceTracker}

/-- The object `x` is that of the path, is complete, and contains the changes of the served requests. -/
structure Carries (h : UpdateHandler α) (ns name : String) (tasks : List (UpdateTask α)) (x : α) :
    Prop where
  named : (h.wrap x).namespaceOf = ns ∧ (h.wrap x).name = name
  complete : h.complete ns name x = x
  served : ∀ t ∈ tasks, t.isDone = true → containsChanges (h.serde.toValue x) t.patch = true

theorem Carries.contains {store : ResourceStore} {tasks : List (UpdateTask α)} {x : α}
    (hx : Carries h ns name tasks x) (hheld : store.Holds (h.wrap x)) {t : UpdateTask α} (ht : t ∈ tasks)
    (hdone : t.isDone = true) : Contains h ns name store t.patch := by
  obtain ⟨state, hget⟩ := hheld
  have hmem : (⟨h.wrap x, state⟩ : ResourceTracker) ∈ store.getByKind h.kind :=
    ResourceStore.mem_getByKind.2 ⟨hget, h.kind_wrap x⟩
  exact ⟨_, hmem, hx.named, x, h.unwrap_wrap x, hx.served t ht hdone⟩

theorem UpdateHandler.merged_of_holds {store : ResourceStore} {x : α}
    (hperm : trackers.Perm (store.getByKind h.kind)) (hheld : store.Holds (h.wrap x))
    (hnamed : (h.wrap x).namespaceOf = ns ∧ (h.wrap x).name = name) (patch : Json) :
    h.merged ns name trackers patch = jsonMergePatch (h.serde.toValue x) patch := by
  obtain ⟨state, hget⟩ := hheld
  have hmem : (⟨h.wrap x, state⟩ : ResourceTracker) ∈ trackers :=
    hperm.mem_iff.2 (ResourceStore.mem_getByKind.2 ⟨hget, h.kind_wrap x⟩)
  obtain ⟨t, ht⟩ : ∃ t, trackers.find?
      (fun t => t.resource.namespaceOf == ns && t.resource.name == name) = some t := by
    rw [← Option.isSome_iff_exists, find?_isSome]
    exact ⟨_, hmem, by simp [hnamed]⟩
  -- the object that is found has the uid of `x`, and a store holds one object under a uid
  have hfound := find?_some ht
  rw [Bool.and_eq_true, beq_iff_eq, beq_iff_eq] at hfound
  obtain ⟨hstored, hkind⟩ := ResourceStore.mem_getByKind.1 (hperm.mem_iff.1 (mem_of_find?_eq_some ht))
  have huid : t.resource.uid = (h.wrap x).uid := by
    rw [h.uid_wrap, UpdateHandler.pathUid, AnyResource.uid, hkind, hfound.1, hfound.2, hnamed.1, hnamed.2]
  have hres : t.resource = h.wrap x := by
    rw [huid, hget] at hstored
    exact congrArg ResourceTracker.resource (Option.some.inj hstored).symm
  simp only [merged, ht, Option.bind_some, hres, h.unwrap_wrap, Option.map_some, Option.getD_some]

theorem UpdateHandler.updated_eq_ok {patch : Json} {x : α}
    (hupdated : h.updated ns name trackers patch = .ok x) :
    ∃ u, h.serde.fromValue (h.merged ns name trackers patch) = .ok u ∧ h.complete ns name u = x := by
  unfold updated at hupdated
  cases hread : h.serde.fromValue (h.merged ns name trackers patch) with
  | error e => simp [hread] at hupdated
  | ok u =>
    rw [hread] at hupdated
    exact ⟨u, rfl, Except.ok.inj hupdated⟩

structure PatchInv (h : UpdateHandler α) (ns name : String) (store : ResourceStore)
    (tasks : List (UpdateTask α)) : Prop where
  apart : tasks.Pairwise fun t t' => touchApart t.patch t'.patch = true
  alone : tasks.Pairwise fun t t' => ¬ (t.isWriting = true ∧ t'.isWriting = true)
  writing : ∀ t ∈ tasks, ∀ x, t.phase = .writing x →
    Carries h ns name tasks x ∧ containsChanges (h.serde.toValue x) t.patch = true
  served : (∃ t ∈ tasks, t.isDone = true) → ∃ x, store.Holds (h.wrap x) ∧ Carries h ns name tasks x

namespace PatchInv

variable {store store' : ResourceStore} {task task' : UpdateTask α} {tasks tasks' others : List (UpdateTask α)}

theorem keepsPatches (hinv : PatchInv h ns name store tasks) :
    KeepsPatches h ns name { store, tasks } := by
  intro t ht hdone
  obtain ⟨x, hheld, hx⟩ := hinv.served ⟨t, ht, hdone⟩
  exact hx.contains hheld ht hdone

theorem perm (hinv : PatchInv h ns name store tasks) (hperm : tasks.Perm tasks') :
    PatchInv h ns name store tasks' := by
  have hcarries : ∀ x, Carries h ns name tasks x → Carries h ns name tasks' x := fun x hx =>
    { hx with served := fun t ht => hx.served t (hperm.mem_iff.2 ht) }
  refine ⟨(hperm.pairwise_iff touchApart_comm).1 hinv.apart,
    (hperm.pairwise_iff fun hnot ⟨ht, ht'⟩ => hnot ⟨ht', ht⟩).1 hinv.alone, fun t ht x hphase => ?_,
    fun ⟨t, ht, hdone⟩ => ?_⟩
  · obtain ⟨hx, hown⟩ := hinv.writing t (hperm.mem_iff.2 ht) x hphase
    exact ⟨hcarries x hx, hown⟩
  · obtain ⟨x, hheld, hx⟩ := hinv.served ⟨t, hperm.mem_iff.2 ht, hdone⟩
    exact ⟨x, hheld, hcarries x hx⟩

theorem of_others_idle (hinv : PatchInv h ns name store (task :: others))
    (hpatch : task'.patch = task.patch) (hidle : ∀ t ∈ others, t.isWriting = false)
    (hwriting : ∀ x, task'.phase = .writing x →
      Carries h ns name (task' :: others) x ∧ containsChanges (h.serde.toValue x) task'.patch = true)
    (hserved : (∃ t ∈ task' :: others, t.isDone = true) →
      ∃ x, store'.Holds (h.wrap x) ∧ Carries h ns name (task' :: others) x) :
    PatchInv h ns name store' (task' :: others) where
  apart := by
    obtain ⟨htask, hothers⟩ := pairwise_cons.1 hinv.apart
    exact pairwise_cons.2 ⟨fun t ht => hpatch ▸ htask t ht, hothers⟩
  alone := by
    refine pairwise_cons.2 ⟨fun t ht hboth => ?_, ?_⟩
    · rw [hidle t ht] at hboth
      cases hboth.2
    · refine pairwise_of_forall_mem_list fun t ht t' _ hboth => ?_
      rw [hidle t ht] at hboth
      cases hboth.1
  writing := by
    refine forall_mem_cons.2 ⟨hwriting, fun t ht x hphase => ?_⟩
    have hnot := hidle t ht
    simp [UpdateTask.isWriting, hphase] at hnot
  served := hserved

theorem served_of_not_done (hinv : PatchInv h ns name store (task :: others))
    (hdone : task'.isDone = false) (hex : ∃ t ∈ task' :: others, t.isDone = true) :
    ∃ x, store.Holds (h.wrap x) ∧ Carries h ns name (task :: others) x ∧
      Carries h ns name (task' :: others) x := by
  have hothers : ∀ t ∈ task' :: others, t.isDone = true → t ∈ others := by
    intro t ht htdone
    rcases mem_cons.1 ht with rfl | ht
    · rw [hdone] at htdone
      cases htdone
    · exact ht
  obtain ⟨t, ht, htdone⟩ := hex
  obtain ⟨x, hheld, hx⟩ := hinv.served ⟨t, mem_cons_of_mem _ (hothers t ht htdone), htdone⟩
  exact ⟨x, hheld, hx, { hx with
    served := fun t ht htdone => hx.served t (mem_cons_of_mem _ (hothers t ht htdone)) htdone }⟩

section

variable (hkeeps : h.KeepsKnown ns name plain)
include hkeeps

/-- A request that reads while no other one writes is going to write an object with the changes of all
requests served so far. -/
theorem carries_updated (hinv : PatchInv h ns name store (task :: others)) {x : α}
    (hperm : trackers.Perm (store.getByKind h.kind))
    (hupdated : h.updated ns name trackers task.patch = .ok x)
    (hnamed : (h.wrap x).namespaceOf = ns ∧ (h.wrap x).name = name)
    (hplain : plain (h.merged ns name trackers task.patch)) (hdone : task'.isDone = false) :
    Carries h ns name (task' :: others) x := by
  obtain ⟨u, hread, rfl⟩ := UpdateHandler.updated_eq_ok hupdated
  refine ⟨hnamed, h.complete_complete ns name u, fun t ht htdone => ?_⟩
  obtain ⟨x₀, hheld, hx₀, hx₀'⟩ := hinv.served_of_not_done hdone ⟨t, ht, htdone⟩
  have hpatch := hx₀'.served t ht htdone
  have hapart : touchApart task.patch t.patch = true := by
    rcases mem_cons.1 ht with rfl | ht
    · rw [hdone] at htdone
      cases htdone
    · exact (pairwise_cons.1 hinv.apart).1 t ht
  refine hkeeps x₀ _ u _ hx₀.complete hplain hread hpatch ?_
  rw [UpdateHandler.merged_of_holds hperm hheld hx₀.named]
  exact containsChanges_jsonMergePatch hapart hpatch

theorem move {e : UpdateEvent} (hinv : PatchInv h ns name store (task :: others))
    (hok : ∀ trackers, e = .read trackers → (∀ t ∈ task :: others, t.isWriting = false) ∧
      TakesEffect h ns name plain trackers task.patch)
    (hstep : task.step h ns name store e = some (store', task')) :
    PatchInv h ns name store' (task' :: others) := by
  cases e with
  | read trackers =>
    obtain ⟨hidle, heffect⟩ := hok trackers rfl
    have hothers : ∀ t ∈ others, t.isWriting = false := fun t ht => hidle t (mem_cons_of_mem _ ht)
    simp only [UpdateTask.step] at hstep
    split at hstep
    · split_ifs at hstep with hperm
      split at hstep <;> cases hstep
      · rename_i x hupdated
        simp only [TakesEffect, hupdated] at heffect
        obtain ⟨hnamed, hown, hplain⟩ := heffect
        refine hinv.of_others_idle rfl hothers (fun y hy => ?_) fun hex => ?_
        · obtain rfl := UpdatePhase.writing.inj hy
          exact ⟨hinv.carries_updated hkeeps hperm hupdated hnamed hplain rfl, hown⟩
        · obtain ⟨x₀, hheld, -, hx₀⟩ := hinv.served_of_not_done rfl hex
          exact ⟨x₀, hheld, hx₀⟩
      · refine hinv.of_others_idle rfl hothers nofun fun hex => ?_
        obtain ⟨x₀, hheld, -, hx₀⟩ := hinv.served_of_not_done rfl hex
        exact ⟨x₀, hheld, hx₀⟩
    · cases hstep
  | write =>
    simp only [UpdateTask.step] at hstep
    split at hstep
    · rename_i x hphase
      cases hstep
      obtain ⟨hx, hown⟩ := hinv.writing task mem_cons_self x hphase
      have hothers : ∀ t ∈ others, t.isWriting = false := by
        intro t ht
        rw [← Bool.not_eq_true]
        exact fun hwriting => (pairwise_cons.1 hinv.alone).1 t ht
          ⟨by simp [UpdateTask.isWriting, hphase], hwriting⟩
      refine hinv.of_others_idle rfl hothers nofun fun _ =>
        ⟨x, ResourceStore.holds_apply.2 (.inl rfl), { hx with served := ?_ }⟩
      exact forall_mem_cons.2 ⟨fun _ => hown, fun t ht => hx.served t (mem_cons_of_mem _ ht)⟩
    · cases hstep

theorem step {s s' : UpdateSystem α} {e : UpdateSystemEvent}
    (hinv : PatchInv h ns name s.store s.tasks) (hok : ReadsAlone h ns name plain s e)
    (hstep : s.step h ns name e = some s') : PatchInv h ns name s'.store s'.tasks := by
  obtain ⟨store', tasks', task, task', others, hget, hmove, hperm, hperm', rfl⟩ := stepAt_map_eq_some hstep
  refine ((hinv.perm hperm).move hkeeps (fun trackers he => ?_) hmove).perm hperm'.symm
  simp only [ReadsAlone, he] at hok
  exact ⟨fun t ht => hok.1 t (hperm.mem_iff.2 ht), hok.2 task hget⟩

end

theorem init {patches : List Json} (hapart : patches.Pairwise fun p q => touchApart p q = true) :
    PatchInv h ns name (UpdateSystem.init (α := α) store patches).store
      (UpdateSystem.init (α := α) store patches).tasks := by
  have hreading : ∀ t ∈ patches.map fun patch => (⟨patch, .reading⟩ : UpdateTask α),
      t.phase = .reading := by
    intro t ht
    obtain ⟨patch, -, rfl⟩ := mem_map.1 ht
    rfl
  refine ⟨pairwise_map.2 hapart, ?_, fun t ht x hphase => ?_, fun ⟨t, ht, hdone⟩ => ?_⟩
  · refine pairwise_of_forall_mem_list fun t ht t' _ hboth => ?_
    simp [UpdateTask.isWriting, hreading t ht] at hboth
  · rw [hreading t ht] at hphase
    cases hphase
  · simp [UpdateTask.isDone, hreading t ht] at hdone

end PatchInv

private def webMap (data : List (String × String)) : ConfigMap where
  metadata := { name := some "web", inNamespace := some "default" }
  data := some (BTreeMap.ofList data)

private def oneMap (data : List (String × String)) : ResourceStore :=
  ResourceStore.new.apply (.configMap (webMap data))

private def setKey (key value : String) : Json := .obj [("data", .obj [(key, .str value)])]

private def twoPatches : List Json := [setKey "a" "1", setKey "b" "2"]

private def listing (data : List (String × String)) : UpdateEvent := .read [.new (.configMap (webMap data))]

private abbrev updateStep : UpdateSystem ConfigMap → UpdateSystemEvent → Option (UpdateSystem ConfigMap) :=
  UpdateSystem.step (updateConfigmap configMapSerde) "default" "web"

private def oneAfterAnother : List UpdateSystemEvent :=
  [⟨0, listing []⟩, ⟨0, .write⟩, ⟨1, listing [("a", "1")]⟩, ⟨1, .write⟩]

private def bothReadFirst : List UpdateSystemEvent :=
  [⟨0, listing []⟩, ⟨1, listing []⟩, ⟨0, .write⟩, ⟨1, .write⟩]

end Z8s.Api
