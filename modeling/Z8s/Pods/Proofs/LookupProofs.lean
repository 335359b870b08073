import Z8s.Pods.Proofs.SystemProofs
import Z8s.Pods.Safety
import Z8s.Scheduler.Proofs.ProcessProofs

/-!
# Proofs: a pod is looked up by its own containers

Where every entry that starts with the name of a pod was started for it, filtering the maps to the
pod's own entries changes no answer.
-/

namespace Z8s.Pods

open Rust Collections Z8s.Types Netmux Cri Scheduler Transition HashMap List StartTask

variable {r : AnyResource} {store : ResourceStore} {s : PodSystem}
variable {ids : List (String × String)} {pods : List AnyResource} {pids : List (Nat × Int)}
  {r' : AnyResource} {e : StartEvent} {cid podName : String} {t : Nat}

/-! ### Answers from a filtered map -/

section Filter

variable {α β : Type*} {l : List α} {p q : α → Bool}

theorem filter_filter_of_imp (h : ∀ a ∈ l, p a = true → q a = true) :
    (l.filter q).filter p = l.filter p := by
  rw [filter_filter]
  refine filter_congr fun a ha => ?_
  by_cases hp : p a = true
  · simp [hp, h a ha hp]
  · simp [hp]

theorem findSome?_ite (f : α → Option β) :
    l.findSome? (fun a => if p a = true then f a else none) = (l.filter p).findSome? f := by
  induction l with
  | nil => rfl
  | cons a l ih =>
    by_cases hp : p a = true
    · rw [filter_cons_of_pos hp, findSome?_cons, findSome?_cons, if_pos hp, ih]
    · simp [hp, ih]

end Filter

def entriesOf {V : Type} (m : HashMap String V) (podName : String) : List (String × V) :=
  m.iter.filter fun e => startsWith e.1 (podName ++ "-")

theorem lookups_congr {m m' : HashMap String RunningContainer}
    (h : entriesOf m podName = entriesOf m' podName) :
    isRunning m podName = isRunning m' podName ∧ isReady m podName = isReady m' podName ∧
      podIp m podName = podIp m' podName ∧
      ∀ port, backendConnectPort m podName port = backendConnectPort m' podName port := by
  have hrunning : ∀ m : HashMap String RunningContainer,
      isRunning m podName = (entriesOf m podName).any fun _ => true := by
    intro m
    unfold isRunning entriesOf HashMap.keys
    rw [any_map, any_filter]
    simp [Function.comp_def]
  have hready : ∀ m : HashMap String RunningContainer, isReady m podName =
      (isRunning m podName && (entriesOf m podName).any fun e => e.2.ready) := by
    intro m
    unfold isReady entriesOf
    rw [any_filter]
  have hip : ∀ m : HashMap String RunningContainer,
      podIp m podName = (entriesOf m podName).findSome? fun e => e.2.inst.podIp :=
    fun m => findSome?_ite _
  have hport : ∀ (m : HashMap String RunningContainer) (port : Nat), backendConnectPort m podName port =
      match (entriesOf m podName).head? with
      | some e =>
        if e.2.inst.isolatedNet then (e.2.inst.publishedPorts.get port).getD port else port
      | none => port := by
    intro m port
    unfold backendConnectPort entriesOf
    rw [head?_filter]
    cases m.iter.find? fun e => startsWith e.1 (podName ++ "-") <;> rfl
  refine ⟨?_, ?_, ?_, fun port => ?_⟩
  · rw [hrunning, hrunning, h]
  · rw [hready, hready, hrunning, hrunning, h]
  · rw [hip, hip, h]
  · rw [hport, hport, h]

theorem seesOnlyOwn_of_startedFor {uid : String} {running : HashMap String RunningContainer}
    {restartCounts : HashMap String RestartCount}
    (hrun : ∀ e ∈ running.iter, startsWith e.1 (podName ++ "-") = true → e.2.startedFor = uid)
    (hcnt : ∀ e ∈ restartCounts.iter, startsWith e.1 (podName ++ "-") = true → e.2.startedFor = uid) :
    SeesOnlyOwn uid podName running restartCounts := by
  have hentries : entriesOf running podName = entriesOf (ownRunning uid running) podName := by
    unfold entriesOf ownRunning
    rw [iter_filter]
    exact (filter_filter_of_imp fun e he hp => decide_eq_true (hrun e he hp)).symm
  have hcounts : entriesOf restartCounts podName = entriesOf (ownCounts uid restartCounts) podName := by
    unfold entriesOf ownCounts
    rw [iter_filter]
    exact (filter_filter_of_imp fun e he hp => decide_eq_true (hcnt e he hp)).symm
  obtain ⟨h₁, h₂, h₃, h₄⟩ := lookups_congr hentries
  refine ⟨h₁, h₁, h₂, h₃, h₄, ?_⟩
  show HashMap.ofList ((entriesOf restartCounts podName).map _) =
    HashMap.ofList ((entriesOf (ownCounts uid restartCounts) podName).map _)
  rw [hcounts]

theorem looksUpOwn_of_namesApart (h : NamesApart (resources s.pt.store) s.known) : LooksUpOwn s := by
  intro r hr hpod running' hperm counts' hperm'
  have hmatch : ∀ cid, startsWith cid (r.name ++ "-") = true → matchesPod cid r = true := by
    intro cid hcid
    simp [matchesPod, hpod, hcid]
  refine seesOnlyOwn_of_startedFor (fun e he hpre => ?_) fun e he hpre => ?_
  · have hmem : e ∈ s.sup.running.iter := (hperm.map _).mem_iff.1 he
    refine h r hr (e.1, e.2.startedFor) ?_ (hmatch _ hpre)
    exact mem_append_left _ (mem_append_left _ (mem_append_left _
      (mem_flatMap.2 ⟨e, hmem, mem_cons_self⟩)))
  · have hmem : e ∈ s.sup.restartCounts.iter := (hperm'.map _).mem_iff.1 he
    refine h r hr (e.1, e.2.startedFor) ?_ (hmatch _ hpre)
    exact mem_append_left _ (mem_append_left _ (mem_append_right _
      (mem_map.2 ⟨e, hmem, rfl⟩)))

/-! ### The steps make no new ids -/

theorem NamesApart.mono {pods' : List AnyResource} {ids' : List (String × String)} (h : NamesApart pods ids)
    (hpods : ∀ r ∈ pods', r ∈ pods) (hids : ∀ x ∈ ids', x ∈ ids) : NamesApart pods' ids' :=
  fun r hr x hx => h r (hpods r hr) x (hids x hx)

theorem mem_known {x : String × String} : x ∈ s.known ↔
    (∃ cid rc, s.sup.running.get cid = some rc ∧ x ∈ entryIds (cid, rc)) ∨
    (∃ cid c, s.sup.restartCounts.get cid = some c ∧ x = (cid, c.startedFor)) ∨
    (∃ t ∈ s.starts, x ∈ t.known) ∨ ∃ t ∈ s.exits, ∃ d ∈ t.todo, x = (d.containerId, d.startedFor) := by
  simp only [PodSystem.known, mem_append, mem_flatMap, mem_map, Prod.exists,
    mem_iter, or_assoc, @eq_comm _ x]

/-- The ids of a start after a move, and those it left in the running map, are ids it knew or that
were in the map. -/
theorem known_startMove {sup sup' : Supervisor} {task task' : StartTask} (hspec : task'.spec = task.spec)
    (hmove : StartMove sup task.spec task.phase e sup' task'.phase) :
    sup'.restartCounts = sup.restartCounts ∧ (∀ x ∈ task'.known, x ∈ task.known) ∧
      ∀ cid rc, sup'.running.get cid = some rc → sup.running.get cid = some rc ∨
        ∀ x ∈ entryIds (cid, rc), x ∈ task.known := by
  obtain ⟨spec, phase⟩ := task
  obtain ⟨spec', phase'⟩ := task'
  obtain rfl : spec' = spec := hspec
  have hspecIds : ∀ x ∈ spec'.ids.map (·, spec'.podUid), x ∈ (⟨spec', phase⟩ : StartTask).known := by
    intro x hx
    refine mem_append_left _ ?_
    rw [map_append]
    exact mem_append_left _ hx
  -- a phase without progress knows only the ids of the pod
  have hidle : ∀ phase', (⟨spec', phase'⟩ : StartTask).prepared = [] →
      (⟨spec', phase'⟩ : StartTask).todo = [] → ∀ x ∈ (⟨spec', phase'⟩ : StartTask).known,
        x ∈ (⟨spec', phase⟩ : StartTask).known := by
    intro phase' hp ht x hx
    refine hspecIds x ?_
    simpa [known, hp, ht] using hx
  have hcounts : sup'.restartCounts = sup.restartCounts := by cases hmove <;> rfl
  refine ⟨hcounts, ?_, fun cid rc hget => ?_⟩
  · cases hmove with
    | cgroup =>
      refine fun x hx => hspecIds x ?_
      simpa [known, todo, prepared, ContainerSpec.ids] using hx
    | spawnFails e _ _ =>
      intro x hx
      simp only [known, todo, prepared, map_append, map_nil,
        append_nil, mem_append] at hx ⊢
      exact hx.imp_left Or.inl
    | spawned pid _ _ =>
      intro x hx
      simp only [known, todo, prepared, map_append, map_cons,
        flatMap_append, flatMap_cons, flatMap_nil, append_nil, mem_append,
        mem_cons] at hx ⊢
      -- the ids of the new container are the id that was first in the queue
      rcases hx with (hx | hx) | hx | hx
      · exact .inl (.inl hx)
      · exact .inl (.inr (.inr hx))
      · exact .inr hx
      · refine .inl (.inr (.inl ?_))
        simpa [entryIds, buildRunningFromInstance, buildContainerInstance] using hx
    | _ => exact hidle _ rfl rfl
  · rcases StartMove.get_running (t := ⟨spec', phase⟩) hmove hget with hold | ⟨cfg, hcfg, rfl, rfl⟩ | hmem
    · exact .inl hold
    · refine .inr fun x hx =>
        hspecIds x (mem_map.2 ⟨cfg.containerId, mem_map_of_mem hcfg, ?_⟩)
      simpa [entryIds, placeholder, eq_comm] using hx
    · exact .inr fun x hx => mem_append_right _ (mem_flatMap.2 ⟨(cid, rc), hmem, hx⟩)

/-- A state whose ids are all among `ids`, and whose resources are among `pods`, is apart when those
are. -/
theorem namesApart_known (h : NamesApart pods ids) (hpods : ∀ r ∈ resources s.pt.store, r ∈ pods)
    (hrun : ∀ cid rc, s.sup.running.get cid = some rc → ∀ x ∈ entryIds (cid, rc), x ∈ ids)
    (hcnt : ∀ cid c, s.sup.restartCounts.get cid = some c → (cid, c.startedFor) ∈ ids)
    (hstarts : ∀ t ∈ s.starts, ∀ x ∈ t.known, x ∈ ids)
    (hexits : ∀ t ∈ s.exits, ∀ d ∈ t.todo, (d.containerId, d.startedFor) ∈ ids) :
    NamesApart (resources s.pt.store) s.known := by
  refine h.mono hpods fun x hx => ?_
  rcases mem_known.1 hx with
    ⟨cid, rc, hget, hx⟩ | ⟨cid, c, hget, rfl⟩ | ⟨t, ht, hx⟩ | ⟨t, ht, d, hd, rfl⟩
  · exact hrun cid rc hget x hx
  · exact hcnt cid c hget
  · exact hstarts t ht x hx
  · exact hexits t ht d hd

section Known

variable (s : PodSystem)

theorem known_of_running {rc : RunningContainer} (h : s.sup.running.get cid = some rc) (x : String × String)
    (hx : x ∈ entryIds (cid, rc)) : x ∈ s.known :=
  mem_known.2 (.inl ⟨cid, rc, h, hx⟩)

theorem known_of_counts {c : RestartCount} (h : s.sup.restartCounts.get cid = some c) :
    (cid, c.startedFor) ∈ s.known :=
  mem_known.2 (.inr (.inl ⟨cid, c, h, rfl⟩))

theorem known_of_starts {t : StartTask} (h : t ∈ s.starts) (x : String × String) (hx : x ∈ t.known) :
    x ∈ s.known :=
  mem_known.2 (.inr (.inr (.inl ⟨t, h, hx⟩)))

theorem known_of_exits {t : ExitTask} (h : t ∈ s.exits) {d : Exited} (hd : d ∈ t.todo) :
    (d.containerId, d.startedFor) ∈ s.known :=
  mem_known.2 (.inr (.inr (.inr ⟨t, h, d, hd, rfl⟩)))

end Known

theorem mem_resources :
    r ∈ resources store ↔ ∃ uid t, store.resources.get uid = some t ∧ t.resource = r := by
  simp only [resources, ResourceStore.getAll, HashMap.values, map_map, mem_map, Prod.exists,
    mem_iter, Function.comp_apply]

theorem mem_resources_apply (h : r' ∈ resources (store.apply r)) : r' = r ∨ r' ∈ resources store := by
  obtain ⟨uid, t, hget, rfl⟩ := mem_resources.1 h
  unfold ResourceStore.apply at hget
  rw [get_insert] at hget
  split_ifs at hget
  · cases hget
    exact .inl rfl
  · exact .inr (mem_resources.2 ⟨uid, t, hget, rfl⟩)

theorem mem_resources_delete (h : r' ∈ resources (store.delete r)) : r' ∈ resources store := by
  obtain ⟨uid, t, hget, rfl⟩ := mem_resources.1 h
  unfold ResourceStore.delete at hget
  rw [get_remove] at hget
  split_ifs at hget
  exact mem_resources.2 ⟨uid, t, hget, rfl⟩

theorem known_of_collectExited {d : Exited} (h : d ∈ collectExited s.sup.running pids) :
    (d.containerId, d.startedFor) ∈ s.known := by
  unfold collectExited at h
  obtain ⟨rc, hrc, hd⟩ := mem_filterMap.1 h
  obtain ⟨⟨cid, rc'⟩, he, rfl⟩ := mem_map.1 hrc
  simp only [Option.bind_eq_bind, Option.bind_eq_some_iff, Option.some.injEq] at hd
  obtain ⟨pid, -, code, -, rfl⟩ := hd
  exact known_of_running s (mem_iter.1 he) _ (mem_cons_of_mem _ mem_cons_self)

theorem resources_settleExit (pt : ProcessTracker) (d : Exited) (decision : ExitDecision) :
    resources (settleExit pt d decision).store = resources pt.store := by
  unfold settleExit
  split_ifs
  · rfl
  · rfl
  · rfl
  · exact resources_updateState _ _ _
  · exact resources_updateState _ _ _

section Step

variable {s' : PodSystem}

section

variable (h : NamesApart (resources s.pt.store) s.known)
include h

theorem namesApart_startPod {spec : ContainerSpec}
    (hok : StaysApart s (.startPod spec)) (hstep : s.step (.startPod spec) = some s') :
    NamesApart (resources s'.pt.store) s'.known := by
  cases hstep
  have hall : NamesApart (resources s.pt.store) (s.known ++ spec.ids.map (·, spec.podUid)) := by
    intro r hr x hx
    rcases mem_append.1 hx with hx | hx
    · exact h r hr x hx
    · exact hok r hr x hx
  refine namesApart_known hall (fun _ => id)
    (fun _ _ hget x hx => mem_append_left _ (known_of_running s hget x hx))
    (fun _ _ hget => mem_append_left _ (known_of_counts s hget)) (fun t ht x hx => ?_)
    fun _ ht _ hd => mem_append_left _ (known_of_exits s ht hd)
  rcases mem_append.1 ht with ht | ht
  · exact mem_append_left _ (known_of_starts s ht x hx)
  · obtain rfl := mem_singleton.1 ht
    refine mem_append_right _ ?_
    simpa [known, todo, prepared] using hx

theorem namesApart_start
    (hstep : s.step (.start t e) = some s') : NamesApart (resources s'.pt.store) s'.known := by
  obtain ⟨sup', starts', task, task', others, ht, hf, hperm, hperm', rfl⟩ := stepAt_map_eq_some hstep
  obtain ⟨hspec, hmove⟩ := move_of_step hf
  obtain ⟨hcounts, hknown, hrunning⟩ := known_startMove hspec hmove
  have htask : task ∈ s.starts := mem_of_getElem? ht
  refine namesApart_known h (fun _ => id) (fun cid rc hget x hx => ?_) (fun cid c hget => ?_)
    (fun t ht x hx => ?_) fun _ ht _ hd => known_of_exits s ht hd
  · rcases hrunning cid rc hget with hold | hnew
    · exact known_of_running s hold x hx
    · exact known_of_starts s htask x (hnew x hx)
  · have hget' : sup'.restartCounts.get cid = some c := hget
    rw [hcounts] at hget'
    exact known_of_counts s hget'
  · rcases mem_cons.1 (hperm'.mem_iff.1 ht) with rfl | ht
    · exact known_of_starts s htask x (hknown x hx)
    · exact known_of_starts s (hperm.mem_iff.2 (mem_cons_of_mem _ ht)) x hx

theorem namesApart_stop {e : StopEvent}
    (hstep : s.step (.stop t e) = some s') : NamesApart (resources s'.pt.store) s'.known := by
  obtain ⟨sup', stops', task, task', others, -, hf, -, -, rfl⟩ := stepAt_map_eq_some hstep
  obtain ⟨hrunning, hcounts⟩ := StopTask.get_of_step hf
  exact namesApart_known h (fun _ => id) (fun cid rc hget => known_of_running s (hrunning cid rc hget))
    (fun cid c hget => known_of_counts s (hcounts cid c hget)) (fun _ => known_of_starts s)
    fun _ ht _ => known_of_exits s ht

theorem namesApart_exit {e : ExitEvent}
    (hstep : s.step (.exit t e) = some s') : NamesApart (resources s'.pt.store) s'.known := by
  obtain ⟨pt', exits', task, task', others, ht, hf, hperm, hperm', rfl⟩ := stepAt_map_eq_some hstep
  have htask : task ∈ s.exits := mem_of_getElem? ht
  obtain ⟨d, todo, htodo, hcases⟩ := ExitTask.step_cases hf
  have hd : d ∈ task.todo := by rw [htodo]; exact mem_cons_self
  -- what remains of the task was there before
  have hexits : ∀ t ∈ exits', ∀ d ∈ t.todo, (d.containerId, d.startedFor) ∈ s.known := by
    intro t ht d' hd'
    rcases mem_cons.1 (hperm'.mem_iff.1 ht) with rfl | ht
    · refine known_of_exits s htask ?_
      rcases hcases with ⟨-, -, hsame⟩ | ⟨-, -, hsame⟩ | ⟨-, hrest, -⟩
      · exact hsame ▸ hd'
      · exact hsame ▸ hd'
      · rw [htodo]
        exact mem_cons_of_mem _ (hrest ▸ hd')
    · exact known_of_exits s (hperm.mem_iff.2 (mem_cons_of_mem _ ht)) hd'
  rcases hcases with ⟨-, rfl, -⟩ | ⟨-, rfl, -⟩ | ⟨-, -, decision, rfl⟩
  · exact namesApart_known h (fun _ => id) (fun _ _ => known_of_running s) (fun _ _ => known_of_counts s)
      (fun _ => known_of_starts s) hexits
  · refine namesApart_known h (fun _ => id) (fun cid rc hget => ?_) (fun _ _ => known_of_counts s)
      (fun _ => known_of_starts s) hexits
    have hrem : (s.sup.running.remove d.containerId).get cid = some rc := hget
    rw [get_remove] at hrem
    split_ifs at hrem
    exact known_of_running s hrem
  · obtain ⟨hrun, -, hcounts⟩ := sup_settleExit s.pt d decision
    refine namesApart_known h (fun r hr => resources_settleExit s.pt d decision ▸ hr)
      (fun cid rc hget => known_of_running s (hrun ▸ hget)) (fun cid c hget => ?_)
      (fun _ => known_of_starts s) hexits
    have hget' : (settleExit s.pt d decision).sup.restartCounts.get cid = some c := hget
    rcases hcounts with hcounts | ⟨count, hcounts⟩
    · rw [hcounts] at hget'
      exact known_of_counts s hget'
    · rw [hcounts, get_insert] at hget'
      split_ifs at hget' with hcid
      · cases hget'
        rw [hcid]
        exact known_of_exits s htask hd
      · exact known_of_counts s hget'

theorem namesApart_reaped
    (hstep : s.step (.reaped pids) = some s') : NamesApart (resources s'.pt.store) s'.known := by
  cases hstep
  refine namesApart_known h (fun _ => id) (fun _ _ => known_of_running s) (fun _ _ => known_of_counts s)
    (fun _ => known_of_starts s) fun t ht d hd => ?_
  rcases mem_append.1 ht with ht | ht
  · exact known_of_exits s ht hd
  · obtain rfl := mem_singleton.1 ht
    exact known_of_collectExited hd

theorem namesApart_probe {ready : Bool}
    (hstep : s.step (.probe cid ready) = some s') : NamesApart (resources s'.pt.store) s'.known := by
  cases hstep
  refine namesApart_known h (fun _ => id) (fun c rc hget x hx => ?_) (fun _ _ => known_of_counts s)
    (fun _ => known_of_starts s) fun _ ht _ => known_of_exits s ht
  have hget' : (s.sup.running.update cid ({ · with ready })).get c = some rc := hget
  rw [get_update] at hget'
  split_ifs at hget'
  · obtain ⟨rc', hrc', rfl⟩ := Option.map_eq_some_iff.1 hget'
    exact known_of_running s hrc' x hx
  · exact known_of_running s hget' x hx

theorem namesApart_applyResource
    (hok : StaysApart s (.applyResource r)) (hstep : s.step (.applyResource r) = some s') :
    NamesApart (resources s'.pt.store) s'.known := by
  cases hstep
  have hall : NamesApart (r :: resources s.pt.store) s.known := by
    intro r' hr' x hx
    rcases mem_cons.1 hr' with rfl | hr'
    · exact hok r' mem_cons_self x hx
    · exact h r' hr' x hx
  exact hall.mono (fun r' hr' => mem_cons.2 (mem_resources_apply hr')) fun _ => id

end

end Step

/-- Every step keeps ids and names apart, if starting a pod and storing a resource do. -/
theorem namesApart_step (s : PodSystem) (e : PodEvent) (s' : PodSystem)
    (h : NamesApart (resources s.pt.store) s.known) (hok : StaysApart s e)
    (hstep : s.step e = some s') : NamesApart (resources s'.pt.store) s'.known := by
  cases e with
  | startPod spec => exact namesApart_startPod h hok hstep
  | start t e => exact namesApart_start h hstep
  | stopPod spec =>
    cases hstep
    exact h
  | stop t e => exact namesApart_stop h hstep
  | reaped pids => exact namesApart_reaped h hstep
  | exit t e => exact namesApart_exit h hstep
  | delayed d =>
    simp only [PodSystem.step] at hstep
    split_ifs at hstep
    cases hstep
    exact h.mono (fun r hr => resources_updateState s.pt.store d.uid .pending ▸ hr) fun _ => id
  | applyResource r => exact namesApart_applyResource h hok hstep
  | deleteResource r =>
    cases hstep
    exact h.mono (fun _ => mem_resources_delete) fun _ => id
  | updateState uid state =>
    cases hstep
    exact h.mono (fun r hr => resources_updateState s.pt.store uid state ▸ hr) fun _ => id
  | registerSubnet name cidrStr =>
    simp only [PodSystem.step] at hstep
    split at hstep
    · cases hstep
      exact h
    · cases hstep
      exact h
  | probe cid ready => exact namesApart_probe h hstep

/-- In every run from a state without pods that never starts or stores a pod with a clashing name,
every stored pod is looked up by its own containers in every state. -/
theorem looksUpOwn_along (nm : NetMux) (store : ResourceStore) (es : List PodEvent)
    (hok : Along PodSystem.step StaysApart (PodSystem.init nm store) es) :
    Always PodSystem.step LooksUpOwn (PodSystem.init nm store) es :=
  always_of_invariant namesApart_step (fun _ => looksUpOwn_of_namesApart) (fun _ _ _ hx => nomatch hx) hok

private def podWith (name : String) : AnyResource :=
  .pod { metadata := { name := some name }, spec := some { containers := [{ name := "app" }] } }

private def startsOf (names : List String) : List PodEvent :=
  names.map (fun name => .applyResource (podWith name)) ++
    names.map fun name => .startPod (buildSpec (podWith name))

private def emptySystem : PodSystem :=
  .init ⟨IpPool.new ⟨Ipv4Addr.new 10 42 0 0, 30⟩, ∅, 30, Ipv4Addr.new 10 42 0 1⟩ .new

private def runStart (t : Nat) : List PodEvent :=
  [.start t .checkDuplicate, .start t .insertPlaceholders, .start t (.createCgroup (.ok ())),
    .start t (.spawnNext (.ok "") ⟨true, .ok (100 + t), .ok true, .ok (), .attached 4 5, []⟩),
    .start t .record]

/-- Two pods whose names do not start one another's container ids. -/
theorem looksUpOwn_along_web_api : Always PodSystem.step LooksUpOwn emptySystem
    (startsOf ["web", "api"] ++ runStart 0 ++ runStart 1) :=
  looksUpOwn_along _ _ _ (by decide +kernel)

/-- The pods `web` and `web-1` are stored and `web-1` is started: `web` is taken to be running. -/
theorem web_sees_containers_of_web_1 : ∃ s ∈ run PodSystem.step emptySystem
    (startsOf ["web", "web-1"] ++ runStart 1), podWith "web" ∈ resources s.pt.store ∧
      s.sup.running.keys = ["web-1-app"] ∧
      isRunning s.sup.running "web" = true ∧
      isRunning (ownRunning "Pod/default/web" s.sup.running) "web" = false ∧ ¬ LooksUpOwn s := by
  have hrun : ∃ s ∈ run PodSystem.step emptySystem (startsOf ["web", "web-1"] ++ runStart 1),
      podWith "web" ∈ resources s.pt.store ∧ s.sup.running.keys = ["web-1-app"] ∧
      isRunning s.sup.running "web" = true ∧
      isRunning (ownRunning "Pod/default/web" s.sup.running) "web" = false := by decide +kernel
  obtain ⟨s, hs, hmem, hkeys, hweb, hown⟩ := hrun
  refine ⟨s, hs, hmem, hkeys, hweb, hown, fun h => ?_⟩
  have hsame := (h _ hmem rfl _ (List.Perm.refl _) _ (List.Perm.refl _)).isRunning
  have huid : (podWith "web").uid = "Pod/default/web" := by decide
  have hname : (podWith "web").name = "web" := rfl
  rw [huid, hname, hweb, hown] at hsame
  cases hsame

end Z8s.Pods
