import Z8s.Netmux.Proofs.NetMuxProofs
import Z8s.Pods.Proofs.SystemProofs
import Z8s.Pods.Safety

/-!
# Proofs: no address is lost

The network engine's pools with the addresses taken from them are accounted for (`Accounted`): the
holders of addresses are the entries of the running map and the containers that starts have
prepared.
-/

namespace Z8s.Pods

open Rust Collections Netmux Cri Scheduler Transition Allocation

variable {running : HashMap String RunningContainer} {s : PodSystem} {others : List StartTask}
  {ip : Ipv4Addr}
variable {starts' : List StartTask} {task task' : StartTask} {s' : PodSystem}

def RecordedIp (running : HashMap String RunningContainer) (ip : Ipv4Addr) : Prop :=
  ∃ cid rc, running.get cid = some rc ∧ rc.inst.podIp = some ip

/-- Some start has spawned a container with the address and not recorded it yet. -/
def PreparedIp (starts : List StartTask) (ip : Ipv4Addr) : Prop :=
  ∃ t ∈ starts, ∃ e ∈ t.prepared, e.2.inst.podIp = some ip

def HeldIp (running : HashMap String RunningContainer) (starts : List StartTask) (ip : Ipv4Addr) :
    Prop :=
  RecordedIp running ip ∨ PreparedIp starts ip

theorem preparedIp_cons {t : StartTask} :
    PreparedIp (t :: others) ip ↔
      (∃ e ∈ t.prepared, e.2.inst.podIp = some ip) ∨ PreparedIp others ip := by
  simp [PreparedIp]

theorem heldIp_perm {starts : List StartTask} (h : starts.Perm starts') (hip : HeldIp running starts ip) :
    HeldIp running starts' ip := by
  rcases hip with hip | ⟨t, ht, he⟩
  · exact .inl hip
  · exact .inr ⟨t, h.mem_iff.1 ht, he⟩

/-- A move that keeps the recorded addresses and the prepared containers of its task keeps all
holders. -/
theorem heldIp_cons {running' : HashMap String RunningContainer}
    (hrec : RecordedIp running ip → RecordedIp running' ip)
    (hprep : ∀ e ∈ task.prepared, e ∈ task'.prepared) (h : HeldIp running (task :: others) ip) :
    HeldIp running' (task' :: others) ip := by
  rcases h with h | h
  · exact .inl (hrec h)
  · rcases preparedIp_cons.1 h with ⟨e, he, hip⟩ | h
    · exact .inr (preparedIp_cons.2 (.inl ⟨e, hprep e he, hip⟩))
    · exact .inr (preparedIp_cons.2 (.inr h))

def Accounts (s : PodSystem) : Prop :=
  Accounted s.taken s.sup.netmux.freeOf (HeldIp s.sup.running s.starts)

theorem noLeak_of_accounts (h : Accounts s) : NoLeak s := by
  rintro hdone ⟨i, ip⟩ hx hout
  rcases h i ip hx hout with ⟨cid, rc, hget, hip⟩ | ⟨t, ht, e, he, -⟩
  · exact ⟨(cid, rc), HashMap.mem_iter.2 hget, hip⟩
  · -- a start that is done has nothing prepared
    have hd := hdone t ht
    unfold StartTask.isDone at hd
    unfold StartTask.prepared at he
    cases hp : t.phase <;> simp [hp] at hd he

/-! ### What happens to recorded addresses -/

theorem recordedIp_insertPlaceholders (spec : ContainerSpec) (h : RecordedIp running ip) :
    RecordedIp (insertPlaceholders running spec).1 ip := by
  obtain ⟨cid, rc, hget, hip⟩ := h
  rcases get_insertPlaceholders running spec cid with ⟨-, hsame⟩ | ⟨hnone, -⟩
  · exact ⟨cid, rc, hsame.trans hget, hip⟩
  · rw [hget] at hnone
    cases hnone

theorem recordedIp_or_released {cids : List String} (hrel : ∀ cid ∈ cids, EntryReleased s cid)
    (hkept : ∀ cid, cid ∉ cids → running.get cid = s.sup.running.get cid) (h : RecordedIp s.sup.running ip) :
    RecordedIp running ip ∨ ∀ i, (i, ip) ∈ s.taken → ip ∈ s.sup.netmux.freeOf i := by
  obtain ⟨cid, rc, hget, hip⟩ := h
  by_cases hmem : cid ∈ cids
  · exact .inr fun i hi => hrel cid hmem rc hget (i, ip) hi hip
  · exact .inl ⟨cid, rc, (hkept cid hmem).trans hget, hip⟩

theorem accounted_drop {running' : HashMap String RunningContainer}
    (h : Accounted s.taken s.sup.netmux.freeOf (HeldIp running (task :: others)))
    (hrec : ∀ ip, RecordedIp running ip → RecordedIp running' ip ∨
      ∀ i, (i, ip) ∈ s.taken → ip ∈ s.sup.netmux.freeOf i)
    (hprep : ∀ e ∈ task.prepared, (∀ ip, e.2.inst.podIp = some ip → RecordedIp running' ip) ∨ Released s e.2) :
    Accounted s.taken s.sup.netmux.freeOf (HeldIp running' (task' :: others)) := by
  refine h.drop fun ip hip => ?_
  rcases hip.imp_right preparedIp_cons.1 with hip | ⟨e, he, hip⟩ | hip
  · exact (hrec ip hip).imp_left .inl
  · rcases hprep e he with hnew | hrel
    · exact .inl (.inl (hnew ip hip))
    · exact .inr fun i hi => hrel (i, ip) hi hip
  · exact .inl (.inr (preparedIp_cons.2 (.inr hip)))

/-! ### Attachments -/

theorem accounted_attachContainer {taken : List (Option String × Ipv4Addr)} {nm nm' : NetMux}
    {held held' : Ipv4Addr → Prop} {subnet : Option String} {env : SpawnEnv}
    {podIp : Option Ipv4Addr} {idx : Option Nat} (h : Accounted taken nm.freeOf held)
    (hatt : attachContainer nm subnet env = ((podIp, idx), nm'))
    (hok : AttachReturns nm subnet env.order env.veth)
    (hmono : ∀ a, held a → held' a) (hnew : ∀ a, podIp = some a → held' a) :
    Accounted (StartTask.takenFrom nm subnet ++ taken) nm'.freeOf held' := by
  unfold StartTask.takenFrom
  unfold attachContainer NetMux.attachPod at hatt
  cases htake : nm.takeIp subnet with
  | error e =>
    simp only [htake, Prod.mk.injEq] at hatt
    rw [← hatt.2]
    exact h.imp hmono
  | ok r =>
    obtain ⟨ip, nm₁⟩ := r
    obtain ⟨hmem, hfree⟩ := NetMux.freeOf_takeIp htake
    simp only [htake] at hatt
    -- without a holder the address is accounted for once it is free again
    have hback : ∀ order, ip ∈ (nm₁.releaseIp ip order).freeOf subnet →
        Accounted ((subnet, ip) :: taken) (nm₁.releaseIp ip order).freeOf held' := by
      intro order hin i a ha hout
      rcases List.mem_cons.1 ha with heq | ha
      · cases heq
        exact absurd hin hout
      · by_cases hai : a = ip ∧ i = subnet
        · obtain ⟨rfl, rfl⟩ := hai
          exact absurd hin hout
        · refine hmono a (h i a ha fun hfr => hout (NetMux.freeOf_subset_releaseIp nm₁ ip order i ?_))
          rw [hfree]
          by_cases hi : i = subnet
          · subst hi
            rw [Function.update_self]
            exact Finset.mem_erase.2 ⟨fun hae => hai ⟨hae, rfl⟩, hfr⟩
          · rw [Function.update_of_ne hi]
            exact hfr
    have hrollback : (∀ n ∈ subnet, (nm.freeOf (some n)).image (nm.subnetOf · env.order) ⊆ {some n}) →
        ip ∈ (nm₁.releaseIp ip env.order).freeOf subnet := by
      intro hret
      rw [NetMux.freeOf_releaseIp, NetMux.subnetOf_takeIp htake]
      cases subnet with
      | none => simp
      | some n =>
        have hn : nm.subnetOf ip env.order = some n :=
          Finset.mem_singleton.1 (hret n rfl (Finset.mem_image_of_mem _ hmem))
        simp [hn]
    unfold NetMux.finishAttach at hatt
    cases hveth : env.veth with
    | createFails =>
      rw [hveth] at hok
      rw [show nm.freeOf subnet = ∅ from hok] at hmem
      cases hmem
    | linkUpFails hostIdx peerIdx | routeFails hostIdx peerIdx =>
      rw [hveth] at hok
      simp only [hveth, Prod.mk.injEq] at hatt
      rw [← hatt.2]
      exact hback _ (hrollback hok)
    | attached hostIdx peerIdx =>
      simp only [hveth, Prod.mk.injEq] at hatt
      obtain ⟨⟨rfl, -⟩, rfl⟩ := hatt
      rw [hfree]
      exact h.take hmono (hnew ip rfl)

/-! ### The steps -/

theorem takes_spawnNext (sup : Supervisor) (spec : ContainerSpec) (cfg : ContainerConfig)
    (todo : List ContainerConfig) (prepared : List (String × RunningContainer))
    (unpackImage : Except Error String) (env : SpawnEnv) :
    (⟨spec, .spawning (cfg :: todo) prepared⟩ : StartTask).takes sup (.spawnNext unpackImage env) =
      if (prepareRootfs cfg unpackImage).isOk && env.attaches cfg then
        StartTask.takenFrom sup.netmux spec.subnet
      else [] := rfl

theorem accounts_startMove {sup' : Supervisor} {e : StartEvent} (h : Accounts s)
    (hok : StartReturns s task e) (hmove : StartMove s.sup task.spec task.phase e sup' task'.phase)
    (hperm : s.starts.Perm (task :: others)) (hperm' : starts'.Perm (task' :: others)) :
    Accounted (task.takes s.sup e ++ s.taken) sup'.netmux.freeOf (HeldIp sup'.running starts') := by
  have h₁ : Accounted s.taken s.sup.netmux.freeOf (HeldIp s.sup.running (task :: others)) :=
    h.imp fun _ => heldIp_perm hperm
  suffices h₂ : Accounted (task.takes s.sup e ++ s.taken) sup'.netmux.freeOf
      (HeldIp sup'.running (task' :: others)) from
    h₂.imp fun _ => heldIp_perm hperm'.symm
  clear h hperm hperm'
  obtain ⟨spec, phase⟩ := task
  obtain ⟨spec', phase'⟩ := task'
  cases hmove with
  -- the moves before the first spawn find nothing prepared
  | duplicate hdup | fresh hdup | cgroup | cgroupFails e =>
    exact h₁.imp fun _ => heldIp_cons id fun _ he => absurd he List.not_mem_nil
  | place =>
    exact h₁.imp fun _ => heldIp_cons (recordedIp_insertPlaceholders spec)
      fun _ he => absurd he List.not_mem_nil
  | @unpackFails cfg todo prepared unpackImage env e hprep =>
    have hrel : ∀ e ∈ prepared, Released s e.2 := by
      have hcfg := hok cfg rfl
      rw [hprep] at hcfg
      exact hcfg
    rw [takes_spawnNext, hprep]
    exact accounted_drop h₁ (fun _ => .inl) fun e he => .inr (hrel e he)
  | @spawnFails cfg todo prepared unpackImage env rootfs e hprep hfail =>
    rw [takes_spawnNext, if_neg (by simp [SpawnEnv.attaches, hfail]), List.nil_append]
    exact h₁.imp fun _ => heldIp_cons id fun _ he => he
  | @spawned cfg todo prepared unpackImage env rootfs podIp idx nm pid hprep hnet =>
    have hisOk : (prepareRootfs cfg unpackImage).isOk = true := by rw [hprep]; rfl
    rw [takes_spawnNext, hisOk, Bool.true_and]
    unfold NetworkOf at hnet
    by_cases hatt : env.attaches cfg = true
    · rw [if_pos hatt] at hnet ⊢
      have hret := hok cfg rfl
      rw [if_pos hisOk] at hret
      refine accounted_attachContainer h₁ hnet (hret hatt) (fun _ => heldIp_cons id fun _ he =>
        List.mem_append_left _ he) fun ip hip => .inr (preparedIp_cons.2 (.inl ?_))
      exact ⟨_, List.mem_append_right _ (List.mem_singleton.2 rfl), hip⟩
    · rw [if_neg hatt] at hnet ⊢
      obtain ⟨-, rfl⟩ := Prod.mk.inj hnet
      exact h₁.imp fun _ => heldIp_cons id fun _ he => List.mem_append_left _ he
  | @unplace e prepared =>
    exact accounted_drop h₁ (fun _ => recordedIp_or_released hok.1 fun _ => HashMap.get_removeAll_of_notMem)
      fun e he => .inr (hok.2 e he)
  | @record prepared =>
    refine accounted_drop h₁
      (fun _ => recordedIp_or_released hok.2 fun _ => HashMap.get_insertAll_of_notMem _ _) ?_
    rintro ⟨cid, rc⟩ he
    exact .inl fun ip hip => ⟨cid, rc, HashMap.get_insertAll_of_mem _ hok.1 he, hip⟩

theorem accounts_of_same (h : Accounts s) (htaken : s'.taken = s.taken) (hnm : s'.sup.netmux = s.sup.netmux)
    (hrec : ∀ ip, RecordedIp s.sup.running ip → RecordedIp s'.sup.running ip)
    (hstarts : ∀ t ∈ s.starts, t ∈ s'.starts) : Accounts s' := by
  unfold Accounts
  rw [htaken, hnm]
  refine h.imp fun ip hip => ?_
  rcases hip with hip | ⟨t, ht, he⟩
  · exact .inl (hrec ip hip)
  · exact .inr ⟨t, hstarts t ht, he⟩

theorem accounts_of_remove {cid : String} (h : Accounts s) (hrel : EntryReleased s cid)
    (htaken : s'.taken = s.taken) (hnm : s'.sup.netmux = s.sup.netmux)
    (hrun : s'.sup.running = s.sup.running.remove cid) (hstarts : s'.starts = s.starts) : Accounts s' := by
  unfold Accounts
  rw [htaken, hnm, hrun, hstarts]
  refine h.drop fun ip hip => ?_
  rcases hip with hip | hip
  · have hone : ∀ c ∈ [cid], EntryReleased s c := by
      intro c hc
      rw [List.mem_singleton.1 hc]
      exact hrel
    exact (recordedIp_or_released hone (fun _ => HashMap.get_removeAll_of_notMem) hip).imp_left Or.inl
  · exact .inl (.inr hip)

theorem netmux_detachContainer (sup : Supervisor) (cid : String) (order : List String) :
    (detachContainer sup cid order).running = sup.running ∧
      ∀ i, sup.netmux.freeOf i ⊆ (detachContainer sup cid order).netmux.freeOf i := by
  refine ⟨running_detachContainer sup cid order, fun i => ?_⟩
  rcases detachContainer_cases sup cid order with ⟨rc, ip, -, -, -, heq⟩ | ⟨-, heq⟩
  · rw [heq]
    exact NetMux.freeOf_subset_releaseIp _ _ _ i
  · rw [heq]

/-- Every step that loses no address keeps all addresses accounted for. -/
theorem accounts_step (s : PodSystem) (e : PodEvent) (s' : PodSystem) (h : Accounts s)
    (hok : Returns s e) (hstep : s.step e = some s') : Accounts s' := by
  cases e with
  | startPod spec =>
    cases hstep
    exact accounts_of_same h rfl rfl (fun _ => id) fun _ ht => List.mem_append_left _ ht
  | start t e =>
    obtain ⟨sup', starts', task, task', others, ht, hf, hperm, hperm', rfl⟩ := stepAt_map_eq_some hstep
    have hmove := (StartTask.move_of_step hf).2
    show Accounted ((s.starts[t]?.map (·.takes s.sup e)).getD [] ++ s.taken) _ _
    rw [ht]
    exact accounts_startMove h (hok task ht) hmove hperm hperm'
  | stopPod spec | reaped pids | applyResource r | deleteResource r | updateState uid state =>
    cases hstep
    exact accounts_of_same h rfl rfl (fun _ => id) fun _ => id
  | stop t e =>
    obtain ⟨sup', stops', task, task', others, ht, hf, -, -, rfl⟩ := stepAt_map_eq_some hstep
    obtain ⟨cfg, todo, htodo, ⟨order, rfl, -, rfl, -⟩ | ⟨rfl, -, rfl, -⟩ | ⟨rfl, -, rfl, -⟩⟩ :=
      StopTask.step_cases hf
    · obtain ⟨hrun, hfree⟩ := netmux_detachContainer s.sup cfg.containerId order
      show Accounted s.taken _ (HeldIp (detachContainer s.sup cfg.containerId order).running s.starts)
      rw [hrun]
      exact h.grow hfree
    · exact accounts_of_remove h (hok task ht cfg (by rw [htodo]; rfl)) rfl rfl rfl rfl
    · exact accounts_of_same h rfl rfl (fun _ => id) fun _ => id
  | exit t e =>
    obtain ⟨pt', exits', task, task', others, ht, hf, -, -, rfl⟩ := stepAt_map_eq_some hstep
    obtain ⟨d, todo, htodo, ⟨rfl, rfl, -⟩ | ⟨rfl, rfl, -⟩ | ⟨rfl, -, decision, rfl⟩⟩ :=
      ExitTask.step_cases hf
    · exact accounts_of_same h rfl rfl (fun _ => id) fun _ => id
    · exact accounts_of_remove h (hok task ht d (by rw [htodo]; rfl)) rfl rfl rfl rfl
    · obtain ⟨hrun, hnm, -⟩ := sup_settleExit s.pt d decision
      exact accounts_of_same h rfl hnm (fun ip hip => hrun.symm ▸ hip) fun _ => id
  | delayed d =>
    simp only [PodSystem.step] at hstep
    split_ifs at hstep
    cases hstep
    exact accounts_of_same h rfl rfl (fun _ => id) fun _ => id
  | registerSubnet name cidrStr =>
    simp only [PodSystem.step] at hstep
    split at hstep
    · rename_i nm hreg
      cases hstep
      obtain ⟨cidr, -, hfree⟩ := NetMux.freeOf_registerSubnetCidr hreg
      show Accounted (s.taken.filter (·.1 ≠ some name)) nm.freeOf (HeldIp s.sup.running s.starts)
      rw [hfree]
      exact h.replace (some name) cidr.usable
    · cases hstep
      exact h
  | probe cid ready =>
    cases hstep
    refine accounts_of_same h rfl rfl (fun ip hip => ?_) fun _ => id
    obtain ⟨c, rc, hget, hrc⟩ := hip
    show RecordedIp (s.sup.running.update cid _) ip
    by_cases hc : c = cid
    · exact ⟨c, { rc with ready }, by rw [HashMap.get_update, if_pos hc, hget]; rfl, hrc⟩
    · exact ⟨c, rc, by rw [HashMap.get_update, if_neg hc, hget], hrc⟩

private def netmux : NetMux :=
  ⟨IpPool.new ⟨Ipv4Addr.new 10 42 0 0, 30⟩, ∅, 30, Ipv4Addr.new 10 42 0 1⟩

private def webSpec : ContainerSpec where
  podName := "web"
  podUid := "Pod/default/web"
  containers := [⟨"web-app", "app", "nginx", false, true⟩]
  subnet := none

private def startWeb : List PodEvent :=
  [.startPod webSpec, .start 0 .checkDuplicate, .start 0 .insertPlaceholders,
    .start 0 (.createCgroup (.ok ())),
    .start 0 (.spawnNext (.ok "/rootfs") ⟨true, .ok 100, .ok true, .ok (), .attached 4 5, []⟩),
    .start 0 .record]

end Z8s.Pods
