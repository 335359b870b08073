import Z8s.Control.Proofs.GoneProofs

/-!
# Proofs: deleted deployments stay deleted

From the list of its pods on, a deletion has every stored pod of the deployment in front of it, as long as
no new one is stored.
-/

namespace Z8s.Control

open Rust Collections Z8s.Types Netmux Cri Pods Compute Transition ResourceStore ControlSystem AnyResource

variable {deploy : Deployment}
variable {labels : BTreeMap String String} {r : AnyResource} {t t' : Deletion} {d d' : Daemon}
  {name : String} {s : ControlSystem} {e : ControlEvent}

theorem AllOrderly.orderly (h : AllOrderly s e) (uid : String) : Orderly uid s e := by
  unfold Orderly
  cases hcall : s.call e with
  | none => trivial
  | some call =>
    refine OrderlyCall.of_own fun _ => ?_
    have hown := h call (hcall ▸ rfl)
    rwa [Orderly, hcall] at hown

def DeletionInv (deploy : Deployment) (store : ResourceStore) : DeletionPhase → Prop
  | .listing | .done false => True
  | .listingPods deploy' labels => deploy' = deploy ∧ passLabels deploy = labels
  | .walking todo _ _ => ∀ r, store.Holds r → selects deploy r = true → r ∈ todo
  | .done true => ∀ r, store.Holds r → selects deploy r = false

theorem Move.holds {m m' : List (AnyResource × CallPhase)} {call : Option Call}
    (hmove : Move d m call d' m') (hr : d'.store.Holds r) :
    d.store.Holds r ∨ (call = some (.apply r) ∧ r.kind = "Pod") := by
  cases hmove with
  | quiet _ | spawn _ _ | start _ _ | stop _ => exact .inl hr
  | apply pod _ =>
    rcases holds_apply.1 hr with rfl | ⟨-, hr⟩
    · exact .inr ⟨rfl, rfl⟩
    · exact .inl hr
  | state _ _ _ | stopped _ => exact .inl (holds_updateState.1 hr)
  | delete _ | deleteOther _ _ => exact .inl (holds_delete.1 hr).2

theorem DeletionInv.mono {store store' : ResourceStore} (h : DeletionInv deploy store t.phase)
    (hholds : t.hasListed = true → ∀ r, store'.Holds r → selects deploy r = true → store.Holds r) :
    DeletionInv deploy store' t.phase := by
  unfold Deletion.hasListed at hholds
  cases hphase : t.phase with
  | listing => trivial
  | listingPods deploy' labels =>
    rw [hphase] at h
    exact h
  | walking todo call deploy' =>
    rw [hphase] at h hholds
    exact fun r hr hsel => h r (hholds rfl r hr hsel) hsel
  | done found =>
    cases found with
    | false => trivial
    | true =>
      rw [hphase] at h hholds
      intro r hr
      by_contra hsel
      rw [Bool.not_eq_false] at hsel
      rw [h r (hholds rfl r hr hsel)] at hsel
      cases hsel

theorem deletesPod_of_selects (hname : deploy.metadata.name = some name) (hsel : selects deploy r = true) :
    deletesPod (passNamespace deploy) (deployment deploy).name (passLabels deploy) r = true := by
  have hns := namespaceOf_of_selects hsel
  have hpath : (AnyResource.deployment deploy).name = passName deploy := by
    simp [AnyResource.name, AnyResource.metadata, passName, hname]
  cases r with
  | pod pod =>
    simp only [selects, Bool.and_eq_true] at hsel
    simp only [deletesPod, Bool.and_eq_true, beq_iff_eq, hpath]
    exact ⟨⟨hns, hsel.1.2⟩, hsel.1.1⟩
  | _ => simp [selects] at hsel

/-- What a step newly stores is no deployment, and the call tells it. -/
theorem holds_step {s' : ControlSystem} (hown : ∀ t ∈ s.daemon.pods.starts, OwnWork t)
    (hstep : s.step e = some s') (hr : s'.daemon.store.Holds r) :
    s.daemon.store.Holds r ∨ (s.call e = some (.apply r) ∧ r.kind ≠ "Deployment") := by
  have hmoves : ∀ {d' : Daemon} {m m' : List (AnyResource × CallPhase)},
      Move s.daemon m (s.call e) d' m' → d'.store.Holds r →
      s.daemon.store.Holds r ∨ (s.call e = some (.apply r) ∧ r.kind ≠ "Deployment") := by
    intro d' m m' hmove hr
    refine (hmove.holds hr).imp_right fun ⟨hcall, hkind⟩ => ⟨hcall, ?_⟩
    rw [hkind]
    decide
  cases e with
  | sweep i e =>
    obtain ⟨d', sweeps', task, task', others, hget, hmove, -, -, rfl⟩ := stepAt_map_eq_some hstep
    have hcall : s.call (.sweep i e) = task.call e := by simp [call, hget]
    exact hmoves (hcall ▸ Sweep.move_of_step hmove) hr
  | deletion i e =>
    obtain ⟨d', deletions', task, task', others, hget, hmove, -, -, rfl⟩ := stepAt_map_eq_some hstep
    have hcall : s.call (.deletion i e) = task.call e := by simp [call, hget]
    exact hmoves (hcall ▸ Deletion.move_of_step hmove) hr
  | detached i e =>
    obtain ⟨d', detached', task, task', others, hget, hmove, -, -, rfl⟩ := stepAt_map_eq_some hstep
    have hcall : s.call (.detached i e) = task.call e := by simp [call, hget]
    have hr' : d'.store.Holds r := hr
    exact hmoves (hcall ▸ Detached.move_of_step hmove) hr'
  | pods e =>
    simp only [step] at hstep
    split_ifs at hstep with hint
    obtain ⟨pods', hpods, rfl⟩ := Option.map_eq_some_iff.1 hstep
    exact .inl (((podMove_of_internal hint hown hpods).holds r).1 hr)
  | apply r' =>
    simp only [step] at hstep
    split_ifs at hstep with hkind
    cases hstep
    rcases holds_apply.1 hr with rfl | ⟨-, hr⟩
    · exact .inr ⟨rfl, hkind.2⟩
    · exact .inl hr

theorem Deletion.deletes_of_step {e : Deletion.Event} (hstep : t.step d e = some (d', t')) :
    t'.deletes deploy = t.deletes deploy := by
  obtain ⟨phase, rfl, -⟩ := Deletion.moves_of_step hstep
  rfl

/-- The request finds the deployment and then deletes its pods before the deployment itself. -/
theorem DeletionInv.step (hname : deploy.metadata.name = some name)
    (hlabels : (deploy.spec.bind fun s => s.selector.matchLabels) = some labels) {e : Deletion.Event}
    (h : DeletionInv deploy d.store t.phase) (hdeletes : t.deletes deploy = true)
    (hstored : ∀ r, d.store.Holds r → r.uid = (deployment deploy).uid → r = .deployment deploy)
    (hstep : t.step d e = some (d', t')) : DeletionInv deploy d'.store t'.phase := by
  simp only [Deletion.deletes, Bool.and_eq_true, beq_iff_eq] at hdeletes
  obtain ⟨⟨hkind, hns⟩, hpathName⟩ := hdeletes
  have hpass : passLabels deploy = labels := by simp [passLabels, hlabels]
  -- nothing is selected any more once the pods are walked through
  have hnone : ∀ {store' : ResourceStore}, (∀ r, store'.Holds r → d.store.Holds r) →
      (∀ r, d.store.Holds r → selects deploy r = true → r ∈ ([] : List AnyResource)) →
      ∀ r, store'.Holds r → selects deploy r = false := by
    intro store' hsub hempty r hr
    rw [← Bool.not_eq_true]
    exact fun hsel => absurd (hempty r (hsub r hr) hsel) List.not_mem_nil
  obtain ⟨phase, rfl, hmove⟩ := Deletion.moves_of_step hstep
  cases hmove with
  | @found trackers x hphase hperm hfind =>
    have hfound := List.find?_some hfind
    rw [Bool.and_eq_true, beq_iff_eq, beq_iff_eq, hpathName, hns] at hfound
    have hmem := hperm.mem_iff.1 (List.mem_of_find?_eq_some hfind)
    rw [hkind] at hmem
    obtain ⟨hget, hdeploy⟩ := mem_getByKind.1 hmem
    have huid : x.resource.uid = (deployment deploy).uid := by
      rw [uid, hdeploy, hfound.1, hfound.2]
      rfl
    rw [hstored x.resource (holds_of_get hget) huid, hkind]
    simp only [Deletion.found, hlabels]
    exact ⟨rfl, hpass⟩
  | notFound => trivial
  | @listPods trackers deploy' labels' hphase hperm =>
    intro r hr hsel
    rw [hphase] at h
    obtain ⟨state, hget⟩ := hr
    have hmem : (⟨r, state⟩ : ResourceTracker) ∈ trackers :=
      hperm.mem_iff.2 (mem_getByKind.2 ⟨hget, kind_of_selects hsel⟩)
    refine List.mem_filter.2 ⟨List.mem_map_of_mem hmem, ?_⟩
    rw [hns, hpathName, ← h.2]
    exact deletesPod_of_selects hname hsel
  | call hphase =>
    rw [hphase] at h
    exact h
  | stopped hphase hfinished =>
    rw [hphase] at h
    exact fun r hr hsel => h r (holds_updateState.1 hr) hsel
  | delete hphase =>
    rw [hphase] at h
    intro r hr hsel
    obtain ⟨hne, hr⟩ := holds_delete.1 hr
    rcases List.mem_cons.1 (h r hr hsel) with rfl | hmem
    · exact absurd rfl hne
    · exact hmem
  | leaveDeployment hphase =>
    rw [hphase] at h
    exact hnone (fun r hr => (holds_delete.1 hr).2) h
  | leave hphase =>
    rw [hphase] at h
    exact hnone (fun r hr => hr) h

structure DeployInv (deploy : Deployment) (s : ControlSystem) : Prop where
  pods : ∀ pod : Pod, PodInv (AnyResource.pod pod).uid s.daemon s.removing
  stored : ∀ r, s.daemon.store.Holds r → r.uid = (AnyResource.deployment deploy).uid →
    r = .deployment deploy
  deletions : ∀ t ∈ s.deletions, t.deletes deploy = true → DeletionInv deploy s.daemon.store t.phase

namespace DeployInv

variable {s s' : ControlSystem} {e : ControlEvent}

theorem own (h : DeployInv deploy s) : ∀ t ∈ s.daemon.pods.starts, OwnWork t :=
  (h.pods { metadata := {} }).tidy.own

theorem staysDeleted (h : DeployInv deploy s) : StaysDeleted deploy s := by
  rintro ⟨t, ht, hdeletes, hdone⟩
  have hgone := h.deletions t ht hdeletes
  rw [hdone] at hgone
  refine ⟨hgone, fun pod hrecorded => ?_⟩
  have hsome : s.daemon.store.get (AnyResource.pod pod).uid ≠ none :=
    fun hnone => (h.pods pod).gone hnone hrecorded
  obtain ⟨r, hr, huid⟩ := get_ne_none_iff.1 hsome
  exact ⟨r, hr, huid, hgone r hr⟩

theorem deletions_of_holds (h : DeployInv deploy s) (hcreates : CreatesNone deploy s e)
    (hstep : s.step e = some s') (ht : t ∈ s.deletions) (hdeletes : t.deletes deploy = true) :
    DeletionInv deploy s'.daemon.store t.phase := by
  refine (h.deletions t ht hdeletes).mono fun hlisted r hr hsel => ?_
  rcases holds_step h.own hstep hr with hold | ⟨hcall, -⟩
  · exact hold
  · have hnot : selects deploy r = false := hcreates ⟨t, ht, hdeletes, hlisted⟩ (.apply r) hcall
    rw [hnot] at hsel
    cases hsel

theorem step (hname : deploy.metadata.name = some name)
    (hlabels : (deploy.spec.bind fun s => s.selector.matchLabels) = some labels) (h : DeployInv deploy s)
    (hok : AllOrderly s e ∧ CreatesNone deploy s e) (hstep : s.step e = some s') : DeployInv deploy s' := by
  have hsame : s'.deletions = s.deletions →
      ∀ t ∈ s'.deletions, t.deletes deploy = true → DeletionInv deploy s'.daemon.store t.phase :=
    fun heq t ht hdeletes => h.deletions_of_holds hok.2 hstep (heq ▸ ht) hdeletes
  refine ⟨fun pod => (h.pods pod).step ⟨pod, rfl⟩ (hok.1.orderly _) hstep, fun r hr huid => ?_, ?_⟩
  · rcases holds_step h.own hstep hr with hold | ⟨-, hkind⟩
    · exact h.stored r hold huid
    · exact absurd (kind_eq_of_uid huid) hkind
  · have hmoved := hstep
    cases e with
    | sweep i e | detached i e =>
      obtain ⟨_, -, rfl⟩ := Option.map_eq_some_iff.1 hmoved
      exact hsame rfl
    | deletion i e =>
      obtain ⟨⟨d', deletions'⟩, hat, rfl⟩ := Option.map_eq_some_iff.1 hmoved
      obtain ⟨task, task', others, -, hmove, hperm, hperm'⟩ := stepAt_eq_some hat
      intro t ht hdeletes
      rcases List.mem_cons.1 (hperm'.mem_iff.1 ht) with rfl | ht
      · have htask : task ∈ s.deletions := hperm.mem_iff.2 List.mem_cons_self
        rw [Deletion.deletes_of_step hmove] at hdeletes
        exact DeletionInv.step hname hlabels (h.deletions task htask hdeletes) hdeletes h.stored hmove
      · exact h.deletions_of_holds hok.2 hstep (hperm.mem_iff.2 (List.mem_cons_of_mem _ ht)) hdeletes
    | pods e =>
      simp only [step] at hmoved
      split_ifs at hmoved
      obtain ⟨_, -, rfl⟩ := Option.map_eq_some_iff.1 hmoved
      exact hsame rfl
    | apply r =>
      simp only [step] at hmoved
      split_ifs at hmoved
      cases hmoved
      exact hsame rfl

theorem init {pods : PodSystem} {sweeps : Nat} {requests : List (DeletionKind × String × String)}
    (htidy : ∀ pod : Pod, Tidy (AnyResource.pod pod).uid (ControlSystem.init pods sweeps requests).daemon)
    (hdeploy : pods.pt.store.Holds (.deployment deploy)) :
    DeployInv deploy (init pods sweeps requests) := by
  refine ⟨fun pod => PodInv.init (htidy pod), fun r hr huid => hr.eq_of_uid hdeploy huid, fun t ht _ => ?_⟩
  obtain ⟨request, -, rfl⟩ := List.mem_map.1 ht
  trivial

end DeployInv

private def webLabels : BTreeMap String String := BTreeMap.ofList [("app", "web")]

private def webDeploy : Deployment where
  metadata := { name := some "web", inNamespace := some "default" }
  spec := some {
    replicas := some ⟨1, by decide⟩
    selector := { matchLabels := some webLabels }
    template := { spec := some { containers := [{ name := "app", image := some "host" }] } } }

private def zeros : UuidGroup := .zeros

private def webPod : Pod where
  metadata := {
    name := some "web-pod-00000000"
    inNamespace := some "default"
    labels := some webLabels
    ownerReferences := some [⟨"apps/v1", "Deployment", "web", some true, some true, ""⟩] }
  spec := some { containers := [{ name := "app", image := some "host" }] }

private def webNet : NetMux :=
  ⟨IpPool.new ⟨Ipv4Addr.new 10 42 0 0, 30⟩, ∅, 30, Ipv4Addr.new 10 42 0 1⟩

private def webPods : PodSystem := .init webNet (ResourceStore.new.apply (.deployment webDeploy))

private def webDeletion : ControlSystem := .init webPods 1 [(.deployment, "default", "web")]

private def passCounts : List ControlEvent :=
  [.sweep 0 (.snapshot [.new (.deployment webDeploy)]), .sweep 0 .next, .sweep 0 (.store (.list []))]

private def passCreates : List ControlEvent :=
  [.sweep 0 (.store (.create zeros)), .sweep 0 .callStart, .pods (.start 0 .checkDuplicate),
    .pods (.start 0 .insertPlaceholders), .pods (.start 0 (.createCgroup (.ok ()))),
    .pods (.start 0 (.spawnNext (.ok "") ⟨true, .ok 100, .ok true, .ok (), .attached 4 5, []⟩)),
    .pods (.start 0 .record), .sweep 0 .started, .sweep 0 .leave]

private def deletionLists (pods : List ResourceTracker) : List ControlEvent :=
  [.deletion 0 (.list [.new (.deployment webDeploy)]), .deletion 0 (.listPods pods)]

private def deletionRemoves : List ControlEvent :=
  [.deletion 0 .call, .pods (.stop 0 (.detach [])), .pods (.stop 0 .stopContainer),
    .pods (.stop 0 .removeRestartCount), .deletion 0 .stopped, .deletion 0 .delete]

private def passBeforeDeletion : List ControlEvent :=
  passCounts ++ passCreates ++ deletionLists [⟨.pod webPod, .running⟩] ++ deletionRemoves ++
    [.deletion 0 .leave]

end Z8s.Control
