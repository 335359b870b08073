import Mathlib.Logic.Relation
import Z8s.Api.Deployments
import Z8s.Control.Proofs.DaemonProofs

/-!
# Proofs: the pods of a deployment

`delete_deployment` removes the pods of its filter (`holds_deleteDeployment`). The three filters agree exactly
when every pod that passes one of them is marked.
-/

namespace Z8s.Api

open Collections Z8s.Types Cri Compute Control ResourceStore AnyResource

variable {deployments trackers : List ResourceTracker} {r : AnyResource} {t t' : Deletion} {d' : Daemon}
  {deploy : Deployment}

theorem filters_eq_of_not_pod (h : r.isPod = false) :
    countsPod deploy r = reconcilesPod deploy r ∧ removesPod deploy r = reconcilesPod deploy r := by
  cases r with
  | pod => cases h
  | _ =>
    refine ⟨(Bool.and_false _).symm, Eq.trans ?_ (Bool.and_false _).symm⟩
    unfold removesPod
    cases matchLabels deploy <;> rfl

/-! ### What is deleted -/

theorem holds_foldl_deletePod {store : ResourceStore} {removed : List AnyResource} :
    (removed.foldl deletePod store).Holds r ↔ store.Holds r ∧ ∀ x ∈ removed, r.uid ≠ x.uid := by
  induction removed generalizing store with
  | nil => simp
  | cons x removed ih =>
    rw [List.foldl_cons, ih, deletePod, holds_delete, holds_updateState,
      List.forall_mem_cons]
    constructor
    · rintro ⟨⟨hx, hr⟩, hrest⟩
      exact ⟨hr, hx, hrest⟩
    · rintro ⟨hr, hx, hrest⟩
      exact ⟨⟨hx, hr⟩, hrest⟩

/-! ### The request as a task -/

section Undisturbed

variable {store : ResourceStore}

/-- A move of the request, or of something else that leaves the store alone. -/
inductive Undisturbed : Daemon × Deletion → Daemon × Deletion → Prop
  | move {d d' t t' e} (h : t.step d e = some (d', t')) :
    Undisturbed (d, t) (d', t')
  | others {d d'} (t : Deletion) (h : d'.store = d.store) : Undisturbed (d, t) (d', t)

def deleteItself (store : ResourceStore) : Option Deployment → ResourceStore
  | some deploy => store.delete (.deployment deploy)
  | none => store

/-- The store when the pods that are left, and the deployment, have been deleted. -/
def storeAtEnd (store : ResourceStore) : DeletionPhase → ResourceStore
  | .walking (r :: todo) .returned deploy => deleteItself (todo.foldl deletePod (store.delete r)) deploy
  | .walking todo _ deploy => deleteItself (todo.foldl deletePod store) deploy
  | _ => store

theorem storeAtEnd_calling (store : ResourceStore) (todo : List AnyResource) (deploy : Option Deployment) :
    storeAtEnd store (.walking todo .calling deploy) = deleteItself (todo.foldl deletePod store) deploy := by
  cases todo <;> rfl

/-- The store will be what `deleteDeployment` makes of the one that the request has found. -/
def EndsDeleted (store : ResourceStore) (d : Daemon) (t : Deletion) : Prop :=
  ∃ deployments pods : List ResourceTracker, deployments.Perm (store.getByKind "Deployment") ∧
    pods.Perm (store.getByKind "Pod") ∧
    storeAtEnd d.store t.phase = deleteDeployment store t.inNamespace t.name deployments pods

def OnTheWay (store : ResourceStore) (d : Daemon) (t : Deletion) : Prop :=
  match t.phase with
  | .listing => d.store = store
  | .listingPods deploy labels => d.store = store ∧ matchLabels deploy = some labels ∧
    ∃ (deployments : List ResourceTracker) (state : ResourceState),
      deployments.Perm (store.getByKind "Deployment") ∧
      (deployments.find? fun x => x.resource.name == t.name && x.resource.namespaceOf == t.inNamespace) =
        some ⟨.deployment deploy, state⟩
  | _ => EndsDeleted store d t

theorem onTheWay_found {d : Daemon} {x : ResourceTracker} (hkind : t.kind = .deployment)
    (hperm : trackers.Perm (d.store.getByKind t.kind.toString))
    (hfind : trackers.find? (fun x => x.resource.name == t.name && x.resource.namespaceOf == t.inNamespace) = some x) :
    OnTheWay d.store d { t with phase := Deletion.found t.kind x.resource } := by
  rw [hkind] at hperm ⊢
  have hx := (mem_getByKind.1 (hperm.mem_iff.1 (List.mem_of_find?_eq_some hfind))).2
  obtain ⟨r, state⟩ := x
  obtain ⟨deploy, rfl⟩ : ∃ deploy, r = .deployment deploy := by
    cases r with
    | deployment deploy => exact ⟨deploy, rfl⟩
    | _ => simp [kind, DeletionKind.toString] at hx
  cases hlabels : matchLabels deploy with
  | some labels =>
    simp only [Deletion.found, ← matchLabels.eq_def, hlabels]
    exact ⟨rfl, hlabels, trackers, state, hperm, hfind⟩
  | none =>
    simp only [Deletion.found, ← matchLabels.eq_def, hlabels]
    refine ⟨trackers, d.store.getByKind "Pod", hperm, .refl _, ?_⟩
    rw [deleteDeployment, hfind]
    simp only [hlabels]
    rfl

theorem onTheWay_listPods {d : Daemon} {labels : BTreeMap String String}
    (hphase : t.phase = .listingPods deploy labels) (hperm : trackers.Perm (d.store.getByKind "Pod"))
    (h : OnTheWay store d t) :
    EndsDeleted store d { t with phase := .walking ((trackers.map ResourceTracker.resource).filter
      (deletesPod t.inNamespace t.name labels)) .calling (some deploy) } := by
  rw [OnTheWay, hphase] at h
  obtain ⟨hstore, hlabels, deployments, state, hdeployments, hfind⟩ := h
  rw [hstore] at hperm
  refine ⟨deployments, trackers, hdeployments, hperm, ?_⟩
  rw [deleteDeployment, hfind, storeAtEnd_calling, hstore]
  simp only [hlabels]
  rfl

theorem onTheWay_move {d d' : Daemon} {t t' : Deletion} {e : Deletion.Event} (hkind : t.kind = .deployment)
    (h : OnTheWay store d t) (hstep : t.step d e = some (d', t')) : OnTheWay store d' t' := by
  obtain ⟨phase, rfl, hmove⟩ := Deletion.moves_of_step hstep
  cases hmove with
  | found hphase hperm hfind =>
    rw [OnTheWay, hphase] at h
    subst h
    exact onTheWay_found hkind hperm hfind
  | @notFound trackers hphase hperm hfind =>
    rw [OnTheWay, hphase] at h
    subst h
    rw [hkind] at hperm
    refine ⟨trackers, d.store.getByKind "Pod", hperm, .refl _, ?_⟩
    rw [deleteDeployment, hfind]
    rfl
  | listPods hphase hperm => exact onTheWay_listPods hphase hperm h
  | call hphase | stopped hphase hfinished | leaveDeployment hphase | leave hphase | delete hphase =>
    -- from the walk on, a move does a part of what is left to do
    simp only [OnTheWay, EndsDeleted, hphase] at h
    obtain ⟨deployments, pods, hdeployments, hpods, hend⟩ := h
    refine ⟨deployments, pods, hdeployments, hpods, .trans ?_ hend⟩
    first | rfl | exact storeAtEnd_calling _ _ _

private def webDeployment : Deployment where
  metadata := { name := some "web", inNamespace := some "default" }
  spec := some { selector := { matchLabels := some (BTreeMap.ofList [("app", "web")]) } }

private def webDaemon : Daemon :=
  ⟨.init ⟨Netmux.IpPool.new ⟨.new 10 42 0 0, 30⟩, ∅, 30, .new 10 42 0 1⟩
    (ResourceStore.new.apply (.deployment webDeployment)), [], []⟩

end Undisturbed

namespace StoredDeployment

variable {d : StoredDeployment}

theorem find_eq (h : deployments.Perm (d.store.getByKind "Deployment")) :
    ∃ state, (deployments.find? fun t =>
      t.resource.name == d.resource.name && t.resource.namespaceOf == d.resource.namespaceOf) =
        some ⟨d.resource, state⟩ := by
  obtain ⟨state, hget⟩ := d.held
  have hmem : (⟨d.resource, state⟩ : ResourceTracker) ∈ deployments :=
    h.mem_iff.2 (mem_getByKind.2 ⟨hget, rfl⟩)
  have hsome : (deployments.find? fun t => t.resource.name == d.resource.name &&
      t.resource.namespaceOf == d.resource.namespaceOf).isSome = true :=
    List.find?_isSome.2 ⟨_, hmem, by simp⟩
  obtain ⟨t, ht⟩ := Option.isSome_iff_exists.1 hsome
  have hkind := mem_getByKind.1 (h.mem_iff.1 (List.mem_of_find?_eq_some ht))
  have hpath := List.find?_some ht
  rw [Bool.and_eq_true, beq_iff_eq, beq_iff_eq] at hpath
  have huid : t.resource.uid = d.resource.uid := by
    rw [uid, uid, hpath.1, hpath.2, hkind.2]
    rfl
  refine ⟨state, ht.trans (congrArg some ?_)⟩
  have hstored := hkind.1
  rw [huid] at hstored
  exact Option.some.inj (hstored.symm.trans hget)

theorem holds_deleteDeployment {pods : List ResourceTracker}
    (hdeployments : deployments.Perm (d.store.getByKind "Deployment"))
    (hpods : pods.Perm (d.store.getByKind "Pod")) (hr : d.store.Holds r) (hpod : r.isPod = true) :
    (deleteDeployment d.store d.resource.namespaceOf d.resource.name deployments pods).Holds r ↔
      removesPod d.deploy r = false := by
  obtain ⟨state, hfind⟩ := find_eq hdeployments
  have hkind : r.kind = "Pod" := by cases r <;> first | rfl | cases hpod
  -- a pod is listed, and its uid is that of no deployment and of no other pod
  have hlisted : r ∈ pods.map ResourceTracker.resource := by
    obtain ⟨state, hget⟩ := hr
    exact List.mem_map.2 ⟨⟨r, state⟩, hpods.mem_iff.2 (mem_getByKind.2 ⟨hget, hkind⟩), rfl⟩
  have hne : r.uid ≠ d.resource.uid := by
    intro h
    have hkinds := kind_eq_of_uid h
    rw [hkind] at hkinds
    exact absurd (show "Pod" = "Deployment" from hkinds) (by decide)
  have hsame : ∀ x ∈ pods.map ResourceTracker.resource, r.uid = x.uid → r = x := by
    intro x hx huid
    obtain ⟨t, ht, rfl⟩ := List.mem_map.1 hx
    have hget := (mem_getByKind.1 (hpods.mem_iff.1 ht)).1
    exact hr.eq_of_uid ⟨t.state, hget⟩ huid
  rw [deleteDeployment, hfind]
  show ((((matchLabels d.deploy).elim [] _).foldl deletePod d.store).delete d.resource).Holds r ↔ _
  rw [holds_delete, holds_foldl_deletePod, removesPod]
  cases matchLabels d.deploy with
  | none => simp [hne, hr]
  | some labels =>
    simp only [Option.elim_some, Option.any_some, List.mem_filter]
    constructor
    · rintro ⟨-, -, hleft⟩
      by_contra hdeletes
      rw [Bool.not_eq_false] at hdeletes
      exact hleft r ⟨hlisted, hdeletes⟩ rfl
    · intro hkept
      refine ⟨hne, hr, fun x hx huid => ?_⟩
      obtain rfl := hsame x hx.1 huid
      exact Bool.false_ne_true (hkept.symm.trans hx.2)

theorem podsAgree_iff_filters : d.PodsAgree ↔ ∀ r, d.store.Holds r →
    countsPod d.deploy r = reconcilesPod d.deploy r ∧ removesPod d.deploy r = reconcilesPod d.deploy r := by
  constructor
  · intro h r hr
    refine ⟨h.counted r hr, ?_⟩
    cases r with
    | pod pod =>
      have hremoved := h.removed _ _ (.refl _) (.refl _) (.pod pod) hr rfl
      rw [holds_deleteDeployment (.refl _) (.refl _) hr rfl, Bool.not_eq_false] at hremoved
      exact Bool.eq_iff_iff.2 hremoved
    | _ => exact (filters_eq_of_not_pod rfl).2
  · intro h
    refine ⟨fun r hr => (h r hr).1, fun deployments pods hdeployments hpods r hr hpod => ?_⟩
    rw [holds_deleteDeployment hdeployments hpods hr hpod, Bool.not_eq_false, (h r hr).2]

end StoredDeployment

/-! ### The three filters -/

section

variable {deploy : Deployment} {pod : Pod}

theorem podOwnedByDeployment_of_managed {name : String} (h : podManagedByDeployment pod name = true) :
    podOwnedByDeployment pod name = true := by
  rw [podOwnedByDeployment, Bool.or_eq_true]
  exact .inr h

theorem filters_eq_of_marked (h : marked deploy pod = true) :
    countsPod deploy (.pod pod) = reconcilesPod deploy (.pod pod) ∧
      removesPod deploy (.pod pod) = reconcilesPod deploy (.pod pod) := by
  simp only [marked, Bool.and_eq_true, Bool.or_eq_true, Option.isSome_iff_exists] at h
  obtain ⟨⟨⟨⟨⟨labels, hlabels⟩, ns, hns⟩, pl, hpl⟩, hmanaged⟩, hname⟩ := h
  obtain ⟨spec, hspec, hselector⟩ := Option.bind_eq_some_iff.1 hlabels
  have howned : podOwnedByDeployment pod (passName deploy) = true ∧
      podOwnedByDeployment pod (deployment deploy).name = true := by
    cases hnamed : deploy.metadata.name with
    | some name =>
      rw [hnamed] at hmanaged
      have howned := podOwnedByDeployment_of_managed hmanaged
      simpa [passName, AnyResource.name, AnyResource.metadata, hnamed] using howned
    | none =>
      rw [hnamed] at hname
      simpa [passName, name, metadata, hnamed] using hname
  have hlabelsEq : passLabels deploy = labels := by
    rw [passLabels, hspec]
    exact congrArg (Option.getD · ∅) hselector
  have hcounts : countsPod deploy (.pod pod) =
      (labelsMatch labels pl && ns == passNamespace deploy) := by
    simp only [countsPod, hlabels, Option.any_some, hmanaged, hpl, hns, Bool.and_true, labelsMatch,
      passNamespace, Option.some_beq_some]
    exact Bool.and_comm _ _
  have hreconciles : reconcilesPod deploy (.pod pod) =
      (labelsMatch labels pl && ns == passNamespace deploy) := by
    simp only [reconcilesPod, selects, hspec, Option.isSome_some, Bool.true_and, howned.1, hlabelsEq, hpl,
      Option.getD_some, hns, Option.some_beq_some]
  have hremoves : removesPod deploy (.pod pod) =
      (labelsMatch labels pl && ns == passNamespace deploy) := by
    simp only [removesPod, hlabels, Option.any_some, deletesPod, howned.2, hpl, Option.getD_some,
      Bool.and_true, namespaceOf, metadata, hns, passNamespace]
    exact Bool.and_comm _ _
  exact ⟨hcounts.trans hreconciles.symm, hremoves.trans hreconciles.symm⟩

theorem marked_of_filters (hcounts : countsPod deploy (.pod pod) = true)
    (hreconciles : reconcilesPod deploy (.pod pod) = true) (hremoves : removesPod deploy (.pod pod) = true) :
    marked deploy pod = true := by
  obtain ⟨labels, hlabels, hcounted⟩ := (Option.any_eq_true _ _).1 hcounts
  simp only [Bool.and_eq_true, beq_iff_eq] at hcounted
  obtain ⟨⟨hns, hmanaged⟩, hpl⟩ := hcounted
  obtain ⟨pl, hpl, -⟩ := (Option.any_eq_true _ _).1 hpl
  simp only [marked, hlabels, hns, hpl, hmanaged, Option.isSome_some, Bool.true_and]
  cases hname : deploy.metadata.name with
  | some name => rfl
  | none =>
    simp only [reconcilesPod, selects, Bool.and_eq_true] at hreconciles
    simp only [removesPod, hlabels, Option.any_some, deletesPod, Bool.and_eq_true] at hremoves
    have hunknown := hreconciles.2.1.1
    have hunnamed := hremoves.2
    rw [passName, hname] at hunknown
    rw [name, metadata, hname] at hunnamed
    simpa using ⟨hunknown, hunnamed⟩

end

theorem StoredDeployment.podsAgree_iff (d : StoredDeployment) : d.PodsAgree ↔ d.PodsMarked := by
  rw [podsAgree_iff_filters]
  constructor
  · intro h pod hpod hany
    obtain ⟨hcounts, hremoves⟩ := h _ hpod
    rw [hcounts, hremoves, or_self, or_self] at hany
    exact marked_of_filters (hcounts.trans hany) hany (hremoves.trans hany)
  · intro h r hr
    cases r with
    | pod pod =>
      by_cases hmarked : marked d.deploy pod = true
      · exact filters_eq_of_marked hmarked
      · -- no filter lets the pod pass
        have hnone := mt (h pod hr) hmarked
        simp only [not_or, Bool.not_eq_true] at hnone
        rw [hnone.1, hnone.2.1, hnone.2.2]
        exact ⟨rfl, rfl⟩
    | _ => exact filters_eq_of_not_pod rfl

private def webOwner : OwnerReference where
  apiVersion := "apps/v1"
  kind := "Deployment"
  name := "web"
  controller := some true
  blockOwnerDeletion := some true
  uid := ""

private def adoptedPod : AnyResource :=
  .pod { metadata := {
    name := some "canary", inNamespace := some "default", ownerReferences := some [webOwner]
    labels := some (BTreeMap.ofList [("app", "web")]) } }

/-- The pod is kept and removed as one of the deployment, but it is not counted. -/
theorem adopted_pod_is_not_counted :
    reconcilesPod webDeployment adoptedPod = true ∧ removesPod webDeployment adoptedPod = true ∧
      countDeploymentPods webDeployment ∅ [.new adoptedPod] = (0, 0) := by
  decide +kernel

end Z8s.Api
