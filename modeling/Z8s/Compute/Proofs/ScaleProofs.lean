import Z8s.Compute.Proofs.FrameProofs
import Z8s.Compute.Scale

/-!
# Proofs: scaling a deployment

A pass that has enough fresh names ends with as many pods as there are replicas.
-/

namespace Z8s.Compute

open Rust Z8s.Types Netmux Transition ResourceStore AnyResource List

variable {matching : List String} {excessName : String} {excess : Nat}
variable {pods : List ResourceTracker} {r : AnyResource} {remove t : ResourceTracker}
  {created : List String}

/-! ### Moves of a driven pass -/

section Driven

variable {env : PassEnv} {deploy : Deployment} {store : ResourceStore} {k : Nat} {s' : ResourceStore × Pass}

theorem ends_done {r : Except Error Unit} :
    Ends passStep env.next k (store, ⟨deploy, .done r⟩) s' ↔ s' = (store, ⟨deploy, .done r⟩) :=
  ends_of_none rfl

theorem ends_entered :
    Ends passStep env.next k (store, ⟨deploy, .entered⟩) s' ↔
      Ends passStep env.next (k + 1) (store, ⟨deploy, loopCreate deploy
        (matchingPods deploy (env.order k (store.getByKind "Pod"))) []⟩) s' :=
  ends_of_step rfl (by simp only [passStep, Pass.step, env.perm, if_true])

theorem ends_creating {pod : Pod} (h : newPod deploy (env.uuids created.length) = .ok pod) :
    Ends passStep env.next k (store, ⟨deploy, .creating matching created⟩) s' ↔
      Ends passStep env.next (k + 2)
        ((store.apply (.pod pod)).updateState (AnyResource.pod pod).uid .running,
          ⟨deploy, loopCreate deploy matching (created ++ [(AnyResource.pod pod).name])⟩) s' := by
  have hcreate : passStep (store, ⟨deploy, .creating matching created⟩)
      (.create (env.uuids created.length)) =
        some (store.apply (.pod pod), ⟨deploy, .starting matching created pod⟩) := by
    simp only [passStep, Pass.step, h]
  exact (ends_of_step rfl hcreate).trans (ends_of_step rfl rfl)

theorem ends_removing (hlast : matching.getLast? = some excessName)
    (hfind : (env.order k (store.getByKind "Pod")).find? (fun t => t.resource.name == excessName) = some remove) :
    Ends passStep env.next k (store, ⟨deploy, .removing (excess + 1) matching⟩) s' ↔
      Ends passStep env.next (k + 3)
        ((store.updateState remove.resource.uid .terminated).delete remove.resource,
          ⟨deploy, loopRemove excess matching.dropLast⟩) s' := by
  have hstep : passStep (store, ⟨deploy, .removing (excess + 1) matching⟩)
      (.find (env.order k (store.getByKind "Pod"))) =
        some (store, ⟨deploy, .stopping excess matching.dropLast remove.resource⟩) := by
    simp only [passStep, Pass.step, env.perm, if_true, hlast, hfind, Nat.add_sub_cancel]
  exact (ends_of_step rfl hstep).trans ((ends_of_step rfl rfl).trans (ends_of_step rfl rfl))

theorem ends_removing_missing
    (hfind : ∀ excessName, matching.getLast? = some excessName →
      (env.order k (store.getByKind "Pod")).find? (fun t => t.resource.name == excessName) = none) :
    Ends passStep env.next k (store, ⟨deploy, .removing (excess + 1) matching⟩) s' ↔
      Ends passStep env.next (k + 1) (store, ⟨deploy, loopRemove excess matching.dropLast⟩) s' := by
  refine ends_of_step rfl ?_
  simp only [passStep, Pass.step, env.perm, if_true, Nat.add_sub_cancel]
  cases hlast : matching.getLast? with
  | none =>
    obtain rfl := getLast?_eq_none_iff.1 hlast
    rfl
  | some excessName => simp only [hfind excessName hlast]

end Driven

/-! ### Creating the missing pods -/

section Create

variable {deploy : Deployment}

theorem newPodUid_injective {u v : UuidGroup} (h : newPodUid deploy u = newPodUid deploy v) : u = v := by
  obtain ⟨du, lu, hu⟩ := u
  obtain ⟨dv, lv, hv⟩ := v
  have hdigits : du = dv := by
    have h' := congrArg String.toList h
    simpa [newPodUid, newPodName, UuidGroup.toString] using h'
  subst hdigits
  rfl

theorem ends_loopCreate (env : PassEnv) (hspec : deploy.spec.isSome) {store : ResourceStore} (k : Nat)
    (hcount : podCount deploy store = matching.length + created.length)
    (hle : matching.length + created.length ≤ replicaCount deploy)
    (hfresh : ∀ i, created.length ≤ i → matching.length + i < replicaCount deploy →
      store.get (newPodUid deploy (env.uuids i)) = none ∧ ∀ j, created.length ≤ j → j < i → env.uuids j ≠ env.uuids i) :
    ∃ store' t, Ends passStep env.next k (store, ⟨deploy, loopCreate deploy matching created⟩)
      (store', t) ∧ podCount deploy store' = replicaCount deploy := by
  -- by induction on the number of pods that are missing
  induction hmissing : replicaCount deploy - (matching.length + created.length)
    generalizing store created k with
  | zero =>
    have hdone : loopCreate deploy matching created = .done (.ok ()) := by
      unfold loopCreate leaveCreate
      rw [if_neg (by omega), length_append, Nat.sub_eq_zero_of_le (by omega)]
      rfl
    rw [hdone]
    exact ⟨store, _, ends_done.2 rfl, by omega⟩
  | succ missing ih =>
    have hcreating : loopCreate deploy matching created = .creating matching created := by
      unfold loopCreate
      rw [if_pos (by omega)]
    obtain ⟨pod, hpod⟩ := exists_newPod hspec (env.uuids created.length)
    obtain ⟨hfree, -⟩ := hfresh created.length le_rfl (by omega)
    have hfree' : store.get (AnyResource.pod pod).uid = none := by
      rw [uid_newPod hpod]
      exact hfree
    have hlen : (created ++ [(AnyResource.pod pod).name]).length = created.length + 1 := by simp
    rw [hcreating]
    simp only [ends_creating hpod]
    refine ih (k + 2) ?_ ?_ ?_ ?_
    · rw [podCount_updateState, podCount_apply store (selects_newPod hpod),
        delete_eq_self hfree', hlen]
      omega
    · omega
    · intro i hi hlt
      rw [hlen] at hi
      obtain ⟨hnone, hne⟩ := hfresh i (by omega) hlt
      refine ⟨?_, fun j hj hji => hne j (by omega) hji⟩
      have hother : newPodUid deploy (env.uuids i) ≠ (AnyResource.pod pod).uid := by
        rw [uid_newPod hpod]
        intro h
        exact hne created.length le_rfl (by omega) (newPodUid_injective h).symm
      rw [get_updateState_of_ne hother, get_apply_of_ne hother, hnone]
    · omega

end Create

/-! ### Removing the excess pods -/

section Remove

variable {env : PassEnv} {deploy : Deployment} {store store' : ResourceStore} {k : Nat}

/-- What a pass that removes pods works with: distinct names of selected pods of the store. -/
structure NamesSelected (deploy : Deployment) (store : ResourceStore) (matching : List String) :
    Prop where
  nodup : matching.Nodup
  selected : ∀ n ∈ matching, ∃ t, store.get t.resource.uid = some t ∧
    selects deploy t.resource = true ∧ t.resource.name = n

theorem uid_eq_of_selects {r' : AnyResource} (h : selects deploy r = true) (h' : selects deploy r' = true)
    (hname : r.name = r'.name) : r.uid = r'.uid := by
  refine uid_eq_of_name (kind_of_selects h) (kind_of_selects h') ?_ hname
  rw [namespaceOf_of_selects h, namespaceOf_of_selects h']

theorem namesSelected_matchingPods (deploy : Deployment) (h : pods.Perm (store.getByKind "Pod")) :
    NamesSelected deploy store (matchingPods deploy pods) := by
  constructor
  · have huids : ((pods.filter fun t => selects deploy t.resource).map
        fun t => t.resource.uid).Nodup := by
      have hsub : ((store.getByKind "Pod").map fun t => t.resource.uid).Nodup :=
        store.nodup_uids.sublist (filter_sublist.map _)
      exact ((h.map _).nodup_iff.2 hsub).sublist (filter_sublist.map _)
    rw [List.Nodup, pairwise_map] at huids
    unfold matchingPods
    rw [List.Nodup, pairwise_map]
    refine huids.imp_of_mem fun {a b} ha hb hne hname => hne ?_
    exact uid_eq_of_selects (mem_filter.1 ha).2 (mem_filter.1 hb).2 hname
  · intro n hn
    obtain ⟨t, ht, rfl⟩ := mem_map.1 hn
    obtain ⟨hmem, hsel⟩ := mem_filter.1 ht
    exact ⟨t, ((mem_listed h).1 hmem).1, hsel, rfl⟩

theorem NamesSelected.find (h : NamesSelected deploy store matching)
    (hlast : matching.getLast? = some excessName) (hperm : pods.Perm (store.getByKind "Pod")) :
    ∃ remove, pods.find? (fun t => t.resource.name == excessName) = some remove ∧
      store.get remove.resource.uid = some remove ∧ remove.resource.kind = "Pod" ∧
      remove.resource.name = excessName := by
  obtain ⟨t, hget, hsel, hname⟩ := h.selected _ (mem_of_getLast? hlast)
  have hmem : t ∈ pods := (mem_listed hperm).2 ⟨hget, kind_of_selects hsel⟩
  have hsome : (pods.find? fun t => t.resource.name == excessName).isSome :=
    find?_isSome.2 ⟨t, hmem, beq_iff_eq.2 hname⟩
  obtain ⟨remove, hremove⟩ := Option.isSome_iff_exists.1 hsome
  obtain ⟨hget', hkind⟩ := (mem_listed hperm).1 (mem_of_find?_eq_some hremove)
  exact ⟨remove, hremove, hget', hkind, by simpa using find?_some hremove⟩

theorem get_removed (store : ResourceStore) (r : AnyResource) (uid : String) :
    ((store.updateState r.uid .terminated).delete r).get uid =
      if uid = r.uid then none else store.get uid := by
  rw [get_delete]
  split_ifs with h
  · rfl
  · rw [get_updateState_of_ne h]

theorem podCount_removed (deploy : Deployment) (hget : store.get remove.resource.uid = some remove) :
    podCount deploy store =
      podCount deploy ((store.updateState remove.resource.uid .terminated).delete remove.resource) +
        if selects deploy remove.resource = true then 1 else 0 := by
  have hget' : (store.updateState remove.resource.uid .terminated).get remove.resource.uid =
      some { remove with state := .terminated } := by
    rw [get_updateState, if_pos rfl, hget]
    rfl
  rw [← podCount_updateState deploy store remove.resource.uid .terminated,
    podCount_eq_delete hget']

theorem NamesSelected.removed (h : NamesSelected deploy store matching)
    (hlast : matching.getLast? = some excessName) (hname : r.name = excessName)
    (hsel : selects deploy r = true) :
    NamesSelected deploy ((store.updateState r.uid .terminated).delete r) matching.dropLast := by
  obtain ⟨front, rfl⟩ : ∃ front, matching = front ++ [excessName] :=
    ⟨matching.dropLast, (dropLast_append_getLast? _ hlast).symm⟩
  rw [dropLast_concat]
  have hnodup := nodup_append.1 h.nodup
  refine ⟨hnodup.1, fun n hn => ?_⟩
  obtain ⟨t, hget, hsel', rfl⟩ := h.selected n (mem_append_left _ hn)
  refine ⟨t, ?_, hsel', rfl⟩
  have hne : t.resource.uid ≠ r.uid := by
    intro huid
    have hsame : t.resource.name = r.name := by
      refine name_eq_of_uid ?_ ?_ huid
      · rw [kind_of_selects hsel', kind_of_selects hsel]
      · rw [namespaceOf_of_selects hsel', namespaceOf_of_selects hsel]
    exact hnodup.2.2 _ hn _ (mem_singleton_self _) (hsame.trans hname)
  rw [get_removed, if_neg hne, hget]

theorem ends_loopRemove (env : PassEnv) (k : Nat)
    (hcount : podCount deploy store = replicaCount deploy + excess)
    (hnames : NamesSelected deploy store matching) (hlen : excess ≤ matching.length)
    (hforeign : NoForeignName deploy store) :
    ∃ store' t, Ends passStep env.next k (store, ⟨deploy, loopRemove excess matching⟩) (store', t) ∧
      podCount deploy store' = replicaCount deploy := by
  induction excess generalizing store matching k with
  | zero => exact ⟨store, _, ends_done.2 rfl, by omega⟩
  | succ excess ih =>
    obtain ⟨excessName, hlast⟩ : ∃ excessName, matching.getLast? = some excessName := by
      cases hlast : matching.getLast? with
      | some excessName => exact ⟨excessName, rfl⟩
      | none =>
        rw [getLast?_eq_none_iff.1 hlast] at hlen
        cases hlen
    obtain ⟨remove, hfind, hget, hkind, hname⟩ := hnames.find hlast (env.perm k _)
    obtain ⟨t, ht, hsel, hname'⟩ := hnames.selected _ (mem_of_getLast? hlast)
    -- the pod that is found is the selected one
    have hns : remove.resource.namespaceOf = passNamespace deploy :=
      hforeign t (mem_getAll.2 ht) hsel remove
        (mem_getByKind.2 ⟨hget, hkind⟩) (hname.trans hname'.symm)
    have hsel' : selects deploy remove.resource = true :=
      selects_of_removable ⟨hkind, ⟨remove, hget, rfl⟩, t, mem_getAll.2 ht, hsel,
        hname'.trans hname.symm⟩ hns
    have hcount' := podCount_removed deploy hget
    rw [if_pos hsel'] at hcount'
    show ∃ store' p, Ends passStep env.next k
      (store, ⟨deploy, .removing (excess + 1) matching⟩) (store', p) ∧ _
    simp only [ends_removing hlast hfind]
    refine ih (k + 3) (by omega) (hnames.removed hlast hname hsel') ?_ ?_
    · rw [length_dropLast]
      omega
    · intro u hu huSel u' hu' hun
      rw [mem_getAll, get_removed, Option.ite_none_left_eq_some] at hu
      rw [mem_getByKind, get_removed, Option.ite_none_left_eq_some] at hu'
      exact hforeign u (mem_getAll.2 hu.2) huSel u'
        (mem_getByKind.2 ⟨hu'.1.2, hu'.2⟩) hun

theorem podCount_le_of_ends {t : Pass}
    (h : Ends passStep env.next k (store, ⟨deploy, loopRemove excess matching⟩) (store', t)) :
    podCount deploy store ≤ podCount deploy store' + excess ∧
      ∀ uid, store.get uid = none → store'.get uid = none := by
  induction excess generalizing store matching k with
  | zero =>
    obtain ⟨rfl, -⟩ := Prod.mk.inj (ends_done.1 h)
    exact ⟨le_rfl, fun _ hget => hget⟩
  | succ excess ih =>
    by_cases hfind : ∀ excessName, matching.getLast? = some excessName →
        (env.order k (store.getByKind "Pod")).find? (fun t => t.resource.name == excessName) = none
    · obtain ⟨hle, hgone⟩ := ih ((ends_removing_missing hfind).1 h)
      exact ⟨by omega, hgone⟩
    · push Not at hfind
      obtain ⟨excessName, hlast, hsome⟩ := hfind
      obtain ⟨remove, hremove⟩ := Option.ne_none_iff_exists'.1 hsome
      obtain ⟨hle, hgone⟩ := ih ((ends_removing hlast hremove).1 h)
      constructor
      · have hone := podCount_le_delete deploy
          (store.updateState remove.resource.uid .terminated) remove.resource
        rw [podCount_updateState] at hone
        omega
      · intro uid hnone
        refine hgone uid ?_
        rw [get_removed]
        split_ifs
        · rfl
        · exact hnone

end Remove

/-! ### Whole passes -/

section Whole

variable {env : PassEnv} {deploy : Deployment} {store store' : ResourceStore}

theorem passEnds_iff (hspec : deploy.spec.isSome) :
    PassEnds env deploy store store' ↔ ∃ t, Ends passStep env.next 1 (store, ⟨deploy, loopCreate deploy
      (matchingPods deploy (env.order 0 (store.getByKind "Pod"))) []⟩) (store', t) := by
  unfold PassEnds
  simp only [enter_phase hspec, ends_entered]

theorem passEnds_of_no_spec (hspec : deploy.spec = none) :
    PassEnds env deploy store store' ↔ store' = store := by
  have henter : Pass.enter deploy = ⟨deploy, .done (.error ["Deployment has no spec"])⟩ := by
    simp [Pass.enter, hspec]
  unfold PassEnds
  rw [henter]
  simp [ends_done]

theorem length_listed (env : PassEnv) (deploy : Deployment) (store : ResourceStore) :
    (matchingPods deploy (env.order 0 (store.getByKind "Pod"))).length = podCount deploy store :=
  length_matchingPods (env.perm 0 _)

section

variable (hspec : deploy.spec.isSome)
include hspec

theorem passEnds_iff_loopRemove (hcount : podCount deploy store = replicaCount deploy + excess) :
    PassEnds env deploy store store' ↔ ∃ t, Ends passStep env.next 1 (store, ⟨deploy, loopRemove excess
      (matchingPods deploy (env.order 0 (store.getByKind "Pod")))⟩) (store', t) := by
  have hlen := length_listed env deploy store
  rw [passEnds_iff hspec, loopCreate_of_le (by omega), hlen,
    show podCount deploy store - replicaCount deploy = excess by omega]

theorem passEnds_of_count_eq
    (hcount : podCount deploy store = replicaCount deploy) : PassEnds env deploy store store := by
  have hcount' : podCount deploy store = replicaCount deploy + 0 := hcount
  exact (passEnds_iff_loopRemove hspec hcount').2 ⟨_, ends_done.2 rfl⟩

theorem exists_passEnds (hfresh : FreshNames deploy store env.uuids)
    (hforeign : replicaCount deploy < podCount deploy store → NoForeignName deploy store) :
    ∃ store', PassEnds env deploy store store' ∧ podCount deploy store' = replicaCount deploy := by
  have hlen := length_listed env deploy store
  rcases Nat.lt_or_ge (replicaCount deploy) (podCount deploy store) with hgt | hle
  · obtain ⟨excess, hexcess⟩ := Nat.exists_eq_add_of_le hgt.le
    obtain ⟨store', t, hends, hcount⟩ := ends_loopRemove env 1 hexcess
      (namesSelected_matchingPods deploy (env.perm 0 _)) (by omega) (hforeign hgt)
    exact ⟨store', (passEnds_iff_loopRemove hspec hexcess).2 ⟨t, hends⟩, hcount⟩
  · obtain ⟨store', t, hends, hcount⟩ : ∃ store' t, Ends passStep env.next 1 (store, ⟨deploy, loopCreate
        deploy (matchingPods deploy (env.order 0 (store.getByKind "Pod"))) []⟩) (store', t) ∧
          podCount deploy store' = replicaCount deploy := by
      refine ends_loopCreate env hspec 1 hlen.symm (by rw [hlen]; exact hle) fun i _ hi => ?_
      obtain ⟨hnone, hne⟩ := hfresh i (by omega)
      exact ⟨hnone, fun j _ hji => hne j hji⟩
    exact ⟨store', (passEnds_iff hspec).2 ⟨t, hends⟩, hcount⟩

theorem not_passEnds_self
    (hgt : replicaCount deploy < podCount deploy store) : ¬ PassEnds env deploy store store := by
  intro h
  obtain ⟨excess, hexcess⟩ : ∃ excess, podCount deploy store = replicaCount deploy + (excess + 1) :=
    ⟨podCount deploy store - replicaCount deploy - 1, by omega⟩
  obtain ⟨t, hends⟩ := (passEnds_iff_loopRemove hspec hexcess).1 h
  have hlen := length_listed env deploy store
  have hnames := namesSelected_matchingPods deploy (env.perm 0 (store.getByKind "Pod"))
  cases hlast : (matchingPods deploy (env.order 0 (store.getByKind "Pod"))).getLast? with
  | none =>
    rw [getLast?_eq_none_iff.1 hlast] at hlen
    rw [← hlen] at hgt
    cases hgt
  | some excessName =>
    -- the pod that is found is deleted and does not come back
    obtain ⟨remove, hfind, hget, -⟩ := hnames.find hlast (env.perm 1 _)
    have hgone := (podCount_le_of_ends ((ends_removing hlast hfind).1 hends)).2 remove.resource.uid
      (by rw [get_removed, if_pos rfl])
    rw [hget] at hgone
    cases hgone

end

theorem PassEnds.unique {store'' : ResourceStore} (h : PassEnds env deploy store store')
    (h' : PassEnds env deploy store store'') : store' = store'' := by
  obtain ⟨t, ht⟩ := h
  obtain ⟨t', ht'⟩ := h'
  exact (Prod.mk.inj (ht.unique ht')).1

theorem count_of_stable (hspec : deploy.spec.isSome) (hfresh : FreshNames deploy store env.uuids)
    (hends : PassEnds env deploy store store') (hstable : PassEnds env deploy store' store') :
    podCount deploy store' = replicaCount deploy := by
  rcases Nat.lt_or_ge (replicaCount deploy) (podCount deploy store) with hgt | hle
  · obtain ⟨excess, hexcess⟩ := Nat.exists_eq_add_of_le hgt.le
    obtain ⟨t, ht⟩ := (passEnds_iff_loopRemove hspec hexcess).1 hends
    have hle := (podCount_le_of_ends ht).1
    have hnot : ¬ replicaCount deploy < podCount deploy store' :=
      fun hgt' => not_passEnds_self hspec hgt' hstable
    omega
  · obtain ⟨store'', hends', hcount⟩ := exists_passEnds hspec hfresh (fun hgt => by omega)
    rw [hends.unique hends', hcount]

/-- The store that lists `t` last at first, and `t'` first afterwards. -/
def PassEnv.adverse (uuids : Nat → UuidGroup) (t t' : ResourceTracker) : PassEnv where
  order k l :=
    if k = 0 then if t ∈ l then l.erase t ++ [t] else l
    else if t' ∈ l then t' :: l.erase t' else l
  perm k l := by
    split_ifs with hk ht ht'
    · exact perm_last ht
    · exact .refl l
    · exact (List.perm_cons_erase ht').symm
    · exact .refl l
  uuids

theorem podCount_gt_of_adverse (hspec : deploy.spec.isSome)
    (hgt : replicaCount deploy < podCount deploy store) (uuids : Nat → UuidGroup) {t' : ResourceTracker}
    (ht : t ∈ store.getAll) (hsel : selects deploy t.resource = true) (ht' : t' ∈ store.getByKind "Pod")
    (hname : t'.resource.name = t.resource.name) (hforeign : t'.resource.namespaceOf ≠ passNamespace deploy)
    (hends : PassEnds (.adverse uuids t t') deploy store store') :
    replicaCount deploy < podCount deploy store' := by
  have htpod : t ∈ store.getByKind "Pod" :=
    mem_getByKind.2 ⟨mem_getAll.1 ht, kind_of_selects hsel⟩
  obtain ⟨excess, hexcess⟩ : ∃ excess, podCount deploy store = replicaCount deploy + (excess + 1) :=
    ⟨podCount deploy store - replicaCount deploy - 1, by omega⟩
  obtain ⟨p, hends⟩ := (passEnds_iff_loopRemove hspec hexcess).1 hends
  have hlast : (matchingPods deploy ((PassEnv.adverse uuids t t').order 0
      (store.getByKind "Pod"))).getLast? = some t.resource.name := by
    simp [PassEnv.adverse, htpod, matchingPods, filter_append, hsel]
  have hfind : ((PassEnv.adverse uuids t t').order 1 (store.getByKind "Pod")).find?
      (fun x => x.resource.name == t.resource.name) = some t' := by
    simp [PassEnv.adverse, ht', hname]
  -- the first round deletes a pod that does not count
  have hcount := podCount_removed deploy (mem_getByKind.1 ht').1
  rw [if_neg fun h => hforeign (namespaceOf_of_selects h)] at hcount
  have hle := (podCount_le_of_ends ((ends_removing hlast hfind).1 hends)).1
  omega

/-- What it takes that a pass over `deploy` leaves `n` pods. -/
def ScalesTo (deploy : Deployment) (store : ResourceStore) (n : Int) : Prop :=
  if deploy.spec.isSome then
    (replicaCount deploy : Int) = max n 0 ∧
      (replicaCount deploy < podCount deploy store → NoForeignName deploy store)
  else (podCount deploy store : Int) = max n 0

/-- With fresh names, scaling to `n` converges for every order in which the store lists its pods
exactly when it is kept. -/
theorem converges_iff_scalesTo {uuids : Nat → UuidGroup} (hfresh : FreshNames deploy store uuids)
    (n : Int) :
    (∀ env : PassEnv, env.uuids = uuids → Converges env store deploy n) ↔ ScalesTo deploy store n := by
  unfold ScalesTo
  split_ifs with hspec
  · constructor
    · intro h
      -- what every order leaves is as many pods as replicas
      have hall : ∀ env : PassEnv, env.uuids = uuids → ∃ store', PassEnds env deploy store store' ∧
          podCount deploy store' = replicaCount deploy ∧ (replicaCount deploy : Int) = max n 0 := by
        intro env henv
        obtain ⟨store', hends, hcount, hstable⟩ := h env henv
        have heq := count_of_stable hspec (henv ▸ hfresh) hends (hstable env)
        exact ⟨store', hends, heq, heq ▸ hcount⟩
      refine ⟨?_, fun hgt t ht hsel t' ht' hname => ?_⟩
      · obtain ⟨-, -, -, hn⟩ := hall ⟨fun _ l => l, fun _ l => List.Perm.refl l, uuids⟩ rfl
        exact hn
      · by_contra hforeign
        obtain ⟨store', hends, hcount, -⟩ := hall (.adverse uuids t t') rfl
        have := podCount_gt_of_adverse hspec hgt uuids ht hsel ht' hname hforeign hends
        omega
    · rintro ⟨hn, hforeign⟩ env rfl
      obtain ⟨store', hends, hcount⟩ := exists_passEnds hspec hfresh hforeign
      exact ⟨store', hends, by rw [hcount, hn], fun env' => passEnds_of_count_eq hspec hcount⟩
  · have hnone : deploy.spec = none := Option.not_isSome_iff_eq_none.1 hspec
    unfold Converges
    simp only [passEnds_of_no_spec hnone]
    constructor
    · intro h
      obtain ⟨store', rfl, hcount, -⟩ := h ⟨fun _ l => l, fun _ l => List.Perm.refl l, uuids⟩ rfl
      exact hcount
    · intro hcount env _
      exact ⟨store, rfl, hcount, fun _ => trivial⟩

end Whole

/-! ### The request -/

section Request

variable {store : ResourceStore} {inNamespace name : String} {deploy : Deployment} {body : Json} {n : Int}

theorem findDeployment_eq_some : findDeployment store inNamespace name = some deploy ↔
    (∃ state, store.get (deployment deploy).uid = some ⟨.deployment deploy, state⟩) ∧
      (deployment deploy).name = name ∧
      (deployment deploy).namespaceOf = inNamespace := by
  have hfound : ∀ {d}, findDeployment store inNamespace name = some d →
      (∃ state, store.get (deployment d).uid = some ⟨.deployment d, state⟩) ∧
        (deployment d).name = name ∧
        (deployment d).namespaceOf = inNamespace := by
    intro d h
    obtain ⟨⟨r, state⟩, hmem, hr⟩ := exists_of_findSome?_eq_some h
    have hget := (mem_getByKind.1 hmem).1
    cases r with
    | deployment d' =>
      simp only [Option.ite_none_right_eq_some, Bool.and_eq_true, beq_iff_eq, Option.some.injEq] at hr
      obtain ⟨⟨hname, hns⟩, rfl⟩ := hr
      exact ⟨⟨state, hget⟩, hname, hns⟩
    | _ => cases hr
  refine ⟨hfound, fun ⟨⟨state, hget⟩, hname, hns⟩ => ?_⟩
  have hsome : (findDeployment store inNamespace name).isSome := by
    refine findSome?_isSome_iff.2 ⟨⟨.deployment deploy, state⟩, ?_, ?_⟩
    · exact mem_getByKind.2 ⟨hget, rfl⟩
    · simp [hname, hns]
  obtain ⟨d, hd⟩ := Option.isSome_iff_exists.1 hsome
  obtain ⟨⟨state', hget'⟩, hname', hns'⟩ := hfound hd
  have huid : (deployment d).uid = (deployment deploy).uid := by
    unfold uid
    rw [hname, hns, hname', hns']
    rfl
  rw [huid, hget] at hget'
  obtain ⟨heq, -⟩ := ResourceTracker.mk.inj (Option.some.inj hget')
  rw [hd, deployment.inj heq]

@[simp] theorem selects_setReplicas (deploy : Deployment) (replicas : I32) :
    selects (setReplicas deploy replicas) = selects deploy := by
  funext r
  cases r with
  | pod pod =>
    have hlabels : passLabels (setReplicas deploy replicas) = passLabels deploy := by
      unfold passLabels setReplicas
      cases deploy.spec <;> rfl
    unfold selects
    rw [hlabels]
    rfl
  | _ => rfl

theorem podCount_setReplicas (deploy : Deployment) (replicas : I32) (store : ResourceStore) :
    podCount (setReplicas deploy replicas) store = podCount deploy store := by
  unfold podCount
  rw [selects_setReplicas]

theorem replicaCount_setReplicas (h : deploy.spec.isSome) (replicas : I32) :
    replicaCount (setReplicas deploy replicas) = asUsize replicas.val := by
  obtain ⟨spec, hspec⟩ := Option.isSome_iff_exists.1 h
  simp [replicaCount, setReplicas, hspec]

theorem get_apply_deployment (hkind : r.kind = "Pod") (d : Deployment) :
    (store.apply (.deployment d)).get r.uid = store.get r.uid := by
  refine get_apply_of_ne fun h => ?_
  have hkind' := kind_eq_of_uid h
  rw [hkind] at hkind'
  exact absurd hkind' (by simp [kind])

theorem podCount_apply_deployment (deploy d : Deployment)
    (hget : store.get (deployment d).uid = some t) :
    podCount deploy (store.apply (.deployment d)) = podCount deploy store := by
  have hnot : ¬ selects deploy t.resource = true := by
    intro h
    have hkind := kind_eq_of_uid (uid_of_get hget)
    rw [kind_of_selects h] at hkind
    exact absurd hkind (by simp [kind])
  rw [podCount_eq_delete hget, if_neg hnot]
  unfold podCount
  rw [getAll_apply, countP_cons]
  rfl

theorem noForeignName_apply_deployment (d : Deployment) (replicas : I32) :
    NoForeignName (setReplicas deploy replicas) (store.apply (.deployment d)) ↔
      NoForeignName deploy store := by
  have hall : ∀ {t : ResourceTracker}, t.resource.kind = "Pod" →
      ((store.apply (.deployment d)).get t.resource.uid = some t ↔
        store.get t.resource.uid = some t) := by
    intro t hkind
    rw [get_apply_deployment hkind]
  unfold NoForeignName
  rw [selects_setReplicas]
  simp only [mem_getAll, mem_getByKind]
  constructor
  · intro h t ht hsel t' ht'
    exact h t ((hall (kind_of_selects hsel)).2 ht) hsel t' ⟨(hall ht'.2).2 ht'.1, ht'.2⟩
  · intro h t ht hsel t' ht'
    exact h t ((hall (kind_of_selects hsel)).1 ht) hsel t' ⟨(hall ht'.2).1 ht'.1, ht'.2⟩

theorem bodyReplicas_asI64 (hn : bodyReplicas body Json.asInt = some n)
    (hrange : -2 ^ 63 ≤ n ∧ n < 2 ^ 63) : bodyReplicas body Json.asI64 = some n := by
  have hread : ∀ v : Option Json, v.bind Json.asI64 =
      (v.bind Json.asInt).filter fun m => -2 ^ 63 ≤ m ∧ m < 2 ^ 63 := by
    intro v
    cases v <;> rfl
  have hkeep : (some n).filter (fun m => -2 ^ 63 ≤ m ∧ m < 2 ^ 63) = some n := by
    rw [Option.filter_some, if_pos (decide_eq_true hrange)]
  unfold bodyReplicas at hn ⊢
  rw [hread, hread]
  rcases Option.or_eq_some_iff.1 hn with hspec | ⟨hspec, hbody⟩
  · rw [hspec, hkeep]
    rfl
  · rw [hspec, hbody, hkeep]
    rfl

theorem asUsize_asI32 {n : Int} (h : n < 2 ^ 63) :
    (asUsize (asI32 n).val : Int) = max n 0 ↔ (0 ≤ n ∧ n < 2 ^ 31) ∨ (n < 0 ∧ 2 ^ 32 ∣ n) := by
  simp only [asUsize, asI32]
  omega

theorem survivesCasts_iff (hn : bodyReplicas body Json.asInt = some n) :
    SurvivesCasts body deploy n ↔ (asUsize (scaledReplicas body deploy).val : Int) = max n 0 := by
  unfold SurvivesCasts
  split_ifs with hrange
  · unfold scaledReplicas
    rw [bodyReplicas_asI64 hn hrange, Option.getD_some, asUsize_asI32 hrange.2]
  · rfl

theorem scalesTo_patch (hn : bodyReplicas body Json.asInt = some n)
    (hdeploy : findDeployment store inNamespace name = some deploy) :
    let scaled := setReplicas deploy (scaledReplicas body deploy)
    let store' := (patchDeploymentScale store inNamespace name body).2
    findDeployment store' inNamespace name = some scaled ∧
      (ScalesTo scaled store' n ↔ KeepsScale body deploy store n) := by
  intro scaled store'
  obtain ⟨⟨state, hget⟩, hname, hns⟩ := findDeployment_eq_some.1 hdeploy
  have hstore' : store' = if deploy.spec.isSome then store.apply (.deployment scaled) else store := by
    simp only [store', patchDeploymentScale, hdeploy, scaled]
  unfold ScalesTo KeepsScale
  cases hspec : deploy.spec with
  | none =>
    have hsame : scaled = deploy := by
      simp only [scaled, setReplicas, hspec, Option.map_none]
      rw [← hspec]
    rw [hstore', hspec, hsame]
    simp [hspec, hdeploy]
  | some spec =>
    have hsome : deploy.spec.isSome := by rw [hspec]; rfl
    have hscaled : scaled.spec.isSome := by simp [scaled, setReplicas, hspec]
    rw [hspec] at hstore'
    rw [show store' = store.apply (.deployment scaled) from hstore']
    constructor
    · rw [findDeployment_eq_some]
      refine ⟨⟨state, ?_⟩, hname, hns⟩
      have huid : store.get (deployment scaled).uid = some ⟨.deployment deploy, state⟩ := hget
      rw [get_apply, if_pos rfl, huid]
      rfl
    · rw [if_pos hscaled, if_pos Option.isSome_some, survivesCasts_iff hn, replicaCount_setReplicas hsome,
        podCount_setReplicas, podCount_apply_deployment deploy scaled hget,
        noForeignName_apply_deployment]
      refine and_congr_right fun hcount => ?_
      rw [← hcount, Int.ofNat_lt]

end Request

/-- A scaling that was accepted converges to the number of the request, in whichever order the store
lists its pods, exactly when the number survives the casts and no name of a pod that is to go is
also that of a pod of another namespace. -/
theorem scaling_converges_iff {store store' : ResourceStore} {inNamespace name : String} {body : Json}
    {scale : Scale} {n : Int}
    (haccepted : patchDeploymentScale store inNamespace name body = (.ok scale, store'))
    (hn : bodyReplicas body Json.asInt = some n) :
    ∃ deploy scaled, findDeployment store inNamespace name = some deploy ∧
      findDeployment store' inNamespace name = some scaled ∧
      ∀ uuids, FreshNames scaled store' uuids →
        ((∀ env : PassEnv, env.uuids = uuids → Converges env store' scaled n) ↔
          KeepsScale body deploy store n) := by
  cases hdeploy : findDeployment store inNamespace name with
  | none => simp [patchDeploymentScale, hdeploy] at haccepted
  | some deploy =>
    obtain rfl : (patchDeploymentScale store inNamespace name body).2 = store' := by rw [haccepted]
    obtain ⟨hscaled, hkeeps⟩ := scalesTo_patch hn hdeploy
    exact ⟨deploy, _, rfl, hscaled, fun uuids hfresh => (converges_iff_scalesTo hfresh n).trans hkeeps⟩

private def scaledWeb : Deployment where
  metadata := { name := some "web", inNamespace := some "default" }
  spec := some { replicas := some (asI32 2) }

private def webOnly : ResourceStore := ResourceStore.new.apply (.deployment scaledWeb)

private def askFor (n : Int) : Json := .obj [("spec", .obj [("replicas", .num n)])]

private def zeroUuid : UuidGroup := .zeros

private def listedAsHeld : PassEnv := ⟨fun _ l => l, fun _ l => List.Perm.refl l, fun _ => zeroUuid⟩

private def afterAsking (n : Int) : ResourceStore :=
  (patchDeploymentScale webOnly "default" "web" (askFor n)).2

/-- One replica is asked for, and one is what every order leads to. -/
theorem scaling_converges_to_one :
    ∃ scaled, findDeployment (afterAsking 1) "default" "web" = some scaled ∧
      ∀ env : PassEnv, env.uuids = (fun _ => zeroUuid) → Converges env (afterAsking 1) scaled 1 := by
  have haccepted : patchDeploymentScale webOnly "default" "web" (askFor 1) =
      (.ok ⟨"web", "default", "Deployment/default/web", asI32 1, asI32 1, none⟩, afterAsking 1) := rfl
  have hn : bodyReplicas (askFor 1) Json.asInt = some 1 := by decide +kernel
  obtain ⟨deploy, scaled, hdeploy, hscaled, hiff⟩ := scaling_converges_iff haccepted hn
  have hweb : deploy = scaledWeb := Option.some.inj (hdeploy.symm.trans (by decide +kernel))
  have hone : scaled = setReplicas scaledWeb (asI32 1) :=
    Option.some.inj (hscaled.symm.trans (by decide +kernel))
  refine ⟨scaled, hscaled, (hiff _ ?_).2 ?_⟩
  · rw [hone]
    decide +kernel
  · rw [hweb]
    exact ⟨(survivesCasts_iff hn).2 (by decide +kernel), fun hgt => absurd hgt (by decide +kernel)⟩

/-- 4294967297 replicas are asked for: the request is accepted, and one pod is left. -/
theorem scaled_to_one_of_4294967297 :
    bodyReplicas (askFor 4294967297) Json.asInt = some 4294967297 ∧
    (patchDeploymentScale webOnly "default" "web" (askFor 4294967297)).1.isOk = true ∧
    findDeployment (afterAsking 4294967297) "default" "web" = some (setReplicas scaledWeb (asI32 1)) ∧
    FreshNames (setReplicas scaledWeb (asI32 1)) (afterAsking 4294967297) listedAsHeld.uuids ∧
    (∃ store', PassEnds listedAsHeld (setReplicas scaledWeb (asI32 1)) (afterAsking 4294967297) store' ∧
      podCount (setReplicas scaledWeb (asI32 1)) store' = 1) ∧
    ¬ Converges listedAsHeld (afterAsking 4294967297) (setReplicas scaledWeb (asI32 1)) 4294967297 := by
  have hdrive : ∃ s ∈ drive passStep listedAsHeld.next 5 0
      (afterAsking 4294967297, Pass.enter (setReplicas scaledWeb (asI32 1))),
      podCount (setReplicas scaledWeb (asI32 1)) s.1 = 1 := by decide +kernel
  obtain ⟨⟨store', t⟩, hends, hcount⟩ := hdrive
  have hpass : PassEnds listedAsHeld (setReplicas scaledWeb (asI32 1)) (afterAsking 4294967297) store' :=
    ⟨t, 5, hends⟩
  refine ⟨by decide +kernel, by decide +kernel, by decide +kernel, by decide +kernel,
    ⟨store', hpass, hcount⟩, ?_⟩
  rintro ⟨store'', hpass', hcount', -⟩
  rw [← hpass.unique hpass', hcount] at hcount'
  exact absurd hcount' (by decide)

end Z8s.Compute
