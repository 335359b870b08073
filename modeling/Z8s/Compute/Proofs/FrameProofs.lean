import Z8s.Compute.Frame
import Z8s.Compute.Proofs.DeploymentProofs
import Z8s.Transition.Proofs.RunProofs

/-!
# Proofs: what a pass leaves alone

The entries that a pass can touch are known from the store it starts with (`Touched`): the uids of
new pods when pods are missing, and the pods with the name of a selected pod when there are too
many.
-/

namespace Z8s.Compute

open Rust Z8s.Types Netmux Transition ResourceStore Pass List

variable {matching : List String} {r : AnyResource} {store : ResourceStore}
variable {pods : List ResourceTracker} {es : List PassEvent} {created : List String} {r' : AnyResource}
  {uuid : UuidGroup}

/-! ### What a pass can touch -/

section Touched

variable {deploy : Deployment} {store₀ : ResourceStore}

def Removable (deploy : Deployment) (store₀ : ResourceStore) (r : AnyResource) : Prop :=
  r.kind = "Pod" ∧ (∃ t, store₀.get r.uid = some t ∧ t.resource = r) ∧
    ∃ t ∈ store₀.getAll, selects deploy t.resource = true ∧ t.resource.name = r.name

/-- An entry that a pass from `store₀` may change. -/
def Touched (deploy : Deployment) (store₀ : ResourceStore) (uid : String) : Prop :=
  (podCount deploy store₀ < replicaCount deploy ∧ ∃ uuid, newPodUid deploy uuid = uid) ∨
    (replicaCount deploy < podCount deploy store₀ ∧ ∃ r, Removable deploy store₀ r ∧ r.uid = uid)

/-- What holds while excess pods are removed: the names are those of selected pods, and nothing was
added to the store. -/
structure RemovingInv (deploy : Deployment) (store₀ store : ResourceStore)
    (matching : List String) : Prop where
  excess : replicaCount deploy < podCount deploy store₀
  names : ∀ n ∈ matching, ∃ t ∈ store₀.getAll, selects deploy t.resource = true ∧ t.resource.name = n
  shrunk : ∀ uid t, store.get uid = some t → ∃ t₀, store₀.get uid = some t₀ ∧ t₀.resource = t.resource

/-- The invariant of a pass from `store₀`. -/
def PhaseInv (deploy : Deployment) (store₀ store : ResourceStore) : PassPhase → Prop
  | .entered => store = store₀
  | .creating matching created => podCount deploy store₀ < replicaCount deploy ∧
      matching.length + created.length < replicaCount deploy
  | .starting matching created pod => podCount deploy store₀ < replicaCount deploy ∧
      matching.length + created.length < replicaCount deploy ∧ ∃ uuid, newPod deploy uuid = .ok pod
  | .removing _ matching => RemovingInv deploy store₀ store matching
  | .stopping _ matching remove | .deleting _ matching remove =>
    RemovingInv deploy store₀ store matching ∧ Removable deploy store₀ remove
  | .done _ => True

structure PassInv (deploy : Deployment) (store₀ store : ResourceStore) (phase : PassPhase) : Prop where
  frame : ∀ uid, ¬ Touched deploy store₀ uid → store.get uid = store₀.get uid
  phase : PhaseInv deploy store₀ store phase

theorem phaseInv_loopRemove {excess : Nat} (h : RemovingInv deploy store₀ store matching) :
    PhaseInv deploy store₀ store (loopRemove excess matching) := by
  cases excess with
  | zero => trivial
  | succ excess => exact h

theorem phaseInv_leaveCreate (h : matching.length + created.length ≤ replicaCount deploy) :
    PhaseInv deploy store₀ store (leaveCreate deploy matching created) := by
  unfold leaveCreate
  rw [length_append, Nat.sub_eq_zero_of_le h]
  trivial

theorem phaseInv_loopCreate (hlt : podCount deploy store₀ < replicaCount deploy)
    (h : matching.length + created.length ≤ replicaCount deploy) :
    PhaseInv deploy store₀ store (loopCreate deploy matching created) := by
  unfold loopCreate
  split_ifs with hlen
  · exact ⟨hlt, hlen⟩
  · exact phaseInv_leaveCreate h

theorem phaseInv_list (h : pods.Perm (store₀.getByKind "Pod")) :
    PhaseInv deploy store₀ store₀ (loopCreate deploy (matchingPods deploy pods) []) := by
  have hlen : (matchingPods deploy pods).length = podCount deploy store₀ := length_matchingPods h
  by_cases hlt : podCount deploy store₀ < replicaCount deploy
  · refine phaseInv_loopCreate hlt ?_
    rw [hlen, length_nil]
    omega
  · have hnot : ¬ (matchingPods deploy pods).length + ([] : List String).length < replicaCount deploy := by
      rw [hlen, length_nil]
      omega
    unfold loopCreate leaveCreate
    rw [if_neg hnot, append_nil, hlen]
    rcases Nat.eq_zero_or_pos (podCount deploy store₀ - replicaCount deploy) with hzero | hpos
    · rw [hzero]
      trivial
    · refine phaseInv_loopRemove ⟨by omega, fun n hn => ?_, fun uid t ht => ⟨t, ht, rfl⟩⟩
      obtain ⟨t, ht, rfl⟩ := mem_map.1 hn
      obtain ⟨hmem, hsel⟩ := mem_filter.1 ht
      exact ⟨t, mem_getAll.2 ((mem_listed h).1 hmem).1, hsel, rfl⟩

theorem RemovingInv.dropLast (h : RemovingInv deploy store₀ store matching) :
    RemovingInv deploy store₀ store matching.dropLast :=
  ⟨h.excess, fun n hn => h.names n (dropLast_subset _ hn), h.shrunk⟩

theorem RemovingInv.removable {excessName : String} {remove : ResourceTracker}
    (h : RemovingInv deploy store₀ store matching) (hperm : pods.Perm (store.getByKind "Pod"))
    (hlast : matching.getLast? = some excessName)
    (hfind : pods.find? (fun t => t.resource.name == excessName) = some remove) :
    Removable deploy store₀ remove.resource := by
  obtain ⟨hget, hkind⟩ := (mem_listed hperm).1 (mem_of_find?_eq_some hfind)
  have hname : remove.resource.name = excessName := by
    simpa using find?_some hfind
  refine ⟨hkind, h.shrunk _ _ hget, ?_⟩
  rw [hname]
  exact h.names excessName (mem_of_getLast? hlast)

theorem frame_of_touched {store' : ResourceStore} {u : String} (hu : Touched deploy store₀ u)
    (hframe : ∀ uid, ¬ Touched deploy store₀ uid → store.get uid = store₀.get uid)
    (hothers : ∀ uid, uid ≠ u → store'.get uid = store.get uid) :
    ∀ uid, ¬ Touched deploy store₀ uid → store'.get uid = store₀.get uid := by
  intro uid hnot
  have hne : uid ≠ u := by
    rintro rfl
    exact hnot hu
  rw [hothers uid hne, hframe uid hnot]

theorem PassInv.move {store store' : ResourceStore} {phase phase' : PassPhase} {e : PassEvent}
    (h : PassInv deploy store₀ store phase) (hmove : PassMove deploy store phase e store' phase') :
    PassInv deploy store₀ store' phase' := by
  obtain ⟨hframe, hphase⟩ := h
  -- the two kinds of entries that a move changes
  have hnew : podCount deploy store₀ < replicaCount deploy → ∀ {uuid pod},
      newPod deploy uuid = .ok pod → Touched deploy store₀ (AnyResource.pod pod).uid :=
    fun hlt uuid pod hpod => .inl ⟨hlt, uuid, (uid_newPod hpod).symm⟩
  have hrem : replicaCount deploy < podCount deploy store₀ → ∀ {r}, Removable deploy store₀ r →
      Touched deploy store₀ r.uid := fun hgt r hr => .inr ⟨hgt, r, hr, rfl⟩
  cases hmove with
  | list hperm =>
    obtain rfl : store = store₀ := hphase
    exact ⟨hframe, phaseInv_list hperm⟩
  | create hpod =>
    obtain ⟨hlt, hlen⟩ := hphase
    refine ⟨frame_of_touched (hnew hlt hpod) hframe fun uid => ?_, hlt, hlen, _, hpod⟩
    exact get_apply_of_ne
  | createFails _ => exact ⟨hframe, trivial⟩
  | started =>
    obtain ⟨hlt, hlen, uuid, hpod⟩ := hphase
    refine ⟨frame_of_touched (hnew hlt hpod) hframe fun uid => ?_, phaseInv_loopCreate hlt ?_⟩
    · exact get_updateState_of_ne
    · rw [length_append, length_singleton]
      omega
  | startFails e =>
    obtain ⟨hlt, hlen, uuid, hpod⟩ := hphase
    refine ⟨frame_of_touched (hnew hlt hpod) hframe fun uid => ?_, phaseInv_leaveCreate (by omega)⟩
    exact get_updateState_of_ne
  | found hperm hlast hfind =>
    have hinv : RemovingInv deploy store₀ store _ := hphase
    exact ⟨hframe, hinv.dropLast, hinv.removable hperm hlast hfind⟩
  | missing _ _ =>
    have hinv : RemovingInv deploy store₀ store _ := hphase
    exact ⟨hframe, phaseInv_loopRemove hinv.dropLast⟩
  | stopped =>
    obtain ⟨hinv, hr⟩ := hphase
    refine ⟨frame_of_touched (hrem hinv.excess hr) hframe fun uid => ?_,
      ⟨hinv.excess, hinv.names, fun uid t ht => ?_⟩, hr⟩
    · exact get_updateState_of_ne
    · rw [get_updateState] at ht
      split_ifs at ht
      · obtain ⟨t', ht', rfl⟩ := Option.map_eq_some_iff.1 ht
        exact hinv.shrunk uid t' ht'
      · exact hinv.shrunk uid t ht
  | delete =>
    obtain ⟨hinv, hr⟩ := hphase
    refine ⟨frame_of_touched (hrem hinv.excess hr) hframe fun uid => ?_,
      phaseInv_loopRemove ⟨hinv.excess, hinv.names, fun uid t ht => ?_⟩⟩
    · exact get_delete_of_ne
    · rw [get_delete] at ht
      split_ifs at ht
      exact hinv.shrunk uid t ht

theorem passInv_of_run {t : Pass} (h : run passStep (store₀, enter deploy) es = some (store, t)) :
    t.deploy = deploy ∧ PassInv deploy store₀ store t.phase := by
  refine invariant_of_run
    (I := fun s : ResourceStore × Pass => s.2.deploy = deploy ∧ PassInv deploy store₀ s.1 s.2.phase)
    ?_ ⟨rfl, fun _ _ => rfl, ?_⟩ h
  · rintro ⟨store, t⟩ e ⟨store', t'⟩ ⟨hdeploy, hinv⟩ hstep
    obtain ⟨hdeploy', hmove⟩ := move_of_step hstep
    dsimp only at hdeploy
    rw [hdeploy] at hmove
    exact ⟨hdeploy'.trans hdeploy, hinv.move hmove⟩
  · show PhaseInv deploy store₀ store₀ (enter deploy).phase
    unfold enter
    cases deploy.spec with
    | none => trivial
    | some spec => rfl

/-- What a pass has handed to `stop_pod` has the name of a selected pod. -/
theorem removable_of_run {t : Pass} (h : run passStep (store₀, enter deploy) es = some (store, t)) :
    ∀ remove ∈ t.stopTarget, replicaCount deploy < podCount deploy store₀ ∧
      Removable deploy store₀ remove := by
  intro remove hremove
  have hphase := (passInv_of_run h).2.phase
  unfold stopTarget at hremove
  split at hremove
  · rename_i hp
    cases hremove
    rw [hp] at hphase
    exact ⟨hphase.1.excess, hphase.2⟩
  · rename_i hp
    cases hremove
    rw [hp] at hphase
    exact ⟨hphase.1.excess, hphase.2⟩
  · cases hremove

end Touched

/-! ### Only own pods -/

section OnlyOwn

variable {deploy : Deployment}

theorem ownPod_newPod {pod : Pod} (h : newPod deploy uuid = .ok pod) : ownPod deploy (.pod pod) = true := by
  simp [ownPod, namespaceOf_newPod h, owned_newPod h]

theorem ownPod_of_selects (h : selects deploy r = true) : ownPod deploy r = true := by
  have hns := namespaceOf_of_selects h
  cases r with
  | pod pod =>
    simp only [selects, Bool.and_eq_true] at h
    simp [ownPod, hns, h.1.1]
  | _ => cases h

theorem uid_eq_of_name (hkind : r.kind = "Pod") (hkind' : r'.kind = "Pod")
    (hns : r.namespaceOf = r'.namespaceOf) (hname : r.name = r'.name) : r.uid = r'.uid := by
  unfold AnyResource.uid
  rw [hkind, hkind', hns, hname]

theorem name_eq_of_uid (hkind : r.kind = r'.kind) (hns : r.namespaceOf = r'.namespaceOf)
    (huid : r.uid = r'.uid) : r.name = r'.name := by
  unfold AnyResource.uid at huid
  rw [hkind, hns] at huid
  exact string_append_left_cancel huid

theorem selects_of_removable (h : Removable deploy store r) (hns : r.namespaceOf = passNamespace deploy) :
    selects deploy r = true := by
  obtain ⟨hkind, ⟨t', hget', rfl⟩, t, ht, hsel, hname⟩ := h
  have huid : t.resource.uid = t'.resource.uid := by
    refine uid_eq_of_name (kind_of_selects hsel) hkind ?_ hname
    rw [namespaceOf_of_selects hsel, hns]
  obtain rfl := eq_of_uid (mem_getAll.1 ht) hget' huid
  exact hsel

theorem NamesOnlyOwn.selects_removable (h : NamesOnlyOwn deploy store)
    (hgt : replicaCount deploy < podCount deploy store) (hr : Removable deploy store r) :
    selects deploy r = true := by
  refine selects_of_removable hr ?_
  obtain ⟨hkind, ⟨t', hget', rfl⟩, t, ht, hsel, hname⟩ := hr
  exact h.removed hgt t ht hsel t' (mem_getByKind.2 ⟨hget', hkind⟩) hname.symm

theorem NamesOnlyOwn.touchesOnlyOwn (h : NamesOnlyOwn deploy store) : TouchesOnlyOwn deploy store := by
  intro es store' t' hrun
  refine ⟨fun uid t hget hown => ?_, fun remove hremove => ?_⟩
  · rw [(passInv_of_run hrun).2.frame uid ?_, hget]
    rintro (⟨hlt, uuid, rfl⟩ | ⟨hgt, r, hr, rfl⟩)
    · rw [h.created hlt uuid t hget] at hown
      cases hown
    · obtain ⟨-, ⟨t₀, hget₀, rfl⟩, -⟩ := id hr
      obtain rfl := Option.some.inj (hget.symm.trans hget₀)
      rw [ownPod_of_selects (h.selects_removable hgt hr)] at hown
      cases hown
  · obtain ⟨hgt, hr⟩ := removable_of_run hrun remove hremove
    exact h.selects_removable hgt hr

theorem enter_phase (h : deploy.spec.isSome) : enter deploy = ⟨deploy, .entered⟩ := by
  obtain ⟨spec, hspec⟩ := Option.isSome_iff_exists.1 h
  simp [enter, hspec]

theorem perm_last {α : Type} [DecidableEq α] {l : List α} {a : α} (h : a ∈ l) :
    (l.erase a ++ [a]).Perm l :=
  perm_append_comm.trans (perm_cons_erase h).symm

/-- A pass over a store in which pods are missing comes to create a pod. -/
theorem run_create (hspec : deploy.spec.isSome) (hlt : podCount deploy store < replicaCount deploy)
    {pod : Pod} (hpod : newPod deploy uuid = .ok pod) :
    ∃ es t, run passStep (store, enter deploy) es = some (store.apply (.pod pod), t) := by
  refine ⟨[.list (store.getByKind "Pod"), .create uuid],
    ⟨deploy, .starting (matchingPods deploy (store.getByKind "Pod")) [] pod⟩, ?_⟩
  have hlen : (matchingPods deploy (store.getByKind "Pod")).length = podCount deploy store :=
    length_matchingPods (List.Perm.refl _)
  have hcreate : loopCreate deploy (matchingPods deploy (store.getByKind "Pod")) [] =
      .creating (matchingPods deploy (store.getByKind "Pod")) [] := by
    unfold loopCreate
    rw [if_pos]
    rw [hlen, length_nil]
    omega
  rw [enter_phase hspec]
  simp only [run, passStep, step, List.Perm.refl, if_true, Option.bind_some, hcreate, hpod]

/-- A pass over a store with too many pods may come to stop any pod that has the name of a selected
one. -/
theorem run_stop (hspec : deploy.spec.isSome) (hgt : replicaCount deploy < podCount deploy store)
    {t t' : ResourceTracker} (ht : t ∈ store.getAll) (hsel : selects deploy t.resource = true)
    (ht' : t' ∈ store.getByKind "Pod") (hname : t'.resource.name = t.resource.name) :
    ∃ es p, run passStep (store, enter deploy) es = some (store, p) ∧
      p.stopTarget = some t'.resource := by
  have htpod : t ∈ store.getByKind "Pod" :=
    mem_getByKind.2 ⟨mem_getAll.1 ht, kind_of_selects hsel⟩
  set pods := (store.getByKind "Pod").erase t ++ [t] with hpods
  set pods' := t' :: (store.getByKind "Pod").erase t' with hpods'
  have hperm : pods.Perm (store.getByKind "Pod") := perm_last htpod
  have hperm' : pods'.Perm (store.getByKind "Pod") := (perm_cons_erase ht').symm
  have hlen : (matchingPods deploy pods).length = podCount deploy store := length_matchingPods hperm
  have hlast : (matchingPods deploy pods).getLast? = some t.resource.name := by
    simp [matchingPods, hpods, filter_append, hsel]
  have hfind : pods'.find? (fun x => x.resource.name == t.resource.name) = some t' := by
    simp [hpods', hname]
  obtain ⟨excess, hexcess⟩ : ∃ excess, podCount deploy store - replicaCount deploy = excess + 1 :=
    ⟨podCount deploy store - replicaCount deploy - 1, by omega⟩
  have hremove : loopCreate deploy (matchingPods deploy pods) [] =
      .removing (excess + 1) (matchingPods deploy pods) := by
    rw [loopCreate_of_le (by omega), hlen, hexcess]
    rfl
  refine ⟨[.list pods, .find pods'], ⟨deploy, .stopping excess (matchingPods deploy pods).dropLast
    t'.resource⟩, ?_, rfl⟩
  rw [enter_phase hspec]
  simp only [run, passStep, step, hperm, hperm', if_true, Option.bind_some, hremove, hlast, hfind,
    Nat.add_sub_cancel]

/-- A pass touches only pods of its deployment exactly when no name leads it to a foreign entry. -/
theorem touchesOnlyOwn_iff (deploy : Deployment) (store : ResourceStore) :
    TouchesOnlyOwn deploy store ↔ (deploy.spec.isSome → NamesOnlyOwn deploy store) := by
  constructor
  · intro h hspec
    refine ⟨fun hlt uuid t hget => ?_, fun hgt t ht hsel t' ht' hname => ?_⟩
    · -- the new pod would take the place of a foreign entry
      obtain ⟨pod, hpod⟩ := exists_newPod hspec uuid
      obtain ⟨es, p, hrun⟩ := run_create hspec hlt hpod
      by_contra hown
      have hkeep := (h es _ p hrun).1 _ t hget (Bool.not_eq_true _ ▸ hown)
      rw [get_apply, uid_newPod hpod, if_pos rfl] at hkeep
      cases hkeep
      exact hown (ownPod_newPod hpod)
    · obtain ⟨es, p, hrun, hstop⟩ := run_stop hspec hgt ht hsel ht' hname
      exact namespaceOf_of_selects ((h es _ p hrun).2 _ hstop)
  · intro h
    cases hspec : deploy.spec with
    | some spec => exact (h (by rw [hspec]; rfl)).touchesOnlyOwn
    | none =>
      -- without a spec the pass has no moves
      intro es store' t' hrun
      have hdone : enter deploy = ⟨deploy, .done (.error ["Deployment has no spec"])⟩ := by
        simp [enter, hspec]
      rw [hdone] at hrun
      cases es with
      | nil =>
        cases hrun
        refine ⟨fun _ _ hget _ => hget, fun remove hremove => ?_⟩
        cases hremove
      | cons e es =>
        obtain ⟨s, hstep, -⟩ := run_cons_eq_some.1 hrun
        cases (move_of_step hstep).2

end OnlyOwn

private def webWithoutReplicas : Deployment where
  metadata := { name := some "web", inNamespace := some "default" }
  spec := some { replicas := some (asI32 0) }

private def podIn (ns : String) : ResourceTracker :=
  .new (.pod { metadata := { name := some "web-pod-1f8c4a2e", inNamespace := some ns } })

private def sameNames : ResourceStore :=
  (ResourceStore.new.apply (podIn "default").resource).apply (podIn "other").resource

/-- A pod of another namespace with the name of an excess pod is listed first: it is stopped and
deleted, and the excess pod stays. -/
theorem foreign_pod_deleted :
    sameNames.get "Pod/other/web-pod-1f8c4a2e" = some (podIn "other") ∧
    ownPod webWithoutReplicas (podIn "other").resource = false ∧
    (∃ s ∈ run passStep (sameNames, Pass.enter webWithoutReplicas)
        [.list [podIn "other", podIn "default"], .find [podIn "other", podIn "default"], .stopped,
          .delete],
      s.2.isDone = true ∧ s.1.get "Pod/other/web-pod-1f8c4a2e" = none ∧
        s.1.get "Pod/default/web-pod-1f8c4a2e" = some (podIn "default")) ∧
    ¬ TouchesOnlyOwn webWithoutReplicas sameNames := by
  have hget : sameNames.get "Pod/other/web-pod-1f8c4a2e" = some (podIn "other") := by decide +kernel
  have hown : ownPod webWithoutReplicas (podIn "other").resource = false := by decide +kernel
  have hrun : ∃ s ∈ run passStep (sameNames, enter webWithoutReplicas)
      [.list [podIn "other", podIn "default"], .find [podIn "other", podIn "default"], .stopped,
        .delete],
      s.2.isDone = true ∧ s.1.get "Pod/other/web-pod-1f8c4a2e" = none ∧
        s.1.get "Pod/default/web-pod-1f8c4a2e" = some (podIn "default") := by decide +kernel
  refine ⟨hget, hown, hrun, fun h => ?_⟩
  obtain ⟨s, hs, -, hnone, -⟩ := hrun
  have hkept := (h _ s.1 s.2 hs).1 _ _ hget hown
  rw [hnone] at hkept
  cases hkept

end Z8s.Compute
