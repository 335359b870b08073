import Z8s.Proofs.TypesProofs
import Z8s.Storage.Safety
import Z8s.Transition.Proofs.RunProofs

/-!
# Proofs: bindings of volumes and claims

A store is consistent when every claim that carries a volume is the one its volume refers to, and
the other way round.
-/

namespace Z8s.Storage

open Z8s.Types Transition ResourceStore AnyResource Option

variable {pvs : List ResourceTracker}
variable {pvcs : List ResourceTracker} {t : ResourceTracker} {ref : ObjectReference}

/-! ### Volumes and claims of a store -/

section Members

variable {store : ResourceStore} {pv pv' : PersistentVolume} {pvc pvc' : PersistentVolumeClaim}

theorem mem_volumes : pv ∈ volumes store ↔ store.Holds (.persistentVolume pv) := by
  unfold volumes
  rw [List.mem_filterMap]
  constructor
  · rintro ⟨⟨r, state⟩, ht, hr⟩
    have hget := mem_getAll.1 ht
    cases r with
    | persistentVolume _ =>
      simp only [Option.some.injEq] at hr
      subst hr
      exact ⟨state, hget⟩
    | _ => simp at hr
  · rintro ⟨state, hget⟩
    exact ⟨⟨.persistentVolume pv, state⟩, mem_getAll.2 hget, rfl⟩

theorem mem_claims : pvc ∈ claims store ↔ store.Holds (.persistentVolumeClaim pvc) := by
  unfold claims
  rw [List.mem_filterMap]
  constructor
  · rintro ⟨⟨r, state⟩, ht, hr⟩
    have hget := mem_getAll.1 ht
    cases r with
    | persistentVolumeClaim _ =>
      simp only [Option.some.injEq] at hr
      subst hr
      exact ⟨state, hget⟩
    | _ => simp at hr
  · rintro ⟨state, hget⟩
    exact ⟨⟨.persistentVolumeClaim pvc, state⟩, mem_getAll.2 hget, rfl⟩

theorem pv_uid_inj : (persistentVolume pv).uid = (persistentVolume pv').uid ↔
    pvName pv = pvName pv' := by
  constructor
  · intro h
    rw [uid_persistentVolume, uid_persistentVolume] at h
    rw [← String.toList_inj] at h ⊢
    simpa [pvName, name, metadata] using h
  · intro h
    rw [uid_persistentVolume, uid_persistentVolume]
    exact congrArg _ h

theorem pv_uid_ne_pvc : (persistentVolume pv).uid ≠ (persistentVolumeClaim pvc).uid :=
  fun h => absurd (kind_eq_of_uid h) (by simp [kind])

theorem eq_of_pvName (h : pv ∈ volumes store) (h' : pv' ∈ volumes store) (hname : pvName pv = pvName pv') :
    pv = pv' :=
  persistentVolume.inj ((mem_volumes.1 h).eq_of_uid (mem_volumes.1 h') (pv_uid_inj.2 hname))

theorem eq_of_pvc_uid (h : pvc ∈ claims store) (h' : pvc' ∈ claims store)
    (huid : (persistentVolumeClaim pvc).uid = (persistentVolumeClaim pvc').uid) :
    pvc = pvc' :=
  persistentVolumeClaim.inj ((mem_claims.1 h).eq_of_uid (mem_claims.1 h') huid)

@[simp] theorem mem_volumes_apply_pv : pv' ∈ volumes (store.apply (.persistentVolume pv)) ↔
    pv' = pv ∨ (pvName pv' ≠ pvName pv ∧ pv' ∈ volumes store) := by
  rw [mem_volumes, holds_apply, mem_volumes, ne_eq, ne_eq, pv_uid_inj,
    persistentVolume.injEq]

@[simp] theorem mem_claims_apply_pv :
    pvc ∈ claims (store.apply (.persistentVolume pv)) ↔ pvc ∈ claims store := by
  rw [mem_claims, holds_apply, mem_claims]
  simp [pv_uid_ne_pvc.symm]

@[simp] theorem mem_volumes_apply_pvc :
    pv ∈ volumes (store.apply (.persistentVolumeClaim pvc)) ↔ pv ∈ volumes store := by
  rw [mem_volumes, holds_apply, mem_volumes]
  simp [pv_uid_ne_pvc]

@[simp] theorem mem_claims_apply_pvc : pvc' ∈ claims (store.apply (.persistentVolumeClaim pvc)) ↔
    pvc' = pvc ∨ ((persistentVolumeClaim pvc').uid ≠
      (persistentVolumeClaim pvc).uid ∧ pvc' ∈ claims store) := by
  rw [mem_claims, holds_apply, mem_claims, persistentVolumeClaim.injEq]

@[simp] theorem mem_volumes_delete_pv : pv' ∈ volumes (store.delete (.persistentVolume pv)) ↔
    pvName pv' ≠ pvName pv ∧ pv' ∈ volumes store := by
  rw [mem_volumes, holds_delete, mem_volumes, ne_eq, ne_eq, pv_uid_inj]

@[simp] theorem mem_claims_delete_pv :
    pvc ∈ claims (store.delete (.persistentVolume pv)) ↔ pvc ∈ claims store := by
  rw [mem_claims, holds_delete, mem_claims]
  simp [pv_uid_ne_pvc.symm]

@[simp] theorem mem_volumes_delete_pvc :
    pv ∈ volumes (store.delete (.persistentVolumeClaim pvc)) ↔ pv ∈ volumes store := by
  rw [mem_volumes, holds_delete, mem_volumes]
  simp [pv_uid_ne_pvc]

@[simp] theorem mem_claims_delete_pvc : pvc' ∈ claims (store.delete (.persistentVolumeClaim pvc)) ↔
    (persistentVolumeClaim pvc').uid ≠ (persistentVolumeClaim pvc).uid ∧
      pvc' ∈ claims store := by
  rw [mem_claims, holds_delete, mem_claims]

theorem mem_volumes_of_listed (hperm : pvs.Perm (store.getByKind "PersistentVolume")) (ht : t ∈ pvs) :
    ∃ pv ∈ volumes store, t.resource = .persistentVolume pv := by
  obtain ⟨hget, hkind⟩ := mem_getByKind.1 (hperm.mem_iff.1 ht)
  obtain ⟨r, state⟩ := t
  cases r with
  | persistentVolume pv => exact ⟨pv, mem_volumes.2 ⟨state, hget⟩, rfl⟩
  | _ => simp [kind] at hkind

theorem mem_claims_of_listed (hperm : pvcs.Perm (store.getByKind "PersistentVolumeClaim")) (ht : t ∈ pvcs) :
    ∃ pvc ∈ claims store, t.resource = .persistentVolumeClaim pvc := by
  obtain ⟨hget, hkind⟩ := mem_getByKind.1 (hperm.mem_iff.1 ht)
  obtain ⟨r, state⟩ := t
  cases r with
  | persistentVolumeClaim pvc => exact ⟨pvc, mem_claims.2 ⟨state, hget⟩, rfl⟩
  | _ => simp [kind] at hkind

end Members

/-! ### What the handlers write -/

section Handlers

variable {store : ResourceStore} {pv pv' : PersistentVolume} {pvc pvc' : PersistentVolumeClaim}

theorem refersTo_iff : refersTo ref pvc = true ↔
    ref.name.getD "" = pvc.metadata.name.getD "" ∧
      ref.inNamespace.getD "default" = pvc.metadata.inNamespace.getD "default" := by
  simp [refersTo]

theorem refersTo_congr (h : pvc'.metadata = pvc.metadata) (ref : ObjectReference) :
    refersTo ref pvc' = refersTo ref pvc := by
  unfold refersTo
  rw [h]

theorem pvc_uid_congr (h : pvc'.metadata = pvc.metadata) :
    (persistentVolumeClaim pvc').uid = (persistentVolumeClaim pvc).uid := by
  rw [uid_persistentVolumeClaim, uid_persistentVolumeClaim, h]

theorem pvName_congr (h : pv'.metadata = pv.metadata) : pvName pv' = pvName pv := by
  unfold pvName name metadata
  exact congrArg (fun m : ObjectMeta => m.name.getD "<unnamed>") h

theorem pvName_of_name {name : String} (h : pv.metadata.name = some name) : pvName pv = name := by
  unfold pvName AnyResource.name
  exact congrArg (fun n : Option String => n.getD "<unnamed>") h

/-- Two halves of a binding, each a new version of an unbound object of the store. -/
structure Binds (store : ResourceStore) (pv' : PersistentVolume) (pvc' : PersistentVolumeClaim) :
    Prop where
  volume : ∃ pv ∈ volumes store, pvName pv = pvName pv' ∧ claimRef pv = none
  claim : ∃ c ∈ claims store, pvc'.metadata = c.metadata ∧ volumeName c = none
  refers : ∃ ref, claimRef pv' = some ref ∧ refersTo ref pvc' = true
  carries : volumeName pvc' = some (pvName pv')

theorem findMatchingPv_eq_some (hperm : pvs.Perm (store.getByKind "PersistentVolume"))
    (h : findMatchingPv pvc pvs = some pv) : pv ∈ volumes store ∧ claimRef pv = none := by
  obtain ⟨spec, -, hfind⟩ := bind_eq_some_iff.1 h
  obtain ⟨t, ht, hsome⟩ := List.exists_of_findSome?_eq_some hfind
  obtain ⟨pv₀, hmem, hres⟩ := mem_volumes_of_listed hperm ht
  rw [hres] at hsome
  simp only [matchPv] at hsome
  split_ifs at hsome with hclaim
  cases hsome
  exact ⟨hmem, not_isSome_iff_eq_none.1 hclaim⟩

theorem binds_of_bindClaim (hperm : pvs.Perm (store.getByKind "PersistentVolume"))
    (hmem : pvc ∈ claims store) (hnone : volumeName pvc = none) (h : bindClaim pvc pvs = some (pv', pvc')) :
    Binds store pv' pvc' ∧ pvc'.metadata = pvc.metadata := by
  obtain ⟨pv, hfind, h⟩ := bind_eq_some_iff.1 h
  obtain ⟨name, hname, h⟩ := bind_eq_some_iff.1 h
  obtain ⟨spec, hspec, h⟩ := bind_eq_some_iff.1 h
  obtain ⟨pvcSpec, hpvcSpec, h⟩ := map_eq_some_iff.1 h
  cases h
  obtain ⟨hpv, hclaim⟩ := findMatchingPv_eq_some hperm hfind
  refine ⟨⟨⟨pv, hpv, rfl, hclaim⟩, ⟨pvc, hmem, rfl, hnone⟩, ⟨_, rfl, ?_⟩, ?_⟩, rfl⟩
  · exact refersTo_iff.2 ⟨rfl, rfl⟩
  · exact congrArg some (pvName_of_name hname).symm

theorem tryBindPvc_eq_some (h : tryBindPvc pv pvc = some pvc') :
    pv.spec.isSome ∧ pvc'.metadata = pvc.metadata ∧ volumeName pvc' = some (pvName pv) := by
  obtain ⟨pvSpec, hspec, h⟩ := bind_eq_some_iff.1 h
  obtain ⟨pvcSpec, -, h⟩ := bind_eq_some_iff.1 h
  split_ifs at h
  obtain ⟨name, hname, rfl⟩ := map_eq_some_iff.1 h
  exact ⟨by rw [hspec]; rfl, rfl, congrArg some (pvName_of_name hname).symm⟩

theorem binds_of_bindVolume (hperm : pvcs.Perm (store.getByKind "PersistentVolumeClaim"))
    (hmem : pv ∈ volumes store) (hnone : claimRef pv = none) (h : bindVolume pv pvcs = some (pv', pvc')) :
    Binds store pv' pvc' ∧ pv'.metadata = pv.metadata := by
  obtain ⟨t, ht, hsome⟩ := List.exists_of_findSome?_eq_some h
  obtain ⟨pvc, hpvc, hres⟩ := mem_claims_of_listed hperm ht
  rw [hres] at hsome
  simp only [bindVolumeTo] at hsome
  split_ifs at hsome with hvol
  obtain ⟨updated, htry, hpair⟩ := map_eq_some_iff.1 hsome
  cases hpair
  obtain ⟨hspec, hmeta, hname⟩ := tryBindPvc_eq_some htry
  obtain ⟨spec, hspec⟩ := isSome_iff_exists.1 hspec
  refine ⟨⟨⟨pv, hmem, rfl, hnone⟩, ⟨pvc, hpvc, hmeta, not_isSome_iff_eq_none.1 hvol⟩,
    ⟨⟨some "PersistentVolumeClaim", pvc.metadata.name, pvc.metadata.inNamespace⟩, ?_, ?_⟩, hname⟩, rfl⟩
  · simp [claimRef, hspec]
  · rw [refersTo_congr hmeta]
    exact refersTo_iff.2 ⟨rfl, rfl⟩

end Handlers

theorem volumeOfDeleted_eq_some {store : ResourceStore} {pvc : PersistentVolumeClaim} {r : AnyResource}
    (hperm : pvs.Perm (store.getByKind "PersistentVolume")) (hmem : pvc ∈ claims store)
    (h : volumeOfDeleted store pvc pvs = some r) :
    ∃ pv ∈ volumes store, r = .persistentVolume pv ∧ volumeName pvc = some (pvName pv) := by
  obtain ⟨state, hget⟩ := mem_claims.1 hmem
  simp only [volumeOfDeleted, hget] at h
  obtain ⟨v, hv, h⟩ := bind_eq_some_iff.1 h
  obtain ⟨t, hfind, rfl⟩ := map_eq_some_iff.1 h
  obtain ⟨pv, hpv, hres⟩ := mem_volumes_of_listed hperm (List.mem_of_find?_eq_some hfind)
  have hname : t.resource.name = v := by simpa using List.find?_some hfind
  rw [hres] at hname ⊢
  exact ⟨pv, hpv, rfl, by rw [hv]; exact congrArg some hname.symm⟩

theorem onDeletePvc_cases {store : ResourceStore} {pvc : PersistentVolumeClaim}
    (hperm : pvs.Perm (store.getByKind "PersistentVolume")) (hmem : pvc ∈ claims store) :
    onDeletePvc store pvc pvs = store ∨
      ∃ pv, onDeletePvc store pvc pvs = store.delete (.persistentVolume pv) ∧ volumeName pvc = some (pvName pv) := by
  unfold onDeletePvc
  split
  · rename_i r hr
    obtain ⟨pv, -, rfl, hcarries⟩ := volumeOfDeleted_eq_some hperm hmem hr
    exact .inr ⟨pv, rfl, hcarries⟩
  · exact .inl rfl

/-! ### Requests -/

section Requests

variable {store s : ResourceStore} {pv : PersistentVolume} {pvc : PersistentVolumeClaim} {ns uid pvUid : String}
  {backend : Except Netmux.Error Unit} {l : List ResourceTracker}

theorem step_createPv (h : VolumeRequest.step store (.createPv pv uid l) = some s) :
    l.Perm ((store.apply (.persistentVolume (postedPv pv uid))).getByKind "PersistentVolumeClaim") ∧
      s = onApplyPv (store.apply (.persistentVolume (postedPv pv uid))) (postedPv pv uid) l := by
  simp only [VolumeRequest.step] at h
  split_ifs at h with hperm
  exact ⟨hperm, (Option.some.inj h).symm⟩

theorem step_createPvc (h : VolumeRequest.step store (.createPvc ns pvc uid l pvUid backend) = some s) :
    l.Perm ((store.apply (.persistentVolumeClaim (postedPvc ns pvc uid))).getByKind "PersistentVolume") ∧
      s = onApplyPvc (store.apply (.persistentVolumeClaim (postedPvc ns pvc uid))) (postedPvc ns pvc uid)
        l pvUid backend := by
  simp only [VolumeRequest.step] at h
  split_ifs at h with hperm
  exact ⟨hperm, (Option.some.inj h).symm⟩

end Requests

/-! ### Consistency -/

/-- Every claim that carries a volume is the one that the volume refers to, and a volume that refers
to a claim is the one it carries. -/
@[mk_iff] structure Consistent (store : ResourceStore) : Prop where
  named : ∀ c ∈ claims store, c.metadata.name.isSome
  referred : ∀ c ∈ claims store, ∀ v ∈ volumeName c,
    ∃ pv ∈ volumes store, pvName pv = v ∧ ∃ ref ∈ claimRef pv, refersTo ref c = true
  carried : ∀ pv ∈ volumes store, ∀ ref ∈ claimRef pv, ∀ c ∈ claims store, refersTo ref c = true →
    volumeName c = some (pvName pv)

instance (store : ResourceStore) : Decidable (Consistent store) := decidable_of_iff' _ (consistent_iff store)

namespace Consistent

variable {store : ResourceStore} {pv pv' : PersistentVolume} {pvc pvc' : PersistentVolumeClaim}

theorem uid_eq_of_refersTo (hname : pvc.metadata.name.isSome) (hname' : pvc'.metadata.name.isSome)
    (h : refersTo ref pvc = true) (h' : refersTo ref pvc' = true) :
    (persistentVolumeClaim pvc).uid = (persistentVolumeClaim pvc').uid := by
  obtain ⟨n, hn⟩ := isSome_iff_exists.1 hname
  obtain ⟨n', hn'⟩ := isSome_iff_exists.1 hname'
  rw [refersTo_iff, hn] at h
  rw [refersTo_iff, hn'] at h'
  rw [uid_persistentVolumeClaim, uid_persistentVolumeClaim, ← h.2, ← h'.2, hn, hn']
  exact congrArg _ (h.1.symm.trans h'.1)

section

variable (h : Consistent store)
include h

theorem oneClaimPerVolume : OneClaimPerVolume store where
  unshared c hc c' hc' v hv hv' := by
    obtain ⟨pv, hpv, hname, ref, href, hrefers⟩ := h.referred c hc v hv
    obtain ⟨pv', hpv', hname', ref', href', hrefers'⟩ := h.referred c' hc' v hv'
    obtain rfl := eq_of_pvName hpv hpv' (hname.trans hname'.symm)
    obtain rfl := Option.some.inj (href.symm.trans href')
    exact eq_of_pvc_uid hc hc' (uid_eq_of_refersTo (h.named c hc) (h.named c' hc') hrefers hrefers')
  carried := h.carried

theorem uncarried (hpv : pv ∈ volumes store) (hnone : claimRef pv = none) :
    ∀ c ∈ claims store, volumeName c ≠ some (pvName pv) := by
  intro c hc hcarries
  obtain ⟨pv', hpv', hname, ref, href, -⟩ := h.referred c hc _ hcarries
  obtain rfl := eq_of_pvName hpv hpv' hname.symm
  rw [hnone] at href
  cases href

theorem postPv (hnone : claimRef pv = none) (hfree : ∀ c ∈ claims store, volumeName c ≠ some (pvName pv)) :
    Consistent (store.apply (.persistentVolume pv)) where
  named c hc := h.named c (mem_claims_apply_pv.1 hc)
  referred c hc v hv := by
    rw [mem_claims_apply_pv] at hc
    obtain ⟨pv', hpv', rfl, href⟩ := h.referred c hc v hv
    refine ⟨pv', mem_volumes_apply_pv.2 (.inr ⟨fun heq => hfree c hc ?_, hpv'⟩), rfl, href⟩
    rw [← heq]
    exact hv
  carried pv' hpv' ref href c hc := by
    rcases mem_volumes_apply_pv.1 hpv' with rfl | ⟨-, hpv'⟩
    · rw [hnone] at href
      cases href
    · exact h.carried pv' hpv' ref href c (mem_claims_apply_pv.1 hc)

theorem postPvc (hname : pvc.metadata.name.isSome) (hnone : volumeName pvc = none)
    (hfree : ∀ pv ∈ volumes store, ∀ ref ∈ claimRef pv, refersTo ref pvc = false) :
    Consistent (store.apply (.persistentVolumeClaim pvc)) where
  named c hc := by
    rcases mem_claims_apply_pvc.1 hc with rfl | ⟨-, hc⟩
    · exact hname
    · exact h.named c hc
  referred c hc v hv := by
    rcases mem_claims_apply_pvc.1 hc with rfl | ⟨-, hc⟩
    · rw [hnone] at hv
      cases hv
    · obtain ⟨pv, hpv, hrest⟩ := h.referred c hc v hv
      exact ⟨pv, mem_volumes_apply_pvc.2 hpv, hrest⟩
  carried pv hpv ref href c hc hrefers := by
    rw [mem_volumes_apply_pvc] at hpv
    rcases mem_claims_apply_pvc.1 hc with rfl | ⟨-, hc⟩
    · rw [hfree pv hpv ref href] at hrefers
      cases hrefers
    · exact h.carried pv hpv ref href c hc hrefers

theorem writeBinding (hbinds : Binds store pv' pvc') : Consistent (writeBinding store pv' pvc') := by
  obtain ⟨⟨pv, hpv, hpvName, hunbound⟩, ⟨c₀, hc₀, hmeta, hnone⟩, ⟨ref', href', hrefers'⟩, hcarries⟩ := hbinds
  have hfree := h.uncarried hpv hunbound
  rw [hpvName] at hfree
  have hname' : pvc'.metadata.name.isSome := by
    rw [hmeta]
    exact h.named c₀ hc₀
  unfold Storage.writeBinding
  refine ⟨fun c hc => ?_, fun c hc v hv => ?_, fun pv₁ hpv₁ ref href c hc hrefers => ?_⟩
  · rw [mem_claims_apply_pvc, mem_claims_apply_pv] at hc
    rcases hc with rfl | ⟨-, hc⟩
    · exact hname'
    · exact h.named c hc
  · rw [mem_claims_apply_pvc, mem_claims_apply_pv] at hc
    rcases hc with rfl | ⟨-, hc⟩
    · obtain rfl := Option.some.inj (hv.symm.trans hcarries)
      exact ⟨pv', by simp, rfl, ref', href', hrefers'⟩
    · obtain ⟨pv₁, hpv₁, rfl, hrest⟩ := h.referred c hc v hv
      refine ⟨pv₁, ?_, rfl, hrest⟩
      rw [mem_volumes_apply_pvc, mem_volumes_apply_pv]
      refine .inr ⟨fun heq => hfree c hc ?_, hpv₁⟩
      rw [← heq]
      exact hv
  · rw [mem_volumes_apply_pvc, mem_volumes_apply_pv] at hpv₁
    rw [mem_claims_apply_pvc, mem_claims_apply_pv] at hc
    rcases hpv₁ with rfl | ⟨hne, hpv₁⟩
    · -- the new volume refers to the new claim and to no other one
      obtain rfl := Option.some.inj (href.symm.trans href')
      rcases hc with rfl | ⟨hother, hc⟩
      · exact hcarries
      · exact absurd (uid_eq_of_refersTo (h.named c hc) hname' hrefers hrefers') hother
    · rcases hc with rfl | ⟨-, hc⟩
      · -- no other volume refers to a claim that was unbound
        rw [refersTo_congr hmeta] at hrefers
        have hbound := h.carried pv₁ hpv₁ ref href c₀ hc₀ hrefers
        rw [hnone] at hbound
        cases hbound
      · exact h.carried pv₁ hpv₁ ref href c hc hrefers

theorem part {store' : ResourceStore} (hclaims : ∀ c ∈ claims store', c ∈ claims store)
    (hvolumes : ∀ pv ∈ volumes store', pv ∈ volumes store)
    (hkept : ∀ c ∈ claims store', ∀ pv ∈ volumes store, volumeName c = some (pvName pv) → pv ∈ volumes store') :
    Consistent store' where
  named c hc := h.named c (hclaims c hc)
  referred c hc v hv := by
    obtain ⟨pv, hpv, rfl, hrest⟩ := h.referred c (hclaims c hc) v hv
    exact ⟨pv, hkept c hc pv hpv hv, rfl, hrest⟩
  carried pv hpv ref href c hc := h.carried pv (hvolumes pv hpv) ref href c (hclaims c hc)

theorem deletePvc (hmem : pvc ∈ claims store) (hperm : pvs.Perm (store.getByKind "PersistentVolume")) :
    Consistent ((onDeletePvc store pvc pvs).delete (.persistentVolumeClaim pvc)) := by
  rcases onDeletePvc_cases hperm hmem with heq | ⟨pv₀, heq, hcarries⟩
  · rw [heq]
    exact h.part (by simp) (by simp) fun _ _ _ hpv _ => by simpa using hpv
  · rw [heq]
    refine h.part (by simp) (by simp) fun c hc pv hpv hv => ?_
    rw [mem_claims_delete_pvc, mem_claims_delete_pv] at hc
    refine mem_volumes_delete_pvc.2 (mem_volumes_delete_pv.2 ⟨fun heq => hc.1 ?_, hpv⟩)
    -- no other claim carries the volume that went
    rw [heq] at hv
    rw [h.oneClaimPerVolume.unshared c hc.2 pvc hmem _ hv hcarries]

theorem step {store' : ResourceStore} {req : VolumeRequest}
    (hplain : PlainRequest req) (hok : PostsUnbound store req) (hstep : req.step store = some store') :
    Consistent store' := by
  cases req with
  | createPv pv uid pvcs =>
    obtain ⟨hperm, rfl⟩ := step_createPv hstep
    have hnone : claimRef (postedPv pv uid) = none := hplain
    have hposted : Consistent (store.apply (.persistentVolume (postedPv pv uid))) := h.postPv hnone hok
    unfold onApplyPv
    split_ifs
    · split
      · rename_i hbind
        exact hposted.writeBinding (binds_of_bindVolume hperm (by simp) hnone hbind).1
      · exact hposted
    · exact hposted
  | createPvc ns pvc uid pvs pvUid backend =>
    obtain ⟨hperm, rfl⟩ := step_createPvc hstep
    have hvol : volumeName (postedPvc ns pvc uid) = none := hplain.1
    have hcls : className (postedPvc ns pvc uid) = none := hplain.2
    have hposted : Consistent (store.apply (.persistentVolumeClaim (postedPvc ns pvc uid))) :=
      h.postPvc hok.1 hvol hok.2
    unfold onApplyPvc
    rw [hvol, hcls, if_neg (by simp), if_neg (by simp)]
    split
    · rename_i hbind
      exact hposted.writeBinding (binds_of_bindClaim hperm (by simp) hvol hbind).1
    · exact hposted
  | deletePv name pvs => exact hplain.elim
  | deletePvc ns name pvcs pvs =>
    simp only [VolumeRequest.step] at hstep
    split_ifs at hstep with hperm
    split at hstep
    · rename_i t hfind
      obtain ⟨pvc, hpvc, hres⟩ := mem_claims_of_listed hperm.1 (List.mem_of_find?_eq_some hfind)
      rw [hres] at hstep
      cases hstep
      exact h.deletePvc hpvc hperm.2
    · cases hstep
      exact h

end

theorem of_empty (hclaims : claims store = []) (hvolumes : volumes store = []) : Consistent store := by
  refine ⟨fun c hc => ?_, fun c hc => ?_, fun pv hpv => ?_⟩
  · rw [hclaims] at hc
    cases hc
  · rw [hclaims] at hc
    cases hc
  · rw [hvolumes] at hpv
    cases hpv

end Consistent

/-- Requests that leave the bindings to the daemon, one after the other, keep every volume with one
claim, provided that none of them posts an object again that takes part in a binding. -/
theorem oneClaimPerVolume_along {store : ResourceStore} {reqs : List VolumeRequest}
    (hclaims : claims store = []) (hvolumes : volumes store = [])
    (hok : Along VolumeRequest.step (fun s req => PlainRequest req ∧ PostsUnbound s req) store reqs) :
    Always VolumeRequest.step OneClaimPerVolume store reqs :=
  always_of_invariant (fun _ _ _ h hok hstep => h.step hok.1 hok.2 hstep)
    (fun _ h => h.oneClaimPerVolume) (Consistent.of_empty hclaims hvolumes) hok

private def plainPv : PersistentVolume where
  metadata := { name := some "v", uid := some "1" }
  spec := some {}

private def plainPvc (name : String) : PersistentVolumeClaim where
  metadata := { name := some name, inNamespace := some "default", uid := some "2" }
  spec := some {}

/-- The two halves of the binding of `v` and a claim. -/
private def boundPv (claim : String) : PersistentVolume where
  metadata := { name := some "v", uid := some "1" }
  spec := some { claimRef := some ⟨some "PersistentVolumeClaim", some claim, some "default"⟩ }
  status := some { phase := some "Bound" }

private def boundPvc (name : String) : PersistentVolumeClaim where
  metadata := { name := some name, inNamespace := some "default", uid := some "2" }
  spec := some { volumeName := some "v" }
  status := some { phase := some "Bound" }

private def bindOnce : List VolumeRequest :=
  [.createPv plainPv "0" [], .createPvc "default" (plainPvc "c") "0" [.new (.persistentVolume plainPv)]
    "0" (.ok ())]

/-- A volume, a claim for it, another claim that finds none, and the end of the first claim. -/
private def bindAndDelete : List VolumeRequest :=
  bindOnce ++ [.createPvc "default" (plainPvc "d") "0" [.new (.persistentVolume (boundPv "c"))] "0" (.ok ()),
    .deletePvc "default" "c"
      [.new (.persistentVolumeClaim (plainPvc "d")), .new (.persistentVolumeClaim (boundPvc "c"))]
      [.new (.persistentVolume (boundPv "c"))]]

theorem oneClaimPerVolume_along_bindAndDelete :
    (∃ s ∈ run VolumeRequest.step .new bindAndDelete,
      claims s = [plainPvc "d"] ∧ volumes s = []) ∧
    Always VolumeRequest.step OneClaimPerVolume .new bindAndDelete :=
  ⟨by decide +kernel, oneClaimPerVolume_along rfl rfl (by decide +kernel)⟩

private def bindTwice : List VolumeRequest :=
  bindOnce ++ [.createPv plainPv "0" [.new (.persistentVolumeClaim (boundPvc "c"))],
    .createPvc "default" (plainPvc "d") "0" [.new (.persistentVolume plainPv)] "0" (.ok ())]

/-- A bound volume is posted again, and a second claim gets it. -/
theorem volume_posted_again_has_two_claims :
    (∀ req ∈ bindTwice, PlainRequest req) ∧
    ∃ s ∈ run VolumeRequest.step .new bindTwice,
      claims s = [boundPvc "d", boundPvc "c"] ∧ volumes s = [boundPv "d"] ∧ ¬ OneClaimPerVolume s := by
  decide +kernel

end Z8s.Storage
