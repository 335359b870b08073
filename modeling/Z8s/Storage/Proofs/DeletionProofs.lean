import Z8s.Storage.Proofs.BindingProofs
import Z8s.Storage.Proofs.InflightProofs

/-!
# Proofs: what goes with a claim

`PvcResource::on_delete` trusts the volume that the claim carries.
-/

namespace Z8s.Storage

open Z8s.Types Netmux Transition

variable {cls : String} {pvc : PersistentVolumeClaim} {store : ResourceStore}

namespace CarriesOwn

variable {store store' : ResourceStore} {pv : PersistentVolume} {pvc : PersistentVolumeClaim}

section

variable (h : CarriesOwn store)
include h

theorem sparesOthers : SparesOthers store := by
  intro c hc pvs hperm pv hdeleted ref href
  obtain ⟨pv', hpv', hres, hcarries⟩ := volumeOfDeleted_eq_some hperm hc hdeleted
  obtain rfl := AnyResource.persistentVolume.inj hres
  exact h c hc pv hpv' hcarries ref href

theorem applyPv
    (hown : ∀ c ∈ claims store, volumeName c = some (pvName pv) → ∀ ref ∈ claimRef pv, refersTo ref c = true) :
    CarriesOwn (store.apply (.persistentVolume pv)) := by
  intro c hc pv' hpv' hcarries ref href
  rw [mem_claims_apply_pv] at hc
  rcases mem_volumes_apply_pv.1 hpv' with rfl | ⟨-, hpv'⟩
  · exact hown c hc hcarries ref href
  · exact h c hc pv' hpv' hcarries ref href

theorem applyPvc (hown : ∀ pv ∈ volumes store, volumeName pvc = some (pvName pv) →
      ∀ ref ∈ claimRef pv, refersTo ref pvc = true) :
    CarriesOwn (store.apply (.persistentVolumeClaim pvc)) := by
  intro c hc pv hpv hcarries ref href
  rw [mem_volumes_apply_pvc] at hpv
  rcases mem_claims_apply_pvc.1 hc with rfl | ⟨-, hc⟩
  · exact hown pv hpv hcarries ref href
  · exact h c hc pv hpv hcarries ref href

theorem applyUnbound (hnone : volumeName pvc = none) :
    CarriesOwn (store.apply (.persistentVolumeClaim pvc)) := by
  refine h.applyPvc fun pv _ hcarries => ?_
  rw [hnone] at hcarries
  cases hcarries

theorem writeBinding (hfree : ∀ c ∈ claims store, volumeName c ≠ some (pvName pv))
    (hrefers : ∃ ref, claimRef pv = some ref ∧ refersTo ref pvc = true)
    (hcarries : volumeName pvc = some (pvName pv)) : CarriesOwn (writeBinding store pv pvc) := by
  obtain ⟨ref, href, hrefers⟩ := hrefers
  refine (h.applyPv fun c hc hname => absurd hname (hfree c hc)).applyPvc fun pv' hpv' hname ref' href' => ?_
  have hsame : pvName pv' = pvName pv := Option.some.inj (hname.symm.trans hcarries)
  rcases mem_volumes_apply_pv.1 hpv' with rfl | ⟨hne, -⟩
  · obtain rfl := Option.some.inj (href.symm.trans href')
    exact hrefers
  · exact absurd hsame hne

theorem delete (r : AnyResource) : CarriesOwn (store.delete r) := by
  intro c hc pv hpv
  exact h c (mem_claims.2 (ResourceStore.holds_delete.1 (mem_claims.1 hc)).2) pv
    (mem_volumes.2 (ResourceStore.holds_delete.1 (mem_volumes.1 hpv)).2)

end

end CarriesOwn

theorem binds_of_doProvision {pvc' : PersistentVolumeClaim} {pvUid : String} {result : Except Error Unit}
    {pv : PersistentVolume} (h : doProvision pvc cls pvUid result = .ok (pv, pvc')) :
    pvName pv = provisionedNameOf pvc ∧ (∃ ref, claimRef pv = some ref ∧ refersTo ref pvc' = true) ∧
      volumeName pvc' = some (pvName pv) := by
  have hmeta := (doProvision_eq_ok h).1
  unfold doProvision at h
  split at h
  · cases h
  · cases h
  · rename_i hprep
    obtain ⟨rfl, rfl⟩ := Prod.mk.inj (Except.ok.inj h)
    unfold preparePv at hprep
    split at hprep
    · cases hprep
    · rename_i spec hspec
      split at hprep
      · cases hprep
      · rename_i c _
        cases hsel : select c with
        | error e => simp [hsel, Except.map] at hprep
        | ok b =>
          simp only [hsel, Except.map, Except.ok.injEq, Prod.mk.injEq] at hprep
          obtain ⟨rfl, -⟩ := hprep
          refine ⟨rfl, ⟨_, rfl, ?_⟩, ?_⟩
          · rw [refersTo_congr hmeta]
            exact refersTo_iff.2 ⟨rfl, rfl⟩
          · simp only [volumeName, provisionedPvc, hspec, Option.map_some, Option.bind_some]
            rfl

theorem className_of_needsProvision {uid : String} (h : needsProvision pvc = .ok (some (cls, uid))) :
    className pvc = some cls := by
  unfold needsProvision at h
  unfold className
  cases hspec : pvc.spec with
  | none => simp [hspec] at h
  | some spec =>
    cases hcls : spec.storageClassName with
    | none => simp [hspec, hcls] at h
    | some cls' =>
      simp only [hspec, hcls] at h
      split_ifs at h
      · cases h
      · split at h
        · cases h
          exact hcls
        · cases h

theorem provisionForPvc_cases (store : ResourceStore) (pvc : PersistentVolumeClaim) (pvUid : String)
    (backend : Except Error Unit) :
    (provisionForPvc store pvc pvUid backend).2 = store ∨
      ∃ cls pv pvc', className pvc = some cls ∧ doProvision pvc cls pvUid backend = .ok (pv, pvc') ∧
        (provisionForPvc store pvc pvUid backend).2 = writeBinding store pv pvc' := by
  unfold provisionForPvc
  split
  · exact .inl rfl
  · exact .inl rfl
  · rename_i hneeds
    split_ifs
    · exact .inl rfl
    · split
      · exact .inl rfl
      · rename_i hprov
        exact .inr ⟨_, _, _, className_of_needsProvision hneeds, hprov, rfl⟩

/-- After a claim without a volume was posted, no claim carries a volume that only it might have
carried. -/
theorem uncarried_of_posted {v : String} (hnone : volumeName pvc = none) (h : CarriedByNoOther store pvc v) :
    ∀ c ∈ claims (store.apply (.persistentVolumeClaim pvc)), volumeName c ≠ some v := by
  intro c hc hcarries
  rcases mem_claims_apply_pvc.1 hc with rfl | ⟨hother, hc⟩
  · rw [hnone] at hcarries
    cases hcarries
  · exact hother (h c hc hcarries)

theorem CarriesOwn.step {store' : ResourceStore} {req : VolumeRequest} (h : CarriesOwn store)
    (hok : KeepsApart store req) (hstep : req.step store = some store') : CarriesOwn store' := by
  cases req with
  | createPv pv uid pvcs =>
    obtain ⟨hperm, rfl⟩ := step_createPv hstep
    have hcond : ∀ c ∈ claims store, volumeName c = some (pvName (postedPv pv uid)) →
        ∃ ref ∈ claimRef (postedPv pv uid), refersTo ref c = true := hok
    have hposted : CarriesOwn (store.apply (.persistentVolume (postedPv pv uid))) := by
      refine h.applyPv fun c hc hcarries ref href => ?_
      obtain ⟨ref', href', hrefers⟩ := hcond c hc hcarries
      obtain rfl := Option.some.inj (href.symm.trans href')
      exact hrefers
    unfold onApplyPv
    split_ifs with hlooks
    · have hnone : claimRef (postedPv pv uid) = none := by
        simp only [looksForClaim, Bool.and_eq_true, Option.isNone_iff_eq_none] at hlooks
        exact hlooks.1
      split
      · rename_i pv' pvc' hbind
        obtain ⟨hbinds, hmeta⟩ := binds_of_bindVolume hperm (by simp) hnone hbind
        refine hposted.writeBinding (fun c hc hcarries => ?_) hbinds.refers hbinds.carries
        rw [mem_claims_apply_pv] at hc
        rw [pvName_congr hmeta] at hcarries
        obtain ⟨ref, href, -⟩ := hcond c hc hcarries
        rw [hnone] at href
        cases href
      · exact hposted
    · exact hposted
  | createPvc ns pvc uid pvs pvUid backend =>
    obtain ⟨hperm, rfl⟩ := step_createPvc hstep
    have hvol : volumeName (postedPvc ns pvc uid) = volumeName pvc := rfl
    have hcls : className (postedPvc ns pvc uid) = className pvc := rfl
    simp only [KeepsApart] at hok
    unfold onApplyPvc
    rw [hvol, hcls]
    split_ifs at hok ⊢ with hsome hclass
    · exact h.applyPvc hok
    · have hnone : volumeName (postedPvc ns pvc uid) = none := Option.not_isSome_iff_eq_none.1 hsome
      have hposted := h.applyUnbound hnone
      rcases provisionForPvc_cases (store.apply (.persistentVolumeClaim (postedPvc ns pvc uid)))
        (postedPvc ns pvc uid) pvUid backend with hsame | ⟨cls, pv, pvc', -, hprov, hwrite⟩
      · rw [hsame]
        exact hposted
      · obtain ⟨hname, hrefers, hcarries⟩ := binds_of_doProvision hprov
        rw [hwrite]
        refine hposted.writeBinding ?_ hrefers hcarries
        rw [hname]
        exact uncarried_of_posted hnone hok
    · have hnone : volumeName (postedPvc ns pvc uid) = none := Option.not_isSome_iff_eq_none.1 hsome
      have hposted := h.applyUnbound hnone
      split
      · rename_i pv' pvc' hbind
        obtain ⟨hbinds, -⟩ := binds_of_bindClaim hperm (by simp) hnone hbind
        exact hposted.writeBinding (uncarried_of_posted hnone (hok _ hbind)) hbinds.refers hbinds.carries
      · exact hposted
  | deletePv name pvs =>
    simp only [VolumeRequest.step] at hstep
    split_ifs at hstep
    split at hstep <;> cases hstep
    · exact h.delete _
    · exact h
  | deletePvc ns name pvcs pvs =>
    simp only [VolumeRequest.step] at hstep
    split_ifs at hstep
    split at hstep
    · split at hstep <;> cases hstep
      · refine delete ?_ _
        unfold onDeletePvc
        split
        · exact h.delete _
        · exact h
      · exact h
    · cases hstep
      exact h

/-- Whatever requests were served, the deletion of a claim spares the volumes of the other claims, as
long as every request kept volumes and claims apart. -/
theorem sparesOthers_along {store : ResourceStore} {reqs : List VolumeRequest} (hclaims : claims store = [])
    (hok : Along VolumeRequest.step KeepsApart store reqs) :
    Always VolumeRequest.step SparesOthers store reqs := by
  refine always_of_invariant (fun _ _ _ h hok hstep => CarriesOwn.step h hok hstep)
    (fun _ h => h.sparesOthers) ?_ hok
  intro c hc
  rw [hclaims] at hc
  cases hc

private def looseVolume : PersistentVolume where
  metadata := { name := some "v", uid := some "1" }
  spec := some {}

private def volumeOfC : PersistentVolume where
  metadata := { name := some "v", uid := some "1" }
  spec := some { claimRef := some ⟨some "PersistentVolumeClaim", some "c", some "default"⟩ }
  status := some { phase := some "Bound" }

private def claimFor (name : String) (volumeName : Option String) : PersistentVolumeClaim where
  metadata := { name := some name, inNamespace := some "default", uid := some "2" }
  spec := some { volumeName }

private def createVAndC : List VolumeRequest :=
  [.createPv looseVolume "0" [],
    .createPvc "default" (claimFor "c" none) "0" [.new (.persistentVolume looseVolume)] "0" (.ok ())]

theorem sparesOthers_along_createVAndC :
    (∃ s ∈ run VolumeRequest.step .new createVAndC, volumes s = [volumeOfC]) ∧
    Always VolumeRequest.step SparesOthers .new createVAndC :=
  ⟨by decide +kernel, sparesOthers_along rfl (by decide +kernel)⟩

private def createVAndCAndD : List VolumeRequest :=
  createVAndC ++ [.createPvc "default" (claimFor "d" (some "v")) "0" [.new (.persistentVolume volumeOfC)]
    "0" (.ok ())]

/-- The claim `d` is posted with the volume of `c`; when it is deleted, the volume of `c` goes. -/
theorem volume_of_c_goes_with_d :
    ∃ s ∈ run VolumeRequest.step .new createVAndCAndD,
      claimFor "d" (some "v") ∈ claims s ∧ volumes s = [volumeOfC] ∧
      volumeOfDeleted s (claimFor "d" (some "v")) [.new (.persistentVolume volumeOfC)] =
        some (.persistentVolume volumeOfC) ∧
      refersTo ⟨some "PersistentVolumeClaim", some "c", some "default"⟩ (claimFor "c" (some "v")) = true ∧
      refersTo ⟨some "PersistentVolumeClaim", some "c", some "default"⟩ (claimFor "d" (some "v")) = false ∧
      volumes (onDeletePvc s (claimFor "d" (some "v")) [.new (.persistentVolume volumeOfC)]) = [] ∧
      ¬ SparesOthers s := by
  have hrun : ∃ s ∈ run VolumeRequest.step .new createVAndCAndD,
      claimFor "d" (some "v") ∈ claims s ∧ volumes s = [volumeOfC] ∧
      volumeOfDeleted s (claimFor "d" (some "v")) [.new (.persistentVolume volumeOfC)] =
        some (.persistentVolume volumeOfC) ∧
      volumes (onDeletePvc s (claimFor "d" (some "v")) [.new (.persistentVolume volumeOfC)]) = [] ∧
      [ResourceTracker.new (.persistentVolume volumeOfC)].Perm (s.getByKind "PersistentVolume") := by
    decide +kernel
  obtain ⟨s, hs, hd, hvol, hdeleted, hgone, hperm⟩ := hrun
  have hother : refersTo ⟨some "PersistentVolumeClaim", some "c", some "default"⟩
      (claimFor "d" (some "v")) = false := by decide
  refine ⟨s, hs, hd, hvol, hdeleted, by decide, hother, hgone, fun h => ?_⟩
  rw [h _ hd _ hperm volumeOfC hdeleted _ rfl] at hother
  cases hother

end Z8s.Storage
