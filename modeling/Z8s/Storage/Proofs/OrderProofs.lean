import Z8s.Storage.Proofs.DeletionProofs

/-!
# Proofs: the order in which a volume and a claim are created

The binding that each order leaves is computed from the volume and the claim (`HasBinding`).
-/

namespace Z8s.Storage

open Z8s.Types Netmux Transition

variable {pvcs pvs : List ResourceTracker}

/-- The claim carries `carries`, and `refers` is the one volume that refers to it. -/
structure HasBinding (store : ResourceStore) (pvc : PersistentVolumeClaim) (carries refers : Option String) :
    Prop where
  carried : carriedBy store (AnyResource.persistentVolumeClaim pvc).uid = carries
  referring : ∀ v, Refers store pvc v ↔ refers = some v

section Bindings

variable {store s s' : ResourceStore} {pv pv' : PersistentVolume} {pvc pvc' : PersistentVolumeClaim}
  {x y x' y' : Option String}

theorem HasBinding.same_iff (h : HasBinding s pvc x y) (h' : HasBinding s' pvc x' y') :
    SameBinding pvc s s' ↔ x = x' ∧ y = y' := by
  unfold SameBinding
  rw [h.carried, h'.carried]
  refine and_congr_right fun _ => ?_
  simp only [h.referring, h'.referring]
  constructor
  · intro hiff
    exact Option.ext hiff
  · rintro rfl v
    rfl

theorem carriedBy_of_mem (h : pvc ∈ claims store) :
    carriedBy store (AnyResource.persistentVolumeClaim pvc).uid = volumeName pvc := by
  obtain ⟨state, hget⟩ := mem_claims.1 h
  unfold carriedBy
  rw [hget]
  rfl

theorem hasBinding_none (hmem : pvc ∈ claims store) (hnone : volumeName pvc = none)
    (hvol : ∀ pv ∈ volumes store, claimRef pv = none) : HasBinding store pvc none none := by
  refine ⟨(carriedBy_of_mem hmem).trans hnone, fun v => ⟨?_, nofun⟩⟩
  rintro ⟨pv, hpv, -, ref, href, -⟩
  rw [hvol pv hpv] at href
  cases href

theorem hasBinding_writeBinding (hmeta : pvc'.metadata = pvc.metadata)
    (hrefers : ∃ ref, claimRef pv' = some ref ∧ refersTo ref pvc' = true)
    (hcarries : volumeName pvc' = some (pvName pv'))
    (hvol : ∀ pv ∈ volumes store, pvName pv ≠ pvName pv' → claimRef pv = none) :
    HasBinding (writeBinding store pv' pvc') pvc (some (pvName pv')) (some (pvName pv')) := by
  constructor
  · rw [← pvc_uid_congr hmeta, carriedBy_of_mem (by simp [writeBinding]), hcarries]
  · intro v
    constructor
    · rintro ⟨pv, hpv, rfl, ref, href, -⟩
      rw [writeBinding, mem_volumes_apply_pvc, mem_volumes_apply_pv] at hpv
      rcases hpv with rfl | ⟨hne, hpv⟩
      · rfl
      · rw [hvol pv hpv hne] at href
        cases href
    · rintro ⟨rfl⟩
      obtain ⟨ref, href, hrefers⟩ := hrefers
      refine ⟨pv', by simp [writeBinding], rfl, ref, href, ?_⟩
      rw [← refersTo_congr hmeta]
      exact hrefers

theorem HasBinding.postPv (h : HasBinding store pvc x y) (hnone : claimRef pv = none) :
    HasBinding (store.apply (.persistentVolume pv)) pvc x (if y = some (pvName pv) then none else y) := by
  constructor
  · unfold carriedBy
    rw [ResourceStore.get_apply_of_ne pv_uid_ne_pvc.symm]
    exact h.carried
  · intro v
    have hsplit : Refers (store.apply (.persistentVolume pv)) pvc v ↔
        v ≠ pvName pv ∧ Refers store pvc v := by
      constructor
      · rintro ⟨pv', hpv', rfl, ref, href, hrefers⟩
        rcases mem_volumes_apply_pv.1 hpv' with rfl | ⟨hne, hpv'⟩
        · rw [hnone] at href
          cases href
        · exact ⟨hne, pv', hpv', rfl, ref, href, hrefers⟩
      · rintro ⟨hne, pv', hpv', rfl, hrest⟩
        exact ⟨pv', mem_volumes_apply_pv.2 (.inr ⟨hne, hpv'⟩), rfl, hrest⟩
    rw [hsplit, h.referring]
    split_ifs with hy
    · rw [hy]
      simp [eq_comm]
    · constructor
      · exact fun hv => hv.2
      · rintro rfl
        exact ⟨fun hv => hy (by rw [hv]), rfl⟩

end Bindings

/-! ### What the two routines find -/

section Matching

variable {store : ResourceStore} {pv pv' : PersistentVolume} {pvc pvc' : PersistentVolumeClaim}

theorem findSome?_of_forall {α : Type} {f : AnyResource → Option α} {r : AnyResource}
    {l : List ResourceTracker} (hall : ∀ t ∈ l, t.resource = r) (hne : l ≠ []) :
    l.findSome? (fun t => f t.resource) = f r := by
  induction l with
  | nil => exact absurd rfl hne
  | cons t l ih =>
    have ht := hall t List.mem_cons_self
    rw [List.findSome?_cons, ht]
    cases hf : f r with
    | some a => rfl
    | none =>
      cases l with
      | nil => rfl
      | cons t' l => exact (ih (fun t ht => hall t (List.mem_cons_of_mem _ ht)) (by simp)).trans hf

theorem listed_nil_of_no_volumes (hperm : pvs.Perm (store.getByKind "PersistentVolume"))
    (hnone : ∀ pv, pv ∉ volumes store) : pvs = [] := by
  refine List.eq_nil_iff_forall_not_mem.2 fun t ht => ?_
  obtain ⟨pv, hpv, -⟩ := mem_volumes_of_listed hperm ht
  exact hnone pv hpv

theorem listed_nil_of_no_claims (hperm : pvcs.Perm (store.getByKind "PersistentVolumeClaim"))
    (hnone : ∀ c, c ∉ claims store) : pvcs = [] := by
  refine List.eq_nil_iff_forall_not_mem.2 fun t ht => ?_
  obtain ⟨pvc, hpvc, -⟩ := mem_claims_of_listed hperm ht
  exact hnone pvc hpvc

theorem listed_volume (hperm : pvs.Perm (store.getByKind "PersistentVolume"))
    (hone : ∀ pv', pv' ∈ volumes store ↔ pv' = pv) :
    (∀ t ∈ pvs, t.resource = .persistentVolume pv) ∧ pvs ≠ [] := by
  constructor
  · intro t ht
    obtain ⟨pv', hpv', hres⟩ := mem_volumes_of_listed hperm ht
    rw [hres, (hone pv').1 hpv']
  · rintro rfl
    obtain ⟨state, hget⟩ := mem_volumes.1 ((hone pv).2 rfl)
    have hmem : ⟨.persistentVolume pv, state⟩ ∈ store.getByKind "PersistentVolume" :=
      ResourceStore.mem_getByKind.2 ⟨hget, rfl⟩
    rw [← hperm.mem_iff] at hmem
    cases hmem

theorem listed_claim (hperm : pvcs.Perm (store.getByKind "PersistentVolumeClaim"))
    (hone : ∀ c, c ∈ claims store ↔ c = pvc) :
    (∀ t ∈ pvcs, t.resource = .persistentVolumeClaim pvc) ∧ pvcs ≠ [] := by
  constructor
  · intro t ht
    obtain ⟨c, hc, hres⟩ := mem_claims_of_listed hperm ht
    rw [hres, (hone c).1 hc]
  · rintro rfl
    obtain ⟨state, hget⟩ := mem_claims.1 ((hone pvc).2 rfl)
    have hmem : ⟨.persistentVolumeClaim pvc, state⟩ ∈ store.getByKind "PersistentVolumeClaim" :=
      ResourceStore.mem_getByKind.2 ⟨hget, rfl⟩
    rw [← hperm.mem_iff] at hmem
    cases hmem

theorem bindClaim_isSome (pvc : PersistentVolumeClaim) (hall : ∀ t ∈ pvs, t.resource = .persistentVolume pv)
    (hne : pvs ≠ []) (hnone : claimRef pv = none) :
    (bindClaim pvc pvs).isSome = true ↔
      (tryBindPvc pv pvc).isSome = true ∧ pv.status.bind (·.phase) ≠ some "Bound" := by
  unfold bindClaim findMatchingPv tryBindPvc
  cases hpvc : pvc.spec with
  | none => cases pv.spec <;> simp
  | some pvcSpec =>
    rw [Option.bind_some, findSome?_of_forall hall hne]
    simp only [matchPv, hnone, Option.isSome_none, Bool.false_eq_true, if_false]
    cases hpv : pv.spec with
    | none =>
      simp only [Option.bind_none, Option.isSome_none, Bool.false_eq_true, false_and, iff_false]
      split_ifs <;> simp [hpv]
    | some pvSpec =>
      by_cases hphase : pv.status.bind (·.phase) = some "Bound"
      · simp [hphase]
      · simp only [hphase, beq_iff_eq, if_false, Option.bind_some, ne_eq, not_false_eq_true, and_true]
        split_ifs with hcap hmodes
        · simp
        · simp
        · cases hname : pv.metadata.name <;> simp [hname, hpv]

theorem bindVolume_isSome (pv : PersistentVolume)
    (hall : ∀ t ∈ pvcs, t.resource = .persistentVolumeClaim pvc) (hne : pvcs ≠ []) :
    (bindVolume pv pvcs).isSome = true ↔ volumeName pvc = none ∧ (tryBindPvc pv pvc).isSome = true := by
  unfold bindVolume
  rw [findSome?_of_forall hall hne]
  simp only [bindVolumeTo]
  split_ifs with hvol
  · simp [Option.ne_none_iff_isSome.2 hvol]
  · simp [Option.not_isSome_iff_eq_none.1 hvol]

end Matching

/-! ### The two orders -/

section Orders

variable {store s : ResourceStore} {pv : PersistentVolume} {pvc : PersistentVolumeClaim}
  {ns uid pvUid : String} {backend : Except Error Unit} {l : List ResourceTracker}

theorem onApplyPvc_of_class {cls : String} (hvol : volumeName pvc = none) (hcls : className pvc = some cls)
    (huid : pvc.metadata.uid.isSome) (hclaims : ∀ c, c ∈ claims store ↔ c = pvc) :
    (∀ e, doProvision pvc cls pvUid backend = .error e →
        onApplyPvc store pvc l pvUid backend = store) ∧
      ∀ b, doProvision pvc cls pvUid backend = .ok b →
        onApplyPvc store pvc l pvUid backend = writeBinding store b.1 b.2 := by
  obtain ⟨spec, hspec, hclass⟩ := Option.bind_eq_some_iff.1 hcls
  obtain ⟨u, hu⟩ := Option.isSome_iff_exists.1 huid
  have hvol' : spec.volumeName = none := by
    rw [← hvol, volumeName, hspec]
    rfl
  have hneeds : needsProvision pvc = .ok (some (cls, u)) := by
    unfold needsProvision
    simp only [hspec, hclass, hvol', Option.isSome_none, Bool.false_eq_true, if_false, hu]
  have hfree : boundInStore store pvc = false := by
    rw [← Bool.not_eq_true, boundInStore_iff]
    rintro ⟨c, hget, hbound⟩
    obtain ⟨t, ht, hres⟩ := Option.map_eq_some_iff.1 hget
    have hholds := ResourceStore.holds_of_get ht
    rw [hres, ← mem_claims, hclaims] at hholds
    rw [hholds, hvol] at hbound
    cases hbound
  unfold onApplyPvc provisionForPvc
  rw [hvol, hcls, hneeds]
  simp only [Option.isSome_none, Bool.false_eq_true, if_false, Option.isSome_some, if_true, hfree]
  exact ⟨fun e he => by rw [he], fun b hb => by rw [hb]⟩

def volumeFirst (pv : PersistentVolume) (pvc : PersistentVolumeClaim) (pvUid : String)
    (backend : Except Error Unit) : Option String :=
  match className pvc with
  | none =>
    if (tryBindPvc pv pvc).isSome ∧ pv.status.bind (·.phase) ≠ some "Bound" then some (pvName pv) else none
  | some cls => if (doProvision pvc cls pvUid backend).isOk then some (provisionedNameOf pvc) else none

def claimFirst (pv : PersistentVolume) (pvc : PersistentVolumeClaim) (pvUid : String)
    (backend : Except Error Unit) : Option String :=
  match className pvc with
  | none => if (tryBindPvc pv pvc).isSome then some (pvName pv) else none
  | some cls =>
    if (doProvision pvc cls pvUid backend).isOk then some (provisionedNameOf pvc)
    else if (tryBindPvc pv pvc).isSome then some (pvName pv) else none

theorem hasBinding_of_class {cls : String} (hvol : volumeName pvc = none)
    (hcls : className pvc = some cls) (huid : pvc.metadata.uid.isSome)
    (hclaims : ∀ c, c ∈ claims store ↔ c = pvc) (hvolumes : ∀ pv ∈ volumes store, claimRef pv = none) :
    HasBinding (onApplyPvc store pvc l pvUid backend) pvc (volumeFirst pv pvc pvUid backend)
      (volumeFirst pv pvc pvUid backend) := by
  obtain ⟨hfails, hworks⟩ := onApplyPvc_of_class hvol hcls huid hclaims
  unfold volumeFirst
  rw [hcls]
  dsimp only
  cases hprov : doProvision pvc cls pvUid backend with
  | error e =>
    rw [hfails e hprov]
    exact hasBinding_none ((hclaims pvc).2 rfl) hvol hvolumes
  | ok b =>
    obtain ⟨hname, hrefers, hcarries⟩ := binds_of_doProvision hprov
    rw [hworks b hprov, ← hname]
    exact hasBinding_writeBinding (doProvision_eq_ok hprov).1 hrefers hcarries
      fun pv hpv _ => hvolumes pv hpv

theorem onApplyPvc_of_no_class (hvol : volumeName pvc = none) (hcls : className pvc = none) :
    onApplyPvc store pvc l pvUid backend = ((bindClaim pvc l).map fun b =>
      writeBinding store b.1 b.2).getD store := by
  unfold onApplyPvc
  rw [hvol, hcls]
  cases bindClaim pvc l <;> rfl

theorem onApplyPv_of_looks (h : looksForClaim pv = true) :
    onApplyPv store pv l = ((bindVolume pv l).map fun b => writeBinding store b.1 b.2).getD store := by
  unfold onApplyPv
  rw [if_pos h]
  cases bindVolume pv l <;> rfl

theorem hasBinding_onApplyPv (hvol : volumeName pvc = none) (hpv : pv ∈ volumes store)
    (hclaims : ∀ c, c ∈ claims store ↔ c = pvc) (hvolumes : ∀ pv ∈ volumes store, claimRef pv = none)
    (hperm : l.Perm (store.getByKind "PersistentVolumeClaim")) :
    HasBinding (onApplyPv store pv l) pvc (if (tryBindPvc pv pvc).isSome then some (pvName pv) else none)
      (if (tryBindPvc pv pvc).isSome then some (pvName pv) else none) := by
  have hunbound := hasBinding_none ((hclaims pvc).2 rfl) hvol hvolumes
  cases hname : pv.metadata.name with
  | none =>
    have hlooks : looksForClaim pv = false := by simp [looksForClaim, hname]
    have hno : tryBindPvc pv pvc = none := by
      unfold tryBindPvc
      rw [hname]
      cases pv.spec <;> cases pvc.spec <;> simp
    unfold onApplyPv
    rw [hlooks, hno]
    exact hunbound
  | some name =>
    have hlooks : looksForClaim pv = true := by simp [looksForClaim, hname, hvolumes pv hpv]
    obtain ⟨hall, hne⟩ := listed_claim hperm hclaims
    have hiff := bindVolume_isSome pv hall hne
    rw [onApplyPv_of_looks hlooks]
    cases hbind : bindVolume pv l with
    | none =>
      rw [hbind] at hiff
      have hno : ¬ (tryBindPvc pv pvc).isSome = true := fun h => by simp [hvol, h] at hiff
      rw [if_neg hno]
      exact hunbound
    | some b =>
      rw [hbind] at hiff
      rw [if_pos (hiff.1 rfl).2]
      obtain ⟨hbinds, hmeta⟩ := binds_of_bindVolume hperm hpv (hvolumes pv hpv) hbind
      obtain ⟨c, hc, hmeta', -⟩ := hbinds.claim
      rw [(hclaims c).1 hc] at hmeta'
      rw [← pvName_congr hmeta]
      exact hasBinding_writeBinding hmeta' hbinds.refers hbinds.carries fun pv hpv _ => hvolumes pv hpv

theorem onApplyPv_of_no_claims (hclaims : claims store = [])
    (hperm : l.Perm ((store.apply (.persistentVolume pv)).getByKind "PersistentVolumeClaim")) :
    onApplyPv (store.apply (.persistentVolume pv)) pv l = store.apply (.persistentVolume pv) := by
  rw [listed_nil_of_no_claims hperm (by simp [hclaims])]
  unfold onApplyPv
  split_ifs <;> rfl

theorem hasBinding_volumeFirst (hclaims : claims store = []) (hvolumes : volumes store = [])
    (hpv : claimRef pv = none) (hpvc : volumeName pvc = none) (huid : pvc.metadata.uid.isSome)
    (hs : s = (store.apply (.persistentVolume pv)).apply (.persistentVolumeClaim pvc))
    (hperm : l.Perm (s.getByKind "PersistentVolume")) :
    HasBinding (onApplyPvc s pvc l pvUid backend) pvc (volumeFirst pv pvc pvUid backend)
      (volumeFirst pv pvc pvUid backend) := by
  have hone : ∀ pv', pv' ∈ volumes s ↔ pv' = pv := by simp [hs, hvolumes]
  have hclaim : ∀ c, c ∈ claims s ↔ c = pvc := by simp [hs, hclaims]
  have hunbound : ∀ pv' ∈ volumes s, claimRef pv' = none := fun pv' hpv' => by rw [(hone pv').1 hpv', hpv]
  cases hcls : className pvc with
  | some cls => exact hasBinding_of_class hpvc hcls huid hclaim hunbound
  | none =>
    obtain ⟨hall, hne⟩ := listed_volume hperm hone
    have hiff := bindClaim_isSome pvc hall hne hpv
    rw [onApplyPvc_of_no_class hpvc hcls]
    unfold volumeFirst
    rw [hcls]
    dsimp only
    cases hbind : bindClaim pvc l with
    | none =>
      rw [hbind] at hiff
      rw [if_neg fun h => by simpa using hiff.2 h]
      exact hasBinding_none ((hclaim _).2 rfl) hpvc hunbound
    | some b =>
      rw [hbind] at hiff
      rw [if_pos (hiff.1 rfl)]
      obtain ⟨hbinds, hmeta⟩ := binds_of_bindClaim hperm ((hclaim _).2 rfl) hpvc hbind
      obtain ⟨pv', hpv', hname, -⟩ := hbinds.volume
      rw [(hone pv').1 hpv'] at hname
      rw [hname]
      exact hasBinding_writeBinding hmeta hbinds.refers hbinds.carries fun pv hpv _ => hunbound pv hpv

/-- The volume that refers to the claim when the claim is created first: one that was provisioned is
overwritten when the volume has its name. -/
def claimFirstReferring (pv : PersistentVolume) (pvc : PersistentVolumeClaim) (pvUid : String)
    (backend : Except Error Unit) : Option String :=
  match className pvc with
  | none => claimFirst pv pvc pvUid backend
  | some cls =>
    if (doProvision pvc cls pvUid backend).isOk then
      if some (provisionedNameOf pvc) = some (pvName pv) then none else some (provisionedNameOf pvc)
    else claimFirst pv pvc pvUid backend

theorem hasBinding_claimFirst (hclaims : claims store = []) (hvolumes : volumes store = [])
    (hpv : claimRef pv = none) (hpvc : volumeName pvc = none) (huid : pvc.metadata.uid.isSome)
    {l' : List ResourceTracker}
    (hperm' : l'.Perm ((store.apply (.persistentVolumeClaim pvc)).getByKind "PersistentVolume"))
    (hs : s = onApplyPvc (store.apply (.persistentVolumeClaim pvc)) pvc l' pvUid backend)
    (hperm : l.Perm ((s.apply (.persistentVolume pv)).getByKind "PersistentVolumeClaim")) :
    HasBinding (onApplyPv (s.apply (.persistentVolume pv)) pv l) pvc (claimFirst pv pvc pvUid backend)
      (claimFirstReferring pv pvc pvUid backend) := by
  have hclaim : ∀ c, c ∈ claims (store.apply (.persistentVolumeClaim pvc)) ↔ c = pvc := by simp [hclaims]
  -- the claim is bound to the volume if it was not bound before
  have hunbound (hs : s = store.apply (.persistentVolumeClaim pvc)) :
      HasBinding (onApplyPv (s.apply (.persistentVolume pv)) pv l) pvc
        (if (tryBindPvc pv pvc).isSome then some (pvName pv) else none)
        (if (tryBindPvc pv pvc).isSome then some (pvName pv) else none) :=
    hasBinding_onApplyPv hpvc (by simp) (by simp [hs, hclaims]) (by simp [hs, hvolumes, hpv]) hperm
  unfold claimFirstReferring claimFirst
  cases hcls : className pvc with
  | none =>
    refine hunbound ?_
    rw [hs, onApplyPvc_of_no_class hpvc hcls, listed_nil_of_no_volumes hperm' (by simp [hvolumes])]
    have hno : bindClaim pvc [] = none := by
      unfold bindClaim findMatchingPv
      cases pvc.spec <;> rfl
    rw [hno]
    rfl
  | some cls =>
    dsimp only
    obtain ⟨hfails, hworks⟩ := onApplyPvc_of_class hpvc hcls huid hclaim
    cases hprov : doProvision pvc cls pvUid backend with
    | error e => exact hunbound (by rw [hs, hfails e hprov])
    | ok b =>
      rw [hworks b hprov] at hs
      obtain ⟨hname, hrefers, hcarries⟩ := binds_of_doProvision hprov
      have hmeta := (doProvision_eq_ok hprov).1
      have hbound : HasBinding s pvc (some (pvName b.1)) (some (pvName b.1)) := by
        rw [hs]
        exact hasBinding_writeBinding hmeta hrefers hcarries (by simp [hvolumes])
      -- the one claim carries a volume, and the handler of the volume skips it
      have hone : ∀ c, c ∈ claims (s.apply (.persistentVolume pv)) ↔ c = b.2 := by
        intro c
        rw [mem_claims_apply_pv, hs, writeBinding, mem_claims_apply_pvc, mem_claims_apply_pv, hclaim]
        constructor
        · rintro (rfl | ⟨hother, rfl⟩)
          · rfl
          · exact absurd (pvc_uid_congr hmeta).symm hother
        · exact .inl
      have hskip : onApplyPv (s.apply (.persistentVolume pv)) pv l = s.apply (.persistentVolume pv) := by
        cases hlooks : looksForClaim pv with
        | false =>
          unfold onApplyPv
          rw [hlooks]
          rfl
        | true =>
          obtain ⟨hall, hne⟩ := listed_claim hperm hone
          have hiff := bindVolume_isSome pv hall hne
          rw [hcarries] at hiff
          have hno : bindVolume pv l = none :=
            Option.not_isSome_iff_eq_none.1 fun h => by simpa using hiff.1 h
          rw [onApplyPv_of_looks hlooks, hno]
          rfl
      rw [hskip, ← hname]
      exact hbound.postPv hpv

end Orders

/-- Creating a volume and then a claim leaves the same binding as creating them the other way round
exactly when neither of the two matching routines sees what the other one does not look at. -/
theorem same_binding_iff {store s s' : ResourceStore} {pv : PersistentVolume} {pvc : PersistentVolumeClaim}
    {ns uid uid' pvUid : String} {backend : Except Error Unit} {l₁ l₂ l₃ l₄ : List ResourceTracker}
    (hclaims : claims store = []) (hvolumes : volumes store = []) (hpv : claimRef pv = none)
    (hpvc : volumeName pvc = none)
    (hrun : run VolumeRequest.step store [.createPv pv uid l₁, .createPvc ns pvc uid' l₂ pvUid backend] =
      some s)
    (hrun' : run VolumeRequest.step store [.createPvc ns pvc uid' l₃ pvUid backend, .createPv pv uid l₄] =
      some s') :
    SameBinding (postedPvc ns pvc uid') s s' ↔
      OrderIrrelevant (postedPv pv uid) (postedPvc ns pvc uid') pvUid backend := by
  obtain ⟨_, hpv₁, hrun⟩ := run_cons_eq_some.1 hrun
  obtain ⟨_, hpvc₁, ⟨⟩⟩ := run_cons_eq_some.1 hrun
  obtain ⟨_, hpvc₂, hrun'⟩ := run_cons_eq_some.1 hrun'
  obtain ⟨_, hpv₂, ⟨⟩⟩ := run_cons_eq_some.1 hrun'
  obtain ⟨hperm₁, rfl⟩ := step_createPv hpv₁
  obtain ⟨hperm₂, rfl⟩ := step_createPvc hpvc₁
  obtain ⟨hperm₃, hs₃⟩ := step_createPvc hpvc₂
  obtain ⟨hperm₄, rfl⟩ := step_createPv hpv₂
  have hnone : claimRef (postedPv pv uid) = none := hpv
  have hvol : volumeName (postedPvc ns pvc uid') = none := hpvc
  have huid : (postedPvc ns pvc uid').metadata.uid.isSome := by simp [postedPvc]
  rw [(hasBinding_volumeFirst hclaims hvolumes hnone hvol huid (by rw [onApplyPv_of_no_claims hclaims hperm₁])
    hperm₂).same_iff (hasBinding_claimFirst hclaims hvolumes hnone hvol huid hperm₃ hs₃ hperm₄)]
  unfold OrderIrrelevant claimFirstReferring claimFirst volumeFirst
  cases className (postedPvc ns pvc uid') with
  | none =>
    dsimp only
    by_cases hfits : (tryBindPvc (postedPv pv uid) (postedPvc ns pvc uid')).isSome = true
    · by_cases hphase : (postedPv pv uid).status.bind (·.phase) = some "Bound" <;> simp [hfits, hphase]
    · simp [hfits]
  | some cls =>
    dsimp only
    by_cases hprov : (doProvision (postedPvc ns pvc uid') cls pvUid backend).isOk = true
    · by_cases hname : pvName (postedPv pv uid) = provisionedNameOf (postedPvc ns pvc uid')
      · simp [hprov, hname]
      · simp [hprov, hname, Ne.symm hname]
    · by_cases hfits : (tryBindPvc (postedPv pv uid) (postedPvc ns pvc uid')).isSome = true <;>
        simp [hprov, hfits]

private def anyVolume : PersistentVolume where
  metadata := { name := some "v", uid := some "1" }
  spec := some {}

private def claimOfClass (cls : Option String) : PersistentVolumeClaim where
  metadata := { name := some "c", inNamespace := some "default", uid := some "2" }
  spec := some { storageClassName := cls }

private def volumeThenClaim (cls : Option String) : Option ResourceStore :=
  run VolumeRequest.step .new [.createPv anyVolume "0" [],
    .createPvc "default" (claimOfClass cls) "0" [.new (.persistentVolume anyVolume)] "0" (.ok ())]

private def claimThenVolume (cls : Option String) : Option ResourceStore :=
  run VolumeRequest.step .new [.createPvc "default" (claimOfClass cls) "0" [] "0" (.ok ()),
    .createPv anyVolume "0" [.new (.persistentVolumeClaim (claimOfClass cls))]]

/-- A claim without a class is bound to the volume in both orders. -/
theorem same_binding_without_class :
    ∃ s ∈ volumeThenClaim none, ∃ s' ∈ claimThenVolume none,
      carriedBy s "PersistentVolumeClaim/default/c" = some "v" ∧
      SameBinding (postedPvc "default" (claimOfClass none) "0") s s' := by
  have hruns : ∃ s ∈ volumeThenClaim none, ∃ s' ∈ claimThenVolume none,
      carriedBy s "PersistentVolumeClaim/default/c" = some "v" := by decide +kernel
  obtain ⟨s, hs, s', hs', hcarried⟩ := hruns
  exact ⟨s, hs, s', hs', hcarried, (same_binding_iff rfl rfl rfl rfl hs hs').2 (by decide +kernel)⟩

/-- A claim of an unknown class stays unbound when the volume is there before, and is bound to a volume
that is created afterwards. -/
theorem binding_depends_on_order :
    ∃ s ∈ volumeThenClaim (some "gold"), ∃ s' ∈ claimThenVolume (some "gold"),
      carriedBy s "PersistentVolumeClaim/default/c" = none ∧
      carriedBy s' "PersistentVolumeClaim/default/c" = some "v" ∧
      ¬ SameBinding (postedPvc "default" (claimOfClass (some "gold")) "0") s s' := by
  have hruns : ∃ s ∈ volumeThenClaim (some "gold"), ∃ s' ∈ claimThenVolume (some "gold"),
      carriedBy s "PersistentVolumeClaim/default/c" = none ∧
      carriedBy s' "PersistentVolumeClaim/default/c" = some "v" := by decide +kernel
  obtain ⟨s, hs, s', hs', hnone, hsome⟩ := hruns
  refine ⟨s, hs, s', hs', hnone, hsome, fun h => ?_⟩
  have hcarried : carriedBy s "PersistentVolumeClaim/default/c" =
      carriedBy s' "PersistentVolumeClaim/default/c" := h.1
  rw [hnone, hsome] at hcarried
  cases hcarried

end Z8s.Storage
