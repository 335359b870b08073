import Z8s.Allocation.Counter
import Z8s.Api.Proofs.ClusterIpsProofs
import Z8s.Proofs.TypesProofs
import Z8s.Transition.Proofs.RunProofs

/-!
# Proofs: ClusterIPs and node ports

Both are handed out by a counter that never looks at the store.
-/

namespace Z8s.Api

open Rust Z8s.Types Allocation Transition ResourceStore AnyResource ServicePort List

variable {prof : Profile} {cfg : Config} {s s' : ServiceState}
variable {i : Nat} {r : AnyResource}

/-! ### What the counters give -/

theorem Config.clusterIpAt_inj {hosts j : Nat} (haligned : cfg.Aligned) (hbits : cfg.hostBits < 32)
    (hhosts : hosts = 2 ^ cfg.hostBits - 2) (hi : i < hosts) (hj : j < hosts)
    (h : cfg.clusterIpAt hosts i = cfg.clusterIpAt hosts j) : i = j := by
  subst hhosts
  have heq : (cfg.addressAt i).toNat = (cfg.addressAt j).toNat := congrArg BitVec.toNat (dotted_inj h)
  rw [toNat_addressAt haligned hbits hi, toNat_addressAt haligned hbits hj] at heq
  omega

theorem nodePortAt_val {n : Nat} (h : n < 2 ^ 16) : (nodePortAt n).val = n := by
  simp only [nodePortAt, asI32]
  omega

theorem nodePortAt_inj {j : Nat} (hi : i < 2 ^ 16) (hj : j < 2 ^ 16) (h : nodePortAt i = nodePortAt j) :
    i = j := by
  have hval := congrArg Subtype.val h
  rw [nodePortAt_val hi, nodePortAt_val hj] at hval
  omega

/-! ### Holders of values -/

section Holders

variable {V : Type} {held : AnyResource → List V} {give : Nat → V} {store : ResourceStore} {next limit : Nat}

theorem Unshared.of_allotted (h : Allotted store.Holds uid held give next limit) :
    Unshared held store := by
  have hholds : ∀ t ∈ store.getAll, store.Holds t.resource := fun t ht =>
    holds_of_get (mem_getAll.1 ht)
  refine ⟨fun t ht => h.nodup _ (hholds t ht), fun t ht t' ht' v hv hv' => ?_⟩
  have huid := h.apart _ _ v (hholds t ht) (hholds t' ht') hv hv'
  have hget := mem_getAll.1 ht
  rw [huid, mem_getAll.1 ht'] at hget
  exact (Option.some.inj hget).symm

theorem HeldByNoOther.notMem {uid : String} {v : V} (h : HeldByNoOther held store uid v)
    (hr : store.Holds r) (huid : r.uid ≠ uid) : v ∉ held r := by
  obtain ⟨state, hget⟩ := hr
  exact h ⟨r, state⟩ (mem_getAll.2 hget) huid

theorem allotted_apply (h : Allotted store.Holds uid held give next limit) {next' : Nat}
    (hnodup : (held r).Nodup)
    (hfree : ∀ v ∈ held r, (∃ i, next ≤ i ∧ i < limit ∧ v = give i) ∨ HeldByNoOther held store r.uid v)
    (htoCome : ∀ v ∈ held r, ∀ i, next' ≤ i → i < limit → v ≠ give i) (hnext : next ≤ next') :
    Allotted (store.apply r).Holds uid held give next' limit := by
  refine h.enter (fun x hx => holds_apply.1 hx) hnodup (fun v hv => ?_) htoCome hnext
  exact (hfree v hv).imp_right fun hother x hx huid => hother.notMem hx huid

end Holders

/-! ### Requests -/

/-- What a request does to the store and the counters. -/
inductive RequestMove (prof : Profile) (cfg : Config) (s : ServiceState) :
    ServiceRequest → ServiceState → Prop
  | created {ns uuid svc created ipCounter nodePortCounter}
    (h : createdService prof cfg s ns uuid svc = .ok (created, ipCounter, nodePortCounter)) :
    RequestMove prof cfg s (.create ns uuid svc) ⟨s.store.apply (.service created), ipCounter, nodePortCounter⟩
  | updated (ns name merged) :
    RequestMove prof cfg s (.update ns name merged)
      { s with store := s.store.apply (.service (updatedService ns name merged)) }
  | deleted (ns name r) :
    RequestMove prof cfg s (.delete ns name) { s with store := s.store.delete r }
  | unchanged (e) : RequestMove prof cfg s e s

variable {e : ServiceRequest} {created svc : Service} {ns uuid : String} {ports : List ServicePort}
  {counter ipCounter nodePortCounter : Nat} {withNodePort : Bool}

theorem requestMove_of_step (h : s.step prof cfg e = some s') : RequestMove prof cfg s e s' := by
  cases e with
  | create ns uuid svc =>
    rw [ServiceState.step] at h
    split at h
    · rename_i hcreated
      cases h
      exact .created hcreated
    · cases h
      exact .unchanged _
  | update ns name merged =>
    cases h
    exact .updated ns name merged
  | delete ns name =>
    rw [ServiceState.step] at h
    split at h
    · cases h
      exact .deleted ns name _
    · cases h
      exact .unchanged _

theorem allotted_delete {V : Type} {held : AnyResource → List V} {give : Nat → V} {store : ResourceStore}
    {next limit : Nat} (h : Allotted store.Holds uid held give next limit) (r : AnyResource) :
    Allotted (store.delete r).Holds uid held give next limit :=
  h.leave fun _ hx => (holds_delete.1 hx).2

/-! ### ClusterIPs -/

theorem nodup_clusterIpsOf (r : AnyResource) : (clusterIpsOf r).Nodup := by
  cases r with
  | service svc =>
    rw [clusterIpsOf]
    cases (svc.spec.bind ServiceSpec.clusterIp).filter fun ip => ip != "" && ip != "None" <;> simp
  | _ => exact nodup_nil

theorem uid_of_metadata (svc : Service) {metadata : ObjectMeta} (h : created.metadata = metadata) :
    (AnyResource.service created).uid = (AnyResource.service { svc with metadata }).uid := by
  simp only [AnyResource.uid, AnyResource.kind, AnyResource.namespaceOf, AnyResource.name, AnyResource.metadata, h]

theorem clusterIp_createdService
    (h : createdService prof cfg s ns uuid svc = .ok (created, ipCounter, nodePortCounter)) :
    created.metadata = fillCreated ns uuid svc.metadata ∧
    if (svc.spec.map needsClusterIp).getD false then
      ∃ hosts, cfg.maxHosts prof = .ok hosts ∧ ipCounter = s.ipCounter + 1 ∧
        ∀ ip ∈ clusterIpsOf (.service created), ip = cfg.clusterIpAt hosts s.ipCounter
    else ipCounter = s.ipCounter ∧ clusterIpsOf (.service created) = clusterIpsOf (.service svc) := by
  rw [createdService] at h
  cases hspec : svc.spec with
  | none =>
    simp only [hspec] at h
    cases h
    simp [clusterIpsOf, hspec]
  | some spec =>
    simp only [hspec, assignClusterIp] at h
    simp only [Option.map_some, Option.getD_some]
    by_cases hneeds : needsClusterIp spec = true
    · rw [if_pos hneeds, Config.allocClusterIp] at h
      rw [if_pos hneeds]
      cases hhosts : cfg.maxHosts prof with
      | error e =>
        rw [hhosts] at h
        cases h
      | ok hosts =>
        rw [hhosts] at h
        cases h
        refine ⟨rfl, hosts, rfl, rfl, fun ip hip => ?_⟩
        rw [clusterIpsOf, Option.mem_toList, Option.filter_eq_some_iff] at hip
        exact (Option.some.inj hip.1).symm
    · rw [if_neg hneeds] at h
      rw [if_neg hneeds]
      cases h
      simp [clusterIpsOf, hspec]

def ClusterIpsAllotted (cfg : Config) (s : ServiceState) : Prop :=
  Allotted s.store.Holds AnyResource.uid clusterIpsOf (cfg.clusterIpAt (2 ^ cfg.hostBits - 2)) s.ipCounter
    (2 ^ cfg.hostBits - 2)

theorem ClusterIpsAllotted.choose (h : ClusterIpsAllotted cfg s) (hfree : FreeClusterIp cfg s svc) :
    ClusterIpsAllotted cfg ⟨s.store.apply (.service svc), s.ipCounter, nodePortCounter⟩ :=
  allotted_apply h (nodup_clusterIpsOf _) (fun ip hip => .inr (hfree ip hip).1)
    (fun ip hip i hle hlt => (hfree ip hip).2 i hlt hle) (Nat.le_refl _)

theorem clusterIpsAllotted_step (haligned : cfg.Aligned) (h : ClusterIpsAllotted cfg s)
    (hkeeps : KeepsClusterIps cfg s e) (hstep : s.step prof cfg e = some s') :
    ClusterIpsAllotted cfg s' := by
  cases requestMove_of_step hstep with
  | unchanged => exact h
  | deleted ns name r => exact allotted_delete h r
  | updated ns name merged => exact h.choose hkeeps
  | @created ns uuid svc created ipCounter nodePortCounter hcreated =>
    obtain ⟨hmeta, hips⟩ := clusterIp_createdService hcreated
    have huid := uid_of_metadata svc hmeta
    rw [KeepsClusterIps] at hkeeps
    split at hips
    · rename_i hneeds
      rw [if_pos hneeds] at hkeeps
      obtain ⟨hosts, hhosts, rfl, hip⟩ := hips
      obtain rfl : 2 ^ cfg.hostBits - 2 = hosts := by
        rw [Config.maxHosts, if_pos hkeeps.2] at hhosts
        exact Except.ok.inj hhosts
      refine allotted_apply h (nodup_clusterIpsOf _) (fun ip hmem => .inl ⟨s.ipCounter, ?_⟩)
        (fun ip hmem i hle hlt heq => ?_) (Nat.le_succ _)
      · exact ⟨Nat.le_refl _, hkeeps.1, hip ip hmem⟩
      · -- the address that was given is not given again
        rw [hip ip hmem] at heq
        have hi : s.ipCounter = i := cfg.clusterIpAt_inj haligned hkeeps.2 rfl hkeeps.1 hlt heq
        exact absurd hle (by simp [hi])
    · rename_i hneeds
      rw [if_neg hneeds] at hkeeps
      obtain ⟨rfl, heq⟩ := hips
      refine h.choose fun ip hmem => ?_
      rw [heq] at hmem
      rw [huid]
      exact hkeeps ip hmem

/-- No two Services have one ClusterIP, as long as every ClusterIP that is chosen is free and the counter stays
in the range. -/
theorem clusterIps_unshared_along (haligned : cfg.Aligned) {requests : List ServiceRequest}
    (hok : Along (ServiceState.step prof cfg) (KeepsClusterIps cfg) .init requests) :
    Always (ServiceState.step prof cfg) (fun s => Unshared clusterIpsOf s.store) .init requests := by
  refine always_of_invariant (I := ClusterIpsAllotted cfg) (fun s e s' h hkeeps hstep => ?_)
    (fun s h => Unshared.of_allotted h) ?_ hok
  · exact clusterIpsAllotted_step haligned h hkeeps hstep
  · refine .empty fun x hx => ?_
    obtain ⟨state, hget⟩ := hx
    cases hget

/-! ### Node ports -/

section Cons

variable {withNodePort : Bool} {p : ServicePort} (counter : Nat) (ports : List ServicePort)

theorem nodePorts_assignPorts_assign (h : (withNodePort && p.nodePort.isNone) = true) :
    (assignPorts withNodePort counter (p :: ports)).1.filterMap nodePort =
      nodePortAt counter ::
        (assignPorts withNodePort (counter + 1) ports).1.filterMap nodePort := by
  rw [assignPorts, if_pos h]
  rfl

theorem snd_assignPorts_assign (h : (withNodePort && p.nodePort.isNone) = true) :
    (assignPorts withNodePort counter (p :: ports)).2 = (assignPorts withNodePort (counter + 1) ports).2 := by
  rw [assignPorts, if_pos h]
  rfl

theorem nodePorts_assignPorts_keep (h : ¬ (withNodePort && p.nodePort.isNone) = true) :
    (assignPorts withNodePort counter (p :: ports)).1.filterMap nodePort =
      (p :: (assignPorts withNodePort counter ports).1).filterMap nodePort := by
  rw [assignPorts, if_neg h]
  rfl

theorem snd_assignPorts_keep (h : ¬ (withNodePort && p.nodePort.isNone) = true) :
    (assignPorts withNodePort counter (p :: ports)).2 = (assignPorts withNodePort counter ports).2 := by
  rw [assignPorts, if_neg h]

end Cons

theorem assignPorts_le (withNodePort : Bool) (counter : Nat) (ports : List ServicePort) :
    counter ≤ (assignPorts withNodePort counter ports).2 := by
  induction ports generalizing counter with
  | nil => exact Nat.le_refl _
  | cons p ports ih =>
    rw [assignPorts]
    split
    · exact Nat.le_trans (Nat.le_succ _) (ih _)
    · exact ih _

theorem mem_assignPorts {v : I32}
    (h : v ∈ (assignPorts withNodePort counter ports).1.filterMap nodePort) :
    v ∈ ports.filterMap nodePort ∨
      ∃ i, counter ≤ i ∧ i < (assignPorts withNodePort counter ports).2 ∧ v = nodePortAt i := by
  induction ports generalizing counter with
  | nil => cases h
  | cons p ports ih =>
    by_cases hassign : (withNodePort && p.nodePort.isNone) = true
    · rw [nodePorts_assignPorts_assign _ _ hassign, mem_cons] at h
      rw [snd_assignPorts_assign _ _ hassign]
      rcases h with rfl | h
      · exact .inr ⟨counter, Nat.le_refl _, Nat.lt_of_succ_le (assignPorts_le _ _ _), rfl⟩
      · rcases ih h with hmem | ⟨i, hle, hlt, rfl⟩
        · exact .inl (mem_filterMap.2 ((mem_filterMap.1 hmem).imp fun _ hp =>
            ⟨mem_cons_of_mem _ hp.1, hp.2⟩))
        · exact .inr ⟨i, Nat.le_of_succ_le hle, hlt, rfl⟩
    · rw [nodePorts_assignPorts_keep _ _ hassign, filterMap_cons] at h
      rw [snd_assignPorts_keep _ _ hassign, filterMap_cons]
      cases hport : p.nodePort with
      | none =>
        rw [hport] at h
        exact ih h
      | some port =>
        rw [hport] at h
        rcases mem_cons.1 h with rfl | h
        · exact .inl mem_cons_self
        · exact (ih h).imp_left (mem_cons_of_mem _)

theorem nodup_assignPorts (hnodup : (ports.filterMap nodePort).Nodup)
    (hfree : ∀ v ∈ ports.filterMap nodePort, ¬ ((counter : Int) ≤ v.val ∧ v.val < 2 ^ 16))
    (hend : (assignPorts withNodePort counter ports).2 ≤ 2 ^ 16) :
    ((assignPorts withNodePort counter ports).1.filterMap nodePort).Nodup := by
  induction ports generalizing counter with
  | nil => exact nodup_nil
  | cons p ports ih =>
    have hle := assignPorts_le withNodePort (counter + 1) ports
    by_cases hassign : (withNodePort && p.nodePort.isNone) = true
    · -- the port gets the next number
      have hnone : p.nodePort = none := by simpa using (Bool.and_eq_true_iff.1 hassign).2
      rw [snd_assignPorts_assign _ _ hassign] at hend
      rw [filterMap_cons_none hnone] at hnodup hfree
      have hcounter : counter < 2 ^ 16 := Nat.lt_of_lt_of_le (Nat.lt_of_succ_le hle) hend
      rw [nodePorts_assignPorts_assign _ _ hassign, nodup_cons]
      refine ⟨fun hmem => ?_, ih hnodup (fun v hv hbad => hfree v hv ?_) hend⟩
      · rcases mem_assignPorts hmem with hgiven | ⟨i, hi, hlt, heq⟩
        · have hval : (nodePortAt counter).val = counter := nodePortAt_val hcounter
          exact hfree _ hgiven (by omega)
        · have hi' : i < 2 ^ 16 := Nat.lt_of_lt_of_le hlt hend
          have := nodePortAt_inj hcounter hi' heq
          omega
      · omega
    · rw [snd_assignPorts_keep _ _ hassign] at hend
      rw [nodePorts_assignPorts_keep _ _ hassign, filterMap_cons]
      rw [filterMap_cons] at hnodup hfree
      cases hport : p.nodePort with
      | none =>
        rw [hport] at hnodup hfree
        exact ih hnodup hfree hend
      | some port =>
        rw [hport] at hnodup hfree
        rw [nodup_cons] at hnodup
        rw [forall_mem_cons] at hfree
        refine nodup_cons.2 ⟨fun hmem => ?_, ih hnodup.2 hfree.2 hend⟩
        rcases mem_assignPorts hmem with hgiven | ⟨i, hi, hlt, rfl⟩
        · exact hnodup.1 hgiven
        · have hi' : i < 2 ^ 16 := Nat.lt_of_lt_of_le hlt hend
          have hval : (nodePortAt i).val = i := nodePortAt_val hi'
          exact hfree.1 (by omega)

def portsOf (svc : Service) : List ServicePort := (svc.spec.bind ServiceSpec.ports).getD []

theorem nodePorts_createdService
    (h : createdService prof cfg s ns uuid svc = .ok (created, ipCounter, nodePortCounter)) :
    ∃ withNodePort, nodePortCounter = (assignPorts withNodePort s.nodePortCounter (portsOf svc)).2 ∧
      nodePortsOf (.service created) =
        (assignPorts withNodePort s.nodePortCounter (portsOf svc)).1.filterMap nodePort := by
  rw [createdService] at h
  cases hspec : svc.spec with
  | none =>
    simp only [hspec] at h
    cases h
    exact ⟨false, by simp [portsOf, hspec, assignPorts], by simp [portsOf, hspec, assignPorts, nodePortsOf]⟩
  | some spec =>
    simp only [hspec] at h
    have hports : portsOf svc = spec.ports.getD [] := by simp [portsOf, hspec]
    cases hassign : assignClusterIp prof cfg s.ipCounter spec with
    | error e =>
      rw [hassign] at h
      cases h
    | ok filled =>
      rw [hassign] at h
      cases h
      refine ⟨hasNodePorts spec, by rw [hports], ?_⟩
      rw [hports]
      cases hp : spec.ports with
      | none => simp [nodePortsOf, assignPorts]
      | some ports => simp [nodePortsOf]

/-! ### What is filled in -/

theorem filled_assignPorts {p : ServicePort} (h : p ∈ (assignPorts withNodePort counter ports).1) :
    p.targetPort.isSome = true ∧ (withNodePort = true → p.nodePort.isSome = true) := by
  have htarget (q : ServicePort) : (fillTargetPort q).targetPort.isSome = true := by simp [fillTargetPort]
  induction ports generalizing counter with
  | nil => cases h
  | cons q ports ih =>
    rw [assignPorts] at h
    split_ifs at h with hassign
    · rcases mem_cons.1 h with rfl | h
      · exact ⟨htarget q, fun _ => rfl⟩
      · exact ih h
    · rcases mem_cons.1 h with rfl | h
      · refine ⟨htarget q, fun hwith => ?_⟩
        cases hport : q.nodePort with
        | none => simp [hwith, hport] at hassign
        | some port => simp [fillTargetPort, hport]
      · exact ih h

theorem assignPorts_eq_self
    (h : ∀ p ∈ ports, p.targetPort.isSome = true ∧ (withNodePort = true → p.nodePort.isSome = true)) :
    assignPorts withNodePort counter ports = (ports, counter) := by
  induction ports with
  | nil => rfl
  | cons p ports ih =>
    obtain ⟨⟨htarget, hport⟩, hrest⟩ := forall_mem_cons.1 h
    have hkeep : ¬ (withNodePort && p.nodePort.isNone) = true := by
      intro hassign
      obtain ⟨hwith, hnone⟩ := Bool.and_eq_true_iff.1 hassign
      rw [Option.isNone_iff_eq_none] at hnone
      simp [hnone] at hport
      simp [hport] at hwith
    have hfill : fillTargetPort p = p := by
      obtain ⟨target, ht⟩ := Option.isSome_iff_exists.1 htarget
      unfold fillTargetPort
      rw [ht, Option.some_or, ← ht]
    rw [assignPorts, if_neg hkeep, ih hrest, hfill]

theorem spec_createdService {spec : ServiceSpec} (hspec : svc.spec = some spec)
    (h : createdService prof cfg s ns uuid svc = .ok (created, ipCounter, nodePortCounter)) :
    ∃ filled, created.spec = some filled ∧
      (needsClusterIp spec = true → ∃ ip, filled.clusterIp = some (dotted ip)) ∧
      filled.ports = spec.ports.map fun _ =>
        (assignPorts (hasNodePorts spec) s.nodePortCounter (spec.ports.getD [])).1 := by
  rw [createdService] at h
  simp only [hspec, assignClusterIp] at h
  split_ifs at h with hneeds
  · rw [Config.allocClusterIp] at h
    cases hhosts : cfg.maxHosts prof with
    | error e =>
      rw [hhosts] at h
      cases h
    | ok hosts =>
      rw [hhosts] at h
      cases h
      exact ⟨_, rfl, fun _ => ⟨_, rfl⟩, rfl⟩
  · cases h
    exact ⟨_, rfl, fun hneeds' => absurd hneeds' hneeds, rfl⟩

theorem status_createdService
    (h : createdService prof cfg s ns uuid svc = .ok (created, ipCounter, nodePortCounter)) :
    created.status.isSome = true := by
  rw [createdService] at h
  cases hspec : svc.spec with
  | none =>
    simp only [hspec] at h
    cases h
    simp
  | some spec =>
    simp only [hspec] at h
    cases hassign : assignClusterIp prof cfg s.ipCounter spec with
    | error e =>
      rw [hassign] at h
      cases h
    | ok filled =>
      rw [hassign] at h
      cases h
      simp

theorem exists_createdService (ns uuid : String) (svc : Service) : ∃ created ipCounter nodePortCounter,
    createdService prof .new s ns uuid svc = .ok (created, ipCounter, nodePortCounter) := by
  rw [createdService]
  cases hspec : svc.spec with
  | none => exact ⟨_, _, _, rfl⟩
  | some spec =>
    simp only [assignClusterIp]
    split_ifs
    · exact ⟨_, _, _, rfl⟩
    · exact ⟨_, _, _, rfl⟩

/-! ### Along requests -/

/-- The Services and the counter of node ports. -/
structure NodePortsAllotted (s : ServiceState) : Prop where
  allotted : Allotted s.store.Holds AnyResource.uid nodePortsOf nodePortAt s.nodePortCounter (2 ^ 16)
  lower : 30000 ≤ s.nodePortCounter

theorem not_toCome {v : I32} (hfree : ¬ ((counter : Int) ≤ v.val ∧ v.val < 2 ^ 16)) (hle : counter ≤ i)
    (hlt : i < 2 ^ 16) : v ≠ nodePortAt i := by
  rintro rfl
  rw [nodePortAt_val hlt] at hfree
  omega

theorem nodePortsAllotted_step (h : NodePortsAllotted s) (hkeeps : KeepsNodePorts prof cfg s e)
    (hstep : s.step prof cfg e = some s') : NodePortsAllotted s' := by
  cases requestMove_of_step hstep with
  | unchanged => exact h
  | deleted ns name r => exact ⟨allotted_delete h.allotted r, h.lower⟩
  | updated ns name merged =>
    refine ⟨allotted_apply h.allotted hkeeps.1 (fun v hv => .inr (hkeeps.2 v hv).1) ?_ (Nat.le_refl _), h.lower⟩
    exact fun v hv i hle hlt => not_toCome (hkeeps.2 v hv).2 hle hlt
  | @created ns uuid svc created ipCounter nodePortCounter hcreated =>
    obtain ⟨hmeta, -⟩ := clusterIp_createdService hcreated
    obtain ⟨withNodePort, rfl, hports⟩ := nodePorts_createdService hcreated
    obtain ⟨⟨hnodup, hfree⟩, hend⟩ := hkeeps
    have hend' := hend _ (show (createdService prof cfg s ns uuid svc).toOption = some _ by rw [hcreated]; rfl)
    have huid := uid_of_metadata svc hmeta
    have hle := assignPorts_le withNodePort s.nodePortCounter (portsOf svc)
    refine ⟨allotted_apply h.allotted ?_ (fun v hv => ?_) (fun v hv i hi hlt => ?_) hle,
      Nat.le_trans h.lower hle⟩
    · rw [hports]
      exact nodup_assignPorts hnodup (fun v hv => (hfree v hv).2) hend'
    · rw [hports] at hv
      rcases mem_assignPorts hv with hgiven | ⟨i, hi, hlt, rfl⟩
      · exact .inr (huid ▸ (hfree v hgiven).1)
      · exact .inl ⟨i, hi, Nat.lt_of_lt_of_le hlt hend', rfl⟩
    · rw [hports] at hv
      rcases mem_assignPorts hv with hgiven | ⟨j, hj, hjlt, rfl⟩
      · exact not_toCome (hfree v hgiven).2 (Nat.le_trans hle hi) hlt
      · intro heq
        have hij : j = i := nodePortAt_inj (Nat.lt_of_lt_of_le hjlt hend') hlt heq
        exact absurd hi (Nat.not_le_of_lt (hij ▸ hjlt))

theorem drawnNodePorts_le (h : NodePortsAllotted s) (hkeeps : KeepsNodePorts prof cfg s e) {port : I32}
    (hport : port ∈ drawnNodePorts prof cfg s e) : 30000 ≤ port.val := by
  cases e with
  | create ns uuid svc =>
    rw [drawnNodePorts] at hport
    split at hport
    · rename_i created ipCounter counter hcreated
      have hend := hkeeps.2 _
        (show (createdService prof cfg s ns uuid svc).toOption = some _ by rw [hcreated]; rfl)
      obtain ⟨i, hi, rfl⟩ := mem_map.1 hport
      rw [mem_range'_1] at hi
      have hlower := h.lower
      have hlt : i < 2 ^ 16 := by
        simp only at hend
        omega
      rw [nodePortAt_val hlt]
      omega
    · cases hport
  | _ => cases hport

/-- No two ports of Services have one node port, and the counter gives none below 30000, as long as every node
port that is chosen is free and the counter stays below its end. -/
theorem nodePorts_unshared_along {requests : List ServiceRequest}
    (hok : Along (ServiceState.step prof cfg) (KeepsNodePorts prof cfg) .init requests) :
    Always (ServiceState.step prof cfg) (fun s => Unshared nodePortsOf s.store) .init requests ∧
      Along (ServiceState.step prof cfg) (fun s e => ∀ port ∈ drawnNodePorts prof cfg s e, 30000 ≤ port.val)
        .init requests := by
  have hinit : NodePortsAllotted .init := by
    refine ⟨.empty fun x hx => ?_, Nat.le_refl _⟩
    obtain ⟨state, hget⟩ := hx
    cases hget
  refine ⟨always_of_invariant (I := NodePortsAllotted)
    (fun s e s' h hkeeps hstep => nodePortsAllotted_step h hkeeps hstep)
    (fun s h => Unshared.of_allotted h.allotted) hinit hok, ?_⟩
  -- the same invariant at every step of the run
  revert hinit hok
  generalize ServiceState.init = s
  intro hok hinit
  induction requests generalizing s with
  | nil => trivial
  | cons e requests ih =>
    refine ⟨fun port hport => drawnNodePorts_le hinit hok.1 hport, fun s' hstep => ?_⟩
    exact ih s' (hok.2 s' hstep) (nodePortsAllotted_step hinit hok.1 hstep)

private def smallConfig : Config := ⟨Ipv4Addr.new 10 96 0 0, ⟨29, Nat.le_of_ble_eq_true rfl⟩⟩

private def checked : Profile := ⟨true⟩

private def serviceOf (name : String) (spec : ServiceSpec) : Service where
  metadata := { name := some name }
  spec := some spec

/-- A Service with a ClusterIP of its own, one that gets the first of the range, and a change of its
ClusterIP. -/
private def chosenIps : List ServiceRequest :=
  [.create "default" "u" (serviceOf "a" { clusterIp := some "10.97.0.1" }),
    .create "default" "u" (serviceOf "b" {}),
    .update "default" "b" (serviceOf "b" { clusterIp := some "10.97.0.2" }), .delete "default" "a"]

theorem clusterIps_unshared_along_chosen :
    (∃ s ∈ run (ServiceState.step checked smallConfig) .init chosenIps,
      s.store.getAll.map (fun t => clusterIpsOf t.resource) = [["10.97.0.2"]]) ∧
    Always (ServiceState.step checked smallConfig) (fun s => Unshared clusterIpsOf s.store) .init
      chosenIps := by
  refine ⟨by decide +kernel, clusterIps_unshared_along (by unfold Config.Aligned; decide +kernel) ?_⟩
  decide +kernel

/-- The counter does not look at the ClusterIP that a user has chosen. -/
theorem clusterIp_given_twice :
    ∃ s ∈ run (ServiceState.step checked .new) .init
        [.create "default" "u" (serviceOf "a" { clusterIp := some "10.96.0.1" }),
          .create "default" "u" (serviceOf "b" {})],
      s.store.getAll.map (fun t => (t.resource.name, clusterIpsOf t.resource)) =
        [("b", ["10.96.0.1"]), ("a", ["10.96.0.1"])] := by
  decide +kernel

private def port80 : I32 := ⟨80, by decide⟩

private def nodePortService (name : String) (nodePort : Option I32) : Service :=
  serviceOf name { type := some "NodePort", ports := some [{ port := port80, nodePort }] }

private def chosenPorts : List ServiceRequest :=
  [.create "default" "u" (nodePortService "a" (some ⟨80, by decide⟩)),
    .create "default" "u" (nodePortService "b" none), .create "default" "u" (nodePortService "c" none),
    .update "default" "b" (nodePortService "b" (some ⟨29000, by decide⟩)), .delete "default" "a"]

theorem nodePorts_unshared_along_chosen :
    (∃ s ∈ run (ServiceState.step checked .new) .init chosenPorts,
      s.store.getAll.map (fun t => (nodePortsOf t.resource).map Subtype.val) = [[29000], [30001]]) ∧
    Always (ServiceState.step checked .new) (fun s => Unshared nodePortsOf s.store) .init chosenPorts ∧
    Along (ServiceState.step checked .new) (fun s e => ∀ port ∈ drawnNodePorts checked .new s e, 30000 ≤ port.val)
      .init chosenPorts := by
  refine ⟨by decide +kernel, nodePorts_unshared_along ?_⟩
  decide +kernel

/-- The counter does not look at the node port that a user has chosen, and starts again from 0 at its end. -/
theorem nodePort_given_twice :
    (∃ s ∈ run (ServiceState.step checked .new) .init
        [.create "default" "u" (nodePortService "a" (some ⟨30000, by decide⟩)),
          .create "default" "u" (nodePortService "b" none)],
      s.store.getAll.map (fun t => (t.resource.name, (nodePortsOf t.resource).map Subtype.val)) =
        [("b", [30000]), ("a", [30000])]) ∧
    (allocNodePort (30000 + 35536)).1.val = 0 := by
  decide +kernel

end Z8s.Api
