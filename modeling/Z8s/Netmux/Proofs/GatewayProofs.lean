import Z8s.Netmux.Attachments
import Z8s.Netmux.Proofs.CidrProofs
import Z8s.Netmux.Proofs.NetMuxProofs
import Z8s.Transition.Proofs.RunProofs

/-!
# Proofs: the address of the gateway

An address that is free in no pool is never handed out, and one that is free in some pool is handed
out when enough pods are attached there.
-/

namespace Z8s.Netmux

open Rust Collections Transition NetMux

/-! ### What stays out of the pools -/

namespace NetMux

variable {nm nm' : NetMux} {subnet : Option String} {ip gateway : Ipv4Addr} {order : List String}

theorem notMem_freeOf_takeIp (hfree : ∀ i, gateway ∉ nm.freeOf i) (h : nm.takeIp subnet = .ok (ip, nm')) :
    ip ≠ gateway ∧ ∀ i, gateway ∉ nm'.freeOf i := by
  obtain ⟨hmem, hnm'⟩ := freeOf_takeIp h
  refine ⟨fun heq => hfree subnet (heq ▸ hmem), fun i hi => ?_⟩
  rw [hnm'] at hi
  by_cases hs : i = subnet
  · rw [hs, Function.update_self] at hi
    exact hfree subnet (Finset.mem_of_mem_erase hi)
  · rw [Function.update_of_ne hs] at hi
    exact hfree i hi

theorem notMem_freeOf_releaseIp (hfree : ∀ i, gateway ∉ nm.freeOf i) (hip : ip ≠ gateway) (order : List String) :
    ∀ i, gateway ∉ (nm.releaseIp ip order).freeOf i := by
  intro i hi
  rw [freeOf_releaseIp] at hi
  split_ifs at hi
  · exact hfree i ((Finset.mem_insert.1 hi).resolve_left hip.symm)
  · exact hfree i hi

theorem exists_takeIp (h : (nm.freeOf subnet).Nonempty) : ∃ r, nm.takeIp subnet = .ok r := by
  cases htake : nm.takeIp subnet with
  | ok r => exact ⟨r, rfl⟩
  | error e =>
    obtain ⟨ip, hip⟩ := h
    cases subnet with
    | none =>
      have hpop : BTreeSet.popFirst nm.pool.free = _ := dif_pos ⟨ip, hip⟩
      simp [takeIp, allocateIp, IpPool.allocate, hpop] at htake
    | some n =>
      obtain ⟨p, hget, hmem⟩ := mem_freeOf_some.1 hip
      have hpop : BTreeSet.popFirst p.free = _ := dif_pos ⟨ip, hmem⟩
      simp [takeIp, allocateSubnetIp, hget, IpPool.allocate, hpop] at htake

end NetMux

namespace NetState

variable {gateway : Ipv4Addr} {s s' : NetState}

def Lacks (gateway : Ipv4Addr) (s : NetState) : Prop :=
  (∀ i, gateway ∉ s.netmux.freeOf i) ∧ s.SparesGateway gateway

theorem lacks_call (s : NetState) (c : PodCall) (s' : NetState) (h : s.Lacks gateway)
    (hcall : s.call c = some s') : s'.Lacks gateway := by
  obtain ⟨hfree, hspares⟩ := h
  cases c with
  | attach podUid subnet veth order =>
    simp only [call] at hcall
    split_ifs at hcall
    unfold attachPod at hcall
    cases htake : s.netmux.takeIp subnet with
    | error e =>
      simp only [htake] at hcall
      cases hcall
      exact ⟨hfree, hspares⟩
    | ok r =>
      obtain ⟨ip, nm⟩ := r
      obtain ⟨hip, hfree'⟩ := notMem_freeOf_takeIp hfree htake
      have hback := notMem_freeOf_releaseIp hfree' hip order
      simp only [htake] at hcall
      cases veth with
      | createFails =>
        cases hcall
        exact ⟨hfree', hspares⟩
      | linkUpFails hostIdx peerIdx | routeFails hostIdx peerIdx =>
        cases hcall
        exact ⟨hback, hspares⟩
      | attached hostIdx peerIdx =>
        cases hcall
        refine ⟨hfree', fun a ha => ?_⟩
        rcases List.mem_cons.1 ha with rfl | ha
        · exact hip
        · exact hspares a ha
  | detach a order =>
    simp only [call] at hcall
    split_ifs at hcall with hcond
    cases hcall
    exact ⟨notMem_freeOf_releaseIp hfree (hspares a hcond.1) order,
      fun b hb => hspares b (List.mem_of_mem_erase hb)⟩

/-- An address that is free in a pool is handed out after enough attachments there: each of them takes another
address out of the pool. -/
theorem exists_call_attached {subnet : Option String} (h : gateway ∈ s.netmux.freeOf subnet) :
    ∃ calls s', run call s calls = some s' ∧ ¬ s'.SparesGateway gateway := by
  induction hcard : (s.netmux.freeOf subnet).card generalizing s with
  | zero => exact absurd h (by rw [Finset.card_eq_zero.1 hcard]; exact Finset.notMem_empty _)
  | succ n ih =>
    obtain ⟨⟨ip, nm⟩, htake⟩ := exists_takeIp ⟨gateway, h⟩
    obtain ⟨hmem, hfree⟩ := freeOf_takeIp htake
    set next : NetState := ⟨nm, ⟨"", ip, 0⟩ :: s.attached⟩ with hnext
    have hcall : s.call (.attach "" subnet (.attached 0 0) s.netmux.subnetPools.keys) = some next := by
      simp only [call, if_pos (List.Perm.refl _), attachPod, htake, finishAttach]
      rfl
    by_cases hip : ip = gateway
    · refine ⟨[_], next, run_cons_eq_some.2 ⟨next, hcall, rfl⟩, fun hspares => ?_⟩
      exact hspares _ List.mem_cons_self hip
    · have hleft : next.netmux.freeOf subnet = (s.netmux.freeOf subnet).erase ip := by
        rw [hnext, hfree, Function.update_self]
      have hstill : gateway ∈ next.netmux.freeOf subnet := by
        rw [hleft]
        exact Finset.mem_erase.2 ⟨Ne.symm hip, h⟩
      have hfewer : (next.netmux.freeOf subnet).card = n := by
        rw [hleft, Finset.card_erase_of_mem hmem]
        omega
      obtain ⟨calls, s', hrun, hgets⟩ := ih hstill hfewer
      exact ⟨_ :: calls, s', run_cons_eq_some.2 ⟨next, hcall, hrun⟩, hgets⟩

theorem always_spares_iff (hattached : s.attached = []) :
    (∀ calls, Always call (SparesGateway gateway) s calls) ↔ ∀ i, gateway ∉ s.netmux.freeOf i := by
  constructor
  · intro h i hi
    obtain ⟨calls, s', hrun, hgets⟩ := exists_call_attached hi
    exact hgets ((h calls).at_end hrun)
  · intro h calls
    have hspares : s.SparesGateway gateway := by
      rw [SparesGateway, hattached]
      exact fun a ha => absurd ha List.not_mem_nil
    exact always_of_step lacks_call (fun _ hs => hs.2) ⟨h, hspares⟩ calls

end NetState

/-! ### Engines at their start -/

namespace NetMux

variable {nm : NetMux}

/-- Every subnet pool is as it was made: all usable addresses of its CIDR are free. -/
def FreshSubnets (nm : NetMux) : Prop := ∀ n p, nm.subnetPools.get n = some p → p = IpPool.new p.cidr

theorem registerAll_spec (subnets : List (String × String)) (h : nm.FreshSubnets) :
    (nm.registerAll subnets).pool = nm.pool ∧ (nm.registerAll subnets).gateway = nm.gateway ∧
      (nm.registerAll subnets).FreshSubnets := by
  induction subnets generalizing nm with
  | nil => exact ⟨rfl, rfl, h⟩
  | cons subnet subnets ih =>
    rw [registerAll, List.foldl_cons, ← registerAll, registerSubnetCidr]
    cases Ipv4Cidr.parse subnet.2 with
    | none => exact ih h
    | some cidr =>
      refine ih fun n p hget => ?_
      rw [HashMap.get_insert] at hget
      split_ifs at hget
      · cases hget
        rfl
      · exact h n p hget

end NetMux

theorem StartedNet.spec (net : StartedNet) : ∃ cidr, Ipv4Cidr.parse net.podCidr = some cidr ∧
    net.netmux.pool = IpPool.new cidr ∧ net.netmux.gateway = cidr.network + 1 ∧ net.netmux.FreshSubnets := by
  have hstarted := net.started
  cases hparse : Ipv4Cidr.parse net.podCidr with
  | none => simp [new, hparse, Except.map] at hstarted
  | some cidr =>
    rw [new_of_parse hparse] at hstarted
    have hnone : NetMux.FreshSubnets ⟨IpPool.new cidr, ∅, cidr.prefixLen, deriveGateway cidr⟩ := by
      simp [NetMux.FreshSubnets]
    obtain ⟨hpool, hgateway, hfresh⟩ := registerAll_spec net.subnets hnone
    rw [← Except.ok.inj hstarted]
    exact ⟨cidr, rfl, hpool, hgateway, hfresh⟩

/-- Pods never get the gateway's address exactly if the pod CIDR has more than two addresses and no registered
subnet hands the address out. -/
theorem StartedNet.gatewayApart_iff (net : StartedNet) :
    net.GatewayApart ↔ net.netmux.pool.cidr.prefixLen ≤ 30 ∧
      ∀ e ∈ net.netmux.subnetPools.iter, net.netmux.gateway ∉ e.2.cidr.usable := by
  obtain ⟨cidr, hparse, hpool, hgateway, hfresh⟩ := net.spec
  have hfree : (∀ i, net.netmux.gateway ∉ net.netmux.freeOf i) ↔ net.netmux.gateway ∉ cidr.usable ∧
      ∀ e ∈ net.netmux.subnetPools.iter, net.netmux.gateway ∉ e.2.cidr.usable := by
    constructor
    · intro h
      refine ⟨fun hmem => h none ?_, fun e he hmem => h (some e.1) (mem_freeOf_some.2 ?_)⟩
      · rwa [freeOf, hpool]
      · have hget := HashMap.mem_iter.1 he
        refine ⟨e.2, hget, ?_⟩
        rwa [hfresh e.1 e.2 hget]
    · rintro ⟨hglobal, hsubnets⟩ i hmem
      cases i with
      | none =>
        rw [freeOf, hpool] at hmem
        exact hglobal hmem
      | some n =>
        obtain ⟨p, hget, hp⟩ := mem_freeOf_some.1 hmem
        rw [hfresh n p hget] at hp
        exact hsubnets (n, p) (HashMap.mem_iter.2 hget) hp
  have hfirst := Ipv4Cidr.first_host_apart_iff hparse
  rw [← hgateway] at hfirst
  rw [GatewayApart, NetState.always_spares_iff rfl, NetState.init, hfree, ← and_assoc, hpool]
  exact and_congr_left' hfirst

/-- The second pod in a CIDR with two addresses gets that of the gateway. -/
theorem second_pod_gets_gateway : ∃ nm, NetMux.new "10.42.0.0/31" = .ok nm ∧
    nm.gateway = Ipv4Addr.new 10 42 0 1 ∧
    ¬ Always NetState.call (NetState.SparesGateway nm.gateway) (.init nm)
      [.attach "Pod/default/a" none (.attached 4 5) [], .attach "Pod/default/b" none (.attached 6 7) []] :=
  have hnew := new_of_parse (show Ipv4Cidr.parse "10.42.0.0/31" =
    some ⟨Ipv4Addr.new 10 42 0 0, 31⟩ by decide)
  ⟨_, hnew, by decide, by decide +kernel⟩

end Z8s.Netmux
