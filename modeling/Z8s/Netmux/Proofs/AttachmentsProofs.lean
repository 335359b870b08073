import Z8s.Netmux.Attachments
import Z8s.Netmux.Proofs.NetMuxProofs
import Z8s.Transition.Proofs.RunProofs

/-!
# Proofs: addresses of attached pods

The engine with its attachments is an instance of a family of resource pools (`Exclusive`), with the
addresses of the attachments as the resources that are out.
-/

namespace Z8s.Netmux

open Rust Collections Allocation Transition NetMux

namespace NetState

/-- The invariant: the pools of the engine and the addresses that are out are exclusive. -/
def Inv (s : NetState) : Prop := Exclusive s.netmux.freeOf (s.attached.map Attachment.ip)

theorem inv_init {podCidr : String} {nm : NetMux} (h : new podCidr = .ok nm) :
    (init nm).Inv := by
  obtain ⟨cidr, -, hpool, hsub⟩ := new_eq_ok h
  have hempty : ∀ n, nm.freeOf (some n) = ∅ := fun n => by simp [freeOf, hsub]
  refine ⟨by simp [init], ?_, by simp [init]⟩
  intro i j hij a ha ha'
  cases i with
  | some n => simp [init, hempty n] at ha
  | none =>
    cases j with
    | some n => simp [init, hempty n] at ha'
    | none => exact hij rfl

/-- One step that keeps the pools apart preserves the invariant. -/
theorem inv_step (s : NetState) (e : NetEvent) (s' : NetState) (h : s.Inv) (hok : s.KeepsApart e)
    (hstep : s.step e = some s') : s'.Inv := by
  cases e with
  | registerSubnet name cidrStr =>
    simp only [step] at hstep
    split at hstep
    · rename_i nm hreg
      cases hstep
      obtain ⟨cidr, hparse, hfree⟩ := freeOf_registerSubnetCidr hreg
      show Exclusive nm.freeOf (s.attached.map Attachment.ip)
      rw [hfree]
      refine Exclusive.replace h (some name) fun ip hip => ?_
      obtain ⟨hheld, hglobal, hother⟩ := hok cidr hparse
      have hnot : ∀ T : Finset Ipv4Addr, cidr.usable ∩ T = ∅ → ip ∉ T := fun T hT =>
        Finset.disjoint_left.1 (Finset.disjoint_iff_inter_eq_empty.2 hT) hip
      refine ⟨fun hm => hnot _ hheld (List.mem_toFinset.2 hm), fun j hj => ?_⟩
      cases j with
      | none => exact hnot _ hglobal
      | some n =>
        rw [mem_freeOf_some]
        rintro ⟨p, hp, hmem⟩
        exact hnot _ (hother (n, p) (HashMap.mem_iter.2 hp) fun e => hj (congrArg some e)) hmem
    · cases hstep
      exact h
  | attach podUid subnet hostIdx peerIdx =>
    simp only [step, attachPod] at hstep
    cases htake : s.netmux.takeIp subnet with
    | error e => simp [htake] at hstep
    | ok r =>
      obtain ⟨ip, nm⟩ := r
      simp only [htake, finishAttach, Option.some.injEq] at hstep
      subst hstep
      obtain ⟨hmem, hfree⟩ := freeOf_takeIp htake
      show Exclusive nm.freeOf (ip :: s.attached.map Attachment.ip)
      rw [hfree]
      exact Exclusive.take h hmem
  | detach a order =>
    simp only [step] at hstep
    split_ifs at hstep with hcond
    cases hstep
    have hperm : (s.attached.map Attachment.ip).Perm (a.ip :: (s.attached.erase a).map Attachment.ip) :=
      (List.perm_cons_erase hcond.1).map Attachment.ip
    show Exclusive (s.netmux.releaseIp a.ip order).freeOf ((s.attached.erase a).map Attachment.ip)
    rw [freeOf_releaseIp_of_not_contains fun n p hp => hok (n, p) (HashMap.mem_iter.2 hp)]
    exact Exclusive.give h hperm none

/-- In every run whose steps all keep the pools apart, the attached pods hold different addresses
in every state. -/
theorem uniqueIps_along {podCidr : String} {nm : NetMux} (h : NetMux.new podCidr = .ok nm)
    (es : List NetEvent) (hok : Along step KeepsApart (init nm) es) :
    Always step UniqueIps (init nm) es :=
  always_of_invariant inv_step (fun _ hi => hi.nodup) (inv_init h) hok

/-- A subnet outside the pod CIDR, pods in both, and a pod of the global pool gone again. -/
theorem uniqueIps_along_two_pools : ∃ nm, NetMux.new "10.42.0.0/29" = .ok nm ∧
    Always step UniqueIps (init nm)
      [.registerSubnet "db" "10.1.0.0/30", .attach "a" (some "db") 4 5, .attach "b" none 6 7,
        .attach "c" none 8 9, .detach ⟨"b", Ipv4Addr.new 10 42 0 2, 6⟩ ["db"], .attach "d" none 6 7] :=
  have hnew := new_of_parse (show Ipv4Cidr.parse "10.42.0.0/29" =
    some ⟨Ipv4Addr.new 10 42 0 0, 29⟩ by decide)
  ⟨_, hnew, uniqueIps_along hnew _ (by decide +kernel)⟩

/-- A pod leaves its subnet and its address goes into the global pool as well; the next two pods,
one without and one with the subnet, get the same address. -/
theorem uniqueIps_fails_after_detach : ∃ nm, NetMux.new "10.42.0.0/30" = .ok nm ∧
    ¬ Always step UniqueIps (init nm)
      [.registerSubnet "db" "10.1.0.0/30", .attach "a" (some "db") 4 5,
        .detach ⟨"a", Ipv4Addr.new 10 1 0 2, 4⟩ ["db"], .attach "b" none 6 7,
        .attach "c" (some "db") 8 9] :=
  have hnew := new_of_parse (show Ipv4Cidr.parse "10.42.0.0/30" =
    some ⟨Ipv4Addr.new 10 42 0 0, 30⟩ by decide)
  ⟨_, hnew, by decide +kernel⟩

end NetState

/-! ### A failed attachment -/

namespace NetMux

variable {nm nm' : NetMux} {subnet : Option String} {ip : Ipv4Addr}

/-- Giving back the address that was just taken makes all pools as they were only if it goes where it came from,
and nowhere else. -/
theorem freeOf_releaseIp_takeIp_iff (h : nm.takeIp subnet = .ok (ip, nm')) (order : List String) :
    (nm'.releaseIp ip order).freeOf = nm.freeOf ↔ nm.ReturnsTo ip order subnet := by
  obtain ⟨hmem, hfree⟩ := freeOf_takeIp h
  have hpool (i : Option String) : (nm'.releaseIp ip order).freeOf i =
      if i = none ∨ (i = nm.subnetOf ip order ∧ i.isSome) then
        insert ip (Function.update nm.freeOf subnet ((nm.freeOf subnet).erase ip) i)
      else Function.update nm.freeOf subnet ((nm.freeOf subnet).erase ip) i := by
    rw [freeOf_releaseIp, subnetOf_takeIp h, hfree]
  rw [funext_iff]
  cases subnet with
  | none =>
    constructor
    · intro hsame n hn
      have hi := hsame (some n)
      rw [hpool, if_pos (.inr ⟨hn.symm, rfl⟩), Function.update_of_ne (by simp)] at hi
      rw [← hi]
      exact Finset.mem_insert_self ip _
    · intro hreturns i
      rw [hpool]
      cases i with
      | none => rw [if_pos (.inl rfl), Function.update_self, Finset.insert_erase hmem]
      | some n =>
        rw [Function.update_of_ne (by simp)]
        by_cases hn : nm.subnetOf ip order = some n
        · rw [if_pos (.inr ⟨hn.symm, rfl⟩)]
          exact Finset.insert_eq_self.2 (hreturns n hn)
        · rw [if_neg (by simp [Ne.symm hn])]
  | some n =>
    constructor
    · intro hsame
      refine ⟨?_, ?_⟩
      · by_contra hn
        have hi := hsame (some n)
        rw [hpool, if_neg (by simp [Ne.symm hn]), Function.update_self] at hi
        exact Finset.notMem_erase ip _ (hi ▸ hmem)
      · have hi := hsame none
        rw [hpool, if_pos (.inl rfl), Function.update_of_ne (by simp)] at hi
        rw [← hi]
        exact Finset.mem_insert_self ip _
    · rintro ⟨hn, hglobal⟩ i
      rw [hpool]
      by_cases hi : i = some n
      · rw [if_pos (.inr ⟨hi.trans hn.symm, by rw [hi]; rfl⟩), hi, Function.update_self,
          Finset.insert_erase hmem]
      · rw [Function.update_of_ne hi]
        split_ifs with hcond
        · obtain rfl : i = none := hcond.resolve_right fun h => hi (h.1.trans hn)
          exact Finset.insert_eq_self.2 hglobal
        · rfl

/-- A failed attachment is undone if it fails for want of an address, or after the veth pair was created and with
an address that returns to its own pool only. -/
theorem undone_iff (nm : NetMux) (subnet : Option String) (veth : VethOutcome) (order : List String) :
    nm.Undone subnet veth order ↔ ∀ ip nm', nm.takeIp subnet = .ok (ip, nm') →
      (∃ hostIdx peerIdx, veth = .attached hostIdx peerIdx) ∨
        veth ≠ .createFails ∧ nm.ReturnsTo ip order subnet := by
  unfold Undone attachPod
  cases htake : nm.takeIp subnet with
  | error e => simp
  | ok r =>
    obtain ⟨ip, nm'⟩ := r
    have hreturn := freeOf_releaseIp_takeIp_iff htake order
    have hiff : (∀ ip₁ nm₁, (Except.ok (ip, nm') : Except Error _) = .ok (ip₁, nm₁) →
          (∃ hostIdx peerIdx, veth = .attached hostIdx peerIdx) ∨
            veth ≠ .createFails ∧ nm.ReturnsTo ip₁ order subnet) ↔
        (∃ hostIdx peerIdx, veth = .attached hostIdx peerIdx) ∨
          veth ≠ .createFails ∧ nm.ReturnsTo ip order subnet := by
      constructor
      · exact fun h => h ip nm' rfl
      · rintro h ip₁ nm₁ heq
        obtain ⟨rfl, rfl⟩ := Prod.mk.inj (Except.ok.inj heq)
        exact h
    rw [hiff]
    cases veth with
    | createFails =>
      -- the address is lost
      obtain ⟨hmem, hfree⟩ := freeOf_takeIp htake
      refine iff_of_false (fun h => ?_) (by simp)
      have hsame : nm'.freeOf subnet = nm.freeOf subnet := congrFun (h _ rfl) subnet
      rw [hfree, Function.update_self] at hsame
      exact Finset.notMem_erase ip _ (hsame ▸ hmem)
    | linkUpFails hostIdx peerIdx | routeFails hostIdx peerIdx => simpa [finishAttach] using hreturn
    | attached hostIdx peerIdx => simp [finishAttach]

/-- The veth pair of a pod cannot be created, and the only address of the pool is gone. -/
theorem failed_attach_loses_address : ∃ nm, NetMux.new "10.42.0.0/30" = .ok nm ∧
    (nm.attachPod none .createFails []).1 = .error ["create_pod_veth", "create_veth_pair"] ∧
    nm.freeOf none = {Ipv4Addr.new 10 42 0 2} ∧ (nm.attachPod none .createFails []).2.freeOf none = ∅ :=
  have hnew := new_of_parse (show Ipv4Cidr.parse "10.42.0.0/30" =
    some ⟨Ipv4Addr.new 10 42 0 0, 30⟩ by decide)
  ⟨_, hnew, by decide +kernel, by decide +kernel, by decide +kernel⟩

end NetMux

end Z8s.Netmux
