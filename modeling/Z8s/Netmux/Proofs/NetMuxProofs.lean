import Z8s.Allocation.Pools
import Z8s.Collections.Proofs.HashMapProofs
import Z8s.Netmux.NetMux

/-!
# Proofs: the pools of the network engine

The engine's pools as a family of free sets, indexed by `none` for the global pool and `some n` for
the subnet `n`, and what each operation does to the family.
-/

namespace Z8s.Netmux

open Rust Collections

variable {ip : Ipv4Addr} {nm nm' : NetMux} {subnet : Option String}
variable {p : IpPool} {n podCidr : String}

theorem IpPool.allocate_eq_some {q : IpPool} (h : p.allocate = some (ip, q)) :
    ip ∈ p.free ∧ q = { p with free := p.free.erase ip } := by
  obtain ⟨⟨a, free⟩, hpop, heq⟩ := Option.map_eq_some_iff.1 h
  cases heq
  obtain ⟨hmem, rfl⟩ := BTreeSet.popFirst_eq_some hpop
  exact ⟨hmem, rfl⟩

namespace NetMux

theorem freeOf_some_of_get (h : nm.subnetPools.get n = some p) : nm.freeOf (some n) = p.free := by
  simp [freeOf, h]

theorem mem_freeOf_some : ip ∈ nm.freeOf (some n) ↔ ∃ p, nm.subnetPools.get n = some p ∧ ip ∈ p.free := by
  cases h : nm.subnetPools.get n <;> simp [freeOf, h]

theorem freeOf_setPool (nm : NetMux) (p : IpPool) :
    ({ nm with pool := p } : NetMux).freeOf = Function.update nm.freeOf none p.free := by
  funext i
  cases i with
  | none => simp [freeOf]
  | some n => simp [freeOf]

theorem freeOf_updateSubnet (nm : NetMux) (h : nm.subnetPools.get n = some p) (f : IpPool → IpPool) :
    ({ nm with subnetPools := nm.subnetPools.update n f } : NetMux).freeOf =
      Function.update nm.freeOf (some n) (f p).free := by
  funext i
  cases i with
  | none => simp [freeOf]
  | some m =>
    by_cases hm : m = n
    · subst hm
      simp [freeOf, HashMap.get_update, h]
    · simp [freeOf, HashMap.get_update, hm]

/-- `takeIp` allocates from the pool it was asked from, and changes nothing else. -/
theorem takeIp_cases (h : nm.takeIp subnet = .ok (ip, nm')) :
    (subnet = none ∧ ip ∈ nm.pool.free ∧
      nm' = { nm with pool := { nm.pool with free := nm.pool.free.erase ip } }) ∨
    ∃ n p, subnet = some n ∧ nm.subnetPools.get n = some p ∧ ip ∈ p.free ∧
      nm' = { nm with subnetPools :=
        nm.subnetPools.update n fun _ => { p with free := p.free.erase ip } } := by
  cases subnet with
  | none =>
    left
    simp only [takeIp] at h
    split at h
    · rename_i r hr
      obtain rfl := Except.ok.inj h
      obtain ⟨⟨a, q⟩, halloc, heq⟩ := Option.map_eq_some_iff.1 hr
      cases heq
      obtain ⟨hmem, rfl⟩ := IpPool.allocate_eq_some halloc
      exact ⟨rfl, hmem, rfl⟩
    · cases h
  | some n =>
    right
    simp only [takeIp] at h
    split at h
    · rename_i r hr
      obtain rfl := Except.ok.inj h
      simp only [allocateSubnetIp, Option.bind_eq_bind, Option.bind_eq_some_iff, Prod.exists] at hr
      obtain ⟨p, hget, a, q, halloc, heq⟩ := hr
      cases heq
      obtain ⟨hmem, rfl⟩ := IpPool.allocate_eq_some halloc
      exact ⟨n, p, rfl, hget, hmem, rfl⟩
    · cases h

/-- The address `takeIp` returns was free in the pool it was asked from, and only that pool loses
it. -/
theorem freeOf_takeIp (h : nm.takeIp subnet = .ok (ip, nm')) :
    ip ∈ nm.freeOf subnet ∧
      nm'.freeOf = Function.update nm.freeOf subnet ((nm.freeOf subnet).erase ip) := by
  rcases takeIp_cases h with ⟨rfl, hmem, rfl⟩ | ⟨n, p, rfl, hget, hmem, rfl⟩
  · exact ⟨hmem, freeOf_setPool nm _⟩
  · rw [freeOf_some_of_get hget]
    exact ⟨hmem, freeOf_updateSubnet nm hget _⟩

theorem subnetOf_takeIp (h : nm.takeIp subnet = .ok (ip, nm')) (a : Ipv4Addr) (order : List String) :
    nm'.subnetOf a order = nm.subnetOf a order := by
  rcases takeIp_cases h with ⟨rfl, -, rfl⟩ | ⟨n, p, rfl, hget, -, rfl⟩
  · rfl
  · unfold subnetOf
    refine congrArg (fun q => order.find? q) (funext fun m => ?_)
    rw [HashMap.get_update]
    by_cases hm : m = n
    · subst hm
      simp [hget]
    · rw [if_neg hm]

theorem freeOf_releaseIp (nm : NetMux) (ip : Ipv4Addr) (order : List String) (i : Option String) :
    (nm.releaseIp ip order).freeOf i =
      if i = none ∨ (i = nm.subnetOf ip order ∧ i.isSome) then insert ip (nm.freeOf i)
      else nm.freeOf i := by
  have hsub : ({ nm with pool := nm.pool.release ip } : NetMux).subnetOf ip order =
    nm.subnetOf ip order := rfl
  unfold releaseIp
  simp only [hsub]
  cases hn : nm.subnetOf ip order with
  | none =>
    simp only [freeOf_setPool]
    cases i <;> simp [freeOf, IpPool.release]
  | some n =>
    obtain ⟨p, hp⟩ : ∃ p, nm.subnetPools.get n = some p := by
      have hsome := List.find?_some hn
      cases hget : nm.subnetPools.get n with
      | none => rw [hget] at hsome; cases hsome
      | some p => exact ⟨p, rfl⟩
    rw [freeOf_updateSubnet { nm with pool := nm.pool.release ip } hp, freeOf_setPool]
    cases i with
    | none => simp [freeOf, IpPool.release]
    | some m =>
      by_cases hm : m = n
      · subst hm
        simp [freeOf, hp, IpPool.release]
      · simp [hm, freeOf]

theorem contains_releaseIp (nm : NetMux) (ip a : Ipv4Addr) (order : List String) (n : String) :
    ((nm.releaseIp ip order).subnetPools.get n).any (·.cidr.contains a) =
      (nm.subnetPools.get n).any (·.cidr.contains a) := by
  unfold releaseIp
  dsimp only
  split
  · rw [HashMap.get_update]
    split_ifs
    · cases nm.subnetPools.get n <;> rfl
    · rfl
  · rfl

theorem subnetOf_releaseIp (nm : NetMux) (ip a : Ipv4Addr) (order order' : List String) :
    (nm.releaseIp ip order).subnetOf a order' = nm.subnetOf a order' := by
  unfold subnetOf
  simp only [contains_releaseIp]

theorem freeOf_subset_releaseIp (nm : NetMux) (ip : Ipv4Addr) (order : List String)
    (i : Option String) : nm.freeOf i ⊆ (nm.releaseIp ip order).freeOf i := by
  rw [freeOf_releaseIp]
  split_ifs
  · exact Finset.subset_insert ip _
  · exact Finset.Subset.refl _

theorem freeOf_releaseIp_of_not_contains {order : List String}
    (h : ∀ n p, nm.subnetPools.get n = some p → p.cidr.contains ip = false) :
    (nm.releaseIp ip order).freeOf = Function.update nm.freeOf none (insert ip (nm.freeOf none)) := by
  have hnone : nm.subnetOf ip order = none := by
    unfold subnetOf
    rw [List.find?_eq_none]
    intro n _
    cases hn : nm.subnetPools.get n with
    | none => simp
    | some p => simp [h n p hn]
  funext i
  rw [freeOf_releaseIp, hnone]
  cases i <;> simp

theorem freeOf_registerSubnetCidr {name cidrStr : String} (h : nm.registerSubnetCidr name cidrStr = .ok nm') :
    ∃ cidr, Ipv4Cidr.parse cidrStr = some cidr ∧
      nm'.freeOf = Function.update nm.freeOf (some name) cidr.usable := by
  unfold registerSubnetCidr at h
  split at h
  · cases h
  · rename_i cidr hparse
    obtain rfl := Except.ok.inj h
    refine ⟨cidr, hparse, ?_⟩
    funext i
    cases i with
    | none => simp [freeOf]
    | some n =>
      by_cases hn : n = name
      · subst hn
        simp [freeOf, IpPool.new]
      · simp [freeOf, HashMap.get_insert, hn]

theorem new_of_parse {cidr : Ipv4Cidr} (h : Ipv4Cidr.parse podCidr = some cidr) :
    NetMux.new podCidr = .ok ⟨IpPool.new cidr, ∅, cidr.prefixLen, deriveGateway cidr⟩ := by
  simp only [NetMux.new, h]

theorem new_eq_ok (h : NetMux.new podCidr = .ok nm) :
    ∃ cidr, Ipv4Cidr.parse podCidr = some cidr ∧ nm.pool = IpPool.new cidr ∧ nm.subnetPools = ∅ := by
  unfold NetMux.new at h
  split at h
  · cases h
  · rename_i cidr hparse
    obtain rfl := Except.ok.inj h
    exact ⟨cidr, hparse, rfl, rfl⟩

end NetMux

end Z8s.Netmux
