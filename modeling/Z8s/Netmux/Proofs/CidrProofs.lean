import Z8s.Netmux.Subnets

/-!
# Proofs: CIDRs

The network address of an accepted CIDR starts an aligned block, and which of its addresses a new pool hands out.
-/

namespace Z8s.Netmux.Ipv4Cidr

open Rust Blocks

variable {cidr : Ipv4Cidr} {ip : Ipv4Addr}
variable {s : String}

theorem parse_eq_some_iff : parse s = some cidr ↔ ∃ ipStr prefixStr ip,
    splitOnce '/' s = some (ipStr, prefixStr) ∧ parseUnsigned 255 prefixStr = some cidr.prefixLen ∧
      cidr.prefixLen ≤ 32 ∧ Ipv4Addr.parse ipStr = some ip ∧ cidr.network = ip &&& netMask cidr.prefixLen := by
  constructor
  · intro h
    obtain ⟨⟨ipStr, prefixStr⟩, hsplit, h⟩ := Option.bind_eq_some_iff.1 h
    obtain ⟨prefixLen, hprefixLen, h⟩ := Option.bind_eq_some_iff.1 h
    by_cases hlength : prefixLen > 32
    · simp [hlength] at h
    · simp only [if_neg hlength] at h
      obtain ⟨ip, hip, hcidr⟩ := Option.bind_eq_some_iff.1 h
      cases hcidr
      exact ⟨ipStr, prefixStr, ip, hsplit, hprefixLen, not_lt.1 hlength, hip, rfl⟩
  · rintro ⟨ipStr, prefixStr, ip, hsplit, hprefixLen, hlength, hip, hnetwork⟩
    simp [parse, hsplit, hprefixLen, hip, not_lt.2 hlength, ← hnetwork]

theorem prefixLen_le_of_parse (h : parse s = some cidr) : cidr.prefixLen ≤ 32 := by
  obtain ⟨-, -, -, -, -, hlength, -⟩ := parse_eq_some_iff.1 h
  exact hlength

theorem and_netMask {prefixLen : Nat} (h : 1 ≤ prefixLen) (ip : Ipv4Addr) :
    ip &&& netMask prefixLen = first (32 - prefixLen) ip := by
  rw [netMask, Nat.mod_eq_of_lt (by omega), and_allOnes_shiftLeft]

theorem aligned_of_parse (h : parse s = some cidr) (hlength : 1 ≤ cidr.prefixLen) :
    Aligned (32 - cidr.prefixLen) cidr.network := by
  obtain ⟨-, -, ip, -, -, -, -, hnetwork⟩ := parse_eq_some_iff.1 h
  rw [hnetwork, and_netMask hlength]
  exact aligned_first _ _

section

variable (haligned : Aligned (32 - cidr.prefixLen) cidr.network)
include haligned

theorem holds_iff : cidr.Holds ip ↔
      cidr.network.toNat ≤ ip.toNat ∧ ip.toNat < cidr.network.toNat + 2 ^ (32 - cidr.prefixLen) :=
  haligned.sameBlock_iff

theorem network_add_le : cidr.network.toNat + 2 ^ (32 - cidr.prefixLen) ≤ 2 ^ 32 := by
  have := first_add_le (show 32 - cidr.prefixLen ≤ 32 by omega) cidr.network
  rwa [haligned.toNat_first] at this

theorem toNat_network_add_one
    (h31 : cidr.prefixLen ≤ 31) : (cidr.network + 1).toNat = cidr.network.toNat + 1 := by
  have htwo : 2 ^ 1 ≤ 2 ^ (32 - cidr.prefixLen) := Nat.pow_le_pow_right (by decide) (by omega)
  have hend := network_add_le haligned
  rw [BitVec.toNat_add]
  exact Nat.mod_eq_of_lt (by change cidr.network.toNat + 1 < 2 ^ 32; omega)

theorem mem_image_add {lo hi : Nat} (hhi : hi ≤ 2 ^ (32 - cidr.prefixLen)) :
    ip ∈ (Finset.Ico lo hi).image (fun i => cidr.network + BitVec.ofNat 32 i) ↔
      cidr.network.toNat + lo ≤ ip.toNat ∧ ip.toNat < cidr.network.toNat + hi := by
  have hend := network_add_le haligned
  have hadd {i : Nat} (hi' : i < hi) :
      (cidr.network + BitVec.ofNat 32 i).toNat = cidr.network.toNat + i := by
    have hfirst := toNat_first_add (show 32 - cidr.prefixLen ≤ 32 by omega) cidr.network (i := i) (by omega)
    rwa [BitVec.eq_of_toNat_eq haligned.toNat_first] at hfirst
  rw [Finset.mem_image]
  constructor
  · rintro ⟨i, hi', rfl⟩
    have hmem := Finset.mem_Ico.1 hi'
    rw [hadd hmem.2]
    omega
  · rintro ⟨hlo, hlt⟩
    refine ⟨ip.toNat - cidr.network.toNat, Finset.mem_Ico.2 (by omega), BitVec.eq_of_toNat_eq ?_⟩
    rw [hadd (by omega)]
    omega

theorem mem_usable (h1 : 1 ≤ cidr.prefixLen) (h30 : cidr.prefixLen ≤ 30) :
    ip ∈ cidr.usable ↔ cidr.network.toNat + 2 ≤ ip.toNat ∧
      ip.toNat < cidr.network.toNat + (2 ^ (32 - cidr.prefixLen) - 1) := by
  rw [usable, if_neg (by omega), Nat.mod_eq_of_lt (by omega : 32 - cidr.prefixLen < 32)]
  exact mem_image_add haligned (Nat.sub_le _ 1)

/-- A pool starts with all addresses but the network address, the first host and the broadcast address. -/
theorem mem_usable_iff (h1 : 1 ≤ cidr.prefixLen) (h30 : cidr.prefixLen ≤ 30) : ip ∈ cidr.usable ↔
      cidr.Holds ip ∧ ip ≠ cidr.network ∧ ip ≠ cidr.network + 1 ∧ ip ≠ cidr.broadcast := by
  have hfour : 2 ^ 2 ≤ 2 ^ (32 - cidr.prefixLen) := Nat.pow_le_pow_right (by decide) (by omega)
  have hend := network_add_le haligned
  have hone := toNat_network_add_one haligned (by omega)
  have hlast : cidr.broadcast.toNat = cidr.network.toNat + (2 ^ (32 - cidr.prefixLen) - 1) := by
    rw [broadcast, toNat_last (by omega), haligned.toNat_first]
  rw [mem_usable haligned h1 h30, holds_iff haligned, Ne, Ne, Ne, ← BitVec.toNat_inj, ← BitVec.toNat_inj,
    ← BitVec.toNat_inj, hone, hlast]
  omega

end

/-! ### The first host -/

/-- The first host lies in the CIDR and is not handed out, unless the CIDR has only one or two addresses. -/
theorem first_host_apart_iff (h : parse s = some cidr) :
    cidr.Holds (cidr.network + 1) ∧ cidr.network + 1 ∉ cidr.usable ↔ cidr.prefixLen ≤ 30 := by
  have h32 := prefixLen_le_of_parse h
  rcases Nat.eq_zero_or_pos cidr.prefixLen with h0 | h1
  · -- a shift by 32 is one by 0, so that no address is handed out
    refine iff_of_true ⟨?_, ?_⟩ (by omega)
    · rw [Holds, SameBlock, h0, Nat.div_eq_of_lt cidr.network.isLt, Nat.div_eq_of_lt (BitVec.isLt _)]
    · rw [usable, h0]
      simp
  · have haligned := aligned_of_parse h h1
    rcases Nat.lt_or_ge cidr.prefixLen 32 with hlt | hge
    · have hone := toNat_network_add_one haligned (by omega)
      have htwo : 2 ^ 1 ≤ 2 ^ (32 - cidr.prefixLen) := Nat.pow_le_pow_right (by decide) (by omega)
      have hholds : cidr.Holds (cidr.network + 1) := by
        rw [holds_iff haligned, hone]
        omega
      rcases Nat.lt_or_ge cidr.prefixLen 31 with h30 | h31
      · refine iff_of_true ⟨hholds, ?_⟩ (by omega)
        rw [mem_usable haligned h1 (by omega), hone]
        omega
      · refine iff_of_false (fun h => h.2 ?_) (by omega)
        rw [usable, if_pos h31, Nat.mod_eq_of_lt (by omega : 32 - cidr.prefixLen < 32),
          mem_image_add haligned (le_refl _), hone]
        omega
    · refine iff_of_false (fun h => ?_) (by omega)
      obtain ⟨hholds, -⟩ := h
      have hbits : 32 - cidr.prefixLen = 0 := by omega
      rw [Holds, SameBlock, hbits, pow_zero, Nat.div_one, Nat.div_one, BitVec.toNat_add] at hholds
      change cidr.network.toNat = (cidr.network.toNat + 1) % 2 ^ 32 at hholds
      omega

end Z8s.Netmux.Ipv4Cidr
