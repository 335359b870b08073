import Z8s.Api.ClusterIps

/-!
# Proofs: the range of ClusterIPs

The counter goes through all remainders of the number of hosts, and the last of them is 0.
-/

namespace Z8s.Api

open Rust Blocks

namespace Config

variable {prof : Profile} {cfg : Config}

def addressAt (cfg : Config) (counter : Nat) : Ipv4Addr :=
  cfg.serviceCidrBase ||| BitVec.ofNat 32 (counter % 2 ^ 32 % max (2 ^ cfg.hostBits - 2) 1)

theorem clusterIps_eq (hbits : cfg.hostBits < 32) (n counter : Nat) :
    cfg.clusterIps prof n counter = .ok (((List.range' counter n).map cfg.addressAt).map dotted) := by
  induction n generalizing counter with
  | zero => rfl
  | succ n ih =>
    have halloc : cfg.allocClusterIp prof counter = .ok (dotted (cfg.addressAt counter), counter + 1) := by
      rw [allocClusterIp, maxHosts, if_pos hbits]
      rfl
    simp only [clusterIps, halloc, ih, List.range'_succ, List.map_cons, Except.map]

/-- Every number below the number of hosts is that of one of the first calls, and 0 is that of the last one. -/
theorem exists_addressAt {i : Nat} (hbits : cfg.hostBits < 32) (hi : i < 2 ^ cfg.hostBits - 2) :
    ∃ counter ∈ List.range' 1 (2 ^ cfg.hostBits - 2), counter % (2 ^ cfg.hostBits - 2) = i ∧
      cfg.addressAt counter = cfg.serviceCidrBase ||| BitVec.ofNat 32 i := by
  have hpow : 2 ^ cfg.hostBits < 2 ^ 32 := Nat.pow_lt_pow_right (by decide) hbits
  have haddress {counter : Nat} (hle : counter ≤ 2 ^ cfg.hostBits - 2)
      (hmod : counter % (2 ^ cfg.hostBits - 2) = i) :
      cfg.addressAt counter = cfg.serviceCidrBase ||| BitVec.ofNat 32 i := by
    rw [addressAt, Nat.mod_eq_of_lt (a := counter) (by omega), max_eq_left (by omega), hmod]
  rcases Nat.eq_zero_or_pos i with rfl | hpos
  · have hmod := Nat.mod_self (2 ^ cfg.hostBits - 2)
    exact ⟨_, by rw [List.mem_range'_1]; omega, hmod, haddress (le_refl _) hmod⟩
  · have hmod := Nat.mod_eq_of_lt hi
    exact ⟨i, by rw [List.mem_range'_1]; omega, hmod, haddress (by omega) hmod⟩

theorem exists_hostBit (h : ¬ cfg.Aligned) : ∃ j < cfg.hostBits, cfg.serviceCidrBase.getLsbD j = true := by
  by_contra hnone
  refine h (Nat.eq_of_testBit_eq fun i => ?_)
  rw [Nat.testBit_mod_two_pow, Nat.zero_testBit, BitVec.testBit_toNat]
  by_cases hi : i < cfg.hostBits
  · simp only [hi, decide_true, Bool.true_and]
    exact Bool.eq_false_iff.2 fun hbit => hnone ⟨i, hi, hbit⟩
  · simp [hi]

theorem or_two_pow {j : Nat} (hbit : cfg.serviceCidrBase.getLsbD j = true) :
    cfg.serviceCidrBase ||| BitVec.ofNat 32 (2 ^ j) = cfg.serviceCidrBase := by
  refine BitVec.eq_of_getLsbD_eq fun i hi => ?_
  rw [BitVec.getLsbD_or, BitVec.getLsbD_ofNat, Nat.testBit_two_pow]
  by_cases hij : j = i
  · rw [← hij, hbit, Bool.true_or]
  · simp [hij]

theorem toNat_addressAt (haligned : cfg.Aligned) (hbits : cfg.hostBits < 32)
    {counter : Nat} (hcounter : counter < 2 ^ cfg.hostBits - 2) :
    (cfg.addressAt counter).toNat = cfg.serviceCidrBase.toNat + counter := by
  have hpow : 2 ^ cfg.hostBits < 2 ^ 32 := Nat.pow_lt_pow_right (by decide) hbits
  have hbase : cfg.serviceCidrBase.toNat = 2 ^ cfg.hostBits * (cfg.serviceCidrBase.toNat / 2 ^ cfg.hostBits) :=
    (Nat.mul_div_cancel' (Nat.dvd_of_mod_eq_zero haligned)).symm
  rw [addressAt, Nat.mod_eq_of_lt (a := counter) (by omega), max_eq_left (by omega), Nat.mod_eq_of_lt hcounter,
    BitVec.toNat_or, BitVec.toNat_ofNat, Nat.mod_eq_of_lt (by omega), hbase,
    ← Nat.two_pow_add_eq_or_of_lt (by omega)]

end Config

namespace ServiceRange

variable (range : ServiceRange) (prof : Profile)

theorem hostBits_spec : 2 ≤ range.config.hostBits ∧ range.config.hostBits < 32 := by
  have h1 := range.one_le
  have h30 := range.le_thirty
  rw [Config.hostBits]
  omega

theorem covers_iff_addresses (n : Nat) :
    range.Covers prof n ↔ ((List.range' 1 n).map range.config.addressAt).Nodup ∧
      ∀ counter ∈ List.range' 1 n, SameBlock range.config.hostBits range.config.serviceCidrBase
          (range.config.addressAt counter) ∧
        range.config.addressAt counter ≠ first range.config.hostBits range.config.serviceCidrBase ∧
        range.config.addressAt counter ≠ last range.config.hostBits range.config.serviceCidrBase := by
  rw [Covers, Config.clusterIps_eq range.hostBits_spec.2]
  constructor
  · rintro ⟨ips, hips, hnodup, hspec⟩
    obtain rfl : (List.range' 1 n).map range.config.addressAt = ips :=
      List.map_injective_iff.2 (fun _ _ => dotted_inj) (Except.ok.inj hips)
    exact ⟨hnodup, fun counter hcounter => hspec _ (List.mem_map_of_mem hcounter)⟩
  · rintro ⟨hnodup, hspec⟩
    refine ⟨_, rfl, hnodup, fun ip hip => ?_⟩
    obtain ⟨counter, hcounter, rfl⟩ := List.mem_map.1 hip
    exact hspec counter hcounter

/-- One of the first calls gives the network address, or one gives the broadcast address, or two give the same
address. -/
theorem not_covers_all : ¬ range.Covers prof (2 ^ range.config.hostBits - 2) := by
  obtain ⟨htwo, hbits⟩ := range.hostBits_spec
  have hfour : 2 ^ 2 ≤ 2 ^ range.config.hostBits := Nat.pow_le_pow_right (by decide) htwo
  rw [covers_iff_addresses]
  rintro ⟨hnodup, hspec⟩
  obtain ⟨counter, hcounter, hzero, haddress⟩ :=
    Config.exists_addressAt (i := 0) hbits (by omega)
  rw [BitVec.or_zero] at haddress
  by_cases haligned : range.config.Aligned
  · -- the base is the network address
    refine (hspec counter hcounter).2.1 (haddress.trans (BitVec.eq_of_toNat_eq ?_))
    exact (Aligned.toNat_first haligned).symm
  · obtain ⟨j, hj, hbit⟩ := Config.exists_hostBit haligned
    rcases Nat.lt_or_ge (2 ^ j) (2 ^ range.config.hostBits - 2) with hlt | hge
    · -- the number of this bit gives the base, as 0 does
      obtain ⟨counter', hcounter', hpow, haddress'⟩ := Config.exists_addressAt hbits hlt
      rw [Config.or_two_pow hbit, ← haddress] at haddress'
      obtain rfl := List.inj_on_of_nodup_map hnodup hcounter' hcounter haddress'
      exact absurd (hpow.symm.trans hzero) (Nat.two_pow_pos j).ne'
    · -- there are four addresses, and the bit is the upper one: 1 gives the last address
      have hhalf : 2 ^ j ≤ 2 ^ (range.config.hostBits - 1) := Nat.pow_le_pow_right (by decide) (by omega)
      have hdouble : 2 ^ range.config.hostBits = 2 * 2 ^ (range.config.hostBits - 1) := by
        rw [← Nat.pow_succ', Nat.succ_eq_add_one, Nat.sub_add_cancel (by omega)]
      have hlow : range.config.hostBits - 1 ≤ 1 :=
        (Nat.pow_le_pow_iff_right (a := 2) (by decide)).1 (by omega)
      have hbitsTwo : range.config.hostBits = 2 := by omega
      rw [hbitsTwo] at hge
      have hj1 : j = 1 := by
        rcases Nat.lt_or_ge j 1 with hj0 | hj1
        · rw [Nat.lt_one_iff.1 hj0] at hge
          exact absurd hge (by decide)
        · omega
      obtain ⟨counter', hcounter', -, haddress'⟩ :=
        Config.exists_addressAt (i := 1) hbits (by omega)
      obtain ⟨hsame, -, hlast⟩ := hspec counter' hcounter'
      have hbit0 : (range.config.addressAt counter').toNat.testBit 0 = true := by
        rw [haddress', BitVec.testBit_toNat, BitVec.getLsbD_or]
        simp
      have hbit1 : (range.config.addressAt counter').toNat.testBit 1 = true := by
        rw [haddress', BitVec.testBit_toNat, BitVec.getLsbD_or, ← hj1, hbit, Bool.true_or]
      refine hlast (BitVec.eq_of_toNat_eq ?_)
      rw [toNat_last (by omega), toNat_first]
      rw [sameBlock_iff, toNat_first] at hsame
      rw [Nat.testBit_zero, decide_eq_true_eq] at hbit0
      rw [Nat.testBit_succ, Nat.testBit_zero, decide_eq_true_eq] at hbit1
      rw [hbitsTwo] at hsame ⊢
      omega

/-- The stated number of calls is always one too many, if not more. With a network address for a base, all calls
before it are right. -/
theorem covers_spec : ¬ range.Covers prof (2 ^ range.config.hostBits - 2) ∧
    (range.config.Aligned → ∀ n, range.Covers prof n ↔ n < 2 ^ range.config.hostBits - 2) := by
  refine ⟨range.not_covers_all prof, fun haligned n => ⟨fun h => ?_, fun hn => ?_⟩⟩
  · by_contra hge
    -- more calls are no better
    refine range.not_covers_all prof ?_
    rw [covers_iff_addresses] at h ⊢
    have hsub : List.range' 1 (2 ^ range.config.hostBits - 2) <+: List.range' 1 n := by
      refine ⟨List.range' (1 + 1 * (2 ^ range.config.hostBits - 2)) (n - (2 ^ range.config.hostBits - 2)), ?_⟩
      rw [List.range'_append]
      congr 1
      omega
    exact ⟨h.1.sublist (hsub.sublist.map _), fun counter hcounter => h.2 counter (hsub.subset hcounter)⟩
  · obtain ⟨htwo, hbits⟩ := range.hostBits_spec
    have hpow : 2 ^ range.config.hostBits < 2 ^ 32 := Nat.pow_lt_pow_right (by decide) hbits
    have htoNat {counter : Nat} (h : counter ∈ List.range' 1 n) :
        (range.config.addressAt counter).toNat = range.config.serviceCidrBase.toNat + counter := by
      rw [List.mem_range'_1] at h
      exact Config.toNat_addressAt haligned hbits (by omega)
    rw [covers_iff_addresses]
    constructor
    · refine (List.nodup_map_iff_inj_on List.nodup_range').2 fun i hi j hj heq => ?_
      have hval := congrArg BitVec.toNat heq
      rw [htoNat hi, htoNat hj] at hval
      omega
    · intro counter hcounter
      have hbounds := List.mem_range'_1.1 hcounter
      have hfirst := Aligned.toNat_first haligned
      rw [sameBlock_iff, Ne, Ne, ← BitVec.toNat_inj, ← BitVec.toNat_inj, toNat_last (by omega), hfirst,
        htoNat hcounter]
      omega

/-- The service CIDR 10.96.0.0/30 has two hosts; the second Service gets the network address. -/
theorem second_cluster_ip_is_network :
    Config.parseCidr "10.96.0.0/30" = some ⟨Ipv4Addr.new 10 96 0 0, 30⟩ ∧
      Config.clusterIps ⟨false⟩ ⟨Ipv4Addr.new 10 96 0 0, 30⟩ 2 Config.firstCounter =
        .ok ["10.96.0.1", "10.96.0.0"] :=
  ⟨rfl, by decide +kernel⟩

end ServiceRange

end Z8s.Api
