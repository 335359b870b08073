import Z8s.Api.Subnets
import Z8s.Netmux.Proofs.CidrProofs
import Z8s.Netmux.Proofs.NetMuxProofs
import Z8s.Rust.Proofs.StrProofs

/-!
# Proofs: texts of CIDRs

The octets that the parser of addresses accepts are those that are numbers without a sign and
without a zero in front.
-/

namespace Z8s.Api

open Rust Blocks Netmux Ipv4Cidr

variable {s : String} {ip : Ipv4Addr}

/-! ### Octets -/

theorem length_le_of_digitsValue {d : Char} {ds : List Char} (hdigit : d.isDigit = true) (hzero : d ≠ '0')
    (hvalue : digitsValue (d :: ds) ≤ 255) : ds.length ≤ 2 := by
  have hd : 1 ≤ d.toNat - '0'.toNat := by
    have hrange := Char.isDigit_iff_toNat.1 hdigit
    have hne : d.toNat ≠ '0'.toNat := fun h => hzero (Char.toNat_inj.1 h)
    change 48 ≤ d.toNat ∧ _ at hrange
    change d.toNat ≠ 48 at hne
    change 1 ≤ d.toNat - 48
    omega
  by_contra hlength
  have hpow : 10 ^ 3 ≤ 10 ^ ds.length := Nat.pow_le_pow_right (by decide) (by omega)
  have hle : 1 * 10 ^ ds.length ≤ (d.toNat - '0'.toNat) * 10 ^ ds.length := Nat.mul_le_mul_right _ hd
  have hfold := le_foldl_digits (0 * 10 + (d.toNat - '0'.toNat)) ds
  rw [Nat.zero_mul, Nat.zero_add] at hfold
  rw [digitsValue, List.foldl_cons, Nat.zero_mul, Nat.zero_add] at hvalue
  omega

theorem parseOctet_eq_some_iff {octet : String} {n : Nat} :
    parseOctet octet.toList = some n ↔ parseUnsigned 255 octet = some n ∧ PlainOctet octet := by
  obtain ⟨ds, hoctet, hparse⟩ := parseUnsigned_eq 255 octet
  rw [hparse, parseOctet, PlainOctet]
  rcases hoctet with hoctet | ⟨hoctet, hplus⟩
  · simp [hoctet, show Char.isDigit '+' = false by decide]
  · have hlength (hne : ds ≠ []) (hdigits : ds.all Char.isDigit = true) (hvalue : digitsValue ds ≤ 255)
        (hzero : ds.head? = some '0' → ds.length = 1) : ds.length ≤ 3 := by
      cases ds with
      | nil => exact absurd rfl hne
      | cons d ds =>
        by_cases h0 : d = '0'
        · rw [hzero (by rw [h0, List.head?_cons])]
          decide
        · have := length_le_of_digitsValue (List.all_eq_true.1 hdigits d List.mem_cons_self) h0 hvalue
          rw [List.length_cons]
          omega
    have hcond : (ds ≠ [] ∧ ds.length ≤ 3 ∧ ds.all Char.isDigit ∧ (ds.head? ≠ some '0' ∨ ds.length = 1) ∧
        digitsValue ds ≤ 255) ↔
        (ds ≠ [] ∧ ds.all Char.isDigit ∧ digitsValue ds ≤ 255) ∧ (ds.head? = some '0' → ds.length = 1) := by
      rw [imp_iff_not_or]
      constructor
      · rintro ⟨hne, -, hdigits, hzero, hvalue⟩
        exact ⟨⟨hne, hdigits, hvalue⟩, hzero⟩
      · rintro ⟨⟨hne, hdigits, hvalue⟩, hzero⟩
        exact ⟨hne, hlength hne hdigits hvalue (imp_iff_not_or.2 hzero), hdigits, hzero, hvalue⟩
    rw [hoctet, if_congr hcond rfl rfl]
    simp only [Option.ite_none_right_eq_some, ne_eq, hplus, not_false_eq_true, true_and, and_right_comm]

/-- The octets of an address, as the check of the command line and the counts of the subnets read them. -/
theorem map_parseUnsigned_of_parse (h : Ipv4Addr.parse s = some ip) :
    ∃ a b c d, (splitChar '.' s).map (parseUnsigned 255) = [a, b, c, d].map some ∧ Ipv4Addr.new a b c d = ip ∧
      ∀ octet ∈ splitChar '.' s, PlainOctet octet := by
  obtain ⟨a, b, c, d, hmap, hip⟩ := Ipv4Addr.parse_eq_some_iff.1 h
  have hoctet : ∀ octet ∈ splitChar '.' s, ∃ n, parseOctet octet.toList = some n := by
    intro octet hoctet
    have hmem := List.mem_map_of_mem (f := fun octet : String => parseOctet octet.toList) hoctet
    rw [hmap, List.mem_map] at hmem
    obtain ⟨n, -, hn⟩ := hmem
    exact ⟨n, hn.symm⟩
  have hsame : ∀ octet ∈ splitChar '.' s, parseUnsigned 255 octet = parseOctet octet.toList := by
    intro octet hmem
    obtain ⟨n, hn⟩ := hoctet octet hmem
    rw [hn, (parseOctet_eq_some_iff.1 hn).1]
  refine ⟨a, b, c, d, ?_, hip, ?_⟩
  · rw [List.map_congr_left hsame, hmap]
  · intro octet hmem
    obtain ⟨n, hn⟩ := hoctet octet hmem
    exact (parseOctet_eq_some_iff.1 hn).2

/-! ### Membership -/

theorem octets_of_parse (h : Ipv4Addr.parse s = some ip) :
    ∃ a b c d, octets s = [a, b, c, d] ∧ Ipv4Addr.new a b c d = ip := by
  obtain ⟨a, b, c, d, hmap, hip, -⟩ := map_parseUnsigned_of_parse h
  exact ⟨a, b, c, d, filterMap_of_map_eq hmap, hip⟩

theorem and_subnetMask {prefixLen : Nat} (h : prefixLen ≤ 32) (ip : Ipv4Addr) :
    ip &&& subnetMask prefixLen = first (32 - prefixLen) ip := by
  rcases Nat.eq_zero_or_pos prefixLen with rfl | hpos
  · refine BitVec.eq_of_toNat_eq ?_
    rw [toNat_first, Nat.div_eq_of_lt ip.isLt]
    simp [subnetMask]
  · have hshift : (2 ^ 32 + 32 - prefixLen) % 2 ^ 32 % 32 = 32 - prefixLen := by omega
    rw [subnetMask, if_neg (by omega), hshift, and_allOnes_shiftLeft]

namespace CidrText

variable (c c' : CidrText) (ip : Ipv4Addr)

theorem exists_parts : ∃ ipStr prefixStr, splitChar '/' c.text = [ipStr, prefixStr] ∧
    Ipv4Addr.parse ipStr = some c.address ∧ parseUnsigned 255 prefixStr = some c.cidr.prefixLen ∧
      c.cidr.network = c.address &&& netMask c.cidr.prefixLen := by
  obtain ⟨ipStr, prefixStr, ip, hsplit, hprefixLen, -, hip, hnetwork⟩ := parse_eq_some_iff.1 c.parsed
  have haddress : c.address = ip := by simp [address, hsplit, hip]
  obtain ⟨htext, hslash⟩ := splitOnce_eq_some hsplit
  have hslash' : '/' ∉ prefixStr.toList := by
    intro hmem
    rcases mem_of_parseUnsigned hprefixLen hmem with h | h <;> revert h <;> decide
  refine ⟨ipStr, prefixStr, ?_, haddress ▸ hip, hprefixLen, haddress ▸ hnetwork⟩
  rw [htext, splitChar_append, splitChar_of_notMem hslash, splitChar_of_notMem hslash']
  rfl

theorem ipInCidr_eq : ipInCidr (dotted ip) c.text =
    (ip &&& subnetMask c.cidr.prefixLen == c.address &&& subnetMask c.cidr.prefixLen) := by
  obtain ⟨ipStr, prefixStr, hparts, haddress, hprefixLen, -⟩ := c.exists_parts
  obtain ⟨_, _, _, _, hoctets, hip⟩ := octets_of_parse (Ipv4Addr.parse_dotted ip)
  obtain ⟨_, _, _, _, hoctets', hbase⟩ := octets_of_parse haddress
  rw [ipInCidr, hparts]
  simp only [parseUnsigned_mono hprefixLen (show 255 ≤ 2 ^ 32 - 1 by decide), hoctets, hoctets', hip, hbase]

theorem ipInCidr_iff : ipInCidr (dotted ip) c.text = true ↔ c.Covers ip := by
  rw [ipInCidr_eq, beq_iff_eq, and_subnetMask (prefixLen_le_of_parse c.parsed),
    and_subnetMask (prefixLen_le_of_parse c.parsed), eq_comm, first_eq_first_iff, Covers]

theorem agrees_of_pos (hpos : 1 ≤ c.cidr.prefixLen) : c.Agrees c' ip where
  contains_iff := by
    obtain ⟨-, -, -, -, -, hnetwork⟩ := c.exists_parts
    rw [Ipv4Cidr.contains, beq_iff_eq, hnetwork, BitVec.and_assoc, BitVec.and_self, and_netMask hpos,
      and_netMask hpos, eq_comm, first_eq_first_iff, Covers]
  ipInCidr_iff := c.ipInCidr_iff ip
  network := by rw [Ipv4Cidr.contains, beq_self_eq_true]
  normalised := by
    intro hlength hcovers
    obtain ⟨-, -, -, -, -, hnetwork⟩ := c.exists_parts
    obtain ⟨-, -, -, -, -, hnetwork'⟩ := c'.exists_parts
    have hsame : c.cidr.network = c'.cidr.network := by
      rw [hnetwork, hnetwork', ← hlength, and_netMask hpos, and_netMask hpos, first_eq_first_iff]
      exact hcovers
    change (⟨c.cidr.network, c.cidr.prefixLen⟩ : Ipv4Cidr) = ⟨c'.cidr.network, c'.cidr.prefixLen⟩
    rw [hsame, hlength]

theorem covers_of_zero (hzero : c.cidr.prefixLen = 0) : c.Covers ip := by
  rw [Covers, SameBlock, hzero, Nat.div_eq_of_lt c.address.isLt, Nat.div_eq_of_lt ip.isLt]

/-- Without a prefix the whole address is compared, though every address is covered. -/
theorem agrees_zero_iff (hzero : c.cidr.prefixLen = 0) :
    c.Agrees c' ip ↔ ip = c.address ∧ (c'.cidr.prefixLen = 0 → c'.address = c.address) := by
  have hmask : netMask 0 = BitVec.allOnes 32 := by decide
  have hnetwork (c : CidrText) (hzero : c.cidr.prefixLen = 0) : c.cidr = ⟨c.address, 0⟩ := by
    obtain ⟨-, -, -, -, -, hnetwork⟩ := c.exists_parts
    rw [hzero, hmask, BitVec.and_allOnes] at hnetwork
    rw [← hnetwork, ← hzero]
  have hcontains (ip : Ipv4Addr) : c.cidr.contains ip = true ↔ ip = c.address := by
    rw [hnetwork c hzero, Ipv4Cidr.contains, hmask, BitVec.and_allOnes, BitVec.and_allOnes, beq_iff_eq]
  constructor
  · intro h
    refine ⟨(hcontains ip).1 (h.contains_iff.2 (c.covers_of_zero ip hzero)), fun hzero' => ?_⟩
    have hsame := h.normalised (hzero.trans hzero'.symm) (c.covers_of_zero _ hzero)
    rw [hnetwork c hzero, hnetwork c' hzero'] at hsame
    exact (Ipv4Cidr.mk.inj hsame).1.symm
  · rintro ⟨rfl, haddress⟩
    exact {
      contains_iff := iff_of_true ((hcontains _).2 rfl) (c.covers_of_zero _ hzero)
      ipInCidr_iff := c.ipInCidr_iff _
      network := by rw [Ipv4Cidr.contains, beq_self_eq_true]
      normalised := by
        intro hlength _
        have hzero' := hlength.symm.trans hzero
        rw [hnetwork c hzero, hnetwork c' hzero', haddress hzero'] }

/-- The readers of CIDRs agree, unless the length is 0 and some other address is asked for or compared. -/
theorem maskAgrees_iff : c.Agrees c' ip ↔
    (c.cidr.prefixLen = 0 → ip = c.address ∧ (c'.cidr.prefixLen = 0 → c'.address = c.address)) := by
  rcases Nat.eq_zero_or_pos c.cidr.prefixLen with hzero | hpos
  · rw [agrees_zero_iff c c' ip hzero]
    exact ⟨fun h _ => h, fun h => h hzero⟩
  · exact iff_of_true (c.agrees_of_pos c' ip hpos) fun h => absurd h (by omega)

def anywhere : CidrText where
  text := "0.0.0.0/0"
  cidr := ⟨0, 0⟩
  parsed := by decide +kernel

/-- The pools find no other address than 0.0.0.0 in it, the counts of the subnets find all of them. -/
theorem anywhere_disagrees :
    anywhere.cidr.contains 0x0A640001#32 = false ∧ ipInCidr (dotted 0x0A640001#32) anywhere.text = true ∧
      ¬ anywhere.Agrees anywhere 0x0A640001#32 := by
  have hcontains : anywhere.cidr.contains 0x0A640001#32 = false := by decide
  have hcovers : anywhere.Covers 0x0A640001#32 := anywhere.covers_of_zero _ rfl
  refine ⟨hcontains, (anywhere.ipInCidr_iff _).2 hcovers, fun h => ?_⟩
  rw [h.contains_iff.2 hcovers] at hcontains
  cases hcontains

end CidrText

/-! ### The check of the command line -/

theorem isSome_parseCidr_iff : (Config.parseCidr s).isSome = true ↔ ∃ ipStr prefixStr prefixLen,
    splitOnce '/' s = some (ipStr, prefixStr) ∧ parseUnsigned 255 prefixStr = some prefixLen ∧ prefixLen ≤ 32 ∧
      ∃ a b c d, (splitChar '.' ipStr).map (parseUnsigned 255) = [a, b, c, d].map some := by
  unfold Config.parseCidr
  constructor
  · intro h
    obtain ⟨cfg, h⟩ := Option.isSome_iff_exists.1 h
    obtain ⟨⟨ipStr, prefixStr⟩, hsplit, h⟩ := Option.bind_eq_some_iff.1 h
    obtain ⟨prefixLen, hprefixLen, h⟩ := Option.bind_eq_some_iff.1 h
    by_cases hlength : prefixLen > 32
    · simp [hlength] at h
    · rw [dif_neg hlength] at h
      obtain ⟨parts, hparts, h⟩ := Option.bind_eq_some_iff.1 h
      refine ⟨ipStr, prefixStr, prefixLen, hsplit, hprefixLen, not_lt.1 hlength, ?_⟩
      split at h
      · exact ⟨_, _, _, _, mapM_eq_some_iff.1 hparts⟩
      · cases h
  · rintro ⟨ipStr, prefixStr, prefixLen, hsplit, hprefixLen, hlength, a, b, c, d, hmap⟩
    simp [hsplit, hprefixLen, not_lt.2 hlength, mapM_eq_some_iff.2 hmap]

theorem isSome_parse_iff :
    (parse s).isSome = true ↔ (Config.parseCidr s).isSome = true ∧ PlainAddress s := by
  rw [isSome_parseCidr_iff, Option.isSome_iff_exists]
  constructor
  · rintro ⟨cidr, hcidr⟩
    obtain ⟨ipStr, prefixStr, ip, hsplit, hprefixLen, hle, hip, -⟩ := parse_eq_some_iff.1 hcidr
    obtain ⟨a, b, c, d, hmap, -, hplain⟩ := map_parseUnsigned_of_parse hip
    refine ⟨⟨ipStr, prefixStr, _, hsplit, hprefixLen, hle, a, b, c, d, hmap⟩, ?_⟩
    intro parts hparts
    obtain rfl := Option.some.inj (hparts.symm.trans hsplit).symm
    exact hplain
  · rintro ⟨⟨ipStr, prefixStr, prefixLen, hsplit, hprefixLen, hle, a, b, c, d, hmap⟩, hplain⟩
    have hoctet : (splitChar '.' ipStr).map (fun octet => parseOctet octet.toList) = [a, b, c, d].map some := by
      rw [← hmap]
      refine List.map_congr_left fun octet hoctet => ?_
      have hmem := List.mem_map_of_mem (f := parseUnsigned 255) hoctet
      rw [hmap, List.mem_map] at hmem
      obtain ⟨n, -, hn⟩ := hmem
      rw [← hn]
      exact parseOctet_eq_some_iff.2 ⟨hn.symm, hplain _ hsplit octet hoctet⟩
    refine ⟨⟨Ipv4Addr.new a b c d &&& netMask prefixLen, prefixLen⟩, parse_eq_some_iff.2 ?_⟩
    exact ⟨ipStr, prefixStr, _, hsplit, hprefixLen, hle, Ipv4Addr.parse_eq_some_iff.2 ⟨a, b, c, d, hoctet, rfl⟩, rfl⟩

/-- The check lets through what makes the start fail exactly when an octet has a sign or a zero in front. -/
theorem checksPodCidr_iff (podCidr : String) :
    ChecksPodCidr podCidr ↔ ((Config.parseCidr podCidr).isSome = true → PlainAddress podCidr) := by
  constructor
  · intro h haccepted
    rw [h.same] at haccepted
    exact (isSome_parse_iff.1 haccepted).2
  · intro h
    have hiff : (Config.parseCidr podCidr).isSome = true ↔ (parse podCidr).isSome = true :=
      ⟨fun haccepted => isSome_parse_iff.2 ⟨haccepted, h haccepted⟩, fun hparse => (isSome_parse_iff.1 hparse).1⟩
    refine ⟨Bool.eq_iff_iff.2 hiff, fun haccepted => ?_⟩
    obtain ⟨cidr, hcidr⟩ := Option.isSome_iff_exists.1 (hiff.1 haccepted)
    rw [NetMux.new_of_parse hcidr]
    rfl

/-- A zero in front of an octet passes the check, and the network cannot be made. -/
theorem zero_in_front_fails :
    (Config.parseCidr "010.42.0.0/16").isSome = true ∧
      NetMux.new "010.42.0.0/16" = .error ["Invalid pod CIDR"] ∧ ¬ ChecksPodCidr "010.42.0.0/16" := by
  have haccepted : (Config.parseCidr "010.42.0.0/16").isSome = true := by decide +kernel
  have hparse : parse "010.42.0.0/16" = none := by decide +kernel
  refine ⟨haccepted, by rw [NetMux.new, hparse], fun h => ?_⟩
  rw [h.same, hparse] at haccepted
  cases haccepted

end Z8s.Api
