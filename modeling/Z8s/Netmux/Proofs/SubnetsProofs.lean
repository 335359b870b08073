import Z8s.Netmux.Proofs.CidrProofs
import Z8s.Netmux.Proofs.NetMuxProofs
import Z8s.Transition.Proofs.RunProofs

/-!
# Proofs: blocks and single addresses from one pool

The search slides a window over the free addresses in their order.
-/

namespace Z8s.Netmux

open Rust Collections Blocks List BTreeSet

variable {window : List Ipv4Addr} {start : Ipv4Addr}
variable {ip : Ipv4Addr} {subnetPrefix : SubnetPrefix} {p : IpPool}

/-! ### The search -/

/-- Counting on from the first address of a window is counting on from its value: the addresses increase, so the
count does not wrap around within the window. -/
theorem zipIdx_eq_add_iff {rest : List Ipv4Addr} (hsorted : (start :: rest).Pairwise (· < ·))
    (hlen : (start :: rest).length < 2 ^ 32) :
    (∀ vi ∈ (start :: rest).zipIdx, vi.1 = start + BitVec.ofNat 32 vi.2) ↔
      (start :: rest).map BitVec.toNat = List.range' start.toNat (start :: rest).length := by
  constructor
  · intro h
    refine ext_getElem (by simp) fun i hi hi' => ?_
    rw [length_map] at hi
    have hval := congrArg BitVec.toNat
      (h _ (mk_mem_zipIdx_iff_getElem?.2 (getElem?_eq_getElem hi)))
    rw [BitVec.toNat_add, BitVec.toNat_ofNat, Nat.mod_eq_of_lt (a := i) (by omega)] at hval
    rw [getElem_map, getElem_range', Nat.one_mul, hval]
    refine Nat.mod_eq_of_lt ?_
    by_contra hwrap
    -- the address would be below the first one
    have hstart := start.isLt
    have hlt := BitVec.lt_def.1 (pairwise_iff_getElem.1 hsorted 0 i (by simp) hi (by omega))
    rw [hval, getElem_cons_zero, Nat.mod_eq_sub_mod (by omega), Nat.mod_eq_of_lt (by omega)] at hlt
    omega
  · rintro h ⟨v, i⟩ hvi
    obtain ⟨hi, hv⟩ := List.getElem?_eq_some_iff.1 (List.mk_mem_zipIdx_iff_getElem?.1 hvi)
    have hval : v.toNat = start.toNat + i := by
      have := getElem_of_eq h (i := i) (by simpa using hi)
      rw [getElem_map, getElem_range', Nat.one_mul, hv] at this
      exact this
    refine BitVec.eq_of_toNat_eq ?_
    have hv := v.isLt
    rw [BitVec.toNat_add, BitVec.toNat_ofNat, Nat.mod_eq_of_lt (a := i) (by omega),
      Nat.mod_eq_of_lt (by omega), hval]

namespace IpPool

theorem toNat_subnetSize (subnetPrefix : SubnetPrefix) :
    (subnetSize subnetPrefix).toNat = 2 ^ (32 - subnetPrefix.val) := by
  obtain ⟨n, hn⟩ := subnetPrefix
  have hshift : (2 ^ 32 + 32 - n) % 32 = 32 - n := by omega
  have hlt : 2 ^ (32 - n) < 2 ^ 32 := Nat.pow_lt_pow_right (by decide) (by omega)
  rw [subnetSize, hshift, BitVec.toNat_shiftLeft, BitVec.toNat_ofNat, Nat.shiftLeft_eq]
  simpa using Nat.mod_eq_of_lt hlt

section Search

variable {p : IpPool} {size : Ipv4Addr} {bits : Nat}

section

variable (hsize : size.toNat = 2 ^ bits)
include hsize

theorem bits_lt : bits < 32 :=
  (Nat.pow_lt_pow_iff_right (by decide)).1 (hsize ▸ size.isLt)

theorem and_eq_zero_iff_aligned (start : Ipv4Addr) : start &&& (size - 1) = 0 ↔ Aligned bits start := by
  have hone : (1 : Ipv4Addr).toNat ≤ size.toNat := by
    rw [hsize]
    exact Nat.one_le_two_pow
  have hmask : (size - 1).toNat = 2 ^ bits - 1 := by
    rw [BitVec.toNat_sub_of_le (BitVec.le_def.2 hone), hsize]
    rfl
  rw [Aligned, ← Nat.and_two_pow_sub_one_eq_mod, ← hmask, ← BitVec.toNat_and]
  exact (BitVec.toNat_inj (y := 0#32)).symm

theorem isBlock_iff (hsorted : window.Pairwise (· < ·)) (hlen : window.length = 2 ^ bits) :
    isBlock size window = true ↔ Aligned bits (window.headD 0) ∧
      window.map BitVec.toNat = List.range' (window.headD 0).toNat (2 ^ bits) := by
  cases window with
  | nil => exact absurd hlen (Nat.ne_of_lt (Nat.two_pow_pos _))
  | cons start rest =>
    rw [isBlock, Bool.and_eq_true, beq_iff_eq, all_eq_true, headD_cons, and_eq_zero_iff_aligned hsize,
      ← hlen, ← zipIdx_eq_add_iff hsorted (hlen ▸ hsize ▸ size.isLt)]
    simp only [beq_iff_eq]

end

section

variable (h : window ∈ windows (2 ^ bits) (iter p.free))
include h

theorem window_spec :
    window.Pairwise (· < ·) ∧ window.length = 2 ^ bits ∧ ∀ ip ∈ window, ip ∈ p.free := by
  obtain ⟨front, back, hsplit, hlen, rfl⟩ := (mem_windows (Nat.two_pow_pos _)).1 h
  have hsub : (back.take (2 ^ bits)).Sublist (iter p.free) := by
    rw [hsplit]
    exact (take_sublist _ _).trans (sublist_append_right front back)
  refine ⟨(pairwise_iter p.free).sublist hsub, ?_, fun ip hip => mem_iter.1 (hsub.subset hip)⟩
  rw [length_take]
  omega

theorem head?_window : window.head? = some (window.headD 0) := by
  have hlen := (window_spec h).2.1
  cases window with
  | nil => exact absurd hlen (Nat.ne_of_lt (Nat.two_pow_pos _))
  | cons a window => rfl

theorem freeBlock_of_isBlock (hsize : size.toNat = 2 ^ bits) (hblock : isBlock size window = true) :
    FreeBlock p.free bits (window.headD 0) := by
  obtain ⟨hsorted, hlen, hfree⟩ := window_spec h
  obtain ⟨haligned, hmap⟩ := (isBlock_iff hsize hsorted hlen).1 hblock
  refine ⟨haligned, fun ip hip => hfree ip ?_⟩
  have hmem : ip.toNat ∈ window.map BitVec.toNat := by
    rw [hmap, mem_range'_1]
    exact haligned.sameBlock_iff.1 hip
  obtain ⟨ip', hip', heq⟩ := mem_map.1 hmem
  exact BitVec.eq_of_toNat_eq heq ▸ hip'

end

variable (hsize : size.toNat = 2 ^ bits)
include hsize

theorem exists_window_of_freeBlock (h : FreeBlock p.free bits start) :
    ∃ window ∈ windows (2 ^ bits) (iter p.free), isBlock size window = true ∧ window.headD 0 = start := by
  obtain ⟨haligned, hfree⟩ := h
  have hend : start.toNat + 2 ^ bits ≤ 2 ^ 32 := by
    have := first_add_le (bits_lt hsize).le start
    rwa [haligned.toNat_first] at this
  have hmem : ∀ k < 2 ^ bits, start.toNat + k ∈ (iter p.free).map BitVec.toNat := by
    intro k hk
    have hval : (BitVec.ofNat 32 (start.toNat + k)).toNat = start.toNat + k :=
      Nat.mod_eq_of_lt (by omega)
    refine mem_map.2 ⟨BitVec.ofNat 32 (start.toNat + k), mem_iter.2 (hfree _ ?_), hval⟩
    rw [haligned.sameBlock_iff, hval]
    omega
  obtain ⟨window, hwindow, hmap⟩ := exists_window (Nat.two_pow_pos _) (pairwise_iter p.free) hmem
  obtain ⟨hsorted, hlen, -⟩ := window_spec hwindow
  have hhead : window.headD 0 = start := by
    have := congrArg List.head? hmap
    rw [head?_map, head?_window hwindow, head?_range', if_neg (Nat.two_pow_pos _).ne'] at this
    exact BitVec.eq_of_toNat_eq (Option.some.inj this)
  refine ⟨window, hwindow, (isBlock_iff hsize hsorted hlen).2 ?_, hhead⟩
  rw [hhead]
  exact ⟨haligned, hmap⟩

theorem search_cases :
    ((windows (2 ^ bits) (iter p.free)).find? (isBlock size) = none ∧ ¬ ∃ start, FreeBlock p.free bits start) ∨
    ∃ window, (windows (2 ^ bits) (iter p.free)).find? (isBlock size) = some window ∧
      FreeBlock p.free bits (window.headD 0) ∧
      ∀ start, FreeBlock p.free bits start → window.headD 0 ≤ start := by
  cases hfind : (windows (2 ^ bits) (iter p.free)).find? (isBlock size) with
  | none =>
    refine .inl ⟨rfl, ?_⟩
    rintro ⟨start, hstart⟩
    obtain ⟨window, hwindow, hblock, -⟩ := exists_window_of_freeBlock hsize hstart
    exact find?_eq_none.1 hfind window hwindow hblock
  | some window =>
    obtain ⟨hblock, before, after, hsplit, hbefore⟩ := find?_eq_some_iff_append.1 hfind
    have hmem : window ∈ windows (2 ^ bits) (iter p.free) := by
      rw [hsplit]
      exact mem_append_right before mem_cons_self
    refine .inr ⟨window, rfl, freeBlock_of_isBlock hmem hsize hblock, fun start hstart => ?_⟩
    obtain ⟨window', hwindow', hblock', rfl⟩ := exists_window_of_freeBlock hsize hstart
    -- the other block comes later in the list of windows, whose first addresses increase
    have hordered := pairwise_windows (Nat.two_pow_pos bits) (pairwise_iter p.free)
    have hlater := hwindow'
    rw [hsplit, mem_append, mem_cons] at hlater
    rcases hlater with hlater | rfl | hlater
    · exact absurd hblock' (by simpa using hbefore window' hlater)
    · exact le_refl _
    · rw [hsplit] at hordered
      have hlt := (pairwise_cons.1 (pairwise_append.1 hordered).2.1).1 window' hlater
      exact le_of_lt (hlt _ (head?_window hmem) _ (head?_window hwindow'))

/-- Below the last block, the range from the start to the end of a block has the addresses of the block. -/
theorem mem_addressRange (haligned : Aligned bits start) (hend : start.toNat + 2 ^ bits < 2 ^ 32) :
    ip ∈ addressRange start (start + size) ↔ SameBlock bits start ip := by
  have hstop : (start + size).toNat = start.toNat + 2 ^ bits := by
    rw [BitVec.toNat_add, hsize]
    exact Nat.mod_eq_of_lt hend
  have hfirst : first bits start = start := BitVec.eq_of_toNat_eq haligned.toNat_first
  rw [← mem_members (bits_lt hsize).le, addressRange, hstop, members, hfirst, Nat.add_sub_cancel_left]

theorem addressRange_of_last (hend : start.toNat + 2 ^ bits = 2 ^ 32) :
    addressRange start (start + size) = [] := by
  have hstop : (start + size).toNat = 0 := by
    rw [BitVec.toNat_add, hsize, hend]
    exact Nat.mod_self _
  rw [addressRange, hstop, Nat.zero_sub]
  rfl

end Search

/-! ### The allocation -/

theorem mem_foldl_erase {free : Finset Ipv4Addr} {ips : List Ipv4Addr} :
    ip ∈ ips.foldl (fun free ip => free.erase ip) free ↔ ip ∈ free ∧ ip ∉ ips := by
  induction ips generalizing free with
  | nil => simp
  | cons a ips ih =>
    rw [foldl_cons, ih, Finset.mem_erase, mem_cons, not_or]
    tauto

/-- What an allocation does: nothing if there is no free block (or if all addresses are free, since their number
is 0 in 32 bits), and otherwise it hands out the lowest free block. -/
theorem allocateSubnet_cases (p : IpPool) (subnetPrefix : SubnetPrefix) :
    (p.allocateSubnet subnetPrefix = (none, p) ∧
      ((∀ ip, ip ∈ p.free) ∨ ¬ ∃ start, FreeBlock p.free (32 - subnetPrefix.val) start)) ∨
    ∃ start, FreeBlock p.free (32 - subnetPrefix.val) start ∧
      (∀ start', FreeBlock p.free (32 - subnetPrefix.val) start' → start ≤ start') ∧
      (∃ ip, ip ∉ p.free) ∧
      p.allocateSubnet subnetPrefix = (some ⟨start, subnetPrefix⟩,
        { p with
          free := (addressRange start (start + subnetSize subnetPrefix)).foldl (fun free ip => free.erase ip)
            p.free }) := by
  unfold allocateSubnet
  simp only [toNat_subnetSize, length_iter]
  by_cases hall : ∀ ip, ip ∈ p.free
  · have hcard : p.free.card = 2 ^ 32 :=
      Nat.le_antisymm (card_le_two_pow p.free)
        (Nat.not_lt.1 fun hlt => (card_lt_two_pow_iff.1 hlt).elim fun ip hip => hip (hall ip))
    rw [hcard, Nat.mod_self, if_pos (Nat.two_pow_pos _)]
    exact .inl ⟨rfl, .inl hall⟩
  · obtain ⟨ip, hip⟩ := not_forall.1 hall
    rw [Nat.mod_eq_of_lt (card_lt_two_pow_iff.2 ⟨ip, hip⟩)]
    split_ifs with hfew
    · refine .inl ⟨rfl, .inr ?_⟩
      rintro ⟨start, -, hfree⟩
      have := two_pow_le_card (by omega) hfree
      omega
    · rcases search_cases (p := p) (toNat_subnetSize subnetPrefix) with ⟨hfind, hnone⟩ | ⟨window, hfind, hblock, hlowest⟩
      · rw [hfind]
        exact .inl ⟨rfl, .inr hnone⟩
      · rw [hfind]
        exact .inr ⟨window.headD 0, hblock, hlowest, ⟨ip, hip⟩, rfl⟩

end IpPool

/-! ### The last block -/

section LastBlock

variable {bits : Nat}

theorem toNat_lastBlock (h : bits ≤ 32) : (lastBlock bits).toNat + 2 ^ bits = 2 ^ 32 := by
  have hle := first_add_le h (BitVec.allOnes 32)
  have hsame : SameBlock bits (BitVec.allOnes 32) (BitVec.allOnes 32) := rfl
  have hlt := (sameBlock_iff.1 hsame).2
  rw [BitVec.toNat_allOnes] at hlt
  change (first bits (BitVec.allOnes 32)).toNat + 2 ^ bits = 2 ^ 32
  omega

theorem lt_or_eq_lastBlock (h : bits ≤ 32) (haligned : Aligned bits start) :
    start.toNat + 2 ^ bits < 2 ^ 32 ∨ start = lastBlock bits := by
  have hle := first_add_le h start
  rw [haligned.toNat_first] at hle
  rcases Nat.lt_or_eq_of_le hle with hlt | heq
  · exact .inl hlt
  · have hlast := toNat_lastBlock h
    exact .inr (BitVec.eq_of_toNat_eq (by omega))

end LastBlock

theorem other_block_of_takesLowest (h : TakesLowest p subnetPrefix) :
    (∃ ip, ip ∉ p.free) ∧ (FreeBlock p.free (32 - subnetPrefix) (lastBlock (32 - subnetPrefix)) →
      ∃ start, start ≠ lastBlock (32 - subnetPrefix) ∧ FreeBlock p.free (32 - subnetPrefix) start) := by
  have hlast := toNat_lastBlock (show 32 - subnetPrefix.val ≤ 32 by omega)
  rcases IpPool.allocateSubnet_cases p subnetPrefix with ⟨halloc, -⟩ | ⟨start, hblock, -, hnotAll, halloc⟩
  · have hnoBlock : ¬ ∃ start, FreeBlock p.free (32 - subnetPrefix.val) start := fun hex => by
      have hfound := h.found.2 hex
      rw [halloc] at hfound
      cases hfound
    refine ⟨not_forall.1 fun hall => hnoBlock ⟨0, ?_, fun ip _ => hall ip⟩, fun hfree => absurd ⟨_, hfree⟩ hnoBlock⟩
    exact Nat.zero_mod _
  · refine ⟨hnotAll, fun hfree => ⟨start, ?_, hblock⟩⟩
    rintro rfl
    -- nothing is taken out for the last block
    have hremoved := (h.removed ⟨_, subnetPrefix⟩ (by rw [halloc]; rfl) (lastBlock (32 - subnetPrefix.val))).1
    rw [halloc, IpPool.addressRange_of_last (IpPool.toNat_subnetSize subnetPrefix) hlast] at hremoved
    exact (hremoved (hfree.2 _ rfl)).2 rfl

theorem takesLowest_of_other_block (hnotAll : ∃ ip, ip ∉ p.free)
    (hother : FreeBlock p.free (32 - subnetPrefix) (lastBlock (32 - subnetPrefix)) →
      ∃ start, start ≠ lastBlock (32 - subnetPrefix) ∧ FreeBlock p.free (32 - subnetPrefix) start) :
    TakesLowest p subnetPrefix := by
  have hbits : 32 - subnetPrefix.val ≤ 32 := by omega
  have hlast := toNat_lastBlock hbits
  rcases IpPool.allocateSubnet_cases p subnetPrefix with ⟨halloc, hnone⟩ | ⟨start, hblock, hlowest, -, halloc⟩
  · obtain ⟨ip, hip⟩ := hnotAll
    have hnoBlock := hnone.resolve_left fun hall => hip (hall ip)
    refine ⟨?_, ?_, ?_, fun _ => by rw [halloc]⟩
    · rw [halloc]
      exact iff_of_false Bool.false_ne_true hnoBlock
    · rw [halloc]
      intro cidr hcidr
      cases hcidr
    · rw [halloc]
      intro cidr hcidr
      cases hcidr
  · have hend : start.toNat + 2 ^ (32 - subnetPrefix.val) < 2 ^ 32 := by
      refine (lt_or_eq_lastBlock hbits hblock.1).resolve_right ?_
      rintro rfl
      obtain ⟨start', hne, hblock'⟩ := hother hblock
      have hle := BitVec.le_def.1 (hlowest start' hblock')
      have hlt := (lt_or_eq_lastBlock hbits hblock'.1).resolve_right hne
      omega
    refine ⟨?_, ?_, ?_, ?_⟩
    · rw [halloc]
      exact ⟨fun _ => ⟨start, hblock⟩, fun _ => rfl⟩
    · rw [halloc]
      rintro cidr ⟨⟩
      exact ⟨rfl, hblock, hlowest⟩
    · rw [halloc]
      rintro cidr ⟨⟩ ip
      rw [IpPool.mem_foldl_erase, IpPool.mem_addressRange (IpPool.toNat_subnetSize subnetPrefix) hblock.1 hend]
      rfl
    · rw [halloc]
      intro hnone
      cases hnone

/-- The allocation is right unless all addresses are free, or the last block is the only free one. -/
theorem takesLowest_iff (p : IpPool) (subnetPrefix : SubnetPrefix) :
    TakesLowest p subnetPrefix ↔ (∃ ip, ip ∉ p.free) ∧
      (FreeBlock p.free (32 - subnetPrefix) (lastBlock (32 - subnetPrefix)) →
        ∃ start, start ≠ lastBlock (32 - subnetPrefix) ∧ FreeBlock p.free (32 - subnetPrefix) start) :=
  ⟨other_block_of_takesLowest, fun h => takesLowest_of_other_block h.1 h.2⟩

/-- A pool with the last address only hands it out as a block, and still has it. -/
theorem last_block_stays_free : ∃ cidr, Ipv4Cidr.parse "255.255.255.255/32" = some cidr ∧
    (IpPool.new cidr).free = {BitVec.allOnes 32} ∧
    (IpPool.new cidr).allocateSubnet 32 = (some cidr, IpPool.new cidr) :=
  ⟨⟨BitVec.allOnes 32, 32⟩, by decide, by decide, by decide +kernel⟩

/-! ### Runs -/

namespace PoolState

open Allocation Transition

variable {cidr : Ipv4Cidr} {s s' : PoolState}

theorem conserves_init {text : String} (hparse : Ipv4Cidr.parse text = some cidr) (h1 : 1 ≤ cidr.prefixLen)
    (h30 : cidr.prefixLen ≤ 30) : (init cidr).Conserves cidr :=
  Conserved.init fun _ => Ipv4Cidr.mem_usable_iff (Ipv4Cidr.aligned_of_parse hparse h1) h1 h30

theorem allOnes_notMem_free (h : s.Conserves cidr) : BitVec.allOnes 32 ∉ s.pool.free := by
  intro hmem
  obtain ⟨hholds, -, -, hne⟩ := (h.own _).1 (.inl hmem)
  have hle := first_add_le (show 32 - cidr.prefixLen ≤ 32 by omega) cidr.network
  have hlt := (sameBlock_iff.1 hholds).2
  refine hne (BitVec.eq_of_toNat_eq ?_)
  rw [Ipv4Cidr.broadcast, toNat_last (by omega)]
  rw [BitVec.toNat_allOnes] at hlt ⊢
  omega

theorem takesLowest (h : s.Conserves cidr) (subnetPrefix : SubnetPrefix) :
    TakesLowest s.pool subnetPrefix := by
  have hlast := allOnes_notMem_free h
  refine takesLowest_of_other_block ⟨_, hlast⟩ fun hfree => absurd (hfree.2 _ ?_) hlast
  rw [SameBlock, lastBlock, toNat_first]
  exact Nat.mul_div_cancel _ (Nat.two_pow_pos _)

theorem conserves_step (s : PoolState) (call : PoolCall) (s' : PoolState) (h : s.Conserves cidr)
    (hstep : s.step call = some s') : s'.Conserves cidr := by
  cases call with
  | allocate =>
    simp only [step] at hstep
    split at hstep
    · rename_i ip pool halloc
      cases hstep
      obtain ⟨hmem, rfl⟩ := IpPool.allocate_eq_some halloc
      refine h.take (nodup_singleton ip) (fun a ha => mem_singleton.1 ha ▸ hmem) fun a => ?_
      rw [Finset.mem_erase, mem_singleton, and_comm]
    · cases hstep
      exact h
  | allocateSubnet subnetPrefix =>
    have htakes := takesLowest h subnetPrefix
    simp only [step] at hstep
    split at hstep
    · rename_i block pool halloc
      cases hstep
      obtain ⟨hlength, hblock, -⟩ := htakes.lowest block (by rw [halloc]; rfl)
      have hremoved := htakes.removed block (by rw [halloc]; rfl)
      rw [halloc] at hremoved
      refine h.take (nodup_members (by omega) _) (fun a ha => hblock.2 a ?_) fun a => ?_
      · rw [← hlength]
        exact (mem_members (by omega)).1 ha
      · rw [mem_members (by omega)]
        exact hremoved a
    · rename_i pool halloc
      cases hstep
      have hkept := htakes.kept (by rw [halloc])
      rw [halloc] at hkept
      show Conserved _ pool.free s.outstanding
      rw [hkept]
      exact h
  | release ip =>
    simp only [step] at hstep
    split_ifs at hstep with hout
    cases hstep
    exact h.give hout

/-- In every state of every run from a new pool, nothing is handed out twice and nothing is lost. -/
theorem conserves_always {text : String} (hparse : Ipv4Cidr.parse text = some cidr) (h1 : 1 ≤ cidr.prefixLen)
    (h30 : cidr.prefixLen ≤ 30) (calls : List PoolCall) :
    Always step (Conserves cidr) (init cidr) calls :=
  always_of_step conserves_step (fun _ h => h) (conserves_init hparse h1 h30) calls

/-- Two blocks and an address from a pool of thirteen addresses, and an address of the first block back. -/
theorem conserves_always_blocks :
    Always step (Conserves ⟨Ipv4Addr.new 10 42 0 0, 28⟩) (init ⟨Ipv4Addr.new 10 42 0 0, 28⟩)
      [.allocateSubnet ⟨30, by decide⟩, .allocate, .release (Ipv4Addr.new 10 42 0 5),
        .allocateSubnet ⟨31, by decide⟩] :=
  conserves_always (show Ipv4Cidr.parse "10.42.0.0/28" = _ by decide) (by decide) (by decide) _

end PoolState

end Z8s.Netmux
