import Mathlib.Algebra.Order.Ring.Nat
import Mathlib.Data.Finset.Card
import Mathlib.Data.List.Nodup
import Mathlib.Tactic.Common

/-!
# Aligned blocks of machine words

The words of `w` bits fall into blocks of `2 ^ bits` words that agree in all but their last `bits` bits. A block
starts at a word that is a multiple of its size.
-/

namespace Z8s.Blocks

variable {w bits : Nat} {a b : BitVec w}

/-- The words lie in one block: they agree in all but the last `bits` bits. -/
def SameBlock (bits : Nat) (a b : BitVec w) : Prop := a.toNat / 2 ^ bits = b.toNat / 2 ^ bits
  deriving Decidable

def first (bits : Nat) (a : BitVec w) : BitVec w := BitVec.ofNat w (a.toNat / 2 ^ bits * 2 ^ bits)

def last (bits : Nat) (a : BitVec w) : BitVec w :=
  BitVec.ofNat w (a.toNat / 2 ^ bits * 2 ^ bits + (2 ^ bits - 1))

/-- `a` is the first word of its block. -/
def Aligned (bits : Nat) (a : BitVec w) : Prop := a.toNat % 2 ^ bits = 0
  deriving Decidable

def members (bits : Nat) (a : BitVec w) : List (BitVec w) :=
  (List.range (2 ^ bits)).map fun i => first bits a + BitVec.ofNat w i

@[simp] theorem toNat_first (bits : Nat) (a : BitVec w) :
    (first bits a).toNat = a.toNat / 2 ^ bits * 2 ^ bits := by
  rw [first, BitVec.toNat_ofNat]
  exact Nat.mod_eq_of_lt (Nat.lt_of_le_of_lt (Nat.div_mul_le_self _ _) a.isLt)

theorem sameBlock_iff : SameBlock bits a b ↔
    (first bits a).toNat ≤ b.toNat ∧ b.toNat < (first bits a).toNat + 2 ^ bits := by
  have hpos : 0 < 2 ^ bits := Nat.two_pow_pos bits
  rw [SameBlock, toNat_first, eq_comm, Nat.div_eq_iff hpos]
  omega

/-- A block does not reach over the last word. -/
theorem first_eq_first_iff : first bits a = first bits b ↔ SameBlock bits a b := by
  rw [← BitVec.toNat_inj, toNat_first, toNat_first, SameBlock]
  exact Nat.mul_left_inj (Nat.two_pow_pos bits).ne'

theorem aligned_first (bits : Nat) (a : BitVec w) : Aligned bits (first bits a) := by
  rw [Aligned, toNat_first]
  exact Nat.mul_mod_left _ _

theorem and_allOnes_shiftLeft (bits : Nat) (a : BitVec w) : a &&& BitVec.allOnes w <<< bits = first bits a := by
  refine BitVec.eq_of_toNat_eq (Nat.eq_of_testBit_eq fun i => ?_)
  rw [toNat_first, ← Nat.shiftRight_eq_div_pow, ← Nat.shiftLeft_eq, Nat.testBit_shiftLeft, Nat.testBit_shiftRight,
    BitVec.testBit_toNat, BitVec.testBit_toNat, BitVec.getLsbD_and, BitVec.getLsbD_shiftLeft]
  by_cases hi : bits ≤ i
  · rw [Nat.add_sub_cancel' hi]
    by_cases hlt : i < w
    · simp [hi, hlt, show i - bits < w by omega]
    · simp [hlt, BitVec.getLsbD_of_ge a i (by omega)]
  · simp [hi]

theorem first_add_le (h : bits ≤ w) (a : BitVec w) : (first bits a).toNat + 2 ^ bits ≤ 2 ^ w := by
  obtain ⟨k, rfl⟩ := Nat.exists_eq_add_of_le h
  have hlt : a.toNat / 2 ^ bits < 2 ^ k := Nat.div_lt_of_lt_mul (by rw [← pow_add]; exact a.isLt)
  rw [toNat_first, pow_add, ← Nat.succ_mul, Nat.mul_comm (2 ^ bits)]
  exact Nat.mul_le_mul_right _ hlt

theorem toNat_last (h : bits ≤ w) (a : BitVec w) :
    (last bits a).toNat = (first bits a).toNat + (2 ^ bits - 1) := by
  have hpos : 0 < 2 ^ bits := Nat.two_pow_pos bits
  have hle := first_add_le h a
  rw [last, BitVec.toNat_ofNat, toNat_first] at *
  exact Nat.mod_eq_of_lt (by omega)

theorem Aligned.toNat_first (h : Aligned bits a) : (first bits a).toNat = a.toNat := by
  rw [Blocks.toNat_first]
  exact Nat.div_mul_cancel (Nat.dvd_of_mod_eq_zero h)

theorem Aligned.sameBlock_iff (h : Aligned bits a) :
    SameBlock bits a b ↔ a.toNat ≤ b.toNat ∧ b.toNat < a.toNat + 2 ^ bits := by
  rw [Blocks.sameBlock_iff, h.toNat_first]

theorem toNat_first_add (h : bits ≤ w) (a : BitVec w) {i : Nat} (hi : i < 2 ^ bits) :
    (first bits a + BitVec.ofNat w i).toNat = (first bits a).toNat + i := by
  have hle := first_add_le h a
  rw [BitVec.toNat_add, BitVec.toNat_ofNat, Nat.mod_eq_of_lt (a := i) (by omega)]
  exact Nat.mod_eq_of_lt (by omega)

theorem mem_members (h : bits ≤ w) : b ∈ members bits a ↔ SameBlock bits a b := by
  rw [members, List.mem_map, sameBlock_iff]
  constructor
  · rintro ⟨i, hi, rfl⟩
    have hi := List.mem_range.1 hi
    rw [toNat_first_add h a hi]
    omega
  · rintro ⟨hle, hlt⟩
    refine ⟨b.toNat - (first bits a).toNat, List.mem_range.2 (by omega), BitVec.eq_of_toNat_eq ?_⟩
    rw [toNat_first_add h a (by omega)]
    omega

theorem nodup_members (h : bits ≤ w) (a : BitVec w) : (members bits a).Nodup := by
  refine (List.nodup_map_iff_inj_on List.nodup_range).2 fun i hi j hj heq => ?_
  have hval := congrArg BitVec.toNat heq
  rw [toNat_first_add h a (List.mem_range.1 hi), toNat_first_add h a (List.mem_range.1 hj)] at hval
  omega

/-! ### Sets of words -/

theorem card_image_toNat (s : Finset (BitVec w)) : (s.image BitVec.toNat).card = s.card :=
  Finset.card_image_of_injective s fun _ _ => BitVec.eq_of_toNat_eq

theorem image_toNat_subset (s : Finset (BitVec w)) : s.image BitVec.toNat ⊆ Finset.range (2 ^ w) := by
  intro n hn
  obtain ⟨a, -, rfl⟩ := Finset.mem_image.1 hn
  exact Finset.mem_range.2 a.isLt

theorem card_le_two_pow (s : Finset (BitVec w)) : s.card ≤ 2 ^ w := by
  rw [← card_image_toNat, ← Finset.card_range (2 ^ w)]
  exact Finset.card_le_card (image_toNat_subset s)

theorem card_lt_two_pow_iff {s : Finset (BitVec w)} : s.card < 2 ^ w ↔ ∃ a, a ∉ s := by
  rw [← card_image_toNat, ← Finset.card_range (2 ^ w)]
  constructor
  · intro h
    obtain ⟨n, hn, hnot⟩ := Finset.exists_mem_notMem_of_card_lt_card h
    refine ⟨BitVec.ofNat w n, fun hmem => hnot (Finset.mem_image.2 ⟨_, hmem, ?_⟩)⟩
    exact Nat.mod_eq_of_lt (Finset.mem_range.1 hn)
  · rintro ⟨a, ha⟩
    refine Finset.card_lt_card (Finset.ssubset_iff_subset_ne.2 ⟨image_toNat_subset s, fun heq => ha ?_⟩)
    have hmem : a.toNat ∈ s.image BitVec.toNat := heq ▸ Finset.mem_range.2 a.isLt
    obtain ⟨b, hb, hval⟩ := Finset.mem_image.1 hmem
    exact BitVec.eq_of_toNat_eq hval ▸ hb

theorem two_pow_le_card (h : bits ≤ w) {s : Finset (BitVec w)} (hs : ∀ b, SameBlock bits a b → b ∈ s) :
    2 ^ bits ≤ s.card := by
  have hsub : (members bits a).toFinset ⊆ s := by
    intro b hb
    exact hs b ((mem_members h).1 (List.mem_toFinset.1 hb))
  have hcard := Finset.card_le_card hsub
  rw [List.toFinset_card_of_nodup (nodup_members h a)] at hcard
  simpa [members] using hcard

end Z8s.Blocks
