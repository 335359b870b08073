import Z8s.Wire.Format

/-!
# Proofs: the protobuf wire format

Arranging fields keeps the ones that were there, in their order, and puts the others where their
numbers say.
-/

namespace Z8s.Wire

open List

variable {fields others : List Field} {t : Nat} {blocks : List (Nat × List Value)}
variable {b : List UInt8} {f : Field}

/-! ### Encodings -/

theorem encode_cons (f : Field) (fields : List Field) :
    encode (f :: fields) = encodeField f ++ encode fields := rfl

theorem encodeVarint_ne_nil (n : Nat) : encodeVarint n ≠ [] := by
  unfold encodeVarint varintDigits
  split_ifs <;> exact cons_ne_nil _ _

theorem encodeField_length_pos (f : Field) : 0 < (encodeField f).length := by
  have h := length_pos_of_ne_nil (encodeVarint_ne_nil (f.num * 8 + f.value.wireType))
  rw [encodeField, length_append]
  omega

theorem length_le_encode (fields : List Field) : fields.length ≤ (encode fields).length := by
  induction fields with
  | nil => exact Nat.le_refl 0
  | cons f fields ih =>
    have h := encodeField_length_pos f
    rw [encode_cons, length_append, length_cons]
    omega

theorem length_le_encode_of_mem {num : Nat} (h : ⟨num, .bytes b⟩ ∈ fields) :
    b.length ≤ (encode fields).length := by
  have hsub : (encodeField ⟨num, .bytes b⟩).length ≤ (encode fields).length :=
    (sublist_flatten_of_mem (mem_map_of_mem h)).length_le
  have hle : b.length ≤ (encodeField ⟨num, .bytes b⟩).length := by
    simp only [encodeField, encodeValue, length_append]
    omega
  exact hle.trans hsub

theorem littleEndian_length (width n : Nat) : (littleEndian width n).length = width := by
  induction width generalizing n with
  | zero => rfl
  | succ width ih => rw [littleEndian, length_cons, ih]

/-! ### Arranged fields -/

theorem arrange_perm (fields others : List Field) :
    (arrange fields others).Perm (others ++ fields) := by
  induction others with
  | nil => exact .refl _
  | cons f others ih => exact (perm_orderedInsert _ _ _).trans (ih.cons f)

theorem mem_arrange : f ∈ arrange fields others ↔ f ∈ others ∨ f ∈ fields := by
  rw [(arrange_perm fields others).mem_iff, mem_append]

theorem blocked_arrange (t : Nat) (fields others : List Field) :
    blocked t (arrange fields others) = (blocked t others || blocked t fields) := by
  unfold blocked
  rw [(arrange_perm fields others).any_eq, any_append]

theorem filterMap_arrange {α : Type} {g : Field → Option α} (fields : List Field)
    (h : ∀ f ∈ others, g f = none) : (arrange fields others).filterMap g = fields.filterMap g := by
  have hinsert : ∀ f l, g f = none → (List.orderedInsert Field.Le f l).filterMap g = l.filterMap g := by
    intro f l hf
    induction l with
    | nil => exact filterMap_cons_none hf
    | cons f' l ih =>
      rw [List.orderedInsert]
      split_ifs
      · exact filterMap_cons_none hf
      · rw [filterMap_cons, filterMap_cons, ih]
  induction others with
  | nil => rfl
  | cons f others ih =>
    obtain ⟨hf, hothers⟩ := forall_mem_cons.1 h
    exact (hinsert f _ hf).trans (ih hothers)

theorem foldlM_arrange {m : Type → Type} [Monad m] [LawfulMonad m] {β : Type} {step : β → Field → m β}
    (fields : List Field) (h : ∀ f ∈ others, ∀ acc, step acc f = pure acc) (acc : β) :
    (arrange fields others).foldlM step acc = fields.foldlM step acc := by
  have hinsert : ∀ f l acc, (∀ acc, step acc f = pure acc) →
      (List.orderedInsert Field.Le f l).foldlM step acc = l.foldlM step acc := by
    intro f l acc hf
    induction l generalizing acc with
    | nil => simp [hf]
    | cons f' l ih =>
      rw [List.orderedInsert]
      split_ifs
      · rw [foldlM_cons, hf, pure_bind]
      · simp only [foldlM_cons, ih]
  induction others with
  | nil => rfl
  | cons f others ih =>
    obtain ⟨hf, hothers⟩ := forall_mem_cons.1 h
    exact (hinsert f _ acc hf).trans (ih hothers)

theorem sorted_arrange (others : List Field) (h : fields.Pairwise Field.Le) :
    (arrange fields others).Pairwise Field.Le := by
  induction others with
  | nil => exact h
  | cons f others ih => exact ih.orderedInsert f

/-! ### Scanning -/

theorem Field.contents_eq_some : f.contents t = some b ↔ f = ⟨t, .bytes b⟩ := by
  obtain ⟨num, value⟩ := f
  cases value <;> simp [Field.contents, Value.contents]

/-- In the order of field numbers, the scan for number `t` finds every field with that number, or
none if one before them is not length-delimited. -/
theorem scanned_of_sorted (hsorted : fields.Pairwise Field.Le)
    (hbytes : ∀ f ∈ fields, f.num = t → f.value.isBytes = true) :
    scanned t fields = if blocked t fields then [] else fields.filterMap (Field.contents t) := by
  induction fields with
  | nil => rfl
  | cons f fields ih =>
    obtain ⟨hhead, htail⟩ := pairwise_cons.1 hsorted
    have ih := ih htail fun g hg => hbytes g (mem_cons_of_mem _ hg)
    cases hf : f.value.isBytes with
    | true =>
      have hblocked : blocked t (f :: fields) = blocked t fields := by simp [blocked, hf]
      rw [hblocked]
      have hscanned : scanned t (f :: fields) = (f.contents t).toList ++ scanned t fields := by
        simp only [scanned, takeWhile_cons, hf, if_true, filterMap_cons]
        cases f.contents t <;> rfl
      have hall : (f :: fields).filterMap (Field.contents t) =
          (f.contents t).toList ++ fields.filterMap (Field.contents t) := by
        rw [filterMap_cons]
        cases f.contents t <;> rfl
      rw [hscanned, hall, ih]
      by_cases hb : blocked t fields = true
      · -- a field that blocks the way is after `f`, so `f` has a number below `t`
        obtain ⟨g, hg, hgt⟩ := any_eq_true.1 hb
        have hlt : f.num < t := by
          have hle : f.num ≤ g.num := hhead g hg
          simp only [Bool.and_eq_true, decide_eq_true_eq] at hgt
          omega
        have hnone : f.contents t = none := by
          cases hc : f.contents t with
          | none => rfl
          | some b =>
            obtain rfl := Field.contents_eq_some.1 hc
            exact absurd hlt (Nat.lt_irrefl t)
        rw [if_pos hb, if_pos hb, hnone]
        rfl
      · rw [if_neg hb, if_neg hb]
    | false =>
      have hnil : scanned t (f :: fields) = [] := by simp [scanned, hf]
      rw [hnil]
      by_cases hb : blocked t (f :: fields) = true
      · rw [if_pos hb]
      · rw [if_neg hb]
        -- nothing blocks the way, so `f` and all after it have numbers above `t`
        have hgt : t < f.num := by
          have hne : f.num ≠ t := fun h => by
            have := hbytes f mem_cons_self h
            simp [hf] at this
          have hnlt : ¬ f.num < t := fun hlt => hb (by simp [blocked, hlt, hf])
          omega
        symm
        rw [filterMap_eq_nil_iff]
        intro g hg
        have hge : f.num ≤ g.num := by
          rcases mem_cons.1 hg with rfl | hg
          · exact Nat.le_refl _
          · exact hhead g hg
        cases hc : g.contents t with
        | none => rfl
        | some b =>
          obtain rfl := Field.contents_eq_some.1 hc
          simp only at hge
          omega

namespace Others

variable {known : List Nat} (o : Others known)

theorem contents_eq_none (ht : t ∈ known) (hf : f ∈ o.fields) : f.contents t = none := by
  cases hc : f.contents t with
  | none => rfl
  | some b =>
    obtain rfl := Field.contents_eq_some.1 hc
    exact absurd ht (o.unknown _ hf)

theorem not_blocked (h : ∀ k < t, 1 ≤ k → k ∈ known) : blocked t o.fields = false := by
  rw [blocked, any_eq_false]
  intro f hf hblocks
  simp only [Bool.and_eq_true, decide_eq_true_eq] at hblocks
  exact o.unknown f hf (h f.num hblocks.1 (o.valid f hf).num_pos)

end Others

/-! ### Messages -/

theorem mem_numbered : f ∈ numbered blocks ↔ ∃ b ∈ blocks, f.num = b.1 ∧ f.value ∈ b.2 := by
  obtain ⟨num, value⟩ := f
  simp only [numbered, mem_flatMap, mem_map, Field.mk.injEq]
  constructor
  · rintro ⟨b, hb, v, hv, rfl, rfl⟩
    exact ⟨b, hb, rfl, hv⟩
  · rintro ⟨b, hb, rfl, hv⟩
    exact ⟨b, hb, value, hv, rfl, rfl⟩

theorem mem_message {known : List Nat} (o : Others known) {num : Nat} {vs : List Value} {v : Value}
    (hb : (num, vs) ∈ blocks) (hv : v ∈ vs) : ⟨num, v⟩ ∈ message blocks o :=
  mem_arrange.2 (.inr (mem_numbered.2 ⟨(num, vs), hb, rfl, hv⟩))

theorem filterMap_contents_numbered (t : Nat) (blocks : List (Nat × List Value)) :
    (numbered blocks).filterMap (Field.contents t) = contentsAt t blocks := by
  rw [numbered, filterMap_flatMap]
  refine congrArg (blocks.flatMap ·) (funext fun b => ?_)
  rw [filterMap_map]
  by_cases h : b.1 = t
  · rw [if_pos h]
    exact congrArg (b.2.filterMap ·) (funext fun v => if_pos h)
  · rw [if_neg h, filterMap_eq_nil_iff]
    exact fun v _ => if_neg h

theorem blocked_numbered (t : Nat) (blocks : List (Nat × List Value)) :
    blocked t (numbered blocks) =
      blocks.any fun b => decide (b.1 < t) && b.2.any fun v => !v.isBytes := by
  rw [blocked, numbered, any_flatMap]
  refine congrArg (blocks.any ·) (funext fun b => ?_)
  rw [any_map]
  by_cases h : b.1 < t <;> simp [h, Function.comp_def]

theorem fits_of_isBytes {v : Value} (h : v.isBytes = true) : v.Fits := by
  cases v with
  | bytes b => trivial
  | varint n | fixed32 n | fixed64 n => cases h

@[simp] theorem allBytes_nil : AllBytes [] := fun _ hb => absurd hb not_mem_nil

@[simp] theorem allBytes_cons {b : Nat × List Value} :
    AllBytes (b :: blocks) ↔ (∀ v ∈ b.2, v.isBytes = true) ∧ AllBytes blocks :=
  forall_mem_cons

namespace Layout

variable {known : List Nat}

theorem sorted_numbered (h : Layout known blocks) : (numbered blocks).Pairwise Field.Le := by
  have hsorted : (blocks.map Prod.fst).Pairwise (· < ·) := h.nums ▸ h.sorted
  clear h
  induction blocks with
  | nil => exact .nil
  | cons b blocks ih =>
    obtain ⟨hhead, htail⟩ := pairwise_cons.1 hsorted
    refine pairwise_append.2 ⟨?_, ih htail, ?_⟩
    · exact pairwise_map.2 (pairwise_of_forall fun _ _ => Nat.le_refl _)
    · intro f hf g hg
      obtain ⟨v, -, rfl⟩ := mem_map.1 hf
      obtain ⟨b', hb', hnum, -⟩ := mem_numbered.1 hg
      show b.1 ≤ g.num
      rw [hnum]
      exact Nat.le_of_lt (hhead b'.1 (mem_map_of_mem hb'))

theorem valid (h : Layout known blocks) (o : Others known) : ∀ f ∈ message blocks o, f.Valid := by
  intro f hf
  rcases mem_arrange.1 hf with hf | hf
  · exact o.valid f hf
  · obtain ⟨b, hb, hnum, hv⟩ := mem_numbered.1 hf
    have hrange := h.range b.1 (h.nums ▸ mem_map_of_mem hb)
    exact ⟨hnum ▸ hrange.1, hnum ▸ hrange.2, h.fits b hb _ hv⟩

theorem scanned (h : Layout known blocks) (o : Others known) {t : Nat} (ht : t ∈ known)
    (hbytes : ∀ b ∈ blocks, b.1 = t → ∀ v ∈ b.2, v.isBytes = true) :
    scanned t (message blocks o) =
      if blocked t o.fields || blocked t (numbered blocks) then [] else contentsAt t blocks := by
  rw [message, scanned_of_sorted (sorted_arrange _ h.sorted_numbered), blocked_arrange,
    filterMap_arrange _ fun f hf => o.contents_eq_none ht hf, filterMap_contents_numbered]
  intro f hf hnum
  rcases mem_arrange.1 hf with hf | hf
  · exact absurd (hnum ▸ ht) (o.unknown f hf)
  · obtain ⟨b, hb, hnum', hv⟩ := mem_numbered.1 hf
    exact hbytes b hb (hnum'.symm.trans hnum) _ hv

end Layout

/-- A layout with length-delimited values only. -/
structure Delimited (known : List Nat) (blocks : List (Nat × List Value)) : Prop extends Layout known blocks where
  bytes : AllBytes blocks

namespace Delimited

variable {known : List Nat} {l : List (List UInt8)}

theorem of (hbytes : AllBytes blocks) (hnums : blocks.map Prod.fst = known) (hsorted : known.Pairwise (· < ·))
    (hrange : ∀ num ∈ known, 1 ≤ num ∧ num < 2 ^ 29) : Delimited known blocks :=
  ⟨⟨hnums, hsorted, hrange, fun b hb v hv => fits_of_isBytes (hbytes b hb v hv)⟩, hbytes⟩

theorem scanned_eq (h : Delimited known blocks) (o : Others known) (ht : t ∈ known) (hl : contentsAt t blocks = l) :
    scanned t (message blocks o) = if blocked t o.fields then [] else l := by
  have hopen : blocked t (numbered blocks) = false := by
    rw [blocked_numbered, any_eq_false]
    intro b hb
    have hbytes : (b.2.any fun v => !v.isBytes) = false := by
      rw [any_eq_false]
      intro v hv
      rw [h.bytes b hb v hv]
      decide
    rw [hbytes, Bool.and_false]
    decide
  rw [h.scanned o ht fun b hb _ => h.bytes b hb, hopen, Bool.or_false, hl]

theorem scanned_lowest (h : Delimited known blocks) (o : Others known) (ht : t ∈ known)
    (hlow : ∀ k < t, 1 ≤ k → k ∈ known) (hl : contentsAt t blocks = l) : scanned t (message blocks o) = l := by
  rw [h.scanned_eq o ht hl, o.not_blocked hlow]
  rfl

end Delimited

theorem mem_of_mem_scanned (h : b ∈ scanned t fields) : ⟨t, .bytes b⟩ ∈ fields := by
  obtain ⟨f, hf, hb⟩ := mem_filterMap.1 h
  obtain rfl := Field.contents_eq_some.1 hb
  exact (takeWhile_sublist _).subset hf

end Z8s.Wire
