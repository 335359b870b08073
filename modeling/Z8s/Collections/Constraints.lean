import Z8s.Collections.Proofs.BTreeMapProofs

/-!
# Constraints on the entries of a map

A constraint for each key says which values it may have and whether it may be missing. Two families of constraints
that leave all but finitely many keys free allow the same maps exactly when they agree on every key, or when neither
of them allows any map.
-/

namespace Z8s.Collections.BTreeMap

variable {K V : Type} [LinearOrder K] {C D : K → Option V → Prop} {ks : List K}

/-- Every entry of the map, and every missing one, is as the constraint of its key says. -/
def Meets (C : K → Option V → Prop) (m : BTreeMap K V) : Prop := ∀ k, C k (m.get k)

def OnlyOn (ks : List K) (C : K → Option V → Prop) : Prop := ∀ k, k ∉ ks → ∀ o, C k o

/-- One key can neither have a value nor be missing. -/
def Impossible (C : K → Option V → Prop) : Prop := ∃ k, ∀ o, ¬ C k o

theorem exists_get_eq (f : K → Option V) (ks : List K) :
    ∃ m : BTreeMap K V, ∀ k, m.get k = if k ∈ ks then f k else none := by
  induction ks with
  | nil => exact ⟨∅, fun k => by simp [get, EmptyCollection.emptyCollection]⟩
  | cons a ks ih =>
    obtain ⟨m, hm⟩ := ih
    cases hfa : f a with
    | none =>
      refine ⟨m, fun k => ?_⟩
      rw [hm]
      by_cases hk : k = a
      · simp [hk, hfa]
      · simp [hk]
    | some v =>
      refine ⟨m.insert a v, fun k => ?_⟩
      rw [get_insert, hm]
      by_cases hk : k = a
      · simp [hk, hfa]
      · simp [hk]

theorem exists_of_not_impossible (h : ¬ Impossible C) (k : K) : ∃ o, C k o := by
  by_contra hnone
  exact h ⟨k, fun o ho => hnone ⟨o, ho⟩⟩

/-- Unless a key is impossible, some map meets the constraints, and it may have any allowed value at one key. -/
theorem exists_meets (hC : OnlyOn ks C) (hpossible : ¬ Impossible C) {k : K} {o : Option V} (ho : C k o) :
    ∃ m : BTreeMap K V, Meets C m ∧ m.get k = o := by
  choose f hf using exists_of_not_impossible hpossible
  -- the free keys are missing in the map, so finitely many choices are enough
  obtain ⟨m, hm⟩ := exists_get_eq (Function.update f k o) (k :: ks)
  have hk : m.get k = o := by simp [hm]
  refine ⟨m, fun k' => ?_, hk⟩
  by_cases heq : k' = k
  · rw [heq, hk]
    exact ho
  by_cases hmem : k' ∈ ks
  · rw [hm, if_pos (List.mem_cons_of_mem k hmem), Function.update_of_ne heq]
    exact hf k'
  · exact hC k' hmem _

theorem not_meets_of_impossible (h : Impossible C) (m : BTreeMap K V) : ¬ Meets C m := by
  obtain ⟨k, hk⟩ := h
  exact fun hm => hk _ (hm k)

theorem impossible_of_not_meets (hC : OnlyOn ks C) [Nonempty K] (h : ∀ m : BTreeMap K V, ¬ Meets C m) : Impossible C := by
  by_contra hpossible
  obtain ⟨o, ho⟩ := exists_of_not_impossible hpossible (Classical.arbitrary K)
  obtain ⟨m, hm, -⟩ := exists_meets hC hpossible ho
  exact h m hm

theorem imp_of_meets_imp (hC : OnlyOn ks C) (hpossible : ¬ Impossible C)
    (h : ∀ m : BTreeMap K V, Meets C m → Meets D m) (k : K) (o : Option V) (ho : C k o) : D k o := by
  obtain ⟨m, hm, rfl⟩ := exists_meets hC hpossible ho
  exact h m hm k

theorem meets_iff_meets_iff [Nonempty K] {ks' : List K} (hC : OnlyOn ks C) (hD : OnlyOn ks' D) :
    (∀ m : BTreeMap K V, Meets C m ↔ Meets D m) ↔ (∀ k o, C k o ↔ D k o) ∨ (Impossible C ∧ Impossible D) := by
  constructor
  · intro h
    by_cases hpossible : Impossible C
    · refine .inr ⟨hpossible, impossible_of_not_meets hD fun m hm => ?_⟩
      exact not_meets_of_impossible hpossible m ((h m).2 hm)
    · have hD' : ¬ Impossible D := by
        intro himp
        refine hpossible (impossible_of_not_meets hC fun m hm => ?_)
        exact not_meets_of_impossible himp m ((h m).1 hm)
      exact .inl fun k o => ⟨imp_of_meets_imp hC hpossible (fun m => (h m).1) k o,
        imp_of_meets_imp hD hD' (fun m => (h m).2) k o⟩
  · rintro (hsame | ⟨himpC, himpD⟩) m
    · exact forall_congr' fun k => hsame k _
    · exact iff_of_false (not_meets_of_impossible himpC m) (not_meets_of_impossible himpD m)

end Z8s.Collections.BTreeMap
