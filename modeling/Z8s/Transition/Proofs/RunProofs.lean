import Z8s.Transition.Run

/-!
# Proofs: runs of transition systems

The induction over runs, packaged once: an invariant that every step preserves holds at the end of a
run and in every state of it, and where a step keeps a property only if it is admitted, the runs with the
property are the admitted ones.
-/

namespace Z8s.Transition

variable {σ ε : Type*} {step : σ → ε → Option σ} {ok : σ → ε → Prop} {I P : σ → Prop}

@[simp] theorem run_nil (s : σ) : run step s [] = some s := rfl

theorem run_cons_eq_some {s t : σ} {e : ε} {es : List ε} :
    run step s (e :: es) = some t ↔ ∃ s', step s e = some s' ∧ run step s' es = some t := by
  simp [run, Option.bind_eq_some_iff]

theorem run_append (s : σ) (es fs : List ε) :
    run step s (es ++ fs) = (run step s es).bind fun s' => run step s' fs := by
  induction es generalizing s with
  | nil => simp
  | cons e es ih =>
    simp only [List.cons_append, run]
    cases step s e with
    | none => rfl
    | some s' => exact ih s'

theorem isSome_run (hstep : ∀ s e, (step s e).isSome) (s : σ) (es : List ε) : (run step s es).isSome := by
  induction es generalizing s with
  | nil => rfl
  | cons e es ih =>
    obtain ⟨s', hs'⟩ := Option.isSome_iff_exists.1 (hstep s e)
    rw [run, hs']
    exact ih s'

theorem invariant_of_run (hstep : ∀ s e s', I s → step s e = some s' → I s') {s t : σ} {es : List ε}
    (hs : I s) (hrun : run step s es = some t) : I t := by
  induction es generalizing s with
  | nil =>
    obtain rfl : s = t := by simpa using hrun
    exact hs
  | cons e es ih =>
    obtain ⟨s', he, hrun'⟩ := run_cons_eq_some.1 hrun
    exact ih (hstep s e s' hs he) hrun'

/-- An invariant that every step preserves holds in every state of every run. -/
theorem always_of_step (hstep : ∀ s e s', I s → step s e = some s' → I s') (hP : ∀ s, I s → P s) {s : σ}
    (hs : I s) (es : List ε) : Always step P s es := by
  induction es generalizing s with
  | nil => exact hP s hs
  | cons e es ih => exact ⟨hP s hs, fun s' he => ih (hstep s e s' hs he)⟩

theorem Always.at_end {s t : σ} {es : List ε} (h : Always step P s es) (hrun : run step s es = some t) : P t := by
  induction es generalizing s with
  | nil => exact Option.some.inj hrun ▸ h
  | cons e es ih =>
    obtain ⟨s', he, hrun'⟩ := run_cons_eq_some.1 hrun
    exact ih (h.2 s' he) hrun'

/-- An invariant that holds at the start and that every admitted step preserves holds in every state
of every run whose steps are all admitted. -/
theorem always_of_invariant (hstep : ∀ s e s', I s → ok s e → step s e = some s' → I s')
    (hP : ∀ s, I s → P s) {s : σ} {es : List ε} (hs : I s) (hok : Along step ok s es) :
    Always step P s es := by
  induction es generalizing s with
  | nil => exact hP s hs
  | cons e es ih => exact ⟨hP s hs, fun s' he => ih (hstep s e s' hs hok.1 he) (hok.2 s' he)⟩

/-- Where a step keeps the property only if it was admitted, the admitted runs are exactly those with
the property in every state. -/
theorem always_iff_along (hstep : ∀ s e s', I s → ok s e → step s e = some s' → I s')
    (hP : ∀ s, I s → P s) (hok : ∀ s e s', I s → step s e = some s' → P s' → ok s e)
    {s : σ} {es : List ε} (hs : I s) (hrun : (run step s es).isSome) :
    Always step P s es ↔ Along step ok s es := by
  refine ⟨fun halways => ?_, always_of_invariant hstep hP hs⟩
  induction es generalizing s with
  | nil => trivial
  | cons e es ih =>
    obtain ⟨t, ht⟩ := Option.isSome_iff_exists.1 hrun
    obtain ⟨s', he, hrun'⟩ := run_cons_eq_some.1 ht
    have htail := halways.2 s' he
    have hPs' : P s' := by
      cases es with
      | nil => exact htail
      | cons => exact htail.1
    have hadmitted := hok s e s' hs he hPs'
    refine ⟨hadmitted, fun s'' he' => ?_⟩
    obtain rfl : s' = s'' := Option.some.inj (he.symm.trans he')
    exact ih (hstep s e s' hs hadmitted he) (by rw [hrun']; rfl) htail

end Z8s.Transition
