import Z8s.Transition.Run

/-!
# Runs that an environment drives to their end

An environment answers every state with the next event, or with none when the run is over. Together
with the number of moves made before, this determines the whole run; `Ends` says that it comes to an
end after finitely many moves, and where.
-/

namespace Z8s.Transition

variable {σ ε : Type*}

/-- Follow `next` from the move number `k` on; `none` when the fuel runs out or an event cannot
happen. -/
def drive (step : σ → ε → Option σ) (next : Nat → σ → Option ε) : (fuel k : Nat) → σ → Option σ
  | 0, _, _ => none
  | fuel + 1, k, s =>
    match next k s with
    | none => some s
    | some e => (step s e).bind (drive step next fuel (k + 1))

/-- The run that `next` drives from `s` comes to its end in `s'`. -/
def Ends (step : σ → ε → Option σ) (next : Nat → σ → Option ε) (k : Nat) (s s' : σ) : Prop :=
  ∃ fuel, drive step next fuel k s = some s'

variable {step : σ → ε → Option σ} {next : Nat → σ → Option ε} {k : Nat} {s s' : σ}

theorem ends_of_none (h : next k s = none) : Ends step next k s s' ↔ s' = s := by
  constructor
  · rintro ⟨fuel, hfuel⟩
    cases fuel with
    | zero => cases hfuel
    | succ fuel =>
      simp only [drive, h] at hfuel
      exact (Option.some.inj hfuel).symm
  · rintro rfl
    exact ⟨1, by simp only [drive, h]⟩

theorem ends_of_step {e : ε} {t : σ} (h : next k s = some e) (hstep : step s e = some t) :
    Ends step next k s s' ↔ Ends step next (k + 1) t s' := by
  constructor
  · rintro ⟨fuel, hfuel⟩
    cases fuel with
    | zero => cases hfuel
    | succ fuel =>
      simp only [drive, h, hstep, Option.bind_some] at hfuel
      exact ⟨fuel, hfuel⟩
  · rintro ⟨fuel, hfuel⟩
    exact ⟨fuel + 1, by simp only [drive, h, hstep, Option.bind_some, hfuel]⟩

theorem Ends.unique {t : σ} (h : Ends step next k s s') (h' : Ends step next k s t) : s' = t := by
  obtain ⟨fuel, hfuel⟩ := h
  induction fuel generalizing k s with
  | zero => cases hfuel
  | succ fuel ih =>
    simp only [drive] at hfuel
    split at hfuel
    · rename_i hnone
      rw [(ends_of_none hnone).1 h', Option.some.inj hfuel]
    · rename_i e he
      obtain ⟨u, hstep, hdrive⟩ := Option.bind_eq_some_iff.1 hfuel
      exact ih ((ends_of_step he hstep).1 h') hdrive

end Z8s.Transition
