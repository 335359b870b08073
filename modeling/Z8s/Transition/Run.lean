import Mathlib.Tactic.Common

/-!
# Runs of partial, labelled transition systems

A system is a partial step function `step : σ → ε → Option σ`. Everything a step leaves to its environment
is part of the event, so that a run is determined by its first state and its list of events.
-/

namespace Z8s.Transition

variable {σ ε : Type*}

/-- The state after the events `es`, if each of them can happen in its turn. -/
def run (step : σ → ε → Option σ) : σ → List ε → Option σ
  | s, [] => some s
  | s, e :: es => (step s e).bind fun s' => run step s' es

/-- Every step of the run of `es` from `s` meets `ok` in the state before the step. -/
def Along (step : σ → ε → Option σ) (ok : σ → ε → Prop) : σ → List ε → Prop
  | _, [] => True
  | s, e :: es => ok s e ∧ ∀ s', step s e = some s' → Along step ok s' es

/-- Every state of the run of `es` from `s` satisfies `P`, the first and the last one included. -/
def Always (step : σ → ε → Option σ) (P : σ → Prop) : σ → List ε → Prop
  | s, [] => P s
  | s, e :: es => P s ∧ ∀ s', step s e = some s' → Always step P s' es

variable {step : σ → ε → Option σ}

instance decidableAlong {ok : σ → ε → Prop} [∀ s e, Decidable (ok s e)] :
    ∀ s es, Decidable (Along step ok s es)
  | _, [] => inferInstanceAs (Decidable True)
  | s, e :: es =>
    have (s' : σ) : Decidable (Along step ok s' es) := decidableAlong s' es
    inferInstanceAs (Decidable (ok s e ∧ ∀ s' ∈ step s e, Along step ok s' es))

instance decidableAlways {P : σ → Prop} [DecidablePred P] : ∀ s es, Decidable (Always step P s es)
  | s, [] => inferInstanceAs (Decidable (P s))
  | s, e :: es =>
    have (s' : σ) : Decidable (Always step P s' es) := decidableAlways s' es
    inferInstanceAs (Decidable (P s ∧ ∀ s' ∈ step s e, Always step P s' es))

end Z8s.Transition
