import Z8s.Cri.Exec
import Z8s.Rust.Proofs.JsonProofs
import Z8s.Transition.Proofs.RunProofs

/-!
# Proofs: exit status of an exec session

The frame is a function of the exit code alone (`reports_exitFrame`), and the exit code is what the
last wait returned or the default of that wait.
-/

namespace Z8s.Cri

open Rust Transition

variable {r : Option Outcome} {child child' : ChildState} {s s' : ExecState} {e : ExecEvent}

theorem get_status_exitFrame (exitCode : Int) :
    (exitFrame exitCode).2.get "status" =
      some (.str (if exitCode = 0 then "Success" else "Failure")) := by
  unfold exitFrame exitStatus
  rw [Json.get_ofFields (by simp)]
  by_cases h : exitCode = 0 <;> simp [h, List.lookup_cons]

theorem get_exitCode_exitFrame (exitCode : Int) :
    ((exitFrame exitCode).2.get "details").bind (Json.get "exitCode") = some (.num exitCode) := by
  unfold exitFrame exitStatus
  rw [Json.get_ofFields (by simp)]
  by_cases h : exitCode = 0 <;> simp [h, List.lookup_cons, Json.get_ofFields]

/-- A frame reports an outcome exactly when its exit code is 0 for success only, and the code of a
normal exit. -/
theorem reports_exitFrame (exitCode : Int) (o : Outcome) :
    Reports (exitFrame exitCode) o ↔
      match o with
      | .exited c => exitCode = c
      | .signaled _ => exitCode ≠ 0 := by
  have hstatus : (exitFrame exitCode).2.get "status" = some (.str "Success") ↔ exitCode = 0 := by
    rw [get_status_exitFrame]
    by_cases h : exitCode = 0 <;> simp [h]
  unfold Reports
  rw [hstatus, get_exitCode_exitFrame]
  cases o with
  | exited c =>
    constructor
    · rintro ⟨-, hcode⟩
      simpa using hcode c rfl
    · rintro rfl
      refine ⟨by simp, ?_⟩
      rintro _ ⟨⟩
      rfl
  | signaled sig => simp

/-- The frame after a wait reports the outcome of the child exactly when the default of the wait
does no harm. -/
theorem reports_wait_iff (dflt : Int) (h : child.wait = some (r, child')) :
    (∃ o, child'.outcome = some o ∧ Reports (exitFrame (exitCodeOf dflt r)) o) ↔
      child.Harmless dflt := by
  simp only [reports_exitFrame]
  cases child with
  | alive => simp [ChildState.wait] at h
  | zombie o | waited o =>
    obtain ⟨rfl, rfl⟩ : some o = r ∧ .waited o = child' := by simpa [ChildState.wait] using h
    cases o <;> simp [ChildState.Harmless, ChildState.outcome, exitCodeOf, Outcome.code]
  | collected o =>
    obtain ⟨rfl, rfl⟩ : none = r ∧ .collected o = child' := by simpa [ChildState.wait] using h
    cases o <;> simp [ChildState.Harmless, ChildState.outcome, exitCodeOf]

theorem outcome_of_wait (h : child.wait = some (r, child')) : child'.outcome = child.outcome := by
  cases child with
  | alive => simp [ChildState.wait] at h
  | zombie o | waited o | collected o =>
    obtain ⟨-, rfl⟩ := Prod.mk.inj (Option.some.inj h)
    rfl

namespace ExecState

/-- What a step can do: it is a wait that ends the session, or it keeps the outcome of the child and
sends nothing. -/
theorem step_cases (h : step s e = some s') :
    (e = .waited ∧ ∃ r, s.child.wait = some (r, s'.child) ∧
      s'.phase = .done (exitCodeOf s.dflt r)) ∨
    (e ≠ .waited ∧ (∀ c, s'.phase = .done c → s.phase = .done c) ∧
      (∀ o, s.child.outcome = some o → s'.child.outcome = some o)) := by
  obtain ⟨mode, child, phase⟩ := s
  cases e with
  | terminates o =>
    cases child <;> simp only [step, reduceCtorEq, Option.some.injEq] at h
    subst h
    exact .inr ⟨nofun, fun _ hc => hc, nofun⟩
  | reaped =>
    cases child <;> simp only [step, reduceCtorEq, Option.some.injEq] at h
    subst h
    exact .inr ⟨nofun, fun _ hc => hc, fun _ ho => ho⟩
  | ptyEnds | closed =>
    cases phase <;> cases mode <;> simp only [step, reduceCtorEq, Option.some.injEq] at h
    all_goals
      subst h
      exact .inr ⟨nofun, nofun, fun _ ho => ho⟩
  | killed =>
    cases phase <;> simp only [step, reduceCtorEq, Option.map_eq_some_iff] at h
    obtain ⟨⟨r, child'⟩, hwait, rfl⟩ := h
    exact .inr ⟨nofun, nofun, fun _ ho => (outcome_of_wait hwait).trans ho⟩
  | waited =>
    cases phase <;> cases mode <;> simp only [step, reduceCtorEq, Option.map_eq_some_iff] at h
    all_goals
      obtain ⟨⟨r, child'⟩, hwait, rfl⟩ := h
      exact .inl ⟨rfl, r, hwait, rfl⟩

end ExecState

/-- A session keeps reporting the outcome of its child, step by step, exactly when every wait that
ends it has a harmless default. -/
theorem reportsOutcome_step_iff (hs : ReportsOutcome s) (h : s.step e = some s') :
    ReportsOutcome s' ↔ DefaultHarmless s e := by
  rcases ExecState.step_cases h with ⟨rfl, r, hwait, hphase⟩ | ⟨he, hphase, houtcome⟩
  · simp only [ReportsOutcome, hphase, DefaultHarmless, forall_const]
    exact reports_wait_iff s.dflt hwait
  · refine iff_of_true ?_ fun hwaited => absurd hwaited he
    unfold ReportsOutcome
    split
    · next c hc =>
      simp only [ReportsOutcome, hphase c hc] at hs
      obtain ⟨o, ho, hreports⟩ := hs
      exact ⟨o, houtcome o ho, hreports⟩
    · trivial

/-- In every interleaving of a session with the termination of its child and the reconciler's
`waitpid(-1)`, the status frame reports how the child terminated exactly when the wait that ends the
session finds a child for which its default does no harm. -/
theorem reportsOutcome_iff (mode : ExecMode) (es : List ExecEvent)
    (hrun : (run ExecState.step (.init mode) es).isSome) :
    Always ExecState.step ReportsOutcome (.init mode) es ↔
      Along ExecState.step DefaultHarmless (.init mode) es :=
  always_iff_along (fun _ _ _ hs hok h => (reportsOutcome_step_iff hs h).2 hok) (fun _ hs => hs)
    (fun _ _ _ hs h hs' => (reportsOutcome_step_iff hs h).1 hs') trivial hrun

/-- Closing the websocket of a session with pipes kills the child, and 137 is reported. -/
theorem reportsOutcome_of_close :
    (run ExecState.step (.init .pipes)
      [.closed, .terminates (.signaled 9), .killed, .waited]).isSome ∧
    Always ExecState.step ReportsOutcome (.init .pipes)
      [.closed, .terminates (.signaled 9), .killed, .waited] :=
  ⟨by decide, (reportsOutcome_iff .pipes _ (by decide)).2 (by decide)⟩

/-- A command that fails with code 1 and is collected by the reconciler before the session waits for
it is reported as a success. -/
theorem success_after_reaped_failure :
    ∃ s ∈ run ExecState.step (.init .pipes) [.terminates (.exited 1), .reaped, .waited],
      s.child.outcome = some (.exited 1) ∧ ∃ c, s.phase = .done c ∧
        (exitFrame c).2.get "status" = some (.str "Success") ∧ ¬ Reports (exitFrame c) (.exited 1) := by
  refine ⟨_, rfl, rfl, 0, rfl, by decide, ?_⟩
  rw [reports_exitFrame]
  decide

end Z8s.Cri
