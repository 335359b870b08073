import Z8s.Rust.Json
import Z8s.Transition.Run

/-!
# Exit status of an exec session

Model of the end of `exec_ws_tty` and `exec_ws_pipes` (`src/cri/exec.rs`): how the child is waited for while the
reconciler's `waitpid(-1)` may collect it, and the status frame that is sent. Waiting for a child whose zombie
was collected by someone else is taken to fail.
-/

namespace Z8s.Cri

open Rust

inductive Outcome
  | exited (code : Int)
  | signaled (signal : Nat)
  deriving DecidableEq, Repr

def Outcome.code : Outcome → Option Int
  | exited c => some c
  | signaled _ => none

inductive ChildState
  | alive
  | zombie (o : Outcome)
  /-- Collected by another `waitpid`. -/
  | collected (o : Outcome)
  /-- Collected by the session's own wait. -/
  | waited (o : Outcome)
  deriving DecidableEq, Repr

namespace ChildState

def outcome : ChildState → Option Outcome
  | alive => none
  | zombie o | collected o | waited o => some o

/-- `child.wait().await`, when it comes to an end: its result, and the child afterwards. -/
def wait : ChildState → Option (Option Outcome × ChildState)
  | alive => none
  | zombie o | waited o => some (some o, waited o)
  | collected o => some (none, collected o)

end ChildState

inductive ExecMode
  | tty
  | pipes
  deriving DecidableEq, Repr

inductive ExecPhase
  /-- In the `select!` loop. -/
  | looping
  /-- In `child.kill().await`; the final wait will have the default `dflt`. -/
  | killing (dflt : Int)
  /-- Before `child.wait().await.ok().and_then(|s| s.code()).unwrap_or(dflt)`. -/
  | waiting (dflt : Int)
  /-- The exit code was sent. -/
  | done (exitCode : Int)
  deriving DecidableEq, Repr

structure ExecState where
  mode : ExecMode
  child : ChildState
  phase : ExecPhase
  deriving DecidableEq, Repr

inductive ExecEvent
  /-- The child terminates. -/
  | terminates (o : Outcome)
  /-- The reconciler's `waitpid(-1)` collects the child. -/
  | reaped
  /-- The terminal is at its end, or reading it, writing to it or sending its output fails. -/
  | ptyEnds
  /-- The websocket is closed, or (with pipes) fails. -/
  | closed
  /-- `child.kill().await` returns, its own wait included. -/
  | killed
  /-- A wait for the child returns. -/
  | waited
  deriving DecidableEq, Repr

def exitCodeOf (dflt : Int) (r : Option Outcome) : Int := (r.bind Outcome.code).getD dflt

namespace ExecState

def init (mode : ExecMode) : ExecState := { mode, child := .alive, phase := .looping }

def step (s : ExecState) : ExecEvent → Option ExecState
  | .terminates o =>
    match s.child with
    | .alive => some { s with child := .zombie o }
    | _ => none
  | .reaped =>
    match s.child with
    | .zombie o => some { s with child := .collected o }
    | _ => none
  | .ptyEnds =>
    match s.phase, s.mode with
    | .looping, .tty => some { s with phase := .waiting 0 }
    | _, _ => none
  | .closed =>
    match s.phase, s.mode with
    | .looping, .tty => some { s with phase := .killing 0 }
    | .looping, .pipes => some { s with phase := .killing 137 }
    | _, _ => none
  | .killed =>
    match s.phase with
    | .killing dflt => s.child.wait.map fun (_, child) => { s with child, phase := .waiting dflt }
    | _ => none
  | .waited =>
    match s.phase, s.mode with
    | .waiting dflt, _ =>
      s.child.wait.map fun (r, child) => { s with child, phase := .done (exitCodeOf dflt r) }
    -- with pipes the wait is a branch of the loop
    | .looping, .pipes =>
      s.child.wait.map fun (r, child) => { s with child, phase := .done (exitCodeOf 0 r) }
    | _, _ => none

end ExecState

/-- The document that `send_exit_status_msg` sends on channel 3. -/
def exitStatus (exitCode : Int) (message : Option String) : Json :=
  let (status, message) := match message with
    | some msg => ("Failure", msg)
    | none =>
      if exitCode = 0 then ("Success", "command exited with code 0")
      else ("Failure", "command exited with code " ++ toString exitCode)
  .ofFields [("kind", .str "Status"), ("apiVersion", .str "v1"), ("metadata", .ofFields []),
    ("status", .str status), ("message", .str message),
    ("details", .ofFields [("exitCode", .num exitCode)])]

def exitFrame (exitCode : Int) : Nat × Json := (3, exitStatus exitCode none)

/-- The frame reports the outcome: success exactly for exit code 0, and the code of every normal
exit. -/
def Reports (frame : Nat × Json) (o : Outcome) : Prop :=
  (frame.2.get "status" = some (.str "Success") ↔ o = .exited 0) ∧
    ∀ c, o = .exited c → (frame.2.get "details").bind (Json.get "exitCode") = some (.num c)

/-- Every frame that was sent reports how the child terminated. -/
def ReportsOutcome (s : ExecState) : Prop :=
  match s.phase with
  | .done exitCode => ∃ o, s.child.outcome = some o ∧ Reports (exitFrame exitCode) o
  | _ => True

/-- The default that a wait returning now would use. -/
def ExecState.dflt (s : ExecState) : Int :=
  match s.phase with
  | .waiting dflt => dflt
  | _ => 0

/-- The default does no harm in a wait for the child: it is not 0 if a signal terminated the child,
and it is the exit code of a child whose normal exit was collected by someone else. -/
def ChildState.Harmless (child : ChildState) (dflt : Int) : Prop :=
  match child with
  | .alive => True
  | .zombie o | .waited o => o.code = none → dflt ≠ 0
  | .collected (.exited c) => dflt = c
  | .collected (.signaled _) => dflt ≠ 0

instance : ∀ child dflt, Decidable (ChildState.Harmless child dflt)
  | .alive, _ => inferInstanceAs (Decidable True)
  | .zombie o, dflt | .waited o, dflt => inferInstanceAs (Decidable (o.code = none → dflt ≠ 0))
  | .collected (.exited c), dflt => inferInstanceAs (Decidable (dflt = c))
  | .collected (.signaled _), dflt => inferInstanceAs (Decidable (dflt ≠ 0))

/-- A wait that ends the session returns only where its default does no harm. -/
def DefaultHarmless (s : ExecState) (e : ExecEvent) : Prop := e = .waited → s.child.Harmless s.dflt
  deriving Decidable

end Z8s.Cri
