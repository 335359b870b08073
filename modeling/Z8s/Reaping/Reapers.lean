import Z8s.Scheduler.Process
import Z8s.Transition.Run
import Z8s.Transition.Tasks

/-!
# Who collects the children

The three loops that call `waitpid(-1, WNOHANG)` when the daemon is PID 1: `InitHandler::reap_zombies`
on `SIGCHLD` (`src/init.rs`), the reconciler's tick (`src/scheduler/reconciler.rs`) and the initial
reconcile task (`src/main.rs`). A step is one system call or one call of `handle_exited_containers`.
-/

namespace Z8s.Reaping

open Scheduler Transition

inductive WaitStatus
  | exited (code : Int)
  | signaled (signal : Nat)
  deriving DecidableEq, Repr

/-- The exit of a process. Pids are reused; `serial` tells exits apart. -/
structure Exit where
  serial : Nat
  pid : Nat
  status : WaitStatus
  deriving DecidableEq, Repr

def Exit.report (e : Exit) : Nat × Int :=
  match e.status with
  | .exited code => (e.pid, code)
  | .signaled signal => (e.pid, -(signal : Int))

/-- `waitpid(-1, WNOHANG)` with zombies left: it takes one of them, number `i`. -/
def waitpid (zombies : List Exit) (i : Nat) : Option (Exit × List Exit) :=
  zombies[i]?.map fun e => (e, zombies.eraseIdx i)

/-- A task that calls `ProcessTracker::reap_zombies` and then `handle_exited_containers`. -/
inductive ReaperPhase
  | idle
  /-- In `reap_zombies`, with what it has collected. -/
  | reaping (reaped : List Exit)
  /-- Back from `reap_zombies`. -/
  | reaped (reaped : List Exit)
  | finished
  deriving DecidableEq, Repr

/-- The reconciler is periodic, the initial reconcile task is not. -/
structure Reaper where
  periodic : Bool
  phase : ReaperPhase
  deriving DecidableEq, Repr

def Reaper.holds (r : Reaper) : List Exit :=
  match r.phase with
  | .reaping es | .reaped es => es
  | .idle | .finished => []

inductive ReaperAct
  /-- The tick of the reconciler, or the start of the initial task. -/
  | tick
  | wait (i : Nat)
  /-- `waitpid` finds no zombie and the loop ends. -/
  | stop
  | handle
  deriving DecidableEq, Repr

structure ReapState where
  pt : ProcessTracker
  zombies : List Exit
  /-- A `SIGCHLD` is pending on the signal descriptor. -/
  sigchld : Bool
  /-- The init handler is in `reap_zombies`. -/
  initReaping : Bool
  reapers : List Reaper
  nextSerial : Nat
  /-- Ghost: the exits of processes that are recorded as the pid of a running entry, at the exit or
  as long as they are zombies. -/
  recorded : List Exit
  /-- Ghost: the exits passed to `handle_exited_containers`. -/
  passed : List Exit

inductive ReapEvent
  | childExits (pid : Nat) (status : WaitStatus)
  /-- The init handler reads a `SIGCHLD`. -/
  | initSignal
  | initWait (i : Nat)
  | initDone
  | reaper (t : Nat) (act : ReaperAct)
  /-- Anything else in the daemon changes the tracker. -/
  | changes (pt : ProcessTracker)

def isRecorded (pt : ProcessTracker) (pid : Nat) : Bool :=
  pt.sup.running.values.any fun rc => rc.inst.pid == some pid

/-- What a reaper does, on the whole state but for its own entry. -/
def Reaper.step (s : ReapState) (act : ReaperAct) (r : Reaper) : Option (ReapState × Reaper) :=
  match act, r.phase with
  | .tick, .idle => some (s, { r with phase := .reaping [] })
  | .wait i, .reaping es =>
    (waitpid s.zombies i).map fun (e, zombies) =>
      ({ s with zombies }, { r with phase := .reaping (es ++ [e]) })
  | .stop, .reaping es =>
    if s.zombies = [] then some (s, { r with phase := .reaped es }) else none
  | .handle, .reaped es =>
    some ({ s with
        pt := if es = [] then s.pt else handleExitedContainers s.pt (es.map Exit.report)
        passed := s.passed ++ es },
      { r with phase := if r.periodic then .idle else .finished })
  | _, _ => none

namespace ReapState

def init (pt : ProcessTracker) : ReapState where
  pt := pt
  zombies := []
  sigchld := false
  initReaping := false
  reapers := [⟨false, .idle⟩, ⟨true, .idle⟩]
  nextSerial := 0
  recorded := []
  passed := []

def step (s : ReapState) : ReapEvent → Option ReapState
  | .childExits pid status =>
    let e : Exit := ⟨s.nextSerial, pid, status⟩
    some { s with
      zombies := s.zombies ++ [e]
      sigchld := true
      nextSerial := s.nextSerial + 1
      recorded := if isRecorded s.pt pid then s.recorded ++ [e] else s.recorded }
  | .initSignal =>
    if s.sigchld && !s.initReaping then some { s with sigchld := false, initReaping := true }
    else none
  | .initWait i =>
    -- the status is logged and dropped
    if s.initReaping then (waitpid s.zombies i).map fun (_, zombies) => { s with zombies }
    else none
  | .initDone =>
    if s.initReaping && s.zombies.isEmpty then some { s with initReaping := false } else none
  | .reaper t act =>
    (stepAt s.reapers t (Reaper.step s act)).map fun (s', reapers) => { s' with reapers }
  | .changes pt =>
    some { s with
      pt
      recorded := s.recorded ++
        s.zombies.filter fun e => isRecorded pt e.pid && !s.recorded.contains e }

/-- Every exit that is not lost: still a zombie, in the hands of a reaper, or passed on. -/
def kept (s : ReapState) : List Exit := s.zombies ++ s.reapers.flatMap Reaper.holds ++ s.passed

/-- Every recorded exit is to be passed on, or was passed on, exactly once. -/
def ExactlyOnce (s : ReapState) : Prop := ∀ e ∈ s.recorded, s.kept.count e = 1

instance : DecidablePred ExactlyOnce := fun s =>
  inferInstanceAs (Decidable (∀ e ∈ s.recorded, s.kept.count e = 1))

def SparesRecorded (s : ReapState) : ReapEvent → Prop
  | .initWait i => ∀ e ∈ s.zombies[i]?, e ∉ s.recorded
  | _ => True

instance (s : ReapState) : ∀ ev, Decidable (SparesRecorded s ev)
  | .initWait i => inferInstanceAs (Decidable (∀ e ∈ s.zombies[i]?, e ∉ s.recorded))
  | .childExits .. | .initSignal | .initDone | .reaper .. | .changes _ =>
    inferInstanceAs (Decidable True)

end ReapState

end Z8s.Reaping
