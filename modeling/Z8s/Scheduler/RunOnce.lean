import Z8s.Scheduler.Process
import Z8s.Transition.Run

/-!
# Pods that run once

The exits of the containers of a pod with the restart policy `Never`, reported to
`handle_exited_containers` (`src/scheduler/process.rs`) in any number of calls. A call handles the exits in
the order in which the running map lists its entries; the order is part of the event.
-/

namespace Z8s.Scheduler

open Z8s.Types Transition

/-- A call of `handle_exited_containers`: the reaped children, and the exits in the order in which they are
handled. -/
structure ExitBatch where
  reaped : List (Nat × Int)
  order : List Exited

/-- A call, when `codes` are the exit codes of the processes. -/
def exitStep (codes : Nat → Int) (pt : ProcessTracker) (b : ExitBatch) : Option ProcessTracker :=
  if (∀ r ∈ b.reaped, r.2 = codes r.1) ∧ b.order.Perm (collectExited pt.sup.running b.reaped) then
    some (b.order.foldl handleExited pt)
  else none

/-- A tracked pod with the policy `Never` whose containers have been started. Running containers have
different processes. -/
structure RunOncePod where
  pt : ProcessTracker
  tracker : ResourceTracker
  stored : pt.store.get tracker.resource.uid = some tracker
  never : tracker.resource.restartPolicy = some "Never"
  keyed : ∀ cid rc, pt.sup.running.get cid = some rc → rc.inst.containerId = cid
  started : ∀ cid rc, pt.sup.running.get cid = some rc → rc.startedFor = tracker.resource.uid →
    rc.inst.pid.isSome = true
  processes : ∀ cid cid' rc rc' pid, pt.sup.running.get cid = some rc →
    pt.sup.running.get cid' = some rc' → rc.inst.pid = some pid → rc'.inst.pid = some pid → cid = cid'

/-- The exit of a container is charged to the pod with the uid. -/
def charged (store : ResourceStore) (uid cid : String) : Bool :=
  (findPod store cid).any fun t => t.resource.uid == uid

/-- The state is that of a pod that has failed, or of one that has succeeded. -/
def phaseIs (failed : Bool) : ResourceState → Bool
  | .failed _ => failed
  | .succeeded => !failed
  | _ => false

namespace RunOncePod

variable (codes : Nat → Int) (p : RunOncePod)

def uid : String := p.tracker.resource.uid

/-- Some container of the pod exits with a code that is not zero. -/
def fails : Bool :=
  p.pt.sup.running.values.any fun rc => rc.startedFor == p.uid && rc.inst.pid.any (codes · != 0)

/-- Once all containers of the pod have exited, in whatever order and grouping, its state is `Failed` if
some exit code is not zero and `Succeeded` otherwise. -/
def OrderFree : Prop :=
  ∀ batches pt', run (exitStep codes) p.pt batches = some pt' →
    (∀ rc ∈ pt'.sup.running.values, rc.startedFor ≠ p.uid) →
      ∃ t, pt'.store.get p.uid = some t ∧ phaseIs (p.fails codes) t.state = true

/-- Every exit that is charged to the pod tells alone whether some container of the pod fails, and one of
its own exits is charged to it. -/
def EachTells : Prop :=
  (∀ rc ∈ p.pt.sup.running.values, charged p.pt.store p.uid rc.inst.containerId = true →
    ∀ pid ∈ rc.inst.pid, (codes pid != 0) = p.fails codes) ∧
  ((∃ rc ∈ p.pt.sup.running.values, rc.startedFor = p.uid ∧
      charged p.pt.store p.uid rc.inst.containerId = true) ∨
    phaseIs (p.fails codes) p.tracker.state = true)

end RunOncePod

end Z8s.Scheduler
