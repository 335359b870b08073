import Z8s.Pods.System

/-!
# What should hold of the pods in every state

Three properties of the system of starting, stopping and exiting pods, each with the condition on
the single steps under which it is kept: no address is lost, no container is spawned twice, and a
question about a pod is answered from its own containers.
-/

namespace Z8s.Pods

open Rust Collections Z8s.Types Netmux Cri Scheduler

variable (s : PodSystem)

/-! ### Addresses -/

/-- When no start is in progress, every address that was taken from a pool and is not back there is
the address of an entry of the running map. -/
def NoLeak : Prop :=
  (∀ t ∈ s.starts, t.isDone = true) →
    ∀ x ∈ s.taken, x.2 ∉ s.sup.netmux.freeOf x.1 → ∃ e ∈ s.sup.running.iter, e.2.inst.podIp = some x.2
  deriving Decidable

/-- The container has no address, or its address is back in the pools it was taken from. -/
def Released (rc : RunningContainer) : Prop :=
  ∀ x ∈ s.taken, rc.inst.podIp = some x.2 → x.2 ∈ s.sup.netmux.freeOf x.1
  deriving Decidable

def EntryReleased (containerId : String) : Prop :=
  ∀ rc ∈ s.sup.running.get containerId, Released s rc
  deriving Decidable

/-- A failed attachment returns its address: there was none to take, or the roll-back gives every
free address of the pool back to that pool. -/
def AttachReturns (nm : NetMux) (subnet : Option String) (order : List String) : VethOutcome → Prop
  | .attached _ _ => True
  | .createFails => nm.freeOf subnet = ∅
  | .linkUpFails _ _ | .routeFails _ _ =>
    ∀ n ∈ subnet, (nm.freeOf (some n)).image (nm.subnetOf · order) ⊆ {some n}

instance (nm : NetMux) (subnet : Option String) (order : List String) :
    (veth : VethOutcome) → Decidable (AttachReturns nm subnet order veth)
  | .attached _ _ => inferInstanceAs (Decidable True)
  | .createFails => inferInstanceAs (Decidable (nm.freeOf subnet = ∅))
  | .linkUpFails _ _ | .routeFails _ _ => inferInstanceAs (Decidable
    (∀ n ∈ subnet, (nm.freeOf (some n)).image (nm.subnetOf · order) ⊆ {some n}))

/-- A move of a start loses no address: before its record of a container is dropped, whether by a
failure or by another entry in its place, the address of the container is released. -/
def StartReturns (t : StartTask) : StartEvent → Prop
  | .spawnNext unpackImage env => ∀ cfg ∈ t.todo.head?,
      if (prepareRootfs cfg unpackImage).isOk then
        env.attaches cfg = true → AttachReturns s.sup.netmux t.spec.subnet env.order env.veth
      else ∀ e ∈ t.prepared, Released s e.2
  | .removePlaceholders =>
    (∀ cid ∈ t.spec.ids, EntryReleased s cid) ∧ ∀ e ∈ t.prepared, Released s e.2
  | .record => (t.prepared.map Prod.fst).Nodup ∧ ∀ cid ∈ t.prepared.map Prod.fst, EntryReleased s cid
  | _ => True

instance (s : PodSystem) (t : StartTask) : (e : StartEvent) → Decidable (StartReturns s t e)
  | .spawnNext unpackImage env => inferInstanceAs (Decidable (∀ cfg ∈ t.todo.head?,
      if (prepareRootfs cfg unpackImage).isOk then
        env.attaches cfg = true → AttachReturns s.sup.netmux t.spec.subnet env.order env.veth
      else ∀ e ∈ t.prepared, Released s e.2))
  | .removePlaceholders => inferInstanceAs (Decidable ((∀ cid ∈ t.spec.ids, _) ∧ ∀ e ∈ t.prepared, _))
  | .record => inferInstanceAs (Decidable (_ ∧ ∀ cid ∈ t.prepared.map Prod.fst, _))
  | .checkDuplicate | .insertPlaceholders | .createCgroup _ => inferInstanceAs (Decidable True)

def Returns : PodEvent → Prop
  | .start t e => ∀ task ∈ s.starts[t]?, StartReturns s task e
  | .stop t .stopContainer => ∀ task ∈ s.stops[t]?, ∀ cfg ∈ task.todo.head?, EntryReleased s cfg.containerId
  | .exit t .remove => ∀ task ∈ s.exits[t]?, ∀ d ∈ task.todo.head?, EntryReleased s d.containerId
  | _ => True

instance (s : PodSystem) : (e : PodEvent) → Decidable (Returns s e)
  | .start t e => inferInstanceAs (Decidable (∀ task ∈ s.starts[t]?, StartReturns s task e))
  | .stop t .stopContainer => inferInstanceAs (Decidable
    (∀ task ∈ s.stops[t]?, ∀ cfg ∈ task.todo.head?, EntryReleased s cfg.containerId))
  | .exit t .remove => inferInstanceAs (Decidable
    (∀ task ∈ s.exits[t]?, ∀ d ∈ task.todo.head?, EntryReleased s d.containerId))
  | .stop _ (.detach _) | .stop _ .removeRestartCount | .exit _ .decide | .exit _ .settle
  | .startPod _ | .stopPod _ | .reaped _ | .delayed _ | .applyResource _ | .deleteResource _
  | .updateState _ _ | .registerSubnet _ _ | .probe _ _ => inferInstanceAs (Decidable True)

/-! ### Spawns -/

/-- The containers that were spawned and are not recorded yet, of all starts. -/
def PodSystem.inProgress : List (String × RunningContainer) :=
  s.starts.flatMap StartTask.prepared

/-- No container was spawned twice: its spawns in progress are at most one, and while there is one
the running map has no process for the container that recording it would overwrite. -/
def SpawnedOnce : Prop :=
  (s.inProgress.map Prod.fst).Nodup ∧
    ∀ e ∈ s.inProgress, ∀ rc ∈ s.sup.running.get e.1, rc.inst.pid = none
  deriving Decidable

def StartOf (podName : String) : PodEvent → Prop
  | .startPod spec =>
    spec.podName = podName ∧ ∀ cid ∈ spec.ids, startsWith cid (podName ++ "-") = true
  | .start _ _ => True
  | _ => False

instance (podName : String) : (e : PodEvent) → Decidable (StartOf podName e)
  | .startPod spec => inferInstanceAs (Decidable (_ ∧ ∀ cid ∈ spec.ids, _ = _))
  | .start _ _ => inferInstanceAs (Decidable True)
  | .stopPod _ | .stop _ _ | .reaped _ | .exit _ _ | .delayed _ | .applyResource _
  | .deleteResource _ | .updateState _ _ | .registerSubnet _ _ | .probe _ _ =>
    inferInstanceAs (Decidable False)

/-- Placeholders are inserted only while the duplicate check would still be negative, and no pod has
two containers of one id. -/
def PlacesFresh : PodEvent → Prop
  | .startPod spec => spec.ids.Nodup
  | .start t .insertPlaceholders => ∀ task ∈ s.starts[t]?,
      checkDuplicateStart s.sup.running task.spec.podName = false
  | _ => True

instance (s : PodSystem) : (e : PodEvent) → Decidable (PlacesFresh s e)
  | .startPod spec => inferInstanceAs (Decidable spec.ids.Nodup)
  | .start t .insertPlaceholders => inferInstanceAs (Decidable (∀ task ∈ s.starts[t]?, _ = _))
  | .start _ .checkDuplicate | .start _ (.createCgroup _) | .start _ (.spawnNext _ _)
  | .start _ .removePlaceholders | .start _ .record | .stopPod _ | .stop _ _ | .reaped _ | .exit _ _
  | .delayed _ | .applyResource _ | .deleteResource _ | .updateState _ _ | .registerSubnet _ _
  | .probe _ _ => inferInstanceAs (Decidable True)

/-! ### Names -/

section Own

variable (uid podName : String) (running : HashMap String RunningContainer)
  (restartCounts : HashMap String RestartCount)

def ownRunning : HashMap String RunningContainer := running.filter fun _ rc => rc.startedFor = uid

def ownCounts : HashMap String RestartCount := restartCounts.filter fun _ c => c.startedFor = uid

/-- Every question about the pod is answered as if there were only its own entries. -/
structure SeesOnlyOwn : Prop where
  checkDuplicateStart : checkDuplicateStart running podName =
    Cri.checkDuplicateStart (ownRunning uid running) podName
  isRunning : isRunning running podName = Scheduler.isRunning (ownRunning uid running) podName
  isReady : isReady running podName = Scheduler.isReady (ownRunning uid running) podName
  podIp : podIp running podName = Scheduler.podIp (ownRunning uid running) podName
  backendConnectPort : ∀ port, backendConnectPort running podName port =
    Scheduler.backendConnectPort (ownRunning uid running) podName port
  podRestartCounts : podRestartCounts restartCounts podName =
    Scheduler.podRestartCounts (ownCounts uid restartCounts) podName

end Own

/-- For every stored pod and every iteration order of the maps, the questions about the pod see only
its own containers. -/
def LooksUpOwn : Prop :=
  ∀ r ∈ resources s.pt.store, r.isPod = true →
    ∀ running' : HashMap String RunningContainer, running'.entries.Perm s.sup.running.entries →
    ∀ counts' : HashMap String RestartCount, counts'.entries.Perm s.sup.restartCounts.entries →
      SeesOnlyOwn r.uid r.name running' counts'

/-- The ids of an entry, with the pod it was started for. -/
def entryIds (e : String × RunningContainer) : List (String × String) :=
  [(e.1, e.2.startedFor), (e.2.inst.containerId, e.2.startedFor)]

def StartTask.known (t : StartTask) : List (String × String) :=
  (t.spec.ids ++ t.todo.map ContainerConfig.containerId).map (·, t.spec.podUid) ++
    t.prepared.flatMap entryIds

/-- The container ids that occur in the system, each with the pod it was made for: recorded, counted,
being started, or exited. -/
def PodSystem.known (s : PodSystem) : List (String × String) :=
  s.sup.running.iter.flatMap entryIds ++
    s.sup.restartCounts.iter.map (fun e => (e.1, e.2.startedFor)) ++
    s.starts.flatMap StartTask.known ++
    s.exits.flatMap fun t => t.todo.map fun d => (d.containerId, d.startedFor)

/-- No id starts with the name of a pod that is not its own. -/
def NamesApart (pods : List AnyResource) (ids : List (String × String)) : Prop :=
  ∀ r ∈ pods, ∀ x ∈ ids, matchesPod x.1 r = true → x.2 = r.uid
  deriving Decidable

/-- A pod is started only with container ids, and a resource stored only with a name, that do not
clash: no stored pod's name followed by a dash starts an id of another pod. -/
def StaysApart : PodEvent → Prop
  | .startPod spec => NamesApart (resources s.pt.store) (spec.ids.map (·, spec.podUid))
  | .applyResource r => NamesApart [r] s.known
  | _ => True

instance (s : PodSystem) : (e : PodEvent) → Decidable (StaysApart s e)
  | .startPod spec => inferInstanceAs (Decidable (NamesApart _ (spec.ids.map (·, spec.podUid))))
  | .applyResource r => inferInstanceAs (Decidable (NamesApart [r] s.known))
  | .start _ _ | .stopPod _ | .stop _ _ | .reaped _ | .exit _ _ | .delayed _ | .deleteResource _
  | .updateState _ _ | .registerSubnet _ _ | .probe _ _ => inferInstanceAs (Decidable True)

end Z8s.Pods
