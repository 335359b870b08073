import Z8s.Control.Namespace
import Z8s.Control.Proofs.DeletedProofs

/-!
# Proofs: deletion of a namespace

Everything in the namespace that is stored is still ahead of the request, as long as nothing is
stored behind it.
-/

namespace Z8s.Control

open Rust Z8s.Types Netmux Cri Pods Compute Transition ResourceStore AnyResource Cascade

variable {store : ResourceStore} {r : AnyResource} {todo : List AnyResource} {kinds : List String}
  {name : String}

/-- The pod that the request is to stop and to delete, and how far the stop has come. -/
def Cascade.removing (t : Cascade) : List (AnyResource × CallPhase) :=
  match t.phase with
  | .walking (r :: _) (.waiting i) _ => [(r, .waiting i)]
  | .walking (r :: _) .returned _ => if r.isPod then [(r, .returned)] else []
  | _ => []

theorem kind_ne_pod (h : r.isPod = false) : r.kind ≠ "Pod" := by
  cases r with
  | pod pod => cases h
  | _ => simp [kind]

namespace Cascade

variable {namespaces : List String} {d d' : Daemon} {t t' : Cascade} {e : Event}

/-- The call of `on_delete` begins no removal of anything but a pod. -/
theorem calls_other (hpod : r.isPod = false) (todo : List AnyResource) (kinds : List String) :
    (calls d r todo kinds).1 = d ∧
      ({ t with phase := (calls d r todo kinds).2 } : Cascade).removing = [] := by
  cases r with
  | pod pod => cases hpod
  | persistentVolumeClaim pvc =>
    simp only [calls]
    split
    · exact ⟨rfl, rfl⟩
    · exact ⟨rfl, rfl⟩
  | _ => exact ⟨rfl, rfl⟩

/-- What is ahead of the request stays the same with the call of `on_delete`. -/
theorem ahead_calls (t : Cascade) (d : Daemon) (r : AnyResource) (todo : List AnyResource)
    (kinds : List String) :
    ({ t with phase := (calls d r todo kinds).2 } : Cascade).todo = r :: todo ∧
      ({ t with phase := (calls d r todo kinds).2 } : Cascade).pendingKinds = kinds ∧
      (calls d r todo kinds).2 ≠ .entered ∧ (calls d r todo kinds).2 ≠ .done false := by
  cases r with
  | persistentVolumeClaim pvc =>
    simp only [calls]
    split
    · exact ⟨rfl, rfl, nofun, nofun⟩
    · exact ⟨rfl, rfl, nofun, nofun⟩
  | _ => exact ⟨rfl, rfl, nofun, nofun⟩

theorem store_calls (d : Daemon) (r : AnyResource) (todo : List AnyResource) (kinds : List String) :
    (calls d r todo kinds).1.store = d.store := by
  cases r with
  | persistentVolumeClaim pvc =>
    simp only [calls]
    split <;> rfl
  | _ => rfl

/-- The moves of the request, with the state of the daemon and the phase after them. -/
inductive Moves (namespaces : List String) (d : Daemon) (t : Cascade) : Event → Daemon → CascadePhase → Prop
  | refuse (hphase : t.phase = .entered) (hno : t.name = "default" ∨ t.name ∉ namespaces) :
    Moves namespaces d t .remove d (.done false)
  | remove (hphase : t.phase = .entered) : Moves namespaces d t .remove d (.listing cascadedKinds)
  | list {kind kinds trackers : _}
    (hphase : t.phase = .listing (kind :: kinds)) (hperm : trackers.Perm (d.store.getByKind kind)) :
    Moves namespaces d t (.list trackers) d
      (.walking ((trackers.map ResourceTracker.resource).filter (·.namespaceOf == t.name)) .calling kinds)
  | call {r todo kinds : _} (hphase : t.phase = .walking (r :: todo) .calling kinds) :
    Moves namespaces d t .call (calls d r todo kinds).1 (calls d r todo kinds).2
  | stopped {r todo i kinds : _}
    (hphase : t.phase = .walking (r :: todo) (.waiting i) kinds) (hfinished : d.stopFinished i = true) :
    Moves namespaces d t .stopped (d.setStore (d.store.updateState r.uid .terminated))
      (.walking (r :: todo) .returned kinds)
  | found {pvc pv volume todo kinds : _} (trackers : List ResourceTracker)
    (hphase : t.phase = .releasing pvc volume todo kinds) :
    Moves namespaces d t (.listVolumes trackers) d (.dropping pvc pv todo kinds)
  | noVolume {pvc volume todo kinds : _} (trackers : List ResourceTracker)
    (hphase : t.phase = .releasing pvc volume todo kinds) :
    Moves namespaces d t (.listVolumes trackers) d
      (.walking (.persistentVolumeClaim pvc :: todo) .returned kinds)
  | deleteVolume {pvc pv todo kinds : _} (hphase : t.phase = .dropping pvc pv todo kinds) :
    Moves namespaces d t .deleteVolume (d.setStore (d.store.delete (.persistentVolume pv)))
      (.walking (.persistentVolumeClaim pvc :: todo) .returned kinds)
  | delete {r todo kinds : _} (hphase : t.phase = .walking (r :: todo) .returned kinds) :
    Moves namespaces d t .delete (d.setStore (d.store.delete r)) (.walking todo .calling kinds)
  | next {call kinds : _} (hphase : t.phase = .walking [] call kinds) :
    Moves namespaces d t .next d (.listing kinds)
  | finish (hphase : t.phase = .listing []) : Moves namespaces d t .next d (.done true)

theorem moves_of_step (hstep : t.step namespaces d e = some (d', t')) :
    ∃ phase, t' = { t with phase } ∧ Moves namespaces d t e d' phase := by
  cases e with
  | remove =>
    simp only [step] at hstep
    split at hstep
    · rename_i hphase
      split_ifs at hstep with hno <;> cases hstep
      · exact ⟨_, rfl, .refuse hphase hno⟩
      · exact ⟨_, rfl, .remove hphase⟩
    · cases hstep
  | list trackers =>
    simp only [step] at hstep
    split at hstep
    · rename_i kind kinds hphase
      split_ifs at hstep with hperm
      cases hstep
      exact ⟨_, rfl, .list hphase hperm⟩
    · cases hstep
  | call =>
    simp only [step] at hstep
    split at hstep
    · rename_i r todo kinds hphase
      cases hstep
      exact ⟨_, rfl, .call hphase⟩
    · cases hstep
  | stopped =>
    simp only [step] at hstep
    split at hstep
    · rename_i r todo i kinds hphase
      split_ifs at hstep with hfinished
      cases hstep
      exact ⟨_, rfl, .stopped hphase hfinished⟩
    · cases hstep
  | listVolumes trackers =>
    simp only [step] at hstep
    split at hstep
    · rename_i pvc volume todo kinds hphase
      split_ifs at hstep
      split at hstep <;> cases hstep
      · exact ⟨_, rfl, .found trackers hphase⟩
      · exact ⟨_, rfl, .noVolume trackers hphase⟩
    · cases hstep
  | deleteVolume =>
    simp only [step] at hstep
    split at hstep
    · rename_i pvc pv todo kinds hphase
      cases hstep
      exact ⟨_, rfl, .deleteVolume hphase⟩
    · cases hstep
  | delete =>
    simp only [step] at hstep
    split at hstep
    · rename_i r todo kinds hphase
      cases hstep
      exact ⟨_, rfl, .delete hphase⟩
    · cases hstep
  | next =>
    simp only [step] at hstep
    split at hstep
    · rename_i hphase
      cases hstep
      exact ⟨_, rfl, .next hphase⟩
    · rename_i hphase
      cases hstep
      exact ⟨_, rfl, .finish hphase⟩
    · cases hstep

theorem removing_calling (todo : List AnyResource) (kinds : List String) :
    ({ t with phase := .walking todo .calling kinds } : Cascade).removing = [] := by
  cases todo <;> rfl

theorem removing_returned (r : AnyResource) (todo : List AnyResource) (kinds : List String) :
    ({ t with phase := .walking (r :: todo) .returned kinds } : Cascade).removing =
      if r.isPod then [(r, .returned)] else [] := rfl

theorem move_of_step (hstep : t.step namespaces d e = some (d', t')) :
    Move d t.removing (t.call e) d' t'.removing := by
  obtain ⟨phase, rfl, hmove⟩ := moves_of_step hstep
  cases hmove with
  | refuse | remove | found | noVolume | next | finish => exact .quiet uncalled_nil
  | list hphase hperm =>
    rw [removing_calling]
    exact .quiet uncalled_nil
  | @call r todo kinds hphase =>
    have hcall : t.call .call = if r.isPod then some (.stop r) else none := by simp [call, hphase]
    rw [hcall]
    cases hpod : r.isPod with
    | true =>
      obtain ⟨pod, rfl⟩ : ∃ pod, r = .pod pod := by
        cases r with
        | pod pod => exact ⟨pod, rfl⟩
        | _ => cases hpod
      exact .stop (.pod pod)
    | false =>
      obtain ⟨hsame, hnext⟩ := calls_other (t := t) (d := d) hpod todo kinds
      rw [hsame, hnext]
      exact .quiet uncalled_nil
  | @stopped r todo i kinds hphase hfinished =>
    have hremoving : t.removing = [(r, .waiting i)] := by simp [removing, hphase]
    rw [hremoving, removing_returned]
    cases hpod : r.isPod with
    | true => exact .stopped hfinished
    | false => exact .state _ _ uncalled_nil
  | deleteVolume hphase => exact .deleteOther (by simp [kind]) uncalled_nil
  | @delete r todo kinds hphase =>
    rw [removing_calling]
    cases hpod : r.isPod with
    | true =>
      have hremoving : t.removing = [(r, .returned)] := by simp [removing, hphase, hpod]
      rw [hremoving]
      exact .delete uncalled_nil
    | false => exact .deleteOther (kind_ne_pod hpod) uncalled_nil

/-- Everything in the namespace that is stored is ahead of the request. -/
def CoversStore (t : Cascade) (store : ResourceStore) : Prop :=
  ∀ r, store.Holds r → InNamespace t.name r → t.Ahead r

theorem CoversStore.mono {store' : ResourceStore} (h : t.CoversStore store)
    (hsame : t'.name = t.name ∧ t'.todo = t.todo ∧ t'.pendingKinds = t.pendingKinds)
    (hholds : ∀ r, store'.Holds r → store.Holds r) : t'.CoversStore store' := by
  obtain ⟨hname, htodo, hkinds⟩ := hsame
  intro r hr hin
  rw [hname] at hin
  unfold Ahead
  rw [htodo, hkinds]
  exact h r (hholds r hr) hin

theorem CoversStore.list {kind : String} {trackers : List ResourceTracker} (h : t.CoversStore store)
    (hphase : t.phase = .listing (kind :: kinds)) (hperm : trackers.Perm (store.getByKind kind))
    (htodo : todo = (trackers.map ResourceTracker.resource).filter (·.namespaceOf == t.name)) :
    ({ t with phase := .walking todo .calling kinds } : Cascade).CoversStore store := by
  intro r hr hin
  have hahead := h r hr hin
  simp only [Ahead, pendingKinds, Cascade.todo, hphase, List.map_nil, List.not_mem_nil, or_false] at hahead ⊢
  rcases List.mem_cons.1 hahead with hkind | hkind
  · right
    obtain ⟨state, hget⟩ := hr
    have hmem : ⟨r, state⟩ ∈ trackers := hperm.mem_iff.2 (mem_getByKind.2 ⟨hget, hkind⟩)
    rw [htodo]
    refine List.mem_map_of_mem (List.mem_filter.2 ⟨List.mem_map_of_mem hmem, ?_⟩)
    exact beq_iff_eq.2 hin.1
  · exact .inl hkind

theorem CoversStore.delete {call : CallPhase} (h : t.CoversStore store)
    (hphase : t.phase = .walking (r :: todo) call kinds) :
    ({ t with phase := .walking todo .calling kinds } : Cascade).CoversStore (store.delete r) := by
  intro r' hr' hin
  obtain ⟨hne, hr'⟩ := holds_delete.1 hr'
  have hahead := h r' hr' hin
  simp only [Ahead, pendingKinds, Cascade.todo, hphase, List.map_cons, List.mem_cons] at hahead ⊢
  rcases hahead with hkind | huid | hmem
  · exact .inl hkind
  · exact absurd huid hne
  · exact .inr hmem

/-- What a step of the request keeps: its name, and that it covers the store. A request for a known
namespace does not fail. -/
theorem covers_of_step (hstep : t.step namespaces d e = some (d', t'))
    (hfound : t.phase = .entered → t.name ≠ "default" ∧ t.name ∈ namespaces)
    (h : t.CoversStore d.store) :
    t'.name = t.name ∧ (t'.phase ≠ .entered ∧ t'.phase ≠ .done false) ∧ t'.CoversStore d'.store := by
  obtain ⟨phase, rfl, hmove⟩ := moves_of_step hstep
  -- a move to a phase with the same resources and kinds ahead
  have hsame : ∀ {phase : CascadePhase} {store : ResourceStore}, phase ≠ .entered → phase ≠ .done false →
      ({ t with phase } : Cascade).todo = t.todo → ({ t with phase } : Cascade).pendingKinds = t.pendingKinds →
      (∀ r, store.Holds r → d.store.Holds r) →
      t.name = t.name ∧ (phase ≠ .entered ∧ phase ≠ .done false) ∧
        ({ t with phase } : Cascade).CoversStore store :=
    fun hentered hfailed htodo hkinds hholds =>
      ⟨rfl, ⟨hentered, hfailed⟩, h.mono ⟨rfl, htodo, hkinds⟩ hholds⟩
  cases hmove with
  | refuse hphase hno =>
    obtain ⟨hname, hmem⟩ := hfound hphase
    exact absurd hno (by simp [hname, hmem])
  | remove hphase | found trackers hphase | noVolume trackers hphase | next hphase | finish hphase =>
    exact hsame nofun nofun (by simp [todo, hphase]) (by simp [pendingKinds, hphase]) fun _ => id
  | list hphase hperm => exact ⟨rfl, ⟨nofun, nofun⟩, h.list hphase hperm rfl⟩
  | @call r todo kinds hphase =>
    obtain ⟨htodo, hkinds, hphase'⟩ := ahead_calls t d r todo kinds
    refine hsame hphase'.1 hphase'.2 ?_ ?_ ?_
    · rw [htodo, Cascade.todo, hphase]
    · rw [hkinds, pendingKinds, hphase]
    · rw [store_calls]
      exact fun _ => id
  | stopped hphase hfinished =>
    exact hsame nofun nofun (by simp [todo, hphase]) (by simp [pendingKinds, hphase])
      fun r hr => holds_updateState.1 hr
  | deleteVolume hphase =>
    exact hsame nofun nofun (by simp [todo, hphase]) (by simp [pendingKinds, hphase])
      fun r hr => (holds_delete.1 hr).2
  | delete hphase => exact ⟨rfl, ⟨nofun, nofun⟩, h.delete hphase⟩

end Cascade

/-! ### The system -/

theorem isPodUidOf_pod {pod : Pod} (h : (AnyResource.pod pod).namespaceOf = name) :
    isPodUidOf name (AnyResource.pod pod).uid = true := by
  have huid : (AnyResource.pod pod).uid = "Pod/" ++ name ++ "/" ++ (AnyResource.pod pod).name := by
    rw [← h]
    rfl
  rw [isPodUidOf, huid]
  exact startsWith_append _ _

structure NamespaceInv (s : NamespaceSystem) : Prop where
  pods : ∀ pod : Pod, (AnyResource.pod pod).namespaceOf = s.cascade.name →
    PodInv (AnyResource.pod pod).uid s.daemon (s.control.removing ++ s.cascade.removing)
  known : s.cascade.phase = .entered → s.cascade.name ≠ "default" ∧ s.cascade.name ∈ s.namespaces
  notFailed : s.cascade.phase ≠ .done false
  covers : s.cascade.CoversStore s.daemon.store

namespace NamespaceInv

variable {s s' : NamespaceSystem} {e : NamespaceEvent}

theorem own (h : NamespaceInv s) : ∀ t ∈ s.daemon.pods.starts, OwnWork t :=
  (h.pods { metadata := { inNamespace := some s.cascade.name } } rfl).tidy.own

theorem orderly (hok : KeepsAhead s e) {pod : Pod} (hns : (AnyResource.pod pod).namespaceOf = s.cascade.name) :
    OrderlyCall (AnyResource.pod pod).uid s.daemon (s.call e) := by
  cases hcall : s.call e with
  | none => trivial
  | some call =>
    refine OrderlyCall.of_own fun huid => (hok call hcall).1 ?_
    rw [huid]
    exact isPodUidOf_pod hns

theorem step_control {e : ControlEvent} (h : NamespaceInv s) (hok : KeepsAhead s (.control e))
    (hstep : s.step (.control e) = some s') : NamespaceInv s' := by
  obtain ⟨control', hcontrol, rfl⟩ := Option.map_eq_some_iff.1 hstep
  refine ⟨fun pod hns => ?_, h.known, h.notFailed, fun r hr hin => ?_⟩
  · exact (h.pods pod hns).step_append ⟨pod, rfl⟩ (orderly hok hns) hcontrol
  · rcases holds_step h.own hcontrol hr with hold | ⟨hcall, -⟩
    · exact h.covers r hold hin
    · exact (hok (.apply r) hcall).2 hin

theorem step_cascade {e : Cascade.Event} (h : NamespaceInv s) (hok : KeepsAhead s (.cascade e))
    (hstep : s.step (.cascade e) = some s') : NamespaceInv s' := by
  obtain ⟨⟨d', t'⟩, hcascade, rfl⟩ := Option.map_eq_some_iff.1 hstep
  obtain ⟨hname, ⟨hentered, hfailed⟩, hcovers⟩ := covers_of_step hcascade h.known h.covers
  refine ⟨fun pod hns => ?_, fun hphase => absurd hphase hentered, hfailed, hcovers⟩
  have hns' : (AnyResource.pod pod).namespaceOf = s.cascade.name := hns.trans hname
  have hinv : PodInv (AnyResource.pod pod).uid s.daemon (s.cascade.removing ++ s.control.removing) :=
    (h.pods pod hns').mono fun x hx => List.mem_append.2 (List.mem_append.1 hx).symm
  exact (hinv.move ⟨pod, rfl⟩ (orderly hok hns') (move_of_step hcascade)).mono
    fun x hx => List.mem_append.2 (List.mem_append.1 hx).symm

theorem step (h : NamespaceInv s) (hok : KeepsAhead s e) (hstep : s.step e = some s') :
    NamespaceInv s' := by
  cases e with
  | control e => exact h.step_control hok hstep
  | cascade e => exact h.step_cascade hok hstep

theorem emptiedWhenDone (h : NamespaceInv s) : EmptiedWhenDone s := by
  intro hdone _
  have hphase : s.cascade.phase = .done true := by
    unfold isDone at hdone
    split at hdone
    · rename_i deleted hphase
      cases deleted with
      | false => exact absurd hphase h.notFailed
      | true => exact hphase
    · cases hdone
  have hstored : ∀ r, s.daemon.store.Holds r → ¬ InNamespace s.cascade.name r := by
    intro r hr hin
    have hahead := h.covers r hr hin
    simp [Cascade.Ahead, pendingKinds, todo, hphase] at hahead
  refine ⟨hstored, fun pod hin hrecorded => ?_⟩
  have hsome : s.daemon.store.get (AnyResource.pod pod).uid ≠ none :=
    fun hnone => ((h.pods pod hin.1).tidy.absent hnone).1 hrecorded
  obtain ⟨r, hr, huid⟩ := get_ne_none_iff.1 hsome
  exact ⟨r, hr, huid, hstored r hr⟩

theorem init {namespaces : List String} {pods : PodSystem} {sweeps : Nat}
    {requests : List (DeletionKind × String × String)} (hdefault : name ≠ "default")
    (hknown : name ∈ namespaces)
    (htidy : ∀ pod : Pod, (AnyResource.pod pod).namespaceOf = name →
      Tidy (AnyResource.pod pod).uid (ControlSystem.init pods sweeps requests).daemon)
    (hkinds : ∀ r, pods.pt.store.Holds r → InNamespace name r → r.kind ∈ cascadedKinds) :
    NamespaceInv (.init name namespaces (.init pods sweeps requests)) where
  pods pod hns := by
    have hremoving : (NamespaceSystem.init name namespaces
        (.init pods sweeps requests)).cascade.removing = [] := rfl
    rw [hremoving, List.append_nil]
    exact PodInv.init (htidy pod hns)
  known _ := ⟨hdefault, hknown⟩
  notFailed := nofun
  covers r hr hin := .inl (hkinds r hr hin)

end NamespaceInv

/-- The deletion of a known namespace leaves nothing in it, beside sweeps, deletions and starts of their
own, where the namespace has only resources of the listed kinds, its pods are started and stopped in
order, and nothing is stored in it behind the request. -/
theorem emptiedWhenDone_along {name : String} {namespaces : List String} {pods : PodSystem} {sweeps : Nat}
    {requests : List (DeletionKind × String × String)} {es : List NamespaceEvent}
    (hdefault : name ≠ "default") (hknown : name ∈ namespaces)
    (htidy : ∀ pod : Pod, (AnyResource.pod pod).namespaceOf = name →
      Tidy (AnyResource.pod pod).uid (ControlSystem.init pods sweeps requests).daemon)
    (hkinds : ∀ r, pods.pt.store.Holds r → InNamespace name r → r.kind ∈ cascadedKinds)
    (hok : Along NamespaceSystem.step KeepsAhead (.init name namespaces (.init pods sweeps requests)) es) :
    Always NamespaceSystem.step EmptiedWhenDone (.init name namespaces (.init pods sweeps requests)) es :=
  always_of_invariant (fun _ _ _ h hok hstep => h.step hok hstep) (fun _ h => h.emptiedWhenDone)
    (NamespaceInv.init hdefault hknown htidy hkinds) hok

private def inLab (name : String) : ObjectMeta := { name := some name, inNamespace := some "lab" }

private def labPod : Pod where
  metadata := inLab "db"
  spec := some { containers := [{ name := "app", image := some "host" }] }

private def labService : AnyResource := .service { metadata := inLab "db" }

private def labIngress : AnyResource := .ingress { metadata := inLab "db" }

private def labNet : NetMux :=
  ⟨IpPool.new ⟨Ipv4Addr.new 10 42 0 0, 30⟩, ∅, 30, Ipv4Addr.new 10 42 0 1⟩

private def labPods : PodSystem := .init labNet ((ResourceStore.new.apply (.pod labPod)).apply labService)

/-- The deletion of the namespace `lab`, beside one sweep. -/
private def labDeletion (pods : PodSystem) : NamespaceSystem :=
  .init "lab" ["default", "lab"] (.init pods 1 [])

private def listsNone : List NamespaceEvent := [.cascade (.list []), .cascade .next]

private def startRunsOn : List NamespaceEvent :=
  [.control (.pods (.start 0 .checkDuplicate)), .control (.pods (.start 0 .insertPlaceholders)),
    .control (.pods (.start 0 (.createCgroup (.ok ())))),
    .control (.pods (.start 0 (.spawnNext (.ok "") ⟨true, .ok 100, .ok true, .ok (), .attached 4 5, []⟩))),
    .control (.pods (.start 0 .record))]

private def labSwept : List NamespaceEvent :=
  [.control (.sweep 0 (.snapshot [.new (.pod labPod), .new labService])), .control (.sweep 0 .next),
    .control (.sweep 0 .next), .control (.detached 0 .call)] ++ startRunsOn ++
    [.control (.detached 0 .returned)]

private def labCascade : List NamespaceEvent :=
  [.cascade .remove, .cascade (.list [⟨.pod labPod, .running⟩]), .cascade .call,
    .control (.pods (.stop 0 (.detach []))), .control (.pods (.stop 0 .stopContainer)),
    .control (.pods (.stop 0 .removeRestartCount)), .cascade .stopped, .cascade .delete, .cascade .next] ++
    listsNone ++
    [.cascade (.list [.new labService]), .cascade .call, .cascade .delete, .cascade .next] ++
    listsNone ++ listsNone ++ listsNone ++ [.cascade .next]

theorem emptiedWhenDone_along_swept_before :
    (∃ s ∈ run NamespaceSystem.step (labDeletion labPods) (labSwept ++ labCascade),
      s.cascade.isDone = true ∧ s.control.isIdle = true ∧ s.daemon.store.getAll = [] ∧
      s.daemon.running.keys = []) ∧
    Always NamespaceSystem.step EmptiedWhenDone (labDeletion labPods) (labSwept ++ labCascade) := by
  refine ⟨by decide +kernel, emptiedWhenDone_along (by decide) (by decide) ?_ ?_ (by decide +kernel)⟩
  · exact fun pod _ => tidy_init _ _ _ _ _
  · rintro r ⟨state, hget⟩ -
    have hall : ∀ t ∈ labPods.pt.store.getAll, t.resource.kind ∈ cascadedKinds := by decide +kernel
    exact hall ⟨r, state⟩ (mem_getAll.2 hget)

private def labDeploy : Deployment where
  metadata := inLab "web"
  spec := some {
    replicas := some (asI32 1)
    selector := { matchLabels := some (.ofList [("app", "web")]) }
    template := { spec := some { containers := [{ name := "app", image := some "host" }] } } }

private def labGroup : UuidGroup := .zeros

private def deploymentCascade : List NamespaceEvent :=
  [.cascade .remove] ++ listsNone ++
    [.cascade (.list [.new (.deployment labDeploy)]), .cascade .call, .cascade .delete, .cascade .next] ++
    listsNone ++ listsNone ++ listsNone ++ listsNone ++ [.cascade .next]

private def ingressOnly : NamespaceSystem := labDeletion (.init labNet (ResourceStore.new.apply labIngress))

private def ingressRun : List NamespaceEvent :=
  [.control (.sweep 0 (.snapshot [.new labIngress])), .control (.sweep 0 .next), .cascade .remove] ++
    listsNone ++ listsNone ++ listsNone ++ listsNone ++ listsNone ++ listsNone ++ [.cascade .next]

private def deploymentOnly : NamespaceSystem :=
  labDeletion (.init labNet (ResourceStore.new.apply (.deployment labDeploy)))

/-- The sweep counts the pods of the deployment before the deletion, and creates one after it. -/
private def deploymentRun : List NamespaceEvent :=
  [.control (.sweep 0 (.snapshot [.new (.deployment labDeploy)])), .control (.sweep 0 .next),
    .control (.sweep 0 (.store (.list [])))] ++ deploymentCascade ++
    [.control (.sweep 0 (.store (.create labGroup))), .control (.sweep 0 .callStart)] ++ startRunsOn ++
    [.control (.sweep 0 .started), .control (.sweep 0 .leave)]

/-- An Ingress is of none of the kinds that the request lists, and stays. The pod of a deployment that a
sweep creates behind the request is stored and running in the end. -/
theorem namespace_left_with_resources :
    (∃ s ∈ run NamespaceSystem.step ingressOnly ingressRun,
      s.cascade.isDone = true ∧ s.control.isIdle = true ∧ s.daemon.store.Holds labIngress ∧
      InNamespace "lab" labIngress ∧ ¬ EmptiedWhenDone s) ∧
    ∃ s ∈ run NamespaceSystem.step deploymentOnly deploymentRun,
      s.cascade.isDone = true ∧ s.control.isIdle = true ∧
      s.daemon.store.getAll.map (fun t => (t.resource.uid, t.state)) =
        [("Pod/lab/web-pod-00000000", .running)] ∧
      s.daemon.running.values.map (·.startedFor) = ["Pod/lab/web-pod-00000000"] := by
  refine ⟨?_, by decide +kernel⟩
  have hrun : ∃ s ∈ run NamespaceSystem.step ingressOnly ingressRun,
      s.cascade.isDone = true ∧ s.control.isIdle = true ∧ s.daemon.store.Holds labIngress ∧
      InNamespace s.cascade.name labIngress ∧ InNamespace "lab" labIngress := by decide +kernel
  obtain ⟨s, hs, hdone, hidle, hholds, hin, hlab⟩ := hrun
  exact ⟨s, hs, hdone, hidle, hholds, hlab, fun hempty => (hempty hdone hidle).stored _ hholds hin⟩

end Z8s.Control
