import Z8s.Storage.Proofs.ProvisionProofs

/-!
# Proofs: at most one provisioning of a claim

The mark in `inflight` belongs to the one call that is between its two acquisitions of the lock.
-/

namespace Z8s.Storage

open Collections Z8s.Types Netmux Transition ProvisionTask List AnyResource ProvisionSystem

variable {pvc : PersistentVolumeClaim} {t : ProvisionTask}
variable {store : ResourceStore}

/-! ### Moves -/

/-- The moves of a call: phase, event, dispatcher and phase afterwards. -/
inductive ProvisionMove (d : Dispatcher) (pvc : PersistentVolumeClaim) (cls uid : String) :
    ProvisionPhase → ProvisionEvent → Dispatcher → ProvisionPhase → Prop
  | busy (h : d.inflight.containsKey uid = true) :
    ProvisionMove d pvc cls uid .locking .lock d (.done (.ok ()))
  | lock (h : d.inflight.containsKey uid = false) :
    ProvisionMove d pvc cls uid .locking .lock { d with inflight := d.inflight.insert uid () } .checking
  | bound (h : boundInStore d.store pvc = true) :
    ProvisionMove d pvc cls uid .checking .check d (.unlocking (.ok ()))
  | unbound (h : boundInStore d.store pvc = false) :
    ProvisionMove d pvc cls uid .checking .check d .provisioning
  | fails {pvUid result e} (h : doProvision pvc cls pvUid result = .error e) :
    ProvisionMove d pvc cls uid .provisioning (.backend pvUid result) d (.unlocking (.error e))
  | provisioned {pvUid result pv pvc'} (h : doProvision pvc cls pvUid result = .ok (pv, pvc')) :
    ProvisionMove d pvc cls uid .provisioning (.backend pvUid result)
      { d with provisioned := d.provisioned + 1 } (.writingPv pv pvc')
  | writePv {pv pvc'} :
    ProvisionMove d pvc cls uid (.writingPv pv pvc') .writePv
      { d with store := d.store.apply (.persistentVolume pv) } (.writingPvc pvc')
  | writePvc {pvc'} :
    ProvisionMove d pvc cls uid (.writingPvc pvc') .writePvc
      { d with store := d.store.apply (.persistentVolumeClaim pvc') } (.unlocking (.ok ()))
  | unlock {result} :
    ProvisionMove d pvc cls uid (.unlocking result) .unlock
      { d with inflight := d.inflight.remove uid } (.done result)

theorem ProvisionTask.move_of_step {d d' : Dispatcher} {t' : ProvisionTask} {e : ProvisionEvent}
    (h : t.step d e = some (d', t')) :
    t' = { t with phase := t'.phase } ∧ ProvisionMove d t.pvc t.cls t.uid t.phase e d' t'.phase := by
  obtain ⟨pvc, cls, uid, phase⟩ := t
  cases e with
  | lock =>
    cases phase with
    | locking =>
      simp only [step] at h
      split_ifs at h with hin <;> cases h
      · exact ⟨rfl, .busy hin⟩
      · exact ⟨rfl, .lock (Bool.not_eq_true _ ▸ hin)⟩
    | _ => cases h
  | check =>
    cases phase with
    | checking =>
      simp only [step] at h
      split_ifs at h with hin <;> cases h
      · exact ⟨rfl, .bound hin⟩
      · exact ⟨rfl, .unbound (Bool.not_eq_true _ ▸ hin)⟩
    | _ => cases h
  | backend pvUid result =>
    cases phase with
    | provisioning =>
      simp only [step] at h
      split at h <;> cases h
      · exact ⟨rfl, .fails (by assumption)⟩
      · exact ⟨rfl, .provisioned (by assumption)⟩
    | _ => cases h
  | writePv =>
    cases phase with
    | writingPv pv pvc' =>
      cases h
      exact ⟨rfl, .writePv⟩
    | _ => cases h
  | writePvc =>
    cases phase with
    | writingPvc pvc' =>
      cases h
      exact ⟨rfl, .writePvc⟩
    | _ => cases h
  | unlock =>
    cases phase with
    | unlocking result =>
      cases h
      exact ⟨rfl, .unlock⟩
    | _ => cases h

/-! ### The claim -/

theorem doProvision_eq_ok {pvc' : PersistentVolumeClaim} {cls pvUid : String} {result : Except Error Unit}
    {pv : PersistentVolume} (h : doProvision pvc cls pvUid result = .ok (pv, pvc')) :
    pvc'.metadata = pvc.metadata ∧ (volumeName pvc').isSome = true := by
  unfold doProvision at h
  split at h
  · cases h
  · cases h
  · rename_i hprep
    obtain ⟨-, rfl⟩ := Prod.mk.inj (Except.ok.inj h)
    obtain ⟨spec, hspec⟩ := Option.isSome_iff_exists.1 (preparePv_eq_ok hprep).1
    exact ⟨rfl, by simp [volumeName, provisionedPvc, hspec]⟩

def boundAt (store : ResourceStore) (key : String) : Prop :=
  ∃ pvc, (store.get key).map ResourceTracker.resource = some (.persistentVolumeClaim pvc) ∧
    (volumeName pvc).isSome = true

theorem boundInStore_iff : boundInStore store pvc = true ↔ boundAt store (claimKey pvc) := by
  unfold boundInStore boundAt
  cases hget : store.get (claimKey pvc) with
  | none => simp
  | some t =>
    obtain ⟨r, state⟩ := t
    cases r <;> simp

theorem claimKey_eq_uid (h : pvc.metadata.name.isSome) :
    claimKey pvc = (AnyResource.persistentVolumeClaim pvc).uid := by
  obtain ⟨name, hname⟩ := Option.isSome_iff_exists.1 h
  unfold claimKey AnyResource.uid
  simp only [AnyResource.kind, AnyResource.namespaceOf, AnyResource.name, AnyResource.metadata, hname,
    Option.getD_some, ← String.toList_inj, String.toList_append]
  simp

/-! ### Mutual exclusion -/

def ProvisionTask.isInside (t : ProvisionTask) : Bool :=
  match t.phase with
  | .locking | .done _ => false
  | .checking | .provisioning | .writingPv _ _ | .writingPvc _ | .unlocking _ => true

/-- The backend has provisioned a volume and the claim is not written back yet. -/
def ProvisionTask.isWriting (t : ProvisionTask) : Bool :=
  match t.phase with
  | .writingPv _ _ | .writingPvc _ => true
  | _ => false

def Knows (key : String) (provisioned : Nat) : ProvisionPhase → Prop
  | .provisioning => provisioned = 0
  | .writingPv _ pvc | .writingPvc pvc =>
    (AnyResource.persistentVolumeClaim pvc).uid = key ∧ (volumeName pvc).isSome = true
  | _ => True

/-- The invariant of the calls for the claim that is stored under `key`. -/
structure ProvisionInv (key uid : String) (d : Dispatcher) (tasks : List ProvisionTask) : Prop where
  own : ∀ t ∈ tasks, claimKey t.pvc = key ∧ (AnyResource.persistentVolumeClaim t.pvc).uid = key ∧
    (t.isDone = false → t.uid = uid)
  alone : tasks.Pairwise fun t t' => ¬ (t.isInside = true ∧ t'.isInside = true)
  marked : ∀ t ∈ tasks, t.isInside = true → d.inflight.containsKey uid = true
  holder : d.inflight.containsKey uid = true → ∃ t ∈ tasks, t.isInside = true
  knows : ∀ t ∈ tasks, Knows key d.provisioned t.phase
  once : d.provisioned ≤ 1
  written : 0 < d.provisioned → boundAt d.store key ∨ ∃ t ∈ tasks, t.isWriting = true

theorem ProvisionTask.isInside_of_isWriting (h : t.isWriting = true) : t.isInside = true := by
  unfold isWriting at h
  unfold isInside
  cases hp : t.phase <;> simp [hp] at h ⊢

theorem knows_of_outside {key : String} {n : Nat} (h : t.isInside = false) : Knows key n t.phase := by
  unfold isInside at h
  cases hp : t.phase <;> simp [hp, Knows] at h ⊢

namespace ProvisionInv

variable {key uid : String} {d d' : Dispatcher} {task task' : ProvisionTask} {tasks tasks' others : List ProvisionTask}

theorem perm (h : ProvisionInv key uid d tasks) (hperm : tasks.Perm tasks') :
    ProvisionInv key uid d tasks' where
  own t ht := h.own t (hperm.mem_iff.2 ht)
  alone := (hperm.pairwise_iff fun hnot ⟨ht, ht'⟩ => hnot ⟨ht', ht⟩).1 h.alone
  marked t ht := h.marked t (hperm.mem_iff.2 ht)
  holder hin := by
    obtain ⟨t, ht, hinside⟩ := h.holder hin
    exact ⟨t, hperm.mem_iff.1 ht, hinside⟩
  knows t ht := h.knows t (hperm.mem_iff.2 ht)
  once := h.once
  written hpos := (h.written hpos).imp_right fun ⟨t, ht, hw⟩ => ⟨t, hperm.mem_iff.1 ht, hw⟩

theorem others_outside (h : ProvisionInv key uid d (task :: others)) (hin : task.isInside = true) :
    ∀ t ∈ others, t.isInside = false := by
  intro t ht
  rw [← Bool.not_eq_true]
  exact fun hin' => (pairwise_cons.1 h.alone).1 t ht ⟨hin, hin'⟩

/-- The calls when the others are outside and the claim or the call that moved accounts for what was
provisioned. -/
theorem of_others_outside (houtside : ∀ t ∈ others, t.isInside = false)
    (hown : ∀ t ∈ task :: others, claimKey t.pvc = key ∧
      (persistentVolumeClaim t.pvc).uid = key ∧ (t.isDone = false → t.uid = uid))
    (hmark : d.inflight.containsKey uid = task.isInside) (hknows : Knows key d.provisioned task.phase)
    (honce : d.provisioned ≤ 1)
    (hwritten : 0 < d.provisioned → boundAt d.store key ∨ task.isWriting = true) :
    ProvisionInv key uid d (task :: others) where
  own := hown
  alone := by
    refine pairwise_cons.2 ⟨fun t ht hboth => ?_, ?_⟩
    · rw [houtside t ht] at hboth
      cases hboth.2
    · refine pairwise_of_forall_mem_list fun t ht t' _ hboth => ?_
      rw [houtside t ht] at hboth
      cases hboth.1
  marked := by
    refine forall_mem_cons.2 ⟨fun hin => hmark.trans hin, fun t ht hin => ?_⟩
    rw [houtside t ht] at hin
    cases hin
  holder hin := ⟨task, mem_cons_self, hmark.symm.trans hin⟩
  knows := forall_mem_cons.2 ⟨hknows, fun t ht => knows_of_outside (houtside t ht)⟩
  once := honce
  written hpos := (hwritten hpos).imp_right fun hw => ⟨task, mem_cons_self, hw⟩

theorem written_inside (h : ProvisionInv key uid d (task :: others)) (hin : task.isInside = true)
    (hnot : task.isWriting = false) (hpos : 0 < d.provisioned) : boundAt d.store key := by
  rcases h.written hpos with hbound | ⟨t, ht, hw⟩
  · exact hbound
  · rcases mem_cons.1 ht with rfl | ht
    · rw [hnot] at hw
      cases hw
    · have hin' := isInside_of_isWriting hw
      rw [h.others_outside hin t ht] at hin'
      cases hin'

theorem move {e : ProvisionEvent} (h : ProvisionInv key uid d (task :: others))
    (hstep : task.step d e = some (d', task')) : ProvisionInv key uid d' (task' :: others) := by
  obtain ⟨htask', hmove⟩ := move_of_step hstep
  obtain ⟨⟨hkey, hstored, huid⟩, hothers⟩ := forall_mem_cons.1 h.own
  have hknows := h.knows task mem_cons_self
  have hmarked := h.marked task mem_cons_self
  obtain ⟨pvc, cls, uid', phase⟩ := task
  obtain ⟨_, _, _, phase'⟩ := task'
  obtain ⟨rfl, rfl, rfl, -⟩ := mk.inj htask'
  -- what the other tasks need when the task that moves is inside before the move
  have hinside := h.others_outside
  have hwritten := h.written_inside
  cases hmove with
  | busy hin =>
    refine ⟨forall_mem_cons.2 ⟨⟨hkey, hstored, nofun⟩, hothers⟩, ?_, ?_, ?_, ?_, h.once, ?_⟩
    · exact pairwise_cons.2 ⟨fun t _ hboth => Bool.false_ne_true hboth.1,
        (pairwise_cons.1 h.alone).2⟩
    · exact forall_mem_cons.2 ⟨nofun, fun t ht => h.marked t (mem_cons_of_mem _ ht)⟩
    · intro hin
      obtain ⟨t, ht, hinside⟩ := h.holder hin
      rcases mem_cons.1 ht with rfl | ht
      · cases hinside
      · exact ⟨t, mem_cons_of_mem _ ht, hinside⟩
    · exact forall_mem_cons.2 ⟨trivial, fun t ht => h.knows t (mem_cons_of_mem _ ht)⟩
    · intro hpos
      refine (h.written hpos).imp_right fun ⟨t, ht, hw⟩ => ?_
      rcases mem_cons.1 ht with rfl | ht
      · cases hw
      · exact ⟨t, mem_cons_of_mem _ ht, hw⟩
  | lock hfree =>
    obtain rfl := huid rfl
    have houtside : ∀ t ∈ others, t.isInside = false := by
      intro t ht
      rw [← Bool.not_eq_true]
      intro hin
      rw [h.marked t (mem_cons_of_mem _ ht) hin] at hfree
      cases hfree
    refine of_others_outside houtside (forall_mem_cons.2 ⟨⟨hkey, hstored, huid⟩, hothers⟩) ?_
      trivial h.once fun hpos => ?_
    · simp [HashMap.containsKey, isInside]
    · refine (h.written hpos).imp_right fun ⟨t, ht, hw⟩ => ?_
      rcases mem_cons.1 ht with rfl | ht
      · cases hw
      · have hin := isInside_of_isWriting hw
        rw [houtside t ht] at hin
        cases hin
  | bound hbound =>
    exact of_others_outside (hinside rfl) (forall_mem_cons.2 ⟨⟨hkey, hstored, huid⟩, hothers⟩)
      (hmarked rfl) trivial h.once fun hpos => .inl (hwritten rfl rfl hpos)
  | unbound hnot =>
    refine of_others_outside (hinside rfl) (forall_mem_cons.2 ⟨⟨hkey, hstored, huid⟩, hothers⟩)
      (hmarked rfl) ?_ h.once fun hpos => .inl (hwritten rfl rfl hpos)
    -- a claim without a volume: no call before has provisioned one
    by_contra hne
    have hbound := hwritten rfl rfl (Nat.pos_of_ne_zero hne)
    rw [← hkey, ← boundInStore_iff, hnot] at hbound
    cases hbound
  | fails he =>
    refine of_others_outside (hinside rfl) (forall_mem_cons.2 ⟨⟨hkey, hstored, huid⟩, hothers⟩)
      (hmarked rfl) trivial h.once fun hpos => .inl (hwritten rfl rfl hpos)
  | provisioned hok =>
    have hzero : d.provisioned = 0 := hknows
    obtain ⟨hmeta, hvol⟩ := doProvision_eq_ok hok
    refine of_others_outside (hinside rfl) (forall_mem_cons.2 ⟨⟨hkey, hstored, huid⟩, hothers⟩)
      (hmarked rfl) ⟨?_, hvol⟩ (by simp [hzero]) fun _ => .inr rfl
    rw [← hstored, uid_persistentVolumeClaim, uid_persistentVolumeClaim, hmeta]
  | writePv =>
    refine of_others_outside (hinside rfl) (forall_mem_cons.2 ⟨⟨hkey, hstored, huid⟩, hothers⟩)
      (hmarked rfl) hknows h.once fun _ => .inr rfl
  | writePvc =>
    obtain ⟨huid', hvol⟩ := hknows
    refine of_others_outside (hinside rfl) (forall_mem_cons.2 ⟨⟨hkey, hstored, huid⟩, hothers⟩)
      (hmarked rfl) trivial h.once fun _ => .inl ⟨_, ?_, hvol⟩
    rw [ResourceStore.get_apply, if_pos huid'.symm]
    rfl
  | unlock =>
    obtain rfl := huid rfl
    refine of_others_outside (hinside rfl) (forall_mem_cons.2 ⟨⟨hkey, hstored, nofun⟩, hothers⟩)
      ?_ trivial h.once fun hpos => .inl (hwritten rfl rfl hpos)
    simp [HashMap.containsKey, HashMap.get_remove, isInside]

end ProvisionInv

/-! ### Whole runs -/

section Runs

variable {uid : String} {inNamespace : Option String} {name : String}

theorem provisionInv_step {s s' : ProvisionSystem} {e : ProvisionSystemEvent}
    (h : ProvisionInv (claimUid inNamespace (some name)) uid s.dispatcher s.tasks)
    (hok : LeavesClaim uid inNamespace (some name) s e) (hstep : s.step e = some s') :
    ProvisionInv (claimUid inNamespace (some name)) uid s'.dispatcher s'.tasks := by
  cases e with
  | call i e =>
    obtain ⟨d', tasks', task, task', others, -, hmove, hperm, hperm', rfl⟩ := stepAt_map_eq_some hstep
    exact ((h.perm hperm).move hmove).perm hperm'.symm
  | other store inflight =>
    cases hstep
    obtain ⟨hsame, hmark⟩ := hok
    have hcontains : inflight.containsKey uid = s.dispatcher.inflight.containsKey uid := by
      unfold HashMap.containsKey
      rw [hmark]
    refine ⟨h.own, h.alone, fun t ht hin => ?_, fun hin => ?_, h.knows, h.once, fun hpos => ?_⟩
    · rw [hcontains]
      exact h.marked t ht hin
    · rw [hcontains] at hin
      exact h.holder hin
    · refine (h.written hpos).imp_left fun ⟨pvc, hget, hvol⟩ => ⟨pvc, ?_, hvol⟩
      rw [hsame]
      exact hget

theorem enter_eq (pvc : PersistentVolumeClaim) :
    (enter pvc).pvc = pvc ∧ (enter pvc).isInside = false ∧
      ((enter pvc).isDone = false →
        pvc.metadata.uid = some (enter pvc).uid) := by
  unfold enter
  split
  · exact ⟨rfl, rfl, nofun⟩
  · exact ⟨rfl, rfl, nofun⟩
  · rename_i cls u hneeds
    refine ⟨rfl, rfl, fun _ => ?_⟩
    unfold needsProvision at hneeds
    split at hneeds
    · cases hneeds
    · split at hneeds
      · cases hneeds
      · split_ifs at hneeds
        · cases hneeds
        · split at hneeds
          · rename_i hu
            obtain ⟨-, rfl⟩ := Prod.mk.inj (Option.some.inj (Except.ok.inj hneeds))
            exact hu
          · cases hneeds

theorem provisionInv_init {inflight : HashMap String Unit} {pvcs : List PersistentVolumeClaim}
    (hsame : ∀ pvc ∈ pvcs, SameClaim uid inNamespace (some name) pvc) (hfree : inflight.get uid = none) :
    ProvisionInv (claimUid inNamespace (some name)) uid
      (init store inflight pvcs).dispatcher
      (init store inflight pvcs).tasks := by
  have hout : ∀ t ∈ pvcs.map enter, t.isInside = false := by
    intro t ht
    obtain ⟨pvc, -, rfl⟩ := mem_map.1 ht
    exact (enter_eq pvc).2.1
  have hin : ∀ t ∈ pvcs.map enter, ¬ t.isInside = true := by
    intro t ht h
    rw [hout t ht] at h
    cases h
  refine ⟨fun t ht => ?_, ?_, fun t ht h => absurd h (hin t ht), fun h => ?_,
    fun t ht => knows_of_outside (hout t ht), Nat.zero_le 1, nofun⟩
  · obtain ⟨pvc, hpvc, rfl⟩ := mem_map.1 ht
    obtain ⟨huid, hns, hname⟩ := hsame pvc hpvc
    obtain ⟨henter, -, hdone⟩ := enter_eq pvc
    have hstored : (persistentVolumeClaim pvc).uid = claimUid inNamespace (some name) := by
      unfold claimUid
      rw [uid_persistentVolumeClaim, uid_persistentVolumeClaim, hns, hname]
    rw [henter, claimKey_eq_uid (by rw [hname]; rfl)]
    exact ⟨hstored, hstored, fun h => Option.some.inj ((hdone h).symm.trans huid)⟩
  · exact pairwise_of_forall_mem_list fun t ht t' _ hboth => hin t ht hboth.1
  · simp [init, HashMap.containsKey, hfree] at h

/-- However the calls for a claim with a name interleave, and whatever their backends answer, at most
one of them provisions a volume, and the last one to return leaves no mark. -/
theorem provisionedOnce_along {store : ResourceStore} {inflight : HashMap String Unit}
    {pvcs : List PersistentVolumeClaim} {es : List ProvisionSystemEvent}
    (hsame : ∀ pvc ∈ pvcs, SameClaim uid inNamespace (some name) pvc)
    (hfree : inflight.get uid = none)
    (hok : Along ProvisionSystem.step (LeavesClaim uid inNamespace (some name))
      (ProvisionSystem.init store inflight pvcs) es) :
    Always ProvisionSystem.step (ProvisionedOnce uid) (ProvisionSystem.init store inflight pvcs) es := by
  refine always_of_invariant
    (I := fun s => ProvisionInv (claimUid inNamespace (some name)) uid s.dispatcher s.tasks)
    (fun s e s' h hok hstep => provisionInv_step h hok hstep) (fun s h => ⟨h.once, fun hdone => ?_⟩)
    (provisionInv_init hsame hfree) hok
  by_contra hne
  have hin : s.dispatcher.inflight.containsKey uid = true := Option.isSome_iff_ne_none.2 hne
  obtain ⟨t, ht, hinside⟩ := h.holder hin
  have hdone := hdone t ht
  unfold isDone at hdone
  unfold isInside at hinside
  cases hp : t.phase <;> simp [hp] at hdone hinside

end Runs

private def dataClaim (name : Option String) : PersistentVolumeClaim where
  metadata := { name, inNamespace := some "default", uid := some "4f1a" }
  spec := some { storageClassName := some "hostpath" }

/-- A call from its beginning to its end with a backend that succeeds. -/
private def wholeCall (i : Nat) : List ProvisionSystemEvent :=
  [.call i .lock, .call i .check, .call i (.backend "0" (.ok ())), .call i .writePv, .call i .writePvc,
    .call i .unlock]

/-- The second call comes while the first one waits for its backend, the third one afterwards. -/
private def threeCalls : List ProvisionSystemEvent :=
  [.call 0 .lock, .call 1 .lock, .call 0 .check, .call 0 (.backend "0" (.ok ())), .call 0 .writePv,
    .call 0 .writePvc, .call 0 .unlock, .call 2 .lock, .call 2 .check, .call 2 .unlock]

theorem provisionedOnce_along_threeCalls :
    (∃ s ∈ run ProvisionSystem.step
        (ProvisionSystem.init .new ∅ (List.replicate 3 (dataClaim (some "data")))) threeCalls,
      s.dispatcher.provisioned = 1 ∧ ∀ t ∈ s.tasks, t.isDone = true) ∧
    Always ProvisionSystem.step (ProvisionedOnce "4f1a")
      (ProvisionSystem.init .new ∅ (List.replicate 3 (dataClaim (some "data")))) threeCalls := by
  have hsame : ∀ pvc ∈ List.replicate 3 (dataClaim (some "data")),
      SameClaim "4f1a" (some "default") (some "data") pvc := by decide +kernel
  have hok : Along step (LeavesClaim "4f1a" (some "default") (some "data"))
      (init .new ∅ (List.replicate 3 (dataClaim (some "data")))) threeCalls := by
    decide +kernel
  exact ⟨by decide +kernel, provisionedOnce_along hsame rfl hok⟩

/-- A claim without a name is written back under another key than it is looked for, so that two calls
one after the other provision its volume twice. -/
theorem nameless_claim_provisioned_twice :
    (∀ pvc ∈ List.replicate 2 (dataClaim none), SameClaim "4f1a" (some "default") none pvc) ∧
    Along ProvisionSystem.step (LeavesClaim "4f1a" (some "default") none)
      (ProvisionSystem.init .new ∅ (List.replicate 2 (dataClaim none))) (wholeCall 0 ++ wholeCall 1) ∧
    ∃ s ∈ run ProvisionSystem.step (ProvisionSystem.init .new ∅ (List.replicate 2 (dataClaim none)))
        (wholeCall 0 ++ wholeCall 1),
      s.dispatcher.provisioned = 2 ∧ ¬ ProvisionedOnce "4f1a" s := by
  decide +kernel

end Z8s.Storage
