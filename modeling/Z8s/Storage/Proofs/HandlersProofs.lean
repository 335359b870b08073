import Z8s.Storage.Handlers
import Z8s.Storage.Proofs.BindingProofs

/-!
# Proofs: handlers of volumes and claims at the same time

While at most one handler is between its list and its last write, the store is consistent but for the
half of the binding that this handler has written.
-/

namespace Z8s.Storage

open Z8s.Types Transition BindTask List

theorem Consistent.noSharedVolume {store : ResourceStore} (h : Consistent store) :
    NoSharedVolume store where
  unshared := h.oneClaimPerVolume.unshared
  own c hc pv hpv hcarries ref href := by
    obtain ⟨pv', hpv', hname, ref', href', hrefers⟩ := h.referred c hc _ hcarries
    obtain rfl := eq_of_pvName hpv hpv' hname.symm
    obtain rfl := Option.some.inj (href.symm.trans href')
    exact hrefers

theorem Consistent.noSharedVolume_half {store : ResourceStore} {pv : PersistentVolume}
    {pvc : PersistentVolumeClaim} (h : Consistent store) (hbinds : Binds store pv pvc) :
    NoSharedVolume (store.apply (.persistentVolume pv)) where
  unshared c hc c' hc' :=
    h.oneClaimPerVolume.unshared c (mem_claims_apply_pv.1 hc) c' (mem_claims_apply_pv.1 hc')
  own c hc pv' hpv' hcarries := by
    rw [mem_claims_apply_pv] at hc
    rcases mem_volumes_apply_pv.1 hpv' with rfl | ⟨-, hpv'⟩
    · obtain ⟨pv₀, hpv₀, hname, hnone⟩ := hbinds.volume
      rw [← hname] at hcarries
      exact absurd hcarries (h.uncarried hpv₀ hnone c hc)
    · exact h.noSharedVolume.own c hc pv' hpv' hcarries

def BindPhaseInv (store : ResourceStore) : BindPhase → Prop
  | .writingPv pv pvc => Consistent store ∧ Binds store pv pvc
  | .writingPvc pvc => ∃ s₀ pv, store = s₀.apply (.persistentVolume pv) ∧ Consistent s₀ ∧ Binds s₀ pv pvc
  | _ => True

def BindTask.WellFormed (t : BindTask) : Prop :=
  match t.phase, t.posted with
  | .listing, .volume pv => claimRef pv = none
  | .listing, .claim pvc => volumeName pvc = none
  | _, _ => True

structure BindInv (store : ResourceStore) (tasks : List BindTask) : Prop where
  wf : ∀ t ∈ tasks, t.WellFormed
  alone : tasks.Pairwise fun t t' => ¬ (t.isBinding = true ∧ t'.isBinding = true)
  knows : ∀ t ∈ tasks, BindPhaseInv store t.phase
  idle : (∀ t ∈ tasks, t.isBinding = false) → Consistent store

namespace BindInv

variable {store store' : ResourceStore} {task task' : BindTask} {tasks tasks' others : List BindTask}

theorem noSharedVolume (h : BindInv store tasks) : NoSharedVolume store := by
  by_cases hidle : ∀ t ∈ tasks, t.isBinding = false
  · exact (h.idle hidle).noSharedVolume
  · push Not at hidle
    obtain ⟨t, ht, hbinding⟩ := hidle
    have hknows := h.knows t ht
    unfold isBinding at hbinding
    cases hp : t.phase with
    | writingPv pv pvc =>
      rw [hp] at hknows
      exact hknows.1.noSharedVolume
    | writingPvc pvc =>
      rw [hp] at hknows
      obtain ⟨s₀, pv, rfl, hcons, hbinds⟩ := hknows
      exact hcons.noSharedVolume_half hbinds
    | _ => simp [hp] at hbinding

theorem perm (h : BindInv store tasks) (hperm : tasks.Perm tasks') : BindInv store tasks' where
  wf t ht := h.wf t (hperm.mem_iff.2 ht)
  alone := (hperm.pairwise_iff fun hnot ⟨ht, ht'⟩ => hnot ⟨ht', ht⟩).1 h.alone
  knows t ht := h.knows t (hperm.mem_iff.2 ht)
  idle hidle := h.idle fun t ht => hidle t (hperm.mem_iff.1 ht)

theorem others_idle (h : BindInv store (task :: others)) (hbinding : task.isBinding = true) :
    ∀ t ∈ others, t.isBinding = false := by
  intro t ht
  rw [← Bool.not_eq_true]
  exact fun hbinding' => (pairwise_cons.1 h.alone).1 t ht ⟨hbinding, hbinding'⟩

theorem knows_of_idle {t : BindTask} (h : t.isBinding = false) : BindPhaseInv store t.phase := by
  unfold isBinding at h
  cases hp : t.phase <;> simp [hp, BindPhaseInv] at h ⊢

theorem of_others_idle (hwf : ∀ t ∈ task :: others, t.WellFormed)
    (hothers : ∀ t ∈ others, t.isBinding = false) (hknows : BindPhaseInv store task.phase)
    (hidle : task.isBinding = false → Consistent store) : BindInv store (task :: others) where
  wf := hwf
  alone := by
    refine pairwise_cons.2 ⟨fun t ht hboth => ?_, ?_⟩
    · rw [hothers t ht] at hboth
      cases hboth.2
    · refine pairwise_of_forall_mem_list fun t ht t' _ hboth => ?_
      rw [hothers t ht] at hboth
      cases hboth.1
  knows := forall_mem_cons.2 ⟨hknows, fun t ht => knows_of_idle (hothers t ht)⟩
  idle h := hidle (h task mem_cons_self)

theorem move {e : BindEvent} (h : BindInv store (task :: others))
    (hok : ∀ trackers, e = .list trackers →
      (∀ t ∈ task :: others, t.isBinding = false) ∧ task.posted.Held store)
    (hstep : task.step store e = some (store', task')) : BindInv store' (task' :: others) := by
  have hothers : ∀ t ∈ others, t.WellFormed := fun t ht => h.wf t (mem_cons_of_mem _ ht)
  have hknows := h.knows task mem_cons_self
  have hwf := h.wf task mem_cons_self
  cases e with
  | list trackers =>
    obtain ⟨hidle, hheld⟩ := hok trackers rfl
    have hcons := h.idle hidle
    have hidle' : ∀ t ∈ others, t.isBinding = false := fun t ht => hidle t (mem_cons_of_mem _ ht)
    simp only [step] at hstep
    split at hstep
    · rename_i hphase
      split_ifs at hstep with hperm
      split at hstep <;> cases hstep
      · rename_i pv pvc hbind
        have hbinds : Binds store pv pvc := by
          unfold BindTask.WellFormed at hwf
          cases hposted : task.posted with
          | volume pv₀ =>
            rw [hposted] at hbind hheld hperm
            rw [hphase, hposted] at hwf
            exact (binds_of_bindVolume hperm hheld hwf hbind).1
          | claim pvc₀ =>
            rw [hposted] at hbind hheld hperm
            rw [hphase, hposted] at hwf
            exact (binds_of_bindClaim hperm hheld hwf hbind).1
        exact of_others_idle (forall_mem_cons.2 ⟨trivial, hothers⟩) hidle' ⟨hcons, hbinds⟩ nofun
      · exact of_others_idle (forall_mem_cons.2 ⟨trivial, hothers⟩) hidle' trivial fun _ => hcons
    · cases hstep
  | writePv =>
    simp only [step] at hstep
    split at hstep
    · rename_i pv pvc hphase
      cases hstep
      rw [hphase] at hknows
      have hidle := h.others_idle (by simp [isBinding, hphase])
      exact of_others_idle (forall_mem_cons.2 ⟨trivial, hothers⟩) hidle
        ⟨store, pv, rfl, hknows.1, hknows.2⟩ nofun
    · cases hstep
  | writePvc =>
    simp only [step] at hstep
    split at hstep
    · rename_i pvc hphase
      cases hstep
      rw [hphase] at hknows
      obtain ⟨s₀, pv, rfl, hcons, hbinds⟩ := hknows
      have hidle := h.others_idle (by simp [isBinding, hphase])
      exact of_others_idle (forall_mem_cons.2 ⟨trivial, hothers⟩) hidle trivial
        fun _ => hcons.writeBinding hbinds
    · cases hstep

theorem step {s s' : BindSystem} {e : BindSystemEvent} (h : BindInv s.store s.tasks)
    (hok : ListsAlone s e) (hstep : s.step e = some s') : BindInv s'.store s'.tasks := by
  obtain ⟨store', tasks', task, task', others, hget, hmove, hperm, hperm', rfl⟩ := stepAt_map_eq_some hstep
  refine ((h.perm hperm).move (fun trackers he => ?_) hmove).perm hperm'.symm
  simp only [ListsAlone, he] at hok
  exact ⟨fun t ht => hok.1 t (hperm.mem_iff.2 ht), hok.2 task hget⟩

theorem wellFormed_enter (p : Posted) : (enter p).WellFormed := by
  cases p with
  | volume pv =>
    simp only [enter, BindTask.WellFormed]
    by_cases hlooks : looksForClaim pv = true
    · rw [if_pos hlooks]
      exact Option.isNone_iff_eq_none.1 ((Bool.and_eq_true _ _).mp hlooks).1
    · rw [if_neg hlooks]
      trivial
  | claim pvc =>
    simp only [enter, BindTask.WellFormed]
    by_cases hvol : (volumeName pvc).isSome = true
    · rw [if_pos hvol]
      trivial
    · rw [if_neg hvol]
      split_ifs
      · trivial
      · exact Option.not_isSome_iff_eq_none.1 hvol

theorem not_isBinding_enter (p : Posted) : (enter p).isBinding = false := by
  unfold isBinding enter
  cases p <;> dsimp only <;> split_ifs <;> rfl

theorem init {posted : List Posted} (h : Consistent store) :
    BindInv (BindSystem.init store posted).store (BindSystem.init store posted).tasks := by
  have hidle : ∀ t ∈ posted.map enter, t.isBinding = false := by
    intro t ht
    obtain ⟨p, -, rfl⟩ := mem_map.1 ht
    exact not_isBinding_enter p
  refine ⟨fun t ht => ?_, ?_, fun t ht => knows_of_idle (hidle t ht), fun _ => h⟩
  · obtain ⟨p, -, rfl⟩ := mem_map.1 ht
    exact wellFormed_enter p
  · refine pairwise_of_forall_mem_list fun t ht t' _ hboth => ?_
    rw [hidle t ht] at hboth
    cases hboth.1

end BindInv

/-- Handlers at the same time keep the volumes apart while each one lists only when no other one is
about to write a binding, and when its own object is as it was posted. -/
theorem noSharedVolume_along {store : ResourceStore} {posted : List Posted} {es : List BindSystemEvent}
    (hcons : Consistent store)
    (hok : Along BindSystem.step ListsAlone (BindSystem.init store posted) es) :
    Always BindSystem.step (fun s => NoSharedVolume s.store) (BindSystem.init store posted) es :=
  always_of_invariant (I := fun s => BindInv s.store s.tasks) (fun _ _ _ h hok hstep => h.step hok hstep)
    (fun _ h => h.noSharedVolume) (BindInv.init hcons) hok

private def freePv : PersistentVolume where
  metadata := { name := some "v", uid := some "1" }
  spec := some {}

private def freePvc (name : String) : PersistentVolumeClaim where
  metadata := { name := some name, inNamespace := some "default", uid := some "2" }
  spec := some {}

/-- The halves of the binding of `v` and a claim. -/
private def takenPv (claim : String) : PersistentVolume where
  metadata := { name := some "v", uid := some "1" }
  spec := some { claimRef := some ⟨some "PersistentVolumeClaim", some claim, some "default"⟩ }
  status := some { phase := some "Bound" }

private def takingPvc (name : String) : PersistentVolumeClaim where
  metadata := { name := some name, inNamespace := some "default", uid := some "2" }
  spec := some { volumeName := some "v" }
  status := some { phase := some "Bound" }

private def threePosted : ResourceStore :=
  ((ResourceStore.new.apply (.persistentVolume freePv)).apply
    (.persistentVolumeClaim (freePvc "c"))).apply (.persistentVolumeClaim (freePvc "d"))

private def bothClaims : List Posted := [.claim (freePvc "c"), .claim (freePvc "d")]

private def listed (pv : PersistentVolume) : BindEvent := .list [.new (.persistentVolume pv)]

private def apart : List BindSystemEvent :=
  [⟨0, listed freePv⟩, ⟨0, .writePv⟩, ⟨0, .writePvc⟩, ⟨1, listed (takenPv "c")⟩]

theorem noSharedVolume_along_apart :
    (∃ s ∈ run BindSystem.step (BindSystem.init threePosted bothClaims) apart,
      volumes s.store = [takenPv "c"] ∧ claims s.store = [takingPvc "c", freePvc "d"]) ∧
    Always BindSystem.step (fun s => NoSharedVolume s.store) (BindSystem.init threePosted bothClaims)
      apart := by
  have hcons : Consistent threePosted := by decide +kernel
  exact ⟨by decide +kernel, noSharedVolume_along hcons (by decide +kernel)⟩

private def together : List BindSystemEvent :=
  [⟨0, listed freePv⟩, ⟨1, listed freePv⟩, ⟨0, .writePv⟩, ⟨0, .writePvc⟩, ⟨1, .writePv⟩, ⟨1, .writePvc⟩]

/-- Both handlers list the volume before either one writes, and both claims get it. -/
theorem two_claims_share_volume :
    Consistent threePosted ∧
    ∃ s ∈ run BindSystem.step (BindSystem.init threePosted bothClaims) together,
      volumes s.store = [takenPv "d"] ∧ claims s.store = [takingPvc "d", takingPvc "c"] ∧
        ¬ NoSharedVolume s.store := by
  decide +kernel

/-! ### A handler without interruption -/

variable {store store' : ResourceStore} {posted : Posted} {t : BindTask} {s s' : ResourceStore × BindTask} {e : BindEvent}

/-- The store when what the handler has decided on is written. -/
def finish (s : ResourceStore × BindTask) : ResourceStore :=
  match s.2.phase with
  | .writingPv pv pvc => writeBinding s.1 pv pvc
  | .writingPvc pvc => s.1.apply (.persistentVolumeClaim pvc)
  | _ => s.1

theorem finish_step (h : s.2.phase ≠ .listing) (hstep : s.2.step s.1 e = some s') :
    s'.2.phase ≠ .listing ∧ finish s' = finish s := by
  obtain ⟨store, posted, phase⟩ := s
  cases phase with
  | listing => exact absurd rfl h
  | writingPv | writingPvc =>
    cases e <;> cases hstep
    exact ⟨by simp, rfl⟩
  | provisioning | done => cases e <;> cases hstep

/-- What `on_apply` makes of the store in one go. -/
def Posted.onApply (store : ResourceStore) (trackers : List ResourceTracker) : Posted → ResourceStore
  | .volume pv => onApplyPv store pv trackers
  | .claim pvc => onApplyPvc store pvc trackers "" (.ok ())

theorem start_step (hstep : (enter posted).step store e = some s) :
    s.2.phase ≠ .listing ∧ ∃ trackers, trackers.Perm (store.getByKind posted.listedKind) ∧
      finish s = posted.onApply store trackers := by
  cases e with
  | list trackers =>
    refine ⟨?_, trackers, ?_⟩ <;> cases posted <;>
      grind [BindTask.step, enter, finish, Posted.onApply, onApplyPv, onApplyPvc, Posted.bind]
  | _ => cases posted <;> grind [BindTask.step, enter]

/-- A handler that is through did what `on_apply` does in one go with a list of what it found. -/
theorem onApply_of_uninterrupted {es : List BindEvent}
    (hrun : run (Function.uncurry BindTask.step) (store, enter posted) es = some (store', t))
    (hdone : t.phase = .done) : ∃ trackers, trackers.Perm (store.getByKind posted.listedKind) ∧
      store' = posted.onApply store trackers := by
  cases es with
  | nil =>
    cases hrun
    refine ⟨_, .refl _, ?_⟩
    cases posted <;> grind [enter, Posted.onApply, onApplyPv, onApplyPvc]
  | cons e es =>
    obtain ⟨s, hstep, hrun⟩ := run_cons_eq_some.1 hrun
    obtain ⟨hs, trackers, hperm, hfin⟩ := start_step hstep
    have hend := invariant_of_run (I := fun r => r.2.phase ≠ .listing ∧ finish r = finish s)
      (fun _ _ _ h hstep => (finish_step h.1 hstep).imp_right (·.trans h.2)) ⟨hs, rfl⟩ hrun
    refine ⟨trackers, hperm, ?_⟩
    rw [← hfin, ← hend.2, finish, hdone]

theorem first_claim_bound : ∃ trackers, trackers.Perm (threePosted.getByKind "PersistentVolume") ∧
    writeBinding threePosted (takenPv "c") (takingPvc "c") = (Posted.claim (freePvc "c")).onApply threePosted trackers := by
  have hrun : run (Function.uncurry BindTask.step) (threePosted, enter (.claim (freePvc "c")))
    [listed freePv, .writePv, .writePvc] = some (writeBinding threePosted (takenPv "c") (takingPvc "c"), _) := rfl
  exact onApply_of_uninterrupted hrun rfl

end Z8s.Storage
