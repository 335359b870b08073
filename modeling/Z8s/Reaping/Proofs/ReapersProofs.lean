import Z8s.Reaping.Reapers
import Z8s.Transition.Proofs.RunProofs

/-!
# Proofs: no exit is lost

What a step can do to the exits that are kept (`step_cases`): it moves them around, a child adds a
new one, or the init handler drops one.
-/

namespace Z8s.Reaping

open Rust Collections Z8s.Types Cri Scheduler Transition List Reaper

variable {s s' : ReapState}
variable {ev : ReapEvent} {act : ReaperAct}

theorem waitpid_perm {zombies zombies' : List Exit} {i : Nat} {e : Exit}
    (h : waitpid zombies i = some (e, zombies')) :
    zombies[i]? = some e ∧ zombies.Perm (e :: zombies') := by
  obtain ⟨e', he, heq⟩ := Option.map_eq_some_iff.1 h
  cases heq
  obtain ⟨hlt, rfl⟩ := List.getElem?_eq_some_iff.1 he
  exact ⟨he, (getElem_cons_eraseIdx_perm hlt).symm⟩

/-- A reaper passes on what it collects: zombies, what it holds and what was passed on together stay
the same, and nothing else changes but the tracker. -/
theorem Reaper.step_perm {r r' : Reaper} (h : step s act r = some (s', r')) :
    (s'.zombies ++ r'.holds ++ s'.passed).Perm (s.zombies ++ r.holds ++ s.passed) ∧
      s'.nextSerial = s.nextSerial ∧ s'.recorded = s.recorded := by
  obtain ⟨periodic, phase⟩ := r
  cases act <;> cases phase <;> simp only [step, reduceCtorEq] at h
  case tick.idle =>
    cases h
    exact ⟨.refl _, rfl, rfl⟩
  case wait.reaping i es =>
    obtain ⟨⟨e, zombies⟩, hwait, heq⟩ := Option.map_eq_some_iff.1 h
    cases heq
    refine ⟨?_, rfl, rfl⟩
    have hz := (waitpid_perm hwait).2
    have hmove : (zombies ++ (es ++ [e])).Perm (e :: zombies ++ es) := by
      rw [← append_assoc]
      exact perm_append_singleton e (zombies ++ es)
    exact (hmove.trans (hz.symm.append_right es)).append_right s.passed
  case stop.reaping es =>
    split at h
    · cases h
      exact ⟨.refl _, rfl, rfl⟩
    · simp at h
  case handle.reaped es =>
    cases h
    refine ⟨?_, rfl, rfl⟩
    have hnone : holds ⟨periodic, if periodic then .idle else .finished⟩ = [] := by
      cases periodic <;> rfl
    simp only [hnone, append_nil, append_assoc]
    exact perm_append_comm.append_left s.zombies

namespace ReapState

/-- What a step does to the exits that are kept. -/
inductive Move (s : ReapState) (ev : ReapEvent) (s' : ReapState) : Prop
  | moved (hkept : s'.kept.Perm s.kept) (hserial : s'.nextSerial = s.nextSerial)
      (hrecorded : ∀ e ∈ s'.recorded, e ∈ s.recorded ∨ e ∈ s.kept)
      (hev : SparesRecorded s ev)
  | exited (e : Exit) (hkept : s'.kept.Perm (e :: s.kept)) (hfresh : e.serial = s.nextSerial)
      (hserial : s'.nextSerial = s.nextSerial + 1)
      (hrecorded : ∀ e' ∈ s'.recorded, e' ∈ s.recorded ∨ e' = e)
      (hev : SparesRecorded s ev)
  | dropped (e : Exit) (hkept : s.kept.Perm (e :: s'.kept)) (hserial : s'.nextSerial = s.nextSerial)
      (hrecorded : s'.recorded = s.recorded)
      (hev : SparesRecorded s ev ↔ e ∉ s.recorded)

theorem move_of_reaper {t : Nat} (h : s.step (.reaper t act) = some s') : Move s (.reaper t act) s' := by
  obtain ⟨⟨s₁, reapers⟩, hstep, rfl⟩ := Option.map_eq_some_iff.1 h
  obtain ⟨r, r', others, -, hr, hperm, hperm'⟩ := stepAt_eq_some hstep
  obtain ⟨hkept, hserial, hrecorded⟩ := step_perm hr
  refine .moved ?_ hserial (fun e he => .inl (hrecorded ▸ he)) trivial
  have hold := hperm.flatMap_right holds
  have hnew := hperm'.flatMap_right holds
  simp only [flatMap_cons] at hold hnew
  -- the others' exits are set aside on the right of both sides
  have hcomm : ∀ z h o p : List Exit, (z ++ (h ++ o) ++ p).Perm (z ++ h ++ p ++ o) := by
    intro z h o p
    simp only [append_assoc]
    exact (perm_append_comm.append_left h).append_left z
  calc s₁.zombies ++ reapers.flatMap holds ++ s₁.passed
    _ |>.Perm (s₁.zombies ++ (r'.holds ++ others.flatMap holds) ++ s₁.passed) :=
      (hnew.append_left _).append_right _
    _ |>.Perm (s₁.zombies ++ r'.holds ++ s₁.passed ++ others.flatMap holds) := hcomm ..
    _ |>.Perm (s.zombies ++ r.holds ++ s.passed ++ others.flatMap holds) :=
      hkept.append_right _
    _ |>.Perm (s.zombies ++ (r.holds ++ others.flatMap holds) ++ s.passed) :=
      (hcomm ..).symm
    _ |>.Perm s.kept := (hold.symm.append_left _).append_right _

theorem move_of_step (h : s.step ev = some s') : Move s ev s' := by
  cases ev with
  | childExits pid status =>
    cases h
    refine .exited ⟨s.nextSerial, pid, status⟩ ?_ rfl rfl ?_ trivial
    · simp only [kept, append_assoc]
      exact perm_middle
    · intro e' he'
      dsimp only at he'
      split_ifs at he'
      · simpa using he'
      · exact .inl he'
  | initSignal | initDone =>
    simp only [step, Option.ite_none_right_eq_some] at h
    obtain ⟨-, h⟩ := h
    cases h
    exact .moved (.refl _) rfl (fun e he => .inl he) trivial
  | initWait i =>
    simp only [step, Option.ite_none_right_eq_some] at h
    obtain ⟨-, h⟩ := h
    obtain ⟨⟨e, zombies⟩, hwait, rfl⟩ := Option.map_eq_some_iff.1 h
    obtain ⟨hi, hz⟩ := waitpid_perm hwait
    refine .dropped e ((hz.append_right _).append_right _) rfl rfl ?_
    simp [SparesRecorded, hi]
  | reaper t act => exact move_of_reaper h
  | changes pt =>
    cases h
    refine .moved (.refl _) rfl ?_ trivial
    intro e he
    rcases mem_append.1 he with he | he
    · exact .inl he
    · exact .inr (mem_append_left _ (mem_append_left _ (mem_filter.1 he).1))

/-- The exits that are kept are different, every recorded one is among them, and serial numbers are
used once. -/
structure Inv (s : ReapState) : Prop where
  nodup : s.kept.Nodup
  bound : ∀ e ∈ s.kept, e.serial < s.nextSerial
  recorded : ∀ e ∈ s.recorded, e ∈ s.kept

theorem Inv.exactlyOnce (h : Inv s) : ExactlyOnce s := fun e he =>
  count_eq_one_of_mem h.nodup (h.recorded e he)

theorem inv_step (h : Inv s) (hok : SparesRecorded s ev) (hstep : s.step ev = some s') : Inv s' := by
  cases move_of_step hstep with
  | moved hkept hserial hrecorded =>
    refine ⟨hkept.nodup_iff.2 h.nodup, fun e he => ?_, fun e he => ?_⟩
    · rw [hserial]
      exact h.bound e (hkept.mem_iff.1 he)
    · rcases hrecorded e he with hrec | hkeep
      · exact hkept.mem_iff.2 (h.recorded e hrec)
      · exact hkept.mem_iff.2 hkeep
  | exited e hkept hfresh hserial hrecorded =>
    have hnew : e ∉ s.kept := by
      intro hmem
      have := h.bound e hmem
      omega
    refine ⟨hkept.nodup_iff.2 (nodup_cons.2 ⟨hnew, h.nodup⟩), fun e' he' => ?_,
      fun e' he' => hkept.mem_iff.2 ?_⟩
    · rcases mem_cons.1 (hkept.mem_iff.1 he') with rfl | hmem
      · omega
      · have := h.bound e' hmem
        omega
    · rcases hrecorded e' he' with hrec | rfl
      · exact mem_cons_of_mem _ (h.recorded e' hrec)
      · exact mem_cons_self
  | dropped e hkept hserial hrecorded hev =>
    refine ⟨(nodup_cons.1 (hkept.nodup_iff.1 h.nodup)).2, fun e' he' => ?_, fun e' he' => ?_⟩
    · rw [hserial]
      exact h.bound e' (hkept.mem_iff.2 (mem_cons_of_mem _ he'))
    · rw [hrecorded] at he'
      rcases mem_cons.1 (hkept.mem_iff.1 (h.recorded e' he')) with rfl | hmem
      · exact absurd he' (hev.1 hok)
      · exact hmem

theorem sparesRecorded_of_exactlyOnce (h : Inv s) (hstep : s.step ev = some s') (hs' : ExactlyOnce s') :
    SparesRecorded s ev := by
  cases move_of_step hstep with
  | moved _ _ _ hev => exact hev
  | exited _ _ _ _ _ hev => exact hev
  | dropped e hkept _ hrecorded hev =>
    refine hev.2 fun hrec => ?_
    have honce : s'.kept.count e = 1 := hs' e (hrecorded ▸ hrec)
    have hmem : e ∈ s'.kept := count_pos_iff.1 (by omega)
    exact (nodup_cons.1 (hkept.nodup_iff.1 h.nodup)).1 hmem

theorem inv_init (pt : ProcessTracker) : Inv (init pt) :=
  ⟨nodup_nil, fun _ he => absurd he not_mem_nil, fun _ he => absurd he not_mem_nil⟩

private def webRunning : ProcessTracker where
  sup :=
    { running := HashMap.ofList [("web-app", buildRunningFromInstance "Pod/default/web"
        (buildContainerInstance ⟨"web-app", "app", "nginx", false, false⟩ 100 "/rootfs" none none))]
      restartCounts := ∅
      netmux := ⟨Netmux.IpPool.new ⟨Ipv4Addr.new 10 42 0 0, 30⟩, ∅, 30, Ipv4Addr.new 10 42 0 1⟩ }
  store := .new
  delayed := []

/-- The reconciler collects the exit before the init handler comes to read its signal. -/
private def reconcilerFirst : List ReapEvent :=
  [.childExits 100 (.exited 1), .reaper 1 .tick, .reaper 1 (.wait 0), .initSignal, .initDone,
    .reaper 1 .stop, .reaper 1 .handle]

end ReapState

end Z8s.Reaping
