import Z8s.Program.Query

/-!
# Proofs: programs that ask questions

How runs and soundness compose, and that a sound program comes to a result exactly when every
question it asks is answered (`run_ok_iff`).
-/

namespace Z8s.Program.Query

variable {ι ο ε α β : Type} {answer : ι → Except ε ο}

@[simp] theorem run_pure (a : α) : (Pure.pure a : Query ι ο ε α).run answer = .ok a := rfl

@[simp] theorem run_ask (i : ι) (k : ο → Query ι ο ε α) :
    (ask i k).run answer = (answer i).bind fun o => (k o).run answer := rfl

@[simp] theorem run_bind (q : Query ι ο ε α) (f : α → Query ι ο ε β) :
    (q >>= f).run answer = (q.run answer).bind fun a => (f a).run answer := by
  show (q.bind f).run answer = _
  induction q with
  | pure a => rfl
  | fail e => rfl
  | ask i k ih =>
    simp only [bind, run]
    cases answer i with
    | error e => rfl
    | ok o => exact ih o

theorem sound_pure (a : α) : (Pure.pure a : Query ι ο ε α).Sound answer := trivial

theorem sound_bind {q : Query ι ο ε α} {f : α → Query ι ο ε β} (hq : q.Sound answer)
    (hf : ∀ a, (f a).Sound answer) : (q >>= f).Sound answer := by
  show (q.bind f).Sound answer
  induction q with
  | pure a => exact hf a
  | fail e => exact hq.elim
  | ask i k ih => exact fun o ho => ih o (hq o ho)

/-- A sound program comes to a result exactly when every question it asks is answered. -/
theorem run_ok_iff {q : Query ι ο ε α} (hq : q.Sound answer) :
    (∃ a, q.run answer = .ok a) ↔ ∀ i ∈ q.asked answer, ∃ o, answer i = .ok o := by
  induction q with
  | pure a => exact iff_of_true ⟨a, rfl⟩ fun i hi => absurd hi List.not_mem_nil
  | fail e => exact hq.elim
  | ask i k ih =>
    simp only [asked, List.mem_cons, forall_eq_or_imp, run_ask]
    cases hi : answer i with
    | error e => exact iff_of_false (fun ⟨a, ha⟩ => by cases ha) fun ⟨⟨o, ho⟩, _⟩ => by cases ho
    | ok o =>
      have hk := ih o (hq o hi)
      exact ⟨fun hrun => ⟨⟨o, rfl⟩, hk.1 hrun⟩, fun hall => hk.2 hall.2⟩

theorem countP_asked_ask {P : ι → Bool} {i : ι} {k : ο → Query ι ο ε α} {n : Nat}
    (h : ∀ o, ((k o).asked answer).countP P ≤ n) :
    ((ask i k).asked answer).countP P ≤ n + if P i then 1 else 0 := by
  rw [asked, List.countP_cons]
  refine Nat.add_le_add_right ?_ _
  cases answer i with
  | error e => exact Nat.zero_le n
  | ok o => exact h o

end Z8s.Program.Query
