import Z8s.Nftables.Proofs.RulesetProofs

/-!
# Proofs: scripts of batches

What one batch does whatever becomes of it, the invariant rule for scripts, and the exact result of a
script that appends rules to one chain.
-/

namespace Z8s.Nftables

open Script List

variable {ε β μ : Type} {report : SendError → Except ε Unit} {rs rs' : Ruleset β μ}

@[simp] theorem exec_singleton (m : Msg β μ) : Batch.exec rs [m] = m.exec rs := by
  unfold Batch.exec
  cases h : m.exec rs <;> simp [h, List.foldlM, bind, Except.bind, pure, Except.pure]

theorem exec_cons_ok {m : Msg β μ} (h : m.exec rs = .ok rs') (b : Batch β μ) :
    Batch.exec rs (m :: b) = Batch.exec rs' b := by
  simp [Batch.exec, List.foldlM, h, bind, Except.bind]

theorem send_fst (b : Batch β μ) (o : Outcome) :
    (send report rs b o).1 = if o.executes then (b.exec rs).toOption.getD rs else rs := by
  cases o with
  | answered =>
    simp only [send, Outcome.executes, if_true]
    cases b.exec rs <;> rfl
  | failed executed e => cases executed <;> rfl

theorem send_snd_of_ok {b : Batch β μ} (h : b.exec rs = .ok rs') (o : Outcome) :
    (send report rs b o).2 = o.result report := by
  cases o with
  | answered => simp [send, h, Outcome.result]
  | failed executed e => rfl

theorem send_snd_of_error {b : Batch β μ} {e : Errno} (h : b.exec rs = .error e) (o : Outcome) :
    (send report rs b o).2 =
      if o = .answered then report (.netlink e.code) else o.result report := by
  cases o with
  | answered => simp [send, h]
  | failed executed e => rfl

theorem andThen_error {σ α : Type} {r : σ × Except ε Unit} {next : σ → σ × Except ε α} {e : ε}
    (h : r.2 = .error e) : andThen r next = (r.1, .error e) := by
  simp [andThen, h]

theorem andThen_ok {σ α : Type} {r : σ × Except ε Unit} {next : σ → σ × Except ε α}
    (h : r.2 = .ok ()) : andThen r next = next r.1 := by
  simp [andThen, h]

@[simp] theorem andThen_fst {σ α : Type} (r : σ × Except ε Unit) (a : α) :
    (andThen r fun s => (s, .ok a)).1 = r.1 := by
  cases h : r.2 with
  | error e => rw [andThen_error h]
  | ok u => rw [andThen_ok h]

theorem andThen_keeps {σ α : Type} {P : σ → Prop} {r : σ × Except ε Unit} {next : σ → σ × Except ε α} (hr : P r.1)
    (hnext : ∀ s, P s → P (next s).1) : P (andThen r next).1 := by
  unfold andThen
  split
  · exact hr
  · exact hnext _ hr

theorem run_cons_ok (b : Batch β μ) (rest : Script ε β μ) (out : Nat → Outcome) :
    run report rs out (.ok b :: rest) =
      andThen (send report rs b (out 0)) fun rs' => run report rs' (fun n => out (n + 1)) rest :=
  rfl

theorem run_append (first second : Script ε β μ) (out : Nat → Outcome) :
    run report rs out (first ++ second) =
      andThen (run report rs out first) fun rs' =>
        run report rs' (fun n => out (n + first.length)) second := by
  induction first generalizing rs out with
  | nil => rfl
  | cons step first ih =>
    cases step with
    | error e => rfl
    | ok b =>
      rw [cons_append, run_cons_ok, run_cons_ok]
      cases hsent : (send report rs b (out 0)).2 with
      | error e => rw [andThen_error hsent, andThen_error hsent, andThen_error rfl]
      | ok u =>
        rw [andThen_ok hsent, andThen_ok hsent, ih]
        rfl

/-- What every batch of a script keeps when the kernel carries it out, the script keeps, wherever it
ends. -/
theorem run_invariant {P : Ruleset β μ → Prop} {script : Script ε β μ}
    (hstep : ∀ b, .ok b ∈ script → ∀ rs rs', P rs → b.exec rs = .ok rs' → P rs') (out : Nat → Outcome)
    (hP : P rs) : P (run report rs out script).1 := by
  induction script generalizing rs out with
  | nil => exact hP
  | cons step rest ih =>
    cases step with
    | error e => exact hP
    | ok b =>
      have hsent : P (send report rs b (out 0)).1 := by
        rw [send_fst]
        split_ifs
        · cases hb : b.exec rs with
          | error e => exact hP
          | ok rs' => exact hstep b mem_cons_self rs rs' hP hb
        · exact hP
      rw [run_cons_ok]
      exact andThen_keeps hsent fun _ => ih (fun b hb => hstep b (mem_cons_of_mem _ hb)) _

theorem rules_eq_ite {table chain : String} {rules : Option (List (Rule μ))} (h : rs.rules table chain = rules)
    (t c : String) : rs.rules t c = if t = table ∧ c = chain then rules else rs.rules t c := by
  split_ifs with hc
  · rw [hc.1, hc.2, h]
  · rfl

section Chains

variable {table chain : String}

section

variable (report : SendError → Except ε Unit)

theorem send_delChain_kept {o : Outcome} (h : o.executes = true → rs.Targeted table chain) :
    (send report rs [.delChain table chain] o).1 = rs := by
  rw [send_fst, exec_singleton]
  split_ifs with ho
  · cases hexec : (Msg.delChain table chain).exec rs with
    | error e => rfl
    | ok rs' => exact absurd (h ho) (not_targeted_of_delChain hexec)
  · rfl

theorem rules_send_delChain {o : Outcome} (ho : o.executes = true)
    (h : ¬ rs.Targeted table chain) (t c : String) :
    (send report rs [.delChain table chain] o).1.rules t c =
      if t = table ∧ c = chain then none else rs.rules t c := by
  rw [send_fst, exec_singleton, if_pos ho]
  cases hexec : (Msg.delChain table chain).exec rs with
  | ok rs' => exact rules_delChain hexec t c
  | error e =>
    rcases exec_delChain_error hexec with ⟨-, hnone⟩ | ⟨-, htargeted⟩
    · simp only [Except.toOption, Option.getD_none]
      exact rules_eq_ite hnone t c
    · exact absurd htargeted h

theorem isSome_get_send_delChain (table chain : String) (o : Outcome) {t : String} (h : (rs.get t).isSome) :
    ((send report rs [.delChain table chain] o).1.get t).isSome := by
  rw [send_fst, exec_singleton]
  split_ifs
  · cases hexec : (Msg.delChain table chain).exec rs with
    | error e => exact h
    | ok rs' => exact Ruleset.isSome_get_modify hexec h
  · exact h

theorem rules_send_addChain (chain : String)
    (h : (rs.get table).isSome) (base : Option β) (o : Outcome) (t c : String) :
    (send report rs [.addChain table chain base] o).1.rules t c =
      if (t = table ∧ c = chain) ∧ o.executes = true then some ((rs.rules table chain).getD [])
      else rs.rules t c := by
  obtain ⟨rs', hexec⟩ := exec_addChain chain h base
  rw [send_fst, exec_singleton, hexec]
  cases ho : o.executes with
  | true =>
    simp only [if_true, Except.toOption, Option.getD_some, and_true]
    exact rules_addChain hexec t c
  | false => simp

end

end Chains

section Jump

variable {table hook svc : String}

section

variable (report : SendError → Except ε Unit)

/-- A jump is added exactly when the batch is carried out and both chains exist; a rule that is added
removes no chain. -/
theorem rules_send_jump {old : List (Rule μ)}
    (hhook : rs.rules table hook = some old) (o : Outcome) (t c : String) :
    (send report rs [.addRule table hook { verdict := .jump svc }] o).1.rules t c =
      if t = table ∧ c = hook then
        some (old ++ if (rs.rules table svc).isSome ∧ o.executes then [{ verdict := .jump svc }] else [])
      else rs.rules t c := by
  rw [send_fst, exec_singleton]
  by_cases hsvc : (rs.rules table svc).isSome
  · have htarget (target : String) (ht : Verdict.jump svc = .jump target) : (rs.rules table target).isSome := by
      rw [← Verdict.jump.inj ht]
      exact hsvc
    obtain ⟨rs', hok⟩ := (exec_addRule_iff { verdict := .jump svc }).2 ⟨by rw [hhook]; rfl, htarget⟩
    rw [hok]
    cases ho : o.executes with
    | true =>
      simp only [if_true, Except.toOption, Option.getD_some, hsvc, and_self]
      rw [rules_addRule hok, hhook]
      rfl
    | false =>
      simp only [Bool.false_eq_true, if_false, and_false, append_nil]
      exact rules_eq_ite hhook t c
  · have hrefused : ((Msg.addRule table hook { verdict := .jump svc }).exec rs).toOption = none := by
      cases hexec : (Msg.addRule table hook { verdict := .jump svc }).exec rs with
      | error e => rfl
      | ok rs' => exact absurd (((exec_addRule_iff _).1 ⟨rs', hexec⟩).2 svc rfl) hsvc
    rw [hrefused]
    simp only [Option.getD_none, ite_self, hsvc, Bool.false_eq_true, false_and, if_false, append_nil]
    exact rules_eq_ite hhook t c

theorem jumpCount_send_jump (hhook : (rs.rules table hook).isSome) (o : Outcome) (c target : String) :
    (send report rs [.addRule table hook { verdict := .jump svc }] o).1.jumpCount table c target =
      rs.jumpCount table c target +
        if c = hook ∧ target = svc ∧ (rs.rules table svc).isSome ∧ o.executes then 1 else 0 := by
  obtain ⟨old, hold⟩ := Option.isSome_iff_exists.1 hhook
  unfold Ruleset.jumpCount
  rw [rules_send_jump report hold]
  by_cases hc : c = hook
  · subst hc
    rw [hold]
    by_cases hadded : (rs.rules table svc).isSome ∧ o.executes
    · by_cases htarget : target = svc
      · simp [hadded, htarget]
      · simp [hadded, htarget, Ne.symm htarget]
    · simp [hadded]
  · simp [hc]

theorem isSome_rules_send_jump (hhook : (rs.rules table hook).isSome) (o : Outcome) (t c : String) :
    ((send report rs [.addRule table hook { verdict := .jump svc }] o).1.rules t c).isSome =
      (rs.rules t c).isSome := by
  obtain ⟨old, hold⟩ := Option.isSome_iff_exists.1 hhook
  rw [rules_send_jump report hold]
  by_cases hc : t = table ∧ c = hook
  · rw [if_pos hc, hc.1, hc.2, hold]
    rfl
  · rw [if_neg hc]

end

end Jump

section Append

variable {table chain : String} {steps : List (Except ε (Rule μ))}

def NoJumps (steps : List (Except ε (Rule μ))) : Prop :=
  ∀ r, .ok r ∈ steps → ∀ target, r.verdict ≠ .jump target

theorem rules_send_addRule (report : SendError → Except ε Unit) {old : List (Rule μ)} {r : Rule μ}
    (h : rs.rules table chain = some old) (hjump : ∀ target, r.verdict ≠ .jump target) (o : Outcome) :
    (∀ t c, (send report rs [.addRule table chain r] o).1.rules t c =
      if t = table ∧ c = chain then some (old ++ if o.executes then [r] else []) else rs.rules t c) ∧
    (send report rs [.addRule table chain r] o).2 = o.result report := by
  obtain ⟨rs', hok⟩ := (exec_addRule_iff r).2 ⟨by rw [h]; rfl, fun target ht => absurd ht (hjump target)⟩
  have hexec : Batch.exec rs [.addRule table chain r] = .ok rs' := by rw [exec_singleton, hok]
  refine ⟨fun t c => ?_, send_snd_of_ok hexec o⟩
  rw [send_fst, hexec]
  cases o.executes with
  | true =>
    simp only [if_true, Except.toOption, Option.getD_some]
    rw [rules_addRule hok, h]
    rfl
  | false =>
    simp only [Bool.false_eq_true, if_false, append_nil]
    exact rules_eq_ite h t c

theorem rules_appendScript {old : List (Rule μ)} (h : rs.rules table chain = some old)
    (hjump : NoJumps steps) (out : Nat → Outcome) (t c : String) :
    (run report rs out (appendScript table chain steps)).1.rules t c =
      if t = table ∧ c = chain then some (old ++ appended report out steps) else rs.rules t c := by
  induction steps generalizing rs old out with
  | nil =>
    simp only [appendScript, map_nil, run, appended, append_nil]
    exact rules_eq_ite h t c
  | cons step rest ih =>
    cases step with
    | error e =>
      simp only [appendScript, map_cons, Except.map, run, appended, append_nil]
      exact rules_eq_ite h t c
    | ok r =>
      obtain ⟨hrules, hresult⟩ :=
        rules_send_addRule report h (hjump r mem_cons_self) (out 0)
      have hcons : appendScript (β := β) table chain (.ok r :: rest) =
          .ok [.addRule table chain r] :: appendScript table chain rest := rfl
      rw [hcons, run_cons_ok]
      cases hres : (out 0).result report with
      | error e =>
        rw [hres] at hresult
        rw [andThen_error hresult]
        simp only [appended, hres, Except.isOk, Except.toBool, Bool.false_eq_true, if_false, append_nil]
        exact hrules t c
      | ok u =>
        rw [hres] at hresult
        have hchain := hrules table chain
        rw [if_pos ⟨rfl, rfl⟩] at hchain
        rw [andThen_ok hresult, ih hchain fun r hr => hjump r (mem_cons_of_mem _ hr)]
        simp only [appended, hres, Except.isOk, Except.toBool, if_true]
        rw [hrules, append_assoc]
        split_ifs <;> rfl

theorem appended_answered (report : SendError → Except ε Unit) (hsteps : ∀ step ∈ steps, step.isOk = true)
    {out : Nat → Outcome} (hout : ∀ n, out n = .answered) :
    appended report out steps = steps.filterMap Except.toOption := by
  induction steps generalizing out with
  | nil => rfl
  | cons step steps ih =>
    cases step with
    | error e => cases hsteps _ mem_cons_self
    | ok r =>
      have htail := ih (fun step h => hsteps step (mem_cons_of_mem _ h)) fun n => hout (n + 1)
      simp [appended, hout 0, Outcome.executes, Outcome.result, Except.isOk, Except.toBool, htail,
        Except.toOption]

theorem run_appendScript_answered (report : SendError → Except ε Unit) {old rules : List (Rule μ)}
    (h : rs.rules table chain = some old) (hjump : NoJumps (rules.map (Except.ok (ε := ε))))
    (out : Nat → Outcome) (hout : ∀ n, out n = .answered) :
    (run report rs out (appendScript table chain (rules.map .ok))).2 = .ok () ∧
    ∀ t c, (run report rs out (appendScript table chain (rules.map .ok))).1.rules t c =
      if t = table ∧ c = chain then some (old ++ rules) else rs.rules t c := by
  constructor
  · induction rules generalizing rs old out with
    | nil => rfl
    | cons r rules ih =>
      obtain ⟨hrules, hresult⟩ :=
        rules_send_addRule report h (hjump r mem_cons_self) (out 0)
      have hchain := hrules table chain
      rw [if_pos ⟨rfl, rfl⟩] at hchain
      have hanswer : (out 0).result report = .ok () := by
        rw [hout 0]
        rfl
      have hcons : appendScript (β := β) table chain ((r :: rules).map (Except.ok (ε := ε))) =
          .ok [.addRule table chain r] :: appendScript table chain (rules.map .ok) := rfl
      rw [hcons, run_cons_ok, andThen_ok (hresult.trans hanswer)]
      exact ih hchain (fun r hr => hjump r (mem_cons_of_mem _ hr)) _ fun n => hout (n + 1)
  · intro t c
    have hsteps : ∀ step ∈ rules.map (Except.ok (ε := ε)), step.isOk = true := by
      intro step hstep
      obtain ⟨r, -, rfl⟩ := mem_map.1 hstep
      rfl
    have hall : (rules.map (Except.ok (ε := ε))).filterMap Except.toOption = rules := by
      simp [filterMap_map, Function.comp_def, Except.toOption]
    rw [rules_appendScript h hjump, appended_answered report hsteps hout, hall]

theorem rules_appendScript_of_none (h : rs.rules table chain = none) (out : Nat → Outcome) :
    (run report rs out (appendScript table chain steps)).1 = rs := by
  refine run_invariant (P := fun rs' => rs' = rs) (fun b hb rs₁ rs₂ heq hexec => ?_) out rfl
  obtain ⟨step, -, hstep⟩ := mem_map.1 hb
  cases step with
  | error e => cases hstep
  | ok r =>
    obtain rfl := Except.ok.inj hstep
    subst heq
    rw [exec_singleton] at hexec
    have hsome := ((exec_addRule_iff r).1 ⟨_, hexec⟩).1
    rw [h] at hsome
    cases hsome

end Append

end Z8s.Nftables
