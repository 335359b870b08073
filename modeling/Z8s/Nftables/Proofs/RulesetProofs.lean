import Z8s.Nftables.Ruleset
import Z8s.Collections.Proofs.HashMapProofs

/-!
# Proofs: rulesets of nftables

Each message is described by the rules that every chain has afterwards, so that a proof about a
ruleset looks at `Ruleset.rules` only.
-/

namespace Z8s.Nftables

open Collections Ruleset HashMap

section Messages

variable {β μ : Type} {rs rs' : Ruleset β μ} {table chain : String}

theorem Ruleset.rules_eq_some {rules : List (Rule μ)} : rs.rules table chain = some rules ↔
    ∃ t c, rs.get table = some t ∧ t.get chain = some c ∧ c.rules = rules := by
  simp [Ruleset.rules, Option.bind_eq_some_iff]

theorem Ruleset.rules_of_get {t : Table β μ} (h : rs.get table = some t) (c : String) :
    rs.rules table c = (t.get c).map Chain.rules := by
  simp [rules, h]

theorem Ruleset.rules_insert (t : Table β μ) (table' c : String) :
    rules (insert rs table t) table' c =
      if table' = table then (t.get c).map Chain.rules else rs.rules table' c := by
  unfold rules
  rw [get_insert]
  split_ifs <;> rfl

theorem Ruleset.isSome_get (h : (rs.rules table chain).isSome) : (rs.get table).isSome := by
  obtain ⟨rules, hrules⟩ := Option.isSome_iff_exists.1 h
  obtain ⟨t, -, ht, -⟩ := rules_eq_some.1 hrules
  rw [ht]
  rfl

theorem Ruleset.targeted_iff_of_get {t : Table β μ} (h : rs.get table = some t) :
    rs.Targeted table chain ↔ t.jumpsTo chain = true := by
  simp only [Ruleset.Targeted, Table.jumpsTo, List.any_eq_true, beq_iff_eq, values,
    List.mem_map]
  constructor
  · rintro ⟨c, rules, hrules, hjump⟩
    rw [rules_of_get h] at hrules
    obtain ⟨ch, hch, rfl⟩ := Option.map_eq_some_iff.1 hrules
    exact ⟨ch, ⟨(c, ch), mem_iter.2 hch, rfl⟩, hjump⟩
  · rintro ⟨_, ⟨⟨c, ch⟩, hmem, rfl⟩, hjump⟩
    refine ⟨c, ch.rules, ?_, hjump⟩
    rw [rules_of_get h, mem_iter.1 hmem]
    rfl

theorem Ruleset.modify_eq_ok {f : Table β μ → Except Errno (Table β μ)} :
    rs.modify table f = .ok rs' ↔
      ∃ t t', rs.get table = some t ∧ f t = .ok t' ∧ rs' = insert rs table t' := by
  unfold modify
  cases rs.get table with
  | none => simp
  | some t =>
    cases hf : f t with
    | error e => simp [Except.map, hf]
    | ok t' => simp [Except.map, hf, eq_comm]

theorem Ruleset.isSome_get_modify {f : Table β μ → Except Errno (Table β μ)} {table' : String}
    (h : rs.modify table f = .ok rs') (hsome : (rs.get table').isSome) : (rs'.get table').isSome := by
  obtain ⟨t, t', -, -, rfl⟩ := modify_eq_ok.1 h
  rw [get_insert]
  split_ifs
  · rfl
  · exact hsome

theorem Ruleset.rules_modify {f : Table β μ → Except Errno (Table β μ)} (new : Option (Chain β μ))
    (hf : ∀ t t', rs.get table = some t → f t = .ok t' →
      ∀ c, t'.get c = if c = chain then new else t.get c)
    (h : rs.modify table f = .ok rs') (table' c : String) :
    rs'.rules table' c =
      if table' = table ∧ c = chain then new.map Chain.rules else rs.rules table' c := by
  obtain ⟨t, t', ht, hft, rfl⟩ := modify_eq_ok.1 h
  rw [rules_insert, hf t t' ht hft]
  by_cases htable : table' = table
  · subst htable
    rw [rules_of_get ht]
    by_cases hc : c = chain <;> simp [hc]
  · simp [htable]

theorem rules_addChain {base : Option β}
    (h : (Msg.addChain (μ := μ) table chain base).exec rs = .ok rs') (table' c : String) :
    rs'.rules table' c =
      if table' = table ∧ c = chain then some ((rs.rules table chain).getD []) else rs.rules table' c := by
  obtain ⟨t, t', ht, hft, -⟩ := modify_eq_ok.1 h
  have hget (c : String) :
      (t.addChain chain base).get c = if c = chain then some ((t.get chain).getD { base }) else t.get c := by
    unfold Table.addChain containsKey
    cases hc : t.get chain with
    | none =>
      rw [if_neg (by simp), get_insert]
      rfl
    | some ch =>
      rw [if_pos (by simp)]
      by_cases heq : c = chain
      · simp [heq, hc]
      · simp [heq]
  rw [rules_modify (some ((t.get chain).getD { base })) (fun t₁ t₁' ht₁ hft₁ => ?_) h,
    rules_of_get ht]
  · cases t.get chain <;> rfl
  · obtain rfl := Option.some.inj (ht.symm.trans ht₁)
    obtain rfl := Except.ok.inj hft₁
    exact hget

theorem exec_addChain_of_get {t : Table β μ} (h : rs.get table = some t) (base : Option β) :
    (Msg.addChain (μ := μ) table chain base).exec rs =
      .ok (insert rs table (t.addChain chain base)) :=
  modify_eq_ok.2 ⟨t, _, h, rfl, rfl⟩

theorem exec_addRule_of_get {t : Table β μ} (t' : Table β μ) {rule : Rule μ} (h : rs.get table = some t)
    (hrule : t.addRule chain rule = .ok t') :
    (Msg.addRule (β := β) table chain rule).exec rs = .ok (insert rs table t') :=
  modify_eq_ok.2 ⟨t, t', h, hrule, rfl⟩

theorem exec_addChain (chain : String) (h : (rs.get table).isSome) (base : Option β) :
    ∃ rs', (Msg.addChain (μ := μ) table chain base).exec rs = .ok rs' := by
  obtain ⟨t, ht⟩ := Option.isSome_iff_exists.1 h
  exact ⟨_, modify_eq_ok.2 ⟨t, _, ht, rfl, rfl⟩⟩

section

variable (h : (Msg.delChain (β := β) (μ := μ) table chain).exec rs = .ok rs')
include h

theorem rules_delChain (table' c : String) :
    rs'.rules table' c = if table' = table ∧ c = chain then none else rs.rules table' c := by
  refine rules_modify none (fun t t' ht hft c => ?_) h table' c
  unfold Table.delChain at hft
  split_ifs at hft
  obtain rfl := Except.ok.inj hft
  exact get_remove t chain c

theorem isSome_of_delChain : (rs.rules table chain).isSome := by
  obtain ⟨t, t', ht, hft, -⟩ := modify_eq_ok.1 h
  unfold Table.delChain containsKey at hft
  rw [rules_of_get ht, Option.isSome_map]
  split_ifs at hft with hmissing
  simpa only [Bool.not_eq_false] using hmissing

theorem not_targeted_of_delChain : ¬ rs.Targeted table chain := by
  obtain ⟨t, t', ht, hft, -⟩ := modify_eq_ok.1 h
  rw [targeted_iff_of_get ht]
  intro hjumps
  unfold Table.delChain at hft
  rw [if_pos hjumps] at hft
  split_ifs at hft

end

theorem exec_delChain_error {e : Errno}
    (h : (Msg.delChain (β := β) (μ := μ) table chain).exec rs = .error e) :
    (e = .enoent ∧ rs.rules table chain = none) ∨ (e = .ebusy ∧ rs.Targeted table chain) := by
  simp only [Msg.exec, Ruleset.modify] at h
  split at h
  · rename_i hnone
    obtain rfl := Except.error.inj h
    exact .inl ⟨rfl, by simp [rules, hnone]⟩
  · rename_i t ht
    unfold Table.delChain containsKey at h
    split_ifs at h with hmissing hjumps
    · obtain rfl := Except.error.inj h
      refine .inl ⟨rfl, ?_⟩
      rw [rules_of_get ht]
      simpa using hmissing
    · obtain rfl := Except.error.inj h
      exact .inr ⟨rfl, (targeted_iff_of_get ht).2 hjumps⟩
    · cases h

theorem Table.addRule_eq_ok {t t' : Table β μ} {rule : Rule μ} : t.addRule chain rule = .ok t' ↔
    ∃ c, t.get chain = some c ∧ t' = t.insert chain { c with rules := c.rules ++ [rule] } ∧
      ∀ target, rule.verdict = .jump target → (t.get target).isSome := by
  unfold Table.addRule containsKey
  cases t.get chain with
  | none => simp
  | some c =>
    cases hv : rule.verdict with
    | jump target =>
      by_cases htarget : (t.get target).isSome = true
      · simp only [htarget, if_true, Except.ok.injEq, Option.some.injEq, exists_eq_left', Verdict.jump.injEq,
          forall_eq', and_true]
        exact eq_comm
      · simp [htarget]
    | _ =>
      simp only [Except.ok.injEq, Option.some.injEq, exists_eq_left', reduceCtorEq, false_implies,
        implies_true, and_true]
      exact eq_comm

theorem exec_addRule_iff (rule : Rule μ) :
    (∃ rs', (Msg.addRule (β := β) table chain rule).exec rs = .ok rs') ↔
      (rs.rules table chain).isSome ∧
        ∀ target, rule.verdict = .jump target → (rs.rules table target).isSome := by
  constructor
  · rintro ⟨rs', h⟩
    obtain ⟨t, t', ht, hft, -⟩ := modify_eq_ok.1 h
    obtain ⟨c, hc, -, htarget⟩ := Table.addRule_eq_ok.1 hft
    simp only [rules_of_get ht, Option.isSome_map]
    exact ⟨by rw [hc]; rfl, htarget⟩
  · rintro ⟨hsome, htarget⟩
    obtain ⟨rules, hrules⟩ := Option.isSome_iff_exists.1 hsome
    obtain ⟨t, c, ht, hc, -⟩ := rules_eq_some.1 hrules
    simp only [rules_of_get ht, Option.isSome_map] at htarget
    exact ⟨_, modify_eq_ok.2 ⟨t, _, ht, Table.addRule_eq_ok.2 ⟨c, hc, rfl, htarget⟩, rfl⟩⟩

theorem rules_addRule {rule : Rule μ} (h : (Msg.addRule (β := β) table chain rule).exec rs = .ok rs')
    (table' c : String) :
    rs'.rules table' c = if table' = table ∧ c = chain then (rs.rules table chain).map (· ++ [rule])
      else rs.rules table' c := by
  obtain ⟨t, t', ht, hft, -⟩ := modify_eq_ok.1 h
  obtain ⟨ch, hch, rfl, -⟩ := Table.addRule_eq_ok.1 hft
  rw [rules_modify (some { ch with rules := ch.rules ++ [rule] }) (fun t₁ t₁' ht₁ hft₁ c => ?_) h,
    rules_of_get ht, hch]
  · rfl
  · obtain rfl := Option.some.inj (ht.symm.trans ht₁)
    obtain rfl := Except.ok.inj (hft.symm.trans hft₁)
    exact get_insert t chain c _

end Messages

end Z8s.Nftables
