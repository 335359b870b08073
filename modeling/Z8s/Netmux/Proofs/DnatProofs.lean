import Z8s.Netmux.Dnat
import Z8s.Netmux.Proofs.NftablesProofs
import Z8s.Transition.Proofs.RunProofs

/-!
# Proofs: calls that change the DNAT chains

Only the jump rules change the rules of the hooks.
-/

namespace Z8s.Netmux

open Rust Nftables Transition List NftEngine

variable {out : Nat → Outcome} {ip : Ipv4Addr} {port : U16}

namespace NftEngine

variable {e : NftEngine} {rs rs' : Ruleset Hook Match} {svc : String}

theorem hooks_updateDnatChain (hsvc : svc ∉ jumpHooks) (backends : List (Ipv4Addr × U16))
    (conditions : List Match) (out : Nat → Outcome) :
    ∀ h ∈ jumpHooks, (e.run out (updateDnatChain svc backends conditions)).1.ruleset.rules natTable h =
      e.ruleset.rules natTable h := by
  refine run_invariant (P := fun rs => ∀ h ∈ jumpHooks, rs.rules natTable h = e.ruleset.rules natTable h)
    (fun b hb rs rs' hP hexec h hh => ?_) out fun _ _ => rfl
  have hne : h ≠ svc := fun heq => hsvc (heq ▸ hh)
  rcases mem_cons.1 hb with hb | hb
  · obtain rfl := Except.ok.inj hb
    rw [exec_singleton] at hexec
    rw [rules_addChain hexec, if_neg fun hc => hne hc.2]
    exact hP h hh
  · obtain ⟨step, hstep, heq⟩ := mem_map.1 hb
    obtain ⟨backend, -, rfl⟩ := mem_map.1 hstep
    obtain rfl := Except.ok.inj heq
    rw [exec_singleton] at hexec
    rw [rules_addRule hexec, if_neg fun hc => hne hc.2]
    exact hP h hh

theorem hooks_delChain (hsvc : svc ∉ jumpHooks) (out : Nat → Outcome) :
    ∀ h ∈ jumpHooks, (e.run out [.ok [.delChain natTable svc]]).1.ruleset.rules natTable h =
      e.ruleset.rules natTable h := by
  refine run_invariant (P := fun rs => ∀ h ∈ jumpHooks, rs.rules natTable h = e.ruleset.rules natTable h)
    (fun b hb rs rs' hP hexec h hh => ?_) out fun _ _ => rfl
  have hne : h ≠ svc := fun heq => hsvc (heq ▸ hh)
  obtain rfl := Except.ok.inj (mem_singleton.1 hb)
  rw [exec_singleton] at hexec
  rw [rules_delChain hexec, if_neg fun hc => hne hc.2]
  exact hP h hh

theorem jumpCount_addJumpRules (svc : String)
    (hhooks : ∀ h ∈ jumpHooks, (rs.rules natTable h).isSome) (out : Nat → Outcome) (target : String) :
    (Script.run sendResult rs out (addJumpRules svc jumpHooks)).1.jumpCount natTable "prerouting" target =
      rs.jumpCount natTable "prerouting" target +
        (if target = svc ∧ (rs.rules natTable svc).isSome ∧ (out 0).executes then 1 else 0) ∧
    (Script.run sendResult rs out (addJumpRules svc jumpHooks)).1.jumpCount natTable "output" target =
      rs.jumpCount natTable "output" target +
        (if target = svc ∧ (rs.rules natTable svc).isSome ∧ ((out 0).result sendResult).isOk ∧
          (out 1).executes then 1 else 0) := by
  have hpre := hhooks "prerouting" (by simp [jumpHooks])
  have hout := hhooks "output" (by simp [jumpHooks])
  have hscript : addJumpRules svc jumpHooks =
      [.ok [.addRule natTable "prerouting" { verdict := .jump svc }],
        .ok [.addRule natTable "output" { verdict := .jump svc }]] := rfl
  rw [hscript, run_cons_ok, send_eq]
  cases (out 0).result sendResult with
  | error err =>
    rw [andThen_error rfl, jumpCount_send_jump _ hpre, jumpCount_send_jump _ hpre]
    simp [Except.isOk, Except.toBool]
  | ok u =>
    rw [andThen_ok rfl, run_single]
    have hout' : ((send sendResult rs [.addRule natTable "prerouting" { verdict := .jump svc }]
        (out 0)).1.rules natTable "output").isSome := by
      rw [isSome_rules_send_jump _ hpre]
      exact hout
    rw [jumpCount_send_jump _ hout', jumpCount_send_jump _ hout', jumpCount_send_jump _ hpre,
      jumpCount_send_jump _ hpre, isSome_rules_send_jump _ hpre]
    simp [Except.isOk, Except.toBool]

theorem isSome_addJumpRules (hhooks : ∀ h ∈ jumpHooks, (rs.rules natTable h).isSome)
    (out : Nat → Outcome) :
    ∀ h ∈ jumpHooks, ((Script.run sendResult rs out (addJumpRules svc jumpHooks)).1.rules natTable h).isSome := by
  refine run_invariant (P := fun rs => ∀ h ∈ jumpHooks, (rs.rules natTable h).isSome)
    (fun b hb rs rs' hP hexec h hh => ?_) out hhooks
  obtain ⟨hook, -, heq⟩ := mem_map.1 hb
  obtain rfl := Except.ok.inj heq
  rw [exec_singleton] at hexec
  rw [rules_addRule hexec]
  split_ifs with hc
  · rw [Option.isSome_map, ← hc.2]
    exact hP h hh
  · exact hP h hh

theorem rules_addJumpRules {c : String} (hc : c ∉ jumpHooks) (out : Nat → Outcome) (t : String) :
    (Script.run sendResult rs out (addJumpRules svc jumpHooks)).1.rules t c = rs.rules t c := by
  refine run_invariant (P := fun rs' => rs'.rules t c = rs.rules t c)
    (fun b hb rs₁ rs₂ hP hexec => ?_) out rfl
  obtain ⟨hook, hhook, heq⟩ := mem_map.1 hb
  obtain rfl := Except.ok.inj heq
  rw [exec_singleton] at hexec
  have hne : c ≠ hook := fun h => hc (h ▸ hhook)
  rw [rules_addRule hexec, if_neg fun h => hne h.2]
  exact hP

theorem run_updateDnatChain_answered (svc : String) (backends : List (Ipv4Addr × U16))
    (conditions : List Match) (hnat : (rs.get natTable).isSome) (hout : ∀ n, out n = .answered) :
    (Script.run sendResult rs out (updateDnatChain svc backends conditions)).2 = .ok () ∧
    ∀ t c, (Script.run sendResult rs out (updateDnatChain svc backends conditions)).1.rules t c =
      if t = natTable ∧ c = svc then
        some ((rs.rules natTable svc).getD [] ++ backends.map (dnatRule conditions))
      else rs.rules t c := by
  have hadded := rules_send_addChain sendResult svc hnat none (out 0)
  have hanswer := send_snd rs [.addChain natTable svc none] (out 0)
  rw [hout 0] at hadded hanswer
  have hscript : updateDnatChain svc backends conditions =
      .ok [.addChain natTable svc none] ::
        appendScript natTable svc ((backends.map (dnatRule conditions)).map .ok) := by
    simp [updateDnatChain, Function.comp_def]
  have hjump : NoJumps ((backends.map (dnatRule conditions)).map (Except.ok (ε := Error))) := by
    intro r hr
    obtain ⟨r', hr', heq⟩ := mem_map.1 hr
    obtain rfl := Except.ok.inj heq
    obtain ⟨b, -, rfl⟩ := mem_map.1 hr'
    simp [dnatRule]
  rw [hscript, run_cons_ok, hout 0, andThen_ok hanswer]
  generalize (send sendResult rs [.addChain natTable svc none] .answered).1 = rs' at hadded ⊢
  have hchain : rs'.rules natTable svc = some ((rs.rules natTable svc).getD []) := by
    simp [hadded, Outcome.executes]
  obtain ⟨hok, hrules⟩ :=
    run_appendScript_answered sendResult hchain hjump (fun n => out (n + 1)) fun n => hout _
  refine ⟨hok, fun t c => ?_⟩
  rw [hrules]
  by_cases hc : t = natTable ∧ c = svc
  · rw [if_pos hc, if_pos hc]
  · rw [if_neg hc, if_neg hc, hadded, if_neg fun h => hc h.1]

/-- What both kinds of DNAT do to the ruleset: the chain is updated, and unless it is tracked the hooks
get their jumps. -/
def forwarded (rs : Ruleset Hook Match) (svc : String) (backends : List (Ipv4Addr × U16))
    (conditions : List Match) (tracked : Bool) (out : Nat → Outcome) :
    Ruleset Hook Match × Except Error Unit :=
  let script := updateDnatChain svc backends conditions
  andThen (Script.run sendResult rs out script) fun rs =>
    if tracked then (rs, .ok ())
    else Script.run sendResult rs (later script.length out) (addJumpRules svc jumpHooks)

theorem isSome_forwarded (hsvc : svc ∉ jumpHooks) (hhooks : ∀ h ∈ jumpHooks, (rs.rules natTable h).isSome)
    (backends : List (Ipv4Addr × U16)) (conditions : List Match) (tracked : Bool) (out : Nat → Outcome) :
    ∀ h ∈ jumpHooks, ((forwarded rs svc backends conditions tracked out).1.rules natTable h).isSome := by
  have hupdated : ∀ h ∈ jumpHooks, ((Script.run sendResult rs out
      (updateDnatChain svc backends conditions)).1.rules natTable h).isSome := by
    intro h hh
    have hsame := hooks_updateDnatChain (e := ⟨rs, [], []⟩) hsvc backends conditions out h hh
    simp only [run] at hsame
    rw [hsame]
    exact hhooks h hh
  unfold forwarded
  refine andThen_keeps (P := fun rs : Ruleset Hook Match => ∀ h ∈ jumpHooks, (rs.rules natTable h).isSome)
    hupdated fun rs hrs => ?_
  cases tracked with
  | true => exact hrs
  | false => exact isSome_addJumpRules hrs _

theorem forwarded_answered (hsvc : svc ∉ jumpHooks) (hhooks : ∀ h ∈ jumpHooks, (rs.rules natTable h).isSome)
    (backends : List (Ipv4Addr × U16)) (conditions : List Match) (tracked : Bool)
    (hout : ∀ n, out n = .answered) :
    (∀ t c, c ∉ jumpHooks → (forwarded rs svc backends conditions tracked out).1.rules t c =
      if t = natTable ∧ c = svc then
        some ((rs.rules natTable svc).getD [] ++ backends.map (dnatRule conditions))
      else rs.rules t c) ∧
    ∀ h ∈ jumpHooks, ∀ target,
      (forwarded rs svc backends conditions tracked out).1.jumpCount natTable h target =
        rs.jumpCount natTable h target + if tracked = false ∧ target = svc then 1 else 0 := by
  have hnat : (rs.get natTable).isSome := Ruleset.isSome_get (hhooks "output" (by simp [jumpHooks]))
  obtain ⟨hok, hrules⟩ := run_updateDnatChain_answered svc backends conditions hnat hout
  unfold forwarded
  dsimp only
  rw [andThen_ok hok]
  generalize (Script.run sendResult rs out (updateDnatChain svc backends conditions)).1 = rs' at hrules ⊢
  have hsame : ∀ h ∈ jumpHooks, rs'.rules natTable h = rs.rules natTable h := by
    intro h hh
    have hne : h ≠ svc := fun heq => hsvc (heq ▸ hh)
    rw [hrules, if_neg fun hc => hne hc.2]
  cases tracked with
  | true =>
    refine ⟨fun t c _ => hrules t c, fun h hh target => ?_⟩
    simp [Ruleset.jumpCount, hsame h hh]
  | false =>
    refine ⟨fun t c hc => (rules_addJumpRules hc _ t).trans (hrules t c), fun h hh target => ?_⟩
    have hsome : (rs'.rules natTable svc).isSome := by simp [hrules]
    have hcount := jumpCount_addJumpRules svc (fun h hh => by rw [hsame h hh]; exact hhooks h hh)
      (later (updateDnatChain svc backends conditions).length out) target
    have hcount' : rs'.jumpCount natTable h target = rs.jumpCount natTable h target := by
      simp [Ruleset.jumpCount, hsame h hh]
    rw [← hcount']
    simp only [later, hout, hsome, Outcome.executes, Outcome.result, Except.isOk, Except.toBool, and_true,
      true_and] at hcount ⊢
    rcases mem_cons.1 hh with rfl | hh
    · exact hcount.1
    · obtain rfl := mem_singleton.1 hh
      exact hcount.2

theorem tracked_iff :
    (e.jumpTrack.any fun (i, p) => i == ip && p == port) = true ↔ (ip, port) ∈ e.jumpTrack := by
  rw [any_eq_true]
  constructor
  · rintro ⟨⟨i, p⟩, hmem, heq⟩
    simp only [Bool.and_eq_true, beq_iff_eq] at heq
    rw [← heq.1, ← heq.2]
    exact hmem
  · exact fun hmem => ⟨_, hmem, by simp⟩

/-- What both calls do: the chain is updated, and unless there are jumps to it already, it is put on a list
and the jumps are added. -/
def forward (e : NftEngine) (svc : String) (backends : List (Ipv4Addr × U16)) (conditions : List Match)
    (tracked : Bool) (track : NftEngine → NftEngine) (out : Nat → Outcome) : NftEngine × Except Error Unit :=
  let script := updateDnatChain svc backends conditions
  andThen (e.run out script) fun e =>
    if tracked then (e, .ok ())
    else run (track e) (later script.length out) (addJumpRules svc jumpHooks)

section Forward

variable (e : NftEngine) (svc : String) (backends : List (Ipv4Addr × U16)) (conditions : List Match)
  (tracked : Bool) {track : NftEngine → NftEngine} (out : Nat → Outcome)

theorem ruleset_forward (htrack : ∀ e, (track e).ruleset = e.ruleset) :
    (e.forward svc backends conditions tracked track out).1.ruleset =
      (forwarded e.ruleset svc backends conditions tracked out).1 := by
  unfold forward forwarded
  dsimp only
  generalize updateDnatChain svc backends conditions = script
  cases hres : (Script.run sendResult e.ruleset out script).2 with
  | error err =>
    rw [andThen_error (r := e.run out script) hres, andThen_error hres]
    rfl
  | ok u =>
    rw [andThen_ok (r := e.run out script) hres, andThen_ok hres]
    split_ifs
    · rfl
    · simp only [run, htrack]

theorem list_forward {α : Type} {list : NftEngine → List α}
    (hrun : ∀ e out script, list (e.run out script).1 = list e)
    (htrack : ∀ e, list (track e) = list e) :
    list (e.forward svc backends conditions tracked track out).1 = list e := by
  unfold forward andThen
  dsimp only
  split
  · exact hrun _ _ _
  · split_ifs
    · exact hrun _ _ _
    · rw [hrun, htrack, hrun]

variable {out} in
theorem mem_list_forward {α : Type} {list : NftEngine → List α} {x : α}
    (hrun : ∀ e out script, list (e.run out script).1 = list e) (htrack : ∀ e, list (track e) = list e ++ [x])
    (htracked : tracked = true ↔ x ∈ list e) (hnat : (e.ruleset.get natTable).isSome)
    (hout : ∀ n, out n = .answered) (y : α) :
    y ∈ list (e.forward svc backends conditions tracked track out).1 ↔ y ∈ list e ∨ y = x := by
  obtain ⟨hok, -⟩ := run_updateDnatChain_answered svc backends conditions hnat hout
  unfold forward
  dsimp only
  generalize updateDnatChain svc backends conditions = script at hok ⊢
  rw [andThen_ok (r := e.run out script) hok]
  split_ifs with hmem
  · rw [hrun]
    refine ⟨.inl, ?_⟩
    rintro (hy | rfl)
    · exact hy
    · exact htracked.1 hmem
  · rw [hrun, htrack, hrun, mem_append, mem_singleton]

end Forward

section Calls

variable (e : NftEngine) (ip : Ipv4Addr) (port nodePort : U16) (backends : List (Ipv4Addr × U16))
  (out : Nat → Outcome)

theorem addDnat_eq :
    e.addDnat ip port backends out =
      e.forward (chainName ip port) backends [.daddr ip, .tcpDport port] (decide ((ip, port) ∈ e.jumpTrack))
        (fun e => { e with jumpTrack := e.jumpTrack ++ [(ip, port)] }) out := by
  have hany : (e.jumpTrack.any fun q => q.1 == ip && q.2 == port) = decide ((ip, port) ∈ e.jumpTrack) := by
    rw [Bool.eq_iff_iff, decide_eq_true_iff]
    exact tracked_iff
  unfold addDnat forward
  dsimp only
  generalize updateDnatChain (chainName ip port) backends [.daddr ip, .tcpDport port] = script
  cases hres : (e.run out script).2 with
  | error err => rw [andThen_error hres, andThen_error hres]
  | ok u =>
    rw [andThen_ok hres, andThen_ok hres, ← hany]
    rfl

theorem addNodeportDnat_eq (hne : backends ≠ []) :
    e.addNodeportDnat nodePort backends out =
      e.forward (nodeportChainName nodePort) backends [.tcpDport nodePort]
        (decide (nodePort ∈ e.nodeportJumpTrack))
        (fun e => { e with nodeportJumpTrack := e.nodeportJumpTrack ++ [nodePort] }) out := by
  have hnonempty : backends.isEmpty = false := by simpa using hne
  unfold addNodeportDnat forward
  rw [hnonempty, if_neg (by simp)]
  dsimp only
  generalize updateDnatChain (nodeportChainName nodePort) backends [.tcpDport nodePort] = script
  cases hres : (e.run out script).2 with
  | error err => rw [andThen_error hres, andThen_error hres]
  | ok u =>
    rw [andThen_ok hres, andThen_ok hres, ← contains_eq_mem]
    rfl

theorem ruleset_addDnat : (e.addDnat ip port backends out).1.ruleset =
    (forwarded e.ruleset (chainName ip port) backends [.daddr ip, .tcpDport port]
      (decide ((ip, port) ∈ e.jumpTrack)) out).1 := by
  rw [addDnat_eq]
  exact ruleset_forward _ _ _ _ _ _ fun _ => rfl

variable {out} in
theorem mem_jumpTrack_addDnat (hnat : (e.ruleset.get natTable).isSome) (hout : ∀ n, out n = .answered)
    (q : Ipv4Addr × U16) :
    q ∈ (e.addDnat ip port backends out).1.jumpTrack ↔ q ∈ e.jumpTrack ∨ q = (ip, port) := by
  rw [addDnat_eq]
  exact mem_list_forward _ _ _ _ _ (fun _ _ _ => rfl) (fun _ => rfl) decide_eq_true_iff hnat hout q

variable {out} in
theorem mem_nodeportJumpTrack (hnat : (e.ruleset.get natTable).isSome) (hne : backends ≠ [])
    (hout : ∀ n, out n = .answered) (q : U16) :
    q ∈ (e.addNodeportDnat nodePort backends out).1.nodeportJumpTrack ↔
      q ∈ e.nodeportJumpTrack ∨ q = nodePort := by
  rw [addNodeportDnat_eq _ _ _ _ hne]
  exact mem_list_forward _ _ _ _ _ (fun _ _ _ => rfl) (fun _ => rfl) decide_eq_true_iff hnat hout q

theorem nodeportJumpTrack_addDnat :
    (e.addDnat ip port backends out).1.nodeportJumpTrack = e.nodeportJumpTrack := by
  rw [addDnat_eq]
  exact list_forward _ _ _ _ _ _ (fun _ _ _ => rfl) fun _ => rfl

theorem ruleset_addNodeportDnat (hne : backends ≠ []) : (e.addNodeportDnat nodePort backends out).1.ruleset =
    (forwarded e.ruleset (nodeportChainName nodePort) backends [.tcpDport nodePort]
      (decide (nodePort ∈ e.nodeportJumpTrack)) out).1 := by
  rw [addNodeportDnat_eq _ _ _ _ hne]
  exact ruleset_forward _ _ _ _ _ _ fun _ => rfl

theorem jumpTrack_addNodeportDnat :
    (e.addNodeportDnat nodePort backends out).1.jumpTrack = e.jumpTrack := by
  by_cases hempty : backends = []
  · rw [hempty]
    rfl
  · rw [addNodeportDnat_eq _ _ _ _ hempty]
    exact list_forward _ _ _ _ _ _ (fun _ _ _ => rfl) fun _ => rfl

end Calls

end NftEngine

/-- What the calls keep: the list says how many jumps there are, and the hooks exist. -/
structure JumpInv (e : NftEngine) : Prop where
  tracked : JumpsTracked e
  hooks : ∀ h ∈ NftEngine.jumpHooks, (e.ruleset.rules natTable h).isSome

namespace JumpInv

open NftEngine

variable {e e' : NftEngine}

theorem of_hooks (h : JumpInv e) (htrack : e'.jumpTrack = e.jumpTrack)
    (hhooks : ∀ hook ∈ jumpHooks, e'.ruleset.rules natTable hook = e.ruleset.rules natTable hook) :
    JumpInv e' where
  tracked ip port hook hhook := by
    have hcount := h.tracked ip port hook hhook
    unfold Ruleset.jumpCount at hcount ⊢
    rw [hhooks hook hhook, htrack]
    exact hcount
  hooks hook hhook := by
    rw [hhooks hook hhook]
    exact h.hooks hook hhook

/-- A pair is put on the list: both jumps have to be added. -/
theorem track_iff (h : JumpInv e) (hnew : (ip, port) ∉ e.jumpTrack) (out : Nat → Outcome) :
    JumpsTracked (run { e with jumpTrack := e.jumpTrack ++ [(ip, port)] } out
        (addJumpRules (chainName ip port) jumpHooks)).1 ↔
      AddsBothJumps e.ruleset (chainName ip port) out := by
  have hcount := fun target => jumpCount_addJumpRules (chainName ip port) h.hooks out target
  have hold (hook : String) (hhook : hook ∈ jumpHooks) :
      e.ruleset.jumpCount natTable hook (chainName ip port) = 0 := by
    rw [h.tracked ip port hook hhook, if_neg hnew]
  have hpre := hold "prerouting" (by simp [jumpHooks])
  have hout := hold "output" (by simp [jumpHooks])
  unfold AddsBothJumps
  constructor
  · intro htracked
    have hpre' := htracked ip port "prerouting" (by simp [jumpHooks])
    have hout' := htracked ip port "output" (by simp [jumpHooks])
    simp only [NftEngine.run] at hpre' hout'
    rw [(hcount _).1, hpre] at hpre'
    rw [(hcount _).2, hout] at hout'
    simp only [mem_append, mem_singleton, or_true, if_true, Nat.zero_add, true_and] at hpre' hout'
    split_ifs at hpre' hout' with hp ho
    exact ⟨hp.1, hp.2, ho.2.1, ho.2.2⟩
  · rintro ⟨hsvc, hfirst, hpass, hsecond⟩ ip' port' hook hhook
    simp only [NftEngine.run]
    have hsame : chainName ip' port' = chainName ip port ↔ (ip', port') = (ip, port) := by
      rw [chainName_inj, Prod.mk.injEq]
    have htotal : e.ruleset.jumpCount natTable hook (chainName ip' port') +
        (if chainName ip' port' = chainName ip port then 1 else 0) =
        if (ip', port') ∈ e.jumpTrack ++ [(ip, port)] then 1 else 0 := by
      rw [h.tracked ip' port' hook hhook]
      simp only [hsame, mem_append, mem_singleton]
      by_cases heq : (ip', port') = (ip, port)
      · rw [heq]
        simp [hnew]
      · simp [heq]
    refine Eq.trans ?_ htotal
    rcases mem_cons.1 hhook with rfl | hhook
    · rw [(hcount _).1]
      simp [hsvc, hfirst]
    · obtain rfl := mem_singleton.1 hhook
      rw [(hcount _).2]
      simp [hsvc, hpass, hsecond]

theorem add (h : JumpInv e) (ip : Ipv4Addr) (port : U16) (backends : List (Ipv4Addr × U16))
    (out : Nat → Outcome) :
    (KeepsJumps e (.add ip port backends out) → JumpInv (e.addDnat ip port backends out).1) ∧
    (JumpsTracked (e.addDnat ip port backends out).1 → KeepsJumps e (.add ip port backends out)) := by
  have hscript : JumpInv (e.run out (updateDnatChain (chainName ip port) backends
      [.daddr ip, .tcpDport port])).1 :=
    h.of_hooks rfl (hooks_updateDnatChain (chainName_notMem_jumpHooks ip port) backends _ out)
  simp only [KeepsJumps, addDnat]
  generalize updateDnatChain (chainName ip port) backends [.daddr ip, .tcpDport port] = script at hscript ⊢
  have htrack : (e.run out script).1.jumpTrack = e.jumpTrack := rfl
  cases hres : (e.run out script).2 with
  | error err =>
    rw [andThen_error hres]
    exact ⟨fun _ => hscript, fun _ _ hok => by cases hok⟩
  | ok u =>
    rw [andThen_ok hres]
    by_cases hmem : (ip, port) ∈ e.jumpTrack
    · rw [if_pos (tracked_iff.2 (htrack ▸ hmem))]
      exact ⟨fun _ => hscript, fun _ hnew => absurd hmem hnew⟩
    · rw [if_neg fun hany => hmem (htrack ▸ tracked_iff.1 hany)]
      have hiff := hscript.track_iff (htrack ▸ hmem) (later script.length out)
      refine ⟨fun hkeeps => ⟨hiff.2 (hkeeps hmem rfl), ?_⟩, fun htracked _ _ => hiff.1 htracked⟩
      exact isSome_addJumpRules hscript.hooks _

theorem remove (h : JumpInv e) (ip : Ipv4Addr) (port : U16) (out : Nat → Outcome) :
    (KeepsJumps e (.remove ip port out) → JumpInv (e.removeDnat ip port out).1) ∧
    (JumpsTracked (e.removeDnat ip port out).1 → KeepsJumps e (.remove ip port out)) := by
  have hscript : JumpInv (e.run out [.ok [.delChain natTable (chainName ip port)]]).1 :=
    h.of_hooks rfl (hooks_delChain (chainName_notMem_jumpHooks ip port) out)
  have hresult : (e.run out [.ok [.delChain natTable (chainName ip port)]]).2 = (out 0).result sendResult := by
    rw [NftEngine.run, run_single]
  simp only [KeepsJumps, removeDnat]
  cases hres : (out 0).result sendResult with
  | error err =>
    rw [hres] at hresult
    rw [andThen_error hresult]
    exact ⟨fun _ => hscript, fun _ _ => rfl⟩
  | ok u =>
    rw [hres] at hresult
    rw [andThen_ok hresult]
    have hfilter (q : Ipv4Addr × U16) :
        q ∈ e.jumpTrack.filter (fun q => q.1 != ip || q.2 != port) ↔ q ∈ e.jumpTrack ∧ q ≠ (ip, port) := by
      rw [mem_filter]
      refine and_congr_right fun _ => ?_
      rw [Ne, Prod.ext_iff, not_and_or]
      simp
    constructor
    · intro hkeeps
      have hmem : (ip, port) ∉ e.jumpTrack := fun hmem => by cases hkeeps hmem
      refine ⟨fun ip' port' hook hhook => ?_, hscript.hooks⟩
      rw [hscript.tracked ip' port' hook hhook]
      refine if_congr ?_ rfl rfl
      refine ⟨fun hq => (hfilter _).2 ⟨hq, fun heq => hmem (heq ▸ hq)⟩, fun hq => ((hfilter _).1 hq).1⟩
    · intro htracked hmem
      -- the jumps of the pair are still there
      have hnone := (htracked ip port "output" (by simp [jumpHooks])).trans
        (if_neg fun hq => ((hfilter _).1 hq).2 rfl)
      have hone := (hscript.tracked ip port "output" (by simp [jumpHooks])).trans (if_pos hmem)
      exact absurd (hone.symm.trans hnone) Nat.one_ne_zero

theorem init (e : NftEngine) : JumpInv (initialised e) := by
  obtain ⟨rs, hinit, hnat, -⟩ := init_answered e (fun _ => .answered) fun _ => rfl
  have hempty : ∀ hook ∈ jumpHooks, rs.rules natTable hook = some [] := by
    intro hook hhook
    rw [Ruleset.rules_of_get hnat]
    rcases mem_cons.1 hhook with rfl | hhook
    · rfl
    · rw [mem_singleton.1 hhook]
      rfl
  unfold initialised
  rw [hinit]
  refine ⟨fun ip port hook hhook => ?_, fun hook hhook => ?_⟩
  · simp [Ruleset.jumpCount, hempty hook hhook]
  · rw [hempty hook hhook]
    rfl

theorem step_iff {call : DnatCall} (h : JumpInv e) (hstep : call.step e = some e') :
    (KeepsJumps e call → JumpInv e') ∧ (JumpsTracked e' → KeepsJumps e call) := by
  cases call with
  | add ip port backends out =>
    cases hstep
    exact h.add ip port backends out
  | remove ip port out =>
    cases hstep
    exact h.remove ip port out

end JumpInv

theorem isSome_run_dnatCalls (e : NftEngine) (calls : List DnatCall) :
    (Transition.run DnatCall.step e calls).isSome := by
  induction calls generalizing e with
  | nil => rfl
  | cons call calls ih =>
    cases call with
    | add ip port backends out => exact ih _
    | remove ip port out => exact ih _

/-- After an init, the list of tracked pairs says how many jumps there are in every state exactly when
every call that tracks a pair adds both its jumps and every call that removes a tracked pair returns an
error. -/
theorem jumpsTracked_iff_along (e : NftEngine) (calls : List DnatCall) :
    Always DnatCall.step JumpsTracked (initialised e) calls ↔
      Along DnatCall.step KeepsJumps (initialised e) calls :=
  always_iff_along (I := JumpInv) (fun _ _ _ h hok hstep => (h.step_iff hstep).1 hok)
    (fun _ h => h.tracked) (fun _ _ _ h hstep htracked => (h.step_iff hstep).2 htracked)
    (JumpInv.init e) (isSome_run_dnatCalls _ calls)

private def emptyEngine : NftEngine where
  ruleset := ∅
  jumpTrack := []
  nodeportJumpTrack := []

private def web : Ipv4Addr := Ipv4Addr.new 10 96 0 10

/-- A pair is added, removed and added again. The chain cannot be deleted because of the jumps, which
counts as success, so that there are two jumps from each hook in the end. -/
private def addRemoveAdd : List DnatCall :=
  [.add web 80 [] fun _ => .answered, .remove web 80 fun _ => .answered,
    .add web 80 [] fun _ => .answered]

theorem jumps_twice_after_remove :
    ∃ e ∈ Transition.run DnatCall.step (initialised emptyEngine) addRemoveAdd,
      e.jumpTrack = [(web, 80)] ∧
      e.ruleset.jumpCount natTable "prerouting" (chainName web 80) = 2 ∧ ¬ JumpsTracked e := by
  obtain ⟨e, he, htrack, hcount⟩ : ∃ e ∈ Transition.run DnatCall.step (initialised emptyEngine) addRemoveAdd,
      e.jumpTrack = [(web, 80)] ∧
      e.ruleset.jumpCount natTable "prerouting" (chainName web 80) = 2 := by decide +kernel
  refine ⟨e, he, htrack, hcount, fun h => ?_⟩
  have hone := h web 80 "prerouting" (by simp [jumpHooks])
  rw [hcount, if_pos (by rw [htrack]; exact mem_singleton.2 rfl)] at hone
  exact absurd hone (by decide)

end Z8s.Netmux
