import Z8s.Collections.Proofs.SortProofs
import Z8s.Netmux.Nsg
import Z8s.Netmux.Proofs.NftablesProofs

/-!
# Proofs: network security groups

The rules that a group puts into the chain decide by the addresses of a packet alone.
-/

namespace Z8s.Netmux

open Rust Collections Nftables NftEngine List NsgRule

variable {verdict : Verdict} {nsg : NsgSpec}
variable {r : Rule Match} {dst src : String} {out : Nat → Outcome} {e : NftEngine}

/-! ### The compiled rules -/

section Compile

variable {parse : String → Except Error IpNetwork} {p : Packet}

/-- The rules of the kernel for a group, those with a text that the parser refuses left out. -/
def NsgSpec.kernelRules (parse : String → Except Error IpNetwork) (nsg : NsgSpec) : List (Rule Match) :=
  (nsg.steps parse).filterMap Except.toOption

theorem firstMatch_append {μ : Type} (holds : μ → Bool) (first second : List (Rule μ)) :
    firstMatch holds (first ++ second) = (firstMatch holds first).or (firstMatch holds second) := by
  unfold firstMatch
  rw [find?_append]
  cases first.find? fun r => r.conditions.all holds <;> rfl

variable (parse p) in
theorem firstMatch_forwardRule (verdict : Verdict) (src dst : String) :
    firstMatch (Match.holds p) ([forwardRule parse verdict src dst].filterMap Except.toOption) =
      if inCidr parse p.src src && inCidr parse p.dst dst then some verdict else none := by
  unfold forwardRule inCidr
  cases parse src with
  | error e => rfl
  | ok srcNet =>
    cases parse dst with
    | error e => simp [bind, Except.bind, Except.toOption, firstMatch]
    | ok dstNet =>
      by_cases hs : srcNet.contains p.src <;> by_cases hd : dstNet.contains p.dst <;>
        simp [bind, Except.bind, pure, Except.pure, Except.toOption, firstMatch, Match.holds, hs, hd]

variable (parse p) in
theorem firstMatch_pairs (verdict : Verdict) (srcs dsts : List String) :
    firstMatch (Match.holds p) ((srcs.flatMap fun src => dsts.map fun dst =>
        forwardRule parse verdict src dst).filterMap Except.toOption) =
      if srcs.any (inCidr parse p.src) && dsts.any (inCidr parse p.dst) then some verdict
      else none := by
  have hrow (src : String) : firstMatch (Match.holds p) ((dsts.map fun dst =>
        forwardRule parse verdict src dst).filterMap Except.toOption) =
      if inCidr parse p.src src && dsts.any (inCidr parse p.dst) then some verdict
      else none := by
    induction dsts with
    | nil => simp [firstMatch]
    | cons dst dsts ih =>
      rw [map_cons, ← singleton_append, filterMap_append, firstMatch_append,
        firstMatch_forwardRule, ih, any_cons]
      cases inCidr parse p.src src <;> cases inCidr parse p.dst dst <;> rfl
  induction srcs with
  | nil => rfl
  | cons src srcs ih =>
    rw [flatMap_cons, filterMap_append, firstMatch_append, hrow, ih, any_cons]
    cases inCidr parse p.src src <;> cases dsts.any (inCidr parse p.dst) <;> simp

theorem firstMatch_steps (r : NsgRule) :
    firstMatch (Match.holds p) ((r.steps parse).filterMap Except.toOption) =
      if r.listsAddresses parse p then r.verdict else none := by
  unfold steps verdict listsAddresses
  split
  · exact firstMatch_pairs ..
  · exact firstMatch_pairs ..
  · simp [firstMatch]

/-- In a list of rules the first one decides that allows or denies and lists the addresses. -/
theorem firstMatch_flatMap_steps (rules : List NsgRule) :
    firstMatch (Match.holds p) ((rules.flatMap (steps parse)).filterMap Except.toOption) =
      (rules.find? fun r => r.verdict.isSome && r.listsAddresses parse p).bind NsgRule.verdict := by
  induction rules with
  | nil => rfl
  | cons r rules ih =>
    rw [flatMap_cons, filterMap_append, firstMatch_append, firstMatch_steps, ih, find?_cons]
    cases hv : r.verdict with
    | none => simp
    | some v => by_cases hlists : r.listsAddresses parse p <;> simp [hv, hlists]

theorem contains_anyNetwork (addr : Ipv4Addr) : anyNetwork.contains addr = true := by
  simp [anyNetwork, IpNetwork.contains, BitVec.ushiftRight_eq_zero]

theorem addForwardDeny_any (hany : parse "0.0.0.0/0" = .ok anyNetwork) :
    addForwardDeny parse "0.0.0.0/0" "0.0.0.0/0" = .ok denyAll := by
  unfold addForwardDeny forwardRule
  rw [hany]
  rfl

theorem find?_sorted (nsg : NsgSpec) (q : NsgRule → Bool) :
    (nsg.sorted.find? fun r => r.verdict.isSome && q r) = nsg.first q :=
  find?_insertionSort nsg.rules

theorem firstMatch_kernelRules (hany : parse "0.0.0.0/0" = .ok anyNetwork) (nsg : NsgSpec) :
    firstMatch (Match.holds p) (nsg.kernelRules parse) =
      some (((nsg.first (·.listsAddresses parse p)).bind NsgRule.verdict).getD .drop) := by
  have hdeny : firstMatch (Match.holds p) [denyAll] = some .drop := by
    simp [firstMatch, denyAll, Match.holds, contains_anyNetwork]
  unfold NsgSpec.kernelRules NsgSpec.steps
  rw [filterMap_append, firstMatch_append, firstMatch_flatMap_steps, find?_sorted,
    addForwardDeny_any hany]
  have hlast : firstMatch (Match.holds p) ([Except.ok (ε := Error) denyAll].filterMap Except.toOption) =
      some .drop := hdeny
  rw [hlast]
  cases (nsg.first fun r => r.listsAddresses parse p).bind verdict <;> rfl

/-- The verdict by addresses is the one that the group asks for exactly when protocol and port do not
matter for the packet. -/
theorem verdict_eq_decision_iff (nsg : NsgSpec) :
    ((nsg.first (·.listsAddresses parse p)).bind NsgRule.verdict).getD .drop = nsg.decision parse p ↔
      nsg.DecidedByAddresses parse p := by
  unfold NsgSpec.DecidedByAddresses
  have hboth (r : NsgRule) (hfirst : nsg.first (·.listsAddresses parse p) = some r)
      (hservice : r.listsService p = true) :
      (nsg.first fun r => r.listsAddresses parse p && r.listsService p) = some r := by
    rw [← find?_sorted] at hfirst ⊢
    simpa only [Bool.and_assoc] using find?_and_of_find? hfirst hservice
  cases hfirst : nsg.first (·.listsAddresses parse p) with
  | none =>
    have hnone : (nsg.first fun r => r.listsAddresses parse p && r.listsService p) = none := by
      rw [← find?_sorted, find?_eq_none] at hfirst ⊢
      intro r hr hrule
      refine hfirst r hr ?_
      simp only [Bool.and_eq_true] at hrule ⊢
      exact ⟨hrule.1, hrule.2.1⟩
    simp [NsgSpec.decision, hnone]
  | some r =>
    have hrule : r.verdict.isSome = true := by
      have hfind := hfirst
      rw [← find?_sorted] at hfind
      have hboth := find?_some hfind
      simp only [Bool.and_eq_true] at hboth
      exact hboth.1
    obtain ⟨v, hv⟩ := Option.isSome_iff_exists.1 hrule
    simp only [Option.bind_some, hv, Option.getD_some, Option.mem_def, Option.some.injEq, forall_eq']
    constructor
    · exact fun h => .inr h
    · rintro (hservice | h)
      · simp [NsgSpec.decision, hboth r hfirst hservice, hv]
      · exact h

end Compile

/-! ### What a call does to the chain -/

section Apply

variable {parse : String → Except Error IpNetwork} {e : NftEngine} {out : Nat → Outcome} {old : List (Rule Match)}

theorem forwardRule_eq_ok (h : forwardRule parse verdict src dst = .ok r) : r.verdict = verdict := by
  unfold forwardRule at h
  cases hs : parse src with
  | error err => simp [hs, bind, Except.bind] at h
  | ok srcNet =>
    cases hd : parse dst with
    | error err => simp [hs, hd, bind, Except.bind] at h
    | ok dstNet =>
      simp only [hs, hd, bind, Except.bind, pure, Except.pure, Except.ok.injEq] at h
      rw [← h]

theorem noJumps_pairs (hverdict : ∀ target, verdict ≠ .jump target) (srcs dsts : List String) :
    NoJumps (srcs.flatMap fun src => dsts.map fun dst => forwardRule parse verdict src dst) := by
  intro r hr
  obtain ⟨src, -, hr⟩ := mem_flatMap.1 hr
  obtain ⟨dst, -, hr⟩ := mem_map.1 hr
  rw [forwardRule_eq_ok hr]
  exact hverdict

theorem noJumps_steps (nsg : NsgSpec) : NoJumps (nsg.steps parse) := by
  intro r hr
  rcases mem_append.1 hr with hr | hr
  · obtain ⟨rule, -, hr⟩ := mem_flatMap.1 hr
    unfold steps at hr
    split at hr
    · exact noJumps_pairs (by simp) _ _ r hr
    · exact noJumps_pairs (by simp) _ _ r hr
    · cases hr
  · have hverdict := forwardRule_eq_ok (mem_singleton.1 hr).symm
    simp [hverdict]

/-- The two batches of the reset. The answer to the first one decides whether the second is sent. -/
theorem run_resetNsgRules (rs : Ruleset Hook Match) (out : Nat → Outcome) :
    Script.run sendResult rs out resetNsgRules =
      andThen ((send sendResult rs [.delChain filterTable "nsg-rules"] (out 0)).1, (out 0).result sendResult)
        fun rs' => ((send sendResult rs' [.addChain filterTable "nsg-rules" none] (out 1)).1,
          (out 1).result sendResult) := by
  unfold resetNsgRules
  rw [run_cons_ok, send_eq]
  exact congrArg (andThen _) (funext fun rs' => run_single rs' _ _)

theorem applyNsg_eq : applyNsg parse e nsg out =
    let r := andThen (Script.run sendResult e.ruleset out resetNsgRules) fun rs =>
      Script.run sendResult rs (later 2 out) (appendScript filterTable "nsg-rules" (nsg.steps parse))
    ({ e with ruleset := r.1 }, r.2) := by
  unfold applyNsg run
  cases hres : (Script.run sendResult e.ruleset out resetNsgRules).2 with
  | error err => simp only [andThen, hres]
  | ok u =>
    simp only [andThen, hres]
    rfl

theorem rules_applyNsg_kept (hchain : e.nsgRules = some old) (hkeeps : ResetKeeps e out) (t c : String) :
    (applyNsg parse e nsg out).1.ruleset.rules t c =
      if t = filterTable ∧ c = "nsg-rules" then some (old ++ nsgAppended parse nsg out)
      else e.ruleset.rules t c := by
  have hsame := rules_eq_ite hchain t c
  have hdel : (send sendResult e.ruleset [.delChain filterTable "nsg-rules"] (out 0)).1 = e.ruleset :=
    send_delChain_kept sendResult hkeeps
  have htable := Ruleset.isSome_get (Option.isSome_of_eq_some hchain)
  rw [applyNsg_eq, run_resetNsgRules, hdel]
  unfold nsgAppended
  dsimp only
  cases hres : (out 0).result sendResult with
  | error err =>
    rw [andThen_error rfl, andThen_error rfl]
    simpa [Except.isOk, Except.toBool] using hsame
  | ok u =>
    simp only [andThen]
    generalize hrs : (send sendResult e.ruleset [.addChain filterTable "nsg-rules" none] (out 1)).1 = rs'
    have hrules (t c : String) : rs'.rules t c = e.ruleset.rules t c := by
      rw [← hrs, rules_send_addChain sendResult _ htable]
      split_ifs with hc
      · rw [hc.1.1, hc.1.2, show e.ruleset.rules filterTable "nsg-rules" = some old from hchain]
        rfl
      · rfl
    cases hres' : (out 1).result sendResult with
    | error err => simpa [Except.isOk, Except.toBool, hrules] using hsame
    | ok u =>
      simp only [Except.isOk, Except.toBool, Bool.and_self, if_true]
      rw [rules_appendScript ((hrules _ _).trans hchain) (noJumps_steps nsg), hrules]

theorem nsgRules_applyNsg_deleted (hchain : e.nsgRules = some old) (hdeleted : ¬ ResetKeeps e out) :
    (applyNsg parse e nsg out).1.nsgRules =
      if ((out 0).result sendResult).isOk = true ∧ (out 1).executes = true then
        some (nsgAppended parse nsg out)
      else none := by
  unfold ResetKeeps at hdeleted
  push Not at hdeleted
  have hdel (t c : String) := rules_send_delChain sendResult hdeleted.1 hdeleted.2 t c
  have htable := Ruleset.isSome_get (Option.isSome_of_eq_some hchain)
  have htable' := isSome_get_send_delChain sendResult filterTable "nsg-rules" (out 0) htable
  unfold nsgRules
  rw [applyNsg_eq, run_resetNsgRules]
  unfold nsgAppended
  dsimp only
  generalize (send sendResult e.ruleset [.delChain filterTable "nsg-rules"] (out 0)).1 = rs at hdel htable' ⊢
  have hgone : rs.rules filterTable "nsg-rules" = none := by simp [hdel]
  cases hres : (out 0).result sendResult with
  | error err =>
    rw [andThen_error rfl, andThen_error rfl]
    simp [Except.isOk, Except.toBool, hgone]
  | ok u =>
    simp only [andThen]
    have hadd := rules_send_addChain sendResult "nsg-rules" htable' none (out 1) filterTable "nsg-rules"
    generalize (send sendResult rs [.addChain filterTable "nsg-rules" none] (out 1)).1 = rs' at hadd ⊢
    cases ho : (out 1).executes with
    | true =>
      have hnew : rs'.rules filterTable "nsg-rules" = some [] := by simp [hadd, hgone, ho]
      cases hres' : (out 1).result sendResult with
      | error err => simp [Except.isOk, Except.toBool, hnew]
      | ok u =>
        simp only [Except.isOk, Except.toBool, Bool.and_self, and_self, if_true]
        rw [rules_appendScript hnew (noJumps_steps nsg), if_pos ⟨rfl, rfl⟩, nil_append]
    | false =>
      have hnone : rs'.rules filterTable "nsg-rules" = none := by simp [hadd, hgone, ho]
      cases hres' : (out 1).result sendResult with
      | error err => simp [hnone]
      | ok u => simp [rules_appendScript_of_none hnone, hnone]

end Apply

/-! ### The chain after an init -/

section Init

variable {parse : String → Except Error IpNetwork}

theorem nsgRules_initialised (e : NftEngine) : (initialised e).nsgRules = some [] ∧
    ∃ rules, (initialised e).ruleset.rules filterTable "forward" = some rules ∧
      ∃ r ∈ rules, r.verdict = .jump "nsg-rules" := by
  obtain ⟨rs, hinit, -, hfilter⟩ := init_answered e (fun _ => .answered) fun _ => rfl
  unfold initialised nsgRules
  rw [hinit]
  refine ⟨?_, ?_⟩
  · rw [Ruleset.rules_of_get hfilter]
    rfl
  · refine ⟨[{ conditions := [.established], verdict := .accept }, { verdict := .jump "nsg-rules" }], ?_,
      { verdict := .jump "nsg-rules" }, by simp, rfl⟩
    rw [Ruleset.rules_of_get hfilter]
    rfl

theorem isOk_forwardRule (hsrc : (parse src).isOk = true) (hdst : (parse dst).isOk = true) :
    (forwardRule parse verdict src dst).isOk = true := by
  unfold forwardRule
  cases hs : parse src with
  | error err => simp [hs, Except.isOk, Except.toBool] at hsrc
  | ok srcNet =>
    cases hd : parse dst with
    | error err => simp [hd, Except.isOk, Except.toBool] at hdst
    | ok dstNet => rfl

theorem isOk_steps (hany : parse "0.0.0.0/0" = .ok anyNetwork) (hvalid : nsg.ValidCidrs parse) :
    ∀ step ∈ nsg.steps parse, step.isOk = true := by
  have hpairs (r : NsgRule) (hr : r ∈ nsg.rules) (verdict : Verdict) :
      ∀ step ∈ r.srcCidrs.flatMap fun src => r.dstCidrs.map fun dst => forwardRule parse verdict src dst,
        step.isOk = true := by
    intro step hstep
    obtain ⟨src, hsrc, hstep⟩ := mem_flatMap.1 hstep
    obtain ⟨dst, hdst, rfl⟩ := mem_map.1 hstep
    exact isOk_forwardRule (hvalid r hr src (mem_append_left _ hsrc))
      (hvalid r hr dst (mem_append_right _ hdst))
  intro step hstep
  rcases mem_append.1 hstep with hstep | hstep
  · obtain ⟨r, hr, hstep⟩ := mem_flatMap.1 hstep
    have hmem : r ∈ nsg.rules := (mem_insertionSort _).1 hr
    unfold steps at hstep
    split at hstep
    · exact hpairs r hmem _ step hstep
    · exact hpairs r hmem _ step hstep
    · cases hstep
  · rw [mem_singleton.1 hstep, addForwardDeny_any hany]
    rfl

theorem nsgAppended_answered (hany : parse "0.0.0.0/0" = .ok anyNetwork) (hvalid : nsg.ValidCidrs parse)
    (hout : ∀ n, out n = .answered) : nsgAppended parse nsg out = nsg.kernelRules parse := by
  unfold nsgAppended
  rw [hout 0, hout 1]
  exact appended_answered sendResult (isOk_steps hany hvalid) fun n => hout _

theorem resetKeeps_of_jump {rules : List (Rule Match)}
    (hforward : e.ruleset.rules filterTable "forward" = some rules) (hr : r ∈ rules)
    (hjump : r.verdict = .jump "nsg-rules") (out : Nat → Outcome) : ResetKeeps e out :=
  fun _ => ⟨"forward", rules, hforward, r, hr, hjump⟩

end Init

/-- The verdict of the chain for a packet is the one that the group asks for exactly when protocol and
port do not matter for the packet. -/
theorem nsgVerdict_eq_decision_iff {parse : String → Except Error IpNetwork}
    (hany : parse "0.0.0.0/0" = .ok anyNetwork) (e : NftEngine) {nsg : NsgSpec}
    (hvalid : nsg.ValidCidrs parse) (p : Packet) :
    (applyNsg parse (initialised e) nsg fun _ => .answered).1.nsgVerdict p = some (nsg.decision parse p) ↔
      nsg.DecidedByAddresses parse p := by
  obtain ⟨hempty, rules, hforward, r, hr, hjump⟩ := nsgRules_initialised e
  have hrules : (applyNsg parse (initialised e) nsg fun _ => .answered).1.nsgRules =
      some (nsg.kernelRules parse) := by
    unfold nsgRules
    rw [rules_applyNsg_kept hempty (resetKeeps_of_jump hforward hr hjump _), if_pos ⟨rfl, rfl⟩,
      nsgAppended_answered hany hvalid fun _ => rfl, nil_append]
  unfold nsgVerdict
  rw [hrules, Option.bind_some, firstMatch_kernelRules hany, Option.some_inj]
  exact verdict_eq_decision_iff nsg

/-- What a call leaves of a chain that ended with the default deny. -/
theorem endsClosed_iff {parse : String → Except Error IpNetwork} {prior : List (Rule Match)}
    (hchain : e.nsgRules = some prior) (hprior : prior.getLast? = some denyAll) :
    EndsClosed prior (applyNsg parse e nsg out).1.nsgRules ↔ StopsClosed parse e nsg out := by
  unfold EndsClosed StopsClosed
  by_cases hkeeps : ResetKeeps e out
  · have hrules : (applyNsg parse e nsg out).1.nsgRules = some (prior ++ nsgAppended parse nsg out) := by
      rw [nsgRules, rules_applyNsg_kept hchain hkeeps, if_pos ⟨rfl, rfl⟩]
    simp only [hrules, hkeeps, true_and, true_or, Option.some_inj, append_right_eq_self,
      Option.bind_some, getLast?_append]
    cases hlast : (nsgAppended parse nsg out).getLast? with
    | none => simp [getLast?_eq_none_iff.1 hlast]
    | some r => rfl
  · rw [nsgRules_applyNsg_deleted hchain hkeeps]
    simp only [hkeeps, false_and, false_or]
    by_cases hback : ((out 0).result sendResult).isOk = true ∧ (out 1).executes = true
    · -- a chain that was as before ended with the default deny as well
      rw [if_pos hback]
      simp only [Option.some_inj, Option.bind_some, hback.2, true_and, or_iff_right_iff_imp]
      rintro rfl
      exact hprior
    · rw [if_neg hback]
      simp only [reduceCtorEq, Option.bind_none, or_self, false_iff, not_and]
      intro hadded hlast
      have hnone : nsgAppended parse nsg out = [] := by
        unfold nsgAppended
        rw [if_neg]
        simp only [Bool.and_eq_true, not_and]
        exact fun hok => absurd ⟨hok, hadded⟩ hback
      rw [hnone] at hlast
      cases hlast

private def noEngine : NftEngine where
  ruleset := ∅
  jumpTrack := []
  nodeportJumpTrack := []

private def parseCidr (s : String) : Except Error IpNetwork :=
  match Ipv4Cidr.parse s with
  | some cidr => .ok (.v4 cidr.network cidr.prefixLen)
  | none => .error ["invalid address: " ++ s]

private def webRule (ports dstCidrs : List String) : NsgRule where
  name := "web"
  action := "allow"
  srcCidrs := ["10.200.0.0/24"]
  dstCidrs := dstCidrs
  ports := ports
  protocol := "tcp"
  priority := 100

private def allowWeb (ports dstCidrs : List String) : NsgSpec where
  rules := [webRule ports dstCidrs]

private def toPort (dport : U16) : Packet where
  src := Ipv4Addr.new 10 200 0 7
  dst := Ipv4Addr.new 10 200 1 9
  protocol := "tcp"
  dport := dport

theorem nsgVerdict_eq_decision_web :
    (allowWeb ["80"] ["10.200.1.0/24"]).DecidedByAddresses parseCidr (toPort 80) ∧
    (applyNsg parseCidr (initialised noEngine) (allowWeb ["80"] ["10.200.1.0/24"])
      fun _ => .answered).1.nsgVerdict (toPort 80) =
        some ((allowWeb ["80"] ["10.200.1.0/24"]).decision parseCidr (toPort 80)) := by
  have hdecided : (allowWeb ["80"] ["10.200.1.0/24"]).DecidedByAddresses parseCidr (toPort 80) := by
    decide +kernel
  exact ⟨hdecided, (nsgVerdict_eq_decision_iff rfl noEngine (by decide +kernel) (toPort 80)).2 hdecided⟩

/-- The group allows port 80 only, and the chain accepts a packet to port 22. -/
theorem other_port_accepted :
    (allowWeb ["80"] ["10.200.1.0/24"]).ValidCidrs parseCidr ∧
    (allowWeb ["80"] ["10.200.1.0/24"]).decision parseCidr (toPort 22) = .drop ∧
    (applyNsg parseCidr (initialised noEngine) (allowWeb ["80"] ["10.200.1.0/24"])
      fun _ => .answered).1.nsgVerdict (toPort 22) = some .accept := by
  decide +kernel

private def closedEngine : NftEngine :=
  (applyNsg parseCidr (initialised noEngine) {} fun _ => .answered).1

end Z8s.Netmux
