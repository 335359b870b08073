import Z8s.Network.NetworkPolicy
import Z8s.Netmux.Proofs.NsgProofs

/-!
# Proofs: the address blocks of policies

The rules of a block are one that lets its CIDR in, and after it those that drop its exceptions.
-/

namespace Z8s.Network

open Rust Collections Z8s.Types Netmux Nftables NftEngine
open Netmux.NetworkPolicyController List NetworkPolicyController

variable {s : NetworkPolicyController × NftState} {old : List (Rule Match)}

def blockSteps (b : IpBlock) : List PolicyStep :=
  .addForwardAllow b.cidr :: (b.except.getD []).map .addForwardDeny

section Rules

variable (parse : String → Except Error IpNetwork)

def stepRule : PolicyStep → Option (Rule Match)
  | .addForwardAllow cidr => (addForwardAllow parse cidr "0.0.0.0/0").toOption
  | .addForwardDeny cidr => (addForwardDeny parse cidr "0.0.0.0/0").toOption
  | _ => none

/-- The call appends a rule that lets in or drops what comes from a CIDR. -/
def AppendsRule (step : PolicyStep) : Prop :=
  ∃ cidr, (parse cidr).isOk = true ∧ (step = .addForwardAllow cidr ∨ step = .addForwardDeny cidr)

end Rules

variable {parse : String → Except Error IpNetwork} {np : NetworkPolicy} {p : Packet}

theorem policySteps_of_blocks (h : OfBlocks parse np) : policySteps np = (ipBlocks np).flatMap blockSteps := by
  have hpeer : ∀ p ∈ peers np, peerSteps np p.2 p.1 = (p.1.ipBlock.toList).flatMap blockSteps := by
    intro p hp
    obtain ⟨hpods, hnamespaces⟩ := h.only p hp
    cases hblock : p.1.ipBlock <;> simp [peerSteps, hpods, hnamespaces, hblock, blockSteps]
  rw [policySteps, flatMap_congr hpeer, ipBlocks, filterMap_eq_flatMap_toList, flatMap_assoc]

theorem appendsRule_of_mem (h : OfBlocks parse np) :
    ∀ step ∈ policySteps np, AppendsRule parse step := by
  intro step hstep
  rw [policySteps_of_blocks h] at hstep
  obtain ⟨b, hb, hstep⟩ := mem_flatMap.1 hstep
  rcases mem_cons.1 hstep with rfl | hstep
  · exact ⟨b.cidr, h.valid b hb _ mem_cons_self, .inl rfl⟩
  · obtain ⟨cidr, hcidr, rfl⟩ := mem_map.1 hstep
    exact ⟨cidr, h.valid b hb _ (mem_cons_of_mem _ hcidr), .inr rfl⟩

theorem addForwardRule_answered {k : NftState} (hold : k.engine.nsgRules = some old) {r : Rule Match}
    (hjump : ∀ target, r.verdict ≠ .jump target) :
    (k.addForwardRule (.ok r) .answered).2 = .ok () ∧
      (k.addForwardRule (.ok r) .answered).1.engine.nsgRules = some (old ++ [r]) := by
  have hjumps : NoJumps ([r].map (Except.ok (ε := Error))) := by
    intro r' hr'
    obtain rfl := Except.ok.inj (mem_singleton.1 hr')
    exact hjump
  obtain ⟨hresult, hrules⟩ := run_appendScript_answered sendResult hold hjumps (fun _ => .answered) fun _ => rfl
  refine ⟨hresult, (hrules _ _).trans ?_⟩
  rw [if_pos ⟨rfl, rfl⟩]

theorem exec_appendsRule (hany : (parse "0.0.0.0/0").isOk = true) (hold : s.2.engine.nsgRules = some old)
    {step : PolicyStep} (hstep : AppendsRule parse step) :
    (step.exec parse s .answered).2 = .ok () ∧
      (step.exec parse s .answered).1.2.engine.nsgRules = some (old ++ (stepRule parse step).toList) := by
  have hforward (verdict : Verdict) (hverdict : ∀ target, verdict ≠ .jump target) {cidr : String}
      (hcidr : (parse cidr).isOk = true) :
      (s.2.addForwardRule (forwardRule parse verdict cidr "0.0.0.0/0") .answered).2 = .ok () ∧
      (s.2.addForwardRule (forwardRule parse verdict cidr "0.0.0.0/0") .answered).1.engine.nsgRules =
        some (old ++ (forwardRule parse verdict cidr "0.0.0.0/0").toOption.toList) := by
    have hok : (forwardRule parse verdict cidr "0.0.0.0/0").isOk = true := isOk_forwardRule hcidr hany
    cases hr : forwardRule parse verdict cidr "0.0.0.0/0" with
    | error err => rw [hr] at hok; cases hok
    | ok r => exact addForwardRule_answered hold fun target => forwardRule_eq_ok hr ▸ hverdict target
  obtain ⟨cidr, hcidr, rfl | rfl⟩ := hstep
  · exact hforward .accept (by simp) hcidr
  · exact hforward .drop (by simp) hcidr

theorem nsgRules_runSteps (hany : (parse "0.0.0.0/0").isOk = true) (hold : s.2.engine.nsgRules = some old)
    {steps : List PolicyStep} (hsteps : ∀ step ∈ steps, AppendsRule parse step) :
    (runSteps parse s (fun _ => .answered) steps).1.2.engine.nsgRules =
      some (old ++ steps.filterMap (stepRule parse)) := by
  induction steps generalizing s old with
  | nil => rw [filterMap_nil, append_nil]; exact hold
  | cons step steps ih =>
    obtain ⟨hresult, hrules⟩ := exec_appendsRule hany hold (hsteps step mem_cons_self)
    rw [runSteps, andThen_ok hresult, ih hrules fun step h => hsteps step (mem_cons_of_mem _ h),
      append_assoc]
    cases hrule : stepRule parse step <;> simp [hrule]

/-! ### The verdict of the chain -/

section

variable (hany : parse "0.0.0.0/0" = .ok anyNetwork)
include hany

theorem inCidr_any (addr : Ipv4Addr) : NsgRule.inCidr parse addr "0.0.0.0/0" = true := by
  rw [NsgRule.inCidr, hany]
  exact contains_anyNetwork addr

theorem firstMatch_blockSteps (b : IpBlock) :
    firstMatch (Match.holds p) ((blockSteps b).filterMap (stepRule parse)) =
      if blockCovers parse p.src b then some .accept
      else if blockExcepts parse p.src b then some .drop else none := by
  have hallow : firstMatch (Match.holds p) ([PolicyStep.addForwardAllow b.cidr].filterMap (stepRule parse)) =
      if blockCovers parse p.src b then some .accept else none := by
    have h := firstMatch_forwardRule parse p .accept b.cidr "0.0.0.0/0"
    rwa [inCidr_any hany, Bool.and_true] at h
  have hdeny : firstMatch (Match.holds p)
      (((b.except.getD []).map PolicyStep.addForwardDeny).filterMap (stepRule parse)) =
        if blockExcepts parse p.src b then some .drop else none := by
    have h := firstMatch_pairs parse p .drop (b.except.getD []) ["0.0.0.0/0"]
    simp only [map_singleton, any_cons, any_nil, Bool.or_false, inCidr_any hany, Bool.and_true,
      ← map_eq_flatMap, filterMap_map] at h
    rw [filterMap_map]
    exact h
  have hsplit : blockSteps b = [.addForwardAllow b.cidr] ++ (b.except.getD []).map .addForwardDeny := rfl
  rw [hsplit, filterMap_append, firstMatch_append, hallow, hdeny]
  cases blockCovers parse p.src b <;> rfl

theorem firstMatch_blocks (blocks : List IpBlock) :
    firstMatch (Match.holds p) ((blocks.flatMap blockSteps).filterMap (stepRule parse)) =
      (blocks.find? fun b => blockCovers parse p.src b || blockExcepts parse p.src b).map fun b =>
        if blockCovers parse p.src b then .accept else .drop := by
  induction blocks with
  | nil => rfl
  | cons b blocks ih =>
    rw [flatMap_cons, filterMap_append, firstMatch_append, firstMatch_blockSteps hany, ih, find?_cons]
    cases hcovers : blockCovers parse p.src b with
    | true => simp [hcovers]
    | false => cases hexcepts : blockExcepts parse p.src b <;> simp [hcovers]

theorem nsgVerdict_applied (h : OfBlocks parse np) (e : NftEngine) (p : Packet) :
    (new.applyNetworkPolicy parse { engine := initialised e, sets := ∅ } np
      fun _ => .answered).1.2.engine.nsgVerdict p =
      ((ipBlocks np).find? fun b => blockCovers parse p.src b || blockExcepts parse p.src b).map fun b =>
        if blockCovers parse p.src b then .accept else .drop := by
  have hok : (parse "0.0.0.0/0").isOk = true := by rw [hany]; rfl
  have hrules := nsgRules_runSteps (s := (new, { engine := initialised e, sets := ∅ })) hok
    (nsgRules_initialised e).1 (appendsRule_of_mem h)
  rw [NftEngine.nsgVerdict, applyNetworkPolicy, hrules, Option.bind_some, nil_append, policySteps_of_blocks h,
    firstMatch_blocks hany]

end

/-- The exceptions of the blocks are honoured for exactly those packets for which it makes no difference that the
first block to list their source lets its whole CIDR in. -/
theorem honoursBlocks_iff (hany : parse "0.0.0.0/0" = .ok anyNetwork) (h : OfBlocks parse np) (e : NftEngine)
    (p : Packet) : HonoursBlocks parse e np p ↔ FirstBlockDecides parse np p.src := by
  rw [HonoursBlocks, nsgVerdict_applied hany h, FirstBlockDecides]
  cases hfirst : (ipBlocks np).find? fun b => blockCovers parse p.src b || blockExcepts parse p.src b with
  | none =>
    have hnone : ¬ ∃ b ∈ ipBlocks np, blockAdmits parse p.src b = true := by
      rintro ⟨b, hb, hadmits⟩
      have hlists := find?_eq_none.1 hfirst b hb
      rw [blockAdmits, Bool.and_eq_true] at hadmits
      simp [hadmits.1] at hlists
    simp [hnone]
  | some b =>
    cases hcovers : blockCovers parse p.src b <;> simp [hcovers]

/-- Everything from 10.0.0.0/8 is let in, but not from 10.1.0.0/16. -/
private def tenWithoutOne : NetworkPolicy where
  metadata := { name := some "allow-ten" }
  spec := some { ingress := some [some [{ ipBlock := some { cidr := "10.0.0.0/8", except := some ["10.1.0.0/16"] } }]] }

private def packetFrom (src : Ipv4Addr) : Packet where
  src := src
  dst := Ipv4Addr.new 10 100 0 9
  protocol := "tcp"
  dport := 80

private theorem ofBlocks_tenWithoutOne : OfBlocks IpNetwork.parseV4 tenWithoutOne where
  only := by decide +kernel
  valid := by decide +kernel

theorem honoursBlocks_outside_exception :
    FirstBlockDecides IpNetwork.parseV4 tenWithoutOne (Ipv4Addr.new 10 2 0 1) ∧
      HonoursBlocks IpNetwork.parseV4 .new tenWithoutOne (packetFrom (Ipv4Addr.new 10 2 0 1)) := by
  have hdecides : FirstBlockDecides IpNetwork.parseV4 tenWithoutOne (Ipv4Addr.new 10 2 0 1) := by decide +kernel
  exact ⟨hdecides, (honoursBlocks_iff (by decide +kernel) ofBlocks_tenWithoutOne .new (packetFrom _)).2 hdecides⟩

/-- A packet from an excepted address is accepted. -/
theorem excepted_source_accepted :
    OfBlocks IpNetwork.parseV4 tenWithoutOne ∧
    (NetworkPolicyController.new.applyNetworkPolicy IpNetwork.parseV4 { engine := initialised .new, sets := ∅ }
      tenWithoutOne fun _ => .answered).1.2.engine.nsgVerdict (packetFrom (Ipv4Addr.new 10 1 2 3)) = some .accept ∧
    ¬ HonoursBlocks IpNetwork.parseV4 .new tenWithoutOne (packetFrom (Ipv4Addr.new 10 1 2 3)) := by
  have haccepted : (new.applyNetworkPolicy IpNetwork.parseV4
      { engine := initialised .new, sets := ∅ } tenWithoutOne fun _ => .answered).1.2.engine.nsgVerdict
        (packetFrom (Ipv4Addr.new 10 1 2 3)) = some .accept := by decide +kernel
  refine ⟨ofBlocks_tenWithoutOne, haccepted, fun h => ?_⟩
  have hadmits := h.1 haccepted
  revert hadmits
  decide +kernel

end Z8s.Network
