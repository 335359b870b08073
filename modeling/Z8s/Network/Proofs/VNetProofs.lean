import Z8s.Network.VNet
import Z8s.Netmux.Proofs.NsgProofs
import Z8s.Proofs.TypesProofs
import Z8s.Transition.Proofs.RunProofs

/-!
# Proofs: virtual networks

A request appends the rule of the VNet that it applies, and no request takes a rule away.
-/

namespace Z8s.Network

open Rust Z8s.Types Netmux Nftables Transition VNet NftEngine

variable {parse : String → Except Error IpNetwork}
variable {r : Rule Match} {c : VNetChain} {vnet : VNet}
variable {e : NftEngine}

/-! ### The engine -/

theorem addSnat_eq_ok {cidr : String} (h : addSnat parse cidr = .ok r) :
    r.verdict = .masquerade := by
  unfold addSnat at h
  cases hparse : parse cidr with
  | error err =>
    rw [hparse] at h
    cases h
  | ok net =>
    rw [hparse] at h
    obtain rfl := Except.ok.inj h
    rfl

theorem rules_run_append {table chain : String} {old : List (Rule Match)}
    (h : e.ruleset.rules table chain = some old) (rule : Except Error (Rule Match))
    (hjump : ∀ r, rule = .ok r → ∀ target, r.verdict ≠ .jump target) (out : Nat → Outcome) (t c : String) :
    (e.run out (appendScript table chain [rule])).1.ruleset.rules t c =
      if t = table ∧ c = chain then some (old ++ if (out 0).executes then rule.toOption.toList else [])
      else e.ruleset.rules t c := by
  have hjumps : NoJumps [rule] := fun r hr => hjump r (List.mem_singleton.1 hr).symm
  have happended : appended sendResult out [rule] =
      if (out 0).executes then rule.toOption.toList else [] := by
    cases rule with
    | error err | ok r => simp [appended, Except.toOption]
  rw [← happended]
  exact rules_appendScript h hjumps out t c

theorem onApplyVNet_denied (h : vnet.spec.internetAccess = false) (e : NftEngine) (out : Nat → Outcome) :
    (onApplyVNet parse e vnet out).1 = (e.run out (appendScript filterTable
      "nsg-rules" [addForwardDeny parse (cidr vnet) "0.0.0.0/0"])).1 := by
  unfold onApplyVNet applyVnet
  rw [if_pos h]
  simp only [h, Bool.false_eq_true, if_false]
  exact andThen_fst _ _

theorem onApplyVNet_allowed (h : vnet.spec.internetAccess = true) (e : NftEngine) (out : Nat → Outcome) :
    (onApplyVNet parse e vnet out).1 = (e.run out (appendScript natTable
      "postrouting" [addSnat parse (cidr vnet)])).1 := by
  unfold onApplyVNet applyVnet
  rw [if_neg (by simp [h])]
  simp only [h, if_true]
  rfl

/-- What `on_apply` does to the chains: the rule that the VNet asks for is appended, if the batch is
carried out. -/
theorem rules_onApplyVNet {old : VNetChain → List (Rule Match)}
    (hold : ∀ c, VNetChain.rules e c = some (old c)) (vnet : VNet) (out : Nat → Outcome) (c : VNetChain) :
    c.rules (onApplyVNet parse e vnet out).1 =
      some (old c ++ if (out 0).executes then (rule parse vnet c).toList else []) := by
  cases haccess : vnet.spec.internetAccess with
  | false =>
    have hrun := rules_run_append (hold .nsgRules)
      (addForwardDeny parse (cidr vnet) "0.0.0.0/0")
      (fun r hr target => by rw [forwardRule_eq_ok hr]; simp) out
    rw [onApplyVNet_denied haccess]
    cases c with
    | nsgRules =>
      have hrule : rule parse vnet .nsgRules =
          (addForwardDeny parse (cidr vnet) "0.0.0.0/0").toOption := by
        simp [rule, haccess]
      rw [hrule]
      exact (hrun _ _).trans (if_pos ⟨rfl, rfl⟩)
    | postrouting =>
      have hrule : rule parse vnet .postrouting = none := by simp [rule, haccess]
      rw [hrule, Option.toList_none, ite_self, List.append_nil, ← hold .postrouting]
      exact (hrun _ _).trans (if_neg (by decide))
  | true =>
    have hrun := rules_run_append (hold .postrouting) (addSnat parse (cidr vnet))
      (fun r hr target => by rw [addSnat_eq_ok hr]; simp) out
    rw [onApplyVNet_allowed haccess]
    cases c with
    | nsgRules =>
      have hrule : rule parse vnet .nsgRules = none := by simp [rule, haccess]
      rw [hrule, Option.toList_none, ite_self, List.append_nil, ← hold .nsgRules]
      exact (hrun _ _).trans (if_neg (by decide))
    | postrouting =>
      have hrule : rule parse vnet .postrouting =
          (addSnat parse (cidr vnet)).toOption := by
        simp [rule, haccess]
      rw [hrule]
      exact (hrun _ _).trans (if_pos ⟨rfl, rfl⟩)

/-! ### The store -/

section Store

variable {store store' : ResourceStore} {uid : String}

theorem vnetAt_eq_some : vnetAt store uid = some vnet ↔
    ∃ t, store.get uid = some t ∧ t.resource = .vNet vnet := by
  unfold vnetAt
  cases hget : store.get uid with
  | none => simp
  | some t => cases hres : t.resource <;> simp [hres]

theorem mem_determined : r ∈ determined parse store c ↔
    ∃ uid, ∃ vnet ∈ vnetAt store uid, r ∈ rule parse vnet c := by
  unfold determined storedVNets
  simp only [List.mem_filterMap, Option.mem_def]
  constructor
  · rintro ⟨vnet, ⟨t, -, hvnet⟩, hr⟩
    exact ⟨t.resource.uid, vnet, hvnet, hr⟩
  · rintro ⟨uid, vnet, hvnet, hr⟩
    obtain ⟨t, hget, -⟩ := vnetAt_eq_some.1 hvnet
    obtain rfl := ResourceStore.uid_of_get hget
    exact ⟨vnet, ⟨t, ResourceStore.mem_getAll.2 hget, hvnet⟩, hr⟩

theorem vnetAt_apply (store : ResourceStore) (vnet : VNet) (uid : String) :
    vnetAt (store.apply (.vNet vnet)) uid =
      if uid = (AnyResource.vNet vnet).uid then some vnet else vnetAt store uid := by
  unfold vnetAt
  rw [ResourceStore.get_apply]
  split_ifs <;> rfl

theorem vnetAt_delete (store : ResourceStore) (r : AnyResource) (uid : String) :
    vnetAt (store.delete r) uid = if uid = r.uid then none else vnetAt store uid := by
  unfold vnetAt
  rw [ResourceStore.get_delete]
  split_ifs <;> rfl

variable {key : String} {new : Option VNet}

section

variable (h : ∀ uid, vnetAt store' uid = if uid = key then new else vnetAt store uid)
include h

/-- Where one VNet is replaced, every rule that is asked for afterwards is one of the new VNet or was
asked for before. -/
theorem mem_determined_of_replaced (hr : r ∈ determined parse store' c) :
    (∃ vnet ∈ new, r ∈ rule parse vnet c) ∨ r ∈ determined parse store c := by
  obtain ⟨uid, vnet, hvnet, hrule⟩ := mem_determined.1 hr
  rw [h] at hvnet
  split_ifs at hvnet
  · exact .inl ⟨vnet, hvnet, hrule⟩
  · exact .inr (mem_determined.2 ⟨uid, vnet, hvnet, hrule⟩)

theorem determined_subset
    (hlost : ∀ old ∈ vnetAt store key, ∀ r ∈ rule parse old c, r ∈ determined parse store' c)
    (hr : r ∈ determined parse store c) : r ∈ determined parse store' c := by
  obtain ⟨uid, vnet, hvnet, hrule⟩ := mem_determined.1 hr
  by_cases hkey : uid = key
  · subst hkey
    exact hlost vnet hvnet r hrule
  · refine mem_determined.2 ⟨uid, vnet, ?_, hrule⟩
    rw [h, if_neg hkey]
    exact hvnet

end

end Store

/-! ### Requests -/

/-- What a request can do: store a VNet and append its rule, or take one VNet out of the store, or
nothing. -/
inductive VNetMove (parse : String → Except Error IpNetwork) (s s' : VNetState) : VNetRequest → Prop
  | created {uuid vnet out} (hstore : s'.store = s.store.apply (.vNet (createdVNet uuid vnet)))
      (hnft : s'.nft = (onApplyVNet parse s.nft (createdVNet uuid vnet) out).1) :
      VNetMove parse s s' (.create uuid vnet out)
  | deleted {name listing t} (hfound : listing.find? (·.resource.name == name) = some t)
      (hstore : s'.store = s.store.delete t.resource) (hnft : s'.nft = s.nft) :
      VNetMove parse s s' (.delete name listing)
  | unknown {name listing} (hfound : listing.find? (·.resource.name == name) = none) (hs : s' = s) :
      VNetMove parse s s' (.delete name listing)

theorem vnetMove_of_step {s s' : VNetState} {req : VNetRequest} (h : s.step parse req = some s') :
    VNetMove parse s s' req := by
  cases req with
  | create uuid vnet out =>
    cases h
    exact .created rfl rfl
  | delete name listing =>
    simp only [VNetState.step] at h
    split_ifs at h
    cases hfound : listing.find? (·.resource.name == name) with
    | none =>
      rw [hfound] at h
      exact .unknown hfound (Option.some.inj h).symm
    | some t =>
      rw [hfound] at h
      cases h
      exact .deleted hfound rfl rfl

variable {base : VNetChain → List (Rule Match)} {s s' : VNetState} {req : VNetRequest}

def ExtendsBase (base : VNetChain → List (Rule Match)) (e : NftEngine) : Prop :=
  ∀ c, VNetChain.rules e c = some (base c ++ contributed base e c)

theorem contributed_eq {added : List (Rule Match)} (h : c.rules e = some (base c ++ added)) :
    contributed base e c = added := by
  simp [contributed, h]

theorem rules_applied (hext : ExtendsBase base s.nft) {out : Nat → Outcome}
    (hnft : s'.nft = (onApplyVNet parse s.nft vnet out).1) (c : VNetChain) :
    c.rules s'.nft = some (base c ++ (contributed base s.nft c ++
      if (out 0).executes then (rule parse vnet c).toList else [])) := by
  rw [hnft, rules_onApplyVNet hext, List.append_assoc]

theorem extendsBase_step (hext : ExtendsBase base s.nft) (h : s.step parse req = some s') :
    ExtendsBase base s'.nft := by
  cases vnetMove_of_step h with
  | created hstore hnft =>
    intro c
    have hrules := rules_applied hext hnft c
    rw [contributed_eq hrules]
    exact hrules
  | deleted hfound hstore hnft =>
    rw [hnft]
    exact hext
  | unknown hfound hs =>
    rw [hs]
    exact hext

/-- A VNet is replaced in the store, and the rules of the new one are appended if the batch is carried
out. -/
structure Replaces (parse : String → Except Error IpNetwork) (base : VNetChain → List (Rule Match))
    (s s' : VNetState) (key : String) (new : Option VNet) (executed : Bool) : Prop where
  stored : ∀ uid, vnetAt s'.store uid = if uid = key then new else vnetAt s.store uid
  rules : ∀ c r, r ∈ contributed base s'.nft c ↔
    r ∈ contributed base s.nft c ∨ executed = true ∧ ∃ vnet ∈ new, r ∈ VNet.rule parse vnet c

theorem Replaces.mirrors_iff {key : String} {new : Option VNet} {executed : Bool}
    (h : Replaces parse base s s' key new executed) (hs : MirrorsVNets parse base s) :
    MirrorsVNets parse base s' ↔
      (∀ old ∈ vnetAt s.store key, ∀ c, ∀ r ∈ rule parse old c, r ∈ determined parse s'.store c) ∧
      ∀ vnet ∈ new, ∀ c, ∀ r ∈ rule parse vnet c,
        executed = true ∨ r ∈ determined parse s.store c := by
  have hnew {vnet : VNet} (hvnet : vnet ∈ new) {c : VNetChain} {r : Rule Match}
      (hr : r ∈ rule parse vnet c) : r ∈ determined parse s'.store c := by
    refine mem_determined.2 ⟨key, vnet, ?_, hr⟩
    rw [h.stored, if_pos rfl]
    exact hvnet
  constructor
  · intro hs'
    refine ⟨fun old hold c r hr => ?_, fun vnet hvnet c r hr => ?_⟩
    · -- the rule of the old VNet is in the chain, and it stays there
      have hbefore := (hs c r).2 (mem_determined.2 ⟨key, old, hold, hr⟩)
      exact (hs' c r).1 ((h.rules c r).2 (.inl hbefore))
    · rcases (h.rules c r).1 ((hs' c r).2 (hnew hvnet hr)) with hbefore | ⟨hexecuted, -⟩
      · exact .inr ((hs c r).1 hbefore)
      · exact .inl hexecuted
  · rintro ⟨hlost, hadded⟩ c r
    rw [h.rules, hs c r]
    constructor
    · rintro (hbefore | ⟨-, vnet, hvnet, hr⟩)
      · exact determined_subset h.stored (fun old hold => hlost old hold c) hbefore
      · exact hnew hvnet hr
    · intro hafter
      rcases mem_determined_of_replaced h.stored hafter with ⟨vnet, hvnet, hr⟩ | hbefore
      · rcases hadded vnet hvnet c r hr with hexecuted | hbefore
        · exact .inr ⟨hexecuted, vnet, hvnet, hr⟩
        · exact .inl hbefore
      · exact .inl hbefore

theorem rule_createdVNet (uuid : String) (vnet : VNet) (c : VNetChain) :
    rule parse (createdVNet uuid vnet) c = rule parse vnet c := by
  cases c <;> rfl

/-- A request keeps the rules in step with the store exactly if it makes no rule superfluous and adds
the rule that is missing. -/
theorem mirrorsVNets_step_iff (hext : ExtendsBase base s.nft) (hs : MirrorsVNets parse base s)
    (h : s.step parse req = some s') : MirrorsVNets parse base s' ↔ KeepsVNetRules parse s req := by
  have hkeeps : KeepsVNetRules parse s req ↔ AddsVNetRule parse s req ∧
      ∀ old ∈ s.lost req, ∀ c, ∀ r ∈ rule parse old c, r ∈ determined parse s'.store c := by
    simp only [KeepsVNetRules, h, Option.mem_some_iff, forall_eq']
  rw [hkeeps]
  cases vnetMove_of_step h with
  | @created uuid vnet out hstore hnft =>
    have hreplaces : Replaces parse base s s' (AnyResource.vNet vnet).uid (some (createdVNet uuid vnet))
        (out 0).executes := by
      refine ⟨fun uid => ?_, fun c r => ?_⟩
      · rw [hstore]
        exact vnetAt_apply _ _ _
      · rw [contributed_eq (rules_applied hext hnft c), List.mem_append]
        cases (out 0).executes <;> simp [Option.mem_toList]
    rw [hreplaces.mirrors_iff hs, and_comm]
    simp only [Option.mem_some_iff, forall_eq', rule_createdVNet]
    exact Iff.rfl
  | @deleted name listing t hfound hstore hnft =>
    have hreplaces : Replaces parse base s s' t.resource.uid none false := by
      refine ⟨fun uid => ?_, fun c r => ?_⟩
      · rw [hstore]
        exact vnetAt_delete _ _ _
      · rw [hnft]
        simp
    rw [hreplaces.mirrors_iff hs]
    simp [VNetState.lost, AddsVNetRule, hfound]
  | unknown hfound hs' =>
    subst hs'
    simp [VNetState.lost, AddsVNetRule, hfound, hs]

/-- The rules that the VNets have brought into the chains are those of the stored VNets, in every state
of a run, exactly if no request of the run makes a rule superfluous or leaves one out. -/
theorem mirrorsVNets_along (parse : String → Except Error IpNetwork) {s : VNetState}
    {base : VNetChain → List (Rule Match)} {reqs : List VNetRequest}
    (hbase : ∀ c, VNetChain.rules s.nft c = some (base c)) (hnone : storedVNets s.store = [])
    (hrun : (run (VNetState.step parse) s reqs).isSome) :
    Always (VNetState.step parse) (MirrorsVNets parse base) s reqs ↔
      Along (VNetState.step parse) (KeepsVNetRules parse) s reqs := by
  have hempty (c : VNetChain) : contributed base s.nft c = [] :=
    contributed_eq (by rw [hbase, List.append_nil])
  have hstart : ExtendsBase base s.nft ∧ MirrorsVNets parse base s := by
    refine ⟨fun c => ?_, fun c r => ?_⟩
    · rw [hempty, List.append_nil]
      exact hbase c
    · rw [hempty, determined, hnone]
      rfl
  refine always_iff_along (I := fun s => ExtendsBase base s.nft ∧ MirrorsVNets parse base s) ?_
    (fun s hs => hs.2) ?_ hstart hrun
  · intro s req s' hs hok hstep
    exact ⟨extendsBase_step hs.1 hstep, (mirrorsVNets_step_iff hs.1 hs.2 hstep).2 hok⟩
  · intro s req s' hs hstep hs'
    exact (mirrorsVNets_step_iff hs.1 hs.2 hstep).1 hs'

private def bootState : VNetState := ⟨.new, initialised .new⟩

private def vnetNamed (name cidr : String) (internetAccess : Bool) : VNet where
  metadata := { name := some name }
  spec := { cidr := some cidr, internetAccess }

/-- The request that applies a VNet, with all its batches answered. -/
private def applied (vnet : VNet) : VNetRequest := .create "u-1" vnet fun _ => .answered

private def labThenWeb : List VNetRequest :=
  [applied (vnetNamed "lab" "10.50.0.0/16" false), applied (vnetNamed "web" "10.60.0.0/16" true),
    applied (vnetNamed "lab" "10.50.0.0/16" false)]

theorem mirrorsVNets_along_applied_again :
    Along (VNetState.step IpNetwork.parseV4) (KeepsVNetRules IpNetwork.parseV4) bootState labThenWeb ∧
    Always (VNetState.step IpNetwork.parseV4) (MirrorsVNets IpNetwork.parseV4 fun _ => []) bootState
      labThenWeb := by
  have hok : Along (VNetState.step IpNetwork.parseV4) (KeepsVNetRules IpNetwork.parseV4) bootState
      labThenWeb := by decide +kernel
  exact ⟨hok, (mirrorsVNets_along IpNetwork.parseV4 (by decide +kernel) (by decide +kernel)
    (by decide +kernel)).2 hok⟩

/-- A VNet gets internet access, and the rule that drops everything from it stays in the chain. Another
one is deleted, and the rule that translates its addresses stays. -/
theorem rules_of_deleted_vnet_stay :
    (∃ s ∈ run (VNetState.step IpNetwork.parseV4) bootState
        [applied (vnetNamed "lab" "10.50.0.0/16" false), applied (vnetNamed "lab" "10.50.0.0/16" true)],
      determined IpNetwork.parseV4 s.store .nsgRules = [] ∧
      contributed (fun _ => []) s.nft .nsgRules = [{
        conditions := [.snetwork (.v4 (Ipv4Addr.new 10 50 0 0) 16), .dnetwork anyNetwork]
        verdict := .drop }] ∧
      ¬ MirrorsVNets IpNetwork.parseV4 (fun _ => []) s) ∧
    ∃ s ∈ run (VNetState.step IpNetwork.parseV4) bootState
        [applied (vnetNamed "lab" "10.50.0.0/16" true), .delete "lab" [{
          resource := .vNet (createdVNet "u-1" (vnetNamed "lab" "10.50.0.0/16" true))
          state := .pending }]],
      storedVNets s.store = [] ∧
      contributed (fun _ => []) s.nft .postrouting = [{
        conditions := [.snetwork (.v4 (Ipv4Addr.new 10 50 0 0) 16)]
        verdict := .masquerade }] ∧
      ¬ MirrorsVNets IpNetwork.parseV4 (fun _ => []) s := by
  decide +kernel

end Z8s.Network
