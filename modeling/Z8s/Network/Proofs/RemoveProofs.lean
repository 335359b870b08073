import Z8s.Network.Proofs.SyncProofs

/-!
# Proofs: removal of a Service

As long as every batch is answered, the hooks jump to every chain of a Service.
-/

namespace Z8s.Network

open Rust Collections Z8s.Types Netmux Nftables NftEngine AnyResource List

variable {svc : Service} {c hook : String} {nm : NetworkManager} {e : NftEngine}

/-- The chains of the Services are those to which the hooks jump, and the tracked ones. -/
structure Linked (e : NftEngine) : Prop where
  hooks : HooksExist e
  tracked : ∀ ip port, (e.ruleset.rules natTable (chainName ip port)).isSome → (ip, port) ∈ e.jumpTrack
  nodeTracked : ∀ nodePort, (e.ruleset.rules natTable (nodeportChainName nodePort)).isSome →
    nodePort ∈ e.nodeportJumpTrack
  jumps : ∀ ip port, (ip, port) ∈ e.jumpTrack → ∀ h ∈ jumpHooks,
    0 < e.ruleset.jumpCount natTable h (chainName ip port)
  nodeJumps : ∀ nodePort ∈ e.nodeportJumpTrack, ∀ h ∈ jumpHooks,
    0 < e.ruleset.jumpCount natTable h (nodeportChainName nodePort)
  existing : ∀ h ∈ jumpHooks, ∀ c, 0 < e.ruleset.jumpCount natTable h c →
    (e.ruleset.rules natTable c).isSome

def IsServiceChain (c : String) : Prop :=
  (∃ ip port, c = chainName ip port) ∨ ∃ nodePort, c = nodeportChainName nodePort

theorem isServiceChain_of_mem (h : c ∈ chainsOf svc) : IsServiceChain c := by
  obtain ⟨p, -, h⟩ := mem_flatMap.1 h
  rcases mem_append.1 h with h | h
  · split_ifs at h
    · exact .inl ⟨_, _, mem_singleton.1 h⟩
    · cases h
  · obtain ⟨nodePort, -, heq⟩ := Option.map_eq_some_iff.1 (Option.mem_toList.1 h)
    exact .inr ⟨nodePort, heq.symm⟩

namespace Linked

variable {e : NftEngine} {ip : Ipv4Addr} {port nodePort : U16} {backends : List (Ipv4Addr × U16)}
  {out : Nat → Nftables.Outcome}

theorem isSome_iff_jumps (h : Linked e) (hc : IsServiceChain c) (hhook : hook ∈ jumpHooks) :
    (e.ruleset.rules natTable c).isSome ↔ 0 < e.ruleset.jumpCount natTable hook c := by
  refine ⟨fun hsome => ?_, h.existing hook hhook c⟩
  rcases hc with ⟨ip, port, rfl⟩ | ⟨nodePort, rfl⟩
  · exact h.jumps ip port (h.tracked ip port hsome) hook hhook
  · exact h.nodeJumps nodePort (h.nodeTracked nodePort hsome) hook hhook

/-- What a call with every batch answered does to the chains of the Services: one is made, with jumps
from the hooks unless it is tracked. -/
theorem of_forwarded {e' : NftEngine} {svc : String} {conditions : List Match} {tracked : Bool}
    (h : Linked e) (hsvc : svc ∉ jumpHooks) (hout : ∀ n, out n = .answered)
    (hrs : e'.ruleset = (forwarded e.ruleset svc backends conditions tracked out).1)
    (htracked : tracked = true → ∀ h ∈ jumpHooks, 0 < e.ruleset.jumpCount natTable h svc)
    (htrack : ∀ ip port, (ip, port) ∈ e'.jumpTrack ↔ (ip, port) ∈ e.jumpTrack ∨ chainName ip port = svc)
    (hnodeTrack : ∀ nodePort, nodePort ∈ e'.nodeportJumpTrack ↔
      nodePort ∈ e.nodeportJumpTrack ∨ nodeportChainName nodePort = svc) : Linked e' := by
  obtain ⟨hrules, hcount⟩ := forwarded_answered hsvc h.hooks backends conditions tracked hout
  rw [← hrs] at hrules hcount
  have hhooks : HooksExist e' := by
    unfold HooksExist
    rw [hrs]
    exact isSome_forwarded hsvc h.hooks _ _ _ _
  have hmade : (e'.ruleset.rules natTable svc).isSome := by
    rw [hrules _ _ hsvc, if_pos ⟨rfl, rfl⟩]
    rfl
  have hexists (c : String) (hc : c ∉ jumpHooks) (hsome : (e'.ruleset.rules natTable c).isSome) :
      (e.ruleset.rules natTable c).isSome ∨ c = svc := by
    by_cases heq : c = svc
    · exact .inr heq
    · rw [hrules _ _ hc, if_neg fun hc => heq hc.2] at hsome
      exact .inl hsome
  have hjumped (c hook : String) (hhook : hook ∈ jumpHooks)
      (hc : 0 < e.ruleset.jumpCount natTable hook c ∨ c = svc) :
      0 < e'.ruleset.jumpCount natTable hook c := by
    rw [hcount hook hhook]
    rcases hc with hc | rfl
    · omega
    · cases htr : tracked with
      | true =>
        have hpos := htracked htr hook hhook
        omega
      | false => simp
  refine ⟨hhooks, fun ip port hsome => (htrack ip port).2 ?_, fun nodePort hsome => (hnodeTrack _).2 ?_,
    fun ip port hmem hook hhook => hjumped _ hook hhook ?_,
    fun nodePort hmem hook hhook => hjumped _ hook hhook ?_, fun hook hhook c hpos => ?_⟩
  · exact (hexists _ (chainName_notMem_jumpHooks ip port) hsome).imp_left (h.tracked ip port)
  · exact (hexists _ (nodeportChainName_notMem_jumpHooks nodePort) hsome).imp_left (h.nodeTracked nodePort)
  · exact ((htrack ip port).1 hmem).imp_left fun hold => h.jumps ip port hold hook hhook
  · exact ((hnodeTrack nodePort).1 hmem).imp_left fun hold => h.nodeJumps nodePort hold hook hhook
  · by_cases hc : c ∈ jumpHooks
    · exact hhooks c hc
    · by_cases heq : c = svc
      · rw [heq]
        exact hmade
      · rw [hcount hook hhook, if_neg fun hboth => heq hboth.2] at hpos
        rw [hrules _ _ hc, if_neg fun hboth => heq hboth.2]
        exact h.existing hook hhook c hpos

theorem addDnat (h : Linked e) (hout : ∀ n, out n = .answered) :
    Linked (e.addDnat ip port backends out).1 := by
  have hnat := Ruleset.isSome_get (h.hooks "output" (by simp [jumpHooks]))
  refine h.of_forwarded (chainName_notMem_jumpHooks ip port) hout (ruleset_addDnat e ip port backends out)
    (fun htracked hook hhook => h.jumps ip port (of_decide_eq_true htracked) hook hhook)
    (fun ip' port' => ?_) fun nodePort => ?_
  · rw [mem_jumpTrack_addDnat e ip port backends hnat hout, chainName_inj, Prod.mk.injEq]
  · rw [nodeportJumpTrack_addDnat]
    refine ⟨.inl, fun hor => hor.resolve_right fun heq => ?_⟩
    exact chainName_ne_nodeportChainName ip port nodePort heq.symm

theorem addNodeportDnat (h : Linked e) (hout : ∀ n, out n = .answered) :
    Linked (e.addNodeportDnat nodePort backends out).1 := by
  by_cases hempty : backends = []
  · subst hempty
    exact h
  · have hnat := Ruleset.isSome_get (h.hooks "output" (by simp [jumpHooks]))
    refine h.of_forwarded (nodeportChainName_notMem_jumpHooks nodePort) hout
      (ruleset_addNodeportDnat e nodePort backends out hempty)
      (fun htracked hook hhook => h.nodeJumps nodePort (of_decide_eq_true htracked) hook hhook)
      (fun ip port => ?_) fun nodePort' => ?_
    · rw [jumpTrack_addNodeportDnat]
      refine ⟨.inl, fun hor => hor.resolve_right fun heq => ?_⟩
      exact chainName_ne_nodeportChainName ip port nodePort heq
    · rw [mem_nodeportJumpTrack e nodePort backends hnat hempty hout, nodeportChainName_inj]

theorem syncPorts {env : Nat → PortEnv} (ports : List ServicePort) (h : Linked nm.nft) (hout : Answered env) :
    Linked (Network.syncPorts svc nm env ports).nft := by
  induction ports generalizing nm env with
  | nil => exact h
  | cons p rest ih =>
    have hcluster : Linked (syncClusterIp svc nm p (env 0)).nft := by
      unfold syncClusterIp
      split_ifs
      · exact h.addDnat fun n => (hout 0 n).1
      · exact h
    refine ih ?_ fun i n => hout (i + 1) n
    unfold syncNodePort
    split
    · exact (hcluster.addDnat fun n => (hout 0 n).2.1).addNodeportDnat fun n => (hout 0 n).2.2
    · exact hcluster

theorem syncAll {calls : List SyncCall} (h : Linked nm.nft) (hout : ∀ call ∈ calls, Answered call.env) :
    Linked (Network.syncAll nm calls).nft := by
  induction calls generalizing nm with
  | nil => exact h
  | cons call calls ih =>
    rw [forall_mem_cons] at hout
    exact ih (h.syncPorts _ hout.1) hout.2

theorem fresh (e : NftEngine) : Linked (freshManager e).nft := by
  obtain ⟨rs, hinit, hnat, -⟩ := init_answered e (fun _ => .answered) fun _ => rfl
  have hkeys : initNat.keys = ["output", "postrouting", "prerouting"] := rfl
  have hhooks := hooks_fresh e
  unfold freshManager initialised at hhooks ⊢
  rw [hinit] at hhooks ⊢
  have hmissing (c : String) (hc : c ∉ ["output", "postrouting", "prerouting"]) :
      rs.rules natTable c = none := by
    rw [Ruleset.rules_of_get hnat, Option.map_eq_none_iff, Option.eq_none_iff_forall_ne_some]
    intro ch hch
    exact hc (hkeys ▸ HashMap.mem_keys.2 ⟨ch, hch⟩)
  have hcount (hook c : String) (hhook : hook ∈ jumpHooks) : rs.jumpCount natTable hook c = 0 := by
    unfold Ruleset.jumpCount
    rw [Ruleset.rules_of_get hnat]
    rcases mem_cons.1 hhook with rfl | hhook
    · rfl
    · rw [mem_singleton.1 hhook]
      rfl
  refine ⟨hhooks, fun ip port hsome => ?_, fun nodePort hsome => ?_, nofun, nofun, fun hook hhook c hpos => ?_⟩
  · rw [hmissing _ (chainName_notMem_of_heads ip port (by decide))] at hsome
    cases hsome
  · rw [hmissing _ (nodeportChainName_notMem_of_heads nodePort (by decide))] at hsome
    cases hsome
  · rw [hcount hook c hhook] at hpos
    exact absurd hpos (lt_irrefl 0)

end Linked

/-! ### A removal -/

def Anchored (rs : Ruleset Hook Match) : Prop :=
  ∀ c, IsServiceChain c → (rs.rules natTable c).isSome → rs.Targeted natTable c

theorem targeted_of_jumpCount {rs : Ruleset Hook Match} (h : 0 < rs.jumpCount natTable hook c) :
    rs.Targeted natTable c := by
  unfold Ruleset.jumpCount at h
  obtain ⟨r, hr, hjump⟩ := countP_pos_iff.1 h
  cases hrules : rs.rules natTable hook with
  | none => simp [hrules] at hr
  | some rules =>
    rw [hrules] at hr
    exact ⟨hook, rules, hrules, r, hr, by simpa using hjump⟩

theorem Linked.anchored (h : Linked e) : Anchored e.ruleset := by
  intro c hc hsome
  have hhook : "output" ∈ jumpHooks := by simp [jumpHooks]
  exact targeted_of_jumpCount ((h.isSome_iff_jumps hc hhook).1 hsome)

section Remove

variable {nm : NetworkManager} {ns name : String}

theorem ruleset_removeDnat (h : Anchored e.ruleset) (ip : Ipv4Addr) (port : U16)
    (out : Nat → Nftables.Outcome) : (e.removeDnat ip port out).1.ruleset = e.ruleset := by
  have hrun : (e.run out [.ok [.delChain natTable (chainName ip port)]]).1.ruleset = e.ruleset := by
    refine run_invariant (P := fun rs => rs = e.ruleset) (fun b hb rs rs' heq hexec => ?_) out rfl
    obtain rfl := Except.ok.inj (mem_singleton.1 hb)
    rw [exec_singleton, heq] at hexec
    exact absurd (h _ (.inl ⟨ip, port, rfl⟩) (isSome_of_delChain hexec)) (not_targeted_of_delChain hexec)
  exact andThen_keeps (P := fun e' : NftEngine => e'.ruleset = e.ruleset) hrun fun _ h => h

theorem ruleset_removeKey (h : Anchored nm.nft.ruleset) (listed : List ResourceTracker)
    (out : Nat → Nat → Nftables.Outcome) (key : String) :
    (removeKey ns name listed out nm key).nft.ruleset = nm.nft.ruleset := by
  unfold removeKey
  refine List.foldlRecOn (motive := fun nft : NftEngine => nft.ruleset = nm.nft.ruleset) _ _ rfl
    fun nft hnft t _ => ?_
  split
  · split_ifs
    · split
      · rw [ruleset_removeDnat (hnft ▸ h)]
        exact hnft
      · exact hnft
    · exact hnft
  · exact hnft

theorem ruleset_removeService (ns name : String) (h : Anchored nm.nft.ruleset) (env : RemoveEnv) :
    (removeService nm ns name env).nft.ruleset = nm.nft.ruleset := by
  unfold removeService
  refine List.foldlRecOn (motive := fun nm' : NetworkManager => nm'.nft.ruleset = nm.nft.ruleset) _ _ rfl
    fun nm' hnm t _ => ?_
  exact (ruleset_removeKey (hnm ▸ h) _ _ _).trans hnm

theorem proxies_foldl_removeKey (listed : Nat → List ResourceTracker) (out : Nat → Nat → Nat → Nftables.Outcome)
    (keys : List String) (n : Nat) :
    ((keys.zipIdx n).foldl (fun nm k => removeKey ns name (listed k.2) (out k.2) nm k.1) nm).proxies =
      nm.proxies.removeAll keys := by
  induction keys generalizing nm n with
  | nil => rfl
  | cons key keys ih =>
    rw [zipIdx_cons, foldl_cons, ih]
    rfl

theorem containsKey_removeService (ns name : String) {env : RemoveEnv}
    (hkeys : env.keys.Perm nm.proxies.keys) (k : String) :
    (removeService nm ns name env).proxies.containsKey k = true ↔
      nm.proxies.containsKey k = true ∧ startsWith k (ns ++ "/" ++ name) = false := by
  have hproxies : (removeService nm ns name env).proxies =
      nm.proxies.removeAll (env.keys.filter fun k => startsWith k (ns ++ "/" ++ name)) :=
    proxies_foldl_removeKey env.listed env.out _ 0
  unfold HashMap.containsKey
  rw [hproxies, HashMap.get_removeAll]
  by_cases hget : (nm.proxies.get k).isSome = true
  · have hmem : k ∈ env.keys := by
      obtain ⟨v, hv⟩ := Option.isSome_iff_exists.1 hget
      exact hkeys.mem_iff.2 (HashMap.mem_keys.2 ⟨v, hv⟩)
    by_cases hstarts : startsWith k (ns ++ "/" ++ name) = true
    · simp [hmem, hstarts]
    · simp [hstarts, hget]
  · have hnone : nm.proxies.get k = none := by simpa using hget
    simp [hnone]

theorem deleteService_fst {store : ResourceStore} {listed : List ResourceTracker}
    (hheld : store.Holds (.service svc)) (hlisted : listed.Perm (store.getByKind "Service"))
    (env : RemoveEnv) :
    (deleteService nm store listed (service svc).namespaceOf (service svc).name
      env).1 =
      removeService nm (service svc).namespaceOf (service svc).name env := by
  obtain ⟨state, hget⟩ := hheld
  have hmem : (⟨.service svc, state⟩ : ResourceTracker) ∈ listed :=
    hlisted.mem_iff.2 (ResourceStore.mem_getByKind.2 ⟨hget, rfl⟩)
  unfold deleteService
  cases hfind : listed.find? fun t => t.resource.namespaceOf == (service svc).namespaceOf &&
      t.resource.name == (service svc).name with
  | none =>
    have hnone := find?_eq_none.1 hfind _ hmem
    simp at hnone
  | some t =>
    have hsame := find?_some hfind
    simp only [Bool.and_eq_true, beq_iff_eq] at hsame
    simp only [hsame.1, hsame.2]

end Remove

/-- After synchronisations whose batches are all answered, the deletion of a Service takes away what
belongs to it, and nothing else, exactly when it forwards nothing and when its keys are the ones that
start with its namespace and name. -/
theorem removedExactly_iff (e : NftEngine) {calls : List SyncCall}
    (hout : ∀ call ∈ calls, Answered call.env) {store : ResourceStore} {listed : List ResourceTracker}
    {svc : Service} {env : RemoveEnv} (hheld : store.Holds (.service svc))
    (hlisted : listed.Perm (store.getByKind "Service"))
    (hkeys : env.keys.Perm (syncAll (freshManager e) calls).proxies.keys) (svcs : List Service) :
    RemovedExactly svcs svc (syncAll (freshManager e) calls)
        (deleteService (syncAll (freshManager e) calls) store listed (AnyResource.service svc).namespaceOf
          (AnyResource.service svc).name env).1 ↔
      RemovesCleanly svc (syncAll (freshManager e) calls) := by
  have hlinked := (Linked.fresh e).syncAll hout
  rw [deleteService_fst hheld hlisted]
  generalize syncAll (freshManager e) calls = nm at hlinked hkeys ⊢
  have hcontains := containsKey_removeService (service svc).namespaceOf
    (service svc).name hkeys
  have hrs := ruleset_removeService (service svc).namespaceOf (service svc).name
    hlinked.anchored env
  generalize removeService nm _ _ env = nm' at hcontains hrs ⊢
  constructor
  · intro h
    refine ⟨fun c hc => ?_, fun k hk => ?_⟩
    · by_contra hsome
      have hhook : "output" ∈ jumpHooks := by simp [jumpHooks]
      have hzero := h.gone c hc "output" hhook
      have hpos := (hlinked.isSome_iff_jumps (isServiceChain_of_mem hc) hhook).1
        (Option.isSome_iff_ne_none.2 hsome)
      rw [hrs] at hzero
      omega
    · have hboth := (hcontains k).symm.trans (h.keys k)
      simp only [hk, true_and] at hboth
      rw [← Bool.not_eq_false, hboth, not_not]
  · rintro ⟨hchains, hstarts⟩
    refine ⟨fun k => ?_, fun c hc hook hhook => ?_, fun other _ _ c _ => ?_⟩
    · rw [hcontains k]
      refine and_congr_right fun hk => ?_
      rw [← hstarts k hk, Bool.not_eq_true]
    · rw [hrs]
      by_contra hne
      have hsome := (hlinked.isSome_iff_jumps (isServiceChain_of_mem hc) hhook).2 (Nat.pos_of_ne_zero hne)
      rw [hchains c hc] at hsome
      cases hsome
    · rw [hrs]
      exact ⟨rfl, fun _ _ => rfl⟩

private def noTables : NftEngine where
  ruleset := ∅
  jumpTrack := []
  nodeportJumpTrack := []

private def onPort80 (name ip : String) (selector : BTreeMap String String) : Service where
  metadata := { name := some name, inNamespace := some "default" }
  spec := some { clusterIp := some ip, selector := some selector, ports := some [{ port := asI32 80 }] }

private def webLabels : BTreeMap String String := BTreeMap.insert ∅ "app" "web"

private def shop : Service := onPort80 "web" "10.96.0.10" webLabels

private def shopApi : Service := onPort80 "web-api" "10.96.0.11" webLabels

private def external : Service := onPort80 "db" "10.96.0.12" ∅

private def bothSynced : List SyncCall := [⟨shop, fun _ => {}⟩, ⟨shopApi, fun _ => {}⟩]

private def threeServices : ResourceStore :=
  ((ResourceStore.new.apply (.service shop)).apply (.service shopApi)).apply (.service external)

private def asStored : RemoveEnv where
  keys := (syncAll (freshManager noTables) bothSynced).proxies.keys
  listed _ := threeServices.getByKind "Service"
  out _ _ _ := .answered

private theorem answered_bothSynced : ∀ call ∈ bothSynced, Answered call.env := by
  intro call hcall
  rcases mem_cons.1 hcall with rfl | hcall
  · exact fun _ _ => ⟨rfl, rfl, rfl⟩
  · rw [mem_singleton.1 hcall]
    exact fun _ _ => ⟨rfl, rfl, rfl⟩

theorem removedExactly_external :
    RemovedExactly [shop, shopApi, external] external (syncAll (freshManager noTables) bothSynced)
      (deleteService (syncAll (freshManager noTables) bothSynced) threeServices
        (threeServices.getByKind "Service") "default" "db" asStored).1 := by
  have hheld : threeServices.Holds (.service external) := ⟨.pending, by decide +kernel⟩
  have hkeys : (syncAll (freshManager noTables) bothSynced).proxies.keys =
      ["default/web-api:clusterip:80", "default/web:clusterip:80"] := by decide +kernel
  refine (removedExactly_iff noTables answered_bothSynced hheld (List.Perm.refl _) (List.Perm.refl _)
    _).2 ⟨nofun, fun k hk => ?_⟩
  obtain ⟨v, hv⟩ := Option.isSome_iff_exists.1 hk
  have hmem : k ∈ (syncAll (freshManager noTables) bothSynced).proxies.keys := HashMap.mem_keys.2 ⟨v, hv⟩
  rw [hkeys] at hmem
  rcases mem_cons.1 hmem with rfl | hmem
  · decide +kernel
  · rw [mem_singleton.1 hmem]
    decide +kernel

/-- The Service `web` is deleted: the jump to its chain stays, and the key of `web-api` is lost. -/
theorem deleted_service_still_forwards :
    ∃ nm, (deleteService (syncAll (freshManager noTables) bothSynced) threeServices
        (threeServices.getByKind "Service") "default" "web" asStored).1 = nm ∧
      nm.proxies.keys = [] ∧
      nm.nft.ruleset.jumpCount natTable "prerouting" (chainName (clusterIpAddr shop) 80) = 1 ∧
      ¬ RemovedExactly [shop, shopApi, external] shop (syncAll (freshManager noTables) bothSynced) nm := by
  refine ⟨_, rfl, by decide +kernel, by decide +kernel, fun h => ?_⟩
  have hzero := h.gone (chainName (clusterIpAddr shop) 80) (by decide +kernel) "prerouting" (by decide)
  exact absurd hzero (by decide +kernel)

end Z8s.Network
