import Z8s.Network.Safety
import Z8s.Netmux.Proofs.DnatProofs

/-!
# Proofs: synchronisation of the service proxies

A synchronisation appends a rule for every backend to the chains of the ClusterIP and removes none, so
that the chains name the backends of the last call exactly when there were no rules before.
-/

namespace Z8s.Network

open Rust Collections Z8s.Types Netmux Nftables Cri NftEngine List

def HooksExist (e : NftEngine) : Prop := ∀ h ∈ jumpHooks, (e.ruleset.rules natTable h).isSome

section Calls

variable {e : NftEngine} {ip ip' : Ipv4Addr} {port port' nodePort : U16} {backends : List (Ipv4Addr × U16)}
  {out : Nat → Nftables.Outcome}

theorem HooksExist.addDnat (h : HooksExist e) : HooksExist (e.addDnat ip port backends out).1 := by
  unfold HooksExist
  rw [ruleset_addDnat]
  exact isSome_forwarded (chainName_notMem_jumpHooks ip port) h _ _ _ _

theorem HooksExist.addNodeportDnat (h : HooksExist e) :
    HooksExist (e.addNodeportDnat nodePort backends out).1 := by
  by_cases hempty : backends = []
  · subst hempty
    exact h
  · unfold HooksExist
    rw [ruleset_addNodeportDnat e nodePort backends out hempty]
    exact isSome_forwarded (nodeportChainName_notMem_jumpHooks nodePort) h _ _ _ _

theorem filterMap_dnatRule (conditions : List Match) (backends : List (Ipv4Addr × U16)) :
    (backends.map (dnatRule conditions)).filterMap dnatTarget = backends := by
  have hrule (b : Ipv4Addr × U16) : dnatTarget (dnatRule conditions b) = some b := rfl
  simp [filterMap_map, hrule]

theorem dnatTargets_addDnat (h : HooksExist e) (hout : ∀ n, out n = .answered) :
    dnatTargets (e.addDnat ip port backends out).1 ip' port' =
      dnatTargets e ip' port' ++ if ip' = ip ∧ port' = port then backends else [] := by
  obtain ⟨hrules, -⟩ := forwarded_answered (chainName_notMem_jumpHooks ip port) h backends
    [.daddr ip, .tcpDport port] (decide ((ip, port) ∈ e.jumpTrack)) hout
  unfold dnatTargets
  rw [ruleset_addDnat, hrules _ _ (chainName_notMem_jumpHooks ip' port')]
  by_cases hsame : ip' = ip ∧ port' = port
  · obtain ⟨rfl, rfl⟩ := hsame
    rw [if_pos ⟨rfl, rfl⟩, if_pos ⟨rfl, rfl⟩, Option.getD_some, filterMap_append, filterMap_dnatRule]
  · simp [chainName_inj, hsame]

theorem dnatTargets_addNodeportDnat (h : HooksExist e) (hout : ∀ n, out n = .answered) :
    dnatTargets (e.addNodeportDnat nodePort backends out).1 ip port = dnatTargets e ip port := by
  by_cases hempty : backends = []
  · subst hempty
    rfl
  · obtain ⟨hrules, -⟩ := forwarded_answered (nodeportChainName_notMem_jumpHooks nodePort) h backends
      [.tcpDport nodePort] (decide (nodePort ∈ e.nodeportJumpTrack)) hout
    unfold dnatTargets
    rw [ruleset_addNodeportDnat e nodePort backends out hempty,
      hrules _ _ (chainName_notMem_jumpHooks ip port),
      if_neg fun hc => chainName_ne_nodeportChainName ip port nodePort hc.2]

end Calls

section Ports

variable {svc : Service} {nm : NetworkManager} {env : Nat → PortEnv} {p : ServicePort}

theorem hooks_syncClusterIp {env : PortEnv} (h : HooksExist nm.nft) :
    HooksExist (syncClusterIp svc nm p env).nft := by
  unfold syncClusterIp
  split_ifs
  · exact h.addDnat
  · exact h

theorem hooks_syncNodePort {env : PortEnv} (h : HooksExist nm.nft) :
    HooksExist (syncNodePort svc nm p env).nft := by
  unfold syncNodePort
  split
  · exact h.addDnat.addNodeportDnat
  · exact h

theorem hooks_syncPorts (ports : List ServicePort) (h : HooksExist nm.nft) :
    HooksExist (syncPorts svc nm env ports).nft := by
  induction ports generalizing nm env with
  | nil => exact h
  | cons p rest ih => exact ih (hooks_syncNodePort (hooks_syncClusterIp h))

theorem hooks_syncAll (calls : List SyncCall) (h : HooksExist nm.nft) : HooksExist (syncAll nm calls).nft := by
  induction calls generalizing nm with
  | nil => exact h
  | cons call calls ih => exact ih (hooks_syncPorts _ h)

theorem dnatTargets_syncPort (h : HooksExist nm.nft) (hout : Answered env) (port : U16) :
    dnatTargets (syncNodePort svc (syncClusterIp svc nm p (env 0)) p (env 0)).nft (clusterIpAddr svc) port =
      dnatTargets nm.nft (clusterIpAddr svc) port ++
        ((clusterCalls svc env [p]).filter (·.1 == port)).flatMap Prod.snd := by
  have hcluster : dnatTargets (syncClusterIp svc nm p (env 0)).nft (clusterIpAddr svc) port =
      dnatTargets nm.nft (clusterIpAddr svc) port ++
        if hasClusterIp svc = true ∧ port = asU16 p.port then backendsOf svc p (env 0).cluster else [] := by
    unfold syncClusterIp
    by_cases hip : hasClusterIp svc = true
    · rw [if_pos hip, dnatTargets_addDnat h fun n => (hout 0 n).1]
      simp [hip]
    · rw [if_neg hip]
      simp [hip]
  have hnode : dnatTargets (syncNodePort svc (syncClusterIp svc nm p (env 0)) p (env 0)).nft
        (clusterIpAddr svc) port = dnatTargets (syncClusterIp svc nm p (env 0)).nft (clusterIpAddr svc) port ++
        if (nodePortOf svc p).isSome = true ∧ port = asU16 p.port then backendsOf svc p (env 0).node
        else [] := by
    unfold syncNodePort
    cases hport : nodePortOf svc p with
    | none => simp
    | some nodePort =>
      have hhooks : HooksExist ((syncClusterIp svc nm p (env 0)).nft.addDnat (clusterIpAddr svc)
          (asU16 p.port) (backendsOf svc p (env 0).node) (env 0).nodeClusterOut).1 :=
        (hooks_syncClusterIp h).addDnat
      simp only
      rw [dnatTargets_addNodeportDnat hhooks fun n => (hout 0 n).2.2,
        dnatTargets_addDnat (hooks_syncClusterIp h) fun n => (hout 0 n).2.1]
      simp
  rw [hnode, hcluster, append_assoc]
  congr 1
  by_cases hport : port = asU16 p.port
  · subst hport
    by_cases hip : hasClusterIp svc = true <;> by_cases hnp : (nodePortOf svc p).isSome = true <;>
      simp [clusterCalls, hip, hnp]
  · have hne : (asU16 p.port == port) = false := by simpa using Ne.symm hport
    by_cases hip : hasClusterIp svc = true <;> by_cases hnp : (nodePortOf svc p).isSome = true <;>
      simp [clusterCalls, hip, hnp, hport, hne]

theorem dnatTargets_syncPorts (ports : List ServicePort) (h : HooksExist nm.nft) (hout : Answered env)
    (port : U16) :
    dnatTargets (syncPorts svc nm env ports).nft (clusterIpAddr svc) port =
      dnatTargets nm.nft (clusterIpAddr svc) port ++
        ((clusterCalls svc env ports).filter (·.1 == port)).flatMap Prod.snd := by
  induction ports generalizing nm env with
  | nil => simp [syncPorts, clusterCalls]
  | cons p rest ih =>
    have hsplit : clusterCalls svc env (p :: rest) =
        clusterCalls svc env [p] ++ clusterCalls svc (fun i => env (i + 1)) rest := by
      simp [clusterCalls]
    rw [syncPorts, ih (hooks_syncNodePort (hooks_syncClusterIp h)) fun i n => hout (i + 1) n,
      dnatTargets_syncPort h hout, hsplit, filter_append, flatMap_append, append_assoc]

theorem syncServiceProxies_congr {svc' : Service} (hname : svc.metadata.name = svc'.metadata.name)
    (hns : svc.metadata.inNamespace = svc'.metadata.inNamespace) (hspec : svc.spec = svc'.spec) :
    syncServiceProxies svc nm env = syncServiceProxies svc' nm env := by
  have hports : proxiedPorts svc = proxiedPorts svc' := by
    unfold proxiedPorts selectorOf
    rw [hspec]
  unfold syncServiceProxies
  rw [hports]
  induction proxiedPorts svc' generalizing nm env with
  | nil => rfl
  | cons p rest ih =>
    have hport : syncNodePort svc (syncClusterIp svc nm p (env 0)) p (env 0) =
        syncNodePort svc' (syncClusterIp svc' nm p (env 0)) p (env 0) := by
      obtain ⟨m, spec, status⟩ := svc
      obtain ⟨m', spec', status'⟩ := svc'
      cases m
      cases m'
      cases hname
      cases hns
      cases hspec
      rfl
    rw [syncPorts, syncPorts, hport, ih]

theorem containsKey_syncPorts (ports : List ServicePort) (k : String) :
    (syncPorts svc nm env ports).proxies.containsKey k = true ↔ nm.proxies.containsKey k = true ∨
      ∃ p ∈ ports, (hasClusterIp svc = true ∧ k = clusterKey svc p) ∨
        ∃ nodePort ∈ nodePortOf svc p, k = nodeKey svc nodePort := by
  have hadd : ∀ (m : HashMap String Unit) (k' : String),
      ((m.remove k').insert k' ()).containsKey k = true ↔ m.containsKey k = true ∨ k = k' := by
    intro m k'
    unfold HashMap.containsKey
    rw [HashMap.get_insert, HashMap.get_remove]
    by_cases hk : k = k' <;> simp [hk]
  induction ports generalizing nm env with
  | nil => simp [syncPorts]
  | cons p rest ih =>
    have hcluster : (syncClusterIp svc nm p (env 0)).proxies.containsKey k = true ↔
        nm.proxies.containsKey k = true ∨ (hasClusterIp svc = true ∧ k = clusterKey svc p) := by
      unfold syncClusterIp
      split_ifs with hip
      · rw [hadd]
        simp [hip]
      · simp [hip]
    have hnode : (syncNodePort svc (syncClusterIp svc nm p (env 0)) p (env 0)).proxies.containsKey k = true ↔
        (syncClusterIp svc nm p (env 0)).proxies.containsKey k = true ∨
          ∃ nodePort ∈ nodePortOf svc p, k = nodeKey svc nodePort := by
      unfold syncNodePort
      cases nodePortOf svc p with
      | none => simp
      | some nodePort =>
        simp only [hadd]
        simp
    rw [syncPorts]
    refine ih.trans ?_
    rw [hnode, hcluster, exists_mem_cons_iff]
    simp only [or_assoc]

theorem keysOf_eq_nil_iff :
    keysOf svc = [] ↔ ∀ p ∈ proxiedPorts svc, hasClusterIp svc = false ∧ nodePortOf svc p = none := by
  unfold keysOf
  rw [flatMap_eq_nil_iff]
  refine forall₂_congr fun p _ => ?_
  rw [append_eq_nil_iff]
  cases hasClusterIp svc <;> cases nodePortOf svc p <;> simp

theorem syncServiceProxies_of_no_keys (h : keysOf svc = []) : syncServiceProxies svc nm env = nm := by
  have hports := keysOf_eq_nil_iff.1 h
  unfold syncServiceProxies
  revert hports
  induction proxiedPorts svc generalizing env with
  | nil => exact fun _ => rfl
  | cons p rest ih =>
    intro hports
    obtain ⟨hip, hport⟩ := hports p mem_cons_self
    have hcluster : syncClusterIp svc nm p (env 0) = nm := by
      rw [syncClusterIp, hip]
      rfl
    have hnode : syncNodePort svc nm p (env 0) = nm := by
      rw [syncNodePort, hport]
    rw [syncPorts, hcluster, hnode]
    exact ih fun q hq => hports q (mem_cons_of_mem _ hq)

theorem keysOf_eq_nil (hfresh : nm.proxies = ∅) (h : syncServiceProxies svc nm env = nm) : keysOf svc = [] := by
  rw [eq_nil_iff_forall_not_mem]
  intro k hk
  have hcontains : nm.proxies.containsKey k = true := by
    rw [← h, syncServiceProxies, containsKey_syncPorts]
    obtain ⟨p, hp, hkey⟩ := mem_flatMap.1 hk
    refine .inr ⟨p, hp, ?_⟩
    rcases mem_append.1 hkey with hcluster | hnode
    · by_cases hip : hasClusterIp svc = true
      · rw [if_pos hip] at hcluster
        exact .inl ⟨hip, mem_singleton.1 hcluster⟩
      · rw [if_neg hip] at hcluster
        cases hcluster
    · rw [Option.mem_toList, Option.map_eq_some_iff] at hnode
      obtain ⟨nodePort, hport, rfl⟩ := hnode
      exact .inr ⟨nodePort, hport, rfl⟩
  rw [hfresh] at hcontains
  cases hcontains

end Ports

theorem append_perm_right_iff {α : Type*} {xs ys : List α} : (xs ++ ys).Perm ys ↔ xs = [] := by
  constructor
  · intro h
    have hlen := h.length_eq
    rw [length_append] at hlen
    exact length_eq_zero_iff.1 (by omega)
  · rintro rfl
    exact .refl _

theorem hooks_fresh (e : NftEngine) : HooksExist (freshManager e).nft := (JumpInv.init e).hooks

/-- After a call whose batches are all answered the chains of the ClusterIP name the backends that the
call resolved exactly when the call found no rules in them. -/
theorem mirrorsBackends_iff (e : NftEngine) (calls : List SyncCall) (svc : Service) {env : Nat → PortEnv}
    (hout : Answered env) :
    MirrorsBackends svc env (syncServiceProxies svc (syncAll (freshManager e) calls) env) ↔
      FindsNoRules svc env (syncAll (freshManager e) calls) := by
  unfold MirrorsBackends FindsNoRules
  refine forall_congr' fun port => ?_
  have htargets : dnatTargets (syncServiceProxies svc (syncAll (freshManager e) calls) env).nft
      (clusterIpAddr svc) port = _ :=
    dnatTargets_syncPorts (proxiedPorts svc) (hooks_syncAll calls (hooks_fresh e)) hout port
  rw [htargets]
  change (∀ last ∈ (resolvedFor svc env port).getLast?, List.Perm (_ ++ (resolvedFor svc env port).flatMap
    Prod.snd) last.2) ↔ _
  generalize dnatTargets (syncAll (freshManager e) calls).nft (clusterIpAddr svc) port = old
  rcases eq_nil_or_concat (resolvedFor svc env port) with hnil | ⟨before, last, hlast⟩
  · simp [hnil]
  · rw [hlast]
    simp only [concat_eq_append, getLast?_concat, Option.mem_def, Option.some.injEq, forall_eq',
      flatMap_append, flatMap_singleton, dropLast_concat, ne_eq, append_eq_nil_iff,
      cons_ne_self, and_false, not_false_eq_true, forall_const]
    rw [← append_assoc, append_perm_right_iff, append_eq_nil_iff, flatMap_eq_nil_iff]

private def noChains : NftEngine where
  ruleset := ∅
  jumpTrack := []
  nodeportJumpTrack := []

private def appLabels : BTreeMap String String := BTreeMap.insert ∅ "app" "web"

private def webService : Service where
  metadata := { name := some "web", inNamespace := some "default" }
  spec := some {
    clusterIp := some "10.96.0.10"
    selector := some appLabels
    ports := some [{ port := asI32 80 }] }

private def webPod : Pod where
  metadata := { name := some "web-1", inNamespace := some "default", labels := some appLabels }

private def webInstance : ContainerInstance where
  containerId := "web-1-main"
  containerName := "main"
  image := "nginx"
  pid := some 7
  rootfs := "/"
  publishedPorts := ∅
  isolatedNet := true
  podIp := some (Ipv4Addr.new 10 42 0 5)
  hostVethIfindex := none

private def webRunning : HashMap String RunningContainer :=
  HashMap.insert ∅ "web-1-main" (buildRunningFromInstance "Pod/default/web-1" webInstance)

private def onePod : Nat → PortEnv := fun _ =>
  { cluster := { pods := [.new (.pod webPod)], running := fun _ => webRunning } }

private def webBackend : Ipv4Addr × U16 := (Ipv4Addr.new 10 42 0 5, 80)

theorem mirrorsBackends_first_call :
    Answered onePod ∧
    MirrorsBackends webService onePod (syncServiceProxies webService (syncAll (freshManager noChains) [])
      onePod) := by
  have hanswered : Answered onePod := fun _ _ => ⟨rfl, rfl, rfl⟩
  have hcalls : clusterCalls webService onePod (proxiedPorts webService) = [(80, [webBackend])] := by
    decide +kernel
  refine ⟨hanswered, (mirrorsBackends_iff noChains [] webService hanswered).2 fun port hne => ?_⟩
  obtain rfl : port = 80 := by
    by_contra hport
    refine hne ?_
    unfold resolvedFor
    rw [hcalls]
    simpa using Ne.symm hport
  exact ⟨by decide +kernel, by decide +kernel⟩

/-- The second call of the reconciler adds the rule for the same backend again. -/
theorem backend_twice_after_second_call :
    Answered onePod ∧
    resolvedFor webService onePod 80 = [(80, [webBackend])] ∧
    dnatTargets (syncServiceProxies webService (syncAll (freshManager noChains) [⟨webService, onePod⟩])
      onePod).nft (clusterIpAddr webService) 80 = [webBackend, webBackend] ∧
    ¬ MirrorsBackends webService onePod (syncServiceProxies webService
      (syncAll (freshManager noChains) [⟨webService, onePod⟩]) onePod) := by
  have hresolved : resolvedFor webService onePod 80 = [(80, [webBackend])] := by decide +kernel
  have htargets : dnatTargets (syncServiceProxies webService
      (syncAll (freshManager noChains) [⟨webService, onePod⟩]) onePod).nft (clusterIpAddr webService) 80 =
      [webBackend, webBackend] := by decide +kernel
  refine ⟨fun _ _ => ⟨rfl, rfl, rfl⟩, hresolved, htargets, fun hmirrors => ?_⟩
  have hperm := hmirrors 80 (80, [webBackend]) (by rw [hresolved]; rfl)
  rw [htargets] at hperm
  exact absurd hperm.length_eq (by decide)

end Z8s.Network
