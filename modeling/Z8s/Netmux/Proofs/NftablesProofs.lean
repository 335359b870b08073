import Z8s.Netmux.Nftables
import Z8s.Nftables.Proofs.ScriptProofs

/-!
# Proofs: the nftables engine

The names of the chains, what `send` returns, and the tables that an init leaves.
-/

namespace Z8s.Netmux

open Rust Nftables

variable {rs : Ruleset Hook Match} {names : List String}

section Names

theorem toList_chainName (ip : Ipv4Addr) (port : U16) : (chainName ip port).toList =
    "svc-".toList ++ hexDigits 8 ip.toNat ++ "-".toList ++ hexDigits 4 port.toNat := by
  simp [chainName, hexPadded]

theorem chainName_inj {ip ip' : Ipv4Addr} {port port' : U16} :
    chainName ip port = chainName ip' port' ↔ ip = ip' ∧ port = port' := by
  refine ⟨fun h => ?_, fun h => by rw [h.1, h.2]⟩
  have hlist := congrArg String.toList h
  rw [toList_chainName, toList_chainName] at hlist
  obtain ⟨hhead, hport⟩ := List.append_inj hlist (by simp)
  obtain ⟨hhead, -⟩ := List.append_inj hhead (by simp)
  obtain ⟨-, hip⟩ := List.append_inj hhead rfl
  exact ⟨BitVec.eq_of_toNat_eq (hexDigits_inj (by omega) (by omega) hip),
    BitVec.eq_of_toNat_eq (hexDigits_inj (by omega) (by omega) hport)⟩

theorem toList_nodeportChainName (nodePort : U16) :
    (nodeportChainName nodePort).toList = "np-".toList ++ hexDigits 4 nodePort.toNat := by
  simp [nodeportChainName, hexPadded]

theorem nodeportChainName_inj {nodePort nodePort' : U16} :
    nodeportChainName nodePort = nodeportChainName nodePort' ↔ nodePort = nodePort' := by
  refine ⟨fun h => ?_, fun h => by rw [h]⟩
  have hlist := congrArg String.toList h
  rw [toList_nodeportChainName, toList_nodeportChainName] at hlist
  obtain ⟨-, hport⟩ := List.append_inj hlist rfl
  exact BitVec.eq_of_toNat_eq (hexDigits_inj (by omega) (by omega) hport)

theorem head?_chainName (ip : Ipv4Addr) (port : U16) : (chainName ip port).toList.head? = some 's' := by
  rw [toList_chainName]
  rfl

theorem head?_nodeportChainName (nodePort : U16) :
    (nodeportChainName nodePort).toList.head? = some 'n' := by
  rw [toList_nodeportChainName]
  rfl

theorem chainName_ne_nodeportChainName (ip : Ipv4Addr) (port nodePort : U16) :
    chainName ip port ≠ nodeportChainName nodePort := by
  intro h
  have hhead := head?_chainName ip port
  rw [h, head?_nodeportChainName] at hhead
  exact absurd hhead (by decide)

theorem chainName_notMem_of_heads (ip : Ipv4Addr) (port : U16) (h : ∀ c ∈ names, c.toList.head? ≠ some 's') :
    chainName ip port ∉ names :=
  fun hmem => h _ hmem (head?_chainName ip port)

theorem nodeportChainName_notMem_of_heads (nodePort : U16) (h : ∀ c ∈ names, c.toList.head? ≠ some 'n') :
    nodeportChainName nodePort ∉ names :=
  fun hmem => h _ hmem (head?_nodeportChainName nodePort)

theorem chainName_notMem_jumpHooks (ip : Ipv4Addr) (port : U16) :
    chainName ip port ∉ NftEngine.jumpHooks :=
  chainName_notMem_of_heads ip port (by decide)

theorem nodeportChainName_notMem_jumpHooks (nodePort : U16) :
    nodeportChainName nodePort ∉ NftEngine.jumpHooks :=
  nodeportChainName_notMem_of_heads nodePort (by decide)

end Names

namespace NftEngine

/-- What the kernel refuses counts as success, so that a script ends with an error only where the
exchange does. -/
theorem send_snd (rs : Ruleset Hook Match) (b : Batch Hook Match) (o : Outcome) :
    (send sendResult rs b o).2 = o.result sendResult := by
  cases hexec : b.exec rs with
  | ok rs' => exact send_snd_of_ok hexec o
  | error err =>
    rw [send_snd_of_error hexec]
    split_ifs with ho
    · rw [ho]
      cases err <;> rfl
    · rfl

theorem send_eq (rs : Ruleset Hook Match) (b : Batch Hook Match) (o : Outcome) :
    send sendResult rs b o = ((send sendResult rs b o).1, o.result sendResult) :=
  Prod.ext rfl (send_snd rs b o)

theorem run_single (rs : Ruleset Hook Match) (b : Batch Hook Match) (out : Nat → Outcome) :
    Script.run sendResult rs out [.ok b] = ((send sendResult rs b (out 0)).1, (out 0).result sendResult) := by
  rw [run_cons_ok, send_eq]
  cases (out 0).result sendResult <;> rfl

open Collections HashMap

theorem run_resetTable (rs : Ruleset Hook Match) (table : String) (out : Nat → Outcome)
    (hout : ∀ n, out n = .answered) :
    ∃ rs', Script.run sendResult rs out [.ok [.delTable table], .ok [.addTable table]] = (rs', .ok ()) ∧
      ∀ t, rs'.get t = if t = table then some ∅ else rs.get t := by
  simp only [Script.run, send, hout, exec_singleton, Msg.exec, andThen]
  by_cases hmem : rs.containsKey table = true
  · have hgone : (HashMap.remove rs table).containsKey table = false := by
      simp [HashMap.containsKey, get_remove]
    simp only [hmem, if_true, hgone, Bool.false_eq_true, if_false]
    refine ⟨_, rfl, fun t => ?_⟩
    rw [get_insert]
    split_ifs with ht
    · rfl
    · rw [get_remove, if_neg ht]
  · have hres : sendResult (.netlink Errno.enoent.code) = .ok () := rfl
    simp only [hmem, Bool.false_eq_true, if_false, hres]
    exact ⟨_, rfl, fun t => get_insert rs table t ∅⟩

def initNat : Table Hook Match :=
  ((Table.addChain ∅ "prerouting" (some ⟨.nat, .preRouting, hookPrioNat⟩)).addChain
    "postrouting" (some ⟨.nat, .postRouting, hookPrioNat⟩)).addChain
    "output" (some ⟨.nat, .out, hookPrioNat⟩)

def initFilter : Table Hook Match :=
  HashMap.insert ((((Table.addChain ∅ "forward" (some ⟨.filter, .forward, hookPrioFilter⟩)).addChain
    "input" (some ⟨.filter, .input, hookPrioFilter⟩)).addChain
    "output" (some ⟨.filter, .out, hookPrioFilter⟩)).addChain "nsg-rules" none)
    "forward" {
      base := some ⟨.filter, .forward, hookPrioFilter⟩
      rules := [{ conditions := [.established], verdict := .accept }, { verdict := .jump "nsg-rules" }] }

theorem exec_initNat (h : rs.get natTable = some ∅) :
    ∃ rs', Batch.exec rs [.addChain natTable "prerouting" (some ⟨.nat, .preRouting, hookPrioNat⟩),
        .addChain natTable "postrouting" (some ⟨.nat, .postRouting, hookPrioNat⟩),
        .addChain natTable "output" (some ⟨.nat, .out, hookPrioNat⟩)] = .ok rs' ∧
      rs'.get natTable = some initNat ∧ rs'.get filterTable = rs.get filterTable := by
  have hne : filterTable ≠ natTable := by decide
  rw [exec_cons_ok (exec_addChain_of_get h _),
    exec_cons_ok (exec_addChain_of_get (get_insert_self _ _ _) _), exec_singleton,
    exec_addChain_of_get (get_insert_self _ _ _)]
  refine ⟨_, rfl, get_insert_self _ _ _, ?_⟩
  simp only [get_insert, if_neg hne]

/-- The chains of the filter table, before the one for the security groups. -/
def initForward : Table Hook Match :=
  HashMap.insert (((Table.addChain ∅ "forward" (some ⟨.filter, .forward, hookPrioFilter⟩)).addChain
    "input" (some ⟨.filter, .input, hookPrioFilter⟩)).addChain
    "output" (some ⟨.filter, .out, hookPrioFilter⟩))
    "forward" {
      base := some ⟨.filter, .forward, hookPrioFilter⟩
      rules := [{ conditions := [.established], verdict := .accept }] }

theorem exec_initForward (h : rs.get filterTable = some ∅) :
    ∃ rs', Batch.exec rs [.addChain filterTable "forward" (some ⟨.filter, .forward, hookPrioFilter⟩),
        .addChain filterTable "input" (some ⟨.filter, .input, hookPrioFilter⟩),
        .addChain filterTable "output" (some ⟨.filter, .out, hookPrioFilter⟩),
        .addRule filterTable "forward" { conditions := [.established], verdict := .accept }] = .ok rs' ∧
      rs'.get filterTable = some initForward ∧ rs'.get natTable = rs.get natTable := by
  have hne : natTable ≠ filterTable := by decide
  rw [exec_cons_ok (exec_addChain_of_get h _),
    exec_cons_ok (exec_addChain_of_get (get_insert_self _ _ _) _),
    exec_cons_ok (exec_addChain_of_get (get_insert_self _ _ _) _), exec_singleton,
    exec_addRule_of_get initForward (get_insert_self _ _ _) rfl]
  refine ⟨_, rfl, get_insert_self _ _ _, ?_⟩
  simp only [get_insert, if_neg hne]

theorem exec_initNsg (h : rs.get filterTable = some initForward) :
    ∃ rs', Batch.exec rs [.addChain filterTable "nsg-rules" none,
        .addRule filterTable "forward" { verdict := .jump "nsg-rules" }] = .ok rs' ∧
      rs'.get filterTable = some initFilter ∧ rs'.get natTable = rs.get natTable := by
  have hne : natTable ≠ filterTable := by decide
  rw [exec_cons_ok (exec_addChain_of_get h _), exec_singleton,
    exec_addRule_of_get initFilter (get_insert_self _ _ _) rfl]
  refine ⟨_, rfl, get_insert_self _ _ _, ?_⟩
  simp only [get_insert, if_neg hne]

theorem init_answered (e : NftEngine) (out : Nat → Outcome) (hout : ∀ n, out n = .answered) :
    ∃ rs : Ruleset Hook Match,
      e.init out = ({ ruleset := rs, jumpTrack := [], nodeportJumpTrack := [] }, .ok ()) ∧
      rs.get natTable = some initNat ∧ rs.get filterTable = some initFilter := by
  obtain ⟨rs₁, hrun₁, hget₁⟩ := run_resetTable e.ruleset natTable out hout
  obtain ⟨rs₂, hrun₂, hget₂⟩ := run_resetTable rs₁ filterTable (fun n => out (n + 2)) fun n => hout _
  have htables : Script.run sendResult e.ruleset out initTables = (rs₂, .ok ()) := by
    have hsplit : initTables = [.ok [.delTable natTable], .ok [.addTable natTable]] ++
        [.ok [.delTable filterTable], .ok [.addTable filterTable]] := rfl
    rw [hsplit, run_append, hrun₁]
    exact hrun₂
  have hnat : rs₂.get natTable = some ∅ := by
    rw [hget₂, if_neg (by decide), hget₁, if_pos rfl]
  have hfilter : rs₂.get filterTable = some ∅ := by
    rw [hget₂, if_pos rfl]
  obtain ⟨rs₃, hexec₃, hnat₃, hfilter₃⟩ := exec_initNat hnat
  obtain ⟨rs₄, hexec₄, hfilter₄, hnat₄⟩ := exec_initForward (hfilter₃.trans hfilter)
  obtain ⟨rs₅, hexec₅, hfilter₅, hnat₅⟩ := exec_initNsg hfilter₄
  refine ⟨rs₅, ?_, hnat₅.trans (hnat₄.trans hnat₃), hfilter₅⟩
  have hchains : Script.run sendResult rs₂ (later initTables.length out) initChains = (rs₅, .ok ()) := by
    simp only [initChains, Script.run, later, hout, send, hexec₃, hexec₄, hexec₅, andThen]
  simp only [init, NftEngine.run, htables, andThen, hchains]

end NftEngine

end Z8s.Netmux
