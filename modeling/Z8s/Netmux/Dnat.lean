import Z8s.Netmux.Nftables
import Z8s.Transition.Run

/-!
# Calls that change the DNAT chains

The calls `add_dnat` and `remove_dnat` of the engine one after the other, each with what becomes of
its batches, and what the list of tracked jumps should say about the ruleset.
-/

namespace Z8s.Netmux

open Rust Nftables

inductive DnatCall
  | add (ip : Ipv4Addr) (port : U16) (backends : List (Ipv4Addr × U16)) (out : Nat → Outcome)
  | remove (ip : Ipv4Addr) (port : U16) (out : Nat → Outcome)

def DnatCall.step (e : NftEngine) : DnatCall → Option NftEngine
  | .add ip port backends out => some (e.addDnat ip port backends out).1
  | .remove ip port out => some (e.removeDnat ip port out).1

/-- Both hooks have exactly one jump to the chain of every tracked pair, and none to the others. -/
def JumpsTracked (e : NftEngine) : Prop :=
  ∀ ip port, ∀ hook ∈ NftEngine.jumpHooks, e.ruleset.jumpCount natTable hook (chainName ip port) =
    if (ip, port) ∈ e.jumpTrack then 1 else 0

/-- Both jumps to an existing chain are carried out, and the answer to the first one does not end the
call. -/
def AddsBothJumps (rs : Ruleset Hook Match) (svc : String) (out : Nat → Outcome) : Prop :=
  (rs.rules natTable svc).isSome ∧ (out 0).executes ∧ ((out 0).result sendResult).isOk ∧
    (out 1).executes
  deriving Decidable

/-- The calls that keep the list and the ruleset in step. One that tracks a new pair adds both jumps;
one that removes a tracked pair returns an error. -/
def KeepsJumps (e : NftEngine) : DnatCall → Prop
  | .add ip port backends out =>
    let svc := chainName ip port
    let script := NftEngine.updateDnatChain svc backends [.daddr ip, .tcpDport port]
    (ip, port) ∉ e.jumpTrack → (e.run out script).2.isOk →
      AddsBothJumps (e.run out script).1.ruleset svc (later script.length out)
  | .remove ip port out => (ip, port) ∈ e.jumpTrack → ((out 0).result sendResult).isOk = false

instance (e : NftEngine) : (call : DnatCall) → Decidable (KeepsJumps e call)
  | .add ip port _ _ =>
    inferInstanceAs (Decidable ((ip, port) ∉ e.jumpTrack → _ = _ → AddsBothJumps _ _ _))
  | .remove ip port _ => inferInstanceAs (Decidable ((ip, port) ∈ e.jumpTrack → _ = _))

/-- The engine after an init whose batches are all answered. -/
def initialised (e : NftEngine) : NftEngine := (e.init fun _ => .answered).1

end Z8s.Netmux
