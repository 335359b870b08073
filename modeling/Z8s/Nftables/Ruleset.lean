import Z8s.Collections.HashMap

/-!
# Rulesets of nftables

The tables of one family with their chains and rules, the messages that change them, and batches of
messages, each carried out or refused as a whole. What a rule matches on (`μ`) and what a base chain is
registered with (`β`) is left open. Of the kernel's checks those are kept that a ruleset decides by itself.
-/

namespace Z8s.Nftables

open Collections

inductive Verdict
  | accept
  | drop
  | jump (chain : String)
  | dnat (addr : BitVec 32) (port : BitVec 16)
  | masquerade
  deriving DecidableEq, Repr

/-- A rule matches a packet for which all its conditions hold. -/
structure Rule (μ : Type) where
  conditions : List μ := []
  verdict : Verdict
  deriving DecidableEq, Repr

structure Chain (β μ : Type) where
  base : Option β := none
  rules : List (Rule μ) := []
  deriving DecidableEq, Repr

abbrev Table (β μ : Type) := HashMap String (Chain β μ)

abbrev Ruleset (β μ : Type) := HashMap String (Table β μ)

inductive Msg (β μ : Type)
  | addTable (table : String)
  | delTable (table : String)
  | addChain (table chain : String) (base : Option β)
  | delChain (table chain : String)
  | addRule (table chain : String) (rule : Rule μ)

abbrev Batch (β μ : Type) := List (Msg β μ)

inductive Errno
  | enoent
  | ebusy
  deriving DecidableEq, Repr

def Errno.code : Errno → Int
  | enoent => 2
  | ebusy => 16

section

variable {β μ : Type}

/-- The rules of a chain, in the order in which a packet meets them. -/
def Ruleset.rules (rs : Ruleset β μ) (table chain : String) : Option (List (Rule μ)) :=
  (rs.get table).bind fun t => (t.get chain).map Chain.rules

def Ruleset.Targeted (rs : Ruleset β μ) (table chain : String) : Prop :=
  ∃ c rules, rs.rules table c = some rules ∧ ∃ r ∈ rules, r.verdict = .jump chain

def Table.jumpsTo (t : Table β μ) (chain : String) : Bool :=
  t.values.any fun c => c.rules.any fun r => r.verdict == .jump chain

/-- A rule can be added when its chain and the chain it jumps to exist. -/
def Table.addRule (t : Table β μ) (chain : String) (rule : Rule μ) : Except Errno (Table β μ) :=
  match t.get chain with
  | none => .error .enoent
  | some c =>
    let added := t.insert chain { c with rules := c.rules ++ [rule] }
    match rule.verdict with
    | .jump target => if t.containsKey target then .ok added else .error .enoent
    | _ => .ok added

/-- A chain is deleted together with its rules, unless a rule jumps to it. -/
def Table.delChain (t : Table β μ) (chain : String) : Except Errno (Table β μ) :=
  if t.containsKey chain = false then .error .enoent
  else if t.jumpsTo chain then .error .ebusy
  else .ok (t.remove chain)

def Table.addChain (t : Table β μ) (chain : String) (base : Option β) : Table β μ :=
  if t.containsKey chain then t else t.insert chain { base }

def Ruleset.modify (rs : Ruleset β μ) (table : String)
    (f : Table β μ → Except Errno (Table β μ)) : Except Errno (Ruleset β μ) :=
  match rs.get table with
  | none => .error .enoent
  | some t => (f t).map fun t' => rs.insert table t'

def Msg.exec (rs : Ruleset β μ) : Msg β μ → Except Errno (Ruleset β μ)
  | addTable table => .ok (if rs.containsKey table then rs else rs.insert table ∅)
  | delTable table => if rs.containsKey table then .ok (rs.remove table) else .error .enoent
  | addChain table chain base => rs.modify table fun t => .ok (t.addChain chain base)
  | delChain table chain => rs.modify table fun t => t.delChain chain
  | addRule table chain rule => rs.modify table fun t => t.addRule chain rule

/-- Carry out the messages one after the other; with the first refusal nothing has happened. -/
def Batch.exec (rs : Ruleset β μ) (b : Batch β μ) : Except Errno (Ruleset β μ) :=
  b.foldlM Msg.exec rs

def Ruleset.jumpCount (rs : Ruleset β μ) (table chain target : String) : Nat :=
  ((rs.rules table chain).getD []).countP fun r => r.verdict == .jump target

def firstMatch (holds : μ → Bool) (rules : List (Rule μ)) : Option Verdict :=
  (rules.find? fun r => r.conditions.all holds).map Rule.verdict

end

/-! ### Scripts

A script sends batches one after the other. A step may fail before its batch is complete, and the
answer to a batch may be an error; the first error that is reported ends the script. -/

inductive SendError
  /-- The kernel's answer, with its error number. -/
  | netlink (code : Int)
  /-- An error of the exchange, with its text. -/
  | query (text : String)
  /-- The thread that sends the batch did not finish. -/
  | join (text : String)
  deriving DecidableEq, Repr

/-- What becomes of one batch: the kernel answers it, or an error is returned, whether or not the
kernel has carried the batch out by then. -/
inductive Outcome
  | answered
  | failed (executed : Bool) (e : SendError)
  deriving DecidableEq, Repr

def Outcome.executes : Outcome → Bool
  | answered => true
  | failed executed _ => executed

section

variable {ε β μ : Type}

abbrev Script (ε β μ : Type) := List (Except ε (Batch β μ))

/-- Send one batch. `report` says which errors the sender returns. -/
def send (report : SendError → Except ε Unit) (rs : Ruleset β μ) (b : Batch β μ) :
    Outcome → Ruleset β μ × Except ε Unit
  | .answered =>
    match b.exec rs with
    | .ok rs' => (rs', .ok ())
    | .error e => (rs, report (.netlink e.code))
  | .failed executed e => (if executed then (b.exec rs).toOption.getD rs else rs, report e)

def andThen {σ α : Type} (r : σ × Except ε Unit) (next : σ → σ × Except ε α) : σ × Except ε α :=
  match r.2 with
  | .error e => (r.1, .error e)
  | .ok () => next r.1

/-- Run a script; `out n` is what becomes of its batch number `n`. -/
def Script.run (report : SendError → Except ε Unit) (rs : Ruleset β μ) (out : Nat → Outcome) :
    Script ε β μ → Ruleset β μ × Except ε Unit
  | [] => (rs, .ok ())
  | .error e :: _ => (rs, .error e)
  | .ok b :: rest =>
    andThen (send report rs b (out 0)) fun rs' => Script.run report rs' (fun n => out (n + 1)) rest

/-- What the sender makes of an answer to a batch that the kernel does not refuse. -/
def Outcome.result (report : SendError → Except ε Unit) : Outcome → Except ε Unit
  | answered => .ok ()
  | failed _ e => report e

/-- A script that appends rules to one chain, one batch for each. -/
def appendScript (table chain : String) (steps : List (Except ε (Rule μ))) : Script ε β μ :=
  steps.map fun step => step.map fun r => [.addRule table chain r]

/-- The rules that such a script appends until it ends. -/
def appended (report : SendError → Except ε Unit) (out : Nat → Outcome) :
    List (Except ε (Rule μ)) → List (Rule μ)
  | [] | .error _ :: _ => []
  | .ok r :: rest =>
    (if (out 0).executes then [r] else []) ++
      if ((out 0).result report).isOk then appended report (fun n => out (n + 1)) rest else []

end

end Z8s.Nftables
