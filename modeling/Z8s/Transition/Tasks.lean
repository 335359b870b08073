import Mathlib.Data.List.Perm.Basic
import Mathlib.Data.List.Perm.Lattice
import Mathlib.Tactic.Common

/-!
# Tasks that share a state

A list of tasks of a type `τ` over a shared state `σ`. Task number `t` moves with `stepAt`, which
changes the shared state and that task, and leaves the other tasks alone. Which task moves next is
left open, so the runs of a system with tasks are their interleavings.
-/

namespace Z8s.Transition

variable {σ τ : Type*}

def stepAt (tasks : List τ) (t : Nat) (f : τ → Option (σ × τ)) : Option (σ × List τ) :=
  tasks[t]?.bind fun task => (f task).map fun r => (r.1, tasks.set t r.2)

theorem stepAt_eq_some {tasks tasks' : List τ} {t : Nat} {f : τ → Option (σ × τ)} {s : σ}
    (h : stepAt tasks t f = some (s, tasks')) :
    ∃ task task' others, tasks[t]? = some task ∧ f task = some (s, task') ∧
      tasks.Perm (task :: others) ∧ tasks'.Perm (task' :: others) := by
  obtain ⟨task, ht, hmap⟩ := Option.bind_eq_some_iff.1 h
  obtain ⟨⟨s', task'⟩, hf, heq⟩ := Option.map_eq_some_iff.1 hmap
  cases heq
  obtain ⟨hlt, rfl⟩ := List.getElem?_eq_some_iff.1 ht
  exact ⟨tasks[t], task', tasks.eraseIdx t, ht, hf, (List.getElem_cons_eraseIdx_perm hlt).symm,
    List.set_perm_cons_eraseIdx hlt task'⟩

theorem stepAt_map_eq_some {α : Type*} {tasks : List τ} {t : Nat} {f : τ → Option (σ × τ)} {g : σ × List τ → α} {a : α}
    (h : (stepAt tasks t f).map g = some a) :
    ∃ s tasks' task task' others, tasks[t]? = some task ∧ f task = some (s, task') ∧
      tasks.Perm (task :: others) ∧ tasks'.Perm (task' :: others) ∧ g (s, tasks') = a := by
  obtain ⟨⟨s, tasks'⟩, hat, hg⟩ := Option.map_eq_some_iff.1 h
  obtain ⟨task, task', others, hget, hf, hperm, hperm'⟩ := stepAt_eq_some hat
  exact ⟨s, tasks', task, task', others, hget, hf, hperm, hperm', hg⟩

end Z8s.Transition
