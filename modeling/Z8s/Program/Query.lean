import Mathlib.Tactic.Common

/-!
# Programs that ask questions

A program of type `Query ι ο ε α` asks questions of type `ι`, continues with the answers of type `ο`,
and ends with a result or fails. What answers the questions is left open, and an answer may fail too.
-/

namespace Z8s.Program

inductive Query (ι ο ε α : Type)
  | pure (a : α)
  | fail (e : ε)
  | ask (i : ι) (k : ο → Query ι ο ε α)

namespace Query

variable {ι ο ε α β : Type}

def bind : Query ι ο ε α → (α → Query ι ο ε β) → Query ι ο ε β
  | .pure a, f => f a
  | .fail e, _ => .fail e
  | .ask i k, f => .ask i fun o => (k o).bind f

instance : Monad (Query ι ο ε) where
  pure := .pure
  bind := .bind

/-- The result of a program whose questions are answered by `answer`; the first answer that fails
ends it. -/
def run (answer : ι → Except ε ο) : Query ι ο ε α → Except ε α
  | .pure a => .ok a
  | .fail e => .error e
  | .ask i k => (answer i).bind fun o => (k o).run answer

/-- The questions a program asks, up to the first one whose answer fails. -/
def asked (answer : ι → Except ε ο) : Query ι ο ε α → List ι
  | .pure _ | .fail _ => []
  | .ask i k => i :: match answer i with
    | .ok o => (k o).asked answer
    | .error _ => []

/-- The program fails by itself on no answers that `answer` gives. -/
def Sound (answer : ι → Except ε ο) : Query ι ο ε α → Prop
  | .pure _ => True
  | .fail _ => False
  | .ask i k => ∀ o, answer i = .ok o → (k o).Sound answer

end Query

end Z8s.Program
