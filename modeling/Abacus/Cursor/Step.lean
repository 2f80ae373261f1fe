import Abacus.Rule.Budget

/-!
# Steps on a cursor

A cursor can be worked step by step: moved one token forward or back, or read by a rule of the
grammar. A rule that fails leaves the cursor where it met the error, and the next step goes on
from there.

## Main results

* `Cursor.exists_steps`: every list of steps comes to its end and keeps the sequence, unless that
  ends with an opening parenthesis.
-/

namespace Abacus

namespace Cursor

/-- One thing to do with a cursor. -/
inductive Step
  | advance
  | retreat
  | read (rule : Rule)
deriving DecidableEq, Repr

/-- What a step tells. -/
inductive Answer
  /-- The token that was taken. -/
  | token (t : Token)
  /-- A step back tells nothing. -/
  | silent
  /-- The outcome of a rule. -/
  | result (outcome : Except EvalError Value)

/-- Does one step. There is no answer only where a rule has no outcome. -/
def step (c : Cursor) : Step → Option (Answer × Cursor)
  | .advance => some (.token c.advance.1, c.advance.2)
  | .retreat => some (.silent, c.retreat)
  | .read rule => (c.run rule).map fun o => (.result o.1, o.2)

/-- Does steps in order, and tells for each the answer and the cursor that it leaves. -/
def steps (c : Cursor) : List Step → Option (List (Answer × Cursor))
  | [] => some []
  | s :: ss => do
    let o ← c.step s
    let os ← o.2.steps ss
    pure (o :: os)

/-- A step has an answer and keeps the sequence, unless that ends with an opening parenthesis. -/
theorem exists_step {c : Cursor} (h : c.lastKind? ≠ some .leftParen) (s : Step) :
    ∃ o, c.step s = some o ∧ o.2.tokens = c.tokens := by
  cases s with
  | advance => exact ⟨_, rfl, c.tokens_advance⟩
  | retreat => exact ⟨_, rfl, c.tokens_retreat⟩
  | read rule =>
    obtain ⟨x, c', hrun, htok, -⟩ := Rule.settles (n := c.budget) h (rule.calls_le _)
    exact ⟨_, by rw [step, run, hrun, Option.map_some], htok⟩

/-- Every list of steps comes to its end and keeps the sequence, unless that ends with an opening
parenthesis. -/
theorem exists_steps {c : Cursor} (h : c.lastKind? ≠ some .leftParen) (ss : List Step) :
    ∃ os, c.steps ss = some os ∧ os.length = ss.length ∧ ∀ o ∈ os, o.2.tokens = c.tokens := by
  induction ss generalizing c with
  | nil => exact ⟨[], rfl, rfl, by simp⟩
  | cons s ss ih =>
    obtain ⟨o, ho, htok⟩ := exists_step h s
    obtain ⟨os, hos, hlen, hall⟩ := ih (lastKind?_congr htok ▸ h)
    refine ⟨o :: os, by simp [steps, ho, hos], congrArg (· + 1) hlen, ?_⟩
    exact List.forall_mem_cons.2 ⟨htok, fun o' ho' => (hall o' ho').trans htok⟩

end Cursor

end Abacus
