import Abacus.Cursor
import Abacus.Numeral

/-!
# The rules of the grammar

Each rule reads tokens and works out their value on the way:

* an *expression* is nothing, worth zero, or a chain of sums;
* a *chain* of a level is an operand followed by any number of that level's operators, each with
  an operand of its own, grouped from the left;
* the operands of sums are chains of products, and the operands of products are *primaries*;
* a primary is a number, or a chain of sums in parentheses.

A chain ends in front of a closing parenthesis, the end, or an operator that binds less tightly,
and leaves that token to its reader. It does not matter where tokens come from: a rule only takes
the next one and puts back the one it took, which is what `TokenSource` asks for.

Rules call each other, and nothing stops a source from handing out opening parentheses for ever.
So `Rule.runFor` takes a budget, the number of nested calls it may make, and gives no outcome
when that is too small. `Abacus.Rule.Budget` shows that the budget is no part of the meaning.

## Main results

* `Rule.runFor_expression`, `Rule.runFor_chain`, `Rule.runFor_rest_joins` and their companions:
  what a rule does, one equation per kind of token that it meets.
-/

namespace Abacus

/-! ### Reading from a source of tokens -/

/-- A source of tokens: it hands out the next one, and takes the last one back. -/
class TokenSource (σ : Type) where
  /-- The next token, and the source behind it. -/
  advance : σ → Token × σ
  /-- The source before its last token was taken. -/
  retreat : σ → σ

instance : TokenSource Cursor where
  advance := Cursor.advance
  retreat := Cursor.retreat

theorem Cursor.advance_def (c : Cursor) : TokenSource.advance c = c.advance := rfl

theorem Cursor.retreat_def (c : Cursor) : TokenSource.retreat c = c.retreat := rfl

/-- A computation that reads from a source. It fails with an error, and the source stays where
the error was met; without an outcome the budget was too small. -/
abbrev Reading (σ α : Type) := ExceptT EvalError (StateT σ Option) α

namespace Reading

variable {σ α β : Type}

/-- Takes the next token. -/
def next [TokenSource σ] : Reading σ Token := fun s =>
  some (.ok (TokenSource.advance s).1, (TokenSource.advance s).2)

/-- Puts the token taken last back. -/
def back [TokenSource σ] : Reading σ Unit := fun s =>
  some (.ok (), TokenSource.retreat s)

/-- Stops with an error where the source stands. -/
def fail (e : EvalError) : Reading σ α := fun s =>
  some (.error e, s)

/-- The outcome of a step that reads nothing. -/
def ofExcept : Except EvalError α → Reading σ α
  | .ok a => pure a
  | .error e => fail e

/-- No outcome: the budget is spent. -/
def spent : Reading σ α := fun _ => none

/-! Each step's outcome from a given source. -/

@[simp] theorem back_apply [TokenSource σ] (s : σ) :
    (back : Reading σ Unit) s = some (.ok (), TokenSource.retreat s) := rfl

@[simp] theorem fail_apply (e : EvalError) (s : σ) :
    (fail e : Reading σ α) s = some (.error e, s) := rfl

@[simp] theorem pure_apply (a : α) (s : σ) : (pure a : Reading σ α) s = some (.ok a, s) := rfl

@[simp] theorem spent_apply (s : σ) : (spent : Reading σ α) s = none := rfl

@[simp] theorem ofExcept_apply (x : Except EvalError α) (s : σ) :
    (ofExcept x : Reading σ α) s = some (x, s) := by
  cases x <;> rfl

/-- Goes on from an outcome: only a value is handed on, from where its step left the source. -/
def andThen (outcome : Option (Except EvalError α × σ))
    (f : α → σ → Option (Except EvalError β × σ)) : Option (Except EvalError β × σ) :=
  match outcome with
  | none => none
  | some (.error e, s) => some (.error e, s)
  | some (.ok a, s) => f a s

@[simp] theorem andThen_none (f : α → σ → Option (Except EvalError β × σ)) :
    andThen none f = none := rfl

@[simp] theorem andThen_error (e : EvalError) (s : σ)
    (f : α → σ → Option (Except EvalError β × σ)) :
    andThen (some (.error e, s)) f = some (.error e, s) := rfl

@[simp] theorem andThen_ok (a : α) (s : σ) (f : α → σ → Option (Except EvalError β × σ)) :
    andThen (some (.ok a, s)) f = f a s := rfl

/-- An outcome of two steps is an error of the first or an outcome of the second. -/
theorem andThen_eq_some_iff {o : Option (Except EvalError α × σ)}
    {f : α → σ → Option (Except EvalError β × σ)} {r : Except EvalError β × σ} :
    andThen o f = some r ↔
      (∃ e s, o = some (.error e, s) ∧ r = (.error e, s)) ∨
        ∃ a s, o = some (.ok a, s) ∧ f a s = some r := by
  rcases o with _ | ⟨e | a, s⟩
  · simp
  · constructor
    · intro h
      exact .inl ⟨e, s, rfl, (Option.some.inj h).symm⟩
    · rintro (⟨_, _, h, rfl⟩ | ⟨_, _, h, _⟩) <;> cases h
      rfl
  · constructor
    · intro h
      exact .inr ⟨a, s, rfl, h⟩
    · rintro (⟨_, _, h, _⟩ | ⟨_, _, h, hr⟩) <;> cases h
      exact hr

/-- Later outcomes stay when both steps keep theirs. -/
theorem andThen_mono {o o' : Option (Except EvalError α × σ)}
    {f f' : α → σ → Option (Except EvalError β × σ)} {r : Except EvalError β × σ}
    (ho : ∀ x, o = some x → o' = some x) (hf : ∀ a s x, f a s = some x → f' a s = some x)
    (h : andThen o f = some r) : andThen o' f' = some r := by
  rcases andThen_eq_some_iff.1 h with ⟨e, s, he, rfl⟩ | ⟨a, s, ha, hr⟩
  · rw [ho _ he, andThen_error]
  · rw [ho _ ha, andThen_ok, hf _ _ _ hr]

/-- What follows a step runs on its value, from where the step left the source. -/
theorem bind_apply (m : Reading σ α) (f : α → Reading σ β) (s : σ) :
    (m >>= f) s = andThen (m s) f := by
  change (m s).bind _ = _
  rcases m s with _ | ⟨_ | _, _⟩ <;> rfl

/-- What follows a token that is taken runs on it, from behind it. -/
theorem next_bind [TokenSource σ] (f : Token → Reading σ α) (s : σ) :
    (next >>= f) s = f (TokenSource.advance s).1 (TokenSource.advance s).2 := rfl

end Reading

/-! ### The rules -/

/-- What a token means behind an operand of a chain. -/
inductive Level.Role
  /-- It is an operator of the chain. -/
  | joins (op : Operator)
  /-- It belongs to whoever reads on behind the chain. -/
  | closes
  /-- It has no place there. -/
  | strays
deriving DecidableEq, Repr

/-- What a kind of token means behind an operand of a chain of this level: the level's own
operators join, looser ones close the chain as `)` and the end do, and all else is misplaced. -/
def Level.role : Level → Token.Kind → Level.Role
  | .sum, .operator .add => .joins .add
  | .sum, .operator .sub => .joins .sub
  | .product, .operator .mul => .joins .mul
  | .product, .operator .div => .joins .div
  | .product, .operator .add | .product, .operator .sub => .closes
  | .sum, .operator .mul | .sum, .operator .div => .strays
  | _, .rightParen | _, .endMark => .closes
  | _, .number | _, .leftParen => .strays

/-- A rule of the grammar. -/
inductive Rule
  /-- A whole expression, which may be empty. -/
  | expression
  /-- A chain of the level's operators. -/
  | chain (level : Level)
  /-- What is left of a chain behind an operand, when its value so far is `left`. -/
  | rest (level : Level) (left : Value)
  /-- A number or a group. -/
  | primary
deriving DecidableEq, Repr

/-- The rule for the operands of a chain. -/
def Level.operand : Level → Rule
  | .sum => .chain .product
  | .product => .primary

namespace Token

/-- The error of a token that stands where the grammar has no place for it. -/
def unexpected (t : Token) : EvalError :=
  ⟨.unexpectedToken t.text, t.position⟩

/-- The error of a token that stands where a group has to be closed. -/
def unmatched (t : Token) : EvalError :=
  ⟨.unmatchedParen t.text, t.position⟩

/-- The value of a number. -/
def literal (t : Token) : Except EvalError Value :=
  match Value.ofNumeral? t.text with
  | some v => .ok v
  | none => .error ⟨.malformedNumber t.text, t.position⟩

end Token

namespace Rule

variable {σ : Type} [TokenSource σ]

/-- Reads what a rule describes and works out its value, within a budget of nested calls. -/
def runFor : Nat → Rule → Reading σ Value
  | 0, _ => .spent
  | n + 1, expression => do
    let t ← .next
    if t.kind = .endMark then
      pure 0
    else
      .back
      runFor n (chain .sum)
  | n + 1, chain level => do
    let left ← runFor n level.operand
    runFor n (rest level left)
  | n + 1, rest level left => do
    let t ← .next
    match level.role t.kind with
    | .joins op =>
      let right ← runFor n level.operand
      let value ← .ofExcept (op.applyAt t.position left right)
      runFor n (rest level value)
    | .closes =>
      .back
      pure left
    | .strays => .fail t.unexpected
  | n + 1, primary => do
    let t ← .next
    match t.kind with
    | .number => .ofExcept t.literal
    | .leftParen =>
      let value ← runFor n (chain .sum)
      let close ← .next
      if close.kind = .rightParen then pure value else .fail close.unmatched
    | _ => .fail t.unexpected

/-! ### One equation per rule and kind of token -/

section Equations

open TokenSource Reading

variable {n : Nat} {s : σ}

@[simp] theorem runFor_zero (r : Rule) (s : σ) : runFor 0 r s = none := rfl

theorem runFor_expression_end (h : (advance s).1.kind = .endMark) :
    runFor (n + 1) expression s = some (.ok 0, (advance s).2) := by
  refine (next_bind _ s).trans ?_
  rw [if_pos h, pure_apply]

theorem runFor_expression (h : (advance s).1.kind ≠ .endMark) :
    runFor (n + 1) expression s = runFor n (chain .sum) (retreat (advance s).2) := by
  refine (next_bind _ s).trans ?_
  rw [if_neg h, bind_apply, back_apply, andThen_ok]

theorem runFor_chain (level : Level) :
    runFor (n + 1) (chain level) s =
      andThen (runFor n level.operand s) fun left => runFor n (rest level left) :=
  bind_apply (runFor n level.operand) _ s

theorem runFor_rest_joins {level : Level} {left : Value} {op : Operator}
    (h : level.role (advance s).1.kind = .joins op) :
    runFor (n + 1) (rest level left) s =
      andThen (runFor n level.operand (advance s).2) fun right s' =>
        andThen (some (op.applyAt (advance s).1.position left right, s')) fun value =>
          runFor n (rest level value) := by
  refine (next_bind _ s).trans ?_
  simp only [h, bind_apply]
  congr 1
  funext right s'
  rw [bind_apply, ofExcept_apply]

theorem runFor_rest_closes {level : Level} {left : Value}
    (h : level.role (advance s).1.kind = .closes) :
    runFor (n + 1) (rest level left) s = some (.ok left, retreat (advance s).2) := by
  refine (next_bind _ s).trans ?_
  simp only [h, bind_apply, back_apply, andThen_ok, pure_apply]

theorem runFor_rest_strays {level : Level} {left : Value}
    (h : level.role (advance s).1.kind = .strays) :
    runFor (n + 1) (rest level left) s =
      some (.error (advance s).1.unexpected, (advance s).2) := by
  refine (next_bind _ s).trans ?_
  simp only [h, fail_apply]

theorem runFor_primary_number (h : (advance s).1.kind = .number) :
    runFor (n + 1) primary s = some ((advance s).1.literal, (advance s).2) := by
  refine (next_bind _ s).trans ?_
  simp only [h, ofExcept_apply]

theorem runFor_primary_leftParen (h : (advance s).1.kind = .leftParen) :
    runFor (n + 1) primary s =
      andThen (runFor n (chain .sum) (advance s).2) fun value s' =>
        if (advance s').1.kind = .rightParen then some (.ok value, (advance s').2)
        else some (.error (advance s').1.unmatched, (advance s').2) := by
  refine (next_bind _ s).trans ?_
  simp only [h, bind_apply]
  congr 1
  funext value s'
  rw [next_bind]
  split <;> rfl

theorem runFor_primary_unexpected (hn : (advance s).1.kind ≠ .number)
    (hp : (advance s).1.kind ≠ .leftParen) :
    runFor (n + 1) primary s = some (.error (advance s).1.unexpected, (advance s).2) := by
  refine (next_bind _ s).trans ?_
  simp only [fail_apply]

end Equations

end Rule

end Abacus
