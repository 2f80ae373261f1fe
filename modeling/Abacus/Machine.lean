import Abacus.Calculate

/-!
# Positions in machine words

Positions are counted without a bound, but a machine counts them in words. The tokens of a text
stand within the text, so their positions are no larger than its length. Tokens can also be put
together by hand, at any position that a word holds. Then there is one sum that a word may not
hold: the position of the mark for the end that `terminated` supplies, just behind the last token.
How the program was built decides what becomes of it. Where sums are checked, one that is too large
stops the program; otherwise it wraps around.

`evaluateOn` is `evaluate` on a machine. It has an outcome unless the program was stopped.

## Main results

* `terminatedOn_of_fits`: where the sum fits, the mark is supplied as without a bound.
-/

namespace Abacus

/-- A machine that the program was built for. -/
structure Machine where
  /-- The number of words. They count from zero, so each is less than that. -/
  words : Nat
  /-- Whether sums are checked. -/
  checked : Bool
deriving DecidableEq, Repr

/-- A sum of two words: it fits, or it stops the program, or it wraps around. -/
def Machine.add? (m : Machine) (a b : Nat) : Option Nat :=
  if a + b < m.words then some (a + b)
  else if m.checked then none
  else some ((a + b) % m.words)

/-- The position just behind the text of a token. -/
def Token.endOffsetOn (m : Machine) (t : Token) : Option Nat :=
  m.add? t.position t.text.length

/-- The sequence with a mark for its end. -/
def terminatedOn (m : Machine) (tokens : List Token) : Option (List Token) :=
  match tokens.getLast? with
  | none => some [Token.endAt 0]
  | some t =>
    if t.kind = .endMark then some tokens
    else (t.endOffsetOn m).map fun p => tokens ++ [Token.endAt p]

/-- The value of a sequence of tokens, or the first error met. -/
def evaluateOn (m : Machine) (tokens : List Token) : Option (Except EvalError Value) :=
  (terminatedOn m tokens).map evaluate

variable {m : Machine}

/-- A sum that fits a word is what it is without a bound. -/
theorem Machine.add?_of_lt {a b : Nat} (h : a + b < m.words) : m.add? a b = some (a + b) :=
  if_pos h

/-- Unless sums are checked, any two words have one. -/
theorem Machine.exists_add? (h : m.checked = false) (a b : Nat) : ∃ c, m.add? a b = some c := by
  rw [Machine.add?, h]
  split <;> exact ⟨_, rfl⟩

/-- Where sums are checked, one that does not fit stops the program. -/
theorem Machine.add?_eq_none {a b : Nat} (h : m.checked = true) (hab : ¬a + b < m.words) :
    m.add? a b = none := by
  rw [Machine.add?, if_neg hab, if_pos h]

/-- Where the sum fits, the mark is supplied as without a bound. -/
theorem terminatedOn_of_fits {tokens : List Token}
    (h : ∀ t ∈ tokens.getLast?, t.endOffset < m.words) :
    terminatedOn m tokens = some (terminated tokens) := by
  rw [terminatedOn, terminated]
  cases hlast : tokens.getLast? with
  | none => rfl
  | some t =>
    dsimp only
    split
    · rfl
    · rw [Token.endOffsetOn, Machine.add?_of_lt (h t hlast)]
      rfl

end Abacus
