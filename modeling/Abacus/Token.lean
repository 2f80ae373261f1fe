import Abacus.Operator

/-!
# Tokens

The words of an expression. A token keeps the text it was written with and the position of its
first character, so that an error can quote the one and point at the other.
-/

namespace Abacus

/-- What a token is to the grammar. -/
inductive Token.Kind
  | operator (op : Operator)
  | leftParen
  | rightParen
  | number
  /-- The mark behind the last token of an expression. -/
  | endMark
deriving DecidableEq, Repr

/-- A word of an expression, with its text and the position where it starts. -/
structure Token where
  kind : Token.Kind
  text : String
  position : Nat
deriving DecidableEq, Repr

namespace Token

/-- The kind of the one-character token that a symbol makes, if it makes one. -/
def Kind.ofSymbol? : Char → Option Kind
  | '+' => some (.operator .add)
  | '-' => some (.operator .sub)
  | '*' => some (.operator .mul)
  | '/' => some (.operator .div)
  | '(' => some .leftParen
  | ')' => some .rightParen
  | _ => none

/-- The mark for the end of an expression at `position`; nothing is written there. -/
def endAt (position : Nat) : Token :=
  ⟨.endMark, "", position⟩

/-- The position just behind the text of a token. -/
def endOffset (t : Token) : Nat :=
  t.position + t.text.length

/-- Every operator is read back from its symbol. -/
@[simp] theorem Kind.ofSymbol?_symbol (op : Operator) :
    Kind.ofSymbol? op.symbol = some (.operator op) := by
  cases op <;> rfl

/-- A digit is no symbol. -/
theorem Kind.ofSymbol?_of_isDigit {c : Char} (h : c.isDigit = true) : Kind.ofSymbol? c = none := by
  unfold Kind.ofSymbol?
  split
  case h_7 => rfl
  all_goals exact absurd h (by decide)

@[simp] theorem endOffset_endAt (p : Nat) : (endAt p).endOffset = p := by
  simp [endAt, endOffset]

end Token

end Abacus
