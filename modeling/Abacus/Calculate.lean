import Abacus.Rule.Budget
import Abacus.Token.Lexer

/-!
# The value of an expression

`evaluate` works out a sequence of tokens, and `calculate` the text of an expression. Evaluation
stops at a closing parenthesis that no group opened, or at an end, and does not look at what
stands behind; the characters of a text are all read first, so a symbol that belongs to no token
is reported wherever it stands.

## Main results

* `lastKind?_terminated`: `terminated` makes every sequence end with a mark for the end, so that
  each has a value or an error.
-/

namespace Abacus

/-- The sequence with a mark for its end. Where there is none, it is put just behind the text
of the last token. -/
def terminated (tokens : List Token) : List Token :=
  match tokens.getLast? with
  | none => [Token.endAt 0]
  | some t => if t.kind = .endMark then tokens else tokens ++ [Token.endAt t.endOffset]

/-- A terminated sequence ends with a mark for the end. -/
theorem lastKind?_terminated (tokens : List Token) :
    (Cursor.ofList (terminated tokens)).lastKind? = some .endMark := by
  rw [Cursor.lastKind?, Cursor.tokens_ofList, terminated]
  split
  · rfl
  · rename_i t ht
    split
    · rename_i hk
      rw [ht, Option.map_some, hk]
    · rw [List.getLast?_append]
      rfl

/-- The value of a sequence of tokens, or the first error met. A missing mark for the end is
supplied. -/
def evaluate (tokens : List Token) : Except EvalError Value :=
  (((Cursor.ofList (terminated tokens)).run .expression).get
    (Cursor.isSome_run _ (by simp [lastKind?_terminated]))).1

/-- The value of the text of an expression, or what is wrong with it. -/
def calculate (source : String) : Except CalcError Value :=
  match tokenize source with
  | .error e => .error (.lexical e)
  | .ok tokens => (evaluate tokens).mapError .evaluation

/-- A text that has tokens comes to what they come to. -/
theorem calculate_of_tokenize {source : String} {tokens : List Token}
    (h : tokenize source = .ok tokens) :
    calculate source = (evaluate tokens).mapError .evaluation := by
  rw [calculate, h]

/-- A text that has none comes to the lexical error, whatever else is wrong with it. -/
theorem calculate_of_tokenize_error {source : String} {e : LexError}
    (h : tokenize source = .error e) : calculate source = .error (.lexical e) := by
  rw [calculate, h]

end Abacus
