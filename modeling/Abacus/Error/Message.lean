import Abacus.Error
import Abacus.Text.Quoted

/-!
# The wording of errors

Every message names the position first and then the cause. Texts of tokens are quoted as they
were written; a token without text is the end of the input, and is called that.
-/

namespace Abacus

/-- A message about a position. -/
def messageAt (position : Nat) (what : String) : String :=
  "Error at position " ++ toString position ++ ": " ++ what

/-- How a message names a token of this text. -/
def tokenName (text : String) : String :=
  if text = "" then "end of input" else "'" ++ text ++ "'"

/-- The wording of a cause. -/
def EvalError.Cause.describe : EvalError.Cause → String
  | unexpectedToken text => "Unexpected token " ++ tokenName text ++ "."
  | unmatchedParen text => "Unmatched parenthesis, found " ++ tokenName text ++ "."
  | malformedNumber text => "Literal " ++ text ++ " is too large."
  | divisionByZero => "Division by zero."
  | overflow => "Integer overflow while trying to compute result."

/-- The message of an evaluation error. -/
def EvalError.message (e : EvalError) : String :=
  messageAt e.position e.cause.describe

/-- The message of a lexical error, given the characters that are shown as they are. -/
def LexError.messageWith (plain : Char → Bool) (e : LexError) : String :=
  messageAt e.position ("Unknown symbol " ++ Quoted.quote plain e.symbol ++ ".")

/-- The message of a lexical error. -/
def LexError.message (e : LexError) : String :=
  e.messageWith Text.isPlain

/-- The message of an error, given the characters that are shown as they are. -/
def CalcError.messageWith (plain : Char → Bool) : CalcError → String
  | lexical e => e.messageWith plain
  | evaluation e => e.message

/-- The message of an error. -/
def CalcError.message (e : CalcError) : String :=
  e.messageWith Text.isPlain

end Abacus
