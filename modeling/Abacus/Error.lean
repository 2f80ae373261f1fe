/-!
# Errors

What can go wrong, as causes; the wording is in `Abacus.Error.Message`. Reading the characters
of an expression can only meet a symbol that no token starts with. Working out tokens can fail
in five ways, three of which quote the text of the token at fault. Every error carries the
position that it blames, counted in characters.
-/

namespace Abacus

/-- A character that belongs to no token. -/
structure LexError where
  symbol : Char
  position : Nat
deriving DecidableEq, Repr

/-- Why tokens have no value. -/
inductive EvalError.Cause
  /-- A token stands where the grammar has no place for it. -/
  | unexpectedToken (text : String)
  /-- A token stands where an open group has to be closed. -/
  | unmatchedParen (text : String)
  /-- The text of a number is no numeral of a 64-bit value. -/
  | malformedNumber (text : String)
  /-- The divisor is zero. -/
  | divisionByZero
  /-- The exact result does not fit 64 bits. -/
  | overflow
deriving DecidableEq, Repr

/-- A cause and the position that it blames. -/
structure EvalError where
  cause : EvalError.Cause
  position : Nat
deriving DecidableEq, Repr

/-- What can go wrong between the text of an expression and its value. -/
inductive CalcError
  | lexical (error : LexError)
  | evaluation (error : EvalError)
deriving DecidableEq, Repr

end Abacus
