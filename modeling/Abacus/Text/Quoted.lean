import Abacus.Text.Attached
import Abacus.Text.Formless

/-!
# Quoted characters

How an error shows a character: between single quotes, so that it can be seen whatever it is.
The quote, the backslash and four controls are written with a backslash. Of the others, those
that stand well on their own are plain, and the rest are written as their code point in
hexadecimal. Which characters are plain is a parameter; `isPlain` is the choice for messages.

## Main results

* `Quoted.body_named`, `Quoted.body_plain`, `Quoted.body_code`: the three ways of writing a
  character.
-/

namespace Abacus

/-- Whether a character can be shown as it is: it leaves a mark, and needs no other character to
do so. -/
def Text.isPlain (c : Char) : Bool :=
  !(isFormless c || isCombining c || isIgnorable c)

namespace Quoted

/-- The characters written with a backslash, and the letter that follows it. -/
def named : List (Char × Char) :=
  [('\x00', '0'), ('\t', 't'), ('\n', 'n'), ('\r', 'r'), ('\'', '\''), ('\\', '\\')]

/-- A code point in lower-case hexadecimal, without leading zeros. -/
def code (c : Char) : List Char :=
  Nat.toDigits 16 c.toNat

/-- What stands between the quotes for a character. -/
def body (plain : Char → Bool) (c : Char) : List Char :=
  match named.lookup c with
  | some letter => ['\\', letter]
  | none => if plain c then [c] else ['\\', 'u', '\x7b'] ++ code c ++ ['\x7d']

/-- A character in single quotes. -/
def quote (plain : Char → Bool) (c : Char) : String :=
  String.ofList (['\''] ++ body plain c ++ ['\''])

theorem body_named {plain : Char → Bool} {c letter : Char} (h : named.lookup c = some letter) :
    body plain c = ['\\', letter] := by
  rw [body, h]

theorem body_plain {plain : Char → Bool} {c : Char} (h : named.lookup c = none)
    (hp : plain c = true) : body plain c = [c] := by
  rw [body, h]
  exact if_pos hp

theorem body_code {plain : Char → Bool} {c : Char} (h : named.lookup c = none)
    (hp : plain c = false) :
    body plain c = ['\\', 'u', '\x7b'] ++ code c ++ ['\x7d'] := by
  rw [body, h]
  exact if_neg (by simp [hp])

end Quoted

end Abacus
