import Abacus.Token

/-!
# From characters to tokens

Spaces separate tokens and make none. A longest run of digits is one number; each of the
operators and parentheses is a token of its own. The first other character is an error. Behind
the last token comes the mark for the end, at the number of characters of the expression.

## Main results

* `Lexer.scan_space`, `Lexer.scan_digit`, `Lexer.scan_symbol`, `Lexer.scan_unknown`: what the
  first character decides, one equation per kind of character.
-/

namespace Abacus

namespace Lexer

/-- The tokens of the characters from `position` on. -/
def scan (position : Nat) : List Char → Except LexError (List Token)
  | [] => .ok [Token.endAt position]
  | c :: cs =>
    if c = ' ' then
      scan (position + 1) cs
    else if c.isDigit then
      let digits := c :: cs.takeWhile Char.isDigit
      (scan (position + digits.length) (cs.dropWhile Char.isDigit)).map
        (⟨.number, String.ofList digits, position⟩ :: ·)
    else
      match Token.Kind.ofSymbol? c with
      | some kind => (scan (position + 1) cs).map (⟨kind, c.toString, position⟩ :: ·)
      | none => .error ⟨c, position⟩
termination_by cs => cs.length
decreasing_by
  · simp
  · simpa using Nat.lt_succ_of_le (List.dropWhile_sublist _).length_le
  · simp

/-! ### One equation per kind of character -/

@[simp] theorem scan_nil (p : Nat) : scan p [] = .ok [Token.endAt p] := by
  rw [scan]

@[simp] theorem scan_space (p : Nat) (cs : List Char) : scan p (' ' :: cs) = scan (p + 1) cs := by
  rw [scan, if_pos rfl]

theorem scan_digit {c : Char} (p : Nat) (cs : List Char) (h : c.isDigit = true) :
    scan p (c :: cs) =
      (scan (p + (c :: cs.takeWhile Char.isDigit).length) (cs.dropWhile Char.isDigit)).map
        (⟨.number, String.ofList (c :: cs.takeWhile Char.isDigit), p⟩ :: ·) := by
  have hs : c ≠ ' ' := by rintro rfl; exact absurd h (by decide)
  rw [scan, if_neg hs, if_pos h]

theorem scan_symbol {c : Char} {kind : Token.Kind} (p : Nat) (cs : List Char)
    (h : Token.Kind.ofSymbol? c = some kind) :
    scan p (c :: cs) = (scan (p + 1) cs).map (⟨kind, c.toString, p⟩ :: ·) := by
  have hs : c ≠ ' ' := by rintro rfl; cases h
  have hd : ¬c.isDigit = true := fun hd => by rw [Token.Kind.ofSymbol?_of_isDigit hd] at h; cases h
  rw [scan, if_neg hs, if_neg hd, h]

theorem scan_unknown {c : Char} (p : Nat) (cs : List Char) (hs : c ≠ ' ')
    (hd : c.isDigit = false) (h : Token.Kind.ofSymbol? c = none) :
    scan p (c :: cs) = .error ⟨c, p⟩ := by
  rw [scan, if_neg hs, if_neg (by simp [hd]), h]

end Lexer

/-- The tokens of an expression, the mark for its end included. -/
def tokenize (source : String) : Except LexError (List Token) :=
  Lexer.scan 0 source.toList

end Abacus
