import Abacus.Text.CodeTable

/-!
# Blank characters

The characters of the Unicode property `White_Space`. Lines of a script that hold nothing else
are passed over.
-/

namespace Abacus.Text

/-- The code points of the Unicode property `White_Space`. -/
def blanks : CodeTable :=
  [(0x9, 0xd), (0x20, 0x20), (0x85, 0x85), (0xa0, 0xa0), (0x1680, 0x1680), (0x2000, 0x200a),
   (0x2028, 0x2029), (0x202f, 0x202f), (0x205f, 0x205f), (0x3000, 0x3000)]

/-- Whether a character is white space. -/
def isBlank (c : Char) : Bool :=
  blanks.has c

/-- Every character that counts as white space in ASCII is blank. -/
theorem isBlank_of_isWhitespace {c : Char} (h : c.isWhitespace = true) : isBlank c = true := by
  simp only [Char.isWhitespace, Bool.or_eq_true, decide_eq_true_eq] at h
  rcases h with ((h | h) | h) | h <;> subst h <;> decide

end Abacus.Text
