/-!
# Tables of characters

A property of characters is given by the ranges of code points that have it, first and last
included.
-/

namespace Abacus

/-- A set of characters, as ranges of code points. -/
abbrev CodeTable := List (Nat × Nat)

/-- Whether the code point of a character lies in one of the ranges. -/
def CodeTable.has (table : CodeTable) (c : Char) : Bool :=
  table.any fun r => r.1 ≤ c.toNat && c.toNat ≤ r.2

end Abacus
