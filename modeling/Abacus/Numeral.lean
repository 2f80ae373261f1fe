import Abacus.Value

/-!
# Decimal numerals

A numeral is an optional sign and one or more digits. Any number of leading zeros is allowed,
and the digits are the ten ASCII ones. `Numeral.int?` gives the integer that a numeral stands
for, of whatever size; `Value.ofNumeral?` asks in addition that it fits a value.

## Main results

* `Numeral.nat?_toDigits`: the decimal digits of a number read back as that number.
* `Value.ofNumeral?_numeral`: every value is read back from its numeral.
-/

namespace Abacus

namespace Numeral

/-- The number that a run of digits stands for; nothing unless there are digits and only digits. -/
def nat? (digits : List Char) : Option Nat :=
  if digits ≠ [] ∧ digits.all Char.isDigit then some (Nat.ofDigitChars 10 digits 0) else none

/-- The integer that a numeral with an optional sign stands for. -/
def int? : List Char → Option Int
  | '-' :: digits => (nat? digits).map fun n : Nat => -(n : Int)
  | '+' :: digits => (nat? digits).map fun n : Nat => (n : Int)
  | digits => (nat? digits).map fun n : Nat => (n : Int)

/-- Writing a number in decimal and reading it gives the number. -/
theorem nat?_toDigits (n : Nat) : nat? (Nat.toDigits 10 n) = some n := by
  have hd : (Nat.toDigits 10 n).all Char.isDigit = true :=
    List.all_eq_true.2 fun _ hc => Nat.isDigit_of_mem_toDigits (by decide) (by decide) hc
  rw [nat?, if_pos ⟨Nat.toDigits_ne_nil, hd⟩,
    Nat.ofDigitChars_toDigits (by decide) (by decide)]

end Numeral

/-- The value that a numeral stands for, when it is one and 64 bits hold it. -/
def Value.ofNumeral? (text : String) : Option Value :=
  (Numeral.int? text.toList).bind Value.ofInt?

/-- The numeral of a value: a minus sign if it is negative, and digits without leading zeros. -/
def Value.numeral (v : Value) : String :=
  toString v.toInt

/-- Digits carry no sign. -/
theorem Numeral.int?_of_nat? {digits : List Char} {n : Nat} (h : nat? digits = some n) :
    int? digits = some (n : Int) := by
  unfold int?
  split
  · simp [nat?, Char.isDigit] at h
  · simp [nat?, Char.isDigit] at h
  · rw [h, Option.map_some]

/-- Every value is read back from its numeral. -/
theorem Value.ofNumeral?_numeral (v : Value) : Value.ofNumeral? v.numeral = some v := by
  have hi : Numeral.int? v.numeral.toList = some v.toInt := by
    unfold Value.numeral
    cases v.toInt with
    | ofNat n =>
      have hs : (toString (Int.ofNat n)).toList = Nat.toDigits 10 n := by
        change (Nat.repr n).toList = _
        rw [Nat.repr_eq_ofList_toDigits, String.toList_ofList]
      rw [hs, Numeral.int?_of_nat? (Numeral.nat?_toDigits n)]
      rfl
    | negSucc n =>
      have hs : (toString (Int.negSucc n)).toList = '-' :: Nat.toDigits 10 (n + 1) := by
        change ("-" ++ Nat.repr (n + 1)).toList = _
        rw [String.toList_append, Nat.repr_eq_ofList_toDigits]
        simp
      rw [hs, Numeral.int?, Numeral.nat?_toDigits]
      rfl
  rw [Value.ofNumeral?, hi, Option.bind_some, Value.ofInt?_toInt]

end Abacus
