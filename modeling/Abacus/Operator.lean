import Abacus.Error
import Abacus.Value

/-!
# Operators

The four operators, the two levels at which they bind, and their checked application: the exact
result over the unbounded integers when it fits a value, and otherwise the reason why there is
none. Division truncates toward zero.

## Main results

* `Operator.apply_eq_ok_iff`: an application succeeds exactly with the exact result, and never
  divides by zero.
-/

namespace Abacus

/-- How tightly an operator binds. -/
inductive Level
  /-- Sums: `+` and `-`, the looser level. -/
  | sum
  /-- Products: `*` and `/`, the tighter level. -/
  | product
deriving DecidableEq, Repr

/-- A binary operator. -/
inductive Operator
  | add
  | sub
  | mul
  | div
deriving DecidableEq, Repr

namespace Operator

/-- The level at which an operator binds. -/
def level : Operator → Level
  | add | sub => .sum
  | mul | div => .product

/-- The character that an operator is written with. -/
def symbol : Operator → Char
  | add => '+'
  | sub => '-'
  | mul => '*'
  | div => '/'

/-- The result over the unbounded integers; a quotient is truncated toward zero. -/
def exact : Operator → Int → Int → Int
  | add, a, b => a + b
  | sub, a, b => a - b
  | mul, a, b => a * b
  | div, a, b => a.tdiv b

/-- The exact result, when it fits. A zero divisor is found before anything else. -/
def apply (op : Operator) (a b : Value) : Except EvalError.Cause Value :=
  if op = div ∧ b = 0 then
    .error .divisionByZero
  else
    match Value.ofInt? (op.exact a.toInt b.toInt) with
    | some v => .ok v
    | none => .error .overflow

/-- The checked application of an operator that stands at `position`. -/
def applyAt (op : Operator) (position : Nat) (a b : Value) : Except EvalError Value :=
  (op.apply a b).mapError fun cause => ⟨cause, position⟩

/-- An application succeeds with the exact result and with nothing else. -/
theorem apply_eq_ok_iff {op : Operator} {a b v : Value} :
    op.apply a b = .ok v ↔ ¬(op = div ∧ b = 0) ∧ v.toInt = op.exact a.toInt b.toInt := by
  unfold apply
  split
  · rename_i h
    simp [h]
  · rename_i h
    simp only [h, not_false_eq_true, true_and]
    rw [← Value.ofInt?_eq_some_iff]
    split <;> simp_all

end Operator

end Abacus
