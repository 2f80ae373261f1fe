import Abacus.Rule

/-!
# The checked steps

A value comes about in two ways: a number is read, or an operator is applied. Both are
checked, and this module says for each when it succeeds, with which value, and when it
fails, with which error. Everything about values further on rests on these four
equivalences and opens neither step again.

## Main results

* `Token.literal_eq_ok_iff`, `Token.literal_eq_error_iff`: a number has the integer of its
  numeral as its value, when that fits, and is malformed otherwise.
* `Operator.applyAt_eq_ok_iff`, `Operator.applyAt_eq_error_iff`: an operator gives the exact
  result, a zero divisor found first, and overflows when that does not fit.
-/

namespace Abacus

/-! ### Values and errors, handed on -/

/-- Two steps have a value when the first has one and the second has one for it. -/
theorem bind_eq_ok_iff {ε α β : Type} {x : Except ε α} {f : α → Except ε β} {b : β} :
    x >>= f = .ok b ↔ ∃ a, x = .ok a ∧ f a = .ok b := by
  cases x with
  | error e =>
      constructor
      · intro h
        cases h
      · rintro ⟨_, h, _⟩
        cases h
  | ok a =>
      constructor
      · exact fun h => ⟨a, rfl, h⟩
      · rintro ⟨_, h, hf⟩
        cases h
        exact hf

/-- Two steps fail when the first fails, or when the second fails on the first's value. -/
theorem bind_eq_error_iff {ε α β : Type} {x : Except ε α} {f : α → Except ε β} {e : ε} :
    x >>= f = .error e ↔ x = .error e ∨ ∃ a, x = .ok a ∧ f a = .error e := by
  cases x with
  | error e' =>
      constructor
      · intro h
        cases h
        exact .inl rfl
      · rintro (h | ⟨_, h, _⟩) <;> cases h
        rfl
  | ok a =>
      constructor
      · exact fun h => .inr ⟨a, rfl, h⟩
      · rintro (h | ⟨_, h, hf⟩) <;> cases h
        exact hf

/-- A value comes from the value that was there before. -/
theorem map_eq_ok_iff {ε α β : Type} {x : Except ε α} {f : α → β} {b : β} :
    x.map f = .ok b ↔ ∃ a, x = .ok a ∧ f a = b := by
  cases x <;> simp [Except.map]

/-- An error is not touched by what is done to values. -/
theorem map_eq_error_iff {ε α β : Type} {x : Except ε α} {f : α → β} {e : ε} :
    x.map f = .error e ↔ x = .error e := by
  cases x <;> simp [Except.map]

/-- A value is not touched by what is done to errors. -/
theorem mapError_eq_ok_iff {ε δ α : Type} {x : Except ε α} {f : ε → δ} {a : α} :
    x.mapError f = .ok a ↔ x = .ok a := by
  cases x <;> constructor <;> intro h <;> cases h <;> rfl

/-- An error comes from the error that was there before. -/
theorem mapError_eq_error_iff {ε δ α : Type} {x : Except ε α} {f : ε → δ} {d : δ} :
    x.mapError f = .error d ↔ ∃ e, x = .error e ∧ f e = d := by
  cases x with
  | error e =>
      constructor
      · intro h
        cases h
        exact ⟨e, rfl, rfl⟩
      · rintro ⟨_, h, rfl⟩
        cases h
        rfl
  | ok a =>
      constructor
      · intro h
        cases h
      · rintro ⟨_, h, _⟩
        cases h

/-! ### Numbers and operators -/

/-- A value is zero when its integer is. -/
theorem Value.eq_zero_iff {v : Value} : v = 0 ↔ v.toInt = 0 := by
  rw [← Int64.toInt_inj]
  rfl

namespace Token

variable {t : Token} {v : Value} {e : EvalError}

/-- A number is worth the integer that its text stands for. -/
theorem literal_eq_ok_iff : t.literal = .ok v ↔ Numeral.int? t.text.toList = some v.toInt := by
  have hof : Value.ofNumeral? t.text = some v ↔ Numeral.int? t.text.toList = some v.toInt := by
    rw [Value.ofNumeral?, Option.bind_eq_some_iff]
    constructor
    · rintro ⟨n, hn, hv⟩
      rw [hn, Value.ofInt?_eq_some_iff.mp hv]
    · exact fun h => ⟨_, h, Value.ofInt?_toInt v⟩
  rw [← hof, literal]
  cases Value.ofNumeral? t.text <;> simp

/-- A number is malformed when its text stands for no integer that fits. -/
theorem literal_eq_error_iff :
    t.literal = .error e ↔
      (∀ n, Numeral.int? t.text.toList = some n → ¬Value.Fits n) ∧
        e = ⟨.malformedNumber t.text, t.position⟩ := by
  have hof : Value.ofNumeral? t.text = none ↔
      ∀ n, Numeral.int? t.text.toList = some n → ¬Value.Fits n := by
    rw [Value.ofNumeral?, Option.bind_eq_none_iff]
    exact forall₂_congr fun n _ => Value.ofInt?_eq_none_iff
  rw [← hof, literal]
  cases Value.ofNumeral? t.text <;> simp [eq_comm]

end Token

namespace Operator

variable {op : Operator} {p : Nat} {a b v : Value} {e : EvalError}

/-- An operator has a value where the exact result fits and the divisor is not zero. -/
theorem applyAt_eq_ok_iff :
    op.applyAt p a b = .ok v ↔
      ¬(op = .div ∧ b.toInt = 0) ∧ v.toInt = op.exact a.toInt b.toInt := by
  rw [← Value.eq_zero_iff, ← apply_eq_ok_iff, applyAt, mapError_eq_ok_iff]

/-- An operator fails on a zero divisor, and else where the exact result does not fit. -/
theorem applyAt_eq_error_iff :
    op.applyAt p a b = .error e ↔
      (op = .div ∧ b.toInt = 0) ∧ e = ⟨.divisionByZero, p⟩ ∨
        ¬(op = .div ∧ b.toInt = 0) ∧ ¬Value.Fits (op.exact a.toInt b.toInt) ∧
          e = ⟨.overflow, p⟩ := by
  rw [← Value.eq_zero_iff, ← Value.ofInt?_eq_none_iff, applyAt, mapError_eq_error_iff, apply]
  split
  · rename_i hz
    simp [hz, eq_comm]
  · rename_i hz
    cases hv : Value.ofInt? (op.exact a.toInt b.toInt) <;> simp [hz, eq_comm]

end Operator

end Abacus
