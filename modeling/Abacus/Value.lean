/-!
# Values

The calculator counts in signed 64-bit integers. Every result is worked out as an unbounded
integer first and then has to fit: `Value.ofInt?` is the only way from an integer to a value,
so nothing ever wraps around.

## Main results

* `Value.ofInt?_eq_some_iff`: `ofInt? n` is the value `v` exactly when `v` is the integer `n`.
* `Value.ofInt?_eq_none_iff`: it is missing exactly when `n` does not fit 64 bits.
* `Value.fits_iff`: which integers fit, in figures.
-/

namespace Abacus

/-- A number of the calculator: a signed integer of 64 bits. -/
abbrev Value := Int64

namespace Value

/-- Whether 64 bits hold an integer. -/
def Fits (n : Int) : Prop :=
  Int64.minValue.toInt ≤ n ∧ n ≤ Int64.maxValue.toInt

instance (n : Int) : Decidable (Fits n) :=
  inferInstanceAs (Decidable (_ ∧ _))

/-- The value that equals the integer `n`, when 64 bits hold it. -/
def ofInt? (n : Int) : Option Value :=
  if Fits n then some (Int64.ofInt n) else none

/-- The range of 64 bits in figures. -/
theorem fits_iff {n : Int} : Fits n ↔ -9223372036854775808 ≤ n ∧ n < 9223372036854775808 := by
  have hmin : Int64.minValue.toInt = -9223372036854775808 := rfl
  have hmax : Int64.maxValue.toInt = 9223372036854775807 := rfl
  rw [Fits, hmin, hmax]
  omega

/-- Every value fits. -/
theorem fits_toInt (v : Value) : Fits v.toInt :=
  ⟨v.minValue_le_toInt, v.toInt_le⟩

/-- An integer that fits is kept as it is. -/
theorem toInt_ofInt {n : Int} (h : Fits n) : (Int64.ofInt n).toInt = n := by
  rw [fits_iff] at h
  rw [Int64.toInt_ofInt]
  exact Int.bmod_eq_of_le (by simp; omega) (by simp; omega)

/-- An integer becomes the value it equals. -/
theorem ofInt?_eq_some_iff {n : Int} {v : Value} : ofInt? n = some v ↔ v.toInt = n := by
  constructor
  · intro h
    unfold ofInt? at h
    split at h
    · rename_i hn
      cases h
      exact toInt_ofInt hn
    · cases h
  · rintro rfl
    rw [ofInt?, if_pos v.fits_toInt, Int64.ofInt_toInt]

/-- No value equals an integer that needs more than 64 bits. -/
theorem ofInt?_eq_none_iff {n : Int} : ofInt? n = none ↔ ¬Fits n := by
  unfold ofInt?
  split <;> simp_all

@[simp] theorem ofInt?_toInt (v : Value) : ofInt? v.toInt = some v :=
  ofInt?_eq_some_iff.2 rfl

end Value

end Abacus
