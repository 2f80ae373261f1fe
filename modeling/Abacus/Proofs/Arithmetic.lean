import Mathlib.Algebra.Ring.Int.Defs
import Abacus.Proofs.Checked

/-!
# Exact arithmetic

An operator gives the exact result or none, so the laws of the integers carry over to values
wherever the operations succeed. What has to be seen to is that they do: a law mentions results
on the way, and these could be out of range where the operands and the last result are not.

For a sum and a difference nothing comes in between. A quotient is checked by multiplying it with
the divisor and taking the product away from the dividend, and both the product and what remains
lie between zero and the dividend. Only the quotient itself can be out of range, and for one pair
of operands: the range holds one integer below zero more than above, so that the least value
has no counterpart, and dividing by `-1` asks for it.

## Main results

* `Truncates.unique`: a quotient truncated toward zero is the only one with its law.
* `Truncates.fits_iff`: when it fits.
* `Operator.applyAt_div_eq_ok_iff`: a division succeeds with the value that the checked operations
  take back to the dividend, and with nothing else.
* `Operator.applyAt_exact_inverse`: the operations are exact, and undo each other.
-/

namespace Abacus

/-- The range of 64 bits in powers of two. -/
theorem Value.fits_iff_pow {n : Int} : Fits n ↔ -2 ^ 63 ≤ n ∧ n ≤ 2 ^ 63 - 1 := by
  rw [fits_iff]
  omega

/-! ### Quotients of integers -/

/-- The integer `q` is the quotient of `a` by `b`, truncated toward zero, and `r` is what remains:
less than the divisor, and on the dividend's side of zero. -/
structure Truncates (a b q r : Int) : Prop where
  eq_add : a = q * b + r
  natAbs_lt : r.natAbs < b.natAbs
  sign_eq : r = 0 ∨ r.sign = a.sign

namespace Truncates

variable {a b q r : Int}

/-- Unless the divisor is zero there is a quotient. -/
theorem tdiv_tmod (hb : b ≠ 0) : Truncates a b (a.tdiv b) (a.tmod b) where
  eq_add := (Int.tdiv_mul_add_tmod a b).symm
  natAbs_lt := by
    rw [Int.natAbs_tmod]
    exact Nat.mod_lt _ (by omega)
  sign_eq := by
    have hsign := Int.sign_tmod a b
    split at hsign
    · exact .inl (Int.sign_eq_zero_iff_zero.mp hsign)
    · exact .inr hsign

theorem ne_zero (h : Truncates a b q r) : b ≠ 0 := by
  rintro rfl
  exact absurd h.natAbs_lt (Nat.not_lt_zero _)

theorem same_side (h : Truncates a b q r) : 0 ≤ a ∧ 0 ≤ r ∨ a ≤ 0 ∧ r ≤ 0 := by
  rcases h.sign_eq with rfl | hsign <;> rcases Int.le_total 0 a with ha | ha
  · exact .inl ⟨ha, Int.le_refl 0⟩
  · exact .inr ⟨ha, Int.le_refl 0⟩
  · exact .inl ⟨ha, Int.sign_nonneg_iff.mp (hsign ▸ Int.sign_nonneg_iff.mpr ha)⟩
  · exact .inr ⟨ha, Int.sign_nonpos_iff.mp (hsign ▸ Int.sign_nonpos_iff.mpr ha)⟩

/-- There is no other. -/
theorem unique (h : Truncates a b q r) : a.tdiv b = q ∧ a.tmod b = r := by
  have hsum : r + b * q = a := by rw [h.eq_add, Int.mul_comm q b, Int.add_comm]
  have hlt := h.natAbs_lt
  rcases h.same_side with ⟨ha, hr⟩ | ⟨ha, hr⟩
  · exact (Int.tdiv_tmod_unique ha h.ne_zero).mpr ⟨hsum, hr, by omega⟩
  · exact (Int.tdiv_tmod_unique' ha h.ne_zero).mpr ⟨hsum, by omega, hr⟩

theorem natAbs_quotient_le (h : Truncates a b q r) : q.natAbs ≤ a.natAbs := by
  rw [← h.unique.1]
  exact Int.natAbs_tdiv_le_natAbs a b

theorem natAbs_remainder_le (h : Truncates a b q r) : r.natAbs ≤ a.natAbs := by
  rw [← h.unique.2, Int.natAbs_tmod]
  exact Nat.mod_le _ _

end Truncates

/-! ### Quotients of values -/

namespace Truncates

variable {a b : Value} {q r : Int}

/-- What remains lies between zero and the dividend. -/
theorem fits_remainder (h : Truncates a.toInt b.toInt q r) : Value.Fits r := by
  have ha := Value.fits_iff.mp a.fits_toInt
  have hle := h.natAbs_remainder_le
  rw [Value.fits_iff]
  rcases h.same_side with hside | hside <;> omega

/-- So does the product that was taken away. -/
theorem fits_product (h : Truncates a.toInt b.toInt q r) : Value.Fits (q * b.toInt) := by
  have ha := Value.fits_iff.mp a.fits_toInt
  have hsum := h.eq_add
  have hle := h.natAbs_remainder_le
  rw [Value.fits_iff]
  rcases h.same_side with hside | hside <;> omega

/-- The quotient is no further from zero than the dividend. It fails to fit where it is as far
and on the other side, and the dividend is the least value. -/
theorem fits_iff (h : Truncates a.toInt b.toInt q r) :
    Value.Fits q ↔ ¬(a.toInt = -2 ^ 63 ∧ b.toInt = -1) := by
  have hsum := h.eq_add
  have hlt := h.natAbs_lt
  rw [Value.fits_iff]
  constructor
  · rintro hq ⟨ha, hb⟩
    rw [ha, hb] at hsum
    omega
  · intro hleast
    by_contra hq
    have ha := Value.fits_iff.mp a.fits_toInt
    have hb := Value.fits_iff.mp b.fits_toInt
    have hle := h.natAbs_quotient_le
    -- the only integer out of range whose distance from zero a value can have
    have hq : q = 2 ^ 63 := by omega
    rw [hq] at hsum
    rcases h.same_side with hside | hside <;> omega

end Truncates

namespace Operator

variable {op : Operator} {p : Nat} {a b c q m r : Value}

/-- An outcome of an operator at the position `p` is that of the exact integer `n`: it is a value
where 64 bits hold the integer, and then this one, and an overflow where they do not. -/
structure Checks (p : Nat) (n : Int) (x : Except EvalError Value) : Prop where
  exists_ok_iff : (∃ c, x = .ok c) ↔ -2 ^ 63 ≤ n ∧ n ≤ 2 ^ 63 - 1
  toInt_eq (c : Value) : x = .ok c → c.toInt = n
  eq_overflow : ¬(-2 ^ 63 ≤ n ∧ n ≤ 2 ^ 63 - 1) → x = .error ⟨.overflow, p⟩

/-- An operator that does not divide has the exact result, if it has one. -/
theorem applyAt_eq_ok_iff_of_ne (hop : op ≠ .div) :
    op.applyAt p a b = .ok c ↔ c.toInt = op.exact a.toInt b.toInt := by
  rw [applyAt_eq_ok_iff, and_iff_right fun hz => hop hz.1]

/-- It has one where that fits. -/
theorem applyAt_checks (op : Operator) (hop : op ≠ .div) :
    Checks p (op.exact a.toInt b.toInt) (op.applyAt p a b) where
  exists_ok_iff := by
    rw [← Value.fits_iff_pow]
    constructor
    · rintro ⟨c, hc⟩
      rw [← (applyAt_eq_ok_iff_of_ne hop).mp hc]
      exact c.fits_toInt
    · exact fun hfits => ⟨_, (applyAt_eq_ok_iff_of_ne hop).mpr (Value.toInt_ofInt hfits)⟩
  toInt_eq c := (applyAt_eq_ok_iff_of_ne hop).mp
  eq_overflow hrange := by
    rw [← Value.fits_iff_pow] at hrange
    exact applyAt_eq_error_iff.mpr (.inr ⟨fun hz => hop hz.1, hrange, rfl⟩)

/-- The division of `a` by `b`, with the quotient `q`, undone by the checked operations: the
quotient times the divisor is `m`, which taken from the dividend leaves `r`, and these two make
the dividend again. -/
structure Division (a b q m r : Value) : Prop where
  product (p : Nat) : mul.applyAt p q b = .ok m
  remainder (p : Nat) : sub.applyAt p a m = .ok r
  restored (p : Nat) : add.applyAt p m r = .ok a
  natAbs_lt : r.toInt.natAbs < b.toInt.natAbs
  sign_eq : r.toInt = 0 ∨ r.toInt.sign = a.toInt.sign

/-- The operations compute what the law of the quotient is about. -/
theorem division_iff :
    Division a b q m r ↔
      m.toInt = q.toInt * b.toInt ∧ Truncates a.toInt b.toInt q.toInt r.toInt := by
  constructor
  · intro h
    have hm : m.toInt = q.toInt * b.toInt :=
      (applyAt_eq_ok_iff_of_ne (by decide)).mp (h.product 0)
    have ha : a.toInt = m.toInt + r.toInt :=
      (applyAt_eq_ok_iff_of_ne (by decide)).mp (h.restored 0)
    exact ⟨hm, hm ▸ ha, h.natAbs_lt, h.sign_eq⟩
  · rintro ⟨hm, h⟩
    have ha : a.toInt = m.toInt + r.toInt := hm ▸ h.eq_add
    have hr : r.toInt = a.toInt - m.toInt := by omega
    exact {
      product := fun p => (applyAt_eq_ok_iff_of_ne (by decide)).mpr hm
      remainder := fun p => (applyAt_eq_ok_iff_of_ne (by decide)).mpr hr
      restored := fun p => (applyAt_eq_ok_iff_of_ne (by decide)).mpr ha
      natAbs_lt := h.natAbs_lt
      sign_eq := h.sign_eq }

/-- A quotient that is a value is undone without an overflow. -/
theorem exists_division {s : Int} (h : Truncates a.toInt b.toInt q.toInt s) :
    ∃ m r, Division a b q m r := by
  obtain ⟨m, hm⟩ : ∃ m : Value, m.toInt = q.toInt * b.toInt :=
    ⟨_, Value.toInt_ofInt h.fits_product⟩
  obtain ⟨r, rfl⟩ : ∃ r : Value, r.toInt = s := ⟨_, Value.toInt_ofInt h.fits_remainder⟩
  exact ⟨m, r, division_iff.mpr ⟨hm, h⟩⟩

/-- **A division succeeds with the value that leads back to the dividend**, and with no other. -/
theorem applyAt_div_eq_ok_iff : div.applyAt p a b = .ok q ↔ ∃ m r, Division a b q m r := by
  rw [applyAt_eq_ok_iff]
  constructor
  · rintro ⟨hb, hq⟩
    have hb : b.toInt ≠ 0 := fun hz => hb ⟨rfl, hz⟩
    have hq : q.toInt = a.toInt.tdiv b.toInt := hq
    have htruncates := Truncates.tdiv_tmod (a := a.toInt) hb
    rw [← hq] at htruncates
    exact exists_division htruncates
  · rintro ⟨m, r, h⟩
    have htruncates := (division_iff.mp h).2
    exact ⟨fun hz => htruncates.ne_zero hz.2, htruncates.unique.1.symm⟩

theorem applyAt_div_eq_divisionByZero_iff :
    div.applyAt p a b = .error ⟨.divisionByZero, p⟩ ↔ b.toInt = 0 := by
  rw [applyAt_eq_error_iff]
  simp

/-- A division overflows for one pair of operands. -/
theorem applyAt_div_eq_overflow_iff :
    div.applyAt p a b = .error ⟨.overflow, p⟩ ↔ a.toInt = -2 ^ 63 ∧ b.toInt = -1 := by
  rw [applyAt_eq_error_iff]
  by_cases hb : b.toInt = 0
  · simp [hb]
  · have hfits := (Truncates.tdiv_tmod (a := a.toInt) hb).fits_iff
    simp [hb, exact, hfits]

/-- It succeeds for every other pair, unless the divisor is zero. -/
theorem exists_applyAt_div (hb : b.toInt ≠ 0) (hleast : ¬(a.toInt = -2 ^ 63 ∧ b.toInt = -1)) :
    ∃ q, div.applyAt p a b = .ok q := by
  have hfits := (Truncates.tdiv_tmod (a := a.toInt) hb).fits_iff.mpr hleast
  exact ⟨_, applyAt_eq_ok_iff.mpr ⟨fun hz => hb hz.2, Value.toInt_ofInt hfits⟩⟩

/-- A product divided by one of its factors is the other one: nothing remains. -/
theorem applyAt_div_of_mul {p' : Nat} (hb : b.toInt ≠ 0) (hmul : mul.applyAt p a b = .ok c) :
    div.applyAt p' c b = .ok a := by
  have hc := (applyAt_eq_ok_iff_of_ne (by decide)).mp hmul
  have htruncates : Truncates c.toInt b.toInt a.toInt 0 := {
    eq_add := by rw [hc, exact, Int.add_zero]
    natAbs_lt := Int.natAbs_pos.mpr hb
    sign_eq := .inl rfl }
  exact applyAt_div_eq_ok_iff.mpr (exists_division htruncates)

/-- **The operations are exact, and undo each other.** A sum, a difference and a product of values
are the exact ones where these are in the range of 64 bits, and overflow elsewhere. A division
fails for a zero divisor and overflows for the least value divided by `-1`; every other one has a
quotient that the operations lead back to the dividend, by a remainder less than the divisor that
is zero or has the dividend's sign. So a difference undoes a sum and a sum a difference, and a
division by a factor undoes a product. -/
theorem applyAt_exact_inverse (a b : Value) (p : Nat) :
    (Checks p (a.toInt + b.toInt) (add.applyAt p a b) ∧
      Checks p (a.toInt - b.toInt) (sub.applyAt p a b) ∧
      Checks p (a.toInt * b.toInt) (mul.applyAt p a b)) ∧
    ((div.applyAt p a b = .error ⟨.divisionByZero, p⟩ ↔ b.toInt = 0) ∧
      (div.applyAt p a b = .error ⟨.overflow, p⟩ ↔ a.toInt = -2 ^ 63 ∧ b.toInt = -1) ∧
      (b.toInt ≠ 0 → ¬(a.toInt = -2 ^ 63 ∧ b.toInt = -1) →
        ∃ q m r, div.applyAt p a b = .ok q ∧ Division a b q m r)) ∧
    (∀ (c : Value) (p' : Nat), add.applyAt p a b = .ok c ↔ sub.applyAt p' c b = .ok a) ∧
    ∀ (c : Value) (p' : Nat), b.toInt ≠ 0 → mul.applyAt p a b = .ok c →
      div.applyAt p' c b = .ok a := by
  refine ⟨⟨applyAt_checks add (by decide), applyAt_checks sub (by decide),
      applyAt_checks mul (by decide)⟩,
    ⟨applyAt_div_eq_divisionByZero_iff, applyAt_div_eq_overflow_iff, fun hb hleast => ?_⟩,
    fun c p' => ?_, fun c p' hb => applyAt_div_of_mul hb⟩
  · obtain ⟨q, hq⟩ := exists_applyAt_div (p := p) hb hleast
    obtain ⟨m, r, h⟩ := applyAt_div_eq_ok_iff.mp hq
    exact ⟨q, m, r, hq, h⟩
  · rw [applyAt_eq_ok_iff_of_ne (by decide), applyAt_eq_ok_iff_of_ne (by decide), exact, exact]
    omega

/-- A quotient is truncated toward zero, and the remainder is negative like the dividend. The least
value has no quotient by `-1`, and a factor of the product `-6` is found again. -/
theorem applyAt_exact_inverse_negative :
    (∃ q m r, div.applyAt 2 (-7) 2 = .ok q ∧ Division (-7) 2 q m r) ∧
      div.applyAt 2 Int64.minValue (-1) = .error ⟨.overflow, 2⟩ ∧
      mul.applyAt 1 (-3) 2 = .ok (-6) ∧ div.applyAt 2 (-6) 2 = .ok (-3) := by
  have hproduct : mul.applyAt 1 (-3) 2 = .ok (-6) := rfl
  obtain ⟨-, ⟨-, -, hquotient⟩, -, -⟩ := applyAt_exact_inverse (-7) 2 2
  obtain ⟨-, ⟨-, hleast, -⟩, -, -⟩ := applyAt_exact_inverse Int64.minValue (-1) 2
  obtain ⟨-, -, -, hfactor⟩ := applyAt_exact_inverse (-3) 2 1
  exact ⟨hquotient (by decide) (by decide), hleast.mpr (by decide), hproduct,
    hfactor (-6) 2 (by decide) hproduct⟩

end Operator

end Abacus
