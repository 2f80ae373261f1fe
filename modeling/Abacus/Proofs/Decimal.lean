import Mathlib.Data.Nat.Digits.Lemmas
import Abacus.Numeral

/-!
# The decimal system

Numerals are read digit by digit, and values are written by dividing again and again. What both
have to do with a number is said here without either. The digits of a numeral stand for a number
in the decimal system, the last of them being worth the least, and a sign may be in front. Many
texts denote an integer in that way, but it is written in only one: there are no zeros in front of
other digits, and no sign but the minus of a negative integer.

## Main results

* `Numeral.int?_eq_some_iff`: which integer a text denotes, if any, is read from it.
* `Numeral.Writes.unique`: an integer is written in one way at most.
* `Value.writes_numeral`: the numeral of a value is that way.
-/

namespace Abacus

namespace Numeral

/-- The number that some digits stand for in the decimal system, the last of them being worth
the least. -/
def decimal (ds : List Char) : Nat :=
  Nat.ofDigits 10 (ds.map fun d => d.toNat - '0'.toNat).reverse

/-- The text `cs` denotes the integer `n`: digits, at least one, with or without a sign. -/
inductive Denotes : List Char → Int → Prop
  | plain {ds : List Char} (ne_nil : ds ≠ []) (isDigit : ∀ d ∈ ds, d.isDigit = true) :
      Denotes ds (decimal ds)
  | plus {ds : List Char} (ne_nil : ds ≠ []) (isDigit : ∀ d ∈ ds, d.isDigit = true) :
      Denotes ('+' :: ds) (decimal ds)
  | minus {ds : List Char} (ne_nil : ds ≠ []) (isDigit : ∀ d ∈ ds, d.isDigit = true) :
      Denotes ('-' :: ds) (-decimal ds)

variable {cs ds : List Char}

/-- A digit behind others makes ten times their number and itself. -/
theorem decimal_concat (ds : List Char) (d : Char) :
    decimal (ds ++ [d]) = 10 * decimal ds + (d.toNat - '0'.toNat) := by
  rw [decimal, List.map_append, List.reverse_append, List.map_singleton, List.reverse_singleton,
    List.singleton_append, Nat.ofDigits_cons, decimal]
  exact Nat.add_comm _ _

/-- Zeros in front of digits do not count. -/
theorem decimal_zeros (k : Nat) (ds : List Char) :
    decimal (List.replicate k '0' ++ ds) = decimal ds := by
  rw [decimal, List.map_append, List.reverse_append, List.map_replicate, List.reverse_replicate,
    Nat.sub_self, Nat.ofDigits_append_replicate_zero, decimal]

/-- Reading digits from the first to the last comes to their number in the decimal system. -/
theorem ofDigitChars_eq_decimal (ds : List Char) : Nat.ofDigitChars 10 ds 0 = decimal ds := by
  induction ds using List.reverseRecOn with
  | nil => rfl
  | append_singleton ds d ih =>
      rw [Nat.ofDigitChars_append, ih, Nat.ofDigitChars_cons, Nat.ofDigitChars_nil, decimal_concat]

/-- A number is read from digits, and from nothing else. -/
theorem nat?_eq_some_iff {n : Nat} :
    nat? ds = some n ↔ (ds ≠ [] ∧ ∀ d ∈ ds, d.isDigit = true) ∧ n = decimal ds := by
  rw [nat?, ofDigitChars_eq_decimal, Option.ite_none_right_eq_some, List.all_eq_true,
    Option.some.injEq, eq_comm (a := n)]

/-- **An integer is read from the texts that denote it.** The first character says which of the
three forms a text can have, since a sign is no digit. -/
theorem int?_eq_some_iff {n : Int} : int? cs = some n ↔ Denotes cs n := by
  constructor
  · intro h
    unfold int? at h
    split at h <;> obtain ⟨m, hm, rfl⟩ := Option.map_eq_some_iff.mp h <;>
      obtain ⟨⟨hne, hdigits⟩, rfl⟩ := nat?_eq_some_iff.mp hm
    · exact .minus hne hdigits
    · exact .plus hne hdigits
    · exact .plain hne hdigits
  · intro h
    cases h with
    | plain hne hdigits => exact int?_of_nat? (nat?_eq_some_iff.mpr ⟨⟨hne, hdigits⟩, rfl⟩)
    | plus hne hdigits | minus hne hdigits =>
        rw [int?, nat?_eq_some_iff.mpr ⟨⟨hne, hdigits⟩, rfl⟩, Option.map_some]

/-- Digits denote their number in the decimal system, and no other. -/
theorem int?_of_isDigit (hne : ds ≠ []) (hdigits : ∀ d ∈ ds, d.isDigit = true) :
    int? ds = some (decimal ds : Int) :=
  int?_eq_some_iff.mpr (.plain hne hdigits)

/-- Dividing a number by ten, again and again, gives digits that stand for it. -/
theorem digits_toDigits (n : Nat) :
    (∀ d ∈ Nat.toDigits 10 n, d.isDigit = true) ∧ decimal (Nat.toDigits 10 n) = n := by
  refine ⟨fun d hd => Nat.isDigit_of_mem_toDigits (by decide) (by decide) hd, ?_⟩
  rw [← ofDigitChars_eq_decimal, Nat.ofDigitChars_ten_toDigits]

/-- The decimal text of a number consists of digits that stand for it. -/
theorem digits_toString (n : Nat) :
    (toString n ≠ "" ∧ ∀ d ∈ (toString n).toList, d.isDigit = true) ∧
      decimal (toString n).toList = n := by
  have htext : (toString n).toList = Nat.toDigits 10 n := Nat.toList_repr
  rw [ne_eq, ← String.toList_eq_nil_iff, htext]
  exact ⟨⟨Nat.toDigits_ne_nil, (digits_toDigits n).1⟩, (digits_toDigits n).2⟩

/-! ### The text of an integer -/

/-- The characters `cs` write the integer `n`: digits that stand for it, with no zero in front of
others, and a minus sign in front of them if it is negative. -/
inductive Writes : List Char → Int → Prop
  | nonneg {ds : List Char} (ne_nil : ds ≠ []) (isDigit : ∀ d ∈ ds, d.isDigit = true)
      (lead : ds.head? = some '0' → ds = ['0']) : Writes ds (decimal ds)
  | neg {ds : List Char} (ne_nil : ds ≠ []) (isDigit : ∀ d ∈ ds, d.isDigit = true)
      (lead : ds.head? ≠ some '0') : Writes ('-' :: ds) (-decimal ds)

/-- What a digit is worth is less than ten, and tells the digit. -/
theorem digitChar_of_isDigit {d : Char} (h : d.isDigit = true) :
    d.toNat - '0'.toNat < 10 ∧ Nat.digitChar (d.toNat - '0'.toNat) = d := by
  obtain ⟨hle, hge⟩ := Char.isDigit_iff_toNat.mp h
  have hlt : d.toNat - '0'.toNat < '9'.toNat + 1 - '0'.toNat := by omega
  refine ⟨hlt, Char.toNat_inj.mp ?_⟩
  rw [Nat.toNat_digitChar_of_lt_ten hlt]
  exact Nat.add_sub_cancel' hle

/-- Digits without a zero in front are those of their number. -/
theorem eq_digits (hdigits : ∀ d ∈ ds, d.isDigit = true) (hlead : ds.head? ≠ some '0') :
    ds = (Nat.digits 10 (decimal ds)).reverse.map Nat.digitChar := by
  have hworth : Nat.digits 10 (decimal ds) = (ds.map fun d => d.toNat - '0'.toNat).reverse := by
    refine Nat.digits_ofDigits 10 (by decide) _ ?_ ?_
    · intro l hl
      obtain ⟨d, hd, rfl⟩ := List.mem_map.mp (List.mem_reverse.mp hl)
      exact (digitChar_of_isDigit (hdigits d hd)).1
    · intro hne hlast
      cases ds with
      | nil => exact hne rfl
      | cons d ds =>
          have hzero : d.toNat - '0'.toNat = 0 := by simpa using hlast
          have hd := (digitChar_of_isDigit (hdigits d List.mem_cons_self)).2
          rw [hzero] at hd
          exact hlead (congrArg some hd.symm)
  calc
    ds = ds.map id := (List.map_id ds).symm
    _ = ds.map (Nat.digitChar ∘ fun d => d.toNat - '0'.toNat) :=
      List.map_congr_left fun d hd => (digitChar_of_isDigit (hdigits d hd)).2.symm
    _ = (Nat.digits 10 (decimal ds)).reverse.map Nat.digitChar := by
      rw [hworth, List.reverse_reverse, List.map_map]

/-- They stand for zero only if there are none. -/
theorem decimal_ne_zero (hne : ds ≠ []) (hdigits : ∀ d ∈ ds, d.isDigit = true)
    (hlead : ds.head? ≠ some '0') : decimal ds ≠ 0 := by
  intro hzero
  have hnil := eq_digits hdigits hlead
  rw [hzero] at hnil
  exact hne hnil

/-- Digits with no zero in front of others are told by their number. -/
theorem eq_of_decimal_eq {ds' : List Char} (hne : ds ≠ []) (hne' : ds' ≠ [])
    (hdigits : ∀ d ∈ ds, d.isDigit = true) (hdigits' : ∀ d ∈ ds', d.isDigit = true)
    (hlead : ds.head? = some '0' → ds = ['0']) (hlead' : ds'.head? = some '0' → ds' = ['0'])
    (h : decimal ds = decimal ds') : ds = ds' := by
  by_cases hz : ds.head? = some '0' <;> by_cases hz' : ds'.head? = some '0'
  · rw [hlead hz, hlead' hz']
  · rw [hlead hz] at h
    exact absurd h.symm (decimal_ne_zero hne' hdigits' hz')
  · rw [hlead' hz'] at h
    exact absurd h (decimal_ne_zero hne hdigits hz)
  · rw [eq_digits hdigits hz, eq_digits hdigits' hz', h]

/-- **An integer is written in one way at most.** -/
theorem Writes.unique {cs' : List Char} {n : Int} (h : Writes cs n) (h' : Writes cs' n) :
    cs = cs' := by
  cases h with
  | nonneg hne hdigits hlead =>
      generalize hn : (decimal cs : Int) = n at h'
      cases h' with
      | nonneg hne' hdigits' hlead' =>
          exact eq_of_decimal_eq hne hne' hdigits hdigits' hlead hlead' (Int.natCast_inj.mp hn)
      | neg hne' hdigits' hlead' =>
          have := decimal_ne_zero hne' hdigits' hlead'
          omega
  | @neg ds hne hdigits hlead =>
      generalize hn : (-decimal ds : Int) = n at h'
      cases h' with
      | nonneg hne' hdigits' hlead' =>
          have := decimal_ne_zero hne hdigits hlead
          omega
      | neg hne' hdigits' hlead' =>
          have heq := eq_of_decimal_eq hne hne' hdigits hdigits' (absurd · hlead) (absurd · hlead')
            (Int.natCast_inj.mp (Int.neg_inj.mp hn))
          rw [heq]

/-- No zero leads the digits that a number is written with. -/
theorem head?_toDigits {n : Nat} (h : 0 < n) : (Nat.toDigits 10 n).head? ≠ some '0' := by
  induction n using Nat.strongRecOn with
  | _ n ih =>
    rw [Nat.toDigits_eq_if (by decide)]
    split_ifs with hlt
    · have hdigit : ∀ m < 10, 0 < m → m.digitChar ≠ '0' := by decide
      simpa using hdigit n hlt h
    · rw [List.head?_append_of_ne_nil _ Nat.toDigits_ne_nil]
      exact ih (n / 10) (by omega) (by omega)

end Numeral

/-- **The numeral of a value is the text of the integer.** -/
theorem Value.writes_numeral (v : Value) : Numeral.Writes v.numeral.toList v.toInt := by
  rw [Value.numeral]
  cases v.toInt with
  | ofNat n =>
      obtain ⟨hdigits, hdecimal⟩ := Numeral.digits_toDigits n
      have hlead : (Nat.toDigits 10 n).head? = some '0' → Nat.toDigits 10 n = ['0'] := by
        intro h
        obtain rfl : n = 0 := Nat.eq_zero_of_not_pos fun hn => Numeral.head?_toDigits hn h
        rfl
      have htext : (toString (Int.ofNat n)).toList = Nat.toDigits 10 n := Nat.toList_repr
      have hwrites := Numeral.Writes.nonneg Nat.toDigits_ne_nil hdigits hlead
      rw [hdecimal] at hwrites
      rwa [htext]
  | negSucc n =>
      obtain ⟨hdigits, hdecimal⟩ := Numeral.digits_toDigits (n + 1)
      have htext : (toString (Int.negSucc n)).toList = '-' :: Nat.toDigits 10 (n + 1) := by
        change ("-" ++ Nat.repr (n + 1)).toList = _
        rw [String.toList_append, Nat.toList_repr]
        rfl
      have hwrites := Numeral.Writes.neg Nat.toDigits_ne_nil hdigits
        (Numeral.head?_toDigits n.succ_pos)
      rw [hdecimal] at hwrites
      rwa [htext]

end Abacus
