import Abacus.Error.Message

/-!
# What a message tells

A message is text for people, and texts of tokens are put into it without a mark for where they
end. All the same it can be read back. The position comes first, and its digits end at the colon.
What follows begins with three letters that say which kind of error it is, and behind these the
text of the token stands between two fixed texts, so that nothing in it can be taken for either.
A token that spells what the end of the input is called differs from the end by its quotes.

A symbol is told from its quotation, too. The escapes differ in length from a plain character and
from each other, and this does not depend on which characters are plain.

## Main results

* `messageAt_inj`: the position can be told from a message.
* `EvalError.Cause.describe_inj`: so can the cause.
* `Quoted.Writes.unique`: a quotation is that of one character, whichever characters are plain.
* `CalcError.messageWith_inj`: a message is that of one error.
-/

namespace Abacus

/-! ### Digits -/

namespace Numeral

variable {b m n : Nat}

/-- Below sixteen every number has a digit of its own. -/
theorem digitChar_inj (hm : m < 16) (hn : n < 16) :
    Nat.digitChar m = Nat.digitChar n ↔ m = n := by
  have hdigits : ∀ i j : Fin 16, Nat.digitChar i = Nat.digitChar j → i = j := by decide
  exact ⟨fun h => congrArg Fin.val (hdigits ⟨m, hm⟩ ⟨n, hn⟩ h), congrArg _⟩

/-- A number of one digit is not written like one of several. -/
theorem toDigits_ne_of_lt_of_le (hb : 1 < b) (hm : m < b) (hn : b ≤ n) :
    Nat.toDigits b m ≠ Nat.toDigits b n := by
  intro h
  rw [Nat.toDigits_of_lt_base hm, Nat.toDigits_of_base_le hb hn] at h
  have hlength := congrArg List.length h
  have hpos : 0 < (Nat.toDigits b (n / b)).length := Nat.length_toDigits_pos
  rw [List.length_append, List.length_singleton, List.length_singleton] at hlength
  omega

/-- Numbers that are written alike are equal, in every base that there are digits for. -/
theorem toDigits_inj (hb : 1 < b) (hle : b ≤ 16) :
    Nat.toDigits b m = Nat.toDigits b n ↔ m = n := by
  refine ⟨fun h => ?_, congrArg _⟩
  -- by induction on the quotient, whose digits stand in front of that of the remainder
  induction m using Nat.strongRecOn generalizing n with
  | ind m ih =>
      rcases Nat.lt_or_ge m b with hm | hm <;> rcases Nat.lt_or_ge n b with hn | hn
      · rw [Nat.toDigits_of_lt_base hm, Nat.toDigits_of_lt_base hn, List.singleton_inj] at h
        exact (digitChar_inj (by omega) (by omega)).mp h
      · exact absurd h (toDigits_ne_of_lt_of_le hb hm hn)
      · exact absurd h.symm (toDigits_ne_of_lt_of_le hb hn hm)
      · rw [Nat.toDigits_of_base_le hb hm, Nat.toDigits_of_base_le hb hn] at h
        obtain ⟨hfront, hlast⟩ := List.append_inj' h rfl
        have hlt : ∀ k, k % b < 16 := fun k => Nat.lt_of_lt_of_le (Nat.mod_lt k (by omega)) hle
        have hquot : m / b = n / b := ih (m / b) (Nat.div_lt_self (by omega) hb) hfront
        have hrem : m % b = n % b :=
          (digitChar_inj (hlt m) (hlt n)).mp (List.singleton_inj.mp hlast)
        rw [← Nat.div_add_mod m b, ← Nat.div_add_mod n b, hquot, hrem]

/-- Decimal digits end at the first character that is none. -/
theorem takeWhile_toDigits (n : Nat) {c : Char} (hc : c.isDigit = false) (cs : List Char) :
    (Nat.toDigits 10 n ++ c :: cs).takeWhile Char.isDigit = Nat.toDigits 10 n := by
  have hdigits : ∀ d ∈ Nat.toDigits 10 n, d.isDigit = true := fun d hd =>
    Nat.isDigit_of_mem_toDigits (by decide) (by decide) hd
  rw [List.takeWhile_append_of_pos hdigits, List.takeWhile_cons_of_neg (by simp [hc]),
    List.append_nil]

end Numeral

/-! ### Positions -/

/-- The characters of a message: a colon ends the digits of the position. -/
theorem toList_messageAt (p : Nat) (what : String) :
    (messageAt p what).toList =
      "Error at position ".toList ++ (Nat.toDigits 10 p ++ ':' :: ' ' :: what.toList) := by
  have hposition : (toString p).toList = Nat.toDigits 10 p := by
    rw [Nat.toString_eq_ofList_toDigits, String.toList_ofList]
  unfold messageAt
  simp only [String.toList_append, hposition, List.append_assoc]
  rfl

/-- The position can be told from a message, and what is said about it. -/
theorem messageAt_inj {p p' : Nat} {what what' : String} :
    messageAt p what = messageAt p' what' ↔ p = p' ∧ what = what' := by
  constructor
  · intro h
    have hlist := congrArg String.toList h
    rw [toList_messageAt, toList_messageAt, List.append_cancel_left_eq] at hlist
    -- what follows the digits may begin with digits of its own, but the colon stands in between
    have hcolon : ':'.isDigit = false := rfl
    have hdigits : Nat.toDigits 10 p = Nat.toDigits 10 p' := by
      rw [← Numeral.takeWhile_toDigits p hcolon (' ' :: what.toList), hlist,
        Numeral.takeWhile_toDigits p' hcolon]
    rw [hdigits, List.append_cancel_left_eq, List.cons.injEq, List.cons.injEq,
      String.toList_inj] at hlist
    exact ⟨(Numeral.toDigits_inj (by decide) (by decide)).mp hdigits, hlist.2.2⟩
  · rintro ⟨rfl, rfl⟩
    rfl

/-! ### Causes -/

/-- The text of a token can be told from what the token is called. -/
theorem tokenName_inj {x y : String} : tokenName x = tokenName y ↔ x = y := by
  unfold tokenName
  by_cases hx : x = "" <;> by_cases hy : y = "" <;> simp [hx, hy, ← String.toList_inj]

/-- A token can spell what the end of the input is called. -/
example : tokenName "end of input" = "'end of input'" ∧ tokenName "" = "end of input" := by
  decide

namespace EvalError.Cause

variable {c c' : EvalError.Cause}

/-- The first three letters in which a cause is worded. -/
def initials : EvalError.Cause → List Char
  | unexpectedToken _ => ['U', 'n', 'e']
  | unmatchedParen _ => ['U', 'n', 'm']
  | malformedNumber _ => ['L', 'i', 't']
  | divisionByZero => ['D', 'i', 'v']
  | overflow => ['I', 'n', 't']

theorem take_describe (c : EvalError.Cause) : c.describe.toList.take 3 = c.initials := by
  unfold describe
  cases c <;> simp [initials]

/-- The cause can be told from its wording: the initials are those of one kind only, and causes
of one kind have the same words around their texts. -/
theorem describe_inj : c.describe = c'.describe ↔ c = c' := by
  refine ⟨fun h => ?_, congrArg _⟩
  have hinitials : c.initials = c'.initials := by
    rw [← take_describe, h, take_describe]
  unfold describe at h
  cases c <;> cases c'
  case unexpectedToken.unexpectedToken | unmatchedParen.unmatchedParen =>
    simp only [String.append_left_inj, String.append_right_inj, tokenName_inj] at h
    rw [h]
  case malformedNumber.malformedNumber =>
    simp only [String.append_left_inj, String.append_right_inj] at h
    rw [h]
  case divisionByZero.divisionByZero => rfl
  case overflow.overflow => rfl
  all_goals simp [initials] at hinitials

/-- No cause is worded like an unknown symbol. -/
theorem describe_ne_append (c : EvalError.Cause) (what : String) :
    c.describe ≠ "Unknown symbol " ++ what := by
  intro h
  have hinitials := c.take_describe
  rw [h] at hinitials
  cases c <;> simp [initials] at hinitials

end EvalError.Cause

/-! ### Symbols -/

namespace Quoted

variable {c d : Char} {cs : List Char}

/-- The ways of writing a character between quotes, whichever characters are plain. -/
inductive Writes (c : Char) : List Char → Prop
  | byLetter {letter : Char} (lookup_eq : named.lookup c = some letter) : Writes c ['\\', letter]
  | asItself : Writes c [c]
  | byCode : Writes c (['\\', 'u', '\x7b'] ++ code c ++ ['\x7d'])

/-- A character is written in one of these ways. -/
theorem writes_body (plain : Char → Bool) (c : Char) : Writes c (body plain c) := by
  cases hc : named.lookup c with
  | some letter =>
      rw [body_named hc]
      exact .byLetter hc
  | none =>
      cases hp : plain c with
      | true =>
          rw [body_plain hc hp]
          exact .asItself
      | false =>
          rw [body_code hc hp]
          exact .byCode

/-- No letter stands for two characters. -/
theorem eq_of_lookup_named {letter : Char} (hc : named.lookup c = some letter)
    (hd : named.lookup d = some letter) : c = d := by
  have hmem : ∀ {x : Char}, named.lookup x = some letter → (x, letter) ∈ named := by
    intro x hx
    obtain ⟨front, back, hsplit, -⟩ := List.lookup_eq_some_iff.mp hx
    rw [hsplit]
    exact List.mem_append_right front List.mem_cons_self
  have hletters : ∀ p ∈ named, ∀ q ∈ named, p.2 = q.2 → p.1 = q.1 := by simp [named]
  exact hletters _ (hmem hc) _ (hmem hd) rfl

/-- **What stands between quotes is a way of writing one character only.** The three ways have
lengths of their own, so that they are not mixed up, and each of them tells the character. -/
theorem Writes.unique (hc : Writes c cs) (hd : Writes d cs) : c = d := by
  generalize hds : cs = ds at hd
  cases hc with
  | byLetter hc =>
      cases hd with
      | byLetter hd =>
          simp only [List.cons.injEq, true_and, and_true] at hds
          exact eq_of_lookup_named hc (hds ▸ hd)
      | asItself | byCode => simp at hds
  | asItself =>
      cases hd with
      | asItself => exact List.singleton_inj.mp hds
      | byLetter | byCode => simp at hds
  | byCode =>
      cases hd with
      | byCode =>
          rw [List.append_left_inj, List.append_right_inj, code, code,
            Numeral.toDigits_inj (by decide) (by decide), Char.toNat_inj] at hds
          exact hds
      | byLetter | asItself => simp at hds

/-- A symbol can be told from its quotation. -/
theorem quote_inj {plain : Char → Bool} : quote plain c = quote plain d ↔ c = d := by
  refine ⟨fun h => ?_, congrArg _⟩
  rw [quote, quote, String.ofList_inj, List.append_left_inj, List.append_right_inj] at h
  exact (writes_body plain c).unique (h ▸ writes_body plain d)

end Quoted

/-! ### Errors -/

/-- An evaluation error can be told from its message. -/
theorem EvalError.message_inj {e e' : EvalError} : e.message = e'.message ↔ e = e' := by
  refine ⟨fun h => ?_, congrArg _⟩
  obtain ⟨hposition, hwhat⟩ := messageAt_inj.mp h
  have hcause := Cause.describe_inj.mp hwhat
  cases e
  cases e'
  rw [EvalError.mk.injEq]
  exact ⟨hcause, hposition⟩

namespace LexError

variable {plain : Char → Bool} {e e' : LexError}

/-- So can a lexical error. -/
theorem eq_of_messageWith_eq (h : e.messageWith plain = e'.messageWith plain) : e = e' := by
  obtain ⟨hposition, hwhat⟩ := messageAt_inj.mp h
  rw [String.append_left_inj, String.append_right_inj, Quoted.quote_inj] at hwhat
  cases e
  cases e'
  rw [LexError.mk.injEq]
  exact ⟨hwhat, hposition⟩

/-- The two are not taken for each other. -/
theorem messageWith_ne_message (plain : Char → Bool) (e : LexError) (e' : EvalError) :
    e.messageWith plain ≠ e'.message := by
  intro h
  obtain ⟨-, hwhat⟩ := messageAt_inj.mp h
  rw [String.append_assoc] at hwhat
  exact e'.cause.describe_ne_append _ hwhat.symm

end LexError

/-- **A message is that of one error.** Whichever characters are plain, errors that have the same
message are of the same kind, quote the same symbol or text, and blame the same position. -/
theorem CalcError.messageWith_inj (plain : Char → Bool) {e e' : CalcError} :
    e.messageWith plain = e'.messageWith plain ↔ e = e' := by
  refine ⟨fun h => ?_, congrArg _⟩
  cases e with
  | lexical e =>
      cases e' with
      | lexical e' => exact congrArg lexical (LexError.eq_of_messageWith_eq h)
      | evaluation e' => exact absurd h (e.messageWith_ne_message plain e')
  | evaluation e =>
      cases e' with
      | lexical e' => exact absurd h.symm (e'.messageWith_ne_message plain e)
      | evaluation e' => exact congrArg evaluation (EvalError.message_inj.mp h)

end Abacus
