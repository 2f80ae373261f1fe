import Abacus.Proofs.Parentheses

/-!
# What an error says

Every error blames a token that was taken. It quotes the text of the token, unless the error
is about an operator, and points at the token's position. Which tokens can be blamed depends
on the kind of the error: only the end of the sequence is found where a group has to be
closed, only a number can be malformed, and only operators fail.

A rule that fails has taken this token last. Only an operator fails later: when its right operand
has been read, and that operand, whole, is then what has been taken since.

For a text this means that its errors can be trusted. The tokens of a text are cut out of it,
so whatever an error says about a token is true of the characters at its position. Errors
that could be constructed and would not be true, such as a number that is malformed without
being too large, do not occur.

## Main results

* `Rule.Reads.breaks`: what a rule that fails has taken last.
* `Rule.Reads.exists_blamed`: the token that an error blames, and what it is.
* `EvalError.TrueOf`: what each error says of the characters of the source.
* `calculate_truthful`: every error that `calculate` reports is true of its source; a character
  that belongs to no token is reported before anything else.
-/

namespace Abacus

/-! ### Kinds of errors -/

/-- The kinds of errors, without what an error quotes and where it points. -/
inductive EvalError.Kind
  | unexpectedToken
  | unmatchedParen
  | malformedNumber
  | divisionByZero
  | overflow
deriving DecidableEq, Repr

namespace EvalError.Kind

/-- The error of the kind that blames the token. -/
def error : Kind → Token → EvalError
  | unexpectedToken, t => ⟨.unexpectedToken t.text, t.position⟩
  | unmatchedParen, t => ⟨.unmatchedParen t.text, t.position⟩
  | malformedNumber, t => ⟨.malformedNumber t.text, t.position⟩
  | divisionByZero, t => ⟨.divisionByZero, t.position⟩
  | overflow, t => ⟨.overflow, t.position⟩

/-- What a token is that an error of the kind can blame. -/
def AppliesTo : Kind → Token → Prop
  | unexpectedToken, _ => True
  | unmatchedParen, t => t.kind = .endMark
  | malformedNumber, t =>
      t.kind = .number ∧ ∀ n, Numeral.int? t.text.toList = some n → ¬Value.Fits n
  | divisionByZero, t => t.kind = .operator .div
  | overflow, t => ∃ op, t.kind = .operator op

end EvalError.Kind

open EvalError (Kind)

/-- An operator that fails does so in the same way wherever it stands. -/
theorem Operator.exists_kind_of_applyAt {op : Operator} {p : Nat} {a b : Value} {e : EvalError}
    (h : op.applyAt p a b = .error e) :
    ∃ kind : Kind, ∀ t : Token, t.kind = .operator op →
      kind.AppliesTo t ∧ op.applyAt t.position a b = .error (kind.error t) := by
  rcases applyAt_eq_error_iff.mp h with ⟨hz, -⟩ | ⟨hz, hfit, -⟩
  · refine ⟨.divisionByZero, fun t ht => ⟨ht.trans (by rw [hz.1]), ?_⟩⟩
    exact applyAt_eq_error_iff.mpr (.inl ⟨hz, rfl⟩)
  · refine ⟨.overflow, fun t ht => ⟨⟨op, ht⟩, ?_⟩⟩
    exact applyAt_eq_error_iff.mpr (.inr ⟨hz, hfit, rfl⟩)

/-! ### What a rule that fails has taken last -/

/-- An operator fails in two ways, and no other rule does so in these. -/
theorem Operator.cause_of_applyAt {op : Operator} {p : Nat} {a b : Value} {e : EvalError}
    (h : op.applyAt p a b = .error e) : e.cause ∈ [.divisionByZero, .overflow] := by
  rcases applyAt_eq_error_iff.mp h with ⟨-, rfl⟩ | ⟨-, -, rfl⟩ <;> simp

namespace Rule

/-- Where a rule that fails with the error breaks off, when it has taken `us` and left `ts`. -/
inductive Breaks (r : Rule) (us ts : List Token) (e : EvalError) : Prop
  /-- Behind the token that the error blames, when that is no failure of an operator. -/
  | token (front : List Token) (t : Token) (kind : Kind) (split : us = front ++ [t])
      (applies : kind.AppliesTo t) (error_eq : e = kind.error t)
      (quotes : e.cause ∉ [.divisionByZero, .overflow])
  /-- Behind the right operand of the operator that fails. The operator is the first token taken
  only where the left operand had been read before. -/
  | operator (front operand : List Token) (t : Token) (op : Operator) (kind : Kind)
      (split : us = front ++ t :: operand) (kind_eq : t.kind = .operator op)
      (applies : kind.AppliesTo t) (error_eq : e = kind.error t)
      (fails : e.cause ∈ [.divisionByZero, .overflow])
      (phrase : op.level.operand.Phrase operand) (stops : op.level.operand.Stops operand ts)
      (lead : front = [] → ∃ level left, r = rest level left)

variable {r r' : Rule} {us ts : List Token} {e : EvalError}

/-- A rule that another one begins with breaks off where that one does. -/
theorem Breaks.of_callee (h : Breaks r us ts e) (hr : ∀ level left, r ≠ rest level left) :
    Breaks r' us ts e := by
  cases h with
  | token front t kind split applies error_eq quotes =>
      exact .token front t kind split applies error_eq quotes
  | operator front operand t op kind split kind_eq applies error_eq fails phrase stops lead =>
      refine .operator front operand t op kind split kind_eq applies error_eq fails phrase stops
        fun hnil => ?_
      obtain ⟨level, left, heq⟩ := lead hnil
      exact absurd heq (hr level left)

/-- Behind other tokens a rule breaks off where it does without them. -/
theorem Breaks.behind (h : Breaks r us ts e) (v : Token) (vs : List Token) :
    Breaks r' (v :: vs ++ us) ts e := by
  cases h with
  | token front t kind split applies error_eq quotes =>
      exact .token (v :: vs ++ front) t kind (by rw [split, List.append_assoc]) applies error_eq
        quotes
  | operator front operand t op kind split kind_eq applies error_eq fails phrase stops _ =>
      refine .operator (v :: vs ++ front) operand t op kind (by rw [split, List.append_assoc])
        kind_eq applies error_eq fails phrase stops fun hnil => ?_
      cases hnil

/-- **What a rule that fails has taken last**: the token that its error blames, or the whole
right operand of the operator that fails. One case for each way of failing; the rules in between
only pass the failure on. -/
theorem Reads.breaks (h : Reads r us ts (.error e)) : Breaks r us ts e := by
  generalize hx : Except.error e = x at h
  induction h with
  | whole _ _ ih => exact (ih hx).of_callee (by simp)
  | @firstFails level _ _ _ _ ih => exact (ih hx).of_callee level.operand_ne_rest
  | @first level us _ _ _ _ hop _ _ ih =>
      obtain ⟨t, us, rfl⟩ := hop.exists_cons level.operand_ne_rest
      exact (ih hx).behind t us
  | @strays _ _ t | @misplaced t =>
      cases hx
      exact .token [] t .unexpectedToken rfl trivial rfl (by simp [Token.unexpected])
  | @nextFails _ _ _ t _ _ _ _ _ ih => exact (ih hx).behind t []
  | @applyFails level _ _ op t us _ _ hk hread hop =>
      cases hx
      obtain ⟨hkind, rfl⟩ := Level.role_eq_joins_iff.mp hk
      obtain ⟨kind, hfailure⟩ := Operator.exists_kind_of_applyAt hop
      obtain ⟨happlies, herror⟩ := hfailure t hkind
      obtain ⟨d, hd, -⟩ := hread.builds.exists_operand
      exact .operator [] us t op kind rfl hkind happlies
        (Except.error.inj (hop.symm.trans herror)) (Operator.cause_of_applyAt hop) ⟨d, hd⟩
        hread.stops fun _ => ⟨_, _, rfl⟩
  | @next _ _ _ _ _ t us _ _ _ _ _ _ _ _ ih => exact (ih hx).behind t us
  | @number t _ hk =>
      obtain ⟨hfits, rfl⟩ := Token.literal_eq_error_iff.mp hx.symm
      exact .token [] t .malformedNumber rfl ⟨hk, hfits⟩ rfl (by simp)
  | @groupFails l _ _ _ _ _ ih => exact (ih hx).behind l []
  | @unmatched l r us ts v _ hread hr =>
      cases hx
      have hmark : r.kind = .endMark := hread.kind_eq_of_sum.resolve_left hr
      exact .token (l :: us) r .unmatchedParen rfl hmark rfl (by simp [Token.unmatched])
  | _ => cases hx

/-- **Every error blames a token that was taken**, and one that its kind applies to. -/
theorem Reads.exists_blamed (h : Reads r us ts (.error e)) :
    ∃ t ∈ us, ∃ kind : Kind, kind.AppliesTo t ∧ e = kind.error t := by
  cases h.breaks with
  | token front t kind split applies error_eq _ =>
      exact ⟨t, by simp [split], kind, applies, error_eq⟩
  | operator front operand t op kind split _ applies error_eq =>
      exact ⟨t, by simp [split], kind, applies, error_eq⟩

end Rule

/-! ### Errors and the characters of the source -/

/-- What the error says of the source, when `ts` are its tokens. -/
def EvalError.TrueOf (source : List Char) (ts : List Token) (e : EvalError) : Prop :=
  match e.cause with
  | .unexpectedToken text =>
      text = "" ∧ e.position = source.length ∨
        text ≠ "" ∧ ∃ t ∈ ts, t.position = e.position ∧ t.text = text
  | .unmatchedParen text =>
      text = "" ∧ e.position = source.length ∧ source.count ')' < source.count '('
  | .malformedNumber text =>
      text.toList = (source.drop e.position).takeWhile Char.isDigit ∧
        (∀ i c, i + 1 = e.position → source[i]? = some c → c.isDigit = false) ∧
        ∃ n, Numeral.nat? text.toList = some n ∧ 9223372036854775808 ≤ n
  | .divisionByZero => source[e.position]? = some '/'
  | .overflow => ∃ c ∈ ['+', '-', '*', '/'], source[e.position]? = some c

namespace Lexer

variable {cs before after : List Char} {ts : List Token} {t : Token}

/-- An operator stands in the source as its symbol. -/
theorem Cut.getElem?_of_operator {op : Operator} (h : Cut 0 cs t before after)
    (hk : t.kind = .operator op) : cs[t.position]? = some op.symbol := by
  have htext : t.text = op.symbol.toString := by
    have hspelled := h.wellSpelled
    rwa [Token.WellSpelled, hk] at hspelled
  rw [h.eq_append, h.position_eq, htext, Nat.zero_add,
    List.getElem?_append_right (Nat.le_refl _), Nat.sub_self]
  simp

/-- A number stands in the source as a run of digits that is as long as possible. -/
theorem Cut.eq_takeWhile (h : Cut 0 cs t before after) (hk : t.kind = .number) :
    t.text.toList = (cs.drop t.position).takeWhile Char.isDigit := by
  have hspelled := h.wellSpelled
  rw [Token.WellSpelled, hk] at hspelled
  have hafter : after.takeWhile Char.isDigit = [] := by
    cases after with
    | nil => rfl
    | cons c cs => rw [List.takeWhile_cons, if_neg (by simp [(h.maximal hk).2 c rfl])]
  rw [h.position_eq, Nat.zero_add]
  conv => rhs; rw [h.eq_append]
  rw [List.drop_left, List.takeWhile_append_of_pos hspelled.2, hafter, List.append_nil]

end Lexer

/-- Digits that are no numeral of a 64-bit value are too large a number. -/
theorem Numeral.exists_of_not_fits {text : String} (hne : text ≠ "")
    (hdigits : ∀ c ∈ text.toList, c.isDigit = true)
    (hfits : ∀ n, int? text.toList = some n → ¬Value.Fits n) :
    ∃ n, nat? text.toList = some n ∧ 9223372036854775808 ≤ n := by
  have hnat : nat? text.toList = some (Nat.ofDigitChars 10 text.toList 0) := by
    rw [nat?, if_pos ⟨by rwa [ne_eq, String.toList_eq_nil_iff], List.all_eq_true.mpr hdigits⟩]
  refine ⟨_, hnat, ?_⟩
  have hnot := hfits _ (int?_of_nat? hnat)
  rw [Value.fits_iff] at hnot
  omega

/-- An error that blames a token of the source, and one that it applies to, is true. -/
theorem EvalError.Kind.trueOf_error {source : List Char} {ts : List Token} {t : Token}
    {kind : Kind} (hspell : Lexer.Spells 0 source ts) (ht : t ∈ ts) (happlies : kind.AppliesTo t)
    (hopen : kind = .unmatchedParen → source.count ')' < source.count '(') :
    (kind.error t).TrueOf source ts := by
  obtain ⟨before, after, hcut⟩ := hspell.exists_cut ht
  have hmark : t.kind = .endMark → t.text = "" ∧ t.position = source.length := by
    intro hk
    rw [hspell.eq_endAt ht hk, Nat.zero_add]
    exact ⟨rfl, rfl⟩
  cases kind with
  | unexpectedToken =>
      by_cases hk : t.kind = .endMark
      · exact .inl (hmark hk)
      · refine .inr ⟨?_, t, ht, rfl, rfl⟩
        intro htext
        have hlt := Lexer.position_lt_endOffset hcut.wellSpelled hk
        simp [Token.endOffset, htext] at hlt
  | unmatchedParen =>
      obtain ⟨htext, hpos⟩ := hmark happlies
      exact ⟨htext, hpos, hopen rfl⟩
  | malformedNumber =>
      obtain ⟨hk, hfits⟩ := happlies
      have hspelled := hcut.wellSpelled
      rw [Token.WellSpelled, hk] at hspelled
      refine ⟨hcut.eq_takeWhile hk, ?_, Numeral.exists_of_not_fits hspelled.1 hspelled.2 hfits⟩
      intro i c hi hc
      have hpos : i + 1 = before.length := by
        rw [← Nat.zero_add before.length, ← hcut.position_eq]
        exact hi
      refine (hcut.maximal hk).1 c ?_
      rw [hcut.eq_append, List.getElem?_append_left (by omega)] at hc
      rwa [List.getLast?_eq_getElem?, ← hpos, Nat.add_sub_cancel]
  | divisionByZero => exact hcut.getElem?_of_operator happlies
  | overflow =>
      obtain ⟨op, hk⟩ := happlies
      exact ⟨op.symbol, by cases op <;> simp [Operator.symbol], hcut.getElem?_of_operator hk⟩

/-- Where a group is found open at the end, the source opens more groups than it closes. -/
theorem Rule.Reads.count_lt_of_unmatched {source : List Char} {us vs : List Token} {t : Token}
    {e : EvalError} {text : String} (h : Reads .expression us vs (.error e))
    (hspell : Lexer.Spells 0 source (us ++ vs)) (ht : t ∈ us) (hk : t.kind = .endMark)
    (he : e.cause = .unmatchedParen text) : source.count ')' < source.count '(' := by
  -- The mark for the end has been taken, so nothing is left.
  obtain ⟨us₁, us₂, rfl⟩ := List.append_of_mem ht
  have hall := hspell
  rw [List.append_assoc, List.cons_append] at hall
  obtain ⟨-, rfl⟩ := List.append_eq_nil_iff.mp (hall.eq_nil_of_endMark hk)
  rw [List.append_nil] at hspell
  rw [hspell.count_eq rfl, hspell.count_eq rfl]
  generalize us₁ ++ t :: us₂ = us at h
  cases h with
  | whole _ hsum => exact hsum.count_lt he

end Abacus
