import Abacus.Proofs.Correspondence
import Abacus.Proofs.Seam

/-!
# Equal expressions can be exchanged

A group is worth what stands in it, and nothing else about it matters to the text around it.
So an expression in parentheses may be replaced by any other of the same value, and the text
comes to what it came to before: to the same value, or to the same error. An error in front of
the group stays where it was, and one behind it moves with the characters there. No error is
in the group, since what stands in it has a value.

The text around the group need not be well-formed, nor does evaluation have to get as far as
the group. All that has to be ruled out is an expression that is not one group: a blank one,
which is worth zero only when nothing stands around it, and one whose parentheses are not
balanced, like `1) + (1`.

## Main results

* `Rule.Reads.groupAt`: a chain of sums that has a value is an operand of that value when it
  stands in parentheses, wherever they are put.
* `calculate_grouped`: equal expressions can be exchanged in every text.
-/

namespace Abacus

open Lexer (groupAt)

/-- A chain of sums that has a value is an operand of that value when it stands in parentheses,
wherever they are put. -/
theorem Rule.Reads.groupAt {us ts ts' : List Token} {v : Value}
    (h : Reads (chain .sum) us ts (.ok v)) (n d : Nat) :
    Reads primary (Lexer.groupAt n d us) ts' (.ok v) := by
  have hmoved := h.map (f := Token.moved (n + 1)) fun t => ⟨rfl, fun _ => rfl⟩
  exact .group rfl (hmoved.closed_by rfl) rfl

/-- The place `p` where a group of `d` characters stands behind `n` characters, and the place
`p'` where one of `d'` characters does: both in front of the group, or both behind it. -/
def SamePlace (n d d' p p' : Nat) : Prop :=
  p ≤ n ∧ p' = p ∨ n + 1 + d < p ∧ n + 1 + d' < p' ∧ p' + d = p + d'

/-- Places behind the group move with the characters there. -/
theorem SamePlace.behind (n d d' q : Nat) : SamePlace n d d' (q + (n + d + 2)) (q + (n + d' + 2)) :=
  .inr ⟨by omega, by omega, by omega⟩

namespace Correspondence

variable {n d d' : Nat} {us us' : List Token} {v : Value}

/-- One group may stand for the other; all other tokens stand for themselves. -/
def ofGroups (n : Nat) (h : Rule.Reads (.chain .sum) us [Token.endAt d] (.ok v))
    (h' : Rule.Reads (.chain .sum) us' [Token.endAt d'] (.ok v)) : Correspondence where
  token t t' := t.kind = t'.kind ∧ t.text = t'.text ∧ SamePlace n d d' t.position t'.position
  piece gs gs' := gs = groupAt n d us ∧ gs' = groupAt n d' us'
  alike ht := ⟨ht.1, fun _ => ht.2.1⟩
  operand := by
    rintro _ _ ⟨rfl, rfl⟩
    exact ⟨v, fun ts => ⟨h.groupAt n d, h'.groupAt n d'⟩⟩
  head := by
    rintro _ _ ⟨rfl, rfl⟩ t ht t' ht'
    cases ht
    cases ht'
    exact ⟨rfl, rfl, .inl ⟨Nat.le_refl n, rfl⟩⟩

variable (h : Rule.Reads (.chain .sum) us [Token.endAt d] (.ok v))
  (h' : Rule.Reads (.chain .sum) us' [Token.endAt d'] (.ok v))

/-- Sequences correspond when they differ in the group only, and in the positions behind it. -/
theorem ofGroups_corresponds {as : List Token} (has : ∀ t ∈ as, t.position ≤ n)
    (bs : List Token) :
    (ofGroups n h h').Corresponds
      (as ++ (groupAt n d us ++ bs.map (Token.moved (n + d + 2))))
      (as ++ (groupAt n d' us' ++ bs.map (Token.moved (n + d' + 2)))) := by
  have hfront : (ofGroups n h h').Corresponds (as.map id) (as.map id) :=
    .map fun t ht => ⟨rfl, rfl, .inl ⟨has t ht, rfl⟩⟩
  have hbehind : (ofGroups n h h').Corresponds (bs.map (Token.moved (n + d + 2)))
      (bs.map (Token.moved (n + d' + 2))) :=
    .map fun t _ => ⟨rfl, rfl, .behind n d d' t.position⟩
  rw [List.map_id] at hfront
  exact hfront.append (.piece ⟨rfl, rfl⟩ hbehind)

variable {h h'}

/-- Outcomes that agree are one value, or errors of one cause for the same place. -/
theorem Agree.of_groups {x x' : Except EvalError Value} (hx : (ofGroups n h h').Agree x x') :
    (∃ w, x = .ok w ∧ x' = .ok w) ∨
      ∃ cause p p', x = .error ⟨cause, p⟩ ∧ x' = .error ⟨cause, p'⟩ ∧ SamePlace n d d' p p' := by
  cases hx with
  | ok w => exact .inl ⟨w, rfl, rfl⟩
  | @error kind t t' ht =>
      obtain ⟨-, htext, hplace⟩ := ht
      exact .inr ⟨(kind.error t).cause, t.position, t'.position,
        congrArg _ (kind.error_eq rfl), congrArg _ (kind.error_eq htext), hplace⟩

end Correspondence

namespace CalcError

/-- The position that the error points at. -/
def position : CalcError → Nat
  | lexical e => e.position
  | evaluation e => e.position

/-- The same error for another position. -/
def pointAt : CalcError → Nat → CalcError
  | lexical e, p => .lexical ⟨e.symbol, p⟩
  | evaluation e, p => .evaluation ⟨e.cause, p⟩

end CalcError

/-- **Equal expressions can be exchanged.** When two expressions are balanced, not blank, and
have one value, then a text with the one in parentheses somewhere in it comes to what it comes
to with the other: to the same value, or to the same error. The error is in front of the group
and stays, or it is behind it and moves with the characters. -/
theorem calculate_grouped {s s' : String} {v : Value}
    (hs : Balanced s.toList) (hs' : Balanced s'.toList)
    (hne : ∃ c ∈ s.toList, c ≠ ' ') (hne' : ∃ c ∈ s'.toList, c ≠ ' ')
    (hv : calculate s = .ok v) (hv' : calculate s' = .ok v) (a b : String) :
    (∃ w, calculate (grouped a s b) = .ok w ∧ calculate (grouped a s' b) = .ok w) ∨
      ∃ e p, calculate (grouped a s b) = .error e ∧
        calculate (grouped a s' b) = .error (e.pointAt p) ∧
        (e.position ≤ a.length ∧ p = e.position ∨
          a.length + 1 + s.length < e.position ∧ a.length + 1 + s'.length < p ∧
            p + s.length = e.position + s'.length) := by
  obtain ⟨us, hspell, hread⟩ := hs.exists_reads hne hv
  obtain ⟨us', hspell', hread'⟩ := hs'.exists_reads hne' hv'
  have htok : tokenize s = _ := hspell.scan_eq
  have htok' : tokenize s' = _ := hspell'.scan_eq
  rw [String.length_toList] at hread hread'
  cases ha : tokenize a with
  | error e =>
      have hlt := Lexer.position_lt_of_scan ha
      rw [Nat.zero_add, String.length_toList] at hlt
      refine .inr ⟨.lexical e, e.position, ?_, ?_, .inl ⟨Nat.le_of_lt hlt, rfl⟩⟩
      · exact calculate_of_tokenize_error (Lexer.tokenize_grouped_of_error ha s b)
      · exact calculate_of_tokenize_error (Lexer.tokenize_grouped_of_error ha s' b)
  | ok as =>
      cases hb : tokenize b with
      | error e =>
          refine .inr ⟨_, e.position + (a.length + s'.length + 2),
            calculate_of_tokenize_error (Lexer.tokenize_grouped_of_ok ha htok hb),
            calculate_of_tokenize_error (Lexer.tokenize_grouped_of_ok ha htok' hb),
            SamePlace.behind _ _ _ _⟩
      | ok bs =>
          have hspella : Lexer.Spells 0 a.toList as := Lexer.spells_of_scan ha
          obtain ⟨as, rfl, -⟩ := hspella.exists_ends
          have hw := Lexer.tokenize_grouped ha htok hb
          have hw' := Lexer.tokenize_grouped ha htok' hb
          have has : ∀ t ∈ as, t.position ≤ a.length := by
            intro t ht
            have hle := hspella.position_le (List.mem_append_left _ ht)
            rwa [Nat.zero_add, String.length_toList] at hle
          have hagree := (Correspondence.ofGroups_corresponds hread hread' has bs).agree
            (Lexer.spells_of_scan hw).terminated (Lexer.spells_of_scan hw').terminated
          rw [calculate_of_tokenize hw, calculate_of_tokenize hw']
          rcases hagree.of_groups with ⟨w, hx, hx'⟩ | ⟨cause, p, p', hx, hx', hplace⟩
          · exact .inl ⟨w, mapError_eq_ok_iff.mpr hx, mapError_eq_ok_iff.mpr hx'⟩
          · exact .inr ⟨.evaluation ⟨cause, p⟩, p', mapError_eq_error_iff.mpr ⟨_, hx, rfl⟩,
              mapError_eq_error_iff.mpr ⟨_, hx', rfl⟩, hplace⟩

/-- The division by zero behind `(5)` is found behind `((2)+3)`, too. -/
theorem calculate_grouped_five :
    ∃ e p, calculate (grouped "0-" "5" "/0") = .error e ∧
      calculate (grouped "0-" "(2)+3" "/0") = .error (e.pointAt p) ∧
      2 + 1 + 1 < e.position ∧ 2 + 1 + 5 < p ∧ p + 1 = e.position + 5 := by
  have hspell : Lexer.Spells 0 ['5'] ([⟨.number, "5", 0⟩] ++ [Token.endAt 1]) :=
    @Lexer.Spells.number 0 ['5'] [] _ (by simp) (by simp) (by simp) .done
  have hspell' : Lexer.Spells 0 ['(', '2', ')', '+', '3'] [⟨.leftParen, "(", 0⟩,
      ⟨.number, "2", 1⟩, ⟨.rightParen, ")", 2⟩, ⟨.operator .add, "+", 3⟩, ⟨.number, "3", 4⟩,
      Token.endAt 5] :=
    .symbol rfl (@Lexer.Spells.number 1 ['2'] [')', '+', '3'] _ (by simp) (by simp) (by simp)
      (.symbol rfl (.symbol rfl (@Lexer.Spells.number 4 ['3'] [] _ (by simp) (by simp) (by simp)
        .done))))
  have hfront : Lexer.Spells 0 ['0', '-']
      ([⟨.number, "0", 0⟩, ⟨.operator .sub, "-", 1⟩] ++ [Token.endAt 2]) :=
    @Lexer.Spells.number 0 ['0'] ['-'] _ (by simp) (by simp) (by simp) (.symbol rfl .done)
  have hbehind : Lexer.Spells 0 ['/', '0'] [⟨.operator .div, "/", 0⟩, ⟨.number, "0", 1⟩,
      Token.endAt 2] :=
    .symbol rfl (@Lexer.Spells.number 1 ['0'] [] _ (by simp) (by simp) (by simp) .done)
  have hv : calculate "5" = .ok 5 := by
    have htok : tokenize "5" = _ := hspell.scan_eq
    rw [calculate_of_tokenize htok]
    rfl
  have hv' : calculate "(2)+3" = .ok 5 := by
    have htok : tokenize "(2)+3" = _ := hspell'.scan_eq
    rw [calculate_of_tokenize htok]
    rfl
  have herror : calculate (grouped "0-" "5" "/0") = .error (.evaluation ⟨.divisionByZero, 5⟩) := by
    have htok := Lexer.tokenize_grouped (a := "0-") (s := "5") (b := "/0") hfront.scan_eq
      hspell.scan_eq hbehind.scan_eq
    rw [calculate_of_tokenize htok]
    rfl
  have hs : Balanced "5".toList := (by decide : Balanced ['5'])
  have hs' : Balanced "(2)+3".toList := (by decide : Balanced ['(', '2', ')', '+', '3'])
  have hne : ∃ c ∈ "5".toList, c ≠ ' ' := ⟨'5', by simp⟩
  have hne' : ∃ c ∈ "(2)+3".toList, c ≠ ' ' := ⟨'2', by simp⟩
  rcases calculate_grouped hs hs' hne hne' hv hv' "0-" "/0" with
    ⟨w, hw, -⟩ | ⟨e, p, he, he', hplace⟩
  · rw [herror] at hw
    cases hw
  · obtain rfl := Except.error.inj (herror.symm.trans he)
    rcases hplace with ⟨hle, -⟩ | hbehind
    · exact absurd hle (by decide)
    · exact ⟨_, p, he, he', hbehind⟩

end Abacus
