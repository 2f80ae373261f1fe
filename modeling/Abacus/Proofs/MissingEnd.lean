import Mathlib.Data.List.DropRight
import Abacus.Machine
import Abacus.Proofs.Blame

/-!
# Tokens without their mark for the end

A mark for the end reaches the evaluator in two ways. Behind the tokens of a text the lexer puts
it, at the number of characters; where a sequence has none, `terminated` supplies it, just past
the text of the last token. The two differ by the spaces at the end of the text, which no token
remembers.

So the tokens of a text without their mark come to what the text comes to without these spaces,
the positions of errors included. That rests on the last token: in a text that does not end with
a space, what it takes up reaches as far as the text.

## Main results

* `Lexer.Spells.trimmed`: without the spaces at its end a text spells the same tokens, up to the
  mark.
* `tokenize_trimSpaces`: its tokens are those of the whole text, with the mark that `terminated`
  supplies.
* `evaluateOn_dropLast`: no machine that holds the text has too small words for that.
* `evaluate_dropLast`: the tokens of a text without their mark, evaluated.
-/

namespace Abacus

/-! ### The mark that is supplied -/

/-- The position just past the last of some tokens, zero where there is none. -/
def pastLast (ts : List Token) : Nat :=
  (ts.getLast?.map Token.endOffset).getD 0

/-- Where there is no mark for the end, one is supplied just past the last token. -/
theorem terminated_of_unmarked {ts : List Token} (h : ∀ t ∈ ts, t.kind ≠ .endMark) :
    terminated ts = ts ++ [Token.endAt (pastLast ts)] := by
  rw [terminated, pastLast]
  cases hlast : ts.getLast? with
  | none =>
      rw [List.getLast?_eq_none_iff.mp hlast]
      rfl
  | some t => exact if_neg (h t (List.mem_of_getLast? hlast))

/-- An error that is about a token quotes the text of the token that it blames. -/
theorem EvalError.Kind.text_eq {kind : Kind} {t : Token} {text : String}
    (h : (kind.error t).cause = .unexpectedToken text ∨
      (kind.error t).cause = .unmatchedParen text) : t.text = text := by
  cases kind <;> simp_all [error]

/-! ### Spaces at the end of a text -/

/-- A text without the spaces at its end. -/
def trimSpaces (text : String) : String :=
  String.ofList (text.toList.rdropWhile (· = ' '))

namespace Lexer

variable {p : Nat} {cs : List Char} {us ts : List Token} {t e : Token}

/-- In characters that do not end with a space the last token reaches as far as they do. What
is behind the last token is covered by none, so it would be a space. -/
theorem Spells.endOffset_eq (h : Spells p cs (us ++ [t, e])) (hlast : ∀ c ∈ cs.getLast?, c ≠ ' ') :
    t.endOffset = p + cs.length := by
  obtain ⟨ws, hws, -⟩ := h.exists_ends
  obtain ⟨-, heq⟩ := List.append_inj' (hws.symm.trans (List.append_cons us t [e])) rfl
  obtain rfl : Token.endAt (p + cs.length) = e := List.singleton_inj.mp heq
  obtain ⟨-, hpair, hbefore⟩ := List.pairwise_append.mp h.pairwise
  obtain ⟨hlt, hle⟩ := (List.pairwise_cons.mp hpair).1 _ List.mem_cons_self
  have hfirst := h.le_position (t := t) (by simp)
  by_contra hne
  have hshort : t.endOffset < p + cs.length := Nat.lt_of_le_of_ne hle hne
  have hlen : cs.length - 1 < cs.length := by omega
  refine hlast cs[cs.length - 1] ?_ (h.eq_space (List.getElem?_eq_getElem hlen) ?_)
  · rw [List.getLast?_eq_getElem?, List.getElem?_eq_getElem hlen]
    rfl
  · intro t' ht'
    rcases List.mem_append.mp ht' with ht' | ht'
    · have := (hbefore t' ht' t List.mem_cons_self).2
      omega
    · rcases List.mem_pair.mp ht' with rfl | rfl
      · omega
      · simp [Token.endAt]
        omega

/-- Spaces spell nothing but a mark for the end. -/
theorem spells_of_blank (h : ∀ c ∈ cs, c = ' ') : Spells p cs [Token.endAt (p + cs.length)] := by
  have hspaces : cs = List.replicate cs.length ' ' ++ [] := by
    rw [List.append_nil, List.eq_replicate_of_mem h, List.length_replicate]
  rw [hspaces]
  exact Spells.spaces (by simpa using Spells.done)

/-- **Without the spaces at their end characters spell the same tokens**, up to the mark for the
end, which stands where these spaces began. -/
theorem Spells.trimmed (h : Spells p cs ts) :
    Spells p (cs.rdropWhile (· = ' '))
      (ts.dropLast ++ [Token.endAt (p + (cs.rdropWhile (· = ' ')).length)]) := by
  have hcs : cs.rdropWhile (· = ' ') ++ cs.rtakeWhile (· = ' ') = cs :=
    List.rdropWhile_append_rtakeWhile
  have hblank : ∀ c ∈ cs.rtakeWhile (· = ' '), c = ' ' := fun c hc => by
    simpa using List.mem_rtakeWhile_imp hc
  cases hscan : scan p (cs.rdropWhile (· = ' ')) with
  | error e =>
      have herror := scan_append_of_error hscan (cs.rtakeWhile (· = ' '))
      rw [hcs, h.scan_eq] at herror
      cases herror
  | ok ts' =>
      have hspell := spells_of_scan hscan
      obtain ⟨us, rfl, -⟩ := hspell.exists_ends
      have hnodigit : ∀ c ∈ (cs.rtakeWhile (· = ' ')).head?, c.isDigit = false := by
        intro c hc
        rw [hblank c (List.mem_of_mem_head? hc)]
        rfl
      have hall := hspell.append (spells_of_blank hblank) (.inr hnodigit)
      rw [hcs, List.dropLast_concat] at hall
      obtain rfl := Except.ok.inj (h.scan_eq.symm.trans hall.scan_eq)
      rwa [List.dropLast_concat]

/-- Where no space ends the characters, their mark for the end is just past the last token. -/
theorem Spells.pastLast_eq (h : Spells 0 cs (us ++ [e])) (hlast : ∀ c ∈ cs.getLast?, c ≠ ' ') :
    pastLast us = cs.length := by
  rcases List.eq_nil_or_concat us with rfl | ⟨us, t, rfl⟩
  · obtain ⟨ws, hws, -⟩ := h.exists_ends
    obtain ⟨-, heq⟩ := List.append_inj' hws rfl
    obtain rfl : e = _ := List.singleton_inj.mp heq
    cases hc : cs.getLast? with
    | none => rw [List.getLast?_eq_none_iff.mp hc]; rfl
    | some c => exact absurd (h.eq_space_of_endMark rfl c (List.mem_of_getLast? hc)) (hlast c hc)
  · rw [List.concat_eq_append, List.append_assoc] at h
    simpa [pastLast] using h.endOffset_eq hlast

end Lexer

/-- **The tokens of a text without the spaces at its end** are those of the text, with the mark
for the end that is supplied where the text's own is taken away. -/
theorem tokenize_trimSpaces {source : String} {ts : List Token} (h : tokenize source = .ok ts) :
    tokenize (trimSpaces source) = .ok (terminated ts.dropLast) := by
  have hspell : Lexer.Spells 0 source.toList ts := Lexer.spells_of_scan h
  have htrim := hspell.trimmed
  obtain ⟨us, rfl, hus⟩ := hspell.exists_ends
  rw [List.dropLast_concat, Nat.zero_add] at htrim
  have hlast : ∀ c ∈ (source.toList.rdropWhile (· = ' ')).getLast?, c ≠ ' ' := by
    intro c hc
    obtain ⟨hne, rfl⟩ := List.mem_getLast?_eq_getLast hc
    simpa using List.rdropWhile_last_not _ _ hne
  rw [List.dropLast_concat, terminated_of_unmarked hus, htrim.pastLast_eq hlast, tokenize,
    trimSpaces, String.toList_ofList]
  exact htrim.scan_eq

/-- On a machine whose words hold the length of a text, its tokens without their mark have the value
that they have without a bound: the sum that supplies a mark is no larger than that length. -/
theorem evaluateOn_dropLast {m : Machine} {source : String} {ts : List Token}
    (h : tokenize source = .ok ts) (hsize : source.length < m.words) :
    evaluateOn m ts.dropLast = some (evaluate ts.dropLast) := by
  have hspell : Lexer.Spells 0 source.toList ts := Lexer.spells_of_scan h
  obtain ⟨us, rfl, -⟩ := hspell.exists_ends
  rw [List.dropLast_concat, evaluateOn, terminatedOn_of_fits, Option.map_some, evaluate_terminated]
  intro t ht
  have hmem : t ∈ us := List.mem_of_getLast? ht
  have hle := ((List.pairwise_append.mp hspell.pairwise).2.2 t hmem _ List.mem_cons_self).2
  rw [Nat.zero_add, String.length_toList] at hle
  exact Nat.lt_of_le_of_lt hle hsize

/-- **A missing mark for the end is supplied where it belongs.** The tokens of a text without
their mark come to what the text comes to without the spaces at its end: to the same value, or
the same error at the same position. An error that finds the end of the tokens points just past
the last of them. A text of spaces has no other token, and the value zero. -/
theorem evaluate_dropLast (source : String) :
    (∀ ts, tokenize source = .ok ts →
      (evaluate ts.dropLast).mapError .evaluation = calculate (trimSpaces source) ∧
        ∀ e, evaluate ts.dropLast = .error e →
          e.cause = .unexpectedToken "" ∨ e.cause = .unmatchedParen "" →
            e.position = pastLast ts.dropLast) ∧
      ((∀ c ∈ source.toList, c = ' ') →
        ∃ ts, tokenize source = .ok ts ∧ evaluate ts.dropLast = .ok 0) := by
  refine ⟨fun ts hts => ⟨?_, fun e he hcause => ?_⟩, fun hspaces => ?_⟩
  · rw [calculate_of_tokenize (tokenize_trimSpaces hts), evaluate_terminated]
  · have hspell : Lexer.Spells 0 source.toList ts := Lexer.spells_of_scan hts
    obtain ⟨us, rfl, hus⟩ := hspell.exists_ends
    rw [List.dropLast_concat] at he ⊢
    have hend := Terminated.terminated us
    rw [← evaluate_terminated, evaluate_eq_iff hend, terminated_of_unmarked hus] at he
    obtain ⟨taken, left, hsplit, hread⟩ := he
    obtain ⟨t, ht, kind, -, rfl⟩ := hread.exists_blamed
    have ht' : t ∈ us ++ [Token.endAt (pastLast us)] := hsplit ▸ List.mem_append_left left ht
    rcases List.mem_append.mp ht' with ht' | ht'
    · -- The tokens in front of the mark all have characters, and the error quotes none.
      have hcut := hspell.faithful.cut t (List.mem_append_left _ ht') (hus t ht')
      exact absurd (EvalError.Kind.text_eq hcause) hcut.1
    · obtain rfl := List.mem_singleton.mp ht'
      cases kind <;> rfl
  · exact ⟨_, (Lexer.spells_of_blank hspaces).scan_eq, rfl⟩

/-- The operand that is missing is missed just past the operator, and not behind the spaces. -/
theorem evaluate_dropLast_operator :
    tokenize "1+  " = .ok [⟨.number, "1", 0⟩, ⟨.operator .add, "+", 1⟩, Token.endAt 4] ∧
      evaluate [⟨.number, "1", 0⟩, ⟨.operator .add, "+", 1⟩] =
        .error ⟨.unexpectedToken "", 2⟩ ∧
      pastLast [⟨.number, "1", 0⟩, ⟨.operator .add, "+", 1⟩] = 2 ∧
      calculate (trimSpaces "1+  ") = .error (.evaluation ⟨.unexpectedToken "", 2⟩) := by
  have htok : tokenize "1+  " = .ok [⟨.number, "1", 0⟩, ⟨.operator .add, "+", 1⟩,
      Token.endAt 4] :=
    (@Lexer.Spells.number 0 ['1'] ['+', ' ', ' '] _ (by simp) (by simp) (by simp)
      (.symbol rfl (.space (.space .done)))).scan_eq
  obtain ⟨heq, herror⟩ := (evaluate_dropLast "1+  ").1 _ htok
  have heval : evaluate [⟨.number, "1", 0⟩, ⟨.operator .add, "+", 1⟩] =
      .error ⟨.unexpectedToken "", 2⟩ := rfl
  exact ⟨htok, heval, (herror _ heval (.inl rfl)).symm, heq.symm.trans (congrArg _ heval)⟩

end Abacus
