import Abacus.Proofs.Interchange
import Abacus.Proofs.Locality

/-!
# A closing parenthesis in place of the end

A chain is closed by a closing parenthesis as it is by the mark for the end, and neither is the
first token of an operand. So up to the place where a text ends, nothing changes when a closing
parenthesis is put there: what has been read is read still, and if an operand was missing at the
end it is missing in front of the parenthesis. Only a group that is open there makes a difference.

Two properties of texts come of this. A text that has a value keeps it when a closing parenthesis
is written behind it, whatever stands behind the parenthesis, since no group is open for that. And
a balanced text may be put in parentheses as a whole: all that is read in it is the one chain of
sums that is read in the parentheses.

## Main results

* `Rule.Reads.of_end_left`, `Rule.Reads.of_end_taken`: a chain is read alike with a closing
  parenthesis in place of the mark for the end, whether it leaves that mark or fails at it.
* `calculate_surplus`: behind a text that has a value, a closing parenthesis ends evaluation.
* `calculate_wrapped`: what a balanced text comes to when it stands in parentheses.
-/

namespace Abacus

/-! ### The end and a closing parenthesis -/

/-- Behind an operand, a closing parenthesis means what the end means. -/
theorem Level.role_rightParen (level : Level) : level.role .rightParen = level.role .endMark := by
  cases level <;> rfl

/-- Sequences that differ from a token on go on alike when the tokens there mean the same. -/
theorem ClosesAs.of_role {t t' : Token}
    (h : ∀ level : Level, level.role t.kind = level.role t'.kind) (vs ts ts' : List Token) :
    ClosesAs (vs ++ t :: ts) (vs ++ t' :: ts') := by
  refine ClosesAs.behind ?_ vs
  intro u hu
  obtain rfl : t = u := Option.some.inj hu
  exact ⟨t', rfl, fun level hk => (h level).symm.trans hk⟩

namespace Scan

variable {s s' : State} {us ts : List Token} {t : Token} {v : Verdict}

/-- Where the scan misses an operand at the end, it misses one in front of a parenthesis. -/
theorem step_rightParen (h : step s .endMark = .halts (.rejects .unexpectedToken)) :
    step s .rightParen = .halts (.rejects .unexpectedToken) := by
  obtain ⟨_ | depth, _ | _⟩ := s <;> cases h <;> rfl

/-- Behind tokens that are passed, a token that halts the scan ends it. -/
theorem Passes.run_of_halts (h : Passes s us s') (hstep : step s' t.kind = .halts v)
    (ts : List Token) : run s (us ++ t :: ts) = some (us.length, v) := by
  rw [h.run_append, run_cons_halts hstep, Option.map_some, Nat.zero_add]

/-- What is passed has no token that halts the scan. -/
theorem Passes.run_eq_none (h : Passes s us s') : run s us = none := by
  have hrun := h.run_append []
  rwa [List.append_nil] at hrun

end Scan

/-- Of a sequence that is cut in two, the last token is behind the cut, or all of it is in front. -/
theorem exists_concat_or_eq_nil {us vs ws : List Token} {m : Token} (h : us ++ vs = ws ++ [m]) :
    (∃ ds, vs = ds ++ [m] ∧ ws = us ++ ds) ∨ us = ws ++ [m] ∧ vs = [] := by
  rcases List.eq_nil_or_concat vs with rfl | ⟨ds, d, rfl⟩
  · rw [List.append_nil] at h
    exact .inr ⟨h, rfl⟩
  · rw [List.concat_eq_append, ← List.append_assoc] at h
    obtain ⟨rfl, hlast⟩ := List.append_inj' h rfl
    obtain rfl := List.singleton_inj.mp hlast
    exact .inl ⟨ds, List.concat_eq_append, rfl⟩

namespace Rule

variable {us ts vs : List Token} {m c : Token} {x : Except EvalError Value}

/-- A mark for the end that is left may be a closing parenthesis. -/
theorem Reads.of_end_left {r : Rule} (h : Reads r us (vs ++ [m]) x) (hm : m.kind = .endMark)
    (hc : c.kind = .rightParen) (ts : List Token) : Reads r us (vs ++ c :: ts) x :=
  h.of_closesAs (.of_role (fun level => by rw [hm, hc, level.role_rightParen]) vs [] ts)

/-- The scan passes all that is read, or all but the last token, to which it objects as the
error does. -/
theorem Reads.passes_or_halts (h : Reads (chain .sum) us ts x) :
    (∃ s, Scan.Passes .start us s) ∨
      ∃ us' t s fault, us = us' ++ [t] ∧ Scan.Passes .start us' s ∧
        Scan.step s t.kind = .halts (.rejects fault) ∧ x = .error (fault.error t) := by
  have hexp := h.explained_sum
  cases x with
  | ok v => exact .inl ⟨_, hexp⟩
  | error e =>
      rcases hexp with ⟨us', t, s, fault, hus, hpass, hstep, rfl⟩ | ⟨s, hpass, -⟩
      · exact .inr ⟨us', t, s, fault, hus, hpass, hstep, rfl⟩
      · exact .inl ⟨s, hpass⟩

/-- A mark for the end is taken only where the scan objects to it, and then the outcome says so. -/
theorem Reads.exists_fault_of_end (h : Reads (chain .sum) (us ++ [m]) ts x)
    (hm : m.kind = .endMark) :
    ∃ s fault, Scan.Passes .start us s ∧ Scan.step s .endMark = .halts (.rejects fault) ∧
      x = .error (fault.error m) := by
  rcases h.passes_or_halts with ⟨s, hpass⟩ | ⟨us', t, s, fault, heq, hpass, hstep, he⟩
  · have hend : Terminated (us ++ [m]) := by simp [Terminated, hm]
    obtain ⟨k, verdict, hrun⟩ := Scan.exists_run_eq_some .start hend
    rw [hpass.run_eq_none] at hrun
    cases hrun
  · obtain ⟨rfl, hlast⟩ := List.append_inj' heq rfl
    obtain rfl := List.singleton_inj.mp hlast
    exact ⟨s, fault, hpass, hm ▸ hstep, he⟩

/-- **A mark for the end that is taken for want of an operand** may be a closing parenthesis, too.
What is read instead takes the parenthesis, for else it would have been read in front of the end;
and the scan objects to nothing else up to there. -/
theorem Reads.of_end_taken (h : Reads (chain .sum) (us ++ [m]) [] (.error m.unexpected))
    (hm : m.kind = .endMark) (hc : c.kind = .rightParen) (hend : Terminated ts) :
    Reads (chain .sum) (us ++ [c]) ts (.error c.unexpected) := by
  obtain ⟨s, fault, hpass, hstep, he⟩ := h.exists_fault_of_end hm
  obtain rfl : fault = .unexpectedToken := by cases fault <;> first | rfl | cases he
  have hstep' : Scan.step s c.kind = .halts (.rejects .unexpectedToken) := by
    rw [hc]
    exact Scan.step_rightParen hstep
  obtain ⟨us', ts', x, heq, hread⟩ := exists_reads ((hend.behind [c]).behind us) (chain .sum)
  have hfront : ∀ ds, us = us' ++ ds → ts' ≠ ds ++ c :: ts := by
    rintro ds rfl rfl
    have hleft : Reads (chain .sum) us' (ds ++ [m]) x :=
      hread.of_closesAs (.of_role (fun level => by rw [hm, hc, level.role_rightParen]) ds ts [])
    obtain ⟨hlen, -, -⟩ := hleft.unique h (by simp)
    simpa using congrArg List.length hlen
  obtain ⟨ds, rfl, rfl⟩ : ∃ ds, us' = us ++ c :: ds ∧ ts = ds ++ ts' := by
    rcases List.append_eq_append_iff.mp heq with ⟨ds, rfl, hds⟩ | ⟨ds, hus, hts⟩
    · cases ds with
      | nil => exact absurd hds.symm (hfront [] (by simp))
      | cons d ds =>
          obtain ⟨rfl, rfl⟩ := List.cons.inj hds
          exact ⟨ds, rfl, rfl⟩
    · exact absurd hts (hfront ds hus)
  have hrun := hpass.run_of_halts hstep' ds
  rcases hread.passes_or_halts with ⟨s', hpass'⟩ | ⟨us'', t, s', fault, heq', hpass', hhalt, rfl⟩
  · rw [hpass'.run_eq_none] at hrun
    cases hrun
  · rw [heq', hpass'.run_of_halts hhalt] at hrun
    obtain ⟨hlen, hfault⟩ := Prod.mk.inj (Option.some.inj hrun)
    obtain ⟨rfl, hlast⟩ := List.append_inj heq' hlen.symm
    obtain ⟨rfl, rfl⟩ := List.cons.inj hlast
    obtain rfl := Scan.Verdict.rejects.inj hfault
    exact hread

end Rule

/-! ### A closing parenthesis behind a text -/

/-- **A surplus closing parenthesis ends evaluation.** Behind a text that is not blank and has a
value, a closing parenthesis hides whatever follows it: the whole has the value of the text, when
it has tokens at all. If what follows has none, the whole fails as that does, further on. -/
theorem calculate_surplus {s : String} {v : Value} (hne : ∃ c ∈ s.toList, c ≠ ' ')
    (hv : calculate s = .ok v) (t : String) :
    (∀ ts, tokenize t = .ok ts → calculate (s ++ ")" ++ t) = .ok v) ∧
    ∀ e, tokenize t = .error e →
      calculate (s ++ ")" ++ t) = .error (.lexical ⟨e.symbol, s.length + 1 + e.position⟩) := by
  obtain ⟨ss, htok, hss⟩ := calculate_eq_ok_iff.mp hv
  have hspell : Lexer.Spells 0 s.toList ss := Lexer.spells_of_scan htok
  have hchars : (s ++ ")" ++ t).toList = s.toList ++ ')' :: t.toList := by simp
  constructor
  · intro ts ht
    obtain ⟨us, vs, hus, hread⟩ :=
      (evaluate_eq_iff_of_head? hspell.terminated (hspell.kind_head?_ne hne)).mp hss
    obtain ⟨ws, rfl, -⟩ := hspell.exists_ends
    -- A value leaves the mark for the end, and so it leaves the parenthesis in its place.
    obtain ⟨stop, rest, rfl, -⟩ := hread.stops
    obtain ⟨ds, hds, rfl⟩ : ∃ ds, stop :: rest = ds ++ [_] ∧ ws = us ++ ds :=
      (exists_concat_or_eq_nil hus.symm).resolve_right (by simp)
    rw [hds] at hread
    have hall := hspell.closed (Lexer.spells_of_scan ht)
    rw [← hchars] at hall
    have hwhole : tokenize (s ++ ")" ++ t) = _ := hall.scan_eq
    rw [calculate_of_tokenize hwhole, mapError_eq_ok_iff,
      evaluate_eq_iff_of_head? hall.terminated (hall.kind_head?_ne ⟨')', by simp⟩)]
    exact ⟨us, _, List.append_assoc _ _ _, hread.of_end_left rfl rfl _⟩
  · intro e he
    have hknown : ∀ c ∈ s.toList ++ [')'], Lexer.Known c := by
      intro c hc
      rcases List.mem_append.mp hc with hc | hc
      · exact hspell.known c hc
      · obtain rfl := List.mem_singleton.mp hc
        decide
    have hscan := Lexer.scan_append_of_known (p := 0) hknown he
    have hpos : e.position + (0 + (s.toList ++ [')']).length) = s.length + 1 + e.position := by
      rw [List.length_append, List.length_singleton, String.length_toList]
      omega
    rw [List.append_assoc, List.singleton_append, ← hchars, hpos] at hscan
    exact calculate_of_tokenize_error hscan

/-- Behind `2)*`, whose value is that of `2`, nothing is evaluated; a character that belongs to no
token is found there all the same. -/
theorem calculate_surplus_open :
    calculate ("2)*" ++ ")" ++ "(") = .ok 2 ∧
      calculate ("2)*" ++ ")" ++ " é") = .error (.lexical ⟨'é', 5⟩) := by
  have hspell : Lexer.Spells 0 ['2', ')', '*'] [⟨.number, "2", 0⟩, ⟨.rightParen, ")", 1⟩,
      ⟨.operator .mul, "*", 2⟩, Token.endAt 3] :=
    @Lexer.Spells.number 0 ['2'] [')', '*'] _ (by simp) (by simp) (by simp)
      (.symbol rfl (.symbol rfl .done))
  have hopen : Lexer.Spells 0 ['('] [⟨.leftParen, "(", 0⟩, Token.endAt 1] := .symbol rfl .done
  have hunknown : tokenize " é" = .error ⟨'é', 1⟩ := by
    refine Lexer.scan_eq_error_iff.mpr ⟨[' '], [], rfl, ?_, by decide, rfl⟩
    intro c hc
    exact .inl (List.mem_singleton.mp hc)
  have hv : calculate "2)*" = .ok 2 := by
    have htok : tokenize "2)*" = _ := hspell.scan_eq
    rw [calculate_of_tokenize htok]
    rfl
  have hne : ∃ c ∈ "2)*".toList, c ≠ ' ' := ⟨'2', by simp⟩
  exact ⟨(calculate_surplus hne hv "(").1 _ hopen.scan_eq,
    (calculate_surplus hne hv " é").2 _ hunknown⟩

/-! ### A text in parentheses -/

/-- The same error, further on by as many characters. -/
def EvalError.moved (d : Nat) (e : EvalError) : EvalError :=
  { e with position := e.position + d }

/-- Tokens stand for those of the same text further on. -/
def Correspondence.moved (d : Nat) : Correspondence :=
  .ofTokens (fun t t' => t' = t.moved d) fun ht => ht ▸ ⟨rfl, fun _ => rfl⟩

/-- Tokens that are moved are read alike, and an error moves with them. -/
theorem Rule.Reads.moved {r : Rule} {us ts : List Token} {x : Except EvalError Value}
    (h : Reads r us ts x) (d : Nat) :
    Reads r (us.map (Token.moved d)) (ts.map (Token.moved d)) (x.mapError (EvalError.moved d)) := by
  obtain ⟨x', hread, hx⟩ :=
    h.exists_map (K := Correspondence.moved d) (fun _ _ => False.elim) fun _ => rfl
  cases hx with
  | ok v => exact hread
  | @error kind t _ ht =>
      obtain rfl := ht
      cases kind <;> exact hread

/-- A chain of sums in parentheses, and nothing behind them, is worth what the chain is worth, and
fails as the chain does. -/
theorem evaluate_group {us vs ws : List Token} {l c e : Token} {x : Except EvalError Value}
    (hl : l.kind = .leftParen) (hc : c.kind = .rightParen) (he : e.kind = .endMark)
    (h : (Rule.chain .sum).Reads us vs x) (hsplit : us ++ vs = ws ++ [c, e])
    (hx : ∀ v, x = .ok v → us = ws) : evaluate (l :: (ws ++ [c, e])) = x := by
  have hend : Terminated (l :: (ws ++ [c, e])) := by
    have hmark : Terminated [e] := by simp [Terminated, he]
    exact ((hmark.behind [c]).behind ws).behind [l]
  cases x with
  | ok v =>
      obtain rfl := hx v rfl
      obtain rfl := List.append_cancel_left hsplit
      have hgroup : Rule.primary.Reads (l :: (us ++ [c])) [e] (.ok v) := .group hl h hc
      have hall : (l :: (us ++ [c])) ++ [e] = l :: (us ++ [c, e]) := by simp
      rw [← hall] at hend ⊢
      exact evaluate_of_primary hend (by simp [hl]) hgroup fun _ _ => ⟨e, rfl, he⟩
  | error err =>
      have hgroup : Rule.primary.Reads (l :: us) vs (.error err) := .groupFails hl h
      rw [← hsplit, ← List.cons_append] at hend ⊢
      exact evaluate_of_primary hend (by simp [hl]) hgroup fun v hv => by cases hv

/-- What the error says is about a token of the text: it is not the end where an operand is
missing, nor is a group open there. -/
def EvalError.Cause.Inside : EvalError.Cause → Prop
  | unexpectedToken text => text ≠ ""
  | unmatchedParen _ => False
  | malformedNumber _ | divisionByZero | overflow => True

/-- An error that blames a token of the text says so. -/
theorem EvalError.Kind.inside_error {kind : Kind} {t : Token} (ht : t.WellSpelled)
    (hk : t.kind ≠ .endMark) (happlies : kind.AppliesTo t) : (kind.error t).cause.Inside := by
  cases kind with
  | unexpectedToken =>
      intro htext
      have hlt := Lexer.position_lt_endOffset ht hk
      simp [Token.endOffset, htext] at hlt
  | unmatchedParen => exact hk happlies
  | malformedNumber | divisionByZero | overflow => trivial

/-- A text in parentheses comes to what is read behind the first of them, when that takes all of
the text for a value. -/
theorem calculate_parenthesized {s : String} {us vs ws : List Token}
    {x : Except EvalError Value} (htok : tokenize s = .ok (ws ++ [Token.endAt s.length]))
    (h : (Rule.chain .sum).Reads us vs x)
    (hsplit : us ++ vs = ws ++ [⟨.rightParen, ")", s.length⟩, Token.endAt (s.length + 1)])
    (hx : ∀ v, x = .ok v → us = ws) :
    calculate ("(" ++ s ++ ")") = (x.mapError (EvalError.moved 1)).mapError .evaluation := by
  have hnone : tokenize "" = .ok ([] ++ [Token.endAt 0]) := Lexer.scan_nil 0
  have hwhole := Lexer.tokenize_grouped hnone htok hnone
  have htext : grouped "" s "" = "(" ++ s ++ ")" := by simp [grouped]
  have htokens : Lexer.groupAt 0 s.length ws ++
        ([] ++ [Token.endAt 0]).map (Token.moved (0 + s.length + 2)) =
      ⟨.leftParen, "(", 0⟩ :: (ws.map (Token.moved 1) ++
        [⟨.rightParen, ")", s.length + 1⟩, Token.endAt (s.length + 2)]) := by
    simp [Lexer.groupAt, Token.moved, Token.endAt, Nat.add_comm]
  rw [htext, String.length_empty, htokens, List.nil_append] at hwhole
  rw [calculate_of_tokenize hwhole]
  congr 1
  refine evaluate_group rfl rfl rfl (h.moved 1) ?_ ?_
  · rw [← List.map_append, hsplit, List.map_append]
    rfl
  · intro v hv
    rw [hx v (mapError_eq_ok_iff.mp hv)]

/-- **A balanced text may be put in parentheses.** It keeps its value, and an error about one of
its tokens moves on with the token. The only other thing that may be wrong with a balanced text is
that an operand is missing at the end, and then it is missing in front of the parenthesis. -/
theorem calculate_wrapped {s : String} {ts : List Token} (htok : tokenize s = .ok ts)
    (hne : ∃ c ∈ s.toList, c ≠ ' ') (hs : Balanced s.toList) :
    (∃ v, calculate s = .ok v ∧ calculate ("(" ++ s ++ ")") = .ok v) ∨
    (∃ cause p, cause.Inside ∧ calculate s = .error (.evaluation ⟨cause, p⟩) ∧
      calculate ("(" ++ s ++ ")") = .error (.evaluation ⟨cause, p + 1⟩)) ∨
    calculate s = .error (.evaluation ⟨.unexpectedToken "", s.length⟩) ∧
      calculate ("(" ++ s ++ ")") = .error (.evaluation ⟨.unexpectedToken ")", s.length + 1⟩) := by
  have hspell : Lexer.Spells 0 s.toList ts := Lexer.spells_of_scan htok
  obtain ⟨ws, rfl, hmarks⟩ := hspell.exists_ends
  rw [Nat.zero_add, String.length_toList] at htok hspell
  obtain ⟨us, vs, hsplit, hread⟩ :=
    (evaluate_eq_iff_of_head? hspell.terminated (hspell.kind_head?_ne hne)).mp rfl
  rw [calculate_of_tokenize htok]
  generalize evaluate (ws ++ [Token.endAt s.length]) = x at hread
  rcases exists_concat_or_eq_nil hsplit.symm with ⟨ds, rfl, rfl⟩ | ⟨rfl, rfl⟩
  · -- The mark for the end is left, and so is the parenthesis.
    have hinner := hread.of_end_left rfl (c := ⟨.rightParen, ")", s.length⟩) rfl
      [Token.endAt (s.length + 1)]
    have hwrapped := calculate_parenthesized htok hinner (by simp)
    cases x with
    | ok v =>
        rw [List.append_assoc] at hspell
        have hleft := congrArg List.length (hs.left_eq_end hspell hread)
        obtain rfl : ds = [] := by simpa using hleft
        exact .inl ⟨v, rfl, hwrapped fun _ _ => (List.append_nil us).symm⟩
    | error err =>
        obtain ⟨t, ht, kind, happlies, rfl⟩ := hread.exists_blamed
        have hmem : t ∈ us ++ ds := List.mem_append_left ds ht
        obtain ⟨before, after, hcut⟩ := hspell.exists_cut (List.mem_append_left _ hmem)
        have hinside := EvalError.Kind.inside_error hcut.wellSpelled (hmarks t hmem) happlies
        exact .inr (.inl ⟨_, _, hinside, rfl, hwrapped nofun⟩)
  · -- The mark for the end is taken: an operand is missing there, since no group is open.
    obtain ⟨s', fault, -, -, rfl⟩ := hread.exists_fault_of_end rfl
    cases fault with
    | unexpectedToken =>
        have hend : Terminated [Token.endAt (s.length + 1)] := rfl
        have hinner := hread.of_end_taken (c := ⟨.rightParen, ")", s.length⟩) rfl rfl hend
        exact .inr (.inr ⟨rfl, calculate_parenthesized htok hinner (by simp) nofun⟩)
    | unmatchedParen =>
        have hlt := hread.count_lt rfl
        rw [← hspell.count_eq (c := ')') rfl, ← hspell.count_eq (c := '(') rfl, hs.count_eq] at hlt
        exact absurd hlt (Nat.lt_irrefl _)

/-- In `(7)-` an operand is missing at the end, and in `((7)-)` in front of the parenthesis. -/
theorem calculate_wrapped_minus :
    calculate "(7)-" = .error (.evaluation ⟨.unexpectedToken "", 4⟩) ∧
      calculate ("(" ++ "(7)-" ++ ")") = .error (.evaluation ⟨.unexpectedToken ")", 5⟩) := by
  have hspell : Lexer.Spells 0 ['(', '7', ')', '-'] [⟨.leftParen, "(", 0⟩, ⟨.number, "7", 1⟩,
      ⟨.rightParen, ")", 2⟩, ⟨.operator .sub, "-", 3⟩, Token.endAt 4] :=
    .symbol rfl (@Lexer.Spells.number 1 ['7'] [')', '-'] _ (by simp) (by simp) (by simp)
      (.symbol rfl (.symbol rfl .done)))
  have htok : tokenize "(7)-" = _ := hspell.scan_eq
  have herror : calculate "(7)-" = .error (.evaluation ⟨.unexpectedToken "", 4⟩) := by
    rw [calculate_of_tokenize htok]
    rfl
  have hs : Balanced "(7)-".toList := (by decide : Balanced ['(', '7', ')', '-'])
  rcases calculate_wrapped htok ⟨'7', by simp⟩ hs with
    ⟨v, hv, -⟩ | ⟨cause, p, hinside, hcause, -⟩ | hmissing
  · rw [herror] at hv
    cases hv
  · rw [herror] at hcause
    cases hcause
    exact absurd rfl hinside
  · exact hmissing

end Abacus
