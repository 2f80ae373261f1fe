import Abacus.Proofs.Scan
import Abacus.Proofs.Seam
import Abacus.Proofs.Success

/-!
# Parentheses, counted

How many groups are open at a place can be told by counting: the opening parentheses in front
of it, less the closing ones. It does not matter whether characters are counted or tokens,
since every parenthesis makes a token of its own. A rule that has a value has closed all groups
that it has opened, and none besides: what it has taken is balanced. For a rule that fails, the
scan of `Abacus.Proofs.Scan` keeps the number of open groups as its depth, so what the scan
explains can be said in terms of counts.

## Main results

* `Lexer.Spells.count_eq`: a symbol stands in the characters as often as its kind among the
  tokens.
* `Rule.Reads.balanced`: what a rule takes for a value is balanced.
* `Rule.Reads.count_lt`: where a group is found open at the end, more are opened than closed.
* `Balanced.exists_reads`: a balanced source that has a value is one chain of sums, down to the
  mark for its end.
-/

namespace Abacus

/-! ### Counting in characters and in tokens -/

/-- A kind is that of one symbol at most. -/
theorem Token.Kind.ofSymbol?_injective {c c' : Char} {k : Token.Kind}
    (h : ofSymbol? c = some k) (h' : ofSymbol? c' = some k) : c = c' := by
  unfold ofSymbol? at h h'
  split at h <;> cases h <;> split at h' <;> first | rfl | cases h'

namespace Lexer

variable {p : Nat} {cs : List Char} {us ts : List Token}

/-- Every symbol makes a token of its kind, and nothing else does. -/
theorem Spells.count_eq (h : Spells p cs ts) {c : Char} {k : Token.Kind}
    (hk : Token.Kind.ofSymbol? c = some k) : cs.count c = (ts.map Token.kind).count k := by
  obtain ⟨hnumber, hmark⟩ := ne_of_ofSymbol? hk
  induction h with
  | done => simp [Token.endAt, hmark.symm]
  | space _ ih =>
      have hne : ' ' ≠ c := by
        rintro rfl
        cases hk
      rw [List.count_cons_of_ne hne, ih]
  | @symbol p c' cs k' ts hk' _ ih =>
      rw [List.map_cons]
      by_cases hc : c' = c
      · subst hc
        obtain rfl : k' = k := Option.some.inj (hk'.symm.trans hk)
        rw [List.count_cons_self, List.count_cons_self, ih]
      · have hkind : k' ≠ k := by
          rintro rfl
          exact hc (Token.Kind.ofSymbol?_injective hk' hk)
        rw [List.count_cons_of_ne hc, List.count_cons_of_ne hkind, ih]
  | @number p ds cs ts _ hds _ _ ih =>
      have hzero : ds.count c = 0 := by
        rw [List.count_eq_zero]
        intro hc
        have hdigit := isDigit_of_ofSymbol? hk
        rw [hds c hc] at hdigit
        cases hdigit
      rw [List.count_append, hzero, Nat.zero_add, List.map_cons,
        List.count_cons_of_ne hnumber.symm, ih]

end Lexer

/-! ### Balanced tokens -/

namespace Token

/-- Of any number of tokens from the first on, no more close a group than open one; of all of
them as many do. -/
structure Balanced (us : List Token) : Prop where
  count_eq : (us.map kind).count .leftParen = (us.map kind).count .rightParen
  count_le : ∀ n,
    ((us.take n).map kind).count .rightParen ≤ ((us.take n).map kind).count .leftParen

namespace Balanced

variable {us vs : List Token} {l r t : Token}

theorem nil : Balanced [] :=
  ⟨rfl, fun n => by simp⟩

/-- A token that is no parenthesis is balanced by itself. -/
theorem single (hl : t.kind ≠ .leftParen) (hr : t.kind ≠ .rightParen) : Balanced [t] where
  count_eq := by simp [hl, hr]
  count_le n := by cases n <;> simp [hl, hr]

theorem append (h : Balanced us) (h' : Balanced vs) : Balanced (us ++ vs) where
  count_eq := by
    rw [List.map_append, List.count_append, List.count_append, h.count_eq, h'.count_eq]
  count_le n := by
    rw [List.take_append, List.map_append, List.count_append, List.count_append]
    exact Nat.add_le_add (h.count_le n) (h'.count_le _)

/-- Balanced tokens in parentheses are balanced. -/
theorem group (hl : l.kind = .leftParen) (h : Balanced us) (hr : r.kind = .rightParen) :
    Balanced (l :: (us ++ [r])) where
  count_eq := by simp [hl, hr, h.count_eq]
  count_le n := by
    cases n with
    | zero => simp
    | succ n =>
        have hin := h.count_le n
        have hclose : (([r].take (n - us.length)).map kind).count .rightParen ≤ 1 := by
          refine Nat.le_trans List.count_le_length ?_
          simp only [List.length_map, List.length_take, List.length_singleton]
          omega
        rw [List.take_succ_cons, List.map_cons, hl, List.count_cons_self,
          List.count_cons_of_ne (by simp), List.take_append, List.map_append, List.count_append,
          List.count_append]
        omega

end Balanced

end Token

namespace Rule

/-- What a rule takes for a value is balanced. -/
theorem Reads.balanced {r : Rule} {us ts : List Token} {v : Value}
    (h : Reads r us ts (.ok v)) : Token.Balanced us := by
  generalize hx : Except.ok v = x at h
  induction h generalizing v with
  | empty hk => exact .single (by simp [hk]) (by simp [hk])
  | whole _ _ ih => exact ih hx
  | first _ _ ih₁ ih₂ => exact (ih₁ rfl).append (ih₂ hx)
  | closes => exact .nil
  | @next _ _ _ _ _ t _ _ _ _ hk _ _ _ ih₁ ih₂ =>
      obtain ⟨hop, -⟩ := Level.role_eq_joins_iff.mp hk
      have hoperator : Token.Balanced [t] := .single (by simp [hop]) (by simp [hop])
      exact hoperator.append ((ih₁ rfl).append (ih₂ hx))
  | number hk => exact .single (by simp [hk]) (by simp [hk])
  | group hl _ hr ih => exact .group hl (ih rfl) hr
  | _ => cases hx

end Rule

/-! ### The depth of the scan -/

namespace Scan

variable {s s' : State} {us : List Token}

/-- What one token changes in the count of open groups. -/
theorem depth_add_of_moves {k : Token.Kind} (h : step s k = .moves s') :
    s.depth + [k].count .leftParen = s'.depth + [k].count .rightParen := by
  obtain ⟨_ | depth, _ | _⟩ := s <;> cases k <;> cases h <;> rfl

/-- Only the mark for the end is found where a group has to be closed. -/
theorem eq_of_unmatchedParen {k : Token.Kind}
    (h : step s k = .halts (.rejects .unmatchedParen)) : 0 < s.depth ∧ k = .endMark := by
  obtain ⟨_ | depth, _ | _⟩ := s <;> cases k <;> cases h
  exact ⟨Nat.succ_pos depth, rfl⟩

/-- What the tokens that are passed change in it. -/
theorem Passes.depth_add (h : Passes s us s') :
    s.depth + (us.map Token.kind).count .leftParen =
      s'.depth + (us.map Token.kind).count .rightParen := by
  induction h with
  | nil => rfl
  | @cons s s' s'' t us hstep _ ih =>
      have hone := depth_add_of_moves hstep
      rw [List.map_cons, ← List.singleton_append, List.count_append, List.count_append]
      omega

end Scan

namespace Rule

variable {us ts : List Token} {e : EvalError}

/-- What the scan explains of a chain of sums, from its first token on. -/
theorem Reads.explained_sum {x : Except EvalError Value} (h : Reads (chain .sum) us ts x) :
    Scan.Explains .start us 0 x :=
  h.explained (by simp) trivial 0

/-- Where a group is found open, more have been opened than closed. -/
theorem Reads.count_lt {text : String} (h : Reads (chain .sum) us ts (.error e))
    (he : e.cause = .unmatchedParen text) :
    (us.map Token.kind).count .rightParen < (us.map Token.kind).count .leftParen := by
  rcases h.explained_sum with ⟨us, t, s, fault, rfl, hpass, hstep, rfl⟩ | ⟨s, -, t, -, hblame⟩
  · cases fault with
    | unexpectedToken => cases he
    | unmatchedParen =>
        obtain ⟨hopen, hk⟩ := Scan.eq_of_unmatchedParen hstep
        have hdepth := hpass.depth_add
        have hleft : [t.kind].count .leftParen = 0 := by rw [hk]; rfl
        have hright : [t.kind].count .rightParen = 0 := by rw [hk]; rfl
        rw [List.map_append, List.count_append, List.count_append, List.map_singleton, hleft,
          hright]
        simp only [Scan.State.start] at hdepth
        omega
  · exact absurd hblame (EvalError.IsSyntactic.not_blames ⟨text, .inr he⟩)

end Rule

/-! ### Balanced sources -/

/-- Nothing is closed that is not open, and in the end everything is closed. -/
structure Balanced (cs : List Char) : Prop where
  count_eq : cs.count '(' = cs.count ')'
  count_le : ∀ ds, ds <+: cs → ds.count ')' ≤ ds.count '('

/-- It is enough to count behind each character. -/
theorem balanced_iff {cs : List Char} :
    Balanced cs ↔ cs.count '(' = cs.count ')' ∧
      ∀ n < cs.length, (cs.take n).count ')' ≤ (cs.take n).count '(' := by
  constructor
  · intro h
    exact ⟨h.count_eq, fun n _ => h.count_le _ (List.take_prefix n cs)⟩
  · rintro ⟨heq, hle⟩
    refine ⟨heq, fun ds hds => ?_⟩
    rw [List.prefix_iff_eq_take.mp hds]
    by_cases hn : ds.length < cs.length
    · exact hle _ hn
    · exact Nat.le_of_eq (by rw [List.take_of_length_le (Nat.le_of_not_lt hn), heq])

instance (cs : List Char) : Decidable (Balanced cs) :=
  decidable_of_iff _ balanced_iff.symm

/-- Behind tokens that close all that they open, a balanced text closes nothing more. -/
theorem Balanced.kind_ne_rightParen {cs : List Char} {p : Nat} {us rest : List Token}
    {stop : Token} (h : Balanced cs) (hspell : Lexer.Spells p cs (us ++ stop :: rest))
    (hend : Terminated (us ++ stop :: rest))
    (hcount : (us.map Token.kind).count .leftParen = (us.map Token.kind).count .rightParen) :
    stop.kind ≠ .rightParen := by
  intro hk
  have hrest : rest ≠ [] :=
    ((hend.of_append (List.cons_ne_nil stop rest)).of_cons (by simp [hk])).ne_nil
  rw [List.append_cons] at hspell
  obtain ⟨ds, hds, hinit⟩ := hspell.exists_initial hrest
  have hle := h.count_le ds hds
  have htail : ([stop] ++ [Token.endAt (p + ds.length)]).map Token.kind =
      [.rightParen, .endMark] := by
    rw [← hk]
    rfl
  have hright : [Token.Kind.rightParen, .endMark].count .rightParen = 1 := rfl
  have hleft : [Token.Kind.rightParen, .endMark].count .leftParen = 0 := rfl
  rw [hinit.count_eq rfl, hinit.count_eq rfl, List.append_assoc, List.map_append, htail,
    List.count_append, List.count_append, hcount, hright, hleft] at hle
  omega

/-- What a chain of sums leaves of a balanced source, when it has a value, is the mark for the end:
there is no closing parenthesis in the source that could stop the chain in front of that. -/
theorem Balanced.left_eq_end {source : String} {us vs : List Token} {v : Value}
    (h : Balanced source.toList) (hspell : Lexer.Spells 0 source.toList (us ++ vs))
    (hread : Rule.Reads (.chain .sum) us vs (.ok v)) :
    vs = [Token.endAt source.toList.length] := by
  obtain ⟨stop, rest, rfl, -⟩ := hread.stops
  have hk : stop.kind = .endMark := hread.kind_eq_of_sum.resolve_left
    (h.kind_ne_rightParen hspell hspell.terminated hread.balanced.count_eq)
  obtain rfl := hspell.eq_nil_of_endMark hk
  rw [hspell.eq_endAt (by simp) hk, Nat.zero_add]

/-- **A balanced source that has a value is one chain of sums**, unless it is blank. -/
theorem Balanced.exists_reads {source : String} {v : Value} (h : Balanced source.toList)
    (hne : ∃ c ∈ source.toList, c ≠ ' ') (hv : calculate source = .ok v) :
    ∃ us, Lexer.Spells 0 source.toList (us ++ [Token.endAt source.toList.length]) ∧
      Rule.Reads (.chain .sum) us [Token.endAt source.toList.length] (.ok v) := by
  obtain ⟨ts, htok, hts⟩ := calculate_eq_ok_iff.mp hv
  have hspell : Lexer.Spells 0 source.toList ts := Lexer.spells_of_scan htok
  obtain ⟨us, vs, rfl, hread⟩ :=
    (evaluate_eq_iff_of_head? hspell.terminated (hspell.kind_head?_ne hne)).mp hts
  obtain rfl := h.left_eq_end hspell hread
  exact ⟨us, hspell, hread⟩

end Abacus
