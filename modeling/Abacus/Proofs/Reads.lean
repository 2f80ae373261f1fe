import Abacus.Calculate

/-!
# What a rule takes

`Rule.runFor` is the way in which a rule is worked; this module says what comes of it.
`Reads r us ts x` means that in front of the tokens `us ++ ts` the rule `r` takes exactly
`us`, leaves `ts`, and has the outcome `x`. There is no cursor and no budget in it, and a
token that a chain takes and puts back is not taken at all: it is the first of `ts`.

The relation follows the rules one constructor for each way in which a rule can end, so
whatever a run can do is an induction over it. On a sequence that ends with a mark for the
end, which is what `evaluate` makes of every sequence, it says the same as a run.

## Main results

* `Rule.Reads.exists_runFor_of_faces`: what is read is run, over every source in front of which
  the tokens lie, on a budget for the tokens taken.
* `Rule.Reads.runFor_eq`: over a cursor the run passes the tokens taken, whatever was passed before.
* `Rule.exists_reads_of_runFor`: what is run is read, over every source of which it can be told
  what lies in front.
* `Rule.reads_of_runFor`: in particular what is run in front of a terminated sequence.
* `Rule.exists_reads`: in front of a terminated sequence there is something to read.
* `Cursor.run_of_reads`: what is read is what `Cursor.run` comes to, in any sequence.
* `Cursor.run_eq_some_iff`: in a terminated one the two are equivalent.
* `Rule.Reads.unique`: tokens, rest and outcome are determined by the sequence.
* `Rule.Reads.stops`: where a rule that has a value stops.
-/

namespace Abacus

/-- The sequence ends with a mark for the end. -/
def Terminated (ts : List Token) : Prop :=
  ts.getLast?.map Token.kind = some .endMark

instance (ts : List Token) : Decidable (Terminated ts) :=
  inferInstanceAs (Decidable (_ = _))

namespace Terminated

variable {t : Token} {us ts : List Token}

/-- Some mark is there. -/
theorem ne_nil (h : Terminated ts) : ts ≠ [] := by
  rintro rfl
  cases h

/-- The mark at the end is the last token of whatever is left. -/
theorem of_append (h : Terminated (us ++ ts)) (hts : ts ≠ []) : Terminated ts := by
  rwa [Terminated, List.getLast?_append, List.getLast?_eq_some_getLast hts,
    Option.some_or, ← List.getLast?_eq_some_getLast hts] at h

/-- Nor does it matter what stands in front. -/
theorem behind (h : Terminated ts) (us : List Token) : Terminated (us ++ ts) := by
  obtain ⟨t, ht, hk⟩ := Option.map_eq_some_iff.mp h
  rw [Terminated, List.getLast?_append, ht, Option.some_or, Option.map_some, hk]

/-- So it is wherever a token is left. -/
theorem drop (h : Terminated ts) {i : Nat} (hi : i < ts.length) : Terminated (ts.drop i) := by
  have hsplit : Terminated (ts.take i ++ ts.drop i) := by rwa [List.take_append_drop]
  refine hsplit.of_append ?_
  rw [ne_eq, List.drop_eq_nil_iff]
  omega

/-- The last token of a terminated sequence is a mark. -/
theorem kind_eq (h : Terminated (us ++ [t])) : t.kind = .endMark := by
  simpa [Terminated] using h

/-- Behind a token of another kind, the mark is still to come. -/
theorem of_cons (h : Terminated (t :: ts)) (hk : t.kind ≠ .endMark) : Terminated ts := by
  have h' : Terminated ([t] ++ ts) := h
  refine h'.of_append ?_
  rintro rfl
  exact hk (by simpa [Terminated] using h)

/-- Supplied or not, there is a mark at the end. -/
theorem terminated (ts : List Token) : Terminated (Abacus.terminated ts) := by
  have h := lastKind?_terminated ts
  rwa [Cursor.lastKind?, Cursor.tokens_ofList] at h

/-- Where it was there, nothing has to be supplied. -/
theorem terminated_eq (h : Terminated ts) : Abacus.terminated ts = ts := by
  obtain ⟨t, ht, hk⟩ := Option.map_eq_some_iff.mp h
  rw [Abacus.terminated, ht]
  exact if_pos hk

end Terminated

/-! ### What a token is behind an operand -/

/-- An operator joins the chains of its own level, and nothing else does. -/
theorem Level.role_eq_joins_iff {level : Level} {k : Token.Kind} {op : Operator} :
    level.role k = .joins op ↔ k = .operator op ∧ op.level = level := by
  cases level <;> rcases k with (_ | _ | _ | _) | _ | _ | _ | _ <;> cases op <;>
    simp [Level.role, Operator.level]

/-- What is not misplaced behind an operand of a sum closes every product. -/
theorem Level.closes_product {k : Token.Kind} (h : Level.sum.role k ≠ .strays) :
    Level.product.role k = .closes := by
  rcases k with (_ | _ | _ | _) | _ | _ | _ | _ <;> first | rfl | exact absurd rfl h

/-- What evaluation stops at is what closes a chain of sums. -/
theorem Level.role_sum_eq_closes_iff {k : Token.Kind} :
    Level.sum.role k = .closes ↔ k = .rightParen ∨ k = .endMark := by
  rcases k with (_ | _ | _ | _) | _ | _ | _ | _ <;> simp [Level.role]

/-- Only an operand is misplaced behind an operand of a product. -/
theorem Level.role_product_eq_strays_iff {k : Token.Kind} :
    Level.product.role k = .strays ↔ k = .number ∨ k = .leftParen := by
  rcases k with (_ | _ | _ | _) | _ | _ | _ | _ <;> simp [Level.role]

/-- Behind a product, too, only an operand is misplaced as far as sums go. -/
theorem Level.eq_of_strays_of_closes {k : Token.Kind} (h : Level.sum.role k = .strays)
    (hclose : Level.product.role k = .closes) : k = .number ∨ k = .leftParen := by
  rcases k with (_ | _ | _ | _) | _ | _ | _ | _ <;> simp_all [Level.role]

/-- What joins a chain is no mark for the end. -/
theorem Level.kind_ne_endMark_of_joins {level : Level} {k : Token.Kind} {op : Operator}
    (h : level.role k = .joins op) : k ≠ .endMark := by
  rw [(role_eq_joins_iff.mp h).1]
  simp

/-- The operands of a chain are no whole expressions. -/
theorem Level.operand_ne_expression (level : Level) : level.operand ≠ .expression := by
  cases level <;> simp [Level.operand]

/-- Nor are they rests of chains. -/
theorem Level.operand_ne_rest (level level' : Level) (left : Value) :
    level.operand ≠ .rest level' left := by
  cases level <;> simp [Level.operand]

/-- What was ahead of a cursor and is so no longer has been passed, the nearest first. -/
theorem Cursor.passed_eq {c c' : Cursor} {us : List Token} (htok : c'.tokens = c.tokens)
    (hahead : c.ahead = us ++ c'.ahead) : c'.passed = us.reverse ++ c.passed := by
  rw [tokens, tokens, hahead, ← List.append_assoc] at htok
  rw [← List.reverse_inj, List.append_cancel_right htok, List.reverse_append, List.reverse_reverse]

namespace Rule

/-- **Reading without a cursor.** `Reads r us ts x`: in front of `us ++ ts` the rule `r`
takes `us` and has the outcome `x`. -/
inductive Reads : Rule → List Token → List Token → Except EvalError Value → Prop
  | empty {t : Token} {ts : List Token} :
      t.kind = .endMark → Reads expression [t] ts (.ok 0)
  | whole {t : Token} {us ts : List Token} {x : Except EvalError Value} :
      t.kind ≠ .endMark → Reads (chain .sum) (t :: us) ts x →
      Reads expression (t :: us) ts x
  | firstFails {level : Level} {us ts : List Token} {e : EvalError} :
      Reads level.operand us ts (.error e) → Reads (chain level) us ts (.error e)
  | first {level : Level} {us vs ts : List Token} {left : Value}
      {x : Except EvalError Value} :
      Reads level.operand us (vs ++ ts) (.ok left) → Reads (rest level left) vs ts x →
      Reads (chain level) (us ++ vs) ts x
  | closes {level : Level} {left : Value} {t : Token} {ts : List Token} :
      level.role t.kind = .closes → Reads (rest level left) [] (t :: ts) (.ok left)
  | strays {level : Level} {left : Value} {t : Token} {ts : List Token} :
      level.role t.kind = .strays →
      Reads (rest level left) [t] ts (.error t.unexpected)
  | nextFails {level : Level} {left : Value} {op : Operator} {t : Token}
      {us ts : List Token} {e : EvalError} :
      level.role t.kind = .joins op → Reads level.operand us ts (.error e) →
      Reads (rest level left) (t :: us) ts (.error e)
  | applyFails {level : Level} {left right : Value} {op : Operator} {t : Token}
      {us ts : List Token} {e : EvalError} :
      level.role t.kind = .joins op → Reads level.operand us ts (.ok right) →
      op.applyAt t.position left right = .error e →
      Reads (rest level left) (t :: us) ts (.error e)
  | next {level : Level} {left right v : Value} {op : Operator} {t : Token}
      {us vs ts : List Token} {x : Except EvalError Value} :
      level.role t.kind = .joins op → Reads level.operand us (vs ++ ts) (.ok right) →
      op.applyAt t.position left right = .ok v → Reads (rest level v) vs ts x →
      Reads (rest level left) (t :: (us ++ vs)) ts x
  | number {t : Token} {ts : List Token} :
      t.kind = .number → Reads primary [t] ts t.literal
  | misplaced {t : Token} {ts : List Token} :
      t.kind ≠ .number → t.kind ≠ .leftParen →
      Reads primary [t] ts (.error t.unexpected)
  | groupFails {l : Token} {us ts : List Token} {e : EvalError} :
      l.kind = .leftParen → Reads (chain .sum) us ts (.error e) →
      Reads primary (l :: us) ts (.error e)
  | group {l r : Token} {us ts : List Token} {v : Value} :
      l.kind = .leftParen → Reads (chain .sum) us (r :: ts) (.ok v) →
      r.kind = .rightParen → Reads primary (l :: (us ++ [r])) ts (.ok v)
  | unmatched {l r : Token} {us ts : List Token} {v : Value} :
      l.kind = .leftParen → Reads (chain .sum) us (r :: ts) (.ok v) →
      r.kind ≠ .rightParen →
      Reads primary (l :: (us ++ [r])) ts (.error r.unmatched)

/-- Where a rule stops when it has a value: a chain in front of a token that closes its
level, a primary behind its number or its closing parenthesis. -/
def Stops : Rule → List Token → List Token → Prop
  | expression, _, _ => True
  | chain level, _, ts | rest level _, _, ts =>
      ∃ t ts', ts = t :: ts' ∧ level.role t.kind = .closes
  | primary, us, _ => ∃ us' t, us = us' ++ [t] ∧ (t.kind = .number ∨ t.kind = .rightParen)

/-- A rule that has a value stops as `Rule.Stops` says. -/
theorem Reads.stops {r : Rule} {us ts : List Token} {v : Value}
    (h : Reads r us ts (.ok v)) : r.Stops us ts := by
  generalize hx : Except.ok v = x at h
  induction h with
  | empty | whole => trivial
  | first _ _ _ ih | next _ _ _ _ _ ih => exact ih hx
  | closes hk => exact ⟨_, _, rfl, hk⟩
  | number hk => exact ⟨[], _, rfl, .inl hk⟩
  | @group l _ us _ _ _ _ hr => exact ⟨l :: us, _, rfl, .inr hr⟩
  | _ => cases hx

/-- A chain of sums that has a value stops in front of a closing parenthesis or the end. -/
theorem Reads.kind_eq_of_sum {us ts : List Token} {t : Token} {v : Value}
    (h : Reads (chain .sum) us (t :: ts) (.ok v)) :
    t.kind = .rightParen ∨ t.kind = .endMark := by
  obtain ⟨t', ts', heq, hclose⟩ := h.stops
  obtain ⟨rfl, -⟩ := List.cons.inj heq
  exact Level.role_sum_eq_closes_iff.mp hclose

/-- A rule other than a whole expression or the rest of a chain takes a token. -/
theorem Reads.exists_cons {r : Rule} {us ts : List Token} {x : Except EvalError Value}
    (h : Reads r us ts x) (hr : ∀ level left, r ≠ rest level left) : ∃ t us', us = t :: us' := by
  induction h with
  | closes => exact absurd rfl (hr _ _)
  | @firstFails level _ _ _ _ ih => exact ih level.operand_ne_rest
  | @first level us vs _ _ _ _ _ ih _ =>
      obtain ⟨t, us', rfl⟩ := ih level.operand_ne_rest
      exact ⟨t, us' ++ vs, rfl⟩
  | _ => exact ⟨_, _, rfl⟩

/-- It takes at least one, that is. -/
theorem Reads.length_pos {r : Rule} {us ts : List Token} {x : Except EvalError Value}
    (h : Reads r us ts x) (hr : ∀ level left, r ≠ rest level left) : 0 < us.length := by
  obtain ⟨t, us', rfl⟩ := h.exists_cons hr
  exact Nat.succ_pos _

/-- A primary that has a value begins with a number or opens a group. -/
theorem Reads.kind_eq_of_primary {t : Token} {us ts : List Token} {v : Value}
    (h : Reads primary (t :: us) ts (.ok v)) : t.kind = .number ∨ t.kind = .leftParen := by
  generalize hx : Except.ok v = x at h
  cases h with
  | number hk => exact .inl hk
  | group hl _ _ => exact .inr hl
  | _ => cases hx

/-! ### What is read is run -/

open TokenSource Reading

section Faces

variable {σ : Type} [TokenSource σ]

/-- In `F s ts` the tokens `ts` lie in front of the source `s`: the first of them is the one that
the source hands out, and behind it the others lie in front. Handed out and taken back, it lies
there again. -/
structure Faces (F : σ → List Token → Prop) : Prop where
  token_eq : ∀ {s t ts}, F s (t :: ts) → (advance s).1 = t
  forth : ∀ {s t ts}, F s (t :: ts) → F (advance s).2 ts
  undo : ∀ {s t ts}, F s (t :: ts) → F (retreat (advance s).2) (t :: ts)

variable {F : σ → List Token → Prop}

/-- **Completeness.** What is read is the outcome of a run over every source in front of which
the tokens lie; the run leaves those in front that were not taken. The budget that suffices
for the tokens taken is enough. Induction on the budget: what a rule calls needs less of it. -/
theorem Reads.exists_runFor_of_faces (hF : Faces F) {n : Nat} {r : Rule} {us ts : List Token}
    {x : Except EvalError Value} (h : Reads r us ts x) (hn : r.calls us.length ≤ n) {s : σ}
    (hs : F s (us ++ ts)) : ∃ s', runFor n r s = some (x, s') ∧ F s' ts := by
  induction n generalizing r us ts x s with
  | zero => exact absurd hn (Nat.not_le.mpr (calls_pos _ _))
  | succ n ih =>
      have hless : ∀ {k}, k < r.calls us.length → k ≤ n := fun hk => by omega
      cases h with
      | empty hk =>
          obtain rfl := hF.token_eq hs
          exact ⟨_, runFor_expression_end hk, hF.forth hs⟩
      | whole hk hsum =>
          obtain rfl := hF.token_eq hs
          rw [runFor_expression hk]
          exact ih hsum (hless calls_sum_lt_expression) (hF.undo hs)
      | firstFails hop =>
          obtain ⟨s', hrun, hs'⟩ := ih hop (hless (calls_operand_lt_chain (Nat.le_refl _))) hs
          exact ⟨s', by rw [runFor_chain, hrun, andThen_error], hs'⟩
      | @first level us vs _ _ _ hop hrest =>
          have hpos := hop.length_pos level.operand_ne_rest
          have hlen : (us ++ vs).length = us.length + vs.length := List.length_append
          rw [List.append_assoc] at hs
          obtain ⟨s₁, hrun₁, hs₁⟩ := ih hop (hless (calls_operand_lt_chain (by omega))) hs
          obtain ⟨s', hrun, hs'⟩ := ih hrest (hless (calls_rest_lt_chain (by omega))) hs₁
          exact ⟨s', by rw [runFor_chain, hrun₁, andThen_ok, hrun], hs'⟩
      | closes hk =>
          obtain rfl := hF.token_eq hs
          exact ⟨_, runFor_rest_closes hk, hF.undo hs⟩
      | strays hk =>
          obtain rfl := hF.token_eq hs
          exact ⟨_, runFor_rest_strays hk, hF.forth hs⟩
      | nextFails hk hop =>
          obtain rfl := hF.token_eq hs
          obtain ⟨s', hrun, hs'⟩ :=
            ih hop (hless (calls_operand_lt_rest (Nat.lt_succ_self _))) (hF.forth hs)
          exact ⟨s', by rw [runFor_rest_joins hk, hrun, andThen_error], hs'⟩
      | applyFails hk hop happly =>
          obtain rfl := hF.token_eq hs
          obtain ⟨s', hrun, hs'⟩ :=
            ih hop (hless (calls_operand_lt_rest (Nat.lt_succ_self _))) (hF.forth hs)
          exact ⟨s', by rw [runFor_rest_joins hk, hrun, andThen_ok, happly, andThen_error], hs'⟩
      | @next level _ _ _ _ t us vs _ _ hk hop happly hrest =>
          have hlen : (t :: (us ++ vs)).length = us.length + vs.length + 1 := by simp
          rw [List.cons_append, List.append_assoc] at hs
          obtain rfl := hF.token_eq hs
          obtain ⟨s₁, hrun₁, hs₁⟩ :=
            ih hop (hless (calls_operand_lt_rest (by omega))) (hF.forth hs)
          obtain ⟨s', hrun, hs'⟩ := ih hrest (hless (calls_rest_lt_rest (by omega))) hs₁
          refine ⟨s', ?_, hs'⟩
          rw [runFor_rest_joins hk, hrun₁, andThen_ok, happly, andThen_ok, hrun]
      | number hk =>
          obtain rfl := hF.token_eq hs
          exact ⟨_, runFor_primary_number hk, hF.forth hs⟩
      | misplaced hnum hl =>
          obtain rfl := hF.token_eq hs
          exact ⟨_, runFor_primary_unexpected hnum hl, hF.forth hs⟩
      | groupFails hl hsum =>
          obtain rfl := hF.token_eq hs
          obtain ⟨s', hrun, hs'⟩ :=
            ih hsum (hless (calls_sum_lt_primary (Nat.lt_succ_self _))) (hF.forth hs)
          exact ⟨s', by rw [runFor_primary_leftParen hl, hrun, andThen_error], hs'⟩
      | @group l r us _ _ hl hsum hr | @unmatched l r us _ _ hl hsum hr =>
          have hlen : (l :: (us ++ [r])).length = us.length + 2 := by simp
          rw [List.cons_append, List.append_assoc] at hs
          obtain rfl := hF.token_eq hs
          obtain ⟨s₁, hrun, hs₁⟩ :=
            ih hsum (hless (calls_sum_lt_primary (by omega))) (hF.forth hs)
          obtain rfl := hF.token_eq hs₁
          refine ⟨_, ?_, hF.forth hs₁⟩
          rw [runFor_primary_leftParen hl, hrun, andThen_ok]
          simp only [hr, if_true, if_false]

end Faces

/-- In front of a cursor lie the tokens ahead, and it stays in its sequence. -/
theorem Faces.cursor (ts : List Token) :
    Faces fun (c : Cursor) vs => c.tokens = ts ∧ c.ahead = vs where
  token_eq := by
    rintro ⟨ps, _⟩ t vs ⟨-, rfl⟩
    rfl
  forth := by
    rintro ⟨ps, _⟩ t vs ⟨htok, rfl⟩
    exact ⟨(Cursor.tokens_advance _).trans htok, rfl⟩
  undo := by
    rintro ⟨ps, _⟩ t vs ⟨htok, rfl⟩
    exact ⟨htok, rfl⟩

/-- Over a cursor a run passes the tokens taken, whatever was passed before. -/
theorem Reads.runFor_eq {n : Nat} {r : Rule} {us ts : List Token} {x : Except EvalError Value}
    (h : Reads r us ts x) (hn : r.calls us.length ≤ n) (ps : List Token) :
    runFor n r (⟨ps, us ++ ts⟩ : Cursor) = some (x, ⟨us.reverse ++ ps, ts⟩) := by
  obtain ⟨⟨ps', _⟩, hrun, htok, rfl⟩ :=
    h.exists_runFor_of_faces (s := ⟨ps, us ++ ts⟩) (Faces.cursor _) hn ⟨rfl, rfl⟩
  obtain rfl : ps' = us.reverse ++ ps := Cursor.passed_eq htok rfl
  exact hrun

/-! ### What is run is read -/

section Tells

variable {σ : Type} [TokenSource σ]

/-- What lies in front of a source that is ready can be told from what lies in front of it when
it has been moved. A source that is ready has some token in front, it stays ready when it takes
that back, and also when it has handed it out, unless that is the mark for the end. -/
structure Tells (G : σ → Prop) (F : σ → List Token → Prop) : Prop where
  ne_nil : ∀ {s ts}, G s → F s ts → ts ≠ []
  token_eq : ∀ {s t ts}, F s (t :: ts) → (advance s).1 = t
  taken : ∀ {s ts}, G s → F (advance s).2 ts → F s ((advance s).1 :: ts)
  undone : ∀ {s ts}, G s → F (retreat (advance s).2) ts → F s ts
  ready_taken : ∀ {s}, G s → (advance s).1.kind ≠ .endMark → G (advance s).2
  ready_undone : ∀ {s}, G s → G (retreat (advance s).2)

variable {G : σ → Prop} {F : σ → List Token → Prop}

/-- **Soundness.** What a run over a source that was ready has come to is read, whatever lies in
front of the source when it ends: some tokens were taken, and these lay in front before. Behind
a value the source is ready again, unless the mark was taken for an empty expression. Induction
on the budget. -/
theorem exists_reads_of_runFor (hF : Tells G F) {n : Nat} {r : Rule} {s s' : σ}
    {x : Except EvalError Value} (hs : G s) (h : runFor n r s = some (x, s')) :
    ((∃ v, x = .ok v) → r ≠ expression → G s') ∧
      ∃ us, ∀ ts, F s' ts → F s (us ++ ts) ∧ Reads r us ts x := by
  induction n generalizing r s s' x with
  | zero => rw [runFor_zero] at h; cases h
  | succ n ih =>
      cases r with
      | expression =>
          refine ⟨fun _ hr => absurd rfl hr, ?_⟩
          by_cases hk : (advance s).1.kind = .endMark
          · rw [runFor_expression_end hk] at h
            cases h
            exact ⟨[_], fun ts hts => ⟨hF.taken hs hts, .empty hk⟩⟩
          · rw [runFor_expression hk] at h
            obtain ⟨-, us, hus⟩ := ih (hF.ready_undone hs) h
            refine ⟨us, fun ts hts => ?_⟩
            obtain ⟨hfront, hsum⟩ := hus ts hts
            have hall := hF.undone hs hfront
            obtain ⟨t, us, rfl⟩ := hsum.exists_cons (by simp)
            exact ⟨hall, .whole (hF.token_eq hall ▸ hk) hsum⟩
      | chain level =>
          rw [runFor_chain] at h
          rcases andThen_eq_some_iff.mp h with ⟨e, s₁, h₁, heq⟩ | ⟨left, s₁, h₁, h₂⟩
          · cases heq
            obtain ⟨-, us, hus⟩ := ih hs h₁
            exact ⟨nofun, us, fun ts hts => (hus ts hts).imp_right .firstFails⟩
          · obtain ⟨hready, us, hus⟩ := ih hs h₁
            obtain ⟨hready', vs, hvs⟩ := ih (hready ⟨_, rfl⟩ level.operand_ne_expression) h₂
            refine ⟨fun hv _ => hready' hv (by simp), us ++ vs, fun ts hts => ?_⟩
            obtain ⟨hfront, hrest⟩ := hvs ts hts
            obtain ⟨hall, hop⟩ := hus _ hfront
            exact ⟨by rwa [List.append_assoc], .first hop hrest⟩
      | rest level left =>
          cases hk : level.role (advance s).1.kind with
          | closes =>
              rw [runFor_rest_closes hk] at h
              cases h
              refine ⟨fun _ _ => hF.ready_undone hs, [], fun ts hts => ?_⟩
              have hall := hF.undone hs hts
              obtain ⟨t, ts, rfl⟩ := List.exists_cons_of_ne_nil (hF.ne_nil hs hall)
              exact ⟨hall, .closes (hF.token_eq hall ▸ hk)⟩
          | strays =>
              rw [runFor_rest_strays hk] at h
              cases h
              exact ⟨nofun, [_], fun ts hts => ⟨hF.taken hs hts, .strays hk⟩⟩
          | joins op =>
              rw [runFor_rest_joins hk] at h
              have hs₀ := hF.ready_taken hs (Level.kind_ne_endMark_of_joins hk)
              rcases andThen_eq_some_iff.mp h with ⟨e, s₁, h₁, heq⟩ | ⟨right, s₁, h₁, h₂⟩
              · cases heq
                obtain ⟨-, us, hus⟩ := ih hs₀ h₁
                refine ⟨nofun, (advance s).1 :: us, fun ts hts => ?_⟩
                obtain ⟨hfront, hop⟩ := hus ts hts
                exact ⟨hF.taken hs hfront, .nextFails hk hop⟩
              · obtain ⟨hready, us, hus⟩ := ih hs₀ h₁
                cases hv : op.applyAt (advance s).1.position left right with
                | error e =>
                    rw [hv, andThen_error] at h₂
                    cases h₂
                    refine ⟨nofun, (advance s).1 :: us, fun ts hts => ?_⟩
                    obtain ⟨hfront, hop⟩ := hus ts hts
                    exact ⟨hF.taken hs hfront, .applyFails hk hop hv⟩
                | ok v =>
                    rw [hv, andThen_ok] at h₂
                    obtain ⟨hready', vs, hvs⟩ :=
                      ih (hready ⟨_, rfl⟩ level.operand_ne_expression) h₂
                    refine ⟨fun hv _ => hready' hv (by simp), (advance s).1 :: (us ++ vs),
                      fun ts hts => ?_⟩
                    obtain ⟨hfront, hrest⟩ := hvs ts hts
                    obtain ⟨hall, hop⟩ := hus _ hfront
                    rw [List.cons_append, List.append_assoc]
                    exact ⟨hF.taken hs hall, .next hk hop hv hrest⟩
      | primary =>
          by_cases hn : (advance s).1.kind = .number
          · rw [runFor_primary_number hn] at h
            cases h
            exact ⟨fun _ _ => hF.ready_taken hs (by simp [hn]), [_],
              fun ts hts => ⟨hF.taken hs hts, .number hn⟩⟩
          · by_cases hl : (advance s).1.kind = .leftParen
            · rw [runFor_primary_leftParen hl] at h
              have hs₀ := hF.ready_taken hs (by simp [hl])
              rcases andThen_eq_some_iff.mp h with ⟨e, s₁, h₁, heq⟩ | ⟨v, s₁, h₁, h₂⟩
              · cases heq
                obtain ⟨-, us, hus⟩ := ih hs₀ h₁
                refine ⟨nofun, (advance s).1 :: us, fun ts hts => ?_⟩
                obtain ⟨hfront, hsum⟩ := hus ts hts
                exact ⟨hF.taken hs hfront, .groupFails hl hsum⟩
              · obtain ⟨hready, us, hus⟩ := ih hs₀ h₁
                have hs₁ := hready ⟨_, rfl⟩ (by simp)
                have hgroup : ∀ ts, F (advance s₁).2 ts →
                    F s ((advance s).1 :: (us ++ [(advance s₁).1]) ++ ts) ∧
                      Reads (chain .sum) us ((advance s₁).1 :: ts) (.ok v) := by
                  intro ts hts
                  obtain ⟨hfront, hsum⟩ := hus _ (hF.taken hs₁ hts)
                  rw [List.cons_append, List.append_assoc]
                  exact ⟨hF.taken hs hfront, hsum⟩
                by_cases hclose : (advance s₁).1.kind = .rightParen
                · rw [if_pos hclose] at h₂
                  cases h₂
                  exact ⟨fun _ _ => hF.ready_taken hs₁ (by simp [hclose]), _,
                    fun ts hts => (hgroup ts hts).imp_right (.group hl · hclose)⟩
                · rw [if_neg hclose] at h₂
                  cases h₂
                  exact ⟨nofun, _,
                    fun ts hts => (hgroup ts hts).imp_right (.unmatched hl · hclose)⟩
            · rw [runFor_primary_unexpected hn hl] at h
              cases h
              exact ⟨nofun, [_], fun ts hts => ⟨hF.taken hs hts, .misplaced hn hl⟩⟩

end Tells

/-- A cursor is ready in front of a terminated sequence. -/
theorem Tells.cursor (ts : List Token) :
    Tells (fun c : Cursor => Terminated c.ahead) fun c vs => c.tokens = ts ∧ c.ahead = vs where
  ne_nil := by
    rintro c vs hc ⟨-, rfl⟩
    exact hc.ne_nil
  token_eq := (Faces.cursor ts).token_eq
  taken := by
    rintro ⟨ps, _ | ⟨t, ahead⟩⟩ vs hc ⟨htok, rfl⟩
    · exact absurd rfl hc.ne_nil
    · exact ⟨(Cursor.tokens_advance _).symm.trans htok, rfl⟩
  undone := by
    rintro ⟨ps, _ | ⟨t, ahead⟩⟩ vs hc ⟨htok, rfl⟩
    · exact absurd rfl hc.ne_nil
    · exact ⟨htok, rfl⟩
  ready_taken := by
    rintro ⟨ps, _ | ⟨t, ahead⟩⟩ hc hk
    · exact absurd rfl hc.ne_nil
    · exact Terminated.of_cons hc hk
  ready_undone := by
    rintro ⟨ps, _ | ⟨t, ahead⟩⟩ hc
    · exact absurd rfl hc.ne_nil
    · exact hc

/-- The outcome of a run, read: the tokens taken lie between the two cursors. -/
def Outcome (r : Rule) (c : Cursor) (o : Except EvalError Value × Cursor) : Prop :=
  ∃ us, c.ahead = us ++ o.2.ahead ∧ o.2.passed = us.reverse ++ c.passed ∧
    r.Reads us o.2.ahead o.1

/-- What a run in front of a terminated sequence has come to is read. -/
theorem reads_of_runFor {n : Nat} {r : Rule} {c : Cursor}
    {o : Except EvalError Value × Cursor} (hend : Terminated c.ahead)
    (h : runFor n r c = some o) : Outcome r c o := by
  obtain ⟨-, us, hus⟩ := exists_reads_of_runFor (Tells.cursor o.2.tokens) hend h
  obtain ⟨⟨htok, hahead⟩, hread⟩ := hus _ ⟨rfl, rfl⟩
  exact ⟨us, hahead, Cursor.passed_eq htok.symm hahead, hread⟩

/-- In front of a terminated sequence every rule reads something. -/
theorem exists_reads {ts : List Token} (hend : Terminated ts) (r : Rule) :
    ∃ us vs x, ts = us ++ vs ∧ r.Reads us vs x := by
  have hlast : (Cursor.ofList ts).lastKind? = some .endMark := by
    rwa [Cursor.lastKind?, Cursor.tokens_ofList]
  have hsome : ((Cursor.ofList ts).run r).isSome = true :=
    Cursor.isSome_run r (by simp [hlast])
  obtain ⟨o, ho⟩ := Option.isSome_iff_exists.mp hsome
  obtain ⟨us, hus, -, hreads⟩ := reads_of_runFor hend ho
  exact ⟨us, _, _, hus, hreads⟩

/-- So it does from every index, within the sequence. -/
theorem exists_reads_drop {ts : List Token} {i : Nat} (hend : Terminated ts) (hi : i < ts.length)
    (r : Rule) :
    ∃ us vs x, ts.drop i = us ++ vs ∧ i + us.length ≤ ts.length ∧ r.Reads us vs x := by
  obtain ⟨us, vs, x, hus, hreads⟩ := exists_reads (hend.drop hi) r
  have hlen := congrArg List.length hus
  rw [List.length_drop, List.length_append] at hlen
  exact ⟨us, vs, x, hus, by omega, hreads⟩

/-! ### The two together -/

/-- **Reading is determined**: one sequence cannot be read in two ways by the same rule. -/
theorem Reads.unique {r : Rule} {us us' ts ts' : List Token} {x x' : Except EvalError Value}
    (h : Reads r us ts x) (h' : Reads r us' ts' x') (heq : us ++ ts = us' ++ ts') :
    us = us' ∧ ts = ts' ∧ x = x' := by
  have hrun' := h'.runFor_eq (Nat.le_refl _) []
  rw [← heq] at hrun'
  have hrun := runFor_unique (h.runFor_eq (Nat.le_refl _) []) hrun'
  simp only [Prod.mk.injEq, Cursor.mk.injEq] at hrun
  obtain ⟨rfl, -, rfl⟩ := hrun
  exact ⟨List.append_cancel_right heq, rfl, rfl⟩

end Rule

namespace Cursor

/-- What is read is what the cursor's own budget runs to, in whatever sequence it stands. -/
theorem run_of_reads {r : Rule} {us ts : List Token} {x : Except EvalError Value}
    (h : r.Reads us ts x) (ps : List Token) :
    (⟨ps, us ++ ts⟩ : Cursor).run r = some (x, ⟨us.reverse ++ ps, ts⟩) := by
  have hlen : us.length ≤ (us ++ ts).length := by simp
  refine h.runFor_eq ?_ ps
  have := r.calls_le us.length
  simp only [budget]
  omega

/-- **A run is a reading.** In front of a terminated sequence, a run's outcome and place are
the outcome and the tokens of the one reading there is. -/
theorem run_eq_some_iff {r : Rule} {c c' : Cursor} {x : Except EvalError Value}
    (hend : Terminated c.ahead) :
    c.run r = some (x, c') ↔
      ∃ us ts, c.ahead = us ++ ts ∧ c' = ⟨us.reverse ++ c.passed, ts⟩ ∧ r.Reads us ts x := by
  constructor
  · intro h
    obtain ⟨us, hus, hps, hreads⟩ := Rule.reads_of_runFor hend h
    exact ⟨us, c'.ahead, hus, by rw [← hps], hreads⟩
  · rintro ⟨us, ts, hus, rfl, hreads⟩
    obtain ⟨ps, ahead⟩ := c
    obtain rfl : ahead = us ++ ts := hus
    exact run_of_reads hreads ps

end Cursor

/-- A sequence has the value that it has with its mark. -/
theorem evaluate_terminated (ts : List Token) : evaluate (terminated ts) = evaluate ts := by
  simp only [evaluate, (Terminated.terminated ts).terminated_eq]

/-- The value of a terminated sequence is the outcome of the run from its start. -/
theorem exists_run_expression {ts : List Token} (hend : Terminated ts) :
    ∃ c, (Cursor.ofList ts).run .expression = some (evaluate ts, c) := by
  have h : ∃ c, (Cursor.ofList (terminated ts)).run .expression = some (evaluate ts, c) :=
    ⟨_, (Option.some_get _).symm⟩
  rwa [hend.terminated_eq] at h

/-- The value of a terminated sequence is what a whole expression reads from its start. -/
theorem evaluate_eq_iff {ts : List Token} {x : Except EvalError Value} (hend : Terminated ts) :
    evaluate ts = x ↔ ∃ us vs, ts = us ++ vs ∧ Rule.expression.Reads us vs x := by
  obtain ⟨c, hc⟩ := exists_run_expression hend
  obtain ⟨us, vs, hus, -, hreads⟩ := (Cursor.run_eq_some_iff hend).mp hc
  constructor
  · rintro rfl
    exact ⟨us, vs, hus, hreads⟩
  · rintro ⟨us', vs', hus', hreads'⟩
    exact (hreads.unique hreads' (hus.symm.trans hus')).2.2

/-- If it does not begin with a mark for the end, it is what a chain of sums reads. -/
theorem evaluate_eq_iff_of_head? {ts : List Token} {x : Except EvalError Value}
    (hend : Terminated ts) (hhead : ts.head?.map Token.kind ≠ some .endMark) :
    evaluate ts = x ↔ ∃ us vs, ts = us ++ vs ∧ (Rule.chain .sum).Reads us vs x := by
  rw [evaluate_eq_iff hend]
  constructor
  · rintro ⟨us, vs, rfl, hread⟩
    cases hread with
    | empty hk => exact absurd (congrArg some hk) hhead
    | whole _ hsum => exact ⟨_, vs, rfl, hsum⟩
  · rintro ⟨us, vs, rfl, hread⟩
    obtain ⟨t, us, rfl⟩ := hread.exists_cons (by simp)
    exact ⟨_, vs, rfl, .whole (fun hk => hhead (congrArg some hk)) hread⟩

/-- An operand alone is a chain, in front of what closes it. -/
theorem Rule.Reads.chain_of_operand {level : Level} {us ts : List Token} {t : Token} {v : Value}
    (h : Reads level.operand us (t :: ts) (.ok v)) (hclose : level.role t.kind = .closes) :
    Reads (chain level) us (t :: ts) (.ok v) := by
  have hread : Reads (chain level) (us ++ []) (t :: ts) (.ok v) := .first h (.closes hclose)
  rwa [List.append_nil] at hread

/-- A primary with nothing but the end behind it is worth what the sequence is worth, and one that
fails fails the sequence. -/
theorem evaluate_of_primary {us ts : List Token} {x : Except EvalError Value}
    (hend : Terminated (us ++ ts)) (hhead : (us ++ ts).head?.map Token.kind ≠ some .endMark)
    (h : Rule.primary.Reads us ts x)
    (hmark : ∀ v, x = .ok v → ∃ e ∈ ts.head?, e.kind = .endMark) : evaluate (us ++ ts) = x := by
  refine (evaluate_eq_iff_of_head? hend hhead).mpr ⟨us, ts, rfl, ?_⟩
  have hoperand : Level.product.operand.Reads us ts x := h
  cases x with
  | ok v =>
      obtain ⟨e, he, hk⟩ := hmark v rfl
      obtain ⟨ts, rfl⟩ := List.head?_eq_some_iff.mp he
      have hproduct : Level.sum.operand.Reads us (e :: ts) (.ok v) :=
        hoperand.chain_of_operand (by rw [hk]; rfl)
      exact hproduct.chain_of_operand (by rw [hk]; rfl)
  | error e =>
      have hproduct : Level.sum.operand.Reads us ts (.error e) := .firstFails hoperand
      exact .firstFails hproduct

end Abacus
