import Abacus.Proofs.Closing
import Abacus.Proofs.Place

/-!
# Groups at the end of a sequence without a mark

Behind its last token a cursor hands that token out again, and a step back from there goes in
front of it. To a rule this looks as if the sequence went on with copies of its last token, any
number of them. So a run over a sequence that does not end with a mark for the end reads what it
would read of the sequence with enough copies behind it, and the last token may count more than
once.

What an operand takes for its value is balanced, but only with the copies. When the last token
is a closing parenthesis it closes every group that is still open: the group in `((1)` has a
value. When it is a number, a group that lacks its closing parenthesis fails on that number, and
not on the parenthesis. Only a mark for the end is found to be no closing parenthesis.

## Main results

* `Rule.exists_reads_exhausted`, `Rule.Reads.runFor_exhausted`: runs over a sequence of any
  kind read it with copies of its last token.
* `Rule.Reads.strays_at_end`: a chain that is complete fails on a number behind it.
* `Cursor.run_exhausted`: what an operand takes for its value, and what a group comes to that the
  end of the sequence leaves open.
-/

namespace Abacus

/-! ### Copies of the last token -/

/-- The tokens `vs` lie in front of a cursor over `ts` that repeats the last token `t`: those ahead
of it, and then some copies of `t`. -/
def Cursor.Repeats (ts : List Token) (t : Token) (c : Cursor) (vs : List Token) : Prop :=
  c.tokens = ts ∧ ∃ m, vs = c.ahead ++ List.replicate m t

variable {ts us rest : List Token} {t : Token}

/-- Where nothing is ahead of a cursor it has passed the last token last. -/
theorem Cursor.exists_passed {ps : List Token} (hlast : ts.getLast? = some t)
    (htok : (⟨ps, []⟩ : Cursor).tokens = ts) : ∃ ps', ps = t :: ps' := by
  rw [← htok, tokens, List.append_nil, List.getLast?_reverse] at hlast
  exact List.head?_eq_some_iff.mp hlast

namespace Rule

/-- Copies of the last token lie in front of a cursor as if they were tokens of the sequence. -/
theorem Faces.repeats (hlast : ts.getLast? = some t) : Faces (Cursor.Repeats ts t) where
  token_eq := by
    rintro ⟨ps, _ | ⟨u, ahead⟩⟩ v vs ⟨htok, m, heq⟩
    · obtain ⟨ps', rfl⟩ := Cursor.exists_passed hlast htok
      exact (List.eq_of_mem_replicate (heq ▸ List.mem_cons_self)).symm
    · exact (List.cons.inj heq).1.symm
  forth := by
    rintro ⟨ps, _ | ⟨u, ahead⟩⟩ v vs ⟨htok, m, heq⟩
    · obtain _ | m := m
      · cases heq
      · exact ⟨htok, m, (List.cons.inj heq).2⟩
    · exact ⟨(Cursor.tokens_advance _).trans htok, m, (List.cons.inj heq).2⟩
  undo := by
    rintro ⟨ps, _ | ⟨u, ahead⟩⟩ v vs ⟨htok, m, heq⟩
    · obtain ⟨ps', rfl⟩ := Cursor.exists_passed hlast htok
      obtain _ | m := m
      · cases heq
      · exact ⟨(Cursor.tokens_retreat _).trans htok, m, heq⟩
    · exact ⟨htok, m, heq⟩

/-- Nor do they differ from them when it comes to telling what lies in front. -/
theorem Tells.repeats (hlast : ts.getLast? = some t) :
    Tells (fun _ => True) fun c vs => Cursor.Repeats ts t c vs ∧ vs ≠ [] where
  ne_nil := fun _ h => h.2
  token_eq := fun h => (Faces.repeats hlast).token_eq h.1
  taken := by
    rintro ⟨ps, _ | ⟨u, ahead⟩⟩ vs - ⟨⟨htok, m, rfl⟩, -⟩
    · obtain ⟨ps', rfl⟩ := Cursor.exists_passed hlast htok
      exact ⟨⟨htok, m + 1, rfl⟩, List.cons_ne_nil _ _⟩
    · exact ⟨⟨(Cursor.tokens_advance _).symm.trans htok, m, rfl⟩, List.cons_ne_nil _ _⟩
  undone := by
    rintro ⟨ps, _ | ⟨u, ahead⟩⟩ vs - ⟨⟨htok, m, heq⟩, hne⟩
    · have htok' := (Cursor.tokens_retreat _).symm.trans htok
      obtain ⟨ps', rfl⟩ := Cursor.exists_passed hlast htok'
      exact ⟨⟨htok', m + 1, heq⟩, hne⟩
    · exact ⟨⟨htok, m, heq⟩, hne⟩
  ready_taken := fun _ _ => trivial
  ready_undone := fun _ => trivial

variable {n : Nat} {r : Rule} {c c' : Cursor} {x : Except EvalError Value}

/-- What a run has come to is read, when the sequence is continued by copies of its last token. -/
theorem exists_reads_exhausted (hlast : ts.getLast? = some t) (htok : c'.tokens = ts)
    (h : runFor n r c = some (x, c')) :
    ∃ us m, us ++ (c'.ahead ++ [t]) = c.ahead ++ List.replicate m t ∧
      r.Reads us (c'.ahead ++ [t]) x := by
  obtain ⟨-, us, hus⟩ := exists_reads_of_runFor (Tells.repeats hlast) trivial h
  obtain ⟨⟨⟨-, m, hm⟩, -⟩, hread⟩ := hus (c'.ahead ++ [t]) ⟨⟨htok, 1, rfl⟩, by simp⟩
  exact ⟨us, m, hm, hread⟩

/-- What is read of the sequence with such copies is run, and when nothing is left of it the cursor
ends behind the last token. -/
theorem Reads.runFor_exhausted (h : Reads r us [] x) (hlast : ts.getLast? = some t)
    {i m : Nat} (hus : us = ts.drop i ++ List.replicate m t) (hn : r.calls us.length ≤ n) :
    runFor n r (Cursor.ofListAt ts i) = some (x, Cursor.ofListAt ts ts.length) := by
  have hfront : Cursor.Repeats ts t (Cursor.ofListAt ts i) (us ++ []) :=
    ⟨Cursor.tokens_ofListAt ts i, m, by rw [List.append_nil, hus]; rfl⟩
  obtain ⟨c', hrun, htok, m', hm'⟩ := h.exists_runFor_of_faces (Faces.repeats hlast) hn hfront
  have hahead : c'.ahead = [] := (List.append_eq_nil_iff.mp hm'.symm).1
  have hindex : c'.index = ts.length := by
    rw [← htok, ← c'.index_add_length_ahead, hahead]
    rfl
  rw [hrun, ← c'.ofListAt_tokens_index, htok, hindex]

/-! ### What is read in front of other tokens -/

/-- An operand that has a value is read in front of any tokens. -/
theorem Reads.primary_in_front {v : Value} (h : Reads primary us rest (.ok v))
    (rest' : List Token) : Reads primary us rest' (.ok v) := by
  generalize hx : Except.ok v = x at h
  cases h with
  | number hk => exact .number hk
  | @group _ r _ _ _ hl hsum hr =>
      cases hx
      have hsum' : Reads (chain .sum) _ (r :: rest') _ := hsum.of_head? fun _ ht => ht
      exact .group hl hsum' hr
  | _ => cases hx

/-- If it takes more than one token, the last of them is a closing parenthesis. -/
theorem Reads.kind_eq_of_concat {v : Value} (h : Reads primary (us ++ [t]) rest (.ok v))
    (hne : us ≠ []) : t.kind = .rightParen := by
  generalize hus : us ++ [t] = all at h
  generalize hx : Except.ok v = x at h
  cases h with
  | number _ =>
      obtain ⟨rfl, -⟩ := List.append_inj' (hus.trans (List.nil_append _).symm) rfl
      exact absurd rfl hne
  | group _ _ hr =>
      rw [← List.cons_append] at hus
      obtain ⟨-, heq⟩ := List.append_inj' hus rfl
      exact List.singleton_inj.mp heq ▸ hr
  | _ => cases hx

/-- A rule that takes tokens for a value takes a number or a closing parenthesis last. -/
theorem Reads.exists_concat {v : Value} (h : Reads r us rest (.ok v)) (hr : r ≠ expression) :
    us = [] ∨ ∃ us' t, us = us' ++ [t] ∧ (t.kind = .number ∨ t.kind = .rightParen) := by
  generalize hx : Except.ok v = x at h
  induction h generalizing v with
  | empty | whole => exact absurd rfl hr
  | @first level us _ _ _ _ _ _ ih₁ ih₂ =>
      rcases ih₂ (by simp) hx with rfl | ⟨vs', t, rfl, ht⟩
      · rw [List.append_nil]
        exact ih₁ level.operand_ne_expression rfl
      · exact .inr ⟨us ++ vs', t, (List.append_assoc _ _ _).symm, ht⟩
  | closes => exact .inl rfl
  | @next level _ _ _ _ t us _ _ _ _ hop _ _ ih₁ ih₂ =>
      rcases ih₂ (by simp) hx with rfl | ⟨vs', t', rfl, ht'⟩
      · rcases ih₁ level.operand_ne_expression rfl with rfl | ⟨us', t', rfl, ht'⟩
        · exact absurd (hop.length_pos level.operand_ne_rest) (Nat.lt_irrefl 0)
        · exact .inr ⟨t :: us', t', by simp, ht'⟩
      · exact .inr ⟨t :: (us ++ vs'), t', by simp, ht'⟩
  | number hk => exact .inr ⟨[], _, rfl, .inl hk⟩
  | @group l _ us _ _ _ _ hclose => exact .inr ⟨l :: us, _, rfl, .inr hclose⟩
  | _ => cases hx

/-- The operand in front of an end, when a token stands in the place of the end: it is read as
before, unless the end closed it and it is a chain itself. -/
theorem Reads.operand_at_end {level : Level} {vs : List Token} {m : Token} {left : Value}
    (h : Reads level.operand us (vs ++ [m]) (.ok left))
    (hchain : vs = [] → level.operand ≠ primary →
      Reads level.operand (us ++ [t]) rest (.error t.unexpected)) :
    Reads level.operand us ((vs ++ [t]) ++ rest) (.ok left) ∨
      vs = [] ∧ Reads level.operand (us ++ [t]) rest (.error t.unexpected) := by
  cases vs with
  | cons v vs => exact .inl (h.of_head? fun _ ht => ht)
  | nil =>
      cases level with
      | sum => exact .inr ⟨rfl, hchain rfl (by simp [Level.operand])⟩
      | product => exact .inl (h.primary_in_front _)

/-- **A chain that is complete fails on a number behind it**: where a mark for the end closes it, a
number is misplaced. Induction over what is read; of a chain that ends in a chain, the inner one
fails already. -/
theorem Reads.strays_at_end {m : Token} {v : Value} (h : Reads r us [m] (.ok v))
    (hr : r ≠ expression) (hr' : r ≠ primary) (ht : t.kind = .number) (rest : List Token) :
    Reads r (us ++ [t]) rest (.error t.unexpected) := by
  generalize hts : [m] = ts at h
  generalize hx : Except.ok v = x at h
  induction h generalizing v with
  | empty | whole => exact absurd rfl hr
  | @first level us vs _ _ _ hop _ ih₁ ih₂ =>
      subst hts
      have hrest := ih₂ (by simp) (by simp) rfl hx
      rw [List.append_assoc]
      have hchain : vs = [] → level.operand ≠ primary → _ := fun hvs hne =>
        ih₁ level.operand_ne_expression hne (by rw [hvs, List.nil_append]) rfl
      rcases hop.operand_at_end hchain with hop' | ⟨rfl, hop'⟩
      · exact .first hop' hrest
      · exact .firstFails hop'
  | @closes level => exact .strays (by rw [ht]; cases level <;> rfl)
  | @next level _ _ _ _ _ us vs _ _ hk hop happly _ ih₁ ih₂ =>
      subst hts
      have hrest := ih₂ (by simp) (by simp) rfl hx
      rw [List.cons_append, List.append_assoc]
      have hchain : vs = [] → level.operand ≠ primary → _ := fun hvs hne =>
        ih₁ level.operand_ne_expression hne (by rw [hvs, List.nil_append]) rfl
      rcases hop.operand_at_end hchain with hop' | ⟨rfl, hop'⟩
      · exact .next hk hop' happly hrest
      · exact .nextFails hk hop'
  | number | group => exact absurd rfl hr'
  | _ => cases hx

end Rule

/-! ### Runs up to the end of a sequence -/

namespace Cursor

variable {ts us : List Token} {t l m : Token} {i : Nat} {v : Value}

/-- What an operand takes for its value are tokens of the sequence, up to where it leaves the
cursor, or all that there are and some copies of the last one. -/
theorem exists_run_primary (hlast : ts.getLast? = some t) (ho : t.kind ≠ .leftParen)
    (hi : i < ts.length) :
    ∃ x k, (ofListAt ts i).run .primary = some (x, ofListAt ts k) ∧ k ≤ ts.length ∧
      ∀ v, x = .ok v → ∃ d,
        Rule.primary.Reads (ts.extract i k ++ List.replicate d t) [] (.ok v) ∧
          (0 < d → t.kind = .rightParen ∧ k = ts.length) := by
  have hkind : (ofListAt ts i).lastKind? ≠ some .leftParen := by
    rw [lastKind?, tokens_ofListAt, hlast]
    simpa using ho
  obtain ⟨x, c, hrun, htok, -⟩ := Rule.settles (r := .primary) hkind (Rule.calls_le _ _)
  rw [tokens_ofListAt] at htok
  cases x with
  | error e =>
      obtain ⟨k, hk, rfl⟩ := exists_ofListAt_of_tokens htok
      exact ⟨_, k, hrun, hk, fun v hv => by cases hv⟩
  | ok v =>
      obtain ⟨us, m, hus, hread⟩ := Rule.exists_reads_exhausted hlast htok hrun
      rcases List.append_eq_append_iff.mp hus with ⟨ws, hws, -⟩ | ⟨ws, rfl, hcopies⟩
      · -- The last token counts once at most.
        have hdrop : ts.drop i = us ++ ws := hws
        have hextract : ts.extract i (i + us.length) = us := by
          simpa using extract_of_drop [] hdrop
        have hlen := congrArg List.length hdrop
        rw [List.length_drop, List.length_append] at hlen
        refine ⟨.ok v, i + us.length, run_ofListAt (hread.primary_in_front ws) hdrop, by omega, ?_⟩
        rintro _ ⟨⟩
        refine ⟨0, ?_, fun h => absurd h (Nat.lt_irrefl 0)⟩
        rw [hextract, List.replicate_zero, List.append_nil]
        exact hread.primary_in_front []
      · -- The whole sequence is taken, and what is taken besides are copies.
        obtain ⟨d, rfl⟩ : ∃ d, ws = List.replicate d t :=
          ⟨_, List.eq_replicate_of_mem fun u hu =>
            List.eq_of_mem_replicate (hcopies ▸ List.mem_append_left _ hu)⟩
        have hread' := hread.primary_in_front []
        have hend := hread'.runFor_exhausted hlast rfl (Nat.le_refl _)
        obtain rfl : c = ofListAt ts ts.length :=
          congrArg Prod.snd (Rule.runFor_unique hrun hend)
        refine ⟨.ok v, ts.length, hrun, Nat.le_refl _, ?_⟩
        rintro _ ⟨⟩
        refine ⟨d, ?_, fun hd => ⟨?_, rfl⟩⟩
        · have hextract : ts.extract i ts.length = ts.drop i := by
            rw [List.extract_eq_take_drop, ← List.length_drop, List.take_length]
          rw [hextract]
          exact hread'
        · obtain ⟨d, rfl⟩ := Nat.exists_eq_succ_of_ne_zero (Nat.pos_iff_ne_zero.mp hd)
          rw [List.replicate_succ', ← List.append_assoc] at hread'
          refine hread'.kind_eq_of_concat ?_
          have hne : ts.drop i ≠ [] := by
            rw [ne_eq, List.drop_eq_nil_iff]
            omega
          simp [ofListAt, hne]

/-- A group that the end of the sequence leaves open is read with one copy of the last token. A
closing parenthesis closes it, too, and a number is misplaced in it. -/
theorem run_open_group (hlast : ts.getLast? = some t) (hl : l.kind = .leftParen)
    (hm : m.kind = .endMark) (hread : (Rule.chain .sum).Reads us [m] (.ok v))
    (hdrop : ts.drop i = l :: us) :
    (ofListAt ts i).run .primary =
      some (if t.kind = .rightParen then .ok v else .error t.unexpected,
        ofListAt ts ts.length) := by
  have hcopy : l :: (us ++ [t]) = ts.drop i ++ List.replicate 1 t := by rw [hdrop]; rfl
  have hbudget : Rule.primary.calls (l :: (us ++ [t])).length ≤ (ofListAt ts i).budget := by
    rw [hcopy, List.length_append, List.length_replicate]
    simp only [Rule.calls, budget, ofListAt]
    omega
  have hgroup : Rule.primary.Reads (l :: (us ++ [t])) []
      (if t.kind = .rightParen then .ok v else .error t.unexpected) := by
    by_cases hr : t.kind = .rightParen
    · rw [if_pos hr]
      have hsum : (Rule.chain .sum).Reads us ([] ++ [t]) (.ok v) := hread.of_end_left hm hr []
      exact .group hl hsum hr
    · rw [if_neg hr]
      refine .groupFails hl (hread.strays_at_end (by simp) (by simp) ?_ [])
      rcases hread.exists_concat (by simp) with rfl | ⟨us', t', rfl, hk⟩
      · exact absurd (hread.length_pos (by simp)) (Nat.lt_irrefl 0)
      · rw [← List.take_append_drop i ts, hdrop, ← List.cons_append, ← List.append_assoc,
          List.getLast?_concat] at hlast
        obtain rfl := Option.some.inj hlast
        exact hk.resolve_right hr
  exact hgroup.runFor_exhausted hlast hcopy hbudget

/-- **Operands at the end of a sequence without a mark.** Over a sequence that does not end with
an opening parenthesis, an operand that begins in front of a token has an outcome. What it takes
for a value is balanced when the last token of the sequence is counted `d` times more: as many
closing parentheses are lacking, and none is unless the sequence ends with one and the operand
ends behind it.

A group whose chain is complete where the sequence ends is closed by the last token if that is a
closing parenthesis, for the second time, and fails on it if it is a number. It is found to
be unmatched where the mark for the end is there to be found. -/
theorem run_exhausted {ts : List Token} {t : Token} {i : Nat} (hlast : ts.getLast? = some t)
    (ho : t.kind ≠ .leftParen) (hi : i < ts.length) :
    (∃ x k, (ofListAt ts i).run .primary = some (x, ofListAt ts k) ∧ k ≤ ts.length ∧
      ∀ v, x = .ok v → ∃ d, Token.Balanced (ts.extract i k ++ List.replicate d t) ∧
        ((ts.extract i k).map Token.kind).count .leftParen =
          ((ts.extract i k).map Token.kind).count .rightParen + d ∧
        (0 < d → t.kind = .rightParen ∧ k = ts.length)) ∧
    ∀ (l m : Token) (us : List Token) (v : Value), l.kind = .leftParen → m.kind = .endMark →
      (ofList (us ++ [m])).run (.chain .sum) =
        some (.ok v, ofListAt (us ++ [m]) us.length) →
      (ts.drop i = l :: us →
        (ofListAt ts i).run .primary =
          some (if t.kind = .rightParen then .ok v else .error t.unexpected,
            ofListAt ts ts.length)) ∧
      (ts.drop i = l :: (us ++ [m]) →
        (ofListAt ts i).run .primary = some (.error m.unmatched, ofListAt ts ts.length)) := by
  constructor
  · obtain ⟨x, k, hrun, hk, htaken⟩ := exists_run_primary hlast ho hi
    refine ⟨x, k, hrun, hk, fun v hv => ?_⟩
    obtain ⟨d, hread, hd⟩ := htaken v hv
    refine ⟨d, hread.balanced, ?_, hd⟩
    have hcount := hread.balanced.count_eq
    rcases Nat.eq_zero_or_pos d with rfl | hpos
    · simpa using hcount
    · rw [List.map_append, List.map_replicate, (hd hpos).1, List.count_append, List.count_append,
        List.count_replicate_self, List.count_replicate, if_neg (by decide)] at hcount
      exact hcount
  · intro l m us v hl hm hsum
    have hread : (Rule.chain .sum).Reads us [m] (.ok v) := by
      have hend : Terminated (us ++ [m]) := by simp [Terminated, hm]
      have hplace : ofListAt (us ++ [m]) us.length = ⟨us.reverse, [m]⟩ := by simp [ofListAt]
      obtain ⟨us', vs, -, hc, hread⟩ := (run_eq_some_iff (c := ofList (us ++ [m])) hend).mp hsum
      obtain ⟨hus, rfl⟩ := Cursor.mk.inj (hplace.symm.trans hc)
      obtain rfl : us = us' := List.reverse_inj.mp (hus.trans (List.append_nil _))
      exact hread
    refine ⟨run_open_group hlast hl hm hread, fun hdrop => ?_⟩
    have hgroup : Rule.primary.Reads (l :: (us ++ [m])) [] (.error m.unmatched) :=
      .unmatched hl hread (by simp [hm])
    have hlen := congrArg List.length hdrop
    rw [List.length_drop] at hlen
    have hend : i + (l :: (us ++ [m])).length = ts.length := by omega
    rw [run_ofListAt hgroup (by rw [hdrop, List.append_nil]), hend]

/-- In `((1)` the one closing parenthesis closes both groups, and is lacking once. -/
theorem run_exhausted_twice :
    ([⟨.leftParen, "(", 0⟩, ⟨.leftParen, "(", 1⟩, ⟨.number, "1", 2⟩,
        ⟨.rightParen, ")", 3⟩] : List Token).getLast? = some ⟨.rightParen, ")", 3⟩ ∧
      (ofList [⟨.leftParen, "(", 0⟩, ⟨.leftParen, "(", 1⟩, ⟨.number, "1", 2⟩,
          ⟨.rightParen, ")", 3⟩]).run .primary =
        some (.ok 1, ofListAt [⟨.leftParen, "(", 0⟩, ⟨.leftParen, "(", 1⟩, ⟨.number, "1", 2⟩,
          ⟨.rightParen, ")", 3⟩] 4) ∧
      ∃ k d, k ≤ 4 ∧
        Token.Balanced ([⟨.leftParen, "(", 0⟩, ⟨.leftParen, "(", 1⟩, ⟨.number, "1", 2⟩,
          ⟨.rightParen, ")", 3⟩].extract 0 k ++ List.replicate d ⟨.rightParen, ")", 3⟩) := by
  refine ⟨rfl, ?_⟩
  obtain ⟨⟨x, k, hrun, hk, htaken⟩, hopen⟩ :=
    @run_exhausted [⟨.leftParen, "(", 0⟩, ⟨.leftParen, "(", 1⟩, ⟨.number, "1", 2⟩,
      ⟨.rightParen, ")", 3⟩] ⟨.rightParen, ")", 3⟩ 0 rfl (by decide) (by decide)
  obtain rfl : x = .ok 1 := (congrArg Prod.fst (Option.some.inj hrun)).symm
  obtain ⟨d, hbalanced, -⟩ := htaken 1 rfl
  exact ⟨(hopen ⟨.leftParen, "(", 0⟩ (Token.endAt 4) _ 1 rfl rfl rfl).1 rfl, k, d, hk, hbalanced⟩

/-- So an operand may take fewer closing parentheses than opening ones for its value. -/
theorem not_forall_run_balanced :
    ¬∀ (ts : List Token) (i k : Nat) (v : Value),
      ts.getLast?.map Token.kind ≠ some .leftParen → i < ts.length → k ≤ ts.length →
      (ofListAt ts i).run .primary = some (.ok v, ofListAt ts k) →
        ((ts.extract i k).map Token.kind).count .rightParen =
          ((ts.extract i k).map Token.kind).count .leftParen := by
  intro h
  have hcount := h [⟨.leftParen, "(", 0⟩, ⟨.leftParen, "(", 1⟩, ⟨.number, "1", 2⟩,
    ⟨.rightParen, ")", 3⟩] 0 4 1 (by decide) (by decide) (by decide) rfl
  exact absurd hcount (by decide)

/-- In `(1` it is the number that the group fails on. -/
example : (ofList [⟨.leftParen, "(", 0⟩, ⟨.number, "1", 1⟩]).run .primary =
    some (.error ⟨.unexpectedToken "1", 1⟩, ofListAt [⟨.leftParen, "(", 0⟩, ⟨.number, "1", 1⟩] 2) :=
  rfl

end Cursor

end Abacus
