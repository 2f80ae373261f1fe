import Abacus.Proofs.Reads

/-!
# Evaluation is local

A rule knows nothing of what its cursor has passed, and little of what lies ahead: it looks
at the tokens that it takes and, where it puts one back, at that one. So a run can be moved.
Started at any place of any other sequence where the same tokens stand, it comes to the same
outcome and goes equally far. The other sequence need not be terminated; it may even end with
an opening parenthesis, in front of which other runs have no outcome.

The tokens passed do not occur in `Rule.Reads`, so one half of this is there already. The
other half is that of the tokens left only the first can matter.

## Main results

* `Rule.Reads.of_closesAs`: what a rule reads does not depend on what it leaves, but for the first
  token of it, and on that only by the chains that it closes.
* `Cursor.run_local`: the same for runs, with the places of the cursor.
-/

namespace Abacus

/-- The sequence `ts'` goes on where `ts` does, with a token that closes every chain that the
token there closes. -/
def ClosesAs (ts ts' : List Token) : Prop :=
  ∀ t ∈ ts.head?, ∃ t' ∈ ts'.head?, ∀ level : Level,
    level.role t.kind = .closes → level.role t'.kind = .closes

/-- Behind the same tokens, too, the one sequence goes on as the other does. -/
theorem ClosesAs.behind {ts ts' : List Token} (h : ClosesAs ts ts') (vs : List Token) :
    ClosesAs (vs ++ ts) (vs ++ ts') := by
  cases vs with
  | nil => exact h
  | cons v vs => exact fun t ht => ⟨t, ht, fun _ => id⟩

namespace Rule

/-- **Of the tokens left only the first matters**, and that only as far as it closes chains.
Induction over what is read. What a step leaves are the tokens of the next step and, behind them,
those left at the end; only the token that closes a chain is looked at and not taken. -/
theorem Reads.of_closesAs {r : Rule} {us ts ts' : List Token} {x : Except EvalError Value}
    (h : Reads r us ts x) (hhead : ClosesAs ts ts') : Reads r us ts' x := by
  induction h generalizing ts' with
  | empty hk => exact .empty hk
  | whole hk _ ih => exact .whole hk (ih hhead)
  | firstFails _ ih => exact .firstFails (ih hhead)
  | @first _ _ vs _ _ _ _ _ ih₁ ih₂ => exact .first (ih₁ (hhead.behind vs)) (ih₂ hhead)
  | @closes level _ t _ hk =>
      obtain ⟨t', ht', hclose⟩ := hhead t rfl
      obtain ⟨ts', rfl⟩ := List.head?_eq_some_iff.mp ht'
      exact .closes (hclose level hk)
  | strays hk => exact .strays hk
  | nextFails hk _ ih => exact .nextFails hk (ih hhead)
  | applyFails hk _ hop ih => exact .applyFails hk (ih hhead) hop
  | @next _ _ _ _ _ _ _ vs _ _ hk _ hop _ ih₁ ih₂ =>
      exact .next hk (ih₁ (hhead.behind vs)) hop (ih₂ hhead)
  | number hk => exact .number hk
  | misplaced hn hl => exact .misplaced hn hl
  | groupFails hl _ ih => exact .groupFails hl (ih hhead)
  | @group _ r _ _ _ hl _ hr ih => exact .group hl (ih (hhead.behind [r])) hr
  | @unmatched _ r _ _ _ hl _ hr ih => exact .unmatched hl (ih (hhead.behind [r])) hr

/-- In particular, where the same token is left first, the same is read. -/
theorem Reads.of_head? {r : Rule} {us ts ts' : List Token} {x : Except EvalError Value}
    (h : Reads r us ts x) (hhead : ∀ t ∈ ts.head?, t ∈ ts'.head?) : Reads r us ts' x :=
  h.of_closesAs fun t ht => ⟨t, hhead t ht, fun _ => id⟩

end Rule

namespace Cursor

variable {ts us rest : List Token} {i : Nat}

/-- The cursor behind the tokens that were taken from a place. -/
theorem ofListAt_add (h : ts.drop i = us ++ rest) :
    ofListAt ts (i + us.length) = ⟨us.reverse ++ (ofListAt ts i).passed, rest⟩ := by
  have htake : (ts.drop i).take us.length = us := by rw [h, List.take_left]
  have hdrop : (ts.drop i).drop us.length = rest := by rw [h, List.drop_left]
  rw [ofListAt, ofListAt, List.take_add, htake, List.reverse_append, ← List.drop_drop, hdrop]

/-- A rule that reads the tokens at a place is run there, and left behind them. -/
theorem run_ofListAt {r : Rule} {x : Except EvalError Value} (hread : r.Reads us rest x)
    (h : ts.drop i = us ++ rest) :
    (ofListAt ts i).run r = some (x, ofListAt ts (i + us.length)) := by
  have hplace : ofListAt ts i = ⟨(ofListAt ts i).passed, us ++ rest⟩ := by
    rw [← h]
    rfl
  rw [hplace, run_of_reads hread, ofListAt_add h]

/-- Tokens that stand one by one at a place stand there together. -/
theorem exists_drop_eq_append (h : ∀ j, j < us.length → ts[i + j]? = us[j]?) :
    ∃ rest, ts.drop i = us ++ rest := by
  have hpre : us <+: ts.drop i := by
    rw [List.prefix_iff_getElem?]
    intro j hj
    rw [List.getElem?_drop, h j hj, List.getElem?_eq_getElem hj]
  obtain ⟨rest, hrest⟩ := hpre
  exact ⟨rest, hrest.symm⟩

/-- **A run is local.** In a terminated sequence every rule comes, from the index `i`, to an
outcome and to an index `k`. Wherever in a sequence the same tokens stand, up to the one at
`k` if there is one, the rule comes to the same outcome, and as many tokens further. -/
theorem run_local {ts : List Token} {i : Nat} (hend : Terminated ts) (hi : i < ts.length)
    (r : Rule) :
    ∃ x k, (ofListAt ts i).run r = some (x, ofListAt ts k) ∧ i ≤ k ∧ k ≤ ts.length ∧
      ∀ ts' i', (∀ j, i + j ≤ min k (ts.length - 1) → ts'[i' + j]? = ts[i + j]?) →
        i' + (k - i) ≤ ts'.length ∧
          (ofListAt ts' i').run r = some (x, ofListAt ts' (i' + (k - i))) := by
  have hne : ts.drop i ≠ [] := by
    rw [ne_eq, List.drop_eq_nil_iff]
    omega
  have hsplit : Terminated (ts.take i ++ ts.drop i) := by rwa [List.take_append_drop]
  obtain ⟨us, rest, x, hus, hread⟩ := Rule.exists_reads (hsplit.of_append hne) r
  have hlen : ts.length - i = us.length + rest.length := by
    rw [← List.length_drop, hus, List.length_append]
  have hat : ∀ j, ts[i + j]? = (us ++ rest)[j]? := fun j => by rw [← hus, List.getElem?_drop]
  refine ⟨x, i + us.length, run_ofListAt hread hus, by omega, by omega, ?_⟩
  intro ts' i' hagree
  -- The tokens taken stand at `i'`, and so does the one behind them, if there is one.
  obtain ⟨rest', hus'⟩ : ∃ rest', ts'.drop i' = us ++ rest' := by
    refine exists_drop_eq_append fun j hj => ?_
    rw [hagree j (by omega), hat, List.getElem?_append_left hj]
  have hhead : ∀ t ∈ rest.head?, t ∈ rest'.head? := by
    intro t ht
    obtain ⟨rest, rfl⟩ := List.head?_eq_some_iff.mp ht
    have hpos : us.length < (ts.drop i).length := by simp [hus]
    rw [List.length_drop] at hpos
    have hnext := hagree us.length (by omega)
    rw [hat, ← List.getElem?_drop, hus', List.getElem?_append_right (Nat.le_refl _),
      List.getElem?_append_right (Nat.le_refl _), Nat.sub_self] at hnext
    rwa [List.head?_eq_getElem?]
  have hin : i' < ts'.length := by
    have hfirst := hagree 0 (by omega)
    rw [Nat.add_zero, Nat.add_zero, List.getElem?_eq_getElem hi] at hfirst
    exact (List.getElem?_eq_some_iff.mp hfirst).1
  have hlen' : ts'.length - i' = us.length + rest'.length := by
    rw [← List.length_drop, hus', List.length_append]
  rw [Nat.add_sub_cancel_left]
  exact ⟨by omega, run_ofListAt (hread.of_head? hhead) hus'⟩

/-- The group in `-(1)2` is read alike where the sequence ends with an opening parenthesis. -/
theorem run_local_group :
    ∃ x, (ofListAt [⟨.operator .sub, "-", 0⟩, ⟨.leftParen, "(", 1⟩, ⟨.number, "1", 2⟩,
        ⟨.rightParen, ")", 3⟩, ⟨.number, "2", 4⟩, Token.endAt 5] 1).run .primary =
        some (x, ofListAt [⟨.operator .sub, "-", 0⟩, ⟨.leftParen, "(", 1⟩, ⟨.number, "1", 2⟩,
          ⟨.rightParen, ")", 3⟩, ⟨.number, "2", 4⟩, Token.endAt 5] 4) ∧
      (ofListAt [⟨.leftParen, "(", 1⟩, ⟨.number, "1", 2⟩, ⟨.rightParen, ")", 3⟩,
        ⟨.number, "2", 4⟩, ⟨.leftParen, "(", 9⟩] 0).run .primary =
        some (x, ofListAt [⟨.leftParen, "(", 1⟩, ⟨.number, "1", 2⟩, ⟨.rightParen, ")", 3⟩,
          ⟨.number, "2", 4⟩, ⟨.leftParen, "(", 9⟩] 3) := by
  obtain ⟨x, k, hrun, -, hk, hlocal⟩ :=
    @run_local [⟨.operator .sub, "-", 0⟩, ⟨.leftParen, "(", 1⟩, ⟨.number, "1", 2⟩,
      ⟨.rightParen, ")", 3⟩, ⟨.number, "2", 4⟩, Token.endAt 5] 1 (by decide) (by decide) .primary
  obtain rfl : k = 4 := by
    have hplace := congrArg index (Prod.mk.inj (Option.some.inj hrun)).2
    rw [index_ofListAt hk] at hplace
    exact hplace.symm
  refine ⟨x, hrun, (hlocal _ 0 ?_).2⟩
  intro j hj
  match j with
  | 0 | 1 | 2 | 3 => rfl
  | j + 4 =>
      simp only [List.length_cons, List.length_nil] at hj
      omega

end Cursor

end Abacus
