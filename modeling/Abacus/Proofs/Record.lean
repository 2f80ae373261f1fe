import Abacus.Rule.Budget

/-!
# Runs over other sources

A rule learns nothing of a source but the tokens that it hands out. So a run over one source is
also a run over every other that hands out the same tokens, move by move, and what every move of
a source keeps is kept by the run.

One such source is a cursor that writes down its moves. The record tells what happened within a
run, where the outcome tells only where it ended.

## Main results

* `Rule.runFor_alike`: over sources that keep in step, runs come to the same, in step still.
* `Rule.exists_recorded`: a run over a cursor can be recorded, and what every recorded move keeps
  holds of the whole record.
-/

namespace Abacus

open TokenSource

/-! ### Sources in step -/

section InStep

variable {σ τ α β : Type}

/-- A relation in which sources stay however they are moved, handing out the same tokens. -/
structure InStep [TokenSource σ] [TokenSource τ] (R : σ → τ → Prop) : Prop where
  token_eq : ∀ {s t}, R s t → (advance s).1 = (advance t).1
  forth : ∀ {s t}, R s t → R (advance s).2 (advance t).2
  back : ∀ {s t}, R s t → R (retreat s) (retreat t)

namespace Reading

/-- Two outcomes are alike: both missing, or the same with the sources left in a relation. -/
def Alike (R : σ → τ → Prop) :
    Option (Except EvalError α × σ) → Option (Except EvalError α × τ) → Prop :=
  Option.Rel fun p q => p.1 = q.1 ∧ R p.2 q.2

variable {R : σ → τ → Prop}

theorem Alike.of_rel {s : σ} {t : τ} (x : Except EvalError α) (h : R s t) :
    Alike R (some (x, s)) (some (x, t)) :=
  .some ⟨rfl, h⟩

/-- Going on alike from outcomes that are alike. -/
theorem Alike.andThen {o : Option (Except EvalError α × σ)} {o' : Option (Except EvalError α × τ)}
    {f : α → σ → Option (Except EvalError β × σ)} {f' : α → τ → Option (Except EvalError β × τ)}
    (ho : Alike R o o') (hf : ∀ a s t, R s t → Alike R (f a s) (f' a t)) :
    Alike R (andThen o f) (andThen o' f') := by
  cases ho with
  | none => exact .none
  | @some p q h =>
    obtain ⟨x, s⟩ := p
    obtain ⟨_, t⟩ := q
    obtain ⟨rfl, hst⟩ := h
    cases x with
    | error e => exact .of_rel _ hst
    | ok a => exact hf a s t hst

/-- An outcome that is alike to a given one. -/
theorem Alike.exists_eq_some {o : Option (Except EvalError α × σ)}
    {o' : Option (Except EvalError α × τ)} {x : Except EvalError α} {s : σ} (h : Alike R o o')
    (ho : o = some (x, s)) : ∃ t, o' = some (x, t) ∧ R s t := by
  subst ho
  cases h with
  | @some _ q h =>
    obtain ⟨_, t⟩ := q
    obtain ⟨rfl, hst⟩ := h
    exact ⟨t, rfl, hst⟩

end Reading

open Reading

/-- Over sources that keep in step, a rule comes to the same outcome within the same budget, and
leaves the sources in step. -/
theorem Rule.runFor_alike [TokenSource σ] [TokenSource τ] {R : σ → τ → Prop} (hR : InStep R)
    (n : Nat) (r : Rule) {s : σ} {t : τ} (hst : R s t) :
    Alike R (runFor n r s) (runFor n r t) := by
  induction n generalizing r s t with
  | zero =>
    rw [runFor_zero, runFor_zero]
    exact .none
  | succ n ih =>
    have heq := hR.token_eq hst
    have hforth := hR.forth hst
    cases r with
    | expression =>
      by_cases hk : (advance s).1.kind = .endMark
      · rw [runFor_expression_end hk, runFor_expression_end (heq ▸ hk)]
        exact .of_rel _ hforth
      · rw [runFor_expression hk, runFor_expression (heq ▸ hk)]
        exact ih _ (hR.back hforth)
    | chain level =>
      rw [runFor_chain, runFor_chain]
      exact (ih _ hst).andThen fun left _ _ => ih _
    | rest level left =>
      cases hk : level.role (advance s).1.kind with
      | joins op =>
        rw [runFor_rest_joins hk, runFor_rest_joins (heq ▸ hk), ← heq]
        exact (ih _ hforth).andThen fun right _ _ hst' =>
          (Alike.of_rel _ hst').andThen fun value _ _ => ih _
      | closes =>
        rw [runFor_rest_closes hk, runFor_rest_closes (heq ▸ hk)]
        exact .of_rel _ (hR.back hforth)
      | strays =>
        rw [runFor_rest_strays hk, runFor_rest_strays (heq ▸ hk), ← heq]
        exact .of_rel _ hforth
    | primary =>
      by_cases hn : (advance s).1.kind = .number
      · rw [runFor_primary_number hn, runFor_primary_number (heq ▸ hn), ← heq]
        exact .of_rel _ hforth
      · by_cases hp : (advance s).1.kind = .leftParen
        · rw [runFor_primary_leftParen hp, runFor_primary_leftParen (heq ▸ hp)]
          refine (ih _ hforth).andThen fun value s' t' hst' => ?_
          rw [← hR.token_eq hst']
          split
          · exact .of_rel _ (hR.forth hst')
          · exact .of_rel _ (hR.forth hst')
        · rw [runFor_primary_unexpected hn hp,
            runFor_primary_unexpected (heq ▸ hn) (heq ▸ hp), ← heq]
          exact .of_rel _ hforth

end InStep

/-! ### Recorded moves -/

/-- A move of a cursor, with the index from which it is made. -/
inductive Motion
  | forth (index : Nat)
  | back (index : Nat)
deriving DecidableEq, Repr

/-- The index from which a move is made. -/
def Motion.start : Motion → Nat
  | forth index | back index => index

/-- A cursor with the record of its moves, the latest first. -/
structure Recorder where
  cursor : Cursor
  record : List Motion
deriving DecidableEq, Repr

namespace Recorder

instance : TokenSource Recorder where
  advance s := (s.cursor.advance.1, ⟨s.cursor.advance.2, .forth s.cursor.index :: s.record⟩)
  retreat s := ⟨s.cursor.retreat, .back s.cursor.index :: s.record⟩

/-- A cursor keeps in step with its recorder, and whatever every recorded move keeps holds. -/
theorem inStep {P : Recorder → Prop} (hforth : ∀ s, P s → P (advance s).2)
    (hback : ∀ s, P s → P (retreat s)) :
    InStep fun (c : Cursor) (s : Recorder) => c = s.cursor ∧ P s where
  token_eq := by
    rintro _ s ⟨rfl, -⟩
    rfl
  forth := by
    rintro _ s ⟨rfl, hs⟩
    exact ⟨rfl, hforth s hs⟩
  back := by
    rintro _ s ⟨rfl, hs⟩
    exact ⟨rfl, hback s hs⟩

end Recorder

/-- A run over a cursor can be recorded, and what every recorded move keeps holds of the record
of the whole run. -/
theorem Rule.exists_recorded {P : Recorder → Prop} (hforth : ∀ s, P s → P (advance s).2)
    (hback : ∀ s, P s → P (retreat s)) {n : Nat} {r : Rule} {s : Recorder} {c' : Cursor}
    {x : Except EvalError Value} (hrun : runFor n r s.cursor = some (x, c')) (hs : P s) :
    ∃ record, runFor n r s = some (x, ⟨c', record⟩) ∧ P ⟨c', record⟩ := by
  have halike := runFor_alike (Recorder.inStep hforth hback) n r ⟨rfl, hs⟩
  obtain ⟨⟨_, record⟩, hrun', rfl, hP⟩ := halike.exists_eq_some hrun
  exact ⟨record, hrun', hP⟩

end Abacus
