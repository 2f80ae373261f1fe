import Abacus.Proofs.Checked
import Abacus.Proofs.Reads

/-!
# Syntax by one counter

Whether tokens make an expression can be told from left to right with one number, the
count of open groups, and one of two modes: an operand is due, or an operator. This module
defines that scan and proves that evaluation judges as it does. The rules call each other
once for each open group; the scan knows only how many there are.

The two can part in one way. Evaluation works out values as it goes, so a number that is
malformed, a zero divisor or an overflow stops it before it gets to the token that the scan
objects to, or to the end of what the scan accepts.

## Main results

* `Rule.Reads.explained`: every token that a rule takes without failing the scan passes,
  and where a rule objects to a token the scan does; one case for each way a rule ends.
* `evaluate_agrees_scan`: evaluation from the start of a terminated sequence gives the
  verdict of the scan, or an arithmetic failure blamed on a token in front of it.
-/

namespace Abacus

namespace Scan

/-- What is due next. -/
inductive Mode
  | operand
  | operator
deriving DecidableEq, Repr

/-- How many groups are open, and what is due. -/
structure State where
  depth : Nat
  mode : Mode
deriving DecidableEq, Repr

/-- No group is open, and an operand is due. -/
def State.start : State :=
  ⟨0, .operand⟩

/-- What may be wrong with a token. -/
inductive Fault
  | unexpectedToken
  | unmatchedParen
deriving DecidableEq, Repr

/-- The error for a token that something is wrong with. -/
def Fault.error : Fault → Token → EvalError
  | unexpectedToken, t => ⟨.unexpectedToken t.text, t.position⟩
  | unmatchedParen, t => ⟨.unmatchedParen t.text, t.position⟩

/-- How a scan ends. -/
inductive Verdict
  | accepts
  | rejects (fault : Fault)
deriving DecidableEq, Repr

/-- What one token does to a scan. -/
inductive Step
  | moves (s : State)
  | halts (verdict : Verdict)
deriving DecidableEq, Repr

/-- The step of the scan at a token of the kind. -/
def step : State → Token.Kind → Step
  | ⟨depth, .operand⟩, .number => .moves ⟨depth, .operator⟩
  | ⟨depth, .operand⟩, .leftParen => .moves ⟨depth + 1, .operand⟩
  | ⟨_, .operand⟩, _ => .halts (.rejects .unexpectedToken)
  | ⟨depth, .operator⟩, .operator _ => .moves ⟨depth, .operand⟩
  | ⟨depth + 1, .operator⟩, .rightParen => .moves ⟨depth, .operator⟩
  | ⟨0, .operator⟩, .rightParen => .halts .accepts
  | ⟨0, .operator⟩, .endMark => .halts .accepts
  | ⟨_ + 1, .operator⟩, .endMark => .halts (.rejects .unmatchedParen)
  | ⟨_, .operator⟩, _ => .halts (.rejects .unexpectedToken)

/-- The index of the token that ends the scan, and the verdict there. -/
def run : State → List Token → Option (Nat × Verdict)
  | _, [] => none
  | s, t :: ts =>
    match step s t.kind with
    | .moves s' => (run s' ts).map fun o => (o.1 + 1, o.2)
    | .halts verdict => some (0, verdict)

/-- The scan passes all the tokens, from the first state to the second. -/
inductive Passes : State → List Token → State → Prop
  | nil {s : State} : Passes s [] s
  | cons {s s' s'' : State} {t : Token} {us : List Token} :
      step s t.kind = .moves s' → Passes s' us s'' → Passes s (t :: us) s''

variable {s s' s'' : State} {t : Token} {us vs ts : List Token}

/-- A token that is passed counts one. -/
theorem run_cons_moves (h : step s t.kind = .moves s') (ts : List Token) :
    run s (t :: ts) = (run s' ts).map fun o => (o.1 + 1, o.2) := by
  rw [run, h]

/-- A token that halts the scan ends it there. -/
theorem run_cons_halts {verdict : Verdict} (h : step s t.kind = .halts verdict)
    (ts : List Token) : run s (t :: ts) = some (0, verdict) := by
  rw [run, h]

/-- One token is passed in one step. -/
theorem Passes.single (h : step s t.kind = .moves s') : Passes s [t] s' :=
  .cons h .nil

/-- Passing goes on from where it has come to. -/
theorem Passes.append (h : Passes s us s') (h' : Passes s' vs s'') : Passes s (us ++ vs) s'' := by
  induction h with
  | nil => exact h'
  | cons hstep _ ih => exact .cons hstep (ih h')

/-- Behind tokens that are passed the scan goes on, with their number counted in. -/
theorem Passes.run_append (h : Passes s us s') (ts : List Token) :
    run s (us ++ ts) = (run s' ts).map fun o => (o.1 + us.length, o.2) := by
  induction h with
  | nil => simp
  | @cons s _ _ t us hstep _ ih =>
      rw [List.cons_append, run_cons_moves hstep, ih, Option.map_map]
      rfl

/-- At a mark for the end every scan has ended. -/
theorem exists_halts_endMark (s : State) : ∃ v, step s .endMark = .halts v := by
  obtain ⟨_ | depth, _ | _⟩ := s <;> exact ⟨_, rfl⟩

/-- Every scan of a terminated sequence comes to a verdict. -/
theorem exists_run_eq_some (s : State) (hend : Terminated ts) :
    ∃ k verdict, run s ts = some (k, verdict) := by
  induction ts generalizing s with
  | nil => exact absurd rfl hend.ne_nil
  | cons t ts ih =>
      cases hstep : step s t.kind with
      | halts verdict => exact ⟨0, verdict, run_cons_halts hstep ts⟩
      | moves s' =>
          have hk : t.kind ≠ .endMark := by
            intro hk
            obtain ⟨v, hv⟩ := exists_halts_endMark s
            rw [hk, hv] at hstep
            cases hstep
          obtain ⟨k, verdict, hrun⟩ := ih s' (hend.of_cons hk)
          exact ⟨k + 1, verdict, by rw [run_cons_moves hstep, hrun, Option.map_some]⟩

end Scan

/-- The error is a failure of arithmetic, and the token is to blame for it: a number that is
malformed, an operator `/` whose divisor is zero, or an operator that overflows. -/
def EvalError.Blames (e : EvalError) (t : Token) : Prop :=
  e.position = t.position ∧
    (t.kind = .number ∧ e.cause = .malformedNumber t.text ∨
      t.kind = .operator .div ∧ e.cause = .divisionByZero ∨
      (∃ op, t.kind = .operator op) ∧ e.cause = .overflow)

/-- A number that has no value is to blame for that. -/
theorem Token.blames_of_literal {t : Token} {e : EvalError} (hk : t.kind = .number)
    (h : t.literal = .error e) : e.Blames t := by
  obtain ⟨-, rfl⟩ := Token.literal_eq_error_iff.mp h
  exact ⟨rfl, .inl ⟨hk, rfl⟩⟩

/-- An operator that has no result is to blame for that. -/
theorem Token.blames_of_applyAt {t : Token} {op : Operator} {a b : Value} {e : EvalError}
    (hk : t.kind = .operator op) (h : op.applyAt t.position a b = .error e) : e.Blames t := by
  rcases Operator.applyAt_eq_error_iff.mp h with ⟨⟨rfl, -⟩, rfl⟩ | ⟨-, -, rfl⟩
  · exact ⟨rfl, .inr (.inl ⟨hk, rfl⟩)⟩
  · exact ⟨rfl, .inr (.inr ⟨⟨op, hk⟩, rfl⟩)⟩

namespace Scan

/-- The scan from `s` explains the outcome of a rule that has taken `us`: with a value it
passes them all and comes to the depth `depth`, an operator due; with an error it objects to
the last of them as the error says, or passes them all and one of them is to blame. -/
def Explains (s : State) (us : List Token) (depth : Nat) : Except EvalError Value → Prop
  | .ok _ => Passes s us ⟨depth, .operator⟩
  | .error e =>
      (∃ us' t s' fault, us = us' ++ [t] ∧ Passes s us' s' ∧
        step s' t.kind = .halts (.rejects fault) ∧ e = fault.error t) ∨
      ∃ s', Passes s us s' ∧ ∃ t ∈ us, e.Blames t

variable {s s' : State} {us vs : List Token} {depth : Nat} {x : Except EvalError Value}
  {e : EvalError} {t : Token}

/-- What explains the outcome behind tokens that are passed explains it from in front. -/
theorem Passes.explains (h : Passes s us s') (h' : Explains s' vs depth x) :
    Explains s (us ++ vs) depth x := by
  cases x with
  | ok v => exact h.append h'
  | error e =>
      rcases h' with ⟨vs', t, s'', fault, rfl, hpass, hstep, he⟩ | ⟨s'', hpass, t, ht, he⟩
      · exact .inl ⟨us ++ vs', t, s'', fault, by simp, h.append hpass, hstep, he⟩
      · exact .inr ⟨s'', h.append hpass, t, List.mem_append_right us ht, he⟩

/-- An error is explained at whatever depth a value would have come to. -/
theorem Explains.error {depth' : Nat} (h : Explains s us depth (.error e)) :
    Explains s us depth' (.error e) :=
  h

/-- A token that the scan objects to explains the error for it. -/
theorem explains_fault {fault : Fault} (h : step s t.kind = .halts (.rejects fault)) :
    Explains s [t] depth (.error (fault.error t)) :=
  .inl ⟨[], t, s, fault, rfl, .nil, h, rfl⟩

end Scan

namespace Rule

open Scan

/-- What is due in front of a rule. -/
def due : Rule → Mode
  | rest _ _ => .operator
  | _ => .operand

/-- What stands in front of the rest of a sum is nothing that a product would have taken. -/
def Follows : Rule → List Token → Prop
  | rest .sum _, ts => ∃ t ts', ts = t :: ts' ∧ Level.product.role t.kind = .closes
  | _, _ => True

/-- What is left behind an operand follows it. -/
theorem Reads.follows {level : Level} {us ts : List Token} {v w : Value}
    (h : Reads level.operand us ts (.ok v)) : (rest level w).Follows ts := by
  cases level with
  | sum => exact h.stops
  | product => trivial

/-- What is explained of every rule but a whole expression is explained of operands. -/
theorem explains_operand {level : Level} {us ts : List Token} {x : Except EvalError Value}
    (h : level.operand ≠ expression → level.operand.Follows ts →
      ∀ depth, Explains ⟨depth, level.operand.due⟩ us depth x) (depth : Nat) :
    Explains ⟨depth, .operand⟩ us depth x := by
  cases level with
  | sum => exact h (Level.operand_ne_expression .sum) trivial depth
  | product => exact h (Level.operand_ne_expression .product) trivial depth

/-- Behind an operand the scan objects to what is misplaced there. -/
theorem step_of_strays {level : Level} {left : Value} {t : Token} {ts : List Token}
    {depth : Nat} (hk : level.role t.kind = .strays)
    (hf : (rest level left).Follows (t :: ts)) :
    step ⟨depth, .operator⟩ t.kind = .halts (.rejects .unexpectedToken) := by
  have hkind : t.kind = .number ∨ t.kind = .leftParen := by
    cases level with
    | sum =>
        obtain ⟨t', ts', heq, hclose⟩ := hf
        obtain ⟨rfl, -⟩ := List.cons.inj heq
        exact Level.eq_of_strays_of_closes hk hclose
    | product => exact Level.role_product_eq_strays_iff.mp hk
  rcases hkind with hk | hk <;> rw [hk] <;> cases depth <;> rfl

/-- Behind an operand the scan passes every operator of the chain. -/
theorem step_of_joins {level : Level} {t : Token} {op : Operator} {depth : Nat}
    (hk : level.role t.kind = .joins op) :
    step ⟨depth, .operator⟩ t.kind = .moves ⟨depth, .operand⟩ := by
  rw [(Level.role_eq_joins_iff.mp hk).1, step]

/-- In front of an operand the scan objects to all but numbers and opening parentheses. -/
theorem step_of_misplaced {t : Token} {depth : Nat} (hn : t.kind ≠ .number)
    (hl : t.kind ≠ .leftParen) :
    step ⟨depth, .operand⟩ t.kind = .halts (.rejects .unexpectedToken) := by
  rcases hk : t.kind with op | _ | _ | _ | _
  · rfl
  · exact absurd hk hl
  · rfl
  · exact absurd hk hn
  · rfl

/-- An opening parenthesis counts one deeper. -/
theorem step_of_leftParen {t : Token} {depth : Nat} (hl : t.kind = .leftParen) :
    step ⟨depth, .operand⟩ t.kind = .moves ⟨depth + 1, .operand⟩ := by
  rw [hl, step]

/-- **The scan explains every outcome of a rule.** Induction over what is read: each group
counts one deeper, and behind an operand an operator is due at the depth of the operand. -/
theorem Reads.explained {r : Rule} {us ts : List Token} {x : Except EvalError Value}
    (h : Reads r us ts x) (hr : r ≠ expression) (hf : r.Follows (us ++ ts)) (depth : Nat) :
    Explains ⟨depth, r.due⟩ us depth x := by
  induction h generalizing depth with
  | empty | whole => exact absurd rfl hr
  | firstFails _ ih => exact explains_operand ih depth
  | first hop _ ih₁ ih₂ =>
      have hpass : Passes ⟨depth, .operand⟩ _ ⟨depth, .operator⟩ := explains_operand ih₁ depth
      exact hpass.explains (ih₂ (by simp) hop.follows depth)
  | closes => exact .nil
  | strays hk => exact explains_fault (step_of_strays hk hf)
  | nextFails hk _ ih =>
      exact (Passes.single (step_of_joins hk)).explains (explains_operand ih depth)
  | @applyFails _ _ _ _ t _ _ _ hk _ hop ih =>
      have hkind := (Level.role_eq_joins_iff.mp hk).1
      exact .inr ⟨_, .cons (step_of_joins hk) (explains_operand ih depth), t,
        List.mem_cons_self, Token.blames_of_applyAt hkind hop⟩
  | @next _ _ _ _ _ t us _ _ _ hk hright _ _ ih₁ ih₂ =>
      have hpass : Passes ⟨depth, .operator⟩ (t :: us) ⟨depth, .operator⟩ :=
        .cons (step_of_joins hk) (explains_operand ih₁ depth)
      exact hpass.explains (ih₂ (by simp) hright.follows depth)
  | @number t ts hk =>
      have hpass : Passes ⟨depth, .operand⟩ [t] ⟨depth, .operator⟩ := .single (by rw [hk]; rfl)
      cases hx : t.literal with
      | ok v => exact hpass
      | error e =>
          exact .inr ⟨_, hpass, t, List.mem_singleton_self t, Token.blames_of_literal hk hx⟩
  | misplaced hn hl => exact explains_fault (step_of_misplaced hn hl)
  | groupFails hl _ ih =>
      have ih := ih (by simp) trivial (depth + 1)
      exact (Passes.single (step_of_leftParen hl)).explains ih.error
  | group hl _ hclose ih =>
      have ih := ih (by simp) trivial (depth + 1)
      exact .cons (step_of_leftParen hl) (ih.append (.single (by rw [hclose]; rfl)))
  | @unmatched l r us ts v hl hread hopen ih =>
      have ih := ih (by simp) trivial (depth + 1)
      have hk : r.kind = .endMark := hread.kind_eq_of_sum.resolve_left hopen
      have hstep : step ⟨depth + 1, .operator⟩ r.kind = .halts (.rejects .unmatchedParen) := by
        rw [hk]
        rfl
      have hpass : Passes ⟨depth, .operand⟩ (l :: us) ⟨depth + 1, .operator⟩ :=
        .cons (step_of_leftParen hl) ih
      exact hpass.explains (explains_fault hstep)

end Rule

/-! ### The verdict of the scan and the outcome of evaluation -/

/-- The outcome is an arithmetic failure, blamed on a token in front of the index `k`. -/
def FailsBefore (ts : List Token) (k : Nat) (x : Except EvalError Value) : Prop :=
  ∃ e j t, x = .error e ∧ j < k ∧ ts[j]? = some t ∧ e.Blames t

/-- The outcome, with the cursor left at `index`, is the verdict at the index `k`. -/
def Scan.Agrees (ts : List Token) (k index : Nat) :
    Scan.Verdict → Except EvalError Value → Prop
  | .accepts, x => (∃ v, x = .ok v) ∧ index = k
  | .rejects fault, x => ∃ t, ts[k]? = some t ∧ x = .error (fault.error t)

/-- Where the rules read a whole expression that is not empty, the scan comes to a verdict,
and the outcome is the verdict or an arithmetic failure in front of it. -/
theorem Rule.Reads.exists_verdict {us vs : List Token} {x : Except EvalError Value}
    (h : Rule.Reads (.chain .sum) us vs x) (hend : Terminated (us ++ vs)) :
    ∃ k verdict, Scan.run .start (us ++ vs) = some (k, verdict) ∧
      (Scan.Agrees (us ++ vs) k us.length verdict x ∨ FailsBefore (us ++ vs) k x) := by
  have hexp := h.explained (by simp) trivial 0
  cases x with
  | ok v =>
      obtain ⟨stop, rest, rfl, hclose⟩ := h.stops
      have hstep : Scan.step ⟨0, .operator⟩ stop.kind = .halts .accepts := by
        rcases Level.role_sum_eq_closes_iff.mp hclose with hk | hk <;> rw [hk] <;> rfl
      have hrun := Scan.Passes.run_append hexp (stop :: rest)
      rw [Scan.run_cons_halts hstep, Option.map_some, Nat.zero_add] at hrun
      exact ⟨us.length, .accepts, hrun, .inl ⟨⟨v, rfl⟩, rfl⟩⟩
  | error e =>
      rcases hexp with ⟨us', t, s', fault, rfl, hpass, hstep, rfl⟩ | ⟨s', hpass, t, ht, he⟩
      · have hrun := hpass.run_append (t :: vs)
        rw [Scan.run_cons_halts hstep, Option.map_some, Nat.zero_add] at hrun
        rw [List.append_assoc, List.singleton_append]
        exact ⟨us'.length, .rejects fault, hrun, .inl ⟨t, by simp, rfl⟩⟩
      · obtain ⟨k, verdict, hrun⟩ := Scan.exists_run_eq_some .start hend
        obtain ⟨j, hj, rfl⟩ := List.getElem_of_mem ht
        refine ⟨k, verdict, hrun, .inr ⟨e, j, us[j], rfl, ?_, ?_, he⟩⟩
        · have hrun' : Scan.run .start (us ++ vs) = _ := hpass.run_append vs
          rw [hrun] at hrun'
          obtain ⟨o, -, ho⟩ := Option.map_eq_some_iff.mp hrun'.symm
          obtain ⟨rfl, -⟩ := Prod.mk.inj ho
          omega
        · rw [List.getElem?_append_left hj, List.getElem?_eq_getElem hj]

/-- An error about the place of a token, not about a value. -/
def EvalError.IsSyntactic (e : EvalError) : Prop :=
  ∃ text, e.cause = .unexpectedToken text ∨ e.cause = .unmatchedParen text

/-- No token is to blame for an arithmetic failure that is an error about its place. -/
theorem EvalError.IsSyntactic.not_blames {e : EvalError} {t : Token} (h : e.IsSyntactic) :
    ¬e.Blames t := by
  rintro ⟨-, ⟨-, hcause⟩ | ⟨-, hcause⟩ | ⟨-, hcause⟩⟩ <;>
    obtain ⟨text, h | h⟩ := h <;> rw [hcause] at h <;> cases h

/-- **Evaluation judges as the scan does.** On a terminated sequence that is not empty the
scan comes to a verdict. Where it accepts, evaluation has a value and stops there, and where
it rejects, evaluation fails with the same fault of the same token; the one other thing that
can happen is an arithmetic failure in front of that token. So a value means that the scan
accepts, and an error about the place of a token means that the scan rejects that token. -/
theorem evaluate_agrees_scan {ts : List Token} (hend : Terminated ts)
    (hne : ts.head?.map Token.kind ≠ some .endMark) :
    (∃ k verdict, Scan.run .start ts = some (k, verdict)) ∧
    (∀ k, Scan.run .start ts = some (k, .accepts) →
      ∃ x c, (Cursor.ofList ts).run .expression = some (x, c) ∧
        ((∃ v, x = .ok v) ∧ c.index = k ∨ FailsBefore ts k x)) ∧
    (∀ k fault, Scan.run .start ts = some (k, .rejects fault) →
      ∃ x c, (Cursor.ofList ts).run .expression = some (x, c) ∧
        ((∃ t, ts[k]? = some t ∧ x = .error (fault.error t)) ∨ FailsBefore ts k x)) ∧
    (∀ v, evaluate ts = .ok v → ∃ k, Scan.run .start ts = some (k, .accepts)) ∧
    ∀ e, evaluate ts = .error e → e.IsSyntactic →
      ∃ k fault t, Scan.run .start ts = some (k, .rejects fault) ∧ ts[k]? = some t ∧
        e = fault.error t := by
  obtain ⟨c, hc⟩ := exists_run_expression hend
  obtain ⟨us, vs, hus, rfl, hread⟩ := (Cursor.run_eq_some_iff hend).mp hc
  obtain rfl : ts = us ++ vs := hus
  obtain ⟨k, verdict, hrun, hverdict⟩ : ∃ k verdict,
      Scan.run .start (us ++ vs) = some (k, verdict) ∧
      (Scan.Agrees (us ++ vs) k us.length verdict (evaluate (us ++ vs)) ∨
        FailsBefore (us ++ vs) k (evaluate (us ++ vs))) := by
    generalize evaluate (us ++ vs) = x at hread
    cases hread with
    | empty hk => exact absurd (congrArg some hk) hne
    | whole _ hsum => exact hsum.exists_verdict hend
  have hindex : (⟨us.reverse ++ (Cursor.ofList (us ++ vs)).passed, vs⟩ : Cursor).index =
      us.length := by
    simp [Cursor.index, Cursor.ofList]
  refine ⟨⟨k, verdict, hrun⟩, ?_, ?_, ?_, ?_⟩
  · intro k' hk'
    obtain ⟨rfl, rfl⟩ : k = k' ∧ verdict = .accepts := by simpa [hrun] using hk'
    exact ⟨_, _, hc, hindex ▸ hverdict⟩
  · intro k' fault hk'
    obtain ⟨rfl, rfl⟩ : k = k' ∧ verdict = .rejects fault := by simpa [hrun] using hk'
    exact ⟨_, _, hc, hverdict⟩
  · intro v hv
    rw [hv] at hverdict
    cases verdict with
    | accepts => exact ⟨k, hrun⟩
    | rejects fault => rcases hverdict with ⟨_, -, h⟩ | ⟨_, _, _, h, -⟩ <;> cases h
  · intro e he hsyn
    rw [he] at hverdict
    rcases hverdict with hagree | ⟨_, _, t, h, -, -, hblame⟩
    · cases verdict with
      | accepts =>
          obtain ⟨⟨_, h⟩, -⟩ := hagree
          cases h
      | rejects fault =>
          obtain ⟨t, ht, h⟩ := hagree
          exact ⟨k, fault, t, hrun, ht, Except.error.inj h⟩
    · cases h
      exact absurd hblame hsyn.not_blames

/-- In `((1 / 0) 2` the scan objects to the number at index 6, and evaluation has failed at
the zero divisor before. -/
theorem evaluate_agrees_scan_unclosed :
    ∃ x c, (Cursor.ofList [⟨.leftParen, "(", 0⟩, ⟨.leftParen, "(", 1⟩, ⟨.number, "1", 2⟩,
        ⟨.operator .div, "/", 4⟩, ⟨.number, "0", 6⟩, ⟨.rightParen, ")", 7⟩,
        ⟨.number, "2", 9⟩, Token.endAt 10]).run .expression = some (x, c) ∧
      ((∃ t, some ⟨.number, "2", 9⟩ = some t ∧
        x = .error (Scan.Fault.unexpectedToken.error t)) ∨
        FailsBefore [⟨.leftParen, "(", 0⟩, ⟨.leftParen, "(", 1⟩, ⟨.number, "1", 2⟩,
          ⟨.operator .div, "/", 4⟩, ⟨.number, "0", 6⟩, ⟨.rightParen, ")", 7⟩,
          ⟨.number, "2", 9⟩, Token.endAt 10] 6 x) :=
  (evaluate_agrees_scan (by decide) (by decide)).2.2.1 6 .unexpectedToken (by decide)

end Abacus
