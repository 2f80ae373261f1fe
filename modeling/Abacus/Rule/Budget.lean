import Abacus.Rule

/-!
# Enough budget for every cursor

The budget of a run is no part of its meaning: an outcome stays what it is on every larger
budget, and over a cursor there is a budget that always suffices, four calls for each token
ahead and a few more. The only exceptions are sequences that end with an opening parenthesis: a
cursor hands that parenthesis out again and again, each time for one more group.

Why a budget suffices is plain while tokens lie ahead: at most four calls are nested before one
takes a token. Behind the last token a step back can undo a step forward that never happened, so
a chain may put back a closing parenthesis that it did not take. The parenthesis then closes one
more of the groups that are open, of which there are finitely many, and behind it no operand is
read.

## Main results

* `Rule.runFor_mono`: a larger budget never changes an outcome.
* `Rule.runFor_unique`: two budgets that give outcomes give the same one.
* `Rule.settles`: over a sequence that does not end with an opening parenthesis, the budget
  `Rule.calls` suffices, the sequence stays what it was, and the cursor moves as `Rule.Moves` says.
* `Cursor.isSome_run`: `Cursor.run`, the run on a cursor's own budget, has an outcome.
-/

namespace Abacus

namespace Rule

open Reading TokenSource

/-! ### Larger budgets -/

section Mono

variable {σ : Type} [TokenSource σ]

/-- One call more keeps an outcome. -/
theorem runFor_succ {n : Nat} {r : Rule} {s : σ} {o : Except EvalError Value × σ}
    (h : runFor n r s = some o) : runFor (n + 1) r s = some o := by
  induction n generalizing r s o with
  | zero => rw [runFor_zero] at h; cases h
  | succ n ih =>
    cases r with
    | expression =>
      by_cases hk : (advance s).1.kind = .endMark
      · rwa [runFor_expression_end hk] at h ⊢
      · rw [runFor_expression hk] at h ⊢
        exact ih h
    | chain level =>
      rw [runFor_chain] at h ⊢
      exact andThen_mono (fun _ => ih) (fun _ _ _ => ih) h
    | rest level left =>
      cases hk : level.role (advance s).1.kind with
      | joins op =>
        rw [runFor_rest_joins hk] at h ⊢
        exact andThen_mono (fun _ => ih)
          (fun _ _ _ => andThen_mono (fun _ => id) fun _ _ _ => ih) h
      | closes => rwa [runFor_rest_closes hk] at h ⊢
      | strays => rwa [runFor_rest_strays hk] at h ⊢
    | primary =>
      by_cases hn : (advance s).1.kind = .number
      · rwa [runFor_primary_number hn] at h ⊢
      · by_cases hp : (advance s).1.kind = .leftParen
        · rw [runFor_primary_leftParen hp] at h ⊢
          exact andThen_mono (fun _ => ih) (fun _ _ _ => id) h
        · rwa [runFor_primary_unexpected hn hp] at h ⊢

/-- A larger budget never changes an outcome. -/
theorem runFor_mono {m n : Nat} (hmn : m ≤ n) {r : Rule} {s : σ}
    {o : Except EvalError Value × σ} (h : runFor m r s = some o) : runFor n r s = some o := by
  induction hmn with
  | refl => exact h
  | step _ ih => exact runFor_succ ih

/-- The outcome of a run does not depend on its budget. -/
theorem runFor_unique {m n : Nat} {r : Rule} {s : σ} {o o' : Except EvalError Value × σ}
    (h : runFor m r s = some o) (h' : runFor n r s = some o') : o = o' := by
  have h₁ := runFor_mono (Nat.le_max_left m n) h
  have h₂ := runFor_mono (Nat.le_max_right m n) h'
  exact Option.some.inj (h₁.symm.trans h₂)

end Mono

/-! ### A budget that suffices -/

/-- What a value of a rule tells about the place of the cursor before and after. -/
def Moves : Rule → Cursor → Cursor → Prop
  | expression, _, _ => True
  | chain _, c, c' => 0 < c'.ahead.length ∧ c'.ahead.length < c.ahead.length
  | rest _ _, c, c' =>
    c'.ahead.length ≤ max c.ahead.length 1 ∧ (c.tokens ≠ [] → 0 < c'.ahead.length) ∧
      (c.ahead = [] → c.lastKind? ≠ some .number)
  | primary, c, c' =>
    (c'.ahead.length < c.ahead.length ∨ c.ahead = [] ∧ c'.ahead = []) ∧
      (c'.ahead = [] → c.lastKind? = some .number ∨
        c.lastKind? = some .rightParen ∧ 2 ≤ c.ahead.length)

/-- A budget of calls that suffices for a rule when so many tokens lie ahead. -/
def calls : Rule → Nat → Nat
  | expression, m => 4 * m + 9
  | chain .sum, m => 4 * m + 4
  | chain .product, m => 4 * m + 3
  | rest .sum _, m => 4 * m + 4
  | rest .product _, m => 4 * m + 2
  | primary, m => 4 * m + 1

/-- No rule needs more calls than an expression. -/
theorem calls_le (r : Rule) (m : Nat) : r.calls m ≤ 4 * m + 9 := by
  cases r with
  | chain level | rest level => cases level <;> simp only [calls] <;> omega
  | expression | primary =>
    simp only [calls]
    omega

/-- Every rule needs a call for itself. -/
theorem calls_pos (r : Rule) (m : Nat) : 0 < r.calls m := by
  cases r with
  | chain level | rest level => cases level <;> simp only [calls] <;> omega
  | expression | primary =>
    simp only [calls]
    omega

section CallsLt

variable {level : Level} {left left' : Value} {k m : Nat}

/-! What a rule calls needs less budget than the rule: as much for as many tokens where nothing
has been taken, and as much for fewer where a token has. -/

theorem calls_sum_lt_expression : (chain .sum).calls m < expression.calls m := by
  simp only [calls]
  omega

theorem calls_operand_lt_chain (h : k ≤ m) : level.operand.calls k < (chain level).calls m := by
  cases level <;> simp only [calls, Level.operand] <;> omega

theorem calls_rest_lt_chain (h : k < m) : (rest level left).calls k < (chain level).calls m := by
  cases level <;> simp only [calls] <;> omega

theorem calls_operand_lt_rest (h : k < m) :
    level.operand.calls k < (rest level left).calls m := by
  cases level <;> simp only [calls, Level.operand] <;> omega

theorem calls_rest_lt_rest (h : k < m) :
    (rest level left').calls k < (rest level left).calls m := by
  cases level <;> simp only [calls] <;> omega

theorem calls_sum_lt_primary (h : k < m) : (chain .sum).calls k < primary.calls m := by
  simp only [calls]
  omega

end CallsLt

/-- The budget `n` suffices: the rule has an outcome, keeps the sequence, and moves the cursor
as its values do. -/
def Settles (n : Nat) (r : Rule) (c : Cursor) : Prop :=
  ∃ x c', runFor n r c = some (x, c') ∧ c'.tokens = c.tokens ∧ ∀ v, x = .ok v → r.Moves c c'

/-- A primary is settled where the sums in its parentheses are. -/
theorem settles_primary {n : Nat} {c : Cursor} (ho : c.lastKind? ≠ some .leftParen)
    (ih : ∀ c' : Cursor, c'.tokens = c.tokens → c'.ahead.length < c.ahead.length →
      Settles n (chain .sum) c') :
    Settles (n + 1) primary c := by
  by_cases hk : c.advance.1.kind = .number
  · refine ⟨_, _, runFor_primary_number hk, c.tokens_advance, fun v _ => ?_⟩
    match ha : c.ahead with
    | [] =>
      have hk' := Cursor.kind_advance_of_ahead_nil ha
      rw [hk] at hk'
      simp only [Moves, Cursor.advance_def, Cursor.advance_of_ahead_nil ha, ha]
      cases hl : c.lastKind? <;> simp_all
    | t :: ts =>
      rw [Cursor.advance_of_ahead_cons ha] at hk
      simp only [Moves, Cursor.advance_def, Cursor.advance_of_ahead_cons ha, ha]
      refine ⟨by simp, fun hts => ?_⟩
      subst hts
      rw [Cursor.lastKind?_of_ahead_singleton ha]
      exact .inl (congrArg some hk)
  · by_cases hp : c.advance.1.kind = .leftParen
    · match ha : c.ahead with
      | [] =>
        have hk' := Cursor.kind_advance_of_ahead_nil ha
        rw [hp] at hk'
        cases hl : c.lastKind? <;> simp_all
      | t :: ts =>
        have hadv := Cursor.advance_of_ahead_cons ha
        obtain ⟨x, c', hrun, htok, hmov⟩ := ih c.advance.2 c.tokens_advance (by simp [hadv, ha])
        rw [Settles]
        rw [runFor_primary_leftParen hp]
        rw [Cursor.advance_def, hrun]
        cases x with
        | error e => exact ⟨_, _, rfl, htok.trans c.tokens_advance, fun _ h => by cases h⟩
        | ok v =>
          obtain ⟨hpos, hlt⟩ := hmov v rfl
          rw [andThen_ok]
          split
          · rename_i hclose
            refine ⟨_, _, rfl, ?_, fun _ _ => ?_⟩
            · rw [Cursor.advance_def, Cursor.tokens_advance, htok, Cursor.tokens_advance]
            · obtain ⟨ps', _ | ⟨u, us⟩⟩ := c'
              · simp at hpos
              · rw [hadv] at htok hlt
                simp only [List.length_cons] at hlt
                refine ⟨.inl ?_, fun hus => .inr ⟨?_, ?_⟩⟩
                · simp only [Cursor.advance_def, Cursor.advance_cons, ha, List.length_cons]
                  omega
                · change us = [] at hus
                  subst hus
                  rw [← Cursor.lastKind?_congr (c := ⟨ps', [u]⟩),
                    Cursor.lastKind?_of_ahead_singleton rfl]
                  · exact congrArg some hclose
                  · rw [htok, ← c.tokens_advance, hadv]
                · simp only [ha, List.length_cons]
                  omega
          · refine ⟨_, _, rfl, ?_, fun _ h => by cases h⟩
            rw [Cursor.advance_def, Cursor.tokens_advance, htok, Cursor.tokens_advance]
    · exact ⟨_, _, runFor_primary_unexpected hk hp, c.tokens_advance, fun _ h => by cases h⟩


/-- A chain is settled where its first operand is, and the rest behind that. -/
theorem settles_chain {n : Nat} {level : Level} {c : Cursor}
    (hop : Settles n level.operand c)
    (hrest : ∀ left (c' : Cursor), c'.tokens = c.tokens → level.operand.Moves c c' →
      Settles n (rest level left) c') :
    Settles (n + 1) (chain level) c := by
  obtain ⟨x, c₁, hrun, htok, hmov⟩ := hop
  rw [Settles, runFor_chain, hrun]
  cases x with
  | error e => exact ⟨_, _, rfl, htok, fun _ h => by cases h⟩
  | ok left =>
    have hm := hmov left rfl
    obtain ⟨y, c₂, hrun₂, htok₂, hmov₂⟩ := hrest left c₁ htok hm
    refine ⟨y, c₂, hrun₂, htok₂.trans htok, fun v hv => ?_⟩
    obtain ⟨hle, hpos, hnum⟩ := hmov₂ v hv
    have hlast := Cursor.lastKind?_congr htok
    rw [htok] at hpos
    cases level with
    | sum =>
      simp only [Level.operand, Moves] at hm ⊢
      have hne : c.tokens ≠ [] := by
        intro h
        have : c.ahead = [] := by simp_all [Cursor.tokens]
        simp [this] at hm
      have := hpos hne
      omega
    | product =>
      simp only [Level.operand, Moves] at hm ⊢
      obtain ⟨hm, hend⟩ := hm
      by_cases h₁ : c₁.ahead = []
      · rcases hend h₁ with hk | ⟨hk, hc⟩
        · exact absurd (hlast.trans hk) (hnum h₁)
        · have hne : c.tokens ≠ [] := by
            intro h
            simp [Cursor.lastKind?, h] at hk
          have := hpos hne
          simp only [h₁, List.length_nil] at hle
          omega
      · have hlt : c₁.ahead.length < c.ahead.length := by
          rcases hm with h | ⟨_, h⟩
          · exact h
          · exact absurd h h₁
        have hne : c.tokens ≠ [] := by
          intro h
          have : c.ahead = [] := by simp_all [Cursor.tokens]
          simp [this] at hlt
        have := hpos hne
        have : 0 < c₁.ahead.length := List.length_pos_iff.2 h₁
        omega

/-- The rest of a chain is settled where its next operand is, and the rest behind that. -/
theorem settles_rest {n : Nat} {level : Level} {left : Value} {c : Cursor}
    (hop : Settles n level.operand c.advance.2)
    (hrest : ∀ v (c' : Cursor), c'.tokens = c.tokens → c'.ahead.length + 1 < c.ahead.length →
      Settles n (rest level v) c') :
    Settles (n + 1) (rest level left) c := by
  rw [Settles]
  cases hk : level.role c.advance.1.kind with
  | strays =>
    exact ⟨_, _, runFor_rest_strays hk, c.tokens_advance, fun _ h => by cases h⟩
  | closes =>
    refine ⟨_, _, runFor_rest_closes hk, ?_, fun _ _ => ?_⟩
    · rw [Cursor.retreat_def, Cursor.tokens_retreat, Cursor.advance_def, Cursor.tokens_advance]
    · match ha : c.ahead with
      | [] =>
        rw [Cursor.advance_def, Cursor.retreat_def, Cursor.advance_of_ahead_nil ha]
        have hle := c.length_ahead_retreat_le
        refine ⟨by rw [ha] at hle ⊢; simpa using hle, fun hne => ?_, fun _ hl => ?_⟩
        · rw [Cursor.length_ahead_retreat fun hp => hne (by simp [Cursor.tokens, hp, ha])]
          omega
        · have := Cursor.kind_advance_of_ahead_nil ha
          rw [hl] at this
          rw [this] at hk
          cases level <;> cases hk
      | t :: ts =>
        rw [Cursor.advance_def, Cursor.retreat_def, Cursor.retreat_advance (by simp [ha])]
        simp [Moves, ha]
  | joins op =>
    rw [runFor_rest_joins hk]
    obtain ⟨x, c₁, hrun, htok, hmov⟩ := hop
    rw [Cursor.advance_def, hrun]
    cases x with
    | error e => exact ⟨_, _, rfl, htok.trans c.tokens_advance, fun _ h => by cases h⟩
    | ok right =>
      rw [andThen_ok]
      cases hv : op.applyAt c.advance.1.position left right with
      | error e => exact ⟨_, _, rfl, htok.trans c.tokens_advance, fun _ h => by cases h⟩
      | ok v =>
        rw [andThen_ok]
        have htok₁ := htok.trans c.tokens_advance
        have hlt : c₁.ahead.length + 1 < c.ahead.length := by
          have hm := hmov right rfl
          have hno : c.lastKind? = some .number → c.advance.2.ahead ≠ [] := by
            intro hl hnil
            have hkind : c.advance.1.kind = .number := by
              match ha : c.ahead with
              | [] => rw [Cursor.kind_advance_of_ahead_nil ha, hl]; rfl
              | t :: ts =>
                rw [Cursor.advance_of_ahead_cons ha] at hnil ⊢
                change ts = [] at hnil
                subst hnil
                rw [Cursor.lastKind?_of_ahead_singleton ha] at hl
                exact Option.some.inj hl
            rw [hkind] at hk
            cases level <;> cases hk
          have hlen := c.length_ahead_advance
          have hlast := Cursor.lastKind?_congr c.tokens_advance
          cases level with
          | sum =>
            obtain ⟨-, h⟩ := hm
            omega
          | product =>
            obtain ⟨h | ⟨h₁, h₂⟩, hend⟩ := hm
            · omega
            · rcases hend h₂ with hl | ⟨-, hl⟩
              · exact absurd h₁ (hno (hlast.symm.trans hl))
              · simp [h₁] at hl
        obtain ⟨y, c₂, hrun₂, htok₂, hmov₂⟩ := hrest v c₁ htok₁ hlt
        refine ⟨y, c₂, hrun₂, htok₂.trans htok₁, fun w hw => ?_⟩
        obtain ⟨hle, hpos, -⟩ := hmov₂ w hw
        rw [htok₁] at hpos
        exact ⟨by omega, hpos, fun h => by simp [h] at hlt⟩


/-- The budget `Rule.calls` suffices, unless the sequence ends with an opening parenthesis. -/
theorem settles {n : Nat} {r : Rule} {c : Cursor} (ho : c.lastKind? ≠ some .leftParen)
    (hn : r.calls c.ahead.length ≤ n) : Settles n r c := by
  induction n generalizing r c with
  | zero => cases r with
    | chain level | rest level => cases level <;> simp [calls] at hn
    | _ => simp [calls] at hn
  | succ n ih =>
    have ih' : ∀ {r : Rule} {c' : Cursor}, c'.tokens = c.tokens → r.calls c'.ahead.length ≤ n →
        Settles n r c' := fun htok h => ih (Cursor.lastKind?_congr htok ▸ ho) h
    cases r with
    | expression =>
      simp only [calls] at hn
      by_cases hk : c.advance.1.kind = .endMark
      · exact ⟨_, _, runFor_expression_end hk, c.tokens_advance, fun _ _ => trivial⟩
      · have htok : c.advance.2.retreat.tokens = c.tokens := by simp
        have hlen : c.advance.2.retreat.ahead.length ≤ c.ahead.length + 1 := by
          have hle := c.advance.2.length_ahead_retreat_le
          rw [Cursor.length_ahead_advance] at hle
          omega
        obtain ⟨x, c', hrun, htok', -⟩ := ih' (r := chain .sum) htok (by simp only [calls]; omega)
        refine ⟨x, c', ?_, htok'.trans htok, fun _ _ => trivial⟩
        rw [runFor_expression hk]
        exact hrun
    | chain level =>
      refine settles_chain (ih' rfl ?_) fun left c' htok hmov => ih' htok ?_
      · cases level <;> simp only [calls, Level.operand] at hn ⊢ <;> omega
      · cases level <;> simp only [calls, Level.operand, Moves] at hn hmov ⊢
        · omega
        · obtain ⟨h | ⟨h, h'⟩, -⟩ := hmov
          · omega
          · simp only [h, h', List.length_nil] at hn ⊢
            omega
    | rest level left =>
      refine settles_rest (ih' c.tokens_advance ?_) fun v c' htok hlt => ih' htok ?_
      · have hlen := c.length_ahead_advance
        cases level <;> simp only [calls, Level.operand] at hn ⊢ <;> omega
      · cases level <;> simp only [calls] at hn ⊢ <;> omega
    | primary =>
      refine settles_primary ho fun c' htok hlt => ih' htok ?_
      simp only [calls] at hn ⊢
      omega

end Rule

namespace Cursor

/-- A budget that suffices for every rule where the cursor stands. -/
def budget (c : Cursor) : Nat :=
  4 * c.ahead.length + 9

/-- The outcome of a rule where the cursor stands, and the place where it leaves the cursor.
There is none only if the sequence ends with an opening parenthesis. -/
def run (r : Rule) (c : Cursor) : Option (Except EvalError Value × Cursor) :=
  r.runFor c.budget c

/-- A rule has an outcome unless the sequence ends with an opening parenthesis. -/
theorem isSome_run (r : Rule) {c : Cursor} (h : c.lastKind? ≠ some .leftParen) :
    (c.run r).isSome = true := by
  obtain ⟨x, c', hrun, -⟩ := Rule.settles (r := r) (n := c.budget) h (r.calls_le _)
  rw [run, hrun]
  rfl

end Cursor

end Abacus
