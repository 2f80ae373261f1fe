import Abacus.Token

/-!
# Cursors

A cursor stands between the tokens that it has passed and those that lie ahead. It moves one
token at a time, forward and back, and never leaves the sequence: behind the last token it hands
out that token again, and in front of the first it stays.

## Main results

* `Cursor.tokens_advance`, `Cursor.tokens_retreat`: moving never changes the sequence.
* `Cursor.index_le_length`: a cursor never stands outside its sequence.
* `Cursor.ofListAt_tokens_index`: a cursor is given by its sequence and its index.
* `Cursor.retreat_advance`: stepping back undoes a step over a token that lay ahead.
* `Cursor.advance_ofListAt`, `Cursor.retreat_ofListAt`: the moves of a cursor in terms of its index.
-/

namespace Abacus

/-- A place in a sequence of tokens: those passed, nearest first, and those ahead. -/
structure Cursor where
  passed : List Token
  ahead : List Token
deriving DecidableEq, Repr

namespace Cursor

/-- The cursor in front of a sequence. -/
def ofList (tokens : List Token) : Cursor :=
  ⟨[], tokens⟩

/-- The cursor in a sequence behind its first `i` tokens. -/
def ofListAt (tokens : List Token) (i : Nat) : Cursor :=
  ⟨(tokens.take i).reverse, tokens.drop i⟩

/-- The whole sequence, wherever the cursor stands in it. -/
def tokens (c : Cursor) : List Token :=
  c.passed.reverse ++ c.ahead

/-- How many tokens the cursor has passed. -/
def index (c : Cursor) : Nat :=
  c.passed.length

/-- What a cursor hands out when no token lies ahead: the token it passed last. An empty
sequence counts as one that ends at position zero. -/
def beyond (c : Cursor) : Token :=
  c.passed.head?.getD (Token.endAt 0)

/-- Takes the next token. -/
def advance (c : Cursor) : Token × Cursor :=
  match c.ahead with
  | [] => (c.beyond, c)
  | t :: ts => (t, ⟨t :: c.passed, ts⟩)

/-- Puts the token passed last ahead again. -/
def retreat (c : Cursor) : Cursor :=
  match c.passed with
  | [] => c
  | t :: ts => ⟨ts, t :: c.ahead⟩

/-- The kind of the last token of the sequence. -/
def lastKind? (c : Cursor) : Option Token.Kind :=
  c.tokens.getLast?.map Token.kind

/-! ### Views -/

@[simp] theorem tokens_ofList (ts : List Token) : (ofList ts).tokens = ts := rfl

@[simp] theorem index_ofList (ts : List Token) : (ofList ts).index = 0 := rfl

@[simp] theorem tokens_ofListAt (ts : List Token) (i : Nat) : (ofListAt ts i).tokens = ts := by
  simp [ofListAt, tokens]

theorem index_ofListAt {ts : List Token} {i : Nat} (h : i ≤ ts.length) :
    (ofListAt ts i).index = i := by
  simp [ofListAt, index, h]

/-- A cursor is given by its sequence and its index. -/
theorem ofListAt_tokens_index (c : Cursor) : ofListAt c.tokens c.index = c := by
  obtain ⟨ps, ts⟩ := c
  simp only [ofListAt, tokens, index]
  rw [List.take_left' (by simp), List.drop_left' (by simp), List.reverse_reverse]

@[simp] theorem advance_cons (ps : List Token) (t : Token) (ts : List Token) :
    advance ⟨ps, t :: ts⟩ = (t, ⟨t :: ps, ts⟩) := rfl

@[simp] theorem advance_nil (ps : List Token) :
    advance ⟨ps, []⟩ = (beyond ⟨ps, []⟩, ⟨ps, []⟩) := rfl

@[simp] theorem retreat_cons (t : Token) (ps ts : List Token) :
    retreat ⟨t :: ps, ts⟩ = ⟨ps, t :: ts⟩ := rfl

@[simp] theorem retreat_nil (ts : List Token) : retreat ⟨[], ts⟩ = ⟨[], ts⟩ := rfl

@[simp] theorem tokens_advance (c : Cursor) : c.advance.2.tokens = c.tokens := by
  obtain ⟨ps, _ | ⟨t, ts⟩⟩ := c <;> simp [tokens]

@[simp] theorem tokens_retreat (c : Cursor) : c.retreat.tokens = c.tokens := by
  obtain ⟨_ | ⟨t, ps⟩, ts⟩ := c <;> simp [tokens]

/-- A cursor stands at most behind the last token. -/
theorem index_le_length (c : Cursor) : c.index ≤ c.tokens.length := by
  simp [index, tokens]

/-- Stepping back undoes a step over a token that lay ahead. -/
theorem retreat_advance {c : Cursor} (h : c.ahead ≠ []) : c.advance.2.retreat = c := by
  obtain ⟨ps, _ | ⟨t, ts⟩⟩ := c
  · exact absurd rfl h
  · rfl

/-! ### Behind the last token -/

/-- The last token is one of the sequence, not of the place in it. -/
theorem lastKind?_congr {c c' : Cursor} (h : c.tokens = c'.tokens) :
    c.lastKind? = c'.lastKind? := by
  rw [lastKind?, lastKind?, h]

/-- With nothing ahead, the token handed out is the last one. -/
theorem lastKind?_of_ahead_nil {c : Cursor} (h : c.ahead = []) :
    c.lastKind? = c.passed.head?.map Token.kind := by
  simp [lastKind?, tokens, h]

/-- With one token ahead, that token is the last one. -/
theorem lastKind?_of_ahead_singleton {c : Cursor} {t : Token} (h : c.ahead = [t]) :
    c.lastKind? = some t.kind := by
  simp [lastKind?, tokens, h]

/-- What is handed out behind the last token is that token again, or the end of nothing. -/
theorem kind_advance_of_ahead_nil {c : Cursor} (h : c.ahead = []) :
    c.advance.1.kind = c.lastKind?.getD .endMark := by
  rw [lastKind?_of_ahead_nil h]
  obtain ⟨ps, ts⟩ := c
  subst h
  cases ps <;> rfl

/-- Behind the last token a cursor does not move on. -/
theorem advance_of_ahead_nil {c : Cursor} (h : c.ahead = []) : c.advance.2 = c := by
  obtain ⟨ps, ts⟩ := c
  subst h
  rfl

/-- A token ahead is taken and passed. -/
theorem advance_of_ahead_cons {c : Cursor} {t : Token} {ts : List Token} (h : c.ahead = t :: ts) :
    c.advance = (t, ⟨t :: c.passed, ts⟩) := by
  obtain ⟨ps, as⟩ := c
  subst h
  rfl

/-- A step forward takes the token ahead, if there is one. -/
theorem length_ahead_advance (c : Cursor) : c.advance.2.ahead.length = c.ahead.length - 1 := by
  obtain ⟨ps, _ | ⟨t, ts⟩⟩ := c <;> rfl

/-- A step back puts at most one token ahead. -/
theorem length_ahead_retreat_le (c : Cursor) : c.retreat.ahead.length ≤ c.ahead.length + 1 := by
  obtain ⟨_ | ⟨t, ps⟩, ts⟩ := c <;> simp

/-- A step back over a token puts it ahead. -/
theorem length_ahead_retreat {c : Cursor} (h : c.passed ≠ []) :
    c.retreat.ahead.length = c.ahead.length + 1 := by
  obtain ⟨_ | ⟨t, ps⟩, ts⟩ := c
  · exact absurd rfl h
  · rfl

/-! ### Moves in terms of the index -/

section Index

variable {ts : List Token} {i : Nat}

/-- A step forward hands out the token at the index, or the last one behind them all, and the
index stays within the sequence. -/
theorem advance_ofListAt (hi : i ≤ ts.length) :
    (ofListAt ts i).advance =
      ((ts[i]?.or ts.getLast?).getD (Token.endAt 0), ofListAt ts (min (i + 1) ts.length)) := by
  rcases Nat.lt_or_eq_of_le hi with hlt | rfl
  · have hdrop : (ofListAt ts i).ahead = ts[i] :: ts.drop (i + 1) := List.drop_eq_getElem_cons hlt
    rw [advance_of_ahead_cons hdrop, Nat.min_eq_left hlt, List.getElem?_eq_getElem hlt]
    simp only [ofListAt, Option.some_or, Option.getD_some, List.take_succ_eq_append_getElem hlt,
      List.reverse_append, List.reverse_singleton, List.singleton_append]
  · have hnil : (ofListAt ts ts.length).ahead = [] := List.drop_length
    rw [Nat.min_eq_right (Nat.le_succ _), List.getElem?_eq_none (Nat.le_refl _), Option.none_or]
    refine Prod.ext ?_ (advance_of_ahead_nil hnil)
    simp [ofListAt, advance, beyond]

/-- A step back lowers the index by one, if it can. -/
theorem retreat_ofListAt (hi : i ≤ ts.length) :
    (ofListAt ts i).retreat = ofListAt ts (i - 1) := by
  cases i with
  | zero => rfl
  | succ i =>
    simp only [ofListAt, List.take_succ_eq_append_getElem hi, List.reverse_append,
      List.reverse_singleton, List.singleton_append, retreat_cons, Nat.add_sub_cancel]
    rw [← List.drop_eq_getElem_cons hi]

/-- The tokens passed and those ahead make up the sequence. -/
theorem index_add_length_ahead (c : Cursor) : c.index + c.ahead.length = c.tokens.length := by
  simp [index, tokens]

/-- A cursor in a sequence stands at an index of it. -/
theorem exists_ofListAt_of_tokens {c : Cursor} (h : c.tokens = ts) :
    ∃ k, k ≤ ts.length ∧ c = ofListAt ts k := by
  subst h
  exact ⟨c.index, c.index_le_length, c.ofListAt_tokens_index.symm⟩

end Index

end Cursor

end Abacus
