import Abacus.Proofs.Blame

/-!
# Corresponding sequences

Two sequences of tokens are read alike when they correspond. Tokens correspond when no rule
can tell them apart: they are of one kind and, if they are numbers, of one text. Positions
and all other texts are never looked at; they only find their way into errors. Besides, a
piece of one sequence may correspond to a piece of the other, even one of another length,
when each of them is read as an operand of the same value.

A `Correspondence` says which tokens and which pieces may stand for each other. Whatever
tokens it relates, the outcomes of a rule on sequences that correspond are one value, or errors
of one kind that blame tokens which stand for each other. So a theorem about two runs chooses
the relation it needs for the tokens blamed: to have the same index, or positions that are
shifted.

## Main results

* `Rule.Reads.carried`: on a sequence that corresponds, a rule takes what corresponds and
  comes to an outcome that agrees.
* `Rule.Reads.map`: what has a value has it, too, when its tokens are replaced by others that
  are alike.
* `evaluate_alike`: evaluation of sequences that are alike, index by index, stops at the same
  index with the same value, or with the same error for the token at the same index.
-/

namespace Abacus

open EvalError (Kind)

/-- No rule can tell the tokens apart. -/
def Token.Alike (t t' : Token) : Prop :=
  t.kind = t'.kind ∧ (t.kind = .number → t.text = t'.text)

namespace Token.Alike

variable {t t' : Token}

theorem kind_eq (h : t.Alike t') {k : Token.Kind} (hk : t.kind = k) : t'.kind = k :=
  h.1 ▸ hk

theorem kind_ne (h : t.Alike t') {k : Token.Kind} (hk : t.kind ≠ k) : t'.kind ≠ k :=
  h.1 ▸ hk

/-- Numbers that are alike have the same value, or are malformed both. -/
theorem literal (h : t.Alike t') (hk : t.kind = .number) :
    (∃ v, t.literal = .ok v ∧ t'.literal = .ok v) ∨
      t.literal = .error (Kind.malformedNumber.error t) ∧
        t'.literal = .error (Kind.malformedNumber.error t') := by
  have htext := h.2 hk
  cases hx : t.literal with
  | ok v =>
      rw [Token.literal_eq_ok_iff, htext, ← Token.literal_eq_ok_iff] at hx
      exact .inl ⟨v, rfl, hx⟩
  | error e =>
      obtain ⟨hfits, rfl⟩ := Token.literal_eq_error_iff.mp hx
      rw [htext] at hfits
      exact .inr ⟨rfl, Token.literal_eq_error_iff.mpr ⟨hfits, rfl⟩⟩

end Token.Alike

/-- What may stand for what in two sequences: a token for a token, a piece for a piece. -/
structure Correspondence where
  token : Token → Token → Prop
  piece : List Token → List Token → Prop
  /-- Tokens that stand for each other are alike. -/
  alike {t t' : Token} : token t t' → t.Alike t'
  /-- Pieces that stand for each other are operands of one value, whatever follows them. -/
  operand {us us' : List Token} : piece us us' →
    ∃ v, ∀ ts, Rule.primary.Reads us ts (.ok v) ∧ Rule.primary.Reads us' ts (.ok v)
  /-- They begin with tokens that stand for each other. -/
  head {us us' : List Token} : piece us us' → ∀ t ∈ us.head?, ∀ t' ∈ us'.head?, token t t'

namespace Correspondence

variable (K : Correspondence)

/-- The sequences consist of tokens and pieces that stand for each other. -/
inductive Corresponds : List Token → List Token → Prop
  | nil : Corresponds [] []
  | token {t t' : Token} {ts ts' : List Token} :
      K.token t t' → Corresponds ts ts' → Corresponds (t :: ts) (t' :: ts')
  | piece {us us' ts ts' : List Token} :
      K.piece us us' → Corresponds ts ts' → Corresponds (us ++ ts) (us' ++ ts')

/-- One value, or errors of one kind that blame tokens which stand for each other. -/
inductive Agree : Except EvalError Value → Except EvalError Value → Prop
  | ok (v : Value) : Agree (.ok v) (.ok v)
  | error (kind : Kind) {t t' : Token} :
      K.token t t' → Agree (.error (kind.error t)) (.error (kind.error t'))

/-- A value agrees with itself only. -/
theorem Agree.eq_ok {v : Value} {x : Except EvalError Value} (h : K.Agree (.ok v) x) :
    x = .ok v := by
  cases h
  rfl

/-- An error agrees with errors only. -/
theorem Agree.exists_error {e : EvalError} {x : Except EvalError Value}
    (h : K.Agree (.error e) x) : ∃ e', x = .error e' := by
  cases h
  exact ⟨_, rfl⟩

/-- On the other sequence `ws` the rule takes what corresponds, with an outcome that agrees.
Behind a value what is left corresponds, too. -/
def Carried (r : Rule) (us ts : List Token) (x : Except EvalError Value) (ws : List Token) :
    Prop :=
  ∃ us' ts' x', ws = us' ++ ts' ∧ r.Reads us' ts' x' ∧ K.Corresponds us us' ∧ K.Agree x x' ∧
    ∀ v, x = .ok v → K.Corresponds ts ts'

variable {K} {t t' : Token} {us us' ts ts' ws : List Token}

namespace Corresponds

/-- Sequences that correspond may be joined. -/
theorem append (h : K.Corresponds us us') (h' : K.Corresponds ts ts') :
    K.Corresponds (us ++ ts) (us' ++ ts') := by
  induction h with
  | nil => exact h'
  | token ht _ ih => exact .token ht ih
  | piece hp _ ih =>
      rw [List.append_assoc, List.append_assoc]
      exact .piece hp ih

theorem single (h : K.token t t') : K.Corresponds [t] [t'] :=
  .token h .nil

theorem of_piece (h : K.piece us us') : K.Corresponds us us' := by
  simpa using Corresponds.piece h .nil

/-- A sequence begins with a token for which one stands, or with a piece. -/
theorem uncons (h : K.Corresponds (t :: ts) ws) :
    (∃ t' ws', ws = t' :: ws' ∧ K.token t t' ∧ K.Corresponds ts ws') ∨
      ∃ us rest us' rest', t :: ts = us ++ rest ∧ ws = us' ++ rest' ∧ K.piece us us' ∧
        K.Corresponds rest rest' := by
  generalize hall : t :: ts = all at h
  cases h with
  | nil => cases hall
  | token ht hts =>
      obtain ⟨rfl, rfl⟩ := List.cons.inj hall
      exact .inl ⟨_, _, rfl, ht, hts⟩
  | piece hp hts => exact .inr ⟨_, _, _, _, rfl, rfl, hp, hts⟩

/-- The first tokens stand for each other, whether they belong to pieces or not. -/
theorem head (h : K.Corresponds (t :: ts) ws) : ∃ t' ws', ws = t' :: ws' ∧ K.token t t' := by
  rcases h.uncons with ⟨t', ws', rfl, ht, -⟩ | ⟨us, rest, us', rest', hall, rfl, hp, -⟩
  · exact ⟨t', ws', rfl, ht⟩
  · obtain ⟨v, hread⟩ := K.operand hp
    obtain ⟨u, us, rfl⟩ := (hread []).1.exists_cons (by simp)
    obtain ⟨u', us', rfl⟩ := (hread []).2.exists_cons (by simp)
    obtain ⟨rfl, -⟩ := List.cons.inj hall
    exact ⟨u', us' ++ rest', rfl, K.head hp t rfl u' rfl⟩

/-- A token that begins no operand belongs to no piece. -/
theorem tail (h : K.Corresponds (t :: ts) ws) (hn : t.kind ≠ .number) (hl : t.kind ≠ .leftParen) :
    ∃ t' ws', ws = t' :: ws' ∧ K.token t t' ∧ K.Corresponds ts ws' := by
  rcases h.uncons with htoken | ⟨us, rest, us', rest', hall, -, hp, -⟩
  · exact htoken
  · obtain ⟨v, hread⟩ := K.operand hp
    obtain ⟨u, us, rfl⟩ := (hread []).1.exists_cons (by simp)
    obtain ⟨rfl, -⟩ := List.cons.inj hall
    rcases (hread []).1.kind_eq_of_primary with hk | hk
    · exact absurd hk hn
    · exact absurd hk hl

/-- An operator that joins a chain belongs to none, for one. -/
theorem tail_of_joins {level : Level} {op : Operator} (h : K.Corresponds (t :: ts) ws)
    (hk : level.role t.kind = .joins op) :
    ∃ t' ws', ws = t' :: ws' ∧ K.token t t' ∧ level.role t'.kind = .joins op ∧
      K.Corresponds ts ws' := by
  have hop := (Level.role_eq_joins_iff.mp hk).1
  obtain ⟨t', ws', rfl, ht, hts⟩ := h.tail (by simp [hop]) (by simp [hop])
  exact ⟨t', ws', rfl, ht, (K.alike ht).1 ▸ hk, hts⟩

/-- Sequences correspond when their tokens stand for each other index by index. -/
theorem of_getElem? (hlen : ts.length = ts'.length)
    (h : ∀ (j : Nat) t t', ts[j]? = some t → ts'[j]? = some t' → K.token t t') :
    K.Corresponds ts ts' := by
  induction ts generalizing ts' with
  | nil =>
      obtain rfl := List.length_eq_zero_iff.mp hlen.symm
      exact .nil
  | cons t ts ih =>
      cases ts' with
      | nil => cases hlen
      | cons t' ts' =>
          refine .token (h 0 t t' rfl rfl) (ih (Nat.succ.inj hlen) ?_)
          exact fun j => h (j + 1)

/-- Sequences that are made of the same tokens correspond when the tokens do. -/
theorem map {f g : Token → Token} (h : ∀ t ∈ ts, K.token (f t) (g t)) :
    K.Corresponds (ts.map f) (ts.map g) := by
  induction ts with
  | nil => exact .nil
  | cons t ts ih =>
      exact .token (h t List.mem_cons_self) (ih fun t ht => h t (List.mem_cons_of_mem _ ht))

/-- Where no pieces are exchanged, sequences that correspond are equally long. -/
theorem length_eq (h : K.Corresponds us us') (hp : ∀ gs gs', ¬K.piece gs gs') :
    us.length = us'.length := by
  induction h with
  | nil => rfl
  | token _ _ ih => rw [List.length_cons, List.length_cons, ih]
  | piece hpiece _ _ => exact absurd hpiece (hp _ _)

end Corresponds

/-! ### Rules on sequences that correspond -/

namespace Carried

variable {x : Except EvalError Value}

/-- In front of a piece, an operand is the piece. -/
theorem of_piece {gs gs' : List Token} (hread : Rule.primary.Reads us ts x)
    (hp : K.piece gs gs') (heq : us ++ ts = gs ++ ts') (h : K.Corresponds ts' ws) :
    K.Carried .primary us ts x (gs' ++ ws) := by
  obtain ⟨v, hoperand⟩ := K.operand hp
  obtain ⟨rfl, rfl, rfl⟩ := hread.unique (hoperand ts').1 heq
  exact ⟨gs', ws, .ok v, rfl, (hoperand ws).2, .of_piece hp, .ok v, fun _ _ => h⟩

/-- So of an operand only the case is left that its first token is one for which a token
stands. -/
theorem of_token (hread : Rule.primary.Reads (t :: us) ts x)
    (h : K.Corresponds (t :: (us ++ ts)) ws)
    (htoken : ∀ t' ws', K.token t t' → K.Corresponds (us ++ ts) ws' →
      K.Carried .primary (t :: us) ts x (t' :: ws')) :
    K.Carried .primary (t :: us) ts x ws := by
  rcases h.uncons with ⟨t', ws', rfl, ht, hws⟩ | ⟨gs, rest, gs', rest', hall, rfl, hp, hrest⟩
  · exact htoken t' ws' ht hws
  · exact of_piece hread hp hall hrest

end Carried

end Correspondence

open Correspondence

variable {K : Correspondence}

/-- **Sequences that correspond are read alike.** Induction over what is read. The sequence on
the other side is taken apart as the first one is: a token that is looked at there has one
that stands for it, and an operand may be a piece. -/
theorem Rule.Reads.carried {r : Rule} {us ts ws : List Token} {x : Except EvalError Value}
    (h : Reads r us ts x) (hws : K.Corresponds (us ++ ts) ws) : K.Carried r us ts x ws := by
  induction h generalizing ws with
  | empty hk =>
      obtain ⟨t', ws', rfl, ht, hts⟩ := hws.tail (by simp [hk]) (by simp [hk])
      exact ⟨[t'], ws', .ok 0, rfl, .empty ((K.alike ht).kind_eq hk), .single ht, .ok 0,
        fun _ _ => hts⟩
  | whole hk _ ih =>
      obtain ⟨us', ts', x', rfl, hread, hus, hx, hts⟩ := ih hws
      obtain ⟨t', us', rfl, ht⟩ := hus.head
      exact ⟨_, ts', x', rfl, .whole ((K.alike ht).kind_ne hk) hread, hus, hx, hts⟩
  | firstFails _ ih =>
      obtain ⟨us', ts', x', rfl, hread, hus, hx, -⟩ := ih hws
      obtain ⟨e', rfl⟩ := hx.exists_error
      exact ⟨us', ts', _, rfl, .firstFails hread, hus, hx, nofun⟩
  | first _ _ ih₁ ih₂ =>
      rw [List.append_assoc] at hws
      obtain ⟨us', ws', x', rfl, hread₁, hus, hx, hrest⟩ := ih₁ hws
      obtain rfl := hx.eq_ok
      obtain ⟨vs', ts', x', rfl, hread₂, hvs, hx, hts⟩ := ih₂ (hrest _ rfl)
      exact ⟨us' ++ vs', ts', x', (List.append_assoc _ _ _).symm, .first hread₁ hread₂,
        hus.append hvs, hx, hts⟩
  | closes hk =>
      obtain ⟨t', ws', rfl, ht⟩ := hws.head
      exact ⟨[], _, _, rfl, .closes ((K.alike ht).1 ▸ hk), .nil, .ok _, fun _ _ => hws⟩
  | strays hk =>
      obtain ⟨t', ws', rfl, ht⟩ := hws.head
      exact ⟨[t'], ws', _, rfl, .strays ((K.alike ht).1 ▸ hk), .single ht,
        .error .unexpectedToken ht, nofun⟩
  | nextFails hk _ ih =>
      obtain ⟨t', ws', rfl, ht, hk', hws'⟩ := hws.tail_of_joins hk
      obtain ⟨us', ts', x', rfl, hread, hus, hx, -⟩ := ih hws'
      obtain ⟨e', rfl⟩ := hx.exists_error
      exact ⟨t' :: us', ts', _, rfl, .nextFails hk' hread, .token ht hus, hx, nofun⟩
  | applyFails hk _ hop ih =>
      obtain ⟨t', ws', rfl, ht, hk', hws'⟩ := hws.tail_of_joins hk
      obtain ⟨us', ts', x', rfl, hread, hus, hx, -⟩ := ih hws'
      obtain rfl := hx.eq_ok
      obtain ⟨kind, hkind⟩ := Operator.exists_kind_of_applyAt hop
      obtain rfl := Except.error.inj (hop.symm.trans (hkind _ (Level.role_eq_joins_iff.mp hk).1).2)
      exact ⟨t' :: us', ts', _, rfl,
        .applyFails hk' hread (hkind t' (Level.role_eq_joins_iff.mp hk').1).2, .token ht hus,
        .error kind ht, nofun⟩
  | @next _ _ _ _ _ t us vs ts _ hk _ hop _ ih₁ ih₂ =>
      rw [List.cons_append, List.append_assoc] at hws
      obtain ⟨t', ws', rfl, ht, hk', hws'⟩ := hws.tail_of_joins hk
      obtain ⟨us', ws'', x', rfl, hread₁, hus, hx, hrest⟩ := ih₁ hws'
      obtain rfl := hx.eq_ok
      obtain ⟨vs', ts', x', rfl, hread₂, hvs, hx, hts⟩ := ih₂ (hrest _ rfl)
      rw [Operator.applyAt_eq_ok_iff, ← Operator.applyAt_eq_ok_iff (p := t'.position)] at hop
      exact ⟨t' :: (us' ++ vs'), ts', x', by simp, .next hk' hread₁ hop hread₂,
        .token ht (hus.append hvs), hx, hts⟩
  | @number t ts hk =>
      refine .of_token (.number hk) hws fun t' ws' ht hws' => ?_
      refine ⟨[t'], ws', t'.literal, rfl, .number ((K.alike ht).kind_eq hk), .single ht, ?_,
        fun _ _ => hws'⟩
      rcases (K.alike ht).literal hk with ⟨v, hv, hv'⟩ | ⟨he, he'⟩
      · rw [hv, hv']
        exact .ok v
      · rw [he, he']
        exact .error _ ht
  | misplaced hn hl =>
      obtain ⟨t', ws', rfl, ht⟩ := hws.head
      exact ⟨[t'], ws', _, rfl, .misplaced ((K.alike ht).kind_ne hn) ((K.alike ht).kind_ne hl),
        .single ht, .error .unexpectedToken ht, nofun⟩
  | groupFails hl hread ih =>
      refine .of_token (.groupFails hl hread) hws fun l' ws' hl' hws' => ?_
      obtain ⟨us', ts', x', rfl, hread', hus, hx, -⟩ := ih hws'
      obtain ⟨e', rfl⟩ := hx.exists_error
      exact ⟨l' :: us', ts', _, rfl, .groupFails ((K.alike hl').kind_eq hl) hread',
        .token hl' hus, hx, nofun⟩
  | @group l r us ts v hl hread hr ih =>
      refine .of_token (.group hl hread hr) hws fun l' ws' hl' hws' => ?_
      rw [List.append_assoc] at hws'
      obtain ⟨us', ws'', x', rfl, hread', hus, hx, hrest⟩ := ih hws'
      obtain rfl := hx.eq_ok
      obtain ⟨r', ts', rfl, hr', hts⟩ := (hrest _ rfl).tail (by simp [hr]) (by simp [hr])
      exact ⟨l' :: (us' ++ [r']), ts', _, by simp,
        .group ((K.alike hl').kind_eq hl) hread' ((K.alike hr').kind_eq hr),
        .token hl' (hus.append (.single hr')), .ok v, fun _ _ => hts⟩
  | @unmatched l r us ts v hl hread hr ih =>
      refine .of_token (.unmatched hl hread hr) hws fun l' ws' hl' hws' => ?_
      rw [List.append_assoc] at hws'
      obtain ⟨us', ws'', x', rfl, hread', hus, hx, hrest⟩ := ih hws'
      obtain rfl := hx.eq_ok
      obtain ⟨r', ts', rfl, hr'⟩ := (hrest _ rfl).head
      exact ⟨l' :: (us' ++ [r']), ts', _, by simp,
        .unmatched ((K.alike hl').kind_eq hl) hread' ((K.alike hr').kind_ne hr),
        .token hl' (hus.append (.single hr')), .error .unmatchedParen hr', nofun⟩

/-- Evaluation takes what corresponds from terminated sequences that do, and its outcomes
agree. -/
theorem Correspondence.Corresponds.exists_reads {ts ts' : List Token} (h : K.Corresponds ts ts')
    (hend : Terminated ts) (hend' : Terminated ts') :
    ∃ us rest us' rest', ts = us ++ rest ∧ ts' = us' ++ rest' ∧
      Rule.expression.Reads us rest (evaluate ts) ∧
      Rule.expression.Reads us' rest' (evaluate ts') ∧
      K.Corresponds us us' ∧ K.Agree (evaluate ts) (evaluate ts') := by
  obtain ⟨us, rest, hus, hread⟩ := (evaluate_eq_iff hend).mp rfl
  obtain ⟨us', rest', x', hus', hread', hcorr, hagree, -⟩ := hread.carried (hus ▸ h)
  obtain rfl := (evaluate_eq_iff hend').mpr ⟨us', rest', hus', hread'⟩
  exact ⟨us, rest, us', rest', hus, hus', hread, hread', hcorr, hagree⟩

/-- The outcomes, that is. -/
theorem Correspondence.Corresponds.agree {ts ts' : List Token} (h : K.Corresponds ts ts')
    (hend : Terminated ts) (hend' : Terminated ts') : K.Agree (evaluate ts) (evaluate ts') := by
  obtain ⟨us, rest, us', rest', -, -, -, -, -, hagree⟩ := h.exists_reads hend hend'
  exact hagree

/-! ### Positions and spellings -/

/-- A correspondence that exchanges no pieces. -/
def Correspondence.ofTokens (token : Token → Token → Prop)
    (h : ∀ {t t'}, token t t' → t.Alike t') : Correspondence where
  token := token
  piece _ _ := False
  alike := h
  operand := False.elim
  head := False.elim

/-- Where no pieces are exchanged and every token is replaced by one that stands for it, a rule
takes the tokens in the same places, and the outcomes agree. -/
theorem Rule.Reads.exists_map {r : Rule} {us ts : List Token} {x : Except EvalError Value}
    {f : Token → Token} (h : Reads r us ts x) (hp : ∀ gs gs', ¬K.piece gs gs')
    (hf : ∀ t, K.token t (f t)) :
    ∃ x', Reads r (us.map f) (ts.map f) x' ∧ K.Agree x x' := by
  have hall : K.Corresponds ((us ++ ts).map id) ((us ++ ts).map f) := .map fun t _ => hf t
  rw [List.map_id] at hall
  obtain ⟨us', ts', x', heq, hread, hus, hx, -⟩ := h.carried hall
  have hlen : (us.map f).length = us'.length := (List.length_map _).trans (hus.length_eq hp)
  rw [List.map_append] at heq
  obtain ⟨rfl, rfl⟩ := List.append_inj heq hlen
  exact ⟨x', hread, hx⟩

/-- What has a value has it, too, when its tokens are replaced by others that are alike. -/
theorem Rule.Reads.map {r : Rule} {us ts : List Token} {v : Value} {f : Token → Token}
    (h : Reads r us ts (.ok v)) (hf : ∀ t : Token, t.Alike (f t)) :
    Reads r (us.map f) (ts.map f) (.ok v) := by
  obtain ⟨x', hread, hx⟩ := h.exists_map (K := ofTokens Token.Alike id) (fun _ _ => False.elim) hf
  exact hx.eq_ok ▸ hread

/-- What is alike index by index ends with the same kind of token. -/
theorem Terminated.of_alike {ts ts' : List Token} (hend : Terminated ts)
    (hlen : ts.length = ts'.length)
    (halike : ∀ (j : Nat) t t', ts[j]? = some t → ts'[j]? = some t' → Token.Alike t t') :
    Terminated ts' := by
  obtain ⟨t, ht, hk⟩ := Option.map_eq_some_iff.mp hend
  have hpos := List.length_pos_iff.mpr hend.ne_nil
  have hlt : ts'.length - 1 < ts'.length := by omega
  rw [List.getLast?_eq_getElem?, hlen] at ht
  have hlast := List.getElem?_eq_getElem hlt
  rw [Terminated, List.getLast?_eq_getElem?, hlast, Option.map_some,
    (halike _ _ _ ht hlast).kind_eq hk]

/-- Errors of one kind have one cause when the texts of the tokens blamed are equal. -/
theorem EvalError.Kind.error_eq {t t' : Token} (kind : Kind) (h : t.text = t'.text) :
    kind.error t' = ⟨(kind.error t).cause, t'.position⟩ := by
  cases kind <;> simp [error, h]

/-- **Positions and spellings do not influence evaluation.** Two terminated sequences that are
alike index by index have one value, or the same error for the tokens at one index; the cursors
stop at one index. Two texts whose tokens also have the same texts have one value, or errors
of one cause that point at the tokens at one index. -/
theorem evaluate_alike {ts ts' : List Token} (hend : Terminated ts)
    (hlen : ts.length = ts'.length)
    (halike : ∀ (j : Nat) t t', ts[j]? = some t → ts'[j]? = some t' → t.Alike t') :
    (∃ c c', (Cursor.ofList ts).run .expression = some (evaluate ts, c) ∧
      (Cursor.ofList ts').run .expression = some (evaluate ts', c') ∧ c.index = c'.index) ∧
    ((∃ v, evaluate ts = .ok v ∧ evaluate ts' = .ok v) ∨
      ∃ (kind : Kind) (j : Nat) (t t' : Token), ts[j]? = some t ∧ ts'[j]? = some t' ∧
        evaluate ts = .error (kind.error t) ∧ evaluate ts' = .error (kind.error t')) ∧
    ∀ source source', tokenize source = .ok ts → tokenize source' = .ok ts' →
      ts.map Token.text = ts'.map Token.text →
      (∃ v, calculate source = .ok v ∧ calculate source' = .ok v) ∨
        ∃ (cause : EvalError.Cause) (j : Nat) (t t' : Token),
          ts[j]? = some t ∧ ts'[j]? = some t' ∧
          calculate source = .error (.evaluation ⟨cause, t.position⟩) ∧
          calculate source' = .error (.evaluation ⟨cause, t'.position⟩) := by
  have hend' : Terminated ts' := hend.of_alike hlen halike
  have hall : (ofTokens (fun t t' => t.Alike t' ∧ ∃ j : Nat, ts[j]? = some t ∧ ts'[j]? = some t')
      And.left).Corresponds ts ts' :=
    .of_getElem? hlen fun j t t' ht ht' => ⟨halike j t t' ht ht', j, ht, ht'⟩
  obtain ⟨us, rest, us', rest', hus, hus', hread, hread', hcorr, hagree⟩ :=
    hall.exists_reads hend hend'
  have hindex : us.length = us'.length := hcorr.length_eq fun _ _ => False.elim
  have hout : (∃ v, evaluate ts = .ok v ∧ evaluate ts' = .ok v) ∨
      ∃ (kind : Kind) (j : Nat) (t t' : Token), ts[j]? = some t ∧ ts'[j]? = some t' ∧
        evaluate ts = .error (kind.error t) ∧ evaluate ts' = .error (kind.error t') := by
    generalize evaluate ts = x, evaluate ts' = x' at hagree
    cases hagree with
    | ok v => exact .inl ⟨v, rfl, rfl⟩
    | error kind ht =>
        obtain ⟨-, j, hj, hj'⟩ := ht
        exact .inr ⟨kind, j, _, _, hj, hj', rfl, rfl⟩
  refine ⟨⟨⟨us.reverse, rest⟩, ⟨us'.reverse, rest'⟩, ?_, ?_, ?_⟩, hout, ?_⟩
  · exact (Cursor.run_eq_some_iff hend).mpr ⟨us, rest, hus, by simp [Cursor.ofList], hread⟩
  · exact (Cursor.run_eq_some_iff hend').mpr ⟨us', rest', hus', by simp [Cursor.ofList], hread'⟩
  · simpa [Cursor.index] using hindex
  · intro source source' htok htok' htext
    rw [calculate_of_tokenize htok, calculate_of_tokenize htok']
    rcases hout with ⟨v, hv, hv'⟩ | ⟨kind, j, t, t', hj, hj', he, he'⟩
    · exact .inl ⟨v, mapError_eq_ok_iff.mpr hv, mapError_eq_ok_iff.mpr hv'⟩
    · have hsame : t.text = t'.text := by
        have hmap := congrArg (·[j]?) htext
        simpa [hj, hj'] using hmap
      have hkind : kind.error t = ⟨(kind.error t).cause, t.position⟩ := kind.error_eq rfl
      refine .inr ⟨(kind.error t).cause, j, t, t', hj, hj', ?_, ?_⟩
      · exact mapError_eq_error_iff.mpr ⟨_, he, congrArg _ hkind⟩
      · exact mapError_eq_error_iff.mpr ⟨_, he', congrArg _ (kind.error_eq hsame)⟩

/-- In `7/0` and in ` 7 / 0` the same token is to blame. -/
theorem evaluate_alike_division :
    ∃ (cause : EvalError.Cause) (j : Nat) (t t' : Token),
      [⟨.number, "7", 0⟩, ⟨.operator .div, "/", 1⟩, ⟨.number, "0", 2⟩, Token.endAt 3][j]? =
        some t ∧
      [⟨.number, "7", 1⟩, ⟨.operator .div, "/", 3⟩, ⟨.number, "0", 5⟩, Token.endAt 6][j]? =
        some t' ∧
      calculate "7/0" = .error (.evaluation ⟨cause, t.position⟩) ∧
      calculate " 7 / 0" = .error (.evaluation ⟨cause, t'.position⟩) := by
  have hspell : Lexer.Spells 0 ['7', '/', '0'] [⟨.number, "7", 0⟩, ⟨.operator .div, "/", 1⟩,
      ⟨.number, "0", 2⟩, Token.endAt 3] :=
    @Lexer.Spells.number 0 ['7'] ['/', '0'] _ (by simp) (by simp) (by simp)
      (.symbol rfl (@Lexer.Spells.number 2 ['0'] [] _ (by simp) (by simp) (by simp) .done))
  have hspell' : Lexer.Spells 0 [' ', '7', ' ', '/', ' ', '0'] [⟨.number, "7", 1⟩,
      ⟨.operator .div, "/", 3⟩, ⟨.number, "0", 5⟩, Token.endAt 6] :=
    .space (@Lexer.Spells.number 1 ['7'] [' ', '/', ' ', '0'] _ (by simp) (by simp) (by simp)
      (.space (.symbol rfl (.space (@Lexer.Spells.number 5 ['0'] [] _ (by simp) (by simp)
        (by simp) .done)))))
  have htok : tokenize "7/0" = _ := hspell.scan_eq
  have htok' : tokenize " 7 / 0" = _ := hspell'.scan_eq
  have hsource := (evaluate_alike hspell.terminated (by rfl) (by
    intro j t t' ht ht'
    match j with
    | 0 | 1 | 2 | 3 =>
        cases ht
        cases ht'
        exact ⟨rfl, fun _ => rfl⟩
    | j + 4 => cases ht)).2.2 _ _ htok htok' rfl
  rcases hsource with ⟨v, hv, -⟩ | herror
  · rw [calculate_of_tokenize htok] at hv
    cases hv
  · exact herror

end Abacus
