import Abacus.Proofs.Checked
import Abacus.Proofs.Reads

/-!
# Derivation trees

The grammar of expressions, as trees: a primary is a number or a chain of sums in
parentheses, and a chain of a level is an operand of that level, or a chain with an
operator of the level and one more operand behind it. So a chain grows to the right and
groups to the left, and a tree is exactly a derivation of its tokens: the types leave no
room for an ill-formed one.

A tree has two values. `Derivation.exact` works over the unbounded integers and knows no
failure; `Derivation.eval` is checked, operand by operand from the left, and fails with the
first thing that goes wrong.

## Main results

* `Derivation.eval_eq_ok_iff`: the checked value is the exact one, and exists exactly when
  every number of the tree fits and no divisor is zero.
* `Derivation.faithful`: reading the tokens of a tree comes to its checked value, or to the
  error that its checked evaluation meets first.
* `Rule.Reads.builds`: whatever is read with a value has a tree with that value.
* `Derivation.eq_of_append_eq`: **the grammar is unambiguous**.
-/

namespace Abacus

/-- A derivation tree of a rule of the grammar. -/
inductive Derivation : Rule → Type
  /-- A number. -/
  | number (t : Token) (ht : t.kind = .number) : Derivation .primary
  /-- A chain of sums in parentheses. -/
  | group (l : Token) (hl : l.kind = .leftParen) (inner : Derivation (.chain .sum))
      (r : Token) (hr : r.kind = .rightParen) : Derivation .primary
  /-- A chain of one operand. -/
  | first {level : Level} (operand : Derivation level.operand) : Derivation (.chain level)
  /-- A chain with one more operator of its level, and an operand behind that. -/
  | node {level : Level} (left : Derivation (.chain level)) (op : Operator) (t : Token)
      (ht : t.kind = .operator op) (hop : op.level = level)
      (right : Derivation level.operand) : Derivation (.chain level)

namespace Derivation

variable {r : Rule}

/-- The tokens that a tree derives. -/
def tokens : {r : Rule} → Derivation r → List Token
  | _, number t _ => [t]
  | _, group l _ inner r _ => l :: (inner.tokens ++ [r])
  | _, first operand => operand.tokens
  | _, node left _ t _ _ right => left.tokens ++ t :: right.tokens

/-- A tree derives at least one token, and the first is no mark for the end. -/
theorem exists_cons (d : Derivation r) :
    ∃ t us, d.tokens = t :: us ∧ t.kind ≠ .endMark := by
  induction d with
  | number t ht => exact ⟨t, [], rfl, by simp [ht]⟩
  | group l hl inner r _ _ => exact ⟨l, inner.tokens ++ [r], rfl, by simp [hl]⟩
  | first _ ih => exact ih
  | node left op t' _ _ right ihl _ =>
      obtain ⟨t, us, htok, hk⟩ := ihl
      exact ⟨t, us ++ t' :: right.tokens, by rw [tokens, htok, List.cons_append], hk⟩

/-- The value of a tree over the unbounded integers, quotients truncated. The text of a
number that is no numeral counts as zero. -/
def exact : {r : Rule} → Derivation r → Int
  | _, number t _ => (Numeral.int? t.text.toList).getD 0
  | _, group _ _ inner _ _ => inner.exact
  | _, first operand => operand.exact
  | _, node left op _ _ _ right => op.exact left.exact right.exact

/-- Every number of the tree is a numeral of a 64-bit value, every intermediate result fits
64 bits, and no divisor is zero. -/
def InRange : {r : Rule} → Derivation r → Prop
  | _, number t _ => ∃ n, Numeral.int? t.text.toList = some n ∧ Value.Fits n
  | _, group _ _ inner _ _ => inner.InRange
  | _, first operand => operand.InRange
  | _, node left op _ _ _ right =>
      left.InRange ∧ right.InRange ∧ ¬(op = .div ∧ right.exact = 0) ∧
        Value.Fits (op.exact left.exact right.exact)

/-- The checked value of a tree: left operand, right operand, then the operator, and the
first failure ends it. -/
def eval : {r : Rule} → Derivation r → Except EvalError Value
  | _, number t _ => t.literal
  | _, group _ _ inner _ _ => inner.eval
  | _, first operand => operand.eval
  | _, node left op t _ _ right => do
      let a ← left.eval
      let b ← right.eval
      op.applyAt t.position a b

/-! ### The exact value and the checked one -/

/-- The exact value of a tree in range is a value. -/
theorem exists_toInt_eq {d : Derivation r} (h : d.InRange) :
    ∃ v : Value, d.exact = v.toInt := by
  induction d with
  | number t _ =>
      obtain ⟨n, hn, hfit⟩ := h
      exact ⟨Int64.ofInt n, by rw [exact, hn, Value.toInt_ofInt hfit, Option.getD_some]⟩
  | group _ _ _ _ _ ih => exact ih h
  | first _ ih => exact ih h
  | node _ _ _ _ _ _ _ _ =>
      obtain ⟨-, -, -, hfit⟩ := h
      exact ⟨_, (Value.toInt_ofInt hfit).symm⟩

/-- **Success is exact.** The checked value exists exactly when nothing in the tree leaves
the range, and is then the exact value. -/
theorem eval_eq_ok_iff {d : Derivation r} {v : Value} :
    d.eval = .ok v ↔ d.InRange ∧ d.exact = v.toInt := by
  induction d generalizing v with
  | number t _ =>
      rw [eval, InRange, exact, Token.literal_eq_ok_iff]
      constructor
      · intro h
        exact ⟨⟨_, h, v.fits_toInt⟩, by rw [h, Option.getD_some]⟩
      · rintro ⟨⟨n, hn, -⟩, h⟩
        rw [hn, Option.getD_some] at h
        rw [hn, h]
  | group _ _ _ _ _ ih => exact ih
  | first _ ih => exact ih
  | node left op t _ _ right ihl ihr =>
      rw [eval, bind_eq_ok_iff]
      simp only [bind_eq_ok_iff, Operator.applyAt_eq_ok_iff, InRange, exact]
      constructor
      · rintro ⟨a, ha, b, hb, hz, hv⟩
        obtain ⟨hl, hla⟩ := ihl.mp ha
        obtain ⟨hr, hrb⟩ := ihr.mp hb
        rw [hla, hrb]
        exact ⟨⟨hl, hr, hz, hv ▸ v.fits_toInt⟩, hv.symm⟩
      · rintro ⟨⟨hl, hr, hz, hfit⟩, hv⟩
        obtain ⟨a, ha⟩ := exists_toInt_eq hl
        obtain ⟨b, hb⟩ := exists_toInt_eq hr
        rw [ha, hb] at hv
        rw [hb] at hz
        exact ⟨a, ihl.mpr ⟨hl, ha⟩, b, ihr.mpr ⟨hr, hb⟩, hz, hv.symm⟩

end Derivation

/-! ### What stands behind a chain -/

/-- The tokens begin with one that is not misplaced behind an operand of the level. -/
def Level.Admits (level : Level) (ts : List Token) : Prop :=
  ∃ t ts', ts = t :: ts' ∧ level.role t.kind ≠ .strays

/-- An operator of the level may stand behind an operand of the level. -/
theorem Level.admits_of_joins {level : Level} {t : Token} {op : Operator} {ts : List Token}
    (h : level.role t.kind = .joins op) : level.Admits (t :: ts) :=
  ⟨t, ts, rfl, by simp [h]⟩

/-- Whatever closes a chain may stand behind its last operand. -/
theorem Level.admits_of_closes {level : Level} {t : Token} {ts : List Token}
    (h : level.role t.kind = .closes) : level.Admits (t :: ts) :=
  ⟨t, ts, rfl, by simp [h]⟩

/-- In front of the tokens the rule fails with the error. -/
def Rule.Fails (r : Rule) (ts : List Token) (e : EvalError) : Prop :=
  ∃ us vs, ts = us ++ vs ∧ r.Reads us vs (.error e)

/-! ### A tree is read as its tokens, with its checked value -/

namespace Derivation

open Rule (Reads Fails)

/-- Reading the tokens of a tree comes to its checked value. For a chain this is said with
what may follow it: the rest of the chain is read with the value of the tree so far. -/
def Faithful : {r : Rule} → Derivation r → Prop
  | .chain level, d =>
      (∀ v, d.eval = .ok v → ∀ us ts x, level.Admits (us ++ ts) →
        Reads (.rest level v) us ts x → Reads (.chain level) (d.tokens ++ us) ts x) ∧
      (∀ e, d.eval = .error e → ∀ ts, level.Admits ts →
        Fails (.chain level) (d.tokens ++ ts) e)
  | r, d =>
      (∀ v, d.eval = .ok v → ∀ ts, Reads r d.tokens ts (.ok v)) ∧
      (∀ e, d.eval = .error e → ∀ ts, Fails r (d.tokens ++ ts) e)

/-- A chain is read with its value in front of anything that closes it. -/
theorem Faithful.reads_chain {level : Level} {d : Derivation (.chain level)} {v : Value}
    {t : Token} {ts : List Token} (h : d.Faithful) (hv : d.eval = .ok v)
    (hclose : level.role t.kind = .closes) :
    Reads (.chain level) d.tokens (t :: ts) (.ok v) := by
  have hread := h.1 v hv [] (t :: ts) (.ok v) (Level.admits_of_closes hclose) (.closes hclose)
  rwa [List.append_nil] at hread

/-- An operand is read with its value in front of anything that may follow it. -/
theorem Faithful.reads_operand {level : Level} {d : Derivation level.operand} {v : Value}
    {ts : List Token} (h : d.Faithful) (hv : d.eval = .ok v) (hts : level.Admits ts) :
    Reads level.operand d.tokens ts (.ok v) := by
  cases level with
  | sum =>
      obtain ⟨t, ts', rfl, hk⟩ := hts
      exact h.reads_chain hv (Level.closes_product hk)
  | product => exact h.1 v hv ts

/-- An operand fails with its error in front of anything that may follow it. -/
theorem Faithful.fails_operand {level : Level} {d : Derivation level.operand} {e : EvalError}
    {ts : List Token} (h : d.Faithful) (he : d.eval = .error e) (hts : level.Admits ts) :
    Fails level.operand (d.tokens ++ ts) e := by
  cases level with
  | sum =>
      obtain ⟨t, ts', rfl, hk⟩ := hts
      exact h.2 e he _ (Level.admits_of_closes (Level.closes_product hk))
  | product => exact h.2 e he ts

/-- Reading the tokens of a tree comes to its checked value. -/
theorem faithful (d : Derivation r) : d.Faithful := by
  induction d with
  | number t ht =>
      constructor
      · intro v hv ts
        exact hv ▸ Reads.number ht
      · intro e he ts
        exact ⟨[t], ts, rfl, he ▸ Reads.number ht⟩
  | group l hl inner r hr ih =>
      have hclose : Level.sum.role r.kind = .closes := by rw [hr]; rfl
      constructor
      · intro v hv ts
        exact .group hl (ih.reads_chain hv hclose) hr
      · intro e he ts
        obtain ⟨us, vs, hus, hread⟩ := ih.2 e he (r :: ts) (Level.admits_of_closes hclose)
        refine ⟨l :: us, vs, ?_, .groupFails hl hread⟩
        rw [List.cons_append, ← hus, tokens]
        simp
  | @first level operand ih =>
      constructor
      · intro v hv us ts x hadm hrest
        exact .first (ih.reads_operand hv hadm) hrest
      · intro e he ts hadm
        obtain ⟨us, vs, hus, hread⟩ := ih.fails_operand he hadm
        exact ⟨us, vs, hus, .firstFails hread⟩
  | @node level left op t ht hop right ihl ihr =>
      have hjoin : level.role t.kind = .joins op := Level.role_eq_joins_iff.mpr ⟨ht, hop⟩
      constructor
      · intro v hv us ts x hadm hrest
        obtain ⟨a, ha, hv⟩ := bind_eq_ok_iff.mp hv
        obtain ⟨b, hb, hv⟩ := bind_eq_ok_iff.mp hv
        have hnext : Reads (.rest level a) (t :: (right.tokens ++ us)) ts x :=
          .next hjoin (ihr.reads_operand hb hadm) hv hrest
        have hread := ihl.1 a ha _ ts x (Level.admits_of_joins hjoin) hnext
        rwa [tokens, List.append_assoc]
      · intro e he ts hadm
        have happ : (node left op t ht hop right).tokens ++ ts =
            left.tokens ++ (t :: (right.tokens ++ ts)) := by
          rw [tokens, List.append_assoc, List.cons_append]
        rw [happ]
        rcases bind_eq_error_iff.mp he with ha | ⟨a, ha, he⟩
        · exact ihl.2 e ha _ (Level.admits_of_joins hjoin)
        -- Behind the value of the left operand it is the rest of the chain that fails.
        · suffices hrest : Fails (.rest level a) (t :: (right.tokens ++ ts)) e by
            obtain ⟨us, vs, hus, hread⟩ := hrest
            refine ⟨left.tokens ++ us, vs, by rw [hus, List.append_assoc], ?_⟩
            exact ihl.1 a ha us vs _ (hus ▸ Level.admits_of_joins hjoin) hread
          rcases bind_eq_error_iff.mp he with hb | ⟨b, hb, he⟩
          · obtain ⟨us, vs, hus, hread⟩ := ihr.fails_operand hb hadm
            exact ⟨t :: us, vs, by rw [hus, List.cons_append], .nextFails hjoin hread⟩
          · exact ⟨t :: right.tokens, ts, rfl,
              .applyFails hjoin (ihr.reads_operand hb hadm) he⟩

end Derivation

/-! ### What is read with a value has a tree -/

namespace Rule

/-- The tokens read with the value have a tree with that value. The tokens of the rest of a
chain extend every tree of the chain so far. -/
def Builds : Rule → List Token → Value → Prop
  | expression, _, _ => True
  | rest level left, us, v =>
      ∀ d : Derivation (chain level), d.eval = .ok left →
        ∃ d' : Derivation (chain level), d'.tokens = d.tokens ++ us ∧ d'.eval = .ok v
  | r, us, v => ∃ d : Derivation r, d.tokens = us ∧ d.eval = .ok v

/-- The operands of a chain have trees of their own. -/
theorem Builds.exists_operand {level : Level} {us : List Token} {v : Value}
    (h : level.operand.Builds us v) :
    ∃ d : Derivation level.operand, d.tokens = us ∧ d.eval = .ok v := by
  cases level <;> exact h

/-- Whatever is read with a value has a tree with that value. -/
theorem Reads.builds {r : Rule} {us ts : List Token} {v : Value}
    (h : Reads r us ts (.ok v)) : r.Builds us v := by
  generalize hx : Except.ok v = x at h
  induction h generalizing v with
  | empty | whole => trivial
  | first _ _ ih₁ ih₂ =>
      obtain ⟨d, rfl, hd⟩ := (ih₁ rfl).exists_operand
      obtain ⟨d', htok, hd'⟩ := ih₂ hx (.first d) hd
      exact ⟨d', htok, hd'⟩
  | closes =>
      cases hx
      intro d hd
      exact ⟨d, (List.append_nil _).symm, hd⟩
  | @next level left right w op t us vs ts x hk _ hop _ ih₁ ih₂ =>
      intro d hd
      obtain ⟨e, rfl, he⟩ := (ih₁ rfl).exists_operand
      obtain ⟨ht, hlevel⟩ := Level.role_eq_joins_iff.mp hk
      have hnode : (Derivation.node d op t ht hlevel e).eval = .ok w := by
        rw [Derivation.eval, bind_eq_ok_iff]
        exact ⟨left, hd, bind_eq_ok_iff.mpr ⟨right, he, hop⟩⟩
      obtain ⟨d', htok, hd'⟩ := ih₂ hx _ hnode
      refine ⟨d', ?_, hd'⟩
      rw [htok, Derivation.tokens, List.append_assoc, List.cons_append]
  | @number t _ hk => exact ⟨.number t hk, rfl, hx.symm⟩
  | @group l r _ _ _ hl _ hr ih =>
      cases hx
      obtain ⟨d, rfl, hd⟩ := ih rfl
      exact ⟨.group l hl d r hr, rfl, hd⟩
  | _ => cases hx

/-- A chain that has a value has it in front of whatever closes it. -/
theorem Reads.closed_by {level : Level} {us ts ts' : List Token} {t : Token} {v : Value}
    (h : Reads (chain level) us ts (.ok v)) (hclose : level.role t.kind = .closes) :
    Reads (chain level) us (t :: ts') (.ok v) := by
  obtain ⟨d, rfl, hd⟩ := h.builds
  exact d.faithful.reads_chain hd hclose

end Rule

/-! ### The grammar is unambiguous

A chain cannot be compared with another from the left end of its tree, where the trees are
deepest, nor by its last operator, which need not be the other's last. What can be compared
is how far two chains over the same tokens have grown: one of them extends the other. -/

namespace Derivation

/-- The chain `d'` is the chain `d`, or `d` with more operands behind it. -/
inductive Extends {level : Level} : Derivation (.chain level) → Derivation (.chain level) → Prop
  | refl {d : Derivation (.chain level)} : Extends d d
  | node {d left : Derivation (.chain level)} {op : Operator} {t : Token}
      {ht : t.kind = .operator op} {hop : op.level = level}
      {right : Derivation level.operand} :
      Extends d left → Extends d (.node left op t ht hop right)

variable {level : Level} {d d' : Derivation (.chain level)}

/-- Every chain has grown from its first operand. -/
theorem exists_extends_first : (d : Derivation (.chain level)) → ∃ o, Extends (.first o) d
  | .first o => ⟨o, .refl⟩
  | .node left _ _ _ _ _ =>
      let ⟨o, h⟩ := exists_extends_first left
      ⟨o, .node h⟩

/-- A chain that has grown has grown by one operand first. -/
theorem Extends.eq_or_exists_node (h : Extends d d') :
    d = d' ∨ ∃ op t ht hop right, Extends (.node d op t ht hop right) d' := by
  induction h with
  | refl => exact .inl rfl
  | @node left op t ht hop right _ ih =>
      right
      rcases ih with rfl | ⟨op', t', ht', hop', right', h⟩
      · exact ⟨op, t, ht, hop, right, .refl⟩
      · exact ⟨op', t', ht', hop', right', .node h⟩

/-- What a chain has grown by may stand where the chain ended. -/
theorem Extends.exists_append (h : Extends d d') :
    ∃ us, d'.tokens = d.tokens ++ us ∧ ∀ s, level.Admits s → level.Admits (us ++ s) := by
  induction h with
  | refl => exact ⟨[], (List.append_nil _).symm, fun _ hs => hs⟩
  | @node left op t ht hop right _ ih =>
      obtain ⟨us, hus, hadm⟩ := ih
      refine ⟨us ++ t :: right.tokens, by rw [tokens, hus, List.append_assoc], ?_⟩
      intro s _
      rw [List.append_assoc]
      exact hadm _ (Level.admits_of_joins (Level.role_eq_joins_iff.mpr ⟨ht, hop⟩))

/-- A chain that is closed behind its tokens has not grown any further. -/
theorem Extends.eq_of_closes (h : Extends d d') {t : Token} {ts s : List Token}
    (hclose : level.role t.kind = .closes) (heq : d.tokens ++ t :: ts = d'.tokens ++ s) :
    d = d' := by
  rcases h.eq_or_exists_node with rfl | ⟨op, t', ht, hop, right, h⟩
  · rfl
  · obtain ⟨us, hus, -⟩ := h.exists_append
    rw [hus, tokens, List.append_assoc, List.append_assoc, List.append_cancel_left_eq,
      List.cons_append, List.cons.injEq] at heq
    rw [heq.1, Level.role_eq_joins_iff.mpr ⟨ht, hop⟩] at hclose
    cases hclose

/-- The tokens of a tree, and what follows them, determine the tree; of chains, one extends
the other. -/
def Determined : {r : Rule} → Derivation r → Prop
  | .chain level, d =>
      ∀ (d' : Derivation (.chain level)) (s s' : List Token),
        d.tokens ++ s = d'.tokens ++ s' → level.Admits s → level.Admits s' →
        Extends d d' ∨ Extends d' d
  | r, d => ∀ (d' : Derivation r) (s s' : List Token), d.tokens ++ s = d'.tokens ++ s' → d = d'

/-- Two chains over the same tokens, each closed behind its own, are one. -/
theorem Determined.eq_of_closes (h : d.Determined) {t t' : Token} {ts ts' : List Token}
    (hclose : level.role t.kind = .closes) (hclose' : level.role t'.kind = .closes)
    (heq : d.tokens ++ t :: ts = d'.tokens ++ t' :: ts') : d = d' := by
  rcases h d' _ _ heq (Level.admits_of_closes hclose) (Level.admits_of_closes hclose') with h | h
  · exact h.eq_of_closes hclose heq
  · exact (h.eq_of_closes hclose' heq.symm).symm

/-- Two operands over the same tokens, each with something behind it that may stand there,
are one. -/
theorem Determined.eq_operand {o o' : Derivation level.operand} (h : o.Determined)
    {s s' : List Token} (hs : level.Admits s) (hs' : level.Admits s')
    (heq : o.tokens ++ s = o'.tokens ++ s') : o = o' := by
  cases level with
  | sum =>
      obtain ⟨t, ts, rfl, hk⟩ := hs
      obtain ⟨t', ts', rfl, hk'⟩ := hs'
      exact h.eq_of_closes (Level.closes_product hk) (Level.closes_product hk') heq
  | product => exact h o' s s' heq

/-- The tokens of a tree, and what follows them, determine the tree. -/
theorem determined {r : Rule} (d : Derivation r) : d.Determined := by
  induction d with
  | number t ht =>
      intro d' s s' heq
      cases d' with
      | number t' ht' =>
          obtain ⟨rfl, -⟩ := List.cons.inj heq
          rfl
      | group l hl =>
          obtain ⟨rfl, -⟩ := List.cons.inj heq
          rw [ht] at hl
          cases hl
  | group l hl inner r hr ih =>
      intro d' s s' heq
      cases d' with
      | number t ht =>
          obtain ⟨rfl, -⟩ := List.cons.inj heq
          rw [hl] at ht
          cases ht
      | group l' hl' inner' r' hr' =>
          simp only [tokens, List.cons_append, List.append_assoc, List.cons.injEq,
            List.nil_append] at heq
          obtain ⟨rfl, heq⟩ := heq
          obtain rfl := ih.eq_of_closes (by rw [hr]; rfl) (by rw [hr']; rfl) heq
          obtain ⟨rfl, -⟩ := List.cons.inj (List.append_cancel_left heq)
          rfl
  | @first level o ih =>
      intro d' s s' heq hs hs'
      obtain ⟨o', hext⟩ := exists_extends_first d'
      obtain ⟨us, hus, hadm⟩ := hext.exists_append
      rw [hus, List.append_assoc] at heq
      obtain rfl := ih.eq_operand hs (hadm _ hs') heq
      exact .inl hext
  | @node level left op t ht hop right ihl ihr =>
      intro d' s s' heq hs hs'
      have hjoin := Level.role_eq_joins_iff.mpr ⟨ht, hop⟩
      rw [tokens, List.append_assoc, List.cons_append] at heq
      rcases ihl d' _ _ heq (Level.admits_of_joins hjoin) hs' with h | h
      · rcases h.eq_or_exists_node with rfl | ⟨op', t', ht', hop', right', h'⟩
        · exact .inr (.node .refl)
        · obtain ⟨us, hus, hadm⟩ := h'.exists_append
          rw [hus, tokens, List.append_assoc, List.append_assoc, List.append_cancel_left_eq,
            List.cons_append, List.cons.injEq] at heq
          obtain ⟨rfl, heq⟩ := heq
          obtain rfl : op = op' := by
            rw [ht] at ht'
            exact Token.Kind.operator.inj ht'
          obtain rfl := ihr.eq_operand hs (hadm _ hs') heq
          exact .inl h'
      · exact .inr (.node h)

/-- **The grammar is unambiguous**: two chains over the same tokens, each closed behind its
own, have one tree. -/
theorem eq_of_append_eq {t t' : Token} {ts ts' : List Token}
    (hclose : level.role t.kind = .closes) (hclose' : level.role t'.kind = .closes)
    (heq : d.tokens ++ t :: ts = d'.tokens ++ t' :: ts') : d = d' :=
  d.determined.eq_of_closes hclose hclose' heq

end Derivation

/-- A phrase of a rule: the tokens of one of its trees. -/
def Rule.Phrase (r : Rule) (ts : List Token) : Prop :=
  ∃ d : Derivation r, d.tokens = ts

end Abacus
