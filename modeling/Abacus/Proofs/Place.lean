import Abacus.Proofs.Blame
import Abacus.Proofs.Locality

/-!
# Where a rule leaves its cursor

After an error a cursor can be read on, so the place where a rule leaves it belongs to what the
rule says. With a value, a chain stops in front of a token that is not its own and that closes
it, and a primary stops behind its last token; what lies in between is balanced. With an error,
a rule breaks off as `Rule.Breaks` says, behind the token that the error quotes or behind the
right operand of the operator that fails. Here both are said by the indices of a sequence.

In a terminated sequence a rule always gets on by a token at least, and never to a place outside
the sequence.

## Main results

* `Rule.Reads.endsAt`, `Rule.Breaks.breaksAt`: the index behind a value and behind an error.
* `Cursor.run_place`: the place of the cursor behind every rule and every outcome.
-/

namespace Abacus

/-! ### Places in a sequence -/

/-- The kinds of the tokens that close a chain of the level. -/
def Level.closers : Level → List Token.Kind
  | .sum => [.rightParen, .endMark]
  | .product => [.rightParen, .operator .add, .operator .sub, .endMark]

/-- A chain is closed by the tokens of these kinds and by no others. -/
theorem Level.role_eq_closes_iff {level : Level} {k : Token.Kind} :
    level.role k = .closes ↔ k ∈ level.closers := by
  cases level <;> rcases k with (_ | _ | _ | _) | _ | _ | _ | _ <;> simp [role, closers]

/-- The token at the index is of one of the kinds. -/
def KindAt (ts : List Token) (k : Nat) (kinds : List Token.Kind) : Prop :=
  ∃ t, ts[k]? = some t ∧ t.kind ∈ kinds

/-- The index `k` is one where the rule can leave a cursor with a value, when it found the
cursor at `i`. -/
def Rule.EndsAt (ts : List Token) (i k : Nat) : Rule → Prop
  | expression =>
      KindAt ts i [.endMark] ∧ k = i + 1 ∨
        ¬KindAt ts i [.endMark] ∧ KindAt ts k Level.sum.closers ∧
          Token.Balanced (ts.extract i k)
  | chain level | rest level _ => KindAt ts k level.closers ∧ Token.Balanced (ts.extract i k)
  | primary => KindAt ts (k - 1) [.number, .rightParen] ∧ Token.Balanced (ts.extract i k)

/-- An operator at the position `p` stands behind the index `i`, and between it and the index `k`
there is its right operand, whole: a primary, or a chain of products that is closed at `k`. -/
def OperandEndsAt (ts : List Token) (i k p : Nat) : Prop :=
  ∃ j t op, i < j ∧ j < k ∧ ts[j]? = some t ∧ t.kind = .operator op ∧ t.position = p ∧
    op.level.operand.Phrase (ts.extract (j + 1) k) ∧
      (op.level = .sum → KindAt ts k Level.product.closers)

/-- The index `k` is one where the error can leave a cursor, when the rule found it at `i`: just
behind the token that is quoted, or just behind the right operand of the operator that fails. -/
def EvalError.BreaksAt (ts : List Token) (i k : Nat) (e : EvalError) : Prop :=
  match e.cause with
  | .unexpectedToken text | .unmatchedParen text | .malformedNumber text =>
      ∃ t, ts[k - 1]? = some t ∧ t.text = text ∧ t.position = e.position
  | .divisionByZero | .overflow => OperandEndsAt ts i k e.position

section Places

variable {ts us rest : List Token} {i : Nat} {t : Token}

/-- Tokens that stand somewhere behind an index are cut out by the indices of their ends. -/
theorem extract_of_drop (front : List Token) (h : ts.drop i = front ++ (us ++ rest)) :
    ts.extract (i + front.length) (i + front.length + us.length) = us := by
  rw [List.extract_eq_take_drop, ← List.drop_drop, h, List.drop_left, Nat.add_sub_cancel_left,
    List.take_left]

/-- A token that stands somewhere behind an index. -/
theorem getElem?_of_drop (front : List Token) (h : ts.drop i = front ++ t :: rest) :
    ts[i + front.length]? = some t := by
  rw [← List.getElem?_drop, h, List.getElem?_append_right (Nat.le_refl _), Nat.sub_self]
  rfl

/-- Just behind a token stands the cursor that has taken it last. -/
theorem getElem?_of_drop_concat {front : List Token} (h : ts.drop i = (front ++ [t]) ++ rest) :
    ts[i + (front ++ [t]).length - 1]? = some t := by
  rw [List.append_assoc] at h
  rw [List.length_append, List.length_singleton, ← Nat.add_assoc, Nat.add_sub_cancel]
  exact getElem?_of_drop front h

/-- A chain has left the cursor in front of a token that closes it. -/
theorem Rule.kindAt_of_closes {level : Level} (h : ts.drop i = us ++ rest)
    (hstops : ∃ t ts', rest = t :: ts' ∧ level.role t.kind = .closes) :
    KindAt ts (i + us.length) level.closers := by
  obtain ⟨t, ts', rfl, hclose⟩ := hstops
  exact ⟨t, getElem?_of_drop us h, Level.role_eq_closes_iff.mp hclose⟩

/-- A rule that has a value leaves the cursor where `Rule.EndsAt` says. -/
theorem Rule.Reads.endsAt {r : Rule} {v : Value} (hread : r.Reads us rest (.ok v))
    (h : ts.drop i = us ++ rest) : r.EndsAt ts i (i + us.length) := by
  have hbalanced : Token.Balanced (ts.extract i (i + us.length)) := by
    rw [show ts.extract i (i + us.length) = us from extract_of_drop [] h]
    exact hread.balanced
  cases r with
  | expression =>
      cases hread with
      | @empty t _ hk => exact .inl ⟨⟨t, getElem?_of_drop [] h, by simp [hk]⟩, rfl⟩
      | @whole t us _ _ hk hsum =>
          refine .inr ⟨?_, kindAt_of_closes h hsum.stops, hbalanced⟩
          rintro ⟨t', ht', hk'⟩
          obtain rfl : t = t' :=
            Option.some.inj ((getElem?_of_drop [] h).symm.trans ht')
          exact hk (List.mem_singleton.mp hk')
  | chain level | rest level left => exact ⟨kindAt_of_closes h hread.stops, hbalanced⟩
  | primary =>
      obtain ⟨us, t, rfl, hk⟩ := hread.stops
      exact ⟨⟨t, getElem?_of_drop_concat h, by simpa using hk⟩, hbalanced⟩

/-- An operator and its right operand, whole, are found by the indices of their ends. -/
theorem operandEndsAt_of_drop {front : List Token} {op : Operator}
    (h : ts.drop i = (front ++ t :: us) ++ rest) (hfront : front ≠ [])
    (hk : t.kind = .operator op) (hphrase : op.level.operand.Phrase us)
    (hstops : op.level.operand.Stops us rest) :
    OperandEndsAt ts i (i + (front ++ t :: us).length) t.position := by
  have hpos := List.length_pos_iff.mpr hfront
  have hlen : i + (front ++ t :: us).length = i + (front ++ [t]).length + us.length := by
    simp only [List.length_append, List.length_cons, List.length_nil]
    omega
  have hoperand : ts.extract (i + front.length + 1) (i + (front ++ t :: us).length) = us := by
    have hdrop : ts.drop i = (front ++ [t]) ++ (us ++ rest) := by
      rw [h]
      simp
    have hcut := extract_of_drop (front ++ [t]) hdrop
    rwa [← hlen, List.length_append, List.length_singleton, ← Nat.add_assoc] at hcut
  refine ⟨i + front.length, t, op, by omega, ?_, ?_, hk, rfl, ?_, ?_⟩
  · simp only [List.length_append, List.length_cons]
    omega
  · rw [List.append_assoc] at h
    exact getElem?_of_drop front h
  · rwa [hoperand]
  · intro hlevel
    rw [hlevel] at hstops
    exact Rule.kindAt_of_closes h hstops

/-- A rule that fails leaves the cursor where `EvalError.BreaksAt` says. -/
theorem Rule.Breaks.breaksAt {r : Rule} {e : EvalError} (hbreaks : r.Breaks us rest e)
    (hr : ∀ level left, r ≠ .rest level left) (h : ts.drop i = us ++ rest) :
    e.BreaksAt ts i (i + us.length) := by
  cases hbreaks with
  | token front t kind split _ error_eq quotes =>
      subst split error_eq
      have hlast := getElem?_of_drop_concat h
      cases kind with
      | unexpectedToken | unmatchedParen | malformedNumber => exact ⟨t, hlast, rfl, rfl⟩
      | divisionByZero | overflow => exact absurd (by simp [EvalError.Kind.error]) quotes
  | operator front operand t op kind split kind_eq _ error_eq fails phrase stops lead =>
      subst split error_eq
      have hfront : front ≠ [] := by
        intro hnil
        obtain ⟨level, left, heq⟩ := lead hnil
        exact hr level left heq
      have hplace := operandEndsAt_of_drop h hfront kind_eq phrase stops
      cases kind with
      | unexpectedToken | unmatchedParen | malformedNumber =>
          simp [EvalError.Kind.error] at fails
      | divisionByZero | overflow => exact hplace

end Places

namespace Cursor

/-- **Every outcome leaves the cursor at a known place.** In a terminated sequence a rule gets on
by a token at least and stays within the sequence. With a value it ends as `Rule.EndsAt` says,
and with an error it breaks off as `EvalError.BreaksAt` says. -/
theorem run_place {ts : List Token} {i : Nat} {r : Rule} (hend : Terminated ts)
    (hi : i < ts.length) (hr : ∀ level left, r ≠ .rest level left) :
    ∃ x k, (ofListAt ts i).run r = some (x, ofListAt ts k) ∧ i < k ∧ k ≤ ts.length ∧
      (∀ v, x = .ok v → r.EndsAt ts i k) ∧ ∀ e, x = .error e → e.BreaksAt ts i k := by
  have hne : ts.drop i ≠ [] := by
    rw [ne_eq, List.drop_eq_nil_iff]
    omega
  have hsplit : Terminated (ts.take i ++ ts.drop i) := by rwa [List.take_append_drop]
  obtain ⟨us, rest, x, hus, hread⟩ := Rule.exists_reads (hsplit.of_append hne) r
  have hpos := hread.length_pos hr
  have hlen : ts.length - i = us.length + rest.length := by
    rw [← List.length_drop, hus, List.length_append]
  refine ⟨x, i + us.length, run_ofListAt hread hus, by omega, by omega, ?_, ?_⟩
  · rintro v rfl
    exact hread.endsAt hus
  · rintro e rfl
    exact hread.breaks.breaksAt hr hus

/-- In `(0-9223372036854775807-2*1)` the second difference overflows behind `2*1`. -/
theorem run_place_overflow :
    (ofListAt [⟨.leftParen, "(", 0⟩, ⟨.number, "0", 1⟩, ⟨.operator .sub, "-", 2⟩,
        ⟨.number, "9223372036854775807", 3⟩, ⟨.operator .sub, "-", 22⟩, ⟨.number, "2", 23⟩,
        ⟨.operator .mul, "*", 24⟩, ⟨.number, "1", 25⟩, ⟨.rightParen, ")", 26⟩,
        Token.endAt 27] 0).run .primary =
      some (.error ⟨.overflow, 22⟩, ofListAt [⟨.leftParen, "(", 0⟩, ⟨.number, "0", 1⟩,
        ⟨.operator .sub, "-", 2⟩, ⟨.number, "9223372036854775807", 3⟩,
        ⟨.operator .sub, "-", 22⟩, ⟨.number, "2", 23⟩, ⟨.operator .mul, "*", 24⟩,
        ⟨.number, "1", 25⟩, ⟨.rightParen, ")", 26⟩, Token.endAt 27] 8) ∧
      OperandEndsAt [⟨.leftParen, "(", 0⟩, ⟨.number, "0", 1⟩, ⟨.operator .sub, "-", 2⟩,
        ⟨.number, "9223372036854775807", 3⟩, ⟨.operator .sub, "-", 22⟩, ⟨.number, "2", 23⟩,
        ⟨.operator .mul, "*", 24⟩, ⟨.number, "1", 25⟩, ⟨.rightParen, ")", 26⟩,
        Token.endAt 27] 0 8 22 := by
  obtain ⟨x, k, hrun, -, hk, -, herror⟩ :=
    @run_place [⟨.leftParen, "(", 0⟩, ⟨.number, "0", 1⟩, ⟨.operator .sub, "-", 2⟩,
      ⟨.number, "9223372036854775807", 3⟩, ⟨.operator .sub, "-", 22⟩, ⟨.number, "2", 23⟩,
      ⟨.operator .mul, "*", 24⟩, ⟨.number, "1", 25⟩, ⟨.rightParen, ")", 26⟩,
      Token.endAt 27] 0 .primary (by decide) (by decide) (by simp)
  have hx : x = .error ⟨.overflow, 22⟩ := (Prod.mk.inj (Option.some.inj hrun)).1.symm
  obtain rfl : k = 8 := by
    have hplace := congrArg index (Prod.mk.inj (Option.some.inj hrun)).2
    rw [index_ofListAt hk] at hplace
    exact hplace.symm
  exact ⟨hx ▸ hrun, herror _ hx⟩

end Cursor

end Abacus
