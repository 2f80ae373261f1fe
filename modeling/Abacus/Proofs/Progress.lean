import Abacus.Cursor.Step
import Abacus.Proofs.Record

/-!
# Progress within bounds

No rule needs the mark for the end. Over any sequence that does not end with an opening
parenthesis, and from any index of it, every rule comes to an outcome within a number of nested
calls that the length of the sequence gives. No move of its run is made from an index outside
the sequence, and where a chain or an operand has a value the index has grown. Behind a failure
the cursor can be read on, so the same goes for any number of steps in a row.

Behind the last token the index can fall: a step forward stays where it is and hands the last
token out once more, and a step back is made all the same. That costs a chain no more than one
token, which it has passed before (`Abacus.Rule.Budget`).

## Main results

* `Rule.Moves.index_lt`: where the index grows.
* `Rule.exists_recorded_within`: no move of a run is made from outside the sequence.
* `Cursor.progress`: every rule, and every list of steps, comes to its end within bounds and
  makes progress.
-/

namespace Abacus

open TokenSource

/-! ### One run -/

namespace Recorder

/-- A recorder over the sequence `ts` all of whose moves were made from indices of it. -/
structure Within (ts : List Token) (s : Recorder) : Prop where
  tokens_eq : s.cursor.tokens = ts
  start_le : ∀ m ∈ s.record, m.start ≤ ts.length

variable {ts : List Token} {s : Recorder}

theorem Within.index_le (h : Within ts s) : s.cursor.index ≤ ts.length :=
  h.tokens_eq ▸ s.cursor.index_le_length

theorem Within.advance (h : Within ts s) : Within ts (advance s).2 where
  tokens_eq := s.cursor.tokens_advance.trans h.tokens_eq
  start_le := List.forall_mem_cons.2 ⟨h.index_le, h.start_le⟩

theorem Within.retreat (h : Within ts s) : Within ts (retreat s) where
  tokens_eq := s.cursor.tokens_retreat.trans h.tokens_eq
  start_le := List.forall_mem_cons.2 ⟨h.index_le, h.start_le⟩

end Recorder

namespace Rule

/-- With a value, a chain ends behind where it began, and so does an operand that began in front
of a token. -/
theorem Moves.index_lt {c c' : Cursor} {r : Rule} (h : r.Moves c c') (htok : c'.tokens = c.tokens) :
    (∀ level, r = .chain level → c.index < c'.index) ∧
      (r = .primary → c.index < c.tokens.length → c.index < c'.index) := by
  have hc := c.index_add_length_ahead
  have hc' := c'.index_add_length_ahead
  rw [htok] at hc'
  constructor
  · rintro level rfl
    obtain ⟨-, hlt⟩ := h
    omega
  · rintro rfl hi
    obtain ⟨hlt | ⟨hnil, -⟩, -⟩ := h
    · omega
    · rw [hnil, List.length_nil] at hc
      omega

/-- The run of a rule over a cursor stays within the sequence: no move of it is made from an index
outside. -/
theorem exists_recorded_within {n : Nat} {r : Rule} {c c' : Cursor} {x : Except EvalError Value}
    (h : runFor n r c = some (x, c')) :
    ∃ record, runFor n r (⟨c, []⟩ : Recorder) = some (x, ⟨c', record⟩) ∧
      ∀ m ∈ record, m.start ≤ c.tokens.length := by
  have hstart : Recorder.Within c.tokens ⟨c, []⟩ := ⟨rfl, by simp⟩
  obtain ⟨record, hrun, hwithin⟩ :=
    exists_recorded (fun _ => .advance) (fun _ => .retreat) h hstart
  exact ⟨record, hrun, hwithin.start_le⟩

end Rule

/-! ### Every rule, and steps in a row -/

namespace Cursor

/-- **Progress within bounds.** Over a sequence that does not end with an opening parenthesis,
from any index of it, every rule comes to the same outcome and the same index `k` on every
sufficient budget, and no move of its run is made from an index outside. With a value, a chain
ends behind where it began, and so does an operand that began in front of a token. Any number of
steps in a row come to their end, each at an index of the sequence, from which the same is true of
the next. -/
theorem progress {ts : List Token} (h : ts.getLast?.map Token.kind ≠ some .leftParen) :
    (∀ (r : Rule) (i : Nat), i ≤ ts.length →
      ∃ x k record, k ≤ ts.length ∧ (∀ m ∈ record, m.start ≤ ts.length) ∧
        (ofListAt ts i).run r = some (x, ofListAt ts k) ∧
        (∀ n, 4 * ts.length + 9 ≤ n →
          r.runFor n (ofListAt ts i) = some (x, ofListAt ts k) ∧
            r.runFor n (⟨ofListAt ts i, []⟩ : Recorder) = some (x, ⟨ofListAt ts k, record⟩)) ∧
        ∀ v, x = .ok v →
          (∀ level, r = .chain level → i < k) ∧ (r = .primary → i < ts.length → i < k)) ∧
      ∀ (ss : List Step) (i : Nat), i ≤ ts.length →
        ∃ os, (ofListAt ts i).steps ss = some os ∧ os.length = ss.length ∧
          ∀ o ∈ os, ∃ k, k ≤ ts.length ∧ o.2 = ofListAt ts k := by
  have hlast : ∀ i, (ofListAt ts i).lastKind? ≠ some .leftParen := by simpa [lastKind?] using h
  constructor
  · intro r i hi
    have hbudget : (ofListAt ts i).budget ≤ 4 * ts.length + 9 := by
      simp only [budget, ofListAt, List.length_drop]
      omega
    obtain ⟨x, c', hrun, htok, hmoves⟩ := Rule.settles (hlast i) (r.calls_le _)
    rw [tokens_ofListAt] at htok
    obtain ⟨k, hk, rfl⟩ := exists_ofListAt_of_tokens htok
    obtain ⟨record, hrecorded, hwithin⟩ := Rule.exists_recorded_within hrun
    rw [tokens_ofListAt] at hwithin
    refine ⟨x, k, record, hk, hwithin, hrun, fun n hn => ?_, fun v hv => ?_⟩
    · have hle := Nat.le_trans hbudget hn
      exact ⟨Rule.runFor_mono hle hrun, Rule.runFor_mono hle hrecorded⟩
    · have hlt := (hmoves v hv).index_lt (by simp)
      rwa [index_ofListAt hi, index_ofListAt hk, tokens_ofListAt] at hlt
  · intro ss i hi
    obtain ⟨os, hos, hlen, hall⟩ := exists_steps (hlast i) ss
    refine ⟨os, hos, hlen, fun o ho => exists_ofListAt_of_tokens ?_⟩
    rw [hall o ho, tokens_ofListAt]

/-- The group `(1)` with nothing behind it: its parenthesis is taken, and put back as what closes
the chain, so that the chain ends in front of it. -/
theorem progress_group :
    ([⟨.leftParen, "(", 0⟩, ⟨.number, "1", 1⟩, ⟨.rightParen, ")", 2⟩].getLast?.map Token.kind) ≠
        some .leftParen ∧
      ∃ k record, 0 < k ∧ k ≤ 3 ∧ (∀ m ∈ record, m.start ≤ 3) ∧
        Rule.runFor 21 (.chain .sum)
            (⟨ofList [⟨.leftParen, "(", 0⟩, ⟨.number, "1", 1⟩, ⟨.rightParen, ")", 2⟩], []⟩ :
              Recorder) =
          some (.ok 1, ⟨ofListAt [⟨.leftParen, "(", 0⟩, ⟨.number, "1", 1⟩,
            ⟨.rightParen, ")", 2⟩] k, record⟩) := by
  refine ⟨by decide, ?_⟩
  obtain ⟨x, k, record, hk, hwithin, -, hrun, hlt⟩ :=
    (@progress [⟨.leftParen, "(", 0⟩, ⟨.number, "1", 1⟩, ⟨.rightParen, ")", 2⟩] (by decide)).1
      (.chain .sum) 0 (by decide)
  obtain ⟨hcursor, hrecorded⟩ := hrun 21 (by decide)
  obtain rfl : x = .ok 1 := (congrArg Prod.fst (Option.some.inj hcursor)).symm
  exact ⟨k, record, (hlt 1 rfl).1 .sum rfl, hk, hwithin, hrecorded⟩

end Cursor

end Abacus
