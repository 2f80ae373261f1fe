import Abacus.Proofs.Locality
import Abacus.Proofs.Record

/-!
# One token of lookahead

Over a sequence that ends with a mark for the end, no rule reads past the mark. What a cursor
hands out behind its last token is never asked for, so it might be anything; and a token is put
back only right after it was taken, so that it is enough to remember one.

Both are facts about the moves of a run and not about its outcome, and the mark may stand in the
middle as well. They follow from one property of the record of the moves, kept along whatever is
read: it consists of moves over tokens of the sequence and of such moves undone at once.

## Main results

* `Motion.Leads.forth_lt`, `Motion.Leads.undoes`: what such a record says of each of its moves.
* `Cursor.run_looks_one_ahead`: in a terminated sequence every run is of this kind, and comes to
  the same whatever stands behind the last token.
-/

namespace Abacus

open TokenSource

/-! ### Moves that are undone at once -/

namespace Motion

/-- The record `ms`, latest move first, leads from the index `i` of a sequence of `n` tokens to
the index `k`: it is put together from moves over tokens of the sequence and from pairs of such
a move and the move back that undoes it. -/
inductive Leads (n i : Nat) : List Motion → Nat → Prop
  | nil : Leads n i [] i
  | taken {ms : List Motion} {k : Nat} :
      Leads n i ms k → k < n → Leads n i (.forth k :: ms) (k + 1)
  | undone {ms : List Motion} {k : Nat} :
      Leads n i ms k → k < n → Leads n i (.back (k + 1) :: .forth k :: ms) k

namespace Leads

variable {n i k j : Nat} {ms later earlier : List Motion}

/-- Every move forward is made over a token of the sequence. -/
theorem forth_lt (h : Leads n i ms k) (hj : .forth j ∈ ms) : j < n := by
  induction h with
  | nil => cases hj
  | taken _ hk ih =>
      rcases List.mem_cons.mp hj with heq | hj
      · cases heq
        exact hk
      · exact ih hj
  | undone _ hk ih =>
      rcases List.mem_cons.mp hj with heq | hj
      · cases heq
      · rcases List.mem_cons.mp hj with heq | hj
        · cases heq
          exact hk
        · exact ih hj

/-- The index at which a record goes on behind a later move: where that move starts. -/
theorem getLast?_start_cons (m : Motion) (ms : List Motion) (k : Nat) :
    ((m :: ms).getLast?.map Motion.start).getD k = (ms.getLast?.map Motion.start).getD m.start := by
  rw [List.getLast?_cons, Option.map_some, Option.getD_some]
  cases ms.getLast? <;> rfl

/-- Every move back follows a move forward over a token of the sequence, and the record goes on,
or ends, at the index from which that move was made. -/
theorem undoes (h : Leads n i ms k) (hms : ms = later ++ .back j :: earlier) :
    ∃ p earlier', earlier = .forth p :: earlier' ∧ p < n ∧ j = p + 1 ∧
      (later.getLast?.map Motion.start).getD k = p := by
  induction h generalizing later with
  | nil => cases later <;> cases hms
  | taken _ _ ih =>
      cases later with
      | nil => cases hms
      | cons m later =>
          obtain ⟨rfl, htail⟩ := List.cons.inj hms
          rw [getLast?_start_cons]
          exact ih htail
  | @undone ms p _ hp ih =>
      -- The two latest moves are one pair, so the move back is the latest or in front of both.
      match later with
      | [] =>
          obtain ⟨heq, rfl⟩ := List.cons.inj hms
          cases heq
          exact ⟨p, ms, rfl, hp, rfl, rfl⟩
      | [m] =>
          obtain ⟨-, htail⟩ := List.cons.inj hms
          cases htail
      | m :: m' :: later =>
          obtain ⟨-, htail⟩ := List.cons.inj hms
          obtain ⟨rfl, htail'⟩ := List.cons.inj htail
          rw [getLast?_start_cons, getLast?_start_cons]
          exact ih htail'

end Leads

end Motion

/-! ### Cursors that record, and cursors with another end -/

/-- A cursor that hands out other tokens behind its last one: `beyond` says which, for each place
at which it can be asked. -/
structure Altered (beyond : Cursor → Token) where
  cursor : Cursor
deriving DecidableEq, Repr

instance {beyond : Cursor → Token} : TokenSource (Altered beyond) where
  advance s := (s.cursor.ahead.headD (beyond s.cursor), ⟨s.cursor.advance.2⟩)
  retreat s := ⟨s.cursor.retreat⟩

namespace Rule

/-- In front of such a cursor, too, lie the tokens ahead. -/
theorem Faces.altered (beyond : Cursor → Token) (ts : List Token) :
    Faces fun (s : Altered beyond) vs => s.cursor.tokens = ts ∧ s.cursor.ahead = vs where
  token_eq := by
    rintro ⟨c⟩ t vs ⟨-, hahead⟩
    exact congrArg (List.headD · _) hahead
  forth := (Faces.cursor ts).forth
  undo := (Faces.cursor ts).undo

/-- Likewise in front of a recorder, whose record leads to where its cursor stands: of the moves
that a token in front allows, one takes it and one takes it and puts it back. -/
theorem Faces.recorder (ts : List Token) (i : Nat) :
    Faces fun (s : Recorder) vs => (s.cursor.tokens = ts ∧ s.cursor.ahead = vs) ∧
      Motion.Leads ts.length i s.record s.cursor.index where
  token_eq h := (Faces.cursor ts).token_eq h.1
  forth := by
    rintro ⟨⟨ps, _⟩, ms⟩ t vs ⟨⟨rfl, rfl⟩, hleads⟩
    refine ⟨(Faces.cursor _).forth ⟨rfl, rfl⟩, hleads.taken ?_⟩
    simp [Cursor.tokens, Cursor.index]
  undo := by
    rintro ⟨⟨ps, _⟩, ms⟩ t vs ⟨⟨rfl, rfl⟩, hleads⟩
    refine ⟨(Faces.cursor _).undo ⟨rfl, rfl⟩, hleads.undone ?_⟩
    simp [Cursor.tokens, Cursor.index]

end Rule

/-! ### Runs in a terminated sequence -/

namespace Cursor

/-- A cursor over a sequence is placed by what lies ahead of it. -/
theorem eq_ofListAt {ts us rest : List Token} {i : Nat} {c : Cursor} (htok : c.tokens = ts)
    (hahead : c.ahead = rest) (h : ts.drop i = us ++ rest) : c = ofListAt ts (i + us.length) := by
  subst hahead
  rw [ofListAt_add h, ← passed_eq (htok.trans (tokens_ofListAt ts i).symm) h]

/-- **One token of lookahead.** In a sequence that ends with a mark for the end every rule comes
from an index of it to an outcome and to an index, and no move forward of its run is made behind
the last token: put any other tokens there, and the run ends with the same outcome at the same
index. In the record of the moves, latest first, every move back follows a move over a token of
the sequence, and leads back to the index from which that was made, where the run goes on or
ends. -/
theorem run_looks_one_ahead {ts : List Token} {i : Nat} (hend : Terminated ts)
    (hi : i < ts.length) (r : Rule) :
    ∃ x k record, k ≤ ts.length ∧ (ofListAt ts i).run r = some (x, ofListAt ts k) ∧
      (∀ n, 4 * ts.length + 9 ≤ n →
        r.runFor n (⟨ofListAt ts i, []⟩ : Recorder) = some (x, ⟨ofListAt ts k, record⟩) ∧
          ∀ beyond : Cursor → Token,
            r.runFor n (⟨ofListAt ts i⟩ : Altered beyond) = some (x, ⟨ofListAt ts k⟩)) ∧
      (∀ j, .forth j ∈ record → j < ts.length) ∧
      ∀ later j earlier, record = later ++ .back j :: earlier →
        ∃ p earlier', earlier = .forth p :: earlier' ∧ p < ts.length ∧ j = p + 1 ∧
          (later.getLast?.map Motion.start).getD k = p := by
  obtain ⟨us, rest, x, hus, hle, hread⟩ := Rule.exists_reads_drop hend hi r
  have hbudget : r.calls us.length ≤ 4 * ts.length + 9 := by
    have := r.calls_le us.length
    omega
  have hplace : (ofListAt ts i).tokens = ts ∧ (ofListAt ts i).ahead = us ++ rest :=
    ⟨tokens_ofListAt ts i, hus⟩
  obtain ⟨⟨c, record⟩, hrecord, ⟨htok, hahead⟩, hleads⟩ :=
    hread.exists_runFor_of_faces (s := ⟨ofListAt ts i, []⟩) (Rule.Faces.recorder ts i) hbudget
      ⟨hplace, by rw [index_ofListAt (Nat.le_of_lt hi)]; exact .nil⟩
  obtain rfl := eq_ofListAt htok hahead hus
  rw [index_ofListAt hle] at hleads
  refine ⟨x, _, record, hle, run_ofListAt hread hus,
    fun n hn => ⟨Rule.runFor_mono hn hrecord, fun beyond => ?_⟩,
    fun j => hleads.forth_lt, fun later j earlier => hleads.undoes⟩
  obtain ⟨⟨c⟩, hrun, htok', hahead'⟩ := hread.exists_runFor_of_faces (s := ⟨ofListAt ts i⟩)
    (Rule.Faces.altered beyond ts) (Nat.le_trans hbudget hn) hplace
  obtain rfl : c = _ := eq_ofListAt htok' hahead' hus
  exact hrun

/-- The group that a mark in the middle of the sequence cuts off: the mark is taken and put back
by the chains of products and of sums, and taken once more by the group. -/
theorem run_looks_one_ahead_cut :
    Terminated [⟨.leftParen, "(", 0⟩, ⟨.number, "1", 1⟩, Token.endAt 2, Token.endAt 3] ∧
      0 < [⟨.leftParen, "(", 0⟩, ⟨.number, "1", 1⟩, Token.endAt 2, Token.endAt 3].length ∧
      ∃ record : List Motion,
        (∀ beyond : Cursor → Token,
          Rule.runFor 25 .primary (⟨ofListAt [⟨.leftParen, "(", 0⟩, ⟨.number, "1", 1⟩,
              Token.endAt 2, Token.endAt 3] 0⟩ : Altered beyond) =
            some (.error ⟨.unmatchedParen "", 2⟩, ⟨ofListAt [⟨.leftParen, "(", 0⟩,
              ⟨.number, "1", 1⟩, Token.endAt 2, Token.endAt 3] 3⟩)) ∧
        (∀ j, .forth j ∈ record → j < 4) ∧
        record = [.forth 2, .back 3, .forth 2, .back 3, .forth 2, .forth 1, .forth 0] := by
  refine ⟨by decide, by decide, ?_⟩
  obtain ⟨x, k, record, hk, hrun, hsources, hforth, -⟩ :=
    @run_looks_one_ahead [⟨.leftParen, "(", 0⟩, ⟨.number, "1", 1⟩, Token.endAt 2, Token.endAt 3] 0
      (by decide) (by decide) .primary
  obtain ⟨hrecord, haltered⟩ := hsources 25 (by decide)
  obtain rfl : x = .error ⟨.unmatchedParen "", 2⟩ := (congrArg Prod.fst (Option.some.inj hrun)).symm
  obtain rfl : k = 3 := by
    have hplace := congrArg index (Prod.mk.inj (Option.some.inj hrun)).2
    rw [index_ofListAt hk] at hplace
    exact hplace.symm
  have hmoves := congrArg (Recorder.record ∘ Prod.snd) (Option.some.inj hrecord)
  exact ⟨record, haltered, hforth, hmoves.symm⟩

end Cursor

end Abacus
