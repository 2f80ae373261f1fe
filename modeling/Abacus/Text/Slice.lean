/-!
# Slices of a text

Offsets into a text can count its bytes or its characters, and a character takes up one byte or
more. So not every pair of byte offsets cuts something out of a text: one of them may lie behind
its end or inside a character, or they may be the wrong way round.

## Main results

* `Text.slice?_eq_some_iff`: the slices of a text are what stands between two other texts, at the
  offset that the bytes in front of it make.
-/

namespace Abacus.Text

/-- The part of a text from the byte offset `start` up to the byte offset `stop`. -/
def slice? (source : String) (start stop : Nat) : Option String := do
  let first ← source.pos? ⟨start⟩
  let last ← source.pos? ⟨stop⟩
  return (← source.slice? first last).copy

variable {s t : String} {i j : Nat}

/-- The position at a byte offset is the one with that offset, if there is one. -/
theorem pos?_eq_some_iff {p : s.Pos} : s.pos? ⟨i⟩ = some p ↔ p.offset = ⟨i⟩ := by
  simp only [String.pos?, String.Slice.pos?, Option.map_eq_some_iff, Option.dite_none_right_eq_some]
  constructor
  · rintro ⟨_, ⟨_, h⟩, rfl⟩
    cases h
    rfl
  · intro h
    have hvalid : (⟨i⟩ : String.Pos.Raw).IsValidForSlice s.toSlice := h ▸ p.isValid.toSlice
    exact ⟨_, ⟨String.Pos.Raw.isValidForSlice_eq_true_iff.mpr hvalid, rfl⟩, String.Pos.ext h.symm⟩

/-- **A slice stands between two other texts**, and its offsets are the bytes of the first of them
without the slice and with it. -/
theorem slice?_eq_some_iff :
    slice? s i j = some t ↔
      ∃ a b, s = a ++ t ++ b ∧ i = a.utf8ByteSize ∧ j = (a ++ t).utf8ByteSize := by
  simp only [slice?, Option.bind_eq_bind, Option.bind_eq_some_iff, pos?_eq_some_iff]
  constructor
  · rintro ⟨p, hp, q, hq, u, hu, ht⟩
    simp only [String.slice?, Option.dite_none_right_eq_some, Option.some.injEq] at hu
    obtain ⟨hle, rfl⟩ := hu
    obtain ⟨a, b, ha, hb⟩ := String.copy_slice_eq_iff_splits.mp ⟨hle, Option.some.inj ht⟩
    refine ⟨a, b, hb.eq_append, ?_, ?_⟩
    · exact congrArg String.Pos.Raw.byteIdx (hp.symm.trans ha.offset_eq_rawEndPos)
    · exact congrArg String.Pos.Raw.byteIdx (hq.symm.trans hb.offset_eq_rawEndPos)
  · rintro ⟨a, b, rfl, rfl, rfl⟩
    have hsplit : a ++ t ++ b = a ++ (t ++ b) := String.append_assoc
    have hp := String.Pos.splits_ofEqAppend hsplit
    have hq := String.Pos.splits_ofEqAppend (rfl : a ++ t ++ b = a ++ t ++ b)
    obtain ⟨hle, ht⟩ := String.copy_slice_eq_iff_splits.mpr ⟨a, b, hp, hq⟩
    exact ⟨_, hp.offset_eq_rawEndPos, _, hq.offset_eq_rawEndPos, _, dif_pos hle, congrArg some ht⟩

/-- The second byte of a character is no place to cut. -/
example : slice? "1+é" 2 4 = some "é" ∧ slice? "1+é" 2 3 = none := by
  decide

end Abacus.Text
