import Abacus.Calculate
import Abacus.Error.Message

/-!
# Reports

What a run of the program tells the outside: the lines on its two streams and its exit code.
Reports are put one after the other with `++`, and the worst exit code counts.

## Main results

* `Report.append_assoc`, `Report.empty_append`, `Report.append_empty`: reports in a row do not
  depend on how they are grouped.
-/

namespace Abacus

/-- The lines written to each stream, and the exit code. -/
structure Report where
  out : List String
  err : List String
  code : Nat
deriving DecidableEq, Repr

namespace Report

/-- Nothing to tell: all went well. -/
def empty : Report :=
  ⟨[], [], 0⟩

/-- A line on the standard output. -/
def line (text : String) : Report :=
  ⟨[text], [], 0⟩

/-- A message on the standard error stream, for something that went wrong. -/
def failure (message : String) : Report :=
  ⟨[], [message], 1⟩

/-- One report after another. -/
def append (a b : Report) : Report :=
  ⟨a.out ++ b.out, a.err ++ b.err, max a.code b.code⟩

instance : Append Report := ⟨append⟩

/-- Reports in a row. -/
def concat (rs : List Report) : Report :=
  rs.foldr (· ++ ·) empty

/-- The text of lines, each with a line feed behind it. -/
def unlines (ls : List String) : String :=
  String.join (ls.map (· ++ "\n"))

/-- What a report writes to the standard output. -/
def stdout (r : Report) : String :=
  unlines r.out

/-- What a report writes to the standard error stream. -/
def stderr (r : Report) : String :=
  unlines r.err

/-- The report on an expression: its value, or the message of its error. -/
def ofExpression (source : String) : Report :=
  match calculate source with
  | .ok v => line v.numeral
  | .error e => failure e.message

/-! ### Reports in a row -/

theorem append_def (a b : Report) :
    a ++ b = ⟨a.out ++ b.out, a.err ++ b.err, max a.code b.code⟩ := rfl

@[simp] theorem empty_append (r : Report) : empty ++ r = r := by
  simp [append_def, empty]

@[simp] theorem append_empty (r : Report) : r ++ empty = r := by
  simp [append_def, empty]

theorem append_assoc (a b c : Report) : a ++ b ++ c = a ++ (b ++ c) := by
  simp [append_def, Nat.max_assoc]

/-- Two rows of reports make one. -/
theorem concat_append (rs ss : List Report) : concat (rs ++ ss) = concat rs ++ concat ss := by
  induction rs with
  | nil => exact (empty_append _).symm
  | cons r rs ih =>
    change r ++ concat (rs ++ ss) = r ++ concat rs ++ concat ss
    rw [ih, append_assoc]

end Report

end Abacus
