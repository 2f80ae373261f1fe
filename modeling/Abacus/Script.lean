import Abacus.Report
import Abacus.Text.Blank

/-!
# Scripts

A script holds one expression a line. A line ends with a line feed, and a carriage return just
in front of that belongs to the end of the line; the last line may do without an end, and then a
carriage return is part of it. Lines of white space are passed over. Every other line is worked
out by itself, whatever became of the lines before it.

## Main results

* `Script.lines_line`: a line with its end is the first line of a text, whatever follows.
* `Script.report_append`: a text that ends its last line can be reported apart from what follows.
-/

namespace Abacus.Script

/-- A line without the carriage return that belongs to its end. -/
def chomp (line : List Char) : List Char :=
  if line.getLast? = some '\r' then line.dropLast else line

/-- The lines of a text. -/
def lines (text : List Char) : List (List Char) :=
  match _h : text with
  | [] => []
  | c :: cs =>
    match _hd : (c :: cs).dropWhile (· != '\n') with
    | [] => [c :: cs]
    | _ :: rest => chomp ((c :: cs).takeWhile (· != '\n')) :: lines rest
termination_by text.length
decreasing_by
  have := congrArg List.length _hd
  have := (List.dropWhile_sublist (l := c :: cs) (· != '\n')).length_le
  simp only [List.length_cons] at *
  omega

/-- Whether a line holds nothing but white space. -/
def isBlankLine (line : List Char) : Bool :=
  line.all Text.isBlank

/-- The report on a line. -/
def lineReport (line : List Char) : Report :=
  if isBlankLine line then Report.empty else Report.ofExpression (String.ofList line)

/-- The report on a script: the reports on its lines in a row. -/
def report (text : String) : Report :=
  Report.concat ((lines text.toList).map lineReport)

/-! ### Lines -/

@[simp] theorem lines_nil : lines [] = [] := by
  rw [lines]

/-- A line with its end is the first line of a text, whatever follows. -/
theorem lines_line {line : List Char} (h : '\n' ∉ line) (rest : List Char) :
    lines (line ++ '\n' :: rest) = chomp line :: lines rest := by
  have hp : ∀ c ∈ line, (c != '\n') = true := fun c hc => by
    simpa using fun hn : c = '\n' => h (hn ▸ hc)
  have hd : (line ++ '\n' :: rest).dropWhile (· != '\n') = '\n' :: rest := by
    rw [List.dropWhile_append_of_pos hp]
    simp
  have ht : (line ++ '\n' :: rest).takeWhile (· != '\n') = line := by
    rw [List.takeWhile_append_of_pos hp]
    simp
  match hl : line ++ '\n' :: rest with
  | [] => simp at hl
  | c :: cs =>
    rw [hl] at hd ht
    rw [lines]
    split
    · rename_i h'
      rw [hd] at h'
      cases h'
    · rename_i h'
      rw [hd] at h'
      cases h'
      rw [ht]

/-- A text without a line end is one line, unless it is empty. -/
theorem lines_of_not_mem {line : List Char} (h : '\n' ∉ line) (hne : line ≠ []) :
    lines line = [line] := by
  have hp : ∀ c ∈ line, (c != '\n') = true := fun c hc => by
    simpa using fun hn : c = '\n' => h (hn ▸ hc)
  have hd : line.dropWhile (· != '\n') = [] := by
    have h' : (line ++ []).dropWhile (· != '\n') = [] := List.dropWhile_append_of_pos hp
    rwa [List.append_nil] at h'
  match line with
  | [] => exact absurd rfl hne
  | c :: cs =>
    rw [lines]
    split
    · rfl
    · rename_i h'
      rw [hd] at h'
      cases h'

/-- The lines of a text whose last line has its end come before the lines of what follows. -/
theorem lines_append (a b : List Char) :
    lines (a ++ ['\n'] ++ b) = lines (a ++ ['\n']) ++ lines b := by
  induction hn : a.length using Nat.strongRecOn generalizing a with
  | _ n ih =>
    by_cases h : '\n' ∈ a
    · obtain ⟨x, y, rfl, hx⟩ := List.eq_append_cons_of_mem h
      have hy := ih y.length (by simp at hn; omega) y rfl
      have h₁ := lines_line hx (y ++ ['\n'] ++ b)
      have h₂ := lines_line hx (y ++ ['\n'])
      simp only [List.append_assoc, List.cons_append] at hy h₁ h₂ ⊢
      rw [h₁, h₂, hy, List.cons_append]
    · have h₁ := lines_line h b
      have h₂ := lines_line h []
      simp only [List.append_assoc, List.singleton_append, lines_nil] at *
      rw [h₁, h₂]
      rfl

/-- A text that ends its last line can be reported apart from what follows. -/
theorem report_append (a b : String) :
    report (a ++ "\n" ++ b) = report (a ++ "\n") ++ report b := by
  have h := lines_append a.toList b.toList
  simp only [report, String.toList_append]
  rw [← Report.concat_append, ← List.map_append]
  exact congrArg _ (congrArg _ h)

end Abacus.Script
