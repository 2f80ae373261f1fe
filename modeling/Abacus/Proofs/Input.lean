import Abacus.Proofs.Decimal
import Abacus.Proofs.Isolation
import Abacus.Proofs.Spelling

/-!
# Three ways in

An expression reaches the program as an argument, in the first line of the standard input, or in
a line of a script. Each of these ends the expression in its own way. An argument is taken as it
is. The standard input is read as bytes up to a line feed, whatever follows, and the carriage
returns in front of that are dropped. A script is read as a whole; a line ends with a line feed,
or with a carriage return and a line feed, and blank lines are passed over.

On an expression in one line, the three agree. In the bytes of a text the byte of the line feed
stands for line feeds and nothing else, so the bytes up to the first one are those of a line.

## Main results

* `Input.not_mem_toUTF8`, `Input.firstLine_append`: the first line of an input is the text in
  front of the first line feed.
* `Input.Brings.report_eq`, `Script.report_of_line`: the report on an expression that the standard
  input brings, or a script.
* `Report.TellsOf.stdout_eq`: what a report on a value writes, given the text of the integer.
* `run_agrees`: every way in comes to the same report.
-/

namespace Abacus

namespace Input

/-! ### The first line of some bytes -/

/-- The byte of the line feed is part of no other character. -/
theorem not_mem_utf8EncodeChar {c : Char} (h : c ≠ '\n') : 0x0a ∉ String.utf8EncodeChar c := by
  have hval : c.val.toNat ≠ 10 := fun hc => h (Char.ext (UInt32.toNat_inj.mp hc))
  have hbyte : ∀ m : Nat, (0x0a : UInt8) = UInt8.ofNat m → m % 256 = 10 := fun m hm => by
    simpa using (congrArg UInt8.toNat hm).symm
  -- Every byte of a character but its first.
  have hnext : ∀ m : Nat, (0x0a : UInt8) ≠ UInt8.ofNat (m % 0x40 + 0x80) := fun m hm => by
    have := hbyte _ hm
    omega
  fun_cases String.utf8EncodeChar c
  all_goals
    simp only [List.mem_cons, List.not_mem_nil, or_false, hnext]
    intro hm
    have := hbyte _ hm
    omega

/-- The byte of the line feed is in no text without line feeds. -/
theorem not_mem_toUTF8 {text : String} (h : '\n' ∉ text.toList) :
    0x0a ∉ text.toUTF8.data.toList := by
  rw [String.toUTF8_eq_toByteArray, ← String.utf8Encode_toList, List.utf8Encode,
    List.data_toByteArray, List.toList_toArray, List.mem_flatMap]
  rintro ⟨c, hc, hbyte⟩
  exact not_mem_utf8EncodeChar (fun heq => h (heq ▸ hc)) hbyte

/-- Bytes without a line feed are the first line when nothing follows, or a line feed and then
anything. -/
theorem firstLine_append {line tail : ByteArray} (hline : 0x0a ∉ line.data.toList)
    (htail : ∀ b ∈ tail.data.toList.head?, b = 0x0a) : firstLine (line ++ tail) = line := by
  have hall : ∀ b ∈ line.data.toList, (b != 0x0a) = true := fun b hb => by
    simpa using fun heq : b = 0x0a => hline (heq ▸ hb)
  have hnone : tail.data.toList.takeWhile (· != 0x0a) = [] := by
    cases hd : tail.data.toList with
    | nil => rfl
    | cons b bs =>
      obtain rfl : b = 0x0a := htail b (by rw [hd, List.head?_cons]; rfl)
      rfl
  rw [firstLine, ByteArray.toList_data_append, List.takeWhile_append_of_pos hall, hnone,
    List.append_nil]

/-- Carriage returns behind a text are dropped, down to its last character. -/
theorem trimReturns_append {text returns : String} (htext : text.toList.getLast? ≠ some '\r')
    (hreturns : ∀ c ∈ returns.toList, c = '\r') : trimReturns (text ++ returns) = text := by
  have hdrop : ∀ c ∈ returns.toList.reverse, decide (c = '\r') = true := fun c hc =>
    decide_eq_true (hreturns c (List.mem_reverse.mp hc))
  have hkeep : text.toList.reverse.dropWhile (· = '\r') = text.toList.reverse := by
    rw [← List.head?_reverse] at htext
    cases hr : text.toList.reverse with
    | nil => rfl
    | cons c cs =>
      rw [hr] at htext
      exact List.dropWhile_cons_of_neg (by simpa using htext)
  rw [trimReturns, String.toList_append, List.reverse_append, List.dropWhile_append_of_pos hdrop,
    hkeep, List.reverse_reverse, String.ofList_toList]

/-! ### An expression on the standard input -/

/-- An input brings a text in its first line: the text alone, or with a line end and then
anything. -/
inductive Brings (text : String) : ByteArray → Prop
  | alone : Brings text text.toUTF8
  | ended (e : Script.LineEnd) (rest : ByteArray) : Brings text ((text ++ e.text).toUTF8 ++ rest)

/-- Up to its first line feed, an input holds the text that it brings and carriage returns. -/
theorem Brings.exists_returns {text : String} {bytes : ByteArray} (h : Brings text bytes) :
    ∃ (returns : String) (tail : ByteArray), (∀ c ∈ returns.toList, c = '\r') ∧
      (∀ b ∈ tail.data.toList.head?, b = 0x0a) ∧ bytes = (text ++ returns).toUTF8 ++ tail := by
  have hfeed : ∀ rest : ByteArray, ∀ b ∈ ("\n".toUTF8 ++ rest).data.toList.head?, b = 0x0a := by
    intro rest b hb
    rw [ByteArray.toList_data_append] at hb
    exact (Option.some.inj hb).symm
  cases h with
  | alone => exact ⟨"", ByteArray.empty, by simp, by simp, by simp⟩
  | ended e rest =>
    have hsplit : ∀ returns : String, e.text = returns ++ "\n" →
        (text ++ e.text).toUTF8 ++ rest = (text ++ returns).toUTF8 ++ ("\n".toUTF8 ++ rest) := by
      intro returns he
      simp only [he, String.toUTF8_eq_toByteArray, String.toByteArray_append,
        ByteArray.append_assoc]
    cases e with
    | feed => exact ⟨"", _, by simp, hfeed rest, hsplit "" rfl⟩
    | returnFeed => exact ⟨"\r", _, by simp, hfeed rest, hsplit "\r" rfl⟩

/-- The report on an input is that on the expression which it brings. -/
theorem Brings.report_eq {text : String} {bytes : ByteArray} (h : Brings text bytes)
    (hfeed : '\n' ∉ text.toList) (hreturn : text.toList.getLast? ≠ some '\r') :
    report bytes = Report.ofExpression text := by
  obtain ⟨returns, tail, hreturns, htail, rfl⟩ := h.exists_returns
  have hline : '\n' ∉ (text ++ returns).toList := by
    rw [String.toList_append, List.mem_append, not_or]
    exact ⟨hfeed, fun hmem => absurd (hreturns _ hmem) (by decide)⟩
  rw [report, firstLine_append (not_mem_toUTF8 hline) htail, Script.fromUTF8?_toUTF8]
  exact congrArg Report.ofExpression (trimReturns_append hreturn hreturns)

end Input

/-! ### An expression in a script -/

/-- The report on a script of one line that is not blank is that on the expression in it. -/
theorem Script.report_of_line {line text : String} (hfeed : '\n' ∉ line.toList)
    (hreturn : line.toList.getLast? ≠ some '\r') (hblank : isBlankLine line.toList = false)
    (htext : text = line ∨ ∃ e : LineEnd, text = line ++ e.text) :
    report text = Report.ofExpression line := by
  obtain ⟨page, rfl, hlines⟩ : ∃ page : Page, text = page.text ∧ page.lines = [line] := by
    rcases htext with rfl | ⟨e, rfl⟩
    · exact ⟨⟨[], some text⟩, by simp [Page.text], rfl⟩
    · exact ⟨⟨[(line, e)], none⟩, by simp [Page.text], rfl⟩
  have hproper : page.Proper := by
    rw [Page.Proper, hlines]
    exact List.forall_mem_singleton.mpr ⟨hfeed, hreturn⟩
  rw [Page.report_text hproper, hlines, List.map_singleton, lineReport, hblank,
    String.ofList_toList]
  exact Report.append_empty _

/-! ### All ways in -/

/-- A report tells of an outcome: the text of the value's integer and nothing else, or the message
of an error. -/
def Report.TellsOf (r : Report) : Except CalcError Value → Prop
  | .ok v =>
      (∃ text : String, Numeral.Writes text.toList v.toInt ∧ r.stdout = text ++ "\n") ∧
        r.stderr = "" ∧ r.code = 0
  | .error e => r.stdout = "" ∧ r.stderr = e.message ++ "\n" ∧ r.code = 1

/-- The report on an expression tells of what it comes to. -/
theorem Report.ofExpression_tells (source : String) :
    (ofExpression source).TellsOf (calculate source) := by
  rw [ofExpression]
  cases calculate source with
  | ok v =>
    refine ⟨⟨v.numeral, v.writes_numeral, ?_⟩, rfl, rfl⟩
    simp [line, stdout, unlines]
  | error e => exact ⟨rfl, by simp [failure, stderr, unlines], rfl⟩

/-- What a report on a value writes is settled by the text of the integer, since there is one. -/
theorem Report.TellsOf.stdout_eq {r : Report} {v : Value} {text : String} (h : r.TellsOf (.ok v))
    (htext : Numeral.Writes text.toList v.toInt) : r.stdout = text ++ "\n" := by
  obtain ⟨⟨text', htext', hstdout⟩, -, -⟩ := h
  rw [hstdout, String.toList_inj.mp (htext'.unique htext)]

/-- Without `--quiet` the program asks for an expression, and otherwise does the same. -/
theorem run_nil (files : String → Option ByteArray) (stdin : ByteArray) :
    run [] files stdin = Report.line "Enter an expression:" ++ run ["--quiet"] files stdin := by
  change _ = _ ++ (Report.empty ++ _)
  rw [Report.empty_append]
  rfl

/-- A run with `--file` is a run on the script that the file holds. -/
theorem Script.RunsTo.of_file {text path : String} {files : String → Option ByteArray}
    (hpath : path.toList.head? ≠ some '-') (hfile : files path = some text.toUTF8)
    (stdin : ByteArray) : RunsTo text (run ["--file", path] files stdin) :=
  .intro stdin (Command.ofArgs?_file hpath) hfile

/-- **Every way in comes to the same.** An expression in one line is worked out alike behind `--`,
as the first line of the standard input, whatever follows it there, and as the only line of a
script. There is one report for all of them: the program writes the value in decimal and exits with
zero, or the message of the error and exits with one. That it asks for an expression first is all
that leaving out `--quiet` changes. -/
theorem run_agrees {s : String} (hword : ∃ c ∈ s.toList, Text.isBlank c = false)
    (hfeed : '\n' ∉ s.toList) (hreturn : '\r' ∉ s.toList) :
    ∃ r : Report, r.TellsOf (calculate s) ∧
      (∀ files stdin, run ["--", s] files stdin = r) ∧
      (∀ files stdin, Input.Brings s stdin →
        run ["--quiet"] files stdin = r ∧
        (run [] files stdin).stdout = "Enter an expression:\n" ++ r.stdout ∧
        (run [] files stdin).stderr = r.stderr ∧ (run [] files stdin).code = r.code) ∧
      ∀ (text : String) (r' : Report), (text = s ∨ ∃ e : Script.LineEnd, text = s ++ e.text) →
        Script.RunsTo text r' → r' = r := by
  have hlast : s.toList.getLast? ≠ some '\r' := fun h => hreturn (List.mem_of_getLast? h)
  have hquiet : ∀ files stdin, Input.Brings s stdin →
      run ["--quiet"] files stdin = Report.ofExpression s := by
    intro files stdin hbrings
    have hrun : run ["--quiet"] files stdin = Report.empty ++ Input.report stdin := rfl
    rw [hrun, Report.empty_append, hbrings.report_eq hfeed hlast]
  refine ⟨Report.ofExpression s, Report.ofExpression_tells s, fun files stdin => ?_,
    fun files stdin hbrings => ⟨hquiet files stdin hbrings, ?_, ?_, ?_⟩, ?_⟩
  · have hrun : run ["--", s] files stdin = Report.empty ++ Report.ofExpression s := rfl
    rw [hrun, Report.empty_append]
  · rw [run_nil, Report.stdout_append, hquiet files stdin hbrings]
    rfl
  · rw [run_nil, Report.stderr_append, hquiet files stdin hbrings]
    exact String.empty_append
  · rw [run_nil, Report.code_append, hquiet files stdin hbrings]
    exact Nat.zero_max _
  · intro text r' htext hruns
    have hblank : Script.isBlankLine s.toList = false := by
      rw [Script.isBlankLine, List.all_eq_false]
      simpa using hword
    rw [hruns.eq_report, Script.report_of_line hfeed hlast hblank htext]

/-- A value and an error: the negative difference is written alike as an argument, in front of
bytes that are no text, behind a prompt and from a script, and so is the division by zero. -/
theorem run_agrees_both :
    ((run ["--", "3-15"] (fun _ => none) ByteArray.empty).stdout = "-12\n" ∧
      (run ["--", "3-15"] (fun _ => none) ByteArray.empty).stderr = "" ∧
      (run ["--", "3-15"] (fun _ => none) ByteArray.empty).code = 0 ∧
      (run ["--quiet"] (fun _ => none) (("3-15" ++ "\r\n").toUTF8 ++ ⟨#[0xff]⟩)).stdout =
        "-12\n" ∧
      (run [] (fun _ => none) "3-15".toUTF8).stdout = "Enter an expression:\n-12\n" ∧
      (run ["--file", "sums"] (fun _ => some "3-15\n".toUTF8) ByteArray.empty).stdout =
        "-12\n") ∧
    (run ["--quiet"] (fun _ => none) (("4/0" ++ "\r\n").toUTF8 ++ ⟨#[0xff]⟩)).stderr =
        "Error at position 1: Division by zero.\n" ∧
      (run ["--file", "sums"] (fun _ => some "4/0\n".toUTF8) ByteArray.empty).stderr =
        "Error at position 1: Division by zero.\n" := by
  constructor
  · have hspell : Lexer.Spells 0 ['3', '-', '1', '5'] [⟨.number, "3", 0⟩, ⟨.operator .sub, "-", 1⟩,
        ⟨.number, "15", 2⟩, Token.endAt 4] :=
      @Lexer.Spells.number 0 ['3'] ['-', '1', '5'] _ (by simp) (by simp) (by simp)
        (.symbol rfl (@Lexer.Spells.number 2 ['1', '5'] [] _ (by simp) (by simp) (by simp) .done))
    have htokens : tokenize "3-15" = .ok [⟨.number, "3", 0⟩, ⟨.operator .sub, "-", 1⟩,
        ⟨.number, "15", 2⟩, Token.endAt 4] := hspell.scan_eq
    have hvalue : calculate "3-15" = .ok (-12) := by
      rw [calculate_of_tokenize htokens]
      rfl
    have htext : Numeral.Writes "-12".toList (-12) :=
      @Numeral.Writes.neg ['1', '2'] (by simp) (by simp) (by simp)
    obtain ⟨r, htells, hargument, hstdin, hscript⟩ :=
      @run_agrees "3-15" ⟨'3', by decide, by decide⟩ (by decide) (by decide)
    rw [hvalue] at htells
    have hout : r.stdout = "-12\n" := htells.stdout_eq htext
    have hruns := @Script.RunsTo.of_file "3-15\n" "sums" (fun _ => some "3-15\n".toUTF8)
      (by decide) rfl ByteArray.empty
    have hbrings : Input.Brings "3-15" (("3-15" ++ "\r\n").toUTF8 ++ ⟨#[0xff]⟩) :=
      .ended .returnFeed _
    rw [hargument, (hstdin _ _ hbrings).1, (hstdin _ _ .alone).2.1,
      hscript _ _ (.inr ⟨.feed, rfl⟩) hruns, hout]
    exact ⟨rfl, htells.2.1, htells.2.2, rfl, rfl, rfl⟩
  · have hspell : Lexer.Spells 0 ['4', '/', '0'] [⟨.number, "4", 0⟩, ⟨.operator .div, "/", 1⟩,
        ⟨.number, "0", 2⟩, Token.endAt 3] :=
      @Lexer.Spells.number 0 ['4'] ['/', '0'] _ (by simp) (by simp) (by simp)
        (.symbol rfl (@Lexer.Spells.number 2 ['0'] [] _ (by simp) (by simp) (by simp) .done))
    have htokens : tokenize "4/0" = .ok [⟨.number, "4", 0⟩, ⟨.operator .div, "/", 1⟩,
        ⟨.number, "0", 2⟩, Token.endAt 3] := hspell.scan_eq
    have herror : calculate "4/0" = .error (.evaluation ⟨.divisionByZero, 1⟩) := by
      rw [calculate_of_tokenize htokens]
      rfl
    obtain ⟨r, htells, -, hstdin, hscript⟩ :=
      @run_agrees "4/0" ⟨'4', by decide, by decide⟩ (by decide) (by decide)
    rw [herror] at htells
    have hruns := @Script.RunsTo.of_file "4/0\n" "sums" (fun _ => some "4/0\n".toUTF8)
      (by decide) rfl ByteArray.empty
    have hbrings : Input.Brings "4/0" (("4/0" ++ "\r\n").toUTF8 ++ ⟨#[0xff]⟩) :=
      .ended .returnFeed _
    rw [(hstdin _ _ hbrings).1, hscript _ _ (.inr ⟨.feed, rfl⟩) hruns]
    exact ⟨htells.2.1, htells.2.1⟩

end Abacus
