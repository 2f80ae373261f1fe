import Abacus.Script

/-!
# The command line

The program takes one value, which is an expression, or with `--file` the path of a script.
Without a value it asks for an expression on the standard input, and `--quiet` keeps it from
asking. The arguments are read from left to right, and the first of them that settles the matter
decides: a request for help or for the version, or an argument that has no place.

* A flag is written `--name`, or `-c` with its letter; letters can be bundled as in `-fq`.
* A flag takes no value and stands at most once.
* Everything behind `--` is a value. So is an argument that is empty or a lone `-`.
* There is at most one value.

These are the rules of the argument library `clap`, as it documents them, for the arguments of this
program. Logging is left out: the environment variable that turns it on is taken to be unset.

## Main results

* `Command.ofArgs?_value`, `Command.ofArgs?_file`: behind `--` anything is a value, and with
  `--file` a value is the path of a script.
* `Options.read_of_head_ne`: an argument that does not start with a dash is a value.
-/

namespace Abacus

/-- What the program is called to do. -/
inductive Command
  | showHelp
  | showVersion
  /-- Work out an expression that was given. -/
  | expression (source : String)
  /-- Work out the script at a path. -/
  | script (path : String)
  /-- Work out an expression read from the standard input. -/
  | ask (quiet : Bool)
deriving DecidableEq, Repr

/-- A flag of the command line. -/
inductive Flag
  | file
  | quiet
  | help
  | version
deriving DecidableEq, Repr

namespace Flag

/-- The flag with this letter. -/
def ofLetter? : Char → Option Flag
  | 'f' => some file
  | 'q' => some quiet
  | 'h' => some help
  | 'V' => some version
  | _ => none

/-- The flag with this name. -/
def ofName? : String → Option Flag
  | "file" => some file
  | "quiet" => some quiet
  | "help" => some help
  | "version" => some version
  | _ => none

end Flag

/-- Why the arguments are not read any further. -/
inductive Verdict
  | command (c : Command)
  /-- An argument has no place. -/
  | misuse
deriving DecidableEq, Repr

/-- What the arguments read so far have said. -/
structure Options where
  file : Bool
  quiet : Bool
  value : Option String
deriving DecidableEq, Repr

namespace Options

/-- Nothing has been said yet. -/
def start : Options :=
  ⟨false, false, none⟩

/-- Takes a flag. -/
def flag (o : Options) : Flag → Except Verdict Options
  | .file => if o.file then .error .misuse else .ok { o with file := true }
  | .quiet => if o.quiet then .error .misuse else .ok { o with quiet := true }
  | .help => .error (.command .showHelp)
  | .version => .error (.command .showVersion)

/-- Takes what was written as a flag, if it is one. -/
def flag? (o : Options) : Option Flag → Except Verdict Options
  | some f => o.flag f
  | none => .error .misuse

/-- Takes a value. -/
def put (o : Options) (value : String) : Except Verdict Options :=
  match o.value with
  | none => .ok { o with value := some value }
  | some _ => .error .misuse

/-- Takes one argument in front of `--`. -/
def read (o : Options) (arg : String) : Except Verdict Options :=
  match arg.toList with
  | '-' :: '-' :: name => o.flag? (Flag.ofName? (String.ofList name))
  | '-' :: letter :: letters =>
    (letter :: letters).foldlM (fun o c => o.flag? (Flag.ofLetter? c)) o
  | _ => o.put arg

/-- Takes all arguments. -/
def readAll (o : Options) : List String → Except Verdict Options
  | [] => .ok o
  | arg :: args =>
    if arg = "--" then args.foldlM put o
    else do (← o.read arg).readAll args

/-- What the options ask for. -/
def command (o : Options) : Command :=
  match o.value, o.file with
  | some path, true => .script path
  | some source, false => .expression source
  | none, _ => .ask o.quiet

/-- An argument that does not start with a dash is a value. -/
theorem read_of_head_ne (o : Options) {arg : String} (h : arg.toList.head? ≠ some '-') :
    o.read arg = o.put arg := by
  unfold read
  split
  · rename_i h'
    simp [h'] at h
  · rename_i h'
    simp [h'] at h
  · rfl

end Options

namespace Command

/-- What the arguments call the program to do; nothing if an argument has no place. -/
def ofArgs? (args : List String) : Option Command :=
  match Options.start.readAll args with
  | .ok o => some o.command
  | .error (.command c) => some c
  | .error .misuse => none

/-- Behind `--` anything is a value. -/
theorem ofArgs?_value (source : String) : ofArgs? ["--", source] = some (.expression source) :=
  rfl

/-- With `--file` a value is the path of a script. -/
theorem ofArgs?_file {path : String} (h : path.toList.head? ≠ some '-') :
    ofArgs? ["--file", path] = some (.script path) := by
  have hpath : path ≠ "--" := fun hp => h (by rw [hp]; rfl)
  have hread : ∀ o : Options, o.readAll [path] = (o.put path).bind (·.readAll []) := fun o => by
    rw [Options.readAll, if_neg hpath, Options.read_of_head_ne o h]
    rfl
  have hflag : Options.start.readAll ["--file", path] =
      ({ Options.start with file := true } : Options).readAll [path] := rfl
  rw [ofArgs?, hflag, hread]
  rfl

end Command

/-! ### Input -/

namespace Input

/-- The bytes in front of the first line feed. -/
def firstLine (bytes : ByteArray) : ByteArray :=
  ⟨(bytes.data.toList.takeWhile (· != 0x0a)).toArray⟩

/-- A text without the carriage returns at its end. -/
def trimReturns (text : String) : String :=
  String.ofList (text.toList.reverse.dropWhile (· = '\r')).reverse

/-- The report on an expression in the first line of some input. What follows the line is left
alone, whatever it is. -/
def report (bytes : ByteArray) : Report :=
  match String.fromUTF8? (firstLine bytes) with
  | some text => Report.ofExpression (trimReturns text)
  | none =>
    Report.failure "Failed to read from standard input: stream did not contain valid UTF-8"

end Input

/-- The report on the script at a path, given its bytes if there is such a file. -/
def Script.reportFile (path : String) (bytes? : Option ByteArray) : Report :=
  match bytes?.bind String.fromUTF8? with
  | some text => Script.report text
  | none =>
    Report.failure
      ("Failed to read the input file '" ++ path ++ "'. Perhaps this file does not exist?")

/-! ### The program -/

namespace Report

/-- The report on wrong arguments. -/
def misuse : Report :=
  ⟨[], ["error: wrong arguments", "", "Usage: calcr [OPTIONS] [CONTENTS]", "",
    "For more information, try '--help'."], 2⟩

/-- The name and the version of the program. -/
def version : Report :=
  line "calcr 0.1.0"

/-- What the program does and which arguments it takes. -/
def help : Report :=
  ⟨["A small integer arithmetic expression evaluator.", "",
    "Usage: calcr [OPTIONS] [CONTENTS]", "",
    "Arguments:",
    "  [CONTENTS]  The expression, or the path when `--file` is given. " ++
      "Read from standard input when omitted", "",
    "Options:",
    "  -f, --file     Tells calcr to read expressions from a file, one per line, " ++
      "instead of taking a single expression",
    "  -q, --quiet    Do not print a prompt when reading from standard input",
    "  -h, --help     Print help",
    "  -V, --version  Print version"], [], 0⟩

end Report

namespace Command

/-- What is told before any input is read. -/
def prompt : Command → Report
  | ask false => Report.line "Enter an expression:"
  | _ => Report.empty

/-- The path of the file that has to be read, if any. -/
def path? : Command → Option String
  | script path => some path
  | _ => none

/-- What is told once the input is there: the bytes of the file, and of the standard input. -/
def conclude (file? : Option ByteArray) (stdin : ByteArray) : Command → Report
  | showHelp => Report.help
  | showVersion => Report.version
  | expression source => Report.ofExpression source
  | script path => Script.reportFile path file?
  | ask _ => Input.report stdin

/-- The whole report on a command, given the files that there are and the standard input. -/
def report (files : String → Option ByteArray) (stdin : ByteArray) (c : Command) : Report :=
  c.prompt ++ c.conclude (c.path?.bind files) stdin

end Command

/-- The report on a run of the program with some arguments. -/
def run (args : List String) (files : String → Option ByteArray) (stdin : ByteArray) : Report :=
  match Command.ofArgs? args with
  | some c => c.report files stdin
  | none => Report.misuse

end Abacus
