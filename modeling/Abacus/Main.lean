import Abacus.CommandLine

/-!
# The program

Input and output around `Abacus.CommandLine`, which decides everything else.
-/

namespace Abacus

/-- Writes a report to the two streams. -/
def Report.write (r : Report) : IO Unit := do
  let stdout ← IO.getStdout
  stdout.putStr r.stdout
  stdout.flush
  let stderr ← IO.getStderr
  stderr.putStr r.stderr
  stderr.flush

/-- The bytes of a stream up to its first line feed. -/
partial def readLine (stream : IO.FS.Stream) (line : ByteArray) : IO ByteArray := do
  let byte ← stream.read 1
  if byte.isEmpty || byte == ⟨#[0x0a]⟩ then
    return line
  readLine stream (line ++ byte)

/-- Does what a command asks for, and gives the exit code. -/
def Command.perform (c : Command) : IO UInt32 := do
  c.prompt.write
  let file? ← match c.path? with
    | some path => try some <$> IO.FS.readBinFile path catch _ => pure none
    | none => pure none
  let stdin ← match c with
    | .ask _ => readLine (← IO.getStdin) ByteArray.empty
    | _ => pure ByteArray.empty
  let report := c.conclude file? stdin
  report.write
  return report.code.toUInt32

end Abacus

open Abacus in
def main (args : List String) : IO UInt32 :=
  match Command.ofArgs? args with
  | some c => c.perform
  | none => do
    Report.misuse.write
    return Report.misuse.code.toUInt32
