/-
  The program: its arguments, the files of the machine, and the output.
-/
import Letterpress.CommandLine.Run
import Letterpress.Date.Calendar
import Std.Time.DateTime.Timestamp

namespace Letterpress.CommandLine

/-- The result of an action, or another one if the machine refuses it. -/
def unlessRefused {α : Type} (otherwise : α) (act : IO α) : IO α := do
  try act catch _ => return otherwise

/-- The files of the machine. -/
instance : Files IO where
  here := return toString (← IO.currentDir)
  read? path := unlessRefused none do return some (← IO.FS.readFile path)
  isFile path := unlessRefused false do
    let _ ← IO.FS.readBinFile path
    return true
  isPresent path := unlessRefused false do
    let _ ← IO.FS.Handle.mk path .read
    return true
  write path text := unlessRefused false do
    IO.FS.writeFile path text
    return true

/-- The present year, in universal time. -/
def presentYear : IO String := do
  let now ← Std.Time.Timestamp.now
  return toString (Date.ofNumber (now.toSecondsSinceUnixEpoch.val / 86400)).year

/-- Runs the program with its arguments, prints, and gives the status. -/
def runProgram (args : List String) : IO UInt32 := do
  let surroundings : Surroundings :=
    { programs := Compiler.Programs.standard
      year := ← presentYear
      ids := ⟨fun n => toString n, 0⟩ }
  let outcome ← run surroundings args
  (← IO.getStdout).putStr outcome.printed.output
  (← IO.getStderr).putStr outcome.errors
  return UInt32.ofNat outcome.status

end Letterpress.CommandLine

/-- The program. -/
def main (args : List String) : IO UInt32 := Letterpress.CommandLine.runProgram args
