/-
  Runs of the program.

  * `Session m` is a computation that prints, and that can be stopped by a `Fault`; what has been
    printed before stays.
  * `Outcome` is a run that has ended: what was printed, and a fault, or whether all went well.
    `Outcome.status` is zero if it did, one if it did not, and two after a fault.
-/
import Letterpress.CommandLine.Files
import Letterpress.Failure

namespace Letterpress.CommandLine

/-! ## Faults -/

/-- What stops a run. -/
inductive Fault where
  /-- The arguments do not make a request. -/
  | usage
  /-- A file cannot be read or written. -/
  | file (path : String)
  /-- The data in a file are not an object. -/
  | data (path : String)
  | failure (f : Failure)
deriving DecidableEq, Repr

namespace Fault

/-- The name of a fault, if it has one. -/
def code? : Fault → Option String
  | .failure f => some f.code
  | _ => none

/-- The fault in words. -/
def text : Fault → String
  | .usage => "error: these arguments are not understood; \x60mailsmith --help\x60 lists them"
  | .file path => "error: \x60" ++ path ++ "\x60 cannot be read or written"
  | .data path => "error: data file \x60" ++ path ++ "\x60 must contain a JSON object"
  | .failure f => f.code ++ ": " ++ f.text

end Fault

/-! ## Runs -/

/-- What a run has printed. -/
structure Printed where
  output : String
  errors : String
deriving DecidableEq, Repr

/-- A run that prints and can be stopped. -/
abbrev Session (m : Type → Type) := ExceptT Fault (StateT Printed m)

/-- A run that has ended. -/
structure Outcome where
  printed : Printed
  result : Except Fault Bool

/-- The status of a run. -/
def Outcome.status (o : Outcome) : Nat :=
  match o.result with
  | .ok true => 0
  | .ok false => 1
  | .error _ => 2

/-- All that a run writes to the errors. -/
def Outcome.errors (o : Outcome) : String :=
  match o.result with
  | .ok _ => o.printed.errors
  | .error fault => o.printed.errors ++ fault.text ++ "\n"

variable {m : Type → Type} [Monad m]

/-- Prints a line to the output. -/
def say (line : String) : Session m Unit :=
  modify fun p => { p with output := p.output ++ line ++ "\n" }

/-- Prints a line to the errors. -/
def complain (line : String) : Session m Unit :=
  modify fun p => { p with errors := p.errors ++ line ++ "\n" }

/-- The result of an operation that can fail. -/
def orStop {α : Type} (x : Except Failure α) : Session m α :=
  match x with
  | .ok a => return a
  | .error f => throw (.failure f)

/-- A value that a text must have. -/
def orRefuse {α : Type} (f : Failure) (x : Option α) : Session m α :=
  match x with
  | some a => return a
  | none => throw (.failure f)

/-- The text of a file. -/
def readText [Files m] (path : String) : Session m String := do
  match ← (Files.read? path : m (Option String)) with
  | some s => return s
  | none => throw (.file path)

/-- Writes a file. -/
def writeText [Files m] (path text : String) : Session m Unit := do
  if !(← (Files.write path text : m Bool)) then throw (.file path)

/-- The run with all that it has printed. -/
def Session.finish (s : Session m Bool) : m Outcome := do
  let (result, printed) ← s.run.run ⟨"", ""⟩
  return ⟨printed, result⟩

end Letterpress.CommandLine
