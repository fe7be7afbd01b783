/-
  Compilers: from markup to the final page.

  * A `Compiler` makes a page of markup, or fails.
  * `passthrough` leaves the markup as it is; `ofCommand` gives it to a program and takes its
    output.
-/
import Letterpress.Compiler.Program
import Letterpress.Config
import Letterpress.Failure
import Letterpress.Text.Blank

namespace Letterpress

/-- Makes a page of markup. -/
abbrev Compiler := String → Except Failure String

namespace Compiler

/-- The markup as it is. -/
def passthrough : Compiler := .ok

/-- The page that a run gives; the status, the errors and the form of the output are checked. -/
def pageOf (command : String) (f : Finished) : Except Failure String :=
  if f.status ≠ 0 then
    .error (.compiler ("\x60" ++ command ++ "\x60 exited with exit status: " ++ toString f.status ++
      ": " ++ Text.trimText (Text.decodeLossy f.errors)))
  else
    match Text.decode f.output with
    | .ok page => .ok page
    | .error fault => .error (.compiler ("compiler output is not utf-8: " ++ fault.text))

/-- A program that reads markup and writes the page. -/
def ofCommand (programs : Programs) (c : CompilerCommand) : Compiler := fun markup =>
  match programs c.command c.args (Text.encode markup) with
  | .error reason =>
    .error (.compiler ("failed to run \x60" ++ c.command ++ "\x60: " ++ reason))
  | .ok f => pageOf c.command f

end Compiler

end Letterpress
