/-
  What the program can be asked to do.

  * `Action` is one of the commands with its arguments; `Request` is an action in a directory.
  * `Request.parse?` reads the request off the arguments of the program.  The options of the program
    are also options of every command, where those given to the command come first.

  The program prints plain text, and no more than it is asked for, so that `--no-color` and
  `--verbose` change nothing.
-/
import Letterpress.CommandLine.Arguments

namespace Letterpress.CommandLine

/-! ## Actions -/

/-- The form of a report. -/
inductive Format where
  | text
  | json
deriving DecidableEq, Repr

/-- A format by its name. -/
def Format.ofName? : String → Option Format
  | "text" => some .text
  | "json" => some .json
  | _ => none

/-- The commands. -/
inductive Action where
  /-- Writes a configuration and a template to start with. -/
  | init
  /-- Renders a template with the values of a data file, to a file or to the output. -/
  | render (template : String) (data : Option String) (markupOnly : Bool) (output : Option String)
  /-- Checks a template. -/
  | validate (template : String) (format : Format)
  /-- Lists the tags of a template. -/
  | tags (template : String) (format : Format)
deriving DecidableEq, Repr

/-- What the program is asked to do. -/
inductive Request where
  /-- An action, or none, in a directory if one is given. -/
  | act (root : Option String) (action : Option Action)
  | help
  | version
deriving DecidableEq, Repr

/-! ## Options -/

/-- The options of all commands. -/
def commonSwitches : List Switch :=
  [⟨"path", some 'p', true⟩, ⟨"verbose", some 'v', false⟩, ⟨"no-color", none, false⟩,
   ⟨"help", some 'h', false⟩]

/-- The options of the program. -/
def programSwitches : List Switch := ⟨"version", some 'V', false⟩ :: commonSwitches

/-- The options of a command, if there is one of this name. -/
def commandSwitches? : String → Option (List Switch)
  | "init" | "help" => some commonSwitches
  | "render" =>
    some (commonSwitches ++
      [⟨"data", some 'd', true⟩, ⟨"markup-only", none, false⟩, ⟨"output", some 'o', true⟩])
  | "validate" | "tags" => some (commonSwitches ++ [⟨"format", none, true⟩])
  | _ => none

/-! ## Reading -/

/-- The format that is given, or the usual one. -/
def formatOf? (a : Arguments) : Option Format :=
  match a.value? "format" with
  | some name => Format.ofName? name
  | none => some .text

/-- The action of a command with its arguments. -/
def Action.of? (command : String) (a : Arguments) : Option Action :=
  match command, a.operands with
  | "init", [] => some .init
  | "render", [template] =>
    if template.isEmpty then none
    else some (.render template (a.value? "data") (a.has "markup-only") (a.value? "output"))
  | "validate", [template] =>
    if template.isEmpty then none else (formatOf? a).map (.validate template)
  | "tags", [template] => if template.isEmpty then none else (formatOf? a).map (.tags template)
  | _, _ => none

/-- The request of a command with its arguments, in a directory that the program was given. -/
def Request.ofCommand? (root : Option String) (command : String) (args : List String) :
    Option Request := do
  let a ← Arguments.read? (← commandSwitches? command) false args
  if a.has "help" || command = "help" then return .help
  return .act ((a.value? "path").or root) (some (← Action.of? command a))

/-- The request that the arguments of the program make. -/
def Request.parse? (args : List String) : Option Request := do
  let a ← Arguments.read? programSwitches true args
  if a.has "help" then return .help
  if a.has "version" then return .version
  match a.operands with
  | [] => return .act (a.value? "path") none
  | command :: args => if a.ended then none else Request.ofCommand? (a.value? "path") command args

end Letterpress.CommandLine
