/-
  The grammar of arguments.

  * `Switch` is an option: `--name`, or `-n` with its letter; an option with a value takes it after
    an equals sign, right after the letter, or as the next argument.  Letters can be put together
    after one dash.
  * `Arguments` are the options that are given, with the operands between them; after `--` there
    are operands alone.
  * `Arguments.read?` refuses options that are not known, values where there should be none, missing
    values, and values that look like options.
-/
import Letterpress.Text.Scan

namespace Letterpress.CommandLine

/-! ## Options -/

/-- An option. -/
structure Switch where
  name : String
  letter : Option Char
  /-- It takes a value. -/
  valued : Bool
deriving DecidableEq, Repr

/-- An option that is given, and its value. -/
abbrev Given := String × Option String

/-- The options of one argument, where the last one may take its value from the next argument. -/
structure Cluster where
  given : List Given
  awaiting : Option String
deriving DecidableEq, Repr

/-- The option after two dashes. -/
def namedSwitch? (switches : List Switch) (s : List Char) : Option Cluster := do
  let (name, value) := match Text.splitOnce '=' s with
    | some (name, value) => (name, some (String.ofList value))
    | none => (s, none)
  let sw ← switches.find? fun sw => sw.name = String.ofList name
  match sw.valued, value with
  | true, some value => return ⟨[(sw.name, some value)], none⟩
  | true, none => return ⟨[], some sw.name⟩
  | false, none => return ⟨[(sw.name, none)], none⟩
  | false, some _ => none

/-- The options after one dash. -/
def letterSwitches? (switches : List Switch) : List Char → Option Cluster
  | [] => some ⟨[], none⟩
  | c :: s => do
    let sw ← switches.find? fun sw => sw.letter = some c
    if !sw.valued then
      let more ← letterSwitches? switches s
      return { more with given := (sw.name, none) :: more.given }
    match s with
    | [] => return ⟨[], some sw.name⟩
    | '=' :: value => return ⟨[(sw.name, some (String.ofList value))], none⟩
    | value => return ⟨[(sw.name, some (String.ofList value))], none⟩

/-! ## Arguments -/

/-- The options and the operands of a command. -/
structure Arguments where
  given : List Given
  operands : List String
  /-- The options have been ended by `--`. -/
  ended : Bool
deriving DecidableEq, Repr

namespace Arguments

/-- The argument has the form of options, or ends them. -/
def isOption (argument : String) : Bool :=
  match argument.toList with
  | '-' :: _ :: _ => true
  | _ => false

/-- The arguments after more options. -/
def give (more : List Given) (a : Arguments) : Arguments := { a with given := more ++ a.given }

/-- The arguments after one more operand. -/
def operand (text : String) (a : Arguments) : Arguments := { a with operands := text :: a.operands }

/-- The arguments after an option that may be waiting for its value.  If `leading` is set, options
    come before all operands, and what follows the first operand is left as it is. -/
def readAfter? (switches : List Switch) (leading : Bool) :
    Option String → List String → Option Arguments
  | none, [] => some ⟨[], [], false⟩
  | some _, [] => none
  | some name, a :: rest =>
    if isOption a then none
    else (readAfter? switches leading none rest).map (give [(name, some a)])
  | none, a :: rest =>
    match a.toList with
    | ['-', '-'] => some ⟨[], rest, true⟩
    | '-' :: '-' :: s => do
      let c ← namedSwitch? switches s
      (readAfter? switches leading c.awaiting rest).map (give c.given)
    | '-' :: c :: s => do
      let c ← letterSwitches? switches (c :: s)
      (readAfter? switches leading c.awaiting rest).map (give c.given)
    | _ =>
      if leading then some ⟨[], a :: rest, false⟩
      else (readAfter? switches leading none rest).map (operand a)

/-- No option is given twice, and no value is empty. -/
def isClean (a : Arguments) : Bool :=
  decide (a.given.map (·.1)).Nodup && a.given.all fun g => g.2 ≠ some ""

/-- The arguments of a command. -/
def read? (switches : List Switch) (leading : Bool) (args : List String) : Option Arguments :=
  (readAfter? switches leading none args).filter isClean

/-- The value of an option. -/
def value? (a : Arguments) (name : String) : Option String := (a.given.lookup name).join

/-- The option is given. -/
def has (a : Arguments) (name : String) : Bool := (a.given.lookup name).isSome

end Arguments

end Letterpress.CommandLine
