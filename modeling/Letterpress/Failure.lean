/-
  What can go wrong.

  * `Failure` lists the ways in which an operation of the library fails.
  * `Failure.text` is the message, `Failure.code` names the failure in reports.
-/
import Letterpress.Block.Block
import Letterpress.Validation.Fault

namespace Letterpress

/-- A failure. -/
inductive Failure where
  /-- A file cannot be read or written. -/
  | io (reason : String)
  /-- A JSON text does not have the form that it should have. -/
  | json
  /-- The configuration does not have the form that it should have. -/
  | config
  /-- Required tags of a template have no value. -/
  | missingTags (template : String) (keys : List String)
  /-- No renderer is registered for a kind. -/
  | unknownKind (kind : String)
  /-- A block tree has faults. -/
  | structure (reports : List Validation.Report)
  /-- A template uses tags that are not defined, or does not use tags that it requires. -/
  | templateTags (undefined unused : List String)
  /-- The props of a block do not fit its kind. -/
  | props (kind : String) (reason : String)
  /-- The compiler has failed. -/
  | compiler (reason : String)
deriving DecidableEq, Repr

namespace Failure

/-- Names with commas between them. -/
def listed (names : List String) : String := String.intercalate ", " names

/-- The message. -/
def text : Failure → String
  | .io reason => reason
  | .json => "invalid json"
  | .config => "failed to parse config file"
  | .missingTags template keys =>
    "missing required tags for template \x60" ++ template ++ "\x60: " ++ listed keys
  | .unknownKind kind => "no renderer registered for block type: \x60" ++ kind ++ "\x60"
  | .structure reports =>
    "invalid block structure (" ++ toString reports.length ++ " error(s))"
  | .templateTags undefined unused =>
    "invalid template tags: undefined [" ++ listed undefined ++ "], required but unused [" ++
      listed unused ++ "]"
  | .props kind reason => "invalid props for \x60" ++ kind ++ "\x60 block: " ++ reason
  | .compiler reason => "markup compilation failed: " ++ reason

/-- The name of the failure. -/
def code : Failure → String
  | .io _ => "mailsmith::io_error"
  | .json => "mailsmith::json"
  | .config => "mailsmith::config_parse"
  | .missingTags _ _ => "mailsmith::missing_required_tags"
  | .unknownKind _ => "mailsmith::unknown_block_type"
  | .structure _ => "mailsmith::invalid_block_structure"
  | .templateTags _ _ => "mailsmith::invalid_template_tags"
  | .props _ _ => "mailsmith::invalid_props"
  | .compiler _ => "mailsmith::compiler"

end Failure

/-! ## Blocks -/

/-- The failure of a content block. -/
def BlockFault.contentFailure : BlockFault → Failure
  | .rowInColumn => .props Kind.row.name rowInColumnText
  | .shape => .json

/-- The failure of a row whose props are refused. -/
def BlockFault.rowFailure (fault : BlockFault) : Failure :=
  match fault with
  | .rowInColumn => .props Kind.row.name fault.contentFailure.text
  | .shape => .props Kind.row.name "these are not the props of a row"

end Letterpress
