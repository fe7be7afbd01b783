/-
  What can be wrong with a block tree.

  `Fault` is what can be wrong with a block, `Report` a fault with the path of the block.
-/
import Letterpress.Block.Block
import Letterpress.Json.Record

namespace Letterpress.Validation

/-- What is wrong with a block. -/
inductive Fault where
  | blocksNotArray
  | blockNotObject
  | invalidId
  | invalidUuid
  | invalidType
  | unregisteredType (kind : Kind)
  | invalidProps
  | missingProp (kind : Kind) (prop : String)
  | nestedRow
  | tooDeep (most : Nat)
deriving DecidableEq, Repr

namespace Fault

/-- The name of a fault. -/
def name : Fault → String
  | .blocksNotArray => "blocks_not_array"
  | .blockNotObject => "block_not_object"
  | .invalidId => "invalid_id"
  | .invalidUuid => "invalid_uuid"
  | .invalidType => "invalid_type"
  | .unregisteredType _ => "unregistered_type"
  | .invalidProps => "invalid_props"
  | .missingProp _ _ => "missing_required_prop"
  | .nestedRow => "nested_row"
  | .tooDeep _ => "max_nesting_exceeded"

/-- The fault in words. -/
def text : Fault → String
  | .blocksNotArray => "blocks must be an array"
  | .blockNotObject => "block must be an object"
  | .invalidId => "block id must be a string"
  | .invalidUuid => "block id must be a uuid"
  | .invalidType => "block type must be a string"
  | .unregisteredType kind => "block type \x60" ++ kind.name ++ "\x60 is not registered"
  | .invalidProps => "block props must be an object"
  | .missingProp kind prop => "\x60" ++ kind.name ++ "\x60 block requires \x60" ++ prop ++ "\x60"
  | .nestedRow => BlockFault.rowInColumnText
  | .tooDeep most => "blocks cannot be nested deeper than " ++ toString most ++ " levels"

end Fault

/-- A fault with the path of the block. -/
structure Report where
  path : String
  fault : Fault
deriving DecidableEq, Repr

namespace Report

/-- The report in words. -/
def text (r : Report) : String := r.path ++ ": " ++ r.fault.text

/-- The report as a record. -/
def toJson (r : Report) : Json :=
  let kind : Option Kind := match r.fault with
    | .unregisteredType kind | .missingProp kind _ => some kind
    | _ => none
  let prop : Option String := match r.fault with
    | .missingProp _ prop => some prop
    | _ => none
  let most : Option Nat := match r.fault with
    | .tooDeep most => some most
    | _ => none
  Json.record
    [("path", some (.string r.path)), ("kind", some (.string r.fault.name)),
     ("block_type", kind.map fun k => .string k.name), ("prop", prop.map .string),
     ("max", most.map fun n => Json.int n)]

end Report

end Letterpress.Validation
