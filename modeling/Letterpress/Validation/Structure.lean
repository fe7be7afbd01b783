/-
  Checking block trees that come from outside.

  * `structureFaults` lists all faults of a JSON value as a list of blocks; a block with a fault
    that hides its content has no others.
  * `ensureStructure` is the same check as a result.
-/
import Letterpress.Failure
import Letterpress.Json.Reading
import Letterpress.Render.Registry
import Letterpress.Validation.Uuid

namespace Letterpress.Validation

/-- The deepest level of a block; those of the top are at level zero. -/
def deepestLevel : Nat := 3

/-- The props that a block must have. -/
def requiredProps : Kind → List String
  | .button => ["text", "href"]
  | .image => ["src"]
  | _ => []

/-- The reports of the items of a list, each with its path. -/
def reportsOf (check : String → Json → List Report) (path : String) (items : List Json) :
    List Report :=
  (items.mapIdx fun i v => check (path ++ "[" ++ toString i ++ "]") v).flatten

/-- The items of an array that is a member of a value. -/
def itemsOf? (v : Json) (key : String) : Option (List Json) :=
  v.members?.bind fun ms => (ms.get? key).bind Json.items?

/-- The head of a block: its kind and its props, or the fault that hides them. -/
def blockHead (has : Kind → Bool) (nested : Bool) (v : Json) : Except Fault (Kind × Members) := do
  let some ms := v.members? | throw .blockNotObject
  let some id := (ms.get? "id").bind Json.text? | throw .invalidId
  if !isUuid id then throw .invalidUuid
  let some kind := (ms.get? "type").bind Kind.ofJson? | throw .invalidType
  if !has kind then throw (.unregisteredType kind)
  if nested && kind.isRow then throw .nestedRow
  let some props := (ms.get? "props").bind Json.members? | throw .invalidProps
  return (kind, props)

/-- The reports of a block at a path, where `levels` more levels are allowed from here on. -/
def blockReports (has : Kind → Bool) : Nat → Bool → String → Json → List Report
  | 0, _, path, _ => [⟨path, .tooDeep deepestLevel⟩]
  | levels + 1, nested, path, v =>
    match blockHead has nested v with
    | .error fault => [⟨path, fault⟩]
    | .ok (kind, props) =>
      let missing := (requiredProps kind).filter fun prop => Json.isBlank (props.get? prop)
      let own : List Report := missing.map fun prop => ⟨path, .missingProp kind prop⟩
      let columns := if kind.isRow then ((props.get? "columns").bind Json.items?).getD [] else []
      own ++ reportsOf
        (fun column v =>
          reportsOf (blockReports has levels true) (column ++ ".blocks")
            ((itemsOf? v "blocks").getD []))
        (path ++ ".props.columns") columns

/-- All reports of a value as a list of blocks. -/
def structureFaults (has : Kind → Bool) (v : Json) : List Report :=
  match v.items? with
  | none => [⟨"blocks", .blocksNotArray⟩]
  | some items => reportsOf (blockReports has (deepestLevel + 1) false) "blocks" items

/-- The value is a list of blocks without faults; the failure carries them. -/
def ensureStructure (has : Kind → Bool) (v : Json) : Except Failure Unit :=
  match structureFaults has v with
  | [] => .ok ()
  | faults => .error (.structure faults)

end Letterpress.Validation
