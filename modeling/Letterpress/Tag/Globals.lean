/-
  Global tags: values that every template can use without being given them.

  * `GlobalTag` is a value with its label, description and example.
  * `GlobalValue` is fixed, or produced anew each time it is asked for; a producer is the sequence
    of its values, and asking moves it on by one.
  * `Globals` are the registered tags.  `Globals.supplement data` adds to the data what it does not
    define, and `Globals.forEditor` describes the tags; both give the moved-on tags too.
-/
import Letterpress.Json.Value
import Letterpress.Text.Naming

namespace Letterpress

/-! ## Tags -/

/-- The value of a global tag. -/
inductive GlobalValue where
  | fixed (v : Json)
  /-- A new value each time; `asked` counts how often. -/
  | produced (values : Nat → Json) (asked : Nat)

/-- The present value, and the value as it is from then on. -/
def GlobalValue.next : GlobalValue → Json × GlobalValue
  | .fixed v => (v, .fixed v)
  | .produced values asked => (values asked, .produced values (asked + 1))

/-- A global tag. -/
structure GlobalTag where
  value : GlobalValue
  /-- Empty to derive one from the key. -/
  label : String
  description : String
  example? : Option String

/-- A tag with a fixed value and no texts. -/
def GlobalTag.ofValue (v : Json) : GlobalTag := ⟨.fixed v, "", "", none⟩

/-- The registered tags. -/
abbrev Globals := Dict GlobalTag

namespace Globals

/-! ## Registering -/

/-- The tags with one more, or with one replaced.  An empty label is derived from the key. -/
def register (key : String) (tag : GlobalTag) (gs : Globals) : Globals :=
  gs.insert key (if tag.label.isEmpty then { tag with label := Text.humanize key } else tag)

/-- The tags with a fixed value for `key`. -/
def registerValue (key : String) (v : Json) (gs : Globals) : Globals := gs.register key (.ofValue v)

/-- The tag that an entry of a loosely typed map means: a full definition, if it is an object with
    a value or a label, and the value of the tag otherwise. -/
def ofEntry (entry : Json) : GlobalTag :=
  match entry with
  | .object ms =>
    if Dict.has ms "value" || Dict.has ms "label" then
      let text (field : String) : Option String := (Dict.get? ms field).bind Json.text?
      { value := .fixed ((Dict.get? ms "value").getD .null)
        label := (text "label").getD ""
        description := (text "description").getD ""
        example? := text "example" }
    else .ofValue entry
  | _ => .ofValue entry

/-- The tags with those of a loosely typed map. -/
def registerAll (entries : Members) (gs : Globals) : Globals :=
  entries.foldl (fun gs (key, entry) => gs.register key (ofEntry entry)) gs

/-- The tags that are there from the start: the current year. -/
def withYear (year : String) : Globals :=
  register "current_year"
    { value := .produced (fun _ => .string year) 0
      label := "Current Year"
      description := "The current four digit year"
      example? := none } []

/-! ## Asking -/

/-- The data with every global tag that it does not define, and the tags moved on. -/
def supplement (data : Members) : Globals → Members × Globals
  | [] => (data, [])
  | (key, tag) :: gs =>
    let (resolved, rest) := supplement data gs
    if data.has key then (resolved, (key, tag) :: rest)
    else
      let (v, next) := tag.value.next
      (resolved.insert key v, (key, { tag with value := next }) :: rest)

/-- The data with every global tag that it does not define. -/
def merged (gs : Globals) (data : Members) : Members := (gs.supplement data).1

/-- A global tag as an editor shows it. -/
structure Listing where
  key : String
  label : String
  description : String
  /-- The example, or else the present value. -/
  shown : Json

/-- The tags as an editor shows them, and the tags moved on. -/
def forEditor : Globals → List Listing × Globals
  | [] => ([], [])
  | (key, tag) :: gs =>
    let (listed, rest) := forEditor gs
    match tag.example? with
    | some e => (⟨key, tag.label, tag.description, .string e⟩ :: listed, (key, tag) :: rest)
    | none =>
      let (v, next) := tag.value.next
      (⟨key, tag.label, tag.description, v⟩ :: listed, (key, { tag with value := next }) :: rest)

/-- The listing as JSON. -/
def Listing.toJson (l : Listing) : Json :=
  .object (Dict.ofPairs
    [("key", .string l.key), ("label", .string l.label), ("description", .string l.description),
     ("example", l.shown), ("global", .bool true)])

end Globals

end Letterpress
