/-
  The tables of a TOML document while it is read.

  * `Node` is a value, a table, or an array of tables; a table remembers where it comes from,
    because a table may be opened by a header only once, and keys with dots may not extend a table
    that has been opened.
  * `assign?` sets a key, `openTable?` and `openItem?` are the two headers, and `atPath?` works on
    the table that the last header has opened.
  * `Node.toJson` is the value of a node.
-/
import Letterpress.Json.Value

namespace Letterpress.Toml

/-! ## Nodes -/

/-- Where a table comes from. -/
inductive Origin where
  /-- A header for a table inside it. -/
  | implied
  /-- A key with dots has made or extended it. -/
  | dotted
  /-- A header of its own. -/
  | header
deriving DecidableEq, Repr

/-- A part of a document. -/
inductive Node where
  /-- A value, which nothing can be added to. -/
  | value (v : Json)
  | table (origin : Origin) (entries : List (String × Node))
  /-- An array of tables, last one first. -/
  | tables (items : List (List (String × Node)))

/-- The entries of a table, in order. -/
abbrev Entries := List (String × Node)

/-- The entry of a key. -/
def find? (key : String) (es : Entries) : Option Node := es.lookup key

/-- The entries with another node for a key that is there. -/
def replace (key : String) (node : Node) (es : Entries) : Entries :=
  es.map fun e => if e.1 = key then (key, node) else e

/-- The entries with a further key at the end. -/
def append (key : String) (node : Node) (es : Entries) : Entries := es ++ [(key, node)]

/-! ## Statements -/

/-- The entries with a value for a key; the tables on the way to the last part can no longer be
    opened by a header. -/
def assign? (v : Json) : List String → Entries → Option Entries
  | [], _ => none
  | [key], es => if (find? key es).isSome then none else some (append key (.value v) es)
  | key :: rest, es =>
    match find? key es with
    | none => (assign? v rest []).map fun sub => append key (.table .dotted sub) es
    | some (.table origin sub) =>
      if origin = .header then none
      else (assign? v rest sub).map fun sub => replace key (.table .dotted sub) es
    | some _ => none

/-- The entries after a change in the table at a path, through the last table of each array; a table
    that is missing on the way is implied. -/
def atPath? (change : Entries → Option Entries) : List String → Entries → Option Entries
  | [], es => change es
  | key :: rest, es =>
    match find? key es with
    | none => (atPath? change rest []).map fun sub => append key (.table .implied sub) es
    | some (.table origin sub) =>
      (atPath? change rest sub).map fun sub => replace key (.table origin sub) es
    | some (.tables (last :: others)) =>
      (atPath? change rest last).map fun last => replace key (.tables (last :: others)) es
    | some _ => none

/-- A table with a header of its own. -/
def openHere? (key : String) (es : Entries) : Option Entries :=
  match find? key es with
  | none => some (append key (.table .header []) es)
  | some (.table .implied sub) => some (replace key (.table .header sub) es)
  | some _ => none

/-- A further table of an array. -/
def openItemHere? (key : String) (es : Entries) : Option Entries :=
  match find? key es with
  | none => some (append key (.tables [[]]) es)
  | some (.tables items) => some (replace key (.tables ([] :: items)) es)
  | some _ => none

/-- The header of a table. -/
def openTable? (path : List String) (es : Entries) : Option Entries :=
  path.getLast?.bind fun key => atPath? (openHere? key) path.dropLast es

/-- The header of a further table of an array. -/
def openItem? (path : List String) (es : Entries) : Option Entries :=
  path.getLast?.bind fun key => atPath? (openItemHere? key) path.dropLast es

/-! ## Values -/

mutual

/-- The value of a node. -/
def Node.toJson : Node → Json
  | .value v => v
  | .table _ es => .object (Dict.ofPairs (entriesJson es))
  | .tables items => .array (itemsJson items).reverse

/-- The values of entries. -/
def entriesJson : List (String × Node) → List (String × Json)
  | [] => []
  | (key, node) :: es => (key, node.toJson) :: entriesJson es

/-- The values of tables. -/
def itemsJson : List (List (String × Node)) → List Json
  | [] => []
  | es :: rest => .object (Dict.ofPairs (entriesJson es)) :: itemsJson rest

end

end Letterpress.Toml
