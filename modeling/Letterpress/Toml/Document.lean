/-
  Reading TOML documents.

  * `readValue?` reads a value, `readStatement?` a header or a key with its value.
  * `parse?` reads a whole document and gives its value as JSON; it fails on text that is not TOML
    and on documents that define something twice.
-/
import Letterpress.Toml.Scalar
import Letterpress.Toml.Tree

namespace Letterpress.Toml

open Text

/-! ## Values -/

/-- The depth to which arrays and inline tables may be nested. -/
def deepest : Nat := 80

mutual

/-- A value in which arrays and inline tables are nested up to `depth`; `fuel` bounds the number of
    values in it. -/
def readValue? : Nat → Nat → Reader Json
  | 0, _, _ => none
  | fuel + 1, depth, s =>
    match depth, s with
    | depth + 1, '[' :: s =>
      (readItems? fuel depth [] (skipLines s)).map fun (vs, s) => (.array vs.reverse, s)
    | depth + 1, '{' :: s =>
      (readMembers? fuel depth [] (skipLines s)).map fun (es, s) =>
        ((Node.table .dotted es).toJson, s)
    | _, '"' :: _ | _, '\'' :: _ => (readString? s).map fun (t, s) => (.string t, s)
    | _, s => readScalar? s

/-- The items of an array after those in `done`, last one first. -/
def readItems? : Nat → Nat → List Json → Reader (List Json)
  | 0, _, _, _ => none
  | fuel + 1, depth, done, s =>
    match s with
    | ']' :: s => some (done, s)
    | s =>
      match readValue? fuel depth s with
      | none => none
      | some (v, s) =>
        match skipLines s with
        | ',' :: s => readItems? fuel depth (v :: done) (skipLines s)
        | ']' :: s => some (v :: done, s)
        | _ => none

/-- The entries of an inline table after those in `done`.  Lines may end everywhere in it, but not
    within a key. -/
def readMembers? : Nat → Nat → Entries → Reader Entries
  | 0, _, _, _ => none
  | fuel + 1, depth, done, s =>
    match s with
    | '}' :: s => some (done, s)
    | s =>
      match (readKey? s).map fun (key, s) => (key, skipLines s) with
      | some (key, '=' :: s) =>
        match readValue? fuel depth (skipLines s) with
        | none => none
        | some (v, s) =>
          match assign? v key done, skipLines s with
          | some done, ',' :: s => readMembers? fuel depth done (skipLines s)
          | some done, '}' :: s => some (done, s)
          | _, _ => none
      | _ => none

end

/-! ## Statements -/

/-- A statement of a document. -/
inductive Statement where
  | table (path : List String)
  | item (path : List String)
  | assign (key : List String) (v : Json)

/-- A statement at the start of a line. -/
def readStatement? : Reader Statement
  | '[' :: '[' :: s => do
    let (path, s) ← readKey? s
    let s ← afterStart? [']', ']'] s
    return (.item path, s)
  | '[' :: s => do
    let (path, s) ← readKey? s
    let s ← afterStart? [']'] s
    return (.table path, s)
  | s => do
    let (key, s) ← readKey? s
    let s ← afterStart? ['='] s
    let (v, s) ← readValue? (2 * s.length + 2) deepest (skipBlank s)
    return (.assign key v, s)

/-- The document, and the path of the table that is open. -/
structure Reading where
  root : Entries
  path : List String

/-- The document after a statement. -/
def Reading.step? (r : Reading) : Statement → Option Reading
  | .table path => (openTable? path r.root).map fun root => ⟨root, path⟩
  | .item path => (openItem? path r.root).map fun root => ⟨root, path⟩
  | .assign key v => (atPath? (assign? v key) r.path r.root).map fun root => { r with root }

/-- The document after the rest of the text; `fuel` bounds the number of statements. -/
def readAll? : Nat → Reading → List Char → Option Reading
  | 0, _, _ => none
  | fuel + 1, r, s =>
    match skipLines s with
    | [] => some r
    | s => do
      let (statement, s) ← readStatement? s
      let r ← r.step? statement
      let s ← endOfLine? s
      readAll? fuel r s

/-- The text after a byte order mark, if it starts with one. -/
def skipMark : List Char → List Char
  | '\uFEFF' :: s => s
  | s => s

/-- The value of a document. -/
def parse? (s : String) : Option Json :=
  (readAll? (s.length + 1) ⟨[], []⟩ (skipMark s.toList)).map fun r =>
    (Node.table .header r.root).toJson

end Letterpress.Toml
