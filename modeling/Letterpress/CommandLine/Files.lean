/-
  Files, as a command line sees them.

  * `joined base path` is a path below another one; a path that starts at the top stays as it is.
  * `Files m` are the operations on text files that the commands need, in a monad.
  * `FileTree` is a tree of text files in memory; the operations on it are those of
    `StateM FileTree`.
-/
import Letterpress.Text.Scan

namespace Letterpress.CommandLine

/-! ## Paths -/

/-- A path below another one. -/
def joined (base path : String) : String :=
  if path.startsWith "/" || base.isEmpty then path
  else if base.endsWith "/" then base ++ path
  else base ++ "/" ++ path

/-- The names of a path, between its slashes. -/
def names (path : String) : List String := (Text.splitOn '/' path.toList).map String.ofList

/-! ## Operations -/

/-- The operations on text files. -/
class Files (m : Type → Type) where
  /-- The directory at which relative paths start. -/
  here : m String
  /-- The text of a file, if there is one that can be read. -/
  read? : String → m (Option String)
  /-- A file has this path. -/
  isFile : String → m Bool
  /-- A file or a directory has this path. -/
  isPresent : String → m Bool
  /-- Gives a file this text; the result says whether that was possible. -/
  write : String → String → m Bool

/-! ## Trees in memory -/

/-- A tree of text files.  A place is the list of the names on the way to it from the top. -/
structure FileTree where
  here : List String
  files : List (List String × String)
deriving Repr

namespace FileTree

/-- A directory is at this place. -/
def isDirectory (t : FileTree) (place : List String) : Bool :=
  place.isPrefixOf t.here || t.files.any fun f => place.isPrefixOf f.1.dropLast

/-- The place to which names lead from another one; each name is looked up in a directory. -/
def walk? (t : FileTree) (place : List String) : List String → Option (List String)
  | [] => some place
  | name :: rest =>
    if !t.isDirectory place then none
    else if name = "" || name = "." then t.walk? place rest
    else if name = ".." then t.walk? place.dropLast rest
    else t.walk? (place ++ [name]) rest

/-- The place of a path. -/
def place? (t : FileTree) (path : String) : Option (List String) :=
  t.walk? (if path.startsWith "/" then [] else t.here) (names path)

/-- The text of the file at a path. -/
def read? (t : FileTree) (path : String) : Option String :=
  (t.place? path).bind fun place => t.files.lookup place

/-- A file or a directory is at a path. -/
def isPresent (t : FileTree) (path : String) : Bool :=
  (t.read? path).isSome || ((t.place? path).map t.isDirectory).getD false

/-- The tree with a text for the file at a place. -/
def put (t : FileTree) (place : List String) (text : String) : FileTree :=
  { t with files := (place, text) :: t.files.filter fun f => f.1 ≠ place }

/-- The tree with a text for the file at a path. -/
def write? (t : FileTree) (path text : String) : Option FileTree :=
  ((t.place? path).filter fun place => !t.isDirectory place).map fun place => t.put place text

/-- The operations on a tree that is the state. -/
instance : Files (StateM FileTree) where
  here := return "/" ++ String.intercalate "/" (← get).here
  read? path := return (← get).read? path
  isFile path := return ((← get).read? path).isSome
  isPresent path := return (← get).isPresent path
  write path text := do
    match (← get).write? path text with
    | some t => do
      set t
      return true
    | none => return false

end FileTree

end Letterpress.CommandLine
