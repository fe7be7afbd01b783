/-
  Tags in a text.

  * `Tag` is a tag `{{key|pipe|…}}`: a key of ASCII letters, digits, `_` and `.`, and the text of
    its pipes, which runs to the next closing brace.
  * `Tag.read?` reads one at the start of a text, `Tag.text` writes it.
  * `tagsIn` finds the tags of a text with their offsets, `keysIn` their distinct keys.
  * `readPlain?` reads a tag without pipes, and gives its key.
-/
import Letterpress.Tag.Pipe
import Letterpress.Text.Pieces

namespace Letterpress

open Text

/-- A tag. -/
structure Tag where
  key : String
  /-- The pipes as they are written, from the first bar on. -/
  pipeText : String
deriving DecidableEq, Repr

namespace Tag

/-! ## Writing -/

/-- The opening braces. -/
def opening : List Char := ['{', '{']

/-- The closing braces. -/
def closing : List Char := ['}', '}']

/-- The tag as it is written. -/
def text (t : Tag) : List Char := opening ++ t.key.toList ++ t.pipeText.toList ++ closing

/-- The pipes of the tag. -/
def pipes (t : Tag) : List Pipe := pipesOf t.pipeText.toList

/-- The first `default` pipe. -/
def defaultPipe? (t : Tag) : Option Pipe := t.pipes.find? fun p => p.name = "default"

/-! ## Reading -/

/-- A character of a key. -/
def isKeyChar (c : Char) : Bool := c.isAlphanum || c = '_' || c = '.'

/-- A key and what follows it. -/
def readKey? (s : List Char) : Option (String × List Char) :=
  let (key, rest) := s.span isKeyChar
  if key.isEmpty then none else some (String.ofList key, rest)

/-- The text of the pipes, up to the next closing brace.  A bar alone is no pipe. -/
def readPipes? : List Char → Option (String × List Char)
  | '|' :: s =>
    let (body, rest) := s.span (· ≠ '}')
    if body.isEmpty then none else some (String.ofList ('|' :: body), rest)
  | s => some ("", s)

/-- A tag at the start of the text. -/
def read? : Reader Tag := fun s => do
  let s ← afterStart? opening s
  let (key, s) ← readKey? s
  let (pipeText, s) ← readPipes? s
  let s ← afterStart? closing s
  return (⟨key, pipeText⟩, s)

/-- The key of a tag without pipes at the start of the text. -/
def readPlain? : Reader String := fun s => do
  let s ← afterStart? opening s
  let (key, s) ← readKey? s
  let s ← afterStart? closing s
  return (key, s)

/-! ## Finding -/

/-- The tags of a text. -/
def tagsIn (s : String) : List (Located Tag) := located text 0 (pieces read? s.toList)

/-- The distinct keys of the tags, in order of their first appearance. -/
def keysIn (s : String) : List String := distinct ((tagsIn s).map (·.item.key))

/-- The distinct keys of the tags without pipes, in order of their first appearance. -/
def plainKeysIn (s : String) : List String := distinct (items (pieces readPlain? s.toList))

end Tag

end Letterpress
