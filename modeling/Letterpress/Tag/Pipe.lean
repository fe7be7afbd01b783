/-
  Pipes: the formatters that a tag applies to its value.

  * `Pipe` is the name of a formatter with an optional argument.
  * `Pipe.parse` reads one pipe, `name` or `name:argument`; the name is trimmed, the argument is
    kept as it is, so that arguments such as `, ` survive.
  * `pipesOf` reads a section of pipes, each after a `|`.
  * `parseTag?` reads a tag that is given alone, with or without its braces.
-/
import Letterpress.Text.Blank
import Letterpress.Text.Scan

namespace Letterpress.Tag

open Text

/-- A formatter application inside a tag, such as `date:Y/m/d`. -/
structure Pipe where
  name : String
  /-- What follows the first colon. -/
  argument : Option String
deriving DecidableEq, Repr

/-- The pipe `name` or `name:argument`. -/
def Pipe.parse (s : List Char) : Pipe :=
  match splitOnce ':' s with
  | some (name, argument) => ⟨String.ofList (trim name), some (String.ofList argument)⟩
  | none => ⟨String.ofList (trim s), none⟩

/-- The pipes between the bars; empty ones are left out. -/
def pipesOf (s : List Char) : List Pipe :=
  ((splitOn '|' s).filter fun part => !part.isEmpty).map Pipe.parse

/-- The key and the pipes of a tag that is given alone. -/
def parseTag? (s : List Char) : Option (String × List Pipe) :=
  let inner := trimEndOf (· = '}') (trimStartOf (· = '{') (trim s))
  let (key, rest) := (splitOnce '|' inner).getD (inner, [])
  let key := trim key
  if key.isEmpty then none else some (String.ofList key, pipesOf rest)

end Letterpress.Tag
