/-
  Putting data into a text.

  * `Processor.run` selects the branches of the conditional regions and then replaces every tag by
    its value, with global tags for what the data does not define.
  * `Processor.applyPipes` is the value of a tag with its pipes.
  * `mergePlain` replaces tags without pipes only, and leaves those in place that have no value;
    it is for short texts such as subject lines.
  * `missingRequired` are the required keys that have no value.
-/
import Letterpress.Format.Formatter
import Letterpress.Tag.Conditional
import Letterpress.Tag.Globals

namespace Letterpress

open Text

/-- What tags are resolved with besides the data. -/
structure Processor where
  globals : Globals
  formatters : Formatters

namespace Processor

/-! ## Pipes -/

/-- The value with the argument of the last `default` pipe in its place, if it is empty. -/
def withDefault (pipes : List Tag.Pipe) (v : Json) : Json :=
  match (pipes.filter fun p => p.name = "default").getLast? with
  | some p => if Json.isBlank v then p.argument.elim .null .string else v
  | none => v

/-- One pipe; an unknown formatter leaves the value as it is. -/
def applyPipe (formatters : Formatters) (v : Json) (p : Tag.Pipe) : Json :=
  match formatters.get? p.name with
  | some f => .string (f v p.argument)
  | none => v

/-- The text of a value after its pipes.  A `default` pipe comes first wherever it stands, and the
    last of several counts. -/
def applyPipes (formatters : Formatters) (v : Option Json) (pipes : List Tag.Pipe) : String :=
  let rest := pipes.filter fun p => p.name ≠ "default"
  (rest.foldl (applyPipe formatters) (withDefault pipes (v.getD .null))).displayText

/-! ## Texts -/

/-- The text of a tag. -/
def resolveTag (formatters : Formatters) (data : Members) (t : Tag) : String :=
  applyPipes formatters (Json.resolve t.key data) t.pipes

/-- The text with every tag replaced. -/
def replaceTags (formatters : Formatters) (data : Members) (s : List Char) : List Char :=
  substitute (fun t => (resolveTag formatters data t).toList) (pieces Tag.read? s)

/-- The text with its conditional regions decided and its tags replaced. -/
def run (p : Processor) (s : String) (data : Members) : String :=
  let data := p.globals.merged data
  String.ofList (replaceTags p.formatters data (Tag.Conditional.selectBranches data s.toList))

/-- The keys among `required` that have no value. -/
def missingRequired (globals : Globals) (required : List String) (data : Members) : List String :=
  let data := globals.merged data
  required.filter fun key => Json.isBlank (Json.resolve key data)

end Processor

/-- The text of a tag without pipes, or the tag itself if it has no value. -/
def Tag.mergePlainTag (data : Members) (key : String) : List Char :=
  match Json.resolve key data with
  | some v => v.displayText.toList
  | none => opening ++ key.toList ++ closing

/-- The text with the tags without pipes replaced. -/
def Tag.mergePlain (globals : Globals) (s : String) (data : Members) : String :=
  let data := globals.merged data
  String.ofList (substitute (mergePlainTag data) (pieces readPlain? s.toList))

end Letterpress
