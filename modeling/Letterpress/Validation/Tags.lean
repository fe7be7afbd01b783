/-
  Checking the tags of a template.

  * `TagReport` lists the tags that the content mentions although nothing defines them, and those
    that are required although the content does not mention them.
  * `checkTags` makes the report, `ensureTags` is the same check as a result.
-/
import Letterpress.Failure
import Letterpress.Tag.Globals
import Letterpress.Tag.Mention
import Letterpress.Template

namespace Letterpress.Validation

/-- The faults of the tags of a template. -/
structure TagReport where
  undefined : List String
  unusedRequired : List String
deriving DecidableEq, Repr

namespace TagReport

/-- There are no faults. -/
def isOk (r : TagReport) : Bool := r.undefined.isEmpty && r.unusedRequired.isEmpty

/-- The report as a record. -/
def toJson (r : TagReport) : Json := Json.record
  [("undefined", some (.array (r.undefined.map .string))),
   ("unused_required", some (.array (r.unusedRequired.map .string)))]

end TagReport

/-- The report on the tags that the content mentions, against those that are declared or global. -/
def checkTags (content : Json) (declared : List TagDefinition) (globals : Globals) : TagReport :=
  let used := Tag.mentions content
  { undefined := used.filter fun key => !(declared.any fun d => d.key = key) && !globals.has key
    unusedRequired := (declared.filter fun d => d.required && !used.contains d.key).map (·.key) }

/-- The tags have no faults. -/
def ensureTags (content : Json) (declared : List TagDefinition) (globals : Globals) :
    Except Failure Unit :=
  let r := checkTags content declared globals
  if r.isOk then .ok () else .error (.templateTags r.undefined r.unusedRequired)

end Letterpress.Validation
