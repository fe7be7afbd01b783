/-
  Messages ready to be sent.

  * `checkRequired` refuses data without a value for a required tag of the template.
  * `Mailer.prepare` checks the data, if it is told to, renders the template and fills in the
    subject.
  * `Mailer.ofConfig` is the mailer of a configuration.
-/
import Letterpress.Render.Page

namespace Letterpress

/-! ## Required tags -/

/-- The data has a value for every required tag of the template. -/
def checkRequired (globals : Globals) (t : Template) (data : Members) : Except Failure Unit :=
  match Processor.missingRequired globals t.requiredKeys data with
  | [] => .ok ()
  | missing => .error (.missingTags t.slug missing)

/-! ## Mailers -/

/-- A message. -/
structure Message where
  subject : String
  html : String
deriving DecidableEq, Repr

/-- Prepares messages. -/
structure Mailer where
  setup : Render.Setup
  /-- Required tags are checked. -/
  checks : Bool

namespace Mailer

/-- The mailer of a configuration with a compiler. -/
def withCompiler (c : Config) (compiler : Compiler) (year : String) (ids : Supply) : Mailer where
  setup :=
    { registry := .builtin
      processor := ⟨c.globals year, .builtin⟩
      compiler := compiler
      defaults := c.settings
      ids := ids }
  checks := c.requiredTags

/-- The mailer of a configuration. -/
def ofConfig (c : Config) (programs : Compiler.Programs) (year : String) (ids : Supply) : Mailer :=
  withCompiler c (.ofCommand programs c.compiler) year ids

/-- The message of a template. -/
def prepare (m : Mailer) (t : Template) (data : Members) : Except Failure Message := do
  let globals := m.setup.processor.globals
  if m.checks then checkRequired globals t data
  let html ← m.setup.render t data
  return ⟨Tag.mergePlain globals t.subject data, html⟩

end Mailer

end Letterpress
