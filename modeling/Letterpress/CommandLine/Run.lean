/-
  The commands of the program.

  * `startProject` writes the files of a new project where they are missing.
  * `renderTemplate` renders a template with data, `validateTemplate` checks one, and `listTags`
    lists its tags; relative paths are below the root of the project.
  * `run` does what the arguments of the program ask for.

  A command gives whether all went well.  Nothing of a template is read as blocks before
  `validateTemplate` has checked it.
-/
import Letterpress.CommandLine.Request
import Letterpress.CommandLine.Session
import Letterpress.CommandLine.Starter
import Letterpress.Mailer
import Letterpress.Validation.Structure
import Letterpress.Validation.Tags

namespace Letterpress.CommandLine

/-- What the commands use besides files. -/
structure Surroundings where
  programs : Compiler.Programs
  /-- The present year. -/
  year : String
  ids : Supply

variable {m : Type → Type} [Monad m] [Files m]

/-! ## Inputs -/

/-- The path of the configuration of a project. -/
def configPath? (root : String) : Session m (Option String) :=
  (Config.candidates.map (joined root)).findM? fun path => (Files.isFile path : m Bool)

/-- The configuration of a project. -/
def loadConfig (root : String) : Session m Config := do
  match ← configPath? root with
  | none => return .initial
  | some path => orRefuse .config (Config.parse? (← readText path))

/-- A template of a project. -/
def loadTemplate (root path : String) : Session m Template := do
  orRefuse .json (Template.parse? (← readText (joined root path)))

/-- The data for a template; none if there is no file for them. -/
def loadData (root : String) (path : Option String) : Session m Members := do
  match path with
  | none => return []
  | some path =>
    match ← orRefuse .json (Json.parse? (← readText (joined root path))) with
    | .object data => return data
    | _ => throw (.data path)

/-! ## Commands -/

/-- Writes the files of a new project; files that are there stay as they are. -/
def startProject (root : String) : Session m Bool := do
  match ← configPath? root with
  | some path => say ("Config file already exists: " ++ path)
  | none => do
    let name := Config.candidates.headD ""
    writeText (joined root name) starterConfig
    say ("Created " ++ name)
  let path := joined root "template.json"
  if ← (Files.isPresent path : m Bool) then
    say ("Template file already exists: " ++ path)
  else do
    writeText path starterTemplate
    say ("Created template file: " ++ path)
    say ""
    say "Next steps:"
    say ("  1. Edit " ++ path ++ " to add your blocks")
    say "  2. Run \x60mailsmith validate template.json\x60 to check it"
    say "  3. Run \x60mailsmith render template.json --data data.json\x60 to render it"
  return true

/-- Renders a template. -/
def renderTemplate (s : Surroundings) (root template : String) (data : Option String)
    (markupOnly : Bool) (output : Option String) : Session m Bool := do
  let config ← loadConfig root
  let t ← loadTemplate root template
  let data ← loadData root data
  let mailer :=
    if markupOnly then Mailer.withCompiler config .passthrough s.year s.ids
    else Mailer.ofConfig config s.programs s.year s.ids
  let message ← orStop (mailer.prepare t data)
  match output with
  | some path => do
    let path := joined root path
    writeText path message.html
    say ("Subject: " ++ message.subject)
    say ("Rendered \x60" ++ t.slug ++ "\x60 to " ++ path)
  | none => do
    complain ("Subject: " ++ message.subject)
    say message.html
  return true

/-- All that is wrong with a template, and whether that is nothing. -/
structure Verdict where
  blocks : List Validation.Report
  tags : Validation.TagReport
deriving DecidableEq, Repr

namespace Verdict

/-- Nothing is wrong. -/
def isOk (v : Verdict) : Bool := v.blocks.isEmpty && v.tags.isOk

/-- The verdict as a record. -/
def toJson (v : Verdict) : Json := Json.record
  [("ok", some (.bool v.isOk)), ("blocks", some (.array (v.blocks.map (·.toJson)))),
   ("undefined", some (.array (v.tags.undefined.map .string))),
   ("unusedRequired", some (.array (v.tags.unusedRequired.map .string)))]

/-- What is wrong, a line each. -/
def lines (v : Verdict) : List String :=
  v.blocks.map (fun r => "error: " ++ r.text) ++
  v.tags.undefined.map (fun key => "error: tag \x60" ++ key ++
    "\x60 is used but neither the template nor the config defines it") ++
  v.tags.unusedRequired.map fun key =>
    "error: required tag \x60" ++ key ++ "\x60 is never used by the content"

/-- How much is wrong. -/
def summary (v : Verdict) : String :=
  "Validation failed: " ++ toString v.blocks.length ++ " block error(s), " ++
    toString v.tags.undefined.length ++ " undefined tag(s), " ++
    toString v.tags.unusedRequired.length ++ " unused required tag(s)."

/-- The verdict on a template, or nothing if its tags cannot be read. -/
def of? (config : Config) (year : String) (template : Json) : Option Verdict := do
  let blocks := (Json.follow ["content", "blocks"] template).getD .null
  let tags ← Json.absent [] (Json.listOf? TagDefinition.ofJson?)
    (template.members?.bind fun ms => ms.get? "tags")
  return {
    blocks := Validation.structureFaults Registry.builtin.has blocks
    tags := Validation.checkTags blocks tags (config.globals year) }

end Verdict

/-- Checks a template. -/
def validateTemplate (s : Surroundings) (root template : String) (format : Format) :
    Session m Bool := do
  let config ← loadConfig root
  let v ← orRefuse .json (Json.parse? (← readText (joined root template)))
  let verdict ← orRefuse .json (Verdict.of? config s.year v)
  match format with
  | .json => say verdict.toJson.render
  | .text => do
    for line in verdict.lines do complain line
    if verdict.isOk then say ("Valid: " ++ template)
    else do
      complain ""
      complain verdict.summary
  return verdict.isOk

/-- A text with blanks after it, up to a width. -/
def padded (width : Nat) (s : String) : String := s ++ "".pushn ' ' (width - s.length)

/-- The tags of a template: those that it uses, those that it declares, and the global ones. -/
structure TagOverview where
  slug : String
  used : List String
  declared : List TagDefinition
  globals : List Globals.Listing

namespace TagOverview

/-- The tags of a template; those of the content come before those of the subject. -/
def of (t : Template) (globals : Globals) : TagOverview where
  slug := t.slug
  used := Text.distinct
    (Tag.allMentions t.content.toJson ++ Tag.allMentions (.string t.subject))
  declared := t.tags
  globals := globals.forEditor.1

/-- The overview as a record. -/
def toJson (o : TagOverview) : Json := Json.record
  [("used", some (.array (o.used.map .string))),
   ("defined", some (.array (o.declared.map TagDefinition.toJson))),
   ("global", some (.array (o.globals.map Globals.Listing.toJson)))]

/-- Where the value of a tag comes from. -/
def origin (o : TagOverview) (key : String) : String :=
  match o.declared.find? fun d => d.key = key with
  | some d => if d.required then "defined, required" else "defined"
  | none => if o.globals.any fun l => l.key = key then "global" else "undefined"

/-- The lines of a section. -/
def sectionLines (title : String) (lines : List String) : List String := ["", title] ++ lines

/-- The lines, or one that says that there are none. -/
def orNone (lines : List String) : List String := if lines.isEmpty then ["  none"] else lines

/-- The overview in words. -/
def lines (o : TagOverview) : List String :=
  let used := o.used.map fun key => "  " ++ key ++ " (" ++ o.origin key ++ ")"
  let declared := o.declared.map fun d =>
    "  " ++ padded 24 d.key ++ " " ++ d.label ++ " [" ++ d.type.title ++
      (if d.required then ", required" else "") ++ "]"
  let globals := o.globals.map fun l =>
    "  " ++ padded 24 l.key ++ " " ++ l.label ++ " (e.g. " ++ l.shown.render ++ ")"
  ["Tags for \x60" ++ o.slug ++ "\x60"] ++ sectionLines "Used:" (orNone used) ++
    sectionLines "Defined:" (orNone declared) ++ sectionLines "Global:" globals

end TagOverview

/-- Lists the tags of a template. -/
def listTags (s : Surroundings) (root template : String) (format : Format) : Session m Bool := do
  let config ← loadConfig root
  let t ← loadTemplate root template
  let overview := TagOverview.of t (config.globals s.year)
  match format with
  | .json => say overview.toJson.render
  | .text => do
    for line in overview.lines do say line
  return true

/-! ## Requests -/

/-- How the program is used. -/
def usage : List String :=
  ["Render and validate block based email templates.",
   "",
   "Usage: mailsmith [OPTIONS] [COMMAND]",
   "",
   "Commands:",
   "  init                  Create a configuration and a sample template",
   "  render TEMPLATE       Render a template [-d FILE] [--markup-only] [-o FILE]",
   "  validate TEMPLATE     Check the blocks and the tags of a template [--format text|json]",
   "  tags TEMPLATE         List the tags of a template [--format text|json]",
   "",
   "Options:",
   "  -p, --path PATH       The root of the project",
   "  -v, --verbose         Enable verbose output",
   "      --no-color        Disable colored output",
   "  -h, --help            Print help",
   "  -V, --version         Print version"]

/-- Does what is asked for. -/
def answer (s : Surroundings) : Request → Session m Bool
  | .help => do
    for line in usage do say line
    return true
  | .version => do
    say "mailsmith 0.3.0"
    return true
  | .act _ none => do
    complain "No subcommand specified. Run \x60mailsmith --help\x60 for usage."
    return false
  | .act root (some action) => do
    let root ← match root with
      | some path => pure path
      | none => (Files.here : m String)
    match action with
    | .init => startProject root
    | .render template data markupOnly output =>
      renderTemplate s root template data markupOnly output
    | .validate template format => validateTemplate s root template format
    | .tags template format => listTags s root template format

/-- Runs the program with its arguments. -/
def run (s : Surroundings) (args : List String) : m Outcome :=
  match Request.parse? args with
  | some r => (answer s r).finish
  | none => (throw .usage : Session m Bool).finish

end Letterpress.CommandLine
