import Letterpress.Block.Block
import Letterpress.Block.Defaults
import Letterpress.Block.Document
import Letterpress.Block.Kind
import Letterpress.Block.Style
import Letterpress.Block.Supply
import Letterpress.CommandLine.Arguments
import Letterpress.CommandLine.Files
import Letterpress.CommandLine.Request
import Letterpress.CommandLine.Run
import Letterpress.CommandLine.Session
import Letterpress.CommandLine.Starter
import Letterpress.Compiler.Command
import Letterpress.Compiler.Program
import Letterpress.Config
import Letterpress.Date.Calendar
import Letterpress.Date.Pattern
import Letterpress.Date.Reading
import Letterpress.Decimal.Dyadic
import Letterpress.Decimal.Layout
import Letterpress.Decimal.Reading
import Letterpress.Decimal.Shortest
import Letterpress.Dict
import Letterpress.Editor.Drop
import Letterpress.Editor.Edit
import Letterpress.Editor.Listing
import Letterpress.Editor.State
import Letterpress.Editor.Tree
import Letterpress.Failure
import Letterpress.Format.Formatter
import Letterpress.Format.Number
import Letterpress.Json.Bounds
import Letterpress.Json.Parser
import Letterpress.Json.Path
import Letterpress.Json.Printer
import Letterpress.Json.Reading
import Letterpress.Json.Record
import Letterpress.Json.Token
import Letterpress.Json.Value
import Letterpress.Mailer
import Letterpress.Main
import Letterpress.Markup.Attributes
import Letterpress.Markup.Color
import Letterpress.Markup.Escape
import Letterpress.Markup.Link
import Letterpress.Markup.Sanitizer
import Letterpress.Proofs.Block.Anonymous
import Letterpress.Proofs.Block.Identifiers
import Letterpress.Proofs.Block.Merging
import Letterpress.Proofs.Block.Minting
import Letterpress.Proofs.Block.Overlay
import Letterpress.Proofs.Block.Reading
import Letterpress.Proofs.Block.RoundTrip
import Letterpress.Proofs.Block.Storable
import Letterpress.Proofs.Date.Pattern
import Letterpress.Proofs.Decimal.Fixed
import Letterpress.Proofs.Decimal.Layout
import Letterpress.Proofs.Decimal.Magnitude
import Letterpress.Proofs.Decimal.Range
import Letterpress.Proofs.Decimal.Truncation
import Letterpress.Proofs.Editor.Acceptance
import Letterpress.Proofs.Editor.Duplication
import Letterpress.Proofs.Editor.Finding
import Letterpress.Proofs.Editor.History
import Letterpress.Proofs.Editor.Identifiers
import Letterpress.Proofs.Editor.InPlace
import Letterpress.Proofs.Editor.Inverse
import Letterpress.Proofs.Editor.Landing
import Letterpress.Proofs.Editor.Lookup
import Letterpress.Proofs.Editor.Nesting
import Letterpress.Proofs.Editor.Operation
import Letterpress.Proofs.Editor.Pasting
import Letterpress.Proofs.Editor.Place
import Letterpress.Proofs.Editor.Refusal
import Letterpress.Proofs.Editor.Regrowth
import Letterpress.Proofs.Editor.Relayout
import Letterpress.Proofs.Editor.Relocation
import Letterpress.Proofs.Editor.Selection
import Letterpress.Proofs.Editor.Storable
import Letterpress.Proofs.Editor.Throughout
import Letterpress.Proofs.Editor.Timeline
import Letterpress.Proofs.Editor.Tree
import Letterpress.Proofs.Editor.Undo
import Letterpress.Proofs.Editor.Unsaved
import Letterpress.Proofs.Format.Number
import Letterpress.Proofs.Json.Numbers
import Letterpress.Proofs.Json.Ordered
import Letterpress.Proofs.Json.Path
import Letterpress.Proofs.Json.RoundTrip
import Letterpress.Proofs.Mailer
import Letterpress.Proofs.Markup.Clean
import Letterpress.Proofs.Markup.Color
import Letterpress.Proofs.Markup.Grammar
import Letterpress.Proofs.Markup.Link
import Letterpress.Proofs.Markup.Rebuilt
import Letterpress.Proofs.Markup.Sanitizer
import Letterpress.Proofs.Markup.Tag
import Letterpress.Proofs.Markup.Token
import Letterpress.Proofs.Markup.Value
import Letterpress.Proofs.Render.Body
import Letterpress.Proofs.Render.Flatness
import Letterpress.Proofs.Render.Fragment
import Letterpress.Proofs.Render.Independence
import Letterpress.Proofs.Render.Links
import Letterpress.Proofs.Render.Rows
import Letterpress.Proofs.Render.Sections
import Letterpress.Proofs.Render.Settings
import Letterpress.Proofs.Render.Tokens
import Letterpress.Proofs.Saving
import Letterpress.Proofs.Slug
import Letterpress.Proofs.Tag.Alone
import Letterpress.Proofs.Tag.Branch
import Letterpress.Proofs.Tag.Chain
import Letterpress.Proofs.Tag.Mention
import Letterpress.Proofs.Tag.Occurrence
import Letterpress.Proofs.Tag.Plain
import Letterpress.Proofs.Tag.Regions
import Letterpress.Proofs.Tag.Template
import Letterpress.Proofs.Tag.Writing
import Letterpress.Proofs.Text.Cutting
import Letterpress.Proofs.Text.Locating
import Letterpress.Proofs.Text.Words
import Letterpress.Proofs.Validation.Format
import Letterpress.Proofs.Validation.Globals
import Letterpress.Proofs.Validation.Loading
import Letterpress.Proofs.Validation.Pointing
import Letterpress.Proofs.Validation.Tags
import Letterpress.Render.Content
import Letterpress.Render.Media
import Letterpress.Render.Page
import Letterpress.Render.Props
import Letterpress.Render.Registry
import Letterpress.Render.Row
import Letterpress.Tag.Conditional
import Letterpress.Tag.Globals
import Letterpress.Tag.Mention
import Letterpress.Tag.Occurrence
import Letterpress.Tag.Pipe
import Letterpress.Tag.Processor
import Letterpress.Template
import Letterpress.Text.Blank
import Letterpress.Text.Case
import Letterpress.Text.Letter
import Letterpress.Text.Naming
import Letterpress.Text.Pieces
import Letterpress.Text.Ranges
import Letterpress.Text.Scan
import Letterpress.Text.Utf8
import Letterpress.Toml.Document
import Letterpress.Toml.Lexical
import Letterpress.Toml.Scalar
import Letterpress.Toml.Tree
import Letterpress.Validation.Fault
import Letterpress.Validation.Structure
import Letterpress.Validation.Tags
import Letterpress.Validation.Uuid
