import RequestAtlas.Calendar.Date
import RequestAtlas.Calendar.Moment
import RequestAtlas.CommandLine.Arguments
import RequestAtlas.CommandLine.Console
import RequestAtlas.CommandLine.Run
import RequestAtlas.Document.Collection
import RequestAtlas.Document.Environment
import RequestAtlas.FileTree.Basic
import RequestAtlas.FileTree.Changes
import RequestAtlas.FileTree.Walk
import RequestAtlas.Generation
import RequestAtlas.Literal.Escape
import RequestAtlas.Literal.Numeral
import RequestAtlas.Literal.Reconstruction
import RequestAtlas.Logging
import RequestAtlas.Main
import RequestAtlas.Numeric.Binary64
import RequestAtlas.Numeric.Layout
import RequestAtlas.Path
import RequestAtlas.Request.Extraction
import RequestAtlas.Request.Fields
import RequestAtlas.Request.Method
import RequestAtlas.Request.Record
import RequestAtlas.Selection
import RequestAtlas.Settings.Basic
import RequestAtlas.Settings.Field
import RequestAtlas.Settings.Layers
import RequestAtlas.Syntax.Cursor
import RequestAtlas.Syntax.Expressions
import RequestAtlas.Syntax.Grammar
import RequestAtlas.Syntax.Lexeme
import RequestAtlas.Syntax.Markup
import RequestAtlas.Syntax.Members
import RequestAtlas.Syntax.Node
import RequestAtlas.Syntax.Patterns
import RequestAtlas.Syntax.Program
import RequestAtlas.Syntax.Source
import RequestAtlas.Syntax.Statements
import RequestAtlas.Syntax.Trivia
import RequestAtlas.Syntax.Types
import RequestAtlas.Text.Affix
import RequestAtlas.Text.Blank
import RequestAtlas.Text.Digit
import RequestAtlas.Text.Identifier
import RequestAtlas.Text.Printable
import RequestAtlas.Text.Quoted
import RequestAtlas.Text.Ranges
import RequestAtlas.Text.Surrogates
import RequestAtlas.Text.Upper
import RequestAtlas.Text.Utf16
import RequestAtlas.Text.Utf8
import RequestAtlas.Value.Basic
import RequestAtlas.Value.Graph
import RequestAtlas.Value.Printer
import RequestAtlas.Workspace.Basic
import RequestAtlas.Workspace.Files
import RequestAtlas.Yaml.Cursor
import RequestAtlas.Yaml.Datum
import RequestAtlas.Yaml.Error
import RequestAtlas.Yaml.Node
import RequestAtlas.Yaml.Plain
import RequestAtlas.Yaml.Scalar
import RequestAtlas.Yaml.Token
import RequestAtlas.Proofs.Json.Reader
import RequestAtlas.Proofs.Json.Spelling
import RequestAtlas.Proofs.StableSort
import RequestAtlas.Proofs.Json.RoundTrip
import RequestAtlas.Proofs.Document.Items
import RequestAtlas.Proofs.Document.Order
import RequestAtlas.Proofs.FileTree.Places
import RequestAtlas.Proofs.Workspace.Outcome
import RequestAtlas.Proofs.FileTree.Following
import RequestAtlas.Proofs.FileTree.Growth
import RequestAtlas.Proofs.Workspace.Folders
import RequestAtlas.Proofs.Workspace.Writing
import RequestAtlas.Proofs.Selected
import RequestAtlas.Proofs.Generation.Gathering
import RequestAtlas.Proofs.Generation.Returning
import RequestAtlas.Proofs.CommandLine.Agreement
import RequestAtlas.Proofs.Extracted
import RequestAtlas.Proofs.FileTree.Keeping
import RequestAtlas.Proofs.Scripts
import RequestAtlas.Proofs.Workspace.Making
import RequestAtlas.Proofs.Generation.Rerun
import RequestAtlas.Proofs.Generation.Effects
import RequestAtlas.Proofs.Generation.Editing
import RequestAtlas.Proofs.ExactSelection
import RequestAtlas.Proofs.Graph.CanonicalForm
import RequestAtlas.Proofs.Syntax.Written
import RequestAtlas.Proofs.Json.Grammar
import RequestAtlas.Proofs.Literal.Strict
import RequestAtlas.Proofs.Literal.Cooking
import RequestAtlas.Proofs.Literal.Segments
import RequestAtlas.Proofs.Literal.Padding
import RequestAtlas.Proofs.Workspace.Telling
import RequestAtlas.Proofs.CommandLine.Verbosity
import RequestAtlas.Proofs.Literal.Surrogates
import RequestAtlas.Proofs.Literal.Properties
import RequestAtlas.Proofs.Literal.LineBreaks
import RequestAtlas.Proofs.Numeric.Nearest
import RequestAtlas.Proofs.Literal.Radix
import RequestAtlas.Proofs.Literal.Positions
import RequestAtlas.Proofs.SkippedNames
import RequestAtlas.Proofs.Settings.Fields
import RequestAtlas.Proofs.Settings.Files
import RequestAtlas.Proofs.CommandLine.Options
import RequestAtlas.Proofs.CommandLine.Loading
import RequestAtlas.Proofs.CommandLine.Layering
import RequestAtlas.Proofs.Document.UrlParts
import RequestAtlas.Proofs.RelativePaths
import RequestAtlas.Proofs.Calendar.Days
import RequestAtlas.Proofs.Calendar.Stamps
import RequestAtlas.Proofs.Literal.Templates
