import QuestScript.CommandLine.Arguments
import QuestScript.CommandLine.Invocation
import QuestScript.CommandLine.Report
import QuestScript.Document.Codec
import QuestScript.Document.Format
import QuestScript.Document.Shape
import QuestScript.Document.Validator
import QuestScript.DropTable
import QuestScript.Files.FilePath
import QuestScript.Files.FileSystem
import QuestScript.Files.QuestFile
import QuestScript.Files.QuestStore
import QuestScript.Files.TextFile
import QuestScript.Json.Basic
import QuestScript.Json.Reader
import QuestScript.Main
import QuestScript.Number.Basic
import QuestScript.Number.Binary64
import QuestScript.Number.Fractional
import QuestScript.Number.Integer
import QuestScript.Number.Limit
import QuestScript.Number.Power
import QuestScript.Number.Shortest
import QuestScript.Proofs.CommandLine.Checking
import QuestScript.Proofs.Document.Acceptance
import QuestScript.Proofs.Document.Parts
import QuestScript.Proofs.Document.PathOrder
import QuestScript.Proofs.Document.Scripts
import QuestScript.Proofs.Document.Storage
import QuestScript.Proofs.Document.Validator
import QuestScript.Proofs.DropTable
import QuestScript.Proofs.DropTable.Joined
import QuestScript.Proofs.Except
import QuestScript.Proofs.Files.Directory
import QuestScript.Proofs.Files.FilePath
import QuestScript.Proofs.Files.FileSystem
import QuestScript.Proofs.Files.OtherFiles
import QuestScript.Proofs.Files.QuestFile
import QuestScript.Proofs.Files.QuestStore
import QuestScript.Proofs.Number.Decimal
import QuestScript.Proofs.Number.Fractional
import QuestScript.Proofs.Number.Limit
import QuestScript.Proofs.Number.Rounding
import QuestScript.Proofs.Number.Shortest
import QuestScript.Proofs.Quest.Accounting
import QuestScript.Proofs.Quest.AttributeLines
import QuestScript.Proofs.Quest.BlockLines
import QuestScript.Proofs.Quest.CachedText
import QuestScript.Proofs.Quest.CallLines
import QuestScript.Proofs.Quest.CallTokens
import QuestScript.Proofs.Quest.Canonical
import QuestScript.Proofs.Quest.Edits
import QuestScript.Proofs.Quest.Exports
import QuestScript.Proofs.Quest.FailedEdits
import QuestScript.Proofs.Quest.FreeNames
import QuestScript.Proofs.Quest.InPlace
import QuestScript.Proofs.Quest.LateTyping
import QuestScript.Proofs.Quest.LooseKeys
import QuestScript.Proofs.Quest.Normal
import QuestScript.Proofs.Quest.Openings
import QuestScript.Proofs.Quest.Outcomes
import QuestScript.Proofs.Quest.ParseWarnings
import QuestScript.Proofs.Quest.Pasting
import QuestScript.Proofs.Quest.Quoting
import QuestScript.Proofs.Quest.Reading
import QuestScript.Proofs.Quest.Redirecting
import QuestScript.Proofs.Quest.References
import QuestScript.Proofs.Quest.Refresh
import QuestScript.Proofs.Quest.Renaming
import QuestScript.Proofs.Quest.RenamingBack
import QuestScript.Proofs.Quest.Representable
import QuestScript.Proofs.Quest.Reread
import QuestScript.Proofs.Quest.Resuming
import QuestScript.Proofs.Quest.RoundTrip
import QuestScript.Proofs.Quest.Same
import QuestScript.Proofs.Quest.SameLayout
import QuestScript.Proofs.Quest.Semicolons
import QuestScript.Proofs.Quest.Sourced
import QuestScript.Proofs.Quest.StateNames
import QuestScript.Proofs.Quest.Surviving
import QuestScript.Proofs.Quest.TemplateFiles
import QuestScript.Proofs.Quest.TemplateLines
import QuestScript.Proofs.Quest.TypedCalls
import QuestScript.Proofs.Quest.Writing
import QuestScript.Proofs.Schema.Document
import QuestScript.Proofs.Schema.MalformedLines
import QuestScript.Proofs.Schema.Signature
import QuestScript.Proofs.Script.Columns
import QuestScript.Proofs.Script.Decomposition
import QuestScript.Proofs.Script.Layout
import QuestScript.Proofs.Script.Lines
import QuestScript.Proofs.Script.Lookahead
import QuestScript.Proofs.Script.OneLine
import QuestScript.Proofs.Script.Phrase
import QuestScript.Proofs.Script.Semicolons
import QuestScript.Proofs.Script.Separated
import QuestScript.Proofs.Script.Shape
import QuestScript.Proofs.Script.Spaced
import QuestScript.Proofs.Script.Spelling
import QuestScript.Proofs.Script.Steps
import QuestScript.Proofs.SingleFlight.Failure
import QuestScript.Proofs.SingleFlight.Safety
import QuestScript.Proofs.Table
import QuestScript.Proofs.Text.Classes
import QuestScript.Proofs.Text.Lines
import QuestScript.Proofs.Text.Utf8
import QuestScript.Quest.Basic
import QuestScript.Quest.Draft
import QuestScript.Quest.Editing
import QuestScript.Quest.Export
import QuestScript.Quest.Flow
import QuestScript.Quest.InPlace
import QuestScript.Quest.Param
import QuestScript.Quest.Printer
import QuestScript.Quest.Refresh
import QuestScript.Quest.Template
import QuestScript.Quest.TemplateLibrary
import QuestScript.Quest.Validation
import QuestScript.Quest.Warning
import QuestScript.Resources
import QuestScript.Schema.Basic
import QuestScript.Schema.Directory
import QuestScript.Schema.Document
import QuestScript.Schema.Signature
import QuestScript.Schema.Vocabulary
import QuestScript.Script.Attribute
import QuestScript.Script.Event
import QuestScript.Script.Lexer
import QuestScript.Script.Malformed
import QuestScript.Script.Outline
import QuestScript.Script.Token
import QuestScript.Settings
import QuestScript.SingleFlight
import QuestScript.Skeleton
import QuestScript.Table
import QuestScript.Text.Blank
import QuestScript.Text.Case
import QuestScript.Text.Digit
import QuestScript.Text.Letter
import QuestScript.Text.Lines
import QuestScript.Text.Printable
import QuestScript.Text.Quoted
import QuestScript.Text.Ranges
import QuestScript.Text.Utf8
