import QueryPayload.ArgumentValue.Basic
import QueryPayload.ArgumentValue.Display
import QueryPayload.Command.Inspect
import QueryPayload.Command.Invocation
import QueryPayload.Command.Result
import QueryPayload.Command.Run
import QueryPayload.Command.Validate
import QueryPayload.Document.Basic
import QueryPayload.Document.Closure
import QueryPayload.Document.Decode
import QueryPayload.Files.Load
import QueryPayload.Files.Scan
import QueryPayload.Files.Tree
import QueryPayload.Files.Walk
import QueryPayload.Json.Basic
import QueryPayload.Json.Cursor
import QueryPayload.Json.Fault
import QueryPayload.Json.Numeral
import QueryPayload.Json.Quoted
import QueryPayload.Json.Source
import QueryPayload.Json.Word
import QueryPayload.Log.Event
import QueryPayload.Log.Level
import QueryPayload.Main
import QueryPayload.Number.Binary64
import QueryPayload.Number.Conversion
import QueryPayload.Number.Decimal
import QueryPayload.Number.Layout
import QueryPayload.Number.Shortest
import QueryPayload.Proofs.ArgumentValue.DistinctKeys
import QueryPayload.Proofs.ArgumentValue.Integers
import QueryPayload.Proofs.ArgumentValue.OfJson
import QueryPayload.Proofs.ArgumentValue.RoundTrip
import QueryPayload.Proofs.ArgumentValue.Same
import QueryPayload.Proofs.Command.Files
import QueryPayload.Proofs.Document.Answers
import QueryPayload.Proofs.Document.Clashes
import QueryPayload.Proofs.Document.Composition
import QueryPayload.Proofs.Document.EntryPoints
import QueryPayload.Proofs.Document.KeyOrder
import QueryPayload.Proofs.Document.Locality
import QueryPayload.Proofs.Document.OffendingNode
import QueryPayload.Proofs.Document.Parts
import QueryPayload.Proofs.Document.Reachability
import QueryPayload.Proofs.Document.ReferenceOrder
import QueryPayload.Proofs.Document.Registry
import QueryPayload.Proofs.Document.Same
import QueryPayload.Proofs.Document.Trailing
import QueryPayload.Proofs.Document.Walk
import QueryPayload.Proofs.Document.WellFormed
import QueryPayload.Proofs.Entries
import QueryPayload.Proofs.Equivalences
import QueryPayload.Proofs.Files.Arguments
import QueryPayload.Proofs.Files.Extension
import QueryPayload.Proofs.Json.Compact
import QueryPayload.Proofs.Json.Conversion
import QueryPayload.Proofs.Json.Cursor
import QueryPayload.Proofs.Json.Extend
import QueryPayload.Proofs.Json.Floats
import QueryPayload.Proofs.Json.IntegerLiteral
import QueryPayload.Proofs.Json.Levels
import QueryPayload.Proofs.Json.Numbers
import QueryPayload.Proofs.Json.Numeral
import QueryPayload.Proofs.Json.Persistence
import QueryPayload.Proofs.Json.Quoted
import QueryPayload.Proofs.Json.Rearranged
import QueryPayload.Proofs.Json.Source
import QueryPayload.Proofs.Json.Tree
import QueryPayload.Proofs.Number.Conversion
import QueryPayload.Proofs.Number.Nearest
import QueryPayload.Proofs.Number.Ratio
import QueryPayload.Proofs.Number.Rounding
import QueryPayload.Proofs.Number.Shortest
import QueryPayload.Proofs.Related
import QueryPayload.Proofs.Report.Checks
import QueryPayload.Proofs.Report.Lines
import QueryPayload.Proofs.Report.Nodes
import QueryPayload.Proofs.Report.Valid
import QueryPayload.Proofs.Schema.Agreement
import QueryPayload.Proofs.Schema.Failures
import QueryPayload.Proofs.Schema.Fields
import QueryPayload.Proofs.Schema.ForeignKeys
import QueryPayload.Proofs.Schema.KeyOrder
import QueryPayload.Proofs.Schema.Layout
import QueryPayload.Proofs.Schema.OfSource
import QueryPayload.Proofs.Schema.Places
import QueryPayload.Proofs.Schema.Proper
import QueryPayload.Proofs.Schema.Readings
import QueryPayload.Proofs.Schema.Selections
import QueryPayload.Proofs.Schema.Skippable
import QueryPayload.Proofs.Schema.Sound
import QueryPayload.Proofs.Schema.SourceTree
import QueryPayload.Proofs.Schema.Types
import QueryPayload.Proofs.Selection.Equivalence
import QueryPayload.Proofs.Selection.Places
import QueryPayload.Proofs.Selection.Same
import QueryPayload.Proofs.Selection.Spreads
import QueryPayload.Proofs.Text.Lines
import QueryPayload.Proofs.Text.Split
import QueryPayload.Proofs.Text.Utf8
import QueryPayload.Proofs.TypeRef.DoublyNonNull
import QueryPayload.Proofs.TypeRef.NonNullRuns
import QueryPayload.Proofs.TypeRef.RoundTrip
import QueryPayload.Proofs.TypeRef.Texts
import QueryPayload.Report.ErrorList
import QueryPayload.Report.Inspection
import QueryPayload.Report.Outline
import QueryPayload.Report.Violation
import QueryPayload.Schema.Decode
import QueryPayload.Schema.Kind
import QueryPayload.Schema.OfJson
import QueryPayload.Schema.OfSource
import QueryPayload.Schema.Problem
import QueryPayload.Schema.Shape
import QueryPayload.Schema.Slots
import QueryPayload.Schema.SourceTree
import QueryPayload.Selection.Basic
import QueryPayload.Selection.Optional
import QueryPayload.Selection.Preorder
import QueryPayload.Selection.Spreads
import QueryPayload.Text.Blank
import QueryPayload.Text.Hidden
import QueryPayload.Text.Position
import QueryPayload.Text.Quoted
import QueryPayload.Text.Split
import QueryPayload.Text.Utf8
import QueryPayload.TypeRef.Basic
import QueryPayload.TypeRef.Json
import QueryPayload.TypeRef.Render
