import Recall.Text.Case
import Recall.Text.CaseData
import Recall.Text.Chars
import Recall.Text.Digit
import Recall.Text.Symbol
import Recall.Number.Binary64
import Recall.Number.Shortest
import Recall.Json.Encoding
import Recall.Json.Reader
import Recall.Json.Value
import Recall.Json.Writer
import Recall.Time.Calendar
import Recall.Time.Timestamp
import Recall.Time.Window
import Recall.Record.Basic
import Recall.Record.Kind
import Recall.Query.Basic
import Recall.Query.Needle
import Recall.Query.Operator
import Recall.Query.Token
import Recall.Search.Badge
import Recall.Search.Entry
import Recall.Search.Filter
import Recall.Search.Highlight
import Recall.Search.Keyword
import Recall.Search.Ranking
import Recall.Search.Score
import Recall.Decode.Coerce
import Recall.Decode.Records
import Recall.Selection.Basic
import Recall.Selection.Edit
import Recall.Selection.Undo
import Recall.Saved.Basic
import Recall.Saved.Edit
import Recall.Saved.Stored
import Recall.Storage.Dataset
import Recall.Storage.Load
import Recall.Settings.Basic
import Recall.Settings.File
import Recall.Settings.Format
import Recall.Settings.Save
import Recall.Yaml.Node
import Recall.Yaml.Scalar
import Recall.Yaml.Schema
import Recall.Yaml.Tag
import Recall.Yaml.Text
import Recall.Yaml.Token
import Recall.Yaml.Value
import Recall.Yaml.Writer
import Recall.FileTree.Basic
import Recall.FileTree.Path
import Recall.Engine.Basic
import Recall.Command.Arguments
import Recall.Command.Invocation
import Recall.Command.Report
import Recall.Command.Run
import Recall.Main
import Recall.Proofs.Undo.Step
import Recall.Proofs.Undo.Conservation
import Recall.Proofs.Undo.Placement
import Recall.Proofs.Undo.RoundTrip
import Recall.Proofs.Text.Chars
import Recall.Proofs.Text.Symbol
import Recall.Proofs.Text.Case
import Recall.Proofs.Text.Digit
import Recall.Proofs.Text.Occurs
import Recall.Proofs.Text.Letter
import Recall.Proofs.Text.Hits
import Recall.Proofs.Text.Place
import Recall.Proofs.Text.Spacing
import Recall.Proofs.Text.Run
import Recall.Proofs.Text.Stretch
import Recall.Proofs.Time.Calendar
import Recall.Proofs.Time.Count
import Recall.Proofs.Time.Stamp
import Recall.Proofs.Time.Reading
import Recall.Proofs.Time.Timestamp
import Recall.Proofs.Time.Instant
import Recall.Proofs.Query.Token
import Recall.Proofs.Query.Scan
import Recall.Proofs.Query.Typed
import Recall.Proofs.Query.Needle
import Recall.Proofs.Query.Normal
import Recall.Proofs.Query.Operator
import Recall.Proofs.Query.Merge
import Recall.Proofs.Query.Range
import Recall.Proofs.Query.Letter
import Recall.Proofs.Decode.Coerce
import Recall.Proofs.Decode.Entries
import Recall.Proofs.Decode.Records
import Recall.Proofs.Decode.Clock
import Recall.Proofs.Decode.TimeOfDay
import Recall.Proofs.Decode.TaskTime
import Recall.Proofs.Decode.Keyed
import Recall.Proofs.Decode.Contested
import Recall.Proofs.Decode.Written
import Recall.Proofs.Json.Member
import Recall.Proofs.Json.Encoding
import Recall.Proofs.Json.Grammar
import Recall.Proofs.Json.Token
import Recall.Proofs.Json.Reader
import Recall.Proofs.Json.Writer
import Recall.Proofs.Storage.Load
import Recall.Proofs.Saved.Stored
import Recall.Proofs.Saved.Edit
import Recall.Proofs.Saved.Fingerprint
import Recall.Proofs.Selection.Recent
import Recall.Proofs.Selection.Algebra
import Recall.Proofs.Selection.Unchanged
import Recall.Proofs.Search.Ranking
import Recall.Proofs.Number.Binary64
import Recall.Proofs.Search.Score
import Recall.Proofs.Search.Tier
import Recall.Proofs.Search.Eighths
import Recall.Proofs.Search.Agreement
import Recall.Proofs.Search.Badge
import Recall.Proofs.Search.Trait
import Recall.Proofs.Search.Words
import Recall.Proofs.Search.Window
import Recall.Proofs.Search.Literal
import Recall.Proofs.Search.Span
import Recall.Proofs.Search.Highlight
import Recall.Proofs.Search.Keyword
import Recall.Proofs.Search.Snippet
import Recall.Proofs.Engine.Best
import Recall.Proofs.Engine.Space
import Recall.Proofs.Engine.Scope
import Recall.Proofs.Engine.Letter
import Recall.Proofs.Engine.Family
import Recall.Proofs.Storage.Reference
import Recall.Proofs.FileTree.Basic
import Recall.Proofs.FileTree.Folder
import Recall.Proofs.Yaml.Bare
import Recall.Proofs.Yaml.Block
import Recall.Proofs.Yaml.Section
import Recall.Proofs.Yaml.Word
import Recall.Proofs.Yaml.Written
import Recall.Proofs.Settings.Basic
import Recall.Proofs.Settings.Environment
import Recall.Proofs.Settings.File
import Recall.Proofs.Settings.Format
import Recall.Proofs.Settings.Save
