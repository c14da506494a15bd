import TreeLint.Analysis
import TreeLint.Config.Basic
import TreeLint.Config.Codec
import TreeLint.Config.File
import TreeLint.Config.Merge
import TreeLint.Config.Search
import TreeLint.Disk
import TreeLint.Edit
import TreeLint.Engine
import TreeLint.FileKind
import TreeLint.Frontend
import TreeLint.Glob
import TreeLint.HostString
import TreeLint.Number.Binary64
import TreeLint.Number.Decimal
import TreeLint.Number.Shortest
import TreeLint.Path
import TreeLint.Position
import TreeLint.Proofs.Config.Codec
import TreeLint.Proofs.Config.Merge
import TreeLint.Proofs.Config.Normal
import TreeLint.Proofs.Config.Overlay
import TreeLint.Proofs.Config.RoundTrip
import TreeLint.Proofs.Config.Search
import TreeLint.Proofs.Disk
import TreeLint.Proofs.Edit.Conflict
import TreeLint.Proofs.Edit.Reordering
import TreeLint.Proofs.Edit.Simultaneous
import TreeLint.Proofs.Edit.Splice
import TreeLint.Proofs.Edit.Stepwise
import TreeLint.Proofs.EnabledRules
import TreeLint.Proofs.Engine.Bounds
import TreeLint.Proofs.Engine.Contribution
import TreeLint.Proofs.Engine.Fix
import TreeLint.Proofs.Engine.Idempotence
import TreeLint.Proofs.Engine.Independence
import TreeLint.Proofs.Engine.Modular
import TreeLint.Proofs.Engine.SyntaxErrors
import TreeLint.Proofs.HostString
import TreeLint.Proofs.List.Selection
import TreeLint.Proofs.Path
import TreeLint.Proofs.Position.Bytes
import TreeLint.Proofs.Position.Encoding
import TreeLint.Proofs.Position.LineEnds
import TreeLint.Proofs.Position.LineStarts
import TreeLint.Proofs.Position.Lines
import TreeLint.Proofs.Position.Rank
import TreeLint.Proofs.Registry
import TreeLint.Proofs.RegistryHistory
import TreeLint.Proofs.Report
import TreeLint.Proofs.Rule.Comments
import TreeLint.Proofs.Rule.Completion
import TreeLint.Proofs.Rule.DuplicateCase
import TreeLint.Proofs.Rule.Embedding
import TreeLint.Proofs.Rule.FolderImport
import TreeLint.Proofs.Rule.HandlerName
import TreeLint.Proofs.Rule.ImportPath
import TreeLint.Proofs.Rule.ImportVisit
import TreeLint.Proofs.Rule.ListKey
import TreeLint.Proofs.Rule.Lockstep
import TreeLint.Proofs.Rule.MissingReturnType
import TreeLint.Proofs.Rule.NoAny
import TreeLint.Proofs.Rule.Options
import TreeLint.Proofs.Rule.Outputs
import TreeLint.Proofs.Rule.ReorderedOptions
import TreeLint.Proofs.Rule.RewrittenImport
import TreeLint.Proofs.Rule.Simulation
import TreeLint.Proofs.Rule.Span
import TreeLint.Proofs.Session
import TreeLint.Proofs.Text.Codes
import TreeLint.Proofs.Text.Insertion
import TreeLint.Proofs.Text.Segment
import TreeLint.Proofs.Tree.Shape
import TreeLint.Proofs.Tree.Traversal
import TreeLint.Proofs.Value.Entries
import TreeLint.Proofs.Value.Reordered
import TreeLint.Range
import TreeLint.Registry
import TreeLint.Report
import TreeLint.Rule.AnyReturnType
import TreeLint.Rule.Basic
import TreeLint.Rule.BuiltIn
import TreeLint.Rule.DuplicateCase
import TreeLint.Rule.FolderImport
import TreeLint.Rule.HandlerName
import TreeLint.Rule.ListKey
import TreeLint.Rule.MissingReturnType
import TreeLint.Rule.NoAny
import TreeLint.Rule.Scripted
import TreeLint.Rule.SwitchDefault
import TreeLint.Session
import TreeLint.Text.Basic
import TreeLint.Text.CaseTable
import TreeLint.Text.Codes
import TreeLint.Text.Digits
import TreeLint.Text.Halves
import TreeLint.Text.Lowercase
import TreeLint.Text.Printable
import TreeLint.Text.Quoted
import TreeLint.Text.Utf8
import TreeLint.Tree.Listing
import TreeLint.Tree.Node
import TreeLint.Tree.Query
import TreeLint.Value.Basic
import TreeLint.Value.Display
import TreeLint.Value.Json
import TreeLint.Value.Loop
import TreeLint.Warning
import TreeLint.Yaml.Binary
import TreeLint.Yaml.Cursor
import TreeLint.Yaml.Document
import TreeLint.Yaml.Fault
import TreeLint.Yaml.Kind
import TreeLint.Yaml.Node
import TreeLint.Yaml.Number
import TreeLint.Yaml.Read
import TreeLint.Yaml.ScalarText
import TreeLint.Yaml.Stream
import TreeLint.Yaml.Tag
import TreeLint.Yaml.Timestamp
import TreeLint.Yaml.Token
import TreeLint.Yaml.TokenList
import TreeLint.Yaml.Write
