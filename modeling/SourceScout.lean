import SourceScout.Batch
import SourceScout.Block
import SourceScout.CallPath
import SourceScout.CommandLine.Command
import SourceScout.CommandLine.Run
import SourceScout.CommandLine.Words
import SourceScout.Decimal.Reading
import SourceScout.Decimal.Shortest
import SourceScout.Failure
import SourceScout.FileContext
import SourceScout.FileTree.Basic
import SourceScout.FileTree.Edit
import SourceScout.FileTree.Lookup
import SourceScout.FileTree.Walk
import SourceScout.Implementation
import SourceScout.ItemView
import SourceScout.Json.Fault
import SourceScout.Json.Reader
import SourceScout.Json.Writer
import SourceScout.Language
import SourceScout.Main
import SourceScout.Moment
import SourceScout.Outline
import SourceScout.OutlineReport
import SourceScout.Path.Basic
import SourceScout.Path.Written
import SourceScout.Pattern.Basic
import SourceScout.Pattern.Search
import SourceScout.Project.Layout
import SourceScout.Project.Resolve
import SourceScout.Proofs.Batch.Completion
import SourceScout.Proofs.Block.Braces
import SourceScout.Proofs.Block.Nesting
import SourceScout.Proofs.Block.Partner
import SourceScout.Proofs.Block.Places
import SourceScout.Proofs.Block.Resolution
import SourceScout.Proofs.Block.Signature
import SourceScout.Proofs.CallPath.Tracing
import SourceScout.Proofs.FileContext.ImportSections
import SourceScout.Proofs.FileContext.Paging
import SourceScout.Proofs.FileTree.Access
import SourceScout.Proofs.FileTree.Descent
import SourceScout.Proofs.FileTree.Likeness
import SourceScout.Proofs.FileTree.Rewriting
import SourceScout.Proofs.FileTree.Routes
import SourceScout.Proofs.Implementation.ExpectedNames
import SourceScout.Proofs.ItemView.Implementations
import SourceScout.Proofs.Language.FieldLines
import SourceScout.Proofs.Outline.Agreement
import SourceScout.Proofs.Outline.AnnotationRuns
import SourceScout.Proofs.Outline.Continuation
import SourceScout.Proofs.Outline.Entries
import SourceScout.Proofs.Outline.NestedSpans
import SourceScout.Proofs.Outline.Reports
import SourceScout.Proofs.Outline.Span
import SourceScout.Proofs.Path.Components
import SourceScout.Proofs.Path.WrittenParts
import SourceScout.Proofs.Project.Containment
import SourceScout.Proofs.Project.DistinctNames
import SourceScout.Proofs.Project.Fallback
import SourceScout.Proofs.Project.IgnoredDirectories
import SourceScout.Proofs.Project.ImportScan
import SourceScout.Proofs.Project.ModuleSearch
import SourceScout.Proofs.Project.NearestRoot
import SourceScout.Proofs.Project.Obstacles
import SourceScout.Proofs.Project.WalkOrder
import SourceScout.Proofs.Request.Payload
import SourceScout.Proofs.Role.Order
import SourceScout.Proofs.Settings.History
import SourceScout.Proofs.Settings.Sameness
import SourceScout.Proofs.Settings.ShownValues
import SourceScout.Proofs.Settings.Validity
import SourceScout.Proofs.Snippet.ShownLines
import SourceScout.Proofs.Source.CommentedFields
import SourceScout.Proofs.Source.ImportNames
import SourceScout.Proofs.Source.InjectedFields
import SourceScout.Proofs.Source.ModelFieldScan
import SourceScout.Proofs.Source.PackageNames
import SourceScout.Proofs.Source.Statements
import SourceScout.Proofs.Source.TypeArguments
import SourceScout.Proofs.Text.EncodedText
import SourceScout.Proofs.Text.Numerals
import SourceScout.Proofs.Text.Parts
import SourceScout.Proofs.Text.Sorting
import SourceScout.Proofs.Tool.Entries
import SourceScout.Request.Basic
import SourceScout.Request.Check
import SourceScout.Role
import SourceScout.Settings.Basic
import SourceScout.Settings.Document
import SourceScout.Settings.Layout
import SourceScout.Settings.Plain
import SourceScout.Settings.Quotation
import SourceScout.Settings.Reader
import SourceScout.Settings.Store
import SourceScout.Settings.Writer
import SourceScout.Snippet
import SourceScout.Source.CalledField
import SourceScout.Source.Import
import SourceScout.Source.InjectedField
import SourceScout.Source.ModelField
import SourceScout.Source.Package
import SourceScout.Source.TypeName
import SourceScout.Table
import SourceScout.Text.Basic
import SourceScout.Text.Blank
import SourceScout.Text.Digit
import SourceScout.Text.Lowercase
import SourceScout.Text.Numeral
import SourceScout.Text.Printable
import SourceScout.Text.Quoted
import SourceScout.Text.Utf8
import SourceScout.Text.Word
import SourceScout.Tool
import SourceScout.Value
