import ModelAssist.CommandLine.Arguments
import ModelAssist.CommandLine.Request
import ModelAssist.CommandLine.Run
import ModelAssist.CommandLine.Shape
import ModelAssist.CommandLine.Table
import ModelAssist.Completion.Context
import ModelAssist.Completion.Item
import ModelAssist.Completion.Scope
import ModelAssist.Concurrency.Agenda
import ModelAssist.Concurrency.Cancellation
import ModelAssist.Concurrency.Process
import ModelAssist.Concurrency.Span
import ModelAssist.Config.Coercion
import ModelAssist.Config.FlatName
import ModelAssist.Config.Load
import ModelAssist.Config.Reading
import ModelAssist.Config.Settings
import ModelAssist.Config.Variable
import ModelAssist.Data.Access
import ModelAssist.Data.Integer
import ModelAssist.Data.Json.Reader
import ModelAssist.Data.Json.Writer
import ModelAssist.Data.Merge
import ModelAssist.Data.OrderedMap
import ModelAssist.Data.Value
import ModelAssist.Data.Walk
import ModelAssist.Data.Yaml.Moment
import ModelAssist.Data.Yaml.Node
import ModelAssist.Data.Yaml.Reader
import ModelAssist.Data.Yaml.Scalar
import ModelAssist.Data.Yaml.Token
import ModelAssist.Diagnostic.Basic
import ModelAssist.Diagnostic.Output
import ModelAssist.Diagnostic.Placement
import ModelAssist.Diagnostic.Record
import ModelAssist.Document
import ModelAssist.Document.Change
import ModelAssist.Exchange.Answer
import ModelAssist.Exchange.Command
import ModelAssist.Exchange.Files
import ModelAssist.Exchange.Grammar
import ModelAssist.Exchange.Place
import ModelAssist.Exchange.Script
import ModelAssist.Exchange.Tree
import ModelAssist.Failure
import ModelAssist.FileStore
import ModelAssist.Grammar.Basic
import ModelAssist.Grammar.Queries
import ModelAssist.Grammar.Source
import ModelAssist.Import.Closure
import ModelAssist.Import.LineMap
import ModelAssist.Log.Level
import ModelAssist.Log.Output
import ModelAssist.Log.Record
import ModelAssist.Main
import ModelAssist.Number.Notation
import ModelAssist.Number.Shortest
import ModelAssist.Path.Basic
import ModelAssist.Path.Uri
import ModelAssist.Protocol.Form
import ModelAssist.Protocol.Message
import ModelAssist.Schedule.Basic
import ModelAssist.Schedule.Dispatch
import ModelAssist.Session.Basic
import ModelAssist.Session.Handling
import ModelAssist.Session.Start
import ModelAssist.Shadow
import ModelAssist.Symbol.Entry
import ModelAssist.Symbol.Extraction
import ModelAssist.Symbol.Index
import ModelAssist.Symbol.Inheritance
import ModelAssist.Symbol.Kind
import ModelAssist.Symbol.Reference
import ModelAssist.Symbol.Registry
import ModelAssist.Text.CodeRange
import ModelAssist.Text.Damage
import ModelAssist.Text.Likeness
import ModelAssist.Text.Lowercase
import ModelAssist.Text.LowercaseTable
import ModelAssist.Text.Position
import ModelAssist.Text.Printable
import ModelAssist.Text.Quoted
import ModelAssist.Text.Utf8
import ModelAssist.Tree.Enclosing
import ModelAssist.Tree.Node
import ModelAssist.Tree.Query
import ModelAssist.Validator.Client
import ModelAssist.Validator.Launcher
import ModelAssist.Validator.Network
import ModelAssist.Validator.Retry
import ModelAssist.Validator.Script
import ModelAssist.Validator.Workbench
import ModelAssist.Workspace.Basic
import ModelAssist.Workspace.Completion
import ModelAssist.Workspace.Definition
import ModelAssist.Workspace.Validation
import ModelAssist.Proofs.Schedule.Course
import ModelAssist.Proofs.Schedule.History
import ModelAssist.Proofs.Schedule.Publication
import ModelAssist.Proofs.Symbol.Index
import ModelAssist.Proofs.Path
import ModelAssist.Proofs.Schedule.Start
import ModelAssist.Proofs.Schedule.Window
import ModelAssist.Proofs.Walk
import ModelAssist.Proofs.Workspace.Reach
import ModelAssist.Proofs.Document
import ModelAssist.Proofs.Session.Course
import ModelAssist.Proofs.Session.Moment
import ModelAssist.Proofs.Session.Freshness
import ModelAssist.Proofs.Concurrency
import ModelAssist.Proofs.Session.Turn
import ModelAssist.Proofs.Symbol.Lookup
import ModelAssist.Proofs.Workspace.Lookup
import ModelAssist.Proofs.Workspace.Independence
import ModelAssist.Proofs.Import.Closure
import ModelAssist.Proofs.Import.LineMap
import ModelAssist.Proofs.Import.FirstLine
import ModelAssist.Proofs.FileStore
import ModelAssist.Proofs.FileStore.Tree
import ModelAssist.Proofs.FileStore.Clear
import ModelAssist.Proofs.Shadow.Place
import ModelAssist.Proofs.Shadow.Filling
import ModelAssist.Proofs.Shadow.Extent
import ModelAssist.Proofs.Shadow.Stage
import ModelAssist.Proofs.Shadow.Frame
import ModelAssist.Proofs.Shadow.Counterpart
import ModelAssist.Proofs.Shadow.Content
import ModelAssist.Proofs.Workspace.Edit
import ModelAssist.Proofs.Tree.Enclosing
import ModelAssist.Proofs.Workspace.Definition
import ModelAssist.Proofs.Session.LastShown
import ModelAssist.Proofs.Session.LiveIndex
import ModelAssist.Proofs.Workspace.Refresh
import ModelAssist.Proofs.Document.History
import ModelAssist.Proofs.Validator.Client
import ModelAssist.Proofs.Config.Precedence
import ModelAssist.Proofs.Diagnostic.Fault
import ModelAssist.Proofs.Diagnostic.Layout
import ModelAssist.Proofs.Diagnostic.Payload
import ModelAssist.Proofs.Tree.Leaf
import ModelAssist.Proofs.Completion.PreviousLeaf
import ModelAssist.Proofs.Concurrency.Closed
import ModelAssist.Proofs.Concurrency.Ending
import ModelAssist.Proofs.Workspace.Validation
import ModelAssist.Proofs.Config.Broken
import ModelAssist.Proofs.Config.Overlooked
import ModelAssist.Proofs.Session.Start
import ModelAssist.Proofs.Completion.DeclaredType
import ModelAssist.Proofs.Workspace.Completion
import ModelAssist.Proofs.Text.Position
import ModelAssist.Proofs.Text.Column
import ModelAssist.Proofs.Text.Utf8
import ModelAssist.Proofs.Tree.Layout
import ModelAssist.Proofs.Completion.Item
import ModelAssist.Proofs.Completion.TypedText
import ModelAssist.Proofs.Completion.NewName
import ModelAssist.Proofs.Workspace.FileItems
import ModelAssist.Proofs.Symbol.Extraction
import ModelAssist.Proofs.Symbol.Cursor
import ModelAssist.Proofs.Workspace.UsedFile
import ModelAssist.Proofs.Symbol.Lineage
import ModelAssist.Proofs.Concurrency.Reach
import ModelAssist.Proofs.Concurrency.Alone
import ModelAssist.Proofs.Concurrency.Attend
import ModelAssist.Proofs.Concurrency.Timing
import ModelAssist.Proofs.Concurrency.Solo
import ModelAssist.Proofs.Concurrency.Undisturbed
import ModelAssist.Proofs.Validator.Exchange
import ModelAssist.Proofs.Validator.Retry
import ModelAssist.Proofs.Completion.WordBefore
import ModelAssist.Proofs.Grammar.References
import ModelAssist.Proofs.Selection
import ModelAssist.Proofs.Tree.Siblings
import ModelAssist.Proofs.Symbol.MostSpecific
import ModelAssist.Proofs.Symbol.Reference
import ModelAssist.Proofs.Config.Usable
import ModelAssist.Proofs.Text.Offset
import ModelAssist.Proofs.Tree.Outermost
import ModelAssist.Proofs.Schedule.Ticket
import ModelAssist.Proofs.Schedule.Service
import ModelAssist.Proofs.Schedule.Staff
import ModelAssist.Proofs.Schedule.Turn
import ModelAssist.Proofs.Session.Staff
