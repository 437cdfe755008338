import CodeBridge.Client.Basic
import CodeBridge.Client.Error
import CodeBridge.Client.Published
import CodeBridge.CommandLine.Arguments
import CodeBridge.CommandLine.Help
import CodeBridge.CommandLine.Log
import CodeBridge.CommandLine.Run
import CodeBridge.Concurrency.Lock
import CodeBridge.Concurrency.Routine
import CodeBridge.Concurrency.Scheduler
import CodeBridge.Connection.Basic
import CodeBridge.Connection.Call
import CodeBridge.Connection.Incoming
import CodeBridge.Decimal.Binary64
import CodeBridge.Decimal.Shortest
import CodeBridge.Domain.Basic
import CodeBridge.Domain.Composed
import CodeBridge.Domain.Direction
import CodeBridge.Domain.Folding
import CodeBridge.Domain.Joining
import CodeBridge.Domain.Marks
import CodeBridge.Domain.Spelling
import CodeBridge.Edit.Apply
import CodeBridge.Edit.Files
import CodeBridge.File.Path
import CodeBridge.File.Staging
import CodeBridge.File.System
import CodeBridge.Json.Basic
import CodeBridge.Json.Decode
import CodeBridge.Json.Parser
import CodeBridge.Json.Printer
import CodeBridge.Main
import CodeBridge.Proofs.Client.Advice
import CodeBridge.Proofs.Client.Along
import CodeBridge.Proofs.Client.Around
import CodeBridge.Proofs.Client.Asking
import CodeBridge.Proofs.Client.Awaiting
import CodeBridge.Proofs.Client.Calls
import CodeBridge.Proofs.Client.Conformance
import CodeBridge.Proofs.Client.Course
import CodeBridge.Proofs.Client.Desk
import CodeBridge.Proofs.Client.Documents
import CodeBridge.Proofs.Client.Ending
import CodeBridge.Proofs.Client.Farewell
import CodeBridge.Proofs.Client.Greeting
import CodeBridge.Proofs.Client.Holders
import CodeBridge.Proofs.Client.Inquiry
import CodeBridge.Proofs.Client.Ledger
import CodeBridge.Proofs.Client.Marks
import CodeBridge.Proofs.Client.Moves
import CodeBridge.Proofs.Client.Operations
import CodeBridge.Proofs.Client.Parting
import CodeBridge.Proofs.Client.Protocol
import CodeBridge.Proofs.Client.Published
import CodeBridge.Proofs.Client.Refusal
import CodeBridge.Proofs.Client.Talk
import CodeBridge.Proofs.Client.Wire
import CodeBridge.Proofs.Concurrency.Bounded
import CodeBridge.Proofs.Concurrency.Ends
import CodeBridge.Proofs.Concurrency.Keeps
import CodeBridge.Proofs.Concurrency.Kinds
import CodeBridge.Proofs.Concurrency.Moments
import CodeBridge.Proofs.Concurrency.Pact
import CodeBridge.Proofs.Concurrency.Prompt
import CodeBridge.Proofs.Concurrency.Turns
import CodeBridge.Proofs.Connection.Clearing
import CodeBridge.Proofs.Connection.Collapse
import CodeBridge.Proofs.Connection.Correlation
import CodeBridge.Proofs.Connection.Inbound
import CodeBridge.Proofs.Connection.Kinds
import CodeBridge.Proofs.Connection.Lessening
import CodeBridge.Proofs.Connection.Queue
import CodeBridge.Proofs.Connection.Routing
import CodeBridge.Proofs.Connection.Stages
import CodeBridge.Proofs.Connection.Stranded
import CodeBridge.Proofs.Connection.Table
import CodeBridge.Proofs.Connection.Traffic
import CodeBridge.Proofs.Edit.Acceptance
import CodeBridge.Proofs.Edit.Batch
import CodeBridge.Proofs.Edit.Encodings
import CodeBridge.Proofs.Edit.Groups
import CodeBridge.Proofs.Edit.Order
import CodeBridge.Proofs.Edit.Places
import CodeBridge.Proofs.Edit.Reach
import CodeBridge.Proofs.Edit.Splice
import CodeBridge.Proofs.Edit.Target
import CodeBridge.Proofs.Except
import CodeBridge.Proofs.File.Backup
import CodeBridge.Proofs.File.Bench
import CodeBridge.Proofs.File.Disks
import CodeBridge.Proofs.File.Normal
import CodeBridge.Proofs.File.Paths
import CodeBridge.Proofs.File.Reading
import CodeBridge.Proofs.File.Renames
import CodeBridge.Proofs.File.Staged
import CodeBridge.Proofs.File.Ways
import CodeBridge.Proofs.Json.RoundTrip
import CodeBridge.Proofs.Json.Scalars
import CodeBridge.Proofs.Json.Values
import CodeBridge.Proofs.Protocol.Actions
import CodeBridge.Proofs.Protocol.Findings
import CodeBridge.Proofs.Protocol.Places
import CodeBridge.Proofs.Protocol.Records
import CodeBridge.Proofs.Protocol.Rereading
import CodeBridge.Proofs.Protocol.Symbols
import CodeBridge.Proofs.Protocol.Written
import CodeBridge.Proofs.Service.Answered
import CodeBridge.Proofs.Service.Counter
import CodeBridge.Proofs.Service.Document
import CodeBridge.Proofs.Service.Exchange
import CodeBridge.Proofs.Service.Isolation
import CodeBridge.Proofs.Service.Lines
import CodeBridge.Proofs.Service.Meeting
import CodeBridge.Proofs.Service.Moves
import CodeBridge.Proofs.Service.Order
import CodeBridge.Proofs.Service.Owes
import CodeBridge.Proofs.Service.Rewriting
import CodeBridge.Proofs.Service.Server
import CodeBridge.Proofs.Service.Serving
import CodeBridge.Proofs.Service.Tools
import CodeBridge.Proofs.Service.Writing
import CodeBridge.Proofs.Session.Accounts
import CodeBridge.Proofs.Session.Balance
import CodeBridge.Proofs.Session.Clients
import CodeBridge.Proofs.Session.Deeds
import CodeBridge.Proofs.Session.Documents
import CodeBridge.Proofs.Session.Fairness
import CodeBridge.Proofs.Session.Lifetime
import CodeBridge.Proofs.Session.Line
import CodeBridge.Proofs.Session.Moves
import CodeBridge.Proofs.Session.Parts
import CodeBridge.Proofs.Session.Runs
import CodeBridge.Proofs.Session.Tools
import CodeBridge.Proofs.Session.Turns
import CodeBridge.Proofs.Session.Usable
import CodeBridge.Proofs.Settings.References
import CodeBridge.Proofs.Text.Columns
import CodeBridge.Proofs.Text.Decoding
import CodeBridge.Proofs.Text.Encoding
import CodeBridge.Proofs.Text.Offsets
import CodeBridge.Proofs.Text.Rows
import CodeBridge.Proofs.Text.Trimming
import CodeBridge.Proofs.Tool.Outline
import CodeBridge.Proofs.Tool.Previews
import CodeBridge.Proofs.Tool.Reach
import CodeBridge.Proofs.Tool.Steps
import CodeBridge.Proofs.Tool.WholeDocument
import CodeBridge.Proofs.Uri.Canonical
import CodeBridge.Proofs.Uri.Escapes
import CodeBridge.Proofs.Uri.Naming
import CodeBridge.Proofs.Wire.Alignment
import CodeBridge.Proofs.Wire.Grammar
import CodeBridge.Proofs.Wire.Header
import CodeBridge.Proofs.Wire.RoundTrip
import CodeBridge.Protocol.Action
import CodeBridge.Protocol.Diagnostic
import CodeBridge.Protocol.Edit
import CodeBridge.Protocol.Position
import CodeBridge.Protocol.Reply
import CodeBridge.Protocol.Request
import CodeBridge.Protocol.Symbol
import CodeBridge.Service.Basic
import CodeBridge.Service.Line
import CodeBridge.Session.Basic
import CodeBridge.Session.Launch
import CodeBridge.Settings.Basic
import CodeBridge.Settings.Document
import CodeBridge.Settings.Draft
import CodeBridge.Settings.Scalar
import CodeBridge.Settings.Server
import CodeBridge.Settings.Value
import CodeBridge.Shell.Filter
import CodeBridge.Shell.Pattern
import CodeBridge.Shell.Reader
import CodeBridge.Shell.Run
import CodeBridge.Shell.Syntax
import CodeBridge.Stage.Basic
import CodeBridge.Stage.Play
import CodeBridge.Stage.Script
import CodeBridge.Stage.Step
import CodeBridge.Text.Blank
import CodeBridge.Text.Bounds
import CodeBridge.Text.Pieces
import CodeBridge.Text.Printable
import CodeBridge.Text.Quoted
import CodeBridge.Text.Units
import CodeBridge.Text.Utf8
import CodeBridge.Tool.Change
import CodeBridge.Tool.Dispatch
import CodeBridge.Tool.Document
import CodeBridge.Tool.Error
import CodeBridge.Tool.Lookup
import CodeBridge.Tool.Outline
import CodeBridge.Tool.Request
import CodeBridge.Uri.Basic
import CodeBridge.Uri.Host
import CodeBridge.Uri.Percent
import CodeBridge.Wire.Frame
