import Flowscript.Text
import Flowscript.Distinct
import Flowscript.Index
import Flowscript.Json.Value
import Flowscript.Json.Double
import Flowscript.Json.Writer
import Flowscript.Json.Token
import Flowscript.Json.Reader
import Flowscript.Element.Basic
import Flowscript.Element.Json
import Flowscript.Markup.Fault
import Flowscript.Markup.Reference
import Flowscript.Markup.Tag
import Flowscript.Markup.Event
import Flowscript.Markup.Progress
import Flowscript.Markup.Document
import Flowscript.Markup.Printer
import Flowscript.Workflow.Basic
import Flowscript.Workflow.Document
import Flowscript.Workflow.Graph
import Flowscript.Diagnostic
import Flowscript.Kind
import Flowscript.Schedule.Budget
import Flowscript.Schedule.Plan
import Flowscript.Schedule.Run
import Flowscript.Bindings
import Flowscript.Options.Basic
import Flowscript.Options.Load
import Flowscript.Fragment
import Flowscript.Statement
import Flowscript.Rule.Basic
import Flowscript.Rule.File
import Flowscript.Rule.Row
import Flowscript.Rule.Column
import Flowscript.Rule.Table
import Flowscript.Rule.Combine
import Flowscript.Rule.Template
import Flowscript.Rule.Catalog
import Flowscript.Script
import Flowscript.Conversion
import Flowscript.Command.Arguments
import Flowscript.Command.Places
import Flowscript.Command.Disk
import Flowscript.Command.Run
import Flowscript.Main
import Flowscript.Proofs.Text
import Flowscript.Proofs.Distinct
import Flowscript.Proofs.Index
import Flowscript.Proofs.Element
import Flowscript.Proofs.Bindings
import Flowscript.Proofs.Script
import Flowscript.Proofs.Comment
import Flowscript.Proofs.Schedule.Plan
import Flowscript.Proofs.Schedule.Reached
import Flowscript.Proofs.Schedule.Order
import Flowscript.Proofs.Schedule.Blocked
import Flowscript.Proofs.Schedule.Fifo
import Flowscript.Proofs.Workflow.Document
import Flowscript.Proofs.Rule.Local
import Flowscript.Proofs.Rule.Answer
import Flowscript.Proofs.Conversion.Translation
import Flowscript.Proofs.Conversion.Input
import Flowscript.Proofs.Conversion.Locality
import Flowscript.Proofs.Conversion.Account
import Flowscript.Proofs.Conversion.Truncation
import Flowscript.Proofs.Conversion.Cycle
import Flowscript.Proofs.Workflow.Entries
import Flowscript.Proofs.Workflow.Graph
import Flowscript.Proofs.Markup.Printed
import Flowscript.Proofs.Markup.RoundTrip
import Flowscript.Proofs.Schedule.Budget
import Flowscript.Proofs.Schedule.Restriction
import Flowscript.Proofs.Conversion.Normal
import Flowscript.Proofs.Rule.Writes
import Flowscript.Proofs.Rule.Combine
import Flowscript.Proofs.Rule.Notice
import Flowscript.Proofs.Conversion.Frames
import Flowscript.Proofs.Conversion.Join
import Flowscript.Proofs.Conversion.Union
import Flowscript.Proofs.Conversion.Remarks
import Flowscript.Proofs.Statement
import Flowscript.Proofs.Rule.Table
import Flowscript.Proofs.Rule.Literal
import Flowscript.Proofs.Markup.Cut
import Flowscript.Proofs.Markup.CharacterData
import Flowscript.Proofs.Markup.Reading
import Flowscript.Proofs.Markup.Nesting
import Flowscript.Proofs.Markup.Insertion
import Flowscript.Proofs.Rule.Selection
import Flowscript.Proofs.Kind
import Flowscript.Proofs.Schedule.Degrees
import Flowscript.Proofs.Schedule.Adjacency
import Flowscript.Proofs.Rule.Template
import Flowscript.Proofs.Json.Natural
import Flowscript.Proofs.Options
