import ApiDouble.Collection.SortedMap
import ApiDouble.Collection.SortedSet
import ApiDouble.Command.Arguments
import ApiDouble.Command.Run
import ApiDouble.Contract.Exchange
import ApiDouble.Contract.Service
import ApiDouble.Decimal.Binary64
import ApiDouble.Decimal.Shortest
import ApiDouble.Dispatch.Choice
import ApiDouble.Document.Basic
import ApiDouble.Document.Json.Printer
import ApiDouble.Document.Json.Reader
import ApiDouble.Document.Path.Basic
import ApiDouble.Document.Path.Reader
import ApiDouble.Document.Record
import ApiDouble.Document.Yaml.Node
import ApiDouble.Document.Yaml.Reader
import ApiDouble.Document.Yaml.Scalar
import ApiDouble.Document.Yaml.Token
import ApiDouble.Import.AsyncApi
import ApiDouble.Import.OpenApi
import ApiDouble.Import.Specification
import ApiDouble.Import.Warning
import ApiDouble.Main
import ApiDouble.Proofs.Collection.Lists
import ApiDouble.Proofs.Collection.SortedMap
import ApiDouble.Proofs.Contract.Header
import ApiDouble.Proofs.Contract.Service
import ApiDouble.Proofs.Contract.Written
import ApiDouble.Proofs.Dispatch.Arguments
import ApiDouble.Proofs.Dispatch.BodyPlaces
import ApiDouble.Proofs.Dispatch.Choice
import ApiDouble.Proofs.Dispatch.HeaderValues
import ApiDouble.Proofs.Dispatch.Order
import ApiDouble.Proofs.Dispatch.PathValues
import ApiDouble.Proofs.Dispatch.Recorded
import ApiDouble.Proofs.Dispatch.Target
import ApiDouble.Proofs.Dispatch.Values
import ApiDouble.Proofs.Document.Json
import ApiDouble.Proofs.Document.Path
import ApiDouble.Proofs.Document.Record
import ApiDouble.Proofs.Import.Additions
import ApiDouble.Proofs.Import.Addressing
import ApiDouble.Proofs.Import.Alternatives
import ApiDouble.Proofs.Import.ExampleHeaders
import ApiDouble.Proofs.Import.MessageExamples
import ApiDouble.Proofs.Import.Noted
import ApiDouble.Proofs.Import.Parameters
import ApiDouble.Proofs.Import.Places
import ApiDouble.Proofs.Import.Reference
import ApiDouble.Proofs.Import.ResponseExamples
import ApiDouble.Proofs.Replay.Batch
import ApiDouble.Proofs.Replay.Cancellation
import ApiDouble.Proofs.Replay.Interleaving
import ApiDouble.Proofs.Replay.Launch
import ApiDouble.Proofs.Replay.Loop
import ApiDouble.Proofs.Replay.Outbound
import ApiDouble.Proofs.Replay.Proceeding
import ApiDouble.Proofs.Replay.Refusal
import ApiDouble.Proofs.Replay.Report
import ApiDouble.Proofs.Replay.Sequence
import ApiDouble.Proofs.Replay.Testbed
import ApiDouble.Proofs.Serve.Body
import ApiDouble.Proofs.Serve.Headers
import ApiDouble.Proofs.Serve.Precedence
import ApiDouble.Proofs.Serve.Traffic
import ApiDouble.Proofs.Serve.View
import ApiDouble.Proofs.Template.Arguments
import ApiDouble.Proofs.Template.Expression
import ApiDouble.Proofs.Template.Keys
import ApiDouble.Proofs.Template.Pieces
import ApiDouble.Proofs.Template.Reference
import ApiDouble.Proofs.Text.Blank
import ApiDouble.Proofs.Text.Labelled
import ApiDouble.Proofs.Text.LineFeed
import ApiDouble.Proofs.Text.Search
import ApiDouble.Proofs.Text.Utf8
import ApiDouble.Proofs.Time.Format
import ApiDouble.Proofs.Time.Pattern
import ApiDouble.Proofs.Time.Quoted
import ApiDouble.Proofs.Uri.Instantiate
import ApiDouble.Proofs.Uri.Matching
import ApiDouble.Proofs.Uri.Pattern
import ApiDouble.Proofs.Uri.Percent
import ApiDouble.Proofs.Uri.Query
import ApiDouble.Proofs.Uri.Substitution
import ApiDouble.Proofs.Uri.Variables
import ApiDouble.Replay.Batch
import ApiDouble.Replay.Call
import ApiDouble.Replay.Report
import ApiDouble.Replay.Runner
import ApiDouble.Replay.Testbed
import ApiDouble.Serve.Session
import ApiDouble.Settings
import ApiDouble.Template.Context
import ApiDouble.Template.Expression
import ApiDouble.Template.Function
import ApiDouble.Text.Bytes
import ApiDouble.Text.Case
import ApiDouble.Text.Characters
import ApiDouble.Text.Search
import ApiDouble.Text.Word
import ApiDouble.Time.Pattern
import ApiDouble.Uri.Pattern
import ApiDouble.Uri.Query
import ApiDouble.Proofs.Import.Sniffing
import ApiDouble.Proofs.Replay.Fault
