import LogSearch.Archive.Header
import LogSearch.Archive.Reading
import LogSearch.Archive.Writing
import LogSearch.Bits
import LogSearch.Bytes
import LogSearch.Calendar.Bound
import LogSearch.Calendar.Date
import LogSearch.Calendar.DateTime
import LogSearch.Calendar.IsoReader
import LogSearch.Calendar.Utc
import LogSearch.Calendar.Written
import LogSearch.Checksum
import LogSearch.Command.Event
import LogSearch.Command.Invocation
import LogSearch.Command.Output
import LogSearch.Command.Searching
import LogSearch.Command.Serving
import LogSearch.Command.Token
import LogSearch.Decimal.Binary64
import LogSearch.Decimal.Reading
import LogSearch.Decimal.Shortest
import LogSearch.Decimal.Written
import LogSearch.Deflate.Huffman
import LogSearch.Deflate.Inflate
import LogSearch.Deflate.Members
import LogSearch.Deflate.Stream
import LogSearch.Environment
import LogSearch.Export
import LogSearch.Ingest
import LogSearch.Json.Lexeme
import LogSearch.Json.Reading
import LogSearch.Json.Shown
import LogSearch.Json.Value
import LogSearch.Main
import LogSearch.PathName
import LogSearch.Payload
import LogSearch.Proofs.Record.Feeding
import LogSearch.Proofs.Search.Alone
import LogSearch.Proofs.Search.Delivery
import LogSearch.Proofs.Search.Scanning
import LogSearch.Proofs.Search.Solo
import LogSearch.Proofs.Search.Tour
import LogSearch.Query.Expr
import LogSearch.Query.Keywords
import LogSearch.Query.Parse
import LogSearch.Query.Scan
import LogSearch.Query.SyntaxError
import LogSearch.Query.Token
import LogSearch.Record
import LogSearch.Remote.Fetch
import LogSearch.Remote.Server
import LogSearch.Report
import LogSearch.Search.Engine
import LogSearch.Search.Job
import LogSearch.Search.Run
import LogSearch.Search.Scan
import LogSearch.Search.Share
import LogSearch.Search.Signal
import LogSearch.Search.Sink
import LogSearch.Search.Task
import LogSearch.Search.Window
import LogSearch.Search.Worker
import LogSearch.Service.Endpoint
import LogSearch.Service.Handling
import LogSearch.Service.Message
import LogSearch.Service.Parameters
import LogSearch.Settings.Engine
import LogSearch.Settings.Remote
import LogSearch.Settings.Server
import LogSearch.Settings.Variables
import LogSearch.Source
import LogSearch.Text.Blank
import LogSearch.Text.CaseTable
import LogSearch.Text.Cut
import LogSearch.Text.Digit
import LogSearch.Text.Fault
import LogSearch.Text.Lines
import LogSearch.Text.Lowercase
import LogSearch.Text.Match
import LogSearch.Text.Numeral
import LogSearch.Text.Printable
import LogSearch.Text.Quoted
import LogSearch.Text.UpperTable
import LogSearch.Text.Uppercase
import LogSearch.Text.Utf8
import LogSearch.TimeRange
import LogSearch.Timestamp.Dating
import LogSearch.Timestamp.Shape
import LogSearch.Timestamp.Spelling
import LogSearch.Timestamp.Year
import LogSearch.Workspace
import LogSearch.Zip.Defect
import LogSearch.Zip.Description
import LogSearch.Zip.Directory
import LogSearch.Zip.Member
import LogSearch.Zip.Name
import LogSearch.Zstd.BackwardBits
import LogSearch.Zstd.Content
import LogSearch.Zstd.Defect
import LogSearch.Zstd.Frame
import LogSearch.Zstd.Fse
import LogSearch.Zstd.Hash
import LogSearch.Zstd.Huffman
import LogSearch.Zstd.Literals
import LogSearch.Zstd.Sequences
import LogSearch.Proofs.Search.Cancellation
import LogSearch.Proofs.Archive.Walk
import LogSearch.Proofs.Search.Interleaving
import LogSearch.Proofs.Query.Flattening
import LogSearch.Proofs.Query.Grammar
import LogSearch.Proofs.Query.Quotes
import LogSearch.Proofs.Query.RoundTrip
import LogSearch.Proofs.Query.Spelling
import LogSearch.Proofs.Record.Partition
import LogSearch.Proofs.Archive.RoundTrip
import LogSearch.Proofs.Record.Dating
import LogSearch.Proofs.Record.Coverage
import LogSearch.Proofs.Ingest.Readiness
import LogSearch.Proofs.Text.Encoding
import LogSearch.Proofs.Text.Lines
import LogSearch.Proofs.Timestamp.Shapes
import LogSearch.Proofs.TimeRange.Merging
import LogSearch.Proofs.Ingest.Loading
import LogSearch.Proofs.Ingest.Containment
import LogSearch.Proofs.Ingest.Names
import LogSearch.Proofs.Search.Accounting
import LogSearch.Proofs.Search.Congruence
import LogSearch.Proofs.Workspace.History
import LogSearch.Proofs.Workspace.Leaves
import LogSearch.Proofs.Workspace.Resolution
import LogSearch.Proofs.Workspace.Packaging
import LogSearch.Proofs.Export.Order
import LogSearch.Proofs.Search.Agreement
import LogSearch.Proofs.Search.Slices
import LogSearch.Proofs.Search.Tenure
import LogSearch.Proofs.Service.Requests
import LogSearch.Proofs.Service.Streams
import LogSearch.Proofs.Service.Traffic
import LogSearch.Proofs.Workspace.Uploads
import LogSearch.Proofs.Query.Matching
import LogSearch.Proofs.Zstd.Blocks
import LogSearch.Chain
import LogSearch.Proofs.Zstd.Rows
import LogSearch.Proofs.Remote.Fetching
import LogSearch.Proofs.Service.Answers
import LogSearch.Proofs.Archive.Truncation
import LogSearch.Proofs.Query.Rejection
import LogSearch.Proofs.Query.Layout
import LogSearch.Proofs.Query.Highlighting
import LogSearch.Proofs.Text.Capitals
import LogSearch.Proofs.Record.Joining
import LogSearch.Proofs.Calendar.Order
import LogSearch.Proofs.Ingest.Flagging
import LogSearch.Proofs.TimeRange.Semilattice
import LogSearch.Proofs.Calendar.Counting
import LogSearch.Proofs.Text.Digits
import LogSearch.Proofs.Calendar.Reading
import LogSearch.Proofs.Calendar.Utc
import LogSearch.Proofs.Report.Times
import LogSearch.Proofs.Service.Presets
import LogSearch.Proofs.Timestamp.FileNames
import LogSearch.Deflate.Writing
import LogSearch.Proofs.Deflate.Extent
import LogSearch.Proofs.Deflate.Headers
import LogSearch.Proofs.Deflate.Members
import LogSearch.Proofs.Payload.Routes
import LogSearch.Proofs.Payload.Plain
import LogSearch.Proofs.Payload.Members
import LogSearch.Proofs.Search.Reporting
import LogSearch.Proofs.Search.Shares
import LogSearch.Proofs.Search.Listening
