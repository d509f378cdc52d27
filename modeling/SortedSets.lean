import SortedSets.Boundary
import SortedSets.Bytes
import SortedSets.Command.Basic
import SortedSets.Command.Combine
import SortedSets.Command.Method
import SortedSets.Command.Query
import SortedSets.Command.Scan
import SortedSets.Command.Update
import SortedSets.Connection.Basic
import SortedSets.Connection.Exchange
import SortedSets.Connection.Timeout
import SortedSets.Conversion
import SortedSets.Error
import SortedSets.Number.Binary64
import SortedSets.Number.Decimal
import SortedSets.Number.Reading
import SortedSets.Number.Shortest
import SortedSets.Range
import SortedSets.Scan.Cursor
import SortedSets.Scan.Options
import SortedSets.Scan.Script
import SortedSets.Session.Basic
import SortedSets.Session.Batch
import SortedSets.Session.Client
import SortedSets.Session.Notice
import SortedSets.Text.Blank
import SortedSets.Text.CodePoint
import SortedSets.Text.Digit
import SortedSets.Text.Lowercase
import SortedSets.Text.Printable
import SortedSets.Text.Quoted
import SortedSets.Text.Utf8
import SortedSets.Url.Host
import SortedSets.Url.Parts
import SortedSets.Url.Pieces
import SortedSets.Url.Target
import SortedSets.Value.Access
import SortedSets.Value.Basic
import SortedSets.Value.Equality
import SortedSets.Value.Shown
import SortedSets.Weights
import SortedSets.Wire.Fault
import SortedSets.Wire.Head
import SortedSets.Wire.Mark
import SortedSets.Wire.Reader
import SortedSets.Wire.Reply
import SortedSets.Wire.Request
import SortedSets.Proofs.Number.Notation
import SortedSets.Proofs.Number.Rounding
import SortedSets.Proofs.Text.Encoding
import SortedSets.Proofs.Wire.Requests
import SortedSets.Proofs.Wire.RoundTrip
import SortedSets.Proofs.Wire.Unfinished
import SortedSets.Proofs.Conversion.Scores
import SortedSets.Proofs.Connection.Event
import SortedSets.Proofs.Connection.Exchanges
import SortedSets.Proofs.Connection.Operations
import SortedSets.Proofs.Connection.Order
import SortedSets.Proofs.Connection.Queues
import SortedSets.Proofs.Connection.Course
import SortedSets.Proofs.Connection.Sound
import SortedSets.Proofs.Connection.Loss
import SortedSets.Proofs.Connection.Refused
import SortedSets.Proofs.Connection.Failures
import SortedSets.Proofs.Connection.Interrupted
import SortedSets.Proofs.Connection.Matching
import SortedSets.Proofs.Connection.Notices
import SortedSets.Proofs.Connection.Enrolment
import SortedSets.Proofs.Connection.Resolution
import SortedSets.Proofs.Connection.Closed
import SortedSets.Proofs.Connection.Word
import SortedSets.Proofs.Connection.Server
import SortedSets.Proofs.Connection.Opening
import SortedSets.Proofs.Connection.Raising
import SortedSets.Proofs.Session.BatchHandles
import SortedSets.Proofs.Session.GivenUp
import SortedSets.Proofs.Session.Blocks
import SortedSets.Proofs.Session.Judged
import SortedSets.Proofs.Session.Refusals
import SortedSets.Proofs.Session.Delivered
import SortedSets.Proofs.Session.Silence
import SortedSets.Proofs.Scan.Delivery
import SortedSets.Proofs.Scan.Account
import SortedSets.Proofs.Scan.Retry
import SortedSets.Proofs.Scan.Closing
import SortedSets.Proofs.Session.Paging
import SortedSets.Proofs.Session.Barred
import SortedSets.Proofs.Session.Sent
import SortedSets.Proofs.Range.Ends
import SortedSets.Proofs.Command.Checks
import SortedSets.Proofs.Command.Grammar
import SortedSets.Proofs.Command.RangeQuery
import SortedSets.Proofs.Command.Combination
import SortedSets.Proofs.Command.Addition
import SortedSets.Proofs.Command.Unrecognized
import SortedSets.Proofs.Scan.StartCursor
import SortedSets.Proofs.Session.Connecting
import SortedSets.Proofs.Range.Kinds
import SortedSets.Proofs.Range.Decoded
import SortedSets.Proofs.Connection.Causes
import SortedSets.Proofs.Url.Escaped
import SortedSets.Proofs.Url.Written
import SortedSets.Proofs.Url.Target
