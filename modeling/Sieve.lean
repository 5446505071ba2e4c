import Sieve.Evaluate
import Sieve.Filter.Encode
import Sieve.Filter.Text
import Sieve.Options.Text
import Sieve.Record.Text
import Sieve.Proofs.FailClosed
import Sieve.Proofs.DepthBudget
import Sieve.Proofs.Decimal.Digits
import Sieve.Proofs.Json.Number
import Sieve.Proofs.Json.Quoted
import Sieve.Proofs.Json.Reread
import Sieve.Proofs.Json.ReadWritten
import Sieve.Proofs.Filter.Written
import Sieve.Proofs.Filter.RoundTrip
import Sieve.Proofs.Calendar
import Sieve.Proofs.Timestamp
import Sieve.Proofs.Filter.SavedMeaning
import Sieve.Proofs.Binary64
import Sieve.Proofs.Filter.Decode
import Sieve.Proofs.Filter.Place
import Sieve.Proofs.Filter.Grammar
import Sieve.Proofs.Filter.Parsing
import Sieve.Proofs.Filter.Reloaded
import Sieve.Proofs.Assoc
import Sieve.Proofs.Record.Fields
import Sieve.Proofs.Leaf
import Sieve.Proofs.ReferencedFields
import Sieve.Proofs.Json.Alongside
import Sieve.Proofs.Absence
import Sieve.Proofs.Trace
import Sieve.Proofs.Filter.Rejected
import Sieve.Proofs.Json.Grammar
import Sieve.Proofs.Json.ReadSpelled
import Sieve.Proofs.Record.Decoding
import Sieve.Proofs.Record.RoundTrip
import Sieve.Proofs.Record.Updates
import Sieve.Proofs.Instant.Scan
import Sieve.Proofs.Instant.Colon
import Sieve.Proofs.Instant.Written
import Sieve.Proofs.Instant.Shift
import Sieve.Proofs.Instant.Plain
import Sieve.Proofs.Instant.ExplicitOffset
import Sieve.Proofs.OwnText
import Sieve.Proofs.Chronology
import Sieve.Proofs.DayCount
import Sieve.Proofs.Decimal.Order
import Sieve.Proofs.Instant.Order
import Sieve.Proofs.Instant.DateAlone
import Sieve.Proofs.NumberComparison
import Sieve.Proofs.StringComparison
import Sieve.Proofs.Text.EditDistance
import Sieve.Proofs.Filter.UnknownName
import Sieve.Proofs.Filter.Suggestion
import Sieve.Proofs.Instant.FullWidth
import Sieve.Proofs.Instant.Divider
import Sieve.Proofs.Instant.Unambiguous
import Sieve.Proofs.Similarity
import Sieve.Proofs.Options.Offset
import Sieve.Proofs.Json.Skipped
import Sieve.Proofs.Options.RoundTrip
