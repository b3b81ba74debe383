import PullGauge.Cache
import PullGauge.Calendar.Date
import PullGauge.Calendar.Moment
import PullGauge.Calendar.Reading
import PullGauge.Exchange.Batch
import PullGauge.Exchange.Client
import PullGauge.Exchange.Message
import PullGauge.Exchange.Refusal
import PullGauge.Exchange.Resources
import PullGauge.Exchange.Talk
import PullGauge.Exchange.Url
import PullGauge.Fault
import PullGauge.Host.Basic
import PullGauge.Host.Direction
import PullGauge.Host.Joining
import PullGauge.Host.Label
import PullGauge.Host.Letters
import PullGauge.Host.Name
import PullGauge.Host.Numeric
import PullGauge.Log.Format
import PullGauge.Log.Logger
import PullGauge.Log.Masking
import PullGauge.Log.Redaction
import PullGauge.Metrics.Developer
import PullGauge.Metrics.Repository
import PullGauge.Metrics.Statistics
import PullGauge.Metrics.Summary
import PullGauge.Number.Basic
import PullGauge.Number.Binary64
import PullGauge.Number.Decimal
import PullGauge.Number.Exact
import PullGauge.Number.Power
import PullGauge.Number.Reading
import PullGauge.Number.Scalar
import PullGauge.Number.Shortest
import PullGauge.Number.Written
import PullGauge.Packing.Basic
import PullGauge.Packing.Codes
import PullGauge.Packing.Inflate
import PullGauge.Payload.Access
import PullGauge.Payload.Basic
import PullGauge.Payload.Depth
import PullGauge.Payload.Octets
import PullGauge.Payload.Reading
import PullGauge.Payload.Writing
import PullGauge.Pipeline.Key
import PullGauge.Pipeline.People
import PullGauge.Pipeline.Repositories
import PullGauge.Pipeline.Search
import PullGauge.Proofs.Cache.Contents
import PullGauge.Proofs.Cache.History
import PullGauge.Proofs.Cache.Loss
import PullGauge.Proofs.Cache.MoreReads
import PullGauge.Proofs.Calendar.Ordered
import PullGauge.Proofs.Calendar.Ordinals
import PullGauge.Proofs.Calendar.Spans
import PullGauge.Proofs.Calendar.Written
import PullGauge.Proofs.Exchange.Addresses
import PullGauge.Proofs.Exchange.Asking
import PullGauge.Proofs.Exchange.Batch
import PullGauge.Proofs.Exchange.Chunks
import PullGauge.Proofs.Exchange.Conduct
import PullGauge.Proofs.Exchange.Deeds
import PullGauge.Proofs.Exchange.Faults
import PullGauge.Proofs.Exchange.Interleaving
import PullGauge.Proofs.Exchange.Paging
import PullGauge.Proofs.Exchange.Refusals
import PullGauge.Proofs.Exchange.Terms
import PullGauge.Proofs.Log.Patterns
import PullGauge.Proofs.Log.Redaction
import PullGauge.Proofs.Log.Replacing
import PullGauge.Proofs.Log.Residue
import PullGauge.Proofs.Log.Secrecy
import PullGauge.Proofs.Metrics.Exact
import PullGauge.Proofs.Metrics.Hours
import PullGauge.Proofs.Metrics.Middle
import PullGauge.Proofs.Metrics.Ranks
import PullGauge.Proofs.Metrics.Restoring
import PullGauge.Proofs.Metrics.Scores
import PullGauge.Proofs.Metrics.Summaries
import PullGauge.Proofs.Metrics.Sweep
import PullGauge.Proofs.Number.Doubles
import PullGauge.Proofs.Number.Integers
import PullGauge.Proofs.Number.Magnitudes
import PullGauge.Proofs.Number.Printed
import PullGauge.Proofs.Number.Rational
import PullGauge.Proofs.Number.Rounding
import PullGauge.Proofs.Number.Shortest
import PullGauge.Proofs.Number.Words
import PullGauge.Proofs.Outcome.Rows
import PullGauge.Proofs.Payload.Places
import PullGauge.Proofs.Payload.Quoted
import PullGauge.Proofs.Pipeline.Course
import PullGauge.Proofs.Pipeline.Developer
import PullGauge.Proofs.Pipeline.Failing
import PullGauge.Proofs.Pipeline.Faults
import PullGauge.Proofs.Pipeline.Insights
import PullGauge.Proofs.Pipeline.Keys
import PullGauge.Proofs.Pipeline.OneByOne
import PullGauge.Proofs.Pipeline.Reuse
import PullGauge.Proofs.Pipeline.Search
import PullGauge.Proofs.Query.Accepted
import PullGauge.Proofs.Query.Agreement
import PullGauge.Proofs.Query.Clean
import PullGauge.Proofs.Query.Days
import PullGauge.Proofs.Query.Fixes
import PullGauge.Proofs.Query.Growth
import PullGauge.Proofs.Query.Joining
import PullGauge.Proofs.Query.Marker
import PullGauge.Proofs.Query.Nesting
import PullGauge.Proofs.Query.Normalization
import PullGauge.Proofs.Query.OwnQueries
import PullGauge.Proofs.Query.PageParams
import PullGauge.Proofs.Query.Parts
import PullGauge.Proofs.Query.Qualifiers
import PullGauge.Proofs.Query.RoundTrip
import PullGauge.Proofs.Query.Segmentation
import PullGauge.Proofs.Query.Stability
import PullGauge.Proofs.Query.Surroundings
import PullGauge.Proofs.Query.Values
import PullGauge.Proofs.Query.Words
import PullGauge.Proofs.Record.Address
import PullGauge.Proofs.Record.Coherence
import PullGauge.Proofs.Record.Earliest
import PullGauge.Proofs.Record.Firsts
import PullGauge.Proofs.Service.Answers
import PullGauge.Proofs.Service.Documents
import PullGauge.Proofs.Service.Pages
import PullGauge.Proofs.Service.Routes
import PullGauge.Proofs.Suggestion.BestEffort
import PullGauge.Proofs.Suggestion.LastWord
import PullGauge.Proofs.Suggestion.OpenValue
import PullGauge.Proofs.Text.Blanks
import PullGauge.Proofs.Text.Forms
import PullGauge.Proofs.Text.Trimming
import PullGauge.Query.Complexity
import PullGauge.Query.Filter
import PullGauge.Query.PageParams
import PullGauge.Query.Token
import PullGauge.Query.Validation
import PullGauge.Record.Assembly
import PullGauge.Record.Basic
import PullGauge.Record.Reviews
import PullGauge.Service.Basic
import PullGauge.Service.Samples
import PullGauge.Service.Script
import PullGauge.Session
import PullGauge.Suggestion.Basic
import PullGauge.Suggestion.Context
import PullGauge.Suggestion.Engine
import PullGauge.Text.Base64
import PullGauge.Text.Basic
import PullGauge.Text.Blank
import PullGauge.Text.Composed
import PullGauge.Text.Digit
import PullGauge.Text.Fold
import PullGauge.Text.Hex
import PullGauge.Text.Lower
import PullGauge.Text.Percent
import PullGauge.Text.Printable
import PullGauge.Text.Punycode
import PullGauge.Text.Quoted
import PullGauge.Text.Ranges
import PullGauge.Text.Upper
import PullGauge.Text.Utf8
import PullGauge.Text.WordChar
import PullGauge.World
import PullGauge.Proofs.Exchange.Documents
