import ScopedDocs.Audience
import ScopedDocs.Config.Basic
import ScopedDocs.Config.Codec
import ScopedDocs.Config.Settings
import ScopedDocs.Connection
import ScopedDocs.Dotted
import ScopedDocs.Double
import ScopedDocs.Double.Text
import ScopedDocs.Error.Access
import ScopedDocs.Error.Basic
import ScopedDocs.Error.Store
import ScopedDocs.Filter.Basic
import ScopedDocs.Filter.Operator
import ScopedDocs.Guard
import ScopedDocs.Instant.Basic
import ScopedDocs.Instant.Calendar
import ScopedDocs.Instant.Reader
import ScopedDocs.Json.Basic
import ScopedDocs.Json.Decode
import ScopedDocs.Json.Order
import ScopedDocs.Json.Path
import ScopedDocs.Json.Reader
import ScopedDocs.Json.Text
import ScopedDocs.Members
import ScopedDocs.Owner
import ScopedDocs.Pattern.Basic
import ScopedDocs.Pattern.Reader
import ScopedDocs.Pattern.Search
import ScopedDocs.Pattern.Size
import ScopedDocs.Pipeline
import ScopedDocs.Projection
import ScopedDocs.Proofs.Agreement
import ScopedDocs.Proofs.Answers
import ScopedDocs.Proofs.Assembly
import ScopedDocs.Proofs.Calendar
import ScopedDocs.Proofs.Change
import ScopedDocs.Proofs.Codec
import ScopedDocs.Proofs.Collections
import ScopedDocs.Proofs.Conflicts
import ScopedDocs.Proofs.Contents
import ScopedDocs.Proofs.Copies
import ScopedDocs.Proofs.Declarations
import ScopedDocs.Proofs.Deletion
import ScopedDocs.Proofs.Denial
import ScopedDocs.Proofs.Documents
import ScopedDocs.Proofs.Enforcement
import ScopedDocs.Proofs.Filter
import ScopedDocs.Proofs.History
import ScopedDocs.Proofs.Idempotency
import ScopedDocs.Proofs.Indexes
import ScopedDocs.Proofs.Integers
import ScopedDocs.Proofs.Interchange
import ScopedDocs.Proofs.Isolation
import ScopedDocs.Proofs.Levels
import ScopedDocs.Proofs.Literal
import ScopedDocs.Proofs.Lookup
import ScopedDocs.Proofs.Mentions
import ScopedDocs.Proofs.Naming
import ScopedDocs.Proofs.Operations
import ScopedDocs.Proofs.Outcome
import ScopedDocs.Proofs.Owner
import ScopedDocs.Proofs.Ownership
import ScopedDocs.Proofs.Pages
import ScopedDocs.Proofs.Permutation
import ScopedDocs.Proofs.Plan
import ScopedDocs.Proofs.Projections
import ScopedDocs.Proofs.Pruning
import ScopedDocs.Proofs.Ranges
import ScopedDocs.Proofs.Reached
import ScopedDocs.Proofs.ReadBack
import ScopedDocs.Proofs.Rearrangement
import ScopedDocs.Proofs.Refusal
import ScopedDocs.Proofs.Removal
import ScopedDocs.Proofs.Replacement
import ScopedDocs.Proofs.Reserved
import ScopedDocs.Proofs.Resolution
import ScopedDocs.Proofs.Rounding
import ScopedDocs.Proofs.Rows
import ScopedDocs.Proofs.Run
import ScopedDocs.Proofs.Scope
import ScopedDocs.Proofs.Selection
import ScopedDocs.Proofs.Shapes
import ScopedDocs.Proofs.ShortSort
import ScopedDocs.Proofs.Sortable
import ScopedDocs.Proofs.Sorting
import ScopedDocs.Proofs.SortOrder
import ScopedDocs.Proofs.StableSort
import ScopedDocs.Proofs.Storage
import ScopedDocs.Proofs.Texts
import ScopedDocs.Proofs.Timestamp
import ScopedDocs.Proofs.Totality
import ScopedDocs.Proofs.Transactions
import ScopedDocs.Proofs.Uniqueness
import ScopedDocs.Proofs.Updates
import ScopedDocs.Proofs.Uuid
import ScopedDocs.Proofs.Validation
import ScopedDocs.Proofs.Verdict
import ScopedDocs.Proofs.WellFormed
import ScopedDocs.Proofs.Whitelist
import ScopedDocs.Proofs.Wildcards
import ScopedDocs.Proofs.Writes
import ScopedDocs.Record
import ScopedDocs.Repository.Basic
import ScopedDocs.Repository.Read
import ScopedDocs.Repository.Write
import ScopedDocs.Request
import ScopedDocs.Schema.Basic
import ScopedDocs.Schema.Draft
import ScopedDocs.Schema.Field
import ScopedDocs.Schema.Index
import ScopedDocs.Schema.Registry
import ScopedDocs.Search.Basic
import ScopedDocs.Search.Codec
import ScopedDocs.Search.Operator
import ScopedDocs.Search.Plan
import ScopedDocs.Search.Predicate
import ScopedDocs.Sorting.Basic
import ScopedDocs.Sorting.Small
import ScopedDocs.Span.Basic
import ScopedDocs.Span.Reader
import ScopedDocs.Store.Basic
import ScopedDocs.Store.Collection
import ScopedDocs.Store.Rows
import ScopedDocs.Store.Write
import ScopedDocs.Text.Blank
import ScopedDocs.Text.CaseFold
import ScopedDocs.Text.Digit
import ScopedDocs.Text.Digits
import ScopedDocs.Text.Hidden
import ScopedDocs.Text.Quoted
import ScopedDocs.Text.Ranges
import ScopedDocs.Update
import ScopedDocs.Uuid
