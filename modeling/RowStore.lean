import RowStore.Address
import RowStore.Bounded
import RowStore.Catalog
import RowStore.Config
import RowStore.Cursor
import RowStore.Data.Assoc
import RowStore.Data.Bytes
import RowStore.Data.Results
import RowStore.Data.SparseBytes
import RowStore.Database
import RowStore.Digest.Xxh3
import RowStore.Disk
import RowStore.Error
import RowStore.HeapFile.Basic
import RowStore.HeapFile.Scan
import RowStore.HeapFile.Writer
import RowStore.Json.Reader
import RowStore.Json.Records
import RowStore.Json.Value
import RowStore.Lookahead
import RowStore.Page.Basic
import RowStore.Page.Codec
import RowStore.Page.Layout
import RowStore.Pool.Basic
import RowStore.Pool.Clock
import RowStore.Pool.Frame
import RowStore.Pool.Session
import RowStore.Proofs.Database.Checked
import RowStore.Proofs.Database.Coherence
import RowStore.Proofs.Database.History
import RowStore.Proofs.Database.Reading
import RowStore.Proofs.Database.Reregistration
import RowStore.Proofs.Database.Serving
import RowStore.Proofs.HeapFile.RoundTrip
import RowStore.Proofs.HeapFile.Writing
import RowStore.Proofs.Page.Codec
import RowStore.Proofs.Page.Decoding
import RowStore.Proofs.Page.Reencoding
import RowStore.Proofs.Page.Slots
import RowStore.Proofs.Page.StoredForm
import RowStore.Proofs.Pool.Consistency
import RowStore.Proofs.Pool.History
import RowStore.Proofs.Pool.Journal
import RowStore.Proofs.Pool.Loading
import RowStore.Proofs.Pool.Pinning
import RowStore.Proofs.Pool.Refinement
import RowStore.Proofs.Pool.Residency
import RowStore.Proofs.Pool.Sweep
import RowStore.Proofs.Query.Grouping
import RowStore.Proofs.Query.Lockstep
import RowStore.Proofs.Query.Operators
import RowStore.Proofs.Query.Outages
import RowStore.Proofs.Query.Regularity
import RowStore.Proofs.Query.Reordering
import RowStore.Proofs.Query.Openings
import RowStore.Proofs.Query.Scanning
import RowStore.Proofs.Query.Semantics
import RowStore.Proofs.Query.Service
import RowStore.Proofs.Text.Utf8
import RowStore.Proofs.Value.Codec
import RowStore.Query.Aggregation
import RowStore.Query.Aggregator
import RowStore.Query.Evaluation
import RowStore.Query.Filter
import RowStore.Query.Group
import RowStore.Query.Join
import RowStore.Query.Plan
import RowStore.Query.Predicate
import RowStore.Query.Rows
import RowStore.Query.TableScan
import RowStore.Row
import RowStore.Schema
import RowStore.Size
import RowStore.Storage
import RowStore.Text.Utf8
import RowStore.Value
import RowStore.Value.Codec
import RowStore.Word
import RowStore.Proofs.Query.Governance
import RowStore.Proofs.HeapFile.Errors
import RowStore.Proofs.Pool.Pins
import RowStore.Proofs.Query.Closing
import RowStore.Proofs.Database.Company
import RowStore.Proofs.Query.Lifecycle
import RowStore.Proofs.Query.Typing
import RowStore.Proofs.Database.Undisturbed
import RowStore.Proofs.Query.Unfolding
import RowStore.Proofs.Query.GroupOrders
import RowStore.Proofs.Query.Handover
import RowStore.Proofs.Database.Naming
import RowStore.Proofs.Pool.Victims
import RowStore.Proofs.Page.Occupancy
import RowStore.Proofs.Page.Images
import RowStore.Proofs.Page.AnyBytes
import RowStore.Proofs.Query.Tallying
import RowStore.Proofs.HeapFile.Refusal
import RowStore.Proofs.Database.Reopening
import RowStore.Proofs.HeapFile.Tiling
import RowStore.Proofs.HeapFile.Bulk
import RowStore.Proofs.Value.Sequence
import RowStore.Proofs.Text.Order
import RowStore.Proofs.Query.Comparison
import RowStore.Proofs.Query.Counting
import RowStore.Proofs.HeapFile.Requests
import RowStore.Proofs.Query.Served
