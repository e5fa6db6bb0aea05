import ColumnScan.Decimal.Approximation
import ColumnScan.Decimal.Literal
import ColumnScan.Decimal.Rendering
import ColumnScan.Job.Workload
import ColumnScan.Proofs.Command.SelectiveLoading
import ColumnScan.Proofs.Decimal.Arithmetic
import ColumnScan.Proofs.Decimal.Order
import ColumnScan.Proofs.Filter.ValueList
import ColumnScan.Proofs.Job.Delivery
import ColumnScan.Proofs.Job.JobHistory
import ColumnScan.Proofs.Scan.Exactness
import ColumnScan.Proofs.Scan.Locality
import ColumnScan.Proofs.Scan.ReportedExtent
import ColumnScan.Proofs.Scheduler.JobLedger
import ColumnScan.Proofs.Scheduler.Overtaking
import ColumnScan.Proofs.Scheduler.PoolHistory
import ColumnScan.Proofs.Scheduler.QueueHistory
import ColumnScan.Proofs.Storage.ReadLog
import ColumnScan.Proofs.Storage.RowRuns
import ColumnScan.Scheduler.Rehearsal
import ColumnScan.Storage.MemoryStore
import ColumnScan.Wire.Service
import ColumnScan.Proofs.Scheduler.Parity
import ColumnScan.Proofs.Bytes.Reading
import ColumnScan.Proofs.Wire.CanonicalRequest
import ColumnScan.Proofs.Command.StoredBlocks
import ColumnScan.Proofs.Command.Chaining
import ColumnScan.Proofs.Job.Dealing
import ColumnScan.Proofs.Job.StepHistory
import ColumnScan.Proofs.Job.StepDelivery
import ColumnScan.Proofs.Wire.AskedRequest
import ColumnScan.Proofs.Scan.EncodedAnswer
import ColumnScan.Proofs.Wire.AnsweredRequest
import ColumnScan.Proofs.Scan.ExactExtent
import ColumnScan.Proofs.Decimal.Digits
import ColumnScan.Proofs.Decimal.TextRoundTrip
import ColumnScan.Proofs.Column.LikeMatching
import ColumnScan.Proofs.Scheduler.EntryWeight
import ColumnScan.Proofs.Scan.NullRows
import ColumnScan.Proofs.Scan.FilterAgreement
import ColumnScan.Proofs.Scheduler.BoundedWait
import ColumnScan.Proofs.Scheduler.Staffing
import ColumnScan.Proofs.Storage.StoreTrace
import ColumnScan.Proofs.Command.ReadCounts
import ColumnScan.Proofs.Command.StoreHistory
import ColumnScan.Proofs.Command.UnallocatedBlocks
import ColumnScan.Proofs.Scan.FloatFlags
import ColumnScan.Proofs.Scan.AlternateNull
import ColumnScan.Proofs.Command.OutputCapacity
import ColumnScan.Proofs.Command.ZoneHistory
import ColumnScan.Proofs.Command.AlignedOutput
import ColumnScan.Proofs.Wire.ListedRows
import ColumnScan.Proofs.Scan.PredicateOrder
import ColumnScan.Proofs.Filter.DecodedPredicates
import ColumnScan.Proofs.Decimal.CanonicalText
import ColumnScan.Proofs.Decimal.Parts
import ColumnScan.Proofs.Decimal.Overflow
import ColumnScan.Proofs.Decimal.WordArithmetic
import ColumnScan.Proofs.Filter.Widening
import ColumnScan.Proofs.Bytes.ReaderHistory
