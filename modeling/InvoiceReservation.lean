import InvoiceReservation.Helpers.Agreement
import InvoiceReservation.Properties.Acknowledgements
import InvoiceReservation.Properties.ArrivalOrder
import InvoiceReservation.Properties.Availability
import InvoiceReservation.Properties.Batches
import InvoiceReservation.Properties.Bounds
import InvoiceReservation.Properties.Concurrency
import InvoiceReservation.Properties.Contract
import InvoiceReservation.Properties.CursorAcceptance
import InvoiceReservation.Properties.Deadlock
import InvoiceReservation.Properties.Decimals
import InvoiceReservation.Properties.Decomposition
import InvoiceReservation.Properties.Deduplication
import InvoiceReservation.Properties.Delivery
import InvoiceReservation.Properties.Detection
import InvoiceReservation.Properties.Fingerprints
import InvoiceReservation.Properties.History
import InvoiceReservation.Properties.Holds
import InvoiceReservation.Properties.Idempotency
import InvoiceReservation.Properties.Inspection
import InvoiceReservation.Properties.Ledger
import InvoiceReservation.Properties.LedgerAudits
import InvoiceReservation.Properties.LedgerPages
import InvoiceReservation.Properties.LedgerWindows
import InvoiceReservation.Properties.LimitConvergence
import InvoiceReservation.Properties.LockOrder
import InvoiceReservation.Properties.MinorUnits
import InvoiceReservation.Properties.MixedDelivery
import InvoiceReservation.Properties.Noninterference
import InvoiceReservation.Properties.Outstanding
import InvoiceReservation.Properties.OverLimit
import InvoiceReservation.Properties.Pipeline
import InvoiceReservation.Properties.RateCache
import InvoiceReservation.Properties.Recognition
import InvoiceReservation.Properties.References
import InvoiceReservation.Properties.Refusals
import InvoiceReservation.Properties.Releases
import InvoiceReservation.Properties.Replay
import InvoiceReservation.Properties.ReservationPages
import InvoiceReservation.Properties.Restarts
import InvoiceReservation.Properties.Restore
import InvoiceReservation.Properties.Rounding
import InvoiceReservation.Properties.SnapshotConvergence
import InvoiceReservation.Properties.StreamLag
import InvoiceReservation.Properties.Trails
import InvoiceReservation.Properties.WrittenNumbers
