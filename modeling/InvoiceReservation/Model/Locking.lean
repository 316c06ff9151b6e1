import InvoiceReservation.Model.System
/-!
# Locks, and the transactions that run at once

What a statement of the services reads and locks, and the five
transactions the services run under a program's row lock. Writes lock the
rows they make: an inserted primary key blocks another transaction that
inserts it until the first one ends.
-/

namespace InvoiceReservation

open Transactions

/-- What is locked. A program's key is its row and what is filed under it:
its reservations, its ledger, its processed messages and its stream
positions. Its writers hold the row's lock. -/
inductive Key
  | program (p : Uuid)
  | reservation (id : Uuid)
  | request (organisationId : Uuid) (requestId : String)
  | message (messageId : String)
  | acknowledgement (messageId : String)
  deriving DecidableEq

/-- The keys a row version is filed under. -/
def Write.keys : Write → List Key
  | .program row => [.program row.id]
  | .reservations rows => rows.flatMap fun row => [.program row.programId, .reservation row.id]
  | .ledger rows => rows.map fun row => .program row.programId
  | .requests rows => rows.map fun row => .request row.organisationId row.requestId
  | .message row => [.program row.programId, .message row.messageId]
  | .acknowledgement row => [.acknowledgement row.messageId]
  | .streamPosition row => [.program row.programId]

namespace Stmt

/-- The keys a statement's answer and its writes depend on. The sweep, the
check and the detection read whole tables. -/
def reads : {β : Type} → Stmt β → Option (List Key)
  | _, lockProgram p => some [.program p]
  | _, selectProgram p => some [.program p]
  | _, insertProgram p _ _ _ => some [.program p]
  | _, insertRequest organisationId requestId _ _ _ => some [.request organisationId requestId]
  | _, selectRequest organisationId requestId => some [.request organisationId requestId]
  | _, completeRequest organisationId requestId _ => some [.request organisationId requestId]
  | _, expireRequests _ => none
  | _, selectDuplicate p _ => some [.program p]
  | _, insertReservation id p _ _ _ _ _ _ _ => some [.program p, .reservation id]
  | _, lockReservation p _ => some [.program p]
  | _, releaseReservation p _ _ _ _ _ => some [.program p]
  | _, cancelReservation p _ _ _ _ => some [.program p]
  | _, insertLedger p _ _ => some [.program p]
  | _, updatePosition p _ _ _ => some [.program p]
  | _, selectMessage messageId => some [.message messageId]
  | _, selectMessagesAt p _ _ => some [.program p]
  | _, insertEventMessage row => some [.message row.messageId]
  | _, insertSnapshotMessage row => some [.message row.messageId]
  | _, selectEcho p _ => some [.program p]
  | _, acknowledgeEcho p _ _ _ => some [.program p]
  | _, advanceAppliedEffectiveAt p _ => some [.program p]
  | _, upsertStreamPosition p _ _ => some [.program p]
  | _, selectReservations p => some [.program p]
  | _, updateTreasuryVersion p _ _ _ => some [.program p]
  | _, insertAcknowledgement row => some [.acknowledgement row.messageId, .message row.messageId]
  | _, acknowledgeReservations p _ _ _ => some [.program p]
  | _, selectReconciliation => none
  | _, flagInvestigation p => some [.program p]
  | _, selectRecovery => none
  | _, holdProgram p => some [.program p]

/-- What `FOR UPDATE` locks: the row that was found. -/
def takes : {β : Type} → Stmt β → β → List Key
  | _, lockProgram p, some _ => [.program p]
  | _, lockReservation _ _, some row => [.reservation row.id]
  | _, _, _ => []

end Stmt

/-- The locks of the database. -/
def locks : Locks Stmt Write Key where
  reads := Stmt.reads
  takes := Stmt.takes
  keys := Write.keys

/-! ## The locked transactions -/

/-- A transaction that runs under its program's row lock. -/
inductive LockedTransaction
  | reserve (rt : Runtime) (command : ReserveCommand)
  | release (rt : Runtime) (command : ReleaseCommand)
  | cancel (rt : Runtime) (command : CancelCommand)
  | event (rt : Runtime) (message : CapacityEvent) (coordinates : StreamCoordinates)
  | snapshot (rt : Runtime) (message : ReconciliationSnapshot) (coordinates : StreamCoordinates)

/-- What a locked transaction answers. -/
inductive LockedReply
  | write (outcome : WriteOutcome)
  | applied (outcome : ApplyOutcome)
  deriving DecidableEq

variable [Sha256]

/-- The transaction of an event's `apply`, which rolls back where there is
no such program. -/
def eventTransaction (rt : Runtime) (event : CapacityEvent) (coordinates : StreamCoordinates) :
    Transaction ApplyOutcome :=
  withProgramLock event.programId
    (ApplyTreasuryEventService.applyLocked rt event coordinates)

/-- The transaction of a snapshot's `apply`. A snapshot without a marker
has none. -/
def snapshotTransaction (rt : Runtime) (snapshot : ReconciliationSnapshot)
    (coordinates : StreamCoordinates) : Transaction ApplyOutcome :=
  match snapshot.acknowledgement with
  | none => return .quarantined .missingAckMarker
  | some marker =>
    withProgramLock snapshot.programId
      (ApplySnapshotService.applyLocked rt snapshot marker coordinates)

/-- What a locked transaction does. -/
def LockedTransaction.tx : LockedTransaction → Transaction LockedReply
  | .reserve rt command => (InvoiceReservation.reserve rt command).map .write
  | .release rt command => (InvoiceReservation.release rt command).map .write
  | .cancel rt command => (InvoiceReservation.cancel rt command).map .write
  | .event rt message coordinates => (eventTransaction rt message coordinates).map .applied
  | .snapshot rt message coordinates => (snapshotTransaction rt message coordinates).map .applied

/-! ## Beside the detection -/

omit [Sha256] in
/-- A locked transaction, or one hold of the detection: a statement that
commits on its own, of whatever program an earlier read has told it. -/
inductive WatchedTransaction
  | locked (t : LockedTransaction)
  | hold (p : Uuid)

omit [Sha256] in
/-- What it answers. -/
inductive WatchedReply
  | locked (reply : LockedReply)
  | held
  deriving DecidableEq

/-- What it does. -/
def WatchedTransaction.tx : WatchedTransaction → Transaction WatchedReply
  | .locked t => t.tx.map .locked
  | .hold p => (query (.holdProgram p)).map fun _ => .held

/-! ## Requests and sweeps -/

omit [Sha256] in
/-- A transaction on the request records: a write of the API, or a sweep. -/
inductive RequestTransaction
  | reserve (rt : Runtime) (command : ReserveCommand)
  | release (rt : Runtime) (command : ReleaseCommand)
  | cancel (rt : Runtime) (command : CancelCommand)
  | sweep (now : Timestamp) (days : Int)

omit [Sha256] in
/-- What it answers. -/
inductive RequestReply
  | write (outcome : WriteOutcome)
  | swept (count : Nat)
  deriving DecidableEq

/-- What a transaction on the request records does. -/
def RequestTransaction.tx : RequestTransaction → Transaction RequestReply
  | .reserve rt command => (InvoiceReservation.reserve rt command).map .write
  | .release rt command => (InvoiceReservation.release rt command).map .write
  | .cancel rt command => (InvoiceReservation.cancel rt command).map .write
  | .sweep now days => (InvoiceReservation.sweep now days).map .swept

/-! ## Everything that locks a program -/

omit [Sha256] in
/-- A transaction that locks programs: one of the five, a hold of the
detection, a flag of the check, or a seed of programs in the order of their
ids. -/
inductive RowTransaction
  | locked (t : LockedTransaction)
  | hold (p : Uuid)
  | flag (p : Uuid)
  | seed (now : Timestamp) (programs : List ProgramSeed)
      (ascending : programs.Pairwise fun a b => Uuid.ofText a.id < Uuid.ofText b.id)

omit [Sha256] in
/-- What it answers. -/
inductive RowReply
  | locked (reply : LockedReply)
  | done
  deriving DecidableEq

/-- What it does. -/
def RowTransaction.tx : RowTransaction → Transaction RowReply
  | .locked t => t.tx.map .locked
  | .hold p => (query (.holdProgram p)).map fun _ => .done
  | .flag p => (query (.flagInvestigation p)).map fun _ => .done
  | .seed now programs _ => (runSeed now programs).map fun _ => .done

end InvoiceReservation
