import InvoiceReservation.Common.Serializable
import InvoiceReservation.Model.Schema
/-!
# The statements

Every SQL statement of the modelled services, with what it answers and
the row versions it writes. A `SELECT` answers with rows, an `INSERT` of
which the caller reads the result answers whether it inserted, and an
`UPDATE` writes a version of every row it matches. Before any of that its
parameters are read, and one the database cannot hold fails it.
-/

namespace InvoiceReservation

open Transactions

/-- `ReconciliationRow`. -/
structure ReconciliationRow where
  programId : Uuid
  localReservedMinor : Int
  activeOutstanding : Int
  deriving DecidableEq, Repr

/-- `RecoveryRow`. -/
structure RecoveryRow where
  programId : Uuid
  ledgerAt : Option Timestamp
  positionAt : Option Timestamp
  deriving DecidableEq, Repr

/-- The statements, by what they answer. -/
inductive Stmt : Type → Type
  /-- `SELECT * FROM program WHERE id = $1 FOR UPDATE`. -/
  | lockProgram (p : Uuid) : Stmt (Option ProgramEntity)
  /-- `SELECT * FROM program WHERE id = $1`. -/
  | selectProgram (p : Uuid) : Stmt (Option ProgramEntity)
  /-- The seed's `INSERT INTO program … ON CONFLICT (id) DO NOTHING`. -/
  | insertProgram (p organisationId : Uuid) (currency : String) (now : Timestamp) : Stmt Bool
  /-- `INSERT INTO request_record … ON CONFLICT DO NOTHING`. -/
  | insertRequest (organisationId : Uuid) (requestId : String) (operation : RequestOperation)
      (fingerprint : String) (now : Timestamp) : Stmt Bool
  /-- `SELECT … FROM request_record WHERE organisation_id = $1 AND request_id = $2`. -/
  | selectRequest (organisationId : Uuid) (requestId : String) : Stmt (Option RequestRecordEntity)
  /-- `UPDATE request_record SET state = 'COMPLETE', outcome = $3`. -/
  | completeRequest (organisationId : Uuid) (requestId : String) (outcome : WriteBody) : Stmt Unit
  /-- `UPDATE request_record SET state = 'EXPIRED'`, for every record complete
  since before the cutoff. -/
  | expireRequests (cutoff : Timestamp) : Stmt Nat
  /-- `SELECT 1 FROM invoice_reservation WHERE program_id = $1 AND invoice_id = $2`. -/
  | selectDuplicate (p : Uuid) (invoiceId : String) : Stmt Bool
  /-- `INSERT INTO invoice_reservation … RETURNING *`. -/
  | insertReservation (id p : Uuid) (invoiceId : String) (amountMinor : Int)
      (currency programCurrency : String) (reservedMinor : Int) (fx : Option FxRate)
      (now : Timestamp) : Stmt InvoiceReservationEntity
  /-- `SELECT * FROM invoice_reservation … FOR UPDATE`. -/
  | lockReservation (p : Uuid) (invoiceId : String) : Stmt (Option InvoiceReservationEntity)
  /-- The release's `UPDATE invoice_reservation`. -/
  | releaseReservation (p : Uuid) (invoiceId : String)
      (outstandingInvoiceMinor outstandingReservedMinor : Int) (status : ReservationStatus)
      (now : Timestamp) : Stmt Unit
  /-- The cancellation's `UPDATE invoice_reservation`. -/
  | cancelReservation (p : Uuid) (invoiceId : String) (outstandingReservedMinor : Int)
      (status : ReservationStatus) (now : Timestamp) : Stmt Unit
  /-- `INSERT INTO capacity_ledger_entry`, all entries of an advance at once. -/
  | insertLedger (p : Uuid) (entries : List SequencedLedgerEntry) (now : Timestamp) : Stmt Unit
  /-- `persistAdvance`'s `UPDATE program`, under the transaction's setting of
  `capacity.reconciliation_in_progress`. -/
  | updatePosition (p : Uuid) (position : ProgramPosition) (now : Timestamp)
      (reconciliationInProgress : Bool) : Stmt Unit
  /-- `SELECT … FROM processed_message WHERE message_id = $1`. -/
  | selectMessage (messageId : String) : Stmt (Option ProcessedMessageEntity)
  /-- `SELECT … FROM processed_message WHERE program_id = $1 AND kind = … AND version = $2`. -/
  | selectMessagesAt (p : Uuid) (kind : MessageKind) (version : Int) :
      Stmt (List ProcessedMessageEntity)
  /-- `INSERT INTO processed_message … ON CONFLICT (message_id) DO NOTHING`. -/
  | insertEventMessage (row : ProcessedMessageEntity) : Stmt Bool
  /-- `INSERT INTO processed_message`. -/
  | insertSnapshotMessage (row : ProcessedMessageEntity) : Stmt Unit
  /-- `SELECT id FROM invoice_reservation WHERE program_id = $1 AND treasury_reference = $2`. -/
  | selectEcho (p : Uuid) (reference : String) : Stmt (List Uuid)
  /-- The echo's `UPDATE invoice_reservation`. -/
  | acknowledgeEcho (p : Uuid) (reference : String) (version : Int) (now : Timestamp) : Stmt Unit
  /-- `UPDATE program SET treasury_applied_effective_at = $2`, where that is later. -/
  | advanceAppliedEffectiveAt (p : Uuid) (effectiveAt : Timestamp) : Stmt Unit
  /-- `ProgramStreamPositionRepository.upsert`. -/
  | upsertStreamPosition (p : Uuid) (coordinates : StreamCoordinates) (now : Timestamp) : Stmt Unit
  /-- `SELECT … FROM invoice_reservation WHERE program_id = $1`. -/
  | selectReservations (p : Uuid) : Stmt (List InvoiceReservationEntity)
  /-- The snapshot's `UPDATE program`. -/
  | updateTreasuryVersion (p : Uuid) (version : Int) (effectiveAt : Timestamp)
      (investigationRequired : Bool) : Stmt Unit
  /-- `INSERT INTO snapshot_acknowledgement`. -/
  | insertAcknowledgement (row : SnapshotAcknowledgementEntity) : Stmt Unit
  /-- The marker's `UPDATE invoice_reservation`. -/
  | acknowledgeReservations (p : Uuid) (ids : List Uuid) (version : Int) (now : Timestamp) :
      Stmt Unit
  /-- The check's `SELECT`: every program with what its active reservations hold. -/
  | selectReconciliation : Stmt (List ReconciliationRow)
  /-- `UPDATE program SET investigation_required = TRUE`. -/
  | flagInvestigation (p : Uuid) : Stmt Unit
  /-- The detection's `SELECT`: every verified program with the newest of its
  treasury ledger entries and of its stream positions. -/
  | selectRecovery : Stmt (List RecoveryRow)
  /-- `UPDATE program SET position_verified = FALSE`. -/
  | holdProgram (p : Uuid) : Stmt Unit

/-- The texts of a ledger entry that a caller or a message chose. Its actor is
the caller's organisation, as the guard has it, or the service's own word. -/
def PendingLedgerEntry.texts (entry : PendingLedgerEntry) : List Constraint :=
  [.text (entry.originReference.getD ""), .text entry.correlationId]

namespace Stmt

/-- The row of `insertProgram`, with the defaults of its columns. -/
def newProgram (p organisationId : Uuid) (currency : String) (now : Timestamp) :
    ProgramEntity where
  id := p
  organisationId := organisationId
  currency := currency
  creditLimitMinor := 0
  localReservedMinor := 0
  treasuryReservedMinor := 0
  nextSequence := 1
  overLimitSince := none
  treasuryVersion := 0
  treasuryEffectiveAt := none
  treasuryAppliedEffectiveAt := none
  positionChangedAt := now
  investigationRequired := false
  positionVerified := true

/-- The row of `insertReservation`. -/
def newReservation (id p : Uuid) (invoiceId : String) (amountMinor : Int)
    (currency programCurrency : String) (reservedMinor : Int) (fx : Option FxRate)
    (now : Timestamp) : InvoiceReservationEntity where
  id := id
  programId := p
  invoiceId := invoiceId
  invoiceAmountMinor := amountMinor
  invoiceCurrency := currency
  programCurrency := programCurrency
  reservedMinor := reservedMinor
  outstandingInvoiceMinor := amountMinor
  outstandingReservedMinor := reservedMinor
  fxRate := fx.bind fun rate => rateValue rate.rate
  fxRateEffectiveAt := fx.map (·.effectiveAt)
  fxRateSource := fx.map (·.source)
  status := .active
  origin := .local
  treasuryAcknowledged := false
  acknowledgedByVersion := none
  treasuryReference := none
  confirmedAt := now
  createdAt := now
  updatedAt := now

/-- The rows of `insertLedger`. -/
def ledgerRows (p : Uuid) (entries : List SequencedLedgerEntry) (now : Timestamp) :
    List CapacityLedgerEntryEntity :=
  entries.map fun entry => { entry with programId := p, occurredAt := now }

/-- A program row after `updatePosition`. -/
def withPosition (row : ProgramEntity) (position : ProgramPosition) (now : Timestamp) :
    ProgramEntity :=
  { row with
    creditLimitMinor := position.creditLimitMinor
    localReservedMinor := position.localReservedMinor
    treasuryReservedMinor := position.treasuryReservedMinor
    nextSequence := position.nextSequence
    overLimitSince := position.overLimitSince
    positionChangedAt := now }

/-- A program row after `advanceAppliedEffectiveAt`. -/
def withAppliedEffectiveAt (row : ProgramEntity) (effectiveAt : Timestamp) : ProgramEntity :=
  if row.treasuryAppliedEffectiveAt.all (· < effectiveAt) then
    { row with treasuryAppliedEffectiveAt := some effectiveAt }
  else row

/-- A program row after `updateTreasuryVersion`. -/
def withTreasuryVersion (row : ProgramEntity) (version : Int) (effectiveAt : Timestamp)
    (investigationRequired : Bool) : ProgramEntity :=
  { row with
    treasuryVersion := version
    treasuryEffectiveAt := some effectiveAt
    treasuryAppliedEffectiveAt :=
      some (max (row.treasuryAppliedEffectiveAt.getD effectiveAt) effectiveAt)
    investigationRequired := row.investigationRequired || investigationRequired
    positionVerified := true }

/-- A reservation row a snapshot or an echo has acknowledged. -/
def acknowledged (version : Int) (now : Timestamp) (row : InvoiceReservationEntity) :
    InvoiceReservationEntity :=
  { row with
    treasuryAcknowledged := true
    acknowledgedByVersion := some version
    updatedAt := now }

/-- The rows an echo acknowledges. -/
def echoedRows (db : Db) (p : Uuid) (reference : String) : List InvoiceReservationEntity :=
  (db.reservationsOf p).filter fun row =>
    row.treasuryReference = some reference ∧ row.treasuryAcknowledged = false

/-- The rows a snapshot acknowledges. -/
def acknowledgedRows (db : Db) (p : Uuid) (ids : List Uuid) : List InvoiceReservationEntity :=
  (db.reservationsOf p).filter fun row => ids.contains row.id

/-- The row a stream position is upserted to. -/
def streamRow (p : Uuid) (coordinates : StreamCoordinates) (now : Timestamp) :
    ProgramStreamPosition :=
  ⟨p, coordinates.topic, coordinates.partition, coordinates.offset, now⟩

/-- The upsert of a stream position: the offset only ever grows. -/
def streamWrites (row : ProgramStreamPosition) (db : Db) : List Write :=
  match Table.get ProgramStreamPosition.key row.key (db.streamPositionsOf row.programId) with
  | none => [.streamPosition row]
  | some existing => if existing.offset < row.offset then [.streamPosition row] else []

/-- What a program's LOCAL reservations hold that are active. -/
def activeOutstanding (db : Db) (p : Uuid) : Int :=
  (((db.reservationsOf p).filter fun row =>
    row.origin = .local ∧ row.status ∈ [.active, .partiallyReleased]).map
      (·.outstandingReservedMinor)).sum

/-- The causes of an entry the stream applies. -/
def treasuryCauses : List LedgerCause := [.treasuryEvent, .limitChange, .reconciliationAdjustment]

/-- The newest of a program's entries that the stream applied. -/
def newestTreasuryEntry (db : Db) (p : Uuid) : Option Timestamp :=
  (((db.ledgerOf p).filter fun entry =>
    entry.actor = "treasury" ∧ entry.cause ∈ treasuryCauses).map (·.occurredAt)).max?

/-- The programs in the order of their ids. -/
def programsById (db : Db) : List ProgramEntity :=
  db.programs.mergeSort fun a b => a.id ≤ b.id

/-- An `UPDATE` of the reservation rows among `rows`: every new version is
checked before any is written. -/
def updateReservations (rows : List InvoiceReservationEntity)
    (f : InvoiceReservationEntity → InvoiceReservationEntity) :
    Except Failure (Unit × List Write) :=
  guarded (rows.flatMap fun row => reservationChecks (f row))
    ((), [.reservations (rows.map f)])

/-- What a statement answers, and what it writes. -/
def exec : {β : Type} → Stmt β → Db → Except Failure (β × List Write)
  | _, lockProgram p, db => .ok (db.program? p, [])
  | _, selectProgram p, db => .ok (db.program? p, [])
  | _, insertProgram p organisationId currency now, db =>
    -- the row is left as it is where there is one (`ON CONFLICT DO NOTHING`)
    if (db.program? p).isSome then .ok (false, [])
    else
      guarded
        [.check (isCurrencyCode currency) "program" "program_currency_iso4217",
         .foreignKey (db.organisations.contains organisationId)
          "program" "program_organisation_id_fkey"]
        (true, [.program (newProgram p organisationId currency now)])
  | _, insertRequest organisationId requestId operation fingerprint now, db =>
    if (db.request? organisationId requestId).isSome then .ok (false, [])
    else
      guarded
        [.foreignKey (db.organisations.contains organisationId)
          "request_record" "request_record_organisation_id_fkey"]
        (true, [.requests
          [⟨organisationId, requestId, operation, fingerprint, .pending, none, now⟩]])
  | _, selectRequest organisationId requestId, db =>
    .ok (db.request? organisationId requestId, [])
  | _, completeRequest organisationId requestId outcome, db =>
    .ok ((), [.requests ((db.request? organisationId requestId).toList.map fun row =>
      { row with state := .complete, outcome := some outcome })])
  | _, expireRequests cutoff, db =>
    let rows := db.requests.filter fun row => row.state = .complete ∧ row.recordedAt < cutoff
    .ok (rows.length, [.requests (rows.map fun row =>
      { row with state := .expired, outcome := none })])
  | _, selectDuplicate p invoiceId, db =>
    .ok (!(db.reservationsFor p invoiceId).isEmpty, [])
  | _, insertReservation id p invoiceId amountMinor currency programCurrency reservedMinor fx now,
      db =>
    let row := newReservation id p invoiceId amountMinor currency programCurrency reservedMinor fx
      now
    guarded
      (reservationChecks row ++
        [.unique (!db.hasReservationId id) "invoice_reservation_pkey",
         .unique (db.reservationsFor p invoiceId).isEmpty
          "invoice_reservation_program_invoice_unique",
         .foreignKey (db.program? p).isSome
          "invoice_reservation" "invoice_reservation_program_id_fkey"])
      (row, [.reservations [row]])
  | _, lockReservation p invoiceId, db => .ok ((db.reservationsFor p invoiceId).head?, [])
  | _, releaseReservation p invoiceId outstandingInvoiceMinor outstandingReservedMinor status now,
      db =>
    updateReservations (db.reservationsFor p invoiceId) fun row =>
      { row with
        outstandingInvoiceMinor := outstandingInvoiceMinor
        outstandingReservedMinor := outstandingReservedMinor
        status := status
        updatedAt := now }
  | _, cancelReservation p invoiceId outstandingReservedMinor status now, db =>
    updateReservations (db.reservationsFor p invoiceId) fun row =>
      { row with
        outstandingReservedMinor := outstandingReservedMinor, status := status, updatedAt := now }
  | _, insertLedger p entries now, db =>
    guarded
      (entries.map (fun entry => .bigint entry.deltaMinor) ++
        [.unique ((entries.map (·.sequence)).Nodup ∧
            ∀ entry ∈ entries, ∀ row ∈ db.ledgerOf p, row.sequence ≠ entry.sequence)
          "capacity_ledger_entry_program_sequence_unique",
         .foreignKey (db.program? p).isSome
          "capacity_ledger_entry" "capacity_ledger_entry_program_id_fkey"])
      ((), [.ledger (ledgerRows p entries now)])
  | _, updatePosition p position now reconciliationInProgress, db =>
    -- what is written is checked as parameters, by the trigger and by the columns
    match db.program? p with
    | none => .ok ((), [])
    | some row =>
      let after := withPosition row position now
      guarded
        ([.bigint position.creditLimitMinor, .bigint position.localReservedMinor,
          .bigint position.treasuryReservedMinor,
          localWithinLimit row after reconciliationInProgress] ++ programChecks after)
        ((), [.program after])
  | _, selectMessage messageId, db => .ok (db.message? messageId, [])
  | _, selectMessagesAt p kind version, db =>
    guarded [.bigint version] (db.messagesAt p kind version, [])
  | _, insertEventMessage row, db =>
    -- the parameter is read before the conflict is found
    guarded [.bigint row.version]
      (if (db.message? row.messageId).isSome then (false, []) else (true, [.message row]))
  | _, insertSnapshotMessage row, db =>
    -- no conflict clause: an id that is taken fails the statement
    guarded
      [.bigint row.version,
       .unique (db.message? row.messageId).isNone "processed_message_pkey"]
      ((), [.message row])
  | _, selectEcho p reference, db =>
    .ok (((db.reservationsOf p).filter (·.treasuryReference = some reference)).map (·.id), [])
  | _, acknowledgeEcho p reference version now, db =>
    updateReservations (echoedRows db p reference) (acknowledged version now)
  | _, advanceAppliedEffectiveAt p effectiveAt, db =>
    .ok ((), (db.program? p).toList.map fun row =>
      .program (withAppliedEffectiveAt row effectiveAt))
  | _, upsertStreamPosition p coordinates now, db =>
    guarded
      [.foreignKey (db.program? p).isSome
        "program_stream_position" "program_stream_position_program_id_fkey"]
      ((), streamWrites (streamRow p coordinates now) db)
  | _, selectReservations p, db => .ok (db.reservationsOf p, [])
  | _, updateTreasuryVersion p version effectiveAt investigationRequired, db =>
    guarded [.bigint version]
      ((), (db.program? p).toList.map fun row =>
        .program (withTreasuryVersion row version effectiveAt investigationRequired))
  | _, insertAcknowledgement row, db =>
    guarded
      [.bigint row.version,
       .check ((row.kind == .explicit) == row.reservationReferences.isSome)
        "snapshot_acknowledgement" "snapshot_acknowledgement_explicit",
       .check ((row.kind == .watermark) == row.ingestedThrough.isSome)
        "snapshot_acknowledgement" "snapshot_acknowledgement_watermark",
       .unique (db.acknowledgement? row.messageId).isNone "snapshot_acknowledgement_pkey",
       .foreignKey (db.message? row.messageId).isSome
        "snapshot_acknowledgement" "snapshot_acknowledgement_message_id_fkey"]
      ((), [.acknowledgement row])
  | _, acknowledgeReservations p ids version now, db =>
    updateReservations (acknowledgedRows db p ids) (acknowledged version now)
  | _, selectReconciliation, db =>
    .ok ((programsById db).map fun program =>
      ⟨program.id, program.localReservedMinor, activeOutstanding db program.id⟩, [])
  | _, flagInvestigation p, db =>
    .ok ((), ((db.program? p).toList.filter (!·.investigationRequired)).map fun row =>
      .program { row with investigationRequired := true })
  | _, selectRecovery, db =>
    .ok (((programsById db).filter (·.positionVerified)).map fun program =>
      ⟨program.id, newestTreasuryEntry db program.id,
        ((db.streamPositionsOf program.id).map (·.updatedAt)).max?⟩, [])
  | _, holdProgram p, db =>
    .ok ((), (db.program? p).toList.map fun row => .program { row with positionVerified := false })

/-- The parameters of a statement that a caller or a message chose and that
nothing has checked: texts, and the instants of messages. What the service
makes itself is taken to fit: its clock, its hashes, a topic's name, what it
has read of a column. -/
def parameters : {β : Type} → Stmt β → List Constraint
  | _, insertRequest _ requestId _ _ _ => [.text requestId]
  | _, selectRequest _ requestId => [.text requestId]
  | _, completeRequest _ requestId _ => [.text requestId]
  | _, selectDuplicate _ invoiceId => [.text invoiceId]
  | _, insertReservation _ _ invoiceId _ currency _ _ _ _ => [.text invoiceId, .text currency]
  | _, lockReservation _ invoiceId => [.text invoiceId]
  | _, releaseReservation _ invoiceId _ _ _ _ => [.text invoiceId]
  | _, cancelReservation _ invoiceId _ _ _ => [.text invoiceId]
  | _, insertLedger _ entries _ => entries.flatMap fun entry => entry.texts
  | _, selectMessage messageId => [.text messageId]
  | _, insertEventMessage row => [.text row.messageId]
  | _, insertSnapshotMessage row => [.text row.messageId]
  | _, selectEcho _ reference => [.text reference]
  | _, acknowledgeEcho _ reference _ _ => [.text reference]
  | _, advanceAppliedEffectiveAt _ effectiveAt => [.timestamptz effectiveAt]
  | _, updateTreasuryVersion _ _ effectiveAt _ => [.timestamptz effectiveAt]
  | _, insertAcknowledgement row =>
    .text row.messageId :: ((row.reservationReferences.getD []).map Constraint.text ++
      row.ingestedThrough.toList.map Constraint.timestamptz)
  | _, _ => []

/-- A statement as it is sent: its parameters are read, and then it is
executed. -/
def send {β : Type} (s : Stmt β) (db : Db) : Except Failure (β × List Write) := do
  guarded s.parameters ()
  s.exec db

end Stmt

/-- The database. -/
def engine : Engine Stmt Db Write Failure where
  exec := Stmt.send
  apply := Db.apply

/-- A transaction of the application. -/
abbrev Transaction (α : Type) := Tx Stmt Failure α

/-- A statement, as a transaction. -/
def query {α : Type} (s : Stmt α) : Transaction α := Tx.perform s

end InvoiceReservation
