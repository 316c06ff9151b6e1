import InvoiceReservation.Model.Statements
/-!
# Reserve, release and cancel

`src/capacity/application`, the three writes of the HTTP API, over the
unit of work, the program repository and the idempotency service. Each is
one transaction that holds its program's row from its first statement to
its last.
-/

namespace InvoiceReservation

open Transactions

/-- What a call reads besides the database: the clock, the next generated
id, the rate provider, the stream-lag registry, and the configured guard
on snapshots in basis points. -/
structure Runtime where
  now : Timestamp
  generatedId : Uuid
  rateFor : String → String → Timestamp → Except TypeError (Option FxRate)
  newestObservedFor : Uuid → Option Timestamp
  deltaGuardBasisPoints : Fin 10001

/-- A thrown error. -/
def throwFailure {α : Type} (failure : Failure) : Transaction α := Tx.throw failure

/-- A thrown `CapacityRefusal`. -/
def refuse {α : Type} (code : RefusalCode) (details : List (String × String) := []) :
    Transaction α :=
  throwFailure (.refusal code details)

/-- A value, or the `TypeError` its computation throws. -/
def orTypeError {α : Type} : Except TypeError α → Transaction α
  | .ok a => pure a
  | .error e => throwFailure (.typeError e)

/-! ## The unit of work -/

/-- `withProgramLock`, with what its caller makes of a `ProgramNotFoundError`.
Nothing has been written when it is thrown. -/
def withProgramLockOr {α : Type} (programId : String) (notFound : Transaction α)
    (fn : ProgramEntity → Transaction α) : Transaction α := do
  match ← query (.lockProgram (Uuid.ofText programId)) with
  | none => notFound
  | some program => fn program

/-- `withProgramLock`. -/
def withProgramLock {α : Type} (programId : String) (fn : ProgramEntity → Transaction α) :
    Transaction α :=
  withProgramLockOr programId (throwFailure (.programNotFound programId)) fn

/-- `persistAdvance`. -/
def persistAdvance (programId : String) (result : AdvanceResult) (now : Timestamp)
    (reconciliationInProgress : Bool := false) : Transaction Unit := do
  if result.entries.length > 0 then
    query (.insertLedger (Uuid.ofText programId) result.entries now)
  query (.updatePosition (Uuid.ofText programId) result.program now reconciliationInProgress)

/-! ## Idempotency -/

/-- `RequestIdentity`. -/
structure RequestIdentity where
  organisationId : Uuid
  requestId : String
  operation : RequestOperation
  fingerprint : String

/-- `IdempotencyDecision`. -/
inductive IdempotencyDecision
  | proceed
  | replay (outcome : WriteBody)
  | refused (code : RefusalCode)

/-- What a record says to a request that finds it. -/
def decideReplay (identity : RequestIdentity) (row : RequestRecordEntity) :
    Except Failure IdempotencyDecision :=
  if row.operation ≠ identity.operation ∨ row.contentFingerprint ≠ identity.fingerprint then
    .ok (.refused .idempotencyConflict)
  else
    match row.state with
    | .pending => .ok (.refused .requestInFlight)
    | .expired => .ok (.refused .idempotencyExpired)
    | .complete =>
      match row.outcome with
      | none => .error (.error
        "request_record is COMPLETE without an outcome; the state/outcome constraint was violated")
      | some outcome => .ok (.replay outcome)

/-- `IdempotencyService.begin`. -/
def beginRequest (identity : RequestIdentity) (now : Timestamp) :
    Transaction IdempotencyDecision := do
  if ← query (.insertRequest identity.organisationId identity.requestId identity.operation
      identity.fingerprint now) then
    return .proceed
  else
    match ← query (.selectRequest identity.organisationId identity.requestId) with
    | none => throwFailure (.error "request_record row vanished during idempotency lookup")
    | some row =>
      match decideReplay identity row with
      | .error failure => throwFailure failure
      | .ok decision => return decision

/-- `IdempotencyService.complete`. -/
def completeRequest (identity : RequestIdentity) (outcome : WriteBody) : Transaction Unit :=
  query (.completeRequest identity.organisationId identity.requestId outcome)

/-- `ReserveOutcome`, `ReleaseOutcome` and `CancelOutcome`. -/
structure WriteOutcome where
  created : Bool
  body : WriteBody
  deriving DecidableEq, Repr

/-- The head of each write: an identity that is new goes on, one that has
its answer is answered, and every other is refused. -/
def withIdempotency (identity : RequestIdentity) (now : Timestamp)
    (proceed : Transaction WriteOutcome) : Transaction WriteOutcome := do
  match ← beginRequest identity now with
  | .refused code => refuse code
  | .replay outcome => return ⟨false, outcome⟩
  | .proceed => proceed

/-- The body a write answers with. The program is the one that was locked,
with the advanced position. -/
def writeBody (rt : Runtime) (program : ProgramEntity) (position : ProgramPosition)
    (row : InvoiceReservationEntity) : WriteBody where
  reservation := toReservationBody row
  availability :=
    toAvailabilityBody { program with toProgramPosition := position, positionChangedAt := rt.now }
      false (rt.newestObservedFor position.id)

variable [Sha256]

/-! ## Reserve -/

/-- `ReserveCommand`. The invoice is a string of the body, which may hold an
unpaired surrogate. -/
structure ReserveCommand where
  organisationId : Uuid
  programId : String
  requestId : String
  invoiceId : List ℕ
  amountMinor : Int
  currency : String
  actor : String
  correlationId : String
  deriving DecidableEq, Repr

omit [Sha256] in
/-- The invoice as it is written to the database. -/
def ReserveCommand.invoiceText (command : ReserveCommand) : String := Utf.text command.invoiceId

/-- The identity of a reserve. -/
def ReserveCommand.identity (command : ReserveCommand) : RequestIdentity where
  organisationId := command.organisationId
  requestId := command.requestId
  operation := .reserve
  fingerprint := reserveFingerprint (Utf.units command.programId) command.invoiceId
    (Utf.units (toString command.amountMinor)) (Utf.units command.currency)

omit [Sha256] in
/-- The ledger entry of a reserve. -/
def ReserveCommand.entry (command : ReserveCommand) (reservedMinor : Int) :
    PendingLedgerEntry where
  deltaMinor := reservedMinor
  component := .local
  cause := .reservation
  originReference := some command.invoiceText
  actor := command.actor
  correlationId := command.correlationId

omit [Sha256] in
/-- The rate a reserve asks for, where its currency is not the program's. -/
def resolveFx (rt : Runtime) (command : ReserveCommand) (program : ProgramEntity) :
    Except TypeError FxResolution :=
  if command.currency = program.currency then .ok .sameCurrency
  else
    match rt.rateFor command.currency program.currency rt.now with
    | .error e => .error e
    | .ok none => .ok .unavailable
    | .ok (some rate) => .ok (.rate rate)

/-- The writes of an accepted reserve. -/
def acceptReservation (rt : Runtime) (command : ReserveCommand) (program : ProgramEntity)
    (reservedMinor : Int) (fx : Option FxRate) : Transaction WriteOutcome := do
  let row ← query (.insertReservation rt.generatedId (Uuid.ofText command.programId)
    command.invoiceText command.amountMinor command.currency program.currency reservedMinor fx
    rt.now)
  let result := advancePosition program.toProgramPosition [command.entry reservedMinor] rt.now
  persistAdvance command.programId result rt.now
  let body := writeBody rt program result.program row
  completeRequest command.identity body
  return ⟨true, body⟩

/-- A reserve that is new. -/
def proceedReserve (rt : Runtime) (command : ReserveCommand) (program : ProgramEntity) :
    Transaction WriteOutcome := do
  if ← query (.selectDuplicate (Uuid.ofText command.programId) command.invoiceText) then
    refuse .duplicateInvoice
  else
    let fx ← orTypeError (resolveFx rt command program)
    match ← orTypeError
      (decideReservation program.toProgramPosition command.amountMinor fx) with
    | .refused code details => refuse code details
    | .accepted reservedMinor fx => acceptReservation rt command program reservedMinor fx

/-- `ReserveService.reserve`. -/
def reserve (rt : Runtime) (command : ReserveCommand) : Transaction WriteOutcome :=
  withProgramLock command.programId fun program =>
    withIdempotency command.identity rt.now (proceedReserve rt command program)

/-! ## Release -/

omit [Sha256] in
/-- The domain view of a row. -/
def InvoiceReservationEntity.snapshot (row : InvoiceReservationEntity) : ReservationSnapshot where
  invoiceCurrency := row.invoiceCurrency
  programCurrency := row.programCurrency
  outstandingInvoiceMinor := row.outstandingInvoiceMinor
  outstandingReservedMinor := row.outstandingReservedMinor
  status := row.status

/-- `ReleaseCommand`. The invoice is the route's, a text. -/
structure ReleaseCommand where
  organisationId : Uuid
  programId : String
  requestId : String
  invoiceId : String
  releaseMinor : Int
  currency : String
  actor : String
  correlationId : String
  deriving DecidableEq, Repr

/-- The identity of a release, under the fingerprint of a reserve. -/
def ReleaseCommand.identity (command : ReleaseCommand) : RequestIdentity where
  organisationId := command.organisationId
  requestId := command.requestId
  operation := .release
  fingerprint := reserveFingerprint (Utf.units command.programId) (Utf.units command.invoiceId)
    (Utf.units (toString command.releaseMinor)) (Utf.units command.currency)

omit [Sha256] in
/-- The ledger entry of a release, which negates the capacity returned. -/
def ReleaseCommand.entry (command : ReleaseCommand) (applied : ReleaseDecision) :
    PendingLedgerEntry where
  deltaMinor := -applied.deltaMinor
  component := .local
  cause := .release
  originReference := some command.invoiceId
  actor := command.actor
  correlationId := command.correlationId

/-- The writes of an accepted release. -/
def acceptRelease (rt : Runtime) (command : ReleaseCommand) (program : ProgramEntity)
    (row : InvoiceReservationEntity) (applied : ReleaseDecision) : Transaction WriteOutcome := do
  let result := advancePosition program.toProgramPosition [command.entry applied] rt.now
  persistAdvance command.programId result rt.now
  query (.releaseReservation (Uuid.ofText command.programId) command.invoiceId
    applied.outstandingInvoiceMinor applied.outstandingReservedMinor applied.status rt.now)
  let updatedRow := { row with
    outstandingInvoiceMinor := applied.outstandingInvoiceMinor
    outstandingReservedMinor := applied.outstandingReservedMinor
    status := applied.status }
  let body := writeBody rt program result.program updatedRow
  completeRequest command.identity body
  return ⟨true, body⟩

/-- A release that is new. -/
def proceedRelease (rt : Runtime) (command : ReleaseCommand) (program : ProgramEntity) :
    Transaction WriteOutcome := do
  if program.positionVerified = false then refuse .positionUnverified
  else
    match ← query (.lockReservation (Uuid.ofText command.programId) command.invoiceId) with
    | none => refuse .notFound
    | some row =>
      -- the rate recorded on the row, never a new one
      let scaledRate ← orTypeError (scaleRate ((row.fxRate.map numericText).getD "1.0"))
      match ← orTypeError
        (releasePolicy command.releaseMinor command.currency row.snapshot scaledRate) with
      | .error code => refuse code
      | .ok applied => acceptRelease rt command program row applied

/-- `ReleaseService.release`. -/
def release (rt : Runtime) (command : ReleaseCommand) : Transaction WriteOutcome :=
  withProgramLock command.programId fun program =>
    withIdempotency command.identity rt.now (proceedRelease rt command program)

/-! ## Cancel -/

/-- The reason a cancellation gives. -/
inductive CancelReason
  | cancelled
  | writtenOff
  deriving DecidableEq, Repr

omit [Sha256] in
/-- The text of a reason. -/
def CancelReason.text : CancelReason → String
  | .cancelled => "CANCELLED"
  | .writtenOff => "WRITTEN_OFF"

/-- `CancelCommand`. The note is a string of the body. -/
structure CancelCommand where
  organisationId : Uuid
  programId : String
  requestId : String
  invoiceId : String
  reason : CancelReason
  note : Option (List ℕ)
  actor : String
  correlationId : String
  deriving DecidableEq, Repr

/-- The identity of a cancellation. -/
def CancelCommand.identity (command : CancelCommand) : RequestIdentity where
  organisationId := command.organisationId
  requestId := command.requestId
  operation := .cancel
  fingerprint := cancelFingerprint (Utf.units command.programId) (Utf.units command.invoiceId)
    (Utf.units command.reason.text) (command.note.getD [])

omit [Sha256] in
/-- The ledger entry of a cancellation. -/
def CancelCommand.entry (command : CancelCommand) (applied : CancelDecision) :
    PendingLedgerEntry where
  deltaMinor := -applied.deltaMinor
  component := .local
  cause := applied.cause
  originReference := some command.invoiceId
  actor := command.actor
  correlationId := command.correlationId

/-- The writes of an accepted cancellation. -/
def acceptCancel (rt : Runtime) (command : CancelCommand) (program : ProgramEntity)
    (row : InvoiceReservationEntity) (applied : CancelDecision) : Transaction WriteOutcome := do
  let result := advancePosition program.toProgramPosition [command.entry applied] rt.now
  persistAdvance command.programId result rt.now
  query (.cancelReservation (Uuid.ofText command.programId) command.invoiceId 0 applied.status
    rt.now)
  let updatedRow := { row with outstandingReservedMinor := 0, status := applied.status }
  let body := writeBody rt program result.program updatedRow
  completeRequest command.identity body
  return ⟨true, body⟩

/-- A cancellation that is new. -/
def proceedCancel (rt : Runtime) (command : CancelCommand) (program : ProgramEntity) :
    Transaction WriteOutcome := do
  if program.positionVerified = false then refuse .positionUnverified
  else
    match ← query (.lockReservation (Uuid.ofText command.programId) command.invoiceId) with
    | none => refuse .notFound
    | some row =>
      match cancelPolicy row.snapshot with
      | .error code => refuse code
      | .ok applied => acceptCancel rt command program row applied

/-- `CancelService.cancel`. -/
def cancel (rt : Runtime) (command : CancelCommand) : Transaction WriteOutcome :=
  withProgramLock command.programId fun program =>
    withIdempotency command.identity rt.now (proceedCancel rt command program)

end InvoiceReservation
