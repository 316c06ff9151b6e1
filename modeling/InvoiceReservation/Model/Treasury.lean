import InvoiceReservation.Model.Services
/-!
# Applying treasury messages

The two apply services of `src/capacity/application` and the two handlers
of `src/treasury/handlers`, from a parsed message on. A handler first
inspects without a lock and then applies under the program's.
-/

namespace InvoiceReservation

open Transactions

/-- `QuarantineReason` and `SnapshotHandleQuarantineReason`. -/
inductive QuarantineReason
  | schemaInvalid
  | unknownProgram
  | currencyMismatch
  | versionConflict
  | missingAckMarker
  | implausibleDelta
  | snapshotInconsistent
  | handlerFailure
  deriving DecidableEq, Repr

/-- `InspectOutcome` and `SnapshotInspectOutcome`, whose `ignored` is
`alreadyApplied`. -/
inductive InspectOutcome
  | proceed
  | alreadyApplied
  | quarantined (reason : QuarantineReason)
  deriving DecidableEq, Repr

/-- `ApplyOutcome` and `SnapshotApplyOutcome`, whose `ignored` is
`alreadyApplied`. -/
inductive ApplyOutcome
  | applied
  | alreadyApplied
  | echoSuppressed
  | quarantined (reason : QuarantineReason)
  deriving DecidableEq, Repr

/-- `HandleOutcome` and `SnapshotHandleOutcome`. -/
inductive HandleOutcome
  | applied
  | skipped
  | quarantined (reason : QuarantineReason)
  deriving DecidableEq, Repr

/-- What a handler makes of an apply. -/
def ApplyOutcome.toHandleOutcome : ApplyOutcome → HandleOutcome
  | .quarantined reason => .quarantined reason
  | .applied => .applied
  | .alreadyApplied => .skipped
  | .echoSuppressed => .skipped

variable [Sha256]

/-! ## Events -/

namespace ApplyTreasuryEventService

/-- `inspect`. -/
def inspect (event : CapacityEvent) : Transaction InspectOutcome := do
  if (← query (.selectMessage event.messageId)).isSome then return .alreadyApplied
  else
    match ← query (.selectProgram (Uuid.ofText event.programId)) with
    | none => return .quarantined .unknownProgram
    | some program =>
      if program.currency ≠ event.payload.currency then return .quarantined .currencyMismatch
      else
        match (← query (.selectMessagesAt (Uuid.ofText event.programId) .event event.version)).head?
        with
        | some existing =>
          if existing.contentHash = capacityEventContentHash event then return .alreadyApplied
          else return .quarantined .versionConflict
        | none => return .proceed

omit [Sha256] in
/-- `buildEntry`. -/
def buildEntry (event : CapacityEvent) (program : ProgramEntity) : PendingLedgerEntry :=
  let actor := "treasury"
  let correlationId := event.correlationId.getD event.messageId
  match event.type with
  | .reservationBooked =>
    { deltaMinor := event.payload.amountMinor
      component := .treasury
      cause := .treasuryEvent
      originReference := some (event.payload.reservationReference.getD event.messageId)
      actor := actor
      correlationId := correlationId }
  | .reservationReleased =>
    { deltaMinor := -event.payload.amountMinor
      component := .treasury
      cause := .treasuryEvent
      originReference := some (event.payload.reservationReference.getD event.messageId)
      actor := actor
      correlationId := correlationId }
  | .limitChanged =>
    { deltaMinor := event.payload.amountMinor - program.creditLimitMinor
      component := .limit
      cause := .limitChange
      originReference := some event.messageId
      actor := actor
      correlationId := correlationId }

/-- The row an event is recorded by. -/
def messageRow (rt : Runtime) (event : CapacityEvent) : ProcessedMessageEntity where
  messageId := event.messageId
  programId := Uuid.ofText event.programId
  kind := .event
  version := event.version
  contentHash := capacityEventContentHash event
  processedAt := rt.now

omit [Sha256] in
/-- The reference an event can be an echo by: only the reservation events
have one. -/
def echoReference (event : CapacityEvent) : Option String :=
  if event.type = .reservationBooked ∨ event.type = .reservationReleased then
    event.payload.reservationReference
  else none

omit [Sha256] in
/-- What an event that is no echo does. -/
def applyEntry (rt : Runtime) (event : CapacityEvent) (coordinates : StreamCoordinates)
    (program : ProgramEntity) : Transaction ApplyOutcome := do
  let result := advancePosition program.toProgramPosition [buildEntry event program] rt.now
  persistAdvance event.programId result rt.now
  query (.advanceAppliedEffectiveAt (Uuid.ofText event.programId) event.effectiveAt)
  query (.upsertStreamPosition (Uuid.ofText event.programId) coordinates rt.now)
  return .applied

omit [Sha256] in
/-- What an echo does. -/
def suppressEcho (rt : Runtime) (event : CapacityEvent) (coordinates : StreamCoordinates)
    (reference : String) : Transaction ApplyOutcome := do
  query (.acknowledgeEcho (Uuid.ofText event.programId) reference event.version rt.now)
  query (.upsertStreamPosition (Uuid.ofText event.programId) coordinates rt.now)
  query (.advanceAppliedEffectiveAt (Uuid.ofText event.programId) event.effectiveAt)
  return .echoSuppressed

omit [Sha256] in
/-- What an event does that has just been recorded. -/
def applyRecorded (rt : Runtime) (event : CapacityEvent) (coordinates : StreamCoordinates)
    (program : ProgramEntity) : Transaction ApplyOutcome := do
  match echoReference event with
  | none => applyEntry rt event coordinates program
  | some reference =>
    if (← query (.selectEcho (Uuid.ofText event.programId) reference)).isEmpty then
      applyEntry rt event coordinates program
    else suppressEcho rt event coordinates reference

/-- What `apply` does once it holds its program's lock. -/
def applyLocked (rt : Runtime) (event : CapacityEvent) (coordinates : StreamCoordinates)
    (program : ProgramEntity) : Transaction ApplyOutcome := do
  if program.currency ≠ event.payload.currency then return .quarantined .currencyMismatch
  else
    match (← query (.selectMessagesAt (Uuid.ofText event.programId) .event event.version)).head?
    with
    | some existing =>
      if existing.messageId = event.messageId then return .alreadyApplied
      else if existing.contentHash = capacityEventContentHash event then return .alreadyApplied
      else return .quarantined .versionConflict
    | none =>
      if ← query (.insertEventMessage (messageRow rt event)) then
        applyRecorded rt event coordinates program
      else return .alreadyApplied

/-- `apply`. -/
def apply (rt : Runtime) (event : CapacityEvent) (coordinates : StreamCoordinates) :
    Transaction ApplyOutcome :=
  withProgramLockOr event.programId (return .quarantined .unknownProgram)
    (applyLocked rt event coordinates)

end ApplyTreasuryEventService

/-- `CapacityEventHandler.handle`, once the event is parsed. -/
def handleCapacityEvent (rt : Runtime) (event : CapacityEvent) (coordinates : StreamCoordinates) :
    Transaction HandleOutcome := do
  match ← ApplyTreasuryEventService.inspect event with
  | .quarantined reason => return .quarantined reason
  | .alreadyApplied => return .skipped
  | .proceed =>
    return (← ApplyTreasuryEventService.apply rt event coordinates).toHandleOutcome

/-! ## Snapshots -/

namespace ApplySnapshotService

/-- `inspect`. -/
def inspect (snapshot : ReconciliationSnapshot) : Transaction InspectOutcome := do
  if (← query (.selectMessage snapshot.messageId)).isSome then return .alreadyApplied
  else
    match ← query (.selectProgram (Uuid.ofText snapshot.programId)) with
    | none => return .quarantined .unknownProgram
    | some program =>
      if program.currency ≠ snapshot.currency then return .quarantined .currencyMismatch
      else if snapshot.version < program.treasuryVersion then return .alreadyApplied
      else if snapshot.version = program.treasuryVersion then
        match (← query
          (.selectMessagesAt (Uuid.ofText snapshot.programId) .snapshot snapshot.version)).head?
        with
        | some existing =>
          if existing.contentHash = reconciliationSnapshotContentHash snapshot then
            return .alreadyApplied
          else return .quarantined .versionConflict
        | none => return .proceed
      else return .proceed

omit [Sha256] in
/-- A row as the policy sees it, from `loadReservations`. -/
def toSnapshotReservation (row : InvoiceReservationEntity) : SnapshotReservation where
  id := row.id
  origin := row.origin
  outstandingReservedMinor := row.outstandingReservedMinor
  treasuryAcknowledged := row.treasuryAcknowledged
  acknowledgedByVersion := row.acknowledgedByVersion
  treasuryReference := row.treasuryReference
  confirmedAt := row.confirmedAt

omit [Sha256] in
/-- `buildEntries`: one entry for each delta that is not zero. -/
def buildEntries (deltas : SnapshotDeltas) (snapshot : ReconciliationSnapshot) :
    List PendingLedgerEntry :=
  let entry := fun (component : PositionComponent) (deltaMinor : Int) =>
    if deltaMinor = 0 then []
    else
      [{ deltaMinor := deltaMinor
         component := component
         cause := .reconciliationAdjustment
         originReference := some snapshot.messageId
         actor := "treasury"
         correlationId := snapshot.correlationId.getD snapshot.messageId : PendingLedgerEntry }]
  entry .treasury deltas.treasury ++ entry .local deltas.local ++ entry .limit deltas.limit

omit [Sha256] in
/-- `exceedsMagnitudeGuard`. -/
def exceedsMagnitudeGuard (rt : Runtime) (deltaTreasury creditLimitMinor : Int) : Bool :=
  let basisPoints : Int := rt.deltaGuardBasisPoints.val
  let magnitude := if deltaTreasury < 0 then -deltaTreasury else deltaTreasury
  magnitude * 10000 > basisPoints * creditLimitMinor

/-- The row a snapshot is recorded by. -/
def messageRow (rt : Runtime) (snapshot : ReconciliationSnapshot) : ProcessedMessageEntity where
  messageId := snapshot.messageId
  programId := Uuid.ofText snapshot.programId
  kind := .snapshot
  version := snapshot.version
  contentHash := reconciliationSnapshotContentHash snapshot
  processedAt := rt.now

omit [Sha256] in
/-- The row a snapshot's marker is kept in. -/
def acknowledgementRow (snapshot : ReconciliationSnapshot) (marker : SnapshotMarker) :
    SnapshotAcknowledgementEntity where
  messageId := snapshot.messageId
  programId := Uuid.ofText snapshot.programId
  version := snapshot.version
  kind := marker.kind
  reservationReferences := marker.reservationReferences
  ingestedThrough := marker.ingestedThrough

/-- The writes of an accepted snapshot. -/
def applyAccepted (rt : Runtime) (snapshot : ReconciliationSnapshot) (marker : SnapshotMarker)
    (coordinates : StreamCoordinates) (program : ProgramEntity)
    (acknowledgedReservationIds : List Uuid) (investigationRequired : Bool)
    (deltas : SnapshotDeltas) : Transaction ApplyOutcome := do
  query (.insertSnapshotMessage (messageRow rt snapshot))
  let result := advancePosition program.toProgramPosition (buildEntries deltas snapshot) rt.now
  -- `set_config('capacity.reconciliation_in_progress', 'on', true)` comes before
  persistAdvance snapshot.programId result rt.now true
  query (.updateTreasuryVersion (Uuid.ofText snapshot.programId) snapshot.version
    snapshot.effectiveAt investigationRequired)
  query (.insertAcknowledgement (acknowledgementRow snapshot marker))
  if acknowledgedReservationIds.length > 0 then
    query (.acknowledgeReservations (Uuid.ofText snapshot.programId) acknowledgedReservationIds
      snapshot.version rt.now)
  query (.upsertStreamPosition (Uuid.ofText snapshot.programId) coordinates rt.now)
  return .applied

/-- What a snapshot does that is new under the lock. -/
def applyNew (rt : Runtime) (snapshot : ReconciliationSnapshot) (marker : SnapshotMarker)
    (coordinates : StreamCoordinates) (program : ProgramEntity) : Transaction ApplyOutcome := do
  let rows ← query (.selectReservations (Uuid.ofText snapshot.programId))
  match applySnapshotPolicy program.toProgramPosition snapshot.version snapshot.reservedMinor
    snapshot.creditLimitMinor marker (rows.map toSnapshotReservation) with
  | .refuse => return .quarantined .snapshotInconsistent
  | .apply acknowledgedReservationIds investigationRequired deltas =>
    if exceedsMagnitudeGuard rt deltas.treasury program.creditLimitMinor then
      return .quarantined .implausibleDelta
    else
      applyAccepted rt snapshot marker coordinates program acknowledgedReservationIds
        investigationRequired deltas

/-- What `apply` does once it holds its program's lock. -/
def applyLocked (rt : Runtime) (snapshot : ReconciliationSnapshot) (marker : SnapshotMarker)
    (coordinates : StreamCoordinates) (program : ProgramEntity) : Transaction ApplyOutcome := do
  if program.currency ≠ snapshot.currency then return .quarantined .currencyMismatch
  else if (← query (.selectMessage snapshot.messageId)).isSome then return .alreadyApplied
  else
    match (← query
      (.selectMessagesAt (Uuid.ofText snapshot.programId) .snapshot snapshot.version)).head?
    with
    | some existing =>
      if existing.messageId = snapshot.messageId then return .alreadyApplied
      else if existing.contentHash = reconciliationSnapshotContentHash snapshot then
        return .alreadyApplied
      else return .quarantined .versionConflict
    | none =>
      if snapshot.version < program.treasuryVersion then return .alreadyApplied
      else applyNew rt snapshot marker coordinates program

/-- `apply`. -/
def apply (rt : Runtime) (snapshot : ReconciliationSnapshot) (coordinates : StreamCoordinates) :
    Transaction ApplyOutcome :=
  match snapshot.acknowledgement with
  | none => return .quarantined .missingAckMarker
  | some marker =>
    withProgramLockOr snapshot.programId (return .quarantined .unknownProgram)
      (applyLocked rt snapshot marker coordinates)

end ApplySnapshotService

/-- `ReconciliationSnapshotHandler.handle`, once the snapshot is parsed. -/
def handleReconciliationSnapshot (rt : Runtime) (snapshot : ReconciliationSnapshot)
    (coordinates : StreamCoordinates) : Transaction HandleOutcome := do
  match ← ApplySnapshotService.inspect snapshot with
  | .quarantined reason => return .quarantined reason
  | .alreadyApplied => return .skipped
  | .proceed =>
    if snapshot.acknowledgement.isNone then return .quarantined .missingAckMarker
    else return (← ApplySnapshotService.apply rt snapshot coordinates).toHandleOutcome

end InvoiceReservation
