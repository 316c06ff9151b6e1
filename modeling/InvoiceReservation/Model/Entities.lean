import InvoiceReservation.Model.Messages
/-!
# Rows and response bodies

`src/capacity/infrastructure/entities` and the two projections. A request
record keeps the body it answered with, so the bodies come first. The id
of a ledger entry is left out: nothing reads it.
-/

namespace InvoiceReservation

/-- `ProgramEntity`, and `ProgramRow`. -/
structure ProgramEntity extends ProgramPosition where
  organisationId : Uuid
  treasuryVersion : Int
  treasuryEffectiveAt : Option Timestamp
  treasuryAppliedEffectiveAt : Option Timestamp
  positionChangedAt : Timestamp
  deriving DecidableEq, Repr

/-- `InvoiceReservationEntity`. `fxRate` is the value of the `numeric(20,10)`
column times `rateScale`. -/
structure InvoiceReservationEntity where
  id : Uuid
  programId : Uuid
  invoiceId : String
  invoiceAmountMinor : Int
  invoiceCurrency : String
  programCurrency : String
  reservedMinor : Int
  outstandingInvoiceMinor : Int
  outstandingReservedMinor : Int
  fxRate : Option Int
  fxRateEffectiveAt : Option Timestamp
  fxRateSource : Option String
  status : ReservationStatus
  origin : ReservationOrigin
  treasuryAcknowledged : Bool
  acknowledgedByVersion : Option Int
  treasuryReference : Option String
  confirmedAt : Timestamp
  createdAt : Timestamp
  updatedAt : Timestamp
  deriving DecidableEq, Repr

/-- `CapacityLedgerEntryEntity`. -/
structure CapacityLedgerEntryEntity extends SequencedLedgerEntry where
  programId : Uuid
  occurredAt : Timestamp
  deriving DecidableEq, Repr

/-- The text of a `numeric(20,10)`. -/
def numericText (scaled : Int) : String :=
  (if scaled < 0 then "-" else "") ++ toString (scaled.natAbs / 10 ^ 10) ++ "." ++
    padStart 10 (scaled.natAbs % 10 ^ 10)

/-! ## Bodies -/

/-- `MoneyBody`. -/
structure MoneyBody where
  amountMinor : Int
  currency : String
  deriving DecidableEq, Repr

/-- `ReservationFxBody`. -/
structure ReservationFxBody where
  rate : String
  effectiveAt : Timestamp
  source : String
  deriving DecidableEq, Repr

/-- `ReservationBody`. -/
structure ReservationBody where
  invoiceId : String
  programId : Uuid
  status : ReservationStatus
  invoiceAmount : MoneyBody
  reserved : MoneyBody
  outstandingInvoice : MoneyBody
  outstandingReserved : MoneyBody
  fx : Option ReservationFxBody
  createdAt : Timestamp
  deriving DecidableEq, Repr

/-- `toReservationBody`. -/
def toReservationBody (row : InvoiceReservationEntity) : ReservationBody where
  invoiceId := row.invoiceId
  programId := row.programId
  status := row.status
  invoiceAmount := ⟨row.invoiceAmountMinor, row.invoiceCurrency⟩
  reserved := ⟨row.reservedMinor, row.programCurrency⟩
  outstandingInvoice := ⟨row.outstandingInvoiceMinor, row.invoiceCurrency⟩
  outstandingReserved := ⟨row.outstandingReservedMinor, row.programCurrency⟩
  fx :=
    match row.fxRate, row.fxRateEffectiveAt, row.fxRateSource with
    | some rate, some effectiveAt, some source => some ⟨numericText rate, effectiveAt, source⟩
    | _, _, _ => none
  createdAt := row.createdAt

/-- `AvailabilityBody`. -/
structure AvailabilityBody where
  programId : Uuid
  currency : String
  creditLimit : MoneyBody
  reservedTotal : MoneyBody
  reservedLocal : MoneyBody
  reservedTreasury : MoneyBody
  available : MoneyBody
  positionVerified : Bool
  investigationRequired : Bool
  reconciliationPending : Bool
  overLimitActive : Bool
  overLimitSince : Option Timestamp
  positionChangedAt : Timestamp
  appliedVersion : Int
  effectiveAt : Option Timestamp
  lagSeconds : Option Int
  deriving DecidableEq, Repr

/-- `lagSecondsFor`: whole seconds, or `none` where one side is unknown. -/
def lagSecondsFor : Option Timestamp → Option Timestamp → Option Int
  | some appliedEffectiveAt, some newestObservedEffectiveAt =>
    let deltaMs := newestObservedEffectiveAt / 1000 - appliedEffectiveAt / 1000
    some (if deltaMs ≤ 0 then 0 else deltaMs / 1000)
  | _, _ => none

/-- `toAvailabilityBody`. -/
def toAvailabilityBody (program : ProgramEntity) (reconciliationPending : Bool)
    (newestObservedEffectiveAt : Option Timestamp) : AvailabilityBody :=
  let money := fun (amountMinor : Int) => MoneyBody.mk amountMinor program.currency
  { programId := program.id
    currency := program.currency
    creditLimit := money program.creditLimitMinor
    reservedTotal := money (totalReserved program.toProgramPosition)
    reservedLocal := money program.localReservedMinor
    reservedTreasury := money program.treasuryReservedMinor
    available := money (available program.toProgramPosition)
    positionVerified := program.positionVerified
    investigationRequired := program.investigationRequired
    reconciliationPending := reconciliationPending
    overLimitActive := isOverLimit program.toProgramPosition
    overLimitSince := program.overLimitSince
    positionChangedAt := program.positionChangedAt
    appliedVersion := program.treasuryVersion
    effectiveAt := program.treasuryEffectiveAt
    lagSeconds := lagSecondsFor program.treasuryAppliedEffectiveAt newestObservedEffectiveAt }

/-- `ReserveBody`, `ReleaseBody` and `CancelBody`, which have the same fields. -/
structure WriteBody where
  reservation : ReservationBody
  availability : AvailabilityBody
  deriving DecidableEq, Repr

/-! ## Requests and messages -/

/-- The operation of a request. -/
inductive RequestOperation
  | reserve
  | release
  | cancel
  deriving DecidableEq, Repr

/-- `request_state`. -/
inductive RequestState
  | pending
  | complete
  | expired
  deriving DecidableEq, Repr

/-- `RequestRecordEntity`. -/
structure RequestRecordEntity where
  organisationId : Uuid
  requestId : String
  operation : RequestOperation
  contentFingerprint : String
  state : RequestState
  outcome : Option WriteBody
  recordedAt : Timestamp
  deriving DecidableEq, Repr

/-- `message_kind`. -/
inductive MessageKind
  | event
  | snapshot
  deriving DecidableEq, Repr

/-- `ProcessedMessageEntity`. -/
structure ProcessedMessageEntity where
  messageId : String
  programId : Uuid
  kind : MessageKind
  version : Int
  contentHash : String
  processedAt : Timestamp
  deriving DecidableEq, Repr

/-- `SnapshotAcknowledgementEntity`. -/
structure SnapshotAcknowledgementEntity where
  messageId : String
  programId : Uuid
  version : Int
  kind : AcknowledgementKind
  reservationReferences : Option (List String)
  ingestedThrough : Option Timestamp
  deriving DecidableEq, Repr

/-- A row of `program_stream_position`. -/
structure ProgramStreamPosition where
  programId : Uuid
  topic : String
  partition : Int
  offset : Int
  updatedAt : Timestamp
  deriving DecidableEq, Repr

end InvoiceReservation
