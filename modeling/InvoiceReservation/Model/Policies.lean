import InvoiceReservation.Model.Program
/-!
# The policies

`src/capacity/domain/policies`: what a reserve, a release, a cancel and a
snapshot come to, decided on plain data.
-/

namespace InvoiceReservation

/-! ## Reserve -/

/-- `FxRate`: a rate as the provider resolves it. Both providers scale the
text they carry. -/
structure FxRate where
  scaledRate : Int
  rate : String
  effectiveAt : Timestamp
  source : String
  scaled : scaleRate rate = .ok scaledRate
  deriving DecidableEq

/-- `FxResolution`. -/
inductive FxResolution
  | sameCurrency
  | rate (rate : FxRate)
  | unavailable

/-- `ReserveDecision`. -/
inductive ReserveDecision
  | accepted (reservedMinor : Int) (fx : Option FxRate)
  | refused (code : RefusalCode) (details : List (String × String))

/-- The end of `decideReservation`: an amount against what is available. -/
def decideCapacity (program : ProgramPosition) (reservedMinor : Int) (fx : Option FxRate) :
    ReserveDecision :=
  let availableMinor := available program
  if reservedMinor > availableMinor then
    .refused .insufficientCapacity
      [("requestedMinor", toString reservedMinor), ("availableMinor", toString availableMinor)]
  else .accepted reservedMinor fx

/-- `decideReservation`. -/
def decideReservation (program : ProgramPosition) (invoiceAmountMinor : Int)
    (fx : FxResolution) : Except TypeError ReserveDecision :=
  if program.positionVerified = false then .ok (.refused .positionUnverified [])
  else if isOverLimit program then .ok (.refused .programOverLimit [])
  else
    match fx with
    | .unavailable => .ok (.refused .fxRateUnavailable [])
    | .sameCurrency => .ok (decideCapacity program invoiceAmountMinor none)
    | .rate rate =>
      match money invoiceAmountMinor program.currency with
      | .error e => .error e
      | .ok amount =>
        match convert amount program.currency rate.scaledRate with
        | .error e => .error e
        | .ok .roundsToZero => .ok (.refused .amountRoundsToZero [])
        | .ok (.converted converted) => .ok (decideCapacity program converted.minor (some rate))

/-! ## Release and cancel -/

/-- `ReservationStatus`. -/
inductive ReservationStatus
  | active
  | partiallyReleased
  | fullyReleased
  | cancelled
  | writtenOff
  deriving DecidableEq, Repr

/-- `TERMINAL_STATUSES`. -/
def terminalStatuses : List ReservationStatus := [.fullyReleased, .cancelled, .writtenOff]

/-- `ReservationSnapshot`. -/
structure ReservationSnapshot where
  invoiceCurrency : String
  programCurrency : String
  outstandingInvoiceMinor : Int
  outstandingReservedMinor : Int
  status : ReservationStatus
  deriving DecidableEq, Repr

/-- `ReleaseDecision`. -/
structure ReleaseDecision where
  deltaMinor : Int
  outstandingInvoiceMinor : Int
  outstandingReservedMinor : Int
  status : ReservationStatus
  deriving DecidableEq, Repr

/-- What a conversion leaves reserved. -/
def ConversionOutcome.minor : ConversionOutcome → Int
  | .converted amount => amount.minor
  | .roundsToZero => 0

/-- `releasePolicy`. The capacity returned is the difference between the
converted invoice before and after, so the remainder stays the converted
invoice; a remainder worth nothing is settled in full. -/
def releasePolicy (releaseMinor : Int) (releaseCurrency : String)
    (reservation : ReservationSnapshot) (scaledRate : Int) :
    Except TypeError (Except RefusalCode ReleaseDecision) := do
  if releaseMinor ≤ 0 then return .error .invalidAmount
  if releaseCurrency ≠ reservation.invoiceCurrency then return .error .currencyMismatch
  if reservation.status ∈ terminalStatuses then return .error .reservationTerminal
  if releaseMinor > reservation.outstandingInvoiceMinor then return .error .releaseExceedsReserved
  let releaseConversion ←
    convert (← money releaseMinor releaseCurrency) reservation.programCurrency scaledRate
  if releaseConversion = .roundsToZero then return .error .amountRoundsToZero
  let outstandingInvoiceMinor := reservation.outstandingInvoiceMinor - releaseMinor
  let remainderConversion ←
    convert (← money outstandingInvoiceMinor reservation.programCurrency)
      reservation.programCurrency scaledRate
  let remainderReservedMinor := remainderConversion.minor
  let deltaMinor := reservation.outstandingReservedMinor - remainderReservedMinor
  if deltaMinor < 0 then return .error .releaseExceedsReserved
  if deltaMinor = 0 then return .error .amountRoundsToZero
  if remainderReservedMinor = 0 then return .ok ⟨deltaMinor, 0, 0, .fullyReleased⟩
  return .ok ⟨deltaMinor, outstandingInvoiceMinor, remainderReservedMinor,
    if outstandingInvoiceMinor = 0 then .fullyReleased else .partiallyReleased⟩

/-- `CancelDecision`. -/
structure CancelDecision where
  deltaMinor : Int
  cause : LedgerCause
  status : ReservationStatus
  deriving DecidableEq, Repr

/-- `cancelPolicy`. -/
def cancelPolicy (reservation : ReservationSnapshot) : Except RefusalCode CancelDecision :=
  if reservation.status ∈ terminalStatuses then .error .reservationTerminal
  else if reservation.status = .partiallyReleased then
    .ok ⟨reservation.outstandingReservedMinor, .writeOff, .writtenOff⟩
  else .ok ⟨reservation.outstandingReservedMinor, .cancellation, .cancelled⟩

/-! ## Snapshots -/

/-- `AcknowledgementKind`. -/
inductive AcknowledgementKind
  | explicit
  | watermark
  deriving DecidableEq, Repr

/-- `SnapshotMarker`, and `SnapshotMarkerInput`, which has the same fields. -/
structure SnapshotMarker where
  kind : AcknowledgementKind
  reservationReferences : Option (List String)
  ingestedThrough : Option Timestamp
  deriving DecidableEq, Repr

/-- Where a reservation comes from. -/
inductive ReservationOrigin
  | local
  | treasury
  deriving DecidableEq, Repr

/-- `SnapshotReservation`. -/
structure SnapshotReservation where
  id : Uuid
  origin : ReservationOrigin
  outstandingReservedMinor : Int
  treasuryAcknowledged : Bool
  acknowledgedByVersion : Option Int
  treasuryReference : Option String
  confirmedAt : Timestamp
  deriving DecidableEq, Repr

/-- `SnapshotDeltas`. -/
structure SnapshotDeltas where
  treasury : Int
  «local» : Int
  limit : Int
  deriving DecidableEq, Repr

/-- `SnapshotDecision`. -/
inductive SnapshotDecision
  | apply (acknowledgedReservationIds : List Uuid) (investigationRequired : Bool)
      (deltas : SnapshotDeltas)
  | refuse
  deriving DecidableEq, Repr

/-- `markerMatches`. -/
def markerMatches (marker : SnapshotMarker) (reservation : SnapshotReservation) : Bool :=
  match marker.kind with
  | .explicit =>
    match reservation.treasuryReference with
    | none => false
    | some reference => (marker.reservationReferences.getD []).contains reference
  | .watermark =>
    match marker.ingestedThrough with
    | none => false
    | some through => reservation.confirmedAt ≤ through

/-- Whether a snapshot's marker acknowledges a reservation now: it matches,
and no snapshot as new has acknowledged it before. -/
def marks (marker : SnapshotMarker) (version : Int) (reservation : SnapshotReservation) : Bool :=
  markerMatches marker reservation &&
    match reservation.acknowledgedByVersion with
    | none => true
    | some acknowledgedBy => acknowledgedBy < version

/-- A reservation after the marker. -/
def marked (marker : SnapshotMarker) (version : Int) (reservation : SnapshotReservation) :
    SnapshotReservation :=
  if marks marker version reservation then
    { reservation with treasuryAcknowledged := true, acknowledgedByVersion := some version }
  else reservation

/-- The sum of what the LOCAL reservations among some hold. -/
def localOutstanding (reservations : List SnapshotReservation) : Int :=
  ((reservations.filter (·.origin = .local)).map (·.outstandingReservedMinor)).sum

/-- The sum of what the acknowledged LOCAL ones hold. -/
def acknowledgedOutstanding (reservations : List SnapshotReservation) : Int :=
  localOutstanding (reservations.filter (·.treasuryAcknowledged))

/-- `applySnapshotPolicy`: the marker first, then the sums. -/
def applySnapshotPolicy (program : ProgramPosition) (version reservedMinor creditLimitMinor : Int)
    (marker : SnapshotMarker) (reservations : List SnapshotReservation) : SnapshotDecision :=
  let acknowledged := reservations.filter (marks marker version)
  let afterMarker := reservations.map (marked marker version)
  let targetTreasury := reservedMinor - acknowledgedOutstanding afterMarker
  if targetTreasury < 0 then .refuse
  else
    let targetLocal := localOutstanding afterMarker
    .apply (acknowledged.map (·.id)) (targetLocal != program.localReservedMinor)
      ⟨targetTreasury - program.treasuryReservedMinor, targetLocal - program.localReservedMinor,
        creditLimitMinor - program.creditLimitMinor⟩

end InvoiceReservation
