import InvoiceReservation.Model.Money
/-!
# Programs, ledger entries and the advance

`src/capacity/domain`: a program's cached position, the entries of its
ledger, and `advancePosition`, the one place a position moves. An advance
gives every entry it is asked for the next sequence, adds its delta to
its component, and closes with a marker where the program's total crosses
its limit.
-/

namespace InvoiceReservation

/-- A `uuid` column's value. -/
abbrev Uuid := BitVec 128

/-- The value of a UUID's text: its hex digits in either case, the dashes
passed over. -/
def Uuid.ofText (text : String) : Uuid :=
  text.toList.foldl (fun acc c =>
    if '0' ≤ c && c ≤ '9' then acc * 16 + BitVec.ofNat 128 (c.toNat - 48)
    else if 'a' ≤ c && c ≤ 'f' then acc * 16 + BitVec.ofNat 128 (c.toNat - 87)
    else if 'A' ≤ c && c ≤ 'F' then acc * 16 + BitVec.ofNat 128 (c.toNat - 55)
    else acc) 0

/-- An instant, in the microseconds of a `timestamptz`. A `Date` is one at
a whole millisecond. -/
abbrev Timestamp := Int

/-- `PositionComponent`. -/
inductive PositionComponent
  | local
  | treasury
  | limit
  deriving DecidableEq, Repr

/-- `LedgerCause`. -/
inductive LedgerCause
  | reservation
  | release
  | cancellation
  | writeOff
  | treasuryEvent
  | limitChange
  | reconciliationAdjustment
  | overLimitOnset
  | overLimitCleared
  deriving DecidableEq, Repr

/-- `PendingLedgerEntry`: an entry as a caller asks for it. -/
structure PendingLedgerEntry where
  deltaMinor : Int
  component : PositionComponent
  cause : LedgerCause
  originReference : Option String
  actor : String
  correlationId : String
  deriving DecidableEq, Repr

/-- `SequencedLedgerEntry`: an entry with its sequence in the program. -/
structure SequencedLedgerEntry extends PendingLedgerEntry where
  sequence : Int
  deriving DecidableEq, Repr

/-- `ProgramPosition`. -/
structure ProgramPosition where
  id : Uuid
  currency : String
  creditLimitMinor : Int
  localReservedMinor : Int
  treasuryReservedMinor : Int
  nextSequence : Int
  overLimitSince : Option Timestamp
  investigationRequired : Bool
  positionVerified : Bool
  deriving DecidableEq, Repr

/-- `totalReserved`. -/
def totalReserved (p : ProgramPosition) : Int := p.localReservedMinor + p.treasuryReservedMinor

/-- `available`. -/
def available (p : ProgramPosition) : Int := p.creditLimitMinor - totalReserved p

/-- `isOverLimit`. -/
def isOverLimit (p : ProgramPosition) : Bool := totalReserved p > p.creditLimitMinor

/-! ## The advance -/

/-- `AdvanceResult`. -/
structure AdvanceResult where
  program : ProgramPosition
  entries : List SequencedLedgerEntry
  deriving DecidableEq, Repr

/-- One turn of the loop: the entry takes the next sequence and moves its
component. -/
def advanceEntry (acc : AdvanceResult) (pending : PendingLedgerEntry) : AdvanceResult where
  program :=
    match pending.component with
    | .local =>
      { acc.program with
        nextSequence := acc.program.nextSequence + 1
        localReservedMinor := acc.program.localReservedMinor + pending.deltaMinor }
    | .treasury =>
      { acc.program with
        nextSequence := acc.program.nextSequence + 1
        treasuryReservedMinor := acc.program.treasuryReservedMinor + pending.deltaMinor }
    | .limit =>
      { acc.program with
        nextSequence := acc.program.nextSequence + 1
        creditLimitMinor := acc.program.creditLimitMinor + pending.deltaMinor }
  entries := acc.entries ++ [{ pending with sequence := acc.program.nextSequence }]

/-- The marker an advance closes with. -/
def overLimitMarker (cause : LedgerCause) (correlationId : String) : PendingLedgerEntry where
  deltaMinor := 0
  component := .limit
  cause := cause
  originReference := none
  actor := "system"
  correlationId := correlationId

/-- The correlation the marker carries: that of the last entry. -/
def closingCorrelationId (entries : List PendingLedgerEntry) : String :=
  match entries.getLast? with
  | none => "system"
  | some lastEntry => lastEntry.correlationId

/-- `advancePosition`. -/
def advancePosition (program : ProgramPosition) (entries : List PendingLedgerEntry)
    (now : Timestamp) : AdvanceResult :=
  let advanced := entries.foldl advanceEntry ⟨program, []⟩
  let wasOverLimit := program.overLimitSince.isSome
  let nowOverLimit := isOverLimit advanced.program
  let correlationId := closingCorrelationId entries
  if !wasOverLimit && nowOverLimit then
    let marked := advanceEntry advanced (overLimitMarker .overLimitOnset correlationId)
    { marked with program := { marked.program with overLimitSince := some now } }
  else if wasOverLimit && !nowOverLimit then
    let marked := advanceEntry advanced (overLimitMarker .overLimitCleared correlationId)
    { marked with program := { marked.program with overLimitSince := none } }
  else advanced

/-! ## Refusals -/

/-- `RefusalCode`. -/
inductive RefusalCode
  | positionUnverified
  | programOverLimit
  | fxRateUnavailable
  | amountRoundsToZero
  | insufficientCapacity
  | duplicateInvoice
  | idempotencyConflict
  | idempotencyExpired
  | requestInFlight
  | invalidAmount
  | currencyMismatch
  | reservationTerminal
  | releaseExceedsReserved
  | notFound
  deriving DecidableEq, Repr

end InvoiceReservation
