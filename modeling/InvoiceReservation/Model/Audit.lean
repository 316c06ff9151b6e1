import InvoiceReservation.Common.Base64
import InvoiceReservation.Common.Binary64
import InvoiceReservation.Common.Json
import InvoiceReservation.Common.Paging
import InvoiceReservation.Model.Rates
import InvoiceReservation.Model.Services
import Mathlib.Data.Prod.Lex
/-!
# Reading reservations and the ledger

`src/capacity/application/audit-read.service.ts`. A page of the ledger is
two statements of their own, the currency and the rows, and writers commit
between them and between pages. A cursor is the JSON of the last row's key
in base64url.
-/

namespace InvoiceReservation

open Paging

/-- The body of a `BadRequestException`. -/
structure BadRequest where
  code : String
  message : String
  deriving DecidableEq, Repr

/-- What a read throws. -/
inductive ReadError
  | badRequest (body : BadRequest)
  | failed (failure : Failure)
  deriving DecidableEq, Repr

/-! ## Limits -/

/-- `LEDGER_DEFAULT_LIMIT`. -/
def ledgerDefaultLimit : ℕ := 100

/-- `LEDGER_MAX_LIMIT`. -/
def ledgerMaxLimit : ℕ := 1000

/-- `boundLimit`. -/
def boundLimit (limit : Option Number) (fallback maximum : ℕ) : Except ReadError ℕ :=
  match limit with
  | none => .ok fallback
  | some number =>
    match number.integer? with
    | none => .error (.badRequest ⟨"VALIDATION_FAILED", "The limit is out of range."⟩)
    | some n =>
      if n < 1 ∨ n > maximum then
        .error (.badRequest ⟨"VALIDATION_FAILED", "The limit is out of range."⟩)
      else .ok n.toNat

/-! ## Cursors -/

/-- `encodeCursor`. -/
def encodeCursor (value : List (String × String)) : String :=
  Utf.text (Base64.encode (Utf.encode (Json.stringify
    (value.map fun m => (Utf.units m.1, Utf.units m.2)))))

/-- `decodeCursor`. -/
def decodeCursor (cursor : String) : Except ReadError Json :=
  match Json.parse (Utf.decode (Base64.decode (Utf.units cursor))) with
  | some value => .ok value
  | none => .error (.badRequest ⟨"VALIDATION_FAILED", "The cursor is malformed."⟩)

/-- A property of a parsed value: `undefined` where it has none. -/
def readProperty (name : String) : Json → Except ReadError (Option Json)
  | .null =>
    .error (.failed (.typeError ⟨s!"Cannot read properties of null (reading '{name}')"⟩))
  | .object members => .ok (Json.member? (Utf.units name) members)
  | _ => .ok none

/-- The integer of a text of digits. -/
def integerText : List ℕ → Option Int
  | 0x2D :: digits =>
    if digits ≠ [] ∧ digits.all Json.isDigit then some (-Json.digitsValue digits) else none
  | digits => if digits ≠ [] ∧ digits.all Json.isDigit then some (Json.digitsValue digits) else none

/-- `$n::bigint`. What the driver and the database make of a parameter that
is no text of digits is `other`'s to say. -/
def bigintParameter (other : Json → Except SqlError (Option Int)) :
    Option Json → Except ReadError (Option Int)
  | none => .ok none
  | some .null => .ok none
  | some (.string s) =>
    match integerText s with
    | some n =>
      if (Constraint.bigint n).1 then .ok (some n)
      else .error (.failed (.sql (Constraint.bigint n).2))
    | none => (other (.string s)).mapError fun error => .failed (.sql error)
  | some value => (other value).mapError fun error => .failed (.sql error)

/-- A parameter with a cast: NULL where there is no value to send. -/
def castParameter {α : Type} (cast : Json → Except SqlError (Option α)) :
    Option Json → Except ReadError (Option α)
  | none => .ok none
  | some .null => .ok none
  | some value => (cast value).mapError fun error => .failed (.sql error)

/-- What the database makes of a parameter under `::bigint` that is no text
of digits, under `::timestamptz` and under `::uuid`, and `to_char(created_at
AT TIME ZONE 'UTC', 'YYYY-MM-DD"T"HH24:MI:SS.US"Z"')`. -/
structure Casts where
  bigint : Json → Except SqlError (Option Int)
  timestamptz : Json → Except SqlError (Option Timestamp)
  uuid : Json → Except SqlError (Option Uuid)
  toChar : Timestamp → String

/-! ## Reservations -/

/-- `RESERVATION_DEFAULT_LIMIT`. -/
def reservationDefaultLimit : ℕ := 50

/-- `RESERVATION_MAX_LIMIT`. -/
def reservationMaxLimit : ℕ := 200

/-- `ListReservationsQuery`. -/
structure ListReservationsQuery where
  status : Option ReservationStatus := none
  cursor : Option String := none
  limit : Option Number := none

/-- `toInvoiceReservationEntity`: the driver reads times as `Date`s. -/
def toInvoiceReservationEntity (row : InvoiceReservationEntity) : InvoiceReservationEntity :=
  { row with
    fxRateEffectiveAt := row.fxRateEffectiveAt.map toDate
    createdAt := toDate row.createdAt }

/-- `(created_at, id)`, as the database orders it. -/
def reservationKey (row : InvoiceReservationEntity) : Timestamp ×ₗ ℕ :=
  toLex (row.createdAt, row.id.toNat)

/-- The cursor of a row. -/
def reservationCursor (casts : Casts) (row : InvoiceReservationEntity) : String :=
  encodeCursor [("createdAt", casts.toChar row.createdAt), ("id", row.id.text)]

/-- The cursor of a query: the time and the id the page lies below. -/
def ListReservationsQuery.below (casts : Casts) (query : ListReservationsQuery) :
    Except ReadError (Option (Option Timestamp × Option Uuid)) :=
  match query.cursor with
  | none => .ok none
  | some cursor => do
    let value ← decodeCursor cursor
    let createdAt ← readProperty "createdAt" value
    let id ← readProperty "id" value
    let belowCreatedAt ← castParameter casts.timestamptz createdAt
    let belowId ← castParameter casts.uuid id
    return some (belowCreatedAt, belowId)

/-- The rows of a page, and the one behind them. Under a cursor with a NULL
the comparison of rows is decided by what comes before it, or not at all. -/
def selectReservations (programId : String) (query : ListReservationsQuery)
    (cursor : Option (Option Timestamp × Option Uuid)) (limit : ℕ) (db : Db) :
    List InvoiceReservationEntity :=
  let rows := (db.reservationsOf (Uuid.ofText programId)).filter fun row =>
    query.status.all (row.status = ·)
  match cursor with
  | none => select reservationKey none limit rows
  | some (none, _) => []
  | some (some createdAt, none) =>
    select reservationKey none limit (rows.filter (·.createdAt < createdAt))
  | some (some createdAt, some id) =>
    select reservationKey (some (toLex (createdAt, id.toNat))) limit rows

/-- `AuditReadService.listReservations`. -/
def listReservations (casts : Casts) (programId : String) (query : ListReservationsQuery)
    (db : Db) : Except ReadError (Page String ReservationBody) := do
  let limit ← boundLimit query.limit reservationDefaultLimit reservationMaxLimit
  let cursor ← query.below casts
  let rows := selectReservations programId query cursor limit db
  return page limit (reservationCursor casts)
    (fun row => toReservationBody (toInvoiceReservationEntity row)) rows

/-- `AuditReadService.getReservation`. -/
def getReservation (programId invoiceId : String) (db : Db) : Except ReadError ReservationBody :=
  if (Constraint.text invoiceId).1 then
    match (db.reservationsFor (Uuid.ofText programId) invoiceId).head? with
    | none => .error (.failed (.refusal .notFound []))
    | some row => .ok (toReservationBody (toInvoiceReservationEntity row))
  else .error (.failed (.sql (Constraint.text invoiceId).2))

/-! ## The ledger -/

/-- A `Date`: its instant, or none where it is invalid. -/
abbrev JsDate := Option Timestamp

/-- `ListLedgerQuery`. -/
structure ListLedgerQuery where
  from? : Option JsDate := none
  to? : Option JsDate := none
  cause : Option LedgerCause := none
  cursor : Option String := none
  limit : Option Number := none

/-- `LedgerEntryBody`. -/
structure LedgerEntryBody where
  sequence : Number
  delta : MoneyBody
  component : PositionComponent
  cause : LedgerCause
  originReference : Option String
  actor : String
  correlationId : String
  occurredAt : Timestamp
  deriving DecidableEq, Repr

/-- A row as an item of a page. -/
def toLedgerEntryBody (currency : String) (row : CapacityLedgerEntryEntity) : LedgerEntryBody where
  sequence := .ofRat row.sequence
  delta := ⟨row.deltaMinor, currency⟩
  component := row.component
  cause := row.cause
  originReference := row.originReference
  actor := row.actor
  correlationId := row.correlationId
  occurredAt := toDate row.occurredAt

/-- The cursor of a row. -/
def ledgerCursor (row : CapacityLedgerEntryEntity) : String :=
  encodeCursor [("sequence", toString row.sequence)]

/-- The conditions on `occurred_at` and `cause`. -/
def ListLedgerQuery.selects (query : ListLedgerQuery) (row : CapacityLedgerEntryEntity) : Bool :=
  (query.from?.all fun date => date.any (· ≤ row.occurredAt)) &&
    (query.to?.all fun date => date.any (row.occurredAt ≤ ·)) && query.cause.all (row.cause = ·)

/-- A `Date` that is sent as a parameter. The driver writes an invalid one
as a text that is no date. -/
def Constraint.date : JsDate → Constraint
  | none => (false, ⟨"22007", "invalid input syntax for type timestamp with time zone: \"" ++
      "0NaN-NaN-NaNTNaN:NaN:NaN.NaN+NaN:NaN\""⟩)
  | some t => .timestamptz t

/-- The dates of a query, in the order they are sent in. -/
def ListLedgerQuery.dates (query : ListLedgerQuery) : List Constraint :=
  (query.from?.toList ++ query.to?.toList).map Constraint.date

/-- `programCurrency`. -/
def programCurrency (programId : String) (db : Db) : Except ReadError String :=
  match db.program? (Uuid.ofText programId) with
  | none => .error (.failed (.refusal .notFound []))
  | some program => .ok program.currency

/-- The rows of a page, and the one behind them. Nothing is below a cursor
that is NULL. -/
def selectLedger (programId : String) (query : ListLedgerQuery) (cursor : Option (Option Int))
    (limit : ℕ) (db : Db) : List CapacityLedgerEntryEntity :=
  let rows := (db.ledgerOf (Uuid.ofText programId)).filter query.selects
  match cursor with
  | none => select (·.sequence) none limit rows
  | some none => []
  | some (some n) => select (·.sequence) (some n) limit rows

/-- What the cursor of a query carries of a sequence. -/
def ListLedgerQuery.sequence (query : ListLedgerQuery) :
    Except ReadError (Option (Option Json)) :=
  match query.cursor with
  | none => .ok none
  | some cursor => do
    let value ← decodeCursor cursor
    let sequence ← readProperty "sequence" value
    return some sequence

/-- The parameters of the statement: the dates, and then the sequence the page
lies below. -/
def ListLedgerQuery.below (other : Json → Except SqlError (Option Int)) (query : ListLedgerQuery)
    (sequence : Option (Option Json)) : Except ReadError (Option (Option Int)) := do
  (guarded query.dates ()).mapError .failed
  match sequence with
  | none => return none
  | some sequence =>
    let below ← bigintParameter other sequence
    return some below

/-- `AuditReadService.listLedger`: the currency is read of one committed
state, and the rows of another. -/
def listLedger (other : Json → Except SqlError (Option Int)) (currencyDb rowsDb : Db)
    (programId : String) (query : ListLedgerQuery) :
    Except ReadError (Page String LedgerEntryBody) := do
  let limit ← boundLimit query.limit ledgerDefaultLimit ledgerMaxLimit
  let currency ← programCurrency programId currencyDb
  let sequence ← query.sequence
  let cursor ← query.below other sequence
  let rows := selectLedger programId query cursor limit rowsDb
  return page limit ledgerCursor (toLedgerEntryBody currency) rows

end InvoiceReservation
