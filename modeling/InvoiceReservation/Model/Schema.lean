import InvoiceReservation.Common.Table
import InvoiceReservation.Model.Entities
/-!
# The database

The tables of `src/migrations` that the modelled services use, and the
constraints their rows have to meet. A statement's effect is a `Write`:
the new versions of rows of one table. The sequence counters are taken not
to reach the end of a `bigint`; amounts and versions are checked against
it.
-/

namespace InvoiceReservation

/-- The rows of the database. Organisations are only ever referred to. -/
structure Db where
  organisations : List Uuid
  programs : List ProgramEntity
  reservations : List InvoiceReservationEntity
  ledger : List CapacityLedgerEntryEntity
  requests : List RequestRecordEntity
  messages : List ProcessedMessageEntity
  acknowledgements : List SnapshotAcknowledgementEntity
  streamPositions : List ProgramStreamPosition
  deriving DecidableEq

/-- Row versions of one table. -/
inductive Write
  | program (row : ProgramEntity)
  | reservations (rows : List InvoiceReservationEntity)
  | ledger (rows : List CapacityLedgerEntryEntity)
  | requests (rows : List RequestRecordEntity)
  | message (row : ProcessedMessageEntity)
  | acknowledgement (row : SnapshotAcknowledgementEntity)
  | streamPosition (row : ProgramStreamPosition)

/-- What a reservation row is filed under. -/
def InvoiceReservationEntity.key (row : InvoiceReservationEntity) : Uuid × String × Uuid :=
  (row.programId, row.invoiceId, row.id)

/-- The primary key of a request record. -/
def RequestRecordEntity.key (row : RequestRecordEntity) : Uuid × String :=
  (row.organisationId, row.requestId)

/-- The primary key of a program's stream position. -/
def ProgramStreamPosition.key (row : ProgramStreamPosition) : Uuid × String × Int :=
  (row.programId, row.topic, row.partition)

/-- A database after a write. -/
def Db.apply : Write → Db → Db
  | .program row, db => { db with programs := Table.put (·.id) row db.programs }
  | .reservations rows, db =>
    { db with reservations := Table.putAll InvoiceReservationEntity.key rows db.reservations }
  | .ledger rows, db => { db with ledger := db.ledger ++ rows }
  | .requests rows, db =>
    { db with requests := Table.putAll RequestRecordEntity.key rows db.requests }
  | .message row, db => { db with messages := db.messages ++ [row] }
  | .acknowledgement row, db => { db with acknowledgements := db.acknowledgements ++ [row] }
  | .streamPosition row, db =>
    { db with
      streamPositions := Table.put ProgramStreamPosition.key row db.streamPositions }

/-! ## Reading -/

namespace Db

/-- The program with an id. -/
def program? (db : Db) (p : Uuid) : Option ProgramEntity := Table.get (·.id) p db.programs

/-- A program's reservations. -/
def reservationsOf (db : Db) (p : Uuid) : List InvoiceReservationEntity :=
  db.reservations.filter (·.programId = p)

/-- A program's reservations of one invoice, of which there is at most one. -/
def reservationsFor (db : Db) (p : Uuid) (invoiceId : String) : List InvoiceReservationEntity :=
  (db.reservationsOf p).filter (·.invoiceId = invoiceId)

/-- Whether a reservation has an id. -/
def hasReservationId (db : Db) (id : Uuid) : Bool := db.reservations.any (·.id = id)

/-- A program's ledger. -/
def ledgerOf (db : Db) (p : Uuid) : List CapacityLedgerEntryEntity :=
  db.ledger.filter (·.programId = p)

/-- The record of a request. -/
def request? (db : Db) (organisationId : Uuid) (requestId : String) :
    Option RequestRecordEntity :=
  Table.get RequestRecordEntity.key (organisationId, requestId) db.requests

/-- The processed message with an id. -/
def message? (db : Db) (messageId : String) : Option ProcessedMessageEntity :=
  Table.get (·.messageId) messageId db.messages

/-- A program's processed messages. -/
def messagesOf (db : Db) (p : Uuid) : List ProcessedMessageEntity :=
  db.messages.filter (·.programId = p)

/-- A program's processed messages of a kind and version. -/
def messagesAt (db : Db) (p : Uuid) (kind : MessageKind) (version : Int) :
    List ProcessedMessageEntity :=
  (db.messagesOf p).filter fun row => row.kind = kind ∧ row.version = version

/-- The acknowledgement of a snapshot. -/
def acknowledgement? (db : Db) (messageId : String) : Option SnapshotAcknowledgementEntity :=
  Table.get (·.messageId) messageId db.acknowledgements

/-- A program's stream positions. -/
def streamPositionsOf (db : Db) (p : Uuid) : List ProgramStreamPosition :=
  db.streamPositions.filter (·.programId = p)

end Db

/-! ## Errors and constraints -/

/-- An error of the database: its SQLSTATE and its text. -/
structure SqlError where
  code : String
  message : String
  deriving DecidableEq, Repr

/-- The text of a UUID. -/
def Uuid.text (id : Uuid) : String :=
  let digits := Nat.toDigits 16 id.toNat
  let all := List.replicate (32 - digits.length) '0' ++ digits
  String.ofList (all.take 8 ++ '-' :: (all.drop 8).take 4 ++ '-' :: (all.drop 12).take 4 ++
    '-' :: (all.drop 16).take 4 ++ '-' :: all.drop 20)

example : (Uuid.ofText "b1b2c3d4-0001-4000-8000-00000000001A").text =
    "b1b2c3d4-0001-4000-8000-00000000001a" := by decide +kernel

/-- Why a transaction ends without an effect: a `CapacityRefusal`, a
`ProgramNotFoundError`, an error of the database, a `TypeError` or another
`Error`. -/
inductive Failure
  | refusal (code : RefusalCode) (details : List (String × String))
  | programNotFound (programId : String)
  | sql (error : SqlError)
  | typeError (error : TypeError)
  | error (message : String)
  deriving DecidableEq, Repr

/-- `BIGINT_MAX`. -/
def bigintMax : Int := 2 ^ 63 - 1

/-- `BIGINT_MIN`. -/
def bigintMin : Int := -2 ^ 63

/-- A value a `bigint` can hold. -/
def inBigint (n : Int) : Bool := bigintMin ≤ n && n ≤ bigintMax

/-- A text a `text` column can hold: any, but for one with U+0000. -/
def storableText (s : String) : Bool := s.toList.all (· ≠ '\x00')

/-- An instant a `timestamptz` can hold: 4713 BC to 294276 AD. -/
def inTimestamptz (t : Timestamp) : Bool :=
  -210866803200000000 ≤ t && t < 9224318016000000000

/-- What a row or a parameter has to meet, and the error where it does not. -/
abbrev Constraint := Bool × SqlError

namespace Constraint

/-- A text that is sent as a parameter. -/
def text (s : String) : Constraint :=
  (storableText s, ⟨"22021", "invalid byte sequence for encoding \"UTF8\": 0x00"⟩)

/-- An instant that is sent as a parameter. The text the error goes on to
quote is the driver's. -/
def timestamptz (t : Timestamp) : Constraint :=
  (inTimestamptz t, ⟨"22008", "timestamp out of range"⟩)

/-- A value that has to fit a `bigint`. -/
def bigint (n : Int) : Constraint :=
  (inBigint n, ⟨"22003", s!"value \"{n}\" is out of range for type bigint"⟩)

/-- A `CHECK`. -/
def check (ok : Bool) (relation name : String) : Constraint :=
  (ok, ⟨"23514", s!"new row for relation \"{relation}\" violates check constraint \"{name}\""⟩)

/-- A `UNIQUE` or `PRIMARY KEY`. -/
def unique (ok : Bool) (name : String) : Constraint :=
  (ok, ⟨"23505", s!"duplicate key value violates unique constraint \"{name}\""⟩)

/-- A `REFERENCES`. -/
def foreignKey (ok : Bool) (relation name : String) : Constraint :=
  (ok, ⟨"23503",
    s!"insert or update on table \"{relation}\" violates foreign key constraint \"{name}\""⟩)

end Constraint

/-- An answer, where every constraint is met, and else the first error. -/
def guarded {α : Type} (constraints : List Constraint) (answer : α) : Except Failure α :=
  match constraints.find? (!·.1) with
  | some violated => .error (.sql violated.2)
  | none => .ok answer

@[simp] theorem guarded_nil {α : Type} {answer : α} : guarded [] answer = .ok answer := rfl

theorem guarded_cons {α : Type} {c : Constraint} {constraints : List Constraint} {answer : α} :
    guarded (c :: constraints) answer =
      if c.1 then guarded constraints answer else .error (.sql c.2) := by
  unfold guarded
  rcases c with ⟨_ | _, e⟩ <;> simp [List.find?]

theorem guarded_ok {α : Type} {constraints : List Constraint} {answer b : α} :
    guarded constraints answer = .ok b ↔ (∀ c ∈ constraints, c.1 = true) ∧ answer = b := by
  unfold guarded
  cases h : constraints.find? (!·.1) with
  | some violated =>
    have hv := List.find?_some h
    have hm := List.mem_of_find?_eq_some h
    simp only [reduceCtorEq, false_iff, not_and]
    intro hall
    simp [hall violated hm] at hv
  | none =>
    have hall : ∀ c ∈ constraints, c.1 = true := by
      intro c hc
      simpa using List.find?_eq_none.mp h c hc
    simp only [Except.ok.injEq]
    exact ⟨fun he => ⟨hall, he⟩, fun he => he.2⟩

/-- `program_local_within_limit`: it fires where the local component grows,
and stands down while a reconciliation is in progress. -/
def localWithinLimit (old new : ProgramEntity) (reconciliationInProgress : Bool) : Constraint :=
  (!(new.localReservedMinor > old.localReservedMinor) || reconciliationInProgress ||
      new.localReservedMinor ≤ new.creditLimitMinor,
    ⟨"23514", s!"local reserved {new.id.text}:{new.localReservedMinor} " ++
      s!"exceeds credit limit {new.creditLimitMinor}"⟩)

/-- The `CHECK`s of a program row whose currency stays what it was. -/
def programChecks (row : ProgramEntity) : List Constraint :=
  [.check (0 ≤ row.creditLimitMinor) "program" "program_credit_limit_non_negative",
   .check (0 ≤ row.localReservedMinor) "program" "program_local_reserved_non_negative",
   .check (0 ≤ row.treasuryReservedMinor) "program" "program_treasury_reserved_non_negative"]

/-- The `bigint` columns and the `CHECK`s of a reservation row. -/
def reservationChecks (row : InvoiceReservationEntity) : List Constraint :=
  [.bigint row.invoiceAmountMinor, .bigint row.reservedMinor,
   .bigint row.outstandingInvoiceMinor, .bigint row.outstandingReservedMinor,
   .bigint (row.acknowledgedByVersion.getD 0),
   .check (row.treasuryAcknowledged == row.acknowledgedByVersion.isSome)
     "invoice_reservation" "invoice_reservation_ack_version",
   .check (row.invoiceAmountMinor > 0 && row.reservedMinor > 0)
     "invoice_reservation" "invoice_reservation_amounts_positive",
   .check (row.fxRate.all (· > 0)) "invoice_reservation" "invoice_reservation_fx_positive",
   .check ((row.invoiceCurrency == row.programCurrency) == row.fxRate.isNone)
     "invoice_reservation" "invoice_reservation_fx_presence",
   .check (0 ≤ row.outstandingInvoiceMinor && row.outstandingInvoiceMinor ≤ row.invoiceAmountMinor)
     "invoice_reservation" "invoice_reservation_outstanding_invoice_bounded",
   .check (0 ≤ row.outstandingReservedMinor && row.outstandingReservedMinor ≤ row.reservedMinor)
     "invoice_reservation" "invoice_reservation_outstanding_reserved_bounded"]

end InvoiceReservation
