import InvoiceReservation.Common.Utf
import InvoiceReservation.Model.Policies
/-!
# Treasury messages and their hashes

`src/shared/treasury`, with the content hashes of the two apply services
and the fingerprints of the idempotency service. SHA-256 is a parameter:
what is hashed is the text the source builds.
-/

namespace InvoiceReservation

/-- `createHash('sha256').update(text).digest('hex')`. -/
class Sha256 where
  digest : String → String

/-- SHA-256 as a table has it, and off the table a text that is no digest. -/
@[reducible] def Sha256.ofTable (table : List (String × String)) : Sha256 where
  digest text := ((table.find? (·.1 = text)).map (·.2)).getD ("#" ++ text)

/-- `CapacityEventType`. -/
inductive CapacityEventType
  | limitChanged
  | reservationBooked
  | reservationReleased
  deriving DecidableEq, Repr

/-- The text of an event type. -/
def CapacityEventType.text : CapacityEventType → String
  | .limitChanged => "LIMIT_CHANGED"
  | .reservationBooked => "RESERVATION_BOOKED"
  | .reservationReleased => "RESERVATION_RELEASED"

/-- An event's `payload`. -/
structure CapacityPayload where
  amountMinor : Int
  currency : String
  reservationReference : Option String
  deriving DecidableEq, Repr

/-- `CapacityEvent`. The program is named by the text of its UUID, in
whichever case the message has it. -/
structure CapacityEvent where
  messageId : String
  programId : String
  version : Int
  effectiveAt : Timestamp
  correlationId : Option String
  type : CapacityEventType
  payload : CapacityPayload
  deriving DecidableEq, Repr

/-- `StreamCoordinates`. -/
structure StreamCoordinates where
  topic : String
  partition : Int
  offset : Int
  deriving DecidableEq, Repr

/-- `ReconciliationSnapshot`. -/
structure ReconciliationSnapshot where
  messageId : String
  programId : String
  version : Int
  effectiveAt : Timestamp
  correlationId : Option String
  currency : String
  creditLimitMinor : Int
  reservedMinor : Int
  acknowledgement : Option SnapshotMarker
  deriving DecidableEq, Repr

/-! ## Texts -/

/-- A number in decimal, with zeros before it up to a width. -/
def padStart (width n : Nat) : String :=
  let digits := Nat.toDigits 10 n
  String.ofList (List.replicate (width - digits.length) '0' ++ digits)

/-- `toISOString`: the civil date of the instant, to the millisecond. -/
def isoString (t : Timestamp) : String :=
  let ms := t / 1000
  let days := ms / 86400000
  let inDay := (ms % 86400000).toNat
  -- days counted from 1 March of the year 0, by eras of 400 years
  let z := days + 719468
  let era := z / 146097
  let dayOfEra := z % 146097
  let yearOfEra := (dayOfEra - dayOfEra / 1460 + dayOfEra / 36524 - dayOfEra / 146096) / 365
  let dayOfYear := dayOfEra - (365 * yearOfEra + yearOfEra / 4 - yearOfEra / 100)
  let monthIndex := (5 * dayOfYear + 2) / 153
  let day := dayOfYear - (153 * monthIndex + 2) / 5 + 1
  let month := if monthIndex < 10 then monthIndex + 3 else monthIndex - 9
  let year := yearOfEra + era * 400 + (if month ≤ 2 then 1 else 0)
  let yearText :=
    if 0 ≤ year ∧ year ≤ 9999 then padStart 4 year.toNat
    else (if year < 0 then "-" else "+") ++ padStart 6 year.natAbs
  yearText ++ "-" ++ padStart 2 month.toNat ++ "-" ++ padStart 2 day.toNat ++ "T" ++
    padStart 2 (inDay / 3600000) ++ ":" ++ padStart 2 (inDay / 60000 % 60) ++ ":" ++
    padStart 2 (inDay / 1000 % 60) ++ "." ++ padStart 3 (inDay % 1000) ++ "Z"

example : isoString 1758240000123000 = "2025-09-19T00:00:00.123Z" := by decide

/-- One character of a JSON string. -/
def jsonChar (c : Char) : List Char :=
  if c = '"' then ['\\', '"']
  else if c = '\\' then ['\\', '\\']
  else if c.toNat = 8 then ['\\', 'b']
  else if c.toNat = 9 then ['\\', 't']
  else if c.toNat = 10 then ['\\', 'n']
  else if c.toNat = 12 then ['\\', 'f']
  else if c.toNat = 13 then ['\\', 'r']
  else if c.toNat < 32 then
    ['\\', 'u', '0', '0', Nat.digitChar (c.toNat / 16), Nat.digitChar (c.toNat % 16)]
  else [c]

/-- `JSON.stringify` of a string. -/
def jsonString (s : String) : String :=
  "\"" ++ String.ofList (s.toList.flatMap jsonChar) ++ "\""

/-- `JSON.stringify` of a string or `null`. -/
def jsonNullable : Option String → String
  | none => "null"
  | some s => jsonString s

/-- `JSON.stringify` of an object, from the texts of its values. -/
def jsonObject (fields : List (String × String)) : String :=
  String.ofList ['\x7b'] ++
    String.intercalate "," (fields.map fun (name, value) => jsonString name ++ ":" ++ value) ++
    String.ofList ['\x7d']

/-- `JSON.stringify` of an array of strings or `null`. -/
def jsonStrings : Option (List String) → String
  | none => "null"
  | some ss => "[" ++ String.intercalate "," (ss.map jsonString) ++ "]"

/-! ## Hashes and fingerprints -/

variable [Sha256]

/-- `capacityEventContentHash`. -/
def capacityEventContentHash (event : CapacityEvent) : String :=
  Sha256.digest (jsonObject [
    ("type", jsonString event.type.text),
    ("amountMinor", jsonString (toString event.payload.amountMinor)),
    ("currency", jsonString event.payload.currency),
    ("reservationReference", jsonNullable event.payload.reservationReference)])

/-- The text of a marker's kind. -/
def AcknowledgementKind.text : AcknowledgementKind → String
  | .explicit => "EXPLICIT"
  | .watermark => "WATERMARK"

/-- A marker as its snapshot's hash has it. -/
def markerJson : Option SnapshotMarker → String
  | none => "null"
  | some marker => jsonObject [
      ("kind", jsonString marker.kind.text),
      ("reservationReferences", jsonStrings marker.reservationReferences),
      ("ingestedThrough", jsonNullable (marker.ingestedThrough.map isoString))]

/-- `reconciliationSnapshotContentHash`. -/
def reconciliationSnapshotContentHash (snapshot : ReconciliationSnapshot) : String :=
  Sha256.digest (jsonObject [
    ("currency", jsonString snapshot.currency),
    ("creditLimitMinor", jsonString (toString snapshot.creditLimitMinor)),
    ("reservedMinor", jsonString (toString snapshot.reservedMinor)),
    ("effectiveAt", jsonString (isoString snapshot.effectiveAt)),
    ("acknowledgement", markerJson snapshot.acknowledgement)])

omit [Sha256] in
/-- Four strings with `|` between them. -/
def barred (a b c d : List ℕ) : List ℕ := a ++ 0x7C :: b ++ 0x7C :: c ++ 0x7C :: d

/-- `reserveFingerprint`, of strings. What is hashed is the text of their
join, in which an unpaired surrogate is U+FFFD. -/
def reserveFingerprint (programId invoiceId amountMinor currency : List ℕ) : String :=
  Sha256.digest (Utf.text (barred programId invoiceId amountMinor currency))

/-- `cancelFingerprint`. -/
def cancelFingerprint (programId invoiceId reason note : List ℕ) : String :=
  Sha256.digest (Utf.text (barred programId invoiceId reason note))

end InvoiceReservation
