import InvoiceReservation.Model.Audit
import InvoiceReservation.Model.Messages
/-!
# The treasury parsers

`src/treasury/schemas`: a message's value as it comes from the stream, to
the event or snapshot it is, or to the detail it is rejected with as
SCHEMA_INVALID. `Date.parse` is a parameter.
-/

namespace InvoiceReservation

/-- The value of a message: a buffer, a string, or neither. -/
inductive RawValue
  | buffer (bytes : List ℕ)
  | string (s : List ℕ)
  | absent
  deriving DecidableEq, Repr

/-- The text of a value. -/
def RawValue.text? : RawValue → Option (List ℕ)
  | .buffer bytes => some (Utf.decode bytes)
  | .string s => some s
  | .absent => none

/-- The members of an object. -/
abbrev Members := List (List ℕ × Json)

/-! ## Values -/

/-- A check, and the detail where it fails. -/
def ensure (ok : Bool) (detail : String) : Except String Unit :=
  if ok then .ok () else .error detail

/-- What there has to be, and the detail where it is not. -/
def orInvalid {α : Type} (found : Option α) (detail : String) : Except String α :=
  match found with
  | some value => .ok value
  | none => .error detail

/-- `isPlainObject`, and the object. -/
def plainObject? : Json → Option Members
  | .object members => some members
  | _ => none

/-- `typeof value === 'string'`, and the string. -/
def string? : Option Json → Option (List ℕ)
  | some (.string s) => some s
  | _ => none

/-- `typeof value === 'number'`, and the number. -/
def number? : Option Json → Option Number
  | some (.number n) => some (.ofRat n.value)
  | _ => none

/-- Whether a value is `undefined` or `null`. -/
def isNullish : Option Json → Bool
  | none => true
  | some .null => true
  | _ => false

namespace Members

/-- `value[name]`. -/
def get (value : Members) (name : String) : Option Json := Json.member? (Utf.units name) value

/-- Whether a name is an array index, which `Object.keys` lists first. -/
def isArrayIndex (name : List ℕ) : Bool :=
  name ≠ [] && name.all Json.isDigit && (name = [0x30] || name.head? ≠ some 0x30) &&
    Json.digitsValue name < 2 ^ 32 - 1

/-- `Object.keys`. -/
def keys (value : Members) : List (List ℕ) :=
  let names := (value.map (·.1)).eraseDups
  (names.filter isArrayIndex).mergeSort (fun x y => Json.digitsValue x ≤ Json.digitsValue y) ++
    names.filter fun name => !isArrayIndex name

/-- `unknownKeys`. -/
def unknownKeys (value : Members) (allowed : List String) : List String :=
  (value.keys.filter fun name => name ∉ allowed.map Utf.units).map Utf.text

/-- `missingKeys`. -/
def missingKeys (value : Members) (required : List String) : List String :=
  required.filter fun name => (value.get name).isNone

/-- The two checks of an object's keys. -/
def checkKeys (value : Members) (what : String) (allowed required : List String) :
    Except String Unit := do
  let extra := String.intercalate ", " (value.unknownKeys allowed)
  ensure (value.unknownKeys allowed).isEmpty s!"{what} has unexpected properties: {extra}"
  let missing := String.intercalate ", " (value.missingKeys required)
  ensure (value.missingKeys required).isEmpty s!"{what} is missing properties: {missing}"

end Members

/-! ## Patterns -/

/-- `UUID_PATTERN`. -/
def uuidPattern (s : List ℕ) : Bool :=
  s.length = 36 && s.zipIdx.all fun (unit, i) =>
    if i ∈ [8, 13, 18, 23] then unit = 0x2D else (Json.hexValue unit).isSome

/-- `NON_NEGATIVE_MINOR_PATTERN`. -/
def nonNegativeMinorPattern (s : List ℕ) : Bool :=
  1 ≤ s.length && s.length ≤ 19 && s.all Json.isDigit

/-- `AMOUNT_MINOR_PATTERN`. -/
def amountMinorPattern : List ℕ → Bool
  | 0x2D :: digits => nonNegativeMinorPattern digits
  | s => nonNegativeMinorPattern s

/-- `CURRENCY_PATTERN`. -/
def currencyPattern (s : List ℕ) : Bool :=
  s.length = 3 && s.all fun unit => 0x41 ≤ unit && unit ≤ 0x5A

/-! ## What both parsers check alike -/

/-- `decode`. -/
def decodeValue (what : String) : RawValue → Except String (List ℕ)
  | .string s => .ok s
  | .buffer bytes => .ok (Utf.decode bytes)
  | .absent => .error s!"{what} value must be a string or buffer"

/-- The object of a message. -/
def parseObject (what : String) (raw : RawValue) : Except String Members := do
  let decoded ← decodeValue what raw
  let parsed ← orInvalid (Json.parse decoded) s!"{what} value is not valid JSON"
  orInvalid (plainObject? parsed) s!"{what} must be a JSON object"

/-- A message's id. -/
def parseMessageId (value : Members) : Except String String := do
  let messageId ← orInvalid
    ((string? (value.get "messageId")).filter fun s => 8 ≤ s.length && s.length ≤ 128)
    "messageId must be a string of 8 to 128 characters"
  return Utf.text messageId

/-- A message's program. -/
def parseProgramId (value : Members) : Except String String := do
  let programId ← orInvalid ((string? (value.get "programId")).filter uuidPattern)
    "programId must be a UUID"
  return Utf.text programId

/-- A string that `Date.parse` reads. -/
def parseDate (dateParse : List ℕ → Option Timestamp) (value : Option Json) (detail : String) :
    Except String Timestamp :=
  orInvalid ((string? value).bind dateParse) detail

/-- `parseCorrelationId`. -/
def parseCorrelationId (value : Members) : Except String (Option String) :=
  if isNullish (value.get "correlationId") then .ok none
  else do
    let correlationId ← orInvalid
      ((string? (value.get "correlationId")).filter fun s => s.length ≤ 128)
      "correlationId must be a string of at most 128 characters"
    return some (Utf.text correlationId)

/-! ## Events -/

/-- `EVENT_TYPES`, by their texts. -/
def eventType? (s : List ℕ) : Option CapacityEventType :=
  [.limitChanged, .reservationBooked, .reservationReleased].find? fun type : CapacityEventType =>
    Utf.units type.text = s

/-- `parsePayload`. -/
def parsePayload (value : Option Json) : Except String CapacityPayload := do
  let value ← orInvalid (value.bind plainObject?) "payload must be an object"
  value.checkKeys "payload" ["amountMinor", "currency", "reservationReference"]
    ["amountMinor", "currency"]
  let amountText ← orInvalid ((string? (value.get "amountMinor")).filter amountMinorPattern)
    "payload.amountMinor must match ^-?[0-9]\x7b1,19\x7d$"
  let amountMinor := (integerText amountText).getD 0
  ensure (inBigint amountMinor) "payload.amountMinor is outside the signed 64-bit range"
  let currency ← orInvalid ((string? (value.get "currency")).filter currencyPattern)
    "payload.currency must match ^[A-Z]\x7b3\x7d$"
  if isNullish (value.get "reservationReference") then
    return ⟨amountMinor, Utf.text currency, none⟩
  else do
    let reference ← orInvalid (string? (value.get "reservationReference"))
      "payload.reservationReference must be a string or null"
    return ⟨amountMinor, Utf.text currency, some (Utf.text reference)⟩

/-- An event's version. -/
def parseEventVersion (value : Members) : Except String Int :=
  orInvalid (((number? (value.get "version")).bind Number.integer?).filter fun n => 0 ≤ n)
    "version must be an integer greater than or equal to 0"

/-- `parseCapacityEvent`. -/
def parseCapacityEvent (dateParse : List ℕ → Option Timestamp) (raw : RawValue) :
    Except String CapacityEvent := do
  let parsed ← parseObject "event" raw
  parsed.checkKeys "event"
    ["messageId", "programId", "version", "effectiveAt", "type", "payload", "correlationId"]
    ["messageId", "programId", "version", "effectiveAt", "type", "payload"]
  let messageId ← parseMessageId parsed
  let programId ← parseProgramId parsed
  let version ← parseEventVersion parsed
  let effectiveAt ← parseDate dateParse (parsed.get "effectiveAt")
    "effectiveAt must be a valid date-time string"
  let type ← orInvalid ((string? (parsed.get "type")).bind eventType?)
    "type is not a recognised capacity event type"
  let correlationId ← parseCorrelationId parsed
  let payload ← parsePayload (parsed.get "payload")
  return ⟨messageId, programId, version, effectiveAt, correlationId, type, payload⟩

/-! ## Snapshots -/

/-- `parseMinor`. -/
def parseMinor (value : Members) (key : String) : Except String Int := do
  let amount ← orInvalid ((string? (value.get key)).filter nonNegativeMinorPattern)
    s!"{key} must match ^[0-9]\x7b1,19\x7d$"
  let parsed := (integerText amount).getD 0
  ensure (parsed ≤ bigintMax) s!"{key} is outside the signed 64-bit range"
  return parsed

/-- `MAX_RESERVATION_REFERENCES`. -/
def maxReservationReferences : ℕ := 10000

/-- The keys of a marker. -/
def checkMarkerKeys (value : Members) (key : String) : Except String Unit := do
  let extra := String.intercalate ", " (value.unknownKeys ["kind", key])
  ensure (value.unknownKeys ["kind", key]).isEmpty
    s!"acknowledgement has unexpected properties: {extra}"
  ensure (value.get key).isSome s!"acknowledgement is missing properties: {key}"

/-- `parseExplicit`. -/
def parseExplicit (value : Members) : Except String SnapshotMarker := do
  checkMarkerKeys value "reservationIds"
  let reservationIds ← match value.get "reservationIds" with
    | some (.array items) => .ok items
    | _ => .error "acknowledgement.reservationIds must be an array"
  ensure (reservationIds.length ≤ maxReservationReferences)
    s!"acknowledgement.reservationIds must hold at most {maxReservationReferences} items"
  let references ← reservationIds.mapM fun item => orInvalid
    ((string? (some item)).filter fun s => s.length ≤ 128)
    "acknowledgement.reservationIds items must be strings of at most 128 characters"
  return ⟨.explicit, some (references.map Utf.text), none⟩

/-- `parseWatermark`. -/
def parseWatermark (dateParse : List ℕ → Option Timestamp) (value : Members) :
    Except String SnapshotMarker := do
  checkMarkerKeys value "ingestedThrough"
  let ingestedThrough ← parseDate dateParse (value.get "ingestedThrough")
    "acknowledgement.ingestedThrough must be a valid date-time"
  return ⟨.watermark, none, some ingestedThrough⟩

/-- `parseAcknowledgement`. -/
def parseAcknowledgement (dateParse : List ℕ → Option Timestamp) (value : Members) :
    Except String (Option SnapshotMarker) :=
  if isNullish (value.get "acknowledgement") then .ok none
  else do
    let acknowledgement ← orInvalid ((value.get "acknowledgement").bind plainObject?)
      "acknowledgement must be an object"
    if string? (acknowledgement.get "kind") =
        some (Utf.units AcknowledgementKind.explicit.text) then
      return some (← parseExplicit acknowledgement)
    else if string? (acknowledgement.get "kind") =
        some (Utf.units AcknowledgementKind.watermark.text) then
      return some (← parseWatermark dateParse acknowledgement)
    else .error "acknowledgement.kind must be EXPLICIT or WATERMARK"

/-- `Number.MAX_SAFE_INTEGER`. -/
def maxSafeInteger : Int := 2 ^ 53 - 1

/-- A snapshot's version. -/
def parseSnapshotVersion (value : Members) : Except String Int :=
  orInvalid (((number? (value.get "version")).bind Number.integer?).filter fun n =>
      0 ≤ n ∧ n ≤ maxSafeInteger)
    "version must be an integer between 0 and 9007199254740991"

/-- `parseReconciliationSnapshot`. -/
def parseReconciliationSnapshot (dateParse : List ℕ → Option Timestamp) (raw : RawValue) :
    Except String ReconciliationSnapshot := do
  let parsed ← parseObject "snapshot" raw
  parsed.checkKeys "snapshot"
    ["messageId", "programId", "version", "effectiveAt", "correlationId", "currency",
      "creditLimitMinor", "reservedMinor", "acknowledgement"]
    ["messageId", "programId", "version", "effectiveAt", "currency", "creditLimitMinor",
      "reservedMinor"]
  let messageId ← parseMessageId parsed
  let programId ← parseProgramId parsed
  let version ← parseSnapshotVersion parsed
  let effectiveAt ← parseDate dateParse (parsed.get "effectiveAt")
    "effectiveAt must be a valid date-time string"
  let currency ← orInvalid ((string? (parsed.get "currency")).filter currencyPattern)
    "currency must match ^[A-Z]\x7b3\x7d$"
  let creditLimitMinor ← parseMinor parsed "creditLimitMinor"
  let reservedMinor ← parseMinor parsed "reservedMinor"
  let correlationId ← parseCorrelationId parsed
  let acknowledgement ← parseAcknowledgement dateParse parsed
  return ⟨messageId, programId, version, effectiveAt, correlationId, Utf.text currency,
    creditLimitMinor, reservedMinor, acknowledgement⟩

end InvoiceReservation
