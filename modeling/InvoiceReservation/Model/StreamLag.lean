import InvoiceReservation.Model.Availability
import InvoiceReservation.Model.Parsers
import InvoiceReservation.Model.System
/-!
# The stream lag

`src/shared/stream-lag` and `src/treasury/consumer/stream-lag.probe.ts`: a
second consumer reads both topics from their ends, and keeps the newest
effective time of each program's messages in memory, under the text that a
message names its program by.
-/

namespace InvoiceReservation

open Transactions

/-! ## The registry -/

/-- `StreamLagRegistry`, its `Map` as a table. -/
abbrev StreamLagRegistry := List (List ℕ × Timestamp)

namespace StreamLagRegistry

/-- `newestObservedFor`. -/
def newestObservedFor (registry : StreamLagRegistry) (programId : List ℕ) : Option Timestamp :=
  (Table.get Prod.fst programId registry).map Prod.snd

/-- `observe`. What `Date.parse` returns is finite, or not a number and not
observed. -/
def observe (registry : StreamLagRegistry) (programId : List ℕ) (effectiveAt : Timestamp) :
    StreamLagRegistry :=
  if programId.length = 0 then registry
  else if effectiveAt ≤ 0 then registry
  else if (registry.newestObservedFor programId).all (· < effectiveAt) then
    Table.put Prod.fst (programId, effectiveAt) registry
  else registry

end StreamLagRegistry

/-! ## The probe -/

/-- The properties that can be read of a value: `null` has none to ask for,
and what is no object has none of these names. -/
def propertiesOf : Json → Option Members
  | .null => none
  | .object members => some members
  | _ => some []

/-- `StreamHeadFields` of a message, or the warning it is skipped with. -/
def readHead (dateParse : List ℕ → Option Timestamp) (raw : RawValue) :
    Except String (List ℕ × Timestamp) := do
  let text ← orInvalid raw.text? "stream lag probe skipped a message with no value"
  let parsed ← orInvalid ((Json.parse text).bind propertiesOf)
    "stream lag probe skipped an unreadable message"
  let programId ← orInvalid ((string? (parsed.get "programId")).filter (·.length ≠ 0))
    "stream lag probe skipped a message without a programId"
  let effectiveAt ← orInvalid (string? (parsed.get "effectiveAt"))
    "stream lag probe skipped a message without an effectiveAt"
  let effectiveAtMs ← orInvalid (dateParse effectiveAt)
    s!"stream lag probe skipped an unparseable effectiveAt: {Utf.text effectiveAt}"
  return (programId, effectiveAtMs)

/-- `StreamLagProbe.handleEachMessage`. -/
def handleEachMessage (dateParse : List ℕ → Option Timestamp) (raw : RawValue)
    (registry : StreamLagRegistry) : StreamLagRegistry :=
  match readHead dateParse raw with
  | .ok (programId, effectiveAt) => registry.observe programId effectiveAt
  | .error _ => registry

/-! ## The process -/

/-- The topics the probe subscribes to. -/
inductive StreamTopic
  | capacityEvents
  | snapshots
  deriving DecidableEq, Repr

/-- What happens to a process and its database: an operation of any
process, or a message of a topic that this process's probe is handed. -/
inductive LagStep
  | operation (op : Operation)
  | observed (topic : StreamTopic) (raw : RawValue)

/-- The database, and the registry of one process. -/
structure LagState where
  db : Db
  registry : StreamLagRegistry

variable [Sha256] (dateParse : List ℕ → Option Timestamp)

/-- One step. -/
def LagStep.perform (state : LagState) : LagStep → LagState
  | .operation op => { state with db := engine.effect op.tx state.db }
  | .observed _ raw => { state with registry := handleEachMessage dateParse raw state.registry }

/-- The state after some steps. -/
def LagStep.run (steps : List LagStep) (state : LagState) : LagState :=
  steps.foldl (LagStep.perform dateParse) state

omit [Sha256] in
/-- What `AvailabilityService.forProgram` answers in a state. -/
def LagState.availability (state : LagState) (programId : String) :
    Except Failure AvailabilityBody :=
  forProgram (fun id => state.registry.newestObservedFor (Utf.units id.text)) programId state.db

end InvoiceReservation
