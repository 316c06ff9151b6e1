import InvoiceReservation.Model.Consumer
import InvoiceReservation.Model.Rates
import InvoiceReservation.Model.System
/-!
# Recovery

`src/capacity/application/recovery-detection.service.ts`, run at boot, and
what a restore is: the database goes back to an earlier state of its own,
and what the broker keeps, the committed offsets, does not.
-/

namespace InvoiceReservation

open Transactions

/-! ## Detection -/

/-- A row `detect` passes over: no treasury entry, or a stream position that
is not older than the newest of them, as JavaScript's dates. -/
def RecoveryRow.passed (row : RecoveryRow) : Bool :=
  match row.ledgerAt, row.positionAt with
  | none, _ => true
  | some _, none => false
  | some ledgerAt, some positionAt => decide (toDate ledgerAt ≤ toDate positionAt)

/-- The holds `detect` makes, one statement each, and the programs it held. -/
def holdAll : List RecoveryRow → Transaction (List Uuid)
  | [] => return []
  | row :: rows =>
    if row.passed then holdAll rows
    else do
      query (.holdProgram row.programId)
      return row.programId :: (← holdAll rows)

/-- `RecoveryDetectionService.detect`. -/
def detect : Transaction (List Uuid) := do
  holdAll (← query .selectRecovery)

/-! ## Runs and restores -/

/-- What happens to the database and to the offsets: an operation, or a
message that is processed to its end. The operation of a message is its
handler alone, whose consumer went down before it committed the offset. -/
inductive Activity
  | operation (op : Operation)
  | message (inbound : InboundMessage)

/-- The message an activity hands to its handler. -/
def Activity.inbound? : Activity → Option InboundMessage
  | .operation (.event rt event coordinates) => some ⟨rt, .event event, coordinates⟩
  | .operation (.snapshot rt snapshot coordinates) => some ⟨rt, .snapshot snapshot, coordinates⟩
  | .operation _ => none
  | .message inbound => some inbound

/-- The offset the group has committed last for a partition. -/
def ConsumerState.groupOffset (state : ConsumerState) (topic : String) (partition : Int) :
    Option Int :=
  ((state.committed.filter fun c => c.topic = topic ∧ c.partition = partition).getLast?).map
    (·.offset)

variable [Sha256]

/-- One activity. -/
def Activity.perform (policy : RetryPolicy) (state : ConsumerState) : Activity → ConsumerState
  | .operation op => { state with db := engine.effect op.tx state.db }
  | .message inbound => processMessage policy state inbound

/-- Activities, one after another. -/
def performAll (policy : RetryPolicy) (activities : List Activity) (state : ConsumerState) :
    ConsumerState :=
  activities.foldl (Activity.perform policy) state

omit [Sha256] in
/-- The database is restored from a backup and the service is booted. The
committed offsets are the broker's, and stay. -/
def restore (backup : Db) (state : ConsumerState) : ConsumerState :=
  { state with db := engine.effect detect backup }

end InvoiceReservation
