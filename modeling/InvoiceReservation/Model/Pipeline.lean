import InvoiceReservation.Common.OnceOnly
import InvoiceReservation.Model.Parsers
import InvoiceReservation.Model.Recovery
import InvoiceReservation.Model.TreasuryConsumer
/-!
# The treasury pipeline

From the bytes in the broker's log to the database: the consumers of
`src/treasury/consumer`, each of whose attempts is a call of a handler of
`src/treasury/handlers`, beside everything else that writes to the
database. An attempt's inspection is not locked, and its transaction is
one step, since locked transactions are serializable. A consumer can go
down between any two effects, between a commit and its answer included.
-/

namespace InvoiceReservation

open Transactions Partitions

/-! ## Handlers -/

namespace TreasuryConsumer

/-- A message's value, which is a buffer or null. -/
def InboundMessage.raw (message : InboundMessage) : RawValue :=
  match message.value with
  | some bytes => .buffer (bytes.map (·.toNat))
  | none => .absent

/-- Where a message was read. -/
def InboundMessage.coordinates (message : InboundMessage) : StreamCoordinates :=
  ⟨message.topic, message.partition, message.offset⟩

/-- What the handler of a message's topic parses it to. -/
def InboundMessage.parse (config : Config) (dateParse : List ℕ → Option Timestamp)
    (message : InboundMessage) : Except String TreasuryMessage :=
  if message.topic = config.snapshotsTopic then
    (parseReconciliationSnapshot dateParse message.raw).map .snapshot
  else (parseCapacityEvent dateParse message.raw).map .event

end TreasuryConsumer

/-- What a handler makes of an inspection. -/
def InspectOutcome.toHandleOutcome? : InspectOutcome → Option HandleOutcome
  | .proceed => none
  | .alreadyApplied => some .skipped
  | .quarantined reason => some (.quarantined reason)

variable [Sha256]

/-- `inspect`, of the service a message is for. -/
def TreasuryMessage.inspect : TreasuryMessage → Transaction InspectOutcome
  | event message => ApplyTreasuryEventService.inspect message
  | snapshot message => ApplySnapshotService.inspect message

/-- `apply`, of the service a message is for. A snapshot without a marker is
quarantined by it as by its handler. -/
def TreasuryMessage.apply (rt : Runtime) (coordinates : StreamCoordinates) :
    TreasuryMessage → Transaction ApplyOutcome
  | event message => ApplyTreasuryEventService.apply rt message coordinates
  | snapshot message => ApplySnapshotService.apply rt message coordinates

namespace TreasuryConsumer

section Attempts

variable (config : Config) (dateParse : List ℕ → Option Timestamp)

/-- **One attempt at a message**: what its handler answers, and the database
it leaves. `seen` are the states the database has been in. -/
inductive Attempt (message : InboundMessage) (seen : Db → Prop) (db : Db) :
    Except Thrown HandleOutcome → Db → Prop
  /-- The message is not one. -/
  | rejected {detail : String} : message.parse config dateParse = .error detail →
      Attempt message seen db (.ok (.quarantined .schemaInvalid)) db
  /-- The inspection does not let it through. -/
  | inspected {parsed : TreasuryMessage} {found : InspectOutcome} {outcome : HandleOutcome} :
      message.parse config dateParse = .ok parsed → Answered engine seen parsed.inspect found →
      found.toHandleOutcome? = some outcome → Attempt message seen db (.ok outcome) db
  /-- Its transaction commits. -/
  | committed {parsed : TreasuryMessage} (rt : Runtime) {outcome : ApplyOutcome} {db' : Db} :
      message.parse config dateParse = .ok parsed →
      engine.run (parsed.apply rt message.coordinates) db = .ok (outcome, db') →
      Attempt message seen db (.ok outcome.toHandleOutcome) db'
  /-- It is rolled back, or never gets there. -/
  | failed (error : Thrown) : Attempt message seen db (.error error) db
  /-- It commits, and the answer to its `COMMIT` is lost. -/
  | unanswered {parsed : TreasuryMessage} (rt : Runtime) {outcome : ApplyOutcome} {db' : Db}
      (error : Thrown) : message.parse config dateParse = .ok parsed →
      engine.run (parsed.apply rt message.coordinates) db = .ok (outcome, db') →
      Attempt message seen db (.error error) db'

end Attempts

/-! ## The pipeline -/

/-- The partitions of both topics with their consumers, the database, and
the states it was in before. -/
structure Pipeline where
  partitions : TopicPartition → Partition KafkaMessage Effect
  db : Db
  past : List Db

/-- A state the database is or was in. -/
def Pipeline.Seen (s : Pipeline) (c : Db) : Prop := c = s.db ∨ c ∈ s.past

/-- The pipeline with another database. -/
def Pipeline.commit (s : Pipeline) (db : Db) : Pipeline :=
  { s with db := db, past := s.db :: s.past }

/-- The offset and the answer of the attempt an event makes, where it makes
one. -/
def attempt? (p : Partition KafkaMessage Effect) :
    Event KafkaMessage Answers → Option (Nat × Except Thrown HandleOutcome)
  | .perform i =>
    match p.calls[i]? with
    | some ⟨offset, .handled answer :: _, _⟩ => some (offset, answer)
    | _ => none
  | _ => none

variable (policy : RetryPolicy) (config : Config) (dateParse : List ℕ → Option Timestamp)

/-- One step of a partition. -/
abbrev moves (tp : TopicPartition) (event : Event KafkaMessage Answers)
    (p : Partition KafkaMessage Effect) : Option (Partition KafkaMessage Effect) :=
  Partitions.step Effect.commits (handleEachMessage policy config tp) event p

/-- **One step of the pipeline.** -/
inductive Pipeline.Step (s : Pipeline) : Pipeline → Prop
  /-- An operation that handles no message. -/
  | operation (op : Operation) : (Activity.operation op).inbound? = none →
      Step s (s.commit (engine.effect op.tx s.db))
  /-- A partition moves, without an attempt. -/
  | moved (tp : TopicPartition) (event : Event KafkaMessage Answers)
      {p : Partition KafkaMessage Effect} :
      moves policy config tp event (s.partitions tp) = some p →
      attempt? (s.partitions tp) event = none →
      Step s { s with partitions := Function.update s.partitions tp p }
  /-- An attempt is made. -/
  | attempted (tp : TopicPartition) (event : Event KafkaMessage Answers)
      {p : Partition KafkaMessage Effect} {offset : Nat} {answer : Except Thrown HandleOutcome}
      {message : KafkaMessage} {db : Db} :
      moves policy config tp event (s.partitions tp) = some p →
      attempt? (s.partitions tp) event = some (offset, answer) →
      (s.partitions tp).log[offset]? = some message →
      Attempt config dateParse (tp.inbound offset message) s.Seen s.db answer db →
      Step s ({ s with partitions := Function.update s.partitions tp p }.commit db)
  /-- An attempt is made whose consumer goes down before it has the answer. -/
  | cut (tp : TopicPartition) (i : Nat) {p : Partition KafkaMessage Effect} {offset : Nat}
      {answer answer' : Except Thrown HandleOutcome} {message : KafkaMessage} {db : Db} :
      moves policy config tp (.abandon i) (s.partitions tp) = some p →
      attempt? (s.partitions tp) (.perform i) = some (offset, answer) →
      (s.partitions tp).log[offset]? = some message →
      Attempt config dateParse (tp.inbound offset message) s.Seen s.db answer' db →
      Step s ({ s with partitions := Function.update s.partitions tp p }.commit db)

/-- Any number of steps. -/
abbrev Pipeline.Steps : Pipeline → Pipeline → Prop :=
  Relation.ReflTransGen (Pipeline.Step policy config dateParse)

end TreasuryConsumer

end InvoiceReservation
