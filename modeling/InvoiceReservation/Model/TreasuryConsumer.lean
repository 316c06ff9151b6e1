import InvoiceReservation.Common.Partition
import InvoiceReservation.Model.FailureClassifier
/-!
# The treasury consumer

`src/treasury/consumer/treasury.consumer.ts` on the messages of a partition,
whatever its handlers, the dead letter topic and the broker answer. What a
call does is the list of its effects, so that it can be cut short between
any two. An offset is a number here, its digits in the source.
-/

namespace InvoiceReservation

open Partitions

namespace TreasuryConsumer

/-- The configuration `dispatch` reads. -/
structure Config where
  snapshotsTopic : String := "treasury.capacity.snapshots"

/-- A header's value. A buffer is given by the text it decodes to. -/
inductive HeaderValue
  | text (value : String)
  | buffer (utf8 : String)
  deriving DecidableEq, Repr

/-- A header as KafkaJS hands it over. -/
inductive Header
  | single (value : HeaderValue)
  | array (values : List HeaderValue)
  | undefined
  deriving DecidableEq, Repr

/-- A message of the log. -/
structure KafkaMessage where
  key : Option (List UInt8)
  value : Option (List UInt8)
  headers : List (String × Header)
  deriving DecidableEq, Repr

/-- `InboundMessage`. -/
structure InboundMessage where
  topic : String
  partition : Nat
  offset : Nat
  key : Option (List UInt8)
  value : Option (List UInt8)
  headers : List (String × Option HeaderValue)
  deriving DecidableEq, Repr

/-- `toInboundHeaders`: the first value of each. -/
def toInboundHeaders (headers : List (String × Header)) : List (String × Option HeaderValue) :=
  headers.map fun (key, header) =>
    match header with
    | .single value => (key, some value)
    | .array values => (key, values.head?)
    | .undefined => (key, none)

/-- `correlationIdOf`. -/
def correlationIdOf (headers : List (String × Option HeaderValue)) : Option String :=
  match headers.lookup "correlationId" with
  | some (some (.text value)) => some value
  | some (some (.buffer utf8)) => some utf8
  | _ => none

/-- `DlqRecord`. -/
structure DlqRecord where
  reason : QuarantineReason
  correlationId : Option String
  originalTopic : String
  originalPartition : Nat
  originalOffset : Nat
  key : Option (List UInt8)
  value : Option (List UInt8)
  deriving DecidableEq, Repr

/-! ## What a call meets and does -/

/-- What the broker makes of a commit: it can be taken and its answer lost. -/
inductive CommitAnswer
  | done
  | lost (error : Thrown)
  | failed (error : Thrown)
  deriving DecidableEq, Repr

/-- What each attempt of a call is answered, attempts counted from 1. -/
structure Answers where
  handler : Nat → Except Thrown HandleOutcome
  snapshotHandler : Nat → Except Thrown HandleOutcome
  publish : Nat → Except Thrown Unit
  commit : CommitAnswer

/-- What a call does. -/
inductive Effect
  | handled (answer : Except Thrown HandleOutcome)
  | published (record : DlqRecord) (answer : Except Thrown Unit)
  | committed (offset : Nat) (answer : CommitAnswer)

/-- Why a call rejects. -/
inductive Rejection
  | stopped (stop : Retries.Stop Thrown)
  | commit (error : Thrown)
  deriving DecidableEq, Repr

/-- A call, or a part of it. -/
structure Processing where
  effects : List Effect
  result : Except Rejection Unit

/-- One part after another, which is not come to where the first rejects. -/
def Processing.andThen (first next : Processing) : Processing :=
  match first.result with
  | .ok () => ⟨first.effects ++ next.effects, next.result⟩
  | .error rejection => ⟨first.effects, .error rejection⟩

/-! ## Processing -/

/-- `dispatch`: the topic decides which handler parses the message. -/
def dispatch (config : Config) (answers : Answers) (message : InboundMessage) :
    Nat → Except Thrown HandleOutcome :=
  if message.topic = config.snapshotsTopic then answers.snapshotHandler else answers.handler

/-- The record `quarantine` publishes. -/
def quarantineRecord (message : InboundMessage) (reason : QuarantineReason) : DlqRecord where
  reason := reason
  correlationId := correlationIdOf message.headers
  originalTopic := message.topic
  originalPartition := message.partition
  originalOffset := message.offset
  key := message.key
  value := message.value

/-- `quarantine`. -/
def quarantine (policy : RetryPolicy) (answers : Answers) (message : InboundMessage)
    (reason : QuarantineReason) : Processing :=
  let attempted := Thrown.withRetry answers.publish policy
  ⟨attempted.calls.map (.published (quarantineRecord message reason)),
    attempted.result.mapError .stopped⟩

/-- `commitOffset`: the offset after the message's. -/
def commitOffset (answers : Answers) (message : InboundMessage) : Processing where
  effects := [.committed (message.offset + 1) answers.commit]
  result :=
    match answers.commit with
    | .done => .ok ()
    | .lost error => .error (.commit error)
    | .failed error => .error (.commit error)

/-- What `processMessage` does once the attempts have come to a result. -/
def conclude (policy : RetryPolicy) (answers : Answers) (message : InboundMessage) :
    Except (Retries.Stop Thrown) HandleOutcome → Processing
  | .error (.exhausted lastError) =>
    if lastError.isTransientFailure then ⟨[], .error (.stopped (.exhausted lastError))⟩
    else (quarantine policy answers message .handlerFailure).andThen (commitOffset answers message)
  | .error (.thrown _) =>
    (quarantine policy answers message .handlerFailure).andThen (commitOffset answers message)
  | .ok (.quarantined reason) =>
    (quarantine policy answers message reason).andThen (commitOffset answers message)
  | .ok .applied => commitOffset answers message
  | .ok .skipped => commitOffset answers message

/-- `processMessage`. -/
def processMessage (policy : RetryPolicy) (config : Config) (answers : Answers)
    (message : InboundMessage) : Processing :=
  let attempted := Thrown.withRetry (dispatch config answers message) policy
  let rest := conclude policy answers message attempted.result
  ⟨attempted.calls.map .handled ++ rest.effects, rest.result⟩

/-! ## The consumer group -/

/-- A partition of a topic. -/
structure TopicPartition where
  topic : String
  partition : Nat
  deriving DecidableEq, Repr

/-- The message `handleEachMessage` makes of what it is handed. -/
def TopicPartition.inbound (tp : TopicPartition) (offset : Nat) (message : KafkaMessage) :
    InboundMessage where
  topic := tp.topic
  partition := tp.partition
  offset := offset
  key := message.key
  value := message.value
  headers := toInboundHeaders message.headers

/-- `handleEachMessage`: its effects, and whether it resolves. -/
def handleEachMessage (policy : RetryPolicy) (config : Config) (tp : TopicPartition)
    (offset : Nat) (message : KafkaMessage) (answers : Answers) : List Effect × Bool :=
  let processing := processMessage policy config answers (tp.inbound offset message)
  (processing.effects, processing.result.toBool)

/-- The offset an effect leaves committed. -/
def Effect.commits : Effect → Option Nat
  | .committed offset .done => some offset
  | .committed offset (.lost _) => some offset
  | _ => none

/-- The consumers of the group, over all partitions of both topics. -/
def consumerGroup (policy : RetryPolicy) (config : Config)
    (start : (TopicPartition → Partition KafkaMessage Effect) → Prop) :
    Machines.Machine (TopicPartition → Partition KafkaMessage Effect)
      (TopicPartition × Event KafkaMessage Answers) :=
  group Effect.commits (handleEachMessage policy config) start

/-- What settles a message: it was applied, or skipped as a duplicate or
stale, or is in the dead letter topic. -/
def Effect.Settles (message : InboundMessage) : Effect → Prop
  | .handled (.ok .applied) => True
  | .handled (.ok .skipped) => True
  | .published record (.ok ()) => ∃ reason, record = quarantineRecord message reason
  | _ => False

/-- A message of a partition that one of the effects so far has settled. -/
def Settles (tp : TopicPartition) (offset : Nat) (message : KafkaMessage) (effect : Effect) :
    Prop :=
  effect.Settles (tp.inbound offset message)

end TreasuryConsumer

end InvoiceReservation
