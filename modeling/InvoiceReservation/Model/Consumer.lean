import InvoiceReservation.Model.Treasury
/-!
# The consumer

`src/treasury/consumer` and `src/treasury/retry`, from a parsed message
on: what fails is retried, what still fails is left uncommitted if the
failure is one of the infrastructure, and else is quarantined. Attempts
see the errors of the database and of the code alone, and publishing a
dead letter succeeds.
-/

namespace InvoiceReservation

open Transactions

/-! ## Failures -/

/-- The text of a refusal code. -/
def RefusalCode.text : RefusalCode → String
  | .positionUnverified => "POSITION_UNVERIFIED"
  | .programOverLimit => "PROGRAM_OVER_LIMIT"
  | .fxRateUnavailable => "FX_RATE_UNAVAILABLE"
  | .amountRoundsToZero => "AMOUNT_ROUNDS_TO_ZERO"
  | .insufficientCapacity => "INSUFFICIENT_CAPACITY"
  | .duplicateInvoice => "DUPLICATE_INVOICE"
  | .idempotencyConflict => "IDEMPOTENCY_CONFLICT"
  | .idempotencyExpired => "IDEMPOTENCY_EXPIRED"
  | .requestInFlight => "REQUEST_IN_FLIGHT"
  | .invalidAmount => "INVALID_AMOUNT"
  | .currencyMismatch => "CURRENCY_MISMATCH"
  | .reservationTerminal => "RESERVATION_TERMINAL"
  | .releaseExceedsReserved => "RELEASE_EXCEEDS_RESERVED"
  | .notFound => "NOT_FOUND"

/-- `errorCode`: a refusal has one too. -/
def errorCode : Failure → Option String
  | .refusal code _ => some code.text
  | .sql error => some error.code
  | _ => none

/-- `errorMessage`. -/
def errorMessage : Failure → String
  | .refusal code _ => code.text
  | .programNotFound programId => s!"program not found: {programId}"
  | .sql error => error.message
  | .typeError error => error.message
  | .error message => message

/-- `TRANSIENT_SQLSTATE_CLASSES`. -/
def transientSqlstateClasses : List String := ["08", "53", "55", "57", "58"]

/-- `TRANSIENT_SQLSTATE_CODES`. -/
def transientSqlstateCodes : List String := ["55P03", "57014", "40001", "40P01"]

/-- `TRANSIENT_NETWORK_CODES`. -/
def transientNetworkCodes : List String :=
  ["ECONNREFUSED", "ECONNRESET", "ETIMEDOUT", "ENOTFOUND", "EPIPE", "EAI_AGAIN", "EHOSTUNREACH",
    "ENETUNREACH"]

/-- `TRANSIENT_ERROR_MESSAGES`, each as the texts it asks for in turn. -/
def transientErrorMessages : List (List String) :=
  [["timeout exceeded when trying to connect"], ["connection terminated unexpectedly"],
    ["client has encountered a connection error"], ["connection refused"], ["socket hang up"],
    ["terminating connection due to"], ["connection to ", " has been closed"],
    ["connection pool"], ["too many clients"], ["remaining connection slots"],
    ["canceling statement due to"], ["could not connect"]]

/-- What is left of a text after the first place a pattern occurs in it,
letters of either case. -/
def afterPattern (pattern : List Char) : List Char → Option (List Char)
  | [] => if pattern.isEmpty then some [] else none
  | c :: text =>
    if pattern.isPrefixOf ((c :: text).map Char.toLower) then
      some ((c :: text).drop pattern.length)
    else afterPattern pattern text

/-- A line that has the parts of a pattern in turn. -/
def hasInTurn : List String → List Char → Bool
  | [], _ => true
  | part :: parts, line =>
    match afterPattern part.toList line with
    | none => false
    | some rest => hasInTurn parts rest

/-- The lines of a text, which `.` does not go beyond. -/
def textLines (text : String) : List (List Char) :=
  text.toList.splitOnP fun c => c ∈ ['\n', '\r', '\u2028', '\u2029']

/-- The length of a text in UTF-16 code units. -/
def utf16Length (text : String) : Nat :=
  (text.toList.map fun c => if c.toNat < 0x10000 then 1 else 2).sum

/-- `isTransientFailure`. -/
def isTransientFailure (failure : Failure) : Bool :=
  (match errorCode failure with
    | none => false
    | some code =>
      transientSqlstateCodes.contains code || transientNetworkCodes.contains code ||
        (utf16Length code == 5 &&
          transientSqlstateClasses.contains (String.ofList (code.toList.take 2)))) ||
    transientErrorMessages.any fun parts =>
      (textLines (errorMessage failure)).any (hasInTurn parts)

/-- `FailureClass`. -/
inductive FailureClass
  | transient
  | permanent
  deriving DecidableEq, Repr

/-- `classifyFailure`. Nothing throws a `PermanentTreasuryError`. -/
def classifyFailure (failure : Failure) : FailureClass :=
  if isTransientFailure failure then .transient else .transient

/-! ## Retries -/

/-- `RetryPolicy`. The delays between attempts are left out. -/
structure RetryPolicy where
  maxAttempts : Nat

/-- An error `withRetry` throws: the failure itself, or a
`RetryExhaustedError` of the last one. -/
inductive RetryError
  | failed (failure : Failure)
  | exhausted (lastError : Failure)
  deriving DecidableEq, Repr

/-- The attempts of `withRetry`, of which so many are left after this one. -/
def attempts {α : Type} (fn : Db → Except Failure (α × Db)) (db : Db) :
    Nat → Except RetryError (α × Db)
  | 0 =>
    match fn db with
    | .ok answer => .ok answer
    | .error failure =>
      if classifyFailure failure = .permanent then .error (.failed failure)
      else .error (.exhausted failure)
  | left + 1 =>
    match fn db with
    | .ok answer => .ok answer
    | .error failure =>
      if classifyFailure failure = .permanent then .error (.failed failure)
      else attempts fn db left

/-- `withRetry`. -/
def withRetry {α : Type} (policy : RetryPolicy) (fn : Db → Except Failure (α × Db)) (db : Db) :
    Except RetryError (α × Db) :=
  attempts fn db (policy.maxAttempts - 1)

/-! ## Messages -/

/-- A message of the stream, parsed. -/
inductive TreasuryMessage
  | event (message : CapacityEvent)
  | snapshot (message : ReconciliationSnapshot)
  deriving DecidableEq

/-- Its id. -/
def TreasuryMessage.messageId : TreasuryMessage → String
  | event message => message.messageId
  | snapshot message => message.messageId

/-- The program it is for. -/
def TreasuryMessage.programId : TreasuryMessage → String
  | event message => message.programId
  | snapshot message => message.programId

/-- `InboundMessage`, and what its handling reads besides the database. -/
structure InboundMessage where
  rt : Runtime
  message : TreasuryMessage
  coordinates : StreamCoordinates

/-- What the consumer leaves: the database, the dead letters and the offsets
it has committed. -/
structure ConsumerState where
  db : Db
  deadLetters : List (QuarantineReason × InboundMessage)
  committed : List StreamCoordinates

variable [Sha256]

/-- `dispatch`: the topic decides which handler parses the message. -/
def dispatch (inbound : InboundMessage) : Transaction HandleOutcome :=
  match inbound.message with
  | .event message => handleCapacityEvent inbound.rt message inbound.coordinates
  | .snapshot message => handleReconciliationSnapshot inbound.rt message inbound.coordinates

omit [Sha256] in
/-- `quarantine`. -/
def quarantine (inbound : InboundMessage) (reason : QuarantineReason) (state : ConsumerState) :
    ConsumerState :=
  { state with deadLetters := state.deadLetters ++ [(reason, inbound)] }

omit [Sha256] in
/-- `commitOffset`: the offset after the message's. -/
def commitOffset (inbound : InboundMessage) (state : ConsumerState) : ConsumerState :=
  { state with committed := state.committed ++
      [{ inbound.coordinates with offset := inbound.coordinates.offset + 1 }] }

/-- What the attempts on a message come to. -/
def attempted (policy : RetryPolicy) (inbound : InboundMessage) (db : Db) :
    Except RetryError (HandleOutcome × Db) :=
  withRetry policy (engine.run (dispatch inbound)) db

/-- `processMessage`. -/
def processMessage (policy : RetryPolicy) (state : ConsumerState) (inbound : InboundMessage) :
    ConsumerState :=
  match attempted policy inbound state.db with
  | .error (.exhausted lastError) =>
    if isTransientFailure lastError then state
    else commitOffset inbound (quarantine inbound .handlerFailure state)
  | .error (.failed _) => commitOffset inbound (quarantine inbound .handlerFailure state)
  | .ok (.quarantined reason, db) =>
    commitOffset inbound (quarantine inbound reason { state with db := db })
  | .ok (_, db) => commitOffset inbound { state with db := db }

/-- Messages, one after another. -/
def consume (policy : RetryPolicy) (order : List InboundMessage) (state : ConsumerState) :
    ConsumerState :=
  order.foldl (processMessage policy) state

/-- What each of them was handled as, where its attempts succeeded. -/
def handled (policy : RetryPolicy) :
    List InboundMessage → ConsumerState → List (Option HandleOutcome)
  | [], _ => []
  | inbound :: order, state =>
    (attempted policy inbound state.db).toOption.map (·.1) ::
      handled policy order (processMessage policy state inbound)

end InvoiceReservation
