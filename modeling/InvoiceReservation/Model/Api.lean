import InvoiceReservation.Model.Audit
import InvoiceReservation.Model.Availability
import InvoiceReservation.Model.Consumer
import InvoiceReservation.Model.Requests
/-!
# The HTTP API

`src/auth` and `src/capacity/api`: the routes under `v1/programs/:programId`.
A request whose token is valid, and whose budget is not exceeded, passes the
last two of the guards in the order of `auth.module.ts`, then its pipes, and
reaches its handler. Whatever is thrown on the way the error filter answers.
-/

namespace InvoiceReservation

/-! ## Requests -/

/-- `AuthContext`. `JwtAuthGuard` lets no organisation through that is not
the text of a UUID. -/
structure AuthContext where
  org : String
  scopes : List String
  isUuid : isUuidText org = true

/-- The handlers of `CapacityController` and `AuditController`. -/
inductive Handler
  | createReservation
  | createRelease
  | cancelReservation
  | getAvailability
  | listReservations
  | getReservation
  | listLedger
  deriving DecidableEq, Repr

/-- `@RequiredScope`. -/
def Handler.requiredScope : Handler → String
  | .createReservation | .createRelease | .cancelReservation => "capacity:write"
  | .getAvailability | .listReservations | .getReservation => "capacity:read"
  | .listLedger => "capacity:audit"

/-- What a handler takes of the path, the query and the body. -/
inductive Arguments : Handler → Type
  | createReservation (invoiceId : List ℕ) (amountMinor : Int) (currency : String) :
      Arguments .createReservation
  | createRelease (invoiceId : String) (releaseMinor : Int) (currency : String) :
      Arguments .createRelease
  | cancelReservation (invoiceId : String) (reason : CancelReason) (note : Option (List ℕ)) :
      Arguments .cancelReservation
  | getAvailability : Arguments .getAvailability
  | listReservations (query : ListReservationsQuery) : Arguments .listReservations
  | getReservation (invoiceId : String) : Arguments .getReservation
  | listLedger (query : ListLedgerQuery) : Arguments .listLedger

/-- An `HttpException`, as the error filter tells them apart: one whose
payload has a code, a `BadRequestException` without one, or another. -/
inductive HttpException
  | coded (status : ℕ) (code message : String) (details : Option (List (String × String)))
  | badRequest (messages : List String)
  | plain (status : ℕ) (message : String)
  deriving DecidableEq, Repr

/-- What is thrown on the way to an answer. -/
inductive Exception
  | http (exception : HttpException)
  | failure (failure : Failure)
  deriving DecidableEq, Repr

/-- A request with a valid token. What its pipes make of it is told by the
request alone, and its program's segment of the path is not empty. -/
structure Request where
  handler : Handler
  programId : String
  named : programId ≠ ""
  auth : AuthContext
  idempotencyKey : Option String
  correlationId : Option String
  piped : Except Exception (Arguments handler)

/-! ## Responses -/

/-- The body of a refusal. -/
structure ErrorBody where
  code : String
  message : String
  correlationId : String
  details : Option (List (String × String)) := none
  deriving DecidableEq, Repr

/-- The body of a response. -/
inductive Body
  | write (body : WriteBody)
  | availability (body : AvailabilityBody)
  | reservation (body : ReservationBody)
  | reservations (page : Paging.Page String ReservationBody)
  | ledger (page : Paging.Page String LedgerEntryBody)
  | error (body : ErrorBody)
  deriving DecidableEq, Repr

/-- A status and a body. -/
structure Response where
  status : ℕ
  body : Body
  deriving DecidableEq, Repr

/-! ## The guards -/

/-- What is thrown for a program that is missing, and for another
organisation's. -/
def programNotFound : HttpException := .coded 404 "NOT_FOUND" "Program not found." none

/-- `ProgramScopeGuard.canActivate`. -/
def ProgramScopeGuard.canActivate (auth : AuthContext) (programId : String) (db : Db) :
    Except HttpException Unit :=
  if programId = "" then .ok ()
  else if isUuidText programId = false then .error programNotFound
  else
    match db.program? (Uuid.ofText programId) with
    | none => .error programNotFound
    | some program =>
      -- two texts are compared, and the column's has its letters in lower case
      if program.organisationId.text ≠ auth.org then .error programNotFound else .ok ()

/-- `ScopeGuard.canActivate`. -/
def ScopeGuard.canActivate (auth : AuthContext) (handler : Handler) : Except HttpException Unit :=
  if auth.scopes.contains handler.requiredScope then .ok ()
  else .error (.coded 403 "INSUFFICIENT_SCOPE" "The token lacks a required scope." none)

/-- The guards behind the throttler, in the order of `auth.module.ts`. -/
def canActivate (request : Request) (db : Db) : Except HttpException Unit := do
  ProgramScopeGuard.canActivate request.auth request.programId db
  ScopeGuard.canActivate request.auth request.handler

/-! ## The handlers -/

/-- What a read throws, as the filter sees it. -/
def ReadError.exception : ReadError → Exception
  | .badRequest body => .http (.coded 400 body.code body.message none)
  | .failed failure => .failure failure

/-- A read answers with status 200. -/
def answerRead {α : Type} (body : α → Body) (read : Except ReadError α) :
    Except Exception Response :=
  match read with
  | .error e => .error e.exception
  | .ok a => .ok ⟨200, body a⟩

/-- The check of the `Idempotency-Key`. -/
def requireIdempotencyKey : Option String → Except HttpException String
  | none => missing
  | some key =>
    if (Utf.units key).length < 8 ∨ (Utf.units key).length > 128 then missing else .ok key
where
  missing : Except HttpException String :=
    .error (.coded 400 "VALIDATION_FAILED" "Idempotency-Key is required."
      (some [("idempotencyKey", "required, 8 to 128 characters")]))

/-- A write answers 201 where it created, and 200 where it replays. -/
def answerWrite (idempotencyKey : Option String) (write : String → Transaction WriteOutcome)
    (db : Db) : Except Exception Response × Db :=
  match requireIdempotencyKey idempotencyKey with
  | .error e => (.error (.http e), db)
  | .ok requestId =>
    match engine.run (write requestId) db with
    | .error failure => (.error (.failure failure), db)
    | .ok (outcome, after) =>
      (.ok ⟨if outcome.created then 201 else 200, .write outcome.body⟩, after)

/-- `currentCorrelationId() ?? 'unknown'`. -/
def Request.correlation (request : Request) : String := request.correlationId.getD "unknown"

/-- The organisation a request is authenticated as. -/
def Request.organisationId (request : Request) : Uuid := Uuid.ofText request.auth.org

namespace CapacityController

variable [Sha256] (rt : Runtime) (request : Request)

/-- `createReservation`. -/
def createReservation (invoiceId : List ℕ) (amountMinor : Int) (currency : String) (db : Db) :
    Except Exception Response × Db :=
  answerWrite request.idempotencyKey (fun requestId => reserve rt
    { organisationId := request.organisationId
      programId := request.programId
      requestId := requestId
      invoiceId := invoiceId
      amountMinor := amountMinor
      currency := currency
      actor := request.auth.org
      correlationId := request.correlation }) db

/-- `createRelease`. -/
def createRelease (invoiceId : String) (releaseMinor : Int) (currency : String) (db : Db) :
    Except Exception Response × Db :=
  answerWrite request.idempotencyKey (fun requestId => release rt
    { organisationId := request.organisationId
      programId := request.programId
      requestId := requestId
      invoiceId := invoiceId
      releaseMinor := releaseMinor
      currency := currency
      actor := request.auth.org
      correlationId := request.correlation }) db

/-- `cancelReservation`. -/
def cancelReservation (invoiceId : String) (reason : CancelReason) (note : Option (List ℕ))
    (db : Db) : Except Exception Response × Db :=
  answerWrite request.idempotencyKey (fun requestId => cancel rt
    { organisationId := request.organisationId
      programId := request.programId
      requestId := requestId
      invoiceId := invoiceId
      reason := reason
      note := note
      actor := request.auth.org
      correlationId := request.correlation }) db

omit [Sha256]

/-- `getAvailability`. -/
def getAvailability (db : Db) : Except Exception Response :=
  match forProgram rt.newestObservedFor request.programId db with
  | .error failure => .error (.failure failure)
  | .ok body => .ok ⟨200, .availability body⟩

/-- `listReservations`. -/
def listReservations (casts : Casts) (query : ListReservationsQuery) (db : Db) :
    Except Exception Response :=
  answerRead .reservations (InvoiceReservation.listReservations casts request.programId query db)

/-- `getReservation`. -/
def getReservation (invoiceId : String) (db : Db) : Except Exception Response :=
  answerRead .reservation (InvoiceReservation.getReservation request.programId invoiceId db)

end CapacityController

/-- `AuditController.listLedger`. -/
def AuditController.listLedger (casts : Casts) (request : Request) (query : ListLedgerQuery)
    (db : Db) : Except Exception Response :=
  answerRead .ledger
    (InvoiceReservation.listLedger casts.bigint db db request.programId query)

/-! ## The error filter -/

/-- `MESSAGES`. -/
def RefusalCode.message : RefusalCode → String
  | .insufficientCapacity => "The amount exceeds available capacity."
  | .programOverLimit => "The program is over its credit limit."
  | .fxRateUnavailable => "No exchange rate is available for the requested currency pair."
  | .amountRoundsToZero => "The converted amount rounds to zero in the program currency."
  | .duplicateInvoice => "A reservation already exists for this invoice on this program."
  | .idempotencyConflict => "The Idempotency-Key was used before with different content."
  | .idempotencyExpired => "The Idempotency-Key has expired and cannot be replayed."
  | .requestInFlight => "An identical request is still being applied."
  | .positionUnverified => "The program position cannot be verified at this time."
  | .invalidAmount => "The release amount must be positive."
  | .currencyMismatch => "The release must be denominated in the invoice's own currency."
  | .reservationTerminal => "The reservation is already released or closed."
  | .releaseExceedsReserved => "The release exceeds what remains reserved for this invoice."
  | .notFound => "The program or reservation does not exist."

/-- `REFUSAL_STATUS`. -/
def RefusalCode.status : RefusalCode → ℕ
  | .positionUnverified => 503
  | .invalidAmount => 400
  | .notFound => 404
  | _ => 409

/-- `CODE_BY_STATUS`. -/
def codeByStatus : ℕ → String
  | 400 => "VALIDATION_FAILED"
  | 401 => "UNAUTHORIZED"
  | 403 => "FORBIDDEN"
  | 404 => "NOT_FOUND"
  | 405 => "METHOD_NOT_ALLOWED"
  | 406 => "NOT_ACCEPTABLE"
  | 409 => "CONFLICT"
  | 413 => "PAYLOAD_TOO_LARGE"
  | 415 => "UNSUPPORTED_MEDIA_TYPE"
  | 422 => "UNPROCESSABLE_ENTITY"
  | 429 => "RATE_LIMITED"
  | 503 => "SERVICE_UNAVAILABLE"
  | _ => "HTTP_ERROR"

/-- `MAX_DETAILS`. -/
def maxDetails : ℕ := 20

/-- `toValidationDetails`: the messages, by their first words. -/
def toValidationDetails (messages : List String) : List (String × String) :=
  Table.putAll (·.1) (((messages.take maxDetails).filter (· ≠ "")).map fun entry =>
    ((entry.splitOn " ").headD entry, entry)) []

/-- The answer to an unexpected failure. -/
def internalError (correlationId : String) : Response :=
  ⟨500, .error ⟨"INTERNAL", "An unexpected error occurred.", correlationId, none⟩⟩

/-- `CapacityErrorFilter.catch`. -/
def catchException (correlationId : String) : Exception → Response
  | .failure (.refusal code details) =>
    ⟨code.status, .error ⟨code.text, code.message, correlationId,
      if details = [] then none else some details⟩⟩
  | .failure (.programNotFound _) =>
    ⟨404, .error ⟨"NOT_FOUND", "Program not found.", correlationId, none⟩⟩
  | .failure (.sql error) =>
    if error.code = "23505" then
      ⟨409, .error ⟨"DUPLICATE_INVOICE", RefusalCode.message .duplicateInvoice, correlationId,
        none⟩⟩
    else internalError correlationId
  | .http (.coded status code message details) =>
    ⟨status, .error ⟨code, message, correlationId, details⟩⟩
  | .http (.badRequest messages) =>
    let details := toValidationDetails messages
    ⟨400, .error ⟨"VALIDATION_FAILED", "Request validation failed.", correlationId,
      if details = [] then none else some details⟩⟩
  | .http (.plain status message) =>
    if status < 500 then ⟨status, .error ⟨codeByStatus status, message, correlationId, none⟩⟩
    else internalError correlationId
  | .failure (.typeError _) => internalError correlationId
  | .failure (.error _) => internalError correlationId

/-! ## A request, from its guards to its answer -/

variable [Sha256] (rt : Runtime) (casts : Casts) (request : Request)

/-- The handler of a request. Only the writes change anything. -/
def handle (db : Db) : {handler : Handler} → Arguments handler → Except Exception Response × Db
  | _, .createReservation invoiceId amountMinor currency =>
    CapacityController.createReservation rt request invoiceId amountMinor currency db
  | _, .createRelease invoiceId releaseMinor currency =>
    CapacityController.createRelease rt request invoiceId releaseMinor currency db
  | _, .cancelReservation invoiceId reason note =>
    CapacityController.cancelReservation rt request invoiceId reason note db
  | _, .getAvailability => (CapacityController.getAvailability rt request db, db)
  | _, .listReservations query =>
    (CapacityController.listReservations request casts query db, db)
  | _, .getReservation invoiceId => (CapacityController.getReservation request invoiceId db, db)
  | _, .listLedger query => (AuditController.listLedger casts request query db, db)

/-- The guards, the pipes and the handler. -/
def route (db : Db) : Except Exception Response × Db :=
  match canActivate request db with
  | .error e => (.error (.http e), db)
  | .ok () =>
    match request.piped with
    | .error e => (.error e, db)
    | .ok arguments => handle rt casts request db arguments

/-- What an answer is sent as. -/
def send : Except Exception Response → Response
  | .ok response => response
  | .error e => catchException request.correlation e

/-- The response to a request, and the database it leaves. -/
def serve (db : Db) : Response × Db :=
  let (answer, after) := route rt casts request db
  (send request answer, after)

end InvoiceReservation
