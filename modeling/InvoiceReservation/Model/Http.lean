import InvoiceReservation.Model.Api
/-!
# From the authorization header to the response

`src/auth/jwt-auth.guard.ts` and `src/auth/org-throttler.guard.ts`, the first
two of the guards, and what the controllers publish of their responses. What
the library makes of a token is a parameter: the payload it verifies, or
nothing. So is what the throttler's store says of a budget. None of the
handlers is public.
-/

namespace InvoiceReservation

/-! ## The token -/

namespace JwtAuthGuard

/-- `unauthenticated`. -/
def unauthenticated : HttpException :=
  .coded 401 "UNAUTHENTICATED" "Authentication is required." none

/-- What `trim` takes off a text. -/
def isTrimmed (c : Char) : Bool :=
  c ∈ ['\t', '\n', '\x0b', '\x0c', '\r', ' ', '\u00a0', '\u1680', '\u2028', '\u2029', '\u202f',
    '\u205f', '\u3000', '\ufeff'] || '\u2000' ≤ c && c ≤ '\u200a'

/-- `trim`. -/
def trim (text : List Char) : List Char :=
  ((text.dropWhile isTrimmed).reverse.dropWhile isTrimmed).reverse

/-- The token of an `Authorization` header, nothing where there is none. -/
def token? (authorization : Option String) : Option String :=
  match authorization with
  | none => none
  | some text =>
    if "Bearer ".toList.isPrefixOf text.toList then
      let token := trim (text.toList.drop "Bearer ".length)
      if token = [] then none else some (String.ofList token)
    else none

/-- The scopes of a `scope` claim: its words, where it is a string. -/
def scopesOf : Option Json → List String
  | some (.string scope) =>
    (((Utf.text scope).toList.splitOnP (· = ' ')).map String.ofList).filter (· ≠ "")
  | _ => []

/-- The claims of a payload. An array has neither of the claims that are
asked for. -/
def claims : Json → List (List ℕ × Json)
  | .object members => members
  | _ => []

/-- What the guard makes of a payload that was verified. -/
def contextOf (payload : Json) : Except HttpException AuthContext :=
  match Json.member? (Utf.units "exp") (claims payload) with
  | some (.number _) =>
    match Json.member? (Utf.units "org") (claims payload) with
    | some (.string org) =>
      if huuid : isUuidText (Utf.text org) = true then
        .ok ⟨Utf.text org, scopesOf (Json.member? (Utf.units "scope") (claims payload)), huuid⟩
      else .error unauthenticated
    | _ => .error unauthenticated
  | _ => .error unauthenticated

/-- `JwtAuthGuard.canActivate`: the context it leaves on the request. -/
def canActivate (verifyAsync : String → Option Json) (authorization : Option String) :
    Except HttpException AuthContext :=
  match token? authorization with
  | none => .error unauthenticated
  | some token =>
    match verifyAsync token with
    | none => .error unauthenticated
    | some payload => contextOf payload

end JwtAuthGuard

/-! ## The throttler -/

/-- The handlers of `@Post` routes. -/
def Handler.isWrite : Handler → Bool
  | .createReservation | .createRelease | .cancelReservation => true
  | _ => false

/-- The throttlers of `createThrottlerOptions`, by name. -/
inductive Throttler
  | read
  | write
  deriving DecidableEq, Repr

/-- The throttler that a handler's `@SkipThrottle` leaves it. -/
def Handler.throttler (handler : Handler) : Throttler := if handler.isWrite then .write else .read

/-- `OrgThrottlerGuard.canActivate`, where the store tells which budgets are
exceeded: a budget is one organisation's, of one handler. -/
def OrgThrottlerGuard.canActivate (exceeded : String → Handler → Throttler → Bool)
    (auth : AuthContext) (handler : Handler) : Except HttpException Unit :=
  if exceeded auth.org handler handler.throttler then
    .error (.coded 429 "RATE_LIMITED" "Request budget exceeded for this organisation." none)
  else .ok ()

/-! ## Requests, before their token is looked at -/

/-- A request as it is received: one without its token's context. -/
structure RawRequest where
  handler : Handler
  programId : String
  named : programId ≠ ""
  authorization : Option String
  idempotencyKey : Option String
  correlationId : Option String
  piped : Except Exception (Arguments handler)

/-- The request behind the first guard. -/
def RawRequest.authenticated (raw : RawRequest) (auth : AuthContext) : Request where
  handler := raw.handler
  programId := raw.programId
  named := raw.named
  auth := auth
  idempotencyKey := raw.idempotencyKey
  correlationId := raw.correlationId
  piped := raw.piped

/-- `currentCorrelationId() ?? 'unknown'`. -/
def RawRequest.correlation (raw : RawRequest) : String := raw.correlationId.getD "unknown"

/-- The response to a request, and the database it leaves. -/
def respond [Sha256] (verifyAsync : String → Option Json)
    (exceeded : String → Handler → Throttler → Bool) (rt : Runtime) (casts : Casts)
    (raw : RawRequest) (db : Db) : Response × Db :=
  match JwtAuthGuard.canActivate verifyAsync raw.authorization with
  | .error e => (catchException raw.correlation (.http e), db)
  | .ok auth =>
    match OrgThrottlerGuard.canActivate exceeded auth raw.handler with
    | .error e => (catchException raw.correlation (.http e), db)
    | .ok () => serve rt casts (raw.authenticated auth) db

/-! ## What is published -/

/-- The statuses of the `@ApiResponse`s of a handler. -/
def Handler.statuses (handler : Handler) : List ℕ :=
  if handler.isWrite then [201, 200, 400, 401, 403, 404, 409, 429, 503]
  else [200, 401, 403, 404, 429]

/-- The codes that are named for 409. -/
def Handler.conflicts : Handler → List RefusalCode
  | .createReservation => [.insufficientCapacity, .programOverLimit, .duplicateInvoice,
      .idempotencyConflict, .idempotencyExpired, .requestInFlight, .fxRateUnavailable,
      .amountRoundsToZero]
  | .createRelease => [.currencyMismatch, .reservationTerminal, .releaseExceedsReserved,
      .idempotencyConflict, .idempotencyExpired, .requestInFlight]
  | .cancelReservation => [.reservationTerminal, .idempotencyConflict, .idempotencyExpired,
      .requestInFlight]
  | _ => []

/-- The codes that the descriptions of a handler's `@ApiResponse`s name for a
status. That of 429 names none. -/
def Handler.named (handler : Handler) : ℕ → List String
  | 400 => if handler.isWrite then ["VALIDATION_FAILED"] else []
  | 401 => ["UNAUTHORIZED"]
  | 403 => ["FORBIDDEN"]
  | 404 => ["NOT_FOUND"]
  | 409 => handler.conflicts.map (·.text)
  | 503 => if handler.isWrite then [RefusalCode.positionUnverified.text] else []
  | _ => []

end InvoiceReservation
