import InvoiceReservation.Helpers.Answers
import InvoiceReservation.Helpers.Cursors
import InvoiceReservation.Model.Http
import InvoiceReservation.Properties.Noninterference
import InvoiceReservation.Properties.Refusals
/-!
# What a caller is answered

A request that is routed and parsed is answered in one of a few ways. Errors
have a status and a code of a list of the handler's, and leave the database
as it was; a few of the codes are not the published ones. A 500 has its
reason in the request: an invoice the database cannot hold, a cursor that
carries something else, or a date that is none. What was once created is
answered again with the same body for as long as its record is kept.
-/

namespace InvoiceReservation

open Transactions

/-! ## The contract -/

/-- What the DTOs let through. -/
def Arguments.Admitted : {handler : Handler} → Arguments handler → Prop
  | _, .createReservation _ amountMinor currency => PositiveMoney amountMinor currency
  | _, .createRelease _ releaseMinor currency => PositiveMoney releaseMinor currency
  | _, _ => True

/-- Arguments that can fail a statement: an invoice that the database cannot
hold, a cursor, or a date that it cannot read. -/
def Arguments.Unsafe : {handler : Handler} → Arguments handler → Prop
  | _, .createReservation invoiceId _ _ => storableText (Utf.text invoiceId) = false
  | _, .createRelease invoiceId _ _ => storableText invoiceId = false
  | _, .cancelReservation invoiceId _ _ => storableText invoiceId = false
  | _, .getReservation invoiceId => storableText invoiceId = false
  | _, .listReservations query => query.cursor.isSome = true
  | _, .listLedger query => query.cursor.isSome = true ∨ ¬ query.Dated
  | _, .getAvailability => False

/-- A request as it comes to the guards. No header holds a U+0000, and the
middleware leaves a correlation of its own pattern. Its pipes make arguments
of it that met their checks, or throw a `BadRequestException`. -/
structure RawRequest.Received (raw : RawRequest) : Prop where
  idempotencyKey : ∀ key, raw.idempotencyKey = some key → storableText key = true
  correlationId : ∀ text, raw.correlationId = some text → isCorrelationId text = true
  admitted : ∀ arguments, raw.piped = .ok arguments → arguments.Admitted
  refused : ∀ e, raw.piped = .error e → ∃ messages, e = .http (.badRequest messages)

/-- A request with arguments that can fail a statement. -/
def RawRequest.Unsafe (raw : RawRequest) : Prop :=
  ∃ arguments, raw.piped = .ok arguments ∧ arguments.Unsafe

/-- A cast does not fail as a `UNIQUE` does. -/
structure Casts.Lawful (casts : Casts) : Prop where
  bigint : ∀ value error, casts.bigint value = .error error → error.code ≠ "23505"
  timestamptz : ∀ value error, casts.timestamptz value = .error error → error.code ≠ "23505"
  uuid : ∀ value error, casts.uuid value = .error error → error.code ≠ "23505"

/-- The body a read answers with. -/
inductive Handler.Reads : Handler → Body → Prop
  | availability (body : AvailabilityBody) : Reads .getAvailability (.availability body)
  | reservation (body : ReservationBody) : Reads .getReservation (.reservation body)
  | reservations (page : Paging.Page String ReservationBody) :
      Reads .listReservations (.reservations page)
  | ledger (page : Paging.Page String LedgerEntryBody) : Reads .listLedger (.ledger page)

/-- The codes of a handler's conflicts: those that are published, but for a
request that is in flight, and one more of a release. -/
def Handler.conflictsAnswered (handler : Handler) : List RefusalCode :=
  handler.conflicts.filter (· ≠ .requestInFlight) ++
    if handler = .createRelease then [.amountRoundsToZero] else []

/-- The statuses and codes of a handler's errors. -/
def Handler.errors (handler : Handler) : List (ℕ × String) :=
  [(400, "VALIDATION_FAILED"), (401, "UNAUTHENTICATED"), (403, "INSUFFICIENT_SCOPE"),
    (404, "NOT_FOUND"), (429, "RATE_LIMITED")] ++
    if handler.isWrite then
      (503, RefusalCode.positionUnverified.text) ::
        handler.conflictsAnswered.map fun code => (409, code.text)
    else []

/-- Those of them whose code is not named for their status. -/
def Handler.unnamed (handler : Handler) : List (ℕ × String) :=
  [(401, "UNAUTHENTICATED"), (403, "INSUFFICIENT_SCOPE"), (429, "RATE_LIMITED")] ++
    (if handler = .createRelease then [(409, RefusalCode.amountRoundsToZero.text)] else []) ++
    if handler.isWrite then [] else [(400, "VALIDATION_FAILED")]

/-- **The contract**: the responses to a request, with the database each
leaves. -/
inductive Conforms [Sha256] (raw : RawRequest) (db : Db) : Response × Db → Prop
  /-- A write that created. -/
  | created {body : WriteBody} {after : Db} : raw.handler.isWrite = true → after.Legal →
      Onward db after → Conforms raw db (⟨201, .write body⟩, after)
  /-- A write that was answered from its record. -/
  | replayed {body : WriteBody} : raw.handler.isWrite = true →
      Conforms raw db (⟨200, .write body⟩, db)
  | read {body : Body} : raw.handler.Reads body → Conforms raw db (⟨200, body⟩, db)
  | refused {status : ℕ} {code message : String} {details : Option (List (String × String))} :
      (status, code) ∈ raw.handler.errors →
      Conforms raw db (⟨status, .error ⟨code, message, raw.correlation, details⟩⟩, db)
  /-- A statement fails of what the request carries. -/
  | failed : raw.Unsafe → Conforms raw db (internalError raw.correlation, db)

variable {raw : RawRequest} {db after later : Db} {rt : Runtime} {casts : Casts}
variable {verifyAsync : String → Option Json}
variable {exceeded : String → Handler → Throttler → Bool}

/-- **Which codes are published**: all but those of `Handler.unnamed` are
named for their status. -/
theorem errors_named (handler : Handler) : ∀ error ∈ handler.errors,
    error.2 ∈ handler.named error.1 ↔ error ∉ handler.unnamed := by
  cases handler <;> decide

theorem errors_published (handler : Handler) : ∀ error ∈ handler.errors,
    error.1 ∈ handler.statuses ∨ handler.isWrite = false ∧ error.1 = 400 := by
  cases handler <;> decide

/-- **Which statuses are published**: all but that of a read that is refused
its query, and 500. -/
theorem Conforms.status [Sha256] {answered : Response × Db} (h : Conforms raw db answered) :
    answered.1.status ∈ raw.handler.statuses ∨
      raw.handler.isWrite = false ∧ answered.1.status = 400 ∨
      answered.1.status = 500 ∧ raw.Unsafe := by
  cases h with
  | created hwrite => exact Or.inl (by simp [Handler.statuses, hwrite])
  | replayed hwrite => exact Or.inl (by simp [Handler.statuses, hwrite])
  | read hreads =>
    exact Or.inl (by cases hread : raw.handler <;> simp [Handler.statuses, Handler.isWrite])
  | refused hmem => exact (errors_published raw.handler _ hmem).imp_right Or.inl
  | failed hcarries => exact Or.inr (Or.inr ⟨rfl, hcarries⟩)

/-- A response leaves a database that an operation leaves. -/
theorem Conforms.onward [Sha256] {answered : Response × Db} (h : Conforms raw db answered) :
    Onward db answered.2 := by
  cases h with
  | created _ _ honward => exact honward
  | replayed | read | refused | failed => exact .start

theorem errors_ne_created (handler : Handler) : ∀ error ∈ handler.errors, error.1 ≠ 201 := by
  cases handler <;> decide

/-- Only a write that created is answered 201. -/
theorem Conforms.created_of_status [Sha256] {answered : Response × Db}
    (h : Conforms raw db answered) (hstatus : answered.1.status = 201) :
    ∃ body, answered.1 = ⟨201, .write body⟩ := by
  cases h with
  | created => exact ⟨_, rfl⟩
  | refused hmem => exact absurd hstatus (errors_ne_created raw.handler _ hmem)
  | replayed | read | failed => cases hstatus

/-! ## The guards -/

/-- A token that is not taken is answered one way. -/
theorem JwtAuthGuard.canActivate_error {authorization : Option String} {e : HttpException}
    (h : JwtAuthGuard.canActivate verifyAsync authorization = .error e) :
    e = JwtAuthGuard.unauthenticated := by
  unfold JwtAuthGuard.canActivate at h
  split at h
  · cases h
    rfl
  split at h
  · cases h
    rfl
  unfold JwtAuthGuard.contextOf at h
  split at h
  · split at h
    · split at h
      · cases h
      · cases h
        rfl
    · cases h
      rfl
  · cases h
    rfl

/-- A budget that is exceeded is answered one way. -/
theorem OrgThrottlerGuard.canActivate_error {auth : AuthContext} {handler : Handler}
    {e : HttpException} (h : OrgThrottlerGuard.canActivate exceeded auth handler = .error e) :
    e = .coded 429 "RATE_LIMITED" "Request budget exceeded for this organisation." none := by
  unfold OrgThrottlerGuard.canActivate at h
  split at h
  · cases h
    rfl
  · cases h

variable {request : Request}

/-- What the guards throw. -/
theorem canActivate_error {e : HttpException} (h : canActivate request db = .error e) :
    e = programNotFound ∨
      e = .coded 403 "INSUFFICIENT_SCOPE" "The token lacks a required scope." none := by
  simp only [canActivate, bind, Except.bind] at h
  split at h
  · rename_i hguard
    cases h
    left
    unfold ProgramScopeGuard.canActivate at hguard
    split at hguard
    · cases hguard
    split at hguard
    · cases hguard
      rfl
    split at hguard
    · cases hguard
      rfl
    split at hguard
    · cases hguard
      rfl
    · cases hguard
  · right
    unfold ScopeGuard.canActivate at h
    split at h
    · cases h
    · cases h
      rfl

/-- What they let through. -/
theorem scoped_of_canActivate (h : canActivate request db = .ok ()) :
    isUuidText request.programId = true ∧
      Scoped db request.organisationId request.programId := by
  by_cases hown : request.NamesOwn db
  · exact ⟨hown.1, Db.owns_iff.mp hown.2⟩
  · rw [guard_of_not_own hown] at h
    cases h

/-! ## Reads -/

section Reads

/-- What a list throws for what its query carries. -/
inductive ReadError.Unexpected : ReadError → Prop
  | typeError (error : TypeError) : Unexpected (.failed (.typeError error))
  | sql (error : SqlError) : error.code ≠ "23505" → Unexpected (.failed (.sql error))

/-- What a list throws, of a query that may be to blame. -/
def ReadError.OfQuery (blamed : Prop) (e : ReadError) : Prop :=
  (∃ message, e = .badRequest ⟨"VALIDATION_FAILED", message⟩) ∨ blamed ∧ e.Unexpected

variable {α β : Type} {P : ReadError → Prop} {x : Except ReadError α} {blamed : Prop}

/-- A read that throws only what `P` says. -/
def Fails (P : ReadError → Prop) (x : Except ReadError α) : Prop := ∀ e, x = .error e → P e

theorem Fails.bind {f : α → Except ReadError β} (hx : Fails P x) (hf : ∀ a, Fails P (f a)) :
    Fails P (x >>= f) := by
  cases x with
  | error e => exact fun e' he => hx e' (by cases he; rfl)
  | ok a => exact hf a

theorem fails_ok {a : α} : Fails P (.ok a) := fun _ h => by cases h

theorem fails_boundLimit {limit : Option Number} {fallback maximum : ℕ} :
    Fails (ReadError.OfQuery blamed) (boundLimit limit fallback maximum) := by
  unfold boundLimit
  split
  · exact fails_ok
  split
  · exact fun e he => Or.inl ⟨_, by cases he; rfl⟩
  split
  · exact fun e he => Or.inl ⟨_, by cases he; rfl⟩
  · exact fails_ok

theorem fails_decodeCursor {text : String} :
    Fails (ReadError.OfQuery blamed) (decodeCursor text) := by
  unfold decodeCursor
  split
  · exact fails_ok
  · exact fun e he => Or.inl ⟨_, by cases he; rfl⟩

theorem fails_readProperty {name : String} {value : Json} (hblamed : blamed) :
    Fails (ReadError.OfQuery blamed) (readProperty name value) := by
  unfold readProperty
  split
  · exact fun e he => Or.inr ⟨hblamed, by cases he; exact .typeError _⟩
  · exact fails_ok
  · exact fails_ok

/-- What a cast fails with is not unexpected as a duplicate is. -/
theorem fails_cast {cast : Json → Except SqlError (Option α)} {value : Json} (hblamed : blamed)
    (h : ∀ value error, cast value = .error error → error.code ≠ "23505") :
    Fails (ReadError.OfQuery blamed)
      ((cast value).mapError fun error => .failed (.sql error)) := by
  cases hcast : cast value with
  | error error =>
    exact fun e he => Or.inr ⟨hblamed, by cases he; exact .sql error (h value error hcast)⟩
  | ok a => exact fails_ok

theorem fails_castParameter {cast : Json → Except SqlError (Option α)} {value : Option Json}
    (hblamed : blamed) (h : ∀ value error, cast value = .error error → error.code ≠ "23505") :
    Fails (ReadError.OfQuery blamed) (castParameter cast value) := by
  unfold castParameter
  split
  · exact fails_ok
  · exact fails_ok
  · exact fails_cast hblamed h

theorem fails_bigintParameter {value : Option Json} (hblamed : blamed) (hcasts : casts.Lawful) :
    Fails (ReadError.OfQuery blamed) (bigintParameter casts.bigint value) := by
  unfold bigintParameter
  split
  · exact fails_ok
  · exact fails_ok
  · split
    · split
      · exact fails_ok
      · rename_i n _ _
        have hcode : (Constraint.bigint n).2.code = "22003" := rfl
        exact fun e he => Or.inr ⟨hblamed, by cases he; exact .sql _ (hcode ▸ by decide)⟩
    · exact fails_cast hblamed hcasts.bigint
  · exact fails_cast hblamed hcasts.bigint

/-- The dates of a query fail its statement where it is not dated, and not as
a duplicate does. -/
theorem fails_dates {query : ListLedgerQuery} (hblamed : ¬ query.Dated → blamed) :
    Fails (ReadError.OfQuery blamed) ((guarded query.dates ()).mapError .failed) := by
  by_cases hdated : query.Dated
  · rw [guarded_ok.mpr ⟨hdated, rfl⟩]
    exact fails_ok
  · intro e he
    refine Or.inr ⟨hblamed hdated, ?_⟩
    have hcodes : ∀ c ∈ query.dates, c.2.code ≠ "23505" := by
      intro c hc
      obtain ⟨date, -, rfl⟩ := List.mem_map.mp hc
      cases date <;> simp [Constraint.date, Constraint.timestamptz]
    cases hguarded : guarded query.dates () with
    | ok u => simp [hguarded, Except.mapError] at he
    | error failure =>
      rw [hguarded] at he
      cases he
      obtain ⟨c, hc, rfl⟩ := guarded_error_mem hguarded
      exact .sql _ (hcodes c hc)

/-- **What a list of reservations throws.** -/
theorem fails_listReservations {programId : String} {query : ListReservationsQuery}
    (hblamed : query.cursor.isSome = true → blamed) (hcasts : casts.Lawful) :
    Fails (ReadError.OfQuery blamed) (listReservations casts programId query db) := by
  have hbelow : Fails (ReadError.OfQuery blamed) (query.below casts) := by
    unfold ListReservationsQuery.below
    cases hcursor : query.cursor with
    | none => exact fails_ok
    | some text =>
      have hblamed := hblamed (by rw [hcursor]; rfl)
      exact fails_decodeCursor.bind fun _ => (fails_readProperty hblamed).bind fun _ =>
        (fails_readProperty hblamed).bind fun _ =>
        (fails_castParameter hblamed hcasts.timestamptz).bind fun _ =>
        (fails_castParameter hblamed hcasts.uuid).bind fun _ => fails_ok
  exact fails_boundLimit.bind fun _ => hbelow.bind fun _ => fails_ok

/-- **And a list of a program's ledger.** -/
theorem fails_listLedger {programId : String} {query : ListLedgerQuery} {program : ProgramEntity}
    (hblamed : query.cursor.isSome = true ∨ ¬ query.Dated → blamed) (hcasts : casts.Lawful)
    (hp : db.program? (Uuid.ofText programId) = some program) :
    Fails (ReadError.OfQuery blamed) (listLedger casts.bigint db db programId query) := by
  have hcurrency : Fails (ReadError.OfQuery blamed) (programCurrency programId db) := by
    rw [programCurrency, hp]
    exact fails_ok
  have hdates : Fails (ReadError.OfQuery blamed) ((guarded query.dates ()).mapError .failed) :=
    fails_dates fun h => hblamed (Or.inr h)
  refine fails_boundLimit.bind fun limit => hcurrency.bind fun currency => ?_
  unfold ListLedgerQuery.sequence
  cases hcursor : query.cursor with
  | none => exact (hdates.bind fun _ => fails_ok).bind fun _ => fails_ok
  | some text =>
    have hcursor := hblamed (Or.inl (by rw [hcursor]; rfl))
    refine Fails.bind (fails_decodeCursor.bind fun value =>
      (fails_readProperty hcursor).bind fun _ => fails_ok) fun sequence => ?_
    refine Fails.bind (hdates.bind fun _ => ?_) fun _ => fails_ok
    cases sequence with
    | none => exact fails_ok
    | some sequence => exact (fails_bigintParameter hcursor hcasts).bind fun _ => fails_ok

/-- An error of SQL that is no duplicate is answered 500. -/
theorem conforms_sql [Sha256] {error : SqlError} (hcarries : raw.Unsafe)
    (hcode : error.code ≠ "23505") :
    Conforms raw db (catchException raw.correlation (.failure (.sql error)), db) := by
  simp only [catchException, if_neg hcode]
  exact .failed hcarries

/-- **A read conforms** that throws only what its query is to blame for. -/
theorem conforms_answerRead [Sha256] {body : α → Body}
    (hreads : ∀ a, raw.handler.Reads (body a)) (hfails : Fails (ReadError.OfQuery raw.Unsafe) x)
    (hcorrelation : request.correlation = raw.correlation) :
    Conforms raw db (send request (answerRead body x), db) := by
  unfold answerRead
  cases x with
  | ok a => exact .read (hreads a)
  | error e =>
    simp only [send, hcorrelation]
    rcases hfails e rfl with ⟨message, rfl⟩ | ⟨hcarries, hunexpected⟩
    · exact .refused (by simp [Handler.errors])
    · cases hunexpected with
      | typeError error => exact .failed hcarries
      | sql error hcode => exact conforms_sql hcarries hcode

/-- A program that is there has a position. -/
theorem getAvailability_ok (rt : Runtime) {program : ProgramEntity}
    (hp : db.program? (Uuid.ofText request.programId) = some program) :
    ∃ body, CapacityController.getAvailability rt request db = .ok ⟨200, .availability body⟩ := by
  unfold CapacityController.getAvailability forProgram
  rw [hp]
  exact ⟨_, rfl⟩

end Reads

/-! ## Writes -/

section Writes

variable {t : Transaction WriteOutcome} {write : String → Transaction WriteOutcome}
variable {key : Option String} {codes : List RefusalCode} {identity : RequestIdentity}
variable {programId requestId : String} {outcome : WriteOutcome} {organisations : List Uuid}
variable {ops : List Operation} {rows : List FxRateRow} {program : ProgramEntity}

/-- A key that is refused. -/
theorem requireIdempotencyKey_error {e : HttpException}
    (h : requireIdempotencyKey key = .error e) : ∃ message details,
      e = .coded 400 "VALIDATION_FAILED" message details := by
  unfold requireIdempotencyKey at h
  split at h
  · cases h
    exact ⟨_, _, rfl⟩
  · split at h
    · cases h
      exact ⟨_, _, rfl⟩
    · cases h

/-- And one that is let through. -/
theorem requireIdempotencyKey_ok (h : requireIdempotencyKey key = .ok requestId) :
    key = some requestId := by
  unfold requireIdempotencyKey at h
  split at h
  · cases h
  · split at h
    · cases h
    · cases h
      rfl

theorem reserveCodes_answered : ∀ code ∈ reserveCodes ++ [.idempotencyConflict,
    .idempotencyExpired], (code.status, code.text) ∈ Handler.errors .createReservation := by
  decide

theorem releaseCodes_answered : ∀ code ∈ releaseCodes ++ [.idempotencyConflict,
    .idempotencyExpired], (code.status, code.text) ∈ Handler.errors .createRelease := by
  decide

theorem cancelCodes_answered : ∀ code ∈ cancelCodes ++ [.idempotencyConflict,
    .idempotencyExpired], (code.status, code.text) ∈ Handler.errors .cancelReservation := by
  decide

variable [Sha256]

/-- A transaction that is a write of a program under an identity, and throws
some codes of its own. -/
def Requests (identity : RequestIdentity) (programId : String) (codes : List RefusalCode)
    (t : Transaction WriteOutcome) : Prop :=
  ∃ w : ApiWrite, w.request.tx = t ∧ w.request.identity = identity ∧
    w.request.programId = programId ∧
      ∀ program, (w.request.proceed program).Throws (RefusedAs codes)

theorem requests_reserve {command : ReserveCommand} :
    Requests command.identity command.programId reserveCodes (reserve rt command) :=
  ⟨.reserve rt command, rfl, rfl, rfl, fun _ => reserve_throws⟩

theorem requests_release {command : ReleaseCommand} (h : 0 < command.releaseMinor) :
    Requests command.identity command.programId releaseCodes (release rt command) :=
  ⟨.release rt command, rfl, rfl, rfl, fun _ => release_throws h⟩

theorem requests_cancel {command : CancelCommand} :
    Requests command.identity command.programId cancelCodes (cancel rt command) :=
  ⟨.cancel rt command, rfl, rfl, rfl, fun _ => cancel_throws⟩

/-- What a request commits is what an operation commits. -/
theorem Requests.onward (h : Requests identity programId codes t)
    (hrun : engine.run t db = .ok (outcome, after)) : Onward db after := by
  have heffect : ∀ op : Operation, op.tx = t.map .write → Onward db after := fun op hop => by
    have honward := Onward.operation op (Onward.start : Onward db db)
    rw [hop, Engine.effect_map, Engine.effect_of_run_ok hrun] at honward
    exact honward
  obtain ⟨w, rfl, -⟩ := h
  cases w with
  | reserve rt command => exact heffect (.reserve rt command) rfl
  | release rt command => exact heffect (.release rt command) rfl
  | cancel rt command => exact heffect (.cancel rt command) rfl

/-- **What a write of an invoice that cannot be held comes to**, where it is
new: the refusal of a program that is not verified, or an error of SQL. -/
theorem proceed_of_unstorable {w : ApiWrite} (h : storableText w.request.invoiceId = false) :
    engine.run (w.request.proceed program) db = .error (.refusal .positionUnverified []) ∨
      engine.run (w.request.proceed program) db =
        .error (.sql (Constraint.text w.request.invoiceId).2) := by
  cases w with
  | reserve rt command => exact Or.inr (run_query_of_unstorable rfl h)
  | release rt command =>
    change engine.run (proceedRelease rt command program) db = _ ∨
      engine.run (proceedRelease rt command program) db = _
    rw [run_proceedRelease_of_unstorable h]
    split
    · exact Or.inl rfl
    · exact Or.inr rfl
  | cancel rt command =>
    dsimp only [ApiWrite.request, proceedCancel]
    split
    · exact Or.inl run_refuse
    · exact Or.inr (run_query_of_unstorable rfl h)

/-- **A write concludes, or fails of its invoice.** -/
theorem concludes_or_fails {w : ApiWrite} (hlegal : db.Legal)
    (hscoped : Scoped db w.request.identity.organisationId w.request.programId)
    (hkey : storableText w.request.identity.requestId = true)
    (hproceed : storableText w.request.invoiceId = true →
      ∀ program, db.program? (Uuid.ofText w.request.programId) = some program →
        Concludes (w.request.proceed program)
          (db.apply (.requests [w.request.identity.pending w.request.now]))) :
    Concludes w.request.tx db ∨ storableText w.request.invoiceId = false ∧
      engine.run w.request.tx db = .error (.sql (Constraint.text w.request.invoiceId).2) := by
  rcases @concludes_or_proceeds db _ w.request.now _ w.request.proceed hlegal hscoped hkey with
    h | ⟨program, hp, hrun⟩
  · exact Or.inl h
  by_cases hinvoice : storableText w.request.invoiceId = true
  · left
    change Concludes (withProgramLock _ _) db
    rw [Concludes, hrun]
    exact hproceed hinvoice program hp
  · have hunstorable : storableText w.request.invoiceId = false := by simpa using hinvoice
    rcases proceed_of_unstorable hunstorable with hrefused | hfailed
    · exact Or.inl (Or.inr ⟨_, _, hrun.trans hrefused⟩)
    · exact Or.inr ⟨hunstorable, hrun.trans hfailed⟩

/-- **A write that concludes conforms**, where its refusals do. -/
theorem conforms_answerWrite {requestIdentity : String → RequestIdentity}
    (hwrite : raw.handler.isWrite = true) (hlegal : db.Legal) (hnone : NonePending db)
    (hrequests : ∀ requestId, Requests (requestIdentity requestId) programId codes
      (write requestId))
    (hconcludes : ∀ requestId, key = some requestId → Concludes (write requestId) db ∨
      raw.Unsafe ∧ ∃ text, engine.run (write requestId) db =
        .error (.sql (Constraint.text text).2))
    (hcodes : ∀ code ∈ codes ++ [.idempotencyConflict, .idempotencyExpired],
      (code.status, code.text) ∈ raw.handler.errors)
    (hcorrelation : request.correlation = raw.correlation) :
    Conforms raw db
      (send request (answerWrite key write db).1, (answerWrite key write db).2) := by
  unfold answerWrite
  cases hkey : requireIdempotencyKey key with
  | error e =>
    obtain ⟨message, details, rfl⟩ := requireIdempotencyKey_error hkey
    simp only [send, hcorrelation]
    exact .refused (by simp [Handler.errors])
  | ok requestId =>
    dsimp only
    rcases hconcludes requestId (requireIdempotencyKey_ok hkey) with
      (⟨outcome, after, hrun⟩ | ⟨code, details, hrun⟩) | ⟨hcarries, text, hrun⟩
    · have honward := (hrequests requestId).onward hrun
      have hafter := hlegal.commit hrun
      obtain ⟨w, htx, -⟩ := hrequests requestId
      rw [hrun]
      rw [← htx] at hrun
      rcases ApiWrite.run_ok hrun with ⟨⟨row, -, hanswer⟩, rfl⟩ | hopened
      · simp only [(answer_ok.mp hanswer).2.2.2.2]
        exact .replayed hwrite
      · simp only [hopened.created]
        exact .created hwrite hafter honward
    · obtain ⟨w, htx, -, -, hthrows⟩ := hrequests requestId
      rw [hrun]
      rw [← htx] at hrun
      have hcode := WriteRequest.refusedAs hnone hthrows hrun code details rfl
      simp only [send, hcorrelation]
      exact .refused (hcodes code hcode)
    · rw [hrun]
      simp only [send, hcorrelation]
      exact conforms_sql hcarries (by simp [Constraint.text])

theorem nonePending_run : NonePending (Operation.run ops (Db.initial organisations)) :=
  run_induct (P := NonePending) (fun _ _ hn hc => hc.nonePending hn) ops fun _ h => by cases h

variable {auth : AuthContext}

/-- **Behind the guards a handler conforms.** -/
theorem handle_conforms (hdb : db = Operation.run ops (Db.initial organisations))
    (hguard : canActivate (raw.authenticated auth) db = .ok ()) (hraw : raw.Received)
    {arguments : Arguments raw.handler} (hpiped : raw.piped = .ok arguments)
    (hrows : ∀ row ∈ rows, row.Stored) (hrates : rt.Provided rows)
    (hfresh : db.hasReservationId rt.generatedId = false) (hcasts : casts.Lawful) :
    Conforms raw db
      (send (raw.authenticated auth) (handle rt casts (raw.authenticated auth) db arguments).1,
        (handle rt casts (raw.authenticated auth) db arguments).2) := by
  obtain ⟨huuid, hscoped⟩ := scoped_of_canActivate hguard
  have hlegal : db.Legal := hdb ▸ legal_initial.run ops
  have hnone : NonePending db := hdb ▸ nonePending_run
  have hadmitted := hraw.admitted arguments hpiped
  have hkey := hraw.idempotencyKey
  have hcorrelation : isCorrelationId (raw.authenticated auth).correlation = true := by
    change isCorrelationId (raw.correlationId.getD "unknown") = true
    cases hc : raw.correlationId with
    | none => decide
    | some text => exact hraw.correlationId text hc
  have hblame : arguments.Unsafe → raw.Unsafe := fun h => ⟨arguments, hpiped, h⟩
  clear hraw
  obtain ⟨handler, programId, named, authorization, idempotencyKey, correlationId, piped⟩ := raw
  cases arguments with
  | createReservation invoiceId amountMinor currency =>
    refine conforms_answerWrite rfl hlegal hnone (fun _ => requests_reserve)
      (fun requestId hsome => ?_) reserveCodes_answered rfl
    refine (concludes_or_fails (w := .reserve rt
      ⟨Uuid.ofText auth.org, programId, requestId, invoiceId, amountMinor, currency, _, _⟩)
      hlegal hscoped (hkey requestId hsome)
      fun hinvoice program hp => ?_).imp_right fun h => ⟨hblame h.1, _, h.2⟩
    subst hdb
    exact (reliable_run hp).requests.reserve ⟨huuid, hadmitted⟩
      ⟨hkey requestId hsome, hinvoice, hcorrelation⟩
      (by simpa [ApiWrite.request] using hp) request?_apply_pending
      (by simpa [Db.hasReservationId, Db.apply] using hfresh) (hrates.rateFor hrows)
  | createRelease invoiceId releaseMinor currency =>
    have hpositive : 0 < releaseMinor := hadmitted.positive
    refine conforms_answerWrite rfl hlegal hnone (fun _ => requests_release hpositive)
      (fun requestId hsome => ?_) releaseCodes_answered rfl
    refine (concludes_or_fails (w := .release rt
      ⟨Uuid.ofText auth.org, programId, requestId, invoiceId, releaseMinor, currency, _, _⟩)
      hlegal hscoped (hkey requestId hsome)
      fun hinvoice program hp => ?_).imp_right fun h => ⟨hblame h.1, _, h.2⟩
    subst hdb
    exact (reliable_run hp).requests.release ⟨huuid, hadmitted⟩
      ⟨hkey requestId hsome, hinvoice, hcorrelation⟩
      (by simpa [ApiWrite.request] using hp) request?_apply_pending
  | cancelReservation invoiceId reason note =>
    refine conforms_answerWrite rfl hlegal hnone (fun _ => requests_cancel)
      (fun requestId hsome => ?_) cancelCodes_answered rfl
    refine (concludes_or_fails (w := .cancel rt
      ⟨Uuid.ofText auth.org, programId, requestId, invoiceId, reason, note, _, _⟩)
      hlegal hscoped (hkey requestId hsome)
      fun hinvoice program hp => ?_).imp_right fun h => ⟨hblame h.1, _, h.2⟩
    subst hdb
    exact (reliable_run hp).requests.cancel ⟨hkey requestId hsome, hinvoice, hcorrelation⟩
      (by simpa [ApiWrite.request] using hp) request?_apply_pending
  | getAvailability =>
    obtain ⟨program, hp, -⟩ := hscoped
    obtain ⟨body, hbody⟩ := getAvailability_ok rt hp
    rw [handle, hbody]
    exact .read (.availability body)
  | listReservations query =>
    exact conforms_answerRead (fun page => .reservations page)
      (fails_listReservations hblame hcasts) rfl
  | getReservation invoiceId =>
    have hcode : (RefusalCode.notFound.status, RefusalCode.notFound.text) ∈
        Handler.errors .getReservation := by decide
    simp only [handle, CapacityController.getReservation, getReservation]
    split
    · split
      · exact .refused hcode
      · exact .read (.reservation _)
    · rename_i hinvoice
      have hcarries : storableText invoiceId = false := by simpa [Constraint.text] using hinvoice
      exact @conforms_sql _ _ _ (Constraint.text invoiceId).2 (hblame hcarries)
        (by simp [Constraint.text])
  | listLedger query =>
    obtain ⟨program, hp, -⟩ := hscoped
    exact conforms_answerRead (fun page => .ledger page) (fails_listLedger hblame hcasts hp) rfl

/-- **A request conforms.** -/
theorem respond_conforms (hdb : db = Operation.run ops (Db.initial organisations))
    (hraw : raw.Received) (hrows : ∀ row ∈ rows, row.Stored) (hrates : rt.Provided rows)
    (hfresh : db.hasReservationId rt.generatedId = false) (hcasts : casts.Lawful) :
    Conforms raw db (respond verifyAsync exceeded rt casts raw db) := by
  unfold respond
  cases hauth : JwtAuthGuard.canActivate verifyAsync raw.authorization with
  | error e =>
    obtain rfl := JwtAuthGuard.canActivate_error hauth
    exact .refused (by simp [Handler.errors])
  | ok auth =>
    dsimp only
    cases hthrottled : OrgThrottlerGuard.canActivate exceeded auth raw.handler with
    | error e =>
      obtain rfl := OrgThrottlerGuard.canActivate_error hthrottled
      exact .refused (by simp [Handler.errors])
    | ok u =>
      dsimp only
      unfold serve route
      cases hguard : canActivate (raw.authenticated auth) db with
      | error e =>
        rcases canActivate_error hguard with rfl | rfl
        · exact .refused (by simp [Handler.errors])
        · exact .refused (by simp [Handler.errors])
      | ok u =>
        cases hpipe : (raw.authenticated auth).piped with
        | error e =>
          obtain ⟨messages, rfl⟩ := hraw.refused e hpipe
          exact .refused (by simp [Handler.errors])
        | ok arguments =>
          exact handle_conforms hdb hguard hraw hpipe hrows hrates hfresh hcasts

/-! ## The same request, again -/

variable {body : WriteBody} {row : RequestRecordEntity}
variable {write' : String → Transaction WriteOutcome} {response : Response}

/-- A request that finds a record is answered from it. -/
theorem Requests.run_recorded (h : Requests identity programId codes t)
    (hkey : storableText identity.requestId = true)
    (hp : db.program? (Uuid.ofText programId) = some program)
    (hrow : db.request? identity.organisationId identity.requestId = some row) :
    engine.run t db = (identity.answer row).map fun outcome => (outcome, db) := by
  obtain ⟨w, rfl, rfl, rfl, -⟩ := h
  rw [WriteRequest.tx, withProgramLock, run_withProgramLockOr, hp]
  dsimp only
  rw [run_withIdempotency hkey, hrow]

/-- The record of a request that created, as long as it is kept. -/
theorem Requests.recorded (h : Requests identity programId codes t)
    (hrun : engine.run t db = .ok (⟨true, body⟩, after)) (hkeeps : after.Keeps later) :
    ∃ row, later.request? identity.organisationId identity.requestId = some row ∧
      Recorded identity body row := by
  obtain ⟨w, rfl, rfl, -⟩ := h
  rcases ApiWrite.run_ok hrun with ⟨⟨row, -, hanswer⟩, -⟩ | hopened
  · cases (answer_ok.mp hanswer).2.2.2.2
  · have hkey : ∀ old row : RequestRecordEntity, Aged old row → row.key = old.key := by
      rintro old row (rfl | ⟨-, rfl⟩) <;> rfl
    obtain ⟨row, hrow, haged⟩ := hkeeps.requests.get hkey hopened.record
    have hrecorded : Recorded w.request.identity body
        (w.request.identity.complete w.request.now body) := ⟨rfl, rfl, Or.inl ⟨rfl, rfl⟩⟩
    exact ⟨row, hrow, hrecorded.aged haged⟩

/-- A request that committed has a key that the database can hold. -/
theorem Requests.storable (h : Requests identity programId codes t)
    (hrun : engine.run t db = .ok (outcome, after)) : storableText identity.requestId = true := by
  obtain ⟨w, rfl, rfl, -⟩ := h
  rw [WriteRequest.tx, withProgramLock, run_withProgramLockOr] at hrun
  cases hp : db.program? (Uuid.ofText w.request.programId) with
  | none =>
    rw [hp] at hrun
    cases hrun
  | some program =>
    rw [hp] at hrun
    exact storable_of_withIdempotency hrun

/-- **A write that created, sent again**: it is answered with the same body,
or its record has expired. -/
theorem answerWrite_again {requestIdentity : String → RequestIdentity}
    (hcreated : answerWrite key write db = (.ok ⟨201, .write body⟩, after))
    (hkeeps : after.Keeps later) (hp : later.program? (Uuid.ofText programId) = some program)
    (hrequests : ∀ requestId, Requests (requestIdentity requestId) programId codes
      (write requestId))
    (hrequests' : ∀ requestId, Requests (requestIdentity requestId) programId codes
      (write' requestId)) :
    answerWrite key write' later = (.ok ⟨200, .write body⟩, later) ∨
      answerWrite key write' later =
        (.error (.failure (.refusal .idempotencyExpired [])), later) := by
  unfold answerWrite at hcreated ⊢
  cases hkey : requireIdempotencyKey key with
  | error e =>
    rw [hkey] at hcreated
    cases hcreated
  | ok requestId =>
    simp only [hkey] at hcreated ⊢
    cases hrun : engine.run (write requestId) db with
    | error failure =>
      rw [hrun] at hcreated
      cases hcreated
    | ok result =>
      obtain ⟨⟨created, outcomeBody⟩, after'⟩ := result
      simp only [hrun, Prod.mk.injEq, Except.ok.injEq, Response.mk.injEq, Body.write.injEq]
        at hcreated
      obtain ⟨⟨hstatus, rfl⟩, rfl⟩ := hcreated
      obtain rfl : created = true := by
        by_contra hnot
        simp [hnot] at hstatus
      obtain ⟨row, hrow, hrecorded⟩ := (hrequests requestId).recorded hrun hkeeps
      have hkey := (hrequests requestId).storable hrun
      rw [(hrequests' requestId).run_recorded hkey hp hrow, hrecorded.answer]
      unfold laterAnswer
      rw [if_pos ⟨rfl, rfl⟩]
      by_cases hexpired : row.state = .expired
      · right
        simp [hexpired, Except.map]
      · left
        simp [hexpired, Except.map]

omit [Sha256] in
/-- An error is not answered as a write is. -/
theorem catchException_ne_write {correlationId : String} {e : Exception} {status : ℕ} :
    catchException correlationId e ≠ ⟨status, .write body⟩ := by
  unfold catchException
  split <;> (try split) <;> simp [internalError]

/-- What a response that created came from. -/
theorem respond_created
    (h : respond verifyAsync exceeded rt casts raw db = (⟨201, .write body⟩, after)) :
    ∃ auth arguments, JwtAuthGuard.canActivate verifyAsync raw.authorization = .ok auth ∧
      canActivate (raw.authenticated auth) db = .ok () ∧ raw.piped = .ok arguments ∧
      handle rt casts (raw.authenticated auth) db arguments =
        (.ok ⟨201, .write body⟩, after) := by
  unfold respond at h
  cases hauth : JwtAuthGuard.canActivate verifyAsync raw.authorization with
  | error e =>
    rw [hauth] at h
    exact absurd (congrArg Prod.fst h) catchException_ne_write
  | ok auth =>
    cases hthrottled : OrgThrottlerGuard.canActivate exceeded auth raw.handler with
    | error e =>
      simp only [hauth, hthrottled] at h
      exact absurd (congrArg Prod.fst h) catchException_ne_write
    | ok u =>
      simp only [hauth, hthrottled, serve, route] at h
      cases hguard : canActivate (raw.authenticated auth) db with
      | error e =>
        rw [hguard] at h
        exact absurd (congrArg Prod.fst h) catchException_ne_write
      | ok u =>
        rw [hguard] at h
        cases hpiped : (raw.authenticated auth).piped with
        | error e =>
          rw [hpiped] at h
          exact absurd (congrArg Prod.fst h) catchException_ne_write
        | ok arguments =>
          simp only [hpiped, Prod.mk.injEq] at h
          refine ⟨auth, arguments, rfl, hguard, hpiped, Prod.ext ?_ h.2⟩
          cases hanswer : (handle rt casts (raw.authenticated auth) db arguments).1 with
          | error e =>
            rw [hanswer] at h
            exact absurd h.1 catchException_ne_write
          | ok response =>
            rw [hanswer] at h
            exact hanswer.trans (congrArg Except.ok h.1)

omit [Sha256] in
/-- The guards let through later what they let through. -/
theorem canActivate_kept (hkeeps : db.Keeps later) (h : canActivate request db = .ok ()) :
    canActivate request later = .ok () ∧
      ∃ program, later.program? (Uuid.ofText request.programId) = some program := by
  obtain ⟨-, program, hp, -⟩ := scoped_of_canActivate h
  obtain ⟨program', hp', hlater⟩ := hkeeps.program? hp
  refine ⟨?_, program', hp'⟩
  rw [← h]
  simp only [canActivate, ProgramScopeGuard.canActivate, hp, hp', hlater.organisationId]

omit [Sha256] in
/-- No read answers that it created. -/
theorem answerRead_ne_created {α : Type} {f : α → Body} {x : Except ReadError α} {b : Body} :
    answerRead f x ≠ .ok ⟨201, b⟩ := by
  cases x <;> simp [answerRead]

/-- **A handler that created, asked again.** -/
theorem handle_again {handler : Handler} {arguments : Arguments handler} {rt' : Runtime}
    {casts' : Casts} (hadmitted : arguments.Admitted)
    (h : handle rt casts request db arguments = (.ok ⟨201, .write body⟩, after))
    (hkeeps : after.Keeps later)
    (hp : later.program? (Uuid.ofText request.programId) = some program) :
    handle rt' casts' request later arguments = (.ok ⟨200, .write body⟩, later) ∨
      handle rt' casts' request later arguments =
        (.error (.failure (.refusal .idempotencyExpired [])), later) := by
  cases arguments with
  | createReservation invoiceId amountMinor currency =>
    simp only [handle, CapacityController.createReservation] at h ⊢
    exact answerWrite_again h hkeeps hp (fun _ => requests_reserve) (fun _ => requests_reserve)
  | createRelease invoiceId releaseMinor currency =>
    have hpositive : 0 < releaseMinor := hadmitted.positive
    simp only [handle, CapacityController.createRelease] at h ⊢
    exact answerWrite_again h hkeeps hp (fun _ => requests_release hpositive)
      (fun _ => requests_release hpositive)
  | cancelReservation invoiceId reason note =>
    simp only [handle, CapacityController.cancelReservation] at h ⊢
    exact answerWrite_again h hkeeps hp (fun _ => requests_cancel) (fun _ => requests_cancel)
  | getAvailability =>
    have hanswer := congrArg Prod.fst h
    simp only [handle, CapacityController.getAvailability] at hanswer
    split at hanswer <;> simp at hanswer
  | listReservations query => exact absurd (congrArg Prod.fst h) answerRead_ne_created
  | getReservation invoiceId => exact absurd (congrArg Prod.fst h) answerRead_ne_created
  | listLedger query => exact absurd (congrArg Prod.fst h) answerRead_ne_created

/-- **A request that created, sent again**, is answered so unless its budget
is exceeded. -/
theorem respond_again (hraw : raw.Received) {verifyAsync' : String → Option Json}
    {exceeded' : String → Handler → Throttler → Bool} {rt' : Runtime} {casts' : Casts}
    (hauth : JwtAuthGuard.canActivate verifyAsync' raw.authorization =
      JwtAuthGuard.canActivate verifyAsync raw.authorization)
    (hcreated : respond verifyAsync exceeded rt casts raw db = (⟨201, .write body⟩, after))
    (hafter : db.Keeps after) (hlater : after.Keeps later) :
    respond verifyAsync' exceeded' rt' casts' raw later = (⟨200, .write body⟩, later) ∨
      respond verifyAsync' exceeded' rt' casts' raw later =
        (catchException raw.correlation (.failure (.refusal .idempotencyExpired [])), later) ∨
      respond verifyAsync' exceeded' rt' casts' raw later = (⟨429, .error ⟨"RATE_LIMITED",
        "Request budget exceeded for this organisation.", raw.correlation, none⟩⟩, later) := by
  obtain ⟨auth, arguments, hauthenticated, hguard, hok, hhandle⟩ := respond_created hcreated
  obtain ⟨hguard', program, hp⟩ := canActivate_kept (hafter.trans hlater) hguard
  have hok' : (raw.authenticated auth).piped = .ok arguments := hok
  cases hthrottled : OrgThrottlerGuard.canActivate exceeded' auth raw.handler with
  | error e =>
    obtain rfl := OrgThrottlerGuard.canActivate_error hthrottled
    right; right
    simp only [respond, hauth, hauthenticated, hthrottled]
    rfl
  | ok u =>
    have hrespond : respond verifyAsync' exceeded' rt' casts' raw later =
        (send (raw.authenticated auth)
          (handle rt' casts' (raw.authenticated auth) later arguments).1,
            (handle rt' casts' (raw.authenticated auth) later arguments).2) := by
      simp only [respond, hauth, hauthenticated, hthrottled, serve, route, hguard', hok']
      rfl
    have hagain := @handle_again _ _ _ _ _ _ _ _ _ _ _ rt' casts'
      (hraw.admitted arguments hok) hhandle hlater hp
    rcases hagain with hagain | hagain
    · left
      rw [hrespond, hagain]
      rfl
    · right; left
      rw [hrespond, hagain]
      rfl

end Writes

end InvoiceReservation

namespace InvoiceReservation

attribute [local instance] trafficSha256

/-- A bearer's request to reserve 100 in the first program. -/
def northwindBearer : RawRequest where
  handler := .createReservation
  programId := northwindUsdProgramId
  named := by decide
  authorization := some "Bearer northwind"
  idempotencyKey := some "request-2"
  correlationId := some "northwind"
  piped := .ok (.createReservation (Utf.units "INV-2") 100 "USD")

/-- The payload of its token. -/
def northwindPayload (token : String) : Option Json :=
  if token = "northwind" then
    some (.object [(Utf.units "exp", .number ⟨false, 1800000000, 0, 0⟩),
      (Utf.units "org", .string (Utf.units "a1b2c3d4-0001-4000-8000-000000000001")),
      (Utf.units "scope", .string (Utf.units "capacity:write capacity:read"))])
  else none

/-- A store in which no budget is exceeded. -/
def unlimited : String → Handler → Throttler → Bool := fun _ _ _ => false

end InvoiceReservation
