import InvoiceReservation.Helpers.Locking
import InvoiceReservation.Helpers.Policies
import InvoiceReservation.Helpers.Writes
/-!
# Requests

What the three writes have in common: each locks its program, asks the
request records, and proceeds where its key is new. `WriteRequest` is that
form, and what a request does to the records is said once for all three.
-/

namespace InvoiceReservation

open Transactions

variable {db db' : Db}

/-- A write, as its lock, its invoice, its identity and what it does where it
is new. -/
structure WriteRequest where
  programId : String
  invoiceId : String
  identity : RequestIdentity
  now : Timestamp
  proceed : ProgramEntity → Transaction WriteOutcome

/-- What a request does. -/
def WriteRequest.tx (q : WriteRequest) : Transaction WriteOutcome :=
  withProgramLock q.programId fun program =>
    withIdempotency q.identity q.now (q.proceed program)

/-- What a request is filed under. -/
def RequestIdentity.key (identity : RequestIdentity) : Uuid × String :=
  (identity.organisationId, identity.requestId)

/-- The key a request locks. -/
def WriteRequest.guard (q : WriteRequest) : Key :=
  .request q.identity.organisationId q.identity.requestId

/-- What a request answers that found a record, or found none where one was. -/
def RequestIdentity.answered (identity : RequestIdentity) :
    Option RequestRecordEntity → Transaction WriteOutcome
  | none => throwFailure (.error "request_record row vanished during idempotency lookup")
  | some row =>
    match identity.answer row with
    | .ok outcome => return outcome
    | .error failure => throwFailure failure

/-- **The head of a request**: it inserts its record and proceeds, or reads
the one that is there and answers from it. -/
theorem withIdempotency_eq {identity : RequestIdentity} {now : Timestamp}
    {proceed : Transaction WriteOutcome} :
    withIdempotency identity now proceed =
      query (.insertRequest identity.organisationId identity.requestId identity.operation
        identity.fingerprint now) >>= fun inserted =>
      if inserted then proceed
      else query (.selectRequest identity.organisationId identity.requestId) >>=
        identity.answered := by
  refine congrArg (Tx.exec _) (funext fun inserted => ?_)
  cases inserted with
  | true => rfl
  | false =>
    refine congrArg (Tx.exec _) (funext fun found => ?_)
    cases found with
    | none => rfl
    | some row =>
      simp only [Tx.bind, RequestIdentity.answered, RequestIdentity.answer]
      cases hd : decideReplay identity row with
      | error failure => rfl
      | ok decision =>
        cases decision with
        | proceed => exact absurd hd decideReplay_ne_proceed
        | replay outcome => rfl
        | refused code => rfl

variable [Sha256] {outcome : WriteOutcome}

/-! ## The three writes -/

omit [Sha256] in
/-- A write of the API. -/
inductive ApiWrite
  | reserve (rt : Runtime) (command : ReserveCommand)
  | release (rt : Runtime) (command : ReleaseCommand)
  | cancel (rt : Runtime) (command : CancelCommand)

/-- The request a write is. -/
def ApiWrite.request : ApiWrite → WriteRequest
  | .reserve rt command =>
    ⟨command.programId, command.invoiceText, command.identity, rt.now, proceedReserve rt command⟩
  | .release rt command =>
    ⟨command.programId, command.invoiceId, command.identity, rt.now, proceedRelease rt command⟩
  | .cancel rt command =>
    ⟨command.programId, command.invoiceId, command.identity, rt.now, proceedCancel rt command⟩

omit [Sha256] in
/-- The write a transaction on the request records is, if it is one. -/
def RequestTransaction.write? : RequestTransaction → Option ApiWrite
  | .reserve rt command => some (.reserve rt command)
  | .release rt command => some (.release rt command)
  | .cancel rt command => some (.cancel rt command)
  | .sweep _ _ => none

omit [Sha256] in
/-- The write a locked transaction is, if it is one. -/
def LockedTransaction.write? : LockedTransaction → Option ApiWrite
  | .reserve rt command => some (.reserve rt command)
  | .release rt command => some (.release rt command)
  | .cancel rt command => some (.cancel rt command)
  | .event _ _ _ => none
  | .snapshot _ _ _ => none

/-- The request a transaction makes, if it is one. -/
def RequestTransaction.request? (i : RequestTransaction) : Option WriteRequest :=
  i.write?.map ApiWrite.request

/-- The request a locked transaction makes, if it is one. -/
def LockedTransaction.request? (t : LockedTransaction) : Option WriteRequest :=
  t.write?.map ApiWrite.request

/-- A request is one of the three writes. -/
theorem RequestTransaction.exists_write {i : RequestTransaction} {q : WriteRequest}
    (h : i.request? = some q) : ∃ w : ApiWrite, w.request = q := by
  obtain ⟨w, -, hw⟩ := Option.map_eq_some_iff.mp h
  exact ⟨w, hw⟩

theorem LockedTransaction.exists_write {t : LockedTransaction} {q : WriteRequest}
    (h : t.request? = some q) : ∃ w : ApiWrite, w.request = q := by
  obtain ⟨w, -, hw⟩ := Option.map_eq_some_iff.mp h
  exact ⟨w, hw⟩

theorem RequestTransaction.tx_of_request {i : RequestTransaction} {q : WriteRequest}
    (h : i.request? = some q) : i.tx = q.tx.map .write := by
  cases i <;> cases h <;> rfl

theorem LockedTransaction.tx_of_request {t : LockedTransaction} {q : WriteRequest}
    (h : t.request? = some q) : t.tx = q.tx.map .write := by
  cases t <;> cases h <;> rfl

theorem LockedTransaction.guard_of_request {t : LockedTransaction} {q : WriteRequest}
    (h : t.request? = some q) : t.guard = q.guard := by
  cases t <;> cases h <;> rfl

theorem RequestTransaction.sweep_of_none {i : RequestTransaction} (h : i.request? = none) :
    ∃ now days, i = .sweep now days := by
  cases i <;> first | exact ⟨_, _, rfl⟩ | cases h

/-- A request that created: its key was new, and its record is complete. No
other record has changed. -/
structure Opened (q : WriteRequest) (outcome : WriteOutcome) (db db' : Db) : Prop where
  created : outcome.created = true
  new : db.request? q.identity.organisationId q.identity.requestId = none
  others : ∀ organisationId requestId, (organisationId, requestId) ≠ q.identity.key →
    db'.request? organisationId requestId = db.request? organisationId requestId
  record : db'.request? q.identity.organisationId q.identity.requestId =
    some (q.identity.complete q.now outcome.body)

omit [Sha256] in
/-- A record that is begun and completed around writes of other tables. -/
theorem opened_of_writes {q : WriteRequest} {w : List Write} (hcreated : outcome.created = true)
    (hnew : db.request? q.identity.organisationId q.identity.requestId = none)
    (hw : ∀ x ∈ w, ∀ rows, x ≠ .requests rows)
    (hafter : db' = engine.applyAll (.requests [q.identity.pending q.now] ::
      (w ++ [.requests [q.identity.complete q.now outcome.body]])) db) :
    Opened q outcome db db' := by
  have hframe : ∀ c o r, (engine.applyAll w c).request? o r = c.request? o r := by
    clear hafter
    intro c o r
    induction w generalizing c with
    | nil => rfl
    | cons x w ih =>
      rw [engine_applyAll_cons, ih fun x' hx' => hw x' (List.mem_cons_of_mem _ hx')]
      have hx := hw x List.mem_cons_self
      cases x with
      | requests rows => exact absurd rfl (hx rows)
      | _ => rfl
  have hread : ∀ o r, db'.request? o r =
      if q.identity.key = (o, r) then some (q.identity.complete q.now outcome.body)
      else db.request? o r := by
    intro o r
    rw [hafter, engine_applyAll_cons, Engine.applyAll_append, engine_applyAll_cons,
      Engine.applyAll_nil, Db.request?_apply_one, hframe, Db.request?_apply_one]
    simp only [RequestIdentity.complete, RequestIdentity.pending, RequestIdentity.key,
      Prod.mk.injEq]
    by_cases he : q.identity.organisationId = o ∧ q.identity.requestId = r <;> simp [he]
  exact ⟨hcreated, hnew, fun o r hne => by rw [hread, if_neg (Ne.symm hne)],
    by rw [hread]; exact if_pos rfl⟩

/-- **A committed request was answered from its record and changed nothing,
or created.** -/
theorem ApiWrite.run_ok {w : ApiWrite} (h : engine.run w.request.tx db = .ok (outcome, db')) :
    Replayed w.request.identity db outcome ∧ db' = db ∨ Opened w.request outcome db db' := by
  cases w with
  | reserve rt command =>
    obtain ⟨program, hp, hreplay | ⟨reservedMinor, fx, hr⟩⟩ := reserve_cases h
    · exact Or.inl hreplay
    · obtain ⟨created, body⟩ := outcome
      have hbody : body = reservedBody rt command program reservedMinor fx :=
        congrArg WriteOutcome.body hr.answered
      refine Or.inr (opened_of_writes (congrArg WriteOutcome.created hr.answered) hr.newKey
        (w := .reservations [reservedRow rt command program reservedMinor fx] ::
          advanceWrites program (reservedAdvance rt command program reservedMinor) rt.now)
        (by simp [advanceWrites]) ?_)
      rw [hr.after, hbody]
      rfl
  | release rt command =>
    obtain ⟨program, hp, hreplay | ⟨row, rate, applied, -, -, hs⟩⟩ := release_cases h
    · exact Or.inl hreplay
    · refine Or.inr (opened_of_writes (by rw [hs.answered]) hs.newKey
        (w := advanceWrites program (advancePosition program.toProgramPosition
          [command.entry applied] rt.now) rt.now ++
          [.reservations ((db.reservationsFor program.id command.invoiceId).map
            (releasedRow applied rt.now))]) (by simp [advanceWrites]) ?_)
      rw [hs.after, List.append_assoc]
      rfl
  | cancel rt command =>
    obtain ⟨program, hp, hreplay | ⟨row, applied, -, hs⟩⟩ := cancel_cases h
    · exact Or.inl hreplay
    · refine Or.inr (opened_of_writes (by rw [hs.answered]) hs.newKey
        (w := advanceWrites program (advancePosition program.toProgramPosition
          [command.entry applied] rt.now) rt.now ++
          [.reservations ((db.reservationsFor program.id command.invoiceId).map
            (cancelledRow applied rt.now))]) (by simp [advanceWrites]) ?_)
      rw [hs.after, List.append_assoc]
      rfl

/-! ## Errors -/

omit [Sha256] in
/-- An error other than a request in flight. -/
def NotInFlight (failure : Failure) : Prop :=
  ∀ details, failure ≠ .refusal .requestInFlight details

section Throws

variable {α : Type} {rt : Runtime} {program : ProgramEntity}

omit [Sha256] in
theorem throws_orTypeError {x : Except TypeError α} : (orTypeError x).Throws NotInFlight := by
  cases x with
  | ok a => trivial
  | error e => exact fun _ h => by cases h

omit [Sha256] in
theorem throws_query {s : Stmt α} : (query s).Throws NotInFlight := fun _ => trivial

omit [Sha256] in
theorem throws_refuse {code : RefusalCode} {details : List (String × String)}
    (h : code ≠ .requestInFlight) : (refuse code details : Transaction α).Throws NotInFlight :=
  fun _ he => by cases he; exact h rfl

omit [Sha256] in
theorem throws_persistAdvance {programId : String} {result : AdvanceResult} {now : Timestamp}
    {flag : Bool} : (persistAdvance programId result now flag).Throws NotInFlight := by
  unfold persistAdvance
  split
  · exact throws_query.bind fun _ => throws_query
  · exact throws_query

theorem throws_proceedReserve {command : ReserveCommand} :
    (proceedReserve rt command program).Throws NotInFlight := by
  unfold proceedReserve
  refine throws_query.bind fun duplicate => ?_
  split
  · exact throws_refuse (by simp)
  refine throws_orTypeError.bind fun fx => ?_
  cases hd : decideReservation program.toProgramPosition command.amountMinor fx with
  | error e => exact fun _ h => by cases h
  | ok decision =>
    cases decision with
    | refused code details =>
      refine throws_refuse ?_
      rintro rfl
      simpa using decideReservation_refused hd
    | accepted reservedMinor fx =>
      exact throws_query.bind fun _ => throws_persistAdvance.bind fun _ =>
        throws_query.bind fun _ => trivial

theorem throws_proceedRelease {command : ReleaseCommand} :
    (proceedRelease rt command program).Throws NotInFlight := by
  unfold proceedRelease
  split
  · exact throws_refuse (by simp)
  refine throws_query.bind fun found => ?_
  cases found with
  | none => exact throws_refuse (by simp)
  | some row =>
    refine throws_orTypeError.bind fun scaledRate => ?_
    cases hd : releasePolicy command.releaseMinor command.currency row.snapshot scaledRate with
    | error e => exact fun _ h => by cases h
    | ok decision =>
      cases decision with
      | error code =>
        refine throws_refuse ?_
        rintro rfl
        simpa using releasePolicy_error hd
      | ok applied =>
        exact throws_persistAdvance.bind fun _ => throws_query.bind fun _ =>
          throws_query.bind fun _ => trivial

theorem throws_proceedCancel {command : CancelCommand} :
    (proceedCancel rt command program).Throws NotInFlight := by
  unfold proceedCancel
  split
  · exact throws_refuse (by simp)
  refine throws_query.bind fun found => ?_
  cases found with
  | none => exact throws_refuse (by simp)
  | some row =>
    dsimp only
    cases hd : cancelPolicy row.snapshot with
    | error code =>
      refine throws_refuse ?_
      rintro rfl
      simpa using cancelPolicy_error hd
    | ok applied =>
      exact throws_persistAdvance.bind fun _ => throws_query.bind fun _ =>
        throws_query.bind fun _ => trivial

end Throws

/-- **No request that proceeds answers that one is in flight.** -/
theorem ApiWrite.throws_proceed (w : ApiWrite) (program : ProgramEntity) :
    (w.request.proceed program).Throws NotInFlight := by
  cases w with
  | reserve rt command => exact throws_proceedReserve
  | release rt command => exact throws_proceedRelease
  | cancel rt command => exact throws_proceedCancel

/-! ## Discipline -/

omit [Sha256] in
/-- A reply that comes with no effect. -/
def RequestReply.Idle : RequestReply → Prop
  | .write outcome => outcome.created = false
  | .swept _ => False

/-- The key a request inserts first. A sweep has none. -/
def RequestTransaction.guard (i : RequestTransaction) : Option Key :=
  i.request?.map WriteRequest.guard

/-- **Requests keep both disciplines**, among sweeps too. -/
theorem RequestTransaction.disciplined {i : RequestTransaction} {g : Key}
    (h : i.guard = some g) : Disciplined keyed RequestReply.Idle g i.tx := by
  cases i with
  | reserve rt command =>
    cases h
    exact ⟨scoped_reserve.map _, Keyed.Guarded.map keyed (Q := RequestReply.Idle) _ guarded_reserve⟩
  | release rt command =>
    cases h
    exact ⟨scoped_release.map _, Keyed.Guarded.map keyed (Q := RequestReply.Idle) _ guarded_release⟩
  | cancel rt command =>
    cases h
    exact ⟨scoped_cancel.map _, Keyed.Guarded.map keyed (Q := RequestReply.Idle) _ guarded_cancel⟩
  | sweep now days => cases h

end InvoiceReservation
