import InvoiceReservation.Helpers.Runs
/-!
# The three writes, inverted

A committed reserve, release or cancel was answered from its record and
changed nothing, or it created: then everything it read and decided is
named here, with the writes it made in order.
-/

namespace InvoiceReservation

open Transactions

variable {db db' : Db} {rt : Runtime} {program : ProgramEntity} {outcome : WriteOutcome}

/-- A request that was answered from its record. -/
def Replayed (identity : RequestIdentity) (db : Db) (outcome : WriteOutcome) : Prop :=
  ∃ row, db.request? identity.organisationId identity.requestId = some row ∧
    identity.answer row = .ok outcome

/-- A replay is of the record's own operation and content, which is complete. -/
theorem answer_ok {identity : RequestIdentity} {row : RequestRecordEntity} :
    identity.answer row = .ok outcome ↔
      row.operation = identity.operation ∧ row.contentFingerprint = identity.fingerprint ∧
        row.state = .complete ∧ row.outcome = some outcome.body ∧ outcome.created = false := by
  unfold RequestIdentity.answer decideReplay
  by_cases h : row.operation ≠ identity.operation ∨ row.contentFingerprint ≠ identity.fingerprint
  · simp only [h, if_true, reduceCtorEq, false_iff]
    rintro ⟨ho, hf, -⟩
    exact h.elim (fun h => h ho) (fun h => h hf)
  · simp only [h, if_false]
    simp only [ne_eq, not_or, not_not] at h
    cases hs : row.state with
    | pending => simp
    | expired => simp
    | complete =>
      cases hb : row.outcome with
      | none => simp
      | some body =>
        obtain ⟨created, body'⟩ := outcome
        simp only [Except.ok.injEq, WriteOutcome.mk.injEq, h.1, h.2, true_and, Option.some.injEq]
        constructor
        · rintro ⟨rfl, rfl⟩; exact ⟨rfl, rfl⟩
        · rintro ⟨rfl, rfl⟩; exact ⟨rfl, rfl⟩

/-- **A request committed from its record, or with a new record of its own.** -/
theorem withIdempotency_cases {identity : RequestIdentity} {now : Timestamp}
    {proceed : Transaction WriteOutcome}
    (h : engine.run (withIdempotency identity now proceed) db = .ok (outcome, db')) :
    Replayed identity db outcome ∧ db' = db ∨
      db.request? identity.organisationId identity.requestId = none ∧
        engine.run proceed (db.apply (.requests [identity.pending now])) = .ok (outcome, db') := by
  rw [run_withIdempotency (storable_of_withIdempotency h)] at h
  cases hr : db.request? identity.organisationId identity.requestId with
  | some row =>
    simp only [hr] at h
    cases ha : identity.answer row with
    | error e => simp [ha, Except.map] at h
    | ok answered =>
      simp only [ha, Except.map, Except.ok.injEq, Prod.mk.injEq] at h
      exact Or.inl ⟨⟨row, hr, by rw [ha, h.1]⟩, h.2.symm⟩
  | none =>
    simp only [hr] at h
    split at h
    · exact Or.inr ⟨rfl, h⟩
    · simp at h

/-- The end of a request: its record is completed. -/
theorem run_completeRequest {identity : RequestIdentity} {now : Timestamp} {body : WriteBody}
    {α : Type} {k : Unit → Transaction α} (hid : storableText identity.requestId = true)
    (h : db.request? identity.organisationId identity.requestId = some (identity.pending now)) :
    engine.run (completeRequest identity body >>= k) db =
      engine.run (k ()) (db.apply (.requests [identity.complete now body])) := by
  rw [completeRequest, run_query_of_parameters (by exact Constraint.forall_text hid)]
  simp only [Stmt.exec, h]
  rfl

@[simp] theorem request?_apply_pending {identity : RequestIdentity} {now : Timestamp} :
    (db.apply (.requests [identity.pending now])).request? identity.organisationId
      identity.requestId = some (identity.pending now) := by
  rw [Db.request?_apply_one]
  simp [RequestIdentity.pending]

/-- The amounts of a row that met its `CHECK`s. -/
theorem reservationChecks_ok {row : InvoiceReservationEntity}
    (h : ∀ c ∈ reservationChecks row, c.1 = true) :
    0 < row.reservedMinor ∧ 0 ≤ row.outstandingReservedMinor ∧
      row.outstandingReservedMinor ≤ row.reservedMinor := by
  simp only [reservationChecks, List.forall_mem_cons, Constraint.check, Bool.and_eq_true,
    decide_eq_true_eq] at h
  obtain ⟨-, -, -, -, -, -, ⟨-, hpositive⟩, -, -, -, ⟨hlow, hhigh⟩, -⟩ := h
  exact ⟨hpositive, hlow, hhigh⟩

/-! ## Reserve -/

variable [Sha256]

omit [Sha256] in
/-- The row of an accepted reserve. -/
def reservedRow (rt : Runtime) (command : ReserveCommand) (program : ProgramEntity)
    (reservedMinor : Int) (fx : Option FxRate) : InvoiceReservationEntity :=
  Stmt.newReservation rt.generatedId program.id command.invoiceText command.amountMinor
    command.currency program.currency reservedMinor fx rt.now

omit [Sha256] in
/-- The advance of an accepted reserve. -/
def reservedAdvance (rt : Runtime) (command : ReserveCommand) (program : ProgramEntity)
    (reservedMinor : Int) : AdvanceResult :=
  advancePosition program.toProgramPosition [command.entry reservedMinor] rt.now

omit [Sha256] in
/-- The body of an accepted reserve. -/
def reservedBody (rt : Runtime) (command : ReserveCommand) (program : ProgramEntity)
    (reservedMinor : Int) (fx : Option FxRate) : WriteBody :=
  writeBody rt program (reservedAdvance rt command program reservedMinor).program
    (reservedRow rt command program reservedMinor fx)

/-- A reserve that created its reservation. -/
structure Reserved (rt : Runtime) (command : ReserveCommand) (db : Db) (program : ProgramEntity)
    (reservedMinor : Int) (fx : Option FxRate) (outcome : WriteOutcome) (db' : Db) : Prop where
  newKey : db.request? command.organisationId command.requestId = none
  newInvoice : db.reservationsFor program.id command.invoiceText = []
  newId : db.hasReservationId rt.generatedId = false
  resolved : ∃ resolution, resolveFx rt command program = .ok resolution ∧
    decideReservation program.toProgramPosition command.amountMinor resolution =
      .ok (.accepted reservedMinor fx)
  checked : ∀ c ∈ reservationChecks (reservedRow rt command program reservedMinor fx), c.1 = true
  persistable : Persistable db program (reservedAdvance rt command program reservedMinor) false
  answered : outcome = ⟨true, reservedBody rt command program reservedMinor fx⟩
  after : db' = engine.applyAll
    (.requests [command.identity.pending rt.now] ::
      .reservations [reservedRow rt command program reservedMinor fx] ::
      (advanceWrites program (reservedAdvance rt command program reservedMinor) rt.now ++
        [.requests [command.identity.complete rt.now
          (reservedBody rt command program reservedMinor fx)]])) db

namespace Reserved

variable {command : ReserveCommand} {reservedMinor : Int} {fx : Option FxRate}

/-- The program rows an accepted reserve leaves. -/
theorem program?_after (h : Reserved rt command db program reservedMinor fx outcome db')
    (q : Uuid) : db'.program? q = if program.id = q then
      some (Stmt.withPosition program
        (reservedAdvance rt command program reservedMinor).program rt.now) else db.program? q := by
  rw [h.after]
  simp [advanceWrites, reservedAdvance, Stmt.withPosition]

theorem reservationsOf_put (h : Reserved rt command db program reservedMinor fx outcome db')
    (q : Uuid) : db'.reservationsOf q = Table.putAll InvoiceReservationEntity.key
      ([reservedRow rt command program reservedMinor fx].filter (·.programId = q))
      (db.reservationsOf q) := by
  rw [h.after]
  simp [advanceWrites]

theorem ledger_after (h : Reserved rt command db program reservedMinor fx outcome db') :
    db'.ledger = db.ledger ++ Stmt.ledgerRows program.id
      (reservedAdvance rt command program reservedMinor).entries rt.now := by
  rw [h.after]
  simp [advanceWrites, Db.apply]

theorem messages_after (h : Reserved rt command db program reservedMinor fx outcome db') :
    db'.messages = db.messages := by
  rw [h.after]
  simp [advanceWrites, Db.apply]

theorem acknowledgements_after
    (h : Reserved rt command db program reservedMinor fx outcome db') :
    db'.acknowledgements = db.acknowledgements := by
  rw [h.after]
  simp [advanceWrites, Db.apply]

/-- The id of the row is new, in every program. -/
theorem id_ne (h : Reserved rt command db program reservedMinor fx outcome db') {p : Uuid}
    {row : InvoiceReservationEntity} (hrow : row ∈ db.reservationsOf p) :
    row.id ≠ (reservedRow rt command program reservedMinor fx).id := by
  intro he
  have hfree := h.newId
  rw [Db.hasReservationId, List.any_eq_false] at hfree
  exact hfree row (Db.mem_reservationsOf.mp hrow).1 (decide_eq_true he)

/-- And its invoice is, in its program. -/
theorem invoiceId_ne (h : Reserved rt command db program reservedMinor fx outcome db')
    {row : InvoiceReservationEntity} (hrow : row ∈ db.reservationsOf program.id) :
    row.invoiceId ≠ (reservedRow rt command program reservedMinor fx).invoiceId := by
  intro he
  have hmem : row ∈ db.reservationsFor program.id command.invoiceText :=
    Db.mem_reservationsFor.mpr ⟨hrow, he⟩
  rw [h.newInvoice] at hmem
  cases hmem

end Reserved

/-- The writes of an accepted reserve, after its record was begun. -/
theorem acceptReservation_ok {command : ReserveCommand} {reservedMinor : Int}
    {fx : Option FxRate} (hp : db.program? (Uuid.ofText command.programId) = some program)
    (hr : db.request? command.identity.organisationId command.identity.requestId =
      some (command.identity.pending rt.now))
    (h : engine.run (acceptReservation rt command program reservedMinor fx) db =
      .ok (outcome, db')) :
    (db.hasReservationId rt.generatedId = false ∧
      (∀ c ∈ reservationChecks (reservedRow rt command program reservedMinor fx), c.1 = true) ∧
      Persistable db program (reservedAdvance rt command program reservedMinor) false ∧
      outcome = ⟨true, reservedBody rt command program reservedMinor fx⟩) ∧
    db' = engine.applyAll
      (.reservations [reservedRow rt command program reservedMinor fx] ::
        (advanceWrites program (reservedAdvance rt command program reservedMinor) rt.now ++
          [.requests [command.identity.complete rt.now
            (reservedBody rt command program reservedMinor fx)]])) db := by
  have hid := Db.id_of_program? hp
  unfold acceptReservation at h
  obtain ⟨row, ws, hx, h⟩ := run_query_ok h
  simp only [Stmt.exec, guarded_ok, List.forall_mem_append, List.forall_mem_cons,
    Constraint.unique, Bool.not_eq_true', Prod.mk.injEq] at hx
  obtain ⟨⟨hchecks, hfree, -⟩, rfl, rfl⟩ := hx
  rw [← hid] at hchecks h
  obtain ⟨u, c, hadvance, h⟩ := Engine.run_bind_ok.mp h
  obtain ⟨hpersist, rfl⟩ := (run_persistAdvance_ok (by simpa using hp)).mp hadvance
  rw [run_completeRequest (by exact storable_of_run rfl h)
    (by simpa [advanceWrites, Db.request?_apply] using hr)] at h
  simp only [run_pure, Except.ok.injEq, Prod.mk.injEq] at h
  refine ⟨⟨hfree, hchecks, hpersist.congr (by simp), h.1.symm⟩, ?_⟩
  rw [← h.2]
  rfl

/-- **A committed reserve.** -/
theorem reserve_cases {command : ReserveCommand}
    (h : engine.run (reserve rt command) db = .ok (outcome, db')) :
    ∃ program, db.program? (Uuid.ofText command.programId) = some program ∧
      (Replayed command.identity db outcome ∧ db' = db ∨
        ∃ reservedMinor fx, Reserved rt command db program reservedMinor fx outcome db') := by
  obtain ⟨program, hp, h⟩ := run_withProgramLock_ok h
  refine ⟨program, hp, ?_⟩
  rcases withIdempotency_cases h with hr | ⟨hnone, h⟩
  · exact Or.inl hr
  right
  have hid := Db.id_of_program? hp
  unfold proceedReserve at h
  rw [run_query_of_parameters (by exact Constraint.forall_text (storable_of_run rfl h))] at h
  simp only [Stmt.exec, Engine.applyAll_nil] at h
  split at h
  · simp at h
  rename_i hduplicate
  rw [run_orTypeError] at h
  cases hfx : resolveFx rt command program with
  | error e => simp [hfx] at h
  | ok resolution =>
  simp only [hfx, run_orTypeError] at h
  cases hdecision : decideReservation program.toProgramPosition command.amountMinor resolution with
  | error e => simp [hdecision] at h
  | ok decision =>
  simp only [hdecision] at h
  cases decision with
  | refused code details => simp at h
  | accepted reservedMinor fx =>
    obtain ⟨⟨hfree, hchecks, hpersist, ho⟩, rfl⟩ :=
      acceptReservation_ok (by simpa using hp) request?_apply_pending h
    refine ⟨reservedMinor, fx, hnone, ?_, ?_, ⟨resolution, hfx, hdecision⟩, hchecks,
      hpersist.congr (by simp), ho, rfl⟩
    · rw [hid]
      simpa [Db.reservationsFor, Db.reservationsOf_apply] using hduplicate
    · simpa [Db.hasReservationId, Db.apply] using hfree

/-! ## Release and cancel -/

omit [Sha256] in
/-- The row a release leaves. -/
def releasedRow (applied : ReleaseDecision) (now : Timestamp) (row : InvoiceReservationEntity) :
    InvoiceReservationEntity :=
  { row with
    outstandingInvoiceMinor := applied.outstandingInvoiceMinor
    outstandingReservedMinor := applied.outstandingReservedMinor
    status := applied.status
    updatedAt := now }

omit [Sha256] in
/-- The row a cancellation leaves. -/
def cancelledRow (applied : CancelDecision) (now : Timestamp) (row : InvoiceReservationEntity) :
    InvoiceReservationEntity :=
  { row with outstandingReservedMinor := 0, status := applied.status, updatedAt := now }

omit [Sha256] in
/-- A release or a cancellation that settled some of a reservation: `entry`
was added to the ledger and `update` made of the row. -/
structure Settled (rt : Runtime) (identity : RequestIdentity) (invoiceId : String)
    (entry : PendingLedgerEntry) (update : InvoiceReservationEntity → InvoiceReservationEntity)
    (db : Db) (program : ProgramEntity) (row : InvoiceReservationEntity) (outcome : WriteOutcome)
    (db' : Db) : Prop where
  newKey : db.request? identity.organisationId identity.requestId = none
  verified : program.positionVerified = true
  found : (db.reservationsFor program.id invoiceId).head? = some row
  checked : ∀ r ∈ db.reservationsFor program.id invoiceId,
    ∀ c ∈ reservationChecks (update r), c.1 = true
  persistable : Persistable db program
    (advancePosition program.toProgramPosition [entry] rt.now) false
  answered : outcome = ⟨true, writeBody rt program
    (advancePosition program.toProgramPosition [entry] rt.now).program (update row)⟩
  after : db' = engine.applyAll
    (.requests [identity.pending rt.now] ::
      (advanceWrites program (advancePosition program.toProgramPosition [entry] rt.now) rt.now ++
        [.reservations ((db.reservationsFor program.id invoiceId).map update),
          .requests [identity.complete rt.now outcome.body]])) db

namespace Settled

omit [Sha256]

variable {identity : RequestIdentity} {invoiceId : String} {entry : PendingLedgerEntry}
variable {update : InvoiceReservationEntity → InvoiceReservationEntity}
variable {row : InvoiceReservationEntity}

/-- The program rows a settlement leaves. -/
theorem program?_after (h : Settled rt identity invoiceId entry update db program row outcome db')
    (q : Uuid) : db'.program? q = if program.id = q then
      some (Stmt.withPosition program
        (advancePosition program.toProgramPosition [entry] rt.now).program rt.now)
    else db.program? q := by
  rw [h.after]
  simp [advanceWrites, Stmt.withPosition]

theorem reservationsOf_put
    (h : Settled rt identity invoiceId entry update db program row outcome db') (q : Uuid) :
    db'.reservationsOf q = Table.putAll InvoiceReservationEntity.key
      (((db.reservationsFor program.id invoiceId).map update).filter (·.programId = q))
      (db.reservationsOf q) := by
  rw [h.after]
  simp [advanceWrites]

theorem ledger_after (h : Settled rt identity invoiceId entry update db program row outcome db') :
    db'.ledger = db.ledger ++ Stmt.ledgerRows program.id
      (advancePosition program.toProgramPosition [entry] rt.now).entries rt.now := by
  rw [h.after]
  simp [advanceWrites, Db.apply]

theorem messages_after
    (h : Settled rt identity invoiceId entry update db program row outcome db') :
    db'.messages = db.messages := by
  rw [h.after]
  simp [advanceWrites, Db.apply]

theorem acknowledgements_after
    (h : Settled rt identity invoiceId entry update db program row outcome db') :
    db'.acknowledgements = db.acknowledgements := by
  rw [h.after]
  simp [advanceWrites, Db.apply]

end Settled

omit [Sha256] in
/-- **A settlement**, from the state in which its record was begun. -/
theorem settle_ok {programId invoiceId : String} {identity : RequestIdentity}
    {entry : PendingLedgerEntry} (update : InvoiceReservationEntity → InvoiceReservationEntity)
    {s : Stmt Unit} {row : InvoiceReservationEntity} {begun : Db} {body : WriteBody}
    (hs : ∀ c, Stmt.exec s c =
      Stmt.updateReservations (c.reservationsFor (Uuid.ofText programId) invoiceId) update)
    (hbegun : begun = db.apply (.requests [identity.pending rt.now]))
    (hp : db.program? (Uuid.ofText programId) = some program)
    (hnone : db.request? identity.organisationId identity.requestId = none)
    (hverified : program.positionVerified = true)
    (hrow : (begun.reservationsFor (Uuid.ofText programId) invoiceId).head? = some row)
    (hbody : body = writeBody rt program
      (advancePosition program.toProgramPosition [entry] rt.now).program (update row))
    (h : engine.run (do
      persistAdvance programId (advancePosition program.toProgramPosition [entry] rt.now) rt.now
      query s
      completeRequest identity body
      return ⟨true, body⟩) begun = .ok (outcome, db')) :
    Settled rt identity invoiceId entry update db program row outcome db' := by
  have hid := Db.id_of_program? hp
  have hp' : begun.program? (Uuid.ofText programId) = some program := by
    rw [hbegun]
    simpa using hp
  have hrows : begun.reservationsFor (Uuid.ofText programId) invoiceId =
      db.reservationsFor program.id invoiceId := by
    simp [hbegun, Db.reservationsFor, hid]
  obtain ⟨u, c, hadvance, h⟩ := Engine.run_bind_ok.mp h
  obtain ⟨hpersist, rfl⟩ := (run_persistAdvance_ok hp').mp hadvance
  have hkept : (engine.applyAll (advanceWrites program
      (advancePosition program.toProgramPosition [entry] rt.now) rt.now) begun).reservationsFor
      (Uuid.ofText programId) invoiceId = db.reservationsFor program.id invoiceId := by
    rw [← hrows]
    simp [Db.reservationsFor, advanceWrites]
  obtain ⟨v, ws, hx, h⟩ := run_query_ok h
  rw [hs, hkept] at hx
  simp only [Stmt.updateReservations, guarded_ok, Prod.mk.injEq] at hx
  obtain ⟨hchecks, -, rfl⟩ := hx
  have hpending : begun.request? identity.organisationId identity.requestId =
      some (identity.pending rt.now) := by
    rw [hbegun]
    exact request?_apply_pending
  rw [run_completeRequest (by exact storable_of_run rfl h)
    (by simpa [advanceWrites, Db.request?_apply] using hpending)] at h
  simp only [run_pure, Except.ok.injEq, Prod.mk.injEq] at h
  obtain ⟨rfl, rfl⟩ := h
  refine ⟨hnone, hverified, hrows ▸ hrow,
    fun r hr c hc => hchecks c (List.mem_flatMap.mpr ⟨r, hr, hc⟩), ?_, by rw [hbody], ?_⟩
  · exact hpersist.congr (by simp [hbegun])
  · simp only [hbegun, engine_applyAll_cons, Engine.applyAll_append, Engine.applyAll_nil]

/-- **A committed release.** -/
theorem release_cases {command : ReleaseCommand}
    (h : engine.run (release rt command) db = .ok (outcome, db')) :
    ∃ program, db.program? (Uuid.ofText command.programId) = some program ∧
      (Replayed command.identity db outcome ∧ db' = db ∨
        ∃ row scaledRate applied,
          scaleRate ((row.fxRate.map numericText).getD "1.0") = .ok scaledRate ∧
          releasePolicy command.releaseMinor command.currency row.snapshot scaledRate =
            .ok (.ok applied) ∧
          Settled rt command.identity command.invoiceId (command.entry applied)
            (releasedRow applied rt.now) db program row outcome db') := by
  obtain ⟨program, hp, h⟩ := run_withProgramLock_ok h
  refine ⟨program, hp, ?_⟩
  rcases withIdempotency_cases h with hr | ⟨hnone, h⟩
  · exact Or.inl hr
  right
  unfold proceedRelease at h
  split at h
  · simp at h
  rename_i hverified
  rw [run_query_of_parameters (by exact Constraint.forall_text (storable_of_run rfl h))] at h
  simp only [Stmt.exec, Engine.applyAll_nil] at h
  cases hrow : ((db.apply (.requests [command.identity.pending rt.now])).reservationsFor
      (Uuid.ofText command.programId) command.invoiceId).head? with
  | none => simp [hrow] at h
  | some row =>
  simp only [hrow, run_orTypeError] at h
  cases hrate : scaleRate ((row.fxRate.map numericText).getD "1.0") with
  | error e => simp [hrate] at h
  | ok scaledRate =>
  simp only [hrate] at h
  cases hdecision : releasePolicy command.releaseMinor command.currency row.snapshot scaledRate with
  | error e => simp [hdecision] at h
  | ok decision =>
  simp only [hdecision] at h
  cases decision with
  | error code => simp at h
  | ok applied =>
    exact ⟨row, scaledRate, applied, hrate, hdecision, settle_ok (releasedRow applied rt.now)
      (fun c => rfl) rfl hp hnone (by simpa using hverified) hrow rfl h⟩

/-- **A committed cancellation.** -/
theorem cancel_cases {command : CancelCommand}
    (h : engine.run (cancel rt command) db = .ok (outcome, db')) :
    ∃ program, db.program? (Uuid.ofText command.programId) = some program ∧
      (Replayed command.identity db outcome ∧ db' = db ∨
        ∃ row applied, cancelPolicy row.snapshot = .ok applied ∧
          Settled rt command.identity command.invoiceId (command.entry applied)
            (cancelledRow applied rt.now) db program row outcome db') := by
  obtain ⟨program, hp, h⟩ := run_withProgramLock_ok h
  refine ⟨program, hp, ?_⟩
  rcases withIdempotency_cases h with hr | ⟨hnone, h⟩
  · exact Or.inl hr
  right
  unfold proceedCancel at h
  split at h
  · simp at h
  rename_i hverified
  rw [run_query_of_parameters (by exact Constraint.forall_text (storable_of_run rfl h))] at h
  simp only [Stmt.exec, Engine.applyAll_nil] at h
  cases hrow : ((db.apply (.requests [command.identity.pending rt.now])).reservationsFor
      (Uuid.ofText command.programId) command.invoiceId).head? with
  | none => simp [hrow] at h
  | some row =>
  simp only [hrow] at h
  cases hdecision : cancelPolicy row.snapshot with
  | error code => simp [hdecision] at h
  | ok applied =>
    simp only [hdecision] at h
    exact ⟨row, applied, hdecision, settle_ok (cancelledRow applied rt.now) (fun c => rfl) rfl hp
      hnone (by simpa using hverified) hrow rfl h⟩

end InvoiceReservation
