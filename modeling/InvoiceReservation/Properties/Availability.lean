import InvoiceReservation.Helpers.Trails
import InvoiceReservation.Model.Availability
import InvoiceReservation.Model.Locking
import InvoiceReservation.Properties.Refusals
/-!
# What a write answers and what is read next

The availability in a write's response is assembled from the row that was
locked and the position it was advanced to. Every field is what the read of
the committed row gives, except `reconciliationPending`: a write answers
`false`, and the read asks whom the newest explicit acknowledgement names.
-/

namespace InvoiceReservation

open Transactions

variable {db db' : Db} {p : Uuid} {rt : Runtime} {program : ProgramEntity}
variable {row : InvoiceReservationEntity} {outcome : WriteOutcome}

/-! ## The pending flag -/

/-- The newest explicit acknowledgement of a program names a reservation. -/
def NamedByNewest (db : Db) (p : Uuid) (row : InvoiceReservationEntity) : Prop :=
  ∃ sa ∈ db.newestAcknowledgements p, sa.names row = true

/-- **Reconciliation is pending** while one that is named has left ACTIVE. -/
theorem reconciliationPending_iff : reconciliationPending db p = true ↔
    ∃ row ∈ db.reservationsOf p, NamedByNewest db p row ∧ row.status ≠ .active := by
  unfold reconciliationPending NamedByNewest
  simp only [List.any_eq_true, Bool.and_eq_true, decide_eq_true_eq]
  constructor
  · rintro ⟨sa, hsa, row, hrow, hnames, hleft⟩
    exact ⟨row, hrow, ⟨sa, hsa, hnames⟩, hleft⟩
  · rintro ⟨row, hrow, ⟨sa, hsa, hnames⟩, hleft⟩
    exact ⟨sa, hsa, row, hrow, hnames, hleft⟩

/-- Whom it names is told by the acknowledgements and the reference. -/
theorem namedByNewest_congr {row' : InvoiceReservationEntity}
    (hacks : db'.acknowledgements = db.acknowledgements)
    (hreference : row'.treasuryReference = row.treasuryReference) :
    NamedByNewest db' p row' ↔ NamedByNewest db p row := by
  unfold NamedByNewest Db.newestAcknowledgements Db.explicitAcknowledgements
    SnapshotAcknowledgementEntity.names
  rw [hacks, hreference]

/-! ## The body -/

/-- The body of a row that an advance was persisted to is the one that was
answered, but for the flag. -/
theorem toAvailabilityBody_withPosition {entries : List PendingLedgerEntry} {pending : Bool}
    {observed : Option Timestamp} :
    let position := (advancePosition program.toProgramPosition entries rt.now).program
    toAvailabilityBody { program with toProgramPosition := position, positionChangedAt := rt.now }
        false observed =
      { toAvailabilityBody (Stmt.withPosition program position rt.now) pending observed with
        reconciliationPending := false } := by
  intro position
  obtain ⟨-, -, -, hid, hcurrency, hinvestigation, hverified⟩ :=
    @advances_advancePosition program.toProgramPosition entries rt.now
  have hid' : position.id = program.id := hid
  have hcurrency' : position.currency = program.currency := hcurrency
  have hinvestigation' : position.investigationRequired = program.investigationRequired :=
    hinvestigation
  have hverified' : position.positionVerified = program.positionVerified := hverified
  simp [toAvailabilityBody, Stmt.withPosition, hid', hcurrency', hinvestigation', hverified',
    totalReserved, available, isOverLimit]

/-- **A write answers what is read of the state it committed**, but for the
flag, which it answers as `false`. -/
theorem reads_back {programId : String} {entries : List PendingLedgerEntry}
    (hanswered : outcome.body.availability = (writeBody rt program
      (advancePosition program.toProgramPosition entries rt.now).program row).availability)
    (hafter : db'.program? (Uuid.ofText programId) = some (Stmt.withPosition program
      (advancePosition program.toProgramPosition entries rt.now).program rt.now)) :
    ∃ body, forProgram rt.newestObservedFor programId db' = .ok body ∧
      body.reconciliationPending = reconciliationPending db' (Uuid.ofText programId) ∧
      outcome.body.availability = { body with reconciliationPending := false } := by
  have hposition := (@advances_advancePosition program.toProgramPosition entries rt.now).id
  unfold forProgram
  rw [hafter]
  refine ⟨_, rfl, rfl, hanswered.trans ?_⟩
  unfold writeBody
  rw [hposition]
  exact toAvailabilityBody_withPosition

/-! ## The flag after a write -/

/-- A body that answers `false` is the one that is read where the flag is. -/
theorem eq_read_iff {answered body : AvailabilityBody} {pending : Bool}
    (hpending : body.reconciliationPending = pending)
    (hanswered : answered = { body with reconciliationPending := false }) :
    answered = body ↔ pending = false := by
  subst hpending hanswered
  constructor
  · intro h
    exact (congrArg (·.reconciliationPending) h).symm
  · intro h
    rw [← h]

/-- A settlement leaves the flag off exactly where what it settles is not
named, nor anything that has left ACTIVE. -/
theorem Settled.reconciliationPending_iff {identity : RequestIdentity} {invoiceId : String}
    {entry : PendingLedgerEntry} {update : InvoiceReservationEntity → InvoiceReservationEntity}
    (h : Settled rt identity invoiceId entry update db program row outcome db')
    (hfiled : Filed (db.reservationsOf program.id)) (hkey : ∀ r, (update r).key = r.key)
    (hreference : ∀ r, (update r).treasuryReference = r.treasuryReference)
    (hleft : ∀ r, (update r).status ≠ .active) :
    reconciliationPending db' program.id = false ↔
      ∀ r ∈ db.reservationsOf program.id, NamedByNewest db program.id r →
        r.status = .active ∧ r.invoiceId ≠ invoiceId := by
  have hrows := h.reservationsOf_after hfiled hkey
  have hacks := h.acknowledgements_after
  rw [← Bool.not_eq_true, InvoiceReservation.reconciliationPending_iff, hrows]
  constructor
  · intro hnone r hr hnamed
    have hquiet : ∀ r', r'.treasuryReference = r.treasuryReference →
        r' = (if program.id = program.id ∧ decide (r.invoiceId = invoiceId) = true
          then update r else r) → r'.status = .active := by
      intro r' hsame he
      by_contra hstatus
      exact hnone ⟨r', List.mem_map.mpr ⟨r, hr, he.symm⟩,
        (namedByNewest_congr hacks hsame).mpr hnamed, hstatus⟩
    by_cases hinvoice : r.invoiceId = invoiceId
    · have hactive := hquiet (update r) (hreference r) (by simp [hinvoice])
      exact absurd hactive (hleft r)
    · exact ⟨hquiet r rfl (by simp [hinvoice]), hinvoice⟩
  · rintro hall ⟨r', hr', hnamed, hstatus⟩
    obtain ⟨r, hr, rfl⟩ := List.mem_map.mp hr'
    by_cases hinvoice : r.invoiceId = invoiceId
    · simp only [hinvoice, decide_true, and_self, if_true] at hnamed
      exact (hall r hr ((namedByNewest_congr hacks (hreference r)).mp hnamed)).2 hinvoice
    · simp only [hinvoice, decide_false, Bool.false_eq_true, and_false, if_false] at hnamed hstatus
      exact hstatus (hall r hr ((namedByNewest_congr hacks rfl).mp hnamed)).1

variable [Sha256]

/-- An accepted reserve leaves the flag as it was. -/
theorem Reserved.reconciliationPending_iff {command : ReserveCommand} {reservedMinor : Int}
    {fx : Option FxRate} (h : Reserved rt command db program reservedMinor fx outcome db') :
    reconciliationPending db' program.id = false ↔
      ∀ r ∈ db.reservationsOf program.id, NamedByNewest db program.id r → r.status = .active := by
  have hrows : db'.reservationsOf program.id = db.reservationsOf program.id ++
      [reservedRow rt command program reservedMinor fx] := by
    rw [h.reservationsOf_after, if_pos rfl]
  have hacks := h.acknowledgements_after
  rw [← Bool.not_eq_true, InvoiceReservation.reconciliationPending_iff, hrows]
  constructor
  · intro hnone r hr hnamed
    by_contra hstatus
    exact hnone ⟨r, List.mem_append_left _ hr, (namedByNewest_congr hacks rfl).mpr hnamed, hstatus⟩
  · rintro hall ⟨r, hr, hnamed, hstatus⟩
    rcases List.mem_append.mp hr with hr | hr
    · exact hstatus (hall r hr ((namedByNewest_congr hacks rfl).mp hnamed))
    · rw [List.mem_singleton.mp hr] at hstatus
      exact hstatus rfl

/-! ## Writes -/

omit [Sha256] in
/-- A write's answer beside what is read of the state it committed: they differ
in the flag at most, and are the same exactly where a condition holds. -/
def AnswersRead (rt : Runtime) (programId : String) (db' : Db) (answered : AvailabilityBody)
    (condition : Prop) : Prop :=
  ∃ body, forProgram rt.newestObservedFor programId db' = .ok body ∧
    answered = { body with reconciliationPending := false } ∧ (answered = body ↔ condition)

/-- **An accepted reserve.** -/
theorem Reserved.answersRead {command : ReserveCommand} {reservedMinor : Int} {fx : Option FxRate}
    (h : Reserved rt command db program reservedMinor fx outcome db')
    (hid : program.id = Uuid.ofText command.programId) :
    AnswersRead rt command.programId db' outcome.body.availability
      (∀ r ∈ db.reservationsOf program.id, NamedByNewest db program.id r → r.status = .active) := by
  have hanswered : outcome.body.availability = (writeBody rt program
      (advancePosition program.toProgramPosition [command.entry reservedMinor] rt.now).program
      (reservedRow rt command program reservedMinor fx)).availability := by
    rw [h.answered]
    rfl
  have hafter : db'.program? (Uuid.ofText command.programId) = some (Stmt.withPosition program
      (advancePosition program.toProgramPosition [command.entry reservedMinor] rt.now).program
        rt.now) := by
    rw [← hid, h.program?_after, if_pos rfl]
    rfl
  obtain ⟨body, hbody, hpending, hsame⟩ := reads_back hanswered hafter
  refine ⟨body, hbody, hsame, (eq_read_iff hpending hsame).trans ?_⟩
  rw [← hid]
  exact h.reconciliationPending_iff

omit [Sha256] in
/-- **An accepted release or cancellation.** -/
theorem Settled.answersRead {identity : RequestIdentity} {programId invoiceId : String}
    {entry : PendingLedgerEntry} {update : InvoiceReservationEntity → InvoiceReservationEntity}
    (h : Settled rt identity invoiceId entry update db program row outcome db')
    (hid : program.id = Uuid.ofText programId)
    (hfiled : Filed (db.reservationsOf program.id)) (hkey : ∀ r, (update r).key = r.key)
    (hreference : ∀ r, (update r).treasuryReference = r.treasuryReference)
    (hleft : ∀ r, (update r).status ≠ .active) :
    AnswersRead rt programId db' outcome.body.availability
      (∀ r ∈ db.reservationsOf program.id, NamedByNewest db program.id r →
        r.status = .active ∧ r.invoiceId ≠ invoiceId) := by
  have hanswered : outcome.body.availability = (writeBody rt program
      (advancePosition program.toProgramPosition [entry] rt.now).program
      (update row)).availability := by
    rw [h.answered]
  have hafter : db'.program? (Uuid.ofText programId) = some (Stmt.withPosition program
      (advancePosition program.toProgramPosition [entry] rt.now).program rt.now) := by
    rw [← hid, h.program?_after, if_pos rfl]
  obtain ⟨body, hbody, hpending, hsame⟩ := reads_back hanswered hafter
  refine ⟨body, hbody, hsame, (eq_read_iff hpending hsame).trans ?_⟩
  rw [← hid]
  exact h.reconciliationPending_iff hfiled hkey hreference hleft

omit [Sha256] in
/-- What a write reads the clock and the lag with, the program it is of, and
the invoice whose reservation it settles, if any. -/
def RequestTransaction.written? :
    RequestTransaction → Option (Runtime × String × Option String)
  | .reserve rt command => some (rt, command.programId, none)
  | .release rt command => some (rt, command.programId, some command.invoiceId)
  | .cancel rt command => some (rt, command.programId, some command.invoiceId)
  | .sweep _ _ => none

/-- **What an accepted write answers is what is read of the state it
committed**, but for `reconciliationPending`, which it answers as `false`. So
the two are the same exactly where the newest explicit acknowledgement of the
program names no reservation that has left ACTIVE, and not the one the write
settles. -/
theorem write_answers_next_read_iff (hlegal : db.Legal) {t : RequestTransaction}
    {programId : String} {settles : Option String}
    (hwritten : t.written? = some (rt, programId, settles))
    (hrun : engine.run t.tx db = .ok (.write outcome, db')) (hcreated : outcome.created = true) :
    AnswersRead rt programId db' outcome.body.availability
      (∀ row ∈ db.reservationsOf (Uuid.ofText programId),
        NamedByNewest db (Uuid.ofText programId) row →
          row.status = .active ∧ settles ≠ some row.invoiceId) := by
  cases t with
  | sweep now days => cases hwritten
  | reserve rt command =>
    cases hwritten
    obtain ⟨reply, hreserve, hreply⟩ := Engine.run_map_ok.mp hrun
    cases hreply
    obtain ⟨program, hp, ⟨⟨record, -, hanswer⟩, -⟩ | ⟨reservedMinor, fx, hr⟩⟩ :=
      reserve_cases hreserve
    · simp [(answer_ok.mp hanswer).2.2.2.2] at hcreated
    have hid := Db.id_of_program? hp
    simpa [hid] using hr.answersRead hid
  | release rt command =>
    cases hwritten
    obtain ⟨reply, hrelease, hreply⟩ := Engine.run_map_ok.mp hrun
    cases hreply
    obtain ⟨program, hp, ⟨⟨record, -, hanswer⟩, -⟩ | ⟨row, scaledRate, applied, -, hd, hs⟩⟩ :=
      release_cases hrelease
    · simp [(answer_ok.mp hanswer).2.2.2.2] at hcreated
    have hid := Db.id_of_program? hp
    -- a release leaves no row active
    have hleft : ∀ r, (releasedRow applied rt.now r).status ≠ .active := by
      intro r
      have hstatus : (releasedRow applied rt.now r).status = applied.status := rfl
      rw [hstatus, (releasePolicy_accepted hd).status]
      split <;> simp
    have hanswers := hs.answersRead hid hlegal.filed (fun _ => rfl) (fun _ => rfl) hleft
    simpa [hid, eq_comm] using hanswers
  | cancel rt command =>
    cases hwritten
    obtain ⟨reply, hcancel, hreply⟩ := Engine.run_map_ok.mp hrun
    cases hreply
    obtain ⟨program, hp, ⟨⟨record, -, hanswer⟩, -⟩ | ⟨row, applied, hd, hs⟩⟩ :=
      cancel_cases hcancel
    · simp [(answer_ok.mp hanswer).2.2.2.2] at hcreated
    have hid := Db.id_of_program? hp
    have hleft : ∀ r, (cancelledRow applied rt.now r).status ≠ .active := by
      intro r hactive
      have hterminal := (cancelPolicy_ok hd).terminal
      have hstatus : (cancelledRow applied rt.now r).status = applied.status := rfl
      rw [← hstatus, hactive] at hterminal
      exact absurd (hterminal.mpr rfl) (by decide)
    have hanswers := hs.answersRead hid hlegal.filed (fun _ => rfl) (fun _ => rfl) hleft
    simpa [hid, eq_comm] using hanswers

end InvoiceReservation

namespace InvoiceReservation

open Transactions

attribute [local instance] trafficSha256

/-- A reservation that treasury has given its own reference. -/
def treasuryReferenced (row : InvoiceReservationEntity) : InvoiceReservationEntity :=
  { row with treasuryReference := some "TRSY-1" }

/-- A reservation of 100, and a snapshot that names it. -/
def acknowledgedDb : Db :=
  let reserved := Operation.run reservedTraffic migrated
  ((reserved.apply (.reservations (reserved.reservations.map treasuryReferenced))).apply
    (.message ⟨"snap-00001", Uuid.ofText northwindUsdProgramId, .snapshot, 1,
      "f945bfff2a326d577fcfb581743a8526b7003c92975a69faf15b9ac9abbf0393", 1000⟩)).apply
    (.acknowledgement ⟨"snap-00001", Uuid.ofText northwindUsdProgramId, 1, .explicit,
      some ["TRSY-1"], none⟩)

theorem acknowledgedDb_legal : acknowledgedDb.Legal := by
  have hreserved : (Operation.run reservedTraffic migrated).Legal := legal_initial.run _
  have hreferenced := hreserved.rewrite (f := treasuryReferenced) (fun r hr => hr) (fun _ => rfl)
    (fun _ => rfl) fun r hr => (hreserved.reservations.rows r hr).checks
  exact (hreferenced.message (by decide) (by decide +kernel)).acknowledgement
    ⟨by decide, by decide, by decide, by decide +kernel⟩ (by decide +kernel)

/-- The release of all of it: what it answers, and what is read next. -/
theorem releaseOfAcknowledged : (engine.run (release (callAt 2)
    (releaseCommand "req-00002" "INV-1" 100)) acknowledgedDb).toOption.map (fun reply =>
      (reply.1.created, reply.1.body.availability.reconciliationPending,
        (forProgram (callAt 2).newestObservedFor northwindUsdProgramId reply.2).toOption.map
          (·.reconciliationPending))) = some (true, false, some true) := by
  rw [acknowledgedDb, reservedTraffic, run_seed]
  decide +kernel

/-- The release answers that no reconciliation is pending, and the read that
follows it that one is. -/
theorem release_answers_not_pending : acknowledgedDb.Legal ∧ ∃ outcome db' body,
    engine.run (release (callAt 2) (releaseCommand "req-00002" "INV-1" 100)) acknowledgedDb =
      .ok (outcome, db') ∧ outcome.created = true ∧
    forProgram (callAt 2).newestObservedFor northwindUsdProgramId db' = .ok body ∧
    outcome.body.availability ≠ body := by
  have hanswers := releaseOfAcknowledged
  cases hrun : engine.run (release (callAt 2) (releaseCommand "req-00002" "INV-1" 100))
      acknowledgedDb with
  | error e => simp [hrun, Except.toOption] at hanswers
  | ok reply =>
    obtain ⟨outcome, db'⟩ := reply
    simp only [hrun, Except.toOption, Option.map_some, Option.some.injEq, Prod.mk.injEq] at hanswers
    obtain ⟨hcreated, hanswered, hread⟩ := hanswers
    cases hbody : forProgram (callAt 2).newestObservedFor northwindUsdProgramId db' with
    | error e => simp [hbody] at hread
    | ok body =>
      simp only [hbody, Option.map_some, Option.some.injEq] at hread
      refine ⟨acknowledgedDb_legal, outcome, db', body, rfl, hcreated, hbody, fun hsame => ?_⟩
      rw [hsame, hread] at hanswered
      cases hanswered

theorem write_answers_next_read_iff_releaseOfAcknowledged : ∃ outcome db',
    engine.run (RequestTransaction.release (callAt 2) (releaseCommand "req-00002" "INV-1" 100)).tx
      acknowledgedDb = .ok (.write outcome, db') ∧
    AnswersRead (callAt 2) northwindUsdProgramId db' outcome.body.availability False := by
  have hanswers := releaseOfAcknowledged
  cases hrun : engine.run (release (callAt 2) (releaseCommand "req-00002" "INV-1" 100))
      acknowledgedDb with
  | error e => simp [hrun, Except.toOption] at hanswers
  | ok reply =>
    obtain ⟨outcome, db'⟩ := reply
    simp only [hrun, Except.toOption, Option.map_some, Option.some.injEq, Prod.mk.injEq] at hanswers
    have htx : engine.run (RequestTransaction.release (callAt 2)
        (releaseCommand "req-00002" "INV-1" 100)).tx acknowledgedDb = .ok (.write outcome, db') :=
      Engine.run_map_ok.mpr ⟨outcome, hrun, rfl⟩
    refine ⟨outcome, db', htx, ?_⟩
    obtain ⟨body, hbody, hflag, hsame⟩ :=
      write_answers_next_read_iff acknowledgedDb_legal rfl htx hanswers.1
    refine ⟨body, hbody, hflag, hsame.trans ⟨fun hquiet => ?_, False.elim⟩⟩
    -- the reservation that is settled is the one that is named
    have hnamed : ∃ row ∈ acknowledgedDb.reservationsOf (Uuid.ofText northwindUsdProgramId),
        row.invoiceId = "INV-1" ∧
          ∃ sa ∈ acknowledgedDb.newestAcknowledgements (Uuid.ofText northwindUsdProgramId),
            sa.names row = true := by
      rw [acknowledgedDb, reservedTraffic, run_seed]
      decide +kernel
    obtain ⟨row, hrow, hinvoice, hnames⟩ := hnamed
    exact (hquiet row hrow hnames).2 (congrArg some hinvoice.symm)

end InvoiceReservation
