import InvoiceReservation.Helpers.Conversions
import InvoiceReservation.Helpers.Writes
import InvoiceReservation.Model.Requests
import InvoiceReservation.Properties.Bounds
import InvoiceReservation.Properties.Outstanding
import Mathlib.Algebra.Order.BigOperators.Group.List
/-!
# The three writes, forward

A write of a program in good standing that is not refused meets every
constraint of every statement it makes, and commits.
-/

namespace InvoiceReservation

open Transactions

variable {db : Db} {rt : Runtime} {program : ProgramEntity} {row : InvoiceReservationEntity}

/-- A transaction that commits, or is refused. -/
def Concludes (t : Transaction WriteOutcome) (db : Db) : Prop :=
  (∃ outcome db', engine.run t db = .ok (outcome, db')) ∨
    ∃ code details, engine.run t db = .error (.refusal code details)

/-- What a write relies on: a program whose ledger and reservations explain
its position, within its bounds, and rows that are priced. -/
structure Reliable (db : Db) (program : ProgramEntity) : Prop where
  found : db.program? program.id = some program
  explains : Explains (db.ledgerOf program.id) program.toProgramPosition
  inBounds : program.toProgramPosition.InBounds
  tallied : Tallied (db.reservationsOf program.id) program.localReservedMinor
  currency : isCurrencyCode program.currency = true
  checks : ∀ row ∈ db.reservationsOf program.id, ∀ c ∈ reservationChecks row, c.1 = true
  rates : ∀ row ∈ db.reservationsOf program.id, ∀ rate, row.fxRate = some rate → rate < 10 ^ 20
  currencies : ∀ row ∈ db.reservationsOf program.id, isCurrencyCode row.programCurrency = true

/-- A request record is none of it. -/
theorem Reliable.requests {rows : List RequestRecordEntity} (h : Reliable db program) :
    Reliable (db.apply (.requests rows)) program := by
  refine ⟨?_, ?_, h.inBounds, ?_, h.currency, ?_, ?_, ?_⟩
  · simpa using h.found
  · simpa using h.explains
  · simpa using h.tallied
  · simpa using h.checks
  · simpa using h.rates
  · simpa using h.currencies

theorem Reliable.bounds (h : Reliable db program) :
    (0 ≤ program.localReservedMinor ∧ program.localReservedMinor ≤ bigintMax) ∧
      (0 ≤ program.treasuryReservedMinor ∧ program.treasuryReservedMinor ≤ bigintMax) ∧
        0 ≤ program.creditLimitMinor ∧ program.creditLimitMinor ≤ bigintMax :=
  ⟨h.inBounds .local, h.inBounds .treasury, h.inBounds .limit⟩

/-- The middleware's correlation can be held. -/
theorem storable_of_isCorrelationId {text : String} (h : isCorrelationId text = true) :
    storableText text = true := by
  refine List.all_eq_true.mpr fun c hc => ?_
  simp only [isCorrelationId, Bool.and_eq_true] at h
  have hchar := List.all_eq_true.mp h.2 c hc
  have hnot : c ≠ '\x00' := by
    rintro rfl
    simp at hchar
  simpa using hnot

/-- So can a currency's code. -/
theorem storable_of_isCurrencyCode {text : String} (h : isCurrencyCode text = true) :
    storableText text = true := by
  refine List.all_eq_true.mpr fun c hc => ?_
  simp only [isCurrencyCode, Bool.and_eq_true] at h
  have hchar := List.all_eq_true.mp h.2 c hc
  have hnot : c ≠ '\x00' := by
    rintro rfl
    simp at hchar
  simpa using hnot

/-- **A LOCAL entry that leaves LOCAL between zero and what it was, or
within the limit, can be persisted.** -/
theorem Reliable.persistable (h : Reliable db program) {entry : PendingLedgerEntry}
    {now : Timestamp} (htexts : ∀ c ∈ entry.texts, c.1 = true)
    (hcomponent : entry.component = .local)
    (hlow : 0 ≤ program.localReservedMinor + entry.deltaMinor)
    (hhigh : entry.deltaMinor ≤ 0 ∨
      program.localReservedMinor + entry.deltaMinor ≤ program.creditLimitMinor) :
    Persistable db program (advancePosition program.toProgramPosition [entry] now) false := by
  obtain ⟨hlocal, htreasury, hlimit⟩ := h.bounds
  have hmoved : ∀ c, (advancePosition program.toProgramPosition [entry] now).program.component c =
      program.component c + if c = .local then entry.deltaMinor else 0 := by
    intro c
    rw [advancePosition_component, componentSum_singleton, hcomponent]
    congr 1
    exact if_congr eq_comm rfl rfl
  have hafter := hmoved .local
  have hlimitAfter := hmoved .limit
  simp only [ProgramPosition.component, if_true, reduceCtorEq, if_false, add_zero]
    at hafter hlimitAfter
  refine h.explains.persistable_iff.mpr ⟨?_, fun c => ?_, fun hgrows => Or.inr ?_⟩
  · refine List.forall_mem_singleton.mpr ⟨htexts, inBigint_iff.mpr ?_⟩
    simp only [bigintMin, bigintMax] at *
    omega
  · rw [hmoved]
    cases c with
    | «local» =>
      simp only [ProgramPosition.component, if_true]
      omega
    | treasury => simpa [ProgramPosition.component] using htreasury
    | limit => simpa [ProgramPosition.component] using hlimit
  · rw [hafter] at hgrows ⊢
    rw [hlimitAfter]
    omega

/-! ## Settlements -/

/-- What is left of a reservation is legal where it is not more than there was. -/
theorem reservationChecks_left {outstandingInvoiceMinor outstandingReservedMinor : Int}
    {status : ReservationStatus} {now : Timestamp}
    (h : ∀ c ∈ reservationChecks row, c.1 = true)
    (hinvoice : 0 ≤ outstandingInvoiceMinor ∧ outstandingInvoiceMinor ≤ row.outstandingInvoiceMinor)
    (hreserved : 0 ≤ outstandingReservedMinor ∧
      outstandingReservedMinor ≤ row.outstandingReservedMinor) :
    ∀ c ∈ reservationChecks { row with
      outstandingInvoiceMinor := outstandingInvoiceMinor
      outstandingReservedMinor := outstandingReservedMinor
      status := status
      updatedAt := now }, c.1 = true := by
  have hmin : bigintMin ≤ 0 := by decide
  simp only [reservationChecks, List.forall_mem_cons, Constraint.bigint, Constraint.check,
    Bool.and_eq_true, decide_eq_true_eq, inBigint_iff] at h ⊢
  obtain ⟨hamount, hr, hoi, hor, hack, hversion, hpositive, hrate, hpresence, hib, hrb, hnil⟩ := h
  refine ⟨hamount, hr, ?_, ?_, hack, hversion, hpositive, hrate, hpresence, ?_, ?_, hnil⟩ <;> omega

/-- What one reservation holds is not more than the program's LOCAL. -/
theorem Reliable.outstanding_le (h : Reliable db program)
    (hrow : row ∈ db.reservationsOf program.id) :
    row.outstandingReservedMinor ≤ program.localReservedMinor := by
  rw [h.tallied.sum]
  refine List.single_le_sum ?_ _ (List.mem_map_of_mem hrow)
  intro n hn
  obtain ⟨r, hr, rfl⟩ := List.mem_map.mp hn
  exact (reservationChecks_ok (h.checks r hr)).2.1

/-- **The writes of a settlement**, after its record was begun. -/
theorem run_settle {programId invoiceId : String} {identity : RequestIdentity}
    {entry : PendingLedgerEntry} (update : InvoiceReservationEntity → InvoiceReservationEntity)
    {s : Stmt Unit} {body : WriteBody}
    (hs : ∀ c, Stmt.exec s c =
      Stmt.updateReservations (c.reservationsFor (Uuid.ofText programId) invoiceId) update)
    (hparameters : ∀ c ∈ s.parameters, c.1 = true)
    (hid : storableText identity.requestId = true)
    (hp : db.program? (Uuid.ofText programId) = some program)
    (hr : db.request? identity.organisationId identity.requestId = some (identity.pending rt.now))
    (hpersist : Persistable db program
      (advancePosition program.toProgramPosition [entry] rt.now) false)
    (hchecks : ∀ r ∈ db.reservationsFor (Uuid.ofText programId) invoiceId,
      ∀ c ∈ reservationChecks (update r), c.1 = true) :
    ∃ db', engine.run (do
      persistAdvance programId (advancePosition program.toProgramPosition [entry] rt.now) rt.now
      query s
      completeRequest identity body
      return (⟨true, body⟩ : WriteOutcome)) db = .ok (⟨true, body⟩, db') := by
  have hadvance : engine.run (persistAdvance programId
      (advancePosition program.toProgramPosition [entry] rt.now) rt.now) db =
        .ok ((), engine.applyAll (advanceWrites program
          (advancePosition program.toProgramPosition [entry] rt.now) rt.now) db) :=
    (run_persistAdvance_ok hp).mpr ⟨hpersist, rfl⟩
  have hrows : (engine.applyAll (advanceWrites program
      (advancePosition program.toProgramPosition [entry] rt.now) rt.now) db).reservationsFor
      (Uuid.ofText programId) invoiceId = db.reservationsFor (Uuid.ofText programId) invoiceId := by
    simp [Db.reservationsFor, advanceWrites]
  have hupdate : Stmt.exec s (engine.applyAll (advanceWrites program
      (advancePosition program.toProgramPosition [entry] rt.now) rt.now) db) =
        .ok ((), [.reservations ((db.reservationsFor (Uuid.ofText programId) invoiceId).map
          update)]) := by
    rw [hs, hrows]
    refine guarded_ok.mpr ⟨fun c hc => ?_, rfl⟩
    obtain ⟨r, hr', hc⟩ := List.mem_flatMap.mp hc
    exact hchecks r hr' c hc
  rw [Engine.run_bind, hadvance]
  dsimp only
  rw [run_query_of_exec hparameters hupdate, run_completeRequest hid (by
    simpa [advanceWrites, Db.request?_apply] using hr)]
  exact ⟨_, rfl⟩

/-- **A settlement commits** that returns no more than its reservation holds
and leaves a legal row. -/
theorem Reliable.settle (h : Reliable db program) {programId invoiceId : String}
    {identity : RequestIdentity} {entry : PendingLedgerEntry}
    (update : InvoiceReservationEntity → InvoiceReservationEntity) {s : Stmt Unit}
    {body : WriteBody}
    (hs : ∀ c, Stmt.exec s c =
      Stmt.updateReservations (c.reservationsFor (Uuid.ofText programId) invoiceId) update)
    (hparameters : ∀ c ∈ s.parameters, c.1 = true)
    (hid : storableText identity.requestId = true)
    (hp : db.program? (Uuid.ofText programId) = some program)
    (hr : db.request? identity.organisationId identity.requestId = some (identity.pending rt.now))
    (hfound : (db.reservationsFor (Uuid.ofText programId) invoiceId).head? = some row)
    (htexts : ∀ c ∈ entry.texts, c.1 = true) (hcomponent : entry.component = .local)
    (hdelta : -row.outstandingReservedMinor ≤ entry.deltaMinor ∧ entry.deltaMinor ≤ 0)
    (hchecks : ∀ c ∈ reservationChecks (update row), c.1 = true) :
    ∃ (outcome : WriteOutcome) (db' : Db), engine.run (do
      persistAdvance programId (advancePosition program.toProgramPosition [entry] rt.now) rt.now
      query s
      completeRequest identity body
      return ⟨true, body⟩) db = .ok (outcome, db') ∧ outcome.created = true := by
  have hprogram := Db.id_of_program? hp
  have hmem : row ∈ db.reservationsFor program.id invoiceId := by
    rw [hprogram]
    exact List.mem_of_head? hfound
  have hle := h.outstanding_le (Db.mem_reservationsFor.mp hmem).1
  have hpersist := @Reliable.persistable _ _ h entry rt.now htexts hcomponent (by omega)
    (Or.inl hdelta.2)
  obtain ⟨db', hrun⟩ := run_settle update hs hparameters hid hp hr hpersist fun r hr' c hc => by
    rw [← hprogram, Db.reservationsFor_of_nodup h.tallied.invoices hmem, List.mem_singleton] at hr'
    subst hr'
    exact hchecks c hc
  exact ⟨_, db', hrun, rfl⟩

/-- The row a settlement reads is one of its program's. -/
theorem mem_of_found {programId invoiceId : String}
    (hp : db.program? (Uuid.ofText programId) = some program)
    (hfound : (db.reservationsFor (Uuid.ofText programId) invoiceId).head? = some row) :
    row ∈ db.reservationsOf program.id := by
  rw [Db.id_of_program? hp]
  exact (Db.mem_reservationsFor.mp (List.mem_of_head? hfound)).1

/-- The rate a release reads back from its row. -/
theorem Reliable.scaled (h : Reliable db program) (hrow : row ∈ db.reservationsOf program.id) :
    ∃ scaledRate, scaleRate ((row.fxRate.map numericText).getD "1.0") = .ok scaledRate ∧
      0 < scaledRate := by
  cases hrate : row.fxRate with
  | none => exact ⟨10 ^ 10, by decide, by decide⟩
  | some rate =>
    have hcheck := h.checks row hrow
    simp only [reservationChecks, List.forall_mem_cons, Constraint.check, hrate, Option.all_some,
      decide_eq_true_eq] at hcheck
    have hpositive : 0 < rate := hcheck.2.2.2.2.2.2.2.1
    exact ⟨rate, scaleRate_numericText hpositive (h.rates row hrow rate hrate), hpositive⟩

/-- The texts of an entry of a write. -/
theorem WriteTexts.entry {requestId invoiceId : String} {entry : PendingLedgerEntry}
    (h : WriteTexts requestId invoiceId entry.correlationId)
    (horigin : entry.originReference = some invoiceId) : ∀ c ∈ entry.texts, c.1 = true := by
  simpa [PendingLedgerEntry.texts, Constraint.text, horigin] using
    And.intro h.invoiceId (storable_of_isCorrelationId h.correlationId)

variable [Sha256]

/-- What a release that is new comes to. -/
theorem run_proceedRelease {command : ReleaseCommand}
    (hinvoice : storableText command.invoiceId = true) :
    engine.run (proceedRelease rt command program) db =
      if program.positionVerified = false then .error (.refusal .positionUnverified [])
      else
        match (db.reservationsFor (Uuid.ofText command.programId) command.invoiceId).head? with
        | none => .error (.refusal .notFound [])
        | some row =>
          match scaleRate ((row.fxRate.map numericText).getD "1.0") with
          | .error e => .error (.typeError e)
          | .ok scaledRate =>
            match releasePolicy command.releaseMinor command.currency row.snapshot scaledRate with
            | .error e => .error (.typeError e)
            | .ok (.error code) => .error (.refusal code [])
            | .ok (.ok applied) =>
              engine.run (acceptRelease rt command program row applied) db := by
  unfold proceedRelease
  split
  · exact run_refuse
  rw [run_query_of_parameters (by exact Constraint.forall_text hinvoice)]
  simp only [Stmt.exec, Engine.applyAll_nil]
  cases (db.reservationsFor (Uuid.ofText command.programId) command.invoiceId).head? with
  | none => exact run_refuse
  | some row =>
    dsimp only
    rw [run_orTypeError]
    cases scaleRate ((row.fxRate.map numericText).getD "1.0") with
    | error e => rfl
    | ok scaledRate =>
      dsimp only
      rw [run_orTypeError]
      cases releasePolicy command.releaseMinor command.currency row.snapshot scaledRate with
      | error e => rfl
      | ok decision => cases decision <;> rfl

/-- And one of an invoice that the database cannot hold. -/
theorem run_proceedRelease_of_unstorable {command : ReleaseCommand}
    (hinvoice : storableText command.invoiceId = false) :
    engine.run (proceedRelease rt command program) db =
      if program.positionVerified = false then .error (.refusal .positionUnverified [])
      else .error (.sql (Constraint.text command.invoiceId).2) := by
  unfold proceedRelease
  split
  · exact run_refuse
  · exact run_query_of_unstorable rfl hinvoice

/-- **The writes of an accepted release commit.** -/
theorem Reliable.acceptRelease (h : Reliable db program) (rt : Runtime) {command : ReleaseCommand}
    {scaledRate : Int} {applied : ReleaseDecision}
    (htexts : WriteTexts command.requestId command.invoiceId command.correlationId)
    (hp : db.program? (Uuid.ofText command.programId) = some program)
    (hr : db.request? command.identity.organisationId command.identity.requestId =
      some (command.identity.pending rt.now))
    (hfound : (db.reservationsFor (Uuid.ofText command.programId) command.invoiceId).head? =
      some row) (hrate : 0 < scaledRate)
    (hdecision : releasePolicy command.releaseMinor command.currency row.snapshot scaledRate =
      .ok (.ok applied)) :
    ∃ outcome db', engine.run (acceptRelease rt command program row applied) db =
      .ok (outcome, db') ∧ outcome.created = true := by
  have hrow := mem_of_found hp hfound
  have hreleases := releasePolicy_accepted hdecision
  obtain ⟨outcome, hconverts, hleft⟩ := hreleases.converts
  have hinvoice : 0 ≤ row.snapshot.outstandingInvoiceMinor - command.releaseMinor := by
    have := hreleases.within
    omega
  have hlow : 0 ≤ applied.outstandingReservedMinor := by
    rw [hleft, convert_minor hconverts hinvoice hrate]
    exact converted_nonneg hinvoice hrate.le
  have hdelta : applied.deltaMinor =
      row.outstandingReservedMinor - applied.outstandingReservedMinor := hreleases.delta
  have hreturned := hreleases.returned
  have hpositive := hreleases.positive
  have hrest : applied.outstandingInvoiceMinor = if applied.outstandingReservedMinor = 0 then 0
      else row.outstandingInvoiceMinor - command.releaseMinor := hreleases.invoice
  have hwithin : command.releaseMinor ≤ row.outstandingInvoiceMinor := hreleases.within
  refine h.settle (releasedRow applied rt.now) (fun _ => rfl)
    (by exact Constraint.forall_text htexts.invoiceId) htexts.requestId hp hr hfound
    (htexts.entry rfl) rfl ?_ ?_
  · constructor <;> simp only [ReleaseCommand.entry] <;> omega
  · exact reservationChecks_left (h.checks row hrow) (by rw [hrest]; split <;> omega)
      ⟨hlow, by omega⟩

/-- **A release that is new.** -/
theorem Reliable.release (h : Reliable db program) {command : ReleaseCommand}
    (hcommand : command.Admitted)
    (htexts : WriteTexts command.requestId command.invoiceId command.correlationId)
    (hp : db.program? (Uuid.ofText command.programId) = some program)
    (hr : db.request? command.identity.organisationId command.identity.requestId =
      some (command.identity.pending rt.now)) :
    Concludes (proceedRelease rt command program) db := by
  rw [Concludes, run_proceedRelease htexts.invoiceId]
  split
  · exact Or.inr ⟨_, _, rfl⟩
  cases hfound : (db.reservationsFor (Uuid.ofText command.programId) command.invoiceId).head? with
  | none => exact Or.inr ⟨_, _, rfl⟩
  | some row =>
    have hrow := mem_of_found hp hfound
    obtain ⟨scaledRate, hscaled, hpositive⟩ := h.scaled hrow
    obtain ⟨decision, hdecision⟩ : ∃ decision, releasePolicy command.releaseMinor command.currency
        row.snapshot scaledRate = .ok decision :=
      ⟨_, releasePolicy_eq hcommand.amount.currency (h.currencies row hrow) hpositive⟩
    simp only [hscaled, hdecision]
    cases decision with
    | error code => exact Or.inr ⟨_, _, rfl⟩
    | ok applied =>
      obtain ⟨outcome, db', hrun, -⟩ := h.acceptRelease rt htexts hp hr hfound hpositive hdecision
      exact Or.inl ⟨outcome, db', hrun⟩

/-- **A cancellation that is new.** -/
theorem Reliable.cancel (h : Reliable db program) {command : CancelCommand}
    (htexts : WriteTexts command.requestId command.invoiceId command.correlationId)
    (hp : db.program? (Uuid.ofText command.programId) = some program)
    (hr : db.request? command.identity.organisationId command.identity.requestId =
      some (command.identity.pending rt.now)) :
    Concludes (proceedCancel rt command program) db := by
  unfold proceedCancel
  split
  · exact Or.inr ⟨_, _, run_refuse⟩
  rw [Concludes, run_query_of_parameters (by exact Constraint.forall_text htexts.invoiceId)]
  simp only [Stmt.exec, Engine.applyAll_nil]
  cases hfound : (db.reservationsFor (Uuid.ofText command.programId) command.invoiceId).head? with
  | none => exact Or.inr ⟨_, _, run_refuse⟩
  | some row =>
    have hrow := mem_of_found hp hfound
    dsimp only
    cases hdecision : cancelPolicy row.snapshot with
    | error code => exact Or.inr ⟨_, _, run_refuse⟩
    | ok applied =>
      have hdelta : applied.deltaMinor = row.outstandingReservedMinor - 0 :=
        (cancelPolicy_ok hdecision).delta
      obtain ⟨-, hlow, -⟩ := reservationChecks_ok (h.checks row hrow)
      have hinvoice : 0 ≤ row.outstandingInvoiceMinor := by
        have hcheck := h.checks row hrow
        simp only [reservationChecks, List.forall_mem_cons, Constraint.check, Bool.and_eq_true,
          decide_eq_true_eq] at hcheck
        exact hcheck.2.2.2.2.2.2.2.2.2.1.1
      obtain ⟨outcome, db', hrun, -⟩ : ∃ outcome db', engine.run
          (acceptCancel rt command program row applied) db = .ok (outcome, db') ∧
            outcome.created = true := by
        refine h.settle (cancelledRow applied rt.now) (fun _ => rfl)
          (by exact Constraint.forall_text htexts.invoiceId) htexts.requestId hp hr hfound
          (htexts.entry rfl) rfl ?_ ?_
        · constructor <;> simp only [CancelCommand.entry] <;> omega
        · exact reservationChecks_left (h.checks row hrow) ⟨hinvoice, le_refl _⟩ ⟨le_refl 0, hlow⟩
      exact Or.inl ⟨outcome, db', hrun⟩

/-! ## Reserve -/

omit [Sha256] in
/-- **The row of an accepted reserve is legal.** -/
theorem Reliable.reservedRow_checks (h : Reliable db program) {command : ReserveCommand}
    {resolution : FxResolution} {reservedMinor : Int} {fx : Option FxRate} {id p : Uuid}
    (hcommand : command.Admitted) (hresolved : resolveFx rt command program = .ok resolution)
    (haccepts : Accepts resolution reservedMinor fx)
    (havailable : reservedMinor ≤ available program.toProgramPosition) :
    ∀ c ∈ reservationChecks (Stmt.newReservation id p command.invoiceText command.amountMinor
      command.currency program.currency reservedMinor fx rt.now), c.1 = true := by
  obtain ⟨hlocal, htreasury, hlimit⟩ := h.bounds
  have hpositive := haccepts.positive
  have hamount := hcommand.amount.positive
  have hfits := hcommand.amount.fitsInt64
  have hmin : bigintMin ≤ 0 := by decide
  have hmax : (0 : Int) ≤ bigintMax := by decide
  have hreserved : reservedMinor ≤ bigintMax := by
    unfold available totalReserved at havailable
    omega
  have hrate : ∀ rate, (fx.bind fun rate => rateValue rate.rate) = some rate → 0 < rate := by
    intro rate hsome
    obtain ⟨resolved, -, hvalue⟩ := Option.bind_eq_some_iff.mp hsome
    obtain ⟨hvalue', hscaled, -⟩ := scaleRate_ok resolved.scaled
    rw [hvalue'] at hvalue
    cases hvalue
    exact hscaled
  -- a rate is asked for exactly where the currencies differ
  have hpresence : (command.currency == program.currency) =
      (fx.bind fun rate => rateValue rate.rate).isNone := by
    unfold resolveFx at hresolved
    rcases haccepts.rate with ⟨rfl, rfl⟩ | ⟨rate, rfl, rfl⟩
    · split at hresolved
      · rename_i hsame
        simp [hsame]
      · split at hresolved <;> cases hresolved
    · obtain ⟨hvalue, -, -⟩ := scaleRate_ok rate.scaled
      split at hresolved
      · cases hresolved
      · rename_i hdiffer
        simp [hdiffer, hvalue]
  dsimp only [reservationChecks, Stmt.newReservation]
  simp only [List.forall_mem_cons, Constraint.bigint, Constraint.check, inBigint_iff,
    Bool.and_eq_true, decide_eq_true_eq, beq_iff_eq, Option.all_eq_true]
  have hfits' : command.amountMinor ≤ bigintMax := hfits
  refine ⟨?_, ?_, ?_, ?_, ?_, rfl, ?_, hrate, hpresence, ?_, ?_, by simp⟩ <;>
    first | omega | exact ⟨hmin, hmax⟩

omit [Sha256] in
/-- The `INSERT` of a row that meets its constraints. -/
theorem exec_insertReservation {id p : Uuid} {invoiceId currency programCurrency : String}
    {amountMinor reservedMinor : Int} {fx : Option FxRate} {now : Timestamp}
    (hchecks : ∀ c ∈ reservationChecks (Stmt.newReservation id p invoiceId amountMinor currency
      programCurrency reservedMinor fx now), c.1 = true)
    (hid : db.hasReservationId id = false) (hinvoice : db.reservationsFor p invoiceId = [])
    (hprogram : (db.program? p).isSome = true) :
    Stmt.exec (.insertReservation id p invoiceId amountMinor currency programCurrency
      reservedMinor fx now) db =
        .ok (Stmt.newReservation id p invoiceId amountMinor currency programCurrency reservedMinor
          fx now, [.reservations [Stmt.newReservation id p invoiceId amountMinor currency
            programCurrency reservedMinor fx now]]) := by
  refine guarded_ok.mpr ⟨List.forall_mem_append.mpr ⟨hchecks, ?_⟩, rfl⟩
  simp [Constraint.unique, Constraint.foreignKey, hid, hinvoice, hprogram]

section Proceeds

variable {command : ReserveCommand} {resolution : FxResolution}

/-- A reserve of a new invoice, where the policy refuses. -/
theorem run_proceedReserve_refused {code : RefusalCode} {details : List (String × String)}
    (htext : storableText command.invoiceText = true)
    (hinvoice : db.reservationsFor (Uuid.ofText command.programId) command.invoiceText = [])
    (hresolved : resolveFx rt command program = .ok resolution)
    (hdecision : decideReservation program.toProgramPosition command.amountMinor resolution =
      .ok (.refused code details)) :
    engine.run (proceedReserve rt command program) db = .error (.refusal code details) := by
  unfold proceedReserve
  rw [run_query_of_parameters (by exact Constraint.forall_text htext)]
  simp only [Stmt.exec, hinvoice, List.isEmpty_nil, Bool.not_true, Bool.false_eq_true, if_false,
    run_orTypeError, hresolved, hdecision]
  exact run_refuse

/-- And where it accepts. -/
theorem run_proceedReserve_accepted {reservedMinor : Int} {fx : Option FxRate}
    (htext : storableText command.invoiceText = true)
    (hinvoice : db.reservationsFor (Uuid.ofText command.programId) command.invoiceText = [])
    (hresolved : resolveFx rt command program = .ok resolution)
    (hdecision : decideReservation program.toProgramPosition command.amountMinor resolution =
      .ok (.accepted reservedMinor fx)) :
    engine.run (proceedReserve rt command program) db =
      engine.run (acceptReservation rt command program reservedMinor fx) db := by
  unfold proceedReserve
  rw [run_query_of_parameters (by exact Constraint.forall_text htext)]
  simp only [Stmt.exec, hinvoice, List.isEmpty_nil, Bool.not_true, Bool.false_eq_true, if_false,
    Engine.applyAll_nil, run_orTypeError, hresolved, hdecision]

end Proceeds

/-- **The writes of an accepted reserve commit.** -/
theorem Reliable.acceptReservation (h : Reliable db program) {rt : Runtime}
    {command : ReserveCommand} {resolution : FxResolution} {reservedMinor : Int}
    {fx : Option FxRate} (hcommand : command.Admitted)
    (htexts : WriteTexts command.requestId command.invoiceText command.correlationId)
    (hp : db.program? (Uuid.ofText command.programId) = some program)
    (hr : db.request? command.identity.organisationId command.identity.requestId =
      some (command.identity.pending rt.now))
    (hid : db.hasReservationId rt.generatedId = false)
    (hinvoice : db.reservationsFor (Uuid.ofText command.programId) command.invoiceText = [])
    (hresolved : resolveFx rt command program = .ok resolution)
    (hdecision : decideReservation program.toProgramPosition command.amountMinor resolution =
      .ok (.accepted reservedMinor fx)) :
    ∃ outcome db', engine.run (acceptReservation rt command program reservedMinor fx) db =
      .ok (outcome, db') ∧ outcome.created = true := by
  have hamount : 0 < command.amountMinor := by
    have := hcommand.amount.positive
    omega
  obtain ⟨decision, hdecided, haccepts⟩ := @decideReservation_ok program.toProgramPosition
    command.amountMinor resolution h.currency hamount
  obtain rfl := Except.ok.inj (hdecision.symm.trans hdecided)
  have haccepts := haccepts reservedMinor fx rfl
  obtain ⟨-, -, havailable⟩ := decideReservation_accepted hdecision
  have hchecks := @Reliable.reservedRow_checks _ rt _ h command resolution reservedMinor fx
    rt.generatedId (Uuid.ofText command.programId) hcommand hresolved haccepts havailable
  have hpositive := haccepts.positive
  obtain ⟨hlocal, htreasury, hlimit⟩ := h.bounds
  have hpersist := @Reliable.persistable _ _ h (command.entry reservedMinor) rt.now
    (htexts.entry rfl) rfl (by simp only [ReserveCommand.entry]; omega) (Or.inr (by
      simp only [ReserveCommand.entry]
      unfold available totalReserved at havailable
      omega))
  have hinsert := exec_insertReservation hchecks hid hinvoice (by rw [hp]; rfl)
  unfold InvoiceReservation.acceptReservation
  have hsent : ∀ c ∈ (Stmt.insertReservation rt.generatedId (Uuid.ofText command.programId)
      command.invoiceText command.amountMinor command.currency program.currency reservedMinor fx
      rt.now).parameters, c.1 = true :=
    List.forall_mem_cons.mpr ⟨htexts.invoiceId,
      Constraint.forall_text (storable_of_isCurrencyCode hcommand.amount.currency)⟩
  rw [run_query_of_exec hsent hinsert, Engine.run_bind,
    (run_persistAdvance_ok (u := ()) (by simpa using hp)).mpr ⟨hpersist.congr (by simp), rfl⟩]
  dsimp only
  rw [run_completeRequest htexts.requestId
    (by simpa [advanceWrites, Db.request?_apply] using hr)]
  exact ⟨_, _, rfl, rfl⟩

/-- **A reserve that is new.** -/
theorem Reliable.reserve (h : Reliable db program) {command : ReserveCommand}
    (hcommand : command.Admitted)
    (htexts : WriteTexts command.requestId command.invoiceText command.correlationId)
    (hp : db.program? (Uuid.ofText command.programId) = some program)
    (hr : db.request? command.identity.organisationId command.identity.requestId =
      some (command.identity.pending rt.now))
    (hid : db.hasReservationId rt.generatedId = false)
    (hrates : ∀ base quote asOf, ∃ rate, rt.rateFor base quote asOf = .ok rate) :
    Concludes (proceedReserve rt command program) db := by
  by_cases hinvoice : db.reservationsFor (Uuid.ofText command.programId) command.invoiceText = []
  swap
  · have hsome : (db.reservationsFor (Uuid.ofText command.programId)
        command.invoiceText).isEmpty = false := by simpa using hinvoice
    unfold proceedReserve
    rw [Concludes, run_query_of_parameters (by exact Constraint.forall_text htexts.invoiceId)]
    simp only [Stmt.exec, hsome, Bool.not_false, if_true]
    exact Or.inr ⟨_, _, run_refuse⟩
  obtain ⟨resolution, hresolved⟩ : ∃ resolution, resolveFx rt command program = .ok resolution := by
    obtain ⟨rate, hrate⟩ := hrates command.currency program.currency rt.now
    unfold resolveFx
    rw [hrate]
    split
    · exact ⟨_, rfl⟩
    · cases rate <;> exact ⟨_, rfl⟩
  obtain ⟨decision, hdecision, -⟩ := @decideReservation_ok program.toProgramPosition
    command.amountMinor resolution h.currency (by have := hcommand.amount.positive; omega)
  cases decision with
  | refused code details =>
    exact Or.inr ⟨_, _, run_proceedReserve_refused htexts.invoiceId hinvoice hresolved hdecision⟩
  | accepted reservedMinor fx =>
    left
    obtain ⟨outcome, db', hrun, -⟩ := h.acceptReservation hcommand htexts hp hr hid hinvoice
      hresolved hdecision
    exact ⟨outcome, db',
      (run_proceedReserve_accepted htexts.invoiceId hinvoice hresolved hdecision).trans hrun⟩

end InvoiceReservation
