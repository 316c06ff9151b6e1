import InvoiceReservation.Helpers.Commits
import InvoiceReservation.Helpers.Reservations
import InvoiceReservation.Properties.Legality
/-!
# Committed or refused

A reserve, a release or a cancellation that the guards and the checks of
the API let through commits and leaves a legal database, or is refused with
a code and leaves the database as it was. No constraint of a table and no
`TypeError` of a conversion ever surfaces.
-/

namespace InvoiceReservation

open Transactions

variable {db db' : Db} {p : Uuid} {rt : Runtime}

/-- What a write can come to. -/
def CommitsOrRefuses (t : Transaction WriteOutcome) (db : Db) : Prop :=
  (∃ outcome db', engine.run t db = .ok (outcome, db') ∧ db'.Legal) ∨
    ∃ code details, engine.run t db = .error (.refusal code details) ∧ engine.effect t db = db

/-- What `ProgramScopeGuard` lets through: a program of the caller's
organisation. -/
def Scoped (db : Db) (organisationId : Uuid) (programId : String) : Prop :=
  ∃ program, db.program? (Uuid.ofText programId) = some program ∧
    program.organisationId = organisationId

/-! ## Rates -/

/-- A stored rate is a positive `numeric(20,10)`. -/
def FxRateRow.Stored (row : FxRateRow) : Prop :=
  ∃ scaled, 0 < scaled ∧ scaled < 10 ^ 20 ∧ row.rate = numericText scaled

/-- Every rate is one the cached provider resolves, from its cache or from
the rows of the table. -/
def Runtime.Provided (rt : Runtime) (rows : List FxRateRow) : Prop :=
  ∀ base quote asOf, ∃ call : RateCall, call.base = base ∧ call.quote = quote ∧
    call.asOf = asOf ∧ rt.rateFor base quote asOf = call.outcome rows

theorem RateCall.outcome_ok {call : RateCall} {rows : List FxRateRow}
    (hrows : ∀ row ∈ rows, row.Stored) : ∃ rate, call.outcome rows = .ok rate := by
  unfold RateCall.outcome
  cases call.hit with
  | some value => exact ⟨_, rfl⟩
  | none =>
    dsimp only
    unfold RateCall.answer
    cases hselect : call.select rows with
    | none => exact ⟨_, rfl⟩
    | some row =>
      have hmem : row ∈ rows :=
        List.mem_of_mem_filter (List.mem_mergeSort.mp (List.mem_of_head? hselect))
      obtain ⟨scaled, hpositive, hlt, hrate⟩ := hrows row hmem
      have hscaled : scaleRate row.rate = .ok scaled := by
        rw [hrate]
        exact scaleRate_numericText hpositive hlt
      have hresolved : ∃ rate, toRate row = .ok rate := by
        unfold toRate
        split
        · rename_i e herror
          rw [hscaled] at herror
          cases herror
        · exact ⟨_, rfl⟩
      obtain ⟨rate, hrate'⟩ := hresolved
      exact ⟨some rate, by simp [hrate', Except.map]⟩

theorem Runtime.Provided.rateFor {rows : List FxRateRow} (h : rt.Provided rows)
    (hrows : ∀ row ∈ rows, row.Stored) (base quote : String) (asOf : Timestamp) :
    ∃ rate, rt.rateFor base quote asOf = .ok rate := by
  obtain ⟨call, -, -, -, hcall⟩ := h base quote asOf
  obtain ⟨rate, hrate⟩ := @RateCall.outcome_ok call rows hrows
  exact ⟨rate, hcall.trans hrate⟩

/-! ## Prices -/

/-- Every reservation is in a currency of its program's kind. -/
def Priced (db : Db) : Prop :=
  ∀ row ∈ db.reservations, isCurrencyCode row.programCurrency = true

/-- A legal database files every program's rows. -/
theorem Db.Legal.filed (h : db.Legal) : Filed (db.reservationsOf p) := by
  refine ⟨?_, ?_, fun row hrow => ?_⟩
  · have hpairs : ((db.reservationsOf p).map fun row => (row.programId, row.invoiceId)).Nodup :=
      h.invoices.sublist (List.filter_sublist.map _)
    have hsame : ((db.reservationsOf p).map fun row => (row.programId, row.invoiceId)) =
        ((db.reservationsOf p).map (·.invoiceId)).map fun invoiceId => (p, invoiceId) := by
      rw [List.map_map]
      exact List.map_congr_left fun row hrow => by
        rw [Function.comp_apply, (Db.mem_reservationsOf.mp hrow).2]
    rw [hsame] at hpairs
    exact List.Nodup.of_map _ hpairs
  · exact h.reservations.keys.sublist (List.filter_sublist.map _)
  · exact (h.reservations.rows row (Db.mem_reservationsOf.mp hrow).1).checks

/-- The currency of a program is checked when it is inserted. -/
theorem Db.Legal.currency (h : db.Legal) {program : ProgramEntity}
    (hp : db.program? p = some program) : isCurrencyCode program.currency = true :=
  (h.programs.rows program (Table.get_eq_some hp).1).currency

variable [Sha256]

/-- **One change** prices a new row as its program, and no other anew. -/
theorem Change.priced (hc : Change db db') (hlegal : db.Legal) (h : Priced db) : Priced db' := by
  intro row hrow
  have hmem : row ∈ db'.reservationsOf row.programId := Db.mem_reservationsOf.mpr ⟨hrow, rfl⟩
  generalize row.programId = q at hmem
  have hold : ∀ r ∈ db.reservationsOf q, isCurrencyCode r.programCurrency = true := fun r hr =>
    h r (Db.mem_reservationsOf.mp hr).1
  rcases hc.rewritten_or_reserved (p := q) hlegal.filed with
    ⟨f, hf, hevolves, -⟩ | ⟨rt, command, program, reservedMinor, fx, _, rfl, hp, ha⟩
  · rw [hf] at hmem
    obtain ⟨r, hr, rfl⟩ := List.mem_map.mp hmem
    have hcurrency : (f r).created.programCurrency = r.created.programCurrency := by
      rw [(hevolves r hr).created]
    have hsame : (f r).programCurrency = r.programCurrency := hcurrency
    rw [hsame]
    exact hold r hr
  · have hprogram : (reservedRow rt command program reservedMinor fx).programId = program.id := rfl
    have hrows : db'.reservationsOf program.id = Table.putAll InvoiceReservationEntity.key
        [reservedRow rt command program reservedMinor fx] (db.reservationsOf program.id) := by
      rw [ha.after]
      simp [advanceWrites, hprogram]
    rw [hrows] at hmem
    rcases Table.mem_putAll hmem with hnew | hmem
    · obtain rfl := List.mem_singleton.mp hnew
      exact hlegal.currency hp
    · exact hold row hmem

omit [Sha256] in
/-- The seed reserves nothing. -/
theorem runSeed_reservations {now : Timestamp} {seeds : List ProgramSeed} {u : Unit}
    (h : engine.run (runSeed now seeds) db = .ok (u, db')) :
    db'.reservations = db.reservations :=
  runSeed_induct (motive := fun c => db'.reservations = c.reservations) h rfl
    fun _ _ _ hrest => hrest

/-- **One operation** keeps a legal database's reservations priced. -/
theorem Priced.step (h : Priced db) (hlegal : db.Legal) {op : Operation} {reply : Reply}
    (hr : engine.run op.tx db = .ok (reply, db')) : Priced db' := by
  rcases op.change_or_seed hr with hchange | ⟨now, seeds, -, hseed⟩
  · cases hchange with
    | refl => exact h
    | single hc => exact hc.priced hlegal h
  · intro row hrow
    exact h row (runSeed_reservations hseed ▸ hrow)

/-- **Every run.** -/
theorem Priced.run (h : Priced db) (hlegal : db.Legal) (ops : List Operation) :
    Priced (Operation.run ops db) := by
  have hboth : (Operation.run ops db).Legal ∧ Priced (Operation.run ops db) :=
    List.foldlRecOn ops (motive := fun c => c.Legal ∧ Priced c) (fun c op => engine.effect op.tx c)
      ⟨hlegal, h⟩ fun _ hc _ _ =>
        Engine.effect_induct (P := fun c => c.Legal ∧ Priced c) hc
          fun _ _ hr => ⟨hc.1.commit hr, hc.2.step hc.1 hr⟩
  exact hboth.2

/-! ## Reachable states -/

variable {organisations : List Uuid} {ops : List Operation}

/-- **A program of any reachable state can be relied on.** -/
theorem reliable_run {program : ProgramEntity}
    (hp : (Operation.run ops (Db.initial organisations)).program? p = some program) :
    Reliable (Operation.run ops (Db.initial organisations)) program := by
  obtain rfl := Db.id_of_program? hp
  have hlegal := (@legal_initial organisations).run ops
  have hpriced : Priced (Operation.run ops (Db.initial organisations)) :=
    Priced.run (fun row hrow => absurd hrow List.not_mem_nil) legal_initial ops
  have hnone : (Db.initial organisations).program? program.id = none := rfl
  have hstanding : Standing program.id (Operation.run ops (Db.initial organisations)) :=
    Standing.run (Fresh.standing ⟨rfl, fun _ hsome => by rw [hnone] at hsome; cases hsome⟩) ops
  have houtstanding : Outstanding program.id (Operation.run ops (Db.initial organisations)) :=
    run_induct (fun _ _ hc hs => hs.outstanding hc) ops
      (Unreserved.outstanding ⟨rfl, fun _ hsome => by rw [hnone] at hsome; cases hsome⟩)
  have hrow : ∀ row ∈ (Operation.run ops (Db.initial organisations)).reservationsOf program.id,
      row ∈ (Operation.run ops (Db.initial organisations)).reservations := fun row hrow =>
    (Db.mem_reservationsOf.mp hrow).1
  exact {
    found := hp
    explains := hstanding.explained.position program hp
    inBounds := hstanding.inBounds program hp
    tallied := houtstanding.tallied program hp
    currency := hlegal.currency hp
    checks := fun row h => (hlegal.reservations.rows row (hrow row h)).checks
    rates := fun row h => (hlegal.reservations.rows row (hrow row h)).fxRate
    currencies := fun row h => hpriced row (hrow row h) }

omit [Sha256] in
/-- What a request is answered that finds a legal record. -/
theorem answer_concludes {identity : RequestIdentity} {row : RequestRecordEntity}
    (h : row.Declared db) : (∃ outcome, identity.answer row = .ok outcome) ∨
      ∃ code, identity.answer row = .error (.refusal code []) := by
  unfold RequestIdentity.answer decideReplay
  split
  · rename_i failure herror
    split at herror
    · cases herror
    · cases hstate : row.state with
      | pending => simp [hstate] at herror
      | expired => simp [hstate] at herror
      | complete =>
        obtain ⟨outcome, houtcome⟩ := Option.isSome_iff_exists.mp (h.outcome.mp hstate)
        simp [hstate, houtcome] at herror
  · exact Or.inr ⟨_, rfl⟩
  · exact Or.inl ⟨_, rfl⟩
  · rename_i hproceed
    exact absurd hproceed decideReplay_ne_proceed

omit [Sha256] in
/-- **The head of every write** answers from a record, or proceeds with a
new one. -/
theorem concludes_or_proceeds {programId : String} {now : Timestamp} {identity : RequestIdentity}
    {proceed : ProgramEntity → Transaction WriteOutcome} (hlegal : db.Legal)
    (hscoped : Scoped db identity.organisationId programId)
    (hid : storableText identity.requestId = true) :
    Concludes (withProgramLock programId fun program =>
      withIdempotency identity now (proceed program)) db ∨
    ∃ program, db.program? (Uuid.ofText programId) = some program ∧
      engine.run (withProgramLock programId fun program =>
        withIdempotency identity now (proceed program)) db =
          engine.run (proceed program) (db.apply (.requests [identity.pending now])) := by
  obtain ⟨program, hp, horganisation⟩ := hscoped
  have hcontains : db.organisations.contains identity.organisationId = true := by
    rw [← horganisation]
    exact (hlegal.programs.rows program (Table.get_eq_some hp).1).organisation
  rw [Concludes, withProgramLock, run_withProgramLockOr, hp]
  dsimp only
  rw [run_withIdempotency hid]
  cases hr : db.request? identity.organisationId identity.requestId with
  | none =>
    simp only [hcontains, if_true]
    exact Or.inr ⟨program, rfl, rfl⟩
  | some row =>
    have hdeclared := (Db.LegalIn.requests hlegal).rows row (Table.get_eq_some hr).1
    rcases @answer_concludes _ identity row hdeclared with ⟨outcome, ha⟩ | ⟨code, ha⟩
    · exact Or.inl (Or.inl ⟨outcome, db, by simp [ha, Except.map]⟩)
    · exact Or.inl (Or.inr ⟨code, [], by simp [ha, Except.map]⟩)

omit [Sha256] in
/-- A write concludes where what it does anew concludes. -/
theorem concludes_of_proceed {programId : String} {now : Timestamp} {identity : RequestIdentity}
    {proceed : ProgramEntity → Transaction WriteOutcome} (hlegal : db.Legal)
    (hscoped : Scoped db identity.organisationId programId)
    (hid : storableText identity.requestId = true)
    (hproceed : ∀ program, db.program? (Uuid.ofText programId) = some program →
      Concludes (proceed program) (db.apply (.requests [identity.pending now]))) :
    Concludes (withProgramLock programId fun program =>
      withIdempotency identity now (proceed program)) db := by
  rcases @concludes_or_proceeds db programId now identity proceed hlegal hscoped hid with
    h | ⟨program, hp, hrun⟩
  · exact h
  · rw [Concludes, hrun]
    exact hproceed program hp

omit [Sha256] in
/-- What concludes on a legal database leaves a legal one, or no trace. -/
theorem Concludes.commitsOrRefuses {t : Transaction WriteOutcome} (h : Concludes t db)
    (hlegal : db.Legal) : CommitsOrRefuses t db := by
  rcases h with ⟨outcome, db', hr⟩ | ⟨code, details, hr⟩
  · exact Or.inl ⟨outcome, db', hr, hlegal.commit hr⟩
  · exact Or.inr ⟨code, details, hr, Engine.effect_of_run_error hr⟩

/-- **Every write commits or is refused.** Every state the operations reach
is legal, and what a reserve, a release or a cancellation makes of it that
the guard and the checks let through, with texts that a column can hold, is
a commit that leaves it legal, or a refusal that leaves it as it was. A
reserve resolves its rate from a table of positive numerics, and its
generated id is new. -/
theorem write_commits_or_refuses (organisations : List Uuid) (ops : List Operation) (rt : Runtime) :
    let db := Operation.run ops (Db.initial organisations)
    db.Legal ∧
    (∀ (command : ReserveCommand) (rows : List FxRateRow), command.Admitted →
      WriteTexts command.requestId command.invoiceText command.correlationId →
      Scoped db command.organisationId command.programId → (∀ row ∈ rows, row.Stored) →
      rt.Provided rows → db.hasReservationId rt.generatedId = false →
        CommitsOrRefuses (reserve rt command) db) ∧
    (∀ command : ReleaseCommand, command.Admitted →
      WriteTexts command.requestId command.invoiceId command.correlationId →
      Scoped db command.organisationId command.programId →
        CommitsOrRefuses (release rt command) db) ∧
    ∀ command : CancelCommand, command.Admitted →
      WriteTexts command.requestId command.invoiceId command.correlationId →
      Scoped db command.organisationId command.programId →
        CommitsOrRefuses (cancel rt command) db := by
  intro db
  have hlegal : db.Legal := legal_initial.run ops
  refine ⟨hlegal, fun command rows hcommand htexts hscoped hrows hrt hid => ?_,
    fun command hcommand htexts hscoped => ?_, fun command hcommand htexts hscoped => ?_⟩
  · refine (concludes_of_proceed hlegal hscoped htexts.requestId
      fun program hp => ?_).commitsOrRefuses hlegal
    have hreliable : Reliable (db.apply (.requests [command.identity.pending rt.now])) program :=
      (reliable_run hp).requests
    exact hreliable.reserve hcommand htexts (by simpa using hp) request?_apply_pending
      (by simpa [Db.hasReservationId, Db.apply] using hid) (hrt.rateFor hrows)
  · refine (concludes_of_proceed hlegal hscoped htexts.requestId
      fun program hp => ?_).commitsOrRefuses hlegal
    exact (reliable_run hp).requests.release hcommand htexts (by simpa using hp)
      request?_apply_pending
  · refine (concludes_of_proceed hlegal hscoped htexts.requestId
      fun program hp => ?_).commitsOrRefuses hlegal
    exact (reliable_run hp).requests.cancel htexts (by simpa using hp) request?_apply_pending

end InvoiceReservation

namespace InvoiceReservation

open Transactions

attribute [local instance] trafficSha256

/-- A call that resolves its rates from the seeded table. -/
def ratedCallAt (ms : Int) : Runtime :=
  { callAt ms with
    rateFor := fun base quote asOf =>
      (RateCall.mk base quote asOf (ms * 1000) none).outcome fxRates }

theorem stored_fxRates : ∀ row ∈ fxRates, row.Stored := by
  refine List.forall_mem_cons.mpr ⟨⟨10850000000, by decide, by decide, by decide +kernel⟩,
    List.forall_mem_singleton.mpr ⟨9216589862, by decide, by decide, by decide +kernel⟩⟩

/-- A reserve of euros in the first program, which is one of dollars. -/
def euroCommand : ReserveCommand :=
  { reserveCommand "req-00001" "INV-1" 100 with currency := "EUR" }

theorem write_commits_or_refuses_euros :
    CommitsOrRefuses (reserve (ratedCallAt 1) euroCommand)
      (Operation.run [.seed 0 programs] migrated) := by
  have hadmitted : euroCommand.Admitted :=
    ⟨by decide +kernel, by decide +kernel, by decide +kernel, by decide +kernel⟩
  have hscoped : Scoped (Operation.run [.seed 0 programs] migrated) euroCommand.organisationId
      euroCommand.programId := by
    have horganisation : ((Operation.run [.seed 0 programs] migrated).program?
        (Uuid.ofText euroCommand.programId)).map (·.organisationId) =
          some euroCommand.organisationId := by
      rw [run_seed]
      decide +kernel
    exact Option.map_eq_some_iff.mp horganisation
  exact (write_commits_or_refuses InvoiceReservation.organisations [.seed 0 programs]
    (ratedCallAt 1)).2.1 euroCommand fxRates hadmitted
      ⟨by decide, by decide, by decide⟩ hscoped stored_fxRates
      (fun base quote asOf => ⟨⟨base, quote, asOf, 1 * 1000, none⟩, rfl, rfl, rfl, rfl⟩)
      (by rw [← migrated, run_seed]; rfl)

end InvoiceReservation
