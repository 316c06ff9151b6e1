import InvoiceReservation.Helpers.Organisations
import InvoiceReservation.Model.Seed
/-!
# What one organisation can tell of the others

Two databases that agree on what is an organisation's, and differ in
anything else, answer each of its requests the same. The guard answers for
every program that is not its own, and behind the guard a service reads
only what is filed under the program or under the organisation. What a
request changes is the organisation's too.
-/

namespace InvoiceReservation

open Transactions

variable {db db' : Db} {o p : Uuid} {rt rt' : Runtime} {casts : Casts} {request : Request}

/-- Two runtimes with one clock, one generated id and one set of rates, that
observed the same of an organisation's programs. -/
structure Runtime.Agree (o : Uuid) (db : Db) (rt rt' : Runtime) : Prop where
  now : rt.now = rt'.now
  generatedId : rt.generatedId = rt'.generatedId
  rateFor : rt.rateFor = rt'.rateFor
  newestObservedFor : ∀ p, db.owns o p = true →
    rt.newestObservedFor p = rt'.newestObservedFor p

theorem Runtime.Agree.at (h : Runtime.Agree o db rt rt') (hown : db.owns o p = true) :
    rt.AgreeAt p rt' :=
  ⟨h.now, h.generatedId, h.rateFor, h.newestObservedFor p hown⟩

/-- The program a request names is one of its organisation. -/
def Request.NamesOwn (request : Request) (db : Db) : Prop :=
  isUuidText request.programId = true ∧
    db.owns request.organisationId (Uuid.ofText request.programId) = true

/-- The answer to a request for a program that is not there. -/
def Request.notFound (request : Request) : Response :=
  ⟨404, .error ⟨"NOT_FOUND", "Program not found.", request.correlation, none⟩⟩

/-! ## The guards -/

/-- **The guard lets no other program through.** -/
theorem guard_of_not_own (h : ¬ request.NamesOwn db) :
    canActivate request db = .error programNotFound := by
  have hguard : ProgramScopeGuard.canActivate request.auth request.programId db =
      .error programNotFound := by
    unfold ProgramScopeGuard.canActivate
    rw [if_neg request.named]
    split
    · rfl
    rename_i huuid
    split
    · rfl
    rename_i program hp
    refine if_pos fun htext => h ⟨by simpa using huuid, Db.owns_iff.mpr ⟨program, hp, ?_⟩⟩
    -- the text of the column is read back as the organisation of the token
    rw [Request.organisationId, ← htext, Uuid.ofText_text]
  simp only [canActivate, hguard]
  rfl

/-- **A foreign program is answered as a missing one**, whatever the token's
scopes. -/
theorem serve_of_not_own [Sha256] (h : ¬ request.NamesOwn db) :
    serve rt casts request db = (request.notFound, db) := by
  unfold serve route
  rw [guard_of_not_own h]
  rfl

/-- The guards find the same program in both. -/
theorem guard_congr (hdb : db.Agree request.organisationId db') (hown : request.NamesOwn db) :
    canActivate request db = canActivate request db' := by
  unfold canActivate ProgramScopeGuard.canActivate
  rw [hdb.program? hown.2]

/-! ## The handlers -/

/-- Two answers to a request of an organisation that do not differ, with the
databases they leave. -/
structure SameAnswer (o : Uuid) (db db' : Db) (r r' : Except Exception Response × Db) : Prop where
  answer : r.1 = r'.1
  agree : r.2.Agree o r'.2
  others : r.2.others o = db.others o
  others' : r'.2.others o = db'.others o

/-- What changes nothing need only answer the same. -/
theorem SameAnswer.of_read {answer answer' : Except Exception Response} (hdb : db.Agree o db')
    (h : answer = answer') : SameAnswer o db db' (answer, db) (answer', db') :=
  ⟨h, hdb, rfl, rfl⟩

/-- Two writes that run alike are answered the same. -/
theorem SameAnswer.of_write {key : Option String} {write write' : String → Transaction WriteOutcome}
    {id : Uuid} (h : Db.Alike o p id db db')
    (hrun : ∀ requestId, (organisation o p id).SameRun db db' (engine.run (write requestId) db)
      (engine.run (write' requestId) db')) :
    SameAnswer o db db' (answerWrite key write db) (answerWrite key write' db') := by
  unfold answerWrite
  split
  · exact .of_read h.agree rfl
  rename_i requestId hkey
  rcases hrun requestId with ⟨e, hleft, hright⟩ | ⟨outcome, ws, hown, hleft, hright⟩
  · rw [hleft, hright]
    exact .of_read h.agree rfl
  rw [hleft, hright]
  have hframe (w : Write) (c c' : Db) (hw : (organisation o p id).own w)
      (hc : (organisation o p id).alike c c') :
      (engine.apply w c).others o = c.others o := others_apply hw hc.own
  have h' : Db.Alike o p id db' db' :=
    ⟨⟨rfl, fun _ => rfl, fun _ _ => rfl, fun _ _ => rfl, fun _ _ => rfl, fun _ => rfl⟩,
      h.agree.owns ▸ h.own, rfl⟩
  exact ⟨rfl, (Observer.applyAll_alike hown h).agree,
    Observer.applyAll_frame (f := Db.others o) hframe hown h,
    Observer.applyAll_frame (f := Db.others o) hframe hown h'⟩

/-- What is pending is told by the program's own rows. -/
theorem reconciliationPending_congr (hreservations : db.reservationsOf p = db'.reservationsOf p)
    (hacknowledgements : db.acknowledgementsOf p = db'.acknowledgementsOf p) :
    reconciliationPending db p = reconciliationPending db' p := by
  have hexplicit : db.explicitAcknowledgements p = db'.explicitAcknowledgements p := by
    have h := congrArg (List.filter fun sa => decide (sa.kind = .explicit)) hacknowledgements
    simpa only [Db.acknowledgementsOf, Db.explicitAcknowledgements, List.filter_filter,
      Bool.decide_and, Bool.and_comm] using h
  unfold reconciliationPending Db.newestAcknowledgements
  rw [hexplicit, hreservations]

variable [Sha256]

/-- **Behind the guards** a handler answers the same of both. -/
theorem handle_same (hdb : db.Agree request.organisationId db')
    (hrt : Runtime.Agree request.organisationId db rt rt')
    (hid : db.hasReservationId rt.generatedId = db'.hasReservationId rt.generatedId)
    (hown : request.NamesOwn db) {handler : Handler} (arguments : Arguments handler) :
    SameAnswer request.organisationId db db' (handle rt casts request db arguments)
      (handle rt' casts request db' arguments) := by
  have halike : Db.Alike request.organisationId (Uuid.ofText request.programId) rt.generatedId
      db db' := ⟨hdb, hown.2, hid⟩
  have hrt' := hrt.at hown.2
  have hprogram := hdb.program? hown.2
  have hreservations := hdb.reservations _ hown.2
  cases arguments with
  | createReservation invoiceId amountMinor currency =>
    exact .of_write halike fun requestId => sameRun_reserve halike hrt'
  | createRelease invoiceId releaseMinor currency =>
    exact .of_write halike fun requestId => sameRun_release halike hrt'
  | cancelReservation invoiceId reason note =>
    exact .of_write halike fun requestId => sameRun_cancel halike hrt'
  | getAvailability =>
    refine .of_read hdb ?_
    obtain ⟨program, hp, -⟩ := Db.owns_iff.mp hown.2
    have hpending := reconciliationPending_congr hreservations (hdb.acknowledgements _ hown.2)
    have hobserved := hrt'.newestObservedFor
    rw [← Db.id_of_program? hp] at hobserved
    simp only [CapacityController.getAvailability, forProgram, ← hprogram, hp, hpending, hobserved]
  | listReservations query =>
    refine .of_read hdb ?_
    simp only [CapacityController.listReservations, listReservations, selectReservations,
      hreservations]
  | getReservation invoiceId =>
    refine .of_read hdb ?_
    simp only [CapacityController.getReservation, getReservation, Db.reservationsFor, hreservations]
  | listLedger query =>
    refine .of_read hdb ?_
    simp only [AuditController.listLedger, listLedger, programCurrency, selectLedger, hprogram,
      hdb.ledger _ hown.2]

/-- **An organisation can tell nothing of the others.** Two databases that
agree on what is its own, however they differ elsewhere, answer each of its
requests with one status and one body, and agree on what is its own
afterwards. A request changes no row of another organisation, and is
answered the same 404 for every program that is not its own, missing or
foreign, whatever its scopes. -/
theorem noninterference (casts : Casts) (request : Request)
    (hdb : db.Agree request.organisationId db')
    (hrt : Runtime.Agree request.organisationId db rt rt')
    (hid : db.hasReservationId rt.generatedId = db'.hasReservationId rt.generatedId) :
    (serve rt casts request db).1 = (serve rt' casts request db').1 ∧
      (serve rt casts request db).2.Agree request.organisationId
        (serve rt' casts request db').2 ∧
      (serve rt casts request db).2.others request.organisationId =
        db.others request.organisationId ∧
      (serve rt' casts request db').2.others request.organisationId =
        db'.others request.organisationId ∧
      (¬ request.NamesOwn db → serve rt casts request db = (request.notFound, db)) := by
  by_cases hown : request.NamesOwn db
  · have hsame : SameAnswer request.organisationId db db' (route rt casts request db)
        (route rt' casts request db') := by
      unfold route
      rw [← guard_congr hdb hown]
      split
      · exact .of_read hdb rfl
      · split
        · exact .of_read hdb rfl
        · exact handle_same hdb hrt hid hown _
    refine ⟨?_, hsame.agree, hsame.others, hsame.others', fun h => absurd hown h⟩
    exact congrArg (send request) hsame.answer
  · have hown' : ¬ request.NamesOwn db' := fun h => hown ⟨h.1, hdb.owns ▸ h.2⟩
    rw [serve_of_not_own hown, serve_of_not_own hown']
    exact ⟨rfl, hdb, rfl, rfl, fun _ => rfl⟩

end InvoiceReservation

namespace InvoiceReservation

attribute [local instance] trafficSha256

/-- A database with a reservation, and programs of two organisations. -/
def bothOrganisations : Db := Operation.run reservedTraffic migrated

/-- A request of the first organisation, to reserve 100 in a program. -/
def northwindRequest (programId : String) (named : programId ≠ "") (scopes : List String) :
    Request where
  handler := .createReservation
  programId := programId
  named := named
  auth := ⟨"a1b2c3d4-0001-4000-8000-000000000001", scopes, by decide +kernel⟩
  idempotencyKey := some "request-2"
  correlationId := some "northwind"
  piped := .ok (.createReservation (Utf.units "INV-2") 100 "USD")

/-- A database that takes no cursor. -/
def noCasts : Casts where
  bigint _ := .error ⟨"22P02", "invalid input syntax"⟩
  timestamptz _ := .error ⟨"22007", "invalid input syntax"⟩
  uuid _ := .error ⟨"22P02", "invalid input syntax"⟩
  toChar _ := ""

theorem noninterference_withoutContoso :
    ((serve (callAt 2) noCasts (northwindRequest northwindUsdProgramId (by decide)
        ["capacity:write"]) bothOrganisations).1 =
      (serve (callAt 2) noCasts (northwindRequest northwindUsdProgramId (by decide)
        ["capacity:write"]) (bothOrganisations.without contosoOrganisationId)).1 ∧
      (serve (callAt 2) noCasts (northwindRequest northwindUsdProgramId (by decide)
        ["capacity:write"]) bothOrganisations).1.status = 201) ∧
    (serve (callAt 2) noCasts (northwindRequest contosoUsdProgramId (by decide) [])
        bothOrganisations).1 =
      (serve (callAt 2) noCasts (northwindRequest contosoUsdProgramId (by decide) [])
        (bothOrganisations.without contosoOrganisationId)).1 ∧
    (bothOrganisations.program? (Uuid.ofText contosoUsdProgramId)).isSome = true ∧
    (bothOrganisations.without contosoOrganisationId).program?
      (Uuid.ofText contosoUsdProgramId) = none := by
  have hboth : bothOrganisations = Operation.run
      [.reserve (callAt 1) (reserveCommand "req-00001" "INV-1" 100)] seededRows := by
    rw [bothOrganisations, reservedTraffic, run_seed]
  have hagree : bothOrganisations.Agree northwindOrganisationId
      (bothOrganisations.without contosoOrganisationId) :=
    .without (by rw [hboth]; decide +kernel) (by decide +kernel)
  have hrt (db : Db) : Runtime.Agree northwindOrganisationId db (callAt 2) (callAt 2) :=
    ⟨rfl, rfl, rfl, fun _ _ => rfl⟩
  have hid := @Db.hasReservationId_without bothOrganisations contosoOrganisationId
    (callAt 2).generatedId
  refine ⟨⟨?_, by rw [hboth]; decide +kernel⟩, ?_, by rw [hboth]; decide +kernel,
    by rw [hboth]; decide +kernel⟩
  · exact (noninterference noCasts (northwindRequest northwindUsdProgramId (by decide)
      ["capacity:write"]) hagree (hrt _) hid.symm).1
  · exact (noninterference noCasts (northwindRequest contosoUsdProgramId (by decide) [])
      hagree (hrt _) hid.symm).1

end InvoiceReservation
