import InvoiceReservation.Helpers.Conversions
import InvoiceReservation.Helpers.Runs
import InvoiceReservation.Model.Seed
import Mathlib.Data.List.Nodup
/-!
# A legal database

What the tables declare of their rows: the ranges of their columns, their
`CHECK`s, their keys and the references between them. Every statement that
is answered keeps all of it, and so does every transaction that commits.
-/

namespace InvoiceReservation

open Transactions

variable {db db' : Db}

/-! ## What the tables declare -/

/-- What `program` declares of a row. -/
structure ProgramEntity.Declared (db : Db) (row : ProgramEntity) : Prop where
  creditLimit : inBigint row.creditLimitMinor = true
  localReserved : inBigint row.localReservedMinor = true
  treasuryReserved : inBigint row.treasuryReservedMinor = true
  treasuryVersion : inBigint row.treasuryVersion = true
  checks : ∀ c ∈ programChecks row, c.1 = true
  currency : isCurrencyCode row.currency = true
  organisation : db.organisations.contains row.organisationId = true

/-- What `invoice_reservation` declares of a row; `fx_rate` is a
`numeric(20,10)`. -/
structure InvoiceReservationEntity.Declared (db : Db) (row : InvoiceReservationEntity) : Prop where
  checks : ∀ c ∈ reservationChecks row, c.1 = true
  fxRate : ∀ rate, row.fxRate = some rate → rate < 10 ^ 20
  program : (db.program? row.programId).isSome = true

/-- What `capacity_ledger_entry` declares of a row. -/
structure CapacityLedgerEntryEntity.Declared (db : Db) (row : CapacityLedgerEntryEntity) :
    Prop where
  delta : inBigint row.deltaMinor = true
  program : (db.program? row.programId).isSome = true

/-- What `request_record` declares of a row. -/
structure RequestRecordEntity.Declared (db : Db) (row : RequestRecordEntity) : Prop where
  outcome : row.state = .complete ↔ row.outcome.isSome = true
  organisation : db.organisations.contains row.organisationId = true

/-- What `snapshot_acknowledgement` declares of a row. -/
structure SnapshotAcknowledgementEntity.Declared (db : Db) (row : SnapshotAcknowledgementEntity) :
    Prop where
  version : inBigint row.version = true
  explicit : row.kind = .explicit ↔ row.reservationReferences.isSome = true
  watermark : row.kind = .watermark ↔ row.ingestedThrough.isSome = true
  message : (db.message? row.messageId).isSome = true

/-- Rows that are what their tables declare, under primary keys and unique
constraints that are met; what they refer to is looked up in `refs`. -/
structure Db.LegalIn (refs db : Db) : Prop where
  programs : Table.Keyed (·.id) (ProgramEntity.Declared refs) db.programs
  reservations : Table.Keyed (·.id) (InvoiceReservationEntity.Declared refs) db.reservations
  invoices : (db.reservations.map fun row => (row.programId, row.invoiceId)).Nodup
  ledger : Table.Keyed (fun row : CapacityLedgerEntryEntity => (row.programId, row.sequence))
    (CapacityLedgerEntryEntity.Declared refs) db.ledger
  requests : Table.Keyed RequestRecordEntity.key (RequestRecordEntity.Declared refs) db.requests
  messages : Table.Keyed (fun row : ProcessedMessageEntity => row.messageId)
    (fun row => inBigint row.version = true) db.messages
  acknowledgements : Table.Keyed (fun row : SnapshotAcknowledgementEntity => row.messageId)
    (SnapshotAcknowledgementEntity.Declared refs) db.acknowledgements
  streamPositions : Table.Keyed ProgramStreamPosition.key
    (fun row => (refs.program? row.programId).isSome = true) db.streamPositions

/-- **A legal database.** -/
abbrev Db.Legal (db : Db) : Prop := db.LegalIn db

theorem legal_initial {organisations : List Uuid} : (Db.initial organisations).Legal :=
  ⟨Table.keyed_nil, Table.keyed_nil, List.nodup_nil, Table.keyed_nil, Table.keyed_nil,
    Table.keyed_nil, Table.keyed_nil, Table.keyed_nil⟩

/-! ## Writes -/

/-- What a row refers to is never deleted. -/
structure Extends (db db' : Db) : Prop where
  organisations : db'.organisations = db.organisations
  programs : ∀ p, (db.program? p).isSome = true → (db'.program? p).isSome = true
  messages : ∀ id, (db.message? id).isSome = true → (db'.message? id).isSome = true

theorem extends_apply {w : Write} : Extends db (db.apply w) := by
  refine ⟨Db.organisations_apply, fun _ => Db.isSome_program?_apply, fun id hid => ?_⟩
  rw [Db.message?_apply]
  cases w with
  | message row => simp [Option.isSome_or, hid]
  | _ => exact hid

theorem ProgramEntity.Declared.mono {row : ProgramEntity} (h : row.Declared db)
    (he : Extends db db') : row.Declared db' :=
  ⟨h.creditLimit, h.localReserved, h.treasuryReserved, h.treasuryVersion, h.checks, h.currency,
    he.organisations ▸ h.organisation⟩

theorem InvoiceReservationEntity.Declared.mono {row : InvoiceReservationEntity}
    (h : row.Declared db) (he : Extends db db') : row.Declared db' :=
  ⟨h.checks, h.fxRate, he.programs _ h.program⟩

theorem CapacityLedgerEntryEntity.Declared.mono {row : CapacityLedgerEntryEntity}
    (h : row.Declared db) (he : Extends db db') : row.Declared db' :=
  ⟨h.delta, he.programs _ h.program⟩

theorem RequestRecordEntity.Declared.mono {row : RequestRecordEntity}
    (h : row.Declared db) (he : Extends db db') : row.Declared db' :=
  ⟨h.outcome, he.organisations ▸ h.organisation⟩

theorem SnapshotAcknowledgementEntity.Declared.mono {row : SnapshotAcknowledgementEntity}
    (h : row.Declared db) (he : Extends db db') : row.Declared db' :=
  ⟨h.version, h.explicit, h.watermark, he.messages _ h.message⟩

/-- Rows stay legal while what they refer to stays. -/
theorem Db.LegalIn.mono {refs refs' : Db} (h : Db.LegalIn refs db) (he : Extends refs refs') :
    Db.LegalIn refs' db where
  programs := h.programs.mono fun _ hrow => hrow.mono he
  reservations := h.reservations.mono fun _ hrow => hrow.mono he
  invoices := h.invoices
  ledger := h.ledger.mono fun _ hrow => hrow.mono he
  requests := h.requests.mono fun _ hrow => hrow.mono he
  messages := h.messages
  acknowledgements := h.acknowledgements.mono fun _ hrow => hrow.mono he
  streamPositions := h.streamPositions.mono fun _ hrow => he.programs _ hrow

namespace Db.Legal

theorem program {row : ProgramEntity} (h : db.Legal) (hrow : row.Declared db) :
    (db.apply (.program row)).Legal :=
  { h.mono extends_apply with
    programs := (h.mono extends_apply).programs.put (hrow.mono extends_apply) }

/-- A new version of a program that keeps its currency and its organisation. -/
theorem programVersion {p : Uuid} {row row' : ProgramEntity} (h : db.Legal)
    (hp : db.program? p = some row) (hrow : row.Declared db → row'.Declared db) :
    (db.apply (.program row')).Legal :=
  h.program (hrow (h.programs.rows row (Table.get_eq_some hp).1))

theorem ledger {rows : List CapacityLedgerEntryEntity} (h : db.Legal)
    (hrows : Table.Keyed (fun row : CapacityLedgerEntryEntity => (row.programId, row.sequence))
      (CapacityLedgerEntryEntity.Declared db) rows)
    (hnew : ∀ x ∈ rows, ∀ y ∈ db.ledger, (y.programId, y.sequence) ≠ (x.programId, x.sequence)) :
    (db.apply (.ledger rows)).Legal :=
  { h.mono extends_apply with
    ledger := (h.mono extends_apply).ledger.append
      (hrows.mono fun _ hrow => hrow.mono extends_apply) hnew }

theorem requests {rows : List RequestRecordEntity} (h : db.Legal)
    (hrows : ∀ row ∈ rows, row.Declared db) : (db.apply (.requests rows)).Legal :=
  { h.mono extends_apply with
    requests := (h.mono extends_apply).requests.putAll fun row hrow =>
      (hrows row hrow).mono extends_apply }

theorem message {row : ProcessedMessageEntity} (h : db.Legal)
    (hversion : inBigint row.version = true)
    (hnew : (db.message? row.messageId).isSome = false) : (db.apply (.message row)).Legal :=
  { h.mono extends_apply with
    messages := h.messages.concat hversion (Table.get_eq_none_iff.mp
      (Option.isNone_iff_eq_none.mp (Option.isSome_eq_false_iff.mp hnew))) }

theorem acknowledgement {row : SnapshotAcknowledgementEntity} (h : db.Legal)
    (hrow : row.Declared db) (hnew : db.acknowledgement? row.messageId = none) :
    (db.apply (.acknowledgement row)).Legal :=
  { h.mono extends_apply with
    acknowledgements := (h.mono extends_apply).acknowledgements.concat (hrow.mono extends_apply)
      (Table.get_eq_none_iff.mp hnew) }

theorem streamPosition {row : ProgramStreamPosition} (h : db.Legal)
    (hprogram : (db.program? row.programId).isSome = true) :
    (db.apply (.streamPosition row)).Legal :=
  { h.mono extends_apply with
    streamPositions := (h.mono extends_apply).streamPositions.put
      (extends_apply.programs _ hprogram) }

/-- A reservation of a new id and a new invoice. -/
theorem reservation {row : InvoiceReservationEntity} (h : db.Legal) (hrow : row.Declared db)
    (hid : db.hasReservationId row.id = false)
    (hinvoice : db.reservationsFor row.programId row.invoiceId = []) :
    (db.apply (.reservations [row])).Legal := by
  have hids : ∀ r ∈ db.reservations, r.id ≠ row.id := by
    intro r hr he
    rw [Db.hasReservationId, List.any_eq_false] at hid
    exact hid r hr (decide_eq_true he)
  have hinvoices : ∀ r ∈ db.reservations,
      (r.programId, r.invoiceId) ≠ (row.programId, row.invoiceId) := by
    intro r hr he
    obtain ⟨hprogram, hinvoiceId⟩ := Prod.mk.inj he
    have hmem : r ∈ db.reservationsFor row.programId row.invoiceId :=
      Db.mem_reservationsFor.mpr ⟨Db.mem_reservationsOf.mpr ⟨hr, hprogram⟩, hinvoiceId⟩
    rw [hinvoice] at hmem
    cases hmem
  have hput : (db.apply (.reservations [row])).reservations = db.reservations ++ [row] :=
    Table.put_of_get_none (Table.get_eq_none_iff.mpr fun r hr he =>
      hids r hr (congrArg (fun k : Uuid × String × Uuid => k.2.2) he))
  have hmono := h.mono (extends_apply (w := .reservations [row]))
  refine { hmono with reservations := ?_, invoices := ?_ }
  · rw [hput]
    exact hmono.reservations.concat (hrow.mono extends_apply) hids
  · rw [hput]
    exact (Table.Keyed.concat (P := fun _ => True) ⟨fun _ _ => trivial, h.invoices⟩ trivial
      hinvoices).keys

/-- New versions of reservations. -/
theorem rewrite {rows : List InvoiceReservationEntity}
    {f : InvoiceReservationEntity → InvoiceReservationEntity} (h : db.Legal)
    (hrows : ∀ r ∈ rows, r ∈ db.reservations) (hkey : ∀ r, (f r).key = r.key)
    (hrate : ∀ r, (f r).fxRate = r.fxRate)
    (hchecks : ∀ r ∈ rows, ∀ c ∈ reservationChecks (f r), c.1 = true) :
    (db.apply (.reservations (rows.map f))).Legal := by
  have hkeys : (db.reservations.map InvoiceReservationEntity.key).Nodup := by
    refine List.Nodup.of_map (fun k : Uuid × String × Uuid => k.2.2) ?_
    rw [List.map_map]
    exact h.reservations.keys
  have hsame : ∀ {β : Type} (g : Uuid × String × Uuid → β),
      (db.apply (.reservations (rows.map f))).reservations.map (fun r => g r.key) =
        db.reservations.map fun r => g r.key := by
    intro β g
    refine Table.map_putAll fun w hw => ?_
    obtain ⟨r, hr, rfl⟩ := List.mem_map.mp hw
    exact ⟨r, by rw [hkey]; exact Table.get_of_mem hkeys (hrows r hr), by rw [hkey]⟩
  have hmono := h.mono (extends_apply (w := .reservations (rows.map f)))
  refine { hmono with reservations := ⟨fun w hw => ?_, ?_⟩, invoices := ?_ }
  · rcases Table.mem_putAll hw with hnew | hold
    · obtain ⟨r, hr, rfl⟩ := List.mem_map.mp hnew
      have hdeclared := hmono.reservations.rows r (hrows r hr)
      have hprogram : (f r).programId = r.programId :=
        congrArg (fun k : Uuid × String × Uuid => k.1) (hkey r)
      exact ⟨hchecks r hr, by rw [hrate]; exact hdeclared.fxRate,
        by rw [hprogram]; exact hdeclared.program⟩
    · exact hmono.reservations.rows w hold
  · exact hsame (fun k => k.2.2) ▸ h.reservations.keys
  · exact hsame (fun k => (k.1, k.2.1)) ▸ h.invoices

/-- An `UPDATE` of reservations that checked every new version. -/
theorem updateReservations {rows : List InvoiceReservationEntity}
    {f : InvoiceReservationEntity → InvoiceReservationEntity} {u : Unit} {ws : List Write}
    (h : db.Legal) (hx : Stmt.updateReservations rows f = .ok (u, ws))
    (hrows : ∀ r ∈ rows, r ∈ db.reservations) (hkey : ∀ r, (f r).key = r.key)
    (hrate : ∀ r, (f r).fxRate = r.fxRate) : (engine.applyAll ws db).Legal := by
  simp only [Stmt.updateReservations, guarded_ok, Prod.mk.injEq] at hx
  obtain ⟨hchecks, -, rfl⟩ := hx
  exact h.rewrite hrows hkey hrate fun r hr c hc => hchecks c (List.mem_flatMap.mpr ⟨r, hr, hc⟩)

end Db.Legal

/-! ## Statements -/

variable {p : Uuid}

/-- The entries of an answered `INSERT` into the ledger. -/
theorem Db.Legal.insertLedger {entries : List SequencedLedgerEntry} {now : Timestamp} {u : Unit}
    {ws : List Write} (h : db.Legal)
    (hx : Stmt.exec (.insertLedger p entries now) db = .ok (u, ws)) :
    (engine.applyAll ws db).Legal := by
  simp only [Stmt.exec, guarded_ok, List.forall_mem_append, List.forall_mem_map,
    List.forall_mem_cons, Constraint.bigint, Constraint.unique, Constraint.foreignKey,
    decide_eq_true_eq, Prod.mk.injEq] at hx
  obtain ⟨⟨hdeltas, ⟨hnodup, hfresh⟩, hprogram, -⟩, -, rfl⟩ := hx
  refine h.ledger ⟨fun row hrow => ?_, ?_⟩ fun x hx y hy he => ?_
  · obtain ⟨entry, hentry, rfl⟩ := List.mem_map.mp hrow
    exact ⟨hdeltas entry hentry, hprogram⟩
  · refine List.Nodup.of_map (fun k : Uuid × Int => k.2) ?_
    simpa [Stmt.ledgerRows, List.map_map, Function.comp_def] using hnodup
  · obtain ⟨entry, hentry, rfl⟩ := List.mem_map.mp hx
    obtain ⟨hp, hsequence⟩ := Prod.mk.inj he
    exact hfresh entry hentry y (List.mem_filter.mpr ⟨hy, decide_eq_true hp⟩) hsequence

/-- A reservation that was inserted. -/
theorem Db.Legal.insertReservation {id : Uuid} {invoiceId currency programCurrency : String}
    {amountMinor reservedMinor : Int} {fx : Option FxRate} {now : Timestamp}
    {row : InvoiceReservationEntity} {ws : List Write} (h : db.Legal)
    (hx : Stmt.exec (.insertReservation id p invoiceId amountMinor currency programCurrency
      reservedMinor fx now) db = .ok (row, ws)) : (engine.applyAll ws db).Legal := by
  simp only [Stmt.exec, guarded_ok, List.forall_mem_append, List.forall_mem_cons,
    Constraint.unique, Constraint.foreignKey, Bool.not_eq_true', Prod.mk.injEq] at hx
  obtain ⟨⟨hchecks, hid, hinvoice, hprogram, -⟩, rfl, rfl⟩ := hx
  refine h.reservation ⟨hchecks, fun rate hrate => ?_, hprogram⟩ hid (List.isEmpty_iff.mp hinvoice)
  obtain ⟨resolved, -, hvalue⟩ := Option.bind_eq_some_iff.mp hrate
  exact (rateValue_bounds hvalue).2

/-- A position that was written. -/
theorem Db.Legal.updatePosition {position : ProgramPosition} {now : Timestamp} {flag : Bool}
    {u : Unit} {ws : List Write} (h : db.Legal)
    (hx : Stmt.exec (.updatePosition p position now flag) db = .ok (u, ws)) :
    (engine.applyAll ws db).Legal := by
  cases hp : db.program? p with
  | none =>
    simp only [Stmt.exec, hp, Except.ok.injEq, Prod.mk.injEq] at hx
    obtain ⟨-, rfl⟩ := hx
    exact h
  | some row =>
    simp only [Stmt.exec, hp, guarded_ok, List.forall_mem_append, List.forall_mem_cons,
      Constraint.bigint, Prod.mk.injEq] at hx
    obtain ⟨⟨⟨hlimit, hlocal, htreasury, -⟩, hchecks⟩, -, rfl⟩ := hx
    exact h.programVersion hp fun hrow => ⟨hlimit, hlocal, htreasury, hrow.treasuryVersion, hchecks,
      hrow.currency, hrow.organisation⟩

/-- A new version of a program row by a statement that rewrites it where it
is there. -/
theorem Db.Legal.rewriteProgram {f : ProgramEntity → ProgramEntity} (h : db.Legal)
    (hf : ∀ row, row.Declared db → (f row).Declared db) :
    (engine.applyAll ((db.program? p).toList.map fun row => .program (f row)) db).Legal := by
  cases hp : db.program? p with
  | none => exact h
  | some row => exact h.programVersion hp (hf row)

/-- **A statement that is answered leaves the database legal.** -/
theorem exec_legal {β : Type} (s : Stmt β) (c : Db) (b : β) (ws : List Write) (h : c.Legal)
    (hx : Stmt.exec s c = .ok (b, ws)) : (engine.applyAll ws c).Legal := by
  have hread : ws = [] → (engine.applyAll ws c).Legal := fun hnil => by rw [hnil]; exact h
  cases s with
  | lockProgram | selectProgram | selectRequest | selectDuplicate | lockReservation
  | selectMessage | selectEcho | selectReservations | selectReconciliation | selectRecovery =>
    simp only [Stmt.exec, Except.ok.injEq, Prod.mk.injEq] at hx
    exact hread hx.2.symm
  | selectMessagesAt =>
    simp only [Stmt.exec, guarded_ok, Prod.mk.injEq] at hx
    exact hread hx.2.2.symm
  | insertProgram p organisationId currency now =>
    -- only a row that is inserted is checked
    simp only [Stmt.exec] at hx
    split at hx
    · cases hx
      exact h
    · simp only [guarded_ok, List.forall_mem_cons, Constraint.check, Constraint.foreignKey,
        Prod.mk.injEq] at hx
      obtain ⟨⟨hcurrency, horganisation, -⟩, -, rfl⟩ := hx
      exact h.program ⟨rfl, rfl, rfl, rfl, List.all_eq_true.mp rfl, hcurrency, horganisation⟩
  | insertRequest organisationId requestId operation fingerprint now =>
    simp only [Stmt.exec] at hx
    split at hx
    · cases hx
      exact h
    · simp only [guarded_ok, List.forall_mem_cons, Constraint.foreignKey, Prod.mk.injEq] at hx
      obtain ⟨⟨horganisation, -⟩, -, rfl⟩ := hx
      exact h.requests (List.forall_mem_singleton.mpr ⟨by simp, horganisation⟩)
  | completeRequest organisationId requestId outcome =>
    simp only [Stmt.exec, Except.ok.injEq, Prod.mk.injEq] at hx
    obtain ⟨-, rfl⟩ := hx
    refine h.requests fun row hrow => ?_
    obtain ⟨found, hfound, rfl⟩ := List.mem_map.mp hrow
    have hmem := (Table.get_eq_some (Option.mem_toList.mp hfound)).1
    exact ⟨by simp, ((Db.LegalIn.requests h).rows found hmem).organisation⟩
  | expireRequests cutoff =>
    simp only [Stmt.exec, Except.ok.injEq, Prod.mk.injEq] at hx
    obtain ⟨-, rfl⟩ := hx
    refine h.requests fun row hrow => ?_
    obtain ⟨found, hfound, rfl⟩ := List.mem_map.mp hrow
    have hmem := List.mem_of_mem_filter hfound
    exact ⟨by simp, ((Db.LegalIn.requests h).rows found hmem).organisation⟩
  | insertReservation => exact h.insertReservation hx
  | releaseReservation p invoiceId outstandingInvoiceMinor outstandingReservedMinor status now =>
    exact h.updateReservations hx
      (fun r hr => (Db.mem_reservationsOf.mp (Db.mem_reservationsFor.mp hr).1).1)
      (fun _ => rfl) fun _ => rfl
  | cancelReservation p invoiceId outstandingReservedMinor status now =>
    exact h.updateReservations hx
      (fun r hr => (Db.mem_reservationsOf.mp (Db.mem_reservationsFor.mp hr).1).1)
      (fun _ => rfl) fun _ => rfl
  | insertLedger => exact h.insertLedger hx
  | updatePosition => exact h.updatePosition hx
  | insertEventMessage row =>
    simp only [Stmt.exec, guarded_ok, List.forall_mem_cons, Constraint.bigint] at hx
    obtain ⟨⟨hversion, -⟩, he⟩ := hx
    split at he
    · cases he
      exact h
    · rename_i hnew
      cases he
      exact h.message hversion (by simpa using hnew)
  | insertSnapshotMessage row =>
    simp only [Stmt.exec, guarded_ok, List.forall_mem_cons, Constraint.bigint, Constraint.unique,
      Prod.mk.injEq] at hx
    obtain ⟨⟨hversion, hnew, -⟩, -, rfl⟩ := hx
    exact h.message hversion (by simpa using hnew)
  | acknowledgeEcho p reference version now =>
    exact h.updateReservations hx
      (fun r hr => (Db.mem_reservationsOf.mp (List.mem_of_mem_filter hr)).1) (fun _ => rfl)
      fun _ => rfl
  | advanceAppliedEffectiveAt p effectiveAt =>
    simp only [Stmt.exec, Except.ok.injEq, Prod.mk.injEq] at hx
    obtain ⟨-, rfl⟩ := hx
    refine h.rewriteProgram fun row hrow => ?_
    unfold Stmt.withAppliedEffectiveAt
    split
    · exact ⟨hrow.creditLimit, hrow.localReserved, hrow.treasuryReserved, hrow.treasuryVersion,
        hrow.checks, hrow.currency, hrow.organisation⟩
    · exact hrow
  | upsertStreamPosition p coordinates now =>
    simp only [Stmt.exec, guarded_ok, List.forall_mem_cons, Constraint.foreignKey,
      Prod.mk.injEq] at hx
    obtain ⟨⟨hprogram, -⟩, -, rfl⟩ := hx
    unfold Stmt.streamWrites
    split
    · exact h.streamPosition hprogram
    · split
      · exact h.streamPosition hprogram
      · exact h
  | updateTreasuryVersion p version effectiveAt investigationRequired =>
    simp only [Stmt.exec, guarded_ok, List.forall_mem_cons, Constraint.bigint,
      Prod.mk.injEq] at hx
    obtain ⟨⟨hversion, -⟩, -, rfl⟩ := hx
    exact h.rewriteProgram fun row hrow => ⟨hrow.creditLimit, hrow.localReserved,
      hrow.treasuryReserved, hversion, hrow.checks, hrow.currency, hrow.organisation⟩
  | insertAcknowledgement row =>
    simp only [Stmt.exec, guarded_ok, List.forall_mem_cons, Constraint.bigint, Constraint.check,
      Constraint.unique, Constraint.foreignKey, Prod.mk.injEq] at hx
    obtain ⟨⟨hversion, hexplicit, hwatermark, hnew, hmessage, -⟩, -, rfl⟩ := hx
    refine h.acknowledgement ⟨hversion, ?_, ?_, hmessage⟩ (by simpa using hnew)
    · rw [← eq_of_beq hexplicit, beq_iff_eq]
    · rw [← eq_of_beq hwatermark, beq_iff_eq]
  | acknowledgeReservations p ids version now =>
    exact h.updateReservations hx
      (fun r hr => (Db.mem_reservationsOf.mp (List.mem_of_mem_filter hr)).1) (fun _ => rfl)
      fun _ => rfl
  | flagInvestigation p =>
    -- only a program that is not flagged yet is written
    simp only [Stmt.exec, Except.ok.injEq, Prod.mk.injEq] at hx
    obtain ⟨-, rfl⟩ := hx
    cases hp : c.program? p with
    | none => exact h
    | some row =>
      by_cases hflag : row.investigationRequired = true
      · simpa [hflag] using h
      · have hlegal := h.programVersion hp fun hrow => show
          ProgramEntity.Declared c { row with investigationRequired := true } from
            ⟨hrow.creditLimit, hrow.localReserved, hrow.treasuryReserved, hrow.treasuryVersion,
              hrow.checks, hrow.currency, hrow.organisation⟩
        simpa [hflag] using hlegal
  | holdProgram p =>
    simp only [Stmt.exec, Except.ok.injEq, Prod.mk.injEq] at hx
    obtain ⟨-, rfl⟩ := hx
    exact h.rewriteProgram fun row hrow => ⟨hrow.creditLimit, hrow.localReserved,
      hrow.treasuryReserved, hrow.treasuryVersion, hrow.checks, hrow.currency, hrow.organisation⟩

/-! ## Transactions and runs -/

/-- **A transaction that commits leaves the database legal.** -/
theorem Db.Legal.commit {α : Type} {t : Transaction α} {a : α} (h : db.Legal)
    (hr : engine.run t db = .ok (a, db')) : db'.Legal :=
  Engine.run_keeps (fun s c b ws hc hx => exec_legal s c b ws hc (Stmt.exec_of_send hx)) h hr

variable [Sha256]

/-- **Every run.** -/
theorem Db.Legal.run (h : db.Legal) (ops : List Operation) : (Operation.run ops db).Legal :=
  List.foldlRecOn ops (motive := Db.Legal) (fun c op => engine.effect op.tx c) h
    fun _ hc _ _ => Engine.effect_induct hc fun _ _ hr => hc.commit hr

end InvoiceReservation
