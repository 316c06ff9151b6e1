import InvoiceReservation.Common.Growth
import InvoiceReservation.Helpers.Reservations
import InvoiceReservation.Model.Audit
import InvoiceReservation.Properties.Concurrency
import InvoiceReservation.Properties.Idempotency
import InvoiceReservation.Properties.Ledger
/-!
# History is only added to

Whatever commits, every row that is there stays in its place, in the same
version or a later one, and new rows stand behind it. The ledger, the
messages and their markers are never touched again. A reservation's amounts
only fall, and one that is over is never changed but for treasury's
acknowledgement of it; a request's record is kept as it is until it expires;
and what a program's row tells of treasury, and the offsets, only go on.
-/

namespace InvoiceReservation

open Transactions Table

variable [Sha256] {db db' : Db} {p : Uuid}

/-! ## Later versions -/

section Versions

omit [Sha256]

/-- A later version of a program's row. -/
structure ProgramEntity.Later (old row : ProgramEntity) : Prop where
  id : row.id = old.id
  organisationId : row.organisationId = old.organisationId
  currency : row.currency = old.currency
  nextSequence : old.nextSequence ≤ row.nextSequence
  treasuryVersion : old.treasuryVersion ≤ row.treasuryVersion
  appliedEffectiveAt : ∀ instant, old.treasuryAppliedEffectiveAt = some instant →
    ∃ later, row.treasuryAppliedEffectiveAt = some later ∧ instant ≤ later

/-- A later version of a reservation. -/
structure InvoiceReservationEntity.Later (old row : InvoiceReservationEntity) : Prop
    extends Evolves old row where
  invoice : row.outstandingInvoiceMinor ≤ old.outstandingInvoiceMinor
  reserved : row.outstandingReservedMinor ≤ old.outstandingReservedMinor
  status : row.status = .active → old.status = .active
  -- what is over stays as it is
  terminal : old.status ∈ terminalStatuses → row.status = old.status ∧
    row.outstandingInvoiceMinor = old.outstandingInvoiceMinor ∧
    row.outstandingReservedMinor = old.outstandingReservedMinor
  named : old.treasuryAcknowledged = true → row.treasuryAcknowledged = true

/-- The same stream position, or one further on. -/
def ProgramStreamPosition.Later (old row : ProgramStreamPosition) : Prop :=
  row = old ∨ row.key = old.key ∧ old.offset < row.offset

variable {row row' row'' : InvoiceReservationEntity} {program program' program'' : ProgramEntity}

theorem ProgramEntity.Later.refl (program : ProgramEntity) : program.Later program :=
  ⟨rfl, rfl, rfl, le_rfl, le_rfl, fun instant h => ⟨instant, h, le_rfl⟩⟩

theorem ProgramEntity.Later.trans (h : program.Later program') (h' : program'.Later program'') :
    program.Later program'' := by
  refine ⟨h'.id.trans h.id, h'.organisationId.trans h.organisationId, h'.currency.trans h.currency,
    h.nextSequence.trans h'.nextSequence, h.treasuryVersion.trans h'.treasuryVersion,
    fun instant hinstant => ?_⟩
  obtain ⟨later, hlater, hle⟩ := h.appliedEffectiveAt instant hinstant
  obtain ⟨last, hlast, hle'⟩ := h'.appliedEffectiveAt later hlater
  exact ⟨last, hlast, hle.trans hle'⟩

theorem InvoiceReservationEntity.Later.refl (row : InvoiceReservationEntity) : row.Later row :=
  ⟨Evolves.refl row, le_rfl, le_rfl, fun h => h, fun _ => ⟨rfl, rfl, rfl⟩, fun h => h⟩

theorem InvoiceReservationEntity.Later.trans (h : row.Later row') (h' : row'.Later row'') :
    row.Later row'' := by
  refine ⟨h.toEvolves.trans h'.toEvolves, h'.invoice.trans h.invoice,
    h'.reserved.trans h.reserved, fun hs => h.status (h'.status hs), fun hs => ?_,
    fun hn => h'.named (h.named hn)⟩
  obtain ⟨hstatus, hinvoice, hreserved⟩ := h.terminal hs
  obtain ⟨hstatus', hinvoice', hreserved'⟩ := h'.terminal (hstatus ▸ hs)
  exact ⟨hstatus'.trans hstatus, hinvoice'.trans hinvoice, hreserved'.trans hreserved⟩

theorem ProgramStreamPosition.Later.refl (position : ProgramStreamPosition) :
    position.Later position :=
  Or.inl rfl

theorem ProgramStreamPosition.Later.trans {position position' position'' : ProgramStreamPosition}
    (h : position.Later position') (h' : position'.Later position'') :
    position.Later position'' := by
  rcases h with rfl | ⟨hkey, hlt⟩
  · exact h'
  · rcases h' with rfl | ⟨hkey', hlt'⟩
    · exact Or.inr ⟨hkey, hlt⟩
    · exact Or.inr ⟨hkey'.trans hkey, hlt.trans hlt'⟩

theorem Aged.refl (record : RequestRecordEntity) : Aged record record := Or.inl rfl

end Versions

/-- **What a database keeps of another**: all that it says is there, in its
place, as it was or in a later version. -/
structure Db.Keeps (db db' : Db) : Prop where
  organisations : db'.organisations = db.organisations
  programs : Grows ProgramEntity.Later db.programs db'.programs
  reservations : Grows InvoiceReservationEntity.Later db.reservations db'.reservations
  ledger : db.ledger <+: db'.ledger
  requests : Grows Aged db.requests db'.requests
  messages : db.messages <+: db'.messages
  acknowledgements : db.acknowledgements <+: db'.acknowledgements
  streamPositions : Grows ProgramStreamPosition.Later db.streamPositions db'.streamPositions

omit [Sha256] in
theorem Db.Keeps.trans {db'' : Db} (h : db.Keeps db') (h' : db'.Keeps db'') : db.Keeps db'' where
  organisations := h'.organisations.trans h.organisations
  programs := h.programs.trans (fun _ _ _ => ProgramEntity.Later.trans) h'.programs
  reservations := h.reservations.trans (fun _ _ _ => InvoiceReservationEntity.Later.trans)
    h'.reservations
  ledger := h.ledger.trans h'.ledger
  requests := h.requests.trans (fun _ _ _ => Aged.trans) h'.requests
  messages := h.messages.trans h'.messages
  acknowledgements := h.acknowledgements.trans h'.acknowledgements
  streamPositions := h.streamPositions.trans (fun _ _ _ => ProgramStreamPosition.Later.trans)
    h'.streamPositions

omit [Sha256] in
theorem Db.Keeps.refl (db : Db) : db.Keeps db where
  organisations := rfl
  programs := Grows.refl ProgramEntity.Later.refl _
  reservations := Grows.refl InvoiceReservationEntity.Later.refl _
  ledger := List.prefix_rfl
  requests := Grows.refl Aged.refl _
  messages := List.prefix_rfl
  acknowledgements := List.prefix_rfl
  streamPositions := Grows.refl ProgramStreamPosition.Later.refl _

/-! ## Programs -/

section Programs

variable {program row : ProgramEntity} {entries : List PendingLedgerEntry} {now : Timestamp}

omit [Sha256] in
/-- An advance only takes more sequences. -/
theorem withPosition_later : program.Later (Stmt.withPosition program
    (advancePosition program.toProgramPosition entries now).program now) := by
  have hadvances := @advances_advancePosition program.toProgramPosition entries now
  refine ⟨rfl, rfl, rfl, ?_, le_rfl, fun instant h => ⟨instant, h, le_rfl⟩⟩
  have hnext := hadvances.next
  change program.nextSequence ≤ (advancePosition _ _ _).program.nextSequence
  omega

omit [Sha256] in
theorem withAppliedEffectiveAt_later {effectiveAt : Timestamp} :
    program.Later (Stmt.withAppliedEffectiveAt program effectiveAt) := by
  unfold Stmt.withAppliedEffectiveAt
  split
  · rename_i hall
    refine ⟨rfl, rfl, rfl, le_rfl, le_rfl, fun instant h => ⟨effectiveAt, rfl, ?_⟩⟩
    rw [h, Option.all_some, decide_eq_true_eq] at hall
    exact hall.le
  · exact .refl program

omit [Sha256] in
theorem withTreasuryVersion_later {version : Int} {effectiveAt : Timestamp}
    {investigationRequired : Bool} (h : program.treasuryVersion ≤ version) :
    program.Later
      (Stmt.withTreasuryVersion program version effectiveAt investigationRequired) := by
  refine ⟨rfl, rfl, rfl, le_rfl, h, fun instant hinstant => ⟨_, rfl, ?_⟩⟩
  rw [hinstant]
  exact le_max_left _ _

omit [Sha256] in
/-- A later version of a program that is there, put in its place. -/
theorem grows_of_program (hp : db.program? program.id = some program)
    (hput : db'.programs = put (·.id) row db.programs) (hlater : program.Later row) :
    Grows ProgramEntity.Later db.programs db'.programs := by
  rw [hput]
  refine Grows.put ProgramEntity.Later.refl fun old hold => ?_
  rw [hlater.id] at hold
  exact Option.some.inj (hold.symm.trans hp) ▸ hlater

theorem Reserved.programs_after {rt : Runtime} {command : ReserveCommand} {reservedMinor : Int}
    {fx : Option FxRate} {outcome : WriteOutcome}
    (h : Reserved rt command db program reservedMinor fx outcome db') : db'.programs =
      put (·.id) (Stmt.withPosition program (reservedAdvance rt command program
        reservedMinor).program rt.now) db.programs := by
  rw [h.after]
  simp [advanceWrites, Db.apply]

omit [Sha256] in
theorem Settled.programs_after {rt : Runtime} {identity : RequestIdentity} {invoiceId : String}
    {entry : PendingLedgerEntry} {update : InvoiceReservationEntity → InvoiceReservationEntity}
    {row : InvoiceReservationEntity} {outcome : WriteOutcome}
    (h : Settled rt identity invoiceId entry update db program row outcome db') : db'.programs =
      put (·.id) (Stmt.withPosition program
        (advancePosition program.toProgramPosition [entry] rt.now).program rt.now)
          db.programs := by
  rw [h.after]
  simp [advanceWrites, Db.apply]

omit [Sha256] in
/-- An upsert of a stream position writes nothing else. -/
theorem streamWrites_frame {row : ProgramStreamPosition} {c d : Db} {α : Type} {f : Db → α}
    (hf : ∀ row d, f (d.apply (.streamPosition row)) = f d) :
    f (engine.applyAll (Stmt.streamWrites row c) d) = f d := by
  unfold Stmt.streamWrites
  split
  · exact hf _ _
  · split
    · exact hf _ _
    · rfl

theorem EventApplied.programs_after {rt : Runtime} {event : CapacityEvent}
    {coordinates : StreamCoordinates} (h : EventApplied rt event coordinates db program db') :
    db'.programs = put (·.id) (Stmt.withAppliedEffectiveAt (Stmt.withPosition program
      (eventAdvance rt event program).program rt.now) event.effectiveAt) db.programs := by
  have hid : (Stmt.withAppliedEffectiveAt (Stmt.withPosition program
      (eventAdvance rt event program).program rt.now) event.effectiveAt).id = program.id :=
    withAppliedEffectiveAt_later.id.trans rfl
  rw [h.after]
  simp only [engine_applyAll_cons, List.cons_append, List.nil_append, advanceWrites]
  rw [@streamWrites_frame _ _ _ _ (·.programs) fun _ _ => rfl]
  exact put_put hid.symm

theorem EventEchoed.programs_after {rt : Runtime} {event : CapacityEvent} {reference : String}
    {coordinates : StreamCoordinates}
    (h : EventEchoed rt event coordinates db program reference db') : db'.programs =
      put (·.id) (Stmt.withAppliedEffectiveAt program event.effectiveAt) db.programs := by
  rw [h.after]
  simp only [engine_applyAll_cons, Engine.applyAll_append, Engine.applyAll_nil]
  rw [Db.apply]
  exact congrArg (put _ _) (@streamWrites_frame _ _ _ _ (·.programs) fun _ _ => rfl)

theorem SnapshotApplied.programs_after {rt : Runtime} {snapshot : ReconciliationSnapshot}
    {marker : SnapshotMarker} {coordinates : StreamCoordinates} {ids : List Uuid}
    {investigationRequired : Bool} {deltas : SnapshotDeltas}
    (h : SnapshotApplied rt snapshot marker coordinates db program ids investigationRequired deltas
      db') : db'.programs =
      put (·.id) (snapshotRow rt snapshot program investigationRequired deltas) db.programs := by
  rw [h.after]
  simp only [engine_applyAll_cons, List.cons_append, List.nil_append, advanceWrites]
  rw [@streamWrites_frame _ _ _ _ (·.programs) fun _ _ => rfl]
  exact put_put rfl

/-- **A change to the programs.** -/
theorem Change.programs_later (hc : Change db db') :
    Grows ProgramEntity.Later db.programs db'.programs := by
  cases hc with
  | reserved hp ha => exact grows_of_program hp ha.programs_after withPosition_later
  | released hp hrate hd ha => exact grows_of_program hp ha.programs_after withPosition_later
  | cancelled hp hd ha => exact grows_of_program hp ha.programs_after withPosition_later
  | applied ha =>
    exact grows_of_program (program?_id ha.found) ha.programs_after
      (withPosition_later.trans withAppliedEffectiveAt_later)
  | echoed ha =>
    exact grows_of_program (program?_id ha.found) ha.programs_after withAppliedEffectiveAt_later
  | corrected ha =>
    exact grows_of_program (program?_id ha.found) ha.programs_after
      (withPosition_later.trans (withTreasuryVersion_later ha.notStale))
  | @seeded seed now program hprogram hnone hpersist =>
    have hput : (engine.applyAll (.program program :: advanceWrites program
        (advancePosition program.toProgramPosition [seed.entry] now) now) db).programs =
          put (·.id) (Stmt.withPosition program
            (advancePosition program.toProgramPosition [seed.entry] now).program now)
              db.programs := put_put rfl
    rw [hput]
    refine Grows.put ProgramEntity.Later.refl fun old hold => ?_
    cases hnone.symm.trans hold
  | swept cutoff => exact Grows.refl ProgramEntity.Later.refl _
  | @flagged program b v hp =>
    have hlater : program.Later { program with
        investigationRequired := b, positionVerified := v } :=
      ⟨rfl, rfl, rfl, le_rfl, le_rfl, fun t ht => ⟨t, ht, le_rfl⟩⟩
    exact grows_of_program hp rfl hlater

end Programs

/-! ## Reservations -/

section Reservations

variable {row : InvoiceReservationEntity} {now : Timestamp}

omit [Sha256] in
/-- A release leaves a later version. -/
theorem releasedRow_later {releaseMinor scaledRate : Int} {releaseCurrency : String}
    {applied : ReleaseDecision}
    (h : Releases releaseMinor releaseCurrency row.snapshot scaledRate applied) :
    row.Later (releasedRow applied now row) := by
  have hwithin : releaseMinor ≤ row.outstandingInvoiceMinor := h.within
  have hpositive := h.positive
  have hdelta : applied.deltaMinor = row.outstandingReservedMinor -
    applied.outstandingReservedMinor := h.delta
  have hreturned := h.returned
  refine ⟨⟨rfl, fun v hv => ⟨v, hv, le_rfl⟩⟩, ?_, ?_, fun hs => ?_, fun hs => absurd hs h.active,
    fun hn => hn⟩
  · have hinvoice := h.invoice
    change applied.outstandingInvoiceMinor ≤ row.outstandingInvoiceMinor
    change applied.outstandingInvoiceMinor = if applied.outstandingReservedMinor = 0 then 0
      else row.outstandingInvoiceMinor - releaseMinor at hinvoice
    split at hinvoice <;> omega
  · change applied.outstandingReservedMinor ≤ row.outstandingReservedMinor
    omega
  · have hstatus := h.status
    change applied.status = .active at hs
    rw [hs] at hstatus
    split at hstatus <;> cases hstatus

omit [Sha256] in
/-- So does a cancellation. -/
theorem cancelledRow_later {applied : CancelDecision} (h : cancelPolicy row.snapshot = .ok applied)
    (hreserved : 0 ≤ row.outstandingReservedMinor) : row.Later (cancelledRow applied now row) := by
  have hsettles := cancelPolicy_ok h
  refine ⟨⟨rfl, fun v hv => ⟨v, hv, le_rfl⟩⟩, le_rfl, hreserved, fun hs => ?_,
    fun hs => absurd hs hsettles.active, fun hn => hn⟩
  have hterminal := hsettles.terminal.mpr rfl
  change applied.status = .active at hs
  simp [hs, terminalStatuses] at hterminal

omit [Sha256] in
/-- And an acknowledgement by a version that is not older. -/
theorem acknowledged_later {version : Int}
    (h : ∀ v, row.acknowledgedByVersion = some v → v ≤ version) :
    row.Later (Stmt.acknowledged version now row) :=
  ⟨⟨rfl, fun v hv => ⟨version, rfl, h v hv⟩⟩, le_rfl, le_rfl, fun hs => hs,
    fun _ => ⟨rfl, rfl, rfl⟩, fun _ => rfl⟩

omit [Sha256] in
/-- **Later versions of some of a program's rows**, in their places. -/
theorem grows_of_rewrite {P : InvoiceReservationEntity → Bool}
    {f : InvoiceReservationEntity → InvoiceReservationEntity}
    (hn : (db.reservations.map InvoiceReservationEntity.key).Nodup)
    (hrows : db'.reservations = putAll InvoiceReservationEntity.key
      (((db.reservationsOf p).filter P).map f) db.reservations)
    (hkey : ∀ r, (f r).key = r.key) (hf : ∀ r ∈ (db.reservationsOf p).filter P, r.Later (f r)) :
    Grows InvoiceReservationEntity.Later db.reservations db'.reservations := by
  rw [hrows, Db.reservationsOf, List.filter_filter]
  refine Grows.rewrite InvoiceReservationEntity.Later.refl hn hkey fun r hr hP => hf r ?_
  rw [Db.reservationsOf, List.filter_filter]
  exact List.mem_filter.mpr ⟨hr, hP⟩

omit [Sha256] in
/-- What is settled is the one reservation of its invoice. -/
theorem Settled.only {rt : Runtime} {identity : RequestIdentity} {invoiceId : String}
    {entry : PendingLedgerEntry} {update : InvoiceReservationEntity → InvoiceReservationEntity}
    {program : ProgramEntity} {outcome : WriteOutcome}
    (h : Settled rt identity invoiceId entry update db program row outcome db')
    (hfiled : Filed (db.reservationsOf program.id)) :
    db.reservationsFor program.id invoiceId = [row] :=
  Db.reservationsFor_of_nodup hfiled.invoices (List.mem_of_mem_head? h.found)

/-- **A change to the reservations.** -/
theorem Change.reservations_later (hc : Change db db')
    (hfiled : ∀ p, Filed (db.reservationsOf p))
    (hn : (db.reservations.map InvoiceReservationEntity.key).Nodup) :
    Grows InvoiceReservationEntity.Later db.reservations db'.reservations := by
  have hquiet : db'.reservations = db.reservations →
      Grows InvoiceReservationEntity.Later db.reservations db'.reservations := fun he =>
    he ▸ Grows.refl InvoiceReservationEntity.Later.refl _
  cases hc with
  | @reserved rt command program reservedMinor fx _ _ hp ha =>
    have hput : db'.reservations = put InvoiceReservationEntity.key
        (reservedRow rt command program reservedMinor fx) db.reservations := by
      rw [ha.after]
      simp [advanceWrites, Db.apply]
    rw [hput]
    refine Grows.put InvoiceReservationEntity.Later.refl fun old hold => ?_
    -- no reservation has the id yet
    have hid := ha.newId
    obtain ⟨hmem, hkey⟩ := get_eq_some hold
    have hsame : old.id = rt.generatedId := congrArg (fun k : Uuid × String × Uuid => k.2.2) hkey
    simp [Db.hasReservationId] at hid
    exact absurd hsame (hid old hmem)
  | @released rt command program row _ applied _ _ hp hrate hd ha =>
    refine grows_of_rewrite hn (p := program.id) (f := releasedRow applied rt.now)
      (P := fun r => decide (r.invoiceId = command.invoiceId)) ?_ (fun _ => rfl) ?_
    · rw [ha.after]
      simp [advanceWrites, Db.apply, Db.reservationsFor]
    · intro r hr
      have honly := ha.only (hfiled program.id)
      rw [Db.reservationsFor] at honly
      rw [honly, List.mem_singleton] at hr
      exact hr ▸ releasedRow_later (releasePolicy_accepted hd)
  | @cancelled rt command program row applied _ _ hp hd ha =>
    refine grows_of_rewrite hn (p := program.id) (f := cancelledRow applied rt.now)
      (P := fun r => decide (r.invoiceId = command.invoiceId)) ?_ (fun _ => rfl) ?_
    · rw [ha.after]
      simp [advanceWrites, Db.apply, Db.reservationsFor]
    · intro r hr
      have hchecked := (hfiled program.id).checked r (List.mem_of_mem_filter hr)
      have honly := ha.only (hfiled program.id)
      rw [Db.reservationsFor] at honly
      rw [honly, List.mem_singleton] at hr
      subst hr
      exact cancelledRow_later hd (reservationChecks_ok hchecked).2.1
  | applied ha =>
    refine hquiet ?_
    rw [ha.after]
    simp only [engine_applyAll_cons, List.cons_append, List.nil_append, advanceWrites]
    rw [@streamWrites_frame _ _ _ _ (·.reservations) fun _ _ => rfl]
    rfl
  | @echoed rt event _ program reference _ ha =>
    refine grows_of_rewrite hn (p := program.id) (f := Stmt.acknowledged event.version rt.now)
      (P := fun r => r.treasuryReference = some reference ∧ r.treasuryAcknowledged = false)
      ?_ (fun _ => rfl) fun r hr => acknowledged_later fun v hv => ?_
    · rw [ha.after]
      simp only [engine_applyAll_cons, Engine.applyAll_append, Engine.applyAll_nil]
      exact @streamWrites_frame _ _ _ _ (·.reservations) fun _ _ => rfl
    · -- an echo acknowledges only what nothing acknowledged before
      obtain ⟨hmem, hP⟩ := List.mem_filter.mp hr
      have hack := (hfiled program.id).acknowledged hmem
      simp [(of_decide_eq_true hP).2, hv] at hack
  | @corrected rt snapshot marker _ program ids _ _ _ ha =>
    refine grows_of_rewrite hn (p := program.id) (f := Stmt.acknowledged snapshot.version rt.now)
      (P := fun r => ids.contains r.id) ?_ (fun _ => rfl)
      fun r hr => acknowledged_later fun v hv => ?_
    · rw [ha.after]
      simp only [engine_applyAll_cons, List.cons_append, List.nil_append, advanceWrites]
      exact @streamWrites_frame _ _ _ _ (·.reservations) fun _ _ => rfl
    · -- and a marker only what no snapshot as new did
      obtain ⟨hmem, hid⟩ := List.mem_filter.mp hr
      have hmarks := (@Filed.mem_marked _ r marker snapshot.version (hfiled program.id) hmem).mp
        (ha.ids_eq ▸ List.elem_iff.mp hid)
      simp only [marks, ApplySnapshotService.toSnapshotReservation, hv, Bool.and_eq_true,
        decide_eq_true_eq] at hmarks
      exact hmarks.2.le
  | seeded hp hnone hpersist => exact hquiet rfl
  | swept cutoff => exact hquiet rfl
  | flagged b v hp => exact hquiet rfl

end Reservations

/-! ## Request records -/

section Requests

variable {program : ProgramEntity} {outcome : WriteOutcome}

theorem Reserved.requests_after {rt : Runtime} {command : ReserveCommand} {reservedMinor : Int}
    {fx : Option FxRate} (h : Reserved rt command db program reservedMinor fx outcome db') :
    db'.requests = put RequestRecordEntity.key (command.identity.complete rt.now
      (reservedBody rt command program reservedMinor fx)) db.requests := by
  rw [h.after]
  exact put_put rfl

omit [Sha256] in
theorem Settled.requests_after {rt : Runtime} {identity : RequestIdentity} {invoiceId : String}
    {entry : PendingLedgerEntry} {update : InvoiceReservationEntity → InvoiceReservationEntity}
    {row : InvoiceReservationEntity}
    (h : Settled rt identity invoiceId entry update db program row outcome db') : db'.requests =
      put RequestRecordEntity.key (identity.complete rt.now outcome.body) db.requests := by
  rw [h.after]
  exact put_put rfl

theorem EventApplied.requests_after {rt : Runtime} {event : CapacityEvent}
    {coordinates : StreamCoordinates} (h : EventApplied rt event coordinates db program db') :
    db'.requests = db.requests := by
  rw [h.after]
  simp only [engine_applyAll_cons, List.cons_append, List.nil_append, advanceWrites]
  exact @streamWrites_frame _ _ _ _ (·.requests) fun _ _ => rfl

theorem EventEchoed.requests_after {rt : Runtime} {event : CapacityEvent} {reference : String}
    {coordinates : StreamCoordinates}
    (h : EventEchoed rt event coordinates db program reference db') :
    db'.requests = db.requests := by
  rw [h.after]
  simp only [engine_applyAll_cons, Engine.applyAll_append, Engine.applyAll_nil]
  exact @streamWrites_frame _ _ _ _ (·.requests) fun _ _ => rfl

theorem SnapshotApplied.requests_after {rt : Runtime} {snapshot : ReconciliationSnapshot}
    {marker : SnapshotMarker} {coordinates : StreamCoordinates} {ids : List Uuid}
    {investigationRequired : Bool} {deltas : SnapshotDeltas}
    (h : SnapshotApplied rt snapshot marker coordinates db program ids investigationRequired deltas
      db') : db'.requests = db.requests := by
  rw [h.after]
  simp only [engine_applyAll_cons, List.cons_append, List.nil_append, advanceWrites]
  exact @streamWrites_frame _ _ _ _ (·.requests) fun _ _ => rfl

omit [Sha256] in
/-- A record of a new key is one more. -/
theorem grows_of_record {record : RequestRecordEntity}
    (hput : db'.requests = put RequestRecordEntity.key record db.requests)
    (hnew : db.request? record.organisationId record.requestId = none) :
    Grows Aged db.requests db'.requests := by
  rw [hput]
  refine Grows.put Aged.refl fun old hold => ?_
  cases hnew.symm.trans hold

/-- **A change to the records.** -/
theorem Change.requests_later (hc : Change db db')
    (hn : (db.requests.map RequestRecordEntity.key).Nodup) :
    Grows Aged db.requests db'.requests := by
  have hquiet : db'.requests = db.requests → Grows Aged db.requests db'.requests := fun he =>
    he ▸ Grows.refl Aged.refl _
  cases hc with
  | reserved hp ha => exact grows_of_record ha.requests_after ha.newKey
  | released hp hrate hd ha => exact grows_of_record ha.requests_after ha.newKey
  | cancelled hp hd ha => exact grows_of_record ha.requests_after ha.newKey
  | applied ha => exact hquiet ha.requests_after
  | echoed ha => exact hquiet ha.requests_after
  | corrected ha => exact hquiet ha.requests_after
  | seeded hp hnone hpersist => exact hquiet rfl
  | swept cutoff =>
    refine Grows.rewrite Aged.refl hn (fun _ => rfl) fun old hold hP => Or.inr ⟨?_, rfl⟩
    exact (of_decide_eq_true hP).1
  | flagged b v hp => exact hquiet rfl

end Requests

/-! ## Stream positions -/

omit [Sha256] in
/-- **An upsert moves a position on**, or adds one. -/
theorem streamWrites_later {row : ProgramStreamPosition} {c d : Db}
    (hd : d.streamPositions = c.streamPositions) :
    Grows ProgramStreamPosition.Later c.streamPositions
      (engine.applyAll (Stmt.streamWrites row c) d).streamPositions := by
  have hfound : get ProgramStreamPosition.key row.key (c.streamPositionsOf row.programId) =
      get ProgramStreamPosition.key row.key c.streamPositions :=
    get_filter_key (P := fun k : Uuid × String × Int => k.1 = row.programId) (decide_eq_true rfl)
  have hput : (∀ old, get ProgramStreamPosition.key row.key c.streamPositions = some old →
      old.offset < row.offset) → Grows ProgramStreamPosition.Later c.streamPositions
        (put ProgramStreamPosition.key row d.streamPositions) := fun hlt => by
    rw [hd]
    refine Grows.put ProgramStreamPosition.Later.refl fun old hold => ?_
    exact Or.inr ⟨(get_eq_some hold).2.symm, hlt old hold⟩
  unfold Stmt.streamWrites
  split
  · rename_i hnone
    refine hput fun old hold => ?_
    cases (hfound.symm.trans hnone).symm.trans hold
  · rename_i existing hexisting
    split
    · rename_i hlt
      refine hput fun old hold => ?_
      obtain rfl := Option.some.inj ((hfound.symm.trans hexisting).symm.trans hold)
      exact hlt
    · rw [Engine.applyAll_nil, hd]
      exact Grows.refl ProgramStreamPosition.Later.refl _

/-- **A change to the stream positions.** -/
theorem Change.streamPositions_later (hc : Change db db') :
    Grows ProgramStreamPosition.Later db.streamPositions db'.streamPositions := by
  have hquiet : db'.streamPositions = db.streamPositions →
      Grows ProgramStreamPosition.Later db.streamPositions db'.streamPositions := fun he =>
    he ▸ Grows.refl ProgramStreamPosition.Later.refl _
  cases hc with
  | reserved hp ha => exact hquiet (by rw [ha.after]; rfl)
  | released hp hrate hd ha => exact hquiet (by rw [ha.after]; rfl)
  | cancelled hp hd ha => exact hquiet (by rw [ha.after]; rfl)
  | applied ha =>
    rw [ha.after]
    exact streamWrites_later rfl
  | echoed ha =>
    rw [ha.after]
    simp only [engine_applyAll_cons, Engine.applyAll_append, Engine.applyAll_nil]
    exact streamWrites_later rfl
  | corrected ha =>
    rw [ha.after]
    exact streamWrites_later rfl
  | seeded hp hnone hpersist => exact hquiet rfl
  | swept cutoff => exact hquiet rfl
  | flagged b v hp => exact hquiet rfl

/-! ## A change, and a run -/

/-- What a change has written. -/
theorem Change.writes (hc : Change db db') : ∃ ws, db' = engine.applyAll ws db := by
  cases hc with
  | reserved _ ha => exact ⟨_, ha.after⟩
  | released _ _ _ ha => exact ⟨_, ha.after⟩
  | cancelled _ _ ha => exact ⟨_, ha.after⟩
  | applied ha => exact ⟨_, ha.after⟩
  | echoed ha => exact ⟨_, ha.after⟩
  | corrected ha => exact ⟨_, ha.after⟩
  | seeded => exact ⟨_, rfl⟩
  | swept => exact ⟨[.requests _], rfl⟩
  | flagged => exact ⟨[.program _], rfl⟩

/-- Rows that every write leaves or adds to, a change leaves or adds to. -/
theorem Change.appended {α : Type} {f : Db → List α} (hc : Change db db')
    (hf : ∀ w c, f c <+: f (Db.apply w c)) : f db <+: f db' := by
  obtain ⟨ws, rfl⟩ := hc.writes
  exact Engine.applyAll_mono (P := fun c => f db <+: f c) (fun w c hp => hp.trans (hf w c))
    List.prefix_rfl

/-- No two rows have one key, and those of each program are filed. -/
structure Db.Orderly (db : Db) : Prop where
  filed : ∀ p, Filed (db.reservationsOf p)
  reservations : (db.reservations.map InvoiceReservationEntity.key).Nodup
  requests : (db.requests.map RequestRecordEntity.key).Nodup

theorem Change.orderly (hc : Change db db') (hk : db.Orderly) : db'.Orderly := by
  obtain ⟨ws, hws⟩ := hc.writes
  refine ⟨fun p => hc.filed (hk.filed p), ?_, ?_⟩
  · rw [hws]
    refine Engine.applyAll_mono (P := fun c : Db =>
      (c.reservations.map InvoiceReservationEntity.key).Nodup) (fun w c hn => ?_) hk.reservations
    cases w with
    | reservations rows => exact nodup_putAll hn
    | _ => exact hn
  · rw [hws]
    exact Engine.applyAll_mono (P := fun c : Db =>
      (c.requests.map RequestRecordEntity.key).Nodup) (fun _ _ hn => keys_nodup_apply hn)
      hk.requests

/-- **One change keeps what was there.** -/
theorem Change.keeps (hc : Change db db') (hk : db.Orderly) : db.Keeps db' where
  organisations := by
    obtain ⟨ws, rfl⟩ := hc.writes
    refine Engine.applyAll_mono (P := fun c : Db => c.organisations = db.organisations)
      (fun w c hp => ?_) rfl
    cases w <;> exact hp
  programs := hc.programs_later
  reservations := hc.reservations_later hk.filed hk.reservations
  ledger := hc.appended fun w c => by
    cases w with
    | ledger rows => exact List.prefix_append _ _
    | _ => exact List.prefix_rfl
  requests := hc.requests_later hk.requests
  messages := hc.appended fun w c => by
    cases w with
    | message row => exact List.prefix_append _ _
    | _ => exact List.prefix_rfl
  acknowledgements := hc.appended fun w c => by
    cases w with
    | acknowledgement row => exact List.prefix_append _ _
    | _ => exact List.prefix_rfl
  streamPositions := hc.streamPositions_later

omit [Sha256] in
theorem orderly_initial {organisations : List Uuid} : (Db.initial organisations).Orderly :=
  ⟨fun _ => filed_nil, List.nodup_nil, List.nodup_nil⟩

theorem Onward.orderly (h : Onward db db') (hk : db.Orderly) : db'.Orderly :=
  h.induct (P := Db.Orderly) (fun _ _ hk hc => hc.orderly hk) hk

/-- **A run keeps what was there.** -/
theorem Onward.keeps (h : Onward db db') (hk : db.Orderly) : db.Keeps db' := by
  have hboth : db'.Orderly ∧ db.Keeps db' := h.induct (P := fun c => c.Orderly ∧ db.Keeps c)
    (fun _ _ hc hchange => ⟨hchange.orderly hc.1, hc.2.trans (hchange.keeps hc.1)⟩)
    ⟨hk, .refl db⟩
  exact hboth.2

/-! ## What is read later -/

omit [Sha256] in
/-- A program that is there is there later. -/
theorem Db.Keeps.program? (h : db.Keeps db') {program : ProgramEntity}
    (hp : db.program? p = some program) :
    ∃ later, db'.program? p = some later ∧ program.Later later := by
  have hid : ∀ old row : ProgramEntity, old.Later row → row.id = old.id := fun _ _ h => h.id
  exact h.programs.get hid hp

section Reading

omit [Sha256]

variable {programId invoiceId : String}

/-- What a reservation's body tells of its creation. -/
def ReservationBody.created (body : ReservationBody) : ReservationBody :=
  { body with
    status := .active
    outstandingInvoice := ⟨0, body.outstandingInvoice.currency⟩
    outstandingReserved := ⟨0, body.outstandingReserved.currency⟩ }

/-- What is read of a reservation later. -/
structure ReservationBody.Later (old body : ReservationBody) : Prop where
  created : body.created = old.created
  invoice : body.outstandingInvoice.amountMinor ≤ old.outstandingInvoice.amountMinor
  reserved : body.outstandingReserved.amountMinor ≤ old.outstandingReserved.amountMinor
  status : body.status = .active → old.status = .active
  terminal : old.status ∈ terminalStatuses → body = old

/-- A body is what it tells of the creation, and the columns that move. -/
theorem ReservationBody.eq_of_created {old body : ReservationBody}
    (hcreated : body.created = old.created) (hstatus : body.status = old.status)
    (hinvoice : body.outstandingInvoice.amountMinor = old.outstandingInvoice.amountMinor)
    (hreserved : body.outstandingReserved.amountMinor = old.outstandingReserved.amountMinor) :
    body = old := by
  obtain ⟨_, _, _, _, _, ⟨_, _⟩, ⟨_, _⟩, _, _⟩ := body
  obtain ⟨_, _, _, _, _, ⟨_, _⟩, ⟨_, _⟩, _, _⟩ := old
  simp only [created, ReservationBody.mk.injEq, MoneyBody.mk.injEq, true_and] at *
  simp [*]

/-- What is read of a later version. -/
theorem InvoiceReservationEntity.Later.read {row row' : InvoiceReservationEntity}
    (h : row.Later row') : (toReservationBody (toInvoiceReservationEntity row)).Later
      (toReservationBody (toInvoiceReservationEntity row')) := by
  have hcreated : (toReservationBody (toInvoiceReservationEntity row'.created)).created =
      (toReservationBody (toInvoiceReservationEntity row.created)).created := by rw [h.created]
  refine ⟨hcreated, h.invoice, h.reserved, h.status, fun hs => ?_⟩
  obtain ⟨hstatus, hinvoice, hreserved⟩ := h.terminal hs
  exact ReservationBody.eq_of_created hcreated hstatus hinvoice hreserved

/-- **A reservation that is read is read later**, in a later version. -/
theorem Db.Keeps.getReservation {body : ReservationBody} (h : db.Keeps db') (hk : db'.Orderly)
    (hread : getReservation programId invoiceId db = .ok body) :
    ∃ later, getReservation programId invoiceId db' = .ok later ∧ body.Later later := by
  unfold InvoiceReservation.getReservation at hread ⊢
  by_cases htext : (Constraint.text invoiceId).1 = true
  swap
  · simp [htext] at hread
  simp only [htext, if_true] at hread ⊢
  cases hrow : (db.reservationsFor (Uuid.ofText programId) invoiceId).head? with
  | none => simp [hrow] at hread
  | some row =>
    rw [hrow] at hread
    obtain rfl := Except.ok.inj hread
    obtain ⟨hof, hinvoice⟩ := Db.mem_reservationsFor.mp (List.mem_of_mem_head? hrow)
    obtain ⟨hmem, hprogram⟩ := Db.mem_reservationsOf.mp hof
    obtain ⟨row', hmem', hlater⟩ := h.reservations.mem hmem
    -- the later version is the one reservation of the invoice
    have hkey := hlater.toEvolves.key
    simp only [InvoiceReservationEntity.key, Prod.mk.injEq] at hkey
    have hfor : row' ∈ db'.reservationsFor (Uuid.ofText programId) invoiceId :=
      Db.mem_reservationsFor.mpr ⟨Db.mem_reservationsOf.mpr ⟨hmem', hkey.1.trans hprogram⟩,
        hkey.2.1.trans hinvoice⟩
    rw [Db.reservationsFor_of_nodup (hk.filed _).invoices hfor]
    exact ⟨_, rfl, hlater.read⟩

end Reading

/-- **History is only added to.** From any state that operations and
interleaved transactions lead to, whatever commits from then on: no row of
any table is removed or moved, entries, messages and markers stay as they
are, and every other row is there in a version that comes after it. So a
reservation that is read once is read ever after, with the same creation
and amounts that only fall, and word for word the same once it is over. -/
theorem history_is_kept {organisations : List Uuid}
    (hreached : Onward (Db.initial organisations) db) (h : Onward db db') :
    db.Keeps db' ∧ ∀ programId invoiceId body,
      getReservation programId invoiceId db = .ok body →
        ∃ later, getReservation programId invoiceId db' = .ok later ∧ body.Later later := by
  have hk := hreached.orderly orderly_initial
  exact ⟨h.keeps hk, fun _ _ _ hread => (h.keeps hk).getReservation (h.orderly hk) hread⟩

end InvoiceReservation

namespace InvoiceReservation

attribute [local instance] trafficSha256

/-- The seed, a reservation, and its cancellation. -/
def cancelledInvoice : List Operation :=
  reservedTraffic ++ [.cancel (callAt 2) (cancelCommand "req-00002" "INV-1" none)]

/-- Another reservation, after the first has been cancelled. -/
def laterTraffic : List Operation := [.reserve (callAt 3) (reserveCommand "req-00003" "INV-2" 100)]

theorem history_is_kept_cancelledInvoice :
    (Operation.run cancelledInvoice migrated).Keeps
      (Operation.run laterTraffic (Operation.run cancelledInvoice migrated)) ∧
    (getReservation northwindUsdProgramId "INV-1"
      (Operation.run laterTraffic (Operation.run cancelledInvoice migrated))).toOption.map
        (·.status) = some .cancelled := by
  have hreached : Onward migrated (Operation.run cancelledInvoice migrated) :=
    Onward.start.run cancelledInvoice
  obtain ⟨hkeeps, hread⟩ := history_is_kept hreached (Onward.start.run laterTraffic)
  refine ⟨hkeeps, ?_⟩
  -- the later state is not evaluated: what was read stays
  have hcancelled : (getReservation northwindUsdProgramId "INV-1"
      (Operation.run cancelledInvoice migrated)).toOption.map (·.status) = some .cancelled := by
    rw [cancelledInvoice, reservedTraffic, List.cons_append, run_seed]
    decide +kernel
  cases hbody : getReservation northwindUsdProgramId "INV-1"
      (Operation.run cancelledInvoice migrated) with
  | error e =>
    rw [hbody] at hcancelled
    cases hcancelled
  | ok body =>
    rw [hbody] at hcancelled
    have hstatus : body.status = .cancelled := Option.some.inj hcancelled
    obtain ⟨later, hlater, hbodies⟩ := hread _ _ _ hbody
    obtain rfl := hbodies.terminal (hstatus ▸ by decide)
    rw [hlater]
    exact hcancelled

end InvoiceReservation
