import InvoiceReservation.Helpers.Changes
import InvoiceReservation.Helpers.Policies
/-!
# What a change does to a position

For any one program, a change leaves its position and its ledger as they
were, or it is an advance of the program: the cached columns are those of
`advancePosition`, and the ledger has grown by its entries. Nothing else
writes a position.
-/

namespace InvoiceReservation

open Transactions

variable {db db' : Db} {p q : Uuid} {program : ProgramEntity}
variable {entries : List PendingLedgerEntry} {now : Timestamp}

/-- A position without the two flags, which are no part of what the ledger
explains. -/
def ProgramPosition.cached (position : ProgramPosition) : ProgramPosition :=
  { position with investigationRequired := false, positionVerified := true }

@[simp] theorem cached_component {position : ProgramPosition} {c : PositionComponent} :
    position.cached.component c = position.component c := by
  cases c <;> rfl

/-- The cached columns of a row that was given a position. -/
theorem withPosition_cached {position : ProgramPosition} (hid : position.id = program.id)
    (hcurrency : position.currency = program.currency) :
    (Stmt.withPosition program position now).cached = position.cached := by
  simp [Stmt.withPosition, ProgramPosition.cached, hid, hcurrency]

theorem withTreasuryVersion_cached {version : Int} {effectiveAt : Timestamp}
    {investigationRequired : Bool} :
    (Stmt.withTreasuryVersion program version effectiveAt investigationRequired).cached =
      program.cached := rfl

/-- What a snapshot adds to a component. -/
def SnapshotDeltas.component (deltas : SnapshotDeltas) : PositionComponent → Int
  | .local => deltas.local
  | .treasury => deltas.treasury
  | .limit => deltas.limit

/-- A program whose position and ledger are what they were. -/
structure Still (q : Uuid) (db db' : Db) : Prop where
  position : (db'.program? q).map (·.cached) = (db.program? q).map (·.cached)
  ledger : db'.ledgerOf q = db.ledgerOf q

/-- A program that was advanced by `entries`, from its row or, where it had
none, from a new one. Every other program is as it was. -/
structure Advanced (db db' : Db) (program : ProgramEntity) (entries : List PendingLedgerEntry)
    (now : Timestamp) : Prop where
  before : db.program? program.id = some program ∨ db.program? program.id = none ∧
    ∃ organisationId currency now, program = Stmt.newProgram program.id organisationId currency now
  after : (db'.program? program.id).map (·.cached) =
    some (advancePosition program.toProgramPosition entries now).program.cached
  ledger : db'.ledgerOf program.id = db.ledgerOf program.id ++
    Stmt.ledgerRows program.id (advancePosition program.toProgramPosition entries now).entries now
  others : ∀ q, program.id ≠ q → Still q db db'
  persistable : ∃ flag,
    Persistable db program (advancePosition program.toProgramPosition entries now) flag

/-- A row that an advance was persisted to has its cached columns. -/
theorem advanced_cached : (Stmt.withPosition program
    (advancePosition program.toProgramPosition entries now).program now).cached =
      (advancePosition program.toProgramPosition entries now).program.cached :=
  withPosition_cached advances_advancePosition.id advances_advancePosition.currency

/-- **The form an advance has in the tables**: one program's row is
replaced, and its ledger has grown. -/
theorem advanced_of_row (after : ProgramEntity) {before : Option ProgramEntity}
    (hbefore : db.program? program.id = before)
    (hrow : before = some program ∨ before = none ∧
      ∃ organisationId currency now,
        program = Stmt.newProgram program.id organisationId currency now)
    (hafter : after.cached =
      (advancePosition program.toProgramPosition entries now).program.cached)
    (hprograms : ∀ q, db'.program? q = if program.id = q then some after else db.program? q)
    (hledger : db'.ledger = db.ledger ++ Stmt.ledgerRows program.id
      (advancePosition program.toProgramPosition entries now).entries now)
    (hpersist : ∃ flag,
      Persistable db program (advancePosition program.toProgramPosition entries now) flag) :
    Advanced db db' program entries now where
  before := hbefore ▸ hrow
  after := by simp [hprograms, hafter]
  ledger := by simp [Db.ledgerOf, hledger]
  others := fun q hq =>
    ⟨by rw [hprograms, if_neg hq], by simp [Db.ledgerOf, hledger, hq]⟩
  persistable := hpersist

/-- What an advance does to one program, none of whose entries is a marker. -/
theorem Advanced.or_still (h : Advanced db db' program entries now)
    (hown : ∀ entry ∈ entries, entry.cause.isMarker = false) (q : Uuid) :
    Still q db db' ∨ ∃ program entries now, program.id = q ∧
      Advanced db db' program entries now ∧ ∀ entry ∈ entries, entry.cause.isMarker = false := by
  by_cases hq : program.id = q
  · exact Or.inr ⟨_, _, _, hq, h, hown⟩
  · exact Or.inl (h.others q hq)

/-- A program row rewritten with its position kept. -/
theorem still_of_row (after : ProgramEntity) (hp : db.program? program.id = some program)
    (hcached : after.cached = program.cached)
    (hprograms : ∀ q, db'.program? q = if program.id = q then some after else db.program? q)
    (hledger : ∀ q, db'.ledgerOf q = db.ledgerOf q) (q : Uuid) : Still q db db' := by
  refine ⟨?_, hledger q⟩
  rw [hprograms]
  split
  · rename_i hq; subst hq; simp [hp, hcached]
  · rfl

/-! ## What a ledger tells of a position -/

section Tells

variable {E : List CapacityLedgerEntryEntity → ProgramPosition → Prop}

/-- What is told by the cached columns stays told where they stay. -/
theorem Still.tells (h : Still p db db')
    (hcongr : ∀ rows x y, y.cached = x.cached → E rows x → E rows y)
    (he : ∀ program, db.program? p = some program → E (db.ledgerOf p) program.toProgramPosition) :
    ∀ program, db'.program? p = some program →
      E (db'.ledgerOf p) program.toProgramPosition := by
  intro program hp
  have hposition := h.position
  rw [hp, Option.map_some] at hposition
  obtain ⟨before, hb, hcached⟩ := Option.map_eq_some_iff.mp hposition.symm
  rw [h.ledger]
  exact hcongr _ _ _ hcached.symm (he before hb)

/-- What an advance keeps told, with its entries behind the ledger, stays
told; a program that is inserted starts with a ledger of none. -/
theorem Advanced.tells (h : Advanced db db' program entries now)
    (hcongr : ∀ rows x y, y.cached = x.cached → E rows x → E rows y)
    (hadvance : ∀ rows position, E rows position →
      E (rows ++ Stmt.ledgerRows program.id (advancePosition position entries now).entries now)
        (advancePosition position entries now).program)
    (hnew : ∀ organisationId currency now,
      E [] (Stmt.newProgram program.id organisationId currency now).toProgramPosition)
    (hunborn : db.program? program.id = none → db.ledgerOf program.id = [])
    (he : ∀ found, db.program? program.id = some found →
      E (db.ledgerOf program.id) found.toProgramPosition) :
    ∀ found, db'.program? program.id = some found →
      E (db'.ledgerOf program.id) found.toProgramPosition := by
  have hbefore : E (db.ledgerOf program.id) program.toProgramPosition := by
    rcases h.before with hp | ⟨hnone, organisationId, currency, now', hprogram⟩
    · exact he program hp
    · rw [hunborn hnone, hprogram]
      exact hnew organisationId currency now'
  intro found hp
  have hafter := h.after
  rw [hp, Option.map_some, Option.some.injEq] at hafter
  rw [h.ledger]
  exact hcongr _ _ _ hafter (hadvance _ _ hbefore)

/-- A program that exists after a change that leaves it alone existed before. -/
theorem Still.unborn (h : Still p db db') (hnone : db'.program? p = none) :
    db.program? p = none := by
  have hposition := h.position
  rw [hnone, Option.map_none] at hposition
  exact Option.map_eq_none_iff.mp hposition.symm

/-- A program that was advanced exists. -/
theorem Advanced.born (h : Advanced db db' program entries now) :
    db'.program? program.id ≠ none := by
  intro hnone
  have hafter := h.after
  simp [hnone] at hafter

end Tells

/-! ## One change -/

theorem seeded_position {seed : ProgramSeed} (hp : program = Stmt.newProgram
      (Uuid.ofText seed.id) seed.organisationId seed.currency now)
    (hnone : db.program? program.id = none)
    (hpersist : Persistable db program (advancePosition program.toProgramPosition [seed.entry] now)
      false) :
    Advanced db (engine.applyAll (.program program :: advanceWrites program
      (advancePosition program.toProgramPosition [seed.entry] now) now) db) program [seed.entry]
      now := by
  refine advanced_of_row _ hnone (Or.inr ⟨rfl, seed.organisationId, seed.currency, now, ?_⟩)
    advanced_cached (fun q => ?_) ?_ ⟨_, hpersist⟩
  · rw [hp]; rfl
  · by_cases hq : program.id = q <;> simp [advanceWrites, Stmt.withPosition, hq]
  · simp [advanceWrites, Db.apply]

theorem Settled.position {rt : Runtime} {identity : RequestIdentity} {invoiceId : String}
    {entry : PendingLedgerEntry} {update : InvoiceReservationEntity → InvoiceReservationEntity}
    {row : InvoiceReservationEntity} {outcome : WriteOutcome}
    (hp : db.program? program.id = some program)
    (h : Settled rt identity invoiceId entry update db program row outcome db') :
    Advanced db db' program [entry] rt.now :=
  advanced_of_row _ hp (Or.inl rfl) advanced_cached h.program?_after h.ledger_after
    ⟨_, h.persistable⟩

theorem flagged_still {investigationRequired positionVerified : Bool}
    (hp : db.program? program.id = some program) (q : Uuid) :
    Still q db (db.apply (.program { program with
      investigationRequired := investigationRequired, positionVerified := positionVerified })) :=
  still_of_row { program with
    investigationRequired := investigationRequired, positionVerified := positionVerified }
    hp rfl (fun q => by simp) (fun q => by simp) q

variable [Sha256]

theorem Reserved.position {rt : Runtime} {command : ReserveCommand} {reservedMinor : Int}
    {fx : Option FxRate} {outcome : WriteOutcome} (hp : db.program? program.id = some program)
    (h : Reserved rt command db program reservedMinor fx outcome db') :
    Advanced db db' program [command.entry reservedMinor] rt.now :=
  advanced_of_row _ hp (Or.inl rfl) advanced_cached h.program?_after h.ledger_after
    ⟨_, h.persistable⟩

theorem EventApplied.position {rt : Runtime} {event : CapacityEvent}
    {coordinates : StreamCoordinates} (h : EventApplied rt event coordinates db program db') :
    Advanced db db' program [ApplyTreasuryEventService.buildEntry event program] rt.now := by
  have hcached : (Stmt.withAppliedEffectiveAt
      (Stmt.withPosition program (eventAdvance rt event program).program rt.now)
      event.effectiveAt).cached = (eventAdvance rt event program).program.cached := by
    rw [withAppliedEffectiveAt_position]
    exact advanced_cached
  exact advanced_of_row _ (program?_id h.found) (Or.inl rfl) hcached h.program?_after
    h.ledger_after ⟨_, h.persistable⟩

theorem EventEchoed.position {rt : Runtime} {event : CapacityEvent} {reference : String}
    {coordinates : StreamCoordinates}
    (h : EventEchoed rt event coordinates db program reference db') (q : Uuid) :
    Still q db db' := by
  exact still_of_row (Stmt.withAppliedEffectiveAt program event.effectiveAt)
    (program?_id h.found) (by rw [withAppliedEffectiveAt_position]) h.program?_after
    (fun q => by rw [Db.ledgerOf, h.ledger_after, Db.ledgerOf]) q

omit [Sha256] in
/-- What a snapshot's entries add to a component. -/
theorem componentSum_buildEntries {deltas : SnapshotDeltas} {snapshot : ReconciliationSnapshot}
    {c : PositionComponent} :
    componentSum c (ApplySnapshotService.buildEntries deltas snapshot) = deltas.component c := by
  unfold ApplySnapshotService.buildEntries
  simp only [componentSum_append]
  cases c <;> by_cases ht : deltas.treasury = 0 <;> by_cases hl : deltas.local = 0 <;>
    by_cases hc : deltas.limit = 0 <;>
      simp [ht, hl, hc, componentSum_singleton, SnapshotDeltas.component]

theorem SnapshotApplied.position {rt : Runtime} {snapshot : ReconciliationSnapshot}
    {marker : SnapshotMarker} {coordinates : StreamCoordinates} {ids : List Uuid}
    {investigationRequired : Bool} {deltas : SnapshotDeltas}
    (h : SnapshotApplied rt snapshot marker coordinates db program ids investigationRequired
      deltas db') :
    Advanced db db' program (ApplySnapshotService.buildEntries deltas snapshot) rt.now := by
  have hcached : (snapshotRow rt snapshot program investigationRequired deltas).cached =
      (snapshotAdvance rt snapshot program deltas).program.cached := by
    rw [snapshotRow, withTreasuryVersion_cached]
    exact advanced_cached
  exact advanced_of_row _ (program?_id h.found) (Or.inl rfl) hcached h.program?_after
    h.ledger_after ⟨_, h.persistable⟩

omit [Sha256] in
/-- **An entry of a snapshot** adjusts its component by what the snapshot moves
there, which is not nothing, on behalf of treasury. -/
theorem mem_buildEntries {deltas : SnapshotDeltas} {snapshot : ReconciliationSnapshot}
    {entry : PendingLedgerEntry} (h : entry ∈ ApplySnapshotService.buildEntries deltas snapshot) :
    entry.cause = .reconciliationAdjustment ∧ entry.actor = "treasury" ∧
      entry.originReference = some snapshot.messageId ∧
      entry.deltaMinor = deltas.component entry.component ∧ entry.deltaMinor ≠ 0 := by
  unfold ApplySnapshotService.buildEntries at h
  simp only [List.mem_append] at h
  rcases h with (h | h) | h
  all_goals
    split at h
    · cases h
    · obtain rfl := List.mem_singleton.mp h
      rename_i hmoved
      exact ⟨rfl, rfl, rfl, rfl, hmoved⟩

omit [Sha256] in
/-- No entry of a snapshot is a marker. -/
theorem isMarker_buildEntries {deltas : SnapshotDeltas} {snapshot : ReconciliationSnapshot} :
    ∀ entry ∈ ApplySnapshotService.buildEntries deltas snapshot, entry.cause.isMarker = false := by
  intro entry hentry
  rw [(mem_buildEntries hentry).1]
  rfl

/-- **A change leaves a program's position and ledger alone, or advances
them together**, by entries none of which is a marker. -/
theorem Change.position (h : Change db db') (q : Uuid) :
    Still q db db' ∨ ∃ program entries now, program.id = q ∧
      Advanced db db' program entries now ∧ ∀ entry ∈ entries, entry.cause.isMarker = false := by
  cases h with
  | reserved hp h => exact (h.position hp).or_still (List.forall_mem_singleton.mpr rfl) q
  | released hp hrate hd h => exact (h.position hp).or_still (List.forall_mem_singleton.mpr rfl) q
  | cancelled hp hd h =>
    refine (h.position hp).or_still (List.forall_mem_singleton.mpr ?_) q
    rcases cancelPolicy_cause hd with hcause | hcause <;>
      simp [CancelCommand.entry, hcause, LedgerCause.isMarker]
  | @applied _ event _ program _ h =>
    refine h.position.or_still (List.forall_mem_singleton.mpr ?_) q
    cases htype : event.type <;> simp [ApplyTreasuryEventService.buildEntry, htype,
      LedgerCause.isMarker]
  | echoed h => exact Or.inl (h.position q)
  | corrected h => exact h.position.or_still isMarker_buildEntries q
  | seeded hp hnone hpersist =>
    exact (seeded_position hp hnone hpersist).or_still (List.forall_mem_singleton.mpr rfl) q
  | swept cutoff => exact Or.inl ⟨rfl, rfl⟩
  | flagged b v hp => exact Or.inl (flagged_still hp q)

end InvoiceReservation
