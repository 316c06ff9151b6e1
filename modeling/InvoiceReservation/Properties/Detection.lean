import InvoiceReservation.Helpers.Recovery
import InvoiceReservation.Model.Seed
/-!
# False alarms of the detection

The detection compares the newest entry the stream applied with the newest
stream position. One transaction writes both, at one instant, but the
position only where its offset is above the recorded one. So what is
applied at a lower offset, after a rewind or under a recreated topic, can
leave the ledger ahead of the positions, and the detection holds a program
that nothing has restored.
-/

namespace InvoiceReservation

open Transactions

/-! ## What the detection compares -/

/-- An entry the detection counts. -/
def PendingLedgerEntry.streamed (entry : PendingLedgerEntry) : Bool :=
  entry.actor = "treasury" ∧ entry.cause ∈ Stmt.treasuryCauses

/-- When the entries were written that the detection counts. -/
def Db.entryTimes (db : Db) (p : Uuid) : List Timestamp :=
  ((db.ledgerOf p).filter (·.streamed)).map (·.occurredAt)

/-- When the stream positions of a program were last written. -/
def Db.positionTimes (db : Db) (p : Uuid) : List Timestamp :=
  (db.streamPositionsOf p).map (·.updatedAt)

/-- **No alarm.** Of every program the newest stream position is at or after
the newest treasury entry, where there is one, and the detection holds no
program. -/
structure Db.Unalarmed (db : Db) : Prop where
  newest : ∀ p ledgerAt, (recoveryRow db p).ledgerAt = some ledgerAt →
    ∃ positionAt, (recoveryRow db p).positionAt = some positionAt ∧ ledgerAt ≤ positionAt
  holdsNone : engine.run detect db = .ok ([], db)

/-- Every treasury entry has a stream position that is not older. -/
def Db.Covered (db : Db) : Prop :=
  ∀ p, ∀ entryAt ∈ db.entryTimes p, ∃ positionAt ∈ db.positionTimes p, entryAt ≤ positionAt

/-! ## What a message books, and where it is read -/

/-- The entries a message asks for, where it is applied. -/
def InboundMessage.entries (inbound : InboundMessage) (db : Db) : List PendingLedgerEntry :=
  match inbound.message, db.program? (Uuid.ofText inbound.message.programId) with
  | _, none => []
  | .event event, some program => [ApplyTreasuryEventService.buildEntry event program]
  | .snapshot snapshot, some program =>
    match snapshot.acknowledgement with
    | none => []
    | some marker =>
      match snapshotDecision snapshot marker db program with
      | .refuse => []
      | .apply _ _ deltas => ApplySnapshotService.buildEntries deltas snapshot

/-- An upsert of a stream position takes: no offset is recorded for its topic
and partition, or a lower one. -/
def UpsertTakes (row : ProgramStreamPosition) (db : Db) : Prop :=
  ∀ recorded, Table.get ProgramStreamPosition.key row.key (db.streamPositionsOf row.programId) =
    some recorded → recorded.offset < row.offset

instance {row : ProgramStreamPosition} {db : Db} : Decidable (UpsertTakes row db) :=
  decidable_of_iff (((Table.get ProgramStreamPosition.key row.key
    (db.streamPositionsOf row.programId)).all fun recorded => recorded.offset < row.offset) = true)
    (by simp [UpsertTakes, Option.all_eq_true])

/-- A message is read above the recorded offset of its topic and partition,
or a stream position of its program is not older than the message. -/
def InboundMessage.KeepsUp (inbound : InboundMessage) (db : Db) : Prop :=
  UpsertTakes (Stmt.streamRow (Uuid.ofText inbound.message.programId) inbound.coordinates
    inbound.rt.now) db ∨
  ∃ positionAt ∈ db.positionTimes (Uuid.ofText inbound.message.programId),
    inbound.rt.now ≤ positionAt

/-- The message an operation hands to its handler. -/
def Operation.inbound? (op : Operation) : Option InboundMessage := (Activity.operation op).inbound?

/-- Messages are handled on a clock that never goes back. -/
def Clocked (ops : List Operation) : Prop :=
  (ops.filterMap Operation.inbound?).Pairwise fun earlier later => earlier.rt.now ≤ later.rt.now

/-! ## What is added to either side -/

variable {db db' : Db} {p : Uuid} {program : ProgramEntity} {entries : List PendingLedgerEntry}
variable {now : Timestamp}

theorem recoveryRow_ledgerAt : (recoveryRow db p).ledgerAt = (db.entryTimes p).max? := rfl

/-- The markers of an advance are not the stream's. -/
theorem streamed_markers {position : ProgramPosition} {marker : PendingLedgerEntry}
    (h : marker ∈ markers position entries) : marker.streamed = false := by
  obtain ⟨cause, -, rfl⟩ := of_mem_markers h
  simp [overLimitMarker, PendingLedgerEntry.streamed]

/-- **What an advance adds to the entries that are counted**, all of one instant. -/
theorem Advanced.entryTimes (h : Advanced db db' program entries now) (p : Uuid) :
    db'.entryTimes p = db.entryTimes p ++
      if program.id = p then (entries.filter (·.streamed)).map fun _ => now else [] := by
  unfold Db.entryTimes
  by_cases hp : program.id = p
  · subst hp
    have hentries := @advancePosition_entries program.toProgramPosition entries now
    have hmarkers : (markers program.toProgramPosition entries).filter (·.streamed) = [] :=
      List.filter_eq_nil_iff.mpr fun marker hm => by simp [streamed_markers hm]
    have hcounted : ((advancePosition program.toProgramPosition entries now).entries.filter
        (·.streamed)).map (fun _ => now) = (entries.filter (·.streamed)).map fun _ => now := by
      have hmap := congrArg (fun l => (l.filter PendingLedgerEntry.streamed).map fun _ => now)
        hentries
      simp only [List.filter_append, hmarkers, List.append_nil, List.filter_map, List.map_map]
        at hmap
      exact hmap
    rw [h.ledger, List.filter_append, List.map_append, if_pos rfl, ← hcounted]
    simp [Stmt.ledgerRows, List.filter_map, Function.comp_def]
  · rw [(h.others p hp).ledger, if_neg hp, List.append_nil]

/-- A database whose stream positions are those that an upsert leaves. -/
def Upserted (row : ProgramStreamPosition) (db db' : Db) : Prop :=
  ∀ q, db'.streamPositionsOf q =
    (engine.applyAll (Stmt.streamWrites row db) db).streamPositionsOf q

section Upserted

variable {row : ProgramStreamPosition} {q : Uuid} {positionAt : Timestamp}

theorem streamWrites_of_takes (h : UpsertTakes row db) :
    Stmt.streamWrites row db = [.streamPosition row] := by
  unfold Stmt.streamWrites
  split
  · rfl
  · rename_i recorded hrecorded
    rw [if_pos (h recorded hrecorded)]

theorem streamWrites_of_not_takes (h : ¬ UpsertTakes row db) : Stmt.streamWrites row db = [] := by
  unfold Stmt.streamWrites
  split
  · rename_i hnone
    exact absurd (fun recorded hrecorded => by rw [hnone] at hrecorded; cases hrecorded) h
  · rename_i recorded hrecorded
    rw [if_neg fun hlt => h fun other hother => by
      rw [hrecorded] at hother
      obtain rfl := Option.some.inj hother
      exact hlt]

/-- What an upsert leaves of a program's positions. -/
theorem Upserted.positions (h : Upserted row db db') (htakes : UpsertTakes row db) :
    db'.streamPositionsOf q = if row.programId = q then
      Table.put ProgramStreamPosition.key row (db.streamPositionsOf q)
    else db.streamPositionsOf q := by
  rw [h q, streamWrites_of_takes htakes]
  exact @Db.streamPositionsOf_apply db (.streamPosition row) q

theorem Upserted.unchanged (h : Upserted row db db') (htakes : ¬ UpsertTakes row db) :
    db'.streamPositionsOf q = db.streamPositionsOf q := by
  rw [h q, streamWrites_of_not_takes htakes]
  rfl

/-- Writes of other tables before an upsert make no difference to it. -/
theorem upserted_of_congr {c : Db} (hc : ∀ q, c.streamPositionsOf q = db.streamPositionsOf q)
    (h : ∀ q, db'.streamPositionsOf q =
      (engine.applyAll (Stmt.streamWrites row db) c).streamPositionsOf q) :
    Upserted row db db' := by
  intro q
  rw [h q]
  by_cases htakes : UpsertTakes row db
  · rw [streamWrites_of_takes htakes]
    simp only [engine_applyAll_cons, Engine.applyAll_nil, Db.streamPositionsOf_apply, hc]
  · rw [streamWrites_of_not_takes htakes]
    exact hc q

/-- An upsert that takes leaves its instant. -/
theorem Upserted.written (h : Upserted row db db') (htakes : UpsertTakes row db) :
    row.updatedAt ∈ db'.positionTimes row.programId := by
  unfold Db.positionTimes
  rw [h.positions htakes, if_pos rfl]
  exact List.mem_map_of_mem Table.self_mem_put

/-- No position gets older while the clock does not go back. -/
theorem Upserted.newer (h : Upserted row db db')
    (hpaced : ∀ positionAt ∈ db.positionTimes row.programId, positionAt ≤ row.updatedAt)
    (hold : positionAt ∈ db.positionTimes q) :
    ∃ later ∈ db'.positionTimes q, positionAt ≤ later := by
  by_cases htakes : UpsertTakes row db
  · by_cases hq : row.programId = q
    · subst hq
      exact ⟨_, h.written htakes, hpaced _ hold⟩
    · refine ⟨positionAt, ?_, le_refl _⟩
      unfold Db.positionTimes
      rwa [h.positions htakes, if_neg hq]
  · refine ⟨positionAt, ?_, le_refl _⟩
    unfold Db.positionTimes
    rwa [h.unchanged htakes]

/-- A position is an old one, or an upsert that took. -/
theorem Upserted.origin (h : Upserted row db db') (hnew : positionAt ∈ db'.positionTimes q) :
    positionAt ∈ db.positionTimes q ∨
      UpsertTakes row db ∧ row.programId = q ∧ positionAt = row.updatedAt := by
  by_cases htakes : UpsertTakes row db
  · unfold Db.positionTimes at hnew
    rw [h.positions htakes] at hnew
    by_cases hq : row.programId = q
    · rw [if_pos hq] at hnew
      obtain ⟨other, hother, rfl⟩ := List.mem_map.mp hnew
      rcases Table.mem_put hother with rfl | hother
      · exact Or.inr ⟨htakes, hq, rfl⟩
      · exact Or.inl (List.mem_map_of_mem hother)
    · rw [if_neg hq] at hnew
      exact Or.inl hnew
  · unfold Db.positionTimes at hnew
    rw [h.unchanged htakes] at hnew
    exact Or.inl hnew

end Upserted

/-- No stream position is newer than an instant. -/
def Db.PacedBy (db : Db) (now : Timestamp) : Prop :=
  ∀ p, ∀ positionAt ∈ db.positionTimes p, positionAt ≤ now

/-- **One booking.** Entries of an instant and the upsert of a position at the
same: the ledger is covered after them just where there was none to count,
or the upsert took, or a position was as new. -/
theorem covered_booking {row : ProgramStreamPosition} {counted : List PendingLedgerEntry}
    (hcovered : db.Covered) (hpaced : db.PacedBy row.updatedAt)
    (hpositions : Upserted row db db')
    (hentries : ∀ q, db'.entryTimes q = db.entryTimes q ++
      if row.programId = q then counted.map fun _ => row.updatedAt else []) :
    db'.Covered ↔ (counted ≠ [] → UpsertTakes row db ∨
      ∃ positionAt ∈ db.positionTimes row.programId, row.updatedAt ≤ positionAt) := by
  constructor
  · intro h hcounted
    obtain ⟨entry, hentry⟩ := List.exists_mem_of_ne_nil _ hcounted
    have hnow : row.updatedAt ∈ db'.entryTimes row.programId := by
      rw [hentries, if_pos rfl]
      exact List.mem_append_right _ (List.mem_map.mpr ⟨entry, hentry, rfl⟩)
    obtain ⟨positionAt, hposition, hle⟩ := h _ _ hnow
    rcases hpositions.origin hposition with hold | ⟨htakes, -⟩
    · exact Or.inr ⟨positionAt, hold, hle⟩
    · exact Or.inl htakes
  · intro h q entryAt hentryAt
    rw [hentries] at hentryAt
    rcases List.mem_append.mp hentryAt with hold | hnew
    · obtain ⟨positionAt, hposition, hle⟩ := hcovered q entryAt hold
      obtain ⟨later, hlater, hle'⟩ := hpositions.newer (hpaced _) hposition
      exact ⟨later, hlater, hle.trans hle'⟩
    · split at hnew
      · rename_i hq
        subst hq
        obtain ⟨entry, hentry, rfl⟩ := List.mem_map.mp hnew
        rcases h (List.ne_nil_of_mem hentry) with htakes | ⟨positionAt, hposition, hle⟩
        · exact ⟨_, hpositions.written htakes, le_refl _⟩
        · obtain ⟨later, hlater, hle'⟩ := hpositions.newer (hpaced _) hposition
          exact ⟨later, hlater, hle.trans hle'⟩
      · cases hnew

/-! ## One operation -/

variable [Sha256]

/-- An operation that applies no message, or one that moves no position, or
one that keeps up. -/
def Operation.KeepsUp (op : Operation) (db : Db) : Prop :=
  ∀ inbound, op.inbound? = some inbound → handledAs inbound db = some .applied →
    inbound.entries db ≠ [] → inbound.KeepsUp db

variable {inbound : InboundMessage} {op : Operation}

/-- The row a message upserts its coordinates as. -/
abbrev InboundMessage.streamRow (inbound : InboundMessage) : ProgramStreamPosition :=
  Stmt.streamRow (Uuid.ofText inbound.message.programId) inbound.coordinates inbound.rt.now

/-- What a message that writes does to both sides of the comparison. -/
structure Booked (inbound : InboundMessage) (counted : List PendingLedgerEntry) (db db' : Db) :
    Prop where
  positions : Upserted inbound.streamRow db db'
  entries : ∀ q, db'.entryTimes q = db.entryTimes q ++
    if Uuid.ofText inbound.message.programId = q then counted.map fun _ => inbound.rt.now else []

omit [Sha256] in
/-- Both sides are what they were. -/
structure Quiet (db db' : Db) : Prop where
  entries : ∀ q, db'.entryTimes q = db.entryTimes q
  positions : ∀ q, db'.streamPositionsOf q = db.streamPositionsOf q

omit [Sha256] in
theorem streamed_buildEntry {event : CapacityEvent} :
    (ApplyTreasuryEventService.buildEntry event program).streamed = true := by
  unfold ApplyTreasuryEventService.buildEntry
  cases event.type <;> rfl

omit [Sha256] in
theorem streamed_buildEntries {deltas : SnapshotDeltas} {snapshot : ReconciliationSnapshot} :
    ∀ entry ∈ ApplySnapshotService.buildEntries deltas snapshot, entry.streamed = true := by
  intro entry hentry
  obtain ⟨hcause, hactor, -⟩ := mem_buildEntries hentry
  simp [PendingLedgerEntry.streamed, hcause, hactor, Stmt.treasuryCauses]

theorem EventApplied.booked {rt : Runtime} {event : CapacityEvent}
    {coordinates : StreamCoordinates} (h : EventApplied rt event coordinates db program db') :
    Booked ⟨rt, .event event, coordinates⟩
      (InboundMessage.entries ⟨rt, .event event, coordinates⟩ db) db db' := by
  have hid : program.id = Uuid.ofText event.programId := Db.id_of_program? h.found
  refine ⟨?_, fun q => ?_⟩
  · have hafter := h.after
    rw [← List.cons_append, Engine.applyAll_append, engine_applyAll_cons] at hafter
    refine upserted_of_congr ?_ fun q => by rw [hafter, hid]; rfl
    intro q
    simp [advanceWrites]
  · have hentries : InboundMessage.entries ⟨rt, .event event, coordinates⟩ db =
        [ApplyTreasuryEventService.buildEntry event program] := by
      simp only [InboundMessage.entries, TreasuryMessage.programId, h.found]
    rw [h.position.entryTimes q, hentries, hid]
    simp [streamed_buildEntry, TreasuryMessage.programId]

theorem EventEchoed.booked {rt : Runtime} {event : CapacityEvent} {reference : String}
    {coordinates : StreamCoordinates}
    (h : EventEchoed rt event coordinates db program reference db') :
    Booked ⟨rt, .event event, coordinates⟩ [] db db' := by
  have hid : program.id = Uuid.ofText event.programId := Db.id_of_program? h.found
  refine ⟨?_, fun q => ?_⟩
  · have hafter := h.after
    rw [engine_applyAll_cons, engine_applyAll_cons, Engine.applyAll_append] at hafter
    refine upserted_of_congr (c := (db.apply (.message
      (ApplyTreasuryEventService.messageRow rt event))).apply (.reservations
        ((Stmt.echoedRows db program.id reference).map
          (Stmt.acknowledged event.version rt.now)))) (fun q => by simp) fun q => ?_
    rw [hafter, hid]
    simp
    rfl
  · have hstill : db'.entryTimes q = db.entryTimes q := by
      unfold Db.entryTimes
      rw [(h.position q).ledger]
    rw [hstill]
    simp

theorem SnapshotApplied.booked {rt : Runtime} {snapshot : ReconciliationSnapshot}
    {marker : SnapshotMarker} {coordinates : StreamCoordinates} {ids : List Uuid}
    {investigationRequired : Bool} {deltas : SnapshotDeltas}
    (h : SnapshotApplied rt snapshot marker coordinates db program ids investigationRequired deltas
      db') :
    Booked ⟨rt, .snapshot snapshot, coordinates⟩
      (InboundMessage.entries ⟨rt, .snapshot snapshot, coordinates⟩ db) db db' := by
  have hid : program.id = Uuid.ofText snapshot.programId := Db.id_of_program? h.found
  refine ⟨?_, fun q => ?_⟩
  · have hafter := h.after
    refine upserted_of_congr (c := engine.applyAll (.message
      (ApplySnapshotService.messageRow rt snapshot) ::
      (advanceWrites program (snapshotAdvance rt snapshot program deltas) rt.now ++
        [.program (snapshotRow rt snapshot program investigationRequired deltas),
          .acknowledgement (ApplySnapshotService.acknowledgementRow snapshot marker),
          .reservations ((Stmt.acknowledgedRows db program.id ids).map
            (Stmt.acknowledged snapshot.version rt.now))])) db) (fun q => ?_) fun q => ?_
    · simp [advanceWrites]
    · rw [hafter, hid]
      simp [advanceWrites]
      rfl
  · have hentries : InboundMessage.entries ⟨rt, .snapshot snapshot, coordinates⟩ db =
        ApplySnapshotService.buildEntries deltas snapshot := by
      simp only [InboundMessage.entries, TreasuryMessage.programId, h.found, h.carried, h.decided]
    rw [h.position.entryTimes q, hentries, hid, List.filter_eq_self.mpr streamed_buildEntries]
    rfl

/-- **What the handler of a message does to both sides.** -/
theorem dispatch_booked {handled : HandleOutcome}
    (h : engine.run (dispatch inbound) db = .ok (handled, db')) :
    handled = .applied ∧ Booked inbound (inbound.entries db) db db' ∨
      handled ≠ .applied ∧ (Booked inbound [] db db' ∨ db' = db) := by
  unfold dispatch at h
  obtain ⟨rt, message, coordinates⟩ := inbound
  cases message with
  | event event =>
    rcases handleEvent_cases h with ⟨program, rfl, ha⟩ | ⟨_, _, rfl, he⟩ | ⟨rfl, hidle⟩
    · exact Or.inl ⟨rfl, ha.booked⟩
    · exact Or.inr ⟨by decide, Or.inl he.booked⟩
    · refine Or.inr ⟨fun happlied => ?_, Or.inr rfl⟩
      rcases hidle with ⟨reason, hreason⟩ | ⟨hskipped, -⟩
      · cases hreason.symm.trans happlied
      · cases hskipped.symm.trans happlied
  | snapshot snapshot =>
    rcases handleSnapshot_cases h with ⟨rfl, _, program, _, _, _, ha⟩ | ⟨rfl, hidle⟩
    · exact Or.inl ⟨rfl, ha.booked⟩
    · refine Or.inr ⟨fun happlied => ?_, Or.inr rfl⟩
      rcases hidle with ⟨reason, hreason⟩ | ⟨hskipped, -⟩
      · cases hreason.symm.trans happlied
      · cases hskipped.symm.trans happlied

omit [Sha256] in
/-- An advance by an entry that is not counted, and no upsert. -/
theorem quiet_of_advanced {entry : PendingLedgerEntry} (h : Advanced db db' program [entry] now)
    (hentry : entry.streamed = false)
    (hpositions : ∀ q, db'.streamPositionsOf q = db.streamPositionsOf q) : Quiet db db' := by
  refine ⟨fun q => ?_, hpositions⟩
  rw [h.entryTimes q]
  simp [hentry]

omit [Sha256] in
theorem quiet_refl : Quiet db db := ⟨fun _ => rfl, fun _ => rfl⟩

omit [Sha256] in
theorem Quiet.trans {db'' : Db} (h : Quiet db db') (h' : Quiet db' db'') : Quiet db db'' :=
  ⟨fun q => (h'.entries q).trans (h.entries q), fun q => (h'.positions q).trans (h.positions q)⟩

omit [Sha256] in
/-- Versions of programs. -/
theorem quiet_programs {f : ProgramEntity → ProgramEntity} (rows : List ProgramEntity) :
    Quiet db (engine.applyAll (rows.map fun row => .program (f row)) db) :=
  ⟨fun q => read_programs (·.entryTimes q) (fun _ _ => rfl) rows,
    fun q => read_programs (·.streamPositionsOf q) (fun _ _ => rfl) rows⟩

omit [Sha256] in
theorem runSeed_quiet {seeds : List ProgramSeed} {u : Unit}
    (h : engine.run (runSeed now seeds) db = .ok (u, db')) : Quiet db db' := by
  refine runSeed_induct (motive := fun c => Quiet c db') h quiet_refl
    fun hp hnone hpersist hrest => Quiet.trans ?_ hrest
  exact quiet_of_advanced (seeded_position hp hnone hpersist) rfl fun q => by simp [advanceWrites]

/-- **What handles no message touches neither side.** -/
theorem Operation.quiet {reply : Reply} (hnone : op.inbound? = none)
    (h : engine.run op.tx db = .ok (reply, db')) : Quiet db db' := by
  cases op with
  | reserve rt command =>
    obtain ⟨outcome, h, -⟩ := Engine.run_map_ok.mp h
    obtain ⟨program, hp, ⟨-, rfl⟩ | ⟨reservedMinor, fx, hr⟩⟩ := reserve_cases h
    · exact quiet_refl
    · refine quiet_of_advanced (hr.position (program?_id hp)) ?_ fun q => ?_
      · simp [PendingLedgerEntry.streamed, ReserveCommand.entry, Stmt.treasuryCauses]
      · rw [hr.after]
        simp [advanceWrites]
  | release rt command =>
    obtain ⟨outcome, h, -⟩ := Engine.run_map_ok.mp h
    obtain ⟨program, hp, ⟨-, rfl⟩ | ⟨row, rate, applied, -, -, hs⟩⟩ := release_cases h
    · exact quiet_refl
    · refine quiet_of_advanced (hs.position (program?_id hp)) ?_ fun q => ?_
      · simp [PendingLedgerEntry.streamed, ReleaseCommand.entry, Stmt.treasuryCauses]
      · rw [hs.after]
        simp [advanceWrites]
  | cancel rt command =>
    obtain ⟨outcome, h, -⟩ := Engine.run_map_ok.mp h
    obtain ⟨program, hp, ⟨-, rfl⟩ | ⟨row, applied, hd, hs⟩⟩ := cancel_cases h
    · exact quiet_refl
    · refine quiet_of_advanced (hs.position (program?_id hp)) ?_ fun q => ?_
      · rcases cancelPolicy_cause hd with hcause | hcause <;>
          simp [PendingLedgerEntry.streamed, CancelCommand.entry, Stmt.treasuryCauses, hcause]
      · rw [hs.after]
        simp [advanceWrites]
  | event rt message coordinates => cases hnone
  | snapshot rt message coordinates => cases hnone
  | seed now programs =>
    obtain ⟨u, h, -⟩ := Engine.run_map_ok.mp h
    exact runSeed_quiet h
  | sweep now days =>
    obtain ⟨rows, rfl⟩ := Operation.sweep_ok h
    exact ⟨fun _ => rfl, fun _ => rfl⟩
  | flagInvestigation p =>
    obtain ⟨f, rows, rfl⟩ := Operation.flags_ok (Or.inl rfl) h
    exact quiet_programs rows
  | holdProgram p =>
    obtain ⟨f, rows, rfl⟩ := Operation.flags_ok (Or.inr rfl) h
    exact quiet_programs rows

omit [Sha256] in
theorem Quiet.covered_iff (h : Quiet db db') : db'.Covered ↔ db.Covered := by
  unfold Db.Covered Db.positionTimes
  simp only [h.entries, h.positions]

omit [Sha256] in
theorem Quiet.pacedBy (h : Quiet db db') (hpaced : db.PacedBy now) : db'.PacedBy now := by
  intro q positionAt hposition
  unfold Db.positionTimes at hposition
  rw [h.positions] at hposition
  exact hpaced q positionAt hposition

omit [Sha256] in
theorem Booked.pacedBy {counted : List PendingLedgerEntry} (h : Booked inbound counted db db')
    (hpaced : db.PacedBy now) (hclock : inbound.rt.now ≤ now) : db'.PacedBy now := by
  intro q positionAt hposition
  rcases h.positions.origin hposition with hold | ⟨-, -, rfl⟩
  · exact hpaced q positionAt hold
  · exact hclock

/-- The handler of a message on a covered database leaves it covered just
where the message keeps up. -/
theorem covered_dispatch_iff (hcovered : db.Covered) (hpaced : db.PacedBy inbound.rt.now) :
    (engine.effect (dispatch inbound) db).Covered ↔
      (handledAs inbound db = some .applied → inbound.entries db ≠ [] → inbound.KeepsUp db) := by
  cases hrun : engine.run (dispatch inbound) db with
  | error failure =>
    rw [Engine.effect_of_run_error hrun]
    refine iff_of_true hcovered fun happlied => ?_
    obtain ⟨db', hok⟩ := handledAs_eq_some.mp happlied
    cases hrun.symm.trans hok
  | ok answer =>
    obtain ⟨handled, db'⟩ := answer
    have hhandled : handledAs inbound db = some handled := handledAs_eq_some.mpr ⟨db', hrun⟩
    rw [Engine.effect_of_run_ok hrun, hhandled, Option.some.injEq]
    rcases dispatch_booked hrun with ⟨rfl, hbooked⟩ | ⟨hother, hbooked | rfl⟩
    · rw [covered_booking hcovered hpaced hbooked.positions hbooked.entries]
      exact ⟨fun h _ => h, fun h => h rfl⟩
    · refine iff_of_true ?_ fun happlied => absurd happlied hother
      refine (covered_booking hcovered hpaced hbooked.positions hbooked.entries).mpr ?_
      exact fun hnone => absurd rfl hnone
    · exact iff_of_true hcovered fun happlied => absurd happlied hother

/-- **One operation** on a covered database leaves it covered just where it
keeps up. -/
theorem Operation.covered_iff (hcovered : db.Covered)
    (hpaced : ∀ inbound, op.inbound? = some inbound → db.PacedBy inbound.rt.now) :
    (engine.effect op.tx db).Covered ↔ op.KeepsUp db := by
  cases hinbound : op.inbound? with
  | none =>
    have hkeeps : op.KeepsUp db := fun inbound hsome => by
      rw [hinbound] at hsome
      cases hsome
    refine iff_of_true (Engine.effect_induct hcovered fun reply db' hrun => ?_) hkeeps
    exact (op.quiet hinbound hrun).covered_iff.mpr hcovered
  | some inbound =>
    have heffect : engine.effect op.tx db = engine.effect (dispatch inbound) db :=
      @effect_of_inbound? db _ inbound (.operation op) hinbound
    rw [heffect, covered_dispatch_iff hcovered (hpaced inbound hinbound)]
    constructor
    · intro h other hother
      rw [hinbound] at hother
      obtain rfl := Option.some.inj hother
      exact h
    · exact fun h => h inbound hinbound

/-- No position an operation leaves is newer than an instant that neither the
positions before nor its message is past. -/
theorem Operation.pacedBy (hpaced : db.PacedBy now)
    (hclock : ∀ inbound, op.inbound? = some inbound → inbound.rt.now ≤ now) :
    (engine.effect op.tx db).PacedBy now := by
  cases hinbound : op.inbound? with
  | none =>
    refine Engine.effect_induct (P := fun c : Db => c.PacedBy now) hpaced fun reply db' hrun => ?_
    exact (op.quiet hinbound hrun).pacedBy hpaced
  | some inbound =>
    have heffect : engine.effect op.tx db = engine.effect (dispatch inbound) db :=
      @effect_of_inbound? db _ inbound (.operation op) hinbound
    rw [heffect]
    refine Engine.effect_induct (P := fun c : Db => c.PacedBy now) hpaced fun handled db' hrun => ?_
    have hnow := hclock inbound hinbound
    rcases dispatch_booked hrun with ⟨-, hbooked⟩ | ⟨-, hbooked | rfl⟩
    · exact hbooked.pacedBy hpaced hnow
    · exact hbooked.pacedBy hpaced hnow
    · exact hpaced

/-! ## Runs -/

omit [Sha256] in
/-- Where the newest position is as new as the newest entry, every row is
passed over. -/
theorem passed_of_newest {row : RecoveryRow}
    (h : ∀ ledgerAt, row.ledgerAt = some ledgerAt →
      ∃ positionAt, row.positionAt = some positionAt ∧ ledgerAt ≤ positionAt) :
    row.passed = true := by
  unfold RecoveryRow.passed
  cases hledger : row.ledgerAt with
  | none => rfl
  | some ledgerAt =>
    obtain ⟨positionAt, hposition, hle⟩ := h ledgerAt hledger
    have hfloor : ∀ a b : Int, a ≤ b → a / 1000 * 1000 ≤ b / 1000 * 1000 := by omega
    simp only [hposition, decide_eq_true_eq]
    exact hfloor ledgerAt positionAt hle

omit [Sha256] in
theorem run_holdAll_passed {rows : List RecoveryRow} (h : ∀ row ∈ rows, row.passed = true) :
    engine.run (holdAll rows) db = .ok ([], db) := by
  induction rows with
  | nil => rfl
  | cons row rows ih =>
    rw [holdAll, if_pos (h row List.mem_cons_self)]
    exact ih fun row' hrow' => h row' (List.mem_cons_of_mem _ hrow')

omit [Sha256] in
/-- **There is no alarm just where every treasury entry is covered.** -/
theorem Db.unalarmed_iff : db.Unalarmed ↔ db.Covered := by
  constructor
  · intro h p entryAt hentryAt
    obtain ⟨newest, hnewest⟩ := Option.isSome_iff_exists.mp
      (List.isSome_max?_of_mem hentryAt)
    obtain ⟨positionAt, hposition, hle⟩ := h.newest p newest hnewest
    have hentry : entryAt ≤ newest := (List.max?_eq_some_iff.mp hnewest).2 entryAt hentryAt
    exact ⟨positionAt, (List.max?_eq_some_iff.mp hposition).1, hentry.trans hle⟩
  · intro h
    have hnewest : ∀ p ledgerAt, (recoveryRow db p).ledgerAt = some ledgerAt →
        ∃ positionAt, (recoveryRow db p).positionAt = some positionAt ∧ ledgerAt ≤ positionAt := by
      intro p ledgerAt hledger
      rw [recoveryRow_ledgerAt] at hledger
      obtain ⟨positionAt, hposition, hle⟩ := h p ledgerAt (List.max?_mem hledger)
      obtain ⟨newest, hnewest⟩ := Option.isSome_iff_exists.mp (List.isSome_max?_of_mem hposition)
      refine ⟨newest, hnewest, hle.trans ?_⟩
      exact (List.max?_eq_some_iff.mp hnewest).2 positionAt hposition
    refine ⟨hnewest, ?_⟩
    rw [detect, run_query_of_exec (by simp [Stmt.parameters]) rfl]
    refine run_holdAll_passed fun row hrow => ?_
    obtain ⟨program, -, rfl⟩ := List.mem_map.mp hrow
    exact passed_of_newest (hnewest program.id)

/-- A covered database stays covered over a run just where every operation
keeps up. -/
theorem covered_run_iff {ops : List Operation} (hcovered : db.Covered) (hclock : Clocked ops)
    (hpaced : ∀ inbound ∈ ops.filterMap Operation.inbound?, db.PacedBy inbound.rt.now) :
    (∀ done rest, ops = done ++ rest → (Operation.run done db).Covered) ↔
      ∀ done op rest, ops = done ++ op :: rest → op.KeepsUp (Operation.run done db) := by
  induction ops generalizing db with
  | nil =>
    refine iff_of_true (fun done rest h => ?_) fun done op rest h => ?_
    · obtain ⟨rfl, -⟩ := List.append_eq_nil_iff.mp h.symm
      exact hcovered
    · exact absurd h (by simp)
  | cons op ops ih =>
    have hmessage : ∀ inbound, op.inbound? = some inbound → db.PacedBy inbound.rt.now := by
      intro inbound hinbound
      exact hpaced inbound (List.mem_filterMap.mpr ⟨op, List.mem_cons_self, hinbound⟩)
    have hclock' : Clocked ops := by
      unfold Clocked at hclock ⊢
      rw [List.filterMap_cons] at hclock
      split at hclock
      · exact hclock
      · exact hclock.of_cons
    -- every later message is at or after this one, and so after every position it leaves
    have hpaced' : ∀ inbound ∈ ops.filterMap Operation.inbound?,
        (engine.effect op.tx db).PacedBy inbound.rt.now := by
      intro later hlater
      have hmem : later ∈ (op :: ops).filterMap Operation.inbound? := by
        obtain ⟨other, hother, hsome⟩ := List.mem_filterMap.mp hlater
        exact List.mem_filterMap.mpr ⟨other, List.mem_cons_of_mem _ hother, hsome⟩
      refine Operation.pacedBy (hpaced later hmem) fun inbound hinbound => ?_
      unfold Clocked at hclock
      rw [List.filterMap_cons_some hinbound] at hclock
      exact (List.pairwise_cons.mp hclock).1 later hlater
    have hstep := Operation.covered_iff hcovered hmessage
    constructor
    · intro h done next rest hsplit
      have hnow : (engine.effect op.tx db).Covered := h [op] ops rfl
      cases done with
      | nil =>
        obtain ⟨rfl, rfl⟩ := List.cons.inj hsplit
        exact hstep.mp hnow
      | cons first done =>
        obtain ⟨rfl, rfl⟩ := List.cons.inj hsplit
        refine (ih hnow hclock' hpaced').mp (fun done' rest' hsplit' => ?_) done next rest rfl
        exact h (op :: done') rest' (by rw [hsplit']; rfl)
    · intro h done rest hsplit
      cases done with
      | nil => exact hcovered
      | cons first done =>
        obtain ⟨rfl, rfl⟩ := List.cons.inj hsplit
        have hnow : (engine.effect op.tx db).Covered := hstep.mpr (h [] op _ rfl)
        refine (ih hnow hclock' hpaced').mpr (fun done' next rest' hsplit' => ?_) done rest rfl
        exact h (op :: done') next rest' (by rw [hsplit']; rfl)

/-- **The detection raises no false alarm in a run just where every message
that books keeps up**: it is read above the recorded offset of its topic and
partition, or its program has a stream position that is not older. -/
theorem detection_raises_no_false_alarm_iff {organisations : List Uuid} {ops : List Operation}
    (hclock : Clocked ops) :
    (∀ done rest, ops = done ++ rest →
      (Operation.run done (Db.initial organisations)).Unalarmed) ↔
    ∀ done op rest, ops = done ++ op :: rest →
      op.KeepsUp (Operation.run done (Db.initial organisations)) := by
  have hcovered : (Db.initial organisations).Covered := fun p entryAt hentryAt => by
    cases hentryAt
  have hpaced : ∀ inbound ∈ ops.filterMap Operation.inbound?,
      (Db.initial organisations).PacedBy inbound.rt.now := fun _ _ p positionAt hposition => by
    cases hposition
  rw [← covered_run_iff hcovered hclock hpaced]
  simp only [Db.unalarmed_iff]

end InvoiceReservation

namespace InvoiceReservation

open Transactions

attribute [local instance] trafficSha256

/-- A booking of the first program, read at an offset. -/
def bookingAt (ms : Int) (messageId : String) (version offset : Int) : Operation :=
  .event (callAt ms) (capacityEvent messageId version .reservationBooked 100)
    (coordinatesAt "treasury.capacity.events" offset)

/-- The seed, and two bookings, each above the last. -/
def forwardRun : List Operation :=
  [.seed 0 programs, bookingAt 1 "evt-00001" 1 3, bookingAt 2 "evt-00002" 2 5]

theorem forwardRun_unalarmed : Clocked forwardRun ∧
    (Operation.run forwardRun (Db.initial organisations)).Unalarmed := by
  have hclock : Clocked forwardRun := by
    refine List.pairwise_pair.mpr ?_
    decide
  refine ⟨hclock, (detection_raises_no_false_alarm_iff hclock).mpr ?_ forwardRun []
    (List.append_nil _).symm⟩
  intro done op rest hsplit inbound hinbound _ _
  unfold forwardRun at hsplit
  rcases done with _ | ⟨first, _ | ⟨second, _ | ⟨third, done⟩⟩⟩ <;>
    simp only [List.cons_append, List.nil_append, List.cons.injEq] at hsplit
  · obtain ⟨rfl, -⟩ := hsplit
    cases hinbound
  · obtain ⟨rfl, rfl, -⟩ := hsplit
    cases hinbound
    exact Or.inl (by decide +kernel)
  · obtain ⟨rfl, rfl, rfl, -⟩ := hsplit
    cases hinbound
    exact Or.inl (by decide +kernel)
  · simp at hsplit

/-- The seed, and two bookings, the later one below the first: the group was
rewound. -/
def rewoundRun : List Operation :=
  [.seed 0 programs, bookingAt 1 "evt-00001" 1 5, bookingAt 2 "evt-00002" 2 3]

theorem rewoundRun_alarmed : Clocked rewoundRun ∧
    ¬ (Operation.run rewoundRun (Db.initial organisations)).Unalarmed ∧
    Verified (Uuid.ofText northwindUsdProgramId)
      (Operation.run rewoundRun (Db.initial organisations)) ∧
    ¬ Verified (Uuid.ofText northwindUsdProgramId)
      (engine.effect detect (Operation.run rewoundRun (Db.initial organisations))) := by
  have hrow : recoveryRow (Operation.run rewoundRun (Db.initial organisations))
      (Uuid.ofText northwindUsdProgramId) =
        ⟨Uuid.ofText northwindUsdProgramId, some 2000, some 1000⟩ := by
    rw [rewoundRun, ← migrated, run_seed]
    decide +kernel
  have hverified : ((Operation.run rewoundRun (Db.initial organisations)).program?
      (Uuid.ofText northwindUsdProgramId)).map (·.positionVerified) = some true := by
    rw [rewoundRun, ← migrated, run_seed]
    decide +kernel
  refine ⟨List.pairwise_pair.mpr (by decide), fun h => ?_, ?_, fun h => ?_⟩
  · obtain ⟨positionAt, hposition, hle⟩ := h.newest (Uuid.ofText northwindUsdProgramId) 2000
      (by rw [hrow])
    rw [hrow] at hposition
    cases hposition
    exact absurd hle (by decide)
  · obtain ⟨program, hfound, hmark⟩ := Option.map_eq_some_iff.mp hverified
    exact ⟨program, hfound, hmark⟩
  · have hpassed := (verified_detect.mp h).2
    rw [hrow] at hpassed
    exact absurd hpassed (by decide)

end InvoiceReservation
