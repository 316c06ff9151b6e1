import InvoiceReservation.Helpers.Runs
/-!
# The treasury messages and the seed, inverted

An apply that commits either had no effect, and then its outcome says so,
or it recorded its message and did everything it names here. A handler
adds the inspection before it, which writes nothing.
-/

namespace InvoiceReservation

open Transactions

variable [Sha256]
variable {db db' : Db} {p : Uuid} {rt : Runtime} {program : ProgramEntity}
variable {coordinates : StreamCoordinates} {outcome : ApplyOutcome}

/-- An outcome that comes with no effect. -/
def ApplyOutcome.Idle : ApplyOutcome → Prop
  | .applied => False
  | .echoSuppressed => False
  | .alreadyApplied => True
  | .quarantined _ => True

omit [Sha256] in
/-- An apply that returned at once. -/
theorem idle_of_pure {o : ApplyOutcome}
    (h : engine.run (pure o : Transaction ApplyOutcome) db = .ok (outcome, db')) (ho : o.Idle) :
    outcome.Idle ∧ db' = db := by
  simp only [run_pure, Except.ok.injEq, Prod.mk.injEq] at h
  exact ⟨h.1 ▸ ho, h.2.symm⟩

omit [Sha256] in
theorem run_advanceAppliedEffectiveAt {α : Type} {k : Unit → Transaction α}
    {effectiveAt : Timestamp} (hrange : inTimestamptz effectiveAt = true)
    (hp : db.program? p = some program) :
    engine.run (query (.advanceAppliedEffectiveAt p effectiveAt) >>= k) db =
      engine.run (k ())
        (db.apply (.program (Stmt.withAppliedEffectiveAt program effectiveAt))) := by
  rw [run_query_of_parameters (by exact Constraint.forall_timestamptz hrange)]
  simp only [Stmt.exec, hp]
  rfl

omit [Sha256] in
theorem run_upsertStreamPosition {α : Type} {k : Unit → Transaction α} {now : Timestamp}
    (hp : (db.program? p).isSome = true) :
    engine.run (query (.upsertStreamPosition p coordinates now) >>= k) db =
      engine.run (k ())
        (engine.applyAll (Stmt.streamWrites (Stmt.streamRow p coordinates now) db) db) := by
  rw [run_query_of_nil rfl]
  simp only [Stmt.exec, hp, Constraint.foreignKey, guarded_cons, guarded_nil, if_true]

/-! ## Events -/

/-- The advance of an event. -/
def eventAdvance (rt : Runtime) (event : CapacityEvent) (program : ProgramEntity) : AdvanceResult :=
  advancePosition program.toProgramPosition
    [ApplyTreasuryEventService.buildEntry event program] rt.now

/-- An event the database can hold, but for the texts of its ledger entry:
a limit event's reference is never sent. -/
structure CapacityEvent.Storable (event : CapacityEvent) : Prop where
  messageId : storableText event.messageId = true
  reference : ∀ reference, ApplyTreasuryEventService.echoReference event = some reference →
    storableText reference = true
  effectiveAt : inTimestamptz event.effectiveAt = true

/-- What is new about an event that has an effect. -/
structure NewEvent (event : CapacityEvent) (db : Db) (program : ProgramEntity) : Prop where
  found : db.program? (Uuid.ofText event.programId) = some program
  currency : program.currency = event.payload.currency
  version : db.messagesAt program.id .event event.version = []
  versionRange : inBigint event.version = true
  id : db.message? event.messageId = none
  storableId : storableText event.messageId = true

/-- An event that was applied. -/
structure EventApplied (rt : Runtime) (event : CapacityEvent) (coordinates : StreamCoordinates)
    (db : Db) (program : ProgramEntity) (db' : Db) : Prop extends NewEvent event db program where
  storable : event.Storable
  noEcho : ∀ reference, ApplyTreasuryEventService.echoReference event = some reference →
    ∀ row ∈ db.reservationsOf program.id, row.treasuryReference ≠ some reference
  persistable : Persistable db program (eventAdvance rt event program) false
  after : db' = engine.applyAll
    (.message (ApplyTreasuryEventService.messageRow rt event) ::
      (advanceWrites program (eventAdvance rt event program) rt.now ++
        (.program (Stmt.withAppliedEffectiveAt
          (Stmt.withPosition program (eventAdvance rt event program).program rt.now)
          event.effectiveAt) ::
        Stmt.streamWrites (Stmt.streamRow program.id coordinates rt.now) db))) db

/-- An event that was suppressed as the echo of a reservation. -/
structure EventEchoed (rt : Runtime) (event : CapacityEvent) (coordinates : StreamCoordinates)
    (db : Db) (program : ProgramEntity) (reference : String) (db' : Db) : Prop
    extends NewEvent event db program where
  referenced : ApplyTreasuryEventService.echoReference event = some reference
  echo : ∃ row ∈ db.reservationsOf program.id, row.treasuryReference = some reference
  checked : ∀ row ∈ Stmt.echoedRows db program.id reference,
    ∀ c ∈ reservationChecks (Stmt.acknowledged event.version rt.now row), c.1 = true
  after : db' = engine.applyAll
    (.message (ApplyTreasuryEventService.messageRow rt event) ::
      .reservations ((Stmt.echoedRows db program.id reference).map
        (Stmt.acknowledged event.version rt.now)) ::
      (Stmt.streamWrites (Stmt.streamRow program.id coordinates rt.now) db ++
        [.program (Stmt.withAppliedEffectiveAt program event.effectiveAt)])) db

omit [Sha256] in
theorem withAppliedEffectiveAt_position {effectiveAt : Timestamp} :
    (Stmt.withAppliedEffectiveAt program effectiveAt).toProgramPosition =
      program.toProgramPosition := by
  unfold Stmt.withAppliedEffectiveAt
  split <;> rfl

namespace EventApplied

variable {event : CapacityEvent}

/-- The program rows an applied event leaves. -/
theorem program?_after (h : EventApplied rt event coordinates db program db') (q : Uuid) :
    db'.program? q = if program.id = q then some (Stmt.withAppliedEffectiveAt
      (Stmt.withPosition program (eventAdvance rt event program).program rt.now) event.effectiveAt)
    else db.program? q := by
  have hid : (Stmt.withAppliedEffectiveAt
      (Stmt.withPosition program (eventAdvance rt event program).program rt.now)
      event.effectiveAt).id = program.id := by
    rw [withAppliedEffectiveAt_position]; rfl
  rw [h.after]
  simp only [advanceWrites, engine_applyAll_cons, List.cons_append, List.nil_append,
    program?_streamWrites, Db.program?_apply, hid]
  by_cases hq : program.id = q <;> simp [Stmt.withPosition, hq]

theorem reservationsOf_after (h : EventApplied rt event coordinates db program db') (q : Uuid) :
    db'.reservationsOf q = db.reservationsOf q := by
  rw [h.after]
  simp [advanceWrites]

theorem ledger_after (h : EventApplied rt event coordinates db program db') :
    db'.ledger = db.ledger ++
      Stmt.ledgerRows program.id (eventAdvance rt event program).entries rt.now := by
  rw [h.after]
  simp [advanceWrites, Db.apply]

/-- An applied event is the last message. -/
theorem messages_after (h : EventApplied rt event coordinates db program db') :
    db'.messages = db.messages ++ [ApplyTreasuryEventService.messageRow rt event] := by
  rw [h.after]
  simp [advanceWrites, Db.apply]

theorem acknowledgements_after (h : EventApplied rt event coordinates db program db') :
    db'.acknowledgements = db.acknowledgements := by
  rw [h.after]
  simp [advanceWrites, Db.apply]

end EventApplied

namespace EventEchoed

variable {event : CapacityEvent} {reference : String}

/-- The program rows a suppressed echo leaves. -/
theorem program?_after (h : EventEchoed rt event coordinates db program reference db') (q : Uuid) :
    db'.program? q = if program.id = q then
      some (Stmt.withAppliedEffectiveAt program event.effectiveAt) else db.program? q := by
  rw [h.after]
  simp [Engine.applyAll_append, withAppliedEffectiveAt_position]

theorem reservationsOf_put (h : EventEchoed rt event coordinates db program reference db')
    (q : Uuid) : db'.reservationsOf q = Table.putAll InvoiceReservationEntity.key
      (((Stmt.echoedRows db program.id reference).map
        (Stmt.acknowledged event.version rt.now)).filter (·.programId = q))
      (db.reservationsOf q) := by
  rw [h.after]
  simp [Engine.applyAll_append]

theorem ledger_after (h : EventEchoed rt event coordinates db program reference db') :
    db'.ledger = db.ledger := by
  rw [h.after]
  simp [Engine.applyAll_append, Db.apply]

/-- A suppressed echo is the last message. -/
theorem messages_after (h : EventEchoed rt event coordinates db program reference db') :
    db'.messages = db.messages ++ [ApplyTreasuryEventService.messageRow rt event] := by
  rw [h.after]
  simp [Engine.applyAll_append, Db.apply]

theorem acknowledgements_after (h : EventEchoed rt event coordinates db program reference db') :
    db'.acknowledgements = db.acknowledgements := by
  rw [h.after]
  simp [Engine.applyAll_append, Db.apply]

end EventEchoed

omit [Sha256] in
/-- The stream position an upsert writes depends on nothing else. -/
theorem streamWrites_congr {row : ProgramStreamPosition} {c : Db}
    (h : c.streamPositionsOf row.programId = db.streamPositionsOf row.programId) :
    Stmt.streamWrites row c = Stmt.streamWrites row db := by
  rw [Stmt.streamWrites, h]
  rfl

omit [Sha256] in
theorem applyEntry_ok {event : CapacityEvent}
    (hp : db.program? (Uuid.ofText event.programId) = some program)
    (h : engine.run (ApplyTreasuryEventService.applyEntry rt event coordinates program) db =
      .ok (outcome, db')) :
    (outcome = .applied ∧ inTimestamptz event.effectiveAt = true ∧
      Persistable db program (eventAdvance rt event program) false) ∧
      db' = engine.applyAll
        (advanceWrites program (eventAdvance rt event program) rt.now ++
          (.program (Stmt.withAppliedEffectiveAt
            (Stmt.withPosition program (eventAdvance rt event program).program rt.now)
            event.effectiveAt) ::
          Stmt.streamWrites (Stmt.streamRow program.id coordinates rt.now) db)) db := by
  have hid := Db.id_of_program? hp
  unfold ApplyTreasuryEventService.applyEntry at h
  obtain ⟨u, c, hadvance, h⟩ := Engine.run_bind_ok.mp h
  obtain ⟨hpersist, rfl⟩ := (run_persistAdvance_ok hp).mp hadvance
  rw [← hid] at h
  change engine.run _ (engine.applyAll (advanceWrites program (eventAdvance rt event program)
    rt.now) db) = _ at h
  have hafter : (engine.applyAll (advanceWrites program (eventAdvance rt event program) rt.now)
      db).program? program.id =
      some (Stmt.withPosition program (eventAdvance rt event program).program rt.now) := by
    simp [advanceWrites, Stmt.withPosition]
  have hid' : (Stmt.withAppliedEffectiveAt
      (Stmt.withPosition program (eventAdvance rt event program).program rt.now)
      event.effectiveAt).id = program.id := by
    unfold Stmt.withAppliedEffectiveAt; split <;> rfl
  have hstream := @streamWrites_congr db (Stmt.streamRow program.id coordinates rt.now)
    ((engine.applyAll (advanceWrites program (eventAdvance rt event program) rt.now) db).apply
      (.program (Stmt.withAppliedEffectiveAt
        (Stmt.withPosition program (eventAdvance rt event program).program rt.now)
        event.effectiveAt))) (by simp [advanceWrites])
  have hrange : inTimestamptz event.effectiveAt = true := inTimestamptz_of_run rfl h
  rw [run_advanceAppliedEffectiveAt hrange hafter, run_upsertStreamPosition (by simp [hid']),
    hstream] at h
  simp only [run_pure, Except.ok.injEq, Prod.mk.injEq] at h
  refine ⟨⟨h.1.symm, hrange, hpersist⟩, ?_⟩
  rw [← h.2, Engine.applyAll_append]
  rfl

omit [Sha256] in
theorem suppressEcho_ok {event : CapacityEvent} {reference : String}
    (hp : db.program? (Uuid.ofText event.programId) = some program)
    (h : engine.run (ApplyTreasuryEventService.suppressEcho rt event coordinates reference) db =
      .ok (outcome, db')) :
    outcome = .echoSuppressed ∧
      (∀ row ∈ Stmt.echoedRows db program.id reference,
        ∀ c ∈ reservationChecks (Stmt.acknowledged event.version rt.now row), c.1 = true) ∧
      db' = engine.applyAll
        (.reservations ((Stmt.echoedRows db program.id reference).map
          (Stmt.acknowledged event.version rt.now)) ::
        (Stmt.streamWrites (Stmt.streamRow program.id coordinates rt.now) db ++
          [.program (Stmt.withAppliedEffectiveAt program event.effectiveAt)])) db := by
  have hid := Db.id_of_program? hp
  unfold ApplyTreasuryEventService.suppressEcho at h
  rw [← hid] at h hp
  obtain ⟨u, ws, hx, h⟩ := run_query_ok h
  simp only [Stmt.exec, Stmt.updateReservations, guarded_ok, Prod.mk.injEq] at hx
  obtain ⟨hchecks, -, rfl⟩ := hx
  have hstream := @streamWrites_congr db (Stmt.streamRow program.id coordinates rt.now)
    (db.apply (.reservations ((Stmt.echoedRows db program.id reference).map
      (Stmt.acknowledged event.version rt.now)))) (by simp)
  rw [run_upsertStreamPosition (by simp [hp])] at h
  rw [run_advanceAppliedEffectiveAt (inTimestamptz_of_run rfl h) (by simpa using hp)] at h
  simp only [run_pure, Except.ok.injEq, Prod.mk.injEq, engine_applyAll_cons, Engine.applyAll_nil,
    hstream] at h
  refine ⟨h.1.symm, fun row hr c hc => hchecks c (List.mem_flatMap.mpr ⟨row, hr, hc⟩), ?_⟩
  rw [← h.2, engine_applyAll_cons, Engine.applyAll_append]
  rfl

omit [Sha256] in
theorem applyRecorded_ok {event : CapacityEvent}
    (hp : db.program? (Uuid.ofText event.programId) = some program)
    (h : engine.run (ApplyTreasuryEventService.applyRecorded rt event coordinates program) db =
      .ok (outcome, db')) :
    (∀ reference, ApplyTreasuryEventService.echoReference event = some reference →
        storableText reference = true ∧
          ∀ row ∈ db.reservationsOf program.id, row.treasuryReference ≠ some reference) ∧
      engine.run (ApplyTreasuryEventService.applyEntry rt event coordinates program) db =
        .ok (outcome, db') ∨
    ∃ reference, ApplyTreasuryEventService.echoReference event = some reference ∧
      (∃ row ∈ db.reservationsOf program.id, row.treasuryReference = some reference) ∧
      engine.run (ApplyTreasuryEventService.suppressEcho rt event coordinates reference) db =
        .ok (outcome, db') := by
  have hid := Db.id_of_program? hp
  unfold ApplyTreasuryEventService.applyRecorded at h
  cases href : ApplyTreasuryEventService.echoReference event with
  | none =>
    simp only [href] at h
    exact Or.inl ⟨fun _ he => by simp at he, h⟩
  | some reference =>
    simp only [href] at h
    have htext : storableText reference = true := storable_of_run rfl h
    rw [run_query_of_parameters (by exact Constraint.forall_text htext)] at h
    simp only [Stmt.exec, Engine.applyAll_nil] at h
    split at h
    · rename_i hempty
      refine Or.inl ⟨fun r he => ⟨Option.some.inj he ▸ htext, fun row hrow hr => ?_⟩, h⟩
      simp only [Option.some.injEq] at he
      rw [List.isEmpty_iff, List.map_eq_nil_iff, List.filter_eq_nil_iff, ← hid] at hempty
      exact hempty row hrow (by simpa [he] using hr)
    · rename_i hne
      refine Or.inr ⟨reference, rfl, ?_, h⟩
      rw [List.isEmpty_iff, List.map_eq_nil_iff, List.filter_eq_nil_iff, ← hid] at hne
      simpa using hne

/-- **A committed apply of an event.** -/
theorem applyEvent_cases {event : CapacityEvent}
    (h : engine.run (ApplyTreasuryEventService.apply rt event coordinates) db =
      .ok (outcome, db')) :
    outcome.Idle ∧ db' = db ∨
      (∃ program, outcome = .applied ∧ EventApplied rt event coordinates db program db') ∨
      ∃ program reference, outcome = .echoSuppressed ∧
        EventEchoed rt event coordinates db program reference db' := by
  unfold ApplyTreasuryEventService.apply at h
  rw [run_withProgramLockOr] at h
  cases hp : db.program? (Uuid.ofText event.programId) with
  | none =>
    rw [hp] at h
    exact Or.inl (idle_of_pure h trivial)
  | some program =>
  have hid := Db.id_of_program? hp
  simp only [hp] at h
  unfold ApplyTreasuryEventService.applyLocked at h
  split at h
  · exact Or.inl (idle_of_pure h trivial)
  rename_i hcurrency
  obtain ⟨rows, ws, hx, h⟩ := run_query_ok h
  simp only [Stmt.exec, guarded_ok, List.forall_mem_cons, Constraint.bigint, Prod.mk.injEq] at hx
  obtain ⟨⟨hrange, -⟩, rfl, rfl⟩ := hx
  rw [Engine.applyAll_nil] at h
  split at h
  · -- a message of this version has been processed
    split at h
    · exact Or.inl (idle_of_pure h trivial)
    · split at h <;> exact Or.inl (idle_of_pure h trivial)
  rename_i hversion
  -- the message is recorded, unless its id is already there
  have hexec : Stmt.exec (.insertEventMessage (ApplyTreasuryEventService.messageRow rt event)) db =
      .ok (if (db.message? event.messageId).isSome then (false, [])
        else (true, [.message (ApplyTreasuryEventService.messageRow rt event)])) := by
    simp only [Stmt.exec, guarded_cons, guarded_nil, Constraint.bigint]
    exact if_pos hrange
  have hid' : storableText event.messageId = true := storable_of_run rfl h
  rw [run_query_of_parameters (by exact Constraint.forall_text hid'), hexec] at h
  cases hm : db.message? event.messageId with
  | some message =>
    rw [hm] at h
    exact Or.inl (idle_of_pure h trivial)
  | none =>
    simp only [hm, Option.isSome_none, Bool.false_eq_true, if_false, if_true,
      engine_applyAll_cons, Engine.applyAll_nil] at h
    have hnew : NewEvent event db program :=
      ⟨hp, not_not.mp hcurrency, by rw [hid]; exact List.head?_eq_none_iff.mp hversion, hrange, hm,
        hid'⟩
    have hstream := @streamWrites_congr db (Stmt.streamRow program.id coordinates rt.now)
      (db.apply (.message (ApplyTreasuryEventService.messageRow rt event))) (by simp)
    rcases applyRecorded_ok (by simpa using hp) h with ⟨hecho, h⟩ | ⟨reference, href, hecho, h⟩
    · obtain ⟨⟨ho, heffective, hpersist⟩, rfl⟩ := applyEntry_ok (by simpa using hp) h
      refine Or.inr (Or.inl ⟨program, ho, hnew,
        ⟨hid', fun reference href => (hecho reference href).1, heffective⟩,
        fun reference href => ?_, hpersist.congr (by simp), ?_⟩)
      · simpa using (hecho reference href).2
      · rw [hstream]
        rfl
    · obtain ⟨ho, hchecks, rfl⟩ := suppressEcho_ok (by simpa using hp) h
      refine Or.inr (Or.inr ⟨program, reference, ho, hnew, href, ?_, ?_, ?_⟩)
      · simpa using hecho
      · simpa [Stmt.echoedRows] using hchecks
      · rw [hstream]
        simp [Stmt.echoedRows]

/-! ## Snapshots -/

/-- What the policy makes of a snapshot. -/
def snapshotDecision (snapshot : ReconciliationSnapshot) (marker : SnapshotMarker) (db : Db)
    (program : ProgramEntity) : SnapshotDecision :=
  applySnapshotPolicy program.toProgramPosition snapshot.version snapshot.reservedMinor
    snapshot.creditLimitMinor marker
    ((db.reservationsOf program.id).map ApplySnapshotService.toSnapshotReservation)

/-- The advance of a snapshot. -/
def snapshotAdvance (rt : Runtime) (snapshot : ReconciliationSnapshot) (program : ProgramEntity)
    (deltas : SnapshotDeltas) : AdvanceResult :=
  advancePosition program.toProgramPosition (ApplySnapshotService.buildEntries deltas snapshot)
    rt.now

/-- The program row a snapshot leaves. -/
def snapshotRow (rt : Runtime) (snapshot : ReconciliationSnapshot) (program : ProgramEntity)
    (investigationRequired : Bool) (deltas : SnapshotDeltas) : ProgramEntity :=
  Stmt.withTreasuryVersion
    (Stmt.withPosition program (snapshotAdvance rt snapshot program deltas).program rt.now)
    snapshot.version snapshot.effectiveAt investigationRequired

/-- A snapshot the database can hold, but for the texts of its ledger
entries, of which it may have none. -/
structure ReconciliationSnapshot.Storable (snapshot : ReconciliationSnapshot) : Prop where
  messageId : storableText snapshot.messageId = true
  effectiveAt : inTimestamptz snapshot.effectiveAt = true
  references : ∀ marker, snapshot.acknowledgement = some marker →
    ∀ reference ∈ marker.reservationReferences.getD [], storableText reference = true
  ingestedThrough : ∀ marker, snapshot.acknowledgement = some marker →
    ∀ t, marker.ingestedThrough = some t → inTimestamptz t = true

/-- A snapshot that was applied. -/
structure SnapshotApplied (rt : Runtime) (snapshot : ReconciliationSnapshot)
    (marker : SnapshotMarker) (coordinates : StreamCoordinates) (db : Db)
    (program : ProgramEntity) (ids : List Uuid) (investigationRequired : Bool)
    (deltas : SnapshotDeltas) (db' : Db) : Prop where
  carried : snapshot.acknowledgement = some marker
  storable : snapshot.Storable
  found : db.program? (Uuid.ofText snapshot.programId) = some program
  currency : program.currency = snapshot.currency
  id : db.message? snapshot.messageId = none
  version : db.messagesAt program.id .snapshot snapshot.version = []
  versionRange : inBigint snapshot.version = true
  notStale : program.treasuryVersion ≤ snapshot.version
  decided : snapshotDecision snapshot marker db program = .apply ids investigationRequired deltas
  withinGuard :
    ApplySnapshotService.exceedsMagnitudeGuard rt deltas.treasury program.creditLimitMinor = false
  persistable : Persistable db program (snapshotAdvance rt snapshot program deltas) true
  explicitMarker : (marker.kind == .explicit) = marker.reservationReferences.isSome
  watermarkMarker : (marker.kind == .watermark) = marker.ingestedThrough.isSome
  newAcknowledgement : db.acknowledgement? snapshot.messageId = none
  checked : ∀ row ∈ Stmt.acknowledgedRows db program.id ids,
    ∀ c ∈ reservationChecks (Stmt.acknowledged snapshot.version rt.now row), c.1 = true
  after : db' = engine.applyAll
    (.message (ApplySnapshotService.messageRow rt snapshot) ::
      (advanceWrites program (snapshotAdvance rt snapshot program deltas) rt.now ++
        (.program (snapshotRow rt snapshot program investigationRequired deltas) ::
          .acknowledgement (ApplySnapshotService.acknowledgementRow snapshot marker) ::
          .reservations ((Stmt.acknowledgedRows db program.id ids).map
            (Stmt.acknowledged snapshot.version rt.now)) ::
          Stmt.streamWrites (Stmt.streamRow program.id coordinates rt.now) db))) db

namespace SnapshotApplied

variable {snapshot : ReconciliationSnapshot} {marker : SnapshotMarker} {ids : List Uuid}
variable {investigationRequired : Bool} {deltas : SnapshotDeltas}

/-- The program rows an applied snapshot leaves. -/
theorem program?_after (h : SnapshotApplied rt snapshot marker coordinates db program ids
    investigationRequired deltas db') (q : Uuid) :
    db'.program? q = if program.id = q then
      some (snapshotRow rt snapshot program investigationRequired deltas) else db.program? q := by
  rw [h.after]
  by_cases hq : program.id = q <;>
    simp [advanceWrites, snapshotRow, Stmt.withPosition, Stmt.withTreasuryVersion, hq]

theorem reservationsOf_put (h : SnapshotApplied rt snapshot marker coordinates db program ids
    investigationRequired deltas db') (q : Uuid) :
    db'.reservationsOf q = Table.putAll InvoiceReservationEntity.key
      (((Stmt.acknowledgedRows db program.id ids).map
        (Stmt.acknowledged snapshot.version rt.now)).filter (·.programId = q))
      (db.reservationsOf q) := by
  rw [h.after]
  simp [advanceWrites]

theorem ledger_after (h : SnapshotApplied rt snapshot marker coordinates db program ids
    investigationRequired deltas db') : db'.ledger = db.ledger ++
      Stmt.ledgerRows program.id (snapshotAdvance rt snapshot program deltas).entries rt.now := by
  rw [h.after]
  simp [advanceWrites, Db.apply]

/-- An applied snapshot is the last message. -/
theorem messages_after (h : SnapshotApplied rt snapshot marker coordinates db program ids
    investigationRequired deltas db') :
    db'.messages = db.messages ++ [ApplySnapshotService.messageRow rt snapshot] := by
  rw [h.after]
  simp [advanceWrites, Db.apply]

/-- And its marker the last one. -/
theorem acknowledgements_after (h : SnapshotApplied rt snapshot marker coordinates db program ids
    investigationRequired deltas db') : db'.acknowledgements =
      db.acknowledgements ++ [ApplySnapshotService.acknowledgementRow snapshot marker] := by
  rw [h.after]
  simp [advanceWrites, Db.apply]

end SnapshotApplied

omit [Sha256] in
theorem exec_updateTreasuryVersion_ok {version : Int} {effectiveAt : Timestamp}
    {investigationRequired : Bool} {u : Unit} {ws : List Write} (row : ProgramEntity)
    (hp : db.program? p = some row)
    (h : Stmt.exec (.updateTreasuryVersion p version effectiveAt investigationRequired) db =
      .ok (u, ws)) :
    ws = [.program (Stmt.withTreasuryVersion row version effectiveAt investigationRequired)] := by
  simp only [Stmt.exec, hp, guarded_ok, Prod.mk.injEq] at h
  obtain ⟨-, -, rfl⟩ := h
  rfl

omit [Sha256] in
theorem exec_insertAcknowledgement_ok {row : SnapshotAcknowledgementEntity} {u : Unit}
    {ws : List Write} (h : Stmt.exec (.insertAcknowledgement row) db = .ok (u, ws)) :
    ((row.kind == .explicit) = row.reservationReferences.isSome ∧
      (row.kind == .watermark) = row.ingestedThrough.isSome ∧
      db.acknowledgement? row.messageId = none) ∧ ws = [.acknowledgement row] := by
  simp only [Stmt.exec, guarded_ok, List.forall_mem_cons, Constraint.bigint, Constraint.check,
    Constraint.unique, Constraint.foreignKey, Prod.mk.injEq, beq_iff_eq, Option.isNone_iff_eq_none]
    at h
  obtain ⟨⟨-, he, hw, hn, -⟩, -, rfl⟩ := h
  exact ⟨⟨he, hw, hn⟩, rfl⟩

omit [Sha256] in
/-- The rows a marker acknowledges are written where there are any. -/
theorem run_acknowledgeReservations_ok {α : Type} {k : Unit → Transaction α} {ids : List Uuid}
    {version : Int} {now : Timestamp} {r : α}
    (h : engine.run (if ids.length > 0 then
        query (.acknowledgeReservations p ids version now) >>= k else k ()) db = .ok (r, db')) :
    (∀ row ∈ Stmt.acknowledgedRows db p ids,
        ∀ c ∈ reservationChecks (Stmt.acknowledged version now row), c.1 = true) ∧
      engine.run (k ()) (db.apply (.reservations
        ((Stmt.acknowledgedRows db p ids).map (Stmt.acknowledged version now)))) =
          .ok (r, db') := by
  split at h
  · obtain ⟨u, ws, hx, h⟩ := run_query_ok h
    simp only [Stmt.exec, Stmt.updateReservations, guarded_ok, Prod.mk.injEq] at hx
    obtain ⟨hchecks, -, rfl⟩ := hx
    exact ⟨fun row hr c hc => hchecks c (List.mem_flatMap.mpr ⟨row, hr, hc⟩), h⟩
  · rename_i hids
    have hnil : ids = [] := List.eq_nil_of_length_eq_zero (by omega)
    subst hnil
    refine ⟨by simp [Stmt.acknowledgedRows], ?_⟩
    simpa [Stmt.acknowledgedRows, Db.apply] using h

theorem applyAccepted_ok {snapshot : ReconciliationSnapshot} {marker : SnapshotMarker}
    {ids : List Uuid} {investigationRequired : Bool} {deltas : SnapshotDeltas}
    (hp : db.program? (Uuid.ofText snapshot.programId) = some program)
    (h : engine.run (ApplySnapshotService.applyAccepted rt snapshot marker coordinates program ids
      investigationRequired deltas) db = .ok (outcome, db')) :
    (outcome = .applied ∧ storableText snapshot.messageId = true ∧
      inTimestamptz snapshot.effectiveAt = true ∧
      (∀ reference ∈ marker.reservationReferences.getD [], storableText reference = true) ∧
      (∀ t, marker.ingestedThrough = some t → inTimestamptz t = true) ∧
      db.message? snapshot.messageId = none ∧ inBigint snapshot.version = true ∧
      Persistable db program (snapshotAdvance rt snapshot program deltas) true ∧
      (marker.kind == .explicit) = marker.reservationReferences.isSome ∧
      (marker.kind == .watermark) = marker.ingestedThrough.isSome ∧
      db.acknowledgement? snapshot.messageId = none ∧
      ∀ row ∈ Stmt.acknowledgedRows db program.id ids,
        ∀ c ∈ reservationChecks (Stmt.acknowledged snapshot.version rt.now row), c.1 = true) ∧
    db' = engine.applyAll
      (.message (ApplySnapshotService.messageRow rt snapshot) ::
        (advanceWrites program (snapshotAdvance rt snapshot program deltas) rt.now ++
          (.program (snapshotRow rt snapshot program investigationRequired deltas) ::
            .acknowledgement (ApplySnapshotService.acknowledgementRow snapshot marker) ::
            .reservations ((Stmt.acknowledgedRows db program.id ids).map
              (Stmt.acknowledged snapshot.version rt.now)) ::
            Stmt.streamWrites (Stmt.streamRow program.id coordinates rt.now) db))) db := by
  have hid := Db.id_of_program? hp
  unfold ApplySnapshotService.applyAccepted at h
  have htext : storableText snapshot.messageId = true := storable_of_run rfl h
  obtain ⟨u, ws, hx, h⟩ := run_query_ok h
  simp only [Stmt.exec, guarded_ok, List.forall_mem_cons, Constraint.bigint, Constraint.unique,
    Option.isNone_iff_eq_none, Prod.mk.injEq] at hx
  obtain ⟨⟨hrange, hnone, -⟩, -, rfl⟩ := hx
  obtain ⟨u₁, c, hadvance, h⟩ := Engine.run_bind_ok.mp h
  obtain ⟨hpersist, rfl⟩ := (run_persistAdvance_ok (by simpa using hp)).mp hadvance
  rw [← hid] at h
  have heffective : inTimestamptz snapshot.effectiveAt = true := inTimestamptz_of_run rfl h
  obtain ⟨u₂, ws₂, hx₂, h⟩ := run_query_ok h
  obtain rfl := exec_updateTreasuryVersion_ok
    (Stmt.withPosition program (snapshotAdvance rt snapshot program deltas).program rt.now)
    (by simp [advanceWrites, Stmt.withPosition, snapshotAdvance]) hx₂
  have hmarker := parameters_of_run h
  simp only [Stmt.parameters, ApplySnapshotService.acknowledgementRow, List.forall_mem_cons,
    List.forall_mem_append, List.forall_mem_map, Option.mem_toList] at hmarker
  obtain ⟨u₃, ws₃, hx₃, h⟩ := run_query_ok h
  obtain ⟨⟨he, hw, hn⟩, rfl⟩ := exec_insertAcknowledgement_ok hx₃
  obtain ⟨hchecks, h⟩ := run_acknowledgeReservations_ok h
  -- the state the marker's rows are read from
  obtain ⟨c, hc⟩ : ∃ c, c = engine.applyAll
      (.message (ApplySnapshotService.messageRow rt snapshot) ::
        (advanceWrites program (snapshotAdvance rt snapshot program deltas) rt.now ++
          [.program (snapshotRow rt snapshot program investigationRequired deltas),
            .acknowledgement (ApplySnapshotService.acknowledgementRow snapshot marker)])) db :=
    ⟨_, rfl⟩
  have hrows : Stmt.acknowledgedRows c program.id ids =
      Stmt.acknowledgedRows db program.id ids := by
    rw [hc]; simp [Stmt.acknowledgedRows, advanceWrites]
  have hprogram : (c.program? program.id).isSome = true := by
    rw [hc]; simp [advanceWrites, snapshotRow, Stmt.withTreasuryVersion, Stmt.withPosition]
  have hstream := @streamWrites_congr db (Stmt.streamRow program.id coordinates rt.now)
    (c.apply (.reservations ((Stmt.acknowledgedRows c program.id ids).map
      (Stmt.acknowledged snapshot.version rt.now)))) (by rw [hc]; simp [advanceWrites])
  have hchecks' : ∀ row ∈ Stmt.acknowledgedRows c program.id ids,
      ∀ k ∈ reservationChecks (Stmt.acknowledged snapshot.version rt.now row), k.1 = true := by
    rw [hc]; exact hchecks
  have h' : engine.run (do
      query (.upsertStreamPosition program.id coordinates rt.now)
      return .applied) (c.apply (.reservations ((Stmt.acknowledgedRows c program.id ids).map
        (Stmt.acknowledged snapshot.version rt.now)))) = .ok (outcome, db') := by
    rw [hc]; exact h
  rw [run_upsertStreamPosition (by simpa using hprogram), hstream, hrows] at h'
  simp only [run_pure, Except.ok.injEq, Prod.mk.injEq] at h'
  refine ⟨⟨h'.1.symm, htext, heffective, hmarker.2.1, hmarker.2.2, hnone, hrange,
    hpersist.congr (by simp), he, hw, ?_, ?_⟩, ?_⟩
  · simpa [advanceWrites, ApplySnapshotService.acknowledgementRow] using hn
  · rwa [hrows] at hchecks'
  · rw [← h'.2, hc]
    rfl

/-- **A committed apply of a snapshot.** -/
theorem applySnapshot_cases {snapshot : ReconciliationSnapshot}
    (h : engine.run (ApplySnapshotService.apply rt snapshot coordinates) db =
      .ok (outcome, db')) :
    outcome.Idle ∧ db' = db ∨
      outcome = .applied ∧ ∃ marker program ids investigationRequired deltas,
        SnapshotApplied rt snapshot marker coordinates db program ids investigationRequired deltas
          db' := by
  unfold ApplySnapshotService.apply at h
  cases hmarker : snapshot.acknowledgement with
  | none =>
    rw [hmarker] at h
    exact Or.inl (idle_of_pure h trivial)
  | some marker =>
  simp only [hmarker, run_withProgramLockOr] at h
  cases hp : db.program? (Uuid.ofText snapshot.programId) with
  | none =>
    rw [hp] at h
    exact Or.inl (idle_of_pure h trivial)
  | some program =>
  have hid := Db.id_of_program? hp
  simp only [hp] at h
  unfold ApplySnapshotService.applyLocked at h
  split at h
  · exact Or.inl (idle_of_pure h trivial)
  rename_i hcurrency
  obtain ⟨seen, ws₀, hseen, h⟩ := run_query_ok h
  simp only [Stmt.exec, Except.ok.injEq, Prod.mk.injEq] at hseen
  obtain ⟨rfl, rfl⟩ := hseen
  rw [Engine.applyAll_nil] at h
  split at h
  · exact Or.inl (idle_of_pure h trivial)
  obtain ⟨rows, ws, hx, h⟩ := run_query_ok h
  simp only [Stmt.exec, guarded_ok, Prod.mk.injEq] at hx
  obtain ⟨-, rfl, rfl⟩ := hx
  rw [Engine.applyAll_nil] at h
  split at h
  · -- a message of this version has been processed
    split at h
    · exact Or.inl (idle_of_pure h trivial)
    · split at h <;> exact Or.inl (idle_of_pure h trivial)
  rename_i hversion
  split at h
  · exact Or.inl (idle_of_pure h trivial)
  rename_i hstale
  unfold ApplySnapshotService.applyNew at h
  rw [run_query_of_nil rfl] at h
  simp only [Stmt.exec, Engine.applyAll_nil] at h
  split at h
  · exact Or.inl (idle_of_pure h trivial)
  rename_i ids investigationRequired deltas hdecision
  split at h
  · exact Or.inl (idle_of_pure h trivial)
  rename_i hguard
  obtain ⟨⟨ho, htext, heffective, hreferences, hingested, hnone, hrange, hpersist, he, hw, hn,
    hchecks⟩, rfl⟩ := applyAccepted_ok hp h
  have hstorable : snapshot.Storable :=
    ⟨htext, heffective, fun m hm => Option.some.inj (hmarker.symm.trans hm) ▸ hreferences,
      fun m hm => Option.some.inj (hmarker.symm.trans hm) ▸ hingested⟩
  refine Or.inr ⟨ho, marker, program, ids, investigationRequired, deltas, hmarker, hstorable, hp,
    not_not.mp hcurrency, hnone, ?_, hrange, by omega, ?_, by simpa using hguard, hpersist, he, hw,
    hn, hchecks, rfl⟩
  · rw [hid]; exact List.head?_eq_none_iff.mp hversion
  · rw [snapshotDecision, hid]; exact hdecision

/-! ## The handlers -/

/-- An answer that asks for messages of a version, which has to fit its column. -/
def atVersion {α : Type} (version : Int) (answer : α) : Except Failure α :=
  if inBigint version then .ok answer else .error (.sql (Constraint.bigint version).2)

omit [Sha256] in
theorem run_selectMessagesAt {α : Type} {kind : MessageKind} {version : Int}
    {k : List ProcessedMessageEntity → Transaction α} :
    engine.run (query (.selectMessagesAt p kind version) >>= k) db =
      if inBigint version then engine.run (k (db.messagesAt p kind version)) db
      else .error (.sql (Constraint.bigint version).2) := by
  rw [run_query_of_nil rfl]
  simp only [Stmt.exec, guarded_cons, guarded_nil]
  by_cases hv : inBigint version = true
  · simp [Constraint.bigint, hv]
  · simp [Constraint.bigint, hv]

/-- An answer that asks for a text, which has to fit its column. -/
def byText {α : Type} (text : String) (answer : Except Failure α) : Except Failure α :=
  if storableText text then answer else .error (.sql (Constraint.text text).2)

omit [Sha256] in
theorem run_selectMessage {α : Type} {messageId : String}
    {k : Option ProcessedMessageEntity → Transaction α} :
    engine.run (query (.selectMessage messageId) >>= k) db =
      byText messageId (engine.run (k (db.message? messageId)) db) := by
  unfold byText
  by_cases htext : storableText messageId = true
  · rw [run_query_of_parameters (by exact Constraint.forall_text htext), if_pos htext]
    rfl
  · rw [run_query, if_neg htext]
    simp only [Stmt.send, Stmt.parameters, guarded_cons, Constraint.text, htext]
    rfl

omit [Sha256] in
theorem byText_ok {α : Type} {text : String} {answer : Except Failure α} {a : α} :
    byText text answer = .ok a ↔ storableText text = true ∧ answer = .ok a := by
  unfold byText
  split <;> simp [*]

/-- What `inspect` finds of an event. -/
def inspectEvent (event : CapacityEvent) (db : Db) : Except Failure InspectOutcome :=
  byText event.messageId <|
  if (db.message? event.messageId).isSome then .ok .alreadyApplied
  else
    match db.program? (Uuid.ofText event.programId) with
    | none => .ok (.quarantined .unknownProgram)
    | some program =>
      if program.currency ≠ event.payload.currency then .ok (.quarantined .currencyMismatch)
      else
        atVersion event.version <|
          match (db.messagesAt (Uuid.ofText event.programId) .event event.version).head? with
          | some existing =>
            if existing.contentHash = capacityEventContentHash event then .alreadyApplied
            else .quarantined .versionConflict
          | none => .proceed

theorem run_inspectEvent {event : CapacityEvent} :
    engine.run (ApplyTreasuryEventService.inspect event) db =
      (inspectEvent event db).map fun inspected => (inspected, db) := by
  unfold ApplyTreasuryEventService.inspect inspectEvent
  rw [run_selectMessage]
  unfold byText
  split
  swap
  · rfl
  split
  · rfl
  rw [run_query_of_nil rfl]
  simp only [Stmt.exec, Engine.applyAll_nil]
  cases db.program? (Uuid.ofText event.programId) with
  | none => rfl
  | some program =>
    dsimp only
    split
    · rfl
    rw [run_selectMessagesAt, atVersion]
    split
    · cases (db.messagesAt (Uuid.ofText event.programId) .event event.version).head? with
      | none => rfl
      | some existing => dsimp only; split <;> rfl
    · rfl

/-- What `inspect` finds of a snapshot. -/
def inspectSnapshot (snapshot : ReconciliationSnapshot) (db : Db) : Except Failure InspectOutcome :=
  byText snapshot.messageId <|
  if (db.message? snapshot.messageId).isSome then .ok .alreadyApplied
  else
    match db.program? (Uuid.ofText snapshot.programId) with
    | none => .ok (.quarantined .unknownProgram)
    | some program =>
      if program.currency ≠ snapshot.currency then .ok (.quarantined .currencyMismatch)
      else if snapshot.version < program.treasuryVersion then .ok .alreadyApplied
      else if snapshot.version = program.treasuryVersion then
        atVersion snapshot.version <|
          match (db.messagesAt (Uuid.ofText snapshot.programId) .snapshot
              snapshot.version).head? with
          | some existing =>
            if existing.contentHash = reconciliationSnapshotContentHash snapshot then
              .alreadyApplied
            else .quarantined .versionConflict
          | none => .proceed
      else .ok .proceed

theorem run_inspectSnapshot {snapshot : ReconciliationSnapshot} :
    engine.run (ApplySnapshotService.inspect snapshot) db =
      (inspectSnapshot snapshot db).map fun inspected => (inspected, db) := by
  unfold ApplySnapshotService.inspect inspectSnapshot
  rw [run_selectMessage]
  unfold byText
  split
  swap
  · rfl
  split
  · rfl
  rw [run_query_of_nil rfl]
  simp only [Stmt.exec, Engine.applyAll_nil]
  cases db.program? (Uuid.ofText snapshot.programId) with
  | none => rfl
  | some program =>
    dsimp only
    split
    · rfl
    split
    · rfl
    split
    · rw [run_selectMessagesAt, atVersion]
      split
      · cases (db.messagesAt (Uuid.ofText snapshot.programId) .snapshot snapshot.version).head? with
        | none => rfl
        | some existing => dsimp only; split <;> rfl
      · rfl
    · rfl

omit [Sha256] in
/-- An apply with no effect is no applied message to its handler. -/
theorem ApplyOutcome.Idle.toHandleOutcome (h : outcome.Idle) :
    outcome.toHandleOutcome ≠ .applied := by
  cases outcome <;> simp_all [ApplyOutcome.Idle, ApplyOutcome.toHandleOutcome]

/-- **A handled event was left alone, or inspected and then applied.** -/
theorem handleEvent_ok {event : CapacityEvent} {handled : HandleOutcome} :
    engine.run (handleCapacityEvent rt event coordinates) db = .ok (handled, db') ↔
      (inspectEvent event db = .ok .alreadyApplied ∧ handled = .skipped ∧ db' = db) ∨
      (∃ reason, inspectEvent event db = .ok (.quarantined reason) ∧
        handled = .quarantined reason ∧ db' = db) ∨
      inspectEvent event db = .ok .proceed ∧ ∃ outcome,
        engine.run (ApplyTreasuryEventService.apply rt event coordinates) db = .ok (outcome, db') ∧
          handled = outcome.toHandleOutcome := by
  rw [handleCapacityEvent, Engine.run_bind, run_inspectEvent]
  cases hi : inspectEvent event db with
  | error e => simp [Except.map]
  | ok inspected =>
    cases inspected with
    | alreadyApplied => simp [Except.map, eq_comm]
    | quarantined reason => simp [Except.map, eq_comm]
    | proceed =>
      simp only [Except.map, Engine.run_bind_ok, run_pure, reduceCtorEq, false_and, exists_false,
        false_or, Except.ok.injEq, Prod.mk.injEq, true_and]
      constructor
      · rintro ⟨outcome, c, happly, rfl, rfl⟩
        exact ⟨outcome, happly, rfl⟩
      · rintro ⟨outcome, happly, rfl⟩
        exact ⟨outcome, db', happly, rfl, rfl⟩

/-- **A handled snapshot was left alone, or inspected and then applied.** -/
theorem handleSnapshot_ok {snapshot : ReconciliationSnapshot} {handled : HandleOutcome} :
    engine.run (handleReconciliationSnapshot rt snapshot coordinates) db = .ok (handled, db') ↔
      (inspectSnapshot snapshot db = .ok .alreadyApplied ∧ handled = .skipped ∧ db' = db) ∨
      (∃ reason, inspectSnapshot snapshot db = .ok (.quarantined reason) ∧
        handled = .quarantined reason ∧ db' = db) ∨
      inspectSnapshot snapshot db = .ok .proceed ∧ ∃ outcome,
        engine.run (ApplySnapshotService.apply rt snapshot coordinates) db = .ok (outcome, db') ∧
          handled = outcome.toHandleOutcome := by
  rw [handleReconciliationSnapshot, Engine.run_bind, run_inspectSnapshot]
  cases hi : inspectSnapshot snapshot db with
  | error e => simp [Except.map]
  | ok inspected =>
    cases inspected with
    | alreadyApplied => simp [Except.map, eq_comm]
    | quarantined reason => simp [Except.map, eq_comm]
    | proceed =>
      simp only [Except.map, reduceCtorEq, false_and, exists_false, false_or,
        Except.ok.injEq, true_and]
      split
      · -- without a marker both the handler and `apply` quarantine
        rename_i hmarker
        rw [Option.isNone_iff_eq_none] at hmarker
        simp only [ApplySnapshotService.apply, hmarker, run_pure, Except.ok.injEq, Prod.mk.injEq]
        constructor
        · rintro ⟨rfl, rfl⟩
          exact ⟨_, ⟨rfl, rfl⟩, rfl⟩
        · rintro ⟨outcome, ⟨rfl, rfl⟩, rfl⟩
          exact ⟨rfl, rfl⟩
      · simp only [Engine.run_bind_ok, run_pure, Except.ok.injEq, Prod.mk.injEq]
        constructor
        · rintro ⟨outcome, c, happly, rfl, rfl⟩
          exact ⟨outcome, happly, rfl⟩
        · rintro ⟨outcome, happly, rfl⟩
          exact ⟨outcome, db', happly, rfl, rfl⟩

/-! ## The seed -/

omit [Sha256] in
/-- **A committed turn of the seed's loop.** -/
theorem seedProgram_cases {now : Timestamp} {seed : ProgramSeed} {u : Unit}
    (h : engine.run (seedProgram now seed) db = .ok (u, db')) :
    db' = db ∨ ∃ program, program = Stmt.newProgram (Uuid.ofText seed.id) seed.organisationId
        seed.currency now ∧
      db.program? program.id = none ∧
      Persistable db program (advancePosition program.toProgramPosition [seed.entry] now) false ∧
      db' = engine.applyAll (.program program ::
        advanceWrites program (advancePosition program.toProgramPosition [seed.entry] now) now)
          db := by
  unfold seedProgram at h
  obtain ⟨inserted, ws, hx, h⟩ := run_query_ok h
  simp only [Stmt.exec] at hx
  split at hx
  · simp only [Except.ok.injEq, Prod.mk.injEq] at hx
    obtain ⟨rfl, rfl⟩ := hx
    simp only [Bool.false_eq_true, if_false, run_pure, Engine.applyAll_nil, Except.ok.injEq,
      Prod.mk.injEq] at h
    exact Or.inl h.2.symm
  · rename_i hnone
    simp only [guarded_ok, Prod.mk.injEq] at hx
    obtain ⟨-, rfl, rfl⟩ := hx
    generalize hnew : Stmt.newProgram (Uuid.ofText seed.id) seed.organisationId seed.currency now =
      program at h
    have hid : program.id = Uuid.ofText seed.id := by rw [← hnew]; rfl
    have hfound : (db.apply (.program program)).program? (Uuid.ofText seed.id) = some program := by
      simp [hid]
    simp only [if_true, engine_applyAll_cons, Engine.applyAll_nil] at h
    rw [run_query_of_nil rfl] at h
    simp only [Stmt.exec, hfound, Engine.applyAll_nil] at h
    obtain ⟨hpersist, rfl⟩ := (run_persistAdvance_ok hfound).mp h
    exact Or.inr ⟨program, rfl, by rw [hid]; simpa using hnone, hpersist.congr (by simp), rfl⟩

omit [Sha256] in
/-- **The loop, from its end**: what holds of the state it leaves and is
carried back over each program it inserts holds of the state it started from. -/
theorem runSeed_induct {motive : Db → Prop} {now : Timestamp} {seeds : List ProgramSeed} {u : Unit}
    (h : engine.run (runSeed now seeds) db = .ok (u, db')) (last : motive db')
    (inserted : ∀ {c : Db} {seed : ProgramSeed} {program : ProgramEntity},
      program = Stmt.newProgram (Uuid.ofText seed.id) seed.organisationId seed.currency now →
      c.program? program.id = none →
      Persistable c program (advancePosition program.toProgramPosition [seed.entry] now) false →
      motive (engine.applyAll (.program program ::
        advanceWrites program (advancePosition program.toProgramPosition [seed.entry] now) now)
          c) → motive c) : motive db := by
  induction seeds generalizing db with
  | nil =>
    simp only [runSeed, run_pure, Except.ok.injEq, Prod.mk.injEq] at h
    rwa [h.2]
  | cons seed seeds ih =>
    obtain ⟨v, c, hs, hrest⟩ := Engine.run_bind_ok.mp h
    have hc : motive c := ih hrest
    rcases seedProgram_cases hs with rfl | ⟨program, hnew, hnone, hpersist, rfl⟩
    · exact hc
    · exact inserted hnew hnone hpersist hc

end InvoiceReservation
