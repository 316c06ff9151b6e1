import InvoiceReservation.Helpers.Deliveries
/-!
# New messages

A handler leaves the database alone unless its message is new. A new event
is applied, suppressed as an echo, or fails; a new snapshot is applied,
quarantined, or fails.
-/

namespace InvoiceReservation

open Transactions

variable [Sha256] {db db' : Db} {p : Uuid} {rt : Runtime} {program : ProgramEntity}
variable {coordinates : StreamCoordinates} {outcome : ApplyOutcome} {handled : HandleOutcome}

/-! ## Events -/

variable {event : CapacityEvent}

/-- An event whose id was processed, or whose version was for its program. -/
def EventSeen (event : CapacityEvent) (db : Db) : Prop :=
  (db.message? event.messageId).isSome = true ∨
    ∃ program, db.program? (Uuid.ofText event.programId) = some program ∧
      db.messagesAt program.id .event event.version ≠ []

omit [Sha256] in
theorem EventSeen.not_new (h : EventSeen event db) : ¬ NewEvent event db program := by
  intro hnew
  rcases h with hid | ⟨found, hp, hversion⟩
  · simp [hnew.id] at hid
  · obtain rfl : found = program := Option.some.inj (hp.symm.trans hnew.found)
    exact hversion hnew.version

/-- An event that is inspected as applied before was seen. -/
theorem inspectEvent_alreadyApplied (h : inspectEvent event db = .ok .alreadyApplied) :
    EventSeen event db := by
  obtain ⟨-, h⟩ := byText_ok.mp h
  split at h
  · rename_i hid
    exact Or.inl hid
  cases hp : db.program? (Uuid.ofText event.programId) with
  | none => rw [hp] at h; cases h
  | some program =>
    simp only [hp] at h
    split at h
    · cases h
    unfold atVersion at h
    split at h
    · refine Or.inr ⟨program, hp, fun hnil => ?_⟩
      rw [Db.id_of_program? hp] at hnil
      simp [hnil] at h
    · cases h

/-- An event that is inspected as new is new. -/
theorem inspectEvent_proceed (h : inspectEvent event db = .ok .proceed) :
    ∃ program, NewEvent event db program := by
  obtain ⟨htext, h⟩ := byText_ok.mp h
  split at h
  · cases h
  rename_i hid
  cases hp : db.program? (Uuid.ofText event.programId) with
  | none => rw [hp] at h; cases h
  | some program =>
    simp only [hp] at h
    split at h
    · cases h
    rename_i hcurrency
    unfold atVersion at h
    split at h
    · rename_i hrange
      refine ⟨program, hp, not_not.mp hcurrency, ?_, hrange, by simpa using hid, htext⟩
      rw [Db.id_of_program? hp]
      cases hrows : (db.messagesAt (Uuid.ofText event.programId) .event event.version).head? with
      | none => exact List.head?_eq_none_iff.mp hrows
      | some existing =>
        simp only [hrows, Except.ok.injEq] at h
        split at h <;> cases h
    · cases h

omit [Sha256] in
theorem NewEvent.head?_messagesAt (h : NewEvent event db program) :
    (db.messagesAt (Uuid.ofText event.programId) .event event.version).head? = none := by
  rw [← Db.id_of_program? h.found, h.version]
  rfl

/-- A new event is inspected as new. -/
theorem NewEvent.inspected (h : NewEvent event db program) :
    inspectEvent event db = .ok .proceed := by
  simp [inspectEvent, byText_ok, h.storableId, h.id, h.found, h.currency, atVersion,
    h.versionRange, h.head?_messagesAt]

/-- A new event is recorded first. -/
theorem NewEvent.run_apply (h : NewEvent event db program) :
    engine.run (ApplyTreasuryEventService.apply rt event coordinates) db =
      engine.run (ApplyTreasuryEventService.applyRecorded rt event coordinates program)
        (db.apply (.message (ApplyTreasuryEventService.messageRow rt event))) := by
  have hexec : Stmt.exec (.insertEventMessage (ApplyTreasuryEventService.messageRow rt event)) db =
      .ok (true, [.message (ApplyTreasuryEventService.messageRow rt event)]) := by
    simp only [Stmt.exec, guarded_cons, guarded_nil, Constraint.bigint]
    rw [if_pos (show inBigint (ApplyTreasuryEventService.messageRow rt event).version = true from
      h.versionRange)]
    simp [ApplyTreasuryEventService.messageRow, h.id]
  rw [ApplyTreasuryEventService.apply, run_withProgramLockOr, h.found]
  simp only [ApplyTreasuryEventService.applyLocked, h.currency, ne_eq, not_true_eq_false,
    if_false, run_selectMessagesAt, h.versionRange, if_true, h.head?_messagesAt]
  rw [run_query_of_exec (by exact Constraint.forall_text h.storableId) hexec]
  rfl

/-- A new event is applied, or suppressed as an echo. -/
theorem applyEvent_new (hnew : NewEvent event db program)
    (h : engine.run (ApplyTreasuryEventService.apply rt event coordinates) db =
      .ok (outcome, db')) : outcome = .applied ∨ outcome = .echoSuppressed := by
  rw [hnew.run_apply] at h
  rcases applyRecorded_ok (by simpa using hnew.found) h with ⟨-, h⟩ | ⟨reference, -, -, h⟩
  · exact Or.inl (applyEntry_ok (by simpa using hnew.found) h).1.1
  · exact Or.inr (suppressEcho_ok (by simpa using hnew.found) h).1

omit [Sha256] in
/-- An entry that can be persisted is applied. -/
theorem run_applyEntry (hp : db.program? (Uuid.ofText event.programId) = some program)
    (heffective : inTimestamptz event.effectiveAt = true)
    (hpersist : Persistable db program (eventAdvance rt event program) false) :
    ∃ db', engine.run (ApplyTreasuryEventService.applyEntry rt event coordinates program) db =
      .ok (.applied, db') := by
  have hid := Db.id_of_program? hp
  have hafter : (engine.applyAll (advanceWrites program (eventAdvance rt event program) rt.now)
      db).program? (Uuid.ofText event.programId) =
      some (Stmt.withPosition program (eventAdvance rt event program).program rt.now) := by
    simp [advanceWrites, Stmt.withPosition, hid]
  have hrow : (Stmt.withAppliedEffectiveAt
      (Stmt.withPosition program (eventAdvance rt event program).program rt.now)
      event.effectiveAt).id = Uuid.ofText event.programId := by
    rw [← hid]; unfold Stmt.withAppliedEffectiveAt; split <;> rfl
  have hrest : ∃ db', engine.run (do
      query (.advanceAppliedEffectiveAt (Uuid.ofText event.programId) event.effectiveAt)
      query (.upsertStreamPosition (Uuid.ofText event.programId) coordinates rt.now)
      return ApplyOutcome.applied)
      (engine.applyAll (advanceWrites program (eventAdvance rt event program) rt.now) db) =
        .ok (.applied, db') := by
    rw [run_advanceAppliedEffectiveAt heffective hafter, run_upsertStreamPosition (by simp [hrow])]
    exact ⟨_, rfl⟩
  obtain ⟨db', hrest⟩ := hrest
  exact ⟨db', Engine.run_bind_ok.mpr
    ⟨(), _, (run_persistAdvance_ok hp).mpr ⟨hpersist, rfl⟩, hrest⟩⟩

/-- **A new event that is no echo is applied where its advance can be
persisted.** -/
theorem NewEvent.applied (h : NewEvent event db program) (hstorable : event.Storable)
    (hecho : ∀ reference, ApplyTreasuryEventService.echoReference event = some reference →
      ∀ row ∈ db.reservationsOf program.id, row.treasuryReference ≠ some reference)
    (hpersist : Persistable db program (eventAdvance rt event program) false) :
    ∃ db', engine.run (handleCapacityEvent rt event coordinates) db = .ok (.applied, db') := by
  have hfound : (db.apply (.message (ApplyTreasuryEventService.messageRow rt event))).program?
      (Uuid.ofText event.programId) = some program := by simpa using h.found
  have hrecorded : ∃ db', engine.run
      (ApplyTreasuryEventService.applyRecorded rt event coordinates program)
      (db.apply (.message (ApplyTreasuryEventService.messageRow rt event))) =
        .ok (.applied, db') := by
    obtain ⟨db', hrun⟩ := @run_applyEntry _ rt program coordinates event hfound
      hstorable.effectiveAt (hpersist.congr (by simp))
    refine ⟨db', ?_⟩
    unfold ApplyTreasuryEventService.applyRecorded
    cases href : ApplyTreasuryEventService.echoReference event with
    | none => exact hrun
    | some reference =>
      have hnone : (db.reservationsOf (Uuid.ofText event.programId)).filter
          (fun row => decide (row.treasuryReference = some reference)) = [] := by
        rw [← Db.id_of_program? h.found, List.filter_eq_nil_iff]
        intro row hrow
        simpa using hecho reference href row hrow
      dsimp only
      rw [run_query_of_parameters (by exact Constraint.forall_text (hstorable.reference _ href))]
      simp only [Stmt.exec, Db.reservationsOf_apply, hnone, List.map_nil, List.isEmpty_nil, if_true,
        Engine.applyAll_nil]
      exact hrun
  obtain ⟨db', hrun⟩ := hrecorded
  rw [← h.run_apply] at hrun
  exact ⟨db', handleEvent_ok.mpr (Or.inr (Or.inr ⟨h.inspected, _, hrun, rfl⟩))⟩

/-- **A handled event was applied, or suppressed as an echo, or left alone**:
quarantined, or skipped as seen before. -/
theorem handleEvent_cases
    (h : engine.run (handleCapacityEvent rt event coordinates) db = .ok (handled, db')) :
    (∃ program, handled = .applied ∧ EventApplied rt event coordinates db program db') ∨
    (∃ program reference, handled = .skipped ∧
      EventEchoed rt event coordinates db program reference db') ∨
    db' = db ∧ ((∃ reason, handled = .quarantined reason) ∨
      handled = .skipped ∧ EventSeen event db) := by
  rcases handleEvent_ok.mp h with
    ⟨hi, rfl, rfl⟩ | ⟨reason, hi, rfl, rfl⟩ | ⟨hi, outcome, happly, rfl⟩
  · exact Or.inr (Or.inr ⟨rfl, Or.inr ⟨rfl, inspectEvent_alreadyApplied hi⟩⟩)
  · exact Or.inr (Or.inr ⟨rfl, Or.inl ⟨reason, rfl⟩⟩)
  · obtain ⟨program, hnew⟩ := inspectEvent_proceed hi
    rcases applyEvent_cases happly with ⟨ho, -⟩ | ⟨program, rfl, ha⟩ | ⟨program, reference, rfl, he⟩
    · rcases applyEvent_new hnew happly with rfl | rfl <;> exact absurd ho id
    · exact Or.inl ⟨program, rfl, ha⟩
    · exact Or.inr (Or.inl ⟨program, reference, rfl, he⟩)

/-! ## Snapshots -/

variable {snapshot : ReconciliationSnapshot}

/-- What is new about a snapshot that is judged. -/
structure NewSnapshot (snapshot : ReconciliationSnapshot) (db : Db) (program : ProgramEntity) :
    Prop where
  found : db.program? (Uuid.ofText snapshot.programId) = some program
  currency : program.currency = snapshot.currency
  id : db.message? snapshot.messageId = none
  version : db.messagesAt program.id .snapshot snapshot.version = []
  notStale : program.treasuryVersion ≤ snapshot.version

omit [Sha256] in
theorem NewSnapshot.head?_messagesAt (h : NewSnapshot snapshot db program) :
    (db.messagesAt (Uuid.ofText snapshot.programId) .snapshot snapshot.version).head? = none := by
  rw [← Db.id_of_program? h.found, h.version]
  rfl

theorem SnapshotApplied.new {marker : SnapshotMarker} {ids : List Uuid}
    {investigationRequired : Bool} {deltas : SnapshotDeltas}
    (h : SnapshotApplied rt snapshot marker coordinates db program ids investigationRequired deltas
      db') : NewSnapshot snapshot db program :=
  ⟨h.found, h.currency, h.id, h.version, h.notStale⟩

/-- A snapshot whose id was processed, or whose version was for its program,
or that is older than one that was. -/
def SnapshotSeen (snapshot : ReconciliationSnapshot) (db : Db) : Prop :=
  (db.message? snapshot.messageId).isSome = true ∨
    ∃ program, db.program? (Uuid.ofText snapshot.programId) = some program ∧
      (snapshot.version < program.treasuryVersion ∨
        db.messagesAt program.id .snapshot snapshot.version ≠ [])

omit [Sha256] in
theorem SnapshotSeen.not_new (h : SnapshotSeen snapshot db) :
    ¬ NewSnapshot snapshot db program := by
  intro hnew
  rcases h with hid | ⟨found, hp, hold⟩
  · simp [hnew.id] at hid
  · obtain rfl : found = program := Option.some.inj (hp.symm.trans hnew.found)
    rcases hold with hstale | hversion
    · exact absurd hnew.notStale (not_le.mpr hstale)
    · exact hversion hnew.version

/-- A snapshot that is inspected as applied before was seen. -/
theorem inspectSnapshot_alreadyApplied (h : inspectSnapshot snapshot db = .ok .alreadyApplied) :
    SnapshotSeen snapshot db := by
  obtain ⟨-, h⟩ := byText_ok.mp h
  split at h
  · rename_i hid
    exact Or.inl hid
  cases hp : db.program? (Uuid.ofText snapshot.programId) with
  | none => rw [hp] at h; cases h
  | some program =>
    simp only [hp] at h
    split at h
    · cases h
    split at h
    · rename_i hstale
      exact Or.inr ⟨program, hp, Or.inl hstale⟩
    split at h
    · unfold atVersion at h
      split at h
      · refine Or.inr ⟨program, hp, Or.inr fun hnil => ?_⟩
        rw [Db.id_of_program? hp] at hnil
        simp [hnil] at h
      · cases h
    · cases h

/-- A snapshot that is let through is in the currency of its program. -/
theorem inspectSnapshot_proceed (h : inspectSnapshot snapshot db = .ok .proceed) :
    db.message? snapshot.messageId = none ∧
      ∃ program, db.program? (Uuid.ofText snapshot.programId) = some program ∧
        program.currency = snapshot.currency := by
  obtain ⟨-, h⟩ := byText_ok.mp h
  split at h
  · cases h
  rename_i hid
  cases hp : db.program? (Uuid.ofText snapshot.programId) with
  | none => rw [hp] at h; cases h
  | some program =>
    simp only [hp] at h
    split at h
    · cases h
    rename_i hcurrency
    exact ⟨by simpa using hid, program, rfl, not_not.mp hcurrency⟩

/-- The reasons to quarantine a snapshot for what it says, and not for when
it came. -/
def contentReasons : List QuarantineReason :=
  [.missingAckMarker, .snapshotInconsistent, .implausibleDelta]

/-- A new snapshot is applied, or quarantined for what it says. -/
theorem applySnapshot_new (hnew : NewSnapshot snapshot db program)
    (h : engine.run (ApplySnapshotService.apply rt snapshot coordinates) db =
      .ok (outcome, db')) :
    outcome = .applied ∨ ∃ reason ∈ contentReasons, outcome = .quarantined reason := by
  have hstale : ¬ snapshot.version < program.treasuryVersion := by
    have := hnew.notStale; omega
  unfold ApplySnapshotService.apply at h
  cases hmarker : snapshot.acknowledgement with
  | none =>
    simp only [hmarker, run_pure, Except.ok.injEq, Prod.mk.injEq] at h
    exact Or.inr ⟨.missingAckMarker, by decide, h.1.symm⟩
  | some marker =>
  simp only [hmarker, run_withProgramLockOr, hnew.found, ApplySnapshotService.applyLocked,
    hnew.currency, ne_eq, not_true_eq_false, if_false, run_selectMessage, byText_ok, hnew.id,
    Option.isSome_none, Bool.false_eq_true, run_selectMessagesAt, hnew.head?_messagesAt,
    hstale] at h
  obtain ⟨-, h⟩ := h
  split at h
  swap
  · cases h
  unfold ApplySnapshotService.applyNew at h
  rw [run_query_of_nil rfl] at h
  simp only [Stmt.exec, Engine.applyAll_nil] at h
  split at h
  · simp only [run_pure, Except.ok.injEq, Prod.mk.injEq] at h
    exact Or.inr ⟨.snapshotInconsistent, by decide, h.1.symm⟩
  split at h
  · simp only [run_pure, Except.ok.injEq, Prod.mk.injEq] at h
    exact Or.inr ⟨.implausibleDelta, by decide, h.1.symm⟩
  · exact Or.inl (applyAccepted_ok hnew.found h).1.1

/-- A new snapshot is inspected as new. -/
theorem NewSnapshot.inspected (h : NewSnapshot snapshot db program)
    (htext : storableText snapshot.messageId = true) (hrange : inBigint snapshot.version = true) :
    inspectSnapshot snapshot db = .ok .proceed := by
  have hstale : ¬ snapshot.version < program.treasuryVersion := not_lt.mpr h.notStale
  simp [inspectSnapshot, byText_ok, htext, h.id, h.found, h.currency, hstale, atVersion, hrange,
    h.head?_messagesAt]

omit [Sha256] in
/-- The rows a marker acknowledges can be written where they meet their checks. -/
theorem run_acknowledgeReservations {α : Type} {k : Unit → Transaction α} {ids : List Uuid}
    {version : Int} {now : Timestamp} (hchecked : ∀ row ∈ Stmt.acknowledgedRows db p ids,
      ∀ c ∈ reservationChecks (Stmt.acknowledged version now row), c.1 = true) :
    engine.run (if ids.length > 0 then
        query (.acknowledgeReservations p ids version now) >>= k else k ()) db =
      engine.run (k ()) (db.apply (.reservations
        ((Stmt.acknowledgedRows db p ids).map (Stmt.acknowledged version now)))) := by
  split
  · have hexec : Stmt.exec (.acknowledgeReservations p ids version now) db =
        .ok ((), [.reservations ((Stmt.acknowledgedRows db p ids).map
          (Stmt.acknowledged version now))]) := by
      simp only [Stmt.exec, Stmt.updateReservations, guarded_ok, and_true]
      intro c hc
      obtain ⟨row, hrow, hc⟩ := List.mem_flatMap.mp hc
      exact hchecked row hrow c hc
    rw [run_query_of_exec (by simp [Stmt.parameters]) hexec]
    rfl
  · rename_i hids
    have hnil : ids = [] := List.eq_nil_of_length_eq_zero (by omega)
    subst hnil
    simp [Stmt.acknowledgedRows, Db.apply]

/-- A decision that meets every constraint is written. -/
theorem run_applyAccepted {marker : SnapshotMarker} {ids : List Uuid}
    {investigationRequired : Bool} {deltas : SnapshotDeltas} (h : NewSnapshot snapshot db program)
    (hstorable : snapshot.Storable) (hcarried : snapshot.acknowledgement = some marker)
    (hrange : inBigint snapshot.version = true)
    (hpersist : Persistable db program (snapshotAdvance rt snapshot program deltas) true)
    (hexplicit : (marker.kind == .explicit) = marker.reservationReferences.isSome)
    (hwatermark : (marker.kind == .watermark) = marker.ingestedThrough.isSome)
    (hnew : db.acknowledgement? snapshot.messageId = none)
    (hchecked : ∀ row ∈ Stmt.acknowledgedRows db program.id ids,
      ∀ c ∈ reservationChecks (Stmt.acknowledged snapshot.version rt.now row), c.1 = true) :
    ∃ db', engine.run (ApplySnapshotService.applyAccepted rt snapshot marker coordinates program ids
      investigationRequired deltas) db = .ok (.applied, db') := by
  have hid := Db.id_of_program? h.found
  -- the states between the statements, each by a name
  have hmessage : Stmt.exec (.insertSnapshotMessage (ApplySnapshotService.messageRow rt snapshot))
      db = .ok ((), [.message (ApplySnapshotService.messageRow rt snapshot)]) := by
    simp [Stmt.exec, guarded_ok, Constraint.bigint, Constraint.unique,
      ApplySnapshotService.messageRow, hrange, h.id]
  obtain ⟨c, hc⟩ : ∃ c, c = db.apply (.message (ApplySnapshotService.messageRow rt snapshot)) :=
    ⟨_, rfl⟩
  have hfound : c.program? (Uuid.ofText snapshot.programId) = some program := by
    rw [hc]; simpa using h.found
  obtain ⟨c₁, hc₁⟩ : ∃ c₁, c₁ = engine.applyAll
      (advanceWrites program (snapshotAdvance rt snapshot program deltas) rt.now) c := ⟨_, rfl⟩
  have hadvance : engine.run (persistAdvance snapshot.programId
      (snapshotAdvance rt snapshot program deltas) rt.now true) c = .ok ((), c₁) :=
    (run_persistAdvance_ok hfound).mpr ⟨hpersist.congr (by rw [hc]; simp), hc₁⟩
  have hrow : c₁.program? (Uuid.ofText snapshot.programId) = some (Stmt.withPosition program
      (snapshotAdvance rt snapshot program deltas).program rt.now) := by
    rw [hc₁]; simp [advanceWrites, Stmt.withPosition, snapshotAdvance, hid]
  have hversion : Stmt.exec (.updateTreasuryVersion (Uuid.ofText snapshot.programId)
      snapshot.version snapshot.effectiveAt investigationRequired) c₁ =
        .ok ((), [.program (snapshotRow rt snapshot program investigationRequired deltas)]) := by
    simp [Stmt.exec, guarded_ok, Constraint.bigint, hrange, hrow, snapshotRow]
  obtain ⟨c₂, hc₂⟩ : ∃ c₂, c₂ = c₁.apply
      (.program (snapshotRow rt snapshot program investigationRequired deltas)) := ⟨_, rfl⟩
  have hmarker : Stmt.exec (.insertAcknowledgement
      (ApplySnapshotService.acknowledgementRow snapshot marker)) c₂ =
        .ok ((), [.acknowledgement (ApplySnapshotService.acknowledgementRow snapshot marker)]) := by
    simp only [Stmt.exec, guarded_ok, List.forall_mem_cons, Constraint.bigint, Constraint.check,
      Constraint.unique, Constraint.foreignKey, and_true, beq_iff_eq]
    refine ⟨hrange, hexplicit, hwatermark, ?_, ?_, by simp⟩
    · rw [hc₂, hc₁, hc]
      simpa [advanceWrites, ApplySnapshotService.acknowledgementRow] using hnew
    · rw [hc₂, hc₁, hc]
      simp [advanceWrites, ApplySnapshotService.acknowledgementRow,
        ApplySnapshotService.messageRow]
  obtain ⟨c₃, hc₃⟩ : ∃ c₃, c₃ = c₂.apply
      (.acknowledgement (ApplySnapshotService.acknowledgementRow snapshot marker)) := ⟨_, rfl⟩
  have hrows : Stmt.acknowledgedRows c₃ (Uuid.ofText snapshot.programId) ids =
      Stmt.acknowledgedRows db program.id ids := by
    rw [hc₃, hc₂, hc₁, hc, hid]; simp [Stmt.acknowledgedRows, advanceWrites]
  have hprogram : (c₃.program? (Uuid.ofText snapshot.programId)).isSome = true := by
    rw [hc₃, hc₂, hc₁, hc]
    simp [advanceWrites, snapshotRow, Stmt.withTreasuryVersion, Stmt.withPosition, hid]
  have hrest : ∃ db', engine.run (do
      if ids.length > 0 then
        query (.acknowledgeReservations (Uuid.ofText snapshot.programId) ids snapshot.version
          rt.now)
      query (.upsertStreamPosition (Uuid.ofText snapshot.programId) coordinates rt.now)
      return ApplyOutcome.applied) c₃ = .ok (.applied, db') := by
    have hstep := @run_acknowledgeReservations c₃ (Uuid.ofText snapshot.programId) _ (fun _ => do
      query (.upsertStreamPosition (Uuid.ofText snapshot.programId) coordinates rt.now)
      return ApplyOutcome.applied) ids snapshot.version rt.now (by rw [hrows]; exact hchecked)
    rw [run_upsertStreamPosition (by simpa using hprogram)] at hstep
    exact ⟨_, hstep⟩
  obtain ⟨db', hrest⟩ := hrest
  refine ⟨db', ?_⟩
  unfold ApplySnapshotService.applyAccepted
  have hparameters : ∀ c ∈ (Stmt.insertAcknowledgement
      (ApplySnapshotService.acknowledgementRow snapshot marker)).parameters, c.1 = true := by
    simp only [Stmt.parameters, ApplySnapshotService.acknowledgementRow, List.forall_mem_cons,
      List.forall_mem_append, List.forall_mem_map, Option.mem_toList]
    exact ⟨hstorable.messageId, hstorable.references marker hcarried,
      hstorable.ingestedThrough marker hcarried⟩
  rw [run_query_of_exec (by exact Constraint.forall_text hstorable.messageId) hmessage,
    engine_applyAll_cons, Engine.applyAll_nil, ← hc]
  refine Engine.run_bind_ok.mpr ⟨(), c₁, hadvance, ?_⟩
  rw [run_query_of_exec (by exact Constraint.forall_timestamptz hstorable.effectiveAt) hversion,
    engine_applyAll_cons, Engine.applyAll_nil, ← hc₂,
    run_query_of_exec hparameters hmarker, engine_applyAll_cons, Engine.applyAll_nil, ← hc₃]
  exact hrest

/-- **A new snapshot is applied where its decision can be written.** -/
theorem NewSnapshot.applied {marker : SnapshotMarker} {ids : List Uuid}
    {investigationRequired : Bool} {deltas : SnapshotDeltas} (h : NewSnapshot snapshot db program)
    (hstorable : snapshot.Storable) (hcarried : snapshot.acknowledgement = some marker)
    (hrange : inBigint snapshot.version = true)
    (hdecided : snapshotDecision snapshot marker db program =
      .apply ids investigationRequired deltas)
    (hguard : ApplySnapshotService.exceedsMagnitudeGuard rt deltas.treasury
      program.creditLimitMinor = false)
    (hpersist : Persistable db program (snapshotAdvance rt snapshot program deltas) true)
    (hexplicit : (marker.kind == .explicit) = marker.reservationReferences.isSome)
    (hwatermark : (marker.kind == .watermark) = marker.ingestedThrough.isSome)
    (hnew : db.acknowledgement? snapshot.messageId = none)
    (hchecked : ∀ row ∈ Stmt.acknowledgedRows db program.id ids,
      ∀ c ∈ reservationChecks (Stmt.acknowledged snapshot.version rt.now row), c.1 = true) :
    ∃ db', engine.run (handleReconciliationSnapshot rt snapshot coordinates) db =
      .ok (.applied, db') := by
  obtain ⟨db', hrun⟩ := @run_applyAccepted _ db rt program coordinates snapshot marker ids
    investigationRequired deltas h hstorable hcarried hrange hpersist hexplicit hwatermark hnew
    hchecked
  have hid := Db.id_of_program? h.found
  have hstale : ¬ snapshot.version < program.treasuryVersion := not_lt.mpr h.notStale
  rw [snapshotDecision, hid] at hdecided
  have happly : engine.run (ApplySnapshotService.apply rt snapshot coordinates) db =
      .ok (.applied, db') := by
    simp only [ApplySnapshotService.apply, hcarried, run_withProgramLockOr, h.found,
      ApplySnapshotService.applyLocked, h.currency, ne_eq, not_true_eq_false, if_false,
      run_selectMessage, byText_ok, hstorable.messageId, true_and, h.id, Option.isSome_none,
      Bool.false_eq_true, run_selectMessagesAt, h.head?_messagesAt, hstale, hrange, if_true]
    unfold ApplySnapshotService.applyNew
    rw [run_query_of_nil rfl]
    simp only [Stmt.exec, Engine.applyAll_nil, hdecided, hguard, Bool.false_eq_true, if_false]
    exact hrun
  exact ⟨db', handleSnapshot_ok.mpr (Or.inr (Or.inr ⟨h.inspected hstorable.messageId hrange, _,
    happly, rfl⟩))⟩

/-- **A handled snapshot was applied, or left alone**: quarantined, or
skipped as seen before. -/
theorem handleSnapshot_cases
    (h : engine.run (handleReconciliationSnapshot rt snapshot coordinates) db =
      .ok (handled, db')) :
    (handled = .applied ∧ ∃ marker program ids investigationRequired deltas,
      SnapshotApplied rt snapshot marker coordinates db program ids investigationRequired deltas
        db') ∨
    db' = db ∧ ((∃ reason, handled = .quarantined reason) ∨
      handled = .skipped ∧ SnapshotSeen snapshot db) := by
  rcases handleSnapshot_ok.mp h with
    ⟨hi, rfl, rfl⟩ | ⟨reason, hi, rfl, rfl⟩ | ⟨hi, outcome, happly, rfl⟩
  · exact Or.inr ⟨rfl, Or.inr ⟨rfl, inspectSnapshot_alreadyApplied hi⟩⟩
  · exact Or.inr ⟨rfl, Or.inl ⟨reason, rfl⟩⟩
  · rcases applySnapshot_cases happly with ⟨ho, hdb⟩ | ⟨rfl, ha⟩
    · refine Or.inr ⟨hdb, ?_⟩
      cases outcome with
      | applied => exact absurd ho id
      | echoSuppressed => exact absurd ho id
      | quarantined reason => exact Or.inl ⟨reason, rfl⟩
      | alreadyApplied =>
        refine Or.inr ⟨rfl, not_not.mp fun hseen => ?_⟩
        obtain ⟨hid, program, hp, hcurrency⟩ := inspectSnapshot_proceed hi
        have hnew : NewSnapshot snapshot db program :=
          ⟨hp, hcurrency, hid,
            not_not.mp fun hversion => hseen (Or.inr ⟨program, hp, Or.inr hversion⟩),
            not_lt.mp fun hstale => hseen (Or.inr ⟨program, hp, Or.inl hstale⟩)⟩
        rcases applySnapshot_new hnew happly with he | ⟨reason, -, he⟩ <;> cases he
    · exact Or.inl ⟨rfl, ha⟩

end InvoiceReservation
