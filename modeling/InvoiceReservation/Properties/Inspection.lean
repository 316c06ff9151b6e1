import InvoiceReservation.Properties.Acknowledgements
/-!
# The check and the application

A message is inspected without a lock, and applied under one. The two
services test identity, version, staleness and content in different orders,
and the snapshot's inspection looks for a message of its version only where
that is the program's own. Reachable states make them agree: no snapshot
that was processed is newer than its program's treasury version.
-/

namespace InvoiceReservation

open Transactions

variable [Sha256] {db db' : Db} {rt : Runtime} {coordinates : StreamCoordinates}
variable {program : ProgramEntity} {outcome : ApplyOutcome}

/-- What an inspection that lets a message through rules out. -/
def ruledOut : List ApplyOutcome :=
  [.alreadyApplied, .quarantined .unknownProgram, .quarantined .currencyMismatch,
    .quarantined .versionConflict]

/-- **An inspection that agrees with its application**, both run on one
state. -/
structure InspectionAgrees (db : Db) (inspect : Transaction InspectOutcome)
    (apply : Transaction ApplyOutcome) : Prop where
  /-- What is let through is not refused for what the inspection tests. -/
  proceeds : ∀ c outcome db', engine.run inspect db = .ok (.proceed, c) →
    engine.run apply db = .ok (outcome, db') → outcome ∉ ruledOut
  /-- What is not let through changes nothing. -/
  otherwise : (∀ c, engine.run inspect db ≠ .ok (.proceed, c)) → engine.effect apply db = db
  /-- Nothing is changed but by what is applied, or suppressed as an echo. -/
  idle : (∀ db', engine.run apply db ≠ .ok (.applied, db') ∧
    engine.run apply db ≠ .ok (.echoSuppressed, db')) → engine.effect apply db = db

omit [Sha256] in
/-- Two services agree where each application that is not idle was let
through, and what was let through is not ruled out. -/
theorem InspectionAgrees.of_cases {inspect : Transaction InspectOutcome}
    {apply : Transaction ApplyOutcome}
    (hproceeds : ∀ c outcome db', engine.run inspect db = .ok (.proceed, c) →
      engine.run apply db = .ok (outcome, db') → outcome ∉ ruledOut)
    (hcases : ∀ outcome db', engine.run apply db = .ok (outcome, db') → outcome.Idle ∧ db' = db ∨
      (outcome = .applied ∨ outcome = .echoSuppressed) ∧
        engine.run inspect db = .ok (.proceed, db)) :
    InspectionAgrees db inspect apply := by
  refine ⟨hproceeds, fun hrefused => ?_, fun hidle => ?_⟩
  · refine Engine.effect_induct (P := (· = db)) rfl fun outcome db' happly => ?_
    rcases hcases outcome db' happly with ⟨-, hsame⟩ | ⟨-, hlet⟩
    · exact hsame
    · exact absurd hlet (hrefused db)
  · refine Engine.effect_induct (P := (· = db)) rfl fun outcome db' happly => ?_
    rcases hcases outcome db' happly with ⟨-, hsame⟩ | ⟨rfl | rfl, -⟩
    · exact hsame
    · exact absurd happly (hidle db').1
    · exact absurd happly (hidle db').2

/-! ## Events -/

variable {event : CapacityEvent}

theorem run_inspectEvent_proceed {c : Db} :
    engine.run (ApplyTreasuryEventService.inspect event) db = .ok (.proceed, c) ↔
      inspectEvent event db = .ok .proceed ∧ c = db := by
  rw [run_inspectEvent]
  cases inspectEvent event db <;> simp [Except.map, eq_comm]

/-- **The event service agrees in every state**: under the lock the one test
it leaves out, of the message's identity, is the insertion's. -/
theorem inspection_agrees_event : InspectionAgrees db (ApplyTreasuryEventService.inspect event)
    (ApplyTreasuryEventService.apply rt event coordinates) := by
  refine .of_cases (fun c outcome db' hinspect happly => ?_) fun outcome db' happly => ?_
  · obtain ⟨program, hnew⟩ := inspectEvent_proceed (run_inspectEvent_proceed.mp hinspect).1
    rcases applyEvent_new hnew happly with rfl | rfl <;> decide
  · have hlet : ∀ {program : ProgramEntity}, NewEvent event db program →
        engine.run (ApplyTreasuryEventService.inspect event) db = .ok (.proceed, db) :=
      fun hnew => run_inspectEvent_proceed.mpr ⟨hnew.inspected, rfl⟩
    rcases applyEvent_cases happly with hidle | ⟨program, rfl, ha⟩ | ⟨program, reference, rfl, he⟩
    · exact Or.inl hidle
    · exact Or.inr ⟨Or.inl rfl, hlet ha.toNewEvent⟩
    · exact Or.inr ⟨Or.inr rfl, hlet he.toNewEvent⟩

/-! ## Snapshots -/

variable {snapshot : ReconciliationSnapshot}

theorem run_inspectSnapshot_proceed {c : Db} :
    engine.run (ApplySnapshotService.inspect snapshot) db = .ok (.proceed, c) ↔
      inspectSnapshot snapshot db = .ok .proceed ∧ c = db := by
  rw [run_inspectSnapshot]
  cases inspectSnapshot snapshot db <;> simp [Except.map, eq_comm]

/-- What an inspection that lets a snapshot through has seen: content was
only compared at the program's own version. -/
theorem inspectSnapshot_current (h : inspectSnapshot snapshot db = .ok .proceed)
    (hp : db.program? (Uuid.ofText snapshot.programId) = some program) :
    program.treasuryVersion ≤ snapshot.version ∧
      (snapshot.version = program.treasuryVersion →
        db.messagesAt program.id .snapshot snapshot.version = []) := by
  have hid := Db.id_of_program? hp
  obtain ⟨-, h⟩ := byText_ok.mp h
  split at h
  · cases h
  simp only [hp] at h
  split at h
  · cases h
  split at h
  · cases h
  rename_i hstale
  refine ⟨not_lt.mp hstale, fun hcurrent => ?_⟩
  rw [if_pos hcurrent] at h
  unfold atVersion at h
  split at h
  swap
  · cases h
  rw [hid]
  cases hrows : (db.messagesAt (Uuid.ofText snapshot.programId) .snapshot snapshot.version).head?
    with
  | none => exact List.head?_eq_none_iff.mp hrows
  | some existing =>
    simp only [hrows, Except.ok.injEq] at h
    split at h <;> cases h

/-- **A snapshot that is let through is new**, where no snapshot that was
processed is newer than the treasury version. -/
theorem Versioned.newSnapshot (h : Versioned (Uuid.ofText snapshot.programId) db)
    (hinspect : inspectSnapshot snapshot db = .ok .proceed) :
    ∃ program, NewSnapshot snapshot db program := by
  obtain ⟨hmessage, program, hp, hcurrency⟩ := inspectSnapshot_proceed hinspect
  obtain ⟨hnotStale, hcurrent⟩ := inspectSnapshot_current hinspect hp
  refine ⟨program, hp, hcurrency, hmessage, ?_, hnotStale⟩
  rcases hnotStale.lt_or_eq with hnewer | hsame
  · -- a message of a newer version would be newer than the treasury version
    refine List.filter_eq_nil_iff.mpr fun row hrow => ?_
    intro hat
    obtain ⟨hkind, hversion⟩ := of_decide_eq_true hat
    rw [Db.id_of_program? hp] at hrow
    obtain ⟨found, hfound, hle⟩ := h.newest row hrow hkind
    obtain rfl : found = program := Option.some.inj (hfound.symm.trans hp)
    omega
  · exact hcurrent hsame.symm

/-- **The snapshot service agrees where its program's messages are
versioned.** -/
theorem Versioned.inspection_agrees_snapshot (h : Versioned (Uuid.ofText snapshot.programId) db) :
    InspectionAgrees db (ApplySnapshotService.inspect snapshot)
      (ApplySnapshotService.apply rt snapshot coordinates) := by
  refine .of_cases (fun c outcome db' hinspect happly => ?_) fun outcome db' happly => ?_
  · obtain ⟨program, hnew⟩ := h.newSnapshot (run_inspectSnapshot_proceed.mp hinspect).1
    rcases applySnapshot_new hnew happly with rfl | ⟨reason, hreason, rfl⟩
    · decide
    · have hcontent : ∀ reason ∈ contentReasons, ApplyOutcome.quarantined reason ∉ ruledOut := by
        decide
      exact hcontent reason hreason
  · rcases applySnapshot_cases happly with
      hidle | ⟨rfl, marker, program, ids, investigationRequired, deltas, ha⟩
    · exact Or.inl hidle
    · exact Or.inr ⟨Or.inl rfl,
        run_inspectSnapshot_proceed.mpr
          ⟨ha.new.inspected ha.storable.messageId ha.versionRange, rfl⟩⟩

/-! ## Reachable states -/

/-- **The unlocked check and the locked application agree.** In every
reachable state, and for every event and every snapshot: where the
inspection lets the message through, its application on the same state does
not answer that it was applied before, nor that its program is unknown, its
currency another, or its version in conflict; where the inspection does not,
the application changes nothing; and an application changes nothing unless
it answers applied or suppressed as an echo. -/
theorem inspection_agrees_with_application (organisations : List Uuid) (ops : List Operation) :
    let db := Operation.run ops (Db.initial organisations)
    (∀ rt event coordinates, InspectionAgrees db (ApplyTreasuryEventService.inspect event)
      (ApplyTreasuryEventService.apply rt event coordinates)) ∧
    ∀ rt snapshot coordinates, InspectionAgrees db (ApplySnapshotService.inspect snapshot)
      (ApplySnapshotService.apply rt snapshot coordinates) :=
  ⟨fun _ _ _ => inspection_agrees_event, fun _ snapshot _ =>
    ((Versioned.of_nil (p := Uuid.ofText snapshot.programId) rfl).run
      ops).inspection_agrees_snapshot⟩

end InvoiceReservation
