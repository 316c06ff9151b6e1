import InvoiceReservation.Helpers.Advance
import InvoiceReservation.Helpers.Deliveries
import InvoiceReservation.Helpers.Writes
import InvoiceReservation.Model.Locking
/-!
# What an operation can change

`Change` lists what one committed transaction can do to the database,
whichever operation it belongs to. An invariant is shown for each of its
cases once, and `run_induct` carries it over every run: an operation that
is refused, quarantined, replayed or rolled back changes nothing.
-/

namespace InvoiceReservation

open Transactions

variable [Sha256] {db db' : Db}

/-- What one committed transaction can have done. -/
inductive Change (db : Db) : Db → Prop
  | reserved {rt : Runtime} {command : ReserveCommand} {program : ProgramEntity}
      {reservedMinor : Int} {fx : Option FxRate} {outcome : WriteOutcome} {db' : Db} :
      db.program? program.id = some program →
      Reserved rt command db program reservedMinor fx outcome db' → Change db db'
  | released {rt : Runtime} {command : ReleaseCommand} {program : ProgramEntity}
      {row : InvoiceReservationEntity} {scaledRate : Int} {applied : ReleaseDecision}
      {outcome : WriteOutcome} {db' : Db} :
      db.program? program.id = some program →
      scaleRate ((row.fxRate.map numericText).getD "1.0") = .ok scaledRate →
      releasePolicy command.releaseMinor command.currency row.snapshot scaledRate =
        .ok (.ok applied) →
      Settled rt command.identity command.invoiceId (command.entry applied)
        (releasedRow applied rt.now) db program row outcome db' → Change db db'
  | cancelled {rt : Runtime} {command : CancelCommand} {program : ProgramEntity}
      {row : InvoiceReservationEntity} {applied : CancelDecision} {outcome : WriteOutcome}
      {db' : Db} :
      db.program? program.id = some program →
      cancelPolicy row.snapshot = .ok applied →
      Settled rt command.identity command.invoiceId (command.entry applied)
        (cancelledRow applied rt.now) db program row outcome db' → Change db db'
  | applied {rt : Runtime} {event : CapacityEvent} {coordinates : StreamCoordinates}
      {program : ProgramEntity} {db' : Db} :
      EventApplied rt event coordinates db program db' → Change db db'
  | echoed {rt : Runtime} {event : CapacityEvent} {coordinates : StreamCoordinates}
      {program : ProgramEntity} {reference : String} {db' : Db} :
      EventEchoed rt event coordinates db program reference db' → Change db db'
  | corrected {rt : Runtime} {snapshot : ReconciliationSnapshot} {marker : SnapshotMarker}
      {coordinates : StreamCoordinates} {program : ProgramEntity} {ids : List Uuid}
      {investigationRequired : Bool} {deltas : SnapshotDeltas} {db' : Db} :
      SnapshotApplied rt snapshot marker coordinates db program ids investigationRequired deltas
        db' → Change db db'
  | seeded {seed : ProgramSeed} {now : Timestamp} {program : ProgramEntity} :
      program = Stmt.newProgram (Uuid.ofText seed.id) seed.organisationId seed.currency now →
      db.program? program.id = none →
      Persistable db program (advancePosition program.toProgramPosition [seed.entry] now) false →
      Change db (engine.applyAll (.program program ::
        advanceWrites program (advancePosition program.toProgramPosition [seed.entry] now) now) db)
  | swept (cutoff : Timestamp) :
      Change db (db.apply (.requests
        ((db.requests.filter fun row => row.state = .complete ∧ row.recordedAt < cutoff).map
          fun row => { row with state := .expired, outcome := none })))
  | flagged {program : ProgramEntity} (investigationRequired positionVerified : Bool) :
      db.program? program.id = some program →
      Change db (db.apply (.program { program with
        investigationRequired := investigationRequired, positionVerified := positionVerified }))

/-- One change, or none. -/
abbrev AtMostOne : Db → Db → Prop := Relation.ReflGen Change

/-- Any number of changes. -/
abbrev Changes : Db → Db → Prop := Relation.ReflTransGen Change

omit [Sha256] in
theorem program?_id {p : Uuid} {program : ProgramEntity} (h : db.program? p = some program) :
    db.program? program.id = some program := by
  rw [Db.id_of_program? h, h]

theorem reserve_change {rt : Runtime} {command : ReserveCommand} {outcome : WriteOutcome}
    (h : engine.run (reserve rt command) db = .ok (outcome, db')) : AtMostOne db db' := by
  obtain ⟨program, hp, ⟨-, rfl⟩ | ⟨reservedMinor, fx, hr⟩⟩ := reserve_cases h
  · exact .refl
  · exact .single (.reserved (program?_id hp) hr)

theorem release_change {rt : Runtime} {command : ReleaseCommand} {outcome : WriteOutcome}
    (h : engine.run (release rt command) db = .ok (outcome, db')) : AtMostOne db db' := by
  obtain ⟨program, hp, ⟨-, rfl⟩ | ⟨row, rate, applied, hrate, hd, hs⟩⟩ := release_cases h
  · exact .refl
  · exact .single (.released (program?_id hp) hrate hd hs)

theorem cancel_change {rt : Runtime} {command : CancelCommand} {outcome : WriteOutcome}
    (h : engine.run (cancel rt command) db = .ok (outcome, db')) : AtMostOne db db' := by
  obtain ⟨program, hp, ⟨-, rfl⟩ | ⟨row, applied, hd, hs⟩⟩ := cancel_cases h
  · exact .refl
  · exact .single (.cancelled (program?_id hp) hd hs)

theorem runSeed_changes {now : Timestamp} {seeds : List ProgramSeed} {u : Unit}
    (h : engine.run (runSeed now seeds) db = .ok (u, db')) : Changes db db' :=
  runSeed_induct (motive := fun c => Changes c db') h .refl fun hp hnone hpersist hrest =>
    Relation.ReflTransGen.head (Change.seeded hp hnone hpersist) hrest

theorem applyEvent_change {rt : Runtime} {event : CapacityEvent} {outcome : ApplyOutcome}
    {coordinates : StreamCoordinates}
    (h : engine.run (ApplyTreasuryEventService.apply rt event coordinates) db =
      .ok (outcome, db')) : AtMostOne db db' := by
  rcases applyEvent_cases h with ⟨-, rfl⟩ | ⟨program, -, ha⟩ | ⟨program, reference, -, he⟩
  · exact .refl
  · exact .single (.applied ha)
  · exact .single (.echoed he)

theorem applySnapshot_change {rt : Runtime} {snapshot : ReconciliationSnapshot}
    {outcome : ApplyOutcome} {coordinates : StreamCoordinates}
    (h : engine.run (ApplySnapshotService.apply rt snapshot coordinates) db =
      .ok (outcome, db')) : AtMostOne db db' := by
  rcases applySnapshot_cases h with ⟨-, rfl⟩ | ⟨-, _, _, _, _, _, ha⟩
  · exact .refl
  · exact .single (.corrected ha)

theorem handleEvent_change {rt : Runtime} {event : CapacityEvent} {handled : HandleOutcome}
    {coordinates : StreamCoordinates}
    (h : engine.run (handleCapacityEvent rt event coordinates) db = .ok (handled, db')) :
    AtMostOne db db' := by
  rcases handleEvent_ok.mp h with ⟨-, -, rfl⟩ | ⟨_, -, -, rfl⟩ | ⟨-, outcome, happly, -⟩
  · exact .refl
  · exact .refl
  · exact applyEvent_change happly

theorem handleSnapshot_change {rt : Runtime} {snapshot : ReconciliationSnapshot}
    {handled : HandleOutcome} {coordinates : StreamCoordinates}
    (h : engine.run (handleReconciliationSnapshot rt snapshot coordinates) db =
      .ok (handled, db')) : AtMostOne db db' := by
  rcases handleSnapshot_ok.mp h with ⟨-, -, rfl⟩ | ⟨_, -, -, rfl⟩ | ⟨-, outcome, happly, -⟩
  · exact .refl
  · exact .refl
  · exact applySnapshot_change happly

/-- A statement that rewrites one program's flags, if the program is there. -/
theorem flag_change {p : Uuid} {s : Stmt Unit} {u : Unit} (rows : List ProgramEntity)
    (hs : Stmt.exec s db = .ok ((), rows.map .program)) (hrows : rows = [] ∨ ∃ program b v,
      db.program? p = some program ∧
        rows = [{ program with investigationRequired := b, positionVerified := v }])
    (h : engine.run (query s) db = .ok (u, db')) : AtMostOne db db' := by
  obtain ⟨ws, hx, rfl⟩ := Engine.run_perform_ok.mp h
  obtain rfl : rows.map .program = ws :=
    congrArg Prod.snd (Except.ok.inj (hs.symm.trans (Stmt.exec_of_send hx)))
  rcases hrows with rfl | ⟨program, b, v, hp, rfl⟩
  · exact .refl
  · exact .single (.flagged b v (program?_id hp))

/-- The sweep rewrites request records. -/
theorem Operation.sweep_ok {now : Timestamp} {days : Int} {reply : Reply}
    (h : engine.run (Operation.sweep now days).tx db = .ok (reply, db')) :
    ∃ rows, db' = db.apply (.requests rows) := by
  obtain ⟨n, h, -⟩ := Engine.run_map_ok.mp h
  obtain ⟨ws, hx, rfl⟩ := Engine.run_perform_ok.mp h
  replace hx := Stmt.exec_of_send hx
  simp only [Stmt.exec, Except.ok.injEq, Prod.mk.injEq] at hx
  obtain ⟨-, rfl⟩ := hx
  exact ⟨_, rfl⟩

/-- What the checks flag are versions of programs. -/
theorem Operation.flags_ok {op : Operation} {p : Uuid} {reply : Reply}
    (hop : op = .flagInvestigation p ∨ op = .holdProgram p)
    (h : engine.run op.tx db = .ok (reply, db')) :
    ∃ (f : ProgramEntity → ProgramEntity) (rows : List ProgramEntity),
      db' = engine.applyAll (rows.map fun row => .program (f row)) db := by
  rcases hop with rfl | rfl
  all_goals
    obtain ⟨u, h, -⟩ := Engine.run_map_ok.mp h
    obtain ⟨ws, hx, rfl⟩ := Engine.run_perform_ok.mp h
    replace hx := Stmt.exec_of_send hx
    simp only [Stmt.exec, Except.ok.injEq, Prod.mk.injEq] at hx
    obtain ⟨-, rfl⟩ := hx
    exact ⟨_, _, rfl⟩

/-- **Whatever an operation commits is a change, or none**, but for the seed,
which inserts one program after another. -/
theorem Operation.change_or_seed {op : Operation} {reply : Reply}
    (h : engine.run op.tx db = .ok (reply, db')) : AtMostOne db db' ∨
      ∃ now seeds, op = .seed now seeds ∧ engine.run (runSeed now seeds) db = .ok ((), db') := by
  cases op with
  | reserve rt command =>
    obtain ⟨outcome, h, -⟩ := Engine.run_map_ok.mp h
    exact Or.inl (reserve_change h)
  | release rt command =>
    obtain ⟨outcome, h, -⟩ := Engine.run_map_ok.mp h
    exact Or.inl (release_change h)
  | cancel rt command =>
    obtain ⟨outcome, h, -⟩ := Engine.run_map_ok.mp h
    exact Or.inl (cancel_change h)
  | event rt message coordinates =>
    obtain ⟨outcome, h, -⟩ := Engine.run_map_ok.mp h
    exact Or.inl (handleEvent_change h)
  | snapshot rt message coordinates =>
    obtain ⟨outcome, h, -⟩ := Engine.run_map_ok.mp h
    exact Or.inl (handleSnapshot_change h)
  | seed now programs =>
    obtain ⟨u, h, -⟩ := Engine.run_map_ok.mp h
    exact Or.inr ⟨now, programs, rfl, h⟩
  | sweep now days =>
    obtain ⟨n, h, -⟩ := Engine.run_map_ok.mp h
    obtain ⟨ws, hx, rfl⟩ := Engine.run_perform_ok.mp h
    replace hx := Stmt.exec_of_send hx
    simp only [Stmt.exec, Except.ok.injEq, Prod.mk.injEq] at hx
    obtain ⟨-, rfl⟩ := hx
    exact Or.inl (.single (.swept _))
  | flagInvestigation p =>
    obtain ⟨u, h, -⟩ := Engine.run_map_ok.mp h
    refine Or.inl (flag_change (p := p) ((((db.program? p).toList.filter
      (!·.investigationRequired)).map fun row => { row with investigationRequired := true }))
      (by simp [Stmt.exec, List.map_map, Function.comp_def]) ?_ h)
    cases hp : db.program? p with
    | none => exact Or.inl rfl
    | some program =>
      cases hi : program.investigationRequired with
      | true => exact Or.inl (by simp [hi])
      | false => exact Or.inr ⟨program, true, program.positionVerified, rfl, by simp [hi]⟩
  | holdProgram p =>
    obtain ⟨u, h, -⟩ := Engine.run_map_ok.mp h
    refine Or.inl (flag_change (p := p) ((db.program? p).toList.map fun row =>
      { row with positionVerified := false }) (by simp [Stmt.exec, List.map_map, Function.comp_def])
      ?_ h)
    cases hp : db.program? p with
    | none => exact Or.inl rfl
    | some program => exact Or.inr ⟨program, program.investigationRequired, false, rfl, rfl⟩

/-- **Whatever an operation commits is a change, or several, or none.** -/
theorem Operation.changes {op : Operation} {reply : Reply}
    (h : engine.run op.tx db = .ok (reply, db')) : Changes db db' := by
  rcases op.change_or_seed h with h | ⟨now, seeds, -, h⟩
  · exact h.to_reflTransGen
  · exact runSeed_changes h

/-! ## Locked transactions -/

/-- The transaction of an apply does what the apply does. -/
theorem run_eventTransaction {rt : Runtime} {event : CapacityEvent}
    {coordinates : StreamCoordinates} {r : ApplyOutcome × Db}
    (h : engine.run (eventTransaction rt event coordinates) db = .ok r) :
    engine.run (ApplyTreasuryEventService.apply rt event coordinates) db = .ok r := by
  rw [eventTransaction, withProgramLock, run_withProgramLockOr] at h
  rw [ApplyTreasuryEventService.apply, run_withProgramLockOr]
  cases hp : db.program? (Uuid.ofText event.programId) with
  | none => simp [hp] at h
  | some program => simpa [hp] using h

theorem run_snapshotTransaction {rt : Runtime} {snapshot : ReconciliationSnapshot}
    {coordinates : StreamCoordinates} {r : ApplyOutcome × Db}
    (h : engine.run (snapshotTransaction rt snapshot coordinates) db = .ok r) :
    engine.run (ApplySnapshotService.apply rt snapshot coordinates) db = .ok r := by
  unfold snapshotTransaction at h
  unfold ApplySnapshotService.apply
  cases hmarker : snapshot.acknowledgement with
  | none => rw [hmarker] at h; exact h
  | some marker =>
    simp only [hmarker, withProgramLock, run_withProgramLockOr] at h
    dsimp only
    rw [run_withProgramLockOr]
    cases hp : db.program? (Uuid.ofText snapshot.programId) with
    | none => simp [hp] at h
    | some program => simpa [hp] using h

/-- **Whatever a locked transaction commits is a change, or none.** -/
theorem LockedTransaction.change {t : LockedTransaction} {reply : LockedReply}
    (h : engine.run t.tx db = .ok (reply, db')) : AtMostOne db db' := by
  cases t with
  | reserve rt command =>
    obtain ⟨outcome, h, -⟩ := Engine.run_map_ok.mp h
    exact reserve_change h
  | release rt command =>
    obtain ⟨outcome, h, -⟩ := Engine.run_map_ok.mp h
    exact release_change h
  | cancel rt command =>
    obtain ⟨outcome, h, -⟩ := Engine.run_map_ok.mp h
    exact cancel_change h
  | event rt message coordinates =>
    obtain ⟨outcome, h, -⟩ := Engine.run_map_ok.mp h
    exact applyEvent_change (run_eventTransaction h)
  | snapshot rt message coordinates =>
    obtain ⟨outcome, h, -⟩ := Engine.run_map_ok.mp h
    exact applySnapshot_change (run_snapshotTransaction h)

/-- **The run rule for changes.** What every change keeps, every serial run
of transactions keeps that only change. -/
theorem serial_induct {ι ρ : Type} {prog : ι → Transaction ρ} {P : Db → Prop}
    (hprog : ∀ i c r c', engine.run (prog i) c = .ok (r, c') → Changes c c')
    (hstep : ∀ c c', P c → Change c c' → P c') (is : List ι) (h : P db) :
    P (serial engine prog is db) := by
  refine List.foldlRecOn is (motive := P) (fun c i => engine.effect (prog i) c) h ?_
  intro c hc i _
  refine Engine.effect_induct hc fun r c' hr => ?_
  have hch := hprog i c r c' hr
  clear hr
  induction hch with
  | refl => exact hc
  | tail _ hs ih => exact hstep _ _ ih hs

/-- The run rule for operations. -/
theorem run_induct {P : Db → Prop} (hstep : ∀ c c', P c → Change c c' → P c')
    (ops : List Operation) (h : P db) : P (Operation.run ops db) :=
  serial_induct (fun _ _ _ _ => Operation.changes) hstep ops h

end InvoiceReservation
