import InvoiceReservation.Helpers.Changes
import InvoiceReservation.Model.Consumer
/-!
# Settled messages

The messages a run of operations has settled: the events it applied or
suppressed as echoes, and the snapshots it applied. They are what the
processed messages record, one row each and in order.
-/

namespace InvoiceReservation

open Transactions

variable [Sha256] {db db' c : Db} {rt : Runtime} {coordinates : StreamCoordinates}

/-- What `apply` makes of an event that `inspect` let through. -/
def eventOutcome (rt : Runtime) (event : CapacityEvent) (coordinates : StreamCoordinates) (c : Db) :
    Option ApplyOutcome :=
  match engine.run (ApplyTreasuryEventService.inspect event) c with
  | .ok (.proceed, _) =>
    (engine.run (ApplyTreasuryEventService.apply rt event coordinates) c).toOption.map (·.1)
  | _ => none

/-- What `apply` makes of a snapshot that `inspect` let through. -/
def snapshotOutcome (rt : Runtime) (snapshot : ReconciliationSnapshot)
    (coordinates : StreamCoordinates) (c : Db) : Option ApplyOutcome :=
  match engine.run (ApplySnapshotService.inspect snapshot) c with
  | .ok (.proceed, _) =>
    (engine.run (ApplySnapshotService.apply rt snapshot coordinates) c).toOption.map (·.1)
  | _ => none

/-- The message an operation settles: applies, or suppresses as an echo. -/
def Operation.settles : Operation → Db → Option TreasuryMessage
  | .event rt message coordinates, c =>
    if eventOutcome rt message coordinates c = some .applied ∨
        eventOutcome rt message coordinates c = some .echoSuppressed then some (.event message)
    else none
  | .snapshot rt message coordinates, c =>
    if snapshotOutcome rt message coordinates c = some .applied then some (.snapshot message)
    else none
  | _, _ => none

/-- The messages a run settles, in order. -/
def settled : List Operation → Db → List TreasuryMessage
  | [], _ => []
  | op :: ops, c => (op.settles c).toList ++ settled ops (engine.effect op.tx c)

/-- The row a settled message is recorded by. -/
inductive Records : TreasuryMessage → ProcessedMessageEntity → Prop
  | event (rt : Runtime) (event : CapacityEvent) :
      Records (.event event) (ApplyTreasuryEventService.messageRow rt event)
  | snapshot (rt : Runtime) (snapshot : ReconciliationSnapshot) :
      Records (.snapshot snapshot) (ApplySnapshotService.messageRow rt snapshot)

/-! ## What is recorded -/

theorem Records.messageId {m : TreasuryMessage} {row : ProcessedMessageEntity} (h : Records m row) :
    row.messageId = m.messageId := by
  cases h <;> rfl

theorem eventOutcome_eq {event : CapacityEvent} : eventOutcome rt event coordinates c =
    if inspectEvent event c = .ok .proceed then
      (engine.run (ApplyTreasuryEventService.apply rt event coordinates) c).toOption.map (·.1)
    else none := by
  unfold eventOutcome
  rw [run_inspectEvent]
  cases inspectEvent event c with
  | error e => rfl
  | ok inspected => cases inspected <;> rfl

theorem snapshotOutcome_eq {snapshot : ReconciliationSnapshot} :
    snapshotOutcome rt snapshot coordinates c =
      if inspectSnapshot snapshot c = .ok .proceed then
        (engine.run (ApplySnapshotService.apply rt snapshot coordinates) c).toOption.map (·.1)
      else none := by
  unfold snapshotOutcome
  rw [run_inspectSnapshot]
  cases inspectSnapshot snapshot c with
  | error e => rfl
  | ok inspected => cases inspected <;> rfl

/-- An operation that ends in an error settles nothing. -/
theorem settles_of_error {op : Operation} {failure : Failure}
    (h : engine.run op.tx c = .error failure) : op.settles c = none := by
  cases op with
  | event rt event coordinates =>
    have hnone : eventOutcome rt event coordinates c = none := by
      rw [eventOutcome_eq]
      split
      · rename_i hi
        cases happly : engine.run (ApplyTreasuryEventService.apply rt event coordinates) c with
        | error e => rfl
        | ok r =>
          have hran := handleEvent_ok.mpr (Or.inr (Or.inr ⟨hi, r.1, happly, rfl⟩))
          have hok : engine.run (Operation.event rt event coordinates).tx c =
              .ok (.handled r.1.toHandleOutcome, r.2) := Engine.run_map_ok.mpr ⟨_, hran, rfl⟩
          rw [h] at hok
          cases hok
      · rfl
    simp [Operation.settles, hnone]
  | snapshot rt snapshot coordinates =>
    have hnone : snapshotOutcome rt snapshot coordinates c = none := by
      rw [snapshotOutcome_eq]
      split
      · rename_i hi
        cases happly : engine.run (ApplySnapshotService.apply rt snapshot coordinates) c with
        | error e => rfl
        | ok r =>
          have hran := handleSnapshot_ok.mpr (Or.inr (Or.inr ⟨hi, r.1, happly, rfl⟩))
          have hok : engine.run (Operation.snapshot rt snapshot coordinates).tx c =
              .ok (.handled r.1.toHandleOutcome, r.2) := Engine.run_map_ok.mpr ⟨_, hran, rfl⟩
          rw [h] at hok
          cases hok
      · rfl
    simp [Operation.settles, hnone]
  | _ => rfl

/-- What an operation records: the rows of what it settles. -/
def Operation.RecordsSettled (op : Operation) (c c' : Db) : Prop :=
  ∃ rows, c'.messages = c.messages ++ rows ∧ List.Forall₂ Records (op.settles c).toList rows

theorem event_records {event : CapacityEvent} {handled : HandleOutcome}
    (h : engine.run (handleCapacityEvent rt event coordinates) c = .ok (handled, db')) :
    Operation.RecordsSettled (.event rt event coordinates) c db' := by
  simp only [Operation.RecordsSettled, Operation.settles, eventOutcome_eq]
  rcases handleEvent_ok.mp h with ⟨hi, -, rfl⟩ | ⟨_, hi, -, rfl⟩ | ⟨hi, outcome, happly, -⟩
  · exact ⟨[], (List.append_nil _).symm, by simp [hi]⟩
  · exact ⟨[], (List.append_nil _).symm, by simp [hi]⟩
  · simp only [hi, if_true, happly, Except.toOption, Option.map_some, Option.some.injEq]
    rcases applyEvent_cases happly with
      ⟨hidle, rfl⟩ | ⟨program, rfl, ha⟩ | ⟨program, reference, rfl, ha⟩
    · refine ⟨[], (List.append_nil _).symm, ?_⟩
      cases outcome <;> first | exact hidle.elim | exact .nil
    · exact ⟨_, ha.messages_after, .cons (.event rt event) .nil⟩
    · exact ⟨_, ha.messages_after, .cons (.event rt event) .nil⟩

theorem snapshot_records {snapshot : ReconciliationSnapshot} {handled : HandleOutcome}
    (h : engine.run (handleReconciliationSnapshot rt snapshot coordinates) c = .ok (handled, db')) :
    Operation.RecordsSettled (.snapshot rt snapshot coordinates) c db' := by
  simp only [Operation.RecordsSettled, Operation.settles, snapshotOutcome_eq]
  rcases handleSnapshot_ok.mp h with ⟨hi, -, rfl⟩ | ⟨_, hi, -, rfl⟩ | ⟨hi, outcome, happly, -⟩
  · exact ⟨[], (List.append_nil _).symm, by simp [hi]⟩
  · exact ⟨[], (List.append_nil _).symm, by simp [hi]⟩
  · simp only [hi, if_true, happly, Except.toOption, Option.map_some, Option.some.injEq]
    rcases applySnapshot_cases happly with ⟨hidle, rfl⟩ | ⟨rfl, _, _, _, _, _, ha⟩
    · refine ⟨[], (List.append_nil _).symm, ?_⟩
      cases outcome <;> first | exact hidle.elim | exact .nil
    · exact ⟨_, ha.messages_after, .cons (.snapshot rt snapshot) .nil⟩

omit [Sha256] in
theorem runSeed_messages {now : Timestamp} {seeds : List ProgramSeed} {u : Unit}
    (h : engine.run (runSeed now seeds) db = .ok (u, db')) : db'.messages = db.messages :=
  runSeed_induct (motive := fun c => db'.messages = c.messages) h rfl fun _ _ _ hrest =>
    hrest.trans (by simp [advanceWrites, Db.apply])

/-- **An operation records what it settles.** -/
theorem Operation.records (op : Operation) :
    Operation.RecordsSettled op c (engine.effect op.tx c) := by
  cases hr : engine.run op.tx c with
  | error e =>
    rw [Engine.effect_of_run_error hr]
    exact ⟨[], (List.append_nil _).symm, by simp [settles_of_error hr]⟩
  | ok r =>
    obtain ⟨reply, c'⟩ := r
    rw [Engine.effect_of_run_ok hr]
    cases op with
    | event rt event coordinates =>
      obtain ⟨handled, hran, -⟩ := Engine.run_map_ok.mp hr
      exact event_records hran
    | snapshot rt snapshot coordinates =>
      obtain ⟨handled, hran, -⟩ := Engine.run_map_ok.mp hr
      exact snapshot_records hran
    | reserve rt command =>
      obtain ⟨outcome, hran, -⟩ := Engine.run_map_ok.mp hr
      refine ⟨[], ?_, .nil⟩
      obtain ⟨program, -, ⟨-, rfl⟩ | ⟨_, _, ha⟩⟩ := reserve_cases hran
      · simp
      · rw [ha.messages_after, List.append_nil]
    | release rt command =>
      obtain ⟨outcome, hran, -⟩ := Engine.run_map_ok.mp hr
      refine ⟨[], ?_, .nil⟩
      obtain ⟨program, -, ⟨-, rfl⟩ | ⟨_, _, _, -, -, ha⟩⟩ := release_cases hran
      · simp
      · rw [ha.messages_after, List.append_nil]
    | cancel rt command =>
      obtain ⟨outcome, hran, -⟩ := Engine.run_map_ok.mp hr
      refine ⟨[], ?_, .nil⟩
      obtain ⟨program, -, ⟨-, rfl⟩ | ⟨_, _, -, ha⟩⟩ := cancel_cases hran
      · simp
      · rw [ha.messages_after, List.append_nil]
    | seed now programs =>
      obtain ⟨u, hran, -⟩ := Engine.run_map_ok.mp hr
      exact ⟨[], by simpa using runSeed_messages hran, .nil⟩
    | sweep now days =>
      obtain ⟨rows, rfl⟩ := Operation.sweep_ok hr
      exact ⟨[], by simp [Db.apply], .nil⟩
    | flagInvestigation p =>
      obtain ⟨f, rows, rfl⟩ := Operation.flags_ok (Or.inl rfl) hr
      refine ⟨[], ?_, .nil⟩
      rw [List.append_nil]
      exact read_programs (·.messages) (fun _ _ => rfl) rows
    | holdProgram p =>
      obtain ⟨f, rows, rfl⟩ := Operation.flags_ok (Or.inr rfl) hr
      refine ⟨[], ?_, .nil⟩
      rw [List.append_nil]
      exact read_programs (·.messages) (fun _ _ => rfl) rows

/-- **A run records what it settles**, after what was there. -/
theorem run_records (ops : List Operation) :
    ∃ rows, (Operation.run ops c).messages = c.messages ++ rows ∧
      List.Forall₂ Records (settled ops c) rows := by
  induction ops generalizing c with
  | nil => exact ⟨[], (List.append_nil _).symm, .nil⟩
  | cons op ops ih =>
    obtain ⟨rows, hrows, hrecords⟩ := op.records (c := c)
    obtain ⟨later, hlater, hall⟩ := ih (c := engine.effect op.tx c)
    refine ⟨rows ++ later, ?_, List.rel_append hrecords hall⟩
    rw [← List.append_assoc, ← hrows]
    exact hlater

end InvoiceReservation
