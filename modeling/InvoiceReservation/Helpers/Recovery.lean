import InvoiceReservation.Helpers.Consumption
import InvoiceReservation.Helpers.NewMessages
import InvoiceReservation.Helpers.Positions
import InvoiceReservation.Helpers.Settled
import InvoiceReservation.Model.Recovery
/-!
# What detection holds, and what a message verifies

The detection leaves a program verified that was, and whose row it passes
over. After that, only a snapshot that is applied verifies a program.
-/

namespace InvoiceReservation

open Transactions

/-- A program whose position is marked verified. -/
def Verified (p : Uuid) (db : Db) : Prop :=
  ∃ program, db.program? p = some program ∧ program.positionVerified = true

/-- What the detection reads of a program. -/
def recoveryRow (db : Db) (p : Uuid) : RecoveryRow :=
  ⟨p, Stmt.newestTreasuryEntry db p, ((db.streamPositionsOf p).map (·.updatedAt)).max?⟩

variable {db db' : Db} {p q : Uuid}

theorem Verified.congr (h : Verified p db) (heq : db'.program? p = db.program? p) :
    Verified p db' := by
  obtain ⟨program, hp, hverified⟩ := h
  exact ⟨program, heq.trans hp, hverified⟩

/-! ## Detection -/

/-- One hold. -/
def Db.hold (db : Db) (q : Uuid) : Db :=
  engine.applyAll ((db.program? q).toList.map fun row =>
    .program { row with positionVerified := false }) db

theorem program?_hold : (db.hold q).program? p =
    (db.program? p).map fun row =>
      if q = p then { row with positionVerified := false } else row := by
  unfold Db.hold
  cases hq : db.program? q with
  | none =>
    by_cases hqp : q = p
    · subst hqp
      rw [hq]
      exact hq
    · simp [hqp, Engine.applyAll]
  | some program =>
    obtain rfl := Db.id_of_program? hq
    by_cases hp : program.id = p
    · subst hp
      simp [hq]
    · simp [hp]

/-- A held program is not verified, and no other is touched. -/
theorem verified_hold : Verified p (db.hold q) ↔ Verified p db ∧ q ≠ p := by
  unfold Verified
  rw [program?_hold]
  by_cases hqp : q = p
  · simp [hqp]
  · simp [hqp]

theorem messages_hold : (db.hold q).messages = db.messages :=
  read_programs (·.messages) (fun _ _ => rfl) _

/-- **The holds.** What was verified stays so unless one of the rows that
are not passed over is its program's. -/
theorem run_holdAll (rows : List RecoveryRow) : ∃ ids db',
    engine.run (holdAll rows) db = .ok (ids, db') ∧ db'.messages = db.messages ∧
      ∀ p, Verified p db' ↔ Verified p db ∧
        ∀ row ∈ rows, row.programId = p → row.passed = true := by
  induction rows generalizing db with
  | nil => exact ⟨[], db, rfl, rfl, fun p => by simp⟩
  | cons row rows ih =>
    by_cases hpassed : row.passed = true
    · obtain ⟨ids, db', hrun, hmessages, hverified⟩ := @ih db
      refine ⟨ids, db', ?_, hmessages, fun p => ?_⟩
      · rw [holdAll, if_pos hpassed, hrun]
      · rw [hverified]
        simp [hpassed]
    · obtain ⟨ids, db', hrun, hmessages, hverified⟩ := @ih (db.hold row.programId)
      refine ⟨row.programId :: ids, db', ?_, hmessages.trans messages_hold, fun p => ?_⟩
      · rw [holdAll, if_neg hpassed, run_query_of_exec (by simp [Stmt.parameters]) rfl]
        exact Engine.run_bind_ok.mpr ⟨ids, db', hrun, rfl⟩
      · rw [hverified, verified_hold]
        simp [hpassed, and_assoc]

theorem mem_programsById {program : ProgramEntity} :
    program ∈ Stmt.programsById db ↔ program ∈ db.programs := List.mem_mergeSort

theorem run_detect : ∃ ids db', engine.run detect db = .ok (ids, db') ∧
    db'.messages = db.messages ∧
      ∀ p, Verified p db' ↔ Verified p db ∧ (recoveryRow db p).passed = true := by
  obtain ⟨ids, db', hrun, hmessages, hverified⟩ := @run_holdAll db
    (((Stmt.programsById db).filter (·.positionVerified)).map fun program =>
      recoveryRow db program.id)
  refine ⟨ids, db', ?_, hmessages, fun p => ?_⟩
  · rw [detect, run_query_of_exec (by simp [Stmt.parameters]) rfl]
    exact hrun
  rw [hverified]
  refine and_congr_right fun hp => ⟨fun hrows => ?_, fun hpassed row hrow hid => ?_⟩
  · obtain ⟨program, hfound, hmark⟩ := hp
    obtain ⟨hmem, rfl⟩ := Table.get_eq_some hfound
    exact hrows _ (List.mem_map_of_mem (List.mem_filter.mpr ⟨mem_programsById.mpr hmem, hmark⟩)) rfl
  · obtain ⟨program, -, rfl⟩ := List.mem_map.mp hrow
    obtain rfl : program.id = p := hid
    exact hpassed

/-- **The detection.** A program is verified after it that was verified
before, and whose row it passes over. -/
theorem verified_detect : Verified p (engine.effect detect db) ↔
    Verified p db ∧ (recoveryRow db p).passed = true := by
  obtain ⟨ids, db', hrun, -, hverified⟩ := @run_detect db
  rw [Engine.effect_of_run_ok hrun, hverified]

theorem message?_detect {messageId : String} :
    (engine.effect detect db).message? messageId = db.message? messageId := by
  obtain ⟨ids, db', hrun, hmessages, -⟩ := @run_detect db
  rw [Engine.effect_of_run_ok hrun, Db.message?, hmessages, ← Db.message?]

/-! ## Messages -/

variable [Sha256] {inbound : InboundMessage} {policy : RetryPolicy} {state : ConsumerState}

/-- A snapshot of a program. -/
def InboundMessage.IsSnapshotOf (inbound : InboundMessage) (p : Uuid) : Prop :=
  ∃ snapshot, inbound.message = .snapshot snapshot ∧ Uuid.ofText snapshot.programId = p

omit [Sha256] in
/-- A program that was verified before a row of one that was. -/
theorem verified_of_row {program after : ProgramEntity} (hp : db.program? program.id = some program)
    (hmark : after.positionVerified = program.positionVerified)
    (hafter : db'.program? p = if program.id = p then some after else db.program? p)
    (h : Verified p db') : Verified p db := by
  obtain ⟨found, hfound, hverified⟩ := h
  rw [hafter] at hfound
  split at hfound
  · rename_i hid
    subst hid
    obtain rfl := Option.some.inj hfound
    exact ⟨program, hp, hmark ▸ hverified⟩
  · exact ⟨found, hfound, hverified⟩

omit [Sha256] in
theorem withAppliedEffectiveAt_positionVerified {program : ProgramEntity}
    {effectiveAt : Timestamp} :
    (Stmt.withAppliedEffectiveAt program effectiveAt).positionVerified =
      program.positionVerified := by
  unfold Stmt.withAppliedEffectiveAt
  split <;> rfl

/-- **A message verifies a program only as a snapshot that is applied.** -/
theorem verified_dispatch {handled : HandleOutcome}
    (h : engine.run (dispatch inbound) db = .ok (handled, db')) (hverified : Verified p db') :
    Verified p db ∨ inbound.IsSnapshotOf p ∧ handled = .applied := by
  unfold dispatch at h
  cases hmessage : inbound.message with
  | event event =>
    rw [hmessage] at h
    refine Or.inl ?_
    rcases handleEvent_cases h with ⟨program, -, ha⟩ | ⟨program, reference, -, he⟩ | ⟨rfl, -⟩
    · exact verified_of_row (program?_id ha.found) (by
        rw [withAppliedEffectiveAt_positionVerified]; rfl) (ha.program?_after p) hverified
    · exact verified_of_row (program?_id he.found) withAppliedEffectiveAt_positionVerified
        (he.program?_after p) hverified
    · exact hverified
  | snapshot snapshot =>
    rw [hmessage] at h
    rcases handleSnapshot_cases h with ⟨rfl, _, program, _, _, _, ha⟩ | ⟨rfl, -⟩
    · by_cases hid : program.id = p
      · exact Or.inr ⟨⟨snapshot, hmessage, (Db.id_of_program? ha.found).symm.trans hid⟩, rfl⟩
      · refine Or.inl (hverified.congr ?_)
        rw [ha.program?_after, if_neg hid]
    · exact Or.inl hverified

/-- A message that is applied was not recorded before, and is after. -/
theorem recorded_of_applied (h : handledAs inbound db = some .applied) :
    db.message? inbound.message.messageId = none ∧
      ((engine.effect (dispatch inbound) db).message? inbound.message.messageId).isSome = true := by
  obtain ⟨db', hrun⟩ := handledAs_eq_some.mp h
  rw [Engine.effect_of_run_ok hrun]
  unfold dispatch at hrun
  cases hmessage : inbound.message with
  | event event =>
    rw [hmessage] at hrun
    rcases handleEvent_cases hrun with
      ⟨program, -, ha⟩ | ⟨_, _, hskipped, -⟩ | ⟨-, ⟨_, hquarantined⟩ | ⟨hskipped, -⟩⟩
    · refine ⟨ha.id, ?_⟩
      rw [Db.message?_append ha.messages_after]
      simp [TreasuryMessage.messageId, ApplyTreasuryEventService.messageRow]
    · cases hskipped
    · cases hquarantined
    · cases hskipped
  | snapshot snapshot =>
    rw [hmessage] at hrun
    rcases handleSnapshot_cases hrun with
      ⟨-, _, program, _, _, _, ha⟩ | ⟨-, ⟨_, hquarantined⟩ | ⟨hskipped, -⟩⟩
    · refine ⟨ha.id, ?_⟩
      rw [Db.message?_append ha.messages_after]
      simp [TreasuryMessage.messageId, ApplySnapshotService.messageRow]
    · cases hquarantined
    · cases hskipped

/-! ## Activities -/

/-- The operation of a message: its handler alone. -/
def InboundMessage.operation (inbound : InboundMessage) : Operation :=
  match inbound.message with
  | .event event => .event inbound.rt event inbound.coordinates
  | .snapshot snapshot => .snapshot inbound.rt snapshot inbound.coordinates

/-- What an activity does to the database is an operation. -/
def Activity.op : Activity → Operation
  | .operation op => op
  | .message inbound => inbound.operation

theorem effect_operation : engine.effect inbound.operation.tx db =
    engine.effect (dispatch inbound) db := by
  unfold InboundMessage.operation dispatch
  cases inbound.message with
  | event event => exact Engine.effect_map
  | snapshot snapshot => exact Engine.effect_map

theorem perform_db (activity : Activity) : (activity.perform policy state).db =
    engine.effect activity.op.tx state.db := by
  cases activity with
  | operation op => rfl
  | message inbound => exact processMessage_db.trans effect_operation.symm

/-- The handler of an activity's message is its operation. -/
theorem effect_of_inbound? {activity : Activity} (h : activity.inbound? = some inbound) :
    engine.effect activity.op.tx db = engine.effect (dispatch inbound) db := by
  cases activity with
  | operation op => cases op <;> cases h <;> exact Engine.effect_map
  | message inbound => cases h; exact effect_operation

/-- What is recorded stays. -/
theorem message?_perform (activity : Activity) {messageId : String}
    (h : (state.db.message? messageId).isSome = true) :
    ((activity.perform policy state).db.message? messageId).isSome = true := by
  obtain ⟨rows, hrows, -⟩ := activity.op.records (c := state.db)
  obtain ⟨row, hrow, hid⟩ := Db.isSome_message?.mp h
  rw [perform_db, Db.isSome_message?, hrows]
  exact ⟨row, List.mem_append_left _ hrow, hid⟩

end InvoiceReservation
