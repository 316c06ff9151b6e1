import InvoiceReservation.Helpers.Reads
/-!
# Running the services

What each piece of the services answers on a state, and what it writes.
The pieces every write shares come first: the lock, the request record
and the advance. For each service there is then one inversion lemma,
which names everything a committed run of it can have done.
-/

namespace InvoiceReservation

open Transactions

variable {α β : Type} {db db' : Db} {p : Uuid}

/-! ## Single steps -/

theorem run_query {s : Stmt α} {k : α → Transaction β} :
    engine.run (query s >>= k) db =
      match s.send db with
      | .error e => .error e
      | .ok (b, ws) => engine.run (k b) (engine.applyAll ws db) := by
  simp only [query, Tx.perform_bind, Engine.run, engine_exec]
  cases s.send db <;> rfl

/-- A statement whose parameters can be read. -/
theorem run_query_of_parameters {s : Stmt α} {k : α → Transaction β}
    (h : ∀ c ∈ s.parameters, c.1 = true) :
    engine.run (query s >>= k) db =
      match s.exec db with
      | .error e => .error e
      | .ok (b, ws) => engine.run (k b) (engine.applyAll ws db) := by
  rw [run_query, Stmt.send_of_parameters h]

/-- And one that has none. -/
theorem run_query_of_nil {s : Stmt α} {k : α → Transaction β} (h : s.parameters = []) :
    engine.run (query s >>= k) db =
      match s.exec db with
      | .error e => .error e
      | .ok (b, ws) => engine.run (k b) (engine.applyAll ws db) :=
  run_query_of_parameters (by simp [h])

/-- A statement that is answered is followed by the rest. -/
theorem run_query_of_exec {s : Stmt α} {k : α → Transaction β} {b : α} {ws : List Write}
    (hs : ∀ c ∈ s.parameters, c.1 = true) (h : s.exec db = .ok (b, ws)) :
    engine.run (query s >>= k) db = engine.run (k b) (engine.applyAll ws db) := by
  rw [run_query_of_parameters hs, h]

@[simp] theorem run_pure {a : α} : engine.run (pure a : Transaction α) db = .ok (a, db) := rfl

@[simp] theorem run_throwFailure {e : Failure} :
    engine.run (throwFailure e : Transaction α) db = .error e := rfl

@[simp] theorem run_throwFailure_bind {e : Failure} {k : α → Transaction β} :
    engine.run (throwFailure e >>= k) db = .error e := rfl

@[simp] theorem run_refuse {code : RefusalCode} {details : List (String × String)} :
    engine.run (refuse code details : Transaction α) db = .error (.refusal code details) := rfl

@[simp] theorem run_orTypeError {x : Except TypeError α} {k : α → Transaction β} :
    engine.run (orTypeError x >>= k) db =
      match x with
      | .ok a => engine.run (k a) db
      | .error e => .error (.typeError e) := by
  cases x <;> rfl

/-- A committed statement met its constraints and was followed by a
committed rest. -/
theorem run_query_ok {s : Stmt α} {k : α → Transaction β} {r : β}
    (h : engine.run (query s >>= k) db = .ok (r, db')) :
    ∃ b ws, s.exec db = .ok (b, ws) ∧
      engine.run (k b) (engine.applyAll ws db) = .ok (r, db') := by
  obtain ⟨b, ws, hx, h⟩ := Engine.run_exec_ok.mp h
  exact ⟨b, ws, Stmt.exec_of_send hx, h⟩

/-- And its parameters could be read. -/
theorem parameters_of_run {s : Stmt α} {k : α → Transaction β} {r : β × Db}
    (h : engine.run (query s >>= k) db = .ok r) : ∀ c ∈ s.parameters, c.1 = true := by
  obtain ⟨b, ws, hx, -⟩ := Engine.run_exec_ok.mp h
  exact (Stmt.send_ok.mp hx).1

/-- A text that the database cannot hold fails the statement. -/
theorem run_query_of_unstorable {s : Stmt α} {k : α → Transaction β} {text : String}
    (hs : s.parameters = [.text text]) (h : storableText text = false) :
    engine.run (query s >>= k) db = .error (.sql (Constraint.text text).2) := by
  have hsend : s.send db = .error (.sql (Constraint.text text).2) := by
    simp [Stmt.send, hs, guarded_cons, Constraint.text, h, bind, Except.bind]
  rw [run_query, hsend]

theorem storable_of_run {s : Stmt α} {k : α → Transaction β} {r : β × Db} {text : String}
    (hs : s.parameters = [.text text]) (h : engine.run (query s >>= k) db = .ok r) :
    storableText text = true :=
  parameters_of_run h (.text text) (hs ▸ List.mem_cons_self)

theorem inTimestamptz_of_run {s : Stmt α} {k : α → Transaction β} {r : β × Db} {t : Timestamp}
    (hs : s.parameters = [.timestamptz t]) (h : engine.run (query s >>= k) db = .ok r) :
    inTimestamptz t = true :=
  parameters_of_run h (.timestamptz t) (hs ▸ List.mem_cons_self)

theorem run_withProgramLockOr {programId : String} {notFound : Transaction α}
    {fn : ProgramEntity → Transaction α} :
    engine.run (withProgramLockOr programId notFound fn) db =
      match db.program? (Uuid.ofText programId) with
      | none => engine.run notFound db
      | some program => engine.run (fn program) db := by
  rw [withProgramLockOr, run_query_of_nil rfl]
  simp only [Stmt.exec, Engine.applyAll_nil]
  cases db.program? (Uuid.ofText programId) <;> rfl

/-- A committed write found its program. -/
theorem run_withProgramLock_ok {programId : String} {fn : ProgramEntity → Transaction α} {r : α}
    (h : engine.run (withProgramLock programId fn) db = .ok (r, db')) :
    ∃ program, db.program? (Uuid.ofText programId) = some program ∧
      engine.run (fn program) db = .ok (r, db') := by
  rw [withProgramLock, run_withProgramLockOr] at h
  cases hp : db.program? (Uuid.ofText programId) with
  | none => simp [hp] at h
  | some program => exact ⟨program, rfl, by simpa [hp] using h⟩

/-! ## The request record -/

/-- The record a request begins with. -/
def RequestIdentity.pending (identity : RequestIdentity) (now : Timestamp) : RequestRecordEntity :=
  ⟨identity.organisationId, identity.requestId, identity.operation, identity.fingerprint, .pending,
    none, now⟩

/-- The record a request ends with. -/
def RequestIdentity.complete (identity : RequestIdentity) (now : Timestamp) (body : WriteBody) :
    RequestRecordEntity :=
  { identity.pending now with state := .complete, outcome := some body }

/-- What a request is answered that finds a record. -/
def RequestIdentity.answer (identity : RequestIdentity) (row : RequestRecordEntity) :
    Except Failure WriteOutcome :=
  match decideReplay identity row with
  | .error failure => .error failure
  | .ok (.refused code) => .error (.refusal code [])
  | .ok (.replay outcome) => .ok ⟨false, outcome⟩
  | .ok .proceed => .error (.error "request_record row vanished during idempotency lookup")

theorem decideReplay_ne_proceed {identity : RequestIdentity} {row : RequestRecordEntity} :
    decideReplay identity row ≠ .ok .proceed := by
  unfold decideReplay
  split
  · simp
  · cases row.state with
    | pending => simp
    | expired => simp
    | complete => cases row.outcome <;> simp

variable {identity : RequestIdentity} {now : Timestamp}

theorem run_beginRequest (hid : storableText identity.requestId = true) :
    engine.run (beginRequest identity now) db =
      match db.request? identity.organisationId identity.requestId with
      | some row => (decideReplay identity row).map fun decision => (decision, db)
      | none =>
        if db.organisations.contains identity.organisationId then
          .ok (.proceed, db.apply (.requests [identity.pending now]))
        else .error (.sql (Constraint.foreignKey false "request_record"
          "request_record_organisation_id_fkey").2) := by
  rw [beginRequest, run_query_of_parameters (by exact Constraint.forall_text hid)]
  cases hr : db.request? identity.organisationId identity.requestId with
  | some row =>
    simp only [Stmt.exec, hr, Option.isSome_some, if_true, Engine.applyAll_nil, Bool.false_eq_true,
      if_false]
    rw [run_query_of_parameters (by exact Constraint.forall_text hid)]
    simp only [Stmt.exec, hr, Engine.applyAll_nil]
    cases decideReplay identity row <;> rfl
  | none =>
    cases ho : db.organisations.contains identity.organisationId with
    | true =>
      simp only [Stmt.exec, hr, guarded_cons, guarded_nil, Constraint.foreignKey, ho]
      rfl
    | false =>
      simp only [Stmt.exec, hr, guarded_cons, Constraint.foreignKey, ho]
      rfl

/-- **A request that finds a record is answered from it, and one that finds
none proceeds with its own.** -/
theorem run_withIdempotency {proceed : Transaction WriteOutcome}
    (hid : storableText identity.requestId = true) :
    engine.run (withIdempotency identity now proceed) db =
      match db.request? identity.organisationId identity.requestId with
      | some row => (identity.answer row).map fun outcome => (outcome, db)
      | none =>
        if db.organisations.contains identity.organisationId then
          engine.run proceed (db.apply (.requests [identity.pending now]))
        else .error (.sql (Constraint.foreignKey false "request_record"
          "request_record_organisation_id_fkey").2) := by
  rw [withIdempotency, Engine.run_bind, run_beginRequest hid]
  cases hr : db.request? identity.organisationId identity.requestId with
  | some row =>
    have hne := @decideReplay_ne_proceed identity row
    simp only [RequestIdentity.answer]
    cases hd : decideReplay identity row with
    | error failure => rfl
    | ok decision =>
      cases decision with
      | proceed => exact absurd hd hne
      | replay outcome => rfl
      | refused code => rfl
  | none =>
    cases db.organisations.contains identity.organisationId <;> rfl

/-- A key that the database cannot hold fails the request. -/
theorem run_withIdempotency_of_unstorable {proceed : Transaction WriteOutcome}
    (hid : storableText identity.requestId = false) :
    engine.run (withIdempotency identity now proceed) db =
      .error (.sql (Constraint.text identity.requestId).2) := by
  rw [withIdempotency, Engine.run_bind, beginRequest, run_query_of_unstorable rfl hid]

/-- A request that was answered has a key the database can hold. -/
theorem storable_of_withIdempotency {proceed : Transaction WriteOutcome} {r : WriteOutcome × Db}
    (h : engine.run (withIdempotency identity now proceed) db = .ok r) :
    storableText identity.requestId = true := by
  obtain ⟨decision, c, hbegin, -⟩ := Engine.run_bind_ok.mp h
  exact storable_of_run rfl hbegin

/-! ## The advance -/

/-- What an advance has to meet to be persisted. -/
structure Persistable (db : Db) (row : ProgramEntity) (result : AdvanceResult)
    (reconciliationInProgress : Bool) : Prop where
  texts : ∀ entry ∈ result.entries, ∀ c ∈ entry.texts, c.1 = true
  deltas : ∀ entry ∈ result.entries, inBigint entry.deltaMinor = true
  sequences : (result.entries.map (·.sequence)).Nodup
  fresh : ∀ entry ∈ result.entries, ∀ r ∈ db.ledgerOf row.id, r.sequence ≠ entry.sequence
  limitRange : inBigint result.program.creditLimitMinor = true
  localRange : inBigint result.program.localReservedMinor = true
  treasuryRange : inBigint result.program.treasuryReservedMinor = true
  trigger : result.program.localReservedMinor > row.localReservedMinor →
    reconciliationInProgress = true ∨
      result.program.localReservedMinor ≤ result.program.creditLimitMinor
  limitSign : 0 ≤ result.program.creditLimitMinor
  localSign : 0 ≤ result.program.localReservedMinor
  treasurySign : 0 ≤ result.program.treasuryReservedMinor

/-- What has to hold for an advance reads the ledger and nothing else. -/
theorem Persistable.congr {c : Db} {program : ProgramEntity} {result : AdvanceResult} {flag : Bool}
    (h : Persistable db program result flag) (hl : c.ledgerOf program.id = db.ledgerOf program.id) :
    Persistable c program result flag :=
  ⟨h.texts, h.deltas, h.sequences, by rw [hl]; exact h.fresh, h.limitRange, h.localRange,
    h.treasuryRange, h.trigger, h.limitSign, h.localSign, h.treasurySign⟩

/-- What an advance writes. -/
def advanceWrites (row : ProgramEntity) (result : AdvanceResult) (now : Timestamp) : List Write :=
  [.ledger (Stmt.ledgerRows row.id result.entries now),
    .program (Stmt.withPosition row result.program now)]

theorem send_insertLedger_ok {row : ProgramEntity} {entries : List SequencedLedgerEntry}
    {now : Timestamp} {u : Unit} {ws : List Write} (hrow : db.program? p = some row) :
    Stmt.send (.insertLedger p entries now) db = .ok (u, ws) ↔
      ((∀ entry ∈ entries, ∀ c ∈ entry.texts, c.1 = true) ∧
        (∀ entry ∈ entries, inBigint entry.deltaMinor = true) ∧
        (entries.map (·.sequence)).Nodup ∧
        ∀ entry ∈ entries, ∀ r ∈ db.ledgerOf p, r.sequence ≠ entry.sequence) ∧
      ws = [.ledger (Stmt.ledgerRows p entries now)] := by
  simp only [Stmt.send_ok, Stmt.parameters, Stmt.exec, guarded_ok, List.forall_mem_append,
    List.forall_mem_map, List.forall_mem_flatMap, List.forall_mem_cons, Constraint.bigint,
    Constraint.unique, Constraint.foreignKey, hrow, Option.isSome_some, decide_eq_true_eq,
    Prod.mk.injEq]
  constructor
  · rintro ⟨ht, ⟨hd, ⟨hs, hf⟩, -⟩, -, rfl⟩
    exact ⟨⟨ht, hd, hs, hf⟩, rfl⟩
  · rintro ⟨⟨ht, hd, hs, hf⟩, rfl⟩
    exact ⟨ht, ⟨hd, ⟨hs, hf⟩, trivial, by simp⟩, trivial, rfl⟩

theorem send_updatePosition_ok {row : ProgramEntity} {position : ProgramPosition}
    {now : Timestamp} {flag : Bool} {u : Unit} {ws : List Write}
    (hrow : db.program? p = some row) :
    Stmt.send (.updatePosition p position now flag) db = .ok (u, ws) ↔
      (inBigint position.creditLimitMinor = true ∧ inBigint position.localReservedMinor = true ∧
        inBigint position.treasuryReservedMinor = true ∧
        (position.localReservedMinor > row.localReservedMinor →
          flag = true ∨ position.localReservedMinor ≤ position.creditLimitMinor) ∧
        0 ≤ position.creditLimitMinor ∧ 0 ≤ position.localReservedMinor ∧
        0 ≤ position.treasuryReservedMinor) ∧
      ws = [.program (Stmt.withPosition row position now)] := by
  rw [Stmt.send_of_nil rfl]
  simp only [Stmt.exec, hrow, guarded_ok, List.forall_mem_append, List.forall_mem_cons,
    Constraint.bigint, Constraint.check, localWithinLimit, programChecks, Bool.or_eq_true,
    Bool.not_eq_true', decide_eq_true_eq, decide_eq_false_iff_not, Prod.mk.injEq]
  constructor
  · rintro ⟨⟨⟨h₁, h₂, h₃, h₄, -⟩, h₅, h₆, h₇, -⟩, -, rfl⟩
    refine ⟨⟨h₁, h₂, h₃, fun hgt => ?_, h₅, h₆, h₇⟩, rfl⟩
    rcases h₄ with (hn | hf) | hl
    · exact absurd hgt hn
    · exact Or.inl hf
    · exact Or.inr hl
  · rintro ⟨⟨h₁, h₂, h₃, h₄, h₅, h₆, h₇⟩, rfl⟩
    refine ⟨⟨⟨h₁, h₂, h₃, ?_, by simp⟩, h₅, h₆, h₇, by simp⟩, trivial, rfl⟩
    by_cases hgt : position.localReservedMinor > row.localReservedMinor
    · rcases h₄ hgt with hf | hl
      · exact Or.inl (Or.inr hf)
      · exact Or.inr hl
    · exact Or.inl (Or.inl hgt)

/-- **An advance is persisted exactly when its rows meet their constraints,
and then adds its entries to the ledger and its totals to the program.** -/
theorem run_persistAdvance_ok {programId : String} {row : ProgramEntity} {result : AdvanceResult}
    {now : Timestamp} {flag : Bool} {u : Unit}
    (hrow : db.program? (Uuid.ofText programId) = some row) :
    engine.run (persistAdvance programId result now flag) db = .ok (u, db') ↔
      Persistable db row result flag ∧ db' = engine.applyAll (advanceWrites row result now) db := by
  unfold persistAdvance
  generalize Uuid.ofText programId = p at hrow ⊢
  obtain rfl : row.id = p := Db.id_of_program? hrow
  by_cases he : result.entries.length > 0
  · have hafter : (db.apply (.ledger (Stmt.ledgerRows row.id result.entries now))).program? row.id =
        some row := by simpa using hrow
    simp only [he, if_true, query, Engine.run_bind_ok, Engine.run_perform_ok, engine_exec,
      send_insertLedger_ok hrow]
    constructor
    · rintro ⟨u₁, c, ⟨ws, ⟨⟨ht, hd, hs, hf⟩, rfl⟩, rfl⟩, ws', hx, rfl⟩
      obtain ⟨⟨h₁, h₂, h₃, h₄, h₅, h₆, h₇⟩, rfl⟩ := (send_updatePosition_ok hafter).mp hx
      exact ⟨⟨ht, hd, hs, hf, h₁, h₂, h₃, h₄, h₅, h₆, h₇⟩, rfl⟩
    · rintro ⟨⟨ht, hd, hs, hf, h₁, h₂, h₃, h₄, h₅, h₆, h₇⟩, rfl⟩
      exact ⟨(), _, ⟨_, ⟨⟨ht, hd, hs, hf⟩, rfl⟩, rfl⟩, _,
        (send_updatePosition_ok hafter).mpr ⟨⟨h₁, h₂, h₃, h₄, h₅, h₆, h₇⟩, rfl⟩, rfl⟩
  · have hnil : result.entries = [] := List.eq_nil_of_length_eq_zero (by omega)
    have hdb : engine.applyAll (advanceWrites row result now) db =
        db.apply (.program (Stmt.withPosition row result.program now)) := by
      simp [hnil, advanceWrites, Stmt.ledgerRows, Db.apply]
    simp only [he, if_false, query, Engine.run_perform_ok, engine_exec, send_updatePosition_ok hrow,
      hdb]
    constructor
    · rintro ⟨ws, ⟨⟨h₁, h₂, h₃, h₄, h₅, h₆, h₇⟩, rfl⟩, rfl⟩
      exact ⟨⟨by simp [hnil], by simp [hnil], by simp [hnil], by simp [hnil],
        h₁, h₂, h₃, h₄, h₅, h₆, h₇⟩, rfl⟩
    · rintro ⟨⟨-, -, -, -, h₁, h₂, h₃, h₄, h₅, h₆, h₇⟩, rfl⟩
      exact ⟨_, ⟨⟨h₁, h₂, h₃, h₄, h₅, h₆, h₇⟩, rfl⟩, rfl⟩

end InvoiceReservation
