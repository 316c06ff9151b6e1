import InvoiceReservation.Model.System
/-!
# What a write changes

One lemma for each way to read the database, over any write: a write of
another table leaves the answer as it was. `engine_applyAll` brings the
writes of a transaction into the form they are about.
-/

namespace InvoiceReservation

open Transactions

variable {db : Db} {w : Write} {p : Uuid}

@[simp] theorem engine_apply : engine.apply w db = db.apply w := rfl

@[simp] theorem engine_exec {α : Type} {s : Stmt α} : engine.exec s db = s.send db := rfl

/-- A statement is answered whose parameters can be read and which is
executed. -/
theorem Stmt.send_ok {α : Type} {s : Stmt α} {answer : α × List Write} :
    s.send db = .ok answer ↔ (∀ c ∈ s.parameters, c.1 = true) ∧ s.exec db = .ok answer := by
  unfold Stmt.send
  cases h : guarded s.parameters () with
  | error e =>
    have hnot : ¬ ∀ c ∈ s.parameters, c.1 = true := fun hall => by
      rw [guarded_ok.mpr ⟨hall, rfl⟩] at h
      cases h
    exact iff_of_false (fun he => by cases he) fun he => hnot he.1
  | ok u => exact (and_iff_right (guarded_ok.mp h).1).symm

theorem Stmt.exec_of_send {α : Type} {s : Stmt α} {answer : α × List Write}
    (h : s.send db = .ok answer) : s.exec db = .ok answer :=
  (Stmt.send_ok.mp h).2

/-- What a statement answers and writes is told by its execution. -/
theorem Stmt.send_congr {α : Type} {s : Stmt α} {c : Db} (h : s.exec db = s.exec c) :
    s.send db = s.send c := by
  simp only [Stmt.send, h]

/-- A statement whose parameters can be read. -/
theorem Stmt.send_of_parameters {α : Type} {s : Stmt α} (h : ∀ c ∈ s.parameters, c.1 = true) :
    s.send db = s.exec db := by
  unfold Stmt.send
  rw [guarded_ok.mpr ⟨h, rfl⟩]
  rfl

theorem Constraint.forall_text {text : String} (h : storableText text = true) :
    ∀ c ∈ [Constraint.text text], c.1 = true :=
  List.forall_mem_singleton.mpr h

theorem Constraint.forall_timestamptz {t : Timestamp} (h : inTimestamptz t = true) :
    ∀ c ∈ [Constraint.timestamptz t], c.1 = true :=
  List.forall_mem_singleton.mpr h

/-- And one that has none. -/
theorem Stmt.send_of_nil {α : Type} {s : Stmt α} (h : s.parameters = []) :
    s.send db = s.exec db :=
  Stmt.send_of_parameters (by simp [h])

@[simp] theorem engine_applyAll_cons (ws : List Write) :
    engine.applyAll (w :: ws) db = engine.applyAll ws (db.apply w) := rfl

namespace Db

@[simp] theorem organisations_apply : (db.apply w).organisations = db.organisations := by
  cases w <;> rfl

@[simp] theorem program?_apply : (db.apply w).program? p =
    match w with
    | .program row => if row.id = p then some row else db.program? p
    | _ => db.program? p := by
  cases w <;> first | rfl | exact Table.get_put

@[simp] theorem reservationsOf_apply : (db.apply w).reservationsOf p =
    match w with
    | .reservations rows =>
      Table.putAll InvoiceReservationEntity.key (rows.filter (·.programId = p))
        (db.reservationsOf p)
    | _ => db.reservationsOf p := by
  cases w with
  | reservations rows =>
    exact @Table.filter_putAll _ _ _ InvoiceReservationEntity.key db.reservations
      (fun k => decide (k.1 = p)) rows
  | _ => rfl

@[simp] theorem ledgerOf_apply : (db.apply w).ledgerOf p =
    match w with
    | .ledger rows => db.ledgerOf p ++ rows.filter (·.programId = p)
    | _ => db.ledgerOf p := by
  cases w with
  | ledger rows => exact List.filter_append ..
  | _ => rfl

theorem request?_apply {organisationId : Uuid} {requestId : String} :
    (db.apply w).request? organisationId requestId =
      match w with
      | .requests rows => Table.get RequestRecordEntity.key (organisationId, requestId)
          (Table.putAll RequestRecordEntity.key rows db.requests)
      | _ => db.request? organisationId requestId := by
  cases w <;> rfl

@[simp] theorem message?_apply {messageId : String} : (db.apply w).message? messageId =
    match w with
    | .message row =>
      (db.message? messageId).or (if row.messageId = messageId then some row else none)
    | _ => db.message? messageId := by
  cases w with
  | message row => exact Table.get_append ..
  | _ => rfl

@[simp] theorem messagesOf_apply : (db.apply w).messagesOf p =
    match w with
    | .message row => db.messagesOf p ++ [row].filter (·.programId = p)
    | _ => db.messagesOf p := by
  cases w with
  | message row => exact List.filter_append ..
  | _ => rfl

@[simp] theorem acknowledgement?_apply {messageId : String} :
    (db.apply w).acknowledgement? messageId =
      match w with
      | .acknowledgement row =>
        (db.acknowledgement? messageId).or (if row.messageId = messageId then some row else none)
      | _ => db.acknowledgement? messageId := by
  cases w with
  | acknowledgement row => exact Table.get_append ..
  | _ => rfl

@[simp] theorem streamPositionsOf_apply : (db.apply w).streamPositionsOf p =
    match w with
    | .streamPosition row =>
      if row.programId = p then
        Table.put ProgramStreamPosition.key row (db.streamPositionsOf p)
      else db.streamPositionsOf p
    | _ => db.streamPositionsOf p := by
  cases w with
  | streamPosition row =>
    have h := @Table.filter_put _ _ _ ProgramStreamPosition.key row db.streamPositions
      (fun k => decide (k.1 = p))
    refine Eq.trans h ?_
    by_cases hp : row.programId = p <;>
      simp [ProgramStreamPosition.key, streamPositionsOf, hp] <;> rfl
  | _ => rfl

/-- What is read of one request after a single record is written. -/
theorem request?_apply_one {organisationId : Uuid} {requestId : String}
    {row : RequestRecordEntity} : (db.apply (.requests [row])).request? organisationId requestId =
      if row.organisationId = organisationId ∧ row.requestId = requestId then some row
      else db.request? organisationId requestId := by
  rw [request?_apply]
  simp only [Table.putAll_cons, Table.putAll_nil, Table.get_put, RequestRecordEntity.key,
    Prod.mk.injEq]
  rfl

/-- A program that is found has the id it was looked for by. -/
theorem id_of_program? {row : ProgramEntity} (h : db.program? p = some row) : row.id = p :=
  (Table.get_eq_some h).2

/-- Programs are not deleted. -/
theorem isSome_program?_apply (h : (db.program? p).isSome = true) :
    ((db.apply w).program? p).isSome = true := by
  cases w with
  | program row => rw [program?_apply]; dsimp only; split <;> simp [h]
  | _ => exact h

theorem mem_reservationsOf {row : InvoiceReservationEntity} :
    row ∈ db.reservationsOf p ↔ row ∈ db.reservations ∧ row.programId = p := by
  simp [reservationsOf]

theorem mem_reservationsFor {row : InvoiceReservationEntity} {invoiceId : String} :
    row ∈ db.reservationsFor p invoiceId ↔
      row ∈ db.reservationsOf p ∧ row.invoiceId = invoiceId := by
  simp [reservationsFor]

/-- Where no two reservations are of one invoice, an invoice has one. -/
theorem reservationsFor_of_nodup {row : InvoiceReservationEntity} {invoiceId : String}
    (h : ((db.reservationsOf p).map (·.invoiceId)).Nodup)
    (hrow : row ∈ db.reservationsFor p invoiceId) : db.reservationsFor p invoiceId = [row] := by
  obtain ⟨hmem, rfl⟩ := mem_reservationsFor.mp hrow
  exact Table.filter_of_mem h hmem

theorem reservationsFor_eq_nil {invoiceId : String} : db.reservationsFor p invoiceId = [] ↔
    (db.reservations.any fun row => row.programId = p ∧ row.invoiceId = invoiceId) = false := by
  simp only [reservationsFor, reservationsOf, List.filter_eq_nil_iff, List.any_eq_false,
    List.mem_filter, decide_eq_true_eq]
  exact ⟨fun h row hr he => h row ⟨hr, he.1⟩ he.2, fun h row hr he => h row hr.1 ⟨hr.2, he⟩⟩

/-- What is found by an id after one more message. -/
theorem message?_append {c : Db} {row : ProcessedMessageEntity} {messageId : String}
    (h : c.messages = db.messages ++ [row]) : c.message? messageId =
      (db.message? messageId).or (if row.messageId = messageId then some row else none) := by
  rw [message?, h]
  exact Table.get_append ..

/-- A version's messages after one more message. -/
theorem messagesAt_append {c : Db} {row : ProcessedMessageEntity} {kind : MessageKind}
    {version : Int} (h : c.messages = db.messages ++ [row]) :
    c.messagesAt p kind version = db.messagesAt p kind version ++
      if row.programId = p ∧ row.kind = kind ∧ row.version = version then [row] else [] := by
  simp only [Db.messagesAt, Db.messagesOf, h, List.filter_append]
  by_cases hp : row.programId = p <;> by_cases hk : row.kind = kind ∧ row.version = version <;>
    simp [hp, hk]

/-- An invoice is reserved after a write when it was before, or the write
is of its row. -/
theorem reservationsFor_apply_eq_nil {invoiceId : String} :
    (db.apply w).reservationsFor p invoiceId = [] ↔ db.reservationsFor p invoiceId = [] ∧
      match w with
      | .reservations rows =>
        (rows.any fun row => row.programId = p ∧ row.invoiceId = invoiceId) = false
      | _ => True := by
  cases w with
  | reservations rows =>
    have h := @Table.any_putAll _ _ _ InvoiceReservationEntity.key db.reservations
      (fun k => decide (k.1 = p ∧ k.2.1 = invoiceId)) rows
    rw [reservationsFor_eq_nil, reservationsFor_eq_nil]
    exact (iff_of_eq (congrArg (· = false) h)).trans
      (by simp [and_comm, InvoiceReservationEntity.key])
  | _ => simp [reservationsFor]

end Db

/-- The rows an advance adds to its program's ledger are its program's. -/
@[simp] theorem filter_ledgerRows {entries : List SequencedLedgerEntry} {now : Timestamp}
    {q : Uuid} : (Stmt.ledgerRows p entries now).filter (·.programId = q) =
      if p = q then Stmt.ledgerRows p entries now else [] := by
  by_cases h : p = q <;> simp [Stmt.ledgerRows, h, List.filter_map, Function.comp_def]

/-! ## Stream positions -/

section StreamWrites

variable {row : ProgramStreamPosition} {c : Db}

/-- An upsert of a stream position writes that position or nothing. -/
theorem applyAll_streamWrites :
    engine.applyAll (Stmt.streamWrites row c) db = db ∨
      engine.applyAll (Stmt.streamWrites row c) db = db.apply (.streamPosition row) := by
  unfold Stmt.streamWrites
  split
  · exact Or.inr rfl
  · split
    · exact Or.inr rfl
    · exact Or.inl rfl

/-- What no stream position changes, an upsert leaves alone. -/
theorem read_streamWrites {α : Type} (f : Db → α)
    (h : ∀ db, f (db.apply (.streamPosition row)) = f db) :
    f (engine.applyAll (Stmt.streamWrites row c) db) = f db := by
  rcases @applyAll_streamWrites db row c with he | he
  · rw [he]
  · rw [he, h]

@[simp] theorem program?_streamWrites :
    (engine.applyAll (Stmt.streamWrites row c) db).program? p = db.program? p :=
  read_streamWrites (·.program? p) fun _ => rfl

@[simp] theorem reservationsOf_streamWrites :
    (engine.applyAll (Stmt.streamWrites row c) db).reservationsOf p = db.reservationsOf p :=
  read_streamWrites (·.reservationsOf p) fun _ => rfl

@[simp] theorem ledgerOf_streamWrites :
    (engine.applyAll (Stmt.streamWrites row c) db).ledgerOf p = db.ledgerOf p :=
  read_streamWrites (·.ledgerOf p) fun _ => rfl

@[simp] theorem ledger_streamWrites :
    (engine.applyAll (Stmt.streamWrites row c) db).ledger = db.ledger :=
  read_streamWrites (·.ledger) fun _ => rfl

@[simp] theorem requests_streamWrites :
    (engine.applyAll (Stmt.streamWrites row c) db).requests = db.requests :=
  read_streamWrites (·.requests) fun _ => rfl

@[simp] theorem messages_streamWrites :
    (engine.applyAll (Stmt.streamWrites row c) db).messages = db.messages :=
  read_streamWrites (·.messages) fun _ => rfl

@[simp] theorem acknowledgements_streamWrites :
    (engine.applyAll (Stmt.streamWrites row c) db).acknowledgements = db.acknowledgements :=
  read_streamWrites (·.acknowledgements) fun _ => rfl

end StreamWrites

/-- New versions of programs leave alone what no program changes. -/
theorem read_programs {α : Type} (f : Db → α) (h : ∀ db row, f (db.apply (.program row)) = f db)
    {g : ProgramEntity → ProgramEntity} (rows : List ProgramEntity) :
    f (engine.applyAll (rows.map fun row => .program (g row)) db) = f db := by
  induction rows generalizing db with
  | nil => rfl
  | cons row rows ih => exact ih.trans (h db (g row))

/-- A message was processed where a row has its id. -/
theorem Db.isSome_message? {messageId : String} :
    (db.message? messageId).isSome = true ↔ ∃ row ∈ db.messages, row.messageId = messageId := by
  rw [Db.message?, Table.isSome_get, List.any_eq_true]
  simp

end InvoiceReservation
