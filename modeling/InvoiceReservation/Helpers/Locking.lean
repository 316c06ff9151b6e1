import InvoiceReservation.Helpers.Deliveries
import InvoiceReservation.Model.Locking
/-!
# The locks of the services

Which reads a key covers, and that the five transactions keep both
disciplines of `Common/Serializable.lean`: whatever they read is locked
by then, but for the request record or the message they check before they
insert it.
-/

namespace InvoiceReservation

open Transactions

variable {db c c' : Db} {k : Key} {w : Write}

/-! ## Agreement at a key -/

/-- Two databases that no read of a key tells apart. -/
def Key.Agree (k : Key) (c c' : Db) : Prop :=
  c.organisations = c'.organisations ∧
    match k with
    | .program p =>
      c.program? p = c'.program? p ∧ c.reservationsOf p = c'.reservationsOf p ∧
        c.ledgerOf p = c'.ledgerOf p ∧ c.messagesOf p = c'.messagesOf p ∧
        c.streamPositionsOf p = c'.streamPositionsOf p
    | .reservation id => c.hasReservationId id = c'.hasReservationId id
    | .request organisationId requestId =>
      c.request? organisationId requestId = c'.request? organisationId requestId
    | .message messageId => c.message? messageId = c'.message? messageId
    | .acknowledgement messageId => c.acknowledgement? messageId = c'.acknowledgement? messageId

/-- A key that has been inserted. Only request records and messages are
looked at before they are. -/
def Key.Present : Key → Db → Prop
  | .request organisationId requestId, c => (c.request? organisationId requestId).isSome = true
  | .message messageId, c => (c.message? messageId).isSome = true
  | _, _ => True

theorem hasReservationId_apply {id : Uuid} : (db.apply w).hasReservationId id =
    match w with
    | .reservations rows => rows.any (·.id = id) || db.hasReservationId id
    | _ => db.hasReservationId id := by
  cases w with
  | reservations rows =>
    exact @Table.any_putAll _ _ _ InvoiceReservationEntity.key db.reservations
      (fun k => decide (k.2.2 = id)) rows
  | _ => rfl

theorem Key.Agree.apply (h : k.Agree c c') : k.Agree (c.apply w) (c'.apply w) := by
  refine ⟨by simpa using h.1, ?_⟩
  cases k with
  | program p =>
    obtain ⟨hp, hr, hl, hm, hs⟩ := h.2
    cases w <;> simp [hp, hr, hl, hm, hs]
  | reservation id =>
    have h := h.2
    cases w <;> simp_all [hasReservationId_apply]
  | request organisationId requestId =>
    have h := h.2
    cases w with
    | requests rows => exact Table.get_putAll_congr h
    | _ => exact h
  | message messageId =>
    have h := h.2
    cases w <;> simp_all
  | acknowledgement messageId =>
    have h := h.2
    cases w <;> simp_all

/-- The rows of other programs are no rows of a program. -/
theorem filter_of_ne {α : Type} {rows : List α} {f : α → Uuid} {p : Uuid}
    (h : ∀ row ∈ rows, p ≠ f row) : rows.filter (fun row => f row = p) = [] :=
  List.filter_eq_nil_iff.mpr fun row hrow => by simpa using (h row hrow).symm

/-- **A write leaves alone what none of its keys covers.** -/
theorem Key.Agree.frame (h : k ∉ w.keys) : k.Agree c (c.apply w) := by
  refine ⟨by simp, ?_⟩
  cases k with
  | program p =>
    -- all that is filed under a program is covered by its key
    cases w with
    | program row =>
      have hne : ¬ row.id = p := by simpa [Write.keys, eq_comm] using h
      simp [hne]
    | reservations rows =>
      have hne : ∀ row ∈ rows, p ≠ row.programId := by
        intro row hrow he
        exact h (List.mem_flatMap.mpr ⟨row, hrow, by simp [he]⟩)
      simp [filter_of_ne hne]
    | ledger rows =>
      have hne : ∀ row ∈ rows, p ≠ row.programId := by
        intro row hrow he
        exact h (List.mem_map.mpr ⟨row, hrow, by simp [he]⟩)
      simp [filter_of_ne hne]
    | requests rows => simp
    | message row =>
      have hne : ¬ row.programId = p := by
        intro he; exact h (by simp [Write.keys, he])
      simp [hne]
    | acknowledgement row => simp
    | streamPosition row =>
      have hne : ¬ row.programId = p := by
        intro he; exact h (by simp [Write.keys, he])
      simp [hne]
  | reservation id =>
    -- only a write of reservations can bring the id
    cases w with
    | reservations rows =>
      have hne : rows.any (·.id = id) = false := by
        refine List.any_eq_false.mpr fun row hrow he => ?_
        exact h (List.mem_flatMap.mpr ⟨row, hrow, by simp_all⟩)
      simp [hasReservationId_apply, hne]
    | _ => rfl
  | request organisationId requestId =>
    cases w with
    | requests rows =>
      refine (Table.get_putAll_ne fun row hrow he => h ?_).symm
      cases he
      exact List.mem_map.mpr ⟨row, hrow, rfl⟩
    | _ => rfl
  | message messageId =>
    cases w with
    | message row =>
      have hne : ¬ row.messageId = messageId := by
        intro he; exact h (by simp [Write.keys, he])
      simp [hne]
    | _ => rfl
  | acknowledgement messageId =>
    cases w with
    | acknowledgement row =>
      have hne : ¬ row.messageId = messageId := by
        intro he; exact h (by simp [Write.keys, he])
      simp [hne]
    | _ => rfl

theorem Key.Present.apply (h : k.Present c) : k.Present (c.apply w) := by
  cases k with
  | request organisationId requestId =>
    cases w with
    | requests rows =>
      change (Table.get RequestRecordEntity.key _ (Table.putAll _ rows c.requests)).isSome = true
      rw [Table.isSome_get_putAll]
      exact Bool.or_eq_true _ _ ▸ Or.inr h
    | _ => exact h
  | message messageId =>
    cases w with
    | message row => simp_all [Key.Present]
    | _ => exact h
  | _ => trivial

/-- A row that was written is there. -/
theorem Key.Present.written (h : k ∈ w.keys) : k.Present (c.apply w) := by
  cases k with
  | request organisationId requestId =>
    cases w with
    | requests rows =>
      obtain ⟨row, hrow, he⟩ := List.mem_map.mp h
      change (Table.get RequestRecordEntity.key _ (Table.putAll _ rows c.requests)).isSome = true
      rw [Table.isSome_get_putAll, Bool.or_eq_true, List.any_eq_true]
      exact Or.inl ⟨row, hrow, by simp_all [RequestRecordEntity.key]⟩
    | _ => simp [Write.keys] at h
  | message messageId =>
    cases w with
    | message row =>
      have he : messageId = row.messageId := by simpa [Write.keys] using h
      subst he
      cases hm : c.message? row.messageId <;> simp [Key.Present, hm]
    | _ => simp [Write.keys] at h
  | _ => trivial

/-- **A statement's answer and writes are told by the keys it reads.** -/
theorem Stmt.exec_congr {β : Type} {s : Stmt β} {ks : List Key} (hks : s.reads = some ks)
    (h : ∀ k ∈ ks, k.Agree c c') : s.exec c = s.exec c' := by
  cases s <;> simp only [Stmt.reads, Option.some.injEq, reduceCtorEq] at hks <;> subst hks <;>
    simp only [List.forall_mem_cons, List.not_mem_nil, false_implies, implies_true, and_true,
      Key.Agree] at h <;>
    simp_all [Stmt.exec, Db.reservationsFor, Db.messagesAt, Stmt.echoedRows, Stmt.acknowledgedRows,
      Stmt.streamWrites, Stmt.streamRow]

/-- The database, read by its keys. -/
def keyed : Keyed engine locks where
  agree := Key.Agree
  agree_refl := fun k c => ⟨rfl, by cases k <;> simp⟩
  agree_trans := by
    rintro k c c' c'' ⟨ho, h⟩ ⟨ho', h'⟩
    refine ⟨ho.trans ho', ?_⟩
    cases k <;> simp_all
  exec_congr := fun hks h => Stmt.send_congr (Stmt.exec_congr hks h)
  apply_congr := fun w h => h.apply
  apply_frame := fun c h => Key.Agree.frame h
  present := Key.Present
  present_mono := fun w h => h.apply
  present_key := fun c h => Key.Present.written h

/-! ## What the services read -/

section Within

variable {α β : Type} {ks : List Key}

/-- Every statement of a transaction reads keys of a list, or keys it locks. -/
abbrev Within (ks : List Key) (t : Transaction α) : Prop := Keyed.Within engine locks ks t

theorem within_query {s : Stmt β} {k : β → Transaction α} {rs : List Key}
    (hrs : s.reads = some rs) (hks : ∀ x ∈ rs, x ∈ ks) (hk : ∀ b, Within ks (k b)) :
    Within ks (query s >>= k) :=
  ⟨⟨rs, hrs, fun x hx => Or.inl (hks x hx)⟩, hk⟩

/-- A statement that reads keys of the list. -/
theorem within_reads {s : Stmt β} {rs : List Key} (hrs : s.reads = some rs)
    (hks : ∀ x ∈ rs, x ∈ ks) : Within ks (query s) :=
  ⟨⟨rs, hrs, fun x hx => Or.inl (hks x hx)⟩, fun _ => trivial⟩

theorem within_orTypeError {x : Except TypeError α} : Within ks (orTypeError x) := by
  cases x <;> trivial

theorem within_persistAdvance {programId : String} {result : AdvanceResult} {now : Timestamp}
    {flag : Bool} (hp : .program (Uuid.ofText programId) ∈ ks) :
    Within ks (persistAdvance programId result now flag) := by
  unfold persistAdvance
  split
  · exact (within_reads rfl (by simpa using hp)).bind fun _ => within_reads rfl (by simpa using hp)
  · exact within_reads rfl (by simpa using hp)

theorem within_completeRequest {identity : RequestIdentity} {body : WriteBody}
    (hr : .request identity.organisationId identity.requestId ∈ ks) :
    Within ks (completeRequest identity body) :=
  within_reads rfl (by simpa using hr)

theorem within_withIdempotency {identity : RequestIdentity} {now : Timestamp}
    {proceed : Transaction WriteOutcome}
    (hr : .request identity.organisationId identity.requestId ∈ ks) (h : Within ks proceed) :
    Within ks (withIdempotency identity now proceed) := by
  have hbegin : Within ks (beginRequest identity now) := by
    refine within_query rfl (by simpa using hr) fun inserted => ?_
    cases inserted with
    | true => trivial
    | false =>
      refine within_query rfl (by simpa using hr) fun found => ?_
      cases found with
      | none => trivial
      | some row => dsimp only; split <;> trivial
  refine hbegin.bind fun decision => ?_
  cases decision with
  | proceed => exact h
  | replay _ => trivial
  | refused _ => trivial

/-- A write that locks its program reads what its callback reads. -/
theorem scoped_withProgramLock {programId : String} {fn : ProgramEntity → Transaction α}
    (h : ∀ program, Within [.program (Uuid.ofText programId), k] (fn program)) :
    Keyed.Scoped engine locks k [] (withProgramLock programId fn) := by
  intro c found ws hx
  cases found with
  | none => exact Or.inl ⟨_, rfl⟩
  | some program =>
    refine Or.inr ⟨⟨_, rfl, fun x hx' => Or.inr (Or.inr (List.mem_append_left _ hx'))⟩, ?_⟩
    refine Keyed.Scoped.of_within (fun x hx' => ?_) (h program)
    rcases List.mem_cons.mp hx' with rfl | hx'
    · exact Or.inr (List.mem_append_right _ (List.mem_append_left _ List.mem_cons_self))
    · exact Or.inl (List.mem_singleton.mp hx')

theorem within_insertReservation {id p : Uuid} {invoiceId currency programCurrency : String}
    {amountMinor reservedMinor : Int} {fx : Option FxRate} {now : Timestamp}
    (hp : .program p ∈ ks) : Within ks (query (.insertReservation id p invoiceId amountMinor
      currency programCurrency reservedMinor fx now)) := by
  refine ⟨⟨_, rfl, fun x hx => ?_⟩, fun _ => trivial⟩
  rcases List.mem_cons.mp hx with rfl | hx
  · exact Or.inl hp
  · -- the new row's own id is locked by inserting it
    refine Or.inr fun c b ws hins => ?_
    obtain rfl := List.mem_singleton.mp hx
    replace hins := Stmt.exec_of_send hins
    simp only [Stmt.exec, guarded_ok, Prod.mk.injEq] at hins
    obtain ⟨-, -, rfl⟩ := hins
    exact Locks.keys_subset_taken List.mem_cons_self
      (by simp [locks, Write.keys, Stmt.newReservation])

variable [Sha256] {rt : Runtime} {coordinates : StreamCoordinates}

theorem scoped_reserve {command : ReserveCommand} : Keyed.Scoped engine locks
    (.request command.organisationId command.requestId) [] (reserve rt command) := by
  refine scoped_withProgramLock fun program =>
    within_withIdempotency (by simp [ReserveCommand.identity]) ?_
  unfold proceedReserve
  refine within_query rfl (by simp) fun duplicate => ?_
  split
  · trivial
  refine within_orTypeError.bind fun fx => within_orTypeError.bind fun decision => ?_
  cases decision with
  | refused _ _ => trivial
  | accepted reservedMinor fx =>
    exact (within_insertReservation (by simp)).bind fun row =>
      (within_persistAdvance (by simp)).bind fun _ =>
        (within_completeRequest (by simp [ReserveCommand.identity])).bind fun _ => trivial

theorem scoped_release {command : ReleaseCommand} : Keyed.Scoped engine locks
    (.request command.organisationId command.requestId) [] (release rt command) := by
  refine scoped_withProgramLock fun program =>
    within_withIdempotency (by simp [ReleaseCommand.identity]) ?_
  unfold proceedRelease
  split
  · trivial
  refine within_query rfl (by simp) fun found => ?_
  cases found with
  | none => trivial
  | some row =>
    refine within_orTypeError.bind fun scaledRate => within_orTypeError.bind fun decision => ?_
    cases decision with
    | error _ => trivial
    | ok applied =>
      exact (within_persistAdvance (by simp)).bind fun _ =>
        (within_reads rfl (by simp)).bind fun _ =>
          (within_completeRequest (by simp [ReleaseCommand.identity])).bind fun _ => trivial

theorem scoped_cancel {command : CancelCommand} : Keyed.Scoped engine locks
    (.request command.organisationId command.requestId) [] (cancel rt command) := by
  refine scoped_withProgramLock fun program =>
    within_withIdempotency (by simp [CancelCommand.identity]) ?_
  unfold proceedCancel
  split
  · trivial
  refine within_query rfl (by simp) fun found => ?_
  cases found with
  | none => trivial
  | some row =>
    dsimp only
    split
    · trivial
    · exact (within_persistAdvance (by simp)).bind fun _ =>
        (within_reads rfl (by simp)).bind fun _ =>
          (within_completeRequest (by simp [CancelCommand.identity])).bind fun _ => trivial

theorem scoped_eventTransaction {event : CapacityEvent} : Keyed.Scoped engine locks
    (.message event.messageId) [] (eventTransaction rt event coordinates) := by
  refine scoped_withProgramLock fun program => ?_
  unfold ApplyTreasuryEventService.applyLocked
  split
  · trivial
  refine within_query rfl (by simp) fun existing => ?_
  split
  · split
    · trivial
    · split <;> trivial
  refine within_query rfl (by simp [ApplyTreasuryEventService.messageRow]) fun inserted => ?_
  split
  swap
  · trivial
  have happly : Within [.program (Uuid.ofText event.programId), .message event.messageId]
      (ApplyTreasuryEventService.applyEntry rt event coordinates program) :=
    (within_persistAdvance (by simp)).bind fun _ => within_query rfl (by simp) fun _ =>
      within_query rfl (by simp) fun _ => trivial
  unfold ApplyTreasuryEventService.applyRecorded
  split
  · exact happly
  · refine within_query rfl (by simp) fun rows => ?_
    split
    · exact happly
    · exact within_query rfl (by simp) fun _ => within_query rfl (by simp) fun _ =>
        within_query rfl (by simp) fun _ => trivial

theorem scoped_snapshotTransaction {snapshot : ReconciliationSnapshot} :
    Keyed.Scoped engine locks (.message snapshot.messageId) []
      (snapshotTransaction rt snapshot coordinates) := by
  unfold snapshotTransaction
  split
  · trivial
  refine scoped_withProgramLock fun program => ?_
  unfold ApplySnapshotService.applyLocked
  split
  · trivial
  refine within_query rfl (by simp) fun seen => ?_
  split
  · trivial
  refine within_query rfl (by simp) fun existing => ?_
  split
  · split
    · trivial
    · split <;> trivial
  split
  · trivial
  refine within_query rfl (by simp) fun rows => ?_
  split
  · trivial
  split
  · trivial
  refine within_query rfl (by simp [ApplySnapshotService.messageRow]) fun _ =>
    (within_persistAdvance (by simp)).bind fun _ => within_query rfl (by simp) fun _ => ?_
  -- the acknowledgement's key is locked by inserting it
  refine Keyed.Within.bind ⟨⟨_, rfl, fun x hx => ?_⟩, fun _ => trivial⟩ fun _ => ?_
  · rcases List.mem_cons.mp hx with rfl | hx
    · refine Or.inr fun c b ws hins => ?_
      replace hins := Stmt.exec_of_send hins
      simp only [Stmt.exec, guarded_ok, Prod.mk.injEq] at hins
      obtain ⟨-, -, rfl⟩ := hins
      exact Locks.keys_subset_taken List.mem_cons_self (by simp [locks, Write.keys])
    · obtain rfl := List.mem_singleton.mp hx
      exact Or.inl (by simp [ApplySnapshotService.acknowledgementRow])
  · split
    · exact within_query rfl (by simp) fun _ => within_query rfl (by simp) fun _ => trivial
    · exact within_query rfl (by simp) fun _ => trivial

end Within

/-! ## What the services insert first -/

section Guarded

variable {α : Type}

/-- An answer that comes with no effect. -/
def LockedReply.Idle : LockedReply → Prop
  | .write outcome => outcome.created = false
  | .applied outcome => outcome.Idle

/-- Nothing is written before a key is inserted. -/
abbrev Guarded (Q : α → Prop) (g : Key) (t : Transaction α) : Prop := keyed.Guarded Q g t

/-- A write that locks its program is guarded as its callback is. -/
theorem guarded_withProgramLock {Q : α → Prop} {programId : String}
    {fn : ProgramEntity → Transaction α} (hk : k ≠ .program (Uuid.ofText programId))
    (h : ∀ program, Guarded Q k (fn program)) : Guarded Q k (withProgramLock programId fn) := by
  refine Keyed.Guarded.read _ (fun c found ws hx => ?_) fun found => ?_
  · replace hx := Stmt.exec_of_send hx
    simp only [Stmt.exec, Except.ok.injEq, Prod.mk.injEq] at hx
    refine ⟨hx.2.symm, ?_⟩
    cases found <;> simp [locks, Stmt.takes, hk]
  · cases found with
    | none => trivial
    | some program => exact h program

/-- **A request writes nothing before its record**, and answers without an
effect where it does not write it. -/
theorem guarded_withIdempotency {identity : RequestIdentity} {now : Timestamp}
    {proceed : Transaction WriteOutcome} : Guarded (fun outcome => outcome.created = false)
      (.request identity.organisationId identity.requestId)
      (withIdempotency identity now proceed) := by
  intro c inserted ws hx
  replace hx := Stmt.exec_of_send hx
  simp only [Stmt.exec] at hx
  split at hx
  · simp only [Except.ok.injEq, Prod.mk.injEq] at hx
    obtain ⟨rfl, rfl⟩ := hx
    refine Or.inl ⟨⟨rfl, by simp [locks, Stmt.takes]⟩, ?_⟩
    refine Keyed.Guarded.read _ (fun c found ws hx => ?_) fun found => ?_
    · replace hx := Stmt.exec_of_send hx
      simp only [Stmt.exec, Except.ok.injEq, Prod.mk.injEq] at hx
      exact ⟨hx.2.symm, by simp [locks, Stmt.takes]⟩
    · cases found with
      | none => trivial
      | some row =>
        simp only [Tx.bind]
        cases hd : decideReplay identity row with
        | error e => trivial
        | ok decision =>
          cases decision with
          | proceed => exact absurd hd decideReplay_ne_proceed
          | replay outcome => rfl
          | refused code => trivial
  · rename_i hnone
    simp only [guarded_ok, Prod.mk.injEq] at hx
    obtain ⟨-, rfl, rfl⟩ := hx
    exact Or.inr ⟨Locks.keys_subset_taken List.mem_cons_self (by simp [locks, Write.keys]), hnone⟩

/-- A statement that only reads, and locks nothing, comes before the key. -/
theorem guarded_reads {β : Type} {Q : α → Prop} {s : Stmt β} {t : β → Transaction α}
    (hs : ∀ c b ws, s.exec c = .ok (b, ws) → ws = []) (htakes : ∀ b, s.takes b = [])
    (ht : ∀ b, Guarded Q k (t b)) : Guarded Q k (query s >>= t) :=
  Keyed.Guarded.read _ (fun c b ws hx =>
    ⟨hs c b ws (Stmt.exec_of_send hx), by simp [locks, htakes b]⟩) ht

theorem exec_selectMessagesAt_writes {p : Uuid} {kind : MessageKind} {version : Int}
    {b : List ProcessedMessageEntity} {ws : List Write}
    (h : Stmt.exec (.selectMessagesAt p kind version) c = .ok (b, ws)) : ws = [] := by
  simp only [Stmt.exec, guarded_ok, Prod.mk.injEq] at h
  exact h.2.2.symm

variable [Sha256] {rt : Runtime} {coordinates : StreamCoordinates}

theorem guarded_reserve {command : ReserveCommand} :
    Guarded (fun outcome => outcome.created = false)
      (.request command.organisationId command.requestId) (reserve rt command) :=
  guarded_withProgramLock (by simp) fun _ => @guarded_withIdempotency command.identity _ _

theorem guarded_release {command : ReleaseCommand} :
    Guarded (fun outcome => outcome.created = false)
      (.request command.organisationId command.requestId) (release rt command) :=
  guarded_withProgramLock (by simp) fun _ => @guarded_withIdempotency command.identity _ _

theorem guarded_cancel {command : CancelCommand} :
    Guarded (fun outcome => outcome.created = false)
      (.request command.organisationId command.requestId) (cancel rt command) :=
  guarded_withProgramLock (by simp) fun _ => @guarded_withIdempotency command.identity _ _

theorem guarded_eventTransaction {event : CapacityEvent} :
    Guarded ApplyOutcome.Idle (.message event.messageId)
      (eventTransaction rt event coordinates) := by
  refine guarded_withProgramLock (by simp) fun program => ?_
  unfold ApplyTreasuryEventService.applyLocked
  split
  · trivial
  refine guarded_reads (fun c b ws hx => exec_selectMessagesAt_writes hx) (fun _ => rfl)
    fun existing => ?_
  split
  · split
    · trivial
    · split <;> trivial
  intro c inserted ws hx
  replace hx := Stmt.exec_of_send hx
  simp only [Stmt.exec, guarded_ok] at hx
  obtain ⟨-, hx⟩ := hx
  split at hx
  · simp only [Prod.mk.injEq] at hx
    obtain ⟨rfl, rfl⟩ := hx
    exact Or.inl ⟨⟨rfl, by simp [locks, Stmt.takes]⟩, trivial⟩
  · rename_i hnone
    simp only [Prod.mk.injEq] at hx
    obtain ⟨rfl, rfl⟩ := hx
    exact Or.inr ⟨Locks.keys_subset_taken List.mem_cons_self
      (by simp [locks, Write.keys, ApplyTreasuryEventService.messageRow]), hnone⟩

theorem guarded_snapshotTransaction {snapshot : ReconciliationSnapshot} :
    Guarded ApplyOutcome.Idle (.message snapshot.messageId)
      (snapshotTransaction rt snapshot coordinates) := by
  unfold snapshotTransaction
  split
  · trivial
  refine guarded_withProgramLock (by simp) fun program => ?_
  unfold ApplySnapshotService.applyLocked
  split
  · trivial
  refine guarded_reads (fun c b ws hx => by cases hx; rfl) (fun _ => rfl) fun seen => ?_
  split
  · trivial
  refine guarded_reads (fun c b ws hx => exec_selectMessagesAt_writes hx) (fun _ => rfl)
    fun existing => ?_
  split
  · split
    · trivial
    · split <;> trivial
  split
  · trivial
  refine guarded_reads (fun c b ws hx => by cases hx; rfl) (fun _ => rfl) fun rows => ?_
  split
  · trivial
  split
  · trivial
  intro c u ws hx
  replace hx := Stmt.exec_of_send hx
  simp only [Stmt.exec, guarded_ok, List.forall_mem_cons, Constraint.unique,
    Option.isNone_iff_eq_none, Prod.mk.injEq] at hx
  obtain ⟨⟨-, hnone, -⟩, -, rfl⟩ := hx
  refine Or.inr ⟨Locks.keys_subset_taken List.mem_cons_self
    (by simp [locks, Write.keys, ApplySnapshotService.messageRow]), ?_⟩
  intro hpresent
  have hsome : (c.message? snapshot.messageId).isSome = true := hpresent
  have hnone' : c.message? snapshot.messageId = none := hnone
  simp [hnone'] at hsome

/-- The key a locked transaction inserts first. -/
def LockedTransaction.guard : LockedTransaction → Key
  | .reserve _ command => .request command.organisationId command.requestId
  | .release _ command => .request command.organisationId command.requestId
  | .cancel _ command => .request command.organisationId command.requestId
  | .event _ message _ => .message message.messageId
  | .snapshot _ message _ => .message message.messageId

/-- **The five transactions keep both disciplines.** -/
theorem LockedTransaction.disciplined (t : LockedTransaction) :
    Disciplined keyed LockedReply.Idle t.guard t.tx := by
  cases t with
  | reserve rt command =>
    exact ⟨scoped_reserve.map _, Keyed.Guarded.map keyed (Q := LockedReply.Idle) _ guarded_reserve⟩
  | release rt command =>
    exact ⟨scoped_release.map _, Keyed.Guarded.map keyed (Q := LockedReply.Idle) _ guarded_release⟩
  | cancel rt command =>
    exact ⟨scoped_cancel.map _, Keyed.Guarded.map keyed (Q := LockedReply.Idle) _ guarded_cancel⟩
  | event rt message coordinates =>
    exact ⟨scoped_eventTransaction.map _,
      Keyed.Guarded.map keyed (Q := LockedReply.Idle) _ guarded_eventTransaction⟩
  | snapshot rt message coordinates =>
    exact ⟨scoped_snapshotTransaction.map _,
      Keyed.Guarded.map keyed (Q := LockedReply.Idle) _ guarded_snapshotTransaction⟩

end Guarded

end InvoiceReservation
