import InvoiceReservation.Common.Preamble
import InvoiceReservation.Helpers.Locking
/-!
# Handlers and their transactions

A consumer's handler inspects without a lock before its transaction
begins, and makes a quarantine of a program that is not there. Its
transaction is the locked one. So whatever handlers and requests commit
together, locked transactions commit.
-/

namespace InvoiceReservation

open Transactions

/-- The operation a locked transaction belongs to: the request itself, or
its message's handler. -/
def LockedTransaction.operation : LockedTransaction → Operation
  | .reserve rt command => .reserve rt command
  | .release rt command => .release rt command
  | .cancel rt command => .cancel rt command
  | .event rt message coordinates => .event rt message coordinates
  | .snapshot rt message coordinates => .snapshot rt message coordinates

/-- What the operation answers where its transaction committed. -/
def LockedReply.reply : LockedReply → Reply
  | .write outcome => .write outcome
  | .applied outcome => .handled outcome.toHandleOutcome

/-- A tree that leads to a locked transaction. -/
abbrev LeadsTo (u : Transaction LockedReply) (t : Transaction Reply) : Prop :=
  Leads engine locks LockedReply.reply u t

/-- A locked transaction whose caller makes something of a program that is
not there. -/
theorem leadsTo_withProgramLockOr {programId : String} {outcome : ApplyOutcome}
    {fn : ProgramEntity → Transaction ApplyOutcome} :
    LeadsTo ((withProgramLock programId fn).map .applied)
      ((withProgramLockOr programId (return outcome) fn).map
        fun o => .handled o.toHandleOutcome) := by
  intro c found ws hx
  cases hx
  cases c.program? (Uuid.ofText programId) with
  | none => exact Or.inl ⟨⟨rfl, rfl⟩, trivial⟩
  | some program =>
    refine Or.inr ⟨_, rfl, ?_⟩
    exact (Tx.map_map LockedReply.applied LockedReply.reply (fn program)).symm

/-! ## Inspections -/

section Asking

variable {α β : Type}

/-- A transaction that writes and locks nothing. -/
abbrev Asking (t : Transaction α) : Prop := Unlocked engine locks t

theorem asking_selectMessage {messageId : String}
    {k : Option ProcessedMessageEntity → Transaction α} (hk : ∀ found, Asking (k found)) :
    Asking (query (.selectMessage messageId) >>= k) :=
  ⟨fun c b ws hx => by cases Stmt.exec_of_send hx; exact ⟨rfl, rfl⟩, hk⟩

theorem asking_selectProgram {p : Uuid} {k : Option ProgramEntity → Transaction α}
    (hk : ∀ found, Asking (k found)) : Asking (query (.selectProgram p) >>= k) :=
  ⟨fun c b ws hx => by cases hx; exact ⟨rfl, rfl⟩, hk⟩

theorem asking_selectMessagesAt {p : Uuid} {kind : MessageKind} {version : Int}
    {k : List ProcessedMessageEntity → Transaction α} (hk : ∀ found, Asking (k found)) :
    Asking (query (.selectMessagesAt p kind version) >>= k) :=
  ⟨fun c b ws hx => by
    rw [exec_selectMessagesAt_writes (Stmt.exec_of_send hx)]
    exact ⟨rfl, rfl⟩, hk⟩

end Asking

variable [Sha256] {rt : Runtime} {coordinates : StreamCoordinates}

theorem asking_inspectEvent {event : CapacityEvent} :
    Asking (ApplyTreasuryEventService.inspect event) := by
  refine asking_selectMessage fun found => ?_
  split
  · trivial
  refine asking_selectProgram fun program => ?_
  cases program with
  | none => trivial
  | some program =>
    dsimp only
    split
    · trivial
    refine asking_selectMessagesAt fun rows => ?_
    split
    · split <;> trivial
    · trivial

theorem asking_inspectSnapshot {snapshot : ReconciliationSnapshot} :
    Asking (ApplySnapshotService.inspect snapshot) := by
  refine asking_selectMessage fun found => ?_
  split
  · trivial
  refine asking_selectProgram fun program => ?_
  cases program with
  | none => trivial
  | some program =>
    dsimp only
    split
    · trivial
    split
    · trivial
    split
    · refine asking_selectMessagesAt fun rows => ?_
      split
      · split <;> trivial
      · trivial
    · trivial

/-! ## Handlers -/

theorem leadsTo_event {event : CapacityEvent} :
    LeadsTo ((eventTransaction rt event coordinates).map .applied)
      ((handleCapacityEvent rt event coordinates).map .handled) := by
  rw [handleCapacityEvent, Tx.map_bind]
  refine asking_inspectEvent.leads fun inspected => ?_
  cases inspected with
  | quarantined reason => trivial
  | alreadyApplied => trivial
  | proceed =>
    dsimp only
    rw [Tx.map_bind]
    exact leadsTo_withProgramLockOr

theorem leadsTo_snapshot {snapshot : ReconciliationSnapshot} :
    LeadsTo ((snapshotTransaction rt snapshot coordinates).map .applied)
      ((handleReconciliationSnapshot rt snapshot coordinates).map .handled) := by
  rw [handleReconciliationSnapshot, Tx.map_bind]
  refine asking_inspectSnapshot.leads fun inspected => ?_
  cases inspected with
  | quarantined reason => trivial
  | alreadyApplied => trivial
  | proceed =>
    dsimp only
    cases hmarker : snapshot.acknowledgement with
    | none => trivial
    | some marker =>
      simp only [snapshotTransaction, ApplySnapshotService.apply, hmarker, Option.isNone_some,
        Bool.false_eq_true, if_false]
      rw [Tx.map_bind]
      exact leadsTo_withProgramLockOr

/-- **An operation leads to its locked transaction.** -/
theorem LockedTransaction.leads (t : LockedTransaction) : LeadsTo t.tx t.operation.tx := by
  cases t with
  | reserve rt command => exact leads_map _ _
  | release rt command => exact leads_map _ _
  | cancel rt command => exact leads_map _ _
  | event rt message coordinates => exact leadsTo_event
  | snapshot rt message coordinates => exact leadsTo_snapshot

end InvoiceReservation
