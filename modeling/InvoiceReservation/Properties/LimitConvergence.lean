import InvoiceReservation.Common.LastWrite
import InvoiceReservation.Helpers.Consumption
import InvoiceReservation.Helpers.NewMessages
import InvoiceReservation.Helpers.Policies
import InvoiceReservation.Helpers.Positions
import InvoiceReservation.Model.Seed
/-!
# Which limit is left

A LIMIT_CHANGED event sets the limit it asserts whenever it arrives, and a
snapshot does where no newer snapshot came before. So the newest limit is
left only where no other is set after it.
-/

namespace InvoiceReservation

open Transactions

namespace TreasuryMessage

/-- Its version. -/
def version : TreasuryMessage → Int
  | event message => message.version
  | snapshot message => message.version

/-- What it is recorded as. -/
def kind : TreasuryMessage → MessageKind
  | event _ => .event
  | snapshot _ => .snapshot

/-- The limit it asserts. -/
def limitMinor : TreasuryMessage → Int
  | event message => message.payload.amountMinor
  | snapshot message => message.creditLimitMinor

end TreasuryMessage

/-- Messages that assert a limit of one program, with ids and versions of
their own. -/
structure LimitMessages (p : Uuid) (messages : List TreasuryMessage) : Prop where
  program : ∀ m ∈ messages, Uuid.ofText m.programId = p
  limitChanged : ∀ event, .event event ∈ messages → event.type = .limitChanged
  ids : ∀ x ∈ messages, ∀ y ∈ messages, x.messageId = y.messageId → x = y
  versions : ∀ x ∈ messages, ∀ y ∈ messages, x.version = y.version → x = y

/-- A message of the highest version. -/
def Newest (messages : List TreasuryMessage) (m : TreasuryMessage) : Prop :=
  m ∈ messages ∧ ∀ x ∈ messages, x.version ≤ m.version

/-- A message that a program has not processed: neither its id is recorded
nor, under its kind, its version; and no snapshot made it stale. -/
structure Unprocessed (p : Uuid) (db : Db) (program : ProgramEntity) (m : TreasuryMessage) :
    Prop where
  id : db.message? m.messageId = none
  version : db.messagesAt p m.kind m.version = []
  notStale : m.kind = .snapshot → program.treasuryVersion ≤ m.version

/-- **Whether a message is taken** that arrives after others: at its first
arrival, where it was not processed before any of them, and as a snapshot
where it is newer than each before it that was not. -/
structure Taken (p : Uuid) (db : Db) (program : ProgramEntity) (before : List TreasuryMessage)
    (m : TreasuryMessage) : Prop extends Unprocessed p db program m where
  first : m ∉ before
  newer : m.kind = .snapshot → ∀ x ∈ before, x.kind = .snapshot → Unprocessed p db program x →
    x.version < m.version

/-- **A limit is left after messages arrived**: each that is taken and
asserts another is followed by one that is taken and asserts it, and where
none is taken it was the program's. -/
def LimitLeft (p : Uuid) (db : Db) (program : ProgramEntity) (arrived : List TreasuryMessage)
    (limitMinor : Int) : Prop :=
  LastWrite.Leaves (Taken p db program) TreasuryMessage.limitMinor program.creditLimitMinor arrived
    limitMinor

variable {db db' : Db} {p : Uuid} {program after : ProgramEntity} {rt : Runtime}
variable {event : CapacityEvent} {snapshot : ReconciliationSnapshot} {m x : TreasuryMessage}
variable {coordinates : StreamCoordinates} {messages before : List TreasuryMessage}

/-- What is taken after one more message. -/
theorem taken_append : Taken p db program (before ++ [m]) x ↔
    Taken p db program before x ∧ x ≠ m ∧ (x.kind = .snapshot → m.kind = .snapshot →
      Unprocessed p db program m → m.version < x.version) := by
  constructor
  · intro h
    have hfirst := h.first
    simp only [List.mem_append, List.mem_singleton, not_or] at hfirst
    exact ⟨⟨h.toUnprocessed, hfirst.1,
        fun hkind y hy => h.newer hkind y (List.mem_append_left _ hy)⟩,
      hfirst.2, fun hkind => h.newer hkind m (by simp)⟩
  · rintro ⟨h, hne, hnewer⟩
    refine ⟨h.toUnprocessed, by simp [h.first, hne], fun hkind y hy => ?_⟩
    rcases List.mem_append.mp hy with hy | hy
    · exact h.newer hkind y hy
    · rw [List.mem_singleton.mp hy]
      exact hnewer hkind

/-- What messages that have arrived leave of a program: a limit, and what it
has yet to process are the messages it would take. -/
structure Arrived (p : Uuid) (db : Db) (program : ProgramEntity) (messages : List TreasuryMessage)
    (before : List TreasuryMessage) (db' : Db) (after : ProgramEntity) : Prop where
  found : db'.program? p = some after
  limit : ∀ limitMinor, after.creditLimitMinor = limitMinor ↔
    LimitLeft p db program before limitMinor
  taken : ∀ m ∈ messages, Unprocessed p db' after m ↔ Taken p db program before m

theorem Arrived.refl (hp : db.program? p = some program) :
    Arrived p db program messages [] db program where
  found := hp
  limit _ := LastWrite.leaves_nil.symm
  taken _ _ := ⟨fun h => ⟨h, by simp, by simp⟩, fun h => h.toUnprocessed⟩

/-! ## One message -/

/-- **A message that was processed** changes nothing, nor what is taken. -/
theorem Arrived.skip (h : Arrived p db program messages before db' after) (hmem : m ∈ messages)
    (hseen : ¬ Unprocessed p db' after m) :
    Arrived p db program messages (before ++ [m]) db' after := by
  rw [h.taken m hmem] at hseen
  refine ⟨h.found, fun limitMinor => ?_, fun x hx => ?_⟩
  · rw [h.limit]
    exact (LastWrite.leaves_append_of_not_writes hseen).symm
  · rw [h.taken x hx, taken_append]
    refine ⟨fun hx => ⟨hx, fun he => hseen (he ▸ hx), fun hkind hsnapshot hnew => ?_⟩, And.left⟩
    -- what kept it from being taken is older than what is taken now
    by_contra hlt
    refine hseen ⟨hnew, fun hb => hlt (hx.newer hkind m hb hsnapshot hnew),
      fun _ y hy hy' hnew' => ?_⟩
    exact (hx.newer hkind y hy hy' hnew').trans_le (not_lt.mp hlt)

/-- What is yet to process after a message was applied. -/
theorem unprocessed_write {c : Db} {next : ProgramEntity} {row : ProcessedMessageEntity}
    (hm : Unprocessed p db' after m) (hmessages : c.messages = db'.messages ++ [row])
    (hid : row.messageId = m.messageId) (hprogram : row.programId = p) (hkind : row.kind = m.kind)
    (hversion : row.version = m.version)
    (hnext : next.treasuryVersion =
      if m.kind = .snapshot then m.version else after.treasuryVersion) :
    Unprocessed p c next x ↔ Unprocessed p db' after x ∧ m.messageId ≠ x.messageId ∧
      ¬ (m.kind = x.kind ∧ m.version = x.version) ∧
      (x.kind = .snapshot → m.kind = .snapshot → m.version ≤ x.version) := by
  have hids : c.message? x.messageId = none ↔
      db'.message? x.messageId = none ∧ m.messageId ≠ x.messageId := by
    rw [Db.message?_append hmessages, hid]
    by_cases he : m.messageId = x.messageId <;> simp [he]
  have hversions : c.messagesAt p x.kind x.version = [] ↔
      db'.messagesAt p x.kind x.version = [] ∧ ¬ (m.kind = x.kind ∧ m.version = x.version) := by
    rw [Db.messagesAt_append hmessages, hprogram, hkind, hversion]
    by_cases he : m.kind = x.kind ∧ m.version = x.version <;> simp [he]
  have hstale : (x.kind = .snapshot → next.treasuryVersion ≤ x.version) ↔
      (x.kind = .snapshot → after.treasuryVersion ≤ x.version) ∧
        (x.kind = .snapshot → m.kind = .snapshot → m.version ≤ x.version) := by
    rw [hnext]
    by_cases hsnapshot : m.kind = .snapshot
    · rw [if_pos hsnapshot]
      have hgrows := hm.notStale hsnapshot
      exact ⟨fun h => ⟨fun hx => hgrows.trans (h hx), fun hx _ => h hx⟩,
        fun h hx => h.2 hx hsnapshot⟩
    · simp [hsnapshot]
  constructor
  · intro h
    obtain ⟨hid', hne⟩ := hids.mp h.id
    obtain ⟨hversion', hdistinct⟩ := hversions.mp h.version
    obtain ⟨hnot, hnewer⟩ := hstale.mp h.notStale
    exact ⟨⟨hid', hversion', hnot⟩, hne, hdistinct, hnewer⟩
  · rintro ⟨h, hne, hdistinct, hnewer⟩
    exact ⟨hids.mpr ⟨h.id, hne⟩, hversions.mpr ⟨h.version, hdistinct⟩,
      hstale.mpr ⟨h.notStale, hnewer⟩⟩

/-- **A message that is applied** sets its limit, and is processed. -/
theorem Arrived.write (h : Arrived p db program messages before db' after)
    (hm : LimitMessages p messages) (hmem : m ∈ messages) (hnew : Unprocessed p db' after m)
    {c : Db} {next : ProgramEntity} {row : ProcessedMessageEntity}
    (hfound : c.program? p = some next) (hlimit : next.creditLimitMinor = m.limitMinor)
    (hmessages : c.messages = db'.messages ++ [row]) (hid : row.messageId = m.messageId)
    (hprogram : row.programId = p) (hkind : row.kind = m.kind) (hversion : row.version = m.version)
    (hnext : next.treasuryVersion =
      if m.kind = .snapshot then m.version else after.treasuryVersion) :
    Arrived p db program messages (before ++ [m]) c next := by
  have htaken := (h.taken m hmem).mp hnew
  refine ⟨hfound, fun limitMinor => ?_, fun x hx => ?_⟩
  · rw [hlimit]
    exact (LastWrite.leaves_append_of_writes htaken).symm
  rw [taken_append, ← h.taken x hx,
    unprocessed_write hnew hmessages hid hprogram hkind hversion hnext]
  refine and_congr_right fun _ => ?_
  constructor
  · rintro ⟨hne, hdistinct, hnewer⟩
    have hother : x ≠ m := fun he => hne (by rw [he])
    refine ⟨hother, fun hx' hm' _ => lt_of_le_of_ne (hnewer hx' hm') fun he => ?_⟩
    exact hdistinct ⟨hm'.trans hx'.symm, he⟩
  · rintro ⟨hother, hnewer⟩
    exact ⟨fun he => hother (hm.ids x hx m hmem he.symm),
      fun he => hother (hm.versions x hx m hmem he.2.symm),
      fun hx' hm' => (hnewer hx' hm' htaken.toUnprocessed).le⟩

variable [Sha256]

/-- The limit an applied LIMIT_CHANGED leaves. -/
theorem EventApplied.limit_after (h : EventApplied rt event coordinates db program db')
    (htype : event.type = .limitChanged) : ∃ after, db'.program? program.id = some after ∧
      after.creditLimitMinor = event.payload.amountMinor ∧
      after.treasuryVersion = program.treasuryVersion := by
  have hrow := h.program?_after program.id
  rw [if_pos rfl] at hrow
  have hentry : componentSum .limit [ApplyTreasuryEventService.buildEntry event program] =
      event.payload.amountMinor - program.creditLimitMinor := by
    simp [componentSum_singleton, ApplyTreasuryEventService.buildEntry, htype]
  have hcomponent := @advancePosition_component program.toProgramPosition
    [ApplyTreasuryEventService.buildEntry event program] rt.now .limit
  rw [hentry] at hcomponent
  refine ⟨_, hrow, ?_, ?_⟩
  · rw [withAppliedEffectiveAt_position]
    exact hcomponent.trans (add_sub_cancel _ _)
  · unfold Stmt.withAppliedEffectiveAt; split <;> rfl

/-- The limit an applied snapshot leaves. -/
theorem SnapshotApplied.limit_after {marker : SnapshotMarker} {ids : List Uuid}
    {investigationRequired : Bool} {deltas : SnapshotDeltas}
    (h : SnapshotApplied rt snapshot marker coordinates db program ids investigationRequired deltas
      db') : ∃ after, db'.program? program.id = some after ∧
      after.creditLimitMinor = snapshot.creditLimitMinor ∧
      after.treasuryVersion = snapshot.version := by
  have hrow := h.program?_after program.id
  rw [if_pos rfl] at hrow
  obtain ⟨-, -, -, hlimit⟩ := applySnapshotPolicy_apply h.decided
  have hcomponent := @advancePosition_component program.toProgramPosition
    (ApplySnapshotService.buildEntries deltas snapshot) rt.now .limit
  rw [componentSum_buildEntries, SnapshotDeltas.component, hlimit] at hcomponent
  exact ⟨_, hrow, hcomponent.trans (add_sub_cancel _ _), rfl⟩

/-- **One LIMIT_CHANGED.** -/
theorem Arrived.handleEvent {o : HandleOutcome} {c : Db}
    (h : Arrived p db program messages before db' after) (hm : LimitMessages p messages)
    (hmem : .event event ∈ messages)
    (hrun : engine.run (handleCapacityEvent rt event coordinates) db' = .ok (o, c))
    (ho : o.Accepted) :
    ∃ next, Arrived p db program messages (before ++ [.event event]) c next := by
  have hprogram : Uuid.ofText event.programId = p := hm.program _ hmem
  have htype := hm.limitChanged event hmem
  rcases handleEvent_cases hrun with
    ⟨found, rfl, ha⟩ | ⟨found, reference, -, he⟩ | ⟨rfl, ⟨reason, rfl⟩ | ⟨rfl, hseen⟩⟩
  · obtain rfl : found = after := Option.some.inj (ha.found.symm.trans (hprogram ▸ h.found))
    obtain ⟨next, hnext, hlimit, hversion⟩ := ha.limit_after htype
    rw [Db.id_of_program? h.found] at hnext
    have hnew : Unprocessed p db' found (.event event) :=
      ⟨ha.id, Db.id_of_program? h.found ▸ ha.version, by simp [TreasuryMessage.kind]⟩
    exact ⟨next, h.write hm hmem hnew hnext hlimit ha.messages_after rfl hprogram rfl rfl
      (by simp [TreasuryMessage.kind, hversion])⟩
  · have href := he.referenced
    simp [ApplyTreasuryEventService.echoReference, htype] at href
  · exact absurd rfl (ho reason)
  · refine ⟨after, h.skip hmem fun hnew => ?_⟩
    rcases hseen with hid | ⟨found, hp, hversion⟩
    · exact absurd (hnew.id ▸ hid) (by simp)
    · rw [Db.id_of_program? hp, hprogram] at hversion
      exact hversion hnew.version

/-- **One snapshot.** -/
theorem Arrived.handleSnapshot {o : HandleOutcome} {c : Db}
    (h : Arrived p db program messages before db' after) (hm : LimitMessages p messages)
    (hmem : .snapshot snapshot ∈ messages)
    (hrun : engine.run (handleReconciliationSnapshot rt snapshot coordinates) db' = .ok (o, c))
    (ho : o.Accepted) :
    ∃ next, Arrived p db program messages (before ++ [.snapshot snapshot]) c next := by
  have hprogram : Uuid.ofText snapshot.programId = p := hm.program _ hmem
  rcases handleSnapshot_cases hrun with
    ⟨rfl, marker, found, ids, investigationRequired, deltas, ha⟩ |
      ⟨rfl, ⟨reason, rfl⟩ | ⟨rfl, hseen⟩⟩
  · obtain rfl : found = after := Option.some.inj (ha.found.symm.trans (hprogram ▸ h.found))
    obtain ⟨next, hnext, hlimit, hversion⟩ := ha.limit_after
    rw [Db.id_of_program? h.found] at hnext
    have hnew : Unprocessed p db' found (.snapshot snapshot) :=
      ⟨ha.id, Db.id_of_program? h.found ▸ ha.version, fun _ => ha.notStale⟩
    exact ⟨next, h.write hm hmem hnew hnext hlimit ha.messages_after rfl hprogram rfl rfl
      (by simp [TreasuryMessage.kind, TreasuryMessage.version, hversion])⟩
  · exact absurd rfl (ho reason)
  · refine ⟨after, h.skip hmem fun hnew => ?_⟩
    rcases hseen with hid | ⟨found, hp, hstale | hversion⟩
    · exact absurd (hnew.id ▸ hid) (by simp)
    · obtain rfl : found = after := Option.some.inj (hp.symm.trans (hprogram ▸ h.found))
      exact absurd (hnew.notStale rfl) (not_le.mpr hstale)
    · rw [Db.id_of_program? hp, hprogram] at hversion
      exact hversion hnew.version

/-! ## Every order -/

variable {policy : RetryPolicy} {state : ConsumerState} {order : List InboundMessage}

/-- **A run of limit messages**, none of them quarantined. -/
theorem Arrived.consume (h : Arrived p db program messages before state.db after)
    (hm : LimitMessages p messages) (horder : ∀ inbound ∈ order, inbound.message ∈ messages)
    (haccepted : ∀ o ∈ handled policy order state, ∃ h : HandleOutcome, o = some h ∧ h.Accepted) :
    ∃ last, Arrived p db program messages (before ++ order.map (·.message))
      (InvoiceReservation.consume policy order state).db last := by
  induction order generalizing before state after with
  | nil => exact ⟨after, by simpa using h⟩
  | cons inbound order ih =>
    obtain ⟨hmem, horder⟩ := List.forall_mem_cons.mp horder
    rw [handled_cons] at haccepted
    obtain ⟨⟨o, hsome, ho⟩, haccepted⟩ := List.forall_mem_cons.mp haccepted
    obtain ⟨c, hrun⟩ := handledAs_eq_some.mp hsome
    have hdb : (processMessage policy state inbound).db = c := processMessage_db_of_ok hrun
    obtain ⟨next, hnext⟩ : ∃ next, Arrived p db program messages (before ++ [inbound.message]) c
        next := by
      unfold dispatch at hrun
      cases hmessage : inbound.message with
      | event message =>
        rw [hmessage] at hrun hmem
        exact h.handleEvent hm hmem hrun ho
      | snapshot message =>
        rw [hmessage] at hrun hmem
        exact h.handleSnapshot hm hmem hrun ho
    rw [List.map_cons, List.append_cons, consume_cons]
    exact ih (hdb.symm ▸ hnext) horder haccepted

end InvoiceReservation

namespace InvoiceReservation

open Transactions

attribute [local instance] trafficSha256

/-- An older and a newer limit. -/
def limitChanges : List TreasuryMessage :=
  [.event (capacityEvent "evt-00001" 1 .limitChanged 100),
    .event (capacityEvent "evt-00002" 2 .limitChanged 200)]

end InvoiceReservation
