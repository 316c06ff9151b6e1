import InvoiceReservation.Helpers.Handlers
import InvoiceReservation.Helpers.Positions
import InvoiceReservation.Model.Seed
import InvoiceReservation.Properties.Concurrency
/-!
# At most once for every message

Messages are delivered any number of times, to any number of consumers at
once, among the requests of the API; a handler that died between its
commit and its offset is a delivery more. What the messages come to is
kept in two logs, of the events and of the snapshots: each processed
message with the ledger entries it caused.
-/

namespace InvoiceReservation

open Transactions

variable [Sha256] {db db' c : Db}

/-- The states that handlers and requests can reach from a database. -/
abbrev Delivered (db : Db) (sys : Sys Stmt Db Write Failure Reply LockedTransaction Key) : Prop :=
  Reachable engine locks (fun t => t.operation.tx) db sys

/-- What committed, with its answer. -/
abbrev History := List (LockedTransaction × LockedReply)

/-- The events that were recorded, and whether each was applied: else it was
suppressed as an echo. -/
def eventsOf (history : History) : List (CapacityEvent × Bool) :=
  history.filterMap fun
    | (.event _ event _, .applied .applied) => some (event, true)
    | (.event _ event _, .applied .echoSuppressed) => some (event, false)
    | _ => none

/-- The snapshots that were applied. -/
def snapshotsOf (history : History) : List ReconciliationSnapshot :=
  history.filterMap fun
    | (.snapshot _ snapshot _, .applied .applied) => some snapshot
    | _ => none

/-- An entry of an event: treasury's, of the two causes events have. -/
def PendingLedgerEntry.ofEvent (entry : PendingLedgerEntry) : Bool :=
  entry.actor = "treasury" ∧ (entry.cause = .treasuryEvent ∨ entry.cause = .limitChange)

/-- An entry of a snapshot. -/
def PendingLedgerEntry.ofSnapshot (entry : PendingLedgerEntry) : Bool :=
  entry.cause = .reconciliationAdjustment

/-- A processed message with the ledger entries it caused. -/
abbrev Logged := ProcessedMessageEntity × List CapacityLedgerEntryEntity

/-- A log of all messages of a kind, and of all their entries. -/
structure Journal (kind : MessageKind) (own : PendingLedgerEntry → Bool) (log : List Logged)
    (c : Db) : Prop where
  messages : log.map (·.1) = c.messages.filter (·.kind = kind)
  entries : log.flatMap (·.2) = c.ledger.filter fun row => own row.toPendingLedgerEntry

/-- An event in its log: one entry if it was applied, and none if it was
suppressed. -/
structure EventEffect (event : CapacityEvent × Bool) (logged : Logged) : Prop where
  message : ∃ rt, logged.1 = ApplyTreasuryEventService.messageRow rt event.1
  program : ∀ row ∈ logged.2, row.programId = logged.1.programId
  entries : ∃ program, logged.2.map (·.toPendingLedgerEntry) =
    if event.2 then [ApplyTreasuryEventService.buildEntry event.1 program] else []

/-- A snapshot in its log: at most one entry for each component, which
carries its id. -/
structure SnapshotEffect (snapshot : ReconciliationSnapshot) (logged : Logged) : Prop where
  message : ∃ rt, logged.1 = ApplySnapshotService.messageRow rt snapshot
  program : ∀ row ∈ logged.2, row.programId = logged.1.programId
  once : ∀ component : PositionComponent, (logged.2.filter (·.component = component)).length ≤ 1
  carried : ∀ row ∈ logged.2, row.originReference = some logged.1.messageId

/-- **What the messages of a history come to.** -/
structure AtMostOnce (history : History) (c : Db) : Prop where
  /-- No two rows have one id. -/
  ids : (c.messages.map (·.messageId)).Nodup
  /-- The `EVENT` rows are those of the recorded events, and the entries of
  events are those of the rows that were not suppressed. -/
  events : ∃ log, Journal .event PendingLedgerEntry.ofEvent log c ∧
    List.Forall₂ EventEffect (eventsOf history) log
  /-- The `SNAPSHOT` rows are those of the applied snapshots, and the
  adjustments are theirs. -/
  snapshots : ∃ log, Journal .snapshot PendingLedgerEntry.ofSnapshot log c ∧
    List.Forall₂ SnapshotEffect (snapshotsOf history) log
  /-- Every `SNAPSHOT` row has one acknowledgement. -/
  acknowledgements : c.acknowledgements.map (·.messageId) =
    (c.messages.filter (·.kind = .snapshot)).map (·.messageId)

/-- A database that has had no messages. -/
structure Undelivered (db : Db) : Prop where
  messages : db.messages = []
  acknowledgements : db.acknowledgements = []
  ledger : ∀ row ∈ db.ledger, row.ofEvent = false ∧ row.ofSnapshot = false

/-! ## What an advance appends -/

/-- A predicate of entries that no marker meets. -/
def Unmarked (own : PendingLedgerEntry → Bool) : Prop :=
  ∀ cause ∈ [LedgerCause.overLimitOnset, LedgerCause.overLimitCleared], ∀ correlationId,
    own (overLimitMarker cause correlationId) = false

omit [Sha256] in
theorem unmarked_ofEvent : Unmarked PendingLedgerEntry.ofEvent := by
  intro cause _ correlationId
  simp [PendingLedgerEntry.ofEvent, overLimitMarker]

omit [Sha256] in
theorem unmarked_ofSnapshot : Unmarked PendingLedgerEntry.ofSnapshot := by
  intro cause hcause correlationId
  rcases List.mem_pair.mp hcause with rfl | rfl <;> rfl

omit [Sha256] in
/-- The entries of an advance that a predicate picks are those it picks of
the entries asked for. -/
theorem filter_advance {own : PendingLedgerEntry → Bool} {p : Uuid} {program : ProgramPosition}
    {entries : List PendingLedgerEntry} {now : Timestamp} (hown : Unmarked own) :
    ((Stmt.ledgerRows p (advancePosition program entries now).entries now).filter
      fun row => own row.toPendingLedgerEntry).map (·.toPendingLedgerEntry) =
        entries.filter own := by
  have hrows : (Stmt.ledgerRows p (advancePosition program entries now).entries now).map
      (·.toPendingLedgerEntry) = entries ++ markers program entries := by
    rw [← @advancePosition_entries program entries now, Stmt.ledgerRows, List.map_map]
    rfl
  have hmarkers : (markers program entries).filter own = [] := by
    refine List.filter_eq_nil_iff.mpr fun marker hm => ?_
    obtain ⟨cause, hcause, rfl⟩ := of_mem_markers hm
    simp [hown cause hcause]
  have hmap := congrArg (List.filter own) hrows
  rw [List.filter_append, hmarkers, List.append_nil, List.filter_map] at hmap
  exact hmap

omit [Sha256] in
theorem filter_advance_nil {own : PendingLedgerEntry → Bool} {p : Uuid} {program : ProgramPosition}
    {entries : List PendingLedgerEntry} {now : Timestamp} (hown : Unmarked own)
    (hentries : entries.filter own = []) :
    (Stmt.ledgerRows p (advancePosition program entries now).entries now).filter
      (fun row => own row.toPendingLedgerEntry) = [] := by
  have h := @filter_advance own p program entries now hown
  rw [hentries] at h
  exact List.map_eq_nil_iff.mp h

/-! ## One commit -/

section Commits

variable {history : History} {entry : LockedTransaction × LockedReply}
variable {rows : List CapacityLedgerEntryEntity} {log more : List Logged}

omit [Sha256] in
/-- A log goes on with what is appended. -/
theorem Journal.append {kind : MessageKind} {own : PendingLedgerEntry → Bool}
    {messages : List ProcessedMessageEntity} (h : Journal kind own log db)
    (hmessages : db'.messages = db.messages ++ messages) (hledger : db'.ledger = db.ledger ++ rows)
    (hmore : more.map (·.1) = messages.filter (·.kind = kind))
    (hrows : more.flatMap (·.2) = rows.filter fun row => own row.toPendingLedgerEntry) :
    Journal kind own (log ++ more) db' where
  messages := by rw [List.map_append, h.messages, hmore, hmessages, List.filter_append]
  entries := by rw [List.flatMap_append, h.entries, hrows, hledger, List.filter_append]

omit [Sha256] in
/-- A new message keeps ids apart. -/
theorem ids_append {row : ProcessedMessageEntity} (h : (db.messages.map (·.messageId)).Nodup)
    (hnew : db.message? row.messageId = none) :
    ((db.messages ++ [row]).map (·.messageId)).Nodup := by
  rw [List.map_append, List.nodup_append]
  refine ⟨h, by simp, fun id hid id' hid' => ?_⟩
  obtain ⟨x, hx, rfl⟩ := List.mem_map.mp hid
  obtain rfl := List.mem_singleton.mp hid'
  exact Table.get_eq_none_iff.mp hnew x hx

omit [Sha256] in
theorem eventsOf_append {xs ys : History} : eventsOf (xs ++ ys) = eventsOf xs ++ eventsOf ys :=
  List.filterMap_append

omit [Sha256] in
theorem snapshotsOf_append {xs ys : History} :
    snapshotsOf (xs ++ ys) = snapshotsOf xs ++ snapshotsOf ys :=
  List.filterMap_append

/-- A commit that records no message and adds no entry of one. -/
theorem AtMostOnce.quiet (h : AtMostOnce history db) (hmessages : db'.messages = db.messages)
    (hacknowledgements : db'.acknowledgements = db.acknowledgements)
    (hledger : db'.ledger = db.ledger ++ rows)
    (hevents : rows.filter (·.ofEvent) = []) (hsnapshots : rows.filter (·.ofSnapshot) = [])
    (he : eventsOf [entry] = []) (hs : snapshotsOf [entry] = []) :
    AtMostOnce (history ++ [entry]) db' where
  ids := hmessages ▸ h.ids
  events := by
    obtain ⟨log, hlog, hall⟩ := h.events
    have hmessages' : db'.messages = db.messages ++ [] := by simpa using hmessages
    refine ⟨log ++ [], hlog.append hmessages' hledger rfl hevents.symm, ?_⟩
    rwa [eventsOf_append, he, List.append_nil, List.append_nil]
  snapshots := by
    obtain ⟨log, hlog, hall⟩ := h.snapshots
    have hmessages' : db'.messages = db.messages ++ [] := by simpa using hmessages
    refine ⟨log ++ [], hlog.append hmessages' hledger rfl hsnapshots.symm, ?_⟩
    rwa [snapshotsOf_append, hs, List.append_nil, List.append_nil]
  acknowledgements := by rw [hacknowledgements, h.acknowledgements, hmessages]

/-- A commit that records an event. -/
theorem AtMostOnce.event {rt : Runtime} {event : CapacityEvent} {applied : Bool}
    (h : AtMostOnce history db)
    (hmessages : db'.messages = db.messages ++ [ApplyTreasuryEventService.messageRow rt event])
    (hnew : db.message? event.messageId = none)
    (hacknowledgements : db'.acknowledgements = db.acknowledgements)
    (hledger : db'.ledger = db.ledger ++ rows)
    (heffect : EventEffect (event, applied)
      (ApplyTreasuryEventService.messageRow rt event, rows.filter (·.ofEvent)))
    (hsnapshots : rows.filter (·.ofSnapshot) = [])
    (he : eventsOf [entry] = [(event, applied)]) (hs : snapshotsOf [entry] = []) :
    AtMostOnce (history ++ [entry]) db' where
  ids := hmessages ▸ ids_append h.ids hnew
  events := by
    obtain ⟨log, hlog, hall⟩ := h.events
    refine ⟨log ++ [(ApplyTreasuryEventService.messageRow rt event, rows.filter (·.ofEvent))],
      hlog.append hmessages hledger rfl (by simp), ?_⟩
    rw [eventsOf_append, he]
    exact List.rel_append hall (.cons heffect .nil)
  snapshots := by
    obtain ⟨log, hlog, hall⟩ := h.snapshots
    refine ⟨log ++ [], hlog.append hmessages hledger rfl hsnapshots.symm, ?_⟩
    rwa [snapshotsOf_append, hs, List.append_nil, List.append_nil]
  acknowledgements := by
    rw [hacknowledgements, h.acknowledgements, hmessages, List.filter_append]
    simp [ApplyTreasuryEventService.messageRow]

/-- A commit that applies a snapshot. -/
theorem AtMostOnce.snapshot {rt : Runtime} {snapshot : ReconciliationSnapshot}
    {marker : SnapshotMarker} (h : AtMostOnce history db)
    (hmessages : db'.messages = db.messages ++ [ApplySnapshotService.messageRow rt snapshot])
    (hnew : db.message? snapshot.messageId = none)
    (hacknowledgements : db'.acknowledgements =
      db.acknowledgements ++ [ApplySnapshotService.acknowledgementRow snapshot marker])
    (hledger : db'.ledger = db.ledger ++ rows)
    (heffect : SnapshotEffect snapshot
      (ApplySnapshotService.messageRow rt snapshot, rows.filter (·.ofSnapshot)))
    (hevents : rows.filter (·.ofEvent) = [])
    (he : eventsOf [entry] = []) (hs : snapshotsOf [entry] = [snapshot]) :
    AtMostOnce (history ++ [entry]) db' where
  ids := hmessages ▸ ids_append h.ids hnew
  events := by
    obtain ⟨log, hlog, hall⟩ := h.events
    refine ⟨log ++ [], hlog.append hmessages hledger rfl hevents.symm, ?_⟩
    rwa [eventsOf_append, he, List.append_nil, List.append_nil]
  snapshots := by
    obtain ⟨log, hlog, hall⟩ := h.snapshots
    refine ⟨log ++ [(ApplySnapshotService.messageRow rt snapshot, rows.filter (·.ofSnapshot))],
      hlog.append hmessages hledger rfl (by simp), ?_⟩
    rw [snapshotsOf_append, hs]
    exact List.rel_append hall (.cons heffect .nil)
  acknowledgements := by
    rw [hacknowledgements, List.map_append, h.acknowledgements, hmessages, List.filter_append,
      List.map_append]
    simp [ApplySnapshotService.messageRow, ApplySnapshotService.acknowledgementRow]

/-- A commit with no effect. -/
theorem AtMostOnce.idle {t : LockedTransaction} {reply : LockedReply} (h : AtMostOnce history db)
    (hidle : reply.Idle) : AtMostOnce (history ++ [(t, reply)]) db := by
  refine h.quiet rfl rfl (List.append_nil _).symm rfl rfl ?_ ?_
  · cases reply with
    | write outcome => cases t <;> rfl
    | applied outcome => cases outcome <;> first | exact hidle.elim | (cases t <;> rfl)
  · cases reply with
    | write outcome => cases t <;> rfl
    | applied outcome => cases outcome <;> first | exact hidle.elim | (cases t <;> rfl)

theorem AtMostOnce.applied {rt : Runtime} {event : CapacityEvent} {coordinates : StreamCoordinates}
    {program : ProgramEntity} (h : AtMostOnce history db)
    (ha : EventApplied rt event coordinates db program db') :
    AtMostOnce (history ++ [(.event rt event coordinates, .applied .applied)]) db' := by
  have hid : program.id = Uuid.ofText event.programId := Db.id_of_program? ha.found
  refine h.event ha.messages_after ha.id ha.acknowledgements_after ha.ledger_after
    ⟨⟨rt, rfl⟩, ?_, program, ?_⟩ ?_ rfl rfl
  · intro row hrow
    obtain ⟨entry, -, rfl⟩ := List.mem_map.mp (List.mem_of_mem_filter hrow)
    exact hid
  · dsimp only [if_true]
    rw [eventAdvance, filter_advance unmarked_ofEvent]
    unfold ApplyTreasuryEventService.buildEntry
    cases event.type <;> rfl
  · rw [eventAdvance]
    refine filter_advance_nil unmarked_ofSnapshot ?_
    unfold ApplyTreasuryEventService.buildEntry
    cases event.type <;> rfl

theorem AtMostOnce.echoed {rt : Runtime} {event : CapacityEvent} {coordinates : StreamCoordinates}
    {program : ProgramEntity} {reference : String} (h : AtMostOnce history db)
    (ha : EventEchoed rt event coordinates db program reference db') :
    AtMostOnce (history ++ [(.event rt event coordinates, .applied .echoSuppressed)]) db' := by
  have hledger : db'.ledger = db.ledger ++ [] := by rw [ha.ledger_after, List.append_nil]
  exact h.event ha.messages_after ha.id ha.acknowledgements_after hledger
    ⟨⟨rt, rfl⟩, by simp, program, rfl⟩ rfl rfl rfl

omit [Sha256] in
/-- A snapshot has at most one entry for each component. -/
theorem buildEntries_once {snapshot : ReconciliationSnapshot} {deltas : SnapshotDeltas}
    (component : PositionComponent) : ((ApplySnapshotService.buildEntries deltas snapshot).filter
      (·.component = component)).length ≤ 1 := by
  unfold ApplySnapshotService.buildEntries
  dsimp only
  rw [List.filter_append, List.filter_append]
  cases component <;> split_ifs <;> simp

omit [Sha256] in
/-- And they carry its id. -/
theorem buildEntries_own {snapshot : ReconciliationSnapshot} {deltas : SnapshotDeltas}
    {entry : PendingLedgerEntry} (h : entry ∈ ApplySnapshotService.buildEntries deltas snapshot) :
    entry.originReference = some snapshot.messageId ∧ entry.ofSnapshot = true ∧
      entry.ofEvent = false := by
  obtain ⟨hcause, -, horigin, -⟩ := mem_buildEntries h
  exact ⟨horigin, by simp [PendingLedgerEntry.ofSnapshot, hcause],
    by simp [PendingLedgerEntry.ofEvent, hcause]⟩

theorem AtMostOnce.corrected {rt : Runtime} {snapshot : ReconciliationSnapshot}
    {marker : SnapshotMarker} {coordinates : StreamCoordinates} {program : ProgramEntity}
    {ids : List Uuid} {investigationRequired : Bool} {deltas : SnapshotDeltas}
    (h : AtMostOnce history db)
    (ha : SnapshotApplied rt snapshot marker coordinates db program ids investigationRequired deltas
      db') :
    AtMostOnce (history ++ [(.snapshot rt snapshot coordinates, .applied .applied)]) db' := by
  have hid : program.id = Uuid.ofText snapshot.programId := Db.id_of_program? ha.found
  have hfilter : (ApplySnapshotService.buildEntries deltas snapshot).filter (·.ofSnapshot) =
      ApplySnapshotService.buildEntries deltas snapshot :=
    List.filter_eq_self.mpr fun entry hentry => (buildEntries_own hentry).2.1
  have hown := @filter_advance PendingLedgerEntry.ofSnapshot program.id program.toProgramPosition
    (ApplySnapshotService.buildEntries deltas snapshot) rt.now unmarked_ofSnapshot
  rw [hfilter] at hown
  refine h.snapshot ha.messages_after ha.id ha.acknowledgements_after ha.ledger_after
    ⟨⟨rt, rfl⟩, ?_, fun component => ?_, fun row hrow => ?_⟩ ?_ rfl rfl
  · intro row hrow
    obtain ⟨entry, -, rfl⟩ := List.mem_map.mp (List.mem_of_mem_filter hrow)
    exact hid
  · have honce := @buildEntries_once snapshot deltas component
    rw [← hown, List.filter_map, List.length_map] at honce
    exact honce
  · have hmem : row.toPendingLedgerEntry ∈ ApplySnapshotService.buildEntries deltas snapshot := by
      rw [← hown]; exact List.mem_map_of_mem hrow
    exact (buildEntries_own hmem).1
  · refine filter_advance_nil unmarked_ofEvent (List.filter_eq_nil_iff.mpr fun entry hentry => ?_)
    simp [(buildEntries_own hentry).2.2]

/-- A request's entry is no message's. -/
theorem AtMostOnce.advanced {t : LockedTransaction} {outcome : WriteOutcome} {p : Uuid}
    {program : ProgramPosition} {pending : PendingLedgerEntry} {now : Timestamp}
    (h : AtMostOnce history db) (hmessages : db'.messages = db.messages)
    (hacknowledgements : db'.acknowledgements = db.acknowledgements)
    (hledger : db'.ledger = db.ledger ++
      Stmt.ledgerRows p (advancePosition program [pending] now).entries now)
    (hpending : pending.ofEvent = false ∧ pending.ofSnapshot = false) :
    AtMostOnce (history ++ [(t, .write outcome)]) db' := by
  refine h.quiet hmessages hacknowledgements hledger
    (filter_advance_nil unmarked_ofEvent (by simp [hpending.1]))
    (filter_advance_nil unmarked_ofSnapshot (by simp [hpending.2])) ?_ ?_ <;> cases t <;> rfl

/-- **One commit.** -/
theorem AtMostOnce.run {t : LockedTransaction} {reply : LockedReply} (h : AtMostOnce history db)
    (hr : engine.run t.tx db = .ok (reply, db')) : AtMostOnce (history ++ [(t, reply)]) db' := by
  cases t with
  | reserve rt command =>
    obtain ⟨outcome, hran, rfl⟩ := Engine.run_map_ok.mp hr
    obtain ⟨program, -, ⟨⟨row, -, hanswer⟩, rfl⟩ | ⟨reservedMinor, fx, ha⟩⟩ := reserve_cases hran
    · exact h.idle (answer_ok.mp hanswer).2.2.2.2
    · refine h.advanced ha.messages_after ha.acknowledgements_after ha.ledger_after ⟨?_, ?_⟩
      · simp [PendingLedgerEntry.ofEvent, ReserveCommand.entry]
      · rfl
  | release rt command =>
    obtain ⟨outcome, hran, rfl⟩ := Engine.run_map_ok.mp hr
    obtain ⟨program, -, ⟨⟨row, -, hanswer⟩, rfl⟩ | ⟨row, rate, applied, -, -, ha⟩⟩ :=
      release_cases hran
    · exact h.idle (answer_ok.mp hanswer).2.2.2.2
    · refine h.advanced ha.messages_after ha.acknowledgements_after ha.ledger_after ⟨?_, ?_⟩
      · simp [PendingLedgerEntry.ofEvent, ReleaseCommand.entry]
      · rfl
  | cancel rt command =>
    obtain ⟨outcome, hran, rfl⟩ := Engine.run_map_ok.mp hr
    obtain ⟨program, -, ⟨⟨row, -, hanswer⟩, rfl⟩ | ⟨row, applied, hd, ha⟩⟩ := cancel_cases hran
    · exact h.idle (answer_ok.mp hanswer).2.2.2.2
    · have hcause : applied.cause = .writeOff ∨ applied.cause = .cancellation :=
        cancelPolicy_cause hd
      refine h.advanced ha.messages_after ha.acknowledgements_after ha.ledger_after ⟨?_, ?_⟩
      · rcases hcause with hc | hc <;> simp [PendingLedgerEntry.ofEvent, CancelCommand.entry, hc]
      · rcases hcause with hc | hc <;> simp [PendingLedgerEntry.ofSnapshot, CancelCommand.entry, hc]
  | event rt message coordinates =>
    obtain ⟨outcome, hran, rfl⟩ := Engine.run_map_ok.mp hr
    rcases applyEvent_cases (run_eventTransaction hran) with
      ⟨hidle, rfl⟩ | ⟨program, rfl, ha⟩ | ⟨program, reference, rfl, ha⟩
    · exact h.idle hidle
    · exact h.applied ha
    · exact h.echoed ha
  | snapshot rt message coordinates =>
    obtain ⟨outcome, hran, rfl⟩ := Engine.run_map_ok.mp hr
    rcases applySnapshot_cases (run_snapshotTransaction hran) with
      ⟨hidle, rfl⟩ | ⟨rfl, marker, program, ids, investigationRequired, deltas, ha⟩
    · exact h.idle hidle
    · exact h.corrected ha

end Commits

/-! ## Every interleaving -/

theorem Undelivered.atMostOnce (h : Undelivered db) : AtMostOnce [] db where
  ids := by simp [h.messages]
  events := by
    refine ⟨[], ⟨by simp [h.messages], ?_⟩, .nil⟩
    exact (List.filter_eq_nil_iff.mpr fun row hrow => by simp [(h.ledger row hrow).1]).symm
  snapshots := by
    refine ⟨[], ⟨by simp [h.messages], ?_⟩, .nil⟩
    exact (List.filter_eq_nil_iff.mpr fun row hrow => by simp [(h.ledger row hrow).2]).symm
  acknowledgements := by simp [h.acknowledgements, h.messages]

/-- What an interleaving of locked transactions comes to. -/
theorem Interleaved.atMostOnce
    {core : Sys Stmt Db Write Failure LockedReply LockedTransaction Key} (hstart : Undelivered db)
    (h : Interleaved db core) : AtMostOnce core.history core.committed :=
  Reachable.induct_commits (D := keyed) (Q := LockedReply.Idle)
    (fun t => ⟨t.guard, rfl⟩) (fun t g hg => by cases hg; exact t.disciplined)
    hstart.atMostOnce (fun _ _ _ _ _ hc hr => hc.run hr) (fun _ _ _ _ hc hidle => hc.idle hidle) h

variable {sys sys' : Sys Stmt Db Write Failure Reply LockedTransaction Key}

/-- The message a handler handles. -/
def LockedTransaction.messageId? : LockedTransaction → Option String
  | .event _ message _ => some message.messageId
  | .snapshot _ message _ => some message.messageId
  | _ => none

/-- A handler of a message that has been processed: it has looked for it, or
will, and skips it. -/
structure Redelivered (a : Active Stmt Write Failure Reply LockedTransaction Key) : Prop where
  writes : a.writes = []
  skipped : a.rest = a.label.operation.tx ∨ a.rest = .pure (.handled .skipped)

/-- A handler looks for its message first, and skips it if it is there. -/
theorem LockedTransaction.selectMessage {t : LockedTransaction} {messageId : String}
    (h : t.messageId? = some messageId) :
    ∃ k, t.operation.tx = .exec (.selectMessage messageId) k ∧
      ∀ row, k (some row) = .pure (.handled .skipped) := by
  cases t with
  | reserve | release | cancel => cases h
  | event rt message coordinates => cases h; exact ⟨_, rfl, fun _ => rfl⟩
  | snapshot rt message coordinates => cases h; exact ⟨_, rfl, fun _ => rfl⟩

/-- **A handler that begins after its message was processed writes nothing.** -/
theorem redelivered {messageId : String}
    (hmessage : (sys.committed.message? messageId).isSome = true)
    (hs : Steps engine locks (fun t => t.operation.tx) sys sys') :
    (sys'.committed.message? messageId).isSome = true ∧
      ∀ t a, sys.active t = none → sys'.active t = some a → a.label.messageId? = some messageId →
        Redelivered a := by
  induction hs with
  | refl => exact ⟨hmessage, fun t a hnone ha => by rw [hnone] at ha; cases ha⟩
  | tail _ hstep ih =>
    obtain ⟨hpresent, ih⟩ := ih
    cases hstep with
    | begin t i _ =>
      refine ⟨hpresent, fun u a hnone hu hid => ?_⟩
      rcases update_active hu with ⟨rfl, he⟩ | ⟨-, hu⟩
      · cases he; exact ⟨rfl, Or.inl rfl⟩
      · exact ih u a hnone hu hid
    | exec t a s k b ws ha hrest hx _ =>
      refine ⟨hpresent, fun u a' hnone hu hid => ?_⟩
      rcases update_active hu with ⟨rfl, he⟩ | ⟨-, hu⟩
      · cases he
        have hbefore := ih u a hnone ha hid
        rcases hbefore.skipped with htx | hpure
        · obtain ⟨k', hk', hskip⟩ := LockedTransaction.selectMessage hid
          rw [htx, hk'] at hrest
          cases hrest
          rw [Sys.view, hbefore.writes, Engine.applyAll_nil] at hx
          cases Stmt.exec_of_send hx
          obtain ⟨row, hrow⟩ := Option.isSome_iff_exists.mp hpresent
          exact ⟨by simp [hbefore.writes], Or.inr (by rw [hrow]; exact hskip row)⟩
        · rw [hpure] at hrest; cases hrest
      · exact ih u a' hnone hu hid
    | abort t a _ =>
      refine ⟨hpresent, fun u a' hnone hu hid => ?_⟩
      obtain ⟨-, hu⟩ := finish_active hu
      exact ih u a' hnone hu hid
    | commit t a r _ _ =>
      refine ⟨keyed.present_applyAll (k := .message messageId) hpresent,
        fun u a' hnone hu hid => ?_⟩
      obtain ⟨-, hu⟩ := finish_active hu
      exact ih u a' hnone hu hid

/-- **At most once for every message.** Whatever handlers and requests
commit together, their locked transactions commit; what these come to is
what the history says; and a handler of a message that has been processed
writes nothing. -/
theorem at_most_once (hstart : Undelivered db) (h : Delivered db sys) :
    (∃ core, Interleaved db core ∧ core.committed = sys.committed ∧
      (core.history.map fun entry => (entry.1, entry.2.reply)).Sublist sys.history ∧
      AtMostOnce core.history sys.committed) ∧
    ∀ messageId, (sys.committed.message? messageId).isSome = true →
      ∀ sys', Steps engine locks (fun t => t.operation.tx) sys sys' →
        ∀ t a, sys.active t = none → sys'.active t = some a →
          a.label.messageId? = some messageId → Redelivered a := by
  refine ⟨?_, fun messageId hmessage sys' hs => (redelivered hmessage hs).2⟩
  obtain ⟨core, hcore, hsim⟩ := Reachable.simulated LockedTransaction.leads h
  exact ⟨core, hcore, hsim.committed, hsim.history,
    hsim.committed ▸ Interleaved.atMostOnce hstart hcore⟩

end InvoiceReservation

namespace InvoiceReservation

open Transactions

attribute [local instance] trafficSha256

/-- A booking that is delivered twice, and a snapshot. -/
def redeliveredBooking : List LockedTransaction :=
  [.event (callAt 1) (capacityEvent "evt-00001" 1 .reservationBooked 100)
      (coordinatesAt "treasury.capacity.events" 0),
    .event (callAt 2) (capacityEvent "evt-00001" 1 .reservationBooked 100)
      (coordinatesAt "treasury.capacity.events" 0),
    .snapshot (callAt 3) (reconciliationSnapshot "snap-00001" 1 1000000000 100)
      (coordinatesAt "treasury.capacity.snapshots" 0)]

theorem at_most_once_redeliveredBooking : ∃ sys, Delivered seeded sys ∧
    sys.history.map Prod.fst = redeliveredBooking ∧
    ∃ core, Interleaved seeded core ∧ core.committed = sys.committed ∧
      (core.history.map fun entry => (entry.1, entry.2.reply)).Sublist sys.history ∧
      AtMostOnce core.history sys.committed := by
  obtain ⟨sys, hreached, hhistory⟩ : ∃ sys, Delivered seeded sys ∧
      sys.history.map Prod.fst = redeliveredBooking := exists_reachable <| by
        rw [seeded_eq]
        decide +kernel
  have hstart : Undelivered seeded :=
    by
    rw [seeded_eq]
    exact ⟨rfl, rfl, by decide⟩
  exact ⟨sys, hreached, hhistory, (at_most_once hstart hreached).1⟩

end InvoiceReservation
