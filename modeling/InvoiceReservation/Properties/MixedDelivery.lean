import InvoiceReservation.Model.Seed
import InvoiceReservation.Properties.ArrivalOrder
import InvoiceReservation.Properties.Outstanding
import InvoiceReservation.Properties.References
/-!
# An event and a snapshot, in both orders

A snapshot puts TREASURY where it says it is, and an event adds to
whatever it finds: their versions are never compared. So a snapshot undoes
an event before it, and an event counts on top of a snapshot before it.
-/

namespace InvoiceReservation

open Transactions

/-- Where a snapshot puts TREASURY: what it reports as reserved, without
what is acknowledged once its marker is. -/
def ReconciliationSnapshot.treasuryTarget (snapshot : ReconciliationSnapshot) (p : Uuid) (db : Db) :
    Int :=
  match snapshot.acknowledgement with
  | none => snapshot.reservedMinor
  | some marker => snapshot.reservedMinor - acknowledgedOutstanding
      (((db.reservationsOf p).map ApplySnapshotService.toSnapshotReservation).map
        (marked marker snapshot.version))

/-- TREASURY after an event that was handled so. -/
def CapacityEvent.moves (event : CapacityEvent) (handled : HandleOutcome) (treasury : Int) : Int :=
  if handled = .applied then treasury + event.treasuryDelta else treasury

/-- TREASURY after a snapshot that was handled so. -/
def snapshotMoves (target : Int) (handled : HandleOutcome) (treasury : Int) : Int :=
  if handled = .applied then target else treasury

/-- A program's TREASURY component and its total. -/
def figures (p : Uuid) (db : Db) : Option (Int × Int) :=
  (db.program? p).map fun program =>
    (program.treasuryReservedMinor, totalReserved program.toProgramPosition)

variable {db db' : Db} {p : Uuid} {program after : ProgramEntity} {rt : Runtime}
variable {event : CapacityEvent} {snapshot : ReconciliationSnapshot}
variable {coordinates : StreamCoordinates} {row : ProcessedMessageEntity}

/-! ## What is new, and after what -/

/-- A snapshot of another id leaves an event as new as it was. -/
theorem newEvent_congr (hp : db.program? (Uuid.ofText event.programId) = some program)
    (hafter : db'.program? (Uuid.ofText event.programId) = some after)
    (hcurrency : after.currency = program.currency)
    (hmessages : db'.messages = db.messages ++ [row]) (hid : row.messageId ≠ event.messageId)
    (hkind : row.kind = .snapshot) : NewEvent event db' after ↔ NewEvent event db program := by
  have hprogram : after.id = program.id :=
    (Db.id_of_program? hafter).trans (Db.id_of_program? hp).symm
  have hfound : db'.message? event.messageId = db.message? event.messageId := by
    rw [Db.message?_append hmessages, if_neg hid, Option.or_none]
  have hversion : db'.messagesAt program.id .event event.version =
      db.messagesAt program.id .event event.version := by
    rw [Db.messagesAt_append hmessages]
    simp [hkind]
  constructor
  · intro h
    exact ⟨hp, hcurrency ▸ h.currency, by rw [← hversion, ← hprogram]; exact h.version,
      h.versionRange, hfound ▸ h.id, h.storableId⟩
  · intro h
    exact ⟨hafter, hcurrency ▸ h.currency, by rw [hprogram, hversion]; exact h.version,
      h.versionRange, hfound ▸ h.id, h.storableId⟩

/-- An event of another id leaves a snapshot as new as it was. -/
theorem newSnapshot_congr (hp : db.program? (Uuid.ofText snapshot.programId) = some program)
    (hafter : db'.program? (Uuid.ofText snapshot.programId) = some after)
    (hcurrency : after.currency = program.currency)
    (htreasuryVersion : after.treasuryVersion = program.treasuryVersion)
    (hmessages : db'.messages = db.messages ++ [row]) (hid : row.messageId ≠ snapshot.messageId)
    (hkind : row.kind = .event) :
    NewSnapshot snapshot db' after ↔ NewSnapshot snapshot db program := by
  have hprogram : after.id = program.id :=
    (Db.id_of_program? hafter).trans (Db.id_of_program? hp).symm
  have hfound : db'.message? snapshot.messageId = db.message? snapshot.messageId := by
    rw [Db.message?_append hmessages, if_neg hid, Option.or_none]
  have hversion : db'.messagesAt program.id .snapshot snapshot.version =
      db.messagesAt program.id .snapshot snapshot.version := by
    rw [Db.messagesAt_append hmessages]
    simp [hkind]
  constructor
  · intro h
    exact ⟨hp, hcurrency ▸ h.currency, hfound ▸ h.id,
      by rw [← hversion, ← hprogram]; exact h.version, htreasuryVersion ▸ h.notStale⟩
  · intro h
    exact ⟨hafter, hcurrency ▸ h.currency, hfound ▸ h.id,
      by rw [hprogram, hversion]; exact h.version, htreasuryVersion ▸ h.notStale⟩

variable [Sha256]

/-! ## What an applied message leaves -/

/-- What an applied snapshot leaves of its program. -/
theorem SnapshotApplied.leaves {marker : SnapshotMarker} {ids : List Uuid}
    {investigationRequired : Bool} {deltas : SnapshotDeltas}
    (h : SnapshotApplied rt snapshot marker coordinates db program ids investigationRequired deltas
      db') (ho : Outstanding program.id db) : ∃ after, db'.program? program.id = some after ∧
      after.currency = program.currency ∧
      after.treasuryReservedMinor = snapshot.treasuryTarget program.id db ∧
      after.localReservedMinor = program.localReservedMinor := by
  have hrow := h.program?_after program.id
  rw [if_pos rfl] at hrow
  obtain ⟨-, -, htreasury, -⟩ := applySnapshotPolicy_apply h.decided
  have hcomponent := fun c => @advancePosition_component program.toProgramPosition
    (ApplySnapshotService.buildEntries deltas snapshot) rt.now c
  refine ⟨_, hrow, rfl, (hcomponent .treasury).trans ?_, (hcomponent .local).trans ?_⟩
  · rw [componentSum_buildEntries, ReconciliationSnapshot.treasuryTarget, h.carried]
    simp only [SnapshotDeltas.component, htreasury, ProgramPosition.component]
    omega
  · rw [componentSum_buildEntries]
    simp [SnapshotDeltas.component, (h.local_unmoved ho).1, ProgramPosition.component]

/-! ## One message -/

variable {o oe os : HandleOutcome} {c : Db} {rt' : Runtime} {coordinates' : StreamCoordinates}

/-- **An accepted event is applied if it is new**, and else leaves everything
alone. -/
theorem event_step (hu : Unreferenced p db) (hp : db.program? p = some program)
    (hprogram : Uuid.ofText event.programId = p)
    (h : engine.run (handleCapacityEvent rt event coordinates) db = .ok (o, db'))
    (ho : o.Accepted) :
    (o = .applied ∧ EventApplied rt event coordinates db program db') ∨
      (o = .skipped ∧ ¬ NewEvent event db program ∧ db' = db) := by
  rcases handleEvent_cases h with
    ⟨found, rfl, ha⟩ | ⟨found, reference, -, he⟩ | ⟨rfl, ⟨reason, rfl⟩ | ⟨rfl, hseen⟩⟩
  · obtain rfl : found = program := Option.some.inj (ha.found.symm.trans (hprogram ▸ hp))
    exact Or.inl ⟨rfl, ha⟩
  · refine absurd he (Unreferenced.not_echoed ?_)
    rwa [Db.id_of_program? he.found, hprogram]
  · exact absurd rfl (ho reason)
  · exact Or.inr ⟨rfl, hseen.not_new, rfl⟩

/-- **An accepted snapshot is applied if it is new**, and else leaves
everything alone. -/
theorem snapshot_step (hp : db.program? p = some program)
    (hprogram : Uuid.ofText snapshot.programId = p)
    (h : engine.run (handleReconciliationSnapshot rt snapshot coordinates) db = .ok (o, db'))
    (ho : o.Accepted) :
    (o = .applied ∧ ∃ marker ids investigationRequired deltas, SnapshotApplied rt snapshot marker
      coordinates db program ids investigationRequired deltas db') ∨
      (o = .skipped ∧ ¬ NewSnapshot snapshot db program ∧ db' = db) := by
  rcases handleSnapshot_cases h with
    ⟨rfl, marker, found, ids, investigationRequired, deltas, ha⟩ |
    ⟨rfl, ⟨reason, rfl⟩ | ⟨rfl, hseen⟩⟩
  · obtain rfl : found = program := Option.some.inj (ha.found.symm.trans (hprogram ▸ hp))
    exact Or.inl ⟨rfl, marker, ids, investigationRequired, deltas, ha⟩
  · exact absurd rfl (ho reason)
  · exact Or.inr ⟨rfl, hseen.not_new, rfl⟩

omit [Sha256] in
/-- The figures of a program, told by its components. -/
theorem figures_eq {treasury : Int} (hp : db.program? p = some after)
    (htreasury : after.treasuryReservedMinor = treasury)
    (hlocal : after.localReservedMinor = program.localReservedMinor) :
    figures p db = some (treasury, program.localReservedMinor + treasury) := by
  rw [figures, hp, Option.map_some, totalReserved, htreasury, hlocal]

/-! ## Both orders -/

/-- An event leaves a snapshot's target where it was. -/
theorem EventApplied.treasuryTarget (h : EventApplied rt event coordinates db program db') :
    snapshot.treasuryTarget program.id db' = snapshot.treasuryTarget program.id db := by
  rw [ReconciliationSnapshot.treasuryTarget, h.reservationsOf_after]
  rfl

/-- What holds of a program and of an event and a snapshot for it. -/
structure Pair (p : Uuid) (db : Db) (program : ProgramEntity) (event : CapacityEvent)
    (snapshot : ReconciliationSnapshot) : Prop where
  outstanding : Outstanding p db
  unreferenced : Unreferenced p db
  found : db.program? p = some program
  eventProgram : Uuid.ofText event.programId = p
  eventType : event.type ≠ .limitChanged
  snapshotProgram : Uuid.ofText snapshot.programId = p

/-- **The event first**: the snapshot is what is left. -/
theorem Pair.event_first (h : Pair p db program event snapshot)
    (he : engine.run (handleCapacityEvent rt event coordinates) db = .ok (oe, c))
    (hs : engine.run (handleReconciliationSnapshot rt' snapshot coordinates') c = .ok (os, db'))
    (hoe : oe.Accepted) (hos : os.Accepted) :
    (∃ treasury, treasury = snapshotMoves (snapshot.treasuryTarget p db) os
        (event.moves oe program.treasuryReservedMinor) ∧
      figures p db' = some (treasury, program.localReservedMinor + treasury)) ∧
    (event.messageId ≠ snapshot.messageId →
      (oe = .applied ↔ NewEvent event db program) ∧
        (os = .applied ↔ NewSnapshot snapshot db program)) := by
  have hid := Db.id_of_program? h.found
  rcases event_step h.unreferenced h.found h.eventProgram he hoe with ⟨rfl, ha⟩ | ⟨rfl, hold, rfl⟩
  · obtain ⟨after, hafter, hcurrency, hversion, htreasury, hlocal⟩ := ha.leaves h.eventType
    have hc : Outstanding p c := ha.outstanding h.outstanding
    rw [hid] at hafter
    have hnew : ∀ hne : event.messageId ≠ snapshot.messageId,
        NewSnapshot snapshot c after ↔ NewSnapshot snapshot db program :=
      fun hne => newSnapshot_congr (h.snapshotProgram.symm ▸ h.found)
        (h.snapshotProgram.symm ▸ hafter) hcurrency hversion ha.messages_after hne rfl
    have htarget : snapshot.treasuryTarget p c = snapshot.treasuryTarget p db :=
      hid ▸ ha.treasuryTarget
    rcases snapshot_step hafter h.snapshotProgram hs hos with
      ⟨rfl, marker, ids, investigationRequired, deltas, hsa⟩ | ⟨rfl, hstale, rfl⟩
    · have hid' := Db.id_of_program? hafter
      obtain ⟨last, hlast, -, htreasury', hlocal'⟩ := hsa.leaves (hid'.symm ▸ hc)
      rw [hid'] at hlast htreasury'
      exact ⟨⟨_, rfl, figures_eq hlast (htreasury'.trans htarget) (hlocal'.trans hlocal)⟩,
        fun hne => ⟨iff_of_true rfl ha.toNewEvent, iff_of_true rfl ((hnew hne).mp hsa.new)⟩⟩
    · exact ⟨⟨_, rfl, figures_eq hafter htreasury hlocal⟩,
        fun hne => ⟨iff_of_true rfl ha.toNewEvent,
          iff_of_false (by simp) fun hn => hstale ((hnew hne).mpr hn)⟩⟩
  · rcases snapshot_step h.found h.snapshotProgram hs hos with
      ⟨rfl, marker, ids, investigationRequired, deltas, hsa⟩ | ⟨rfl, hstale, rfl⟩
    · obtain ⟨last, hlast, -, htreasury, hlocal⟩ := hsa.leaves (hid.symm ▸ h.outstanding)
      rw [hid] at hlast htreasury
      exact ⟨⟨_, rfl, figures_eq hlast htreasury hlocal⟩,
        fun _ => ⟨iff_of_false (by simp) hold, iff_of_true rfl hsa.new⟩⟩
    · exact ⟨⟨_, rfl, figures_eq h.found rfl rfl⟩,
        fun _ => ⟨iff_of_false (by simp) hold, iff_of_false (by simp) hstale⟩⟩

/-- **The snapshot first**: the event counts on top of it. -/
theorem Pair.snapshot_first (h : Pair p db program event snapshot)
    (hs : engine.run (handleReconciliationSnapshot rt snapshot coordinates) db = .ok (os, c))
    (he : engine.run (handleCapacityEvent rt' event coordinates') c = .ok (oe, db'))
    (hos : os.Accepted) (hoe : oe.Accepted) :
    (∃ treasury, treasury = event.moves oe
        (snapshotMoves (snapshot.treasuryTarget p db) os program.treasuryReservedMinor) ∧
      figures p db' = some (treasury, program.localReservedMinor + treasury)) ∧
    (event.messageId ≠ snapshot.messageId →
      (oe = .applied ↔ NewEvent event db program) ∧
        (os = .applied ↔ NewSnapshot snapshot db program)) := by
  have hid := Db.id_of_program? h.found
  rcases snapshot_step h.found h.snapshotProgram hs hos with
    ⟨rfl, marker, ids, investigationRequired, deltas, hsa⟩ | ⟨rfl, hstale, rfl⟩
  · obtain ⟨after, hafter, hcurrency, htreasury, hlocal⟩ := hsa.leaves (hid.symm ▸ h.outstanding)
    have hc : Unreferenced p c := (Change.corrected hsa).unreferenced h.unreferenced
    rw [hid] at hafter htreasury
    have hid' := Db.id_of_program? hafter
    have hnew : ∀ hne : event.messageId ≠ snapshot.messageId,
        NewEvent event c after ↔ NewEvent event db program :=
      fun hne => newEvent_congr (h.eventProgram.symm ▸ h.found)
        (h.eventProgram.symm ▸ hafter) hcurrency hsa.messages_after hne.symm rfl
    rcases event_step hc hafter h.eventProgram he hoe with ⟨rfl, ha⟩ | ⟨rfl, hold, rfl⟩
    · obtain ⟨last, hlast, -, -, htreasury', hlocal'⟩ := ha.leaves h.eventType
      rw [hid'] at hlast
      exact ⟨⟨_, rfl, figures_eq hlast (by rw [htreasury', htreasury]; rfl)
          (hlocal'.trans hlocal)⟩,
        fun hne => ⟨iff_of_true rfl ((hnew hne).mp ha.toNewEvent), iff_of_true rfl hsa.new⟩⟩
    · exact ⟨⟨_, rfl, figures_eq hafter htreasury hlocal⟩,
        fun hne => ⟨iff_of_false (by simp) fun hn => hold ((hnew hne).mpr hn),
          iff_of_true rfl hsa.new⟩⟩
  · rcases event_step h.unreferenced h.found h.eventProgram he hoe with ⟨rfl, ha⟩ | ⟨rfl, hold, rfl⟩
    · obtain ⟨last, hlast, -, -, htreasury, hlocal⟩ := ha.leaves h.eventType
      rw [hid] at hlast
      exact ⟨⟨_, rfl, figures_eq hlast htreasury hlocal⟩,
        fun _ => ⟨iff_of_true rfl ha.toNewEvent, iff_of_false (by simp) hstale⟩⟩
    · exact ⟨⟨_, rfl, figures_eq h.found rfl rfl⟩,
        fun _ => ⟨iff_of_false (by simp) hold, iff_of_false (by simp) hstale⟩⟩

omit [Sha256] in
/-- Accepted outcomes are told apart by whether something was applied. -/
theorem HandleOutcome.Accepted.ext {x y : HandleOutcome} (hx : x.Accepted) (hy : y.Accepted)
    (h : x = .applied ↔ y = .applied) : x = y := by
  cases x with
  | applied => exact (h.mp rfl).symm
  | skipped =>
    cases y with
    | applied => exact absurd (h.mpr rfl) (by simp)
    | skipped => rfl
    | quarantined reason => exact absurd rfl (hy reason)
  | quarantined reason => exact absurd rfl (hx reason)

variable {policy : RetryPolicy} {state : ConsumerState} {start : Db}
variable {e₁ s₁ e₂ s₂ : InboundMessage} {oe₁ os₁ oe₂ os₂ : HandleOutcome}

/-- Two messages that are handled one after the other. -/
theorem handled_pair {x y : InboundMessage} {ox oy : HandleOutcome}
    (h : handled policy [x, y] state = [some ox, some oy]) :
    ∃ c, engine.run (dispatch x) state.db = .ok (ox, c) ∧
      engine.run (dispatch y) c = .ok (oy, (consume policy [x, y] state).db) := by
  simp only [handled_cons, handled_nil, List.cons.injEq, and_true] at h
  obtain ⟨c, hx⟩ := handledAs_eq_some.mp h.1
  have hc : (processMessage policy state x).db = c := processMessage_db_of_ok hx
  obtain ⟨c', hy⟩ := handledAs_eq_some.mp h.2
  have hc' : (consume policy [x, y] state).db = c' := by
    rw [consume_cons, consume_cons, consume_nil, processMessage_db_of_ok hy]
  exact ⟨c, hx, by rw [hc', ← hc]; exact hy⟩

end InvoiceReservation

namespace InvoiceReservation

open Transactions

attribute [local instance] trafficSha256

/-- A booking. -/
def booking : CapacityEvent := capacityEvent "evt-00001" 1 .reservationBooked 100

/-- A snapshot that has it. -/
def snapshotAfterBooking : ReconciliationSnapshot :=
  reconciliationSnapshot "snap-00001" 1 1000000000 100

end InvoiceReservation
