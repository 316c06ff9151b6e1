import InvoiceReservation.Helpers.NewMessages
import InvoiceReservation.Helpers.Positions
import InvoiceReservation.Helpers.Reservations
import InvoiceReservation.Model.Seed
/-!
# What only moves forward

A program's treasury version never falls, a reservation that treasury
acknowledged stays so, by the same version or a later one, and a program
has one message for each kind and version, none of its snapshots newer
than its treasury version. The version checks of the two services keep
these facts together: a snapshot is recorded only where it is no older
than the version it then leaves.
-/

namespace InvoiceReservation

open Transactions

variable {db db' : Db} {p : Uuid} {program : ProgramEntity} {row : ProcessedMessageEntity}

/-! ## Versions -/

/-- What a change does to a program's messages and its treasury version:
nothing, or it records one message of a version that had none. -/
inductive VersionsChange (p : Uuid) (db db' : Db) : Prop
  | quiet : db'.messagesOf p = db.messagesOf p →
      (∀ program, db.program? p = some program → ∃ after, db'.program? p = some after ∧
        after.treasuryVersion = program.treasuryVersion) → VersionsChange p db db'
  | recorded (row : ProcessedMessageEntity) (program after : ProgramEntity) :
      db.program? p = some program → db'.program? p = some after →
      db'.messagesOf p = db.messagesOf p ++ [row] → db.messagesAt p row.kind row.version = [] →
      (row.kind = .event ∧ after.treasuryVersion = program.treasuryVersion ∨
        row.kind = .snapshot ∧ after.treasuryVersion = row.version ∧
          program.treasuryVersion ≤ row.version) → VersionsChange p db db'

/-- A treasury version does not fall. -/
theorem VersionsChange.treasuryVersion (h : VersionsChange p db db')
    (hp : db.program? p = some program) :
    ∃ after, db'.program? p = some after ∧ program.treasuryVersion ≤ after.treasuryVersion := by
  cases h with
  | quiet hmessages hversion =>
    obtain ⟨after, hafter, he⟩ := hversion program hp
    exact ⟨after, hafter, he.ge⟩
  | recorded row found after hfound hafter hmessages hnew hkind =>
    obtain rfl : found = program := Option.some.inj (hfound.symm.trans hp)
    refine ⟨after, hafter, ?_⟩
    rcases hkind with ⟨-, he⟩ | ⟨-, he, hle⟩ <;> omega

/-- **The messages of a program**: one for each kind and version, and no
snapshot newer than its treasury version. -/
structure Versioned (p : Uuid) (db : Db) : Prop where
  newest : ∀ row ∈ db.messagesOf p, row.kind = .snapshot →
    ∃ program, db.program? p = some program ∧ row.version ≤ program.treasuryVersion
  apart : ∀ kind version, (db.messagesAt p kind version).length ≤ 1

theorem Versioned.of_nil (h : db.messagesOf p = []) : Versioned p db :=
  ⟨by simp [h], fun kind version => by simp [Db.messagesAt, h]⟩

/-- **One change.** -/
theorem VersionsChange.versioned (hc : VersionsChange p db db') (h : Versioned p db) :
    Versioned p db' := by
  have hnewest : ∀ row ∈ db.messagesOf p, row.kind = .snapshot →
      ∃ after, db'.program? p = some after ∧ row.version ≤ after.treasuryVersion := by
    intro row hrow hkind
    obtain ⟨program, hp, hle⟩ := h.newest row hrow hkind
    obtain ⟨after, hafter, hle'⟩ := hc.treasuryVersion hp
    exact ⟨after, hafter, hle.trans hle'⟩
  cases hc with
  | quiet hmessages hversion =>
    refine ⟨by rw [hmessages]; exact hnewest, fun kind version => ?_⟩
    rw [Db.messagesAt, hmessages]
    exact h.apart kind version
  | recorded row program after hp hafter hmessages hnew hkind =>
    refine ⟨fun r hr hsnapshot => ?_, fun kind version => ?_⟩
    · rw [hmessages, List.mem_append, List.mem_singleton] at hr
      rcases hr with hold | rfl
      · exact hnewest r hold hsnapshot
      · rcases hkind with ⟨hevent, -⟩ | ⟨-, he, -⟩
        · rw [hevent] at hsnapshot; cases hsnapshot
        · exact ⟨after, hafter, he.ge⟩
    · have hat : db'.messagesAt p kind version = db.messagesAt p kind version ++
          [row].filter (fun r => r.kind = kind ∧ r.version = version) := by
        rw [Db.messagesAt, hmessages, List.filter_append]
        rfl
      rw [hat]
      by_cases hsame : row.kind = kind ∧ row.version = version
      · obtain ⟨rfl, rfl⟩ := hsame
        simp [hnew]
      · have := h.apart kind version
        simpa [hsame] using this

/-! ## One change -/

/-- The messages of a program after one more message. -/
theorem messagesOf_append (h : db'.messages = db.messages ++ [row]) :
    db'.messagesOf p = db.messagesOf p ++ if row.programId = p then [row] else [] := by
  by_cases hp : row.programId = p <;> simp [Db.messagesOf, h, hp]

variable [Sha256] {rt : Runtime} {event : CapacityEvent} {snapshot : ReconciliationSnapshot}
variable {coordinates : StreamCoordinates}

omit [Sha256] in
/-- A message that is recorded of some program, and the row it leaves. -/
theorem VersionsChange.of_message {q : Uuid} {after : ProgramEntity}
    (hp : db.program? q = some program)
    (hafter : db'.program? p = if program.id = p then some after else db.program? p)
    (hmessages : db'.messages = db.messages ++ [row]) (hrow : row.programId = q)
    (hnew : db.messagesAt program.id row.kind row.version = [])
    (hkind : row.kind = .event ∧ after.treasuryVersion = program.treasuryVersion ∨
      row.kind = .snapshot ∧ after.treasuryVersion = row.version ∧
        program.treasuryVersion ≤ row.version) : VersionsChange p db db' := by
  have hid : program.id = q := Db.id_of_program? hp
  by_cases hq : q = p
  · subst hq
    rw [if_pos hid] at hafter
    rw [hid] at hnew
    exact .recorded row program after hp hafter (by rw [messagesOf_append hmessages, if_pos hrow])
      hnew hkind
  · -- a message of another program is none of this one's
    rw [hid, if_neg hq] at hafter
    refine .quiet ?_ fun found hfound => ⟨found, hafter.trans hfound, rfl⟩
    rw [messagesOf_append hmessages, hrow, if_neg hq, List.append_nil]

omit [Sha256] in
theorem withAppliedEffectiveAt_treasuryVersion {effectiveAt : Timestamp} :
    (Stmt.withAppliedEffectiveAt program effectiveAt).treasuryVersion =
      program.treasuryVersion := by
  unfold Stmt.withAppliedEffectiveAt
  split <;> rfl

theorem Change.versionsChange (hc : Change db db') : VersionsChange p db db' := by
  have hadvanced : ∀ {program after : ProgramEntity}, db.program? program.id = some program →
      (db'.program? p = if program.id = p then some after else db.program? p) →
      db'.messages = db.messages → after.treasuryVersion = program.treasuryVersion →
      VersionsChange p db db' := by
    intro program after hp hafter hmessages hversion
    refine .quiet (by rw [Db.messagesOf, hmessages, Db.messagesOf]) fun found hfound => ?_
    rw [hafter]
    split
    · rename_i hq
      subst hq
      obtain rfl : found = program := Option.some.inj (hfound.symm.trans hp)
      exact ⟨after, rfl, hversion⟩
    · exact ⟨found, hfound, rfl⟩
  cases hc with
  | reserved hp ha => exact hadvanced hp (ha.program?_after p) ha.messages_after rfl
  | released hp hrate hd ha => exact hadvanced hp (ha.program?_after p) ha.messages_after rfl
  | cancelled hp hd ha => exact hadvanced hp (ha.program?_after p) ha.messages_after rfl
  | applied ha =>
    refine .of_message ha.found (ha.program?_after p) ha.messages_after rfl ha.version
      (Or.inl ⟨rfl, ?_⟩)
    rw [withAppliedEffectiveAt_treasuryVersion]
    rfl
  | echoed ha =>
    exact .of_message ha.found (ha.program?_after p) ha.messages_after rfl ha.version
      (Or.inl ⟨rfl, withAppliedEffectiveAt_treasuryVersion⟩)
  | corrected ha =>
    exact .of_message ha.found (ha.program?_after p) ha.messages_after rfl ha.version
      (Or.inr ⟨rfl, rfl, ha.notStale⟩)
  | @seeded seed now program hp hnone hpersist =>
    refine .quiet (by simp [advanceWrites]) fun found hfound => ⟨found, ?_, rfl⟩
    have hq : program.id ≠ p := fun hq => by rw [hq, hfound] at hnone; cases hnone
    simpa [advanceWrites, Stmt.withPosition, hq] using hfound
  | swept cutoff => exact .quiet rfl fun found hfound => ⟨found, hfound, rfl⟩
  | @flagged program b v hp =>
    exact @hadvanced program { program with investigationRequired := b, positionVerified := v } hp
      (by simp) rfl rfl

/-! ## Runs -/

theorem Versioned.run (h : Versioned p db) (ops : List Operation) :
    Versioned p (Operation.run ops db) :=
  run_induct (P := Versioned p) (fun _ _ hc hs => hs.versionsChange.versioned hc) ops h

/-- A treasury version does not fall over a run. -/
theorem treasuryVersion_run (hp : db.program? p = some program) (ops : List Operation) :
    ∃ after, (Operation.run ops db).program? p = some after ∧
      program.treasuryVersion ≤ after.treasuryVersion := by
  refine run_induct (P := fun c => ∃ after, c.program? p = some after ∧
    program.treasuryVersion ≤ after.treasuryVersion) (fun c c' hc hs => ?_) ops
    ⟨program, hp, le_refl _⟩
  obtain ⟨before, hbefore, hle⟩ := hc
  obtain ⟨after, hafter, hle'⟩ := hs.versionsChange.treasuryVersion hbefore
  exact ⟨after, hafter, hle.trans hle'⟩

/-- A reservation stays, in the same version or a later one. -/
theorem evolves_run {row : InvoiceReservationEntity} (h : Filed (db.reservationsOf p))
    (hrow : row ∈ db.reservationsOf p) (ops : List Operation) :
    ∃ row' ∈ (Operation.run ops db).reservationsOf p, Evolves row row' := by
  refine (run_induct (P := fun c => Filed (c.reservationsOf p) ∧
    ∃ row' ∈ c.reservationsOf p, Evolves row row') (fun c c' hc hs => ?_) ops
    ⟨h, row, hrow, Evolves.refl row⟩).2
  obtain ⟨hfiled, before, hbefore, hevolves⟩ := hc
  refine ⟨hs.filed hfiled, ?_⟩
  have hrows := hs.rowsChange hfiled
  generalize c'.reservationsOf p = rows' at hrows
  cases hrows with
  | rewritten f hf hchecked =>
    exact ⟨f before, List.mem_map_of_mem hbefore, hevolves.trans (hf before hbefore)⟩
  | added new hinvoice hid hchecked =>
    exact ⟨before, List.mem_append_left _ hbefore, hevolves⟩

/-- **A snapshot leaves what a newer one acknowledged as it is.** -/
theorem snapshot_keeps {row : InvoiceReservationEntity} {v : Int}
    (h : Filed (db.reservationsOf p)) (hrow : row ∈ db.reservationsOf p)
    (hv : row.acknowledgedByVersion = some v) (hle : snapshot.version ≤ v) :
    row ∈ (engine.effect (Operation.snapshot rt snapshot coordinates).tx db).reservationsOf p := by
  refine Engine.effect_induct (P := fun c : Db => row ∈ c.reservationsOf p) hrow
    fun reply c hr => ?_
  obtain ⟨o, hr, -⟩ := Engine.run_map_ok.mp hr
  rcases handleSnapshot_cases hr with
    ⟨-, marker, program, ids, investigationRequired, deltas, ha⟩ | ⟨rfl, -⟩
  · rw [ha.reservationsOf_after h]
    have hkept : ¬ (program.id = p ∧ marks marker snapshot.version
        (ApplySnapshotService.toSnapshotReservation row) = true) := by
      rintro ⟨-, hmarks⟩
      simp only [marks, ApplySnapshotService.toSnapshotReservation, hv, Bool.and_eq_true,
        decide_eq_true_eq] at hmarks
      omega
    refine List.mem_map.mpr ⟨row, hrow, if_neg ?_⟩
    simpa using hkept
  · exact hrow

/-- **Acknowledgements and versions only move forward.** For a program that
started without reservations and messages, and any state of any run: in
every later state its treasury version is no lower, and each of its
reservations is there once, acknowledged if it was and by no earlier
version; a reservation is acknowledged exactly when it says by which
version; no snapshot that was processed is newer than the treasury version;
a kind and version has at most one message; and a snapshot leaves a
reservation alone that a version as new as its own acknowledged. -/
theorem acknowledgement_moves_forward (hreservations : db.reservationsOf p = [])
    (hmessages : db.messagesOf p = []) (ops later : List Operation) :
    let before := Operation.run ops db
    let after := Operation.run (ops ++ later) db
    (∀ program, before.program? p = some program → ∃ program',
      after.program? p = some program' ∧ program.treasuryVersion ≤ program'.treasuryVersion) ∧
    (∀ row ∈ before.reservationsOf p, ∃ row',
      (after.reservationsOf p).filter (·.id = row.id) = [row'] ∧
      (row.treasuryAcknowledged = true → row'.treasuryAcknowledged = true) ∧
      ∀ v, row.acknowledgedByVersion = some v →
        ∃ v', row'.acknowledgedByVersion = some v' ∧ v ≤ v') ∧
    (∀ row ∈ before.reservationsOf p,
      row.treasuryAcknowledged = row.acknowledgedByVersion.isSome) ∧
    (∀ row ∈ before.messagesOf p, row.kind = .snapshot →
      ∃ program, before.program? p = some program ∧ row.version ≤ program.treasuryVersion) ∧
    (∀ kind version, (before.messagesAt p kind version).length ≤ 1) ∧
    ∀ rt snapshot coordinates, ∀ row ∈ before.reservationsOf p,
      (∃ v, row.acknowledgedByVersion = some v ∧ snapshot.version ≤ v) →
        row ∈ (Operation.run (ops ++ [.snapshot rt snapshot coordinates]) db).reservationsOf p := by
  intro before after
  have hfiled : Filed (before.reservationsOf p) :=
    Filed.run (by rw [hreservations]; exact filed_nil) ops
  have hversioned : Versioned p before := (Versioned.of_nil hmessages).run ops
  have hafter : after = Operation.run later before := by
    change Operation.run _ _ = _
    rw [Operation.run, serial_append]
    rfl
  have hfiled' : Filed (after.reservationsOf p) := hafter ▸ hfiled.run later
  refine ⟨fun program hp => hafter ▸ treasuryVersion_run hp later, fun row hrow => ?_,
    fun row hrow => hfiled.acknowledged hrow, hversioned.newest, hversioned.apart, ?_⟩
  · obtain ⟨row', hrow', hevolves⟩ := evolves_run hfiled hrow later
    rw [← hafter] at hrow'
    refine ⟨row', ?_, fun hack => ?_, hevolves.acknowledged⟩
    · rw [← hevolves.id]
      exact Table.filter_of_mem hfiled'.ids hrow'
    · rw [hfiled.acknowledged hrow] at hack
      obtain ⟨v, hv⟩ := Option.isSome_iff_exists.mp hack
      obtain ⟨v', hv', -⟩ := hevolves.acknowledged v hv
      rw [hfiled'.acknowledged hrow', hv']
      rfl
  · rintro rt snapshot coordinates row hrow ⟨v, hv, hle⟩
    rw [Operation.run, serial_append]
    exact snapshot_keeps hfiled hrow hv hle

end InvoiceReservation

namespace InvoiceReservation

attribute [local instance] trafficSha256

/-- The seed, a reserve, and a snapshot that acknowledges it. -/
def acknowledgingTraffic : List Operation :=
  [.seed 0 programs, .reserve (callAt 1) (reserveCommand "req-00001" "INV-1" 100),
    .snapshot (callAt 2) (watermarkSnapshot "snap-00001" 1 1000000000 100 1000)
      (coordinatesAt "treasury.capacity.snapshots" 0)]

theorem acknowledgement_moves_forward_snapshots :
    ((Operation.run acknowledgingTraffic migrated).reservationsOf
      (Uuid.ofText northwindUsdProgramId)).map (·.acknowledgedByVersion) = [some 1] ∧
    ∀ row ∈ (Operation.run acknowledgingTraffic migrated).reservationsOf
        (Uuid.ofText northwindUsdProgramId), ∃ row',
      ((Operation.run (acknowledgingTraffic ++ [.snapshot (callAt 3)
        (watermarkSnapshot "snap-00002" 2 1000000000 100 1000)
        (coordinatesAt "treasury.capacity.snapshots" 1)]) migrated).reservationsOf
          (Uuid.ofText northwindUsdProgramId)).filter (·.id = row.id) = [row'] ∧
      (row.treasuryAcknowledged = true → row'.treasuryAcknowledged = true) ∧
      ∀ v, row.acknowledgedByVersion = some v →
        ∃ v', row'.acknowledgedByVersion = some v' ∧ v ≤ v' :=
  ⟨by
      rw [acknowledgingTraffic, run_seed]
      decide +kernel,
    (acknowledgement_moves_forward rfl rfl acknowledgingTraffic _).2.1⟩

end InvoiceReservation
