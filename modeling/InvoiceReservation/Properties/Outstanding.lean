import InvoiceReservation.Helpers.Policies
import InvoiceReservation.Helpers.Positions
import InvoiceReservation.Model.Seed
import InvoiceReservation.Properties.Concurrency
import Mathlib.Data.List.Nodup
/-!
# LOCAL is what is outstanding

A program's LOCAL component is the sum of what its reservations hold, and
a reservation holds nothing exactly when its status is terminal. Every
change keeps that: a reserve adds a row and its amount, a release or a
cancellation moves one row and the component by the same difference, and
what treasury acknowledges moves neither.
-/

namespace InvoiceReservation

open Transactions

variable {db db' : Db} {p : Uuid} {program : ProgramEntity}
variable {rows rows' : List InvoiceReservationEntity} {row row' : InvoiceReservationEntity}
variable {localReservedMinor : Int}

/-! ## Tallies -/

/-- What a reservation holds, and for which invoice. -/
def InvoiceReservationEntity.holding (row : InvoiceReservationEntity) :
    String × ReservationOrigin × ReservationStatus × Int :=
  (row.invoiceId, row.origin, row.status, row.outstandingReservedMinor)

/-- Reservations that add up to a LOCAL component. -/
structure Tallied (rows : List InvoiceReservationEntity) (localReservedMinor : Int) : Prop where
  sum : localReservedMinor = (rows.map (·.outstandingReservedMinor)).sum
  origin : ∀ row ∈ rows, row.origin = .local
  status : ∀ row ∈ rows, row.status ∈ terminalStatuses ↔ row.outstandingReservedMinor = 0
  invoices : (rows.map (·.invoiceId)).Nodup

/-- A tally is told by what the reservations hold. -/
theorem Tallied.congr (h : Tallied rows localReservedMinor)
    (he : rows'.map (·.holding) = rows.map (·.holding)) : Tallied rows' localReservedMinor := by
  have hsame : ∀ row' ∈ rows', ∃ row ∈ rows, row.holding = row'.holding := fun row' hr =>
    List.mem_map.mp (he ▸ List.mem_map_of_mem hr)
  have hsum := congrArg (List.map (·.2.2.2)) he
  have hinvoices := congrArg (List.map (·.1)) he
  simp only [List.map_map, Function.comp_def, InvoiceReservationEntity.holding] at hsum hinvoices
  refine ⟨by rw [hsum]; exact h.sum, fun row' hr => ?_, fun row' hr => ?_, by
    rw [hinvoices]; exact h.invoices⟩
  · obtain ⟨row, hrow, heq⟩ := hsame row' hr
    simp only [InvoiceReservationEntity.holding, Prod.mk.injEq] at heq
    rw [← heq.2.1]; exact h.origin row hrow
  · obtain ⟨row, hrow, heq⟩ := hsame row' hr
    simp only [InvoiceReservationEntity.holding, Prod.mk.injEq] at heq
    rw [← heq.2.2.1, ← heq.2.2.2]; exact h.status row hrow

theorem Tallied.keys (h : Tallied rows localReservedMinor) :
    (rows.map InvoiceReservationEntity.key).Nodup := by
  refine List.Nodup.of_map (fun k => k.2.1) ?_
  rw [List.map_map]
  exact h.invoices

/-- **A new reservation adds what it holds.** -/
theorem Tallied.reserve (h : Tallied rows localReservedMinor) (row : InvoiceReservationEntity)
    (hnew : ∀ r ∈ rows, r.invoiceId ≠ row.invoiceId) (horigin : row.origin = .local)
    (hstatus : row.status ∈ terminalStatuses ↔ row.outstandingReservedMinor = 0) :
    Tallied (Table.put InvoiceReservationEntity.key row rows)
      (localReservedMinor + row.outstandingReservedMinor) := by
  have hnone : Table.get InvoiceReservationEntity.key row.key rows = none :=
    Table.get_eq_none_iff.mpr fun r hr he => hnew r hr (congrArg (fun k => k.2.1) he)
  refine ⟨?_, Table.forall_put h.origin horigin, Table.forall_put h.status hstatus, ?_⟩
  · simp [Table.put_of_get_none hnone, h.sum]
  · rw [Table.put_of_get_none hnone, List.map_append, List.nodup_append]
    refine ⟨h.invoices, by simp, ?_⟩
    intro x hx y hy he
    obtain ⟨r, hr, rfl⟩ := List.mem_map.mp hx
    obtain rfl := List.mem_singleton.mp hy
    exact hnew r hr he

/-- **A new version of a reservation moves the tally by the difference.** -/
theorem Tallied.settle (h : Tallied rows localReservedMinor) (hrow : row ∈ rows)
    (hkey : row'.key = row.key) (horigin : row'.origin = row.origin)
    (hstatus : row'.status ∈ terminalStatuses ↔ row'.outstandingReservedMinor = 0) :
    Tallied (Table.put InvoiceReservationEntity.key row' rows)
      (localReservedMinor - row.outstandingReservedMinor + row'.outstandingReservedMinor) := by
  have hget : Table.get InvoiceReservationEntity.key row'.key rows = some row := by
    rw [hkey]; exact Table.get_of_mem h.keys hrow
  refine ⟨?_, Table.forall_put h.origin (horigin.trans (h.origin row hrow)),
    Table.forall_put h.status hstatus, ?_⟩
  · rw [Table.sum_put hget, h.sum]
  · have hinvoice : row'.invoiceId = row.invoiceId :=
      congrArg (fun k : Uuid × String × Uuid => k.2.1) hkey
    rw [Table.map_put hget hinvoice]
    exact h.invoices

/-- New versions that hold what the old ones held leave the tally alone. -/
theorem Tallied.acknowledge (h : Tallied rows localReservedMinor)
    {written : List InvoiceReservationEntity}
    (hw : ∀ w ∈ written, ∃ row ∈ rows, w.key = row.key ∧ w.holding = row.holding) :
    Tallied (Table.putAll InvoiceReservationEntity.key written rows) localReservedMinor := by
  refine h.congr (Table.map_putAll fun w hw' => ?_)
  obtain ⟨row, hrow, hkey, hholding⟩ := hw w hw'
  exact ⟨row, by rw [hkey]; exact Table.get_of_mem h.keys hrow, hholding⟩

/-! ## Programs -/

/-- A program whose LOCAL component is what its reservations hold. -/
structure Outstanding (p : Uuid) (db : Db) : Prop where
  tallied : ∀ program, db.program? p = some program →
    Tallied (db.reservationsOf p) program.localReservedMinor
  unborn : db.program? p = none → db.reservationsOf p = []

/-- A program that does not exist yet, or was inserted with nothing reserved. -/
structure Unreserved (p : Uuid) (db : Db) : Prop where
  reservations : db.reservationsOf p = []
  zero : ∀ program, db.program? p = some program → program.localReservedMinor = 0

theorem tallied_nil : Tallied [] 0 := ⟨rfl, by simp, by simp, by simp⟩

theorem Unreserved.outstanding (h : Unreserved p db) : Outstanding p db := by
  refine ⟨fun program hp => ?_, fun _ => h.reservations⟩
  rw [h.reservations, h.zero program hp]
  exact tallied_nil

/-- A program whose position is what it was. -/
theorem Still.outstanding (h : Still p db db')
    (hrows : ∀ n, Tallied (db.reservationsOf p) n → Tallied (db'.reservationsOf p) n)
    (hnil : db.reservationsOf p = [] → db'.reservationsOf p = []) (he : Outstanding p db) :
    Outstanding p db' := by
  refine ⟨fun program hp => ?_, fun hnone => ?_⟩
  · have hposition := h.position
    rw [hp, Option.map_some] at hposition
    obtain ⟨before, hb, hcached⟩ := Option.map_eq_some_iff.mp hposition.symm
    have hlocal : before.cached.localReservedMinor = program.cached.localReservedMinor := by
      rw [hcached]
    have hlocal' : before.localReservedMinor = program.localReservedMinor := hlocal
    exact hlocal' ▸ hrows _ (he.tallied before hb)
  · have hposition := h.position
    rw [hnone, Option.map_none] at hposition
    exact hnil (he.unborn (Option.map_eq_none_iff.mp hposition.symm))

/-- **An advance keeps the tally where the reservations move by its LOCAL
entries.** -/
theorem Advanced.outstanding {entries : List PendingLedgerEntry} {now : Timestamp}
    (h : Advanced db db' program entries now)
    (hothers : ∀ q, program.id ≠ q → db'.reservationsOf q = db.reservationsOf q)
    (hrows : ∀ n, Tallied (db.reservationsOf program.id) n →
      Tallied (db'.reservationsOf program.id) (n + componentSum .local entries))
    (he : Outstanding p db) : Outstanding p db' := by
  by_cases hp : program.id = p
  swap
  · exact (h.others p hp).outstanding (fun _ ht => by rwa [hothers p hp])
      (fun hnil => by rwa [hothers p hp]) he
  subst hp
  have hbefore : Tallied (db.reservationsOf program.id) program.localReservedMinor := by
    rcases h.before with hfound | ⟨hnone, organisationId, currency, now', hnew⟩
    · exact he.tallied program hfound
    · rw [he.unborn hnone, hnew]; exact tallied_nil
  have hafter := h.after
  refine ⟨fun after ha => ?_, fun hnone => by simp [hnone] at hafter⟩
  rw [ha, Option.map_some, Option.some.injEq] at hafter
  have hlocal : after.cached.component .local = program.component .local +
      componentSum .local entries := by
    rw [hafter, cached_component, advancePosition_component]
  have hlocal' : after.localReservedMinor = program.localReservedMinor +
      componentSum .local entries := hlocal
  rw [hlocal']
  exact hrows _ hbefore

/-! ## Changes -/

theorem Settled.outstanding {rt : Runtime} {identity : RequestIdentity} {invoiceId : String}
    {entry : PendingLedgerEntry} {update : InvoiceReservationEntity → InvoiceReservationEntity}
    {deltaMinor outstandingReservedMinor : Int} {status : ReservationStatus}
    {outcome : WriteOutcome}
    (h : Settled rt identity invoiceId entry update db program row outcome db')
    (hp : db.program? program.id = some program)
    (hs : Settles row.snapshot deltaMinor outstandingReservedMinor status)
    (hentry : componentSum .local [entry] = -deltaMinor)
    (hkey : ∀ r, (update r).key = r.key) (horigin : ∀ r, (update r).origin = r.origin)
    (hleft : (update row).outstandingReservedMinor = outstandingReservedMinor)
    (hstatus : (update row).status = status) (he : Outstanding p db) : Outstanding p db' := by
  have hmem : row ∈ db.reservationsFor program.id invoiceId := List.mem_of_head? h.found
  have hrow := (Db.mem_reservationsFor.mp hmem).1
  have hprogram : ∀ r, (update r).programId = r.programId := fun r =>
    congrArg (fun k : Uuid × String × Uuid => k.1) (hkey r)
  refine (h.position hp).outstanding (fun q hq => ?_) (fun n ht => ?_) he
  · rw [h.reservationsOf_put, List.filter_eq_nil_iff.mpr]
    · rfl
    · intro r hr hq'
      obtain ⟨r', hr', rfl⟩ := List.mem_map.mp hr
      have hid := (Db.mem_reservationsOf.mp (Db.mem_reservationsFor.mp hr').1).2
      exact hq (by rw [← hid, ← hprogram, of_decide_eq_true hq'])
  · have hone := Db.reservationsFor_of_nodup ht.invoices hmem
    have hid := (Db.mem_reservationsOf.mp hrow).2
    have hsettled := ht.settle hrow (hkey row) (horigin row) (by
      rw [hstatus, hleft]; exact hs.terminal)
    rw [h.reservationsOf_put, hone, hentry]
    have hdelta : deltaMinor = row.outstandingReservedMinor - outstandingReservedMinor := hs.delta
    have hn : n + -deltaMinor = n - row.outstandingReservedMinor +
        (update row).outstandingReservedMinor := by rw [hleft, hdelta]; omega
    simpa [hprogram, hid, hn] using hsettled

/-! ## Acknowledgements -/

/-- New versions of rows that treasury acknowledges. -/
def Acknowledges (written : List InvoiceReservationEntity) (db : Db) : Prop :=
  ∀ w ∈ written, ∃ row ∈ db.reservations, ∃ version now, w = Stmt.acknowledged version now row

theorem Tallied.acknowledgeAll {written : List InvoiceReservationEntity}
    (h : Tallied (db.reservationsOf p) localReservedMinor) (hw : Acknowledges written db) :
    Tallied (Table.putAll InvoiceReservationEntity.key (written.filter (·.programId = p))
      (db.reservationsOf p)) localReservedMinor := by
  refine h.acknowledge fun w hmem => ?_
  obtain ⟨hmem, hp⟩ := List.mem_filter.mp hmem
  obtain ⟨row, hrow, version, now, rfl⟩ := hw w hmem
  exact ⟨row, Db.mem_reservationsOf.mpr ⟨hrow, of_decide_eq_true hp⟩, rfl, rfl⟩

/-- A program without reservations has none to acknowledge. -/
theorem Acknowledges.filter_eq_nil {written : List InvoiceReservationEntity}
    (hw : Acknowledges written db) (hnil : db.reservationsOf p = []) :
    written.filter (·.programId = p) = [] := by
  refine List.filter_eq_nil_iff.mpr fun w hmem hp => ?_
  obtain ⟨row, hrow, version, now, rfl⟩ := hw w hmem
  have hrow' := Db.mem_reservationsOf.mpr ⟨hrow, of_decide_eq_true hp⟩
  change row ∈ db.reservationsOf p at hrow'
  rw [hnil] at hrow'
  cases hrow'

variable [Sha256] {rt : Runtime} {coordinates : StreamCoordinates}

theorem Reserved.outstanding {command : ReserveCommand} {reservedMinor : Int} {fx : Option FxRate}
    {outcome : WriteOutcome} (hp : db.program? program.id = some program)
    (h : Reserved rt command db program reservedMinor fx outcome db') (he : Outstanding p db) :
    Outstanding p db' := by
  have hprogram : (reservedRow rt command program reservedMinor fx).programId = program.id := rfl
  refine (h.position hp).outstanding (fun q hq => ?_) (fun n ht => ?_) he
  · rw [h.reservationsOf_put]
    simp [hprogram, hq]
  · have hpositive : 0 < reservedMinor := (reservationChecks_ok h.checked).1
    have hreserved := ht.reserve (reservedRow rt command program reservedMinor fx)
      (fun r hr hinvoice => h.invoiceId_ne hr hinvoice) rfl ?_
    · rw [h.reservationsOf_put]
      simpa [hprogram, componentSum_singleton, ReserveCommand.entry, reservedRow,
        Stmt.newReservation] using hreserved
    · constructor
      · intro hterminal
        simp [reservedRow, Stmt.newReservation, terminalStatuses] at hterminal
      · intro hzero
        have hzero' : reservedMinor = 0 := hzero
        omega

theorem EventApplied.outstanding {event : CapacityEvent}
    (h : EventApplied rt event coordinates db program db') (he : Outstanding p db) :
    Outstanding p db' := by
  refine h.position.outstanding (fun q _ => h.reservationsOf_after q) (fun n ht => ?_) he
  have hlocal : componentSum .local [ApplyTreasuryEventService.buildEntry event program] = 0 := by
    cases htype : event.type <;>
      simp [componentSum_singleton, ApplyTreasuryEventService.buildEntry, htype]
  rw [h.reservationsOf_after, hlocal, add_zero]
  exact ht

theorem EventEchoed.outstanding {event : CapacityEvent} {reference : String}
    (h : EventEchoed rt event coordinates db program reference db') (he : Outstanding p db) :
    Outstanding p db' := by
  obtain ⟨written, hwritten⟩ : ∃ written, written = (Stmt.echoedRows db program.id reference).map
    (Stmt.acknowledged event.version rt.now) := ⟨_, rfl⟩
  have hack : Acknowledges written db := by
    intro w hw
    rw [hwritten] at hw
    obtain ⟨row, hrow, rfl⟩ := List.mem_map.mp hw
    exact ⟨row, (Db.mem_reservationsOf.mp (List.mem_of_mem_filter hrow)).1, _, _, rfl⟩
  have hrows : db'.reservationsOf p = Table.putAll InvoiceReservationEntity.key
      (written.filter (·.programId = p)) (db.reservationsOf p) := by
    rw [h.reservationsOf_put, hwritten]
  refine (h.position p).outstanding (fun n ht => ?_) (fun hnil => ?_) he
  · rw [hrows]; exact ht.acknowledgeAll hack
  · rw [hrows, hack.filter_eq_nil hnil, hnil]; rfl

omit [Sha256] in
/-- The rows of a program, as the policy sees them, hold what they hold. -/
theorem localOutstanding_of_tallied (h : Tallied rows localReservedMinor) :
    localOutstanding (rows.map ApplySnapshotService.toSnapshotReservation) =
      localReservedMinor := by
  have hall : (rows.map ApplySnapshotService.toSnapshotReservation).filter (·.origin = .local) =
      rows.map ApplySnapshotService.toSnapshotReservation := by
    refine List.filter_eq_self.mpr fun r hr => ?_
    obtain ⟨row, hrow, rfl⟩ := List.mem_map.mp hr
    exact decide_eq_true (h.origin row hrow)
  rw [localOutstanding, hall, List.map_map, h.sum]
  rfl

/-- **A snapshot finds LOCAL as it should be**: it moves nothing there and
asks for no investigation. -/
theorem SnapshotApplied.local_unmoved {snapshot : ReconciliationSnapshot} {marker : SnapshotMarker}
    {ids : List Uuid} {investigationRequired : Bool} {deltas : SnapshotDeltas}
    (h : SnapshotApplied rt snapshot marker coordinates db program ids investigationRequired deltas
      db') (he : Outstanding program.id db) :
    deltas.local = 0 ∧ investigationRequired = false := by
  obtain ⟨hinvestigation, hlocal, -, -⟩ := applySnapshotPolicy_apply h.decided
  have hsum := localOutstanding_of_tallied (he.tallied program (program?_id h.found))
  rw [hsum] at hinvestigation hlocal
  exact ⟨by rw [hlocal]; exact Int.sub_self _, by rw [hinvestigation]; simp⟩

omit [Sha256] in
theorem not_local_of_mem_buildEntries {deltas : SnapshotDeltas} {snapshot : ReconciliationSnapshot}
    {entry : PendingLedgerEntry} (hlocal : deltas.local = 0)
    (h : entry ∈ ApplySnapshotService.buildEntries deltas snapshot) : entry.component ≠ .local := by
  obtain ⟨-, -, -, hdelta, hmoved⟩ := mem_buildEntries h
  intro hcomponent
  rw [hdelta, hcomponent] at hmoved
  exact hmoved hlocal

theorem SnapshotApplied.outstanding {snapshot : ReconciliationSnapshot} {marker : SnapshotMarker}
    {ids : List Uuid} {investigationRequired : Bool} {deltas : SnapshotDeltas}
    (h : SnapshotApplied rt snapshot marker coordinates db program ids investigationRequired deltas
      db') (he : Outstanding p db) : Outstanding p db' := by
  obtain ⟨written, hwritten⟩ : ∃ written, written = (Stmt.acknowledgedRows db program.id ids).map
    (Stmt.acknowledged snapshot.version rt.now) := ⟨_, rfl⟩
  have hack : Acknowledges written db := by
    intro w hw
    rw [hwritten] at hw
    obtain ⟨row, hrow, rfl⟩ := List.mem_map.mp hw
    exact ⟨row, (Db.mem_reservationsOf.mp (List.mem_of_mem_filter hrow)).1, _, _, rfl⟩
  have hrows : ∀ q, db'.reservationsOf q = Table.putAll InvoiceReservationEntity.key
      (written.filter (·.programId = q)) (db.reservationsOf q) := fun q => by
    rw [h.reservationsOf_put, hwritten]
  have hothers : ∀ q, program.id ≠ q → db'.reservationsOf q = db.reservationsOf q := fun q hq => by
    rw [hrows, List.filter_eq_nil_iff.mpr]
    · rfl
    · intro w hw hq'
      rw [hwritten] at hw
      obtain ⟨row, hrow, rfl⟩ := List.mem_map.mp hw
      exact hq ((Db.mem_reservationsOf.mp (List.mem_of_mem_filter hrow)).2.symm.trans
        (of_decide_eq_true hq'))
  by_cases hp : program.id = p
  · subst hp
    refine h.position.outstanding hothers (fun n ht => ?_) he
    rw [hrows, componentSum_buildEntries, SnapshotDeltas.component, (h.local_unmoved he).1,
      add_zero]
    exact ht.acknowledgeAll hack
  · exact (h.position.others p hp).outstanding (fun _ ht => by rwa [hothers p hp])
      (fun hnil => by rwa [hothers p hp]) he

/-- **One change.** -/
theorem Change.outstanding (h : Change db db') (he : Outstanding p db) : Outstanding p db' := by
  cases h with
  | reserved hp h => exact h.outstanding hp he
  | released hp hrate hd h =>
    refine h.outstanding hp (releasePolicy_ok hd) ?_ (fun _ => rfl) (fun _ => rfl) rfl rfl he
    simp [componentSum_singleton, ReleaseCommand.entry]
  | cancelled hp hd h =>
    refine h.outstanding hp (cancelPolicy_ok hd) ?_ (fun _ => rfl) (fun _ => rfl) rfl rfl he
    simp [componentSum_singleton, CancelCommand.entry]
  | applied h => exact h.outstanding he
  | echoed h => exact h.outstanding he
  | corrected h => exact h.outstanding he
  | seeded hp hnone hpersist =>
    refine (seeded_position hp hnone hpersist).outstanding (fun q _ => by simp [advanceWrites])
      (fun n ht => ?_) he
    simpa [advanceWrites, componentSum_singleton, ProgramSeed.entry] using ht
  | swept cutoff => exact ⟨he.tallied, he.unborn⟩
  | flagged b v hp =>
    exact (flagged_still hp p).outstanding (fun _ ht => by simpa using ht)
      (fun hnil => by simpa using hnil) he

/-! ## The reconciliation check -/

omit [Sha256] in
/-- **The active reservations hold everything**: the others hold nothing. -/
theorem Tallied.activeOutstanding (h : Tallied (db.reservationsOf p) localReservedMinor) :
    Stmt.activeOutstanding db p = localReservedMinor := by
  rw [Stmt.activeOutstanding, Table.sum_filter, h.sum]
  intro row hrow hinactive
  refine (h.status row hrow).mp ?_
  have horigin := h.origin row hrow
  cases hs : row.status <;> simp_all [terminalStatuses]

omit [Sha256] in
theorem run_flagAll {found : List ReconciliationMismatch} :
    ∃ db', engine.run (flagAll found) db = .ok ((), db') := by
  induction found generalizing db with
  | nil => exact ⟨db, rfl⟩
  | cons mismatch rest ih => exact ih

omit [Sha256] in
/-- The check reports what its statement finds. -/
theorem run_check : ∃ db', engine.run check db = .ok
    (let rows := (Stmt.programsById db).map fun program => ReconciliationRow.mk program.id
      program.localReservedMinor (Stmt.activeOutstanding db program.id)
    ⟨rows.length, mismatches rows⟩, db') := by
  obtain ⟨db', hflags⟩ := @run_flagAll db (mismatches ((Stmt.programsById db).map fun program =>
    ReconciliationRow.mk program.id program.localReservedMinor
      (Stmt.activeOutstanding db program.id)))
  refine ⟨db', ?_⟩
  rw [check, run_query_of_nil rfl]
  simp only [Stmt.exec, Engine.applyAll_nil]
  exact Engine.run_bind_ok.mpr ⟨_, _, hflags, rfl⟩

omit [Sha256] in
/-- A program that is mismatched has another LOCAL component than its
active reservations hold. -/
theorem mem_mismatches {rows : List ReconciliationRow} {mismatch : ReconciliationMismatch} :
    mismatch ∈ mismatches rows ↔ ∃ row ∈ rows, row.activeOutstanding ≠ row.localReservedMinor ∧
      mismatch = ⟨row.programId, row.activeOutstanding, row.localReservedMinor⟩ := by
  simp only [mismatches, List.mem_filterMap]
  constructor
  · rintro ⟨row, hrow, he⟩
    split at he
    · cases he
    · rename_i hne
      cases he
      exact ⟨row, hrow, hne, rfl⟩
  · rintro ⟨row, hrow, hne, rfl⟩
    exact ⟨row, hrow, by rw [if_neg hne]⟩

omit [Sha256] in
/-- **The check finds nothing to report of a tallied program.** -/
theorem Outstanding.not_mismatched (h : Outstanding p db)
    (hkeys : (db.programs.map (·.id)).Nodup) {report : ReconciliationReport}
    (hrun : engine.run check db = .ok (report, db')) :
    ∀ mismatch ∈ report.mismatches, mismatch.programId ≠ p := by
  obtain ⟨db'', hcheck⟩ := @run_check db
  rw [hcheck] at hrun
  cases hrun
  intro mismatch hm hp
  obtain ⟨row, hrow, hne, rfl⟩ := mem_mismatches.mp hm
  obtain ⟨program, hmem, rfl⟩ := List.mem_map.mp hrow
  simp only at hp hne
  have hfound : db.program? program.id = some program :=
    Table.get_of_mem hkeys (List.mem_mergeSort.mp hmem)
  rw [hp] at hfound hne
  exact hne (h.tallied program hfound).activeOutstanding

omit [Sha256] in
theorem programIds_nodup_apply {w : Write} (h : (db.programs.map (·.id)).Nodup) :
    ((db.apply w).programs.map (·.id)).Nodup := by
  cases w with
  | program row => exact Table.nodup_put h
  | _ => exact h

/-! ## Interleavings -/

variable {sys : Sys Stmt Db Write Failure LockedReply LockedTransaction Key}

/-- A snapshot that was applied, in a serial run. -/
theorem snapshot_applied {snapshot : ReconciliationSnapshot}
    (h : engine.run (LockedTransaction.snapshot rt snapshot coordinates).tx db =
      .ok (.applied .applied, db')) :
    ∃ marker program ids investigationRequired deltas,
      SnapshotApplied rt snapshot marker coordinates db program ids investigationRequired deltas
        db' := by
  obtain ⟨outcome, h, he⟩ := Engine.run_map_ok.mp h
  cases he
  rcases applySnapshot_cases (run_snapshotTransaction h) with ⟨hidle, -⟩ | ⟨-, ha⟩
  · exact absurd hidle id
  · exact ha

/-- The ledger a snapshot leaves has no new LOCAL entry, and the program
keeps its flag. -/
theorem SnapshotApplied.local_ledger {snapshot : ReconciliationSnapshot} {marker : SnapshotMarker}
    {ids : List Uuid} {investigationRequired : Bool} {deltas : SnapshotDeltas}
    (h : SnapshotApplied rt snapshot marker coordinates db program ids investigationRequired deltas
      db') (he : Outstanding program.id db) :
    (∃ added, db'.ledgerOf program.id = db.ledgerOf program.id ++ added ∧
      ∀ entry ∈ added, entry.component ≠ .local) ∧
    (db'.program? program.id).map (·.investigationRequired) =
      some program.investigationRequired := by
  obtain ⟨hlocal, hinvestigation⟩ := h.local_unmoved he
  refine ⟨⟨_, h.position.ledger, fun entry hentry => ?_⟩, ?_⟩
  · obtain ⟨sequenced, hs, rfl⟩ := List.mem_map.mp hentry
    have hpending := List.mem_map_of_mem (f := (·.toPendingLedgerEntry)) hs
    rw [advancePosition_entries, List.mem_append] at hpending
    rcases hpending with hbuilt | hmarker
    · exact not_local_of_mem_buildEntries hlocal hbuilt
    · obtain ⟨cause, -, he⟩ := of_mem_markers hmarker
      change sequenced.toPendingLedgerEntry.component ≠ _
      rw [he]
      simp [overLimitMarker]
  · rw [h.after]
    simp [advanceWrites, snapshotRow, Stmt.withTreasuryVersion, Stmt.withPosition, hinvestigation]

/-- **LOCAL is what is outstanding, under any interleaving.** For a program
that had nothing reserved: its LOCAL component is the sum of what its LOCAL
reservations hold, and of what the active ones hold; a reservation is
terminal exactly when it holds nothing; the reconciliation check does not
report it; and every snapshot that is applied to it moves no LOCAL amount,
writes no LOCAL entry and asks for no investigation. -/
theorem local_is_outstanding (hkeys : (db.programs.map (·.id)).Nodup) (hstart : Unreserved p db)
    (h : Interleaved db sys) :
    (∀ program, sys.committed.program? p = some program →
      program.localReservedMinor = (((sys.committed.reservationsOf p).filter
        (·.origin = .local)).map (·.outstandingReservedMinor)).sum ∧
      program.localReservedMinor = Stmt.activeOutstanding sys.committed p) ∧
    (∀ row ∈ sys.committed.reservationsOf p,
      row.status ∈ terminalStatuses ↔ row.outstandingReservedMinor = 0) ∧
    (∃ report db', engine.run check sys.committed = .ok (report, db') ∧
      (∀ mismatch ∈ report.mismatches, mismatch.programId ≠ p) ∧
      ((∀ q, Unreserved q db) → report.mismatches = [])) ∧
    ∀ pre rt snapshot coordinates post,
      sys.history = pre ++ (.snapshot rt snapshot coordinates, .applied .applied) :: post →
      Uuid.ofText snapshot.programId = p →
        let before := LockedTransaction.run (pre.map Prod.fst) db
        let after := LockedTransaction.run
          (pre.map Prod.fst ++ [.snapshot rt snapshot coordinates]) db
        (∃ marker program ids deltas, deltas.local = 0 ∧
          SnapshotApplied rt snapshot marker coordinates before program ids false deltas after) ∧
        (∃ added, after.ledgerOf p = before.ledgerOf p ++ added ∧
          ∀ entry ∈ added, entry.component ≠ .local) ∧
        (after.program? p).map (·.investigationRequired) =
          (before.program? p).map (·.investigationRequired) := by
  have houtstanding : Outstanding p sys.committed :=
    h.induct (fun _ _ hc hs => hs.outstanding hc) hstart.outstanding
  refine ⟨fun program hp => ?_, fun row hrow => ?_, ?_, ?_⟩
  · have ht := houtstanding.tallied program hp
    refine ⟨?_, ht.activeOutstanding.symm⟩
    rw [Table.sum_filter, ← ht.sum]
    intro row hrow horigin
    simp [ht.origin row hrow] at horigin
  · cases hp : sys.committed.program? p with
    | none => rw [houtstanding.unborn hp] at hrow; cases hrow
    | some program => exact (houtstanding.tallied program hp).status row hrow
  · have hcommitted : (sys.committed.programs.map (·.id)).Nodup :=
      Reachable.mono (P := fun c : Db => (c.programs.map (·.id)).Nodup)
        (fun w c => programIds_nodup_apply) hkeys h
    obtain ⟨db', hrun⟩ := @run_check sys.committed
    refine ⟨_, db', hrun, houtstanding.not_mismatched hcommitted hrun, fun hall => ?_⟩
    refine List.eq_nil_iff_forall_not_mem.mpr fun mismatch hm => ?_
    have hq : Outstanding mismatch.programId sys.committed :=
      h.induct (fun _ _ hc hs => hs.outstanding hc) (hall _).outstanding
    exact hq.not_mismatched hcommitted hrun mismatch hm rfl
  · -- an applied snapshot answered in the state its predecessors left
    intro pre rt snapshot coordinates post hh hp before after
    obtain ⟨db', hrun⟩ := h.answer hh (by simp [LockedReply.Idle, ApplyOutcome.Idle])
    obtain ⟨marker, program, ids, investigationRequired, deltas, ha⟩ := snapshot_applied hrun
    have hbefore : Outstanding p before :=
      serial_induct (fun _ _ _ _ h => (LockedTransaction.change h).to_reflTransGen)
        (fun _ _ hc hs => hs.outstanding hc) _ hstart.outstanding
    have hafter : after = db' := by
      change LockedTransaction.run _ _ = _
      rw [LockedTransaction.run, serial_append]
      exact Engine.effect_of_run_ok hrun
    have hid : program.id = p := (Db.id_of_program? ha.found).trans hp
    subst hid
    rw [hafter]
    obtain ⟨hlocal, hinvestigation⟩ := ha.local_unmoved hbefore
    obtain ⟨hledger, hflag⟩ := ha.local_ledger hbefore
    refine ⟨⟨marker, program, ids, deltas, hlocal, hinvestigation ▸ ha⟩, hledger, ?_⟩
    rw [hflag, program?_id ha.found]
    rfl

end InvoiceReservation

namespace InvoiceReservation

open Transactions

attribute [local instance] trafficSha256

/-- A reserve of the first program and a snapshot of it. -/
def reserveThenSnapshot : List LockedTransaction :=
  [.reserve (callAt 1) (reserveCommand "req-00001" "INV-1" 100),
    .snapshot (callAt 2) (reconciliationSnapshot "snap-00001" 1 1000000000 100)
      (coordinatesAt "treasury.capacity.snapshots" 0)]

theorem local_is_outstanding_reserveThenSnapshot : ∃ sys, Interleaved seeded sys ∧
    sys.history.map Prod.fst = reserveThenSnapshot ∧
    ∀ row ∈ sys.committed.reservationsOf (Uuid.ofText northwindUsdProgramId),
      row.status ∈ terminalStatuses ↔ row.outstandingReservedMinor = 0 := by
  obtain ⟨sys, hreached, hhistory⟩ : ∃ sys, Interleaved seeded sys ∧
      sys.history.map Prod.fst = reserveThenSnapshot := exists_reachable <| by
        rw [seeded_eq]
        decide +kernel
  have hstart : Unreserved (Uuid.ofText northwindUsdProgramId) seeded :=
    ⟨by rw [seeded_eq]; rfl, fun program hp => by
      have hzero : (seeded.program? (Uuid.ofText northwindUsdProgramId)).map
          (·.localReservedMinor) = some 0 := by
        rw [seeded_eq]
        decide +kernel
      rw [hp] at hzero
      exact Option.some.inj hzero⟩
  exact ⟨sys, hreached, hhistory, (local_is_outstanding (by decide +kernel) hstart hreached).2.1⟩

end InvoiceReservation
