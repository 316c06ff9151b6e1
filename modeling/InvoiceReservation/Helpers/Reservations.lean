import InvoiceReservation.Helpers.Changes
import InvoiceReservation.Helpers.Policies
import Mathlib.Data.List.Nodup
/-!
# Reservations, row by row

A change leaves every reservation of a program in its place, in the same
version or a later one, or adds one behind them. What a reservation was
created with it keeps, and treasury's acknowledgement of it only moves
forward.
-/

namespace InvoiceReservation

open Transactions

variable {db db' : Db} {p q : Uuid} {rows : List InvoiceReservationEntity}
variable {row row' row'' : InvoiceReservationEntity}

/-- What a reservation was created with: the row without the columns that
are ever written again. -/
def InvoiceReservationEntity.created (row : InvoiceReservationEntity) : InvoiceReservationEntity :=
  { row with
    outstandingInvoiceMinor := 0
    outstandingReservedMinor := 0
    status := .active
    treasuryAcknowledged := false
    acknowledgedByVersion := none
    updatedAt := 0 }

/-- A later version of a row. -/
structure Evolves (row row' : InvoiceReservationEntity) : Prop where
  created : row'.created = row.created
  acknowledged : ∀ v, row.acknowledgedByVersion = some v →
    ∃ v', row'.acknowledgedByVersion = some v' ∧ v ≤ v'

theorem Evolves.refl (row : InvoiceReservationEntity) : Evolves row row :=
  ⟨rfl, fun v hv => ⟨v, hv, le_refl v⟩⟩

theorem Evolves.trans (h : Evolves row row') (h' : Evolves row' row'') : Evolves row row'' := by
  refine ⟨h'.created.trans h.created, fun v hv => ?_⟩
  obtain ⟨v', hv', hle⟩ := h.acknowledged v hv
  obtain ⟨v'', hv'', hle'⟩ := h'.acknowledged v' hv'
  exact ⟨v'', hv'', hle.trans hle'⟩

theorem Evolves.key (h : Evolves row row') : row'.key = row.key := by
  have hkey : row'.created.key = row.created.key := by rw [h.created]
  exact hkey

theorem Evolves.id (h : Evolves row row') : row'.id = row.id := by
  have hid : row'.created.id = row.created.id := by rw [h.created]
  exact hid

/-- Rows that met their checks, with ids and invoices of their own. -/
structure Filed (rows : List InvoiceReservationEntity) : Prop where
  invoices : (rows.map (·.invoiceId)).Nodup
  ids : (rows.map (·.id)).Nodup
  checked : ∀ row ∈ rows, ∀ c ∈ reservationChecks row, c.1 = true

theorem filed_nil : Filed [] := ⟨List.nodup_nil, List.nodup_nil, by simp⟩

theorem Filed.keys (h : Filed rows) : (rows.map InvoiceReservationEntity.key).Nodup := by
  refine List.Nodup.of_map (fun k => k.2.1) ?_
  rw [List.map_map]
  exact h.invoices

/-- A row says it is acknowledged when it says by which version. -/
theorem Filed.acknowledged (h : Filed rows) (hrow : row ∈ rows) :
    row.treasuryAcknowledged = row.acknowledgedByVersion.isSome := by
  have hcheck := h.checked row hrow
  simp only [reservationChecks, List.forall_mem_cons, Constraint.check, beq_iff_eq] at hcheck
  exact hcheck.2.2.2.2.2.1

/-- Later versions of filed rows are filed where they meet their checks. -/
theorem Filed.map (h : Filed rows) {f : InvoiceReservationEntity → InvoiceReservationEntity}
    (hf : ∀ row ∈ rows, Evolves row (f row))
    (hchecked : ∀ row ∈ rows, ∀ c ∈ reservationChecks (f row), c.1 = true) :
    Filed (rows.map f) := by
  have hsame : ∀ {β : Type} (g : InvoiceReservationEntity → β),
      (∀ row, g row.created = g row) → (rows.map f).map g = rows.map g := by
    intro β g hg
    rw [List.map_map]
    refine List.map_congr_left fun row hrow => ?_
    rw [Function.comp_apply, ← hg, (hf row hrow).created, hg]
  refine ⟨?_, ?_, ?_⟩
  · rw [hsame (·.invoiceId) fun _ => rfl]; exact h.invoices
  · rw [hsame (·.id) fun _ => rfl]; exact h.ids
  · intro row' hrow'
    obtain ⟨row, hrow, rfl⟩ := List.mem_map.mp hrow'
    exact hchecked row hrow

/-- A new row is filed behind the others. -/
theorem Filed.append (h : Filed rows) (hinvoice : ∀ r ∈ rows, r.invoiceId ≠ row.invoiceId)
    (hid : ∀ r ∈ rows, r.id ≠ row.id) (hchecked : ∀ c ∈ reservationChecks row, c.1 = true) :
    Filed (rows ++ [row]) := by
  have hnodup : ∀ {β : Type} (g : InvoiceReservationEntity → β), (rows.map g).Nodup →
      (∀ r ∈ rows, g r ≠ g row) → ((rows ++ [row]).map g).Nodup := by
    intro β g hn hne
    rw [List.map_append, List.nodup_append]
    refine ⟨hn, by simp, ?_⟩
    intro x hx y hy he
    obtain ⟨r, hr, rfl⟩ := List.mem_map.mp hx
    obtain rfl := List.mem_singleton.mp hy
    exact hne r hr he
  refine ⟨hnodup _ h.invoices hinvoice, hnodup _ h.ids hid, ?_⟩
  exact List.forall_mem_append.mpr ⟨h.checked, List.forall_mem_singleton.mpr hchecked⟩

/-! ## One change -/

/-- **New versions of some of a program's rows**, read back. -/
theorem reservationsOf_rewrite (h : Filed (db.reservationsOf p))
    {P : InvoiceReservationEntity → Bool}
    {f : InvoiceReservationEntity → InvoiceReservationEntity} (hf : ∀ r, (f r).key = r.key) :
    Table.putAll InvoiceReservationEntity.key
      ((((db.reservationsOf q).filter P).map f).filter (·.programId = p)) (db.reservationsOf p) =
        (db.reservationsOf p).map fun row => if q = p ∧ P row then f row else row := by
  have hprogram : ∀ r, (f r).programId = r.programId := fun r =>
    congrArg (fun k : Uuid × String × Uuid => k.1) (hf r)
  by_cases hq : q = p
  · subst hq
    have hall : (((db.reservationsOf q).filter P).map f).filter (·.programId = q) =
        ((db.reservationsOf q).filter P).map f := by
      refine List.filter_eq_self.mpr fun w hw => ?_
      obtain ⟨r, hr, rfl⟩ := List.mem_map.mp hw
      rw [hprogram]
      exact decide_eq_true (Db.mem_reservationsOf.mp (List.mem_of_mem_filter hr)).2
    rw [hall, Table.putAll_map_filter h.keys hf]
    simp
  · have hnone : (((db.reservationsOf q).filter P).map f).filter (·.programId = p) = [] := by
      refine List.filter_eq_nil_iff.mpr fun w hw hp => hq ?_
      obtain ⟨r, hr, rfl⟩ := List.mem_map.mp hw
      rw [hprogram] at hp
      exact (Db.mem_reservationsOf.mp (List.mem_of_mem_filter hr)).2.symm.trans
        (of_decide_eq_true hp)
    rw [hnone]
    simp [hq]

/-- What a change does to a program's rows: later versions of all of them,
or one more. -/
inductive RowsChange (rows : List InvoiceReservationEntity) :
    List InvoiceReservationEntity → Prop
  | rewritten (f : InvoiceReservationEntity → InvoiceReservationEntity) :
      (∀ row ∈ rows, Evolves row (f row)) →
      (∀ row ∈ rows, ∀ c ∈ reservationChecks (f row), c.1 = true) → RowsChange rows (rows.map f)
  | added (row : InvoiceReservationEntity) :
      (∀ r ∈ rows, r.invoiceId ≠ row.invoiceId) → (∀ r ∈ rows, r.id ≠ row.id) →
      (∀ c ∈ reservationChecks row, c.1 = true) → RowsChange rows (rows ++ [row])

theorem RowsChange.filed {rows' : List InvoiceReservationEntity} (hc : RowsChange rows rows')
    (h : Filed rows) : Filed rows' := by
  cases hc with
  | rewritten f hf hchecked => exact h.map hf hchecked
  | added row hinvoice hid hchecked => exact h.append hinvoice hid hchecked

/-- Later versions of all of some rows, each of which meets its checks. -/
def Rewritten (rows rows' : List InvoiceReservationEntity) : Prop :=
  ∃ f, rows' = rows.map f ∧ (∀ row ∈ rows, Evolves row (f row)) ∧
    ∀ row ∈ rows, ∀ c ∈ reservationChecks (f row), c.1 = true

theorem Rewritten.rowsChange {rows' : List InvoiceReservationEntity} (h : Rewritten rows rows') :
    RowsChange rows rows' := by
  obtain ⟨f, rfl, hf, hchecked⟩ := h
  exact .rewritten f hf hchecked

/-- Rows that stay as they are. -/
theorem Rewritten.refl (h : Filed rows) : Rewritten rows rows :=
  ⟨id, (List.map_id _).symm, fun row _ => Evolves.refl row, h.checked⟩

/-- New versions of some of a program's rows. -/
theorem Rewritten.of_rewrite (h : Filed (db.reservationsOf p))
    {P : InvoiceReservationEntity → Bool}
    {f : InvoiceReservationEntity → InvoiceReservationEntity}
    (hrows : db'.reservationsOf p = Table.putAll InvoiceReservationEntity.key
      ((((db.reservationsOf q).filter P).map f).filter (·.programId = p)) (db.reservationsOf p))
    (hkey : ∀ r, (f r).key = r.key)
    (hf : q = p → ∀ row ∈ (db.reservationsOf p).filter P, Evolves row (f row))
    (hchecked : ∀ row ∈ (db.reservationsOf q).filter P,
      ∀ c ∈ reservationChecks (f row), c.1 = true) :
    Rewritten (db.reservationsOf p) (db'.reservationsOf p) := by
  rw [hrows, reservationsOf_rewrite h hkey]
  refine ⟨_, rfl, fun row hrow => ?_, fun row hrow => ?_⟩
  · split
    · rename_i hP
      exact hf hP.1 row (List.mem_filter.mpr ⟨hrow, hP.2⟩)
    · exact Evolves.refl row
  · split
    · rename_i hP
      exact hchecked row (List.mem_filter.mpr ⟨hP.1 ▸ hrow, hP.2⟩)
    · exact h.checked row hrow

variable [Sha256]

omit [Sha256] in
/-- The rows a marker names are those it marks. -/
theorem Filed.mem_marked {marker : SnapshotMarker} {version : Int} (h : Filed rows)
    (hrow : row ∈ rows) :
    row.id ∈ ((rows.map ApplySnapshotService.toSnapshotReservation).filter
      (marks marker version)).map (·.id) ↔
      marks marker version (ApplySnapshotService.toSnapshotReservation row) = true := by
  constructor
  · intro hmem
    obtain ⟨reservation, hreservation, hid⟩ := List.mem_map.mp hmem
    obtain ⟨hreservation, hmarks⟩ := List.mem_filter.mp hreservation
    obtain ⟨other, hother, rfl⟩ := List.mem_map.mp hreservation
    have hone := Table.filter_of_mem h.ids hrow
    have hmem' : other ∈ rows.filter (fun r => r.id = row.id) :=
      List.mem_filter.mpr ⟨hother, decide_eq_true hid⟩
    rw [hone] at hmem'
    obtain rfl := List.mem_singleton.mp hmem'
    exact hmarks
  · intro hmarks
    exact List.mem_map_of_mem (List.mem_filter.mpr ⟨List.mem_map_of_mem hrow, hmarks⟩)

/-- What the marker of an applied snapshot acknowledges. -/
theorem SnapshotApplied.ids_eq {rt : Runtime} {snapshot : ReconciliationSnapshot}
    {marker : SnapshotMarker} {coordinates : StreamCoordinates} {program : ProgramEntity}
    {ids : List Uuid} {investigationRequired : Bool} {deltas : SnapshotDeltas}
    (h : SnapshotApplied rt snapshot marker coordinates db program ids investigationRequired deltas
      db') : ids = (((db.reservationsOf program.id).map
        ApplySnapshotService.toSnapshotReservation).filter (marks marker snapshot.version)).map
          (·.id) := by
  have hdecided := h.decided
  unfold snapshotDecision applySnapshotPolicy at hdecided
  dsimp only at hdecided
  split at hdecided
  · cases hdecided
  · cases hdecided
    rfl

/-- **The rows an applied snapshot leaves**: those its marker marks are
acknowledged by its version. -/
theorem SnapshotApplied.reservationsOf_after {rt : Runtime} {snapshot : ReconciliationSnapshot}
    {marker : SnapshotMarker} {coordinates : StreamCoordinates} {program : ProgramEntity}
    {ids : List Uuid} {investigationRequired : Bool} {deltas : SnapshotDeltas}
    (h : SnapshotApplied rt snapshot marker coordinates db program ids investigationRequired deltas
      db') (hfiled : Filed (db.reservationsOf p)) :
    db'.reservationsOf p = (db.reservationsOf p).map fun row =>
      if program.id = p ∧ marks marker snapshot.version
        (ApplySnapshotService.toSnapshotReservation row) then
          Stmt.acknowledged snapshot.version rt.now row
      else row := by
  have hrewrite := @reservationsOf_rewrite db p program.id hfiled (fun row => ids.contains row.id)
    (Stmt.acknowledged snapshot.version rt.now) fun _ => rfl
  rw [h.reservationsOf_put]
  refine Eq.trans hrewrite (List.map_congr_left fun row hrow => ?_)
  by_cases hp : program.id = p
  · subst hp
    have hmem := @Filed.mem_marked _ row marker snapshot.version hfiled hrow
    rw [← h.ids_eq] at hmem
    simp only [List.contains_eq_mem, true_and, decide_eq_true_eq, hmem]
  · simp [hp]

omit [Sha256] in
/-- The rows a settlement leaves: a new version of those of its invoice. -/
theorem Settled.reservationsOf_after {rt : Runtime} {identity : RequestIdentity}
    {invoiceId : String} {entry : PendingLedgerEntry} {program : ProgramEntity}
    {update : InvoiceReservationEntity → InvoiceReservationEntity}
    {row : InvoiceReservationEntity} {outcome : WriteOutcome}
    (h : Settled rt identity invoiceId entry update db program row outcome db')
    (hfiled : Filed (db.reservationsOf p)) (hkey : ∀ r, (update r).key = r.key) :
    db'.reservationsOf p = (db.reservationsOf p).map fun r =>
      if program.id = p ∧ decide (r.invoiceId = invoiceId) = true then update r else r := by
  have hrewrite := @reservationsOf_rewrite db p program.id hfiled
    (fun r => decide (r.invoiceId = invoiceId)) update hkey
  rw [← hrewrite, h.reservationsOf_put]
  simp [Db.reservationsFor]

/-- The rows an accepted reserve leaves: one more, of its program. -/
theorem Reserved.reservationsOf_after {rt : Runtime} {command : ReserveCommand}
    {program : ProgramEntity} {reservedMinor : Int} {fx : Option FxRate} {outcome : WriteOutcome}
    (ha : Reserved rt command db program reservedMinor fx outcome db') :
    db'.reservationsOf p = db.reservationsOf p ++
      if program.id = p then [reservedRow rt command program reservedMinor fx] else [] := by
  have hprogram : (reservedRow rt command program reservedMinor fx).programId = program.id := rfl
  rw [ha.reservationsOf_put]
  by_cases hp : program.id = p
  swap
  · simp [hprogram, hp]
  have hput : Table.put InvoiceReservationEntity.key
      (reservedRow rt command program reservedMinor fx) (db.reservationsOf p) =
        db.reservationsOf p ++ [reservedRow rt command program reservedMinor fx] :=
    Table.put_of_get_none (Table.get_eq_none_iff.mpr fun r hr he => ha.id_ne hr
      (congrArg (fun k : Uuid × String × Uuid => k.2.2) he))
  simp [hprogram, hp, hput]

/-- The rows an accepted reserve leaves to its program: one more. -/
theorem Reserved.rowsChange {rt : Runtime} {command : ReserveCommand} {program : ProgramEntity}
    {reservedMinor : Int} {fx : Option FxRate} {outcome : WriteOutcome}
    (ha : Reserved rt command db program reservedMinor fx outcome db') :
    RowsChange (db.reservationsOf program.id) (db'.reservationsOf program.id) := by
  rw [ha.reservationsOf_after, if_pos rfl]
  exact RowsChange.added _ (fun _ hr => ha.invoiceId_ne hr) (fun _ hr => ha.id_ne hr) ha.checked

/-- **One change** rewrites a program's rows, or is a reserve in it. -/
theorem Change.rewritten_or_reserved (hc : Change db db') (h : Filed (db.reservationsOf p)) :
    Rewritten (db.reservationsOf p) (db'.reservationsOf p) ∨
      ∃ rt command program reservedMinor fx outcome, program.id = p ∧
        db.program? program.id = some program ∧
        Reserved rt command db program reservedMinor fx outcome db' := by
  have hquiet : db'.reservationsOf p = db.reservationsOf p →
      Rewritten (db.reservationsOf p) (db'.reservationsOf p) := fun he => by
    rw [he]; exact Rewritten.refl h
  have hsettle : ∀ {r r' : InvoiceReservationEntity}, r'.created = r.created →
      r'.acknowledgedByVersion = r.acknowledgedByVersion → Evolves r r' := fun hcreated hack =>
    ⟨hcreated, fun v hv => ⟨v, hack.trans hv, le_refl v⟩⟩
  cases hc with
  | @reserved rt command program reservedMinor fx _ _ hp ha =>
    by_cases hq : program.id = p
    · exact Or.inr ⟨_, _, _, _, _, _, hq, hp, ha⟩
    · exact Or.inl (hquiet (by rw [ha.reservationsOf_after, if_neg hq, List.append_nil]))
  | @released rt command program row _ applied _ _ hp hrate hd ha =>
    exact Or.inl <| Rewritten.of_rewrite h (ha.reservationsOf_put p) (fun _ => rfl)
      (fun _ r _ => hsettle rfl rfl) ha.checked
  | @cancelled rt command program row applied _ _ hp hd ha =>
    exact Or.inl <| Rewritten.of_rewrite h (ha.reservationsOf_put p) (fun _ => rfl)
      (fun _ r _ => hsettle rfl rfl) ha.checked
  | applied ha => exact Or.inl (hquiet (ha.reservationsOf_after p))
  | @echoed rt event _ program reference _ ha =>
    refine Or.inl <| Rewritten.of_rewrite h (ha.reservationsOf_put p) (fun _ => rfl)
      (fun _ r hr => ⟨rfl, fun v hv => ?_⟩) ha.checked
    -- an echo acknowledges only what nothing acknowledged before
    obtain ⟨hmem, hP⟩ := List.mem_filter.mp hr
    have hack := h.acknowledged hmem
    simp [(of_decide_eq_true hP).2, hv] at hack
  | @corrected rt snapshot marker _ program ids _ _ _ ha =>
    refine Or.inl <| Rewritten.of_rewrite h (ha.reservationsOf_put p) (fun _ => rfl)
      (fun hq r hr => ⟨rfl, fun v hv => ?_⟩) ha.checked
    -- and a marker only what no snapshot as new did
    obtain ⟨hmem, hid⟩ := List.mem_filter.mp hr
    subst hq
    have hmarks := (@Filed.mem_marked _ r marker snapshot.version h hmem).mp
      (ha.ids_eq ▸ List.elem_iff.mp hid)
    simp only [marks, ApplySnapshotService.toSnapshotReservation, hv, Bool.and_eq_true,
      decide_eq_true_eq] at hmarks
    exact ⟨snapshot.version, rfl, hmarks.2.le⟩
  | seeded hp hnone hpersist => exact Or.inl (hquiet (by simp [advanceWrites]))
  | swept cutoff => exact Or.inl (hquiet rfl)
  | flagged b v hp => exact Or.inl (hquiet (by simp))

/-- A change to a program's rows. -/
theorem Change.rowsChange (hc : Change db db') (h : Filed (db.reservationsOf p)) :
    RowsChange (db.reservationsOf p) (db'.reservationsOf p) := by
  rcases hc.rewritten_or_reserved h with hs | ⟨_, _, _, _, _, _, rfl, -, ha⟩
  · exact hs.rowsChange
  · exact ha.rowsChange

/-- A change keeps a program's rows filed. -/
theorem Change.filed (hc : Change db db') (h : Filed (db.reservationsOf p)) :
    Filed (db'.reservationsOf p) :=
  (hc.rowsChange h).filed h

/-- So does a run. -/
theorem Filed.run (h : Filed (db.reservationsOf p)) (ops : List Operation) :
    Filed ((Operation.run ops db).reservationsOf p) :=
  run_induct (P := fun c => Filed (c.reservationsOf p)) (fun _ _ hc hs => hs.filed hc) ops h

end InvoiceReservation
