import InvoiceReservation.Common.Facility
import InvoiceReservation.Properties.LedgerPages
import InvoiceReservation.Properties.Outstanding
import InvoiceReservation.Properties.OverLimit
/-!
# The ledger replays

Every entry of a ledger stands for one move of a facility: a reservation is
a take for its invoice, a release or a cancellation gives some of it back,
what treasury reports moves the limit or the use elsewhere, and a marker is
the mark. Replayed from nothing, a program's ledger is allowed entry by
entry, and it comes to what the program and its reservations say.
-/

namespace InvoiceReservation

open Transactions Machines Facilities

variable {db db' : Db} {p : Uuid} {program : ProgramEntity} {position : ProgramPosition}
variable {rows rows' : List InvoiceReservationEntity} {entries : List PendingLedgerEntry}
variable {row : InvoiceReservationEntity} {now : Timestamp} {F F' : Facility String}

/-- The move an entry stands for, if it stands for one. -/
def PendingLedgerEntry.move? (entry : PendingLedgerEntry) : Option (Move String) :=
  match entry.component with
  | .limit =>
    match entry.cause with
    | .overLimitOnset => some .onset
    | .overLimitCleared => some .cleared
    | _ => some (.limit entry.deltaMinor)
  | .treasury => some (.elsewhere entry.deltaMinor)
  | .local =>
    match entry.cause with
    | .reservation => entry.originReference.map fun invoiceId => .take invoiceId entry.deltaMinor
    | .release | .cancellation | .writeOff =>
      entry.originReference.map fun invoiceId => .give invoiceId (-entry.deltaMinor)
    | _ => none

/-- The entries of a ledger, as moves of a facility. -/
def replay : Machine (Facility String) PendingLedgerEntry :=
  (facility String).via (·.move?)

/-- What a ledger replays to, from nothing. -/
def replayed (rows : List CapacityLedgerEntryEntity) : Option (Facility String) :=
  replay.run (rows.map (·.toPendingLedgerEntry)) .empty

/-- What every reservation holds, by its invoice. -/
def outstandingByInvoice (rows : List InvoiceReservationEntity) : List (String × Int) :=
  rows.map fun row => (row.invoiceId, row.outstandingReservedMinor)

/-- The facility a position and its reservations say there is. -/
def facilityOf (position : ProgramPosition) (rows : List InvoiceReservationEntity) :
    Facility String where
  limit := position.creditLimitMinor
  elsewhere := position.treasuryReservedMinor
  holdings := outstandingByInvoice rows
  marked := position.overLimitSince.isSome

/-- The facility of a program, nothing where there is no program. -/
def Db.facility (p : Uuid) (db : Db) : Facility String :=
  match db.program? p with
  | none => .empty
  | some program => facilityOf program.toProgramPosition (db.reservationsOf p)

/-- A facility after some entries and before the mark is looked at. -/
def unmarkedFacility (position : ProgramPosition) (entries : List PendingLedgerEntry)
    (rows : List InvoiceReservationEntity) : Facility String where
  limit := position.creditLimitMinor + componentSum .limit entries
  elsewhere := position.treasuryReservedMinor + componentSum .treasury entries
  holdings := outstandingByInvoice rows
  marked := position.overLimitSince.isSome

/-! ## One advance -/

/-- The holders of a tally hold what is reserved. -/
theorem held_facilityOf (h : Tallied rows position.localReservedMinor) :
    (facilityOf position rows).held = position.localReservedMinor := by
  rw [h.sum, Facility.held, facilityOf, outstandingByInvoice, List.map_map]
  rfl

/-- So its facility is over the limit where the position is. -/
theorem exceeded_facilityOf (h : Tallied rows position.localReservedMinor) :
    (facilityOf position rows).exceeded = isOverLimit position := by
  rw [Facility.exceeded, held_facilityOf h, isOverLimit, totalReserved]
  rfl

/-- **The marker of an advance replays**, behind its entries. -/
theorem replay_markers
    (h : Tallied rows (advancePosition position entries now).program.localReservedMinor) :
    replay.run (markers position entries) (unmarkedFacility position entries rows) =
      some (facilityOf (advancePosition position entries now).program rows) := by
  have hlimit : (advancePosition position entries now).program.creditLimitMinor =
      position.creditLimitMinor + componentSum .limit entries :=
    @advancePosition_component position entries now .limit
  have htreasury : (advancePosition position entries now).program.treasuryReservedMinor =
      position.treasuryReservedMinor + componentSum .treasury entries :=
    @advancePosition_component position entries now .treasury
  have hunmarked : unmarkedFacility position entries rows =
      { facilityOf (advancePosition position entries now).program rows with
        marked := position.overLimitSince.isSome } := by
    simp [unmarkedFacility, facilityOf, hlimit, htreasury]
  have hexceeded := exceeded_facilityOf h
  rw [← advancePosition_mark] at hexceeded
  rw [hunmarked]
  generalize hafter : advancePosition position entries now = after at hexceeded ⊢
  have hcases := @markers_cases position entries now
  rw [hafter] at hcases
  rcases hcases with ⟨hnone, hsame⟩ | ⟨honset, hbefore, hset⟩ | ⟨hcleared, hbefore, hset⟩
  · rw [hnone, ← hsame]
    rfl
  · -- an onset, of a facility that is over
    have hexceeded' : ({ facilityOf after.program rows with marked := false }).exceeded = true := by
      rw [hset] at hexceeded
      exact hexceeded
    rw [honset, hbefore]
    simp only [Machine.run, replay, Machine.via, overLimitMarker, PendingLedgerEntry.move?,
      facility, Facilities.step, Option.isSome_none, Option.bind_some, hexceeded',
      Bool.not_false, Bool.and_self, if_true]
    simp [facilityOf, hset]
  · -- a clearing, of one that is not
    have hexceeded' : ({ facilityOf after.program rows with marked := true }).exceeded = false := by
      rw [hset] at hexceeded
      exact hexceeded
    rw [hcleared, hbefore]
    simp only [Machine.run, replay, Machine.via, overLimitMarker, PendingLedgerEntry.move?,
      facility, Facilities.step, Option.bind_some, hexceeded', Bool.not_false, Bool.and_self,
      if_true]
    simp [facilityOf, hset]

/-- **An advance replays** where its own entries do. -/
theorem replay_advance
    (hown : replay.run entries F = some (unmarkedFacility position entries rows))
    (h : Tallied rows (advancePosition position entries now).program.localReservedMinor) :
    replay.run ((Stmt.ledgerRows p (advancePosition position entries now).entries now).map
      (·.toPendingLedgerEntry)) F =
        some (facilityOf (advancePosition position entries now).program rows) := by
  have hentries : (Stmt.ledgerRows p (advancePosition position entries now).entries now).map
      (·.toPendingLedgerEntry) = entries ++ markers position entries := by
    rw [← @advancePosition_entries position entries now, Stmt.ledgerRows, List.map_map]
    rfl
  rw [hentries, Machine.run_append hown]
  exact replay_markers h

/-! ## The entries of a change -/

/-- What an invoice has left, as a row of its program says it. -/
theorem left?_facilityOf (hn : (rows.map (·.invoiceId)).Nodup) (hrow : row ∈ rows) :
    (facilityOf position rows).left? row.invoiceId = some row.outstandingReservedMinor := by
  have hmem : (row.invoiceId, row.outstandingReservedMinor) ∈ outstandingByInvoice rows :=
    List.mem_map_of_mem hrow
  have hkeys : ((outstandingByInvoice rows).map Prod.fst).Nodup := by
    rw [outstandingByInvoice, List.map_map]
    exact hn
  have hget := Table.get_of_mem hkeys hmem
  rw [Facility.left?, facilityOf, hget]
  rfl

theorem left?_facilityOf_none {invoiceId : String} (hnew : ∀ r ∈ rows, r.invoiceId ≠ invoiceId) :
    (facilityOf position rows).left? invoiceId = none := by
  rw [Facility.left?, facilityOf, Table.get_eq_none_iff.mpr, Option.map_none]
  intro holding hmem
  obtain ⟨r, hr, rfl⟩ := List.mem_map.mp hmem
  exact hnew r hr

/-- **A reservation replays** as a take for its invoice. -/
theorem replay_reservation {command : ReserveCommand} {reservedMinor : Int}
    (h : Tallied rows position.localReservedMinor)
    (hnew : ∀ r ∈ rows, r.invoiceId ≠ command.invoiceText) (hpositive : 0 < reservedMinor)
    (havailable : reservedMinor ≤ available position)
    (hinvoice : row.invoiceId = command.invoiceText)
    (hheld : row.outstandingReservedMinor = reservedMinor) :
    replay.run [command.entry reservedMinor] (facilityOf position rows) =
      some (unmarkedFacility position [command.entry reservedMinor] (rows ++ [row])) := by
  have hleft := @left?_facilityOf_none position rows _ hnew
  have hroom : (facilityOf position rows).held + (facilityOf position rows).elsewhere +
      reservedMinor ≤ (facilityOf position rows).limit := by
    rw [held_facilityOf h]
    simp only [available, totalReserved] at havailable
    simp only [facilityOf]
    omega
  have hput : Table.put Prod.fst (command.invoiceText, reservedMinor) (outstandingByInvoice rows) =
      outstandingByInvoice (rows ++ [row]) := by
    have hnone : Table.get Prod.fst command.invoiceText (outstandingByInvoice rows) = none :=
      Option.map_eq_none_iff.mp hleft
    rw [Table.put_of_get_none hnone]
    simp [outstandingByInvoice, hinvoice, hheld]
  simp only [Machine.run, replay, Machine.via, PendingLedgerEntry.move?, ReserveCommand.entry,
    facility, Facilities.step, Option.map_some, Option.bind_some, hpositive, hleft, hroom, and_self,
    if_true, Facility.setLeft]
  simp [facilityOf, unmarkedFacility, componentSum_singleton, hput]

/-- **A settlement replays**: it gives back what its invoice no longer has. -/
theorem replay_settlement {entry : PendingLedgerEntry} {row' : InvoiceReservationEntity}
    (hn : (rows.map (·.invoiceId)).Nodup) (hrow : row ∈ rows) (hkey : row'.key = row.key)
    (hcomponent : entry.component = .local)
    (hcause : entry.cause ∈ [LedgerCause.release, .cancellation, .writeOff])
    (hreference : entry.originReference = some row.invoiceId) (hreturned : entry.deltaMinor < 0)
    (hremains : 0 ≤ row'.outstandingReservedMinor)
    (hdelta : row'.outstandingReservedMinor = row.outstandingReservedMinor + entry.deltaMinor) :
    replay.run [entry] (facilityOf position rows) =
      some (unmarkedFacility position [entry]
        (Table.put InvoiceReservationEntity.key row' rows)) := by
  have hleft := @left?_facilityOf position rows row hn hrow
  have hinvoice : row'.invoiceId = row.invoiceId :=
    congrArg (fun k : Uuid × String × Uuid => k.2.1) hkey
  have hmove : entry.move? = some (.give row.invoiceId (-entry.deltaMinor)) := by
    simp only [List.mem_cons, List.not_mem_nil, or_false] at hcause
    rcases hcause with h | h | h <;>
      simp [PendingLedgerEntry.move?, hcomponent, h, hreference]
  have hput : Table.put Prod.fst (row.invoiceId, row'.outstandingReservedMinor)
      (outstandingByInvoice rows) =
        outstandingByInvoice (Table.put InvoiceReservationEntity.key row' rows) := by
    have hrekey := @Table.map_put_rekey _ _ _ InvoiceReservationEntity.key row' rows _ _ _
      (fun r : InvoiceReservationEntity => (r.invoiceId, r.outstandingReservedMinor)) Prod.fst
    rw [outstandingByInvoice, outstandingByInvoice, hrekey, hinvoice]
    intro x hx
    rw [hkey, hinvoice]
    refine ⟨fun hk => congrArg (fun k : Uuid × String × Uuid => k.2.1) hk, fun hi => ?_⟩
    exact congrArg _ (List.inj_on_of_nodup_map hn hx hrow hi)
  have hstep : Facilities.step (.give row.invoiceId (-entry.deltaMinor))
      (facilityOf position rows) =
        some ((facilityOf position rows).setLeft row.invoiceId row'.outstandingReservedMinor) := by
    have hpositive : 0 < -entry.deltaMinor ∧ -entry.deltaMinor ≤ row.outstandingReservedMinor := by
      omega
    simp only [Facilities.step, hleft, hpositive, and_self, if_true, sub_neg_eq_add, hdelta]
  simp only [Machine.run, replay, Machine.via, hmove, facility, hstep, Option.bind_some,
    Facility.setLeft]
  simp [facilityOf, unmarkedFacility, componentSum_singleton, hcomponent, hput]

/-- **What treasury or a seed says replays**, where no component it moves
becomes negative. -/
theorem replay_shared {entry : PendingLedgerEntry} (hcomponent : entry.component ≠ .local)
    (hcause : entry.cause.isMarker = false)
    (hlimit : 0 ≤ position.creditLimitMinor + componentSum .limit [entry])
    (htreasury : 0 ≤ position.treasuryReservedMinor + componentSum .treasury [entry]) :
    replay.run [entry] (facilityOf position rows) =
      some (unmarkedFacility position [entry] rows) := by
  cases hc : entry.component with
  | «local» => exact absurd hc hcomponent
  | treasury =>
    simp only [componentSum_singleton, hc, if_true] at htreasury
    have hmove : entry.move? = some (.elsewhere entry.deltaMinor) := by
      simp [PendingLedgerEntry.move?, hc]
    simp only [Machine.run, replay, Machine.via, hmove, facility, Facilities.step, facilityOf,
      htreasury, if_true, Option.bind_some]
    simp [unmarkedFacility, componentSum_singleton, hc]
  | limit =>
    simp only [componentSum_singleton, hc, if_true] at hlimit
    have hmove : entry.move? = some (.limit entry.deltaMinor) := by
      cases hcase : entry.cause <;> simp_all [PendingLedgerEntry.move?, LedgerCause.isMarker]
    simp only [Machine.run, replay, Machine.via, hmove, facility, Facilities.step, facilityOf,
      hlimit, if_true, Option.bind_some]
    simp [unmarkedFacility, componentSum_singleton, hc]

/-- **A snapshot's corrections replay**, where it moves no LOCAL amount. -/
theorem replay_buildEntries {deltas : SnapshotDeltas} {snapshot : ReconciliationSnapshot}
    (hlocal : deltas.local = 0) (hlimit : 0 ≤ position.creditLimitMinor + deltas.limit)
    (htreasury : 0 ≤ position.treasuryReservedMinor + deltas.treasury) :
    replay.run (ApplySnapshotService.buildEntries deltas snapshot) (facilityOf position rows) =
      some (unmarkedFacility position (ApplySnapshotService.buildEntries deltas snapshot)
        rows) := by
  simp only [unmarkedFacility, componentSum_buildEntries, SnapshotDeltas.component]
  by_cases ht : deltas.treasury = 0 <;> by_cases hl : deltas.limit = 0 <;>
    simp [ApplySnapshotService.buildEntries, hlocal, ht, hl, Machine.run, replay, Machine.via,
      PendingLedgerEntry.move?, facility, Facilities.step, facilityOf, hlimit, htreasury]

/-! ## One change -/

/-- A change whose entries replay: a program that is left alone holds what it
held, and one that is advanced comes to the facility its entries lead to. -/
inductive ReplayedChange (p : Uuid) (db db' : Db) : Prop
  | still : Still p db db' →
      outstandingByInvoice (db'.reservationsOf p) = outstandingByInvoice (db.reservationsOf p) →
      ReplayedChange p db db'
  | advanced {program : ProgramEntity} {entries : List PendingLedgerEntry} {now : Timestamp} :
      program.id = p → Advanced db db' program entries now →
      replay.run entries (facilityOf program.toProgramPosition (db.reservationsOf p)) =
        some (unmarkedFacility program.toProgramPosition entries (db'.reservationsOf p)) →
      ReplayedChange p db db'

/-- An advance that leaves the reservations what they hold. -/
theorem Advanced.replayedChange (h : Advanced db db' program entries now)
    (hkept : outstandingByInvoice (db'.reservationsOf p) =
      outstandingByInvoice (db.reservationsOf p))
    (hrun : program.id = p →
      replay.run entries (facilityOf program.toProgramPosition (db.reservationsOf p)) =
        some (unmarkedFacility program.toProgramPosition entries (db.reservationsOf p))) :
    ReplayedChange p db db' := by
  by_cases hp : program.id = p
  swap
  · exact .still (h.others p hp) hkept
  refine .advanced hp h ?_
  rw [hrun hp, Option.some.injEq, unmarkedFacility, unmarkedFacility, hkept]

/-- An advance is not persisted with a negative component. -/
theorem Advanced.signs (h : Advanced db db' program entries now) :
    0 ≤ program.creditLimitMinor + componentSum .limit entries ∧
      0 ≤ program.treasuryReservedMinor + componentSum .treasury entries := by
  obtain ⟨flag, hpersist⟩ := h.persistable
  have hlimit := @advancePosition_component program.toProgramPosition entries now .limit
  have htreasury := @advancePosition_component program.toProgramPosition entries now .treasury
  exact ⟨hlimit ▸ hpersist.limitSign, htreasury ▸ hpersist.treasurySign⟩

/-- New versions that hold what the old ones held. -/
theorem outstandingByInvoice_map {P : InvoiceReservationEntity → Prop} [DecidablePred P]
    {f : InvoiceReservationEntity → InvoiceReservationEntity}
    (hf : ∀ r, (f r).holding = r.holding) :
    outstandingByInvoice (rows.map fun row => if P row then f row else row) =
      outstandingByInvoice rows := by
  rw [outstandingByInvoice, outstandingByInvoice, List.map_map]
  refine List.map_congr_left fun row hrow => ?_
  have hsame := hf row
  simp only [InvoiceReservationEntity.holding, Prod.mk.injEq] at hsame
  rw [Function.comp_apply]
  split
  · rw [hsame.1, hsame.2.2.2]
  · rfl

theorem Settled.replayedChange {rt : Runtime} {identity : RequestIdentity} {invoiceId : String}
    {entry : PendingLedgerEntry} {update : InvoiceReservationEntity → InvoiceReservationEntity}
    {deltaMinor outstandingReservedMinor : Int} {status : ReservationStatus}
    {outcome : WriteOutcome}
    (h : Settled rt identity invoiceId entry update db program row outcome db')
    (hp : db.program? program.id = some program)
    (hs : Settles row.snapshot deltaMinor outstandingReservedMinor status)
    (hcomponent : entry.component = .local)
    (hcause : entry.cause ∈ [LedgerCause.release, .cancellation, .writeOff])
    (hreference : entry.originReference = some invoiceId) (hdelta : entry.deltaMinor = -deltaMinor)
    (hreturned : program.id = p → 0 < deltaMinor) (hkey : ∀ r, (update r).key = r.key)
    (hleft : (update row).outstandingReservedMinor = outstandingReservedMinor)
    (hfiled : Filed (db.reservationsOf p)) : ReplayedChange p db db' := by
  have hmem : row ∈ db.reservationsFor program.id invoiceId := List.mem_of_head? h.found
  have hprogram : ∀ r, (update r).programId = r.programId := fun r =>
    congrArg (fun k : Uuid × String × Uuid => k.1) (hkey r)
  by_cases hq : program.id = p
  swap
  · refine .still ((h.position hp).others p hq) ?_
    rw [h.reservationsOf_after hfiled hkey]
    simp [hq]
  subst hq
  refine .advanced rfl (h.position hp) ?_
  obtain ⟨hrow, hinvoice⟩ := Db.mem_reservationsFor.mp hmem
  have hid := (Db.mem_reservationsOf.mp hrow).2
  have hput : db'.reservationsOf program.id = Table.put InvoiceReservationEntity.key (update row)
      (db.reservationsOf program.id) := by
    have hone := Db.reservationsFor_of_nodup hfiled.invoices hmem
    rw [h.reservationsOf_put, hone]
    simp [hprogram, hid]
  have hreturned := hreturned rfl
  have hdifference : deltaMinor = row.outstandingReservedMinor - outstandingReservedMinor :=
    hs.delta
  rw [hput]
  refine replay_settlement hfiled.invoices hrow (hkey row) hcomponent hcause
    (by rw [hreference, hinvoice]) (by omega) ?_ (by omega)
  exact (reservationChecks_ok (h.checked row hmem)).2.1

variable [Sha256]

/-- **The entries of every change replay.** -/
theorem Change.replayed (hc : Change db db') (he : Outstanding p db)
    (hfiled : Filed (db.reservationsOf p)) : ReplayedChange p db db' := by
  cases hc with
  | @reserved rt command program reservedMinor fx outcome _ hp h =>
    by_cases hq : program.id = p
    swap
    · refine .still ((h.position hp).others p hq) ?_
      rw [h.reservationsOf_after, if_neg hq, List.append_nil]
    subst hq
    refine .advanced rfl (h.position hp) ?_
    obtain ⟨resolution, -, hdecided⟩ := h.resolved
    rw [h.reservationsOf_after, if_pos rfl]
    exact replay_reservation (he.tallied program hp) (fun r hr => h.invoiceId_ne hr)
      (reservationChecks_ok h.checked).1 (decideReservation_accepted hdecided).2.2 rfl rfl
  | @released rt command program row scaledRate applied outcome _ hp hrate hd h =>
    exact h.replayedChange hp (releasePolicy_ok hd) rfl (by simp [ReleaseCommand.entry]) rfl rfl
      (fun _ => (releasePolicy_accepted hd).returned) (fun _ => rfl) rfl hfiled
  | @cancelled rt command program row applied outcome _ hp hd h =>
    have hs := cancelPolicy_ok hd
    refine h.replayedChange hp hs rfl ?_ rfl rfl ?_ (fun _ => rfl) rfl hfiled
    · rcases cancelPolicy_cause hd with hcause | hcause <;> simp [CancelCommand.entry, hcause]
    · -- what is active holds something
      intro hq
      subst hq
      have hmem : row ∈ db.reservationsFor program.id command.invoiceId :=
        List.mem_of_head? h.found
      have hrow := (Db.mem_reservationsFor.mp hmem).1
      have hdelta : applied.deltaMinor = row.outstandingReservedMinor - 0 := hs.delta
      have hactive : ¬ row.outstandingReservedMinor = 0 := fun hzero =>
        hs.active (((he.tallied program hp).status row hrow).mpr hzero)
      have hsign := (reservationChecks_ok (hfiled.checked row hrow)).2.1
      omega
  | @applied rt event coordinates program _ h =>
    refine h.position.replayedChange (by rw [h.reservationsOf_after]) fun _ => ?_
    refine replay_shared ?_ ?_ h.position.signs.1 h.position.signs.2
    · cases htype : event.type <;> simp [ApplyTreasuryEventService.buildEntry, htype]
    · cases htype : event.type <;>
        simp [ApplyTreasuryEventService.buildEntry, htype, LedgerCause.isMarker]
  | @echoed rt event coordinates program reference _ h =>
    refine .still (h.position p) ?_
    have hrewrite := @reservationsOf_rewrite db p program.id hfiled
      (fun row => row.treasuryReference = some reference ∧ row.treasuryAcknowledged = false)
      (Stmt.acknowledged event.version rt.now) fun _ => rfl
    rw [h.reservationsOf_put, Stmt.echoedRows, hrewrite]
    exact outstandingByInvoice_map fun _ => rfl
  | @corrected rt snapshot marker coordinates program ids investigationRequired deltas _ h =>
    refine h.position.replayedChange ?_ fun hq => ?_
    · rw [h.reservationsOf_after hfiled]
      exact outstandingByInvoice_map fun _ => rfl
    · subst hq
      have hsigns := h.position.signs
      simp only [componentSum_buildEntries] at hsigns
      exact replay_buildEntries (h.local_unmoved he).1 hsigns.1 hsigns.2
  | @seeded seed now program hp hnone hpersist =>
    have ha := seeded_position hp hnone hpersist
    refine ha.replayedChange (by simp [advanceWrites]) fun _ => ?_
    exact replay_shared (by simp [ProgramSeed.entry]) rfl ha.signs.1 ha.signs.2
  | swept cutoff => exact .still ⟨rfl, rfl⟩ rfl
  | flagged b v hp => exact .still (flagged_still hp p) (by simp)

/-! ## Runs -/

omit [Sha256] in
/-- What a run of traffic keeps: the ledger of a program replays to it. -/
structure ReplaysTo (p : Uuid) (db : Db) : Prop where
  outstanding : Outstanding p db
  filed : Filed (db.reservationsOf p)
  unborn : db.program? p = none → db.ledgerOf p = []
  facility : replayed (db.ledgerOf p) = some (db.facility p)

omit [Sha256] in
theorem FreshlyInserted.replaysTo (h : FreshlyInserted p db) : ReplaysTo p db := by
  have hzero : ∀ program, db.program? p = some program → program.localReservedMinor = 0 :=
    fun program hp => (h.fresh.zero program hp).1
  refine ⟨Unreserved.outstanding ⟨h.reservations, hzero⟩, h.reservations ▸ filed_nil,
    fun _ => h.fresh.ledger, ?_⟩
  rw [h.fresh.ledger, Db.facility]
  cases hp : db.program? p with
  | none => rfl
  | some program =>
    obtain ⟨-, htreasury, hlimit, -⟩ := h.fresh.zero program hp
    simp [replayed, facilityOf, Facility.empty, outstandingByInvoice, h.reservations, htreasury,
      hlimit, h.unmarked program hp]

omit [Sha256] in
/-- A facility is told by the cached columns and by what is held. -/
theorem facility_of_cached {after : ProgramEntity} (hp : db'.program? p = some after)
    (hcached : after.cached = position.cached)
    (hkept : outstandingByInvoice (db'.reservationsOf p) = outstandingByInvoice rows) :
    db'.facility p = facilityOf position rows := by
  have hsame : facilityOf after.cached (db'.reservationsOf p) =
      facilityOf position.cached rows := by
    rw [hcached, facilityOf, facilityOf, hkept]
  rw [Db.facility, hp]
  exact hsame

omit [Sha256] in
/-- **An advance whose entries replay keeps the ledger replaying.** -/
theorem Advanced.facility (h : Advanced db db' program entries now)
    (hrun : replay.run entries
      (facilityOf program.toProgramPosition (db.reservationsOf program.id)) =
        some (unmarkedFacility program.toProgramPosition entries (db'.reservationsOf program.id)))
    (hs : ReplaysTo program.id db) (he : Outstanding program.id db') :
    replayed (db'.ledgerOf program.id) = some (db'.facility program.id) := by
  -- the facility the entries start from is the one the ledger came to
  have hbefore : db.facility program.id =
      facilityOf program.toProgramPosition (db.reservationsOf program.id) := by
    rw [Db.facility]
    rcases h.before with hp | ⟨hnone, organisationId, currency, now', hnew⟩
    · rw [hp]
    · rw [hnone, hs.outstanding.unborn hnone, hnew]
      rfl
  have hafter := h.after
  cases hp : db'.program? program.id with
  | none => simp [hp] at hafter
  | some after =>
    rw [hp, Option.map_some, Option.some.injEq] at hafter
    have htally : Tallied (db'.reservationsOf program.id)
        (advancePosition program.toProgramPosition entries now).program.localReservedMinor := by
      have hlocal : after.cached.localReservedMinor = (advancePosition program.toProgramPosition
          entries now).program.cached.localReservedMinor := by rw [hafter]
      exact hlocal ▸ he.tallied after hp
    have hfacility := hs.facility
    rw [replayed, hbefore] at hfacility
    rw [replayed, h.ledger, List.map_append, Machine.run_append hfacility,
      replay_advance hrun htally, facility_of_cached hp hafter rfl]

/-- **One change.** -/
theorem Change.replaysTo (hc : Change db db') (hs : ReplaysTo p db) : ReplaysTo p db' := by
  have houtstanding := hc.outstanding hs.outstanding
  rcases hc.replayed hs.outstanding hs.filed with ⟨hstill, hkept⟩ | ⟨rfl, ha, hrun⟩
  · refine ⟨houtstanding, hc.filed hs.filed,
      fun hnone => hstill.ledger.trans (hs.unborn (hstill.unborn hnone)), ?_⟩
    rw [hstill.ledger, hs.facility, Option.some.injEq]
    have hposition := hstill.position
    cases hp : db.program? p with
    | none =>
      rw [hp, Option.map_none, Option.map_eq_none_iff] at hposition
      rw [Db.facility, Db.facility, hp, hposition]
    | some program =>
      rw [hp, Option.map_some] at hposition
      obtain ⟨after, hafter, hcached⟩ := Option.map_eq_some_iff.mp hposition
      rw [facility_of_cached hafter hcached hkept, Db.facility, hp]
  · exact ⟨houtstanding, hc.filed hs.filed, fun hnone => absurd hnone ha.born,
      ha.facility hrun hs houtstanding⟩

/-- **A run.** -/
theorem ReplaysTo.onward (hs : ReplaysTo p db) (h : Onward db db') : ReplaysTo p db' :=
  h.induct (P := ReplaysTo p) (fun _ _ hs hc => hc.replaysTo hs) hs

/-! ## What a ledger tells of an invoice -/

section Entries

omit [Sha256]

variable {entry : PendingLedgerEntry} {m : Move String} {invoiceId : String}
variable {ledger own : List CapacityLedgerEntryEntity} {moves : List (Move String)}

/-- The sum of `delta_minor` over the LOCAL rows of one invoice. -/
def invoiceSum (invoiceId : String) (ledger : List CapacityLedgerEntryEntity) : Int :=
  ((ledger.filter fun row => row.component = .local ∧ row.originReference = some invoiceId).map
    (·.deltaMinor)).sum

/-- The rows by which an amount was reserved. -/
def reservationEntries (ledger : List CapacityLedgerEntryEntity) :
    List CapacityLedgerEntryEntity :=
  ledger.filter fun row => row.component = .local ∧ row.cause = .reservation

/-- A row that moves neither the limit nor what treasury reserved. -/
def PendingLedgerEntry.IsOwn (entry : PendingLedgerEntry) : Prop :=
  entry.component = .local ∨ entry.component = .limit ∧ entry.cause.isMarker = true

/-- **What a move says of its entry.** -/
theorem move?_eq_some (h : entry.move? = some m) :
    (∀ i, m.amount i =
      if entry.component = .local ∧ entry.originReference = some i then entry.deltaMinor else 0) ∧
    m.taker? = (if entry.component = .local ∧ entry.cause = .reservation then
      entry.originReference else none) ∧
    (entry.IsOwn → m.isOwn = true) := by
  unfold PendingLedgerEntry.move? at h
  unfold PendingLedgerEntry.IsOwn
  cases hcomponent : entry.component with
  | treasury =>
    simp only [hcomponent, Option.some.injEq] at h
    subst h
    simp [Move.amount, Move.taker?]
  | limit =>
    cases hcause : entry.cause <;> simp only [hcomponent, hcause, Option.some.injEq] at h <;>
      subst h <;> simp [Move.amount, Move.taker?, Move.isOwn, LedgerCause.isMarker]
  | «local» =>
    cases hreference : entry.originReference with
    | none => cases hcause : entry.cause <;> simp [hcomponent, hcause, hreference] at h
    | some reference =>
      cases hcause : entry.cause <;>
        simp only [hcomponent, hcause, hreference, Option.map_some, Option.some.injEq,
          reduceCtorEq] at h <;>
        subst h <;> simp [Move.amount, Move.taker?, Move.isOwn]

theorem sum_amount (h : ledger.map (·.move?) = moves.map some) :
    (moves.map (·.amount invoiceId)).sum = invoiceSum invoiceId ledger := by
  induction ledger generalizing moves with
  | nil =>
    obtain rfl := List.map_eq_nil_iff.mp h.symm
    rfl
  | cons row ledger ih =>
    obtain ⟨m, rest, rfl, hm, hrest⟩ := List.map_eq_cons_iff.mp h.symm
    have hsum := ih hrest.symm
    have hamount := (move?_eq_some hm.symm).1 invoiceId
    rw [List.map_cons, List.sum_cons, hsum, hamount, invoiceSum, invoiceSum, List.filter_cons]
    by_cases hrow : row.component = .local ∧ row.originReference = some invoiceId
    · simp [hrow]
    · simp [hrow]

theorem filterMap_taker? (h : ledger.map (·.move?) = moves.map some) :
    (reservationEntries ledger).filterMap (·.originReference) = moves.filterMap (·.taker?) := by
  induction ledger generalizing moves with
  | nil =>
    obtain rfl := List.map_eq_nil_iff.mp h.symm
    rfl
  | cons row ledger ih =>
    obtain ⟨m, rest, rfl, hm, hrest⟩ := List.map_eq_cons_iff.mp h.symm
    have htakers := ih hrest.symm
    have htaker := (move?_eq_some hm.symm).2.1
    unfold reservationEntries at htakers ⊢
    rw [List.filterMap_cons, htaker, ← htakers, List.filter_cons]
    by_cases hrow : row.component = .local ∧ row.cause = .reservation
    · simp [hrow, List.filterMap_cons]
    · simp [hrow]

/-- **A ledger that replays is a run of the facility.** -/
theorem replayed_eq_some (h : replayed ledger = some F) :
    ∃ moves, ledger.map (·.move?) = moves.map some ∧
      (facility String).run moves .empty = some F := by
  obtain ⟨moves, hmoves, hrun⟩ := Machine.run_via h
  rw [List.map_map] at hmoves
  exact ⟨moves, hmoves, hrun⟩

theorem replayed_prefix (h : replayed (ledger ++ own) = some F') :
    ∃ F, replayed ledger = some F ∧ replay.run (own.map (·.toPendingLedgerEntry)) F = some F' := by
  rw [replayed, List.map_append] at h
  exact Machine.run_append_eq_some h

/-- What a ledger that replays comes to is sound, and what it has left to an
invoice is the sum of the invoice's rows. -/
theorem replayed_sound (h : replayed ledger = some F) :
    F.Sound ∧ ∀ invoiceId, F.left invoiceId = invoiceSum invoiceId ledger := by
  obtain ⟨moves, hmoves, hrun⟩ := replayed_eq_some h
  refine ⟨sound_of_reached ((Machine.Reached.start rfl).run hrun), fun invoiceId => ?_⟩
  rw [left_run hrun, sum_amount hmoves]
  exact zero_add _

/-- Rows of its own leave a program within its limit. -/
theorem replayed_within (h : replay.run (own.map (·.toPendingLedgerEntry)) F = some F')
    (hown : ∀ row ∈ own, row.IsOwn) (hwithin : F.exceeded = false) : F'.exceeded = false := by
  obtain ⟨moves, hmoves, hrun⟩ := Machine.run_via h
  rw [List.map_map] at hmoves
  refine within_run hrun (fun m hm => ?_) hwithin
  have hmem : some m ∈ moves.map some := List.mem_map_of_mem hm
  rw [← hmoves] at hmem
  obtain ⟨row, hrow, hmove⟩ := List.mem_map.mp hmem
  exact (move?_eq_some hmove).2.2 (hown row hrow)

end Entries

omit [Sha256] in
/-- What an invoice has left, as the reservations of its program say it. -/
theorem ReplaysTo.left (hs : ReplaysTo p db) (invoiceId : String) : (db.facility p).left invoiceId =
    ((db.reservationsFor p invoiceId).map (·.outstandingReservedMinor)).sum := by
  have hfacility : (db.facility p).left? invoiceId =
      (facilityOf (Stmt.newProgram p p "" 0).toProgramPosition (db.reservationsOf p)).left?
        invoiceId := by
    rw [Db.facility]
    cases hp : db.program? p with
    | none => rw [hs.outstanding.unborn hp]; rfl
    | some program => rfl
  rw [Facility.left, hfacility]
  cases hfor : db.reservationsFor p invoiceId with
  | nil =>
    rw [left?_facilityOf_none, Option.getD_none, List.map_nil, List.sum_nil]
    intro row hrow hinvoice
    have hmem := Db.mem_reservationsFor.mpr ⟨hrow, hinvoice⟩
    rw [hfor] at hmem
    cases hmem
  | cons row rest =>
    have hmem : row ∈ db.reservationsFor p invoiceId := by
      rw [hfor]
      exact List.mem_cons_self
    obtain ⟨hrow, rfl⟩ := Db.mem_reservationsFor.mp hmem
    have hone := Db.reservationsFor_of_nodup hs.filed.invoices hmem
    rw [hfor] at hone
    rw [left?_facilityOf hs.filed.invoices hrow, hone]
    simp

/-- **The ledger replays.** In every state that operations and interleaved
transactions lead to, from a program that was freshly inserted: its ledger,
replayed entry by entry from nothing, is allowed throughout and comes to what
the program's row and its reservations say; and the entries that are added
from then on replay from there to what they say later. All of its prefixes
come to something sound, in which no invoice has less than nothing left and
each has the sum of its rows; rows of the program's own never take it over
its limit from within; an invoice is reserved for once; and what its
reservation holds now is the sum of its rows. -/
theorem ledger_replays (hstart : FreshlyInserted p db) (h : Onward db db') :
    replayed (db'.ledgerOf p) = some (db'.facility p) ∧
    (∀ later, Onward db' later → ∃ rows, later.ledgerOf p = db'.ledgerOf p ++ rows ∧
      replay.run (rows.map (·.toPendingLedgerEntry)) (db'.facility p) =
        some (later.facility p)) ∧
    (∀ rows, rows <+: db'.ledgerOf p → ∃ F, replayed rows = some F ∧ F.Sound ∧
      ∀ invoiceId, F.left invoiceId = invoiceSum invoiceId rows) ∧
    (∀ rows own, rows ++ own <+: db'.ledgerOf p → (∀ row ∈ own, row.IsOwn) →
      ∃ F F', replayed rows = some F ∧ replayed (rows ++ own) = some F' ∧
        (F.exceeded = false → F'.exceeded = false)) ∧
    ((reservationEntries (db'.ledgerOf p)).filterMap (·.originReference)).Nodup ∧
    ∀ invoiceId, invoiceSum invoiceId (db'.ledgerOf p) =
      ((db'.reservationsFor p invoiceId).map (·.outstandingReservedMinor)).sum := by
  have hs : ReplaysTo p db' := hstart.replaysTo.onward h
  have hprefix : ∀ rows, rows <+: db'.ledgerOf p → ∃ F, replayed rows = some F := by
    rintro rows ⟨rest, hrest⟩
    have hfacility := hs.facility
    rw [← hrest] at hfacility
    obtain ⟨F, hF, -⟩ := replayed_prefix hfacility
    exact ⟨F, hF⟩
  refine ⟨hs.facility, fun later hlater => ?_, fun rows hrows => ?_, fun rows own hrows hown => ?_,
    ?_, fun invoiceId => ?_⟩
  · obtain ⟨rows, hrows⟩ : db'.ledgerOf p <+: later.ledgerOf p := hlater.ledger_prefix
    have hfacility := (hs.onward hlater).facility
    rw [← hrows] at hfacility
    obtain ⟨F, hF, hrun⟩ := replayed_prefix hfacility
    obtain rfl := Option.some.inj (hF.symm.trans hs.facility)
    exact ⟨rows, hrows.symm, hrun⟩
  · obtain ⟨F, hF⟩ := hprefix rows hrows
    exact ⟨F, hF, replayed_sound hF⟩
  · obtain ⟨F', hF'⟩ := hprefix _ hrows
    obtain ⟨F, hF, hrun⟩ := replayed_prefix hF'
    exact ⟨F, F', hF, hF', replayed_within hrun hown⟩
  · obtain ⟨moves, hmoves, hrun⟩ := replayed_eq_some hs.facility
    rw [filterMap_taker? hmoves]
    exact (takes_once hrun).1
  · rw [← (replayed_sound hs.facility).2, hs.left]

end InvoiceReservation

namespace InvoiceReservation

attribute [local instance] trafficSha256

/-- The seed, two reservations, and what became of them. -/
def settledTraffic : List Operation :=
  mixedTraffic ++ [.reserve (callAt 3) (reserveCommand "req-00002" "INV-2" 250),
    .cancel (callAt 4) (cancelCommand "req-00003" "INV-1" none)]

theorem ledger_replays_settledTraffic :
    replayed ((Operation.run settledTraffic migrated).ledgerOf
      (Uuid.ofText northwindUsdProgramId)) =
        some ⟨1000000000, 100, [("INV-1", 0), ("INV-2", 250)], false⟩ := by
  have hstart : FreshlyInserted (Uuid.ofText northwindUsdProgramId) migrated :=
    ⟨⟨rfl, fun program h => by cases h⟩, (fun program h => by cases h), rfl⟩
  rw [(ledger_replays hstart (Onward.start.run settledTraffic)).1, settledTraffic, mixedTraffic,
    List.cons_append, run_seed]
  decide +kernel

end InvoiceReservation
