import InvoiceReservation.Helpers.Positions
import InvoiceReservation.Helpers.Reservations
/-!
# Trails

The trail of a reservation is what the ledger has of its invoice: the
LOCAL entries that a reserve, a release or a cancellation wrote. One
change leaves a reservation and its trail alone, but for treasury's
acknowledgement of it, or it files the reservation with the first entry of
its trail, or it settles some of it with one entry more.
-/

namespace InvoiceReservation

open Transactions

variable {db db' : Db} {p : Uuid} {invoiceId : String} {row : InvoiceReservationEntity}
variable {program : ProgramEntity} {rt : Runtime} {outcome : WriteOutcome}

/-- The causes a reserve, a release or a cancellation gives. -/
def LedgerCause.isOfReservation : LedgerCause → Bool
  | .reservation => true
  | .release => true
  | .cancellation => true
  | .writeOff => true
  | _ => false

/-- Whether an entry is of an invoice's trail. -/
def PendingLedgerEntry.trails (invoiceId : String) (entry : PendingLedgerEntry) : Bool :=
  entry.component = .local && entry.originReference = some invoiceId && entry.cause.isOfReservation

/-- The trail of an invoice, in the order of the ledger. -/
def Db.trailOf (db : Db) (p : Uuid) (invoiceId : String) : List CapacityLedgerEntryEntity :=
  (db.ledgerOf p).filter fun entry => entry.trails invoiceId

/-- A reservation without what treasury's acknowledgement of it writes. -/
def InvoiceReservationEntity.unacknowledged (row : InvoiceReservationEntity) :
    InvoiceReservationEntity :=
  { row with treasuryAcknowledged := false, acknowledgedByVersion := none, updatedAt := 0 }

/-! ## Rows and entries -/

/-- An invoice's reservations after a program's were given new versions. -/
theorem reservationsFor_map {f : InvoiceReservationEntity → InvoiceReservationEntity}
    (hrows : db'.reservationsOf p = (db.reservationsOf p).map f)
    (hinvoice : ∀ r, (f r).invoiceId = r.invoiceId) :
    db'.reservationsFor p invoiceId = (db.reservationsFor p invoiceId).map f := by
  simp [Db.reservationsFor, hrows, List.filter_map, Function.comp_def, hinvoice]

/-- What an advance adds to a trail are the entries asked for: a marker is
of no trail. -/
theorem filter_trails_advance {position : ProgramPosition} {entries : List PendingLedgerEntry}
    {now : Timestamp} :
    ((Stmt.ledgerRows p (advancePosition position entries now).entries now).filter
      fun entry => entry.trails invoiceId).map (·.toPendingLedgerEntry) =
        entries.filter (·.trails invoiceId) := by
  have hmarkers : (markers position entries).filter (·.trails invoiceId) = [] := by
    refine List.filter_eq_nil_iff.mpr fun marker hm => ?_
    obtain ⟨cause, -, rfl⟩ := of_mem_markers hm
    simp [PendingLedgerEntry.trails, overLimitMarker]
  have hall := congrArg (List.filter (·.trails invoiceId))
    (@advancePosition_entries position entries now)
  rw [List.filter_append, hmarkers, List.append_nil, List.filter_map] at hall
  rw [← hall]
  simp [Stmt.ledgerRows, List.filter_map, Function.comp_def]

/-- A trail after its program's ledger has grown by an advance. -/
theorem trailOf_append {rows : List CapacityLedgerEntryEntity}
    (h : db'.ledgerOf p = db.ledgerOf p ++ rows) : db'.trailOf p invoiceId =
      db.trailOf p invoiceId ++ rows.filter fun entry => entry.trails invoiceId := by
  rw [Db.trailOf, h, List.filter_append]
  rfl

/-- An advance by no entry of a trail leaves the trail alone. -/
theorem Advanced.trail_still {entries : List PendingLedgerEntry} {now : Timestamp}
    (h : Advanced db db' program entries now)
    (hentries : program.id = p → ∀ entry ∈ entries, entry.trails invoiceId = false) :
    db'.trailOf p invoiceId = db.trailOf p invoiceId := by
  by_cases hp : program.id = p
  · subst hp
    have hnil := @filter_trails_advance program.id invoiceId program.toProgramPosition entries now
    have hnone : entries.filter (·.trails invoiceId) = [] :=
      List.filter_eq_nil_iff.mpr fun entry he => by simp [hentries rfl entry he]
    rw [hnone, List.map_eq_nil_iff] at hnil
    rw [trailOf_append h.ledger, hnil, List.append_nil]
  · rw [Db.trailOf, (h.others p hp).ledger]
    rfl

/-- An advance by one entry of a trail adds it to the trail. -/
theorem Advanced.trail_entry {pending : PendingLedgerEntry} {now : Timestamp}
    (h : Advanced db db' program [pending] now) (hentry : pending.trails invoiceId = true) :
    ∃ entry, db'.trailOf program.id invoiceId = db.trailOf program.id invoiceId ++ [entry] ∧
      entry.toPendingLedgerEntry = pending := by
  have hone := @filter_trails_advance program.id invoiceId program.toProgramPosition [pending] now
  rw [List.filter_cons_of_pos hentry, List.filter_nil] at hone
  obtain ⟨entry, hrows, he⟩ := List.map_eq_singleton_iff.mp hone
  exact ⟨entry, by rw [trailOf_append h.ledger, hrows], he⟩

/-! ## One change -/

/-- A reservation and its trail that a change leaves alone. -/
structure InvoiceKept (p : Uuid) (invoiceId : String) (db db' : Db) : Prop where
  rows : (db'.reservationsFor p invoiceId).map (·.unacknowledged) =
    (db.reservationsFor p invoiceId).map (·.unacknowledged)
  trail : db'.trailOf p invoiceId = db.trailOf p invoiceId

/-- A reservation some of which was settled, with one entry more. -/
structure SettledBy (p : Uuid) (invoiceId : String) (pending : PendingLedgerEntry)
    (update : InvoiceReservationEntity → InvoiceReservationEntity)
    (row : InvoiceReservationEntity) (db db' : Db) : Prop where
  found : db.reservationsFor p invoiceId = [row]
  rows : db'.reservationsFor p invoiceId = [update row]
  trail : ∃ entry, db'.trailOf p invoiceId = db.trailOf p invoiceId ++ [entry] ∧
    entry.toPendingLedgerEntry = pending

/-- Reservations that were only acknowledged are kept. -/
theorem kept_of_map {f : InvoiceReservationEntity → InvoiceReservationEntity}
    (hrows : db'.reservationsOf p = (db.reservationsOf p).map f)
    (hf : ∀ r, (f r).unacknowledged = r.unacknowledged)
    (htrail : db'.trailOf p invoiceId = db.trailOf p invoiceId) :
    InvoiceKept p invoiceId db db' := by
  have hinvoice : ∀ r, (f r).invoiceId = r.invoiceId := by
    intro r
    have h := congrArg (·.invoiceId) (hf r)
    exact h
  refine ⟨?_, htrail⟩
  rw [reservationsFor_map hrows hinvoice, List.map_map]
  exact List.map_congr_left fun r _ => hf r

theorem kept_of_eq (hrows : db'.reservationsOf p = db.reservationsOf p)
    (htrail : db'.trailOf p invoiceId = db.trailOf p invoiceId) : InvoiceKept p invoiceId db db' :=
  ⟨by rw [Db.reservationsFor, hrows]; rfl, htrail⟩

/-- Among filed reservations an invoice has one. -/
theorem Filed.reservationsFor (h : Filed (db.reservationsOf p))
    (hrow : row ∈ db.reservationsFor p invoiceId) : db.reservationsFor p invoiceId = [row] :=
  Db.reservationsFor_of_nodup h.invoices hrow

/-- **A settlement** settles its own invoice's reservation and leaves the
others alone. -/
theorem Settled.invoice {identity : RequestIdentity} {settledId : String}
    {pending : PendingLedgerEntry} {update : InvoiceReservationEntity → InvoiceReservationEntity}
    (h : Settled rt identity settledId pending update db program row outcome db')
    (hp : db.program? program.id = some program) (hfiled : Filed (db.reservationsOf p))
    (hkey : ∀ r, (update r).key = r.key) (hentry : pending.trails settledId = true)
    (hothers : settledId ≠ invoiceId → pending.trails invoiceId = false) :
    program.id = p ∧ settledId = invoiceId ∧ SettledBy p invoiceId pending update row db db' ∨
      ¬ (program.id = p ∧ settledId = invoiceId) ∧ InvoiceKept p invoiceId db db' := by
  have hrows := h.reservationsOf_after hfiled hkey
  have hinvoice : ∀ r, (update r).invoiceId = r.invoiceId := fun r =>
    congrArg (fun k : Uuid × String × Uuid => k.2.1) (hkey r)
  have hafter := @reservationsFor_map db db' p invoiceId _ hrows
    (fun r => by split <;> simp [hinvoice])
  have hposition := h.position hp
  by_cases hsame : program.id = p ∧ settledId = invoiceId
  · obtain ⟨rfl, rfl⟩ := hsame
    have hmem := List.mem_of_head? h.found
    have hfound := hfiled.reservationsFor hmem
    refine Or.inl ⟨rfl, rfl, hfound, ?_, hposition.trail_entry hentry⟩
    rw [hafter, hfound]
    simp [(Db.mem_reservationsFor.mp hmem).2]
  · refine Or.inr ⟨hsame, ?_, ?_⟩
    · rw [hafter, List.map_map]
      refine List.map_congr_left fun r hr => ?_
      have hother : ¬ (program.id = p ∧ decide (r.invoiceId = settledId) = true) := by
        rintro ⟨hprogram, he⟩
        exact hsame ⟨hprogram, (of_decide_eq_true he).symm.trans (Db.mem_reservationsFor.mp hr).2⟩
      rw [Function.comp_apply, if_neg hother]
    · refine hposition.trail_still fun hq entry he => ?_
      obtain rfl := List.mem_singleton.mp he
      exact hothers fun hi => hsame ⟨hq, hi⟩

/-- What a reserve makes of an invoice that was not reserved. -/
structure FiledBy (p : Uuid) (invoiceId : String) (pending : PendingLedgerEntry)
    (row : InvoiceReservationEntity) (db db' : Db) : Prop where
  fresh : db.reservationsFor p invoiceId = []
  rows : db'.reservationsFor p invoiceId = [row]
  trail : ∃ entry, db'.trailOf p invoiceId = db.trailOf p invoiceId ++ [entry] ∧
    entry.toPendingLedgerEntry = pending

variable [Sha256] {coordinates : StreamCoordinates}

variable (invoiceId) in
/-- **A reserve** files its own invoice's reservation and leaves the others
alone. -/
theorem Reserved.invoice {command : ReserveCommand} {reservedMinor : Int} {fx : Option FxRate}
    (h : Reserved rt command db program reservedMinor fx outcome db')
    (hp : db.program? program.id = some program) :
    program.id = p ∧ command.invoiceText = invoiceId ∧ FiledBy p invoiceId
        (command.entry reservedMinor) (reservedRow rt command program reservedMinor fx) db db' ∨
      InvoiceKept p invoiceId db db' := by
  have hposition := h.position hp
  have hinvoice : (reservedRow rt command program reservedMinor fx).invoiceId =
      command.invoiceText := rfl
  by_cases hq : program.id = p
  swap
  · refine Or.inr (kept_of_eq ?_ (hposition.trail_still fun he => absurd he hq))
    rw [h.reservationsOf_after, if_neg hq, List.append_nil]
  subst hq
  by_cases hi : command.invoiceText = invoiceId
  · subst hi
    refine Or.inl ⟨rfl, rfl, h.newInvoice, ?_, hposition.trail_entry
      (by simp [PendingLedgerEntry.trails, ReserveCommand.entry, LedgerCause.isOfReservation])⟩
    have hnone := h.newInvoice
    rw [Db.reservationsFor] at hnone
    rw [Db.reservationsFor, h.reservationsOf_after, if_pos rfl, List.filter_append, hnone]
    simp [hinvoice]
  · refine Or.inr ⟨?_, hposition.trail_still fun _ entry he => ?_⟩
    · rw [Db.reservationsFor, h.reservationsOf_after, if_pos rfl, List.filter_append,
        Db.reservationsFor]
      simp [hinvoice, hi]
    · obtain rfl := List.mem_singleton.mp he
      simp [PendingLedgerEntry.trails, ReserveCommand.entry, hi]

theorem EventApplied.kept {event : CapacityEvent}
    (h : EventApplied rt event coordinates db program db') : InvoiceKept p invoiceId db db' := by
  refine kept_of_eq (by rw [h.after]; simp [advanceWrites])
    (h.position.trail_still fun _ entry he => ?_)
  obtain rfl := List.mem_singleton.mp he
  cases htype : event.type <;>
    simp [PendingLedgerEntry.trails, ApplyTreasuryEventService.buildEntry, htype]

theorem EventEchoed.kept {event : CapacityEvent} {reference : String}
    (h : EventEchoed rt event coordinates db program reference db')
    (hfiled : Filed (db.reservationsOf p)) : InvoiceKept p invoiceId db db' := by
  have hrows := @reservationsOf_rewrite db p program.id hfiled
    (fun r => decide (r.treasuryReference = some reference ∧ r.treasuryAcknowledged = false))
    (Stmt.acknowledged event.version rt.now) fun _ => rfl
  refine kept_of_map (f := fun r => if program.id = p ∧ decide
    (r.treasuryReference = some reference ∧
    r.treasuryAcknowledged = false) = true then Stmt.acknowledged event.version rt.now r else r)
    ?_ (fun r => ?_) ?_
  · rw [← hrows, h.after]
    simp [Engine.applyAll_append, Stmt.echoedRows]
  · split <;> rfl
  · rw [Db.trailOf, (h.position p).ledger]
    rfl

theorem SnapshotApplied.kept {snapshot : ReconciliationSnapshot} {marker : SnapshotMarker}
    {ids : List Uuid} {investigationRequired : Bool} {deltas : SnapshotDeltas}
    (h : SnapshotApplied rt snapshot marker coordinates db program ids investigationRequired deltas
      db') (hfiled : Filed (db.reservationsOf p)) : InvoiceKept p invoiceId db db' := by
  refine kept_of_map (h.reservationsOf_after hfiled) (fun r => ?_) ?_
  · split <;> rfl
  refine h.position.trail_still fun _ entry hentry => ?_
  simp [PendingLedgerEntry.trails, (mem_buildEntries hentry).1, LedgerCause.isOfReservation]

/-- What one change does to a reservation. -/
inductive InvoiceChange (p : Uuid) (invoiceId : String) (db db' : Db) : Prop
  | kept : InvoiceKept p invoiceId db db' → InvoiceChange p invoiceId db db'
  | reserved {rt : Runtime} {command : ReserveCommand} {program : ProgramEntity}
      {reservedMinor : Int} {fx : Option FxRate} {outcome : WriteOutcome} :
      Reserved rt command db program reservedMinor fx outcome db' →
      FiledBy p invoiceId (command.entry reservedMinor)
        (reservedRow rt command program reservedMinor fx) db db' →
      InvoiceChange p invoiceId db db'
  | released {now : Timestamp} {command : ReleaseCommand} {row : InvoiceReservationEntity}
      {scaledRate : Int} {applied : ReleaseDecision} :
      scaleRate ((row.fxRate.map numericText).getD "1.0") = .ok scaledRate →
      releasePolicy command.releaseMinor command.currency row.snapshot scaledRate =
        .ok (.ok applied) →
      SettledBy p invoiceId (command.entry applied) (releasedRow applied now) row db db' →
      InvoiceChange p invoiceId db db'
  | cancelled {now : Timestamp} {command : CancelCommand} {row : InvoiceReservationEntity}
      {applied : CancelDecision} :
      cancelPolicy row.snapshot = .ok applied →
      SettledBy p invoiceId (command.entry applied) (cancelledRow applied now) row db db' →
      InvoiceChange p invoiceId db db'

variable (invoiceId) in
/-- A release settles the invoice it is of. -/
theorem Settled.release_invoice {command : ReleaseCommand} {applied : ReleaseDecision}
    (h : Settled rt command.identity command.invoiceId (command.entry applied)
      (releasedRow applied rt.now) db program row outcome db')
    (hp : db.program? program.id = some program) (hfiled : Filed (db.reservationsOf p)) :
    program.id = p ∧ command.invoiceId = invoiceId ∧
        SettledBy p invoiceId (command.entry applied) (releasedRow applied rt.now) row db db' ∨
      ¬ (program.id = p ∧ command.invoiceId = invoiceId) ∧ InvoiceKept p invoiceId db db' := by
  refine h.invoice hp hfiled (fun _ => rfl) ?_ fun hne => ?_
  · simp [PendingLedgerEntry.trails, ReleaseCommand.entry, LedgerCause.isOfReservation]
  · simp [PendingLedgerEntry.trails, ReleaseCommand.entry, hne]

variable (invoiceId) in
/-- A cancellation settles the invoice it is of. -/
theorem Settled.cancel_invoice {command : CancelCommand} {applied : CancelDecision}
    (h : Settled rt command.identity command.invoiceId (command.entry applied)
      (cancelledRow applied rt.now) db program row outcome db')
    (hd : cancelPolicy row.snapshot = .ok applied)
    (hp : db.program? program.id = some program) (hfiled : Filed (db.reservationsOf p)) :
    program.id = p ∧ command.invoiceId = invoiceId ∧
        SettledBy p invoiceId (command.entry applied) (cancelledRow applied rt.now) row db db' ∨
      ¬ (program.id = p ∧ command.invoiceId = invoiceId) ∧ InvoiceKept p invoiceId db db' := by
  refine h.invoice hp hfiled (fun _ => rfl) ?_ fun hne => ?_
  · rcases cancelPolicy_cause hd with hcause | hcause <;>
      simp [PendingLedgerEntry.trails, CancelCommand.entry, LedgerCause.isOfReservation, hcause]
  · simp [PendingLedgerEntry.trails, CancelCommand.entry, hne]

/-- **One change** keeps a reservation and its trail, files it, or settles
some of it. -/
theorem Change.invoice (hc : Change db db') (hfiled : Filed (db.reservationsOf p)) :
    InvoiceChange p invoiceId db db' := by
  cases hc with
  | reserved hp h =>
    rcases h.invoice invoiceId hp (p := p) with ⟨-, -, hf⟩ | hk
    · exact .reserved h hf
    · exact .kept hk
  | released hp hrate hd h =>
    rcases h.release_invoice invoiceId hp hfiled with ⟨-, -, hs⟩ | ⟨-, hk⟩
    · exact .released hrate hd hs
    · exact .kept hk
  | cancelled hp hd h =>
    rcases h.cancel_invoice invoiceId hd hp hfiled with ⟨-, -, hs⟩ | ⟨-, hk⟩
    · exact .cancelled hd hs
    · exact .kept hk
  | applied h => exact .kept h.kept
  | echoed h => exact .kept (h.kept hfiled)
  | corrected h => exact .kept (h.kept hfiled)
  | @seeded seed now program hp hnone hpersist =>
    have hposition := seeded_position hp hnone hpersist
    refine .kept (kept_of_eq (by simp [advanceWrites]) (hposition.trail_still fun _ entry he => ?_))
    obtain rfl := List.mem_singleton.mp he
    simp [PendingLedgerEntry.trails, ProgramSeed.entry]
  | swept cutoff => exact .kept (kept_of_eq rfl rfl)
  | flagged b v hp => exact .kept (kept_of_eq (by simp) (by simp [Db.trailOf]))

end InvoiceReservation
