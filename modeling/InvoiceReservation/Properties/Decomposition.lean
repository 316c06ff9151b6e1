import InvoiceReservation.Properties.Acknowledgements
import InvoiceReservation.Properties.MixedDelivery
/-!
# What an applied snapshot comes to

A snapshot asserts a limit and all that treasury counts as reserved. What
is left of TREASURY is that amount without the LOCAL reservations it
acknowledges, so the total is what it asserts and, on top, what it does not
know of yet. Each component that moves has one entry; the same snapshot
again, in a higher version, moves nothing.
-/

namespace InvoiceReservation

open Transactions

variable {db db' start : Db} {p : Uuid} {program : ProgramEntity} {rt : Runtime}
variable {snapshot again : ReconciliationSnapshot} {marker : SnapshotMarker}
variable {coordinates : StreamCoordinates} {ids : List Uuid} {investigationRequired : Bool}
variable {deltas : SnapshotDeltas} {rows : List InvoiceReservationEntity} {version : Int}

/-! ## Sums -/

/-- What the LOCAL reservations hold. -/
def localHeld (rows : List InvoiceReservationEntity) : Int :=
  ((rows.filter (·.origin = .local)).map (·.outstandingReservedMinor)).sum

/-- What those of them hold that treasury has not acknowledged. -/
def unacknowledgedHeld (rows : List InvoiceReservationEntity) : Int :=
  ((rows.filter fun row => row.origin = .local ∧ row.treasuryAcknowledged = false).map
    (·.outstandingReservedMinor)).sum

/-- The acknowledged and the unacknowledged are all. -/
theorem localHeld_split :
    acknowledgedOutstanding (rows.map ApplySnapshotService.toSnapshotReservation) +
      unacknowledgedHeld rows = localHeld rows := by
  induction rows with
  | nil => rfl
  | cons row rows ih =>
    simp only [acknowledgedOutstanding, localOutstanding, unacknowledgedHeld, localHeld] at ih ⊢
    by_cases horigin : row.origin = .local <;> cases hack : row.treasuryAcknowledged <;>
      simp [ApplySnapshotService.toSnapshotReservation, horigin, hack] at ih ⊢ <;> omega

theorem Tallied.localHeld {localReservedMinor : Int} (h : Tallied rows localReservedMinor) :
    localHeld rows = localReservedMinor := by
  have hall : rows.filter (·.origin = .local) = rows :=
    List.filter_eq_self.mpr fun row hrow => decide_eq_true (h.origin row hrow)
  rw [InvoiceReservation.localHeld, hall, h.sum]

/-- What is acknowledged is told by the origins, the flags and the amounts. -/
theorem acknowledgedOutstanding_congr {reservations : List SnapshotReservation}
    {f : SnapshotReservation → SnapshotReservation}
    (hf : ∀ r ∈ reservations, (f r).origin = r.origin ∧
      (f r).outstandingReservedMinor = r.outstandingReservedMinor ∧
      (f r).treasuryAcknowledged = r.treasuryAcknowledged) :
    acknowledgedOutstanding (reservations.map f) = acknowledgedOutstanding reservations := by
  induction reservations with
  | nil => rfl
  | cons r reservations ih =>
    obtain ⟨⟨horigin, hamount, hack⟩, htail⟩ := List.forall_mem_cons.mp hf
    have ih := ih htail
    simp only [acknowledgedOutstanding, localOutstanding, List.filter_filter] at ih ⊢
    cases hflag : r.treasuryAcknowledged <;> by_cases hlocal : r.origin = .local <;>
      simp [horigin, hamount, hack, hflag, hlocal, ih]

/-- A marker's version of a row is what the policy makes of the row. -/
theorem toSnapshotReservation_acknowledged {row : InvoiceReservationEntity} {now : Timestamp} :
    ApplySnapshotService.toSnapshotReservation
      (if marks marker version (ApplySnapshotService.toSnapshotReservation row) then
        Stmt.acknowledged version now row else row) =
      marked marker version (ApplySnapshotService.toSnapshotReservation row) := by
  unfold marked
  split <;> rfl

/-! ## Entries -/

/-- One adjustment for each component a snapshot moves. -/
theorem adjustments_buildEntries {c : PositionComponent} :
    ((ApplySnapshotService.buildEntries deltas snapshot).filter fun entry =>
      entry.cause = .reconciliationAdjustment ∧ entry.component = c).map (·.deltaMinor) =
        if deltas.component c = 0 then [] else [deltas.component c] := by
  unfold ApplySnapshotService.buildEntries
  simp only [List.filter_append, List.map_append]
  cases c <;> by_cases ht : deltas.treasury = 0 <;> by_cases hl : deltas.local = 0 <;>
    by_cases hc : deltas.limit = 0 <;> simp [ht, hl, hc, SnapshotDeltas.component]

/-- A marker is no adjustment. -/
theorem adjustments_markers {position : ProgramPosition} {entries : List PendingLedgerEntry}
    {c : PositionComponent} : (markers position entries).filter (fun entry =>
      entry.cause = .reconciliationAdjustment ∧ entry.component = c) = [] := by
  refine List.filter_eq_nil_iff.mpr fun entry hentry => ?_
  obtain ⟨cause, hcause, rfl⟩ := of_mem_markers hentry
  simp only [List.mem_cons, List.not_mem_nil, or_false] at hcause
  rcases hcause with rfl | rfl <;> simp [overLimitMarker]

/-- What a snapshot adds to a component is its delta. -/
theorem snapshotRow_component (c : PositionComponent) :
    (snapshotRow rt snapshot program investigationRequired deltas).toProgramPosition.component c =
      program.toProgramPosition.component c + deltas.component c := by
  have hcomponent := @advancePosition_component program.toProgramPosition
    (ApplySnapshotService.buildEntries deltas snapshot) rt.now c
  rw [componentSum_buildEntries] at hcomponent
  rw [← hcomponent]
  cases c <;> rfl

variable [Sha256]

/-- **One entry for each component that changed**, with the change. -/
theorem SnapshotApplied.adjustments
    (h : SnapshotApplied rt snapshot marker coordinates db program ids investigationRequired deltas
      db') : ∃ added, db'.ledgerOf program.id = db.ledgerOf program.id ++ added ∧
      ∀ c, (added.filter fun entry => entry.cause = .reconciliationAdjustment ∧
        entry.component = c).map (·.deltaMinor) =
          if deltas.component c = 0 then [] else [deltas.component c] := by
  refine ⟨_, h.position.ledger, fun c => ?_⟩
  have hentries := @advancePosition_entries program.toProgramPosition
    (ApplySnapshotService.buildEntries deltas snapshot) rt.now
  have hfilter := congrArg (fun entries => (entries.filter fun entry : PendingLedgerEntry =>
    entry.cause = .reconciliationAdjustment ∧ entry.component = c).map (·.deltaMinor)) hentries
  simp only [List.filter_append, adjustments_markers, List.append_nil,
    adjustments_buildEntries] at hfilter
  rw [← hfilter]
  simp [Stmt.ledgerRows, List.filter_map, Function.comp_def]

/-- The rows of its program, as the policy saw them after the marker. -/
theorem SnapshotApplied.rows_after
    (h : SnapshotApplied rt snapshot marker coordinates db program ids investigationRequired deltas
      db') (hfiled : Filed (db.reservationsOf program.id)) :
    (db'.reservationsOf program.id).map ApplySnapshotService.toSnapshotReservation =
      ((db.reservationsOf program.id).map ApplySnapshotService.toSnapshotReservation).map
        (marked marker snapshot.version) := by
  rw [h.reservationsOf_after hfiled, List.map_map, List.map_map]
  refine List.map_congr_left fun row _ => ?_
  simpa using @toSnapshotReservation_acknowledged marker snapshot.version row rt.now

/-- **A row that the marker matches is acknowledged after it.** -/
theorem SnapshotApplied.acknowledged_of_matches
    (h : SnapshotApplied rt snapshot marker coordinates db program ids investigationRequired deltas
      db') (hfiled : Filed (db.reservationsOf program.id)) {row : InvoiceReservationEntity}
    (hrow : row ∈ db'.reservationsOf program.id)
    (hmatches : markerMatches marker (ApplySnapshotService.toSnapshotReservation row) = true) :
    row.treasuryAcknowledged = true := by
  rw [h.reservationsOf_after hfiled] at hrow
  obtain ⟨before, hbefore, rfl⟩ := List.mem_map.mp hrow
  split
  · rfl
  · rename_i hunmarked
    rw [if_neg hunmarked] at hmatches
    -- it was acknowledged before, by a snapshot as new
    rw [hfiled.acknowledged hbefore]
    cases hv : before.acknowledgedByVersion with
    | some v => rfl
    | none =>
      refine absurd ?_ hunmarked
      have hnone : (ApplySnapshotService.toSnapshotReservation before).acknowledgedByVersion =
        none := hv
      simp [marks, hmatches, hnone]

/-! ## The same snapshot again -/

omit [Sha256] in
/-- A snapshot that asserts what another does, of the same program and under
the same marker. -/
structure SameAssertions (snapshot again : ReconciliationSnapshot) : Prop where
  program : Uuid.ofText again.programId = Uuid.ofText snapshot.programId
  currency : again.currency = snapshot.currency
  creditLimitMinor : again.creditLimitMinor = snapshot.creditLimitMinor
  reservedMinor : again.reservedMinor = snapshot.reservedMinor
  acknowledgement : again.acknowledgement = snapshot.acknowledgement

omit [Sha256] in
/-- An advance with no entries leaves a position that is marked as it stands. -/
theorem advancePosition_nil {position : ProgramPosition} {now : Timestamp}
    (h : position.overLimitSince.isSome = isOverLimit position) :
    advancePosition position [] now = ⟨position, []⟩ := by
  unfold advancePosition
  simp only [List.foldl_nil, h]
  cases isOverLimit position <;> rfl

/-- The deltas of the same snapshot again are zero. -/
theorem SnapshotApplied.decided_again
    (h : SnapshotApplied rt snapshot marker coordinates db program ids investigationRequired deltas
      db') (hfiled : Filed (db.reservationsOf program.id)) (ho : Outstanding program.id db)
    (hsame : SameAssertions snapshot again) :
    ∃ ids, snapshotDecision again marker db'
      (snapshotRow rt snapshot program investigationRequired deltas) =
        .apply ids false ⟨0, 0, 0⟩ := by
  have hchange := Change.corrected h
  have hcomponent := fun c =>
    @snapshotRow_component program rt snapshot investigationRequired deltas c
  obtain ⟨-, -, htreasury, hlimit⟩ := applySnapshotPolicy_apply h.decided
  have hid : (snapshotRow rt snapshot program investigationRequired deltas).id = program.id := rfl
  have hafter : db'.program? program.id =
      some (snapshotRow rt snapshot program investigationRequired deltas) := by
    rw [h.program?_after, if_pos rfl]
  have htallied := (hchange.outstanding ho).tallied _ hafter
  have hlocal := localOutstanding_of_tallied htallied
  -- the marker finds every row it matches acknowledged
  have hacknowledged : acknowledgedOutstanding
      (((db'.reservationsOf program.id).map ApplySnapshotService.toSnapshotReservation).map
        (marked marker again.version)) = acknowledgedOutstanding
      ((db'.reservationsOf program.id).map ApplySnapshotService.toSnapshotReservation) := by
    refine acknowledgedOutstanding_congr fun r hr => ?_
    obtain ⟨row, hrow, rfl⟩ := List.mem_map.mp hr
    unfold marked
    split
    · rename_i hmarks
      have hmatches := (Bool.and_eq_true _ _ ▸ hmarks).1
      exact ⟨rfl, rfl, (h.acknowledged_of_matches hfiled hrow hmatches).symm⟩
    · exact ⟨rfl, rfl, rfl⟩
  have hrows := h.rows_after hfiled
  -- so the targets are where the program already is
  have htreasuryAfter : (snapshotRow rt snapshot program investigationRequired
      deltas).treasuryReservedMinor = again.reservedMinor - acknowledgedOutstanding
        ((db'.reservationsOf program.id).map ApplySnapshotService.toSnapshotReservation) := by
    rw [hrows, hsame.reservedMinor]
    refine (hcomponent .treasury).trans ?_
    simp only [SnapshotDeltas.component, htreasury, ProgramPosition.component]
    omega
  have hlimitAfter : (snapshotRow rt snapshot program investigationRequired
      deltas).creditLimitMinor = again.creditLimitMinor := by
    rw [hsame.creditLimitMinor]
    refine (hcomponent .limit).trans ?_
    simp only [SnapshotDeltas.component, hlimit, ProgramPosition.component]
    omega
  have hsign := h.persistable.treasurySign
  have hsign' : 0 ≤ (snapshotRow rt snapshot program investigationRequired
    deltas).treasuryReservedMinor := hsign
  unfold snapshotDecision applySnapshotPolicy
  simp only [localOutstanding_marked, hid, hacknowledged, ← htreasuryAfter, hlocal, ← hlimitAfter,
    not_lt.mpr hsign', if_false, sub_self, bne_self_eq_false]
  exact ⟨_, rfl⟩

/-! ## Markers that were recorded -/

omit [Sha256] in
/-- Every marker that was kept belongs to a processed message. -/
def MarkersRecorded (db : Db) : Prop :=
  ∀ row ∈ db.acknowledgements, ∃ m ∈ db.messages, m.messageId = row.messageId

omit [Sha256] in
/-- A new message has no marker. -/
theorem MarkersRecorded.acknowledgement? {messageId : String} (h : MarkersRecorded db)
    (hnew : db.message? messageId = none) : db.acknowledgement? messageId = none := by
  rw [Db.message?, Table.get_eq_none_iff] at hnew
  refine Table.get_eq_none_iff.mpr fun row hrow he => ?_
  obtain ⟨m, hm, hid⟩ := h row hrow
  exact hnew m hm (hid.trans he)

/-- **One change.** -/
theorem Change.markersRecorded (hc : Change db db') (h : MarkersRecorded db) :
    MarkersRecorded db' := by
  have hgrow : db'.acknowledgements = db.acknowledgements → (∀ m ∈ db.messages, m ∈ db'.messages) →
      MarkersRecorded db' := by
    intro hsame hmessages row hrow
    rw [hsame] at hrow
    obtain ⟨m, hm, hid⟩ := h row hrow
    exact ⟨m, hmessages m hm, hid⟩
  cases hc with
  | reserved hp ha => exact hgrow ha.acknowledgements_after (ha.messages_after ▸ fun m hm => hm)
  | released hp hrate hd ha =>
    exact hgrow ha.acknowledgements_after (ha.messages_after ▸ fun m hm => hm)
  | cancelled hp hd ha =>
    exact hgrow ha.acknowledgements_after (ha.messages_after ▸ fun m hm => hm)
  | applied ha =>
    refine hgrow ha.acknowledgements_after fun m hm => ?_
    rw [ha.messages_after]
    exact List.mem_append_left _ hm
  | echoed ha =>
    refine hgrow ha.acknowledgements_after fun m hm => ?_
    rw [ha.messages_after]
    exact List.mem_append_left _ hm
  | corrected ha =>
    intro row hrow
    rw [ha.acknowledgements_after, List.mem_append, List.mem_singleton] at hrow
    rw [ha.messages_after]
    rcases hrow with hold | rfl
    · obtain ⟨m, hm, hid⟩ := h row hold
      exact ⟨m, List.mem_append_left _ hm, hid⟩
    · exact ⟨_, List.mem_append_right _ (List.mem_singleton_self _), rfl⟩
  | seeded hp hnone hpersist =>
    exact hgrow (by simp [advanceWrites, Db.apply]) (by simp [advanceWrites, Db.apply])
  | swept cutoff => exact hgrow rfl fun m hm => hm
  | flagged b v hp => exact hgrow rfl fun m hm => hm

/-! ## Every run -/

omit [Sha256] in
/-- A program of which nothing has happened yet: it does not exist or was
inserted with nothing reserved, and treasury has said nothing of it. -/
structure Untouched (p : Uuid) (db : Db) : Prop where
  unreserved : Unreserved p db
  messages : db.messagesOf p = []
  acknowledgements : db.acknowledgements = []

/-- **What holds of a program in every state of a run.** -/
structure Kept (p : Uuid) (db : Db) : Prop where
  outstanding : Outstanding p db
  filed : Filed (db.reservationsOf p)
  versioned : Versioned p db
  markers : MarkersRecorded db

theorem Untouched.run (h : Untouched p db) (ops : List Operation) :
    Kept p (Operation.run ops db) := by
  refine run_induct (P := Kept p) (fun c c' hc hs => ?_) ops ⟨h.unreserved.outstanding, ?_,
    Versioned.of_nil h.messages, fun row hrow => ?_⟩
  · exact ⟨hs.outstanding hc.outstanding, hs.filed hc.filed,
      hs.versionsChange.versioned hc.versioned, hs.markersRecorded hc.markers⟩
  · rw [h.unreserved.reservations]; exact filed_nil
  · rw [h.acknowledgements] at hrow; cases hrow

/-- **The same snapshot again is applied and moves nothing.** -/
theorem SnapshotApplied.applied_again {rt' : Runtime} {coordinates' : StreamCoordinates}
    (h : SnapshotApplied rt snapshot marker coordinates db program ids investigationRequired deltas
      db') (hkept : Kept program.id db) (hsame : SameAssertions snapshot again)
    (hversion : snapshot.version < again.version) (hrange : inBigint again.version = true)
    (hid : storableText again.messageId = true)
    (heffective : inTimestamptz again.effectiveAt = true)
    (hnew : db'.message? again.messageId = none) :
    ∃ last, engine.run (handleReconciliationSnapshot rt' again coordinates') db' =
        .ok (.applied, last) ∧ last.ledger = db'.ledger ∧
      ∃ row, last.program? program.id = some row ∧ ∀ c, row.toProgramPosition.component c =
        (snapshotRow rt snapshot program investigationRequired deltas).toProgramPosition.component
          c := by
  have hchange := Change.corrected h
  have hfiled' := hchange.filed hkept.filed
  have hversioned' := hchange.versionsChange.versioned hkept.versioned
  have hafter : db'.program? program.id =
      some (snapshotRow rt snapshot program investigationRequired deltas) := by
    rw [h.program?_after, if_pos rfl]
  obtain ⟨ids', hdecided⟩ := h.decided_again hkept.filed hkept.outstanding hsame
  -- nothing was processed under the higher version
  have hnone : db'.messagesAt program.id .snapshot again.version = [] := by
    refine List.eq_nil_iff_forall_not_mem.mpr fun row hrow => ?_
    obtain ⟨hrow, hkind⟩ := List.mem_filter.mp hrow
    obtain ⟨hkind, hv⟩ := of_decide_eq_true hkind
    obtain ⟨found, hfound, hle⟩ := hversioned'.newest row hrow hkind
    obtain rfl := Option.some.inj (hfound.symm.trans hafter)
    have hle' : row.version ≤ snapshot.version := hle
    omega
  have hagain : NewSnapshot again db' (snapshotRow rt snapshot program investigationRequired
      deltas) := by
    refine ⟨?_, h.currency.trans hsame.currency.symm, hnew, hnone, le_of_lt hversion⟩
    rw [hsame.program, ← Db.id_of_program? h.found]
    exact hafter
  -- no delta, so no entry, and the position passes its constraints as it did
  have hmark : (snapshotRow rt snapshot program investigationRequired
      deltas).overLimitSince.isSome = isOverLimit (snapshotRow rt snapshot program
        investigationRequired deltas).toProgramPosition := advancePosition_mark
  have hadvance : snapshotAdvance rt' again (snapshotRow rt snapshot program investigationRequired
      deltas) ⟨0, 0, 0⟩ = ⟨(snapshotRow rt snapshot program investigationRequired
        deltas).toProgramPosition, []⟩ := advancePosition_nil hmark
  have hpersist : Persistable db' (snapshotRow rt snapshot program investigationRequired deltas)
      (snapshotAdvance rt' again (snapshotRow rt snapshot program investigationRequired deltas)
        ⟨0, 0, 0⟩) true := by
    rw [hadvance]
    have hp := h.persistable
    exact ⟨by simp, by simp, by simp, by simp, hp.limitRange, hp.localRange, hp.treasuryRange,
      fun _ => Or.inl rfl, hp.limitSign, hp.localSign, hp.treasurySign⟩
  -- a delta of zero is within any guard
  have hguard : ApplySnapshotService.exceedsMagnitudeGuard rt' 0 (snapshotRow rt snapshot program
      investigationRequired deltas).creditLimitMinor = false := by
    have hlimit : 0 ≤ (snapshotRow rt snapshot program investigationRequired
      deltas).creditLimitMinor := h.persistable.limitSign
    have hproduct := mul_nonneg (Int.natCast_nonneg rt'.deltaGuardBasisPoints.val) hlimit
    simp only [ApplySnapshotService.exceedsMagnitudeGuard, lt_self_iff_false, if_false, zero_mul]
    exact decide_eq_false (not_lt.mpr hproduct)
  -- acknowledging a row changes only the version that is checked
  have hchecked : ∀ row ∈ Stmt.acknowledgedRows db' (snapshotRow rt snapshot program
      investigationRequired deltas).id ids',
      ∀ c ∈ reservationChecks (Stmt.acknowledged again.version rt'.now row), c.1 = true := by
    intro row hrow
    have hchecks := hfiled'.checked row (List.mem_of_mem_filter hrow)
    simp only [reservationChecks, List.forall_mem_cons] at hchecks ⊢
    obtain ⟨h₁, h₂, h₃, h₄, -, -, hrest⟩ := hchecks
    exact ⟨h₁, h₂, h₃, h₄, hrange, rfl, hrest⟩
  -- the marker is the one that was kept
  have hstorable : again.Storable :=
    ⟨hid, heffective, fun marker hm => h.storable.references marker (hsame.acknowledgement ▸ hm),
      fun marker hm => h.storable.ingestedThrough marker (hsame.acknowledgement ▸ hm)⟩
  obtain ⟨last, hrun⟩ : ∃ last, engine.run (handleReconciliationSnapshot rt' again coordinates')
      db' = .ok (.applied, last) := hagain.applied hstorable
    (hsame.acknowledgement.trans h.carried) hrange hdecided hguard hpersist h.explicitMarker
    h.watermarkMarker ((hchange.markersRecorded hkept.markers).acknowledgement? hnew) hchecked
  refine ⟨last, hrun, ?_⟩
  rcases handleSnapshot_cases hrun with
    ⟨-, marker', found, ids'', investigationRequired', deltas', ha⟩ | ⟨-, ⟨reason, hne⟩ | ⟨hne, -⟩⟩
  · -- what was applied is what was decided
    obtain rfl : marker' = marker := Option.some.inj
      (ha.carried.symm.trans (hsame.acknowledgement.trans h.carried))
    obtain rfl : found = _ := Option.some.inj (ha.found.symm.trans hagain.found)
    have he := ha.decided.symm.trans hdecided
    simp only [SnapshotDecision.apply.injEq] at he
    obtain ⟨-, -, rfl⟩ := he
    have hid : (snapshotRow rt snapshot program investigationRequired deltas).id = program.id := rfl
    have hlast := ha.program?_after program.id
    rw [if_pos hid] at hlast
    refine ⟨?_, _, hlast, fun c => ?_⟩
    · rw [ha.after, hadvance]
      simp [advanceWrites, Db.apply, Stmt.ledgerRows]
    · exact (snapshotRow_component c).trans (by cases c <;> exact add_zero _)
  · cases hne
  · cases hne

end InvoiceReservation

namespace InvoiceReservation

open Transactions

attribute [local instance] trafficSha256

/-- The seed and two reserves. -/
def twoReserved : List Operation :=
  [.seed 0 programs, .reserve (callAt 1) (reserveCommand "req-00001" "INV-1" 100),
    .reserve (callAt 2000) (reserveCommand "req-00002" "INV-2" 100)]

/-- A snapshot through the first of them. -/
def snapshotThroughFirst : ReconciliationSnapshot :=
  watermarkSnapshot "snap-00001" 1 1000000000 100 1000

/-- It again, in a higher version and under an id no column can hold. -/
def snapshotUnstorable : ReconciliationSnapshot :=
  { snapshotThroughFirst with messageId := "snap-0000\x00", version := 2 }

end InvoiceReservation
