import InvoiceReservation.Properties.Decomposition
import InvoiceReservation.Properties.LimitConvergence
/-!
# Snapshots in any order

Of the snapshots of a program the newest decides its limit, its treasury
version and what is asserted of TREASURY, in whichever order they arrive.
But a snapshot that was applied before it leaves its acknowledgements
behind, and what they cover is taken off TREASURY as well: there the order
can be seen, exactly by the reservations that only an earlier marker
matches.
-/

namespace InvoiceReservation

open Transactions

variable {db c c' start : Db} {p : Uuid} {program program' after : ProgramEntity} {rt : Runtime}
variable {rows : List InvoiceReservationEntity} {row row' : InvoiceReservationEntity}
variable {marker : SnapshotMarker} {markers : List SnapshotMarker} {version : Int}
variable {snapshot : ReconciliationSnapshot} {coordinates : StreamCoordinates}

/-! ## Markers and what they cover -/

/-- Whether a marker matches a row. -/
def SnapshotMarker.covers (marker : SnapshotMarker) (row : InvoiceReservationEntity) : Bool :=
  markerMatches marker (ApplySnapshotService.toSnapshotReservation row)

/-- What the LOCAL reservations hold of which something holds. -/
def heldWhere (P : InvoiceReservationEntity → Bool) (rows : List InvoiceReservationEntity) : Int :=
  ((rows.filter fun row => row.origin = .local && P row).map (·.outstandingReservedMinor)).sum

/-- What the unacknowledged LOCAL reservations hold that other markers cover
and a snapshot's own does not. -/
def coveredByOthers (own : Option SnapshotMarker) (others : List SnapshotMarker)
    (rows : List InvoiceReservationEntity) : Int :=
  heldWhere (fun row => !row.treasuryAcknowledged && !own.any (·.covers row) &&
    others.any (·.covers row)) rows

/-- The marker a message carries. -/
def TreasuryMessage.acknowledgement : TreasuryMessage → Option SnapshotMarker
  | .event _ => none
  | .snapshot message => message.acknowledgement

/-- The markers of those messages that were applied. -/
def appliedMarkers (order : List InboundMessage) (outcomes : List (Option HandleOutcome)) :
    List SnapshotMarker :=
  (order.zip outcomes).filterMap fun x =>
    if x.2 = some .applied then x.1.message.acknowledgement else none

theorem heldWhere_congr {P Q : InvoiceReservationEntity → Bool}
    (h : ∀ row ∈ rows, row.origin = .local → P row = Q row) :
    heldWhere P rows = heldWhere Q rows := by
  unfold heldWhere
  congr 2
  refine List.filter_congr fun row hrow => ?_
  by_cases horigin : row.origin = .local
  · rw [h row hrow horigin]
  · simp [horigin]

/-- What a selection covers that another leaves out. -/
theorem heldWhere_or {P Q : InvoiceReservationEntity → Bool} :
    heldWhere (fun row => P row || Q row) rows =
      heldWhere P rows + heldWhere (fun row => !P row && Q row) rows := by
  induction rows with
  | nil => rfl
  | cons row rows ih =>
    simp only [heldWhere] at ih ⊢
    by_cases horigin : row.origin = .local <;> cases hP : P row <;> cases hQ : Q row <;>
      simp [horigin, hP, hQ] at ih ⊢ <;> omega

/-- Rows that keep what they hold. -/
theorem heldWhere_map {P : InvoiceReservationEntity → Bool}
    {f : InvoiceReservationEntity → InvoiceReservationEntity}
    (hf : ∀ row ∈ rows, (f row).origin = row.origin ∧
      (f row).outstandingReservedMinor = row.outstandingReservedMinor) :
    heldWhere P (rows.map f) = heldWhere (fun row => P (f row)) rows := by
  induction rows with
  | nil => rfl
  | cons row rows ih =>
    obtain ⟨⟨horigin, hamount⟩, htail⟩ := List.forall_mem_cons.mp hf
    have ih := ih htail
    simp only [heldWhere] at ih ⊢
    by_cases hlocal : row.origin = .local <;> cases hP : P (f row) <;>
      simp [horigin, hamount, hlocal, hP, ih]

/-- The flag after a marker: it was set, or the marker matches. -/
theorem marked_treasuryAcknowledged {r : SnapshotReservation}
    (h : r.treasuryAcknowledged = r.acknowledgedByVersion.isSome) :
    (marked marker version r).treasuryAcknowledged =
      (r.treasuryAcknowledged || markerMatches marker r) := by
  unfold marked
  cases hv : r.acknowledgedByVersion with
  | none => cases hm : markerMatches marker r <;> simp [marks, hm, hv, h]
  | some v =>
    -- acknowledged it was, and stays
    have hset : r.treasuryAcknowledged = true := by rw [h, hv]; rfl
    split <;> simp [hset]

/-- **What is acknowledged once a marker is**: what was, and what it covers. -/
theorem Filed.acknowledgedOutstanding_marked (h : Filed rows) :
    acknowledgedOutstanding ((rows.map ApplySnapshotService.toSnapshotReservation).map
      (marked marker version)) =
      heldWhere (fun row => row.treasuryAcknowledged || marker.covers row) rows := by
  have hflag : ∀ row ∈ rows, (marked marker version
      (ApplySnapshotService.toSnapshotReservation row)).treasuryAcknowledged =
        (row.treasuryAcknowledged || marker.covers row) := fun row hrow =>
    marked_treasuryAcknowledged (r := ApplySnapshotService.toSnapshotReservation row)
      (h.acknowledged hrow)
  have hsame : ∀ row, (marked marker version
      (ApplySnapshotService.toSnapshotReservation row)).origin = row.origin ∧
      (marked marker version (ApplySnapshotService.toSnapshotReservation row)
        ).outstandingReservedMinor = row.outstandingReservedMinor := by
    intro row
    unfold marked
    split <;> exact ⟨rfl, rfl⟩
  rw [List.map_map]
  clear h
  induction rows with
  | nil => rfl
  | cons row rows ih =>
    obtain ⟨hrow, htail⟩ := List.forall_mem_cons.mp hflag
    have ih := ih htail
    obtain ⟨horigin, hamount⟩ := hsame row
    simp only [acknowledgedOutstanding, localOutstanding, heldWhere, List.filter_filter] at ih ⊢
    rw [List.map_cons, List.filter_cons, List.filter_cons, Function.comp_apply, hrow, horigin]
    by_cases hlocal : row.origin = .local <;>
      cases hP : (row.treasuryAcknowledged || marker.covers row) <;>
        simp [hlocal, hamount, ih]

/-! ## One snapshot -/

/-- A row after the markers of some snapshots: what it holds is unchanged,
and it is acknowledged if it was or one of them covers it. -/
structure CoveredBy (markers : List SnapshotMarker) (row row' : InvoiceReservationEntity) :
    Prop where
  origin : row'.origin = row.origin
  amount : row'.outstandingReservedMinor = row.outstandingReservedMinor
  reference : row'.treasuryReference = row.treasuryReference
  confirmed : row'.confirmedAt = row.confirmedAt
  flag : row'.treasuryAcknowledged = (row.treasuryAcknowledged || markers.any (·.covers row))

theorem CoveredBy.refl (row : InvoiceReservationEntity) : CoveredBy [] row row :=
  ⟨rfl, rfl, rfl, rfl, by simp⟩

/-- Markers look at what they do not change. -/
theorem CoveredBy.covers (h : CoveredBy markers row row') :
    marker.covers row' = marker.covers row := by
  have hmatches : ∀ r r' : SnapshotReservation, r'.treasuryReference = r.treasuryReference →
      r'.confirmedAt = r.confirmedAt → markerMatches marker r' = markerMatches marker r := by
    intro r r' hreference hconfirmed
    unfold markerMatches
    rw [hreference, hconfirmed]
  exact hmatches _ _ h.reference h.confirmed

variable [Sha256]
variable {ids : List Uuid} {investigationRequired : Bool} {deltas : SnapshotDeltas}

omit [Sha256] in
/-- One more marker. -/
theorem CoveredBy.marked (h : CoveredBy markers row row')
    (hack : row'.treasuryAcknowledged = row'.acknowledgedByVersion.isSome) :
    CoveredBy (markers ++ [marker]) row
      (if marks marker version (ApplySnapshotService.toSnapshotReservation row') then
        Stmt.acknowledged version rt.now row' else row') := by
  have hflag := @marked_treasuryAcknowledged marker version
    (ApplySnapshotService.toSnapshotReservation row') hack
  rw [← @toSnapshotReservation_acknowledged marker version row' rt.now] at hflag
  have hcovers : markerMatches marker (ApplySnapshotService.toSnapshotReservation row') =
    marker.covers row := h.covers
  rw [hcovers] at hflag
  have hbefore : (ApplySnapshotService.toSnapshotReservation row').treasuryAcknowledged =
    (row.treasuryAcknowledged || markers.any (·.covers row)) := h.flag
  refine ⟨?_, ?_, ?_, ?_, ?_⟩
  · split <;> exact h.origin
  · split <;> exact h.amount
  · split <;> exact h.reference
  · split <;> exact h.confirmed
  · refine Eq.trans hflag ?_
    rw [hbefore]
    simp [Bool.or_assoc]

/-- **What an applied snapshot leaves**: the asserted amount without what is
acknowledged once its marker is, the asserted limit and its version. -/
theorem SnapshotApplied.asserted
    (h : SnapshotApplied rt snapshot marker coordinates c program ids investigationRequired deltas
      c') (hfiled : Filed (c.reservationsOf program.id)) :
    ∃ after, c'.program? program.id = some after ∧
      after.treasuryReservedMinor = snapshot.reservedMinor -
        heldWhere (fun row => row.treasuryAcknowledged || marker.covers row)
          (c.reservationsOf program.id) ∧
      after.creditLimitMinor = snapshot.creditLimitMinor ∧
      after.treasuryVersion = snapshot.version := by
  have hafter := h.program?_after program.id
  rw [if_pos rfl] at hafter
  obtain ⟨-, -, htreasury, hlimit⟩ := applySnapshotPolicy_apply h.decided
  have hcomponent := fun k => @snapshotRow_component program rt snapshot investigationRequired
    deltas k
  rw [hfiled.acknowledgedOutstanding_marked] at htreasury
  have htreasuryAfter := hcomponent .treasury
  have hlimitAfter := hcomponent .limit
  simp only [SnapshotDeltas.component, htreasury, hlimit, ProgramPosition.component]
    at htreasuryAfter hlimitAfter
  exact ⟨_, hafter, by omega, by omega, rfl⟩

/-! ## A delivery -/

/-- Snapshots of one program, with ids and versions of their own. -/
structure SnapshotDelivery (p : Uuid) (order : List InboundMessage) : Prop where
  program : ∀ inbound ∈ order, Uuid.ofText inbound.message.programId = p
  snapshots : ∀ inbound ∈ order, inbound.message.kind = .snapshot
  ids : (order.map (·.message.messageId)).Nodup
  versions : (order.map (·.message.version)).Nodup

/-- **What some snapshots leave of a program** that they were delivered to:
whatever is new comes from one of them that was not processed before, and
its rows are covered by the markers of those that were applied. -/
structure Gathered (p : Uuid) (db : Db) (program : ProgramEntity) (before : List InboundMessage)
    (markers : List SnapshotMarker) (c : Db) (after : ProgramEntity) : Prop where
  found : c.program? p = some after
  kept : Kept p c
  source : after.treasuryVersion = program.treasuryVersion ∨
    ∃ inbound ∈ before, db.message? inbound.message.messageId = none ∧
      after.treasuryVersion = inbound.message.version
  recorded : ∀ m ∈ c.messages, m ∈ db.messages ∨ ∃ inbound ∈ before,
    m.messageId = inbound.message.messageId ∧ m.version = inbound.message.version
  grows : ∀ m ∈ db.messages, m ∈ c.messages
  rows : ∃ f, c.reservationsOf p = (db.reservationsOf p).map f ∧
    ∀ row ∈ db.reservationsOf p, CoveredBy markers row (f row)

variable {before : List InboundMessage} {inbound : InboundMessage} {o : HandleOutcome}

omit [Sha256] in
theorem Gathered.refl (hp : db.program? p = some program) (hkept : Kept p db) :
    Gathered p db program [] [] db program where
  found := hp
  kept := hkept
  source := Or.inl rfl
  recorded := fun _ hm => Or.inl hm
  grows := fun _ hm => hm
  rows := ⟨id, (List.map_id _).symm, fun row _ => CoveredBy.refl row⟩

omit [Sha256] in
/-- A snapshot that is skipped. -/
theorem Gathered.skip (h : Gathered p db program before markers c after) :
    Gathered p db program (before ++ [inbound]) markers c after where
  found := h.found
  kept := h.kept
  source := h.source.imp_right fun ⟨x, hx, he⟩ => ⟨x, List.mem_append_left _ hx, he⟩
  recorded := fun m hm => (h.recorded m hm).imp_right fun ⟨x, hx, he⟩ =>
    ⟨x, List.mem_append_left _ hx, he⟩
  grows := h.grows
  rows := h.rows

omit [Sha256] in
/-- What is LOCAL is as it was. -/
theorem Gathered.local_eq (h : Gathered p db program before markers c after)
    (hp : db.program? p = some program) (hkept : Kept p db) :
    after.localReservedMinor = program.localReservedMinor := by
  obtain ⟨f, hrows, hf⟩ := h.rows
  have hbefore := (hkept.outstanding.tallied _ hp).sum
  have hafter := (h.kept.outstanding.tallied _ h.found).sum
  have hsame : ((db.reservationsOf p).map f).map (·.outstandingReservedMinor) =
      (db.reservationsOf p).map (·.outstandingReservedMinor) := by
    rw [List.map_map]
    exact List.map_congr_left fun row hrow => (hf row hrow).amount
  rw [hafter, hbefore, hrows, hsame]

/-- **A snapshot that is applied.** -/
theorem Gathered.apply (h : Gathered p db program before markers c after)
    (hmessage : inbound.message = .snapshot snapshot)
    (hprogram : Uuid.ofText snapshot.programId = p)
    (ha : SnapshotApplied rt snapshot marker coordinates c program' ids investigationRequired
      deltas c') :
    ∃ next, Gathered p db program (before ++ [inbound]) (markers ++ [marker]) c' next ∧
        next.treasuryReservedMinor = snapshot.reservedMinor -
          heldWhere (fun row => row.treasuryAcknowledged || marker.covers row)
            (c.reservationsOf p) ∧
        next.creditLimitMinor = snapshot.creditLimitMinor ∧
        next.treasuryVersion = snapshot.version := by
  have hid : program'.id = p := (Db.id_of_program? ha.found).trans hprogram
  subst hid
  have hchange := Change.corrected ha
  obtain ⟨next, hnext, htreasury, hlimit, hversion⟩ := ha.asserted h.kept.filed
  have hinbound : inbound ∈ before ++ [inbound] := by simp
  have hidNew : db.message? inbound.message.messageId = none := by
    rw [hmessage]
    refine Table.get_eq_none_iff.mpr fun m hm he => ?_
    exact Table.get_eq_none_iff.mp ha.id m (h.grows m hm) he
  refine ⟨next, ⟨hnext, ⟨hchange.outstanding h.kept.outstanding, hchange.filed h.kept.filed,
    hchange.versionsChange.versioned h.kept.versioned, hchange.markersRecorded h.kept.markers⟩,
    Or.inr ⟨inbound, hinbound, hidNew, by rw [hversion, hmessage]; rfl⟩, fun m hm => ?_,
    fun m hm => ?_, ?_⟩, htreasury, hlimit, hversion⟩
  · rw [ha.messages_after, List.mem_append, List.mem_singleton] at hm
    rcases hm with hold | rfl
    · exact (h.recorded m hold).imp_right fun ⟨x, hx, he⟩ => ⟨x, List.mem_append_left _ hx, he⟩
    · exact Or.inr ⟨inbound, hinbound, by rw [hmessage]; exact ⟨rfl, rfl⟩⟩
  · rw [ha.messages_after]
    exact List.mem_append_left _ (h.grows m hm)
  · obtain ⟨f, hrows, hf⟩ := h.rows
    refine ⟨fun row => if marks marker snapshot.version
      (ApplySnapshotService.toSnapshotReservation (f row)) then
        Stmt.acknowledged snapshot.version rt.now (f row) else f row, ?_, fun row hrow => ?_⟩
    · rw [ha.reservationsOf_after h.kept.filed, hrows, List.map_map]
      simp [Function.comp_def]
    · refine (hf row hrow).marked (h.kept.filed.acknowledged ?_)
      rw [hrows]
      exact List.mem_map_of_mem hrow

/-- **One snapshot.** -/
theorem Gathered.step (h : Gathered p db program before markers c after)
    (hkind : inbound.message.kind = .snapshot)
    (hprogram : Uuid.ofText inbound.message.programId = p)
    (hrun : engine.run (dispatch inbound) c = .ok (o, c')) (ho : o.Accepted) :
    ∃ next, Gathered p db program (before ++ [inbound])
      (markers ++ appliedMarkers [inbound] [some o]) c' next := by
  unfold dispatch at hrun
  cases hmessage : inbound.message with
  | event message => rw [hmessage] at hkind; cases hkind
  | snapshot message =>
    rw [hmessage] at hrun hprogram
    rcases handleSnapshot_cases hrun with
      ⟨rfl, marker, found, ids, investigationRequired, deltas, ha⟩ |
        ⟨rfl, ⟨reason, rfl⟩ | ⟨rfl, -⟩⟩
    · obtain ⟨next, hnext, -⟩ := h.apply hmessage hprogram ha
      refine ⟨next, ?_⟩
      simpa [appliedMarkers, hmessage, TreasuryMessage.acknowledgement, ha.carried] using hnext
    · exact absurd rfl (ho reason)
    · exact ⟨after, by simpa [appliedMarkers] using h.skip⟩

/-! ## A run -/

variable {policy : RetryPolicy} {state : ConsumerState} {order pre post : List InboundMessage}
variable {single : InboundMessage}

omit [Sha256] in
theorem appliedMarkers_cons {outcome : Option HandleOutcome}
    {outcomes : List (Option HandleOutcome)} :
    appliedMarkers (inbound :: order) (outcome :: outcomes) =
      appliedMarkers [inbound] [outcome] ++ appliedMarkers order outcomes := by
  simp only [appliedMarkers, List.zip_cons_cons, List.filterMap_cons, List.zip_nil_left,
    List.filterMap_nil]
  split <;> rfl

omit [Sha256] in
/-- Of messages that were skipped no marker is left. -/
theorem appliedMarkers_skipped {outcomes : List (Option HandleOutcome)}
    (h : ∀ o ∈ outcomes, o = some .skipped) : appliedMarkers order outcomes = [] := by
  refine List.filterMap_eq_nil_iff.mpr fun x hx => ?_
  have hskipped := h x.2 (List.of_mem_zip hx).2
  simp [hskipped]

/-- **Some snapshots, one after another**, none of them quarantined. -/
theorem Gathered.consume (h : Gathered p db program before markers state.db after)
    (hkind : ∀ inbound ∈ order, inbound.message.kind = .snapshot)
    (hprogram : ∀ inbound ∈ order, Uuid.ofText inbound.message.programId = p)
    (haccepted : ∀ o ∈ handled policy order state, ∃ h : HandleOutcome, o = some h ∧ h.Accepted) :
    ∃ last, Gathered p db program (before ++ order)
      (markers ++ appliedMarkers order (handled policy order state))
      (InvoiceReservation.consume policy order state).db last := by
  induction order generalizing before markers state after with
  | nil => exact ⟨after, by simpa [appliedMarkers] using h⟩
  | cons inbound order ih =>
    obtain ⟨hkind, hkinds⟩ := List.forall_mem_cons.mp hkind
    obtain ⟨hprogram, hprograms⟩ := List.forall_mem_cons.mp hprogram
    rw [handled_cons] at haccepted
    obtain ⟨⟨o, hsome, ho⟩, haccepted⟩ := List.forall_mem_cons.mp haccepted
    obtain ⟨c, hrun⟩ := handledAs_eq_some.mp hsome
    have hdb : (processMessage policy state inbound).db = c := processMessage_db_of_ok hrun
    obtain ⟨next, hnext⟩ := h.step hkind hprogram hrun ho
    obtain ⟨last, hlast⟩ := ih (hdb.symm ▸ hnext) hkinds hprograms haccepted
    refine ⟨last, ?_⟩
    rw [consume_cons, handled_cons, hsome, appliedMarkers_cons]
    simpa using hlast

/-- A snapshot that was seen, in a message. -/
def SeenBy (db : Db) (inbound : InboundMessage) : Prop :=
  ∃ snapshot, inbound.message = .snapshot snapshot ∧ SnapshotSeen snapshot db

/-- **Snapshots that were seen are skipped.** -/
theorem consume_seen (hseen : ∀ inbound ∈ order, SeenBy state.db inbound)
    (haccepted : ∀ o ∈ handled policy order state, ∃ h : HandleOutcome, o = some h ∧ h.Accepted) :
    (InvoiceReservation.consume policy order state).db = state.db ∧
      ∀ o ∈ handled policy order state, o = some .skipped := by
  induction order generalizing state with
  | nil => exact ⟨rfl, by simp⟩
  | cons inbound order ih =>
    obtain ⟨⟨snapshot, hmessage, hseen⟩, hseens⟩ := List.forall_mem_cons.mp hseen
    rw [handled_cons] at haccepted
    obtain ⟨⟨o, hsome, ho⟩, haccepted⟩ := List.forall_mem_cons.mp haccepted
    obtain ⟨c, hrun⟩ := handledAs_eq_some.mp hsome
    have hdb : (processMessage policy state inbound).db = c := processMessage_db_of_ok hrun
    unfold dispatch at hrun
    rw [hmessage] at hrun
    rcases handleSnapshot_cases hrun with
      ⟨-, marker, found, ids, investigationRequired, deltas, ha⟩ |
        ⟨rfl, ⟨reason, rfl⟩ | ⟨rfl, -⟩⟩
    · exact absurd ha.new hseen.not_new
    · exact absurd rfl (ho reason)
    · obtain ⟨hlast, hskipped⟩ := ih (hdb.symm ▸ hseens) haccepted
      rw [consume_cons, handled_cons, hsome]
      exact ⟨hlast.trans hdb, List.forall_mem_cons.mpr ⟨rfl, hskipped⟩⟩

/-! ## The newest of them -/

omit [Sha256] in
/-- The newest snapshot is still new when the others before it have come. -/
theorem Gathered.unseen (h : Gathered p db program pre markers c after)
    (hp : db.program? p = some program) (hprogram : Uuid.ofText snapshot.programId = p)
    (hid : ∀ x ∈ pre, x.message.messageId ≠ snapshot.messageId)
    (hversion : ∀ x ∈ pre, x.message.version ≠ snapshot.version)
    (hnewest : ∀ x ∈ pre, db.message? x.message.messageId = none →
      x.message.version ≤ snapshot.version) (hnew : ¬ SnapshotSeen snapshot db) :
    ¬ SnapshotSeen snapshot c := by
  have hrow : p = program.id := (Db.id_of_program? hp).symm
  rintro (hsome | ⟨found, hfound, hold⟩)
  · obtain ⟨m, hm, hmid⟩ := Db.isSome_message?.mp hsome
    rcases h.recorded m hm with hm | ⟨x, hx, hxid, -⟩
    · exact hnew (Or.inl (Db.isSome_message?.mpr ⟨m, hm, hmid⟩))
    · exact hid x hx (hxid.symm.trans hmid)
  rw [hprogram, h.found] at hfound
  obtain rfl := Option.some.inj hfound
  rcases hold with hstale | hrows
  · rcases h.source with he | ⟨x, hx, hxnew, he⟩
    · exact hnew (Or.inr ⟨program, hprogram ▸ hp, Or.inl (he ▸ hstale)⟩)
    · have hle := hnewest x hx hxnew
      omega
  · obtain ⟨m, hm⟩ := List.exists_mem_of_ne_nil _ hrows
    simp only [Db.messagesAt, Db.messagesOf, List.mem_filter, decide_eq_true_eq] at hm
    obtain ⟨⟨hm, hmprogram⟩, hmkind, hmversion⟩ := hm
    rcases h.recorded m hm with hm | ⟨x, hx, -, hxversion⟩
    · refine hnew (Or.inr ⟨program, hprogram ▸ hp, Or.inr fun hnil => ?_⟩)
      have hmem : m ∈ db.messagesAt program.id .snapshot snapshot.version := by
        simp only [Db.messagesAt, Db.messagesOf, List.mem_filter, decide_eq_true_eq]
        refine ⟨⟨hm, hmprogram.trans ?_⟩, hmkind, hmversion⟩
        rw [Db.id_of_program? h.found, hrow]
      rw [hnil] at hmem
      cases hmem
    · exact hversion x hx (hxversion.symm.trans hmversion)

omit [Sha256] in
/-- Where the newest of some snapshots was seen, all of them were. -/
theorem SnapshotSeen.all (h : SnapshotSeen snapshot db) (hversioned : Versioned p db)
    (hdelivery : SnapshotDelivery p order) (hprogram : Uuid.ofText snapshot.programId = p)
    (hnew : db.message? snapshot.messageId = none)
    (hnewest : ∀ other ∈ order, db.message? other.message.messageId = none →
      other.message.version ≤ snapshot.version) : ∀ other ∈ order, SeenBy db other := by
  intro other hother
  have hkind := hdelivery.snapshots other hother
  have hotherProgram := hdelivery.program other hother
  have hle := hnewest other hother
  cases hmessage : other.message with
  | event message => rw [hmessage] at hkind; cases hkind
  | snapshot message =>
    rw [hmessage] at hotherProgram hle
    refine ⟨message, hmessage, ?_⟩
    cases hid : db.message? message.messageId with
    | some m => exact Or.inl (by rw [hid]; rfl)
    | none =>
      have hle : message.version ≤ snapshot.version := hle hid
      rcases h with hsome | ⟨found, hfound, hold⟩
      · rw [hnew] at hsome; cases hsome
      refine Or.inr ⟨found, ?_, ?_⟩
      · rw [← hfound, hprogram]
        exact congrArg db.program? hotherProgram
      rcases hold with hstale | hrows
      · exact Or.inl (by omega)
      rcases eq_or_lt_of_le hle with he | hlt
      · exact Or.inr (he ▸ hrows)
      · -- a row of the newest version is no newer than the treasury version
        obtain ⟨m, hm⟩ := List.exists_mem_of_ne_nil _ hrows
        obtain ⟨hm, hmatch⟩ := List.mem_filter.mp hm
        obtain ⟨hmkind, hmversion⟩ := of_decide_eq_true hmatch
        rw [Db.id_of_program? hfound, hprogram] at hm
        obtain ⟨program, hp, hrowle⟩ := hversioned.newest m hm hmkind
        rw [hprogram, hp] at hfound
        obtain rfl := Option.some.inj hfound
        exact Or.inl (by omega)

/-- A snapshot that is not seen and not quarantined is applied. -/
theorem applied_of_unseen {single : InboundMessage} (hmessage : single.message = .snapshot snapshot)
    (hunseen : ¬ SnapshotSeen snapshot c) (hrun : engine.run (dispatch single) c = .ok (o, c'))
    (ho : o.Accepted) : ∃ marker found ids investigationRequired deltas,
      SnapshotApplied single.rt snapshot marker single.coordinates c found ids
        investigationRequired deltas c' := by
  unfold dispatch at hrun
  rw [hmessage] at hrun
  rcases handleSnapshot_cases hrun with
    ⟨-, ha⟩ | ⟨-, ⟨reason, rfl⟩ | ⟨-, hseen⟩⟩
  · exact ha
  · exact absurd rfl (ho reason)
  · exact absurd hseen hunseen

omit [Sha256] in
/-- What two coverings of the same rows differ in. -/
theorem heldWhere_covered {f : InvoiceReservationEntity → InvoiceReservationEntity}
    (hf : ∀ row ∈ rows, CoveredBy markers row (f row)) :
    heldWhere (fun row => row.treasuryAcknowledged || marker.covers row) (rows.map f) =
      heldWhere (fun row => row.treasuryAcknowledged || marker.covers row) rows +
        coveredByOthers (some marker) markers rows := by
  rw [heldWhere_map fun row hrow => ⟨(hf row hrow).origin, (hf row hrow).amount⟩]
  have hmore := @heldWhere_or rows (fun row => row.treasuryAcknowledged || marker.covers row)
    (fun row => markers.any (·.covers row))
  have hflag : heldWhere (fun row => (f row).treasuryAcknowledged || marker.covers (f row)) rows =
      heldWhere (fun row => (row.treasuryAcknowledged || marker.covers row) ||
        markers.any (·.covers row)) rows := by
    refine heldWhere_congr fun row hrow _ => ?_
    rw [(hf row hrow).flag, (hf row hrow).covers, Bool.or_right_comm]
  have hothers : coveredByOthers (some marker) markers rows =
      heldWhere (fun row => !(row.treasuryAcknowledged || marker.covers row) &&
        markers.any (·.covers row)) rows := by
    refine heldWhere_congr fun row _ _ => ?_
    simp [Bool.not_or]
  rw [hflag, hmore, hothers]

omit [Sha256] in
/-- The others have ids and versions that the newest has not. -/
theorem SnapshotDelivery.apart (h : SnapshotDelivery p (pre ++ inbound :: post)) :
    ∀ x ∈ pre ++ post, x.message.messageId ≠ inbound.message.messageId ∧
      x.message.version ≠ inbound.message.version := by
  have hids := h.ids
  have hversions := h.versions
  rw [List.map_append, List.map_cons, List.nodup_middle, ← List.map_append] at hids hversions
  intro x hx
  refine ⟨fun he => ?_, fun he => ?_⟩
  · exact (List.nodup_cons.mp hids).1 (he ▸ List.mem_map_of_mem hx)
  · exact (List.nodup_cons.mp hversions).1 (he ▸ List.mem_map_of_mem hx)

end InvoiceReservation

namespace InvoiceReservation

open Transactions

attribute [local instance] trafficSha256

/-- The consumer, after a reserve. -/
def reservedConsumer : ConsumerState := ⟨Operation.run reservedTraffic migrated, [], []⟩

theorem reservedConsumer_eq : reservedConsumer =
    ⟨Operation.run [.reserve (callAt 1) (reserveCommand "req-00001" "INV-1" 100)] seededRows,
      [], []⟩ := by
  rw [reservedConsumer, reservedTraffic, run_seed]

/-- An older snapshot that acknowledges the reservation, and a newer one that
does not name it. -/
def acknowledgingThenNewer : List InboundMessage :=
  [deliverAt 2 (.snapshot (watermarkSnapshot "snap-00001" 1 1000000000 100 1000)),
    deliverAt 3 (.snapshot (reconciliationSnapshot "snap-00002" 2 1000000000 100))]

theorem acknowledgingThenNewer_delivery :
    SnapshotDelivery (Uuid.ofText northwindUsdProgramId) acknowledgingThenNewer :=
  ⟨by decide +kernel, by decide +kernel, by decide +kernel, by decide +kernel⟩

/-- Both of them are applied. -/
theorem acknowledgingThenNewer_handled :
    handled defaultPolicy acknowledgingThenNewer reservedConsumer =
      [some .applied, some .applied] := by
  rw [reservedConsumer_eq]
  decide +kernel

/-- TREASURY, LOCAL, the limit and the treasury version of a program. -/
def standing (p : Uuid) (db : Db) : Option (Int × Int × Int × Int) :=
  (db.program? p).map fun program => (program.treasuryReservedMinor, program.localReservedMinor,
    program.creditLimitMinor, program.treasuryVersion)

/-- A snapshot that has the id of one that was processed, and an older one
that is new. -/
def reusedThenNew : List InboundMessage :=
  [deliverAt 4 (.snapshot (reconciliationSnapshot "snap-00001" 3 1000000000 100)),
    deliverAt 5 (.snapshot (reconciliationSnapshot "snap-00002" 2 1000000000 100))]

end InvoiceReservation
