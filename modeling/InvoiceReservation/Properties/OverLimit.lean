import InvoiceReservation.Helpers.Reservations
import InvoiceReservation.Properties.Ledger
/-!
# The over-limit mark

Every advance ends with the mark set exactly when the program is over its
limit, and writes a marker behind its own entries exactly when the mark
moves. So the markers of a ledger alternate, and the last of them says
what the mark is.
-/

namespace InvoiceReservation

open Transactions

variable {db db' : Db} {p : Uuid} {program : ProgramEntity}
variable {rows own marker : List CapacityLedgerEntryEntity} {position x y : ProgramPosition}
variable {entries : List PendingLedgerEntry} {now : Timestamp}

/-- The over-limit markers of a ledger, in its order. -/
def overLimitEntries (rows : List CapacityLedgerEntryEntity) : List CapacityLedgerEntryEntity :=
  rows.filter (·.cause.isMarker)

/-- Onsets and clearings by turns, the onset first. -/
def alternating (n : Nat) : List LedgerCause :=
  (List.range n).map fun i => if i % 2 = 0 then .overLimitOnset else .overLimitCleared

/-- **A mark that its ledger tells**: it is set exactly over the limit, the
markers alternate, and it is the instant of the last where that is an onset. -/
structure Marked (rows : List CapacityLedgerEntryEntity) (position : ProgramPosition) : Prop where
  mark : position.overLimitSince.isSome = isOverLimit position
  causes : (overLimitEntries rows).map (·.cause) = alternating (overLimitEntries rows).length
  odd : position.overLimitSince.isSome = decide ((overLimitEntries rows).length % 2 = 1)
  since : ∀ t, position.overLimitSince = some t →
    (overLimitEntries rows).getLast?.map (·.occurredAt) = some t

theorem alternating_succ {n : Nat} : alternating (n + 1) =
    alternating n ++ [if n % 2 = 0 then .overLimitOnset else .overLimitCleared] := by
  simp [alternating, List.range_succ]

/-! ## One advance -/

/-- The three ways an advance can close. -/
theorem markers_cases :
    (markers position entries = [] ∧
      (advancePosition position entries now).program.overLimitSince = position.overLimitSince) ∨
    (markers position entries =
        [overLimitMarker .overLimitOnset (closingCorrelationId entries)] ∧
      position.overLimitSince = none ∧
      (advancePosition position entries now).program.overLimitSince = some now) ∨
    (markers position entries =
        [overLimitMarker .overLimitCleared (closingCorrelationId entries)] ∧
      position.overLimitSince.isSome = true ∧
      (advancePosition position entries now).program.overLimitSince = none) := by
  have hkept : (entries.foldl advanceEntry ⟨position, []⟩).program.overLimitSince =
      position.overLimitSince := foldl_advanceEntry_overLimitSince
  unfold markers advancePosition
  cases hmark : position.overLimitSince with
  | none =>
    cases hover : isOverLimit (entries.foldl advanceEntry ⟨position, []⟩).program with
    | false => exact Or.inl ⟨by simp, by simp [hover, hkept, hmark]⟩
    | true => exact Or.inr (Or.inl ⟨by simp, rfl, by simp [hover]⟩)
  | some t =>
    cases hover : isOverLimit (entries.foldl advanceEntry ⟨position, []⟩).program with
    | false => exact Or.inr (Or.inr ⟨by simp, rfl, by simp [hover]⟩)
    | true => exact Or.inl ⟨by simp, by simp [hover, hkept, hmark]⟩

/-- **The entries an advance writes**: those asked for, and the marker behind
them. -/
theorem ledgerRows_advance (hown : ∀ entry ∈ entries, entry.cause.isMarker = false) :
    ∃ own marker, Stmt.ledgerRows p (advancePosition position entries now).entries now =
        own ++ marker ∧ (∀ row ∈ own, row.cause.isMarker = false) ∧
      (∀ row ∈ marker, row.cause.isMarker = true) ∧
      marker.map (fun row => (row.cause, row.occurredAt)) =
        (markers position entries).map fun entry => (entry.cause, now) := by
  obtain ⟨before, closing, hsplit, hbefore, hclosing⟩ :=
    List.map_eq_append_iff.mp (@advancePosition_entries position entries now)
  refine ⟨Stmt.ledgerRows p before now, Stmt.ledgerRows p closing now, ?_, fun row hrow => ?_,
    fun row hrow => ?_, ?_⟩
  · rw [hsplit]; simp [Stmt.ledgerRows]
  · obtain ⟨entry, hentry, rfl⟩ := List.mem_map.mp hrow
    exact hown _ (hbefore ▸ List.mem_map_of_mem hentry)
  · obtain ⟨entry, hentry, rfl⟩ := List.mem_map.mp hrow
    have hmem : entry.toPendingLedgerEntry ∈ markers position entries :=
      hclosing ▸ List.mem_map_of_mem hentry
    obtain ⟨cause, hcause, he⟩ := of_mem_markers hmem
    simp only [List.mem_cons, List.not_mem_nil, or_false] at hcause
    change entry.toPendingLedgerEntry.cause.isMarker = true
    rcases hcause with rfl | rfl <;> rw [he] <;> rfl
  · rw [← hclosing]
    simp [Stmt.ledgerRows, Function.comp_def]

/-- The markers behind some entries that are none. -/
theorem overLimitEntries_append (hown : ∀ row ∈ own, row.cause.isMarker = false)
    (hmarker : ∀ row ∈ marker, row.cause.isMarker = true) :
    overLimitEntries (rows ++ (own ++ marker)) = overLimitEntries rows ++ marker := by
  have hnone : own.filter (·.cause.isMarker) = [] :=
    List.filter_eq_nil_iff.mpr fun row hrow => by rw [hown row hrow]; simp
  have hall : marker.filter (·.cause.isMarker) = marker := List.filter_eq_self.mpr hmarker
  simp only [overLimitEntries, List.filter_append, hnone, hall, List.nil_append]

/-- A mark that is told is told by the cached columns. -/
theorem Marked.congr (h : Marked rows x) (he : y.cached = x.cached) : Marked rows y := by
  have hsince : y.overLimitSince = x.overLimitSince := by
    have hc : y.cached.overLimitSince = x.cached.overLimitSince := by rw [he]
    exact hc
  have hover : isOverLimit y = isOverLimit x := by
    have hc : isOverLimit y.cached = isOverLimit x.cached := by rw [he]
    exact hc
  exact ⟨by rw [hsince, hover]; exact h.mark, h.causes, by rw [hsince]; exact h.odd,
    by rw [hsince]; exact h.since⟩

/-- **An advance keeps its mark told**, with its entries behind the ledger. -/
theorem Marked.advance (h : Marked rows position)
    (hown : ∀ entry ∈ entries, entry.cause.isMarker = false) :
    Marked (rows ++ Stmt.ledgerRows p (advancePosition position entries now).entries now)
      (advancePosition position entries now).program := by
  obtain ⟨own, marker, hrows, hownRows, hmarkers, hmarker⟩ :=
    @ledgerRows_advance p position entries now hown
  have htold := @overLimitEntries_append rows own marker hownRows hmarkers
  have hmark := @advancePosition_mark position entries now
  rw [← hrows] at htold
  rcases @markers_cases position entries now with
    ⟨hnone, hsame⟩ | ⟨honset, hbefore, hafter⟩ | ⟨hcleared, hbefore, hafter⟩
  · -- no marker
    rw [hnone, List.map_nil, List.map_eq_nil_iff] at hmarker
    rw [hmarker, List.append_nil] at htold
    exact ⟨hmark, by rw [htold]; exact h.causes, by rw [htold, hsame]; exact h.odd,
      by rw [htold, hsame]; exact h.since⟩
  · -- an onset, where the mark was not set and the markers so far are even
    rw [honset, List.map_cons, List.map_nil, List.map_eq_singleton_iff] at hmarker
    obtain ⟨row, rfl, hrow⟩ := hmarker
    obtain ⟨hcause, hinstant⟩ := Prod.mk.inj hrow
    have hodd := h.odd
    rw [hbefore] at hodd
    have heven : ¬ (overLimitEntries rows).length % 2 = 1 := of_decide_eq_false hodd.symm
    refine ⟨hmark, ?_, ?_, fun t ht => ?_⟩
    · rw [htold, List.map_append, h.causes, List.length_append, List.length_singleton,
        alternating_succ, if_pos (by omega), List.map_singleton, hcause]
      rfl
    · rw [htold, hafter, List.length_append, List.length_singleton]
      have hnext : ((overLimitEntries rows).length + 1) % 2 = 1 := by omega
      simp [hnext]
    · rw [htold]
      rw [hafter] at ht
      simpa [hinstant] using ht
  · -- a clearing, where it was set and they are odd
    rw [hcleared, List.map_cons, List.map_nil, List.map_eq_singleton_iff] at hmarker
    obtain ⟨row, rfl, hrow⟩ := hmarker
    obtain ⟨hcause, hinstant⟩ := Prod.mk.inj hrow
    have hodd := h.odd
    rw [hbefore] at hodd
    have hodd : (overLimitEntries rows).length % 2 = 1 := of_decide_eq_true hodd.symm
    refine ⟨hmark, ?_, ?_, fun t ht => ?_⟩
    · rw [htold, List.map_append, h.causes, List.length_append, List.length_singleton,
        alternating_succ, if_neg (by omega), List.map_singleton, hcause]
      rfl
    · rw [htold, hafter, List.length_append, List.length_singleton]
      have hnext : ¬ ((overLimitEntries rows).length + 1) % 2 = 1 := by omega
      simp [hnext]
    · rw [hafter] at ht
      cases ht

/-- A new program is within its limit, and no marker says otherwise. -/
theorem marked_newProgram {organisationId : Uuid} {currency : String} :
    Marked [] (Stmt.newProgram p organisationId currency now).toProgramPosition :=
  ⟨rfl, rfl, rfl, fun t ht => by cases ht⟩

/-- The last marker says what the mark is. -/
theorem Marked.last (h : Marked rows position) {entry : CapacityLedgerEntryEntity}
    (hlast : (overLimitEntries rows).getLast? = some entry) : entry.cause =
      if position.overLimitSince.isSome then .overLimitOnset else .overLimitCleared := by
  obtain ⟨init, hinit⟩ := List.getLast?_eq_some_iff.mp hlast
  have hcauses := congrArg List.getLast? h.causes
  have hodd := h.odd
  rw [hinit, List.length_append, List.length_singleton] at hcauses hodd
  rw [alternating_succ, List.map_append, List.map_singleton, List.getLast?_concat,
    List.getLast?_concat, Option.some.injEq] at hcauses
  rw [hcauses, hodd]
  by_cases heven : init.length % 2 = 0
  · have hnext : (init.length + 1) % 2 = 1 := by omega
    simp [heven, hnext]
  · have hnext : ¬ (init.length + 1) % 2 = 1 := by omega
    simp [heven, hnext]

/-! ## Runs -/

/-- A program that does not exist yet, or was inserted with a position of
zero and no mark, and has neither a ledger nor a reservation. -/
structure FreshlyInserted (p : Uuid) (db : Db) : Prop where
  fresh : Fresh p db
  unmarked : ∀ program, db.program? p = some program → program.overLimitSince = none
  reservations : db.reservationsOf p = []

/-- What holds of a program's mark in every state of a run. -/
structure MarkTold (p : Uuid) (db : Db) : Prop where
  marked : ∀ program, db.program? p = some program →
    Marked (db.ledgerOf p) program.toProgramPosition
  explained : Explained p db
  filed : Filed (db.reservationsOf p)

theorem FreshlyInserted.markTold (h : FreshlyInserted p db) : MarkTold p db := by
  refine ⟨fun program hp => ?_, h.fresh.explained, by rw [h.reservations]; exact filed_nil⟩
  obtain ⟨hlocal, htreasury, hlimit, -⟩ := h.fresh.zero program hp
  have hmark := h.unmarked program hp
  rw [h.fresh.ledger]
  refine ⟨?_, rfl, by rw [hmark]; rfl, fun t ht => by rw [hmark] at ht; cases ht⟩
  simp [hmark, isOverLimit, totalReserved, hlocal, htreasury, hlimit]

variable [Sha256]

/-- **One change.** -/
theorem Change.markTold (hc : Change db db') (h : MarkTold p db) : MarkTold p db' := by
  refine ⟨?_, hc.explained h.explained, hc.filed h.filed⟩
  rcases hc.position p with hs | ⟨program, entries, now, rfl, ha, hown⟩
  · exact hs.tells (fun _ _ _ hcached hx => hx.congr hcached) h.marked
  · exact ha.tells (fun _ _ _ hcached hx => hx.congr hcached) (fun _ _ hx => hx.advance hown)
      (fun _ _ _ => marked_newProgram) h.explained.unborn h.marked

theorem MarkTold.run (h : MarkTold p db) (ops : List Operation) :
    MarkTold p (Operation.run ops db) :=
  run_induct (P := MarkTold p) (fun _ _ hc hs => hs.markTold hc) ops h

/-! ## One transaction -/

omit [Sha256] in
/-- A ledger that has grown by some entries, and at most one marker behind
them. -/
def GrownBy (rows rows' : List CapacityLedgerEntryEntity) : Prop :=
  ∃ own marker, rows' = rows ++ own ++ marker ∧ (∀ row ∈ own, row.cause.isMarker = false) ∧
    (∀ row ∈ marker, row.cause.isMarker = true) ∧ marker.length ≤ 1

omit [Sha256] in
theorem GrownBy.refl : GrownBy rows rows := ⟨[], [], by simp, by simp, by simp, by simp⟩

omit [Sha256] in
theorem Advanced.grownBy (h : Advanced db db' program entries now)
    (hown : ∀ entry ∈ entries, entry.cause.isMarker = false) :
    GrownBy (db.ledgerOf program.id) (db'.ledgerOf program.id) := by
  obtain ⟨own, marker, hrows, hownRows, hmarkers, hmarker⟩ :=
    @ledgerRows_advance program.id program.toProgramPosition entries now hown
  refine ⟨own, marker, by rw [h.ledger, hrows, List.append_assoc], hownRows, hmarkers, ?_⟩
  have hlength := congrArg List.length hmarker
  rw [List.length_map, List.length_map] at hlength
  rw [hlength]
  rcases @markers_cases program.toProgramPosition entries now with ⟨he, -⟩ | ⟨he, -⟩ | ⟨he, -⟩ <;>
    simp [he]

theorem Change.grownBy (hc : Change db db') : GrownBy (db.ledgerOf p) (db'.ledgerOf p) := by
  rcases hc.position p with hs | ⟨program, entries, now, rfl, ha, hown⟩
  · rw [hs.ledger]; exact GrownBy.refl
  · exact ha.grownBy hown

omit [Sha256] in
/-- A seed gives a program its limit once, and makes no reservation. -/
theorem runSeed_grownBy {seeds : List ProgramSeed} {u : Unit}
    (h : engine.run (runSeed now seeds) db = .ok (u, db')) :
    GrownBy (db.ledgerOf p) (db'.ledgerOf p) ∧
      (db.program? p ≠ none → db'.ledgerOf p = db.ledgerOf p) ∧
      db'.reservationsOf p = db.reservationsOf p := by
  refine runSeed_induct (motive := fun c => GrownBy (c.ledgerOf p) (db'.ledgerOf p) ∧
    (c.program? p ≠ none → db'.ledgerOf p = c.ledgerOf p) ∧
    db'.reservationsOf p = c.reservationsOf p) h ⟨GrownBy.refl, fun _ => rfl, rfl⟩ ?_
  intro c seed program hnew hnone hpersist hrest
  obtain ⟨hgrown, hkept, hrows⟩ := hrest
  have ha := seeded_position hnew hnone hpersist
  refine ⟨?_, fun hsome => ?_, hrows.trans (by simp [advanceWrites])⟩
  · by_cases hp : program.id = p
    · -- it exists now, so the other seeds leave it alone
      subst hp
      rw [hkept ha.born]
      exact ha.grownBy (List.forall_mem_singleton.mpr rfl)
    · rw [(ha.others p hp).ledger] at hgrown
      exact hgrown
  · have hp : program.id ≠ p := fun hp => hsome (hp ▸ hnone)
    have hstill := ha.others p hp
    rw [hkept fun hnone' => hsome (hstill.unborn hnone'), hstill.ledger]

/-- A reservation is created under a mark that is not set. -/
theorem Reserved.unmarked {rt : Runtime} {command : ReserveCommand} {reservedMinor : Int}
    {fx : Option FxRate} {outcome : WriteOutcome}
    (ha : Reserved rt command db program reservedMinor fx outcome db')
    (hp : db.program? program.id = some program) (h : MarkTold program.id db) :
    program.overLimitSince = none := by
  obtain ⟨resolution, -, hdecided⟩ := ha.resolved
  obtain ⟨-, hover, -⟩ := decideReservation_accepted hdecided
  have hmark := (h.marked program hp).mark
  rw [hover] at hmark
  exact Option.not_isSome_iff_eq_none.mp (by rw [hmark]; simp)

/-- **What one transaction does to a ledger and its mark.** -/
theorem MarkTold.transaction {op : Operation} {reply : Reply} (h : MarkTold p db)
    (hrun : engine.run op.tx db = .ok (reply, db')) :
    GrownBy (db.ledgerOf p) (db'.ledgerOf p) ∧
      ((∃ row ∈ db'.reservationsOf p, ∀ r ∈ db.reservationsOf p, r.id ≠ row.id) →
        ∃ program, db.program? p = some program ∧ program.overLimitSince = none) := by
  rcases op.change_or_seed hrun with hone | ⟨now, seeds, -, hseed⟩
  · cases hone with
    | refl => exact ⟨GrownBy.refl, fun ⟨row, hrow, hne⟩ => absurd rfl (hne row hrow)⟩
    | single hc =>
      refine ⟨hc.grownBy, fun ⟨row, hrow, hne⟩ => ?_⟩
      rcases hc.rewritten_or_reserved h.filed with
        ⟨f, hrows, hf, -⟩ | ⟨rt, command, program, reservedMinor, fx, outcome, rfl, hp, ha⟩
      · rw [hrows] at hrow
        obtain ⟨before, hbefore, rfl⟩ := List.mem_map.mp hrow
        exact absurd (hf before hbefore).id.symm (hne before hbefore)
      · exact ⟨program, hp, ha.unmarked hp h⟩
  · obtain ⟨hgrown, -, hrows⟩ := @runSeed_grownBy _ _ p _ _ _ hseed
    refine ⟨hgrown, fun ⟨row, hrow, hne⟩ => ?_⟩
    rw [hrows] at hrow
    exact absurd rfl (hne row hrow)

/-- **The mark tells the truth.** In every state of every run over a program
that was freshly inserted: the mark is set exactly where the total is above
the limit; it is null exactly where the ledger, which is in the order of its
sequences, has no marker or a clearing last, and else the instant of the
onset that is last; onsets and clearings alternate, an onset first. And
whatever transaction commits next writes its own entries and at most one
marker behind them, and creates a reservation only where the mark is null. -/
theorem mark_tells_truth (hstart : FreshlyInserted p db) (ops : List Operation) :
    let c := Operation.run ops db
    (∀ program, c.program? p = some program →
      (program.overLimitSince ≠ none ↔ program.creditLimitMinor <
        program.localReservedMinor + program.treasuryReservedMinor) ∧
      (program.overLimitSince = none ↔ ∀ entry,
        (overLimitEntries (c.ledgerOf p)).getLast? = some entry →
          entry.cause = .overLimitCleared) ∧
      ∀ since, program.overLimitSince = some since → ∃ entry,
        (overLimitEntries (c.ledgerOf p)).getLast? = some entry ∧
          entry.cause = .overLimitOnset ∧ entry.occurredAt = since) ∧
    (c.ledgerOf p).map (·.sequence) =
      (List.range (c.ledgerOf p).length).map (fun i : ℕ => (i : Int) + 1) ∧
    (overLimitEntries (c.ledgerOf p)).map (·.cause) =
      alternating (overLimitEntries (c.ledgerOf p)).length ∧
    ∀ (op : Operation) reply c', engine.run op.tx c = .ok (reply, c') →
      GrownBy (c.ledgerOf p) (c'.ledgerOf p) ∧
      ((∃ row ∈ c'.reservationsOf p, ∀ r ∈ c.reservationsOf p, r.id ≠ row.id) →
        ∃ program, c.program? p = some program ∧ program.overLimitSince = none) := by
  intro c
  have h : MarkTold p c := hstart.markTold.run ops
  have hcauses : (overLimitEntries (c.ledgerOf p)).map (·.cause) =
      alternating (overLimitEntries (c.ledgerOf p)).length ∧ (c.ledgerOf p).map (·.sequence) =
        (List.range (c.ledgerOf p).length).map (fun i : ℕ => (i : Int) + 1) := by
    cases hp : c.program? p with
    | none => rw [h.explained.unborn hp]; exact ⟨rfl, rfl⟩
    | some program =>
      exact ⟨(h.marked program hp).causes, (h.explained.position program hp).sequences⟩
  refine ⟨fun program hp => ?_, hcauses.2, hcauses.1, fun op reply c' hrun => h.transaction hrun⟩
  have hm := h.marked program hp
  -- the last marker is the onset that set the mark
  have honset : ∀ since, program.overLimitSince = some since → ∃ entry,
      (overLimitEntries (c.ledgerOf p)).getLast? = some entry ∧
        entry.cause = .overLimitOnset ∧ entry.occurredAt = since := by
    intro since hsince
    obtain ⟨entry, hentry, hinstant⟩ := Option.map_eq_some_iff.mp (hm.since since hsince)
    refine ⟨entry, hentry, ?_, hinstant⟩
    rw [hm.last hentry, hsince]
    rfl
  refine ⟨?_, ⟨fun hnull entry hentry => ?_, fun hcleared => ?_⟩, honset⟩
  · have hmark := hm.mark
    rw [← Option.isSome_iff_ne_none, hmark]
    simp [isOverLimit, totalReserved]
  · rw [hm.last hentry, hnull]
    rfl
  · cases hsince : program.overLimitSince with
    | none => rfl
    | some since =>
      obtain ⟨entry, hentry, hcause, -⟩ := honset since hsince
      have hother := hcleared entry hentry
      rw [hcause] at hother
      cases hother

end InvoiceReservation

namespace InvoiceReservation

attribute [local instance] trafficSha256

/-- The seed and a reserve, then a limit that is just enough and a booking
on top of it. -/
def overLimitTraffic : List Operation :=
  reservedTraffic ++
    [.event (callAt 2) (capacityEvent "evt-00001" 1 .limitChanged 100)
      (coordinatesAt "treasury.capacity.events" 0),
    .event (callAt 3) (capacityEvent "evt-00002" 2 .reservationBooked 100)
      (coordinatesAt "treasury.capacity.events" 1)]

theorem mark_tells_truth_overLimitTraffic : ∃ program entry,
    (Operation.run overLimitTraffic migrated).program? (Uuid.ofText northwindUsdProgramId) =
      some program ∧ program.overLimitSince = some 3000 ∧
    (overLimitEntries ((Operation.run overLimitTraffic migrated).ledgerOf
      (Uuid.ofText northwindUsdProgramId))).getLast? = some entry ∧
    entry.cause = .overLimitOnset ∧ entry.occurredAt = 3000 := by
  have hstart : FreshlyInserted (Uuid.ofText northwindUsdProgramId) migrated :=
    ⟨⟨rfl, fun program h => by cases h⟩, (fun program h => by cases h), rfl⟩
  have hmark : ((Operation.run overLimitTraffic migrated).program?
      (Uuid.ofText northwindUsdProgramId)).map (·.overLimitSince) = some (some 3000) := by
    rw [overLimitTraffic, reservedTraffic, List.cons_append, run_seed]
    decide +kernel
  obtain ⟨program, hp, hsince⟩ := Option.map_eq_some_iff.mp hmark
  obtain ⟨entry, hentry, hcause, hinstant⟩ :=
    ((mark_tells_truth hstart overLimitTraffic).1 program hp).2.2 3000 hsince
  exact ⟨program, entry, hp, hsince, hentry, hcause, hinstant⟩

end InvoiceReservation
