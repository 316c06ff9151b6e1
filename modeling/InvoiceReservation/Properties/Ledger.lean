import InvoiceReservation.Helpers.Positions
import InvoiceReservation.Model.Seed
/-!
# The ledger is the position

A program's cached components are the sums of its ledger, its sequences
are `1 … n`, and its next one is `n + 1`, in every committed state of
every run. The ledger is only ever added to.
-/

namespace InvoiceReservation

open Transactions

variable {db db' : Db} {p : Uuid} {program : ProgramEntity}

/-- The sum of `delta_minor` over the rows of one component. -/
def ledgerSum (c : PositionComponent) (rows : List CapacityLedgerEntryEntity) : Int :=
  ((rows.filter (·.component = c)).map (·.deltaMinor)).sum

theorem ledgerSum_append {c : PositionComponent} {xs ys : List CapacityLedgerEntryEntity} :
    ledgerSum c (xs ++ ys) = ledgerSum c xs + ledgerSum c ys := by
  simp [ledgerSum, List.filter_append]

theorem ledgerSum_ledgerRows {c : PositionComponent} {entries : List SequencedLedgerEntry}
    {now : Timestamp} : ledgerSum c (Stmt.ledgerRows p entries now) =
      componentSum c (entries.map (·.toPendingLedgerEntry)) := by
  simp [ledgerSum, componentSum, Stmt.ledgerRows, List.filter_map, Function.comp_def]

/-- **A ledger that explains a position.** -/
structure Explains (rows : List CapacityLedgerEntryEntity) (position : ProgramPosition) :
    Prop where
  localSum : position.localReservedMinor = ledgerSum .local rows
  treasurySum : position.treasuryReservedMinor = ledgerSum .treasury rows
  limitSum : position.creditLimitMinor = ledgerSum .limit rows
  sequences : rows.map (·.sequence) = (List.range rows.length).map fun i : ℕ => (i : Int) + 1
  next : position.nextSequence = rows.length + 1

/-- A program that does not exist yet and has no ledger, or was inserted
with a position of zero and has none. -/
structure Fresh (p : Uuid) (db : Db) : Prop where
  ledger : db.ledgerOf p = []
  zero : ∀ program, db.program? p = some program →
    program.localReservedMinor = 0 ∧ program.treasuryReservedMinor = 0 ∧
      program.creditLimitMinor = 0 ∧ program.nextSequence = 1

/-- A program's ledger explains its position, and is empty before it has one. -/
structure Explained (p : Uuid) (db : Db) : Prop where
  position : ∀ program, db.program? p = some program →
    Explains (db.ledgerOf p) program.toProgramPosition
  unborn : db.program? p = none → db.ledgerOf p = []

/-- A ledger that explains a position is in the order of its sequences. -/
theorem Explained.sorted (h : Explained p db) :
    (db.ledgerOf p).Pairwise fun x y => x.sequence < y.sequence := by
  cases hp : db.program? p with
  | none => rw [h.unborn hp]; exact List.Pairwise.nil
  | some program =>
    have hsequences := (h.position program hp).sequences
    have hsorted : ((db.ledgerOf p).map (·.sequence)).Pairwise (· < ·) := by
      rw [hsequences]
      refine List.pairwise_map.mpr (List.pairwise_lt_range.imp ?_)
      intro i j hij
      omega
    exact List.pairwise_map.mp hsorted

/-! ## Steps -/

theorem Explains.component {rows : List CapacityLedgerEntryEntity} {position : ProgramPosition}
    (h : Explains rows position) (c : PositionComponent) :
    position.component c = ledgerSum c rows := by
  cases c with
  | «local» => exact h.localSum
  | treasury => exact h.treasurySum
  | limit => exact h.limitSum

/-- What a ledger explains is told by the cached columns. -/
theorem Explains.congr {rows : List CapacityLedgerEntryEntity} {x y : ProgramPosition}
    (h : Explains rows x) (he : y.cached = x.cached) : Explains rows y := by
  have hc : ∀ c, y.component c = x.component c := fun c => by
    rw [← cached_component, he, cached_component]
  have hn : y.cached.nextSequence = x.cached.nextSequence := by rw [he]
  exact ⟨(hc .local).trans h.localSum, (hc .treasury).trans h.treasurySum,
    (hc .limit).trans h.limitSum, h.sequences, hn.trans h.next⟩

/-- **A ledger that explains a position explains an advance of it**, with
the entries of the advance. -/
theorem Explains.advance {rows : List CapacityLedgerEntryEntity} {position : ProgramPosition}
    {entries : List PendingLedgerEntry} {now : Timestamp} (h : Explains rows position) :
    Explains (rows ++ Stmt.ledgerRows p (advancePosition position entries now).entries now)
      (advancePosition position entries now).program := by
  have ha : Advances position (advancePosition position entries now) := advances_advancePosition
  have hc : ∀ c, (advancePosition position entries now).program.component c = ledgerSum c
      (rows ++ Stmt.ledgerRows p (advancePosition position entries now).entries now) := fun c => by
    rw [ledgerSum_append, ledgerSum_ledgerRows, ha.component c, h.component c]
  have hlength : (Stmt.ledgerRows p (advancePosition position entries now).entries now).length =
      (advancePosition position entries now).entries.length := List.length_map _
  have hsequences : (Stmt.ledgerRows p (advancePosition position entries now).entries now).map
      (·.sequence) = (advancePosition position entries now).entries.map (·.sequence) := by
    simp [Stmt.ledgerRows]
  refine ⟨hc .local, hc .treasury, hc .limit, ?_, ?_⟩
  · rw [List.map_append, h.sequences, hsequences, ha.sequences, List.length_append, hlength,
      List.range_add, List.map_append, List.map_map, h.next]
    congr 1
    refine List.map_congr_left fun i _ => ?_
    simp only [Function.comp_apply]
    omega
  · rw [ha.next, h.next, List.length_append, hlength]
    omega

/-- A new program is explained by an empty ledger. -/
theorem explains_newProgram {organisationId : Uuid} {currency : String} {now : Timestamp} :
    Explains [] (Stmt.newProgram p organisationId currency now).toProgramPosition :=
  ⟨rfl, rfl, rfl, rfl, rfl⟩

theorem Fresh.explained (h : Fresh p db) : Explained p db := by
  refine ⟨fun program hp => ?_, fun _ => h.ledger⟩
  obtain ⟨hl, ht, hc, hn⟩ := h.zero program hp
  rw [h.ledger]
  exact ⟨hl, ht, hc, rfl, hn⟩

theorem Still.explained (h : Still p db db') (he : Explained p db) : Explained p db' :=
  ⟨h.tells (fun _ _ _ hcached hx => hx.congr hcached) he.position,
    fun hnone => h.ledger.trans (he.unborn (h.unborn hnone))⟩

theorem Advanced.explained {entries : List PendingLedgerEntry} {now : Timestamp}
    (h : Advanced db db' program entries now) (he : Explained program.id db) :
    Explained program.id db' :=
  ⟨h.tells (fun _ _ _ hcached hx => hx.congr hcached) (fun _ _ hx => hx.advance)
    (fun _ _ _ => explains_newProgram) he.unborn he.position, fun hnone => absurd hnone h.born⟩

/-- **One change.** -/
theorem Change.explained [Sha256] (h : Change db db') (he : Explained p db) : Explained p db' := by
  rcases h.position p with hs | ⟨_, _, _, rfl, ha, -⟩
  · exact hs.explained he
  · exact ha.explained he

/-- A change only adds to a ledger. -/
theorem Change.ledger_prefix [Sha256] (h : Change db db') : db.ledgerOf p <+: db'.ledgerOf p := by
  rcases h.position p with hs | ⟨_, _, _, rfl, ha, -⟩
  · exact hs.ledger ▸ List.prefix_refl _
  · rw [ha.ledger]; exact List.prefix_append _ _

/-! ## Runs -/

variable [Sha256]

theorem Explained.run (h : Explained p db) (ops : List Operation) :
    Explained p (Operation.run ops db) :=
  run_induct (fun _ _ hc hs => hs.explained hc) ops h

/-- A run only adds to a ledger. -/
theorem ledger_prefix_run (ops : List Operation) :
    db.ledgerOf p <+: (Operation.run ops db).ledgerOf p :=
  run_induct (P := fun c => db.ledgerOf p <+: c.ledgerOf p)
    (fun _ _ hc hs => hc.trans hs.ledger_prefix) ops (List.prefix_refl _)

/-- **The ledger is the position.** After any run over a program that
started fresh, the ledger explains the position; and whatever runs after
that leaves every entry where it was. -/
theorem ledger_explains_position (hfresh : Fresh p db) (ops later : List Operation) :
    (∀ program, (Operation.run ops db).program? p = some program →
      Explains ((Operation.run ops db).ledgerOf p) program.toProgramPosition) ∧
    (Operation.run ops db).ledgerOf p <+: (Operation.run (ops ++ later) db).ledgerOf p := by
  refine ⟨(hfresh.explained.run ops).position, ?_⟩
  rw [Operation.run, Operation.run, serial_append]
  exact ledger_prefix_run later

end InvoiceReservation

namespace InvoiceReservation

attribute [local instance] trafficSha256

/-- The seed, a reserve and a booking of treasury's. -/
def mixedTraffic : List Operation :=
  [.seed 0 programs, .reserve (callAt 1) (reserveCommand "req-00001" "INV-1" 100),
    .event (callAt 2) (capacityEvent "evt-00001" 1 .reservationBooked 100)
      (coordinatesAt "treasury.capacity.events" 0)]

theorem ledger_explains_mixedTraffic :
    ((Operation.run mixedTraffic migrated).ledgerOf (Uuid.ofText northwindUsdProgramId)).length =
      3 ∧
    ∀ program, (Operation.run mixedTraffic migrated).program? (Uuid.ofText northwindUsdProgramId) =
        some program →
      Explains ((Operation.run mixedTraffic migrated).ledgerOf (Uuid.ofText northwindUsdProgramId))
        program.toProgramPosition := by
  have hfresh : Fresh (Uuid.ofText northwindUsdProgramId) migrated :=
    ⟨rfl, fun program h => by cases h⟩
  refine ⟨?_, (ledger_explains_position hfresh mixedTraffic []).1⟩
  rw [mixedTraffic, run_seed]
  decide +kernel

end InvoiceReservation
