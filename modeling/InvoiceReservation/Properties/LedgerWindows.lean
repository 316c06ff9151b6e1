import InvoiceReservation.Properties.LedgerPages
/-!
# Windows of the ledger

A window is published to hold its lower bound and not its upper one. The
statement compares `occurred_at <= to`, so it holds both: two windows that
meet give all that the whole of them gives, and what happened at the
instant where they meet, they both give.
-/

namespace InvoiceReservation

open Paging

variable {db : Db} {programId : String} {program : ProgramEntity} {cause : Option LedgerCause}
variable {a b c : Timestamp} {row : CapacityLedgerEntryEntity}

/-- A window of time, under a filter of causes or none. -/
def window (cause : Option LedgerCause) (a b : Timestamp) : ListLedgerQuery :=
  { from? := some (some a), to? := some (some b), cause := cause }

/-- The `k`-th request for a window of a database that stays. -/
def windowRequest (other : Json → Except SqlError (Option Int)) (db : Db) (programId : String)
    (query : ListLedgerQuery) (limit : ℕ → Option ℕ) (k : ℕ) (cursor : Option String) :
    Except ReadError (Page String LedgerEntryBody) :=
  listLedger other db db programId
    { query with cursor := cursor, limit := (limit k).map fun n : ℕ => .finite n }

/-- The entries of a window, the newest first. -/
def windowEntries (db : Db) (programId : String) (cause : Option LedgerCause) (a b : Timestamp) :
    List CapacityLedgerEntryEntity :=
  descending (·.sequence) ((window cause a b).matching (Uuid.ofText programId) db)

theorem window_dated (ha : inTimestamptz a = true) (hb : inTimestamptz b = true) :
    (window cause a b).Dated :=
  List.forall_mem_cons.mpr ⟨ha, List.forall_mem_singleton.mpr hb⟩

theorem mem_windowEntries : row ∈ windowEntries db programId cause a b ↔
    row ∈ db.ledgerOf (Uuid.ofText programId) ∧ (a ≤ row.occurredAt ∧ row.occurredAt ≤ b) ∧
      cause.all (row.cause = ·) = true := by
  rw [windowEntries, descending_perm.mem_iff, ListLedgerQuery.matching, List.mem_filter]
  simp [window, ListLedgerQuery.selects]

/-- **A window is read to its end**, whatever the limits of its pages. -/
theorem window_pages {other : Json → Except SqlError (Option Int)}
    (hprogram : db.program? (Uuid.ofText programId) = some program)
    (htable : Table.Keyed (·.sequence) (fun row => inBigint row.sequence = true)
      (db.ledgerOf (Uuid.ofText programId)))
    (ha : inTimestamptz a = true) (hb : inTimestamptz b = true) {limit : ℕ → Option ℕ}
    (hlimit : ∀ k, ∀ n ∈ limit k, 1 ≤ n ∧ n ≤ ledgerMaxLimit) {items : List LedgerEntryBody} :
    Follows (windowRequest other db programId (window cause a b) limit) 0 none items ↔
      items = (windowEntries db programId cause a b).map (toLedgerEntryBody program.currency) := by
  have hkeys : (((window cause a b).matching (Uuid.ofText programId) db).map (·.sequence)).Nodup :=
    htable.keys.sublist (List.filter_sublist.map _)
  have hone : ∀ k, 1 ≤ (limit k).getD ledgerDefaultLimit := fun k =>
    one_le_getD (by decide) (hlimit k)
  have hcurrency : programCurrency programId db = .ok program.currency := by
    rw [programCurrency, hprogram]
  have hread : Pages (fun row : CapacityLedgerEntryEntity => inBigint row.sequence = true)
      (·.sequence) (fun n : Int => encodeCursor [("sequence", toString n)])
      (toLedgerEntryBody program.currency) (fun k => (limit k).getD ledgerDefaultLimit)
      (fun _ => (window cause a b).matching (Uuid.ofText programId) db)
      (windowRequest other db programId (window cause a b) limit) := by
    intro k cursor hcursor
    have hbigint : ∀ n, cursor = some n → inBigint n = true := by
      intro n hn
      obtain ⟨row, -, hbigint, rfl⟩ := hcursor n hn
      exact hbigint
    rw [windowRequest, listLedger_below (window_dated ha hb) (hlimit k) hcurrency hbigint]
    cases cursor <;> rfl
  exact follows_fixed_iff hkeys hone hread
    fun row hrow => htable.rows row (List.mem_filter.mp hrow).1

/-- Where nothing happened at the instant two windows share, they take the
entries of both apart. -/
theorem windowEntries_perm (hab : a ≤ b) (hbc : b ≤ c)
    (hfree : ∀ row ∈ db.ledgerOf (Uuid.ofText programId), cause.all (row.cause = ·) = true →
      row.occurredAt ≠ b) :
    (windowEntries db programId cause a b ++ windowEntries db programId cause b c).Perm
      (windowEntries db programId cause a c) := by
  set rows := db.ledgerOf (Uuid.ofText programId) with hrows
  have hfirst : ((window cause a c).matching (Uuid.ofText programId) db).filter
      (·.occurredAt ≤ b) = (window cause a b).matching (Uuid.ofText programId) db := by
    rw [ListLedgerQuery.matching, ListLedgerQuery.matching, List.filter_filter]
    refine List.filter_congr fun row _ => ?_
    rw [Bool.eq_iff_iff]
    simp only [window, ListLedgerQuery.selects, Option.all_some, Option.any_some,
      Bool.and_eq_true,
      decide_eq_true_eq]
    constructor
    · rintro ⟨hle, ⟨ha, -⟩, hcause⟩
      exact ⟨⟨ha, hle⟩, hcause⟩
    · rintro ⟨⟨ha, hle⟩, hcause⟩
      exact ⟨hle, ⟨ha, hle.trans hbc⟩, hcause⟩
  have hsecond : ((window cause a c).matching (Uuid.ofText programId) db).filter
      (fun row => !decide (row.occurredAt ≤ b)) =
        (window cause b c).matching (Uuid.ofText programId) db := by
    rw [ListLedgerQuery.matching, ListLedgerQuery.matching, List.filter_filter]
    refine List.filter_congr fun row hrow => ?_
    have hne := hfree row hrow
    rw [Bool.eq_iff_iff]
    simp only [window, ListLedgerQuery.selects, Option.all_some, Option.any_some,
      Bool.and_eq_true,
      Bool.not_eq_true', decide_eq_false_iff_not, decide_eq_true_eq, not_le]
    constructor
    · rintro ⟨hlt, ⟨-, hc⟩, hcause⟩
      exact ⟨⟨hlt.le, hc⟩, hcause⟩
    · rintro ⟨⟨hb, hc⟩, hcause⟩
      exact ⟨lt_of_le_of_ne hb (hne hcause).symm, ⟨hab.trans hb, hc⟩, hcause⟩
  have hsplit := List.filter_append_perm (fun row : CapacityLedgerEntryEntity =>
    decide (row.occurredAt ≤ b)) ((window cause a c).matching (Uuid.ofText programId) db)
  rw [hfirst, hsecond] at hsplit
  exact (descending_perm.append descending_perm).trans (hsplit.trans descending_perm.symm)

/-- **Windows that meet partition the ledger exactly where nothing happened
at the instant they meet at.** Each is read to its end, of instants that the
database can hold; together they give
what the window over both gives, and no entry twice, unless an entry that
the filter takes occurred then. -/
theorem windows_partition_iff {other : Json → Except SqlError (Option Int)}
    (hprogram : db.program? (Uuid.ofText programId) = some program)
    (htable : Table.Keyed (·.sequence) (fun row => inBigint row.sequence = true)
      (db.ledgerOf (Uuid.ofText programId))) (cause : Option LedgerCause) :
    (∀ (a b : Timestamp) (limit : ℕ → Option ℕ), inTimestamptz a = true → inTimestamptz b = true →
      (∀ k, ∀ n ∈ limit k, 1 ≤ n ∧ n ≤ ledgerMaxLimit) → ∀ items,
        Follows (windowRequest other db programId (window cause a b) limit) 0 none items ↔
          items = (windowEntries db programId cause a b).map
            (toLedgerEntryBody program.currency)) ∧
    ∀ a b c : Timestamp, a ≤ b → b ≤ c →
      let first := windowEntries db programId cause a b
      let second := windowEntries db programId cause b c
      let whole := windowEntries db programId cause a c
      (first.Disjoint second ∧ (∀ row, row ∈ whole ↔ row ∈ first ∨ row ∈ second) ∧
        ∀ component, ledgerSum component first + ledgerSum component second =
          ledgerSum component whole) ↔
      ∀ row ∈ db.ledgerOf (Uuid.ofText programId), cause.all (row.cause = ·) = true →
        row.occurredAt ≠ b := by
  refine ⟨fun a b limit ha hb hlimit items => window_pages hprogram htable ha hb hlimit,
    fun a b c hab hbc => ?_⟩
  dsimp only
  constructor
  · rintro ⟨hdisjoint, -, -⟩ row hrow hcause rfl
    exact hdisjoint (mem_windowEntries.mpr ⟨hrow, ⟨hab, le_refl _⟩, hcause⟩)
      (mem_windowEntries.mpr ⟨hrow, ⟨le_refl _, hbc⟩, hcause⟩)
  · intro hfree
    have hperm := windowEntries_perm hab hbc hfree
    refine ⟨fun row hfirst hsecond => ?_, fun row => ?_, fun component => ?_⟩
    · obtain ⟨hrow, ⟨-, hle⟩, hcause⟩ := mem_windowEntries.mp hfirst
      obtain ⟨-, ⟨hge, -⟩, -⟩ := mem_windowEntries.mp hsecond
      exact hfree row hrow hcause (le_antisymm hle hge)
    · rw [← hperm.mem_iff, List.mem_append]
    · rw [← ledgerSum_append]
      exact ((hperm.filter _).map _).sum_eq

end InvoiceReservation

namespace InvoiceReservation

open Paging

attribute [local instance] trafficSha256

/-- What the reserve of the first instant writes lies on either side of it. -/
theorem mixedTraffic_first : ∃ row,
    row ∈ windowEntries (Operation.run mixedTraffic migrated) northwindUsdProgramId none 0 1000 ∧
      row ∈ windowEntries (Operation.run mixedTraffic migrated) northwindUsdProgramId none 1000
        2000 := by
  obtain ⟨row, hrow, hat⟩ : ∃ row ∈ (Operation.run mixedTraffic migrated).ledgerOf
      (Uuid.ofText northwindUsdProgramId), row.occurredAt = 1000 := by
    rw [mixedTraffic, run_seed]
    decide +kernel
  refine ⟨row, mem_windowEntries.mpr ⟨hrow, ?_, rfl⟩, mem_windowEntries.mpr ⟨hrow, ?_, rfl⟩⟩
  · rw [hat]
    decide
  · rw [hat]
    decide

theorem mixedTraffic_program : ∃ program, (Operation.run mixedTraffic migrated).program?
    (Uuid.ofText northwindUsdProgramId) = some program :=
  Option.isSome_iff_exists.mp <| by
    rw [mixedTraffic, run_seed]
    decide +kernel

theorem mixedTraffic_table : Table.Keyed (·.sequence) (fun row => inBigint row.sequence = true)
    ((Operation.run mixedTraffic migrated).ledgerOf (Uuid.ofText northwindUsdProgramId)) := by
  rw [mixedTraffic, run_seed]
  exact ⟨by decide +kernel, by decide +kernel⟩

/-- Two windows that meet there, read to their ends, both give it. -/
theorem windows_share_their_boundary : ∃ first second item,
    Follows (windowRequest (fun _ => .error ⟨"22P02", "invalid input syntax"⟩)
      (Operation.run mixedTraffic migrated) northwindUsdProgramId (window none 0 1000)
        fun _ => none) 0 none first ∧
    Follows (windowRequest (fun _ => .error ⟨"22P02", "invalid input syntax"⟩)
      (Operation.run mixedTraffic migrated) northwindUsdProgramId (window none 1000 2000)
        fun _ => none) 0 none second ∧
    item ∈ first ∧ item ∈ second := by
  obtain ⟨program, hprogram⟩ := mixedTraffic_program
  obtain ⟨row, hfirst, hsecond⟩ := mixedTraffic_first
  exact ⟨_, _, toLedgerEntryBody program.currency row,
    (window_pages hprogram mixedTraffic_table (by decide) (by decide) (by simp)).mpr rfl,
    (window_pages hprogram mixedTraffic_table (by decide) (by decide) (by simp)).mpr rfl,
    List.mem_map_of_mem hfirst, List.mem_map_of_mem hsecond⟩

theorem windows_partition_iff_mixedTraffic :
    let db := Operation.run mixedTraffic migrated
    ¬ (∀ row ∈ db.ledgerOf (Uuid.ofText northwindUsdProgramId),
      (none : Option LedgerCause).all (row.cause = ·) = true → row.occurredAt ≠ 1000) ∧
    ∃ program, db.program? (Uuid.ofText northwindUsdProgramId) = some program ∧
      ∀ items, Follows (windowRequest (fun _ => .error ⟨"22P02", "invalid input syntax"⟩) db
        northwindUsdProgramId (window none 0 2000) fun _ => some 2) 0 none items ↔
          items = (windowEntries db northwindUsdProgramId none 0 2000).map
            (toLedgerEntryBody program.currency) := by
  obtain ⟨program, hprogram⟩ := mixedTraffic_program
  have hpartition := @windows_partition_iff _ _ _
    (fun _ => .error ⟨"22P02", "invalid input syntax"⟩)
    hprogram mixedTraffic_table none
  have hlimit : ∀ (_ : ℕ), ∀ n ∈ some 2, 1 ≤ n ∧ n ≤ ledgerMaxLimit := by
    rintro _ n ⟨⟩
    unfold ledgerMaxLimit
    omega
  refine ⟨fun hfree => ?_, program, hprogram,
    hpartition.1 0 2000 (fun _ => some 2) (by decide) (by decide) hlimit⟩
  obtain ⟨hdisjoint, -⟩ := (hpartition.2 0 1000 2000 (by decide) (by decide)).mpr hfree
  obtain ⟨row, hfirst, hsecond⟩ := mixedTraffic_first
  exact hdisjoint hfirst hsecond

end InvoiceReservation
