import InvoiceReservation.Helpers.Cursors
import InvoiceReservation.Properties.Concurrency
import InvoiceReservation.Properties.Ledger
/-!
# An auditor reads the whole ledger

Writes are committed between the two statements of a page and between
pages. Following the cursors still ends, with every entry that the first
page's rows were read from, each once and the newest first, and their
amounts are the position that was committed then.
-/

namespace InvoiceReservation

open Paging

variable {db db' : Db} {p : Uuid}

/-! ## What stays of a program -/

/-- A change leaves a program its currency. -/
theorem Change.currency [Sha256] (h : Change db db') {program : ProgramEntity}
    (hp : db.program? p = some program) :
    ∃ program', db'.program? p = some program' ∧ program'.currency = program.currency := by
  rcases h.position p with hs | ⟨advanced, entries, now, rfl, ha, -⟩
  · have hposition := hs.position
    rw [hp, Option.map_some] at hposition
    obtain ⟨program', hp', hcached⟩ := Option.map_eq_some_iff.mp hposition
    exact ⟨program', hp', congrArg (·.currency) hcached⟩
  · obtain ⟨program', hp', hcached⟩ := Option.map_eq_some_iff.mp ha.after
    rcases ha.before with hbefore | ⟨hnone, -⟩
    · rw [hp, Option.some.injEq] at hbefore
      refine ⟨program', hp', (congrArg (·.currency) hcached).trans ?_⟩
      rw [hbefore]
      exact advances_advancePosition.currency
    · rw [hp] at hnone
      cases hnone

/-- And so does any run. -/
theorem Onward.currency [Sha256] (h : Onward db db') {program : ProgramEntity}
    (hp : db.program? p = some program) :
    ∃ program', db'.program? p = some program' ∧ program'.currency = program.currency := by
  refine h.induct (P := fun c => ∃ program', c.program? p = some program' ∧
    program'.currency = program.currency) ?_ ⟨program, hp, rfl⟩
  intro c c' hc hchange
  obtain ⟨program', hp', hcurrency⟩ := hc
  obtain ⟨program'', hp'', hcurrency'⟩ := hchange.currency hp'
  exact ⟨program'', hp'', hcurrency'.trans hcurrency⟩

theorem Onward.explained [Sha256] (h : Onward db db') (he : Explained p db) : Explained p db' :=
  h.induct (P := Explained p) (fun _ _ hc hchange => hchange.explained hc) he

theorem Onward.ledger_prefix [Sha256] (h : Onward db db') : db.ledgerOf p <+: db'.ledgerOf p :=
  h.induct (P := fun c => db.ledgerOf p <+: c.ledgerOf p)
    (fun _ _ hc hchange => hc.trans hchange.ledger_prefix) (List.prefix_refl _)

/-! ## The requests of an auditor -/

/-- The states that the statements of an auditor's requests read. -/
structure PageReads [Sha256] (db : Db) where
  currencyDb : ℕ → Db
  rowsDb : ℕ → Db
  first : Onward db (currencyDb 0)
  between : ∀ k, Onward (currencyDb k) (rowsDb k)
  next : ∀ k, Onward (rowsDb k) (currencyDb (k + 1))

/-- What a program's ledger holds that a query's filters select. -/
def ListLedgerQuery.matching (query : ListLedgerQuery) (p : Uuid) (db : Db) :
    List CapacityLedgerEntryEntity :=
  (db.ledgerOf p).filter query.selects

/-- The amounts of one component, of the items of pages. -/
def amountsOf (c : PositionComponent) (items : List LedgerEntryBody) : Int :=
  ((items.filter (·.component = c)).map (·.delta.amountMinor)).sum

theorem amountsOf_reverse {c : PositionComponent} {currency : String}
    {rows : List CapacityLedgerEntryEntity} :
    amountsOf c (rows.reverse.map (toLedgerEntryBody currency)) = ledgerSum c rows := by
  unfold amountsOf ledgerSum
  rw [List.filter_map, List.filter_reverse, List.map_map, List.map_reverse, List.sum_reverse]
  rfl

/-- A request that comes to its rows is answered with their page. -/
theorem listLedger_page {other : Json → Except SqlError (Option Int)} {currencyDb rowsDb : Db}
    {programId currency : String} {query : ListLedgerQuery} {limit : ℕ}
    {below : Option (Option Int)}
    (hlimit : boundLimit query.limit ledgerDefaultLimit ledgerMaxLimit = .ok limit)
    (hcurrency : programCurrency programId currencyDb = .ok currency)
    (hbelow : query.sequence >>= query.below other = .ok below) :
    listLedger other currencyDb rowsDb programId query =
      .ok (page limit ledgerCursor (toLedgerEntryBody currency)
        (selectLedger programId query below limit rowsDb)) := by
  obtain ⟨sequence, hsequence, hcursor⟩ : ∃ sequence, query.sequence = .ok sequence ∧
      query.below other sequence = .ok below := by
    cases hs : query.sequence with
    | error e => simp [hs, bind, Except.bind] at hbelow
    | ok sequence => exact ⟨sequence, rfl, by simpa [hs, bind, Except.bind] using hbelow⟩
  simp only [listLedger, hlimit, hcurrency, hsequence, hcursor, bind, Except.bind, pure,
    Except.pure]

/-- A request at the cursor of a sequence, or at none, comes to the rows below. -/
theorem listLedger_below {other : Json → Except SqlError (Option Int)} {currencyDb rowsDb : Db}
    {programId currency : String} {filter : ListLedgerQuery} {limit : Option ℕ}
    {cursor : Option Int} (hdates : filter.Dated)
    (hlimit : ∀ n ∈ limit, 1 ≤ n ∧ n ≤ ledgerMaxLimit)
    (hcurrency : programCurrency programId currencyDb = .ok currency)
    (hcursor : ∀ n, cursor = some n → inBigint n = true) :
    listLedger other currencyDb rowsDb programId
      { filter with
        cursor := cursor.map fun n : Int => encodeCursor [("sequence", toString n)]
        limit := limit.map fun n : ℕ => .finite n } =
      .ok (page (limit.getD ledgerDefaultLimit) ledgerCursor (toLedgerEntryBody currency)
        (selectLedger programId
          { filter with
            cursor := cursor.map fun n : Int => encodeCursor [("sequence", toString n)]
            limit := limit.map fun n : ℕ => .finite n }
          (cursor.map some) (limit.getD ledgerDefaultLimit) rowsDb)) := by
  refine listLedger_page (boundLimit_ok hlimit) hcurrency ?_
  cases cursor with
  | none => exact @below_none other _ hdates
  | some n => exact below_ledgerCursor hdates rfl (hcursor n rfl)

/-- A row whose sequence fits its column. -/
def CapacityLedgerEntryEntity.Fits (row : CapacityLedgerEntryEntity) : Prop :=
  0 ≤ row.sequence ∧ inBigint row.sequence = true

/-- What a ledger that explains a position holds fits, where the next
sequence does. -/
theorem Explains.fits {rows : List CapacityLedgerEntryEntity} {position : ProgramPosition}
    (h : Explains rows position) (hnext : inBigint position.nextSequence = true)
    {row : CapacityLedgerEntryEntity} (hrow : row ∈ rows) : row.Fits := by
  have hmem : row.sequence ∈ rows.map (·.sequence) := List.mem_map_of_mem hrow
  rw [h.sequences] at hmem
  obtain ⟨i, hi, hsequence⟩ := List.mem_map.mp hmem
  have hlt := List.mem_range.mp hi
  have hlength := h.next
  have hmin : bigintMin ≤ 0 := by decide
  unfold inBigint at hnext
  simp only [Bool.and_eq_true, decide_eq_true_eq] at hnext
  refine ⟨by omega, ?_⟩
  unfold inBigint
  simp only [Bool.and_eq_true, decide_eq_true_eq]
  omega

namespace PageReads

variable [Sha256] (reads : PageReads db) (other : Json → Except SqlError (Option Int))

/-- The `k`-th request: a filter that stays, a cursor, and a limit or none. -/
def request (programId : String) (filter : ListLedgerQuery) (limit : ℕ → Option ℕ) (k : ℕ)
    (cursor : Option String) : Except ReadError (Page String LedgerEntryBody) :=
  listLedger other (reads.currencyDb k) (reads.rowsDb k) programId
    { filter with cursor := cursor, limit := (limit k).map fun n : ℕ => .finite n }

variable {reads}

theorem onward (k : ℕ) : Onward (reads.currencyDb 0) (reads.currencyDb k) := by
  induction k with
  | zero => exact .start
  | succ k ih => exact (ih.trans (reads.between k)).trans (reads.next k)

/-- The rows that are read grow behind their newest. -/
theorem growing (he : Explained p db) (filter : ListLedgerQuery) :
    Growing (·.sequence) fun k => filter.matching p (reads.rowsDb k) where
  grows k := List.IsPrefix.filter _
    (Onward.ledger_prefix ((reads.next k).trans (reads.between (k + 1))))
  ascending k := by
    have hrows := ((reads.first.trans (onward k)).trans (reads.between k)).explained he
    exact hrows.sorted.filter _

/-- **Every request is answered with the page below its cursor.** -/
theorem pages {programId : String} {program : ProgramEntity}
    (hprogram : (reads.currencyDb 0).program? (Uuid.ofText programId) = some program)
    {filter : ListLedgerQuery} (hdates : filter.Dated) {limit : ℕ → Option ℕ}
    (hlimit : ∀ k, ∀ n ∈ limit k, 1 ≤ n ∧ n ≤ ledgerMaxLimit) :
    Pages CapacityLedgerEntryEntity.Fits (·.sequence)
      (fun n : Int => encodeCursor [("sequence", toString n)])
      (toLedgerEntryBody program.currency) (fun k => (limit k).getD ledgerDefaultLimit)
      (fun k => filter.matching (Uuid.ofText programId) (reads.rowsDb k))
      (reads.request other programId filter limit) := by
  intro k cursor hcursor
  obtain ⟨program', hp', hcurrency'⟩ := (onward k).currency hprogram
  have hcurrency : programCurrency programId (reads.currencyDb k) = .ok program.currency := by
    rw [programCurrency, hp', ← hcurrency']
  have hbigint : ∀ n, cursor = some n → inBigint n = true := by
    intro n hn
    obtain ⟨row, -, ⟨-, hbigint⟩, rfl⟩ := hcursor n hn
    exact hbigint
  rw [request, listLedger_below hdates (hlimit k) hcurrency hbigint]
  cases cursor <;> rfl

end PageReads

/-- **An auditor with only the API reconstructs the position.** Whatever is
committed between the statements and whatever the limits, following the
cursors ends with every entry that the first page's rows were read from,
each once and the newest first, and nothing newer, under any filter whose
dates can be sent. Without a filter the amounts are the position that was
committed then. -/
theorem ledger_pages_reconstruct [Sha256] {organisations : List Uuid} {programId : String}
    (hreachable : Onward (Db.initial organisations) db) (reads : PageReads db)
    {program : ProgramEntity}
    (hprogram : (reads.currencyDb 0).program? (Uuid.ofText programId) = some program)
    (hbigint : ∀ committed, (reads.rowsDb 0).program? (Uuid.ofText programId) = some committed →
      inBigint committed.nextSequence = true)
    (other : Json → Except SqlError (Option Int)) (filter : ListLedgerQuery)
    (hdates : filter.Dated) {limit : ℕ → Option ℕ}
    (hlimit : ∀ k, ∀ n ∈ limit k, 1 ≤ n ∧ n ≤ ledgerMaxLimit) :
    let rows := filter.matching (Uuid.ofText programId) (reads.rowsDb 0)
    (∀ items, Follows (reads.request other programId filter limit) 0 none items ↔
      items = rows.reverse.map (toLedgerEntryBody program.currency)) ∧
    rows.reverse.Pairwise (fun x y => y.sequence < x.sequence) ∧
    (∀ row ∈ rows, row.sequence ≤ 2 ^ 53 →
      (toLedgerEntryBody program.currency row).sequence = .finite row.sequence) ∧
    ∃ committed, (reads.rowsDb 0).program? (Uuid.ofText programId) = some committed ∧
      (filter.from? = none → filter.to? = none → filter.cause = none →
        ∀ items, Follows (reads.request other programId filter limit) 0 none items →
          ∀ c, amountsOf c items = committed.component c) := by
  intro rows
  set p := Uuid.ofText programId with hp
  have hfresh : Fresh p (Db.initial organisations) := ⟨rfl, fun _ hnone => by cases hnone⟩
  have hexplained : Explained p db := hreachable.explained hfresh.explained
  have hrowsDb : Onward db (reads.rowsDb 0) := reads.first.trans (reads.between 0)
  obtain ⟨committed, hcommitted, -⟩ := (reads.between 0).currency hprogram
  have hexplains := (hrowsDb.explained hexplained).position committed hcommitted
  -- a page reads rows that only grow, so what follows a cursor stays
  have hgrowing : Growing (·.sequence) fun k => filter.matching p (reads.rowsDb k) :=
    PageReads.growing hexplained filter
  have hfits : ∀ row ∈ rows, row.Fits := fun row hrow =>
    hexplains.fits (hbigint committed hcommitted) (List.mem_filter.mp hrow).1
  have hone : ∀ k, 1 ≤ (limit k).getD ledgerDefaultLimit := fun k =>
    one_le_getD (by decide) (hlimit k)
  have hfollows : ∀ items, Follows (reads.request other programId filter limit) 0 none items ↔
      items = rows.reverse.map (toLedgerEntryBody program.currency) := by
    intro items
    have hiff : Follows (reads.request other programId filter limit) 0
        ((none : Option Int).map fun n => encodeCursor [("sequence", toString n)]) items ↔
          items = (below (·.sequence) none rows).map (toLedgerEntryBody program.currency) :=
      follows_iff hgrowing hone (PageReads.pages other hprogram hdates hlimit) (by simp)
        (by simpa using hfits)
    simpa using hiff
  refine ⟨hfollows, List.pairwise_reverse.mpr (hgrowing.ascending 0), ?_, committed, hcommitted, ?_⟩
  · intro row hrow hle
    obtain ⟨hpositive, -⟩ := hfits row hrow
    exact Number.ofRat_of_le (by omega)
  · intro hfrom hto hcause items hitems c
    have hall : rows = (reads.rowsDb 0).ledgerOf p :=
      List.filter_eq_self.mpr fun row _ => by simp [ListLedgerQuery.selects, hfrom, hto, hcause]
    rw [(hfollows items).mp hitems, amountsOf_reverse, hall]
    exact (hexplains.component c).symm

end InvoiceReservation

namespace InvoiceReservation

open Paging

attribute [local instance] trafficSha256

/-- What an auditor reads who asks for a page, and for the others once
treasury has set another limit. -/
def mixedState : ℕ → Db
  | 0 => Operation.run mixedTraffic migrated
  | _ + 1 => Operation.run [.event (callAt 3) (capacityEvent "evt-00002" 2 .limitChanged 200)
      (coordinatesAt "treasury.capacity.events" 1)] (Operation.run mixedTraffic migrated)

/-- These reads. -/
def mixedReads : PageReads (Operation.run mixedTraffic migrated) where
  currencyDb := mixedState
  rowsDb := mixedState
  first := .start
  between _ := .start
  next
    | 0 => Onward.start.run _
    | _ + 1 => .start

theorem ledger_pages_reconstruct_mixedTraffic :
    ∃ items, Follows (mixedReads.request (fun _ => .error ⟨"22P02", "invalid input syntax"⟩)
        northwindUsdProgramId {} fun _ => some 2) 0 none items ∧
      items.map (·.sequence) = [.finite 3, .finite 2, .finite 1] ∧
      amountsOf .local items = 100 ∧ amountsOf .treasury items = 100 ∧
      ((mixedState 1).ledgerOf (Uuid.ofText northwindUsdProgramId)).length = 4 := by
  have hrun : Onward (Db.initial organisations) (Operation.run mixedTraffic migrated) :=
    Onward.start.run mixedTraffic
  have hseeded : mixedState 0 = Operation.run (mixedTraffic.drop 1) seededRows := by
    rw [mixedState, mixedTraffic, run_seed, List.drop_succ_cons, List.drop_zero]
  obtain ⟨program, hprogram⟩ : ∃ program, (mixedReads.currencyDb 0).program?
      (Uuid.ofText northwindUsdProgramId) = some program := by
    refine Option.isSome_iff_exists.mp ?_
    simp only [mixedReads, hseeded]
    decide +kernel
  have hnext : ((mixedReads.rowsDb 0).program? (Uuid.ofText northwindUsdProgramId)).all
      (fun committed => inBigint committed.nextSequence) = true := by
    simp only [mixedReads, hseeded]
    decide +kernel
  have hbigint : ∀ committed, (mixedReads.rowsDb 0).program? (Uuid.ofText northwindUsdProgramId) =
      some committed → inBigint committed.nextSequence = true := by
    intro committed hcommitted
    rw [hcommitted] at hnext
    exact hnext
  have hlimit : ∀ (_ : ℕ), ∀ n ∈ some 2, 1 ≤ n ∧ n ≤ ledgerMaxLimit := by
    rintro _ n ⟨⟩
    unfold ledgerMaxLimit
    omega
  have hsequences : ((ListLedgerQuery.matching {} (Uuid.ofText northwindUsdProgramId)
      (mixedReads.rowsDb 0)).reverse.map (·.sequence)) = [3, 2, 1] := by
    simp only [mixedReads, hseeded]
    decide +kernel
  have hread := (ledger_pages_reconstruct hrun mixedReads hprogram hbigint
    (fun _ => .error ⟨"22P02", "invalid input syntax"⟩) {} (List.forall_mem_nil _) hlimit).1
  refine ⟨_, (hread _).mpr rfl, ?_, ?_, ?_, ?_⟩
  · have hnumbers := congrArg (List.map fun n : Int => Number.ofRat n) hsequences
    rw [List.map_map] at hnumbers ⊢
    exact hnumbers.trans (by decide +kernel)
  · simp only [amountsOf_reverse, mixedReads, hseeded]
    decide +kernel
  · simp only [amountsOf_reverse, mixedReads, hseeded]
    decide +kernel
  · decide +kernel

end InvoiceReservation
