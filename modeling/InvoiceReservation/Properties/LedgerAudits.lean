import InvoiceReservation.Helpers.Recovery
import InvoiceReservation.Model.LedgerAudit
import InvoiceReservation.Properties.LedgerPages
/-!
# Audits of a ledger that is written

The audit compares cached values of one state with sums of later ones. In
every committed state the two agree, and so whatever the audit reports was
never so: it reports a program whose position moved between the SELECT and
that program's SUM.
-/

namespace InvoiceReservation

open Transactions

variable {db : Db} {p : Uuid} {c : PositionComponent} {program : ProgramPositionRow}
variable {sums : PositionComponent → Int} {sumDb : ℕ → Db}

/-! ## What the statements answer -/

/-- The last row of a component, among one row for each. -/
theorem foldl_rows (total : PositionComponent → Int) (cs : List PositionComponent) (start : Int) :
    (cs.map fun c => (c, total c)).foldl (fun sum row => if row.1 = c then row.2 else sum) start =
      if c ∈ cs then total c else start := by
  induction cs generalizing start with
  | nil => simp
  | cons d cs ih =>
    rw [List.map_cons, List.foldl_cons, ih]
    by_cases hd : d = c
    · subst hd
      simp
    · have hd' : ¬ c = d := fun he => hd he.symm
      simp [hd, hd']

/-- **The sums are the ledger's.** -/
theorem sumsOf_selectSums : sumsOf (selectSums db p) c = ledgerSum c (db.ledgerOf p) := by
  rw [sumsOf, selectSums, foldl_rows, ledgerSum]
  split
  · rfl
  · rename_i habsent
    have hnone : (db.ledgerOf p).filter (·.component = c) = [] := by
      refine List.filter_eq_nil_iff.mpr fun row hrow hc => habsent ?_
      rw [List.mem_eraseDups]
      exact List.mem_map.mpr ⟨row, hrow, of_decide_eq_true hc⟩
    rw [hnone]
    rfl

theorem findMismatch_eq_none :
    findMismatch program sums = none ↔ ∀ c, sums c = program.cached c := by
  simp only [findMismatch, Option.map_eq_none_iff, List.find?_eq_none, decide_eq_true_eq, not_not]
  refine ⟨fun h c => h c ?_, fun h c _ => h c⟩
  cases c <;> decide

/-- **The loop reports nothing where every sum is what is cached.** -/
theorem auditFrom_mismatch (programs : List ProgramPositionRow) (n : ℕ) :
    (auditFrom sumDb n programs).mismatch = none ↔
      ∀ k program, programs[k]? = some program →
        ∀ c, ledgerSum c ((sumDb (n + k)).ledgerOf program.id) = program.cached c := by
  induction programs generalizing n with
  | nil => simp [auditFrom]
  | cons program programs ih =>
    have hhead : findMismatch program (sumsOf (selectSums (sumDb n) program.id)) = none ↔
        ∀ c, ledgerSum c ((sumDb n).ledgerOf program.id) = program.cached c := by
      simp only [findMismatch_eq_none, sumsOf_selectSums]
    rw [auditFrom]
    cases hfound : findMismatch program (sumsOf (selectSums (sumDb n) program.id)) with
    | some mismatch =>
      rw [hfound] at hhead
      simp only [reduceCtorEq, false_iff] at hhead ⊢
      exact fun h => hhead (h 0 program rfl)
    | none =>
      dsimp only
      rw [ih]
      constructor
      · intro h k
        cases k with
        | zero =>
          intro row hrow
          cases hrow
          exact hhead.mp hfound
        | succ k =>
          have hk := h k
          rwa [show n + 1 + k = n + (k + 1) by omega] at hk
      · intro h k
        have hk := h (k + 1)
        rwa [show n + (k + 1) = n + 1 + k by omega] at hk

/-! ## Runs of the audit -/

variable [Sha256] {organisations : List Uuid}

/-- The states that the statements of an audit read, each committed after the
one before. -/
structure AuditReads (organisations : List Uuid) where
  selectDb : Db
  sumDb : ℕ → Db
  reachable : Onward (Db.initial organisations) selectDb
  first : Onward selectDb (sumDb 0)
  next : ∀ k, Onward (sumDb k) (sumDb (k + 1))

/-- A program whose cached component is not the sum of its ledger. -/
def Differs (db : Db) (p : Uuid) (c : PositionComponent) : Prop :=
  ∃ program, db.program? p = some program ∧
    program.toProgramPosition.component c ≠ ledgerSum c (db.ledgerOf p)

namespace AuditReads

/-- What the audit answers. -/
def result (reads : AuditReads organisations) : AuditResult :=
  auditLedger reads.selectDb reads.sumDb

/-- A state that was committed during the audit. -/
def During (reads : AuditReads organisations) (db : Db) : Prop :=
  Onward reads.selectDb db ∧ ∃ k, Onward db (reads.sumDb k)

/-- **An audit without a false alarm**: what it reports was so. -/
def Sound (reads : AuditReads organisations) : Prop :=
  ∀ mismatch, reads.result.mismatch = some mismatch →
    ∃ db, reads.During db ∧ Differs db mismatch.programId mismatch.component

/-- **An audit of programs that stand still**: the cached components of each
are, when its SUM is read, what the SELECT returned. -/
def Steady (reads : AuditReads organisations) : Prop :=
  ∀ k program, (selectPositions reads.selectDb)[k]? = some program →
    ∀ entity, (reads.sumDb k).program? program.id = some entity →
      ∀ c, entity.toProgramPosition.component c = program.cached c

variable (reads : AuditReads organisations)

theorem onward (k : ℕ) : Onward reads.selectDb (reads.sumDb k) := by
  induction k with
  | zero => exact reads.first
  | succ k ih => exact ih.trans (reads.next k)

omit reads in
/-- **No committed state differs.** -/
theorem not_differs (h : Onward (Db.initial organisations) db) : ¬ Differs db p c := by
  rintro ⟨program, hp, hdiffers⟩
  have hfresh : Fresh p (Db.initial organisations) := ⟨rfl, fun _ hnone => by cases hnone⟩
  exact hdiffers (((h.explained hfresh.explained).position program hp).component c)

/-- A program that was selected is there when its SUM is read. -/
theorem program?_sumDb {program : ProgramPositionRow}
    (h : program ∈ selectPositions reads.selectDb) (k : ℕ) :
    ∃ entity, (reads.sumDb k).program? program.id = some entity := by
  obtain ⟨selected, hselected, rfl⟩ := List.mem_map.mp h
  obtain ⟨found, hfound⟩ : ∃ found, reads.selectDb.program? selected.id = some found :=
    Table.exists_get_of_mem (mem_programsById.mp hselected)
  obtain ⟨entity, hentity, -⟩ := (reads.onward k).currency hfound
  exact ⟨entity, hentity⟩

/-- **The audit reports nothing just where the programs stand still.** -/
theorem mismatch_eq_none_iff : reads.result.mismatch = none ↔ reads.Steady := by
  unfold result auditLedger Steady
  rw [auditFrom_mismatch]
  refine forall_congr' fun k => forall_congr' fun program => forall_congr' fun hprogram => ?_
  have hexplained : ∀ entity, (reads.sumDb k).program? program.id = some entity → ∀ c,
      entity.toProgramPosition.component c = ledgerSum c ((reads.sumDb k).ledgerOf program.id) :=
    fun entity hentity c => not_not.mp fun hdiffers =>
      not_differs (reads.reachable.trans (reads.onward k)) ⟨entity, hentity, hdiffers⟩
  rw [Nat.zero_add]
  constructor
  · intro h entity hentity c
    rw [hexplained entity hentity c, h c]
  · intro h c
    obtain ⟨entity, hentity⟩ := reads.program?_sumDb (List.mem_of_getElem? hprogram) k
    rw [← hexplained entity hentity c, h entity hentity c]

end AuditReads

/-- **The audit raises no false alarm just where the programs stand still.**
For every audit of a reachable database and whatever commits between its
statements: each mismatch it returns was one in some state that was committed
during it, just where no program's cached component is another at its SUM than
at the SELECT. -/
theorem audit_is_sound_iff (reads : AuditReads organisations) : reads.Sound ↔ reads.Steady := by
  rw [← reads.mismatch_eq_none_iff]
  constructor
  · intro hsound
    cases hmismatch : reads.result.mismatch with
    | none => rfl
    | some mismatch =>
      obtain ⟨db, ⟨hduring, -⟩, hdiffers⟩ := hsound mismatch hmismatch
      exact absurd hdiffers (AuditReads.not_differs (reads.reachable.trans hduring))
  · intro hnone mismatch hmismatch
    rw [hnone] at hmismatch
    cases hmismatch

end InvoiceReservation

namespace InvoiceReservation

attribute [local instance] trafficSha256

/-- A reserve that commits between the SELECT and the first SUM. -/
def reserveBetween : AuditReads organisations where
  selectDb := seeded
  sumDb _ := Operation.run [.reserve (callAt 1) (reserveCommand "req-00001" "INV-1" 100)] seeded
  reachable := Onward.start.run [.seed 0 programs]
  first := Onward.start.run _
  next _ := .start

/-- The seeded programs, as the SELECT returns them. -/
def seededPositions : List ProgramPositionRow :=
  [⟨Uuid.ofText northwindUsdProgramId, 0, 0, 1000000000⟩,
    ⟨Uuid.ofText northwindEurProgramId, 0, 0, 500000000⟩,
    ⟨Uuid.ofText contosoUsdProgramId, 0, 0, 200000000⟩]

/-- They were inserted in the order of their ids. -/
theorem selectPositions_seeded : selectPositions seeded = seededPositions := by
  have hsorted : Stmt.programsById seededRows = seededRows.programs :=
    List.mergeSort_of_pairwise (by decide +kernel)
  rw [seeded_eq, selectPositions, hsorted]
  decide +kernel

/-- **A reserve during the audit is reported as a mismatch.** -/
theorem audit_reports_a_reserve :
    reserveBetween.result.mismatch = some ⟨Uuid.ofText northwindUsdProgramId, .local, 100, 0⟩ ∧
    ¬ reserveBetween.Sound := by
  have hmismatch : reserveBetween.result.mismatch =
      some ⟨Uuid.ofText northwindUsdProgramId, .local, 100, 0⟩ := by
    simp only [AuditReads.result, auditLedger, reserveBetween, selectPositions_seeded]
    rw [seeded_eq]
    decide +kernel
  refine ⟨hmismatch, fun hsound => ?_⟩
  obtain ⟨db, ⟨hduring, -⟩, hdiffers⟩ := hsound _ hmismatch
  exact AuditReads.not_differs (reserveBetween.reachable.trans hduring) hdiffers

end InvoiceReservation
