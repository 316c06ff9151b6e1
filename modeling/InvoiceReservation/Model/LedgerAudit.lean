import InvoiceReservation.Model.Statements
/-!
# The ledger audit

`src/scripts/audit-ledger.ts`: one SELECT over all programs, and then one SUM
for each of them in turn. The statements are in no transaction, and each reads
the state that was committed last when it starts.
-/

namespace InvoiceReservation

/-- `COMPONENTS`. -/
def auditedComponents : List PositionComponent := [.local, .treasury, .limit]

/-- `ProgramPositionRow`. -/
structure ProgramPositionRow where
  id : Uuid
  localReservedMinor : Int
  treasuryReservedMinor : Int
  creditLimitMinor : Int
  deriving DecidableEq, Repr

/-- The column that `CACHED_COLUMN` names. -/
def ProgramPositionRow.cached (program : ProgramPositionRow) : PositionComponent → Int
  | .local => program.localReservedMinor
  | .treasury => program.treasuryReservedMinor
  | .limit => program.creditLimitMinor

/-- The SELECT over all programs. -/
def selectPositions (db : Db) : List ProgramPositionRow :=
  (Stmt.programsById db).map fun program => ⟨program.id, program.localReservedMinor,
    program.treasuryReservedMinor, program.creditLimitMinor⟩

/-- The SUM of one program, its `ComponentSumRow`s: one for each component
its ledger has an entry of. -/
def selectSums (db : Db) (p : Uuid) : List (PositionComponent × Int) :=
  ((db.ledgerOf p).map (·.component)).eraseDups.map fun c =>
    (c, (((db.ledgerOf p).filter (·.component = c)).map (·.deltaMinor)).sum)

/-- `sums`, where a component without a row stays at zero. -/
def sumsOf (rows : List (PositionComponent × Int)) (c : PositionComponent) : Int :=
  rows.foldl (fun total row => if row.1 = c then row.2 else total) 0

/-- `LedgerMismatch`. -/
structure LedgerMismatch where
  programId : Uuid
  component : PositionComponent
  ledgerSum : Int
  cached : Int
  deriving DecidableEq, Repr

/-- `AuditResult`. -/
structure AuditResult where
  programsChecked : ℕ
  mismatch : Option LedgerMismatch
  deriving DecidableEq, Repr

/-- The first component of a program whose sum is not what is cached. -/
def findMismatch (program : ProgramPositionRow) (sums : PositionComponent → Int) :
    Option LedgerMismatch :=
  (auditedComponents.find? fun c => sums c ≠ program.cached c).map fun c =>
    ⟨program.id, c, sums c, program.cached c⟩

/-- The loop over the programs that are left. The `k`-th SUM reads `sumDb k`. -/
def auditFrom (sumDb : ℕ → Db) (programsChecked : ℕ) : List ProgramPositionRow → AuditResult
  | [] => ⟨programsChecked, none⟩
  | program :: programs =>
    match findMismatch program (sumsOf (selectSums (sumDb programsChecked) program.id)) with
    | some mismatch => ⟨programsChecked, some mismatch⟩
    | none => auditFrom sumDb (programsChecked + 1) programs

/-- `auditLedger`, by the states its statements read. -/
def auditLedger (selectDb : Db) (sumDb : ℕ → Db) : AuditResult :=
  auditFrom sumDb 0 (selectPositions selectDb)

end InvoiceReservation
