import InvoiceReservation.Model.Treasury
/-!
# The jobs, and the operations as a whole

The seed, the retention sweep, the reconciliation check and the recovery
detection, and `Operation`: everything that writes to the database, one
constructor for each. A run is a list of them. The check and the
detection write outside any transaction of theirs, one statement at a
time, and so each of those statements is an operation of its own.
-/

namespace InvoiceReservation

open Transactions

/-! ## The seed -/

/-- `ProgramSeed`. -/
structure ProgramSeed where
  id : String
  organisationId : Uuid
  currency : String
  creditLimitMinor : Int
  deriving DecidableEq, Repr

/-- The limit entry of a seeded program. -/
def ProgramSeed.entry (program : ProgramSeed) : PendingLedgerEntry where
  deltaMinor := program.creditLimitMinor
  component := .limit
  cause := .limitChange
  originReference := none
  actor := "seed"
  correlationId := "seed-limit-change"

/-- One turn of the seed's loop over programs: a fresh program gets its
limit, and one that exists is left alone. -/
def seedProgram (now : Timestamp) (program : ProgramSeed) : Transaction Unit := do
  if ← query (.insertProgram (Uuid.ofText program.id) program.organisationId program.currency now)
  then
    match ← query (.lockProgram (Uuid.ofText program.id)) with
    | none => throwFailure (.error s!"program {program.id} disappeared mid-seed")
    | some entity =>
      persistAdvance program.id (advancePosition entity.toProgramPosition [program.entry] now) now
  else return ()

/-- `runSeed`, of the programs. -/
def runSeed (now : Timestamp) : List ProgramSeed → Transaction Unit
  | [] => return ()
  | program :: programs => do
    seedProgram now program
    runSeed now programs

/-! ## The jobs -/

/-- `RequestRetentionJob.sweep`, at an instant, with `REQUEST_RETENTION_DAYS`. -/
def sweep (now : Timestamp) (days : Int) : Transaction Nat :=
  query (.expireRequests (now - days * 24 * 60 * 60 * 1000000))

/-- `ReconciliationMismatch`. -/
structure ReconciliationMismatch where
  programId : Uuid
  expected : Int
  actual : Int
  deriving DecidableEq, Repr

/-- What `check` finds in its rows. -/
def mismatches (rows : List ReconciliationRow) : List ReconciliationMismatch :=
  rows.filterMap fun row =>
    if row.activeOutstanding = row.localReservedMinor then none
    else some ⟨row.programId, row.activeOutstanding, row.localReservedMinor⟩

/-- The flags `check` raises, one statement each. -/
def flagAll : List ReconciliationMismatch → Transaction Unit
  | [] => return ()
  | mismatch :: rest => do
    query (.flagInvestigation mismatch.programId)
    flagAll rest

/-- `ReconciliationReport`. -/
structure ReconciliationReport where
  programsChecked : Nat
  mismatches : List ReconciliationMismatch
  deriving DecidableEq, Repr

/-- `ReconciliationCheckService.check`. -/
def check : Transaction ReconciliationReport := do
  let rows ← query .selectReconciliation
  flagAll (mismatches rows)
  return ⟨rows.length, mismatches rows⟩

/-! ## Operations -/

/-- An operation on the database. -/
inductive Operation
  | reserve (rt : Runtime) (command : ReserveCommand)
  | release (rt : Runtime) (command : ReleaseCommand)
  | cancel (rt : Runtime) (command : CancelCommand)
  | event (rt : Runtime) (message : CapacityEvent) (coordinates : StreamCoordinates)
  | snapshot (rt : Runtime) (message : ReconciliationSnapshot) (coordinates : StreamCoordinates)
  | seed (now : Timestamp) (programs : List ProgramSeed)
  | sweep (now : Timestamp) (days : Int)
  | flagInvestigation (p : Uuid)
  | holdProgram (p : Uuid)

/-- What an operation answers. -/
inductive Reply
  | write (outcome : WriteOutcome)
  | handled (outcome : HandleOutcome)
  | done
  deriving DecidableEq

namespace Operation

variable [Sha256]

/-- An operation with everything it does, a handler's inspection included. -/
def tx : Operation → Transaction Reply
  | .reserve rt command => (InvoiceReservation.reserve rt command).map .write
  | .release rt command => (InvoiceReservation.release rt command).map .write
  | .cancel rt command => (InvoiceReservation.cancel rt command).map .write
  | .event rt message coordinates => (handleCapacityEvent rt message coordinates).map .handled
  | .snapshot rt message coordinates =>
    (handleReconciliationSnapshot rt message coordinates).map .handled
  | .seed now programs => (runSeed now programs).map fun _ => .done
  | .sweep now days => (InvoiceReservation.sweep now days).map fun _ => .done
  | .flagInvestigation p => (query (.flagInvestigation p)).map fun _ => .done
  | .holdProgram p => (query (.holdProgram p)).map fun _ => .done

/-- A run: the operations one after another, each committed or rolled back. -/
def run (ops : List Operation) (db : Db) : Db := serial engine tx ops db

end Operation

end InvoiceReservation
