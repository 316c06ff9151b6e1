import InvoiceReservation.Model.Services
/-!
# What a caller reads of a program

`src/capacity/application/availability.service.ts`. No row is locked: the
body is assembled from a program's row and from what the last explicit
acknowledgement of it names.
-/

namespace InvoiceReservation

/-- A program's explicit acknowledgements. -/
def Db.explicitAcknowledgements (db : Db) (p : Uuid) : List SnapshotAcknowledgementEntity :=
  db.acknowledgements.filter fun sa => sa.programId = p ∧ sa.kind = .explicit

/-- Those of the newest version. -/
def Db.newestAcknowledgements (db : Db) (p : Uuid) : List SnapshotAcknowledgementEntity :=
  (db.explicitAcknowledgements p).filter fun sa =>
    ((db.explicitAcknowledgements p).map (·.version)).max? = some sa.version

/-- `r.treasury_reference = ANY (sa.reservation_references)`. -/
def SnapshotAcknowledgementEntity.names (sa : SnapshotAcknowledgementEntity)
    (row : InvoiceReservationEntity) : Bool :=
  match row.treasuryReference, sa.reservationReferences with
  | some reference, some references => references.contains reference
  | _, _ => false

/-- `reconciliationPending`: the newest explicit acknowledgement names a
reservation that has left ACTIVE. -/
def reconciliationPending (db : Db) (p : Uuid) : Bool :=
  (db.newestAcknowledgements p).any fun sa => (db.reservationsOf p).any fun row =>
    sa.names row && row.status ≠ .active

/-- `AvailabilityService.forProgram`. -/
def forProgram (newestObservedFor : Uuid → Option Timestamp) (programId : String) (db : Db) :
    Except Failure AvailabilityBody :=
  match db.program? (Uuid.ofText programId) with
  | none => .error (.refusal .notFound [])
  | some program =>
    .ok (toAvailabilityBody program (reconciliationPending db (Uuid.ofText programId))
      (newestObservedFor program.id))

end InvoiceReservation
