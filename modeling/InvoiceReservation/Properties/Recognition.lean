import InvoiceReservation.Helpers.Reservations
import InvoiceReservation.Helpers.Settled
import InvoiceReservation.Properties.MixedDelivery
/-!
# Whether our own bookings are recognised

An echo and an explicit marker are matched by the treasury reference of a
reservation, and a reserve writes none. So over any run no event is
suppressed, no explicit marker acknowledges anything, and the booking that
treasury sends of a reservation made here counts in TREASURY on top of
LOCAL.
-/

namespace InvoiceReservation

open Transactions

variable [Sha256] {db db' : Db} {p : Uuid} {rt : Runtime} {event : CapacityEvent}
variable {snapshot : ReconciliationSnapshot} {marker : SnapshotMarker}
variable {coordinates : StreamCoordinates}

omit [Sha256] in
/-- An explicit marker marks no row that has no reference. -/
theorem not_marks_of_unreferenced {row : InvoiceReservationEntity} {version : Int}
    (hkind : marker.kind = .explicit) (hnone : row.treasuryReference = none) :
    marks marker version (ApplySnapshotService.toSnapshotReservation row) = false := by
  simp [marks, markerMatches, hkind, ApplySnapshotService.toSnapshotReservation, hnone]

/-- **Without references no event is suppressed.** -/
theorem Unreferenced.eventOutcome_ne (h : Unreferenced p db)
    (hprogram : Uuid.ofText event.programId = p) :
    eventOutcome rt event coordinates db ≠ some .echoSuppressed := by
  intro ho
  rw [eventOutcome_eq] at ho
  split at ho
  swap
  · cases ho
  cases happly : engine.run (ApplyTreasuryEventService.apply rt event coordinates) db with
  | error e => rw [happly] at ho; cases ho
  | ok answer =>
    obtain ⟨outcome, db'⟩ := answer
    rw [happly] at ho
    obtain rfl : outcome = .echoSuppressed := Option.some.inj ho
    rcases applyEvent_cases happly with ⟨hidle, -⟩ | ⟨_, hne, -⟩ | ⟨program, reference, -, he⟩
    · exact hidle
    · cases hne
    · refine Unreferenced.not_echoed ?_ he
      rwa [Db.id_of_program? he.found, hprogram]

/-- An event leaves the rows of such a program as they are. -/
theorem Unreferenced.event_keeps (h : Unreferenced p db)
    (hprogram : Uuid.ofText event.programId = p) :
    (engine.effect (Operation.event rt event coordinates).tx db).reservationsOf p =
      db.reservationsOf p := by
  refine Engine.effect_induct (P := fun c : Db => c.reservationsOf p = db.reservationsOf p) rfl
    fun reply c hr => ?_
  obtain ⟨o, hr, -⟩ := Engine.run_map_ok.mp hr
  rcases handleEvent_cases hr with ⟨program, -, ha⟩ | ⟨program, reference, -, he⟩ | ⟨rfl, -⟩
  · exact ha.reservationsOf_after p
  · refine absurd he (Unreferenced.not_echoed ?_)
    rwa [Db.id_of_program? he.found, hprogram]
  · rfl

/-- And a snapshot does whose marker is explicit. -/
theorem Unreferenced.snapshot_keeps (h : Unreferenced p db) (hfiled : Filed (db.reservationsOf p))
    (hmarker : snapshot.acknowledgement = some marker) (hkind : marker.kind = .explicit) :
    (engine.effect (Operation.snapshot rt snapshot coordinates).tx db).reservationsOf p =
      db.reservationsOf p := by
  refine Engine.effect_induct (P := fun c : Db => c.reservationsOf p = db.reservationsOf p) rfl
    fun reply c hr => ?_
  obtain ⟨o, hr, -⟩ := Engine.run_map_ok.mp hr
  rcases handleSnapshot_cases hr with
    ⟨-, carried, program, ids, investigationRequired, deltas, ha⟩ | ⟨rfl, -⟩
  · obtain rfl : carried = marker := Option.some.inj (ha.carried.symm.trans hmarker)
    rw [ha.reservationsOf_after hfiled]
    refine (List.map_congr_left fun row hrow => ?_).trans (List.map_id _)
    simp [not_marks_of_unreferenced hkind (h row hrow)]
  · rfl

/-- An event that is applied is counted in TREASURY. -/
theorem figures_of_applied (hprogram : Uuid.ofText event.programId = p)
    (htype : event.type ≠ .limitChanged)
    (ho : eventOutcome rt event coordinates db = some .applied) :
    figures p (engine.effect (Operation.event rt event coordinates).tx db) =
      (figures p db).map fun f => (f.1 + event.treasuryDelta, f.2 + event.treasuryDelta) := by
  rw [eventOutcome_eq] at ho
  split at ho
  swap
  · cases ho
  rename_i hi
  cases happly : engine.run (ApplyTreasuryEventService.apply rt event coordinates) db with
  | error e => rw [happly] at ho; cases ho
  | ok answer =>
    obtain ⟨outcome, c⟩ := answer
    rw [happly] at ho
    obtain rfl : outcome = .applied := Option.some.inj ho
    have hrun : engine.run (Operation.event rt event coordinates).tx db =
        .ok (.handled .applied, c) :=
      Engine.run_map_ok.mpr
        ⟨.applied, handleEvent_ok.mpr (Or.inr (Or.inr ⟨hi, _, happly, rfl⟩)), rfl⟩
    rw [Engine.effect_of_run_ok hrun]
    rcases applyEvent_cases happly with ⟨hidle, -⟩ | ⟨program, -, ha⟩ | ⟨_, _, hne, -⟩
    · exact absurd hidle id
    · obtain ⟨after, hafter, -, -, htreasury, hlocal⟩ := ha.leaves htype
      rw [Db.id_of_program? ha.found, hprogram] at hafter
      have hbefore : db.program? p = some program := hprogram ▸ ha.found
      rw [figures_eq hafter htreasury hlocal, figures, hbefore]
      simp [totalReserved, add_assoc]
    · cases hne

/-- **No reservation made here is recognised by any reference.** For a
program that started without reservations, in every state of every run: no
event that carries the reference is suppressed as an echo, each leaves the
reservation as it is, and one that is applied counts in TREASURY and the
total by its whole amount; and no snapshot acknowledges the reservation whose
explicit marker has the reference. -/
theorem own_reservation_never_recognised (hreservations : db.reservationsOf p = [])
    (ops : List Operation) {row : InvoiceReservationEntity}
    (hrow : row ∈ (Operation.run ops db).reservationsOf p) (reference : String) :
    (∀ rt event coordinates, Uuid.ofText event.programId = p →
      event.payload.reservationReference = some reference →
        eventOutcome rt event coordinates (Operation.run ops db) ≠ some .echoSuppressed ∧
        row ∈ (Operation.run (ops ++ [.event rt event coordinates]) db).reservationsOf p ∧
        (event.type ≠ .limitChanged →
          eventOutcome rt event coordinates (Operation.run ops db) = some .applied →
            figures p (Operation.run (ops ++ [.event rt event coordinates]) db) =
              (figures p (Operation.run ops db)).map fun f =>
                (f.1 + event.treasuryDelta, f.2 + event.treasuryDelta))) ∧
    ∀ rt snapshot marker coordinates, Uuid.ofText snapshot.programId = p →
      snapshot.acknowledgement = some marker → marker.kind = .explicit →
      reference ∈ marker.reservationReferences.getD [] →
        row ∈ (Operation.run (ops ++ [.snapshot rt snapshot coordinates]) db).reservationsOf p := by
  have hunreferenced : Unreferenced p (Operation.run ops db) :=
    Unreferenced.run (fun r hr => by rw [hreservations] at hr; cases hr) ops
  have hfiled : Filed ((Operation.run ops db).reservationsOf p) :=
    Filed.run (by rw [hreservations]; exact filed_nil) ops
  have hstep : ∀ op,
      Operation.run (ops ++ [op]) db = engine.effect op.tx (Operation.run ops db) := by
    intro op
    rw [Operation.run, Operation.run, serial_append]
    rfl
  refine ⟨fun rt event coordinates hprogram hreference => ⟨?_, ?_, fun htype ho => ?_⟩, ?_⟩
  · exact hunreferenced.eventOutcome_ne hprogram
  · rw [hstep, hunreferenced.event_keeps hprogram]
    exact hrow
  · rw [hstep]
    exact figures_of_applied hprogram htype ho
  · intro rt snapshot marker coordinates hprogram hmarker hkind hmember
    rw [hstep, hunreferenced.snapshot_keeps hfiled hmarker hkind]
    exact hrow

end InvoiceReservation

namespace InvoiceReservation

open Transactions

attribute [local instance] trafficSha256

/-- Treasury's booking of that reservation, by its invoice. -/
def ownBooking : CapacityEvent :=
  { capacityEvent "evt-00001" 1 .reservationBooked 100 with payload := ⟨100, "USD", some "INV-1"⟩ }

theorem own_reservation_never_recognised_reserved : ∃ row,
    row ∈ (Operation.run reservedTraffic migrated).reservationsOf
      (Uuid.ofText northwindUsdProgramId) ∧
    row ∈ (Operation.run (reservedTraffic ++ [.event (callAt 2) ownBooking
      (coordinatesAt "treasury.capacity.events" 0)]) migrated).reservationsOf
        (Uuid.ofText northwindUsdProgramId) := by
  have hone : ((Operation.run reservedTraffic migrated).reservationsOf
      (Uuid.ofText northwindUsdProgramId)).length = 1 := by
    rw [reservedTraffic, run_seed]
    decide +kernel
  obtain ⟨row, hrow⟩ := List.exists_mem_of_length_pos (by rw [hone]; decide)
  exact ⟨row, hrow, ((own_reservation_never_recognised rfl reservedTraffic hrow "INV-1").1
    (callAt 2) ownBooking (coordinatesAt "treasury.capacity.events" 0) rfl rfl).2.1⟩

/-- **An own booking is counted twice**: nothing suppresses an event of the
program, whatever reference it carries, and the booking of a reservation of
100 is applied to TREASURY while LOCAL holds the 100. -/
theorem own_booking_counted_twice :
    ((Operation.run reservedTraffic migrated).reservationsOf
      (Uuid.ofText northwindUsdProgramId)).map (fun row => (row.origin, row.status)) =
        [(.local, .active)] ∧
    (∀ rt event coordinates, Uuid.ofText event.programId = Uuid.ofText northwindUsdProgramId →
      eventOutcome rt event coordinates (Operation.run reservedTraffic migrated) ≠
        some .echoSuppressed) ∧
    eventOutcome (callAt 2) ownBooking (coordinatesAt "treasury.capacity.events" 0)
      (Operation.run reservedTraffic migrated) = some .applied ∧
    figures (Uuid.ofText northwindUsdProgramId) (Operation.run reservedTraffic migrated) =
      some (0, 100) ∧
    figures (Uuid.ofText northwindUsdProgramId) (Operation.run (reservedTraffic ++
      [.event (callAt 2) ownBooking (coordinatesAt "treasury.capacity.events" 0)]) migrated) =
        some (100, 200) := by
  have hunreferenced : Unreferenced (Uuid.ofText northwindUsdProgramId)
      (Operation.run reservedTraffic migrated) :=
    Unreferenced.run (fun row hrow => by cases hrow) reservedTraffic
  exact ⟨by decide +kernel, fun rt event coordinates h => hunreferenced.eventOutcome_ne h,
    by decide +kernel, by decide +kernel, by decide +kernel⟩

end InvoiceReservation
