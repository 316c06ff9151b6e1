import InvoiceReservation.Helpers.Changes
/-!
# No reservation has a treasury reference

Nothing the service does gives a reservation a reference of treasury's. So
no event of a program is taken for the echo of one of its reservations.
-/

namespace InvoiceReservation

open Transactions

variable {db db' : Db} {p q : Uuid}

/-- A program none of whose reservations has a treasury reference. -/
def Unreferenced (p : Uuid) (db : Db) : Prop :=
  ∀ row ∈ db.reservationsOf p, row.treasuryReference = none

theorem Unreferenced.put (h : Unreferenced p db) (written : List InvoiceReservationEntity)
    (hrows : db'.reservationsOf p = Table.putAll InvoiceReservationEntity.key
      (written.filter (·.programId = p)) (db.reservationsOf p))
    (hwritten : ∀ w ∈ written, w.programId = p → w.treasuryReference = none) :
    Unreferenced p db' := by
  intro row hrow
  rw [hrows] at hrow
  rcases Table.mem_putAll hrow with hw | hold
  · obtain ⟨hmem, hp⟩ := List.mem_filter.mp hw
    exact hwritten row hmem (of_decide_eq_true hp)
  · exact h row hold

/-- **New versions of rows refer to what the old ones did.** -/
theorem Unreferenced.rewrite (h : Unreferenced p db) (rows : List InvoiceReservationEntity)
    (f : InvoiceReservationEntity → InvoiceReservationEntity)
    (hafter : db'.reservationsOf p = Table.putAll InvoiceReservationEntity.key
      ((rows.map f).filter (·.programId = p)) (db.reservationsOf p))
    (hrows : ∀ r ∈ rows, r ∈ db.reservationsOf q)
    (hprogram : ∀ r, (f r).programId = r.programId)
    (hreference : ∀ r, (f r).treasuryReference = r.treasuryReference) : Unreferenced p db' := by
  refine h.put _ hafter fun w hw hp => ?_
  obtain ⟨r, hr, rfl⟩ := List.mem_map.mp hw
  rw [hreference]
  exact h r (Db.mem_reservationsOf.mpr
    ⟨(Db.mem_reservationsOf.mp (hrows r hr)).1, (hprogram r).symm.trans hp⟩)

theorem Unreferenced.quiet (h : Unreferenced p db)
    (hrows : db'.reservationsOf p = db.reservationsOf p) : Unreferenced p db' := by
  intro row hrow
  exact h row (hrows ▸ hrow)

variable [Sha256]

/-- **One change.** -/
theorem Change.unreferenced (hc : Change db db') (h : Unreferenced p db) : Unreferenced p db' := by
  have hfor : ∀ {q invoiceId}, ∀ r ∈ db.reservationsFor q invoiceId, r ∈ db.reservationsOf q :=
    fun r hr => (Db.mem_reservationsFor.mp hr).1
  cases hc with
  | @reserved rt command program reservedMinor fx _ _ hp ha =>
    refine h.put [reservedRow rt command program reservedMinor fx] (ha.reservationsOf_put p)
      fun w hw _ => ?_
    obtain rfl := List.mem_singleton.mp hw
    rfl
  | @released rt command program row _ applied _ _ hp hrate hd ha =>
    exact h.rewrite (db.reservationsFor program.id command.invoiceId) (releasedRow applied rt.now)
      (ha.reservationsOf_put p) hfor (fun _ => rfl) fun _ => rfl
  | @cancelled rt command program row applied _ _ hp hd ha =>
    exact h.rewrite (db.reservationsFor program.id command.invoiceId) (cancelledRow applied rt.now)
      (ha.reservationsOf_put p) hfor (fun _ => rfl) fun _ => rfl
  | applied ha => exact h.quiet (ha.reservationsOf_after p)
  | @echoed rt event _ program reference _ ha =>
    exact h.rewrite (Stmt.echoedRows db program.id reference)
      (Stmt.acknowledged event.version rt.now) (ha.reservationsOf_put p)
      (fun r hr => List.mem_of_mem_filter hr) (fun _ => rfl) fun _ => rfl
  | @corrected rt snapshot _ _ program ids _ _ _ ha =>
    exact h.rewrite (Stmt.acknowledgedRows db program.id ids)
      (Stmt.acknowledged snapshot.version rt.now) (ha.reservationsOf_put p)
      (fun r hr => List.mem_of_mem_filter hr) (fun _ => rfl) fun _ => rfl
  | seeded hp hnone hpersist => exact h.quiet (by simp [advanceWrites])
  | swept cutoff => exact h.quiet rfl
  | flagged b v hp => exact h.quiet (by simp)

/-- **No run gives a reservation a reference.** -/
theorem Unreferenced.run (h : Unreferenced p db) (ops : List Operation) :
    Unreferenced p (Operation.run ops db) :=
  run_induct (fun _ _ hc hs => hs.unreferenced hc) ops h

/-- **Without references there are no echoes.** -/
theorem Unreferenced.not_echoed {rt : Runtime} {event : CapacityEvent} {program : ProgramEntity}
    {coordinates : StreamCoordinates} {reference : String} (h : Unreferenced program.id db) :
    ¬ EventEchoed rt event coordinates db program reference db' := by
  intro he
  obtain ⟨row, hrow, href⟩ := he.echo
  rw [h row hrow] at href
  cases href

end InvoiceReservation
