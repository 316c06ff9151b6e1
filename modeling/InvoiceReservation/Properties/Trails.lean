import InvoiceReservation.Helpers.Trails
import InvoiceReservation.Properties.Concurrency
import InvoiceReservation.Properties.Ledger
/-!
# What a trail says of a reservation

The trail of a reservation spells `RESERVATION RELEASE* (CANCELLATION |
WRITE_OFF)?`, its deltas add up to what the reservation holds, and its
last entry with that sum is the status. After a terminal status nothing is
added to it.
-/

namespace InvoiceReservation

open Transactions

variable {db db' : Db} {p : Uuid} {invoiceId : String}
variable {row row' : InvoiceReservationEntity} {trail : List CapacityLedgerEntryEntity}

/-! ## Words -/

/-- The words a trail can spell. A cancellation follows the reservation, and
a write-off at least one release. -/
inductive Word : List LedgerCause → Prop
  | live (n : ℕ) : Word (.reservation :: List.replicate n .release)
  | cancelled : Word [.reservation, .cancellation]
  | writtenOff (n : ℕ) : Word (.reservation :: List.replicate (n + 1) .release ++ [.writeOff])

/-- The status a word comes to, with the sum of its deltas. -/
def statusOf (causes : List LedgerCause) (sum : Int) : ReservationStatus :=
  match causes.getLast? with
  | some .release => if sum = 0 then .fullyReleased else .partiallyReleased
  | some .cancellation => .cancelled
  | some .writeOff => .writtenOff
  | _ => .active

theorem getLast?_live {n : ℕ} :
    (LedgerCause.reservation :: List.replicate n LedgerCause.release).getLast? =
      some (if n = 0 then .reservation else .release) := by
  cases n with
  | zero => rfl
  | succ n => simp [List.replicate_succ', List.getLast?_cons]

theorem getLast?_writtenOff {n : ℕ} : (LedgerCause.reservation ::
    List.replicate (n + 1) LedgerCause.release ++ [LedgerCause.writeOff]).getLast? =
      some .writeOff := List.getLast?_concat

/-- A word that has not ended is a reservation and its releases. -/
theorem Word.live_of_status {causes : List LedgerCause} {sum : Int} (h : Word causes)
    (hactive : statusOf causes sum ∉ terminalStatuses) :
    ∃ n, causes = .reservation :: List.replicate n .release := by
  cases h with
  | live n => exact ⟨n, rfl⟩
  | cancelled => exact absurd (by simp [statusOf, terminalStatuses]) hactive
  | writtenOff n =>
    refine absurd ?_ hactive
    simp only [statusOf, getLast?_writtenOff]
    simp [terminalStatuses]

/-! ## Trails -/

/-- A reservation as its trail tells it. -/
structure Told (trail : List CapacityLedgerEntryEntity) (row : InvoiceReservationEntity) :
    Prop where
  word : Word (trail.map (·.cause))
  sum : (trail.map (·.deltaMinor)).sum = row.outstandingReservedMinor
  low : 0 ≤ row.outstandingReservedMinor
  returned : ∀ entry ∈ trail, entry.cause ≠ .reservation → entry.deltaMinor < 0
  status : row.status = statusOf (trail.map (·.cause)) row.outstandingReservedMinor
  terminal : row.status ∈ terminalStatuses ↔ row.outstandingReservedMinor = 0

/-- What a trail tells of a row, it tells of it acknowledged. -/
theorem Told.congr (h : Told trail row) (he : row'.unacknowledged = row.unacknowledged) :
    Told trail row' := by
  have hstatus : row'.status = row.status := congrArg (·.status) he
  have hreserved : row'.outstandingReservedMinor = row.outstandingReservedMinor :=
    congrArg (·.outstandingReservedMinor) he
  exact ⟨h.word, by rw [hreserved]; exact h.sum, by rw [hreserved]; exact h.low, h.returned,
    by rw [hstatus, hreserved]; exact h.status, by rw [hstatus, hreserved]; exact h.terminal⟩

/-- **The first entry** is the reservation. -/
theorem told_reserved {entry : CapacityLedgerEntryEntity} (hcause : entry.cause = .reservation)
    (hdelta : entry.deltaMinor = row.outstandingReservedMinor)
    (hpositive : 0 < row.outstandingReservedMinor) (hstatus : row.status = .active) :
    Told [entry] row := by
  refine ⟨?_, by simp [hdelta], hpositive.le, ?_, ?_, ?_⟩
  · simpa [hcause] using Word.live 0
  · intro e he hne
    obtain rfl := List.mem_singleton.mp he
    exact absurd hcause hne
  · simp [hcause, hstatus, statusOf]
  · simp [hstatus, terminalStatuses, hpositive.ne']

/-- **A release** is one entry more, of a reservation that is not terminal. -/
theorem Told.release {entry : CapacityLedgerEntryEntity} (h : Told trail row)
    (hactive : row.status ∉ terminalStatuses) (hcause : entry.cause = .release)
    (hdelta : entry.deltaMinor = row'.outstandingReservedMinor - row.outstandingReservedMinor)
    (hreturned : entry.deltaMinor < 0) (hlow : 0 ≤ row'.outstandingReservedMinor)
    (hstatus : row'.status = if row'.outstandingReservedMinor = 0 then .fullyReleased
      else .partiallyReleased) : Told (trail ++ [entry]) row' := by
  obtain ⟨n, hword⟩ := h.word.live_of_status (h.status ▸ hactive)
  refine ⟨?_, ?_, hlow, ?_, ?_, ?_⟩
  · rw [List.map_append, hword]
    simpa [hcause, List.replicate_succ'] using Word.live (n + 1)
  · rw [List.map_append, List.sum_append, h.sum]
    simp [hdelta]
  · intro e he hne
    rcases List.mem_append.mp he with he | he
    · exact h.returned e he hne
    · obtain rfl := List.mem_singleton.mp he
      exact hreturned
  · simp [statusOf, hcause, hstatus]
  · rw [hstatus]
    split <;> simp [*, terminalStatuses]

/-- **A cancellation** is the last entry: of a reservation that was never
released from, or of one that was. -/
theorem Told.cancel {entry : CapacityLedgerEntryEntity} {applied : CancelDecision}
    (h : Told trail row) (hd : cancelPolicy row.snapshot = .ok applied)
    (hcause : entry.cause = applied.cause) (hdelta : entry.deltaMinor = -applied.deltaMinor)
    (hleft : row'.outstandingReservedMinor = 0) (hstatus : row'.status = applied.status) :
    Told (trail ++ [entry]) row' := by
  have hs := cancelPolicy_ok hd
  have hactive : row.status ∉ terminalStatuses := hs.active
  have hreturned : applied.deltaMinor = row.outstandingReservedMinor :=
    hs.delta.trans (Int.sub_zero _)
  have hne : row.outstandingReservedMinor ≠ 0 := fun hzero => hactive (h.terminal.mpr hzero)
  have hlow := h.low
  have hpositive : 0 < row.outstandingReservedMinor := by omega
  have hnegative : entry.deltaMinor < 0 := by omega
  obtain ⟨n, hword⟩ := h.word.live_of_status (h.status ▸ hactive)
  have hbefore := h.status
  rw [hword, statusOf, getLast?_live] at hbefore
  -- it was released from exactly where its status says so
  have hdecided : n = 0 ∧ applied.cause = .cancellation ∧ applied.status = .cancelled ∨
      n ≠ 0 ∧ applied.cause = .writeOff ∧ applied.status = .writtenOff := by
    have hsnapshot : row.snapshot.status = row.status := rfl
    unfold cancelPolicy at hd
    rw [hsnapshot, if_neg hactive] at hd
    by_cases hn : n = 0
    · have hnot : row.status ≠ .partiallyReleased := by simp [hbefore, hn]
      rw [if_neg hnot] at hd
      cases hd
      exact Or.inl ⟨hn, rfl, rfl⟩
    · have hpartially : row.status = .partiallyReleased := by simp [hbefore, hn, hpositive.ne']
      rw [if_pos hpartially] at hd
      cases hd
      exact Or.inr ⟨hn, rfl, rfl⟩
  refine ⟨?_, ?_, hleft.ge, ?_, ?_, ?_⟩
  · rw [List.map_append, hword]
    rcases hdecided with ⟨rfl, hc, -⟩ | ⟨hn, hc, -⟩
    · simpa [hcause, hc] using Word.cancelled
    · obtain ⟨m, rfl⟩ := Nat.exists_eq_succ_of_ne_zero hn
      simpa [hcause, hc] using Word.writtenOff m
  · rw [List.map_append, List.sum_append, h.sum]
    simp [hdelta, hreturned, hleft]
  · intro e he hne
    rcases List.mem_append.mp he with he | he
    · exact h.returned e he hne
    · obtain rfl := List.mem_singleton.mp he
      exact hnegative
  · rcases hdecided with ⟨-, hc, hs⟩ | ⟨-, hc, hs⟩ <;> simp [statusOf, hcause, hc, hstatus, hs]
  · rcases hdecided with ⟨-, -, hs⟩ | ⟨-, -, hs⟩ <;> simp [hstatus, hs, hleft, terminalStatuses]

/-! ## Changes -/

/-- Every reservation of an invoice as its trail tells it, and no trail of
an invoice that was never reserved. -/
structure Trailed (p : Uuid) (invoiceId : String) (db : Db) : Prop where
  told : ∀ row ∈ db.reservationsFor p invoiceId, Told (db.trailOf p invoiceId) row
  untold : db.reservationsFor p invoiceId = [] → db.trailOf p invoiceId = []

theorem InvoiceKept.mem (h : InvoiceKept p invoiceId db db')
    (hrow : row' ∈ db'.reservationsFor p invoiceId) :
    ∃ row ∈ db.reservationsFor p invoiceId, row'.unacknowledged = row.unacknowledged := by
  have hmem := List.mem_map_of_mem (f := (·.unacknowledged)) hrow
  rw [h.rows] at hmem
  obtain ⟨row, hmem, he⟩ := List.mem_map.mp hmem
  exact ⟨row, hmem, he.symm⟩

theorem InvoiceKept.trailed (h : InvoiceKept p invoiceId db db') (ht : Trailed p invoiceId db) :
    Trailed p invoiceId db' := by
  refine ⟨fun row' hrow' => ?_, fun hnil => ?_⟩
  · obtain ⟨row, hrow, he⟩ := h.mem hrow'
    rw [h.trail]
    exact (ht.told row hrow).congr he
  · have hrows := h.rows
    rw [hnil, List.map_nil] at hrows
    rw [h.trail]
    exact ht.untold (List.map_eq_nil_iff.mp hrows.symm)

variable [Sha256]

/-- **One change** keeps what the trails tell. -/
theorem Change.trailed (hc : Change db db') (hfiled : Filed (db.reservationsOf p))
    (ht : Trailed p invoiceId db) : Trailed p invoiceId db' := by
  rcases hc.invoice hfiled with hk | ⟨hr, hf⟩ | ⟨-, hd, hs⟩ | ⟨hd, hs⟩
  · exact hk.trailed ht
  · obtain ⟨entry, htrail, hentry⟩ := hf.trail
    rw [ht.untold hf.fresh, List.nil_append] at htrail
    refine ⟨fun row hrow => ?_, fun hnil => by rw [hf.rows] at hnil; cases hnil⟩
    rw [hf.rows] at hrow
    obtain rfl := List.mem_singleton.mp hrow
    rw [htrail]
    exact told_reserved (congrArg (·.cause) hentry) (congrArg (·.deltaMinor) hentry)
      (reservationChecks_ok hr.checked).1 rfl
  · obtain ⟨entry, htrail, hentry⟩ := hs.trail
    have htold := ht.told _ (by rw [hs.found]; exact List.mem_singleton_self _)
    have hreleases := releasePolicy_accepted hd
    have hcause : entry.cause = .release := congrArg (·.cause) hentry
    have hdelta : entry.deltaMinor = -_ := congrArg (·.deltaMinor) hentry
    have hdifference := hreleases.delta
    have hreturned := hreleases.returned
    refine ⟨fun row' hrow' => ?_, fun hnil => by rw [hs.rows] at hnil; cases hnil⟩
    have hlow := (reservationChecks_ok ((hc.filed hfiled).checked row'
      (Db.mem_reservationsFor.mp hrow').1)).2.1
    rw [hs.rows] at hrow'
    obtain rfl := List.mem_singleton.mp hrow'
    rw [htrail]
    refine htold.release hreleases.active hcause ?_ (by omega) hlow hreleases.status
    rw [hdelta, hdifference]
    simp only [InvoiceReservationEntity.snapshot, releasedRow]
    omega
  · obtain ⟨entry, htrail, hentry⟩ := hs.trail
    have htold := ht.told _ (by rw [hs.found]; exact List.mem_singleton_self _)
    refine ⟨fun row' hrow' => ?_, fun hnil => by rw [hs.rows] at hnil; cases hnil⟩
    rw [hs.rows] at hrow'
    obtain rfl := List.mem_singleton.mp hrow'
    rw [htrail]
    exact htold.cancel hd (congrArg (·.cause) hentry) (congrArg (·.deltaMinor) hentry) rfl rfl

/-- **Every run.** -/
theorem Onward.trailed (h : Onward db db') (hfiled : Filed (db.reservationsOf p))
    (ht : Trailed p invoiceId db) :
    Filed (db'.reservationsOf p) ∧ Trailed p invoiceId db' :=
  h.induct (P := fun c => Filed (c.reservationsOf p) ∧ Trailed p invoiceId c)
    (fun _ _ hc hs => ⟨hs.filed hc.1, hs.trailed hc.1 hc.2⟩) ⟨hfiled, ht⟩

/-! ## The end of a trail -/

/-- A reservation whose status is terminal. -/
def Ended (p : Uuid) (invoiceId : String) (db : Db) : Prop :=
  ∃ row ∈ db.reservationsFor p invoiceId, row.status ∈ terminalStatuses

/-- **One change** of a reservation that has ended adds nothing to its trail. -/
theorem Change.ended (hc : Change db db') (hfiled : Filed (db.reservationsOf p))
    (hended : Ended p invoiceId db) :
    Ended p invoiceId db' ∧ db'.trailOf p invoiceId = db.trailOf p invoiceId := by
  obtain ⟨row, hrow, hterminal⟩ := hended
  have hone := hfiled.reservationsFor hrow
  rcases hc.invoice hfiled with hk | ⟨-, hf⟩ | ⟨-, hd, hs⟩ | ⟨hd, hs⟩
  · have hmem := List.mem_map_of_mem (f := (·.unacknowledged)) hrow
    rw [← hk.rows] at hmem
    obtain ⟨row', hrow', he⟩ := List.mem_map.mp hmem
    have hstatus : row'.status = row.status := congrArg (·.status) he
    exact ⟨⟨row', hrow', hstatus ▸ hterminal⟩, hk.trail⟩
  · rw [hf.fresh] at hone
    cases hone
  · -- a release or a cancellation finds the reservation not terminal
    obtain rfl : row = _ := List.singleton_inj.mp (hone.symm.trans hs.found)
    exact absurd hterminal (releasePolicy_accepted hd).active
  · obtain rfl : row = _ := List.singleton_inj.mp (hone.symm.trans hs.found)
    exact absurd hterminal (cancelPolicy_ok hd).active

theorem Onward.ended (h : Onward db db') (hfiled : Filed (db.reservationsOf p))
    (hended : Ended p invoiceId db) : db'.trailOf p invoiceId = db.trailOf p invoiceId :=
  (h.induct (P := fun c => Filed (c.reservationsOf p) ∧ Ended p invoiceId c ∧
    c.trailOf p invoiceId = db.trailOf p invoiceId) (fun _ _ hc hs => ⟨hs.filed hc.1,
      (hs.ended hc.1 hc.2.1).1, ((hs.ended hc.1 hc.2.1).2.trans hc.2.2)⟩)
    ⟨hfiled, hended, rfl⟩).2.2

/-! ## Statuses -/

omit [Sha256] in
/-- A word's status, read off its last cause. -/
theorem Word.status_iff {causes : List LedgerCause} {sum : Int} (h : Word causes) (hlow : 0 ≤ sum) :
    (statusOf causes sum = .active ↔ causes = [.reservation]) ∧
    (statusOf causes sum = .partiallyReleased ↔ causes.getLast? = some .release ∧ 0 < sum) ∧
    (statusOf causes sum = .fullyReleased ↔ causes.getLast? = some .release ∧ sum = 0) ∧
    (statusOf causes sum = .cancelled ↔ causes.getLast? = some .cancellation) ∧
    (statusOf causes sum = .writtenOff ↔ causes.getLast? = some .writeOff) := by
  have hpositive : 0 < sum ↔ sum ≠ 0 := by omega
  cases h with
  | live n =>
    rw [statusOf, getLast?_live]
    cases n with
    | zero => simp
    | succ n => by_cases hzero : sum = 0 <;> simp [hpositive, hzero, List.replicate_succ]
  | cancelled => simp [statusOf]
  | writtenOff n =>
    rw [statusOf, getLast?_writtenOff]
    simp

/-- **The trail of a reservation.** In every state of every run the trail of
a program's invoice is in the order of its sequences. Where the invoice was
reserved, the trail spells a word and its deltas add up to what the
reservation holds; each but the first gives back; the status is told by the
word and the sum; and after a terminal status no later state has a longer
one. -/
theorem trail_tells_reservation {organisations : List Uuid}
    (h : Onward (Db.initial organisations) db) (p : Uuid) (invoiceId : String) :
    let trail := db.trailOf p invoiceId
    let causes := trail.map (·.cause)
    let sum := (trail.map (·.deltaMinor)).sum
    (trail.Pairwise fun x y => x.sequence < y.sequence) ∧
    ∀ row ∈ db.reservationsFor p invoiceId,
      Word causes ∧ sum = row.outstandingReservedMinor ∧
      (∀ entry ∈ trail, entry.cause ≠ .reservation → entry.deltaMinor < 0) ∧
      ((row.status = .active ↔ causes = [.reservation]) ∧
        (row.status = .partiallyReleased ↔ causes.getLast? = some .release ∧ 0 < sum) ∧
        (row.status = .fullyReleased ↔ causes.getLast? = some .release ∧ sum = 0) ∧
        (row.status = .cancelled ↔ causes.getLast? = some .cancellation) ∧
        (row.status = .writtenOff ↔ causes.getLast? = some .writeOff)) ∧
      (row.status ∈ terminalStatuses →
        ∀ later, Onward db later → later.trailOf p invoiceId = trail) := by
  intro trail causes sum
  have hfresh : Fresh p (Db.initial organisations) := ⟨rfl, fun _ hp => by cases hp⟩
  have hexplained : Explained p db := h.induct (fun _ _ hc hs => hs.explained hc) hfresh.explained
  have hnone : Trailed p invoiceId (Db.initial organisations) :=
    ⟨fun row hrow => absurd hrow List.not_mem_nil, fun _ => rfl⟩
  obtain ⟨hfiled, htrailed⟩ := h.trailed filed_nil hnone
  refine ⟨hexplained.sorted.filter _, fun row hrow => ?_⟩
  have htold := htrailed.told row hrow
  have hsum : sum = row.outstandingReservedMinor := htold.sum
  refine ⟨htold.word, hsum, htold.returned, ?_, fun hterminal later hlater =>
    hlater.ended hfiled ⟨row, hrow, hterminal⟩⟩
  have hstatus : row.status = statusOf causes sum := by rw [hsum]; exact htold.status
  rw [hstatus]
  exact htold.word.status_iff (by rw [hsum]; exact htold.low)

end InvoiceReservation

namespace InvoiceReservation

attribute [local instance] trafficSha256

/-- The seed, a reserve, and a release of all of it. -/
def releasedTraffic : List Operation :=
  reservedTraffic ++ [.release (callAt 2) (releaseCommand "req-00002" "INV-1" 100)]

theorem trail_tells_reservation_releasedTraffic :
    ∃ row ∈ (Operation.run releasedTraffic migrated).reservationsFor
        (Uuid.ofText northwindUsdProgramId) "INV-1",
      row.status = .fullyReleased ∧ ∀ later, Onward (Operation.run releasedTraffic migrated) later →
        later.trailOf (Uuid.ofText northwindUsdProgramId) "INV-1" =
          (Operation.run releasedTraffic migrated).trailOf (Uuid.ofText northwindUsdProgramId)
            "INV-1" := by
  have hrun : Onward migrated (Operation.run releasedTraffic migrated) := Onward.start.run _
  have hstatuses : ((Operation.run releasedTraffic migrated).reservationsFor
      (Uuid.ofText northwindUsdProgramId) "INV-1").map (·.status) = [.fullyReleased] := by
    rw [releasedTraffic, reservedTraffic, List.cons_append, run_seed]
    decide +kernel
  obtain ⟨row, hrow, hstatus⟩ := List.map_eq_singleton_iff.mp hstatuses
  have hmem : row ∈ (Operation.run releasedTraffic migrated).reservationsFor
      (Uuid.ofText northwindUsdProgramId) "INV-1" := by simp [hrow]
  have htold :=
    (trail_tells_reservation hrun (Uuid.ofText northwindUsdProgramId) "INV-1").2 row hmem
  refine ⟨row, hmem, hstatus, htold.2.2.2.2 ?_⟩
  rw [hstatus]
  decide

end InvoiceReservation
