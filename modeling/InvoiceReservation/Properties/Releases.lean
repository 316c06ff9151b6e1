import InvoiceReservation.Helpers.Answers
import InvoiceReservation.Properties.Refusals
import InvoiceReservation.Properties.Trails
/-!
# Releases net to zero

What a reservation holds is told by how much of its invoice was released,
however that was split: the rest of the invoice, converted. A rest worth
nothing is settled with the release that leaves it.
-/

namespace InvoiceReservation

open Transactions

variable {db db' : Db} {p : Uuid} {invoiceId : String} {row row' : InvoiceReservationEntity}
variable {scaledRate t releaseMinor : Int} {releaseCurrency : String}
variable {applied : ReleaseDecision}

/-! ## A reservation -/

/-- A reservation at a scaled rate, of whose invoice `t` was
released. -/
structure Nets (scaledRate t : Int) (row : InvoiceReservationEntity) : Prop where
  rate : scaleRate ((row.fxRate.map numericText).getD "1.0") = .ok scaledRate
  currencies : isCurrencyCode row.invoiceCurrency = true ∧ isCurrencyCode row.programCurrency = true
  same : row.invoiceCurrency = row.programCurrency → scaledRate = rateScale
  total : row.reservedMinor = converted row.invoiceAmountMinor scaledRate
  low : 0 ≤ t
  high : t ≤ row.invoiceAmountMinor
  reserved : row.outstandingReservedMinor =
    converted (row.invoiceAmountMinor - t) scaledRate
  invoice : row.outstandingInvoiceMinor = if row.outstandingReservedMinor = 0 then 0
    else row.invoiceAmountMinor - t
  status : row.status = if row.outstandingReservedMinor = 0 then .fullyReleased
    else if t = 0 then .active else .partiallyReleased

/-- A reservation that was cancelled or written off. -/
def Withdrawn (row : InvoiceReservationEntity) : Prop :=
  row.status = .cancelled ∨ row.status = .writtenOff

namespace Nets

theorem positive (h : Nets scaledRate t row) : 0 < scaledRate :=
  (scaleRate_ok h.rate).2.1

/-- Treasury's acknowledgement is no part of it. -/
theorem congr (h : Nets scaledRate t row)
    (he : row'.unacknowledged = row.unacknowledged) : Nets scaledRate t row' := by
  have hnets : Nets scaledRate t row.unacknowledged :=
    ⟨h.rate, h.currencies, h.same, h.total, h.low, h.high, h.reserved, h.invoice, h.status⟩
  rw [← he] at hnets
  exact ⟨hnets.rate, hnets.currencies, hnets.same, hnets.total, hnets.low, hnets.high,
    hnets.reserved, hnets.invoice, hnets.status⟩

/-- A reservation is terminal when nothing stays reserved. -/
theorem terminal_iff (h : Nets scaledRate t row) :
    row.status ∈ terminalStatuses ↔ row.outstandingReservedMinor = 0 := by
  rw [h.status]
  split
  · simp [*, terminalStatuses]
  · split <;> simp [*, terminalStatuses]

/-- **While it is not terminal**, the invoice that is left is worth what is
left reserved. -/
theorem live (h : Nets scaledRate t row) (hactive : row.status ∉ terminalStatuses) :
    1 ≤ row.outstandingInvoiceMinor ∧ 1 ≤ row.outstandingReservedMinor ∧
      row.outstandingInvoiceMinor = row.invoiceAmountMinor - t ∧
      row.outstandingReservedMinor = converted row.outstandingInvoiceMinor scaledRate := by
  have hne : row.outstandingReservedMinor ≠ 0 := fun hzero => hactive (h.terminal_iff.mpr hzero)
  have hinvoice := h.invoice
  rw [if_neg hne] at hinvoice
  have hrest : 0 ≤ row.invoiceAmountMinor - t := by
    have := h.high
    omega
  have hnonneg : 0 ≤ row.outstandingReservedMinor := by
    rw [h.reserved]
    exact converted_nonneg hrest h.positive.le
  have hleft : row.invoiceAmountMinor - t ≠ 0 := by
    intro hzero
    refine hne ?_
    rw [h.reserved, hzero, converted_zero]
  exact ⟨by omega, by omega, hinvoice, by rw [hinvoice]; exact h.reserved⟩

/-- **A release** adds to what was released. -/
theorem release {now : Timestamp} (h : Nets scaledRate t row)
    (hr : Releases releaseMinor releaseCurrency row.snapshot scaledRate applied) :
    Nets scaledRate (t + releaseMinor) (releasedRow applied now row) := by
  obtain ⟨hpositive, -, hinvoice, -⟩ := h.live hr.active
  have hwithin : releaseMinor ≤ row.outstandingInvoiceMinor := hr.within
  have hpositive' := hr.positive
  have hlow := h.low
  obtain ⟨outcome, hconverts, hleft⟩ := hr.converts
  have hrest : row.snapshot.outstandingInvoiceMinor - releaseMinor =
      row.invoiceAmountMinor - (t + releaseMinor) := by
    have hsnapshot : row.snapshot.outstandingInvoiceMinor = row.outstandingInvoiceMinor := rfl
    omega
  rw [hrest] at hconverts
  have hconverted := convert_minor hconverts (by dsimp only; omega) h.positive
  have hrestInvoice := hr.invoice
  rw [hrest] at hrestInvoice
  refine ⟨h.rate, h.currencies, h.same, h.total, by omega, ?_, hleft.trans hconverted, hrestInvoice,
    ?_⟩
  · change t + releaseMinor ≤ row.invoiceAmountMinor
    omega
  · have hne : t + releaseMinor ≠ 0 := by omega
    rw [if_neg hne]
    exact hr.status

/-- **What an accepted release returns** is at least one, and within one of
what the release converts to. -/
theorem returned (h : Nets scaledRate t row)
    (hr : Releases releaseMinor releaseCurrency row.snapshot scaledRate applied) :
    1 ≤ applied.deltaMinor ∧ |applied.deltaMinor - converted releaseMinor scaledRate| ≤ 1 := by
  obtain ⟨-, -, hinvoice, hreserved⟩ := h.live hr.active
  obtain ⟨outcome, hconverts, hleft⟩ := hr.converts
  have hwithin : releaseMinor ≤ row.outstandingInvoiceMinor := hr.within
  have hpositive := hr.returned
  have hconverted := convert_minor hconverts (by
    change 0 ≤ row.outstandingInvoiceMinor - releaseMinor
    omega) h.positive
  have hsum := @abs_converted_add_sub scaledRate (row.outstandingInvoiceMinor - releaseMinor)
    releaseMinor
  have hwhole : row.outstandingInvoiceMinor - releaseMinor + releaseMinor =
      row.outstandingInvoiceMinor := by omega
  have hdelta : applied.deltaMinor =
      row.outstandingReservedMinor - applied.outstandingReservedMinor := hr.delta
  have hrest : applied.outstandingReservedMinor =
      converted (row.outstandingInvoiceMinor - releaseMinor) scaledRate := hleft.trans hconverted
  rw [hwhole, ← hreserved, ← hrest] at hsum
  refine ⟨by omega, ?_⟩
  rw [abs_le] at hsum ⊢
  omega

/-- **A release of all that is left** is accepted, and settles it. -/
theorem settles (h : Nets scaledRate t row) (hactive : row.status ∉ terminalStatuses) :
    releasePolicy row.outstandingInvoiceMinor row.invoiceCurrency row.snapshot scaledRate =
      .ok (.ok ⟨row.outstandingReservedMinor, 0, 0, .fullyReleased⟩) := by
  obtain ⟨hinvoice, hreserved, -, hconverted⟩ := h.live hactive
  have hsnapshot : row.snapshot = ⟨row.invoiceCurrency, row.programCurrency,
      row.outstandingInvoiceMinor, row.outstandingReservedMinor, row.status⟩ := rfl
  have hcurrency : isCurrencyCode row.snapshot.programCurrency = true := h.currencies.2
  rw [releasePolicy_eq h.currencies.1 hcurrency h.positive]
  have hpositive : ¬ row.outstandingInvoiceMinor ≤ 0 := by omega
  have hnonzero : ¬ row.outstandingReservedMinor = 0 := by omega
  have hlow : ¬ row.outstandingReservedMinor < 0 := by omega
  simp [hsnapshot, hpositive, hactive, ← hconverted, hnonzero, hlow]

/-- **A release is refused as more than is reserved** only when it is more
than is left of the invoice. -/
theorem exceeds (h : Nets scaledRate t row)
    (hd : releasePolicy releaseMinor releaseCurrency row.snapshot scaledRate =
      .ok (.error .releaseExceedsReserved)) : row.outstandingInvoiceMinor < releaseMinor := by
  have hsnapshot : row.snapshot = ⟨row.invoiceCurrency, row.programCurrency,
      row.outstandingInvoiceMinor, row.outstandingReservedMinor, row.status⟩ := rfl
  by_cases hmatches : releaseCurrency = row.invoiceCurrency
  swap
  · -- another currency is found out before any amount is converted
    unfold releasePolicy at hd
    simp only [bind, Except.bind, pure, Except.pure, hsnapshot] at hd
    split at hd
    · cases hd
    · simp at hd
  have hcurrency : isCurrencyCode row.snapshot.programCurrency = true := h.currencies.2
  rw [releasePolicy_eq (hmatches ▸ h.currencies.1) hcurrency h.positive] at hd
  simp only [hsnapshot] at hd
  by_contra hwithin
  by_cases hpositive : releaseMinor ≤ 0
  · simp [hpositive] at hd
  by_cases hterminal : row.status ∈ terminalStatuses
  · simp [hpositive, hmatches, hterminal] at hd
  -- what is left converts to no more than the whole
  obtain ⟨-, -, -, hconverted⟩ := h.live hterminal
  have hmono : converted (row.outstandingInvoiceMinor - releaseMinor) scaledRate ≤
      converted row.outstandingInvoiceMinor scaledRate :=
    converted_mono (by omega) h.positive.le
  rw [← hconverted] at hmono
  have hsign : ¬ row.outstandingReservedMinor -
      converted (row.outstandingInvoiceMinor - releaseMinor) scaledRate < 0 := by omega
  simp only [hpositive, if_false, ne_eq, hmatches, not_true_eq_false, hterminal,
    gt_iff_lt, hwithin, hsign] at hd
  split at hd
  · cases hd
  split at hd
  · cases hd
  split at hd <;> cases hd

end Nets

/-! ## Runs -/

variable [Sha256]

/-- What an operation releases of a reservation: the amount of a release of
it that is accepted. -/
def Operation.releasedMinor (p : Uuid) (invoiceId : String) (db : Db) : Operation → Int
  | .release rt command =>
    if Uuid.ofText command.programId = p ∧ command.invoiceId = invoiceId then
      match engine.run (InvoiceReservation.release rt command) db with
      | .ok (outcome, _) => if outcome.created then command.releaseMinor else 0
      | .error _ => 0
    else 0
  | _ => 0

/-- What a run releases of a reservation. -/
def releasedMinor (p : Uuid) (invoiceId : String) : List Operation → Db → Int
  | [], _ => 0
  | op :: ops, db =>
    op.releasedMinor p invoiceId db + releasedMinor p invoiceId ops (engine.effect op.tx db)

/-- What the releases of a trail returned. -/
def returnedMinor (trail : List CapacityLedgerEntryEntity) : Int :=
  -((trail.filter (·.cause = .release)).map (·.deltaMinor)).sum

/-- What an operation does to one reservation: it keeps it, releases from
it, or withdraws it. -/
inductive Reduces (p : Uuid) (invoiceId : String) (row : InvoiceReservationEntity) (db db' : Db) :
    Int → Prop
  | kept : InvoiceKept p invoiceId db db' → Reduces p invoiceId row db db' 0
  | released {now : Timestamp} {command : ReleaseCommand} {scaledRate : Int}
      {applied : ReleaseDecision} :
      scaleRate ((row.fxRate.map numericText).getD "1.0") = .ok scaledRate →
      Releases command.releaseMinor command.currency row.snapshot scaledRate applied →
      SettledBy p invoiceId (command.entry applied) (releasedRow applied now) row db db' →
      Reduces p invoiceId row db db' command.releaseMinor
  | withdrawn {now : Timestamp} {command : CancelCommand} {applied : CancelDecision} :
      cancelPolicy row.snapshot = .ok applied →
      SettledBy p invoiceId (command.entry applied) (cancelledRow applied now) row db db' →
      Reduces p invoiceId row db db' 0

omit [Sha256] in
theorem InvoiceKept.refl : InvoiceKept p invoiceId db db := ⟨rfl, rfl⟩

omit [Sha256] in
theorem InvoiceKept.trans {db'' : Db} (h : InvoiceKept p invoiceId db db')
    (h' : InvoiceKept p invoiceId db' db'') : InvoiceKept p invoiceId db db'' :=
  ⟨h'.rows.trans h.rows, h'.trail.trans h.trail⟩

omit [Sha256] in
/-- New versions of programs touch no reservation. -/
theorem kept_programs {f : ProgramEntity → ProgramEntity} (rows : List ProgramEntity) :
    InvoiceKept p invoiceId db (engine.applyAll (rows.map fun row => .program (f row)) db) :=
  kept_of_eq (read_programs (·.reservationsOf p) (fun _ _ => rfl) rows)
    (read_programs (·.trailOf p invoiceId) (fun _ _ => rfl) rows)

omit [Sha256] in
theorem runSeed_kept {now : Timestamp} {seeds : List ProgramSeed} {u : Unit}
    (h : engine.run (runSeed now seeds) db = .ok (u, db')) : InvoiceKept p invoiceId db db' := by
  refine runSeed_induct (motive := fun c => InvoiceKept p invoiceId c db') h .refl
    fun hp hnone hpersist hrest => InvoiceKept.trans ?_ hrest
  have hposition := seeded_position hp hnone hpersist
  refine kept_of_eq (by simp [advanceWrites]) (hposition.trail_still fun _ entry he => ?_)
  obtain rfl := List.mem_singleton.mp he
  simp [PendingLedgerEntry.trails, ProgramSeed.entry]

/-- **One operation.** -/
theorem Operation.reduces {op : Operation} {reply : Reply}
    (hr : engine.run op.tx db = .ok (reply, db')) (hfiled : Filed (db.reservationsOf p))
    (hrow : db.reservationsFor p invoiceId = [row]) :
    Reduces p invoiceId row db db' (op.releasedMinor p invoiceId db) := by
  cases op with
  | reserve rt command =>
    obtain ⟨outcome, h, -⟩ := Engine.run_map_ok.mp hr
    obtain ⟨program, hp, ⟨-, rfl⟩ | ⟨reservedMinor, fx, hreserved⟩⟩ := reserve_cases h
    · exact .kept InvoiceKept.refl
    · rcases hreserved.invoice invoiceId (program?_id hp) (p := p) with ⟨-, -, hf⟩ | hk
      · rw [hf.fresh] at hrow
        cases hrow
      · exact .kept hk
  | release rt command =>
    obtain ⟨outcome, h, -⟩ := Engine.run_map_ok.mp hr
    simp only [Operation.releasedMinor, h]
    obtain ⟨program, hp, ⟨⟨record, -, hanswer⟩, rfl⟩ | ⟨row', rate, applied, hrate, hd, hs⟩⟩ :=
      release_cases h
    · simp only [(answer_ok.mp hanswer).2.2.2.2, Bool.false_eq_true, if_false, ite_self]
      exact .kept InvoiceKept.refl
    · rw [← Db.id_of_program? hp]
      rcases hs.release_invoice invoiceId (program?_id hp) hfiled with
        ⟨hq, hi, hsettled⟩ | ⟨hne, hk⟩
      · obtain rfl : row = row' := List.singleton_inj.mp (hrow.symm.trans hsettled.found)
        rw [if_pos ⟨hq, hi⟩, hs.answered]
        exact .released hrate (releasePolicy_accepted hd) hsettled
      · rw [if_neg hne]
        exact .kept hk
  | cancel rt command =>
    obtain ⟨outcome, h, -⟩ := Engine.run_map_ok.mp hr
    obtain ⟨program, hp, ⟨-, rfl⟩ | ⟨row', applied, hd, hs⟩⟩ := cancel_cases h
    · exact .kept InvoiceKept.refl
    · rcases hs.cancel_invoice invoiceId hd (program?_id hp) hfiled with ⟨-, -, hsettled⟩ | ⟨-, hk⟩
      · obtain rfl : row = row' := List.singleton_inj.mp (hrow.symm.trans hsettled.found)
        exact .withdrawn hd hsettled
      · exact .kept hk
  | event rt event coordinates =>
    obtain ⟨handled, h, -⟩ := Engine.run_map_ok.mp hr
    rcases handleEvent_ok.mp h with ⟨-, -, rfl⟩ | ⟨_, -, -, rfl⟩ | ⟨-, outcome, happly, -⟩
    · exact .kept InvoiceKept.refl
    · exact .kept InvoiceKept.refl
    · rcases applyEvent_cases happly with ⟨-, rfl⟩ | ⟨program, -, ha⟩ | ⟨program, reference, -, he⟩
      · exact .kept InvoiceKept.refl
      · exact .kept ha.kept
      · exact .kept (he.kept hfiled)
  | snapshot rt snapshot coordinates =>
    obtain ⟨handled, h, -⟩ := Engine.run_map_ok.mp hr
    rcases handleSnapshot_ok.mp h with ⟨-, -, rfl⟩ | ⟨_, -, -, rfl⟩ | ⟨-, outcome, happly, -⟩
    · exact .kept InvoiceKept.refl
    · exact .kept InvoiceKept.refl
    · rcases applySnapshot_cases happly with ⟨-, rfl⟩ | ⟨-, _, _, _, _, _, ha⟩
      · exact .kept InvoiceKept.refl
      · exact .kept (ha.kept hfiled)
  | seed now programs =>
    obtain ⟨u, h, -⟩ := Engine.run_map_ok.mp hr
    exact .kept (runSeed_kept h)
  | sweep now days =>
    obtain ⟨rows, rfl⟩ := Operation.sweep_ok hr
    exact .kept (kept_of_eq rfl rfl)
  | flagInvestigation q =>
    obtain ⟨f, rows, rfl⟩ := Operation.flags_ok (Or.inl rfl) hr
    exact .kept (kept_programs rows)
  | holdProgram q =>
    obtain ⟨f, rows, rfl⟩ := Operation.flags_ok (Or.inr rfl) hr
    exact .kept (kept_programs rows)

/-- What an operation that ends in an error releases: nothing. -/
theorem releasedMinor_of_error {op : Operation} {failure : Failure}
    (h : engine.run op.tx db = .error failure) : op.releasedMinor p invoiceId db = 0 := by
  cases op with
  | release rt command =>
    cases hr : engine.run (release rt command) db with
    | ok r =>
      have hok : engine.run (Operation.release rt command).tx db = .ok (.write r.1, r.2) :=
        Engine.run_map_ok.mpr ⟨r.1, hr, rfl⟩
      rw [h] at hok
      cases hok
    | error e => simp [Operation.releasedMinor, hr]
  | _ => rfl

/-- One reservation of an invoice amount, at a scaled rate, of which `t` was
released, with its trail. -/
structure Releasing (p : Uuid) (invoiceId : String) (invoiceAmountMinor scaledRate t : Int)
    (db : Db) : Prop where
  filed : Filed (db.reservationsOf p)
  row : ∃ row, db.reservationsFor p invoiceId = [row] ∧
    row.invoiceAmountMinor = invoiceAmountMinor ∧
    (Withdrawn row ∨ Nets scaledRate t row ∧ returnedMinor (db.trailOf p invoiceId) =
      row.reservedMinor - row.outstandingReservedMinor)

omit [Sha256] in
theorem Withdrawn.terminal (h : Withdrawn row) : row.status ∈ terminalStatuses := by
  rcases h with h | h <;> simp [h, terminalStatuses]

/-- **The step lemma.** -/
theorem Releasing.step {invoiceAmountMinor : Int} {op : Operation}
    (h : Releasing p invoiceId invoiceAmountMinor scaledRate t db) :
    Releasing p invoiceId invoiceAmountMinor scaledRate (t + op.releasedMinor p invoiceId db)
      (engine.effect op.tx db) := by
  cases hr : engine.run op.tx db with
  | error failure =>
    rw [releasedMinor_of_error hr, add_zero, Engine.effect_of_run_error hr]
    exact h
  | ok r =>
    obtain ⟨reply, db'⟩ := r
    refine ⟨h.filed.run [op], ?_⟩
    rw [Engine.effect_of_run_ok hr]
    obtain ⟨row, hrow, hamount, hstate⟩ := h.row
    -- what the operation makes of the one row tells what is left of it
    have hreduces := Operation.reduces hr h.filed hrow
    generalize op.releasedMinor p invoiceId db = released at hreduces
    cases hreduces with
    | kept hk =>
      rw [add_zero]
      have hrows := hk.rows
      rw [hrow, List.map_singleton] at hrows
      obtain ⟨row', hrow', he⟩ := List.map_eq_singleton_iff.mp hrows
      have hstatus : row'.status = row.status := congrArg (·.status) he
      have htotal : row'.reservedMinor = row.reservedMinor := congrArg (·.reservedMinor) he
      have hleft : row'.outstandingReservedMinor = row.outstandingReservedMinor :=
        congrArg (·.outstandingReservedMinor) he
      refine ⟨row', hrow', (congrArg (·.invoiceAmountMinor) he).trans hamount, ?_⟩
      rw [Withdrawn, hstatus, hk.trail, htotal, hleft]
      exact hstate.imp_right fun hn => ⟨hn.1.congr he, hn.2⟩
    | @released now command rate applied hrate hreleases hs =>
      rcases hstate with hwithdrawn | ⟨hnets, hreturned⟩
      · exact absurd hwithdrawn.terminal hreleases.active
      obtain rfl : scaledRate = rate := Except.ok.inj (hnets.rate.symm.trans hrate)
      obtain ⟨entry, htrail, hentry⟩ := hs.trail
      have hcause : entry.cause = .release := congrArg (·.cause) hentry
      have hdelta : entry.deltaMinor = -applied.deltaMinor := congrArg (·.deltaMinor) hentry
      have hdifference : applied.deltaMinor =
          row.outstandingReservedMinor - applied.outstandingReservedMinor := hreleases.delta
      refine ⟨_, hs.rows, hamount, Or.inr ⟨hnets.release hreleases, ?_⟩⟩
      have hsum : returnedMinor (db'.trailOf p invoiceId) =
          returnedMinor (db.trailOf p invoiceId) + applied.deltaMinor := by
        simp [returnedMinor, htrail, hcause, hdelta]
        omega
      rw [hsum, hreturned, hdifference]
      simp only [releasedRow]
      omega
    | @withdrawn now command applied hd hs =>
      refine ⟨_, hs.rows, hamount, Or.inl ?_⟩
      unfold cancelPolicy at hd
      split at hd
      · cases hd
      split at hd
      · cases hd; exact Or.inr rfl
      · cases hd; exact Or.inl rfl

/-- **The run lemma.** -/
theorem Releasing.run {invoiceAmountMinor : Int}
    (h : Releasing p invoiceId invoiceAmountMinor scaledRate t db) (ops : List Operation) :
    Releasing p invoiceId invoiceAmountMinor scaledRate (t + releasedMinor p invoiceId ops db)
      (Operation.run ops db) := by
  induction ops generalizing t db with
  | nil => rwa [releasedMinor, add_zero]
  | cons op ops ih =>
    rw [releasedMinor, ← add_assoc]
    exact ih h.step

/-! ## A reserve -/

/-- **An accepted reserve** nets to all of its invoice. -/
theorem Reserved.nets {rt : Runtime} {command : ReserveCommand} {program : ProgramEntity}
    {reservedMinor : Int} {fx : Option FxRate} {outcome : WriteOutcome}
    (h : Reserved rt command db program reservedMinor fx outcome db') (hadmitted : command.Admitted)
    (hcurrency : isCurrencyCode program.currency = true) :
    ∃ scaledRate, Nets scaledRate 0 (reservedRow rt command program reservedMinor fx) := by
  obtain ⟨resolution, hresolved, hdecision⟩ := h.resolved
  have hamount := hadmitted.amount.positive
  have hcode := hadmitted.amount.currency
  have hpositive := (reservationChecks_ok h.checked).1
  have hreserved : reservedMinor ≠ 0 := by
    have hpositive' : 0 < reservedMinor := hpositive
    omega
  have hnets : ∀ scaledRate,
      scaleRate (((reservedRow rt command program reservedMinor fx).fxRate.map
        numericText).getD "1.0") = .ok scaledRate →
      (command.currency = program.currency → scaledRate = rateScale) →
      reservedMinor = converted command.amountMinor scaledRate →
      Nets scaledRate 0 (reservedRow rt command program reservedMinor fx) := by
    intro scaledRate hrate hsame htotal
    refine ⟨hrate, ⟨hcode, hcurrency⟩, hsame, htotal, le_refl 0, ?_, ?_, ?_, ?_⟩
    · change 0 ≤ command.amountMinor
      omega
    · change reservedMinor = converted (command.amountMinor - 0) scaledRate
      rwa [sub_zero]
    · change command.amountMinor = if reservedMinor = 0 then 0 else command.amountMinor - 0
      rw [if_neg hreserved, sub_zero]
    · change ReservationStatus.active = if reservedMinor = 0 then _ else _
      rw [if_neg hreserved, if_pos rfl]
  unfold resolveFx at hresolved
  rcases decideReservation_converted hdecision (by omega) with
    ⟨rfl, rfl, htotal⟩ | ⟨resolved, rfl, rfl, htotal⟩
  · have hone : scaleRate "1.0" = .ok rateScale := by decide
    refine ⟨rateScale, hnets rateScale hone (fun _ => rfl) ?_⟩
    rw [converted_rateScale, htotal]
  · obtain ⟨hvalue, hscaled, hlt⟩ := scaleRate_ok resolved.scaled
    refine ⟨resolved.scaledRate, hnets _ ?_ (fun hsame => ?_) htotal⟩
    · have hstored : (reservedRow rt command program reservedMinor (some resolved)).fxRate =
          some resolved.scaledRate := hvalue
      rw [hstored]
      exact scaleRate_numericText hscaled hlt
    · rw [if_pos hsame] at hresolved
      cases hresolved

/-! ## Attempts -/

/-- What a release of a reservation comes to: an accepted one returns at
least one, and within one of what it converts to; one is refused as more
than is reserved only when it is more than is left of the invoice; and one
of all that is left is accepted by the policy, and a new one of it settles
the reservation. -/
structure Attempts (db : Db) (row : InvoiceReservationEntity) (scaledRate : Int) (rt : Runtime)
    (command : ReleaseCommand) : Prop where
  returned : ∀ outcome after, engine.run (release rt command) db = .ok (outcome, after) →
    outcome.created = true → ∃ entry,
      after.trailOf (Uuid.ofText command.programId) command.invoiceId =
        db.trailOf (Uuid.ofText command.programId) command.invoiceId ++ [entry] ∧
      1 ≤ -entry.deltaMinor ∧
      |-entry.deltaMinor - converted command.releaseMinor scaledRate| ≤ 1
  exceeds : ∀ details, engine.run (release rt command) db =
    .error (.refusal .releaseExceedsReserved details) →
      row.outstandingInvoiceMinor < command.releaseMinor
  decides : row.status ∉ terminalStatuses →
    releasePolicy row.outstandingInvoiceMinor row.invoiceCurrency row.snapshot scaledRate =
      .ok (.ok ⟨row.outstandingReservedMinor, 0, 0, .fullyReleased⟩)
  settles : row.status ∉ terminalStatuses → command.releaseMinor = row.outstandingInvoiceMinor →
    command.currency = row.invoiceCurrency →
    (∃ program, db.program? (Uuid.ofText command.programId) = some program ∧
      program.positionVerified = true ∧ program.organisationId = command.organisationId) →
    db.request? command.organisationId command.requestId = none →
    WriteTexts command.requestId command.invoiceId command.correlationId →
      ∃ outcome after row', engine.run (release rt command) db = .ok (outcome, after) ∧
        outcome.created = true ∧
        after.reservationsFor (Uuid.ofText command.programId) command.invoiceId = [row'] ∧
        row'.status = .fullyReleased ∧ row'.outstandingInvoiceMinor = 0 ∧
        row'.outstandingReservedMinor = 0

variable {rt : Runtime} {command : ReleaseCommand} {program : ProgramEntity}

theorem run_release (hp : db.program? (Uuid.ofText command.programId) = some program) :
    engine.run (release rt command) db =
      engine.run (withIdempotency command.identity rt.now
        (proceedRelease rt command program)) db := by
  rw [release, withProgramLock, run_withProgramLockOr, hp]

omit [Sha256] in
/-- What a record refuses a request with. -/
theorem answer_refused {identity : RequestIdentity} {record : RequestRecordEntity}
    {code : RefusalCode} {details : List (String × String)}
    (h : identity.answer record = .error (.refusal code details)) :
    code ∈ [RefusalCode.idempotencyConflict, .requestInFlight, .idempotencyExpired] := by
  unfold RequestIdentity.answer decideReplay at h
  split at h
  · rename_i failure hfailure
    cases h
    split at hfailure
    · cases hfailure
    · split at hfailure <;> first | cases hfailure | (split at hfailure <;> cases hfailure)
  · rename_i refused hrefused
    cases h
    split at hrefused
    · cases hrefused; simp
    · split at hrefused
      · cases hrefused; simp
      · cases hrefused; simp
      · split at hrefused <;> cases hrefused
  · cases h
  · cases h

/-- A release that was accepted settled some of its reservation. -/
theorem release_settles {outcome : WriteOutcome}
    (hrun : engine.run (release rt command) db = .ok (outcome, db'))
    (hcreated : outcome.created = true)
    (hfiled : Filed (db.reservationsOf (Uuid.ofText command.programId)))
    (hrow : db.reservationsFor (Uuid.ofText command.programId) command.invoiceId = [row])
    (hrate : scaleRate ((row.fxRate.map numericText).getD "1.0") = .ok scaledRate) :
    ∃ applied, releasePolicy command.releaseMinor command.currency row.snapshot scaledRate =
        .ok (.ok applied) ∧
      SettledBy (Uuid.ofText command.programId) command.invoiceId (command.entry applied)
        (releasedRow applied rt.now) row db db' := by
  obtain ⟨program, hp, ⟨⟨record, -, hanswer⟩, -⟩ | ⟨row', rate, applied, hrate', hd, hs⟩⟩ :=
    release_cases hrun
  · simp [(answer_ok.mp hanswer).2.2.2.2] at hcreated
  have hid := Db.id_of_program? hp
  rcases hs.release_invoice command.invoiceId (program?_id hp) hfiled with
    ⟨-, -, hsettled⟩ | ⟨hne, -⟩
  swap
  · exact absurd ⟨hid, rfl⟩ hne
  obtain rfl : row = row' := List.singleton_inj.mp (hrow.symm.trans hsettled.found)
  obtain rfl : scaledRate = rate := Except.ok.inj (hrate.symm.trans hrate')
  exact ⟨applied, hd, hsettled⟩

/-- **Every attempt** on a reservation that nets. -/
theorem attempts_of_nets (h : Nets scaledRate t row)
    (hreliable : ∀ program, db.program? (Uuid.ofText command.programId) = some program →
      Reliable db program) (hlegal : db.Legal)
    (hrow : db.reservationsFor (Uuid.ofText command.programId) command.invoiceId = [row]) :
    Attempts db row scaledRate rt command := by
  have hfound : (db.reservationsFor (Uuid.ofText command.programId) command.invoiceId).head? =
      some row := by rw [hrow]; rfl
  have hpending : ∀ now, ((db.apply (.requests [command.identity.pending now])).reservationsFor
      (Uuid.ofText command.programId) command.invoiceId).head? = some row := fun now => by
    simpa [Db.reservationsFor] using hfound
  refine ⟨fun outcome after hrun hcreated => ?_, fun details hrun => ?_, h.settles,
    fun hactive hall hcurrency hscope hnew htexts => ?_⟩
  · -- an accepted release: its entry gives back what the rest of the invoice does not need
    obtain ⟨applied, hd, hsettled⟩ := release_settles hrun hcreated hlegal.filed hrow h.rate
    obtain ⟨entry, htrail, hentry⟩ := hsettled.trail
    have hdelta : entry.deltaMinor = -applied.deltaMinor := congrArg (·.deltaMinor) hentry
    refine ⟨entry, htrail, ?_⟩
    rw [hdelta, neg_neg]
    exact h.returned (releasePolicy_accepted hd)
  · cases hp : db.program? (Uuid.ofText command.programId) with
    | none => simp [release, withProgramLock, run_withProgramLockOr, hp] at hrun
    | some program =>
      rw [run_release hp] at hrun
      by_cases hid : storableText command.identity.requestId = true
      swap
      · rw [run_withIdempotency_of_unstorable (by simpa using hid)] at hrun
        cases hrun
      rw [run_withIdempotency hid] at hrun
      cases hr : db.request? command.identity.organisationId command.identity.requestId with
      | some record =>
        simp only [hr] at hrun
        cases ha : command.identity.answer record with
        | ok answered => simp [ha, Except.map] at hrun
        | error failure =>
          simp only [ha, Except.map, Except.error.injEq] at hrun
          rw [hrun] at ha
          exact absurd (answer_refused ha) (by simp)
      | none =>
        simp only [hr] at hrun
        split at hrun
        swap
        · cases hrun
        by_cases hinvoice : storableText command.invoiceId = true
        swap
        · rw [run_proceedRelease_of_unstorable (by simpa using hinvoice)] at hrun
          split at hrun <;> cases hrun
        rw [run_proceedRelease hinvoice, hpending] at hrun
        split at hrun
        · cases hrun
        simp only [h.rate] at hrun
        cases hd : releasePolicy command.releaseMinor command.currency row.snapshot scaledRate with
        | error e => simp [hd] at hrun
        | ok decision =>
          simp only [hd] at hrun
          cases decision with
          | error code =>
            cases hrun
            exact h.exceeds hd
          | ok applied =>
            -- the writes of an accepted release refuse nothing
            have hnone : RefusedAs [] (.refusal .releaseExceedsReserved details) :=
              Engine.run_error refusedAs_exec acceptRelease_throws hrun
            exact absurd (hnone _ _ rfl) List.not_mem_nil
  · -- a release of all that is left is accepted
    obtain ⟨program, hp, hverified, horganisation⟩ := hscope
    have hd := h.settles hactive
    have hcontains : db.organisations.contains command.identity.organisationId = true := by
      have hdeclared := (hlegal.programs.rows program (Table.get_eq_some hp).1).organisation
      rwa [horganisation] at hdeclared
    rw [← hall, ← hcurrency] at hd
    obtain ⟨outcome, after, hok, hcreated⟩ := (hreliable program hp).requests.acceptRelease
      rt htexts (by simpa using hp) request?_apply_pending (hpending rt.now) h.positive hd
    have hrun : engine.run (release rt command) db = .ok (outcome, after) := by
      have hnew' : db.request? command.identity.organisationId command.identity.requestId = none :=
        hnew
      rw [run_release hp, run_withIdempotency htexts.requestId]
      simp only [hnew', hcontains, if_true]
      rw [run_proceedRelease htexts.invoiceId, hpending]
      simp [hverified, h.rate, hd, hok]
    obtain ⟨applied, hd', hsettled⟩ := release_settles hrun hcreated hlegal.filed hrow h.rate
    obtain rfl := Except.ok.inj (Except.ok.inj (hd.symm.trans hd'))
    exact ⟨outcome, after, _, hrun, hcreated, hsettled.rows, rfl, rfl, rfl⟩

/-! ## The whole -/

/-- **Releases net to zero.** A reserve that was accepted has a rate, and
after any run the reservation, unless it was cancelled or written off, is
told by what was released in all: it holds what the rest of the invoice
comes to at the rate, and is released in full, with nothing outstanding,
exactly when that is nothing. While it is not terminal both what is left of
the invoice and what it holds are at least one. What the releases returned
and what it holds add up to what was reserved. And every release attempted
then comes to what `Attempts` says. -/
theorem releases_net_to_zero {organisations : List Uuid} {before : List Operation} {rt : Runtime}
    {command : ReserveCommand} {outcome : WriteOutcome} (hadmitted : command.Admitted)
    (hreserve : engine.run (reserve rt command)
      (Operation.run before (Db.initial organisations)) = .ok (outcome, db))
    (hcreated : outcome.created = true) :
    ∃ scaledRate, 0 < scaledRate ∧ ∀ ops,
      let p := Uuid.ofText command.programId
      let t := releasedMinor p command.invoiceText ops db
      let later := Operation.run ops db
      ∃ row, later.reservationsFor p command.invoiceText = [row] ∧
        (Withdrawn row ∨
          scaleRate ((row.fxRate.map numericText).getD "1.0") = .ok scaledRate ∧
          (row.invoiceCurrency = row.programCurrency → scaledRate = rateScale) ∧
          row.reservedMinor = converted command.amountMinor scaledRate ∧
          row.outstandingReservedMinor = converted (command.amountMinor - t) scaledRate ∧
          (row.status ∉ terminalStatuses →
            1 ≤ row.outstandingInvoiceMinor ∧ 1 ≤ row.outstandingReservedMinor ∧
            row.outstandingInvoiceMinor = command.amountMinor - t ∧
            row.outstandingReservedMinor = converted row.outstandingInvoiceMinor scaledRate) ∧
          (row.status = .fullyReleased ↔ converted (command.amountMinor - t) scaledRate = 0) ∧
          (converted (command.amountMinor - t) scaledRate = 0 →
            row.outstandingInvoiceMinor = 0 ∧ row.outstandingReservedMinor = 0) ∧
          row.status = (if row.outstandingReservedMinor = 0 then .fullyReleased
            else if t = 0 then .active else .partiallyReleased) ∧
          returnedMinor (later.trailOf p command.invoiceText) =
            row.reservedMinor - row.outstandingReservedMinor ∧
          ∀ rt attempt, Uuid.ofText attempt.programId = p →
            attempt.invoiceId = command.invoiceText →
              Attempts later row scaledRate rt attempt) := by
  obtain ⟨program, hp, ⟨⟨record, -, hanswer⟩, -⟩ | ⟨reservedMinor, fx, hr⟩⟩ :=
    reserve_cases hreserve
  · simp [(answer_ok.mp hanswer).2.2.2.2] at hcreated
  have hid := Db.id_of_program? hp
  have hlegal : (Operation.run before (Db.initial organisations)).Legal := legal_initial.run before
  obtain ⟨scaledRate, hnets⟩ := hr.nets hadmitted (hlegal.currency hp)
  refine ⟨scaledRate, hnets.positive, fun ops => ?_⟩
  intro p t later
  -- the reserve and what follows it are one run
  have hdb : db = Operation.run (before ++ [.reserve rt command]) (Db.initial organisations) := by
    rw [Operation.run, serial_append]
    have hrun : engine.run (Operation.reserve rt command).tx
        (Operation.run before (Db.initial organisations)) = .ok (.write outcome, db) :=
      Engine.run_map_ok.mpr ⟨outcome, hreserve, rfl⟩
    exact (Engine.effect_of_run_ok hrun).symm
  have hlater : later = Operation.run (before ++ [.reserve rt command] ++ ops)
      (Db.initial organisations) := by
    rw [Operation.run, serial_append]
    exact congrArg (Operation.run ops) hdb
  -- what the reserve leaves: one reservation, and one entry in its trail
  have hstart : Releasing p command.invoiceText command.amountMinor scaledRate 0 db := by
    rcases hr.invoice command.invoiceText (program?_id hp) (p := p) with ⟨-, -, hf⟩ | hk
    · refine ⟨hdb ▸ (legal_initial.run _).filed, _, hf.rows, rfl, Or.inr ⟨hnets, ?_⟩⟩
      obtain ⟨entry, htrail, hentry⟩ := hf.trail
      have hcause : entry.cause = .reservation := congrArg (·.cause) hentry
      have honward : Onward (Db.initial organisations)
          (Operation.run before (Db.initial organisations)) := Onward.start.run before
      have hnone : Trailed p command.invoiceText (Db.initial organisations) :=
        ⟨fun row hrow => absurd hrow List.not_mem_nil, fun _ => rfl⟩
      have huntold := (honward.trailed filed_nil hnone).2.untold hf.fresh
      rw [htrail, huntold]
      simp [returnedMinor, hcause, reservedRow, Stmt.newReservation]
    · have hnil : (db.reservationsFor p command.invoiceText).map (·.unacknowledged) = [] := by
        have hp' : program.id = p := hid
        rw [hk.rows, ← hp', hr.newInvoice, List.map_nil]
      have hne := hr.reservationsFor_ne_nil
      rw [hid] at hne
      exact absurd (List.map_eq_nil_iff.mp hnil) hne
  have hreleasing := hstart.run ops
  rw [zero_add] at hreleasing
  obtain ⟨row, hrow, hamount, hstate⟩ := hreleasing.row
  refine ⟨row, hrow, hstate.imp_right ?_⟩
  rintro ⟨hn, hreturned⟩
  have hreserved : row.outstandingReservedMinor =
      converted (command.amountMinor - t) scaledRate := by
    rw [← hamount]
    exact hn.reserved
  have htotal : row.reservedMinor = converted command.amountMinor scaledRate := by
    rw [← hamount]
    exact hn.total
  refine ⟨hn.rate, hn.same, htotal, hreserved, fun hactive => ?_, ?_, fun hzero => ?_, hn.status,
    hreturned, fun rt attempt hprogram hinvoice => attempts_of_nets hn (fun program hp => ?_) ?_ ?_⟩
  · obtain ⟨hinvoice, hleft, hrest, hconverted⟩ := hn.live hactive
    exact ⟨hinvoice, hleft, by rw [← hamount]; exact hrest, hconverted⟩
  · have hstatus := hn.status
    rw [← hreserved]
    constructor
    · intro hfull
      rw [hfull] at hstatus
      split at hstatus
      · assumption
      · split at hstatus <;> cases hstatus
    · intro hzero
      rw [hstatus, if_pos hzero]
  · rw [← hreserved] at hzero
    exact ⟨by rw [hn.invoice, if_pos hzero], hzero⟩
  · rw [hlater] at hp ⊢
    exact reliable_run hp
  · rw [hlater]
    exact legal_initial.run _
  · rw [hprogram, hinvoice]
    exact hrow

end InvoiceReservation

namespace InvoiceReservation

attribute [local instance] trafficSha256

/-- A seeded program, a reserve of 100, and a release of all of it. -/
theorem releases_net_to_zero_traffic :
    ∃ outcome db, engine.run (reserve (callAt 1) (reserveCommand "req-00001" "INV-1" 100))
        (Operation.run [.seed 0 programs] migrated) = .ok (outcome, db) ∧
      outcome.created = true ∧
      ∃ scaledRate, 0 < scaledRate ∧
        ∃ row, (Operation.run [.release (callAt 2) (releaseCommand "req-00002" "INV-1" 100)]
            db).reservationsFor (Uuid.ofText northwindUsdProgramId) "INV-1" = [row] ∧
          row.status = .fullyReleased ∧ converted (100 - 100) scaledRate = 0 := by
  have hcreated : (engine.run (reserve (callAt 1) (reserveCommand "req-00001" "INV-1" 100))
      (Operation.run [.seed 0 programs] migrated)).toOption.map (·.1.created) = some true := by
    rw [run_seed]
    decide +kernel
  have hrows : (engine.run (reserve (callAt 1) (reserveCommand "req-00001" "INV-1" 100))
      (Operation.run [.seed 0 programs] migrated)).toOption.map (fun reply =>
        (((Operation.run [.release (callAt 2) (releaseCommand "req-00002" "INV-1" 100)]
            reply.2).reservationsFor (Uuid.ofText northwindUsdProgramId) "INV-1").map (·.status),
          releasedMinor (Uuid.ofText northwindUsdProgramId) "INV-1"
            [.release (callAt 2) (releaseCommand "req-00002" "INV-1" 100)] reply.2)) =
      some ([.fullyReleased], 100) := by
    rw [run_seed]
    decide +kernel
  cases hrun : engine.run (reserve (callAt 1) (reserveCommand "req-00001" "INV-1" 100))
      (Operation.run [.seed 0 programs] migrated) with
  | error e => simp [hrun, Except.toOption] at hcreated
  | ok reply =>
    obtain ⟨outcome, db⟩ := reply
    have hnew : outcome.created = true := by simpa [hrun, Except.toOption] using hcreated
    obtain ⟨scaledRate, hpositive, hnets⟩ := releases_net_to_zero
      ⟨by decide, by decide, by decide, by decide⟩ hrun hnew
    simp only [reserveCommand_invoiceText] at hnets
    obtain ⟨row, hrow, hnet⟩ :=
      hnets [.release (callAt 2) (releaseCommand "req-00002" "INV-1" 100)]
    simp only [hrun, Except.toOption, Option.map_some, Option.some.injEq, Prod.mk.injEq] at hrows
    obtain ⟨hstatuses, htotal⟩ := hrows
    have hstatus : row.status = .fullyReleased := by
      have hone := hrow ▸ hstatuses
      simpa using hone
    refine ⟨outcome, db, rfl, hnew, scaledRate, hpositive, row, hrow, hstatus, ?_⟩
    rcases hnet with hwithdrawn | ⟨-, -, -, -, -, hfull, -⟩
    · simp [Withdrawn, hstatus] at hwithdrawn
    · have hzero : converted (100 - releasedMinor (Uuid.ofText northwindUsdProgramId) "INV-1"
          [.release (callAt 2) (releaseCommand "req-00002" "INV-1" 100)] db) scaledRate = 0 :=
        hfull.mp hstatus
      rwa [htotal] at hzero

end InvoiceReservation
