import InvoiceReservation.Model.Policies
/-!
# What the policies decide

One lemma for each policy, of everything an accepted decision says.
-/

namespace InvoiceReservation

variable {program : ProgramPosition}

theorem decideCapacity_accepted {amountMinor reservedMinor : Int} {rate fx : Option FxRate}
    (h : decideCapacity program amountMinor rate = .accepted reservedMinor fx) :
    reservedMinor = amountMinor ∧ reservedMinor ≤ available program ∧ fx = rate := by
  unfold decideCapacity at h
  dsimp only at h
  split at h
  · cases h
  · rename_i hle
    cases h
    exact ⟨rfl, by omega, rfl⟩

/-- **A reserve is accepted within what is available**, of a verified
program under its limit. -/
theorem decideReservation_accepted {invoiceAmountMinor reservedMinor : Int} {fx : FxResolution}
    {rate : Option FxRate} (h : decideReservation program invoiceAmountMinor fx =
      .ok (.accepted reservedMinor rate)) :
    program.positionVerified = true ∧ isOverLimit program = false ∧
      reservedMinor ≤ available program := by
  unfold decideReservation at h
  split at h
  · cases h
  rename_i hverified
  split at h
  · cases h
  rename_i hover
  refine ⟨by simpa using hverified, by simpa using hover, ?_⟩
  cases fx with
  | unavailable => cases h
  | sameCurrency =>
    simp only [Except.ok.injEq] at h
    exact (decideCapacity_accepted h).2.1
  | rate rate =>
    simp only at h
    cases hm : money invoiceAmountMinor program.currency with
    | error e => simp [hm] at h
    | ok amount =>
      simp only [hm] at h
      cases hc : convert amount program.currency rate.scaledRate with
      | error e => simp [hc] at h
      | ok outcome =>
        simp only [hc] at h
        cases outcome with
        | roundsToZero => cases h
        | converted converted =>
          simp only [Except.ok.injEq] at h
          exact (decideCapacity_accepted h).2.1

/-- What a reserve is refused for. -/
theorem decideReservation_refused {invoiceAmountMinor : Int} {fx : FxResolution}
    {code : RefusalCode} {details : List (String × String)}
    (h : decideReservation program invoiceAmountMinor fx = .ok (.refused code details)) :
    code ∈ [RefusalCode.positionUnverified, .programOverLimit, .fxRateUnavailable,
      .amountRoundsToZero, .insufficientCapacity] := by
  have hcapacity : ∀ n rate, decideCapacity program n rate = .refused code details →
      code = .insufficientCapacity := by
    intro n rate hc
    unfold decideCapacity at hc
    dsimp only at hc
    split at hc <;> cases hc
    rfl
  unfold decideReservation at h
  split at h
  · cases h; simp
  split at h
  · cases h; simp
  cases fx with
  | unavailable => cases h; simp
  | sameCurrency =>
    simp only [Except.ok.injEq] at h
    simp [hcapacity _ _ h]
  | rate rate =>
    simp only at h
    cases hm : money invoiceAmountMinor program.currency with
    | error e => simp [hm] at h
    | ok amount =>
      simp only [hm] at h
      cases hc : convert amount program.currency rate.scaledRate with
      | error e => simp [hc] at h
      | ok outcome =>
        simp only [hc] at h
        cases outcome with
        | roundsToZero => cases h; simp
        | converted converted =>
          simp only [Except.ok.injEq] at h
          simp [hcapacity _ _ h]

/-! ## Release and cancel -/

/-- What a release or a cancellation makes of a reservation: `deltaMinor`
is returned and the rest stays, and the status says whether there is any. -/
structure Settles (reservation : ReservationSnapshot) (deltaMinor outstandingReservedMinor : Int)
    (status : ReservationStatus) : Prop where
  active : reservation.status ∉ terminalStatuses
  delta : deltaMinor = reservation.outstandingReservedMinor - outstandingReservedMinor
  terminal : status ∈ terminalStatuses ↔ outstandingReservedMinor = 0

/-- Nothing converts to nothing. -/
theorem convert_zero {amount : Money} {targetCurrency : String} {scaledRate : Int}
    {outcome : ConversionOutcome} (h : convert amount targetCurrency scaledRate = .ok outcome)
    (hzero : amount.minor = 0) : outcome.minor = 0 := by
  have hround : roundHalfUp 0 rateScale = .ok 0 := by decide
  simp only [convert, hzero, Int.zero_mul, hround, ne_eq, not_true_eq_false, and_false,
    if_false] at h
  cases hm : money 0 targetCurrency with
  | error e => simp [hm] at h
  | ok m =>
    simp only [hm, Except.ok.injEq] at h
    subst h
    unfold money at hm
    split at hm
    · cases hm; rfl
    · cases hm

/-- Everything an accepted release says: what stays reserved is what the
rest of the invoice converts to, and a rest worth nothing is settled. -/
structure Releases (releaseMinor : Int) (releaseCurrency : String)
    (reservation : ReservationSnapshot) (scaledRate : Int) (applied : ReleaseDecision) :
    Prop where
  positive : 0 < releaseMinor
  currency : releaseCurrency = reservation.invoiceCurrency
  active : reservation.status ∉ terminalStatuses
  within : releaseMinor ≤ reservation.outstandingInvoiceMinor
  converts : ∃ outcome,
    convert ⟨reservation.outstandingInvoiceMinor - releaseMinor, reservation.programCurrency⟩
      reservation.programCurrency scaledRate = .ok outcome ∧
    applied.outstandingReservedMinor = outcome.minor
  delta : applied.deltaMinor =
    reservation.outstandingReservedMinor - applied.outstandingReservedMinor
  returned : 0 < applied.deltaMinor
  invoice : applied.outstandingInvoiceMinor = if applied.outstandingReservedMinor = 0 then 0
    else reservation.outstandingInvoiceMinor - releaseMinor
  status : applied.status = if applied.outstandingReservedMinor = 0 then .fullyReleased
    else .partiallyReleased

theorem money_eq {minor : Int} {code : String} {amount : Money}
    (h : money minor code = .ok amount) : amount = ⟨minor, code⟩ := by
  unfold money currency at h
  split at h
  · rename_i found hfound
    split at hfound
    · cases hfound; cases h; rfl
    · cases hfound
  · cases h

/-- **An accepted release.** -/
theorem releasePolicy_accepted {releaseMinor scaledRate : Int} {releaseCurrency : String}
    {reservation : ReservationSnapshot} {applied : ReleaseDecision}
    (h : releasePolicy releaseMinor releaseCurrency reservation scaledRate = .ok (.ok applied)) :
    Releases releaseMinor releaseCurrency reservation scaledRate applied := by
  unfold releasePolicy at h
  simp only [bind, Except.bind, pure, Except.pure] at h
  split at h
  · cases h
  rename_i hpositive
  split at h
  · cases h
  rename_i hcurrency
  split at h
  · cases h
  rename_i hactive
  split at h
  · cases h
  rename_i hwithin
  split at h
  · cases h
  split at h
  · cases h
  split at h
  · cases h
  split at h
  · cases h
  rename_i remainder hremainder
  obtain rfl := money_eq hremainder
  split at h
  · cases h
  rename_i conversion hconversion
  split at h
  · cases h
  split at h
  · cases h
  rename_i hnegative hzero
  have hreturned : 0 < reservation.outstandingReservedMinor - conversion.minor := by omega
  split at h
  · rename_i hsettled
    simp only [Except.ok.injEq] at h
    subst h
    exact ⟨by omega, by simpa using hcurrency, hactive, by omega, ⟨conversion, hconversion,
      hsettled.symm⟩, by rw [hsettled], hreturned, by simp, by simp⟩
  · rename_i hleft
    simp only [Except.ok.injEq] at h
    subst h
    -- an invoice with nothing outstanding would have left nothing reserved
    have hinvoice : ¬ reservation.outstandingInvoiceMinor - releaseMinor = 0 := fun hzero =>
      hleft (convert_zero hconversion hzero)
    exact ⟨by omega, by simpa using hcurrency, hactive, by omega, ⟨conversion, hconversion, rfl⟩,
      rfl, hreturned, by simp [hleft], by simp [hleft, hinvoice]⟩

/-- **An accepted release returns the difference**, and closes the
reservation exactly when nothing stays reserved. -/
theorem releasePolicy_ok {releaseMinor scaledRate : Int} {releaseCurrency : String}
    {reservation : ReservationSnapshot} {applied : ReleaseDecision}
    (h : releasePolicy releaseMinor releaseCurrency reservation scaledRate = .ok (.ok applied)) :
    Settles reservation applied.deltaMinor applied.outstandingReservedMinor applied.status := by
  have hr := releasePolicy_accepted h
  refine ⟨hr.active, hr.delta, ?_⟩
  rw [hr.status]
  split <;> simp [*, terminalStatuses]

/-- What a release is refused for. -/
theorem releasePolicy_error {releaseMinor scaledRate : Int} {releaseCurrency : String}
    {reservation : ReservationSnapshot} {code : RefusalCode}
    (h : releasePolicy releaseMinor releaseCurrency reservation scaledRate = .ok (.error code)) :
    code ∈ [RefusalCode.invalidAmount, .currencyMismatch, .reservationTerminal,
      .releaseExceedsReserved, .amountRoundsToZero] := by
  unfold releasePolicy at h
  simp only [bind, Except.bind, pure, Except.pure] at h
  split at h
  · cases h; simp
  split at h
  · cases h; simp
  split at h
  · cases h; simp
  split at h
  · cases h; simp
  split at h
  · cases h
  split at h
  · cases h
  split at h
  · cases h; simp
  split at h
  · cases h
  split at h
  · cases h
  split at h
  · cases h; simp
  split at h
  · cases h; simp
  split at h <;> cases h

/-- What a cancellation is refused for. -/
theorem cancelPolicy_error {reservation : ReservationSnapshot} {code : RefusalCode}
    (h : cancelPolicy reservation = .error code) : code = .reservationTerminal := by
  unfold cancelPolicy at h
  split at h
  · cases h; rfl
  · split at h <;> cases h

/-- **An accepted cancellation returns all that is reserved.** -/
theorem cancelPolicy_ok {reservation : ReservationSnapshot} {applied : CancelDecision}
    (h : cancelPolicy reservation = .ok applied) :
    Settles reservation applied.deltaMinor 0 applied.status := by
  unfold cancelPolicy at h
  split at h
  · cases h
  rename_i hactive
  split at h
  · cases h; exact ⟨hactive, by simp, by simp [terminalStatuses]⟩
  · cases h; exact ⟨hactive, by simp, by simp [terminalStatuses]⟩

theorem cancelPolicy_cause {reservation : ReservationSnapshot} {applied : CancelDecision}
    (h : cancelPolicy reservation = .ok applied) :
    applied.cause = .writeOff ∨ applied.cause = .cancellation := by
  unfold cancelPolicy at h
  split at h
  · cases h
  split at h
  · cases h; exact Or.inl rfl
  · cases h; exact Or.inr rfl

/-! ## Snapshots -/

/-- A marker acknowledges: it moves no amount. -/
theorem localOutstanding_marked {marker : SnapshotMarker} {version : Int}
    {reservations : List SnapshotReservation} :
    localOutstanding (reservations.map (marked marker version)) =
      localOutstanding reservations := by
  have hsame : ∀ r, (marked marker version r).origin = r.origin ∧
      (marked marker version r).outstandingReservedMinor = r.outstandingReservedMinor := by
    intro r
    unfold marked
    split <;> exact ⟨rfl, rfl⟩
  simp [localOutstanding, List.filter_map, Function.comp_def, hsame]

/-- **What a snapshot that is not refused comes to.** -/
theorem applySnapshotPolicy_apply {version reservedMinor creditLimitMinor : Int}
    {marker : SnapshotMarker} {reservations : List SnapshotReservation} {ids : List Uuid}
    {investigationRequired : Bool} {deltas : SnapshotDeltas}
    (h : applySnapshotPolicy program version reservedMinor creditLimitMinor marker reservations =
      .apply ids investigationRequired deltas) :
    investigationRequired = (localOutstanding reservations != program.localReservedMinor) ∧
      deltas.local = localOutstanding reservations - program.localReservedMinor ∧
      deltas.treasury = reservedMinor -
        acknowledgedOutstanding (reservations.map (marked marker version)) -
          program.treasuryReservedMinor ∧
      deltas.limit = creditLimitMinor - program.creditLimitMinor := by
  unfold applySnapshotPolicy at h
  simp only [localOutstanding_marked] at h
  split at h
  · cases h
  · cases h
    exact ⟨rfl, rfl, rfl, rfl⟩

end InvoiceReservation
