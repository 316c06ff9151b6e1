import InvoiceReservation.Helpers.Requests
import InvoiceReservation.Properties.History
/-!
# What a write is refused for

A write that is refused threw the code itself: no statement fails with a
refusal. Each of the three throws few codes of its own, and the record of
its key adds two; that a request is in flight no committed record says.
-/

namespace InvoiceReservation

open Transactions

variable {db db' : Db} {α : Type} {codes : List RefusalCode}

/-- A failure that is a refusal only with one of some codes. -/
def RefusedAs (codes : List RefusalCode) (failure : Failure) : Prop :=
  ∀ code details, failure = .refusal code details → code ∈ codes

/-! ## Statements -/

/-- What fails a statement is one of its constraints. -/
theorem guarded_error_mem {constraints : List Constraint} {answer : α} {failure : Failure}
    (h : guarded constraints answer = .error failure) : ∃ c ∈ constraints, failure = .sql c.2 := by
  unfold guarded at h
  split at h
  · rename_i constraint hfound
    cases h
    exact ⟨constraint, List.mem_of_find?_eq_some hfound, rfl⟩
  · cases h

theorem guarded_error {constraints : List Constraint} {answer : α} {failure : Failure}
    (h : guarded constraints answer = .error failure) : ∃ error, failure = .sql error := by
  obtain ⟨c, -, he⟩ := guarded_error_mem h
  exact ⟨c.2, he⟩

/-- **No statement fails with a refusal.** -/
theorem exec_error {β : Type} {s : Stmt β} {failure : Failure}
    (h : Stmt.exec s db = .error failure) : ∃ error, failure = .sql error := by
  cases s with
  | insertProgram p organisationId currency now =>
    simp only [Stmt.exec] at h
    split at h
    · cases h
    · exact guarded_error h
  | insertRequest organisationId requestId operation fingerprint now =>
    simp only [Stmt.exec] at h
    split at h
    · cases h
    · exact guarded_error h
  | updatePosition p position now reconciliationInProgress =>
    simp only [Stmt.exec] at h
    split at h
    · cases h
    · exact guarded_error h
  | _ => first | cases h | exact guarded_error h

/-- Nor does one whose parameters cannot be read. -/
theorem send_error {β : Type} {s : Stmt β} {failure : Failure}
    (h : s.send db = .error failure) : ∃ error, failure = .sql error := by
  unfold Stmt.send at h
  cases hparameters : guarded s.parameters () with
  | error e =>
    rw [hparameters] at h
    obtain rfl : e = failure := by simpa [bind, Except.bind] using h
    exact guarded_error hparameters
  | ok u =>
    rw [hparameters] at h
    exact exec_error h

theorem refusedAs_exec {β : Type} (s : Stmt β) (db : Db) (failure : Failure)
    (h : engine.exec s db = .error failure) : RefusedAs codes failure := by
  obtain ⟨error, rfl⟩ := send_error h
  exact fun _ _ he => by cases he

/-! ## What is thrown -/

section Throws

variable {rt : Runtime} {program : ProgramEntity}

theorem throws_none {s : Stmt α} : (query s).Throws (RefusedAs codes) := fun _ => trivial

theorem throws_code {code : RefusalCode} {details : List (String × String)} (h : code ∈ codes) :
    (refuse code details : Transaction α).Throws (RefusedAs codes) := fun _ _ he => by
  cases he
  exact h

theorem throws_typeError {x : Except TypeError α} :
    (orTypeError x).Throws (RefusedAs codes) := by
  cases x with
  | ok a => trivial
  | error e => exact fun _ _ h => by cases h

theorem throws_advance {programId : String} {result : AdvanceResult} {now : Timestamp}
    {flag : Bool} : (persistAdvance programId result now flag).Throws (RefusedAs codes) := by
  unfold persistAdvance
  split
  · exact throws_none.bind fun _ => throws_none
  · exact throws_none

/-- The codes a reserve throws. -/
def reserveCodes : List RefusalCode :=
  [.duplicateInvoice, .positionUnverified, .programOverLimit, .fxRateUnavailable,
    .amountRoundsToZero, .insufficientCapacity]

/-- The codes a release of a positive amount throws. -/
def releaseCodes : List RefusalCode :=
  [.positionUnverified, .notFound, .currencyMismatch, .reservationTerminal,
    .releaseExceedsReserved, .amountRoundsToZero]

/-- The codes a cancellation throws. -/
def cancelCodes : List RefusalCode := [.positionUnverified, .notFound, .reservationTerminal]

variable [Sha256]

theorem reserve_throws {command : ReserveCommand} :
    (proceedReserve rt command program).Throws (RefusedAs reserveCodes) := by
  unfold proceedReserve
  refine throws_none.bind fun duplicate => ?_
  split
  · exact throws_code (by decide)
  refine throws_typeError.bind fun fx => ?_
  cases hd : decideReservation program.toProgramPosition command.amountMinor fx with
  | error e => exact fun _ _ h => by cases h
  | ok decision =>
    cases decision with
    | refused code details =>
      exact throws_code (List.mem_cons_of_mem _ (decideReservation_refused hd))
    | accepted reservedMinor fx =>
      exact throws_none.bind fun _ => throws_advance.bind fun _ => throws_none.bind fun _ => trivial

omit [Sha256] in
/-- A release of a positive amount is not refused for its amount. -/
theorem releasePolicy_positive {releaseMinor scaledRate : Int} {releaseCurrency : String}
    {reservation : ReservationSnapshot} {code : RefusalCode} (hpositive : 0 < releaseMinor)
    (h : releasePolicy releaseMinor releaseCurrency reservation scaledRate = .ok (.error code)) :
    code ∈ releaseCodes := by
  have hcode := releasePolicy_error h
  rcases List.mem_cons.mp hcode with rfl | hcode
  · exfalso
    unfold releasePolicy at h
    simp only [bind, Except.bind, pure, Except.pure, not_le.mpr hpositive, if_false] at h
    repeat' split at h
    all_goals cases h
  · simp only [releaseCodes, List.mem_cons] at hcode ⊢
    tauto

/-- The writes of an accepted release refuse nothing. -/
theorem acceptRelease_throws {command : ReleaseCommand} {row : InvoiceReservationEntity}
    {applied : ReleaseDecision} :
    (acceptRelease rt command program row applied).Throws (RefusedAs codes) :=
  throws_advance.bind fun _ => throws_none.bind fun _ => throws_none.bind fun _ => trivial

theorem release_throws {command : ReleaseCommand} (hpositive : 0 < command.releaseMinor) :
    (proceedRelease rt command program).Throws (RefusedAs releaseCodes) := by
  unfold proceedRelease
  split
  · exact throws_code (by decide)
  refine throws_none.bind fun found => ?_
  cases found with
  | none => exact throws_code (by decide)
  | some row =>
    refine throws_typeError.bind fun scaledRate => ?_
    cases hd : releasePolicy command.releaseMinor command.currency row.snapshot scaledRate with
    | error e => exact fun _ _ h => by cases h
    | ok decision =>
      cases decision with
      | error code => exact throws_code (releasePolicy_positive hpositive hd)
      | ok applied => exact acceptRelease_throws

theorem cancel_throws {command : CancelCommand} :
    (proceedCancel rt command program).Throws (RefusedAs cancelCodes) := by
  unfold proceedCancel
  split
  · exact throws_code (by decide)
  refine throws_none.bind fun found => ?_
  cases found with
  | none => exact throws_code (by decide)
  | some row =>
    dsimp only
    cases hd : cancelPolicy row.snapshot with
    | error code =>
      obtain rfl := cancelPolicy_error hd
      exact throws_code (by decide)
    | ok applied =>
      exact throws_advance.bind fun _ => throws_none.bind fun _ => throws_none.bind fun _ =>
        trivial

end Throws

/-! ## Records -/

/-- A database whose requests have all been answered. -/
def NonePending (db : Db) : Prop := ∀ row ∈ db.requests, row.state ≠ .pending

/-- A record that has been answered refuses for two reasons. -/
theorem answer_refusedAs {identity : RequestIdentity} {row : RequestRecordEntity}
    {failure : Failure} (hrow : row.state ≠ .pending) (h : identity.answer row = .error failure) :
    RefusedAs [.idempotencyConflict, .idempotencyExpired] failure := by
  rintro code details rfl
  unfold RequestIdentity.answer decideReplay at h
  split at h
  · rename_i hd
    cases h
    split at hd
    · cases hd
    · split at hd
      · cases hd
      · cases hd
      · split at hd <;> cases hd
  · rename_i hd
    cases h
    split at hd
    · cases hd
      simp
    · split at hd
      · rename_i hstate
        exact absurd hstate hrow
      · cases hd
        simp
      · split at hd <;> cases hd
  · cases h
  · cases h

/-- **What a request is refused for** is what its record or its own work
says. -/
theorem WriteRequest.refusedAs {q : WriteRequest} {failure : Failure} (hnone : NonePending db)
    (hproceed : ∀ program, (q.proceed program).Throws (RefusedAs codes))
    (h : engine.run q.tx db = .error failure) :
    RefusedAs (codes ++ [.idempotencyConflict, .idempotencyExpired]) failure := by
  have hown : ∀ {c : Db} {program : ProgramEntity}, engine.run (q.proceed program) c =
      .error failure → RefusedAs (codes ++ [.idempotencyConflict, .idempotencyExpired]) failure :=
    fun hrun code details he => List.mem_append_left _
      (Engine.run_error refusedAs_exec (hproceed _) hrun code details he)
  rw [WriteRequest.tx, withProgramLock, run_withProgramLockOr] at h
  cases hp : db.program? (Uuid.ofText q.programId) with
  | none =>
    simp only [hp] at h
    cases h
    exact fun _ _ he => by cases he
  | some program =>
    simp only [hp] at h
    by_cases hid : storableText q.identity.requestId = true
    swap
    · rw [run_withIdempotency_of_unstorable (by simpa using hid)] at h
      cases h
      exact fun _ _ he => by cases he
    rw [run_withIdempotency hid] at h
    cases hr : db.request? q.identity.organisationId q.identity.requestId with
    | some row =>
      simp only [hr] at h
      cases ha : q.identity.answer row with
      | ok outcome => simp [ha, Except.map] at h
      | error e =>
        simp only [ha, Except.map, Except.error.injEq] at h
        subst h
        have hrow := hnone row (Table.get_eq_some hr).1
        exact fun code details he =>
          List.mem_append_right _ (answer_refusedAs hrow ha code details he)
    | none =>
      simp only [hr] at h
      split at h
      · exact hown h
      · cases h
        exact fun _ _ he => by cases he

variable [Sha256]

/-- **A change leaves no request unanswered.** -/
theorem Change.nonePending (hc : Change db db') (h : NonePending db) : NonePending db' := by
  have hquiet : db'.requests = db.requests → NonePending db' := fun he row hrow =>
    h row (he ▸ hrow)
  have hput : ∀ {record : RequestRecordEntity}, record.state ≠ .pending → db'.requests =
      Table.put RequestRecordEntity.key record db.requests → NonePending db' := by
    intro record hrecord he row hrow
    rw [he] at hrow
    rcases Table.mem_put hrow with rfl | hrow
    · exact hrecord
    · exact h row hrow
  cases hc with
  | reserved hp ha => exact hput (by simp [RequestIdentity.complete]) ha.requests_after
  | released hp hrate hd ha => exact hput (by simp [RequestIdentity.complete]) ha.requests_after
  | cancelled hp hd ha => exact hput (by simp [RequestIdentity.complete]) ha.requests_after
  | applied ha => exact hquiet ha.requests_after
  | echoed ha => exact hquiet ha.requests_after
  | corrected ha => exact hquiet ha.requests_after
  | seeded hp hnone hpersist => exact hquiet rfl
  | swept cutoff =>
    intro row hrow
    rcases Table.mem_putAll hrow with hrow | hrow
    · obtain ⟨old, -, rfl⟩ := List.mem_map.mp hrow
      simp
    · exact h row hrow
  | flagged b v hp => exact hquiet rfl

end InvoiceReservation
