import InvoiceReservation.Helpers.Cursors
import InvoiceReservation.Model.Parsers
import InvoiceReservation.Model.Treasury
import InvoiceReservation.Properties.Bounds
import Mathlib.Algebra.Order.BigOperators.Group.List
/-!
# The numbers of a message, as written and as read

A version is read through a double, and an amount as it stands. The deltas
an event or a snapshot asks for are formed afterwards, by a sign or against
what the database holds.
-/

namespace InvoiceReservation

variable {dateParse : List ℕ → Option Timestamp} {raw : RawValue} {members : Members}

/-! ## What is written -/

/-- The object a value is the JSON of. -/
def RawValue.object? (raw : RawValue) : Option Members :=
  (raw.text?.bind Json.parse).bind plainObject?

/-- The number that is written for an object's version. -/
def Members.version? (value : Members) : Option ℚ :=
  match value.get "version" with
  | some (.number n) => some n.value
  | _ => none

/-- The amount that is written in an object's payload. -/
def Members.amount? (value : Members) : Option Int :=
  (((value.get "payload").bind plainObject?).bind fun payload =>
    string? (payload.get "amountMinor")).bind integerText

/-! ## Checks that were passed -/

theorem bind_eq_ok {ε α β : Type} {x : Except ε α} {f : α → Except ε β} {b : β} :
    (x >>= f) = .ok b ↔ ∃ a, x = .ok a ∧ f a = .ok b := by
  cases x with
  | error e => simp [bind, Except.bind]
  | ok a => simp [bind, Except.bind]

@[simp] theorem orInvalid_eq_ok {α : Type} {found : Option α} {detail : String} {value : α} :
    orInvalid found detail = .ok value ↔ found = some value := by
  cases found <;> simp [orInvalid]

@[simp] theorem ensure_eq_ok {ok : Bool} {detail : String} {u : Unit} :
    ensure ok detail = .ok u ↔ ok = true := by
  cases ok <;> simp [ensure]

theorem parseObject_eq_ok {what : String} :
    parseObject what raw = .ok members ↔ raw.object? = some members := by
  cases raw with
  | absent => simp [parseObject, decodeValue, RawValue.object?, RawValue.text?, bind_eq_ok]
  | buffer bytes => simp [parseObject, decodeValue, RawValue.object?, RawValue.text?, bind_eq_ok,
      Option.bind_eq_some_iff]
  | string s => simp [parseObject, decodeValue, RawValue.object?, RawValue.text?, bind_eq_ok,
      Option.bind_eq_some_iff]

/-! ## Versions -/

/-- **A version that is read**: the integer nearest to the number that is
written. -/
theorem version_read {value : Members} {n : ℤ}
    (h : ((number? (value.get "version")).bind Number.integer?) = some n) :
    ∃ q, value.version? = some q ∧ Binary64.nearest q = n := by
  obtain ⟨number, hnumber, hn⟩ := Option.bind_eq_some_iff.mp h
  unfold number? at hnumber
  split at hnumber
  · rename_i numeral hget
    cases hnumber
    have hversion : value.version? = some numeral.value := by simp only [Members.version?, hget]
    exact ⟨numeral.value, hversion, Number.nearest_of_integer? hn⟩
  · cases hnumber

/-- A number that is read as an integer is that integer just where it is one
that a double can be. -/
theorem eq_read_iff_exact {q : ℚ} {n : ℤ} (h : Binary64.nearest q = n) :
    q = n ↔ ∃ m : ℤ, q = m ∧ Binary64.Exact m := by
  constructor
  · rintro rfl
    exact ⟨n, rfl, Binary64.nearest_intCast_iff.mp h⟩
  · rintro ⟨m, rfl, hexact⟩
    rw [← h, Binary64.nearest_intCast_iff.mpr hexact]

/-! ## Events -/

/-- What an accepted event was read from. -/
structure EventRead (value : Members) (event : CapacityEvent) : Prop where
  version : ∃ q, value.version? = some q ∧ Binary64.nearest q = event.version
  positive : 0 ≤ event.version
  type : string? (value.get "type") = some (Utf.units event.type.text)
  amount : value.amount? = some event.payload.amountMinor
  inRange : inBigint event.payload.amountMinor = true

theorem parseEventVersion_eq_ok {value : Members} {n : Int} :
    parseEventVersion value = .ok n ↔
      (number? (value.get "version")).bind Number.integer? = some n ∧ 0 ≤ n := by
  rw [parseEventVersion, orInvalid_eq_ok, Option.filter_eq_some_iff]
  simp

theorem eventType?_eq_some {s : List ℕ} {type : CapacityEventType} (h : eventType? s = some type) :
    s = Utf.units type.text := by
  have hfound := List.find?_some h
  exact (of_decide_eq_true hfound).symm

theorem digits_of_pattern {s : List ℕ} (h : nonNegativeMinorPattern s = true) :
    s ≠ [] ∧ s.all Json.isDigit = true := by
  simp only [nonNegativeMinorPattern, Bool.and_eq_true, decide_eq_true_eq] at h
  refine ⟨?_, h.2⟩
  rintro rfl
  simp at h

/-- What matches the pattern of an amount is the text of an integer. -/
theorem integerText_of_pattern {s : List ℕ} (h : amountMinorPattern s = true) :
    (integerText s).isSome = true := by
  unfold amountMinorPattern at h
  split at h
  · rename_i digits
    obtain ⟨hne, hdigits⟩ := digits_of_pattern h
    rw [integerText, if_pos ⟨hne, hdigits⟩]
    rfl
  · obtain ⟨hne, hdigits⟩ := digits_of_pattern h
    rw [integerText_digits hne hdigits]
    rfl

/-- A payload that was accepted has the amount that is written in it. -/
theorem parsePayload_amount {value : Option Json} {payload : CapacityPayload}
    (h : parsePayload value = .ok payload) :
    ∃ members : Members, value.bind plainObject? = some members ∧
      (string? (members.get "amountMinor")).bind integerText = some payload.amountMinor ∧
      inBigint payload.amountMinor = true := by
  simp only [parsePayload, bind_eq_ok, orInvalid_eq_ok, ensure_eq_ok] at h
  obtain ⟨members, hmembers, -, -, s, hs, -, hrange, currency, -, h⟩ := h
  have hamount : payload.amountMinor = (integerText s).getD 0 := by
    split at h
    · cases h
      rfl
    · obtain ⟨reference, -, h⟩ := bind_eq_ok.mp h
      cases h
      rfl
  obtain ⟨hstring, hpattern⟩ := Option.filter_eq_some_iff.mp hs
  obtain ⟨n, hn⟩ := Option.isSome_iff_exists.mp (integerText_of_pattern hpattern)
  rw [hn, Option.getD_some] at hamount hrange
  exact ⟨members, hmembers, by rw [hstring, hamount]; exact hn, hamount ▸ hrange⟩

/-- **What an accepted event was read from.** -/
theorem parseCapacityEvent_read {event : CapacityEvent}
    (h : parseCapacityEvent dateParse raw = .ok event) :
    ∃ value, raw.object? = some value ∧ EventRead value event := by
  simp only [parseCapacityEvent, bind_eq_ok, parseObject_eq_ok, orInvalid_eq_ok] at h
  obtain ⟨value, hvalue, -, -, messageId, -, programId, -, version, hversion, effectiveAt, -, type,
    htype, correlationId, -, payload, hpayload, h⟩ := h
  cases h
  obtain ⟨hinteger, hpositive⟩ := parseEventVersion_eq_ok.mp hversion
  obtain ⟨s, hs, htype⟩ := Option.bind_eq_some_iff.mp htype
  obtain ⟨members, hmembers, hamount, hrange⟩ := parsePayload_amount hpayload
  refine ⟨value, hvalue, version_read hinteger, hpositive, ?_, ?_, hrange⟩
  · rw [hs, eventType?_eq_some htype]
  · rw [Members.amount?, hmembers]
    exact hamount

/-! ## What the database can hold -/

/-- The parser reads an event's numbers as they are written, and the apply
path forms a delta of them that the database can hold. -/
structure EventTaken (value : Members) (program : ProgramEntity) (event : CapacityEvent) :
    Prop where
  version : value.version? = some (event.version : ℚ)
  fits : inBigint event.version = true
  delta : inBigint (ApplyTreasuryEventService.buildEntry event program).deltaMinor = true

/-- A version that a double can be and a `bigint` can hold, an amount to be
released that can be negated, and a limit that is not so far below the
current one. -/
structure EventWritable (value : Members) (program : ProgramEntity) : Prop where
  version : ∃ n : ℤ, value.version? = some (n : ℚ) ∧ Binary64.Exact n ∧ n ≤ bigintMax
  release : string? (value.get "type") =
      some (Utf.units CapacityEventType.reservationReleased.text) →
    value.amount? ≠ some bigintMin
  limit : string? (value.get "type") = some (Utf.units CapacityEventType.limitChanged.text) →
    ∀ amount, value.amount? = some amount → program.creditLimitMinor + bigintMin ≤ amount

/-- The texts of the event types are different. -/
theorem units_type_inj {x y : CapacityEventType} (h : Utf.units x.text = Utf.units y.text) :
    x = y := by
  revert h
  cases x <;> cases y <;> decide

/-- The delta of an event fits just where its amount can be negated, or is
not so far below the limit. -/
theorem EventRead.delta_iff {value : Members} {event : CapacityEvent} {program : ProgramEntity}
    (h : EventRead value event) (hcolumns : program.toProgramPosition.InBounds) :
    inBigint (ApplyTreasuryEventService.buildEntry event program).deltaMinor = true ↔
      (event.type = .reservationReleased → event.payload.amountMinor ≠ bigintMin) ∧
      (event.type = .limitChanged →
        program.creditLimitMinor + bigintMin ≤ event.payload.amountMinor) := by
  have hamount := inBigint_iff.mp h.inRange
  have hlimit := hcolumns .limit
  simp only [ProgramPosition.component] at hlimit
  unfold ApplyTreasuryEventService.buildEntry
  cases event.type with
  | reservationBooked => simpa using h.inRange
  | reservationReleased =>
    simp only [inBigint_iff, reduceCtorEq, false_implies, and_true, forall_const]
    simp only [bigintMin, bigintMax] at hamount ⊢
    omega
  | limitChanged =>
    simp only [inBigint_iff, reduceCtorEq, false_implies, true_and, forall_const]
    simp only [bigintMin, bigintMax] at hamount hlimit ⊢
    omega

/-- **An event's numbers are taken as written just where they are
writable.** -/
theorem EventRead.taken_iff {value : Members} {event : CapacityEvent} {program : ProgramEntity}
    (h : EventRead value event) (hcolumns : program.toProgramPosition.InBounds) :
    EventTaken value program event ↔ EventWritable value program := by
  obtain ⟨q, hq, hnearest⟩ := h.version
  have hexact := eq_read_iff_exact hnearest
  have hdelta := h.delta_iff hcolumns
  have htype : ∀ type : CapacityEventType,
      string? (value.get "type") = some (Utf.units type.text) ↔ event.type = type := by
    intro type
    rw [h.type, Option.some.injEq]
    exact ⟨units_type_inj, fun he => by rw [he]⟩
  constructor
  · intro ht
    have hwritten : q = event.version := Option.some.inj (hq.symm.trans ht.version)
    obtain ⟨hreleased, hchanged⟩ := hdelta.mp ht.delta
    refine ⟨⟨event.version, ht.version, ?_, (inBigint_iff.mp ht.fits).2⟩, ?_, ?_⟩
    · rw [hwritten] at hnearest
      exact Binary64.nearest_intCast_iff.mp hnearest
    · intro htext hmin
      rw [h.amount, Option.some.injEq] at hmin
      exact hreleased ((htype _).mp htext) hmin
    · intro htext amount hamount
      rw [h.amount, Option.some.injEq] at hamount
      exact hamount ▸ hchanged ((htype _).mp htext)
  · intro hw
    obtain ⟨n, hn, hnexact, hmax⟩ := hw.version
    have hqn : q = n := Option.some.inj (hq.symm.trans hn)
    have hversion : q = event.version := hexact.mpr ⟨n, hqn, hnexact⟩
    have heq : n = event.version := by exact_mod_cast hqn.symm.trans hversion
    refine ⟨by rw [hq, hversion], ?_, hdelta.mpr ⟨?_, ?_⟩⟩
    · have hpositive := h.positive
      rw [inBigint_iff, ← heq]
      simp only [bigintMin]
      omega
    · intro ht hmin
      exact hw.release ((htype _).mpr ht) (by rw [h.amount, hmin])
    · intro ht
      exact hw.limit ((htype _).mpr ht) _ h.amount

/-! ## Snapshots -/

/-- What an accepted snapshot was read from. -/
structure SnapshotRead (value : Members) (snapshot : ReconciliationSnapshot) : Prop where
  version : ∃ q, value.version? = some q ∧ Binary64.nearest q = snapshot.version
  safe : 0 ≤ snapshot.version ∧ snapshot.version ≤ maxSafeInteger
  creditLimit : 0 ≤ snapshot.creditLimitMinor ∧ snapshot.creditLimitMinor ≤ bigintMax

theorem parseMinor_bounds {value : Members} {key : String} {n : Int}
    (h : parseMinor value key = .ok n) : 0 ≤ n ∧ n ≤ bigintMax := by
  simp only [parseMinor, bind_eq_ok, orInvalid_eq_ok, ensure_eq_ok, decide_eq_true_eq] at h
  obtain ⟨s, hs, -, hle, h⟩ := h
  cases h
  obtain ⟨-, hpattern⟩ := Option.filter_eq_some_iff.mp hs
  obtain ⟨hne, hdigits⟩ := digits_of_pattern hpattern
  rw [integerText_digits hne hdigits, Option.getD_some] at hle ⊢
  exact ⟨Int.natCast_nonneg _, hle⟩

/-- **What an accepted snapshot was read from.** -/
theorem parseReconciliationSnapshot_read {snapshot : ReconciliationSnapshot}
    (h : parseReconciliationSnapshot dateParse raw = .ok snapshot) :
    ∃ value, raw.object? = some value ∧ SnapshotRead value snapshot := by
  simp only [parseReconciliationSnapshot, bind_eq_ok, parseObject_eq_ok, orInvalid_eq_ok] at h
  obtain ⟨value, hvalue, -, -, messageId, -, programId, -, version, hversion, effectiveAt, -,
    currency, -, creditLimitMinor, hlimit, reservedMinor, -, correlationId, -, acknowledgement, -,
    h⟩ := h
  cases h
  rw [parseSnapshotVersion, orInvalid_eq_ok, Option.filter_eq_some_iff, decide_eq_true_eq]
    at hversion
  exact ⟨value, hvalue, version_read hversion.1, hversion.2, parseMinor_bounds hlimit⟩

/-- **A snapshot's version is taken as written just where it is written as an
integer**, and always fits. -/
theorem SnapshotRead.taken_iff {value : Members} {snapshot : ReconciliationSnapshot}
    (h : SnapshotRead value snapshot) :
    (value.version? = some (snapshot.version : ℚ) ∧ inBigint snapshot.version = true) ↔
      ∃ n : ℤ, value.version? = some (n : ℚ) := by
  obtain ⟨q, hq, hnearest⟩ := h.version
  obtain ⟨hlow, hhigh⟩ := h.safe
  have hfits : inBigint snapshot.version = true := by
    rw [inBigint_iff]
    simp only [maxSafeInteger, bigintMin, bigintMax] at *
    omega
  constructor
  · rintro ⟨hwritten, -⟩
    exact ⟨snapshot.version, hwritten⟩
  · rintro ⟨n, hn⟩
    have hqn : q = n := Option.some.inj (hq.symm.trans hn)
    have hbelow : |Binary64.nearest n| < 2 ^ 53 := by
      rw [← hqn, hnearest, ← Int.cast_abs, abs_of_nonneg hlow]
      have hlt : snapshot.version < 2 ^ 53 := by
        unfold maxSafeInteger at hhigh
        omega
      exact_mod_cast hlt
    have hversion :=
      (eq_read_iff_exact hnearest).mpr ⟨n, hqn, Binary64.exact_of_abs_nearest_lt hbelow⟩
    exact ⟨by rw [hq, hversion], hfits⟩

/-- A treasury delta that passes the guard is no larger than the limit. -/
theorem treasury_fits {rt : Runtime} {delta limit : Int} (hlimit : 0 ≤ limit ∧ limit ≤ bigintMax)
    (hguard : ApplySnapshotService.exceedsMagnitudeGuard rt delta limit = false) :
    inBigint delta = true := by
  have hpoints : (rt.deltaGuardBasisPoints.val : Int) ≤ 10000 := by
    have hlt := rt.deltaGuardBasisPoints.isLt
    omega
  have hproduct : (rt.deltaGuardBasisPoints.val : Int) * limit ≤ 10000 * limit :=
    mul_le_mul_of_nonneg_right hpoints hlimit.1
  simp only [ApplySnapshotService.exceedsMagnitudeGuard, decide_eq_false_iff_not, gt_iff_lt,
    not_lt] at hguard
  rw [inBigint_iff]
  simp only [bigintMin, bigintMax] at *
  split at hguard <;> omega

/-- The deltas of a snapshot that passes the guard fit just where what the
LOCAL reservations hold is not so far above the LOCAL component. -/
theorem SnapshotRead.deltas_iff {value : Members} {snapshot : ReconciliationSnapshot}
    (h : SnapshotRead value snapshot) {rt : Runtime} {program : ProgramEntity}
    (hcolumns : program.toProgramPosition.InBounds) {marker : SnapshotMarker}
    {reservations : List SnapshotReservation}
    (hrows : ∀ r ∈ reservations, 0 ≤ r.outstandingReservedMinor ∧
      r.outstandingReservedMinor ≤ bigintMax)
    {ids : List Uuid} {investigationRequired : Bool} {deltas : SnapshotDeltas}
    (happly : applySnapshotPolicy program.toProgramPosition snapshot.version snapshot.reservedMinor
      snapshot.creditLimitMinor marker reservations = .apply ids investigationRequired deltas)
    (hguard : ApplySnapshotService.exceedsMagnitudeGuard rt deltas.treasury
      program.creditLimitMinor = false) :
    (inBigint deltas.treasury = true ∧ inBigint deltas.local = true ∧
      inBigint deltas.limit = true) ↔
      localOutstanding reservations ≤ program.localReservedMinor + bigintMax := by
  obtain ⟨-, hlocal, -, hlimit⟩ := applySnapshotPolicy_apply happly
  have hbounds := hcolumns .limit
  have hlocalBounds := hcolumns .local
  simp only [ProgramPosition.component] at hbounds hlocalBounds
  have htreasury : inBigint deltas.treasury = true := treasury_fits hbounds hguard
  have hlimitFits : inBigint deltas.limit = true := hlimit ▸ inBigint_sub hbounds h.creditLimit
  have hsum : 0 ≤ localOutstanding reservations := by
    refine List.sum_nonneg fun n hn => ?_
    obtain ⟨r, hr, rfl⟩ := List.mem_map.mp hn
    exact (hrows r (List.mem_filter.mp hr).1).1
  have hfits : inBigint deltas.local = true ↔
      localOutstanding reservations ≤ program.localReservedMinor + bigintMax := by
    rw [hlocal, inBigint_iff]
    simp only [bigintMin, bigintMax] at *
    omega
  rw [← hfits]
  exact ⟨fun hall => hall.2.1, fun hlocalFits => ⟨htreasury, hlocalFits, hlimitFits⟩⟩

/-! ## Both parsers -/

/-- **When a message's numbers are taken as they are written.** Against any
program in its columns' ranges, an accepted event is taken as it is written,
with a delta that the database can hold, just where its version is one that
a double can be and a `bigint` can hold, and neither a release cannot be
negated nor a limit lies too far below the current one. An accepted
snapshot's version is taken as written just where it is an integer; and of
one that passes the guard the three deltas fit just where what the LOCAL
reservations hold is not too far above the component. -/
theorem numbers_taken_iff (dateParse : List ℕ → Option Timestamp) (program : ProgramEntity)
    (hcolumns : program.toProgramPosition.InBounds) :
    (∀ raw event, parseCapacityEvent dateParse raw = .ok event →
      ∃ value, raw.object? = some value ∧
        (EventTaken value program event ↔ EventWritable value program)) ∧
    (∀ raw snapshot, parseReconciliationSnapshot dateParse raw = .ok snapshot →
      ∃ value, raw.object? = some value ∧
        ((value.version? = some (snapshot.version : ℚ) ∧ inBigint snapshot.version = true) ↔
          ∃ n : ℤ, value.version? = some (n : ℚ)) ∧
        ∀ (rt : Runtime) (marker : SnapshotMarker) (reservations : List SnapshotReservation)
          (ids : List Uuid) (investigationRequired : Bool) (deltas : SnapshotDeltas),
          (∀ r ∈ reservations, 0 ≤ r.outstandingReservedMinor ∧
            r.outstandingReservedMinor ≤ bigintMax) →
          applySnapshotPolicy program.toProgramPosition snapshot.version snapshot.reservedMinor
            snapshot.creditLimitMinor marker reservations =
              .apply ids investigationRequired deltas →
          ApplySnapshotService.exceedsMagnitudeGuard rt deltas.treasury
            program.creditLimitMinor = false →
          ((inBigint deltas.treasury = true ∧ inBigint deltas.local = true ∧
              inBigint deltas.limit = true) ↔
            localOutstanding reservations ≤ program.localReservedMinor + bigintMax)) := by
  constructor
  · intro raw event h
    obtain ⟨value, hvalue, hread⟩ := parseCapacityEvent_read h
    exact ⟨value, hvalue, hread.taken_iff hcolumns⟩
  · intro raw snapshot h
    obtain ⟨value, hvalue, hread⟩ := parseReconciliationSnapshot_read h
    refine ⟨value, hvalue, hread.taken_iff, ?_⟩
    intro rt marker reservations ids investigationRequired deltas hrows happly hguard
    exact hread.deltas_iff hcolumns hrows happly hguard

/-! ## A version beyond 2^53 -/

/-- `Date.parse`, of the one date below. -/
def firstOfYear (s : List ℕ) : Option Timestamp :=
  if s = Utf.units "2025-01-01T00:00:00Z" then some 1735689600000000 else none

/-- A booking of 100, as treasury sends it. -/
def bookingText (version : String) : RawValue :=
  .string (Utf.units ("\x7b\"messageId\":\"evt-00001\",\"programId\":\"" ++
    "b1b2c3d4-0001-4000-8000-000000000011" ++ "\",\"version\":" ++ version ++
    ",\"effectiveAt\":\"2025-01-01T00:00:00Z\",\"type\":\"RESERVATION_BOOKED\"," ++
    "\"payload\":\x7b\"amountMinor\":\"100\",\"currency\":\"USD\"\x7d\x7d"))

/-- **A version is read as another.** -/
theorem event_version_rounded :
    ∃ event, parseCapacityEvent firstOfYear (bookingText "9007199254740993") = .ok event ∧
      event.version = 9007199254740992 ∧
      (bookingText "9007199254740993").object?.bind Members.version? = some 9007199254740993 := by
  have hboth : ((parseCapacityEvent firstOfYear (bookingText "9007199254740993")).toOption.map
      (·.version), (bookingText "9007199254740993").object?.bind Members.version?) =
        (some 9007199254740992, some 9007199254740993) := by
    decide +kernel
  obtain ⟨hparsed, hwritten⟩ := Prod.mk.inj hboth
  obtain ⟨event, hevent, hversion⟩ := Option.map_eq_some_iff.mp hparsed
  refine ⟨event, ?_, hversion, hwritten⟩
  cases h : parseCapacityEvent firstOfYear (bookingText "9007199254740993") with
  | error detail => rw [h] at hevent; cases hevent
  | ok read => rw [h] at hevent; cases hevent; rfl

/-- A program with a limit of 1000. -/
def limitedProgram : ProgramEntity :=
  { Stmt.newProgram 0 0 "USD" 0 with creditLimitMinor := 1000 }

theorem numbers_taken_iff_booking :
    ∃ event value, parseCapacityEvent firstOfYear (bookingText "7") = .ok event ∧
      (bookingText "7").object? = some value ∧ EventTaken value limitedProgram event := by
  have hcolumns : limitedProgram.toProgramPosition.InBounds := by
    intro c
    cases c <;> decide
  have hparsed : (parseCapacityEvent firstOfYear (bookingText "7")).toOption.isSome = true := by
    decide +kernel
  obtain ⟨event, hevent⟩ :
      ∃ event, parseCapacityEvent firstOfYear (bookingText "7") = .ok event := by
    cases h : parseCapacityEvent firstOfYear (bookingText "7") with
    | error detail => rw [h] at hparsed; cases hparsed
    | ok event => exact ⟨event, rfl⟩
  obtain ⟨value, hvalue, htaken⟩ :=
    (numbers_taken_iff firstOfYear limitedProgram hcolumns).1 _ event hevent
  have hwritten : (bookingText "7").object?.map (fun value =>
      (Members.version? value, string? (value.get "type"))) =
        some (some 7, some (Utf.units "RESERVATION_BOOKED")) := by
    decide +kernel
  rw [hvalue, Option.map_some] at hwritten
  obtain ⟨hversion, htype⟩ := Prod.mk.inj (Option.some.inj hwritten)
  have hexact : ∃ n : ℤ, value.version? = some (n : ℚ) ∧ Binary64.Exact n ∧ n ≤ bigintMax :=
    ⟨7, by simpa using hversion, by decide, by decide⟩
  refine ⟨event, value, hevent, hvalue, htaken.mpr ⟨hexact, ?_, ?_⟩⟩
  · intro hreleased
    rw [htype] at hreleased
    exact absurd hreleased (by decide +kernel)
  · intro hchanged
    rw [htype] at hchanged
    exact absurd hchanged (by decide +kernel)

end InvoiceReservation
