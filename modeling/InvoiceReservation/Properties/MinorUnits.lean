import InvoiceReservation.Properties.Refusals
import Mathlib.Algebra.Order.Field.Power
/-!
# Conversion and minor units

A rate is quoted for a major unit, an amount is in minor units, and
`convert` multiplies the one by the other whatever the digits of the two
currencies. Where the digits differ a reserve takes a power of ten too
little or too much; the rounding hides it only from amounts that come to
nothing either way.
-/

namespace InvoiceReservation

open Transactions

variable {db db' : Db} {rt : Runtime} {command : ReserveCommand} {program : ProgramEntity}
variable {resolved : FxRate} {base quote : String} {minor scaledRate : Int}

/-! ## What an amount is worth -/

/-- What an amount of one currency is worth in another: a scaled rate is of
major units, and each amount in minor units of its own currency. -/
def worth (base quote : String) (minor scaledRate : Int) : Int :=
  round (((minor * scaledRate : Int) : ℚ) / (rateScale : Int) *
    10 ^ ((minorUnitDigits quote : ℤ) - minorUnitDigits base))

/-- An amount is worth more than a whole number from a half beyond it on. -/
theorem lt_worth {n : Int} : n < worth base quote minor scaledRate ↔
    (2 * n + 1) * (rateScale * 10 ^ minorUnitDigits base) ≤
      2 * (minor * scaledRate * 10 ^ minorUnitDigits quote) := by
  have hscale : (0 : ℚ) < (rateScale : Int) := by norm_num [rateScale]
  have hbase : (0 : ℚ) < 10 ^ minorUnitDigits base := by positivity
  have hdigits : (10 : ℚ) ^ ((minorUnitDigits quote : ℤ) - minorUnitDigits base) =
      10 ^ minorUnitDigits quote / 10 ^ minorUnitDigits base := by
    rw [zpow_sub₀ (by norm_num), zpow_natCast, zpow_natCast]
  rw [worth, Rounding.lt_round_iff, hdigits, div_mul_div_comm, le_div_iff₀ (by positivity),
    ← Int.cast_le (R := ℚ)]
  push_cast
  constructor <;> intro h <;> linarith

theorem worth_nonneg (hminor : 0 ≤ minor) (hrate : 0 ≤ scaledRate) :
    0 ≤ worth base quote minor scaledRate := by
  have hproduct : (0 : ℚ) ≤ ((minor * scaledRate : Int) : ℚ) := by
    exact_mod_cast Int.mul_nonneg hminor hrate
  exact Rounding.round_nonneg (mul_nonneg (div_nonneg hproduct (by norm_num [rateScale]))
    (by positivity))

theorem worth_of_digits (h : minorUnitDigits base = minorUnitDigits quote) :
    worth base quote minor scaledRate = converted minor scaledRate := by
  rw [worth, h, sub_self, zpow_zero, mul_one, converted]

/-- **The digits show**, unless an amount comes to nothing either way. -/
theorem converted_eq_worth_iff (hminor : 0 ≤ minor) (hrate : 0 ≤ scaledRate) :
    converted minor scaledRate = worth base quote minor scaledRate ↔
      minorUnitDigits base = minorUnitDigits quote ∨
        converted minor scaledRate = 0 ∧ worth base quote minor scaledRate = 0 := by
  have hproduct : (0 : ℚ) ≤ ((minor * scaledRate : Int) : ℚ) / (rateScale : Int) := by
    refine div_nonneg ?_ (by norm_num [rateScale])
    exact_mod_cast Int.mul_nonneg hminor hrate
  -- one digit more or less is a factor of ten at least
  have hten : ∀ n : ℕ, 0 < n → (3 : ℚ) ≤ 10 ^ n := by
    intro n hn
    calc (3 : ℚ) ≤ 10 ^ 1 := by norm_num
      _ ≤ 10 ^ n := pow_le_pow_right₀ (by norm_num) hn
  rcases lt_trichotomy (minorUnitDigits base) (minorUnitDigits quote) with hless | hsame | hmore
  · -- more digits in the quote: what it is worth is a multiple of what the code takes
    have hfactor : worth base quote minor scaledRate =
        round (10 ^ (minorUnitDigits quote - minorUnitDigits base) *
          (((minor * scaledRate : Int) : ℚ) / (rateScale : Int))) := by
      rw [worth, mul_comm, ← Nat.cast_sub hless.le, zpow_natCast]
    have hscaled := Rounding.round_mul_eq_iff hproduct (hten _ (Nat.sub_pos_of_lt hless))
    rw [← hfactor] at hscaled
    have hle : converted minor scaledRate = round (((minor * scaledRate : Int) : ℚ) /
      (rateScale : Int)) := rfl
    rw [← hle] at hscaled
    constructor
    · intro h
      have hzero := hscaled.mp h.symm
      exact Or.inr ⟨h.trans hzero, hzero⟩
    · rintro (h | ⟨h, h'⟩)
      · omega
      · rw [h, h']
  · exact ⟨fun _ => Or.inl hsame, fun _ => (worth_of_digits hsame).symm⟩
  · -- fewer: the code takes a multiple of what it is worth
    generalize hy : ((minor * scaledRate : Int) : ℚ) / (rateScale : Int) *
        10 ^ ((minorUnitDigits quote : ℤ) - minorUnitDigits base) = y
    have hworth : worth base quote minor scaledRate = round y := by rw [worth, hy]
    have hnonneg : 0 ≤ y := hy ▸ mul_nonneg hproduct (by positivity)
    have hback : ((minor * scaledRate : Int) : ℚ) / (rateScale : Int) =
        10 ^ (minorUnitDigits base - minorUnitDigits quote) * y := by
      rw [← hy, ← zpow_natCast, Nat.cast_sub hmore.le, mul_left_comm, ← zpow_add₀ (by norm_num)]
      simp
    have hscaled := Rounding.round_mul_eq_iff hnonneg (hten _ (Nat.sub_pos_of_lt hmore))
    rw [← hback, ← hworth] at hscaled
    constructor
    · intro h
      have hzero := hscaled.mp h
      exact Or.inr ⟨hzero, h ▸ hzero⟩
    · rintro (h | ⟨h, h'⟩)
      · omega
      · rw [h, h']

/-! ## A reserve that converts -/

variable [Sha256]

/-- A reserve that gets as far as its conversion: new, in another currency
than its program's, of a program that is open to it, with a rate. -/
structure Converting (rt : Runtime) (command : ReserveCommand) (program : ProgramEntity)
    (resolved : FxRate) (db : Db) : Prop where
  admitted : command.Admitted
  texts : WriteTexts command.requestId command.invoiceText command.correlationId
  found : db.program? (Uuid.ofText command.programId) = some program
  organisation : program.organisationId = command.organisationId
  newKey : db.request? command.organisationId command.requestId = none
  newInvoice : db.reservationsFor (Uuid.ofText command.programId) command.invoiceText = []
  newId : db.hasReservationId rt.generatedId = false
  differs : command.currency ≠ program.currency
  rate : rt.rateFor command.currency program.currency rt.now = .ok (some resolved)
  verified : program.positionVerified = true
  within : isOverLimit program.toProgramPosition = false

/-- The reserve takes what its amount is worth, and is refused as worth
nothing exactly where it is. -/
structure TakesWorth (rt : Runtime) (command : ReserveCommand) (program : ProgramEntity)
    (resolved : FxRate) (db : Db) : Prop where
  takes : ∀ outcome db', engine.run (reserve rt command) db = .ok (outcome, db') →
    ∃ after, db'.program? (Uuid.ofText command.programId) = some after ∧
      after.localReservedMinor = program.localReservedMinor +
        worth command.currency program.currency command.amountMinor resolved.scaledRate
  refuses : (∃ details, engine.run (reserve rt command) db =
      .error (.refusal .amountRoundsToZero details)) ↔
    worth command.currency program.currency command.amountMinor resolved.scaledRate = 0

/-- What an accepted reserve takes is on its program's LOCAL. -/
theorem Converting.taken (h : Converting rt command program resolved db)
    {outcome : WriteOutcome} (hrun : engine.run (reserve rt command) db = .ok (outcome, db'))
    (hcreated : outcome.created = true) :
    ∃ after, db'.program? (Uuid.ofText command.programId) = some after ∧
      after.localReservedMinor = program.localReservedMinor +
        converted command.amountMinor resolved.scaledRate := by
  obtain ⟨program', hp, ⟨⟨record, -, hanswer⟩, -⟩ | ⟨reservedMinor, fx, hr⟩⟩ := reserve_cases hrun
  · simp [(answer_ok.mp hanswer).2.2.2.2] at hcreated
  obtain rfl := Option.some.inj (h.found.symm.trans hp)
  have hid := Db.id_of_program? hp
  have hamount := h.admitted.amount.positive
  obtain ⟨resolution, hresolved, hdecision⟩ := hr.resolved
  have hreserved : reservedMinor = converted command.amountMinor resolved.scaledRate := by
    unfold resolveFx at hresolved
    rw [if_neg h.differs, h.rate] at hresolved
    cases hresolved
    rcases decideReservation_converted hdecision (by omega) with
      ⟨hsame, -⟩ | ⟨resolved', hrate, -, htaken⟩
    · cases hsame
    · cases hrate
      exact htaken
  have hadvanced := hr.position (program?_id hp)
  have hafter := hadvanced.after
  rw [hid] at hafter
  obtain ⟨after, hafter', hcached⟩ := Option.map_eq_some_iff.mp hafter
  refine ⟨after, hafter', ?_⟩
  have hlocal := congrArg (·.localReservedMinor) hcached
  have hadvance := @advancePosition_component program.toProgramPosition
    [command.entry reservedMinor] rt.now .local
  simp only [ProgramPosition.component, componentSum_singleton, ReserveCommand.entry,
    if_true] at hadvance
  rw [← hreserved]
  exact hlocal.trans hadvance

/-- What it does: it takes what its amount converts to, is refused where that
is nothing, and also where it is more than is available. -/
theorem Converting.run (h : Converting rt command program resolved db) (hlegal : db.Legal)
    (hreliable : Reliable db program) :
    (converted command.amountMinor resolved.scaledRate = 0 ∧
      engine.run (reserve rt command) db = .error (.refusal .amountRoundsToZero [])) ∨
    (available program.toProgramPosition < converted command.amountMinor resolved.scaledRate ∧
      ∃ details, engine.run (reserve rt command) db =
        .error (.refusal .insufficientCapacity details)) ∨
    (0 < converted command.amountMinor resolved.scaledRate ∧
      converted command.amountMinor resolved.scaledRate ≤ available program.toProgramPosition ∧
      ∃ outcome db' after, engine.run (reserve rt command) db = .ok (outcome, db') ∧
        db'.program? (Uuid.ofText command.programId) = some after ∧
        after.localReservedMinor = program.localReservedMinor +
          converted command.amountMinor resolved.scaledRate) := by
  have hid := Db.id_of_program? h.found
  have hcontains : db.organisations.contains command.organisationId = true := by
    have hdeclared := (hlegal.programs.rows program (Table.get_eq_some h.found).1).organisation
    rwa [h.organisation] at hdeclared
  have hresolved : resolveFx rt command program = .ok (.rate resolved) := by
    unfold resolveFx
    rw [if_neg h.differs, h.rate]
  have hamount : 0 < command.amountMinor := by
    have := h.admitted.amount.positive
    omega
  -- no more than the decision is left open, by what is converted
  have hdecision := @decideReservation_rate program.toProgramPosition command.amountMinor resolved
    (hlegal.currency h.found) hamount h.verified h.within
  have hlow : 0 ≤ converted command.amountMinor resolved.scaledRate :=
    converted_nonneg hamount.le (scaleRate_ok resolved.scaled).2.1.le
  have hnone : db.request? command.identity.organisationId command.identity.requestId = none :=
    h.newKey
  have hrun : engine.run (reserve rt command) db = engine.run (proceedReserve rt command program)
      (db.apply (.requests [command.identity.pending rt.now])) := by
    have hcontains' : db.organisations.contains command.identity.organisationId = true := hcontains
    rw [reserve, withProgramLock, run_withProgramLockOr, h.found]
    dsimp only
    rw [run_withIdempotency h.texts.requestId, hnone]
    simp only [hcontains', if_true]
  generalize hvalue : converted command.amountMinor resolved.scaledRate = value at hdecision hlow ⊢
  have hinvoice : (db.apply (.requests [command.identity.pending rt.now])).reservationsFor
      (Uuid.ofText command.programId) command.invoiceText = [] := by
    simpa [Db.reservationsFor] using h.newInvoice
  by_cases hzero : value = 0
  · left
    rw [if_pos hzero] at hdecision
    refine ⟨hzero, ?_⟩
    rw [hrun, run_proceedReserve_refused h.texts.invoiceId hinvoice hresolved hdecision]
  rw [if_neg hzero] at hdecision
  unfold decideCapacity at hdecision
  by_cases hmore : value > available program.toProgramPosition
  · right; left
    simp only [hmore, if_true] at hdecision
    exact ⟨hmore, _, hrun.trans
      (run_proceedReserve_refused h.texts.invoiceId hinvoice hresolved hdecision)⟩
  · right; right
    simp only [hmore, if_false] at hdecision
    refine ⟨by omega, by omega, ?_⟩
    have hnewId : (db.apply (.requests [command.identity.pending rt.now])).hasReservationId
        rt.generatedId = false := h.newId
    obtain ⟨outcome, db', haccepted, hcreated⟩ := hreliable.requests.acceptReservation h.admitted
      h.texts (by simpa using h.found) request?_apply_pending hnewId hinvoice hresolved hdecision
    rw [← run_proceedReserve_accepted h.texts.invoiceId hinvoice hresolved hdecision,
      ← hrun] at haccepted
    obtain ⟨after, hafter, hlocal⟩ := h.taken haccepted hcreated
    exact ⟨outcome, db', after, haccepted, hafter, hvalue ▸ hlocal⟩

/-- When that is what its amount is worth. -/
theorem Converting.takesWorth_iff (h : Converting rt command program resolved db)
    (hlegal : db.Legal) (hreliable : Reliable db program) :
    TakesWorth rt command program resolved db ↔
      minorUnitDigits command.currency = minorUnitDigits program.currency ∨
      (converted command.amountMinor resolved.scaledRate = 0 ∧
        worth command.currency program.currency command.amountMinor resolved.scaledRate = 0) ∨
      (available program.toProgramPosition < converted command.amountMinor resolved.scaledRate ∧
        0 < worth command.currency program.currency command.amountMinor resolved.scaledRate) := by
  have hamount : 0 ≤ command.amountMinor := by
    have := h.admitted.amount.positive
    omega
  have hrate : 0 ≤ resolved.scaledRate := (scaleRate_ok resolved.scaled).2.1.le
  have hopen : 0 ≤ available program.toProgramPosition := by
    have := h.within
    simp only [isOverLimit, decide_eq_false_iff_not] at this
    unfold available
    omega
  have hlow := @worth_nonneg command.currency program.currency _ _ hamount hrate
  have hsame := @converted_eq_worth_iff command.currency program.currency _ _ hamount hrate
  rcases h.run hlegal hreliable with ⟨hzero, hrun⟩ | ⟨hmore, details, hrun⟩ |
    ⟨hpositive, hfits, outcome, db', after, hrun, hafter, hlocal⟩
  · -- refused as nothing
    constructor
    · intro ht
      exact Or.inr (Or.inl ⟨hzero, ht.refuses.mp ⟨_, hrun⟩⟩)
    · intro hholds
      have hworthless : worth command.currency program.currency command.amountMinor
          resolved.scaledRate = 0 := by
        rcases hholds with hdigits | ⟨-, hworth⟩ | ⟨hmore, -⟩
        · rw [← hsame.mpr (Or.inl hdigits), hzero]
        · exact hworth
        · omega
      refine ⟨fun _ _ hok => ?_, fun _ => hworthless, fun _ => ⟨_, hrun⟩⟩
      rw [hrun] at hok
      cases hok
  · -- refused for want of capacity
    constructor
    · intro ht
      have hworth : worth command.currency program.currency command.amountMinor
          resolved.scaledRate ≠ 0 := by
        intro hzero
        obtain ⟨_, hrefused⟩ := ht.refuses.mpr hzero
        rw [hrun] at hrefused
        cases hrefused
      exact Or.inr (Or.inr ⟨hmore, by omega⟩)
    · intro hholds
      have hworth : worth command.currency program.currency command.amountMinor
          resolved.scaledRate ≠ 0 := by
        rcases hholds with hdigits | ⟨hzero, -⟩ | ⟨-, hworth⟩
        · rw [← hsame.mpr (Or.inl hdigits)]
          omega
        · omega
        · omega
      refine ⟨fun _ _ hok => ?_, fun hrefuses => ?_, fun hzero => absurd hzero hworth⟩
      · rw [hrun] at hok
        cases hok
      · obtain ⟨_, hrefused⟩ := hrefuses
        rw [hrun] at hrefused
        cases hrefused
  · -- accepted
    constructor
    · intro ht
      obtain ⟨after', hafter', hlocal'⟩ := ht.takes _ _ hrun
      obtain rfl := Option.some.inj (hafter.symm.trans hafter')
      exact (hsame.mp (by omega)).imp_right Or.inl
    · intro hholds
      have htaken : converted command.amountMinor resolved.scaledRate =
          worth command.currency program.currency command.amountMinor resolved.scaledRate := by
        rcases hholds with hdigits | hzero | ⟨hmore, -⟩
        · exact hsame.mpr (Or.inl hdigits)
        · exact hsame.mpr (Or.inr hzero)
        · omega
      refine ⟨fun _ _ hok => ?_, fun hrefuses => ?_, fun hzero => ?_⟩
      · rw [hrun] at hok
        cases hok
        exact ⟨after, hafter, htaken ▸ hlocal⟩
      · obtain ⟨_, hrefused⟩ := hrefuses
        rw [hrun] at hrefused
        cases hrefused
      · omega

/-- **A reserve that converts takes what its amount is worth exactly where**
the two currencies have as many digits, or the amount comes to less than
half a minor unit with the digits and without them, or it comes to more than
is available without them and to half a minor unit at least with them. -/
theorem takes_worth_iff {organisations : List Uuid} {ops : List Operation}
    (h : Converting rt command program resolved (Operation.run ops (Db.initial organisations))) :
    let product := command.amountMinor * resolved.scaledRate
    let base := minorUnitDigits command.currency
    let quote := minorUnitDigits program.currency
    TakesWorth rt command program resolved (Operation.run ops (Db.initial organisations)) ↔
      base = quote ∨
      (2 * product < rateScale ∧ 2 * (product * 10 ^ quote) < rateScale * 10 ^ base) ∨
      ((2 * available program.toProgramPosition + 1) * rateScale ≤ 2 * product ∧
        rateScale * 10 ^ base ≤ 2 * (product * 10 ^ quote)) := by
  intro product base quote
  have hamount : 0 ≤ command.amountMinor := by
    have := h.admitted.amount.positive
    omega
  have hrate : 0 ≤ resolved.scaledRate := (scaleRate_ok resolved.scaled).2.1.le
  have hlow := @converted_nonneg resolved.scaledRate command.amountMinor hamount hrate
  have hlow' := @worth_nonneg command.currency program.currency _ _ hamount hrate
  have hpositive := @lt_converted resolved.scaledRate command.amountMinor 0
  have hmore := @lt_converted resolved.scaledRate command.amountMinor
    (available program.toProgramPosition)
  have hworth := @lt_worth command.currency program.currency command.amountMinor
    resolved.scaledRate 0
  simp only [mul_zero, zero_add, one_mul] at hpositive hworth
  have hnothing : converted command.amountMinor resolved.scaledRate = 0 ↔
      2 * product < rateScale := by
    rw [← not_le, ← hpositive]
    omega
  have hworthless : worth command.currency program.currency command.amountMinor
      resolved.scaledRate = 0 ↔ 2 * (product * 10 ^ quote) < rateScale * 10 ^ base := by
    rw [← not_le, ← hworth]
    omega
  rw [h.takesWorth_iff (legal_initial.run ops) (reliable_run h.found), hnothing, hworthless, hmore,
    hworth]

end InvoiceReservation

namespace InvoiceReservation

open Transactions

/-- The digest of a reserve of 10000 yen. -/
@[reducible] def yenSha256 : Sha256 := .ofTable [
  (northwindUsdProgramId ++ "|INV-1|10000|JPY",
    "4c669b98ec97ee169186c31678d62c9197ee265ab7ef8fd29460eaa373889a7f")]

attribute [local instance] yenSha256

/-- A yen is two thirds of a cent. -/
def yenRate : FxRate := ⟨67000000, "0.0067", 0, "static", by decide⟩

/-- A call that is given that rate. -/
def yenCall : Runtime := { callAt 1 with rateFor := fun _ _ _ => .ok (some yenRate) }

/-- A reserve of 10000 yen, of a program in dollars. -/
def yenReserve : ReserveCommand :=
  { reserveCommand "req-00001" "INV-1" 10000 with currency := "JPY" }

theorem yenReserve_converting : ∃ program, program.localReservedMinor = 0 ∧
    program.currency = "USD" ∧ available program.toProgramPosition = 1000000000 ∧
    Converting yenCall yenReserve program yenRate (Operation.run [.seed 0 programs] migrated) := by
  have hfound : ((Operation.run [.seed 0 programs] migrated).program?
      (Uuid.ofText northwindUsdProgramId)).map (fun program => (program.localReservedMinor,
        program.currency, program.organisationId, program.positionVerified,
        isOverLimit program.toProgramPosition, available program.toProgramPosition)) =
      some (0, "USD", northwindOrganisationId, true, false, 1000000000) := by
    rw [run_seed]
    decide +kernel
  obtain ⟨program, hp, hfields⟩ := Option.map_eq_some_iff.mp hfound
  simp only [Prod.mk.injEq] at hfields
  obtain ⟨hlocal, hcurrency, horganisation, hverified, hwithin, havailable⟩ := hfields
  refine ⟨program, hlocal, hcurrency, havailable, ⟨by decide, ⟨by decide, by decide, by decide⟩⟩,
    ⟨by decide, by decide, by decide⟩, hp, horganisation,
    by rw [run_seed]; rfl, by rw [run_seed]; rfl, by rw [run_seed]; rfl, ?_, rfl, hverified,
    hwithin⟩
  rw [hcurrency]
  decide

/-- Ten thousand yen are worth 67 dollars. The reserve takes 67 cents. -/
theorem yenReserve_takes_too_little : ∃ program,
    Converting yenCall yenReserve program yenRate (Operation.run [.seed 0 programs] migrated) ∧
    worth "JPY" "USD" 10000 yenRate.scaledRate = 6700 ∧
    ((engine.effect (reserve yenCall yenReserve)
        (Operation.run [.seed 0 programs] migrated)).program?
      (Uuid.ofText northwindUsdProgramId)).map (·.localReservedMinor) = some 67 ∧
    ¬ TakesWorth yenCall yenReserve program yenRate
      (Operation.run [.seed 0 programs] migrated) := by
  obtain ⟨program, hlocal, hcurrency, -, hconverting⟩ := yenReserve_converting
  have hworth : worth "JPY" "USD" 10000 yenRate.scaledRate = 6700 := by
    have hdigits : ((minorUnitDigits "USD" : ℤ) - minorUnitDigits "JPY") = 2 := by decide
    rw [worth, hdigits]
    norm_num [yenRate, rateScale]
  have hafter : ((engine.effect (reserve yenCall yenReserve)
      (Operation.run [.seed 0 programs] migrated)).program?
        (Uuid.ofText northwindUsdProgramId)).map (·.localReservedMinor) = some 67 := by
    rw [run_seed]
    decide +kernel
  refine ⟨program, hconverting, hworth, hafter, fun ht => ?_⟩
  have hok : (engine.run (reserve yenCall yenReserve)
      (Operation.run [.seed 0 programs] migrated)).isOk = true := by
    rw [run_seed]
    decide +kernel
  cases hrun : engine.run (reserve yenCall yenReserve)
      (Operation.run [.seed 0 programs] migrated) with
  | error e =>
    rw [hrun] at hok
    cases hok
  | ok reply =>
    obtain ⟨outcome, db'⟩ := reply
    rw [Engine.effect_of_run_ok hrun] at hafter
    obtain ⟨after, hfound, htaken⟩ := ht.takes _ _ hrun
    have hsame : db'.program? (Uuid.ofText northwindUsdProgramId) = some after := hfound
    rw [hsame, Option.map_some, Option.some.injEq] at hafter
    rw [hcurrency, hlocal, hafter] at htaken
    have hvalue : worth yenReserve.currency "USD" yenReserve.amountMinor yenRate.scaledRate =
      6700 := hworth
    omega

theorem takes_worth_iff_yenReserve : ∃ program,
    Converting yenCall yenReserve program yenRate (Operation.run [.seed 0 programs] migrated) ∧
    ¬ TakesWorth yenCall yenReserve program yenRate
      (Operation.run [.seed 0 programs] migrated) := by
  obtain ⟨program, -, hcurrency, havailable, hconverting⟩ := yenReserve_converting
  refine ⟨program, hconverting, fun ht => ?_⟩
  have hholds := (takes_worth_iff hconverting).mp ht
  rw [hcurrency, havailable] at hholds
  revert hholds
  decide

end InvoiceReservation
