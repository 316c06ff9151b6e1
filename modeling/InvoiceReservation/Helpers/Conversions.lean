import InvoiceReservation.Common.Rounding
import InvoiceReservation.Helpers.Policies
import InvoiceReservation.Model.Entities
/-!
# Rates and conversions

A rate that was scaled lies strictly between zero and the end of its
column, and the text the column gives back scales to it again. A
conversion at such a rate never throws, so neither do the policies.
-/

namespace InvoiceReservation

variable {cs : List Char} {scaled : Int}

/-! ## Digits -/

/-- Decimal digits. -/
def Digits (cs : List Char) : Prop := ∀ c ∈ cs, '0' ≤ c ∧ c ≤ '9'

theorem toNat_digit {c : Char} (h : '0' ≤ c ∧ c ≤ '9') : 48 ≤ c.toNat ∧ c.toNat ≤ 57 := by
  have hlow : ('0' : Char).toNat ≤ c.toNat := h.1
  have hhigh : c.toNat ≤ ('9' : Char).toNat := h.2
  exact ⟨hlow, hhigh⟩

theorem digits_toDigits {n : Nat} : Digits (Nat.toDigits 10 n) := by
  intro c hc
  have hdigit := Nat.isDigit_of_mem_toDigits (by decide) (by decide) hc
  simp only [Char.isDigit, Bool.and_eq_true, decide_eq_true_eq] at hdigit
  exact hdigit

theorem digits_replicate {n : Nat} : Digits (List.replicate n '0') := by
  intro c hc
  rw [List.eq_of_mem_replicate hc]
  decide

theorem Digits.append {ds : List Char} (h : Digits cs) (h' : Digits ds) : Digits (cs ++ ds) :=
  List.forall_mem_append.mpr ⟨h, h'⟩

/-- The value of digits is the natural number they write. -/
theorem digitsValue_eq (h : Digits cs) : digitsValue cs = (Nat.ofDigitChars 10 cs 0 : Int) := by
  have hfold : ∀ (ds : List Char) (n : Nat), Digits ds →
      ds.foldl (fun acc c => acc * 10 + ((c.toNat : Int) - 48)) (n : Int) =
        (Nat.ofDigitChars 10 ds n : Int) := by
    intro ds
    induction ds with
    | nil => intro n _; rfl
    | cons c ds ih =>
      intro n hds
      have hc := toNat_digit (hds c List.mem_cons_self)
      have hnext : (n : Int) * 10 + ((c.toNat : Int) - 48) =
          ((10 * n + (c.toNat - '0'.toNat) : Nat) : Int) := by
        have hzero : '0'.toNat = 48 := rfl
        omega
      rw [List.foldl_cons, Nat.ofDigitChars_cons, hnext]
      exact ih _ fun d hd => hds d (List.mem_cons_of_mem _ hd)
  exact hfold cs 0 h

theorem ofDigitChars_lt (h : Digits cs) : Nat.ofDigitChars 10 cs 0 < 10 ^ cs.length := by
  induction cs with
  | nil => simp
  | cons c cs ih =>
    have hc := toNat_digit (h c List.mem_cons_self)
    have hzero : '0'.toNat = 48 := rfl
    have hrest := ih fun d hd => h d (List.mem_cons_of_mem _ hd)
    rw [Nat.ofDigitChars_cons, Nat.ofDigitChars_eq_ofDigitChars_zero, List.length_cons, pow_succ]
    calc 10 ^ cs.length * (10 * 0 + (c.toNat - '0'.toNat)) + Nat.ofDigitChars 10 cs 0
        < 10 ^ cs.length * (10 * 0 + (c.toNat - '0'.toNat)) + 10 ^ cs.length := by omega
      _ = 10 ^ cs.length * (c.toNat - '0'.toNat + 1) := by
        rw [Nat.mul_zero, Nat.zero_add, Nat.mul_add, Nat.mul_one]
      _ ≤ 10 ^ cs.length * 10 := Nat.mul_le_mul_left _ (by omega)

/-! ## Rates -/

/-- What the pattern of a rate lets through. -/
theorem rateParts_some {rate : String} {parts : List Char × List Char}
    (h : rateParts rate = some parts) :
    Digits parts.1 ∧ parts.1.length ≤ 10 ∧ Digits parts.2 ∧ parts.2.length ≤ 10 := by
  unfold rateParts at h
  simp only [Bool.and_eq_true, Bool.or_eq_true, List.all_eq_true, decide_eq_true_eq] at h
  split at h
  · rename_i hparts
    cases h
    obtain ⟨⟨⟨hint, -⟩, hlength⟩, hrest⟩ := hparts
    refine ⟨hint, hlength, ?_⟩
    rcases hrest with hempty | ⟨⟨hfrac, -⟩, hlength'⟩
    · rw [List.isEmpty_iff.mp hempty]
      exact ⟨by simp [Digits], by simp⟩
    · exact ⟨hfrac, hlength'⟩
  · cases h

theorem rateValue_bounds {rate : String} (h : rateValue rate = some scaled) :
    0 ≤ scaled ∧ scaled < 10 ^ 20 := by
  unfold rateValue at h
  obtain ⟨⟨intPart, fracPart⟩, hparts, rfl⟩ := Option.map_eq_some_iff.mp h
  obtain ⟨hint, hlength, hfrac, hlength'⟩ := rateParts_some hparts
  have hdigits : Digits (intPart ++ padEnd fracPart) := hint.append (hfrac.append digits_replicate)
  have hlt := ofDigitChars_lt hdigits
  have hle : (intPart ++ padEnd fracPart).length ≤ 20 := by
    simp only [padEnd, List.length_append, List.length_replicate]
    simp only at hlength hlength'
    omega
  have hpow := Nat.pow_le_pow_right (n := 10) (by decide) hle
  simp only [digitsValue_eq hdigits]
  exact ⟨Int.natCast_nonneg _, by exact_mod_cast lt_of_lt_of_le hlt hpow⟩

/-- **A scaled rate** is positive, and fits its column. -/
theorem scaleRate_ok {rate : String} (h : scaleRate rate = .ok scaled) :
    rateValue rate = some scaled ∧ 0 < scaled ∧ scaled < 10 ^ 20 := by
  unfold scaleRate at h
  split at h
  · cases h
  rename_i value hvalue
  split at h
  · cases h
  rename_i hzero
  cases h
  have hbounds := rateValue_bounds hvalue
  exact ⟨hvalue, by omega, hbounds.2⟩

/-- The text of a numeric: its digits, the point, and ten more. -/
theorem numericText_toList {n : Nat} : (numericText n).toList =
    Nat.toDigits 10 (n / 10 ^ 10) ++ '.' ::
      (List.replicate (10 - (Nat.toDigits 10 (n % 10 ^ 10)).length) '0' ++
        Nat.toDigits 10 (n % 10 ^ 10)) := by
  have hpositive : ¬ ((n : Int) < 0) := by omega
  simp [numericText, hpositive, padStart]

/-- **A numeric's text scales to it.** -/
theorem scaleRate_numericText (h : 0 < scaled) (hlt : scaled < 10 ^ 20) :
    scaleRate (numericText scaled) = .ok scaled := by
  obtain ⟨n, rfl⟩ := Int.eq_ofNat_of_zero_le h.le
  have hn : n < 10 ^ 20 := by exact_mod_cast hlt
  have hdot : ∀ c ∈ Nat.toDigits 10 (n / 10 ^ 10), (c != '.') = true := by
    intro c hc
    have hdigit := toNat_digit (digits_toDigits c hc)
    have hne : c ≠ '.' := by rintro rfl; simp at hdigit
    simpa using hne
  have hintLength : (Nat.toDigits 10 (n / 10 ^ 10)).length ≤ 10 :=
    (Nat.length_toDigits_le_iff (by decide) (by decide)).mpr (by omega)
  have hfracLength : (Nat.toDigits 10 (n % 10 ^ 10)).length ≤ 10 :=
    (Nat.length_toDigits_le_iff (by decide) (by decide)).mpr (by omega)
  generalize hfrac : List.replicate (10 - (Nat.toDigits 10 (n % 10 ^ 10)).length) '0' ++
    Nat.toDigits 10 (n % 10 ^ 10) = frac
  have hfracDigits : Digits frac := hfrac ▸ digits_replicate.append digits_toDigits
  have hten : frac.length = 10 := by
    rw [← hfrac, List.length_append, List.length_replicate]
    omega
  have hparts : rateParts (numericText n) = some (Nat.toDigits 10 (n / 10 ^ 10), frac) := by
    unfold rateParts
    rw [numericText_toList, hfrac, List.takeWhile_append_of_pos hdot,
      List.dropWhile_append_of_pos hdot]
    have hpositive := @Nat.length_toDigits_pos 10 (n / 10 ^ 10)
    have hint : ∀ c ∈ Nat.toDigits 10 (n / 10 ^ 10), '0' ≤ c ∧ c ≤ '9' := digits_toDigits
    have hdigits : ∀ c ∈ frac, '0' ≤ c ∧ c ≤ '9' := hfracDigits
    simpa using ⟨hint, hpositive, hintLength, hdigits, by omega, by omega⟩
  have hvalue : rateValue (numericText n) = some (n : Int) := by
    unfold rateValue
    rw [hparts]
    simp only [Option.map_some, padEnd, hten, Nat.sub_self, List.replicate_zero, List.append_nil,
      digitsValue_eq (digits_toDigits.append hfracDigits), Option.some.injEq]
    have hmod : Nat.ofDigitChars 10 frac 0 = n % 10 ^ 10 := by
      rw [← hfrac, Nat.ofDigitChars_append, Nat.ofDigitChars_replicate_zero, Nat.mul_zero,
        Nat.ofDigitChars_ten_toDigits]
    rw [Nat.ofDigitChars_append, Nat.ofDigitChars_ten_toDigits,
      Nat.ofDigitChars_eq_ofDigitChars_zero, hten, hmod]
    exact_mod_cast Nat.div_add_mod n (10 ^ 10)
  simp only [scaleRate, hvalue, if_neg h.ne']

/-! ## Conversions -/

/-- A currency code has none of the characters that fields are joined by. -/
theorem isCurrencyCode_separated {sep : Char} {code : String} (h : isCurrencyCode code = true)
    (hsep : ¬ ('A' ≤ sep ∧ sep ≤ 'Z')) : sep ∉ code.toList := by
  intro hmem
  obtain ⟨-, hall⟩ := (Bool.and_eq_true _ _).mp h
  have hletter := List.all_eq_true.mp hall sep hmem
  exact hsep (by simpa using hletter)

theorem money_ok {minor : Int} {code : String} (h : isCurrencyCode code = true) :
    money minor code = .ok ⟨minor, code⟩ := by
  simp [money, currency, h]

theorem roundHalfUp_ok {numerator denominator : Int} (hn : 0 ≤ numerator) (hd : 0 < denominator) :
    ∃ result, roundHalfUp numerator denominator = .ok result ∧ 0 ≤ result := by
  have hquotient : 0 ≤ numerator.tdiv denominator := Int.tdiv_nonneg hn hd.le
  have hremainder : ¬ numerator.tmod denominator < 0 := not_lt.mpr (Int.tmod_nonneg _ hn)
  have hdenominator : ¬ denominator ≤ 0 := by omega
  simp only [roundHalfUp, if_neg hdenominator, if_neg hremainder, if_neg (not_lt.mpr hn)]
  split
  · exact ⟨_, rfl, by omega⟩
  · exact ⟨_, rfl, hquotient⟩

/-- **The code's rounding is `round`**, of what is not negative. -/
theorem roundHalfUp_eq_round {numerator denominator : Int} (hn : 0 ≤ numerator)
    (hd : 0 < denominator) :
    roundHalfUp numerator denominator = .ok (round ((numerator : ℚ) / denominator)) := by
  have hquotient : numerator.tdiv denominator = numerator / denominator :=
    Int.tdiv_eq_ediv_of_nonneg hn
  have hremainder : numerator.tmod denominator = numerator % denominator :=
    Int.tmod_eq_emod_of_nonneg hn
  have hsign : ¬ numerator % denominator < 0 := not_lt.mpr (Int.emod_nonneg _ hd.ne')
  rw [Rounding.round_div hd]
  simp only [roundHalfUp, if_neg (not_le.mpr hd), hquotient, hremainder, if_neg hsign,
    if_neg (not_lt.mpr hn), ge_iff_le]
  split <;> rfl

/-- The code's rounding of what is negated. -/
theorem roundHalfUp_neg {numerator denominator result : Int} (hn : 0 < numerator)
    (h : roundHalfUp numerator denominator = .ok result) :
    roundHalfUp (-numerator) denominator = .ok (-result) := by
  have hsign : ¬ numerator.tmod denominator < 0 := not_lt.mpr (Int.tmod_nonneg _ hn.le)
  have habs : (if -numerator.tmod denominator < 0 then - -numerator.tmod denominator
      else -numerator.tmod denominator) = numerator.tmod denominator := by
    split <;> omega
  have hneg : -numerator < 0 := by omega
  by_cases hd : denominator ≤ 0
  · simp only [roundHalfUp, if_pos hd, reduceCtorEq] at h
  simp only [roundHalfUp, if_neg hd, if_neg hsign, if_neg (not_lt.mpr hn.le)] at h
  simp only [roundHalfUp, if_neg hd, Int.neg_tdiv, Int.neg_tmod, habs, if_pos hneg]
  by_cases htie : 2 * numerator.tmod denominator ≥ denominator
  · simp only [if_pos htie, Except.ok.injEq] at h ⊢
    omega
  · simp only [if_neg htie, Except.ok.injEq] at h ⊢
    omega

/-- **The code rounds a tie away from zero**, of either sign. -/
theorem roundHalfUp_eq_roundAway {numerator denominator : Int} (hd : 0 < denominator) :
    roundHalfUp numerator denominator =
      .ok (Rounding.roundAway ((numerator : ℚ) / denominator)) := by
  have hd' : (0 : ℚ) < denominator := by exact_mod_cast hd
  have hup : ∀ n : Int, 0 ≤ n →
      roundHalfUp n denominator = .ok (Rounding.roundAway ((n : ℚ) / denominator)) := by
    intro n hn
    have hn' : (0 : ℚ) ≤ n := by exact_mod_cast hn
    rw [Rounding.roundAway_of_nonneg (div_nonneg hn' hd'.le)]
    exact roundHalfUp_eq_round hn hd
  rcases le_or_gt 0 numerator with hn | hn
  · exact hup numerator hn
  · have hflip := roundHalfUp_neg (by omega) (hup (-numerator) (by omega))
    rwa [Int.cast_neg, neg_div, Rounding.roundAway_neg, neg_neg, neg_neg] at hflip

/-- What an amount comes to at a scaled rate: the product, rounded. -/
def converted (minor scaledRate : Int) : Int :=
  round (((minor * scaledRate : Int) : ℚ) / (rateScale : Int))

theorem converted_nonneg {minor : Int} (hminor : 0 ≤ minor) (hrate : 0 ≤ scaled) :
    0 ≤ converted minor scaled := by
  refine Rounding.round_nonneg (div_nonneg ?_ (by norm_num [rateScale]))
  exact_mod_cast Int.mul_nonneg hminor hrate

theorem converted_mono {x y : Int} (h : x ≤ y) (hrate : 0 ≤ scaled) :
    converted x scaled ≤ converted y scaled := by
  refine Rounding.round_mono (div_le_div_of_nonneg_right ?_ (by norm_num [rateScale]))
  exact_mod_cast Int.mul_le_mul_of_nonneg_right h hrate

@[simp] theorem converted_zero : converted 0 scaled = 0 := by simp [converted]

/-- At the rate of one an amount stays what it is. -/
@[simp] theorem converted_rateScale {minor : Int} : converted minor rateScale = minor := by
  have hone : (((minor * rateScale : Int) : ℚ) / (rateScale : Int)) = (minor : ℚ) := by
    rw [Int.cast_mul, mul_div_assoc, div_self (by norm_num [rateScale]), mul_one]
  rw [converted, hone, round_intCast]

/-- An amount comes to more than a whole number from a half beyond it on. -/
theorem lt_converted {minor n : Int} :
    n < converted minor scaled ↔ (2 * n + 1) * rateScale ≤ 2 * (minor * scaled) := by
  have hscale : (0 : ℚ) < (rateScale : Int) := by norm_num [rateScale]
  rw [converted, Rounding.lt_round_iff, le_div_iff₀ hscale, ← Int.cast_le (R := ℚ)]
  push_cast
  constructor <;> intro h <;> linarith

/-- **What two parts convert to** is within one of what the whole does. -/
theorem abs_converted_add_sub (x y : Int) :
    |converted (x + y) scaled - (converted x scaled + converted y scaled)| ≤ 1 := by
  have hsum : (((x + y) * scaled : Int) : ℚ) / (rateScale : Int) =
      ((x * scaled : Int) : ℚ) / (rateScale : Int) +
        ((y * scaled : Int) : ℚ) / (rateScale : Int) := by
    rw [← add_div, ← Int.cast_add, add_mul]
  rw [converted, hsum]
  exact Rounding.abs_round_add_sub _ _

/-- **A conversion**, of an amount that is not negative. -/
theorem convert_eq {amount : Money} {targetCurrency : String} (hamount : 0 ≤ amount.minor)
    (hcurrency : isCurrencyCode targetCurrency = true) (hrate : 0 < scaled) :
    convert amount targetCurrency scaled =
      .ok (if converted amount.minor scaled = 0 ∧ amount.minor ≠ 0 then .roundsToZero
        else .converted ⟨converted amount.minor scaled, targetCurrency⟩) := by
  have hround : roundHalfUp (amount.minor * scaled) rateScale =
      .ok (converted amount.minor scaled) :=
    roundHalfUp_eq_round (Int.mul_nonneg hamount hrate.le) (by decide)
  unfold convert
  rw [hround]
  dsimp only
  split
  · rfl
  · rw [money_ok hcurrency]

/-- What a conversion leaves is what the amount comes to. -/
theorem convert_minor {amount : Money} {targetCurrency : String} {outcome : ConversionOutcome}
    (h : convert amount targetCurrency scaled = .ok outcome) (hamount : 0 ≤ amount.minor)
    (hrate : 0 < scaled) : outcome.minor = converted amount.minor scaled := by
  have hround : roundHalfUp (amount.minor * scaled) rateScale =
      .ok (converted amount.minor scaled) :=
    roundHalfUp_eq_round (Int.mul_nonneg hamount hrate.le) (by decide)
  unfold convert at h
  rw [hround] at h
  dsimp only at h
  split at h
  · rename_i hzero
    cases h
    exact hzero.1.symm
  · split at h
    · cases h
    · rename_i m hm
      cases h
      rw [money_eq hm]
      rfl

/-- **A conversion at a positive rate** gives an amount, which is positive
where the money is. -/
theorem convert_ok {amount : Money} {targetCurrency : String}
    (hamount : 0 ≤ amount.minor) (hcurrency : isCurrencyCode targetCurrency = true)
    (hrate : 0 < scaled) : ∃ outcome, convert amount targetCurrency scaled = .ok outcome ∧
      0 ≤ outcome.minor ∧ ∀ m, outcome = .converted m → 0 < amount.minor → 0 < m.minor := by
  obtain ⟨result, hround, hresult⟩ :=
    roundHalfUp_ok (Int.mul_nonneg hamount hrate.le) (show 0 < rateScale by decide)
  unfold convert
  rw [hround]
  dsimp only
  split
  · exact ⟨_, rfl, le_refl 0, fun m hm => nomatch hm⟩
  · rename_i hnonzero
    rw [money_ok hcurrency]
    refine ⟨_, rfl, hresult, fun m hm hpositive => ?_⟩
    cases hm
    have hne : result ≠ 0 := fun hzero => hnonzero ⟨hzero, hpositive.ne'⟩
    exact lt_of_le_of_ne hresult hne.symm

/-! ## Policies -/

/-- What an accepted reserve reserves. -/
structure Accepts (fx : FxResolution) (reservedMinor : Int) (rate : Option FxRate) : Prop where
  positive : 0 < reservedMinor
  rate : fx = .sameCurrency ∧ rate = none ∨ ∃ r, fx = .rate r ∧ rate = some r

theorem decideCapacity_accepts {program : ProgramPosition} {fx : FxResolution} {amountMinor : Int}
    {rate : Option FxRate} (hpositive : 0 < amountMinor)
    (hrate : fx = .sameCurrency ∧ rate = none ∨ ∃ r, fx = .rate r ∧ rate = some r) :
    ∀ reservedMinor accepted, decideCapacity program amountMinor rate =
      .accepted reservedMinor accepted → Accepts fx reservedMinor accepted := by
  intro reservedMinor accepted h
  obtain ⟨rfl, -, rfl⟩ := decideCapacity_accepted h
  exact ⟨hpositive, hrate⟩

/-- **The reserve policy always decides.** -/
theorem decideReservation_ok {program : ProgramPosition} {invoiceAmountMinor : Int}
    {fx : FxResolution} (hcurrency : isCurrencyCode program.currency = true)
    (hamount : 0 < invoiceAmountMinor) :
    ∃ decision, decideReservation program invoiceAmountMinor fx = .ok decision ∧
      ∀ reservedMinor rate, decision = .accepted reservedMinor rate →
        Accepts fx reservedMinor rate := by
  unfold decideReservation
  split
  · exact ⟨_, rfl, fun _ _ h => nomatch h⟩
  split
  · exact ⟨_, rfl, fun _ _ h => nomatch h⟩
  cases fx with
  | unavailable => exact ⟨_, rfl, fun _ _ h => nomatch h⟩
  | sameCurrency => exact ⟨_, rfl, decideCapacity_accepts hamount (Or.inl ⟨rfl, rfl⟩)⟩
  | rate rate =>
    obtain ⟨-, hrate, -⟩ := scaleRate_ok rate.scaled
    obtain ⟨outcome, hconvert, -, hconverted⟩ :=
      @convert_ok _ ⟨invoiceAmountMinor, program.currency⟩ _ hamount.le hcurrency hrate
    simp only [money_ok hcurrency, hconvert]
    cases outcome with
    | roundsToZero => exact ⟨_, rfl, fun _ _ h => nomatch h⟩
    | converted amount =>
      exact ⟨_, rfl, decideCapacity_accepts (hconverted amount rfl hamount)
        (Or.inr ⟨rate, rfl, rfl⟩)⟩

/-- **What a reserve at a rate comes to**, of a program that is open to it. -/
theorem decideReservation_rate {program : ProgramPosition} {invoiceAmountMinor : Int}
    {resolved : FxRate} (hcurrency : isCurrencyCode program.currency = true)
    (hamount : 0 < invoiceAmountMinor) (hverified : program.positionVerified = true)
    (hwithin : isOverLimit program = false) :
    decideReservation program invoiceAmountMinor (.rate resolved) =
      .ok (if converted invoiceAmountMinor resolved.scaledRate = 0
        then .refused .amountRoundsToZero []
        else decideCapacity program (converted invoiceAmountMinor resolved.scaledRate)
          (some resolved)) := by
  obtain ⟨-, hpositive, -⟩ := scaleRate_ok resolved.scaled
  have hconvert := @convert_eq _ ⟨invoiceAmountMinor, program.currency⟩ program.currency
    hamount.le hcurrency hpositive
  have hne : invoiceAmountMinor ≠ 0 := hamount.ne'
  unfold decideReservation
  simp only [hverified, hwithin, Bool.false_eq_true, reduceCtorEq, if_false, money_ok hcurrency,
    hconvert]
  by_cases hzero : converted invoiceAmountMinor resolved.scaledRate = 0
  · simp only [hzero, hne, ne_eq, not_false_eq_true, and_self, if_true]
  · simp only [hzero, false_and, if_false]

/-- **What an accepted reserve takes**: the amount itself, or what it comes
to at the rate. -/
theorem decideReservation_converted {program : ProgramPosition}
    {invoiceAmountMinor reservedMinor : Int} {fx : FxResolution} {rate : Option FxRate}
    (h : decideReservation program invoiceAmountMinor fx = .ok (.accepted reservedMinor rate))
    (hamount : 0 ≤ invoiceAmountMinor) :
    fx = .sameCurrency ∧ rate = none ∧ reservedMinor = invoiceAmountMinor ∨
      ∃ resolved, fx = .rate resolved ∧ rate = some resolved ∧
        reservedMinor = converted invoiceAmountMinor resolved.scaledRate := by
  unfold decideReservation at h
  split at h
  · cases h
  split at h
  · cases h
  cases fx with
  | unavailable => cases h
  | sameCurrency =>
    simp only [Except.ok.injEq] at h
    obtain ⟨hreserved, -, hrate⟩ := decideCapacity_accepted h
    exact Or.inl ⟨rfl, hrate, hreserved⟩
  | rate resolved =>
    obtain ⟨-, hpositive, -⟩ := scaleRate_ok resolved.scaled
    simp only at h
    cases hm : money invoiceAmountMinor program.currency with
    | error e => simp [hm] at h
    | ok amount =>
      simp only [hm] at h
      cases hc : convert amount program.currency resolved.scaledRate with
      | error e => simp [hc] at h
      | ok outcome =>
        simp only [hc] at h
        cases outcome with
        | roundsToZero => cases h
        | converted money =>
          simp only [Except.ok.injEq] at h
          obtain ⟨hreserved, -, hrate⟩ := decideCapacity_accepted h
          obtain rfl := money_eq hm
          exact Or.inr ⟨resolved, rfl, hrate, hreserved.trans (convert_minor hc hamount hpositive)⟩

/-- **The release policy always decides**: its checks in order, over what
the release and the rest of the invoice come to. -/
theorem releasePolicy_eq {releaseMinor : Int} {releaseCurrency : String}
    {reservation : ReservationSnapshot} (hreleased : isCurrencyCode releaseCurrency = true)
    (hcurrency : isCurrencyCode reservation.programCurrency = true) (hrate : 0 < scaled) :
    releasePolicy releaseMinor releaseCurrency reservation scaled = .ok (
      let rest := converted (reservation.outstandingInvoiceMinor - releaseMinor) scaled
      let deltaMinor := reservation.outstandingReservedMinor - rest
      if releaseMinor ≤ 0 then .error .invalidAmount
      else if releaseCurrency ≠ reservation.invoiceCurrency then .error .currencyMismatch
      else if reservation.status ∈ terminalStatuses then .error .reservationTerminal
      else if releaseMinor > reservation.outstandingInvoiceMinor then .error .releaseExceedsReserved
      else if converted releaseMinor scaled = 0 then .error .amountRoundsToZero
      else if deltaMinor < 0 then .error .releaseExceedsReserved
      else if deltaMinor = 0 then .error .amountRoundsToZero
      else if rest = 0 then .ok ⟨deltaMinor, 0, 0, .fullyReleased⟩
      else .ok ⟨deltaMinor, reservation.outstandingInvoiceMinor - releaseMinor, rest,
        if reservation.outstandingInvoiceMinor - releaseMinor = 0 then .fullyReleased
        else .partiallyReleased⟩) := by
  unfold releasePolicy
  simp only [bind, Except.bind, pure, Except.pure]
  by_cases hpositive : releaseMinor ≤ 0
  · simp only [hpositive, if_true]
  by_cases hmatches : releaseCurrency = reservation.invoiceCurrency
  swap
  · simp only [hpositive, if_false, ne_eq, hmatches, not_false_eq_true, if_true]
  by_cases hterminal : reservation.status ∈ terminalStatuses
  · simp only [hpositive, if_false, ne_eq, hmatches, not_true_eq_false, hterminal, if_true]
  by_cases hexceeds : releaseMinor > reservation.outstandingInvoiceMinor
  · simp only [hpositive, if_false, ne_eq, hmatches, not_true_eq_false, hterminal, hexceeds,
      if_true]
  have hrest : 0 ≤ reservation.outstandingInvoiceMinor - releaseMinor := by omega
  obtain ⟨remainder, hconvert, -⟩ := @convert_ok _
    ⟨reservation.outstandingInvoiceMinor - releaseMinor, reservation.programCurrency⟩
    reservation.programCurrency hrest hcurrency hrate
  have hreleasedOk := @convert_eq scaled ⟨releaseMinor, reservation.invoiceCurrency⟩
    reservation.programCurrency (by dsimp only; omega) hcurrency hrate
  have hrestOk := convert_minor hconvert hrest hrate
  have hne : releaseMinor ≠ 0 := by omega
  rw [hmatches] at hreleased
  simp only [hpositive, if_false, ne_eq, hmatches, not_true_eq_false, hterminal, hexceeds,
    money_ok hreleased, money_ok hcurrency, hconvert, hrestOk, hreleasedOk]
  by_cases hzero : converted releaseMinor scaled = 0
  · simp only [hzero, hne, not_false_eq_true, and_self, if_true]
  simp only [hzero, false_and, if_false, reduceCtorEq]
  split
  · rfl
  split
  · rfl
  split <;> rfl

end InvoiceReservation
