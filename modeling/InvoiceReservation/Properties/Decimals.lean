import InvoiceReservation.Helpers.Conversions
/-!
# Decimal strings

`fromDecimalString` reads back what `toDecimalString` writes of an amount
of at most nineteen digits. It accepts more than that: it counts the
digits of the fraction before it pads them, so a value can come to an
amount whose own string it turns down.
-/

namespace InvoiceReservation

variable {cs ds intPart fracPart : List Char} {negative : Bool} {value code : String}
variable {digits k n : Nat} {a : Money}

/-! ## Digits that count -/

/-- The value of digits, those on the right apart. -/
theorem ofDigitChars_split : Nat.ofDigitChars 10 (cs ++ ds) 0 =
    10 ^ ds.length * Nat.ofDigitChars 10 cs 0 + Nat.ofDigitChars 10 ds 0 := by
  rw [Nat.ofDigitChars_append, Nat.ofDigitChars_eq_ofDigitChars_zero]

/-- **Leading zeros apart**, digits are as many as their value needs. -/
theorem length_dropWhile_zero_le_iff (h : Digits cs) :
    (cs.dropWhile (· == '0')).length ≤ k ↔ Nat.ofDigitChars 10 cs 0 < 10 ^ k := by
  induction cs with
  | nil => simp
  | cons c cs ih =>
    have hrest : Digits cs := fun d hd => h d (List.mem_cons_of_mem _ hd)
    have hlt := ofDigitChars_lt hrest
    have hvalue : Nat.ofDigitChars 10 (c :: cs) 0 =
        10 ^ cs.length * Nat.ofDigitChars 10 [c] 0 + Nat.ofDigitChars 10 cs 0 :=
      @ofDigitChars_split [c] cs
    have hone : Nat.ofDigitChars 10 [c] 0 = c.toNat - 48 := by
      rw [Nat.ofDigitChars_cons, Nat.ofDigitChars_nil]
      exact Nat.zero_add _
    rw [hone] at hvalue
    by_cases hzero : c = '0'
    · subst hzero
      rw [List.dropWhile_cons_of_pos (by decide), ih hrest, hvalue]
      simp
    · rw [List.dropWhile_cons_of_neg (by simpa using hzero), List.length_cons, hvalue]
      have hc := toNat_digit (h c List.mem_cons_self)
      have hne : c.toNat ≠ 48 := by
        intro he
        exact hzero (Char.toNat_inj.mp he)
      have hpow : 10 ^ (cs.length + 1) = 10 ^ cs.length * 10 := pow_succ 10 cs.length
      constructor
      · intro hle
        calc 10 ^ cs.length * (c.toNat - 48) + Nat.ofDigitChars 10 cs 0
            < 10 ^ cs.length * (c.toNat - 48) + 10 ^ cs.length := by omega
          _ = 10 ^ cs.length * (c.toNat - 48 + 1) := by rw [Nat.mul_add, Nat.mul_one]
          _ ≤ 10 ^ cs.length * 10 := Nat.mul_le_mul_left _ (by omega)
          _ = 10 ^ (cs.length + 1) := hpow.symm
          _ ≤ 10 ^ k := Nat.pow_le_pow_right (by decide) hle
      · intro hsmall
        have hlow : 10 ^ cs.length * 1 ≤ 10 ^ cs.length * (c.toNat - 48) :=
          Nat.mul_le_mul_left _ (by omega)
        have hless : 10 ^ cs.length < 10 ^ k := by omega
        have := (Nat.pow_lt_pow_iff_right (by decide : 1 < 10)).mp hless
        omega

/-! ## Reading -/

/-- The text of a sign and the digits on either side of the point. -/
def decimalText (negative : Bool) (intPart fracPart : List Char) : String :=
  String.ofList ((if negative then ['-'] else []) ++ intPart ++
    if fracPart = [] then [] else '.' :: fracPart)

theorem digit_ne {c : Char} (h : '0' ≤ c ∧ c ≤ '9') : c ≠ '.' ∧ c ≠ '-' := by
  have hc := toNat_digit h
  refine ⟨?_, ?_⟩ <;> rintro rfl <;> simp at hc

/-- **The pattern takes the text of digits**, up to nineteen before the point. -/
theorem decimalParts_decimalText (hint : Digits intPart) (hne : intPart ≠ [])
    (hfrac : Digits fracPart) : decimalParts (decimalText negative intPart fracPart) =
      if intPart.length ≤ 19 then some (negative, intPart, fracPart) else none := by
  have hpositive : 1 ≤ intPart.length := List.length_pos_iff.mpr hne
  have hhead : intPart.head? ≠ some '-' := by
    intro h
    exact (digit_ne (hint _ (List.mem_of_mem_head? h))).2 rfl
  have hdot : ∀ c ∈ intPart, (c != '.') = true := by
    intro c hc
    simpa using (digit_ne (hint c hc)).1
  generalize htail : (if fracPart = [] then [] else '.' :: fracPart) = tail
  have hsign : ((decimalText negative intPart fracPart).toList.head? == some '-') = negative := by
    rw [decimalText, String.toList_ofList]
    cases negative with
    | true => simp
    | false => simpa [List.head?_append_of_ne_nil _ hne] using hhead
  have hunsigned : (if negative = true then (decimalText negative intPart fracPart).toList.drop 1
      else (decimalText negative intPart fracPart).toList) = intPart ++ tail := by
    rw [decimalText, String.toList_ofList, htail]
    cases negative <;> simp
  -- the point is the first character that is no digit
  have hbefore : (intPart ++ tail).takeWhile (· != '.') = intPart := by
    rw [List.takeWhile_append_of_pos hdot, ← htail]
    split <;> simp
  have hafter : (intPart ++ tail).dropWhile (· != '.') = tail := by
    rw [List.dropWhile_append_of_pos hdot, ← htail]
    split <;> simp
  have hfraction : tail.drop 1 = fracPart := by
    rw [← htail]
    split
    · rename_i hempty
      rw [hempty, List.drop_nil]
    · rfl
  have hrest : (tail.isEmpty || (fracPart.all (fun c => '0' ≤ c && c ≤ '9') &&
      decide (1 ≤ fracPart.length))) = true := by
    rw [← htail]
    split
    · rfl
    · rename_i hnonempty
      have hlong : 1 ≤ fracPart.length := List.length_pos_iff.mpr hnonempty
      have hdigits : ∀ c ∈ fracPart, '0' ≤ c ∧ c ≤ '9' := hfrac
      simpa [hlong] using hdigits
  have hall : intPart.all (fun c => '0' ≤ c && c ≤ '9') = true := by
    have hdigits : ∀ c ∈ intPart, '0' ≤ c ∧ c ≤ '9' := hint
    simpa using hdigits
  unfold decimalParts
  simp only [hsign, hunsigned, hbefore, hafter, hfraction, hrest, hall, hpositive, decide_true,
    Bool.and_true, Bool.true_and, decide_eq_true_eq]

/-- What the pattern lets through. -/
theorem decimalParts_some (h : decimalParts value = some (negative, intPart, fracPart)) :
    Digits intPart ∧ intPart ≠ [] ∧ intPart.length ≤ 19 ∧ Digits fracPart := by
  unfold decimalParts at h
  simp only [Bool.and_eq_true, Bool.or_eq_true, List.all_eq_true, decide_eq_true_eq,
    Option.ite_none_right_eq_some, Option.some.injEq, Prod.mk.injEq] at h
  obtain ⟨⟨⟨⟨hint, hpositive⟩, hlength⟩, hrest⟩, -, rfl, rfl⟩ := h
  refine ⟨hint, List.length_pos_iff.mp hpositive, hlength, ?_⟩
  rcases hrest with hempty | ⟨hfrac, -⟩
  · rw [List.isEmpty_iff.mp hempty, List.drop_nil]
    intro c hc
    exact absurd hc List.not_mem_nil
  · exact hfrac

/-- The minor units digits come to. -/
def minorOf (negative : Bool) (intPart fracPart : List Char) (digits : Nat) : Int :=
  let abs : Int := (Nat.ofDigitChars 10 intPart 0 * 10 ^ digits +
    Nat.ofDigitChars 10 fracPart 0 * 10 ^ (digits - fracPart.length) : Nat)
  if negative then -abs else abs

/-- **What the code makes of the parts of a value.** -/
theorem fromDecimalString_eq_ok (h : decimalParts value = some (negative, intPart, fracPart)) :
    fromDecimalString value code digits = .ok a ↔
      isCurrencyCode code = true ∧ fracPart.length ≤ digits ∧
        (intPart.dropWhile (· == '0')).length + fracPart.length ≤ 19 ∧
        a = ⟨minorOf negative intPart fracPart digits, code⟩ := by
  obtain ⟨hint, -, -, hfrac⟩ := decimalParts_some h
  have hvalue : digitsValue (intPart ++ (fracPart ++
      List.replicate (digits - fracPart.length) '0')) =
      ((Nat.ofDigitChars 10 intPart 0 * 10 ^ (fracPart.length + (digits - fracPart.length)) +
        Nat.ofDigitChars 10 fracPart 0 * 10 ^ (digits - fracPart.length) : Nat) : Int) := by
    rw [digitsValue_eq (hint.append (hfrac.append digits_replicate)), ofDigitChars_split,
      Nat.ofDigitChars_append, Nat.ofDigitChars_replicate_zero, List.length_append,
      List.length_replicate]
    congr 1
    ring
  unfold fromDecimalString
  simp only [h]
  -- the two refusals, and then the currency
  by_cases hdigits : fracPart.length > digits
  · simp only [if_pos hdigits, reduceCtorEq, false_iff]
    omega
  by_cases hcap : (intPart.dropWhile (· == '0')).length + fracPart.length > 19
  · simp only [if_neg hdigits, if_pos hcap, reduceCtorEq, false_iff]
    omega
  have hwidth : fracPart.length + (digits - fracPart.length) = digits := by omega
  rw [hwidth] at hvalue
  simp only [if_neg hdigits, if_neg hcap, hvalue]
  by_cases hcode : isCurrencyCode code = true
  · rw [money_ok hcode]
    simp only [Except.ok.injEq, hcode, true_and, minorOf]
    constructor
    · intro he
      exact ⟨by omega, by omega, he.symm⟩
    · intro he
      exact he.2.2.symm
  · simp [money, currency, hcode]

/-! ## Writing -/

/-- What an amount's text is made of. -/
structure Renders (m : Int) (digits : Nat) (intPart fracPart : List Char) : Prop where
  int : Digits intPart
  frac : Digits fracPart
  nonempty : intPart ≠ []
  width : fracPart.length = digits
  whole : Nat.ofDigitChars 10 intPart 0 = m.natAbs / 10 ^ digits
  fraction : Nat.ofDigitChars 10 fracPart 0 = m.natAbs % 10 ^ digits
  long : ∀ k, 0 < k → m.natAbs / 10 ^ digits < 10 ^ k → intPart.length ≤ k

/-- **An amount's text**: the digits on either side of the point. -/
theorem toDecimalString_renders (m : Int) (code : String) (digits : Nat) :
    ∃ intPart fracPart, toDecimalString ⟨m, code⟩ digits =
      decimalText (decide (m < 0)) intPart fracPart ∧ Renders m digits intPart fracPart := by
  have habs : (if m < 0 then -m else m).toNat = m.natAbs := by split <;> omega
  have hsign : (if m < 0 then ['-'] else []) = if decide (m < 0) = true then ['-'] else [] := by
    simp
  generalize hds : Nat.toDigits 10 m.natAbs = ds
  have hdigits : Digits ds := hds ▸ digits_toDigits
  have hvalue : Nat.ofDigitChars 10 ds 0 = m.natAbs := hds ▸ Nat.ofDigitChars_ten_toDigits
  have hlong : ∀ k, 0 < k → (ds.length ≤ k ↔ m.natAbs < 10 ^ k) := by
    intro k hk
    rw [← hds]
    exact Nat.length_toDigits_le_iff (by decide) hk
  have hpositive : 0 < ds.length := hds ▸ Nat.length_toDigits_pos
  unfold toDecimalString
  simp only [habs, hds, hsign]
  by_cases hzero : digits = 0
  · subst hzero
    refine ⟨ds, [], by simp [decimalText], hdigits, by simp [Digits],
      List.length_pos_iff.mp hpositive, rfl, by simpa using hvalue, by simp [Nat.mod_one],
      fun k hk hlt => ?_⟩
    rw [pow_zero, Nat.div_one] at hlt
    exact (hlong k hk).mpr hlt
  rw [if_neg hzero]
  -- padded to one digit before the point, the digits are cut into two parts
  generalize hpadded : List.replicate (digits + 1 - ds.length) '0' ++ ds = padded
  have hlength : padded.length = max (digits + 1) ds.length := by
    rw [← hpadded, List.length_append, List.length_replicate]
    omega
  have hpaddedDigits : Digits padded := hpadded ▸ digits_replicate.append hdigits
  have hwidth : (padded.drop (padded.length - digits)).length = digits := by
    rw [List.length_drop]
    omega
  have hsplit : 10 ^ digits * Nat.ofDigitChars 10 (padded.take (padded.length - digits)) 0 +
      Nat.ofDigitChars 10 (padded.drop (padded.length - digits)) 0 = m.natAbs := by
    have h := @ofDigitChars_split (padded.take (padded.length - digits))
      (padded.drop (padded.length - digits))
    rw [List.take_append_drop, hwidth] at h
    rw [← h, ← hpadded, Nat.ofDigitChars_append, Nat.ofDigitChars_replicate_zero, Nat.mul_zero,
      hvalue]
  have hfrac : Digits (padded.drop (padded.length - digits)) := fun c hc =>
    hpaddedDigits c (List.mem_of_mem_drop hc)
  have hsmall := ofDigitChars_lt hfrac
  rw [hwidth] at hsmall
  have hne : padded.drop (padded.length - digits) ≠ [] := by
    intro hnil
    rw [hnil, List.length_nil] at hwidth
    omega
  refine ⟨padded.take (padded.length - digits), padded.drop (padded.length - digits),
    by rw [decimalText, if_neg hne], fun c hc => hpaddedDigits c (List.mem_of_mem_take hc), hfrac,
    ?_, hwidth, ?_, ?_, fun k hk hlt => ?_⟩
  · intro hnil
    have hcut := congrArg List.length hnil
    rw [List.length_take, List.length_nil] at hcut
    omega
  · rw [← hsplit, Nat.mul_add_div (by positivity), Nat.div_eq_of_lt hsmall, Nat.add_zero]
  · rw [← hsplit, Nat.mul_add_mod, Nat.mod_eq_of_lt hsmall]
  · rw [Nat.div_lt_iff_lt_mul (by positivity), ← pow_add] at hlt
    have hshort := (hlong (k + digits) (by omega)).mpr hlt
    rw [List.length_take]
    omega

/-- **An amount is read back** from its text exactly where nineteen digits
hold it. -/
theorem readsBack_iff {m : Int} {currency : String} :
    fromDecimalString (toDecimalString ⟨m, currency⟩ digits) code digits = .ok ⟨m, code⟩ ↔
      isCurrencyCode code = true ∧ digits ≤ 19 ∧ m.natAbs < 10 ^ 19 := by
  obtain ⟨intPart, fracPart, htext, h⟩ := toDecimalString_renders m currency digits
  have hparts := @decimalParts_decimalText intPart fracPart (decide (m < 0)) h.int h.nonempty h.frac
  have hminor : minorOf (decide (m < 0)) intPart fracPart digits = m := by
    have hback : m.natAbs / 10 ^ digits * 10 ^ digits + m.natAbs % 10 ^ digits = m.natAbs :=
      Nat.div_add_mod' m.natAbs (10 ^ digits)
    simp only [minorOf, h.width, Nat.sub_self, pow_zero, Nat.mul_one, h.whole, h.fraction, hback,
      decide_eq_true_eq]
    split <;> omega
  rw [htext]
  by_cases hlong : intPart.length ≤ 19
  · rw [if_pos hlong] at hparts
    rw [fromDecimalString_eq_ok hparts, hminor, h.width]
    have hcap : (intPart.dropWhile (· == '0')).length + digits ≤ 19 ↔
        digits ≤ 19 ∧ m.natAbs < 10 ^ 19 := by
      by_cases hdigits : digits ≤ 19
      · have hfew := @length_dropWhile_zero_le_iff intPart (19 - digits) h.int
        rw [h.whole, Nat.div_lt_iff_lt_mul (by positivity), ← pow_add,
          Nat.sub_add_cancel hdigits] at hfew
        rw [← hfew]
        omega
      · omega
    simp only [hcap, le_refl, true_and, and_true]
  · rw [if_neg hlong] at hparts
    simp only [fromDecimalString, hparts, reduceCtorEq, false_iff]
    rintro ⟨-, -, hsmall⟩
    exact hlong (h.long 19 (by decide) (lt_of_le_of_lt (Nat.div_le_self _ _) hsmall))

/-! ## What is accepted -/

/-- The number a value stands for. -/
def decimalValue (value : String) : ℚ :=
  match decimalParts value with
  | none => 0
  | some (negative, intPart, fracPart) =>
    let abs : ℚ := Nat.ofDigitChars 10 intPart 0 +
      (Nat.ofDigitChars 10 fracPart 0 : ℚ) / 10 ^ fracPart.length
    if negative then -abs else abs

/-- The digits a value has before its point, leading zeros apart. -/
def integerDigits (value : String) : Nat :=
  match decimalParts value with
  | none => 0
  | some (_, intPart, _) => (intPart.dropWhile (· == '0')).length

theorem decimalParts_of_ok (h : fromDecimalString value code digits = .ok a) :
    ∃ negative intPart fracPart, decimalParts value = some (negative, intPart, fracPart) := by
  cases hparts : decimalParts value with
  | none => simp [fromDecimalString, hparts] at h
  | some parts => exact ⟨parts.1, parts.2.1, parts.2.2, rfl⟩

/-- **What is accepted is exact**: no digit of a fraction is lost or made up. -/
theorem minor_of_ok (h : fromDecimalString value code digits = .ok a) :
    (a.minor : ℚ) = decimalValue value * 10 ^ digits := by
  obtain ⟨negative, intPart, fracPart, hparts⟩ := decimalParts_of_ok h
  obtain ⟨-, hwidth, -, rfl⟩ := (fromDecimalString_eq_ok hparts).mp h
  have hshift : (10 : ℚ) ^ digits = 10 ^ fracPart.length * 10 ^ (digits - fracPart.length) := by
    rw [← pow_add, Nat.add_sub_cancel' hwidth]
  have habs : ((Nat.ofDigitChars 10 intPart 0 * 10 ^ digits +
      Nat.ofDigitChars 10 fracPart 0 * 10 ^ (digits - fracPart.length) : Nat) : ℚ) =
      (Nat.ofDigitChars 10 intPart 0 + (Nat.ofDigitChars 10 fracPart 0 : ℚ) /
        10 ^ fracPart.length) * 10 ^ digits := by
    push_cast
    rw [add_mul, hshift]
    field_simp
  simp only [minorOf, decimalValue, hparts]
  cases negative
  · simpa using habs
  · rw [if_pos rfl, if_pos rfl, Int.cast_neg, Int.cast_natCast, habs, neg_mul]

/-- The digits an accepted value comes to. -/
theorem fits_iff_of_ok (h : fromDecimalString value code digits = .ok a) :
    digits ≤ 19 ∧ a.minor.natAbs < 10 ^ 19 ↔ integerDigits value + digits ≤ 19 := by
  obtain ⟨negative, intPart, fracPart, hparts⟩ := decimalParts_of_ok h
  obtain ⟨hint, -, -, hfrac⟩ := decimalParts_some hparts
  obtain ⟨-, hwidth, -, rfl⟩ := (fromDecimalString_eq_ok hparts).mp h
  have hless : Nat.ofDigitChars 10 fracPart 0 * 10 ^ (digits - fracPart.length) < 10 ^ digits :=
    calc Nat.ofDigitChars 10 fracPart 0 * 10 ^ (digits - fracPart.length)
        < 10 ^ fracPart.length * 10 ^ (digits - fracPart.length) :=
          Nat.mul_lt_mul_of_pos_right (ofDigitChars_lt hfrac) (by positivity)
      _ = 10 ^ digits := by rw [← pow_add, Nat.add_sub_cancel' hwidth]
  have habs : (minorOf negative intPart fracPart digits).natAbs / 10 ^ digits =
      Nat.ofDigitChars 10 intPart 0 := by
    have hnat : (minorOf negative intPart fracPart digits).natAbs =
        10 ^ digits * Nat.ofDigitChars 10 intPart 0 +
          Nat.ofDigitChars 10 fracPart 0 * 10 ^ (digits - fracPart.length) := by
      rw [Nat.mul_comm (10 ^ digits)]
      unfold minorOf
      dsimp only
      split <;> omega
    rw [hnat, Nat.mul_add_div (by positivity), Nat.div_eq_of_lt hless, Nat.add_zero]
  have hcount : integerDigits value = (intPart.dropWhile (· == '0')).length := by
    simp only [integerDigits, hparts]
  rw [hcount]
  by_cases hdigits : digits ≤ 19
  · have hfew := @length_dropWhile_zero_le_iff intPart (19 - digits) hint
    rw [← habs, Nat.div_lt_iff_lt_mul (by positivity), ← pow_add,
      Nat.sub_add_cancel hdigits] at hfew
    rw [← hfew]
    omega
  · omega

/-! ## There and back -/

/-- **Writing and reading are inverse on nineteen digits.** An amount of at
most nineteen is read back from its text; a value that is accepted is
exact, and the text of its amount gives it again exactly where the digits
before its point and those of the currency's minor unit are nineteen at
most. -/
theorem decimals_round_trip_iff (code : String) (digits : Nat) :
    (∀ m : Int, isCurrencyCode code = true → digits ≤ 19 → |m| < 10 ^ 19 →
        fromDecimalString (toDecimalString ⟨m, code⟩ digits) code digits = .ok ⟨m, code⟩) ∧
      ∀ (value : String) (a : Money), fromDecimalString value code digits = .ok a →
        (a.minor : ℚ) = decimalValue value * 10 ^ digits ∧
          (fromDecimalString (toDecimalString a digits) code digits = .ok a ↔
            integerDigits value + digits ≤ 19) := by
  constructor
  · intro m hcode hdigits hm
    have hsmall : (m.natAbs : Int) < 10 ^ 19 := by rwa [Int.natCast_natAbs]
    exact readsBack_iff.mpr ⟨hcode, hdigits, by exact_mod_cast hsmall⟩
  · intro value a h
    refine ⟨minor_of_ok h, ?_⟩
    have hfits := fits_iff_of_ok h
    obtain ⟨negative, intPart, fracPart, hparts⟩ := decimalParts_of_ok h
    obtain ⟨hcode, -, -, rfl⟩ := (fromDecimalString_eq_ok hparts).mp h
    rw [readsBack_iff, ← hfits]
    exact ⟨fun h => h.2, fun h => ⟨hcode, h⟩⟩

/-- Nineteen digits in a currency of two more: accepted, written, turned down. -/
theorem decimals_long_refused :
    fromDecimalString "1234567890123456789" "USD" 2 = .ok ⟨123456789012345678900, "USD"⟩ ∧
      fromDecimalString (toDecimalString ⟨123456789012345678900, "USD"⟩ 2) "USD" 2 =
        .error ⟨"too many significant digits: 1234567890123456789.00"⟩ := by
  decide +kernel

theorem decimals_round_trip_iff_dollars :
    fromDecimalString (toDecimalString ⟨-9007199254740993, "USD"⟩ 2) "USD" 2 =
        .ok ⟨-9007199254740993, "USD"⟩ ∧
      fromDecimalString (toDecimalString ⟨-50, "USD"⟩ 2) "USD" 2 = .ok ⟨-50, "USD"⟩ :=
  ⟨(decimals_round_trip_iff "USD" 2).1 (-9007199254740993) (by decide) (by decide) (by decide),
    ((decimals_round_trip_iff "USD" 2).2 "-0.5" ⟨-50, "USD"⟩ (by decide +kernel)).2.mpr
      (by decide +kernel)⟩

end InvoiceReservation
