import InvoiceReservation.Helpers.Conversions
/-!
# Rounding

`roundHalfUp` divides as `bigint` does, toward zero, and looks at the
remainder. What it gives is a nearest multiple for a numerator of either
sign, and what it promises follows from that and from where ties go.
-/

namespace InvoiceReservation

/-- What rounding to a multiple of the denominator promises: `q n` is how
many of them `n` comes to. -/
structure RoundsCorrectly (d : Int) (q : Int → Int) : Prop where
  nearest : ∀ n, 2 * |n - q n * d| ≤ d
  tieAway : ∀ n, 2 * |n - q n * d| = d → |n| < |q n * d|
  odd : ∀ n, q (-n) = -q n
  monotone : ∀ m n, m ≤ n → q m ≤ q n
  additive : ∀ a b, 0 ≤ a → 0 ≤ b → |q (a + b) - q a - q b| ≤ 1

/-- How far a numerator is from a multiple of the denominator. -/
theorem abs_div_sub {d n q : Int} (hd : 0 < d) :
    |(n : ℚ) / d - (q : Int)| = ((|n - q * d| : Int) : ℚ) / d := by
  have hd' : (0 : ℚ) < d := by exact_mod_cast hd
  have hdifference : (n : ℚ) / d - q = ((n - q * d : Int) : ℚ) / d := by
    push_cast
    rw [sub_div, mul_div_cancel_right₀ _ hd'.ne']
  rw [hdifference, abs_div, abs_of_pos hd', Int.cast_abs]

/-- **Rounding the quotient away from zero rounds correctly.** -/
theorem roundsCorrectly_roundAway {d : Int} (hd : 0 < d) :
    RoundsCorrectly d fun n => Rounding.roundAway ((n : ℚ) / d) := by
  have hd' : (0 : ℚ) < d := by exact_mod_cast hd
  constructor
  · intro n
    have hnear := Rounding.abs_sub_roundAway ((n : ℚ) / d)
    rw [abs_div_sub hd, div_le_div_iff₀ hd' (by norm_num)] at hnear
    have hnear' : |n - Rounding.roundAway ((n : ℚ) / d) * d| * 2 ≤ 1 * d := by
      exact_mod_cast hnear
    omega
  · intro n htie
    have htie' : |(n : ℚ) / d - (Rounding.roundAway ((n : ℚ) / d) : ℤ)| = 1 / 2 := by
      rw [abs_div_sub hd, div_eq_div_iff hd'.ne' (by norm_num)]
      exact_mod_cast (by omega : |n - Rounding.roundAway ((n : ℚ) / d) * d| * 2 = 1 * d)
    have haway := Rounding.abs_lt_of_tie _ htie'
    rw [abs_div, abs_of_pos hd', div_lt_iff₀ hd'] at haway
    rw [abs_mul, abs_of_pos hd]
    exact_mod_cast haway
  · intro n
    show Rounding.roundAway (((-n : Int) : ℚ) / d) = -Rounding.roundAway ((n : ℚ) / d)
    rw [Int.cast_neg, neg_div, Rounding.roundAway_neg]
  · intro m n h
    have hcast : (m : ℚ) ≤ n := by exact_mod_cast h
    exact Rounding.roundAway_mono (div_le_div_of_nonneg_right hcast hd'.le)
  · intro a b _ _
    have hsum := Rounding.abs_add_sub_of_near (Rounding.abs_sub_roundAway ((a : ℚ) / d))
      (Rounding.abs_sub_roundAway ((b : ℚ) / d))
      (Rounding.abs_sub_roundAway ((a : ℚ) / d + (b : ℚ) / d))
    rw [← add_div, ← Int.cast_add] at hsum
    rwa [sub_sub]

/-- **A conversion finds nothing** exactly where the product rounds to
zero. -/
theorem convert_roundsToZero_iff {amount : Money} {targetCurrency : String} {scaledRate : Int} :
    convert amount targetCurrency scaledRate = .ok .roundsToZero ↔
      amount.minor ≠ 0 ∧ |((amount.minor * scaledRate : Int) : ℚ) / (rateScale : Int)| < 1 / 2 := by
  rw [← Rounding.roundAway_eq_zero_iff, convert, roundHalfUp_eq_roundAway (by decide)]
  dsimp only
  constructor
  · intro h
    split at h
    · rename_i hzero
      exact ⟨hzero.2, hzero.1⟩
    · split at h <;> cases h
  · intro h
    rw [if_pos ⟨h.2, h.1⟩]

/-- **Rounding is correct**, for a numerator of either sign and a
denominator of any size. A conversion therefore reports that an amount
rounds to zero exactly when the amount is not zero and what it comes to is
less than a half. -/
theorem rounds_half_away :
    (∀ d : Int, 0 < d → ∃ q, (∀ n, roundHalfUp n d = .ok (q n)) ∧ RoundsCorrectly d q) ∧
      ∀ (amount : Money) (targetCurrency : String) (scaledRate : Int),
        convert amount targetCurrency scaledRate = .ok .roundsToZero ↔
          amount.minor ≠ 0 ∧
            |((amount.minor * scaledRate : Int) : ℚ) / (rateScale : Int)| < 1 / 2 := by
  constructor
  · intro d hd
    exact ⟨_, fun n => roundHalfUp_eq_roundAway hd, roundsCorrectly_roundAway hd⟩
  · intro amount targetCurrency scaledRate
    exact convert_roundsToZero_iff

/-- Five of ten, to either side. -/
theorem rounds_half_away_tens :
    roundHalfUp (-5) 10 = .ok (-1) ∧ ∃ q, (∀ n, roundHalfUp n 10 = .ok (q n)) ∧
      RoundsCorrectly 10 q :=
  ⟨by decide, rounds_half_away.1 10 (by decide)⟩

end InvoiceReservation
