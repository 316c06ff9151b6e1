import Mathlib.Algebra.Order.Round
import Mathlib.Data.Rat.Floor
import Mathlib.Tactic.Linarith
/-!
# Rounding to the nearest integer

`round` rounds half up, `roundAway` half away from zero. Both are monotone
and within one of additive, `roundAway` is odd, and of the quotient of two
whole numbers `round` is what long division with a look at the remainder
comes to.
-/

namespace Rounding

variable {α : Type*} [Field α] [LinearOrder α] [IsStrictOrderedRing α] [FloorRing α]

/-- **Rounding is monotone.** -/
theorem round_mono {x y : α} (h : x ≤ y) : round x ≤ round y := by
  rw [round_eq, round_eq]
  exact Int.floor_le_floor (by linarith)

theorem round_nonneg {x : α} (h : 0 ≤ x) : 0 ≤ round x := by
  have hzero : round (0 : α) ≤ round x := round_mono h
  rwa [round_zero] at hzero

/-- What rounds to more than a whole number lies a half beyond it. -/
theorem lt_round_iff {x : α} {n : ℤ} : n < round x ↔ (n : α) + 1 / 2 ≤ x := by
  rw [round_eq, ← Int.add_one_le_iff, Int.le_floor]
  push_cast
  constructor <;> intro h <;> linarith

theorem round_eq_zero_iff_lt {x : α} (h : 0 ≤ x) : round x = 0 ↔ x < 1 / 2 := by
  have hpositive : 0 < round x ↔ (1 : α) / 2 ≤ x := by simpa using @lt_round_iff α _ _ _ _ x 0
  have hlow := round_nonneg h
  rw [← not_le, ← hpositive]
  omega

/-- **Scaling shows in the rounding**, unless what is scaled still rounds to
zero. -/
theorem round_mul_eq_iff {x c : α} (hx : 0 ≤ x) (hc : 3 ≤ c) :
    round (c * x) = round x ↔ round (c * x) = 0 := by
  have hgrows : x ≤ c * x := by nlinarith
  constructor
  · intro h
    by_contra hne
    -- from a half on, three times as much is one more at least
    have hone : 1 ≤ round x := by
      have := round_nonneg (hx.trans hgrows)
      omega
    have hlow : ((round x - 1 : ℤ) : α) + 1 / 2 ≤ x := lt_round_iff.mp (by omega)
    have hone' : (1 : α) ≤ (round x : ℤ) := by exact_mod_cast hone
    have hmore : ((round x : ℤ) : α) + 1 / 2 ≤ c * x := by
      push_cast at hlow
      nlinarith
    have := lt_round_iff.mpr hmore
    omega
  · intro h
    have hzero := round_mono hgrows
    have hlow := round_nonneg hx
    omega

/-- **Nearest integers are within one of additive**, ties going anywhere. -/
theorem abs_add_sub_of_near {x y : α} {p q r : ℤ} (hx : |x - p| ≤ 1 / 2) (hy : |y - q| ≤ 1 / 2)
    (hxy : |x + y - r| ≤ 1 / 2) : |r - (p + q)| ≤ 1 := by
  rw [abs_le] at hx hy hxy
  have hlow : (-2 : α) < ((r - (p + q) : ℤ) : α) := by
    push_cast
    linarith [hx.1, hy.1, hxy.2]
  have hhigh : ((r - (p + q) : ℤ) : α) < 2 := by
    push_cast
    linarith [hx.2, hy.2, hxy.1]
  have hlow' : (-2 : ℤ) < r - (p + q) := by exact_mod_cast hlow
  have hhigh' : r - (p + q) < (2 : ℤ) := by exact_mod_cast hhigh
  exact abs_le.mpr ⟨by omega, by omega⟩

theorem abs_round_add_sub (x y : α) : |round (x + y) - (round x + round y)| ≤ 1 :=
  abs_add_sub_of_near (abs_sub_round x) (abs_sub_round y) (abs_sub_round (x + y))

/-- **The quotient of whole numbers**, rounded by its remainder. -/
theorem round_div {n d : ℤ} (hd : 0 < d) :
    round ((n : ℚ) / d) = if d ≤ 2 * (n % d) then n / d + 1 else n / d := by
  have hd' : (0 : ℚ) < d := by exact_mod_cast hd
  have hn : (n : ℚ) = d * (n / d : ℤ) + (n % d : ℤ) := by
    exact_mod_cast (Int.mul_ediv_add_emod n d).symm
  have hlow : (0 : ℚ) ≤ (n % d : ℤ) := by exact_mod_cast Int.emod_nonneg n hd.ne'
  have hhigh : ((n % d : ℤ) : ℚ) < d := by exact_mod_cast Int.emod_lt_of_pos n hd
  have hquotient : (n : ℚ) / d = (n / d : ℤ) + ((n % d : ℤ) : ℚ) / d := by
    rw [hn, add_div, mul_div_cancel_left₀ _ hd'.ne']
  rw [round_eq_iff, hquotient, Set.mem_Ico]
  split
  · rename_i hhalf
    have hhalf' : (d : ℚ) ≤ 2 * ((n % d : ℤ) : ℚ) := by exact_mod_cast hhalf
    have hge : (1 : ℚ) / 2 ≤ ((n % d : ℤ) : ℚ) / d := by
      rw [div_le_div_iff₀ (by norm_num) hd']
      linarith
    have hlt : ((n % d : ℤ) : ℚ) / d < 1 := (div_lt_one hd').mpr hhigh
    push_cast
    constructor <;> linarith
  · rename_i hhalf
    have hhalf' : 2 * ((n % d : ℤ) : ℚ) < d := by exact_mod_cast not_le.mp hhalf
    have hge : (0 : ℚ) ≤ ((n % d : ℤ) : ℚ) / d := div_nonneg hlow hd'.le
    have hlt : ((n % d : ℤ) : ℚ) / d < 1 / 2 := by
      rw [div_lt_div_iff₀ hd' (by norm_num)]
      linarith
    constructor <;> linarith

/-! ## Ties away from zero -/

/-- The nearest integer, a tie going away from zero. -/
def roundAway (x : α) : ℤ := if 0 ≤ x then round x else -round (-x)

omit [IsStrictOrderedRing α] in
theorem roundAway_of_nonneg {x : α} (h : 0 ≤ x) : roundAway x = round x := if_pos h

omit [IsStrictOrderedRing α] in
theorem roundAway_of_neg {x : α} (h : x < 0) : roundAway x = -round (-x) :=
  if_neg (not_le.mpr h)

/-- **Rounding away from zero is odd.** -/
theorem roundAway_neg (x : α) : roundAway (-x) = -roundAway x := by
  rcases lt_trichotomy x 0 with h | rfl | h
  · rw [roundAway_of_neg h, roundAway_of_nonneg (by linarith), neg_neg]
  · simp [roundAway_of_nonneg]
  · rw [roundAway_of_nonneg h.le, roundAway_of_neg (by linarith), neg_neg]

omit [FloorRing α] in
/-- A property that holds of what is not negative, and of the negative of
whatever it holds of, holds throughout. -/
theorem sign_induction {motive : α → Prop} (nonneg : ∀ x, 0 ≤ x → motive x)
    (neg : ∀ x, motive (-x) → motive x) (x : α) : motive x := by
  rcases le_total 0 x with h | h
  · exact nonneg x h
  · exact neg x (nonneg (-x) (by linarith))

theorem abs_neg_sub_roundAway (x : α) :
    |(-x) - (roundAway (-x) : ℤ)| = |x - (roundAway x : ℤ)| := by
  rw [roundAway_neg, Int.cast_neg, ← abs_neg]
  ring_nf

/-- It goes to a nearest integer. -/
theorem abs_sub_roundAway (x : α) : |x - (roundAway x : ℤ)| ≤ 1 / 2 := by
  induction x using sign_induction with
  | nonneg x h =>
    rw [roundAway_of_nonneg h]
    exact abs_sub_round x
  | neg x h => rwa [abs_neg_sub_roundAway] at h

/-- **A tie goes away from zero.** -/
theorem abs_lt_of_tie (x : α) (h : |x - (roundAway x : ℤ)| = 1 / 2) :
    |x| < |((roundAway x : ℤ) : α)| := by
  induction x using sign_induction with
  | nonneg x hx =>
    rw [roundAway_of_nonneg hx] at h ⊢
    have hfloor := Int.floor_le (x + 1 / 2)
    have hceil := Int.lt_floor_add_one (x + 1 / 2)
    rw [← round_eq] at hfloor hceil
    -- the half above is not a half below
    have hless : x < (round x : ℤ) := by
      rcases abs_cases (x - (round x : ℤ)) with hcase | hcase <;> linarith
    rw [abs_of_nonneg hx, abs_of_nonneg (hx.trans hless.le)]
    exact hless
  | neg x ih =>
    have := ih (by rw [abs_neg_sub_roundAway, h])
    rwa [roundAway_neg, Int.cast_neg, abs_neg, abs_neg] at this

theorem roundAway_nonneg {x : α} (h : 0 ≤ x) : 0 ≤ roundAway x := by
  rw [roundAway_of_nonneg h]
  exact round_nonneg h

theorem roundAway_mono {x y : α} (h : x ≤ y) : roundAway x ≤ roundAway y := by
  rcases le_or_gt 0 x with hx | hx
  · rw [roundAway_of_nonneg hx, roundAway_of_nonneg (hx.trans h)]
    exact round_mono h
  · have hlow : 0 ≤ round (-x) := round_nonneg (by linarith)
    rcases le_or_gt 0 y with hy | hy
    · have hhigh := roundAway_nonneg hy
      rw [roundAway_of_neg hx]
      omega
    · have hflip : round (-y) ≤ round (-x) := round_mono (by linarith)
      rw [roundAway_of_neg hx, roundAway_of_neg hy]
      omega

/-- What rounds to zero is less than a half away from it. -/
theorem roundAway_eq_zero_iff {x : α} : roundAway x = 0 ↔ |x| < 1 / 2 := by
  induction x using sign_induction with
  | nonneg x h =>
    rw [roundAway_of_nonneg h, abs_of_nonneg h]
    exact round_eq_zero_iff_lt h
  | neg x h => rwa [roundAway_neg, abs_neg, neg_eq_zero] at h

end Rounding
