import Mathlib.Algebra.Order.Floor.Ring
import Mathlib.Algebra.Order.Ring.Abs
import Mathlib.Algebra.Order.Archimedean.Basic
import Mathlib.Data.Int.Log
import Mathlib.Data.Rat.Floor
import Mathlib.Tactic.FieldSimp
import Mathlib.Tactic.Linarith
import Mathlib.Tactic.NormNum
/-!
# Binary64

The doubles as rationals. A rational becomes the nearest double, of two
the one whose last digit is even; an integer stays what it is just where
what lies above its 53 leading bits is zero.
-/

namespace Binary64

/-- The nearest integer, of two the even one. -/
def roundEven (q : ℚ) : ℤ :=
  let rest := q - ⌊q⌋
  if rest < 1 / 2 ∨ (rest = 1 / 2 ∧ ⌊q⌋ % 2 = 0) then ⌊q⌋ else ⌊q⌋ + 1

/-- The distance between the doubles around a rational. -/
def ulp (q : ℚ) : ℚ := 2 ^ max (Int.log 2 |q| - 52) (-1074)

/-- The nearest double, were there no largest one. -/
def nearest (q : ℚ) : ℚ := roundEven (q / ulp q) * ulp q

theorem roundEven_intCast (n : ℤ) : roundEven n = n := by
  simp [roundEven]

theorem intCast_le_roundEven {n : ℤ} {q : ℚ} (h : n ≤ q) : n ≤ roundEven q := by
  have hfloor : n ≤ ⌊q⌋ := Int.le_floor.mpr h
  unfold roundEven
  dsimp only
  split <;> omega

theorem roundEven_le_intCast {n : ℤ} {q : ℚ} (h : q ≤ n) : roundEven q ≤ n := by
  rcases h.lt_or_eq with hlt | rfl
  · have hfloor : ⌊q⌋ < n := Int.floor_lt.mpr hlt
    unfold roundEven
    dsimp only
    split <;> omega
  · rw [roundEven_intCast]

theorem ulp_pos (q : ℚ) : 0 < ulp q := zpow_pos (by norm_num) _

/-- The doubles are what rounding leaves alone. -/
theorem nearest_eq_self_iff {q : ℚ} : nearest q = q ↔ ∃ m : ℤ, q = m * ulp q := by
  have hpos := ulp_pos q
  constructor
  · intro h
    exact ⟨roundEven (q / ulp q), h.symm⟩
  · rintro ⟨m, hm⟩
    have hdiv : q / ulp q = m := by
      rw [div_eq_iff hpos.ne']
      exact hm
    rw [nearest, hdiv, roundEven_intCast]
    exact hm.symm

/-! ## Integers -/

/-- The number of bits of an integer beyond the first 53. -/
def excess (n : ℤ) : ℕ := Nat.log 2 n.natAbs - 52

/-- An integer that a double can be. -/
def Exact (n : ℤ) : Prop := (2 : ℤ) ^ excess n ∣ n

instance : DecidablePred Exact := fun n => inferInstanceAs (Decidable ((2 : ℤ) ^ excess n ∣ n))

theorem log_intCast (n : ℤ) : Int.log 2 |(n : ℚ)| = Nat.log 2 n.natAbs := by
  rw [← Int.cast_abs, Int.abs_eq_natAbs, Int.cast_natCast]
  exact Int.log_natCast 2 n.natAbs

/-- **An integer is a double just where its excess bits are zero.** -/
theorem nearest_intCast_iff {n : ℤ} : nearest n = n ↔ Exact n := by
  rw [nearest_eq_self_iff, ulp, log_intCast, Exact, excess]
  by_cases hlog : 52 ≤ Nat.log 2 n.natAbs
  · -- the distance is a power of two
    obtain ⟨k, hk⟩ := Nat.exists_eq_add_of_le hlog
    have hulp : max ((Nat.log 2 n.natAbs : ℤ) - 52) (-1074) = (k : ℤ) := by omega
    have hexcess : Nat.log 2 n.natAbs - 52 = k := by omega
    rw [hulp, hexcess, zpow_natCast]
    constructor
    · rintro ⟨m, hm⟩
      exact ⟨m, by rw [mul_comm]; exact_mod_cast hm⟩
    · rintro ⟨m, hm⟩
      exact ⟨m, by rw [mul_comm]; exact_mod_cast hm⟩
  · -- the distance is one part of a power of two, and nothing is in excess
    have hexcess : Nat.log 2 n.natAbs - 52 = 0 := by omega
    have hulp : max ((Nat.log 2 n.natAbs : ℤ) - 52) (-1074) =
        -((52 - Nat.log 2 n.natAbs : ℕ) : ℤ) := by
      omega
    rw [hulp, hexcess, zpow_neg, zpow_natCast]
    refine iff_of_true ⟨n * 2 ^ (52 - Nat.log 2 n.natAbs), ?_⟩ (one_dvd n)
    push_cast
    field_simp

/-- Integers of up to 53 bits are doubles. -/
theorem exact_of_le {n : ℤ} (h : n.natAbs ≤ 2 ^ 53) : Exact n := by
  rcases h.lt_or_eq with hlt | heq
  · have hlog : Nat.log 2 n.natAbs < 53 := Nat.log_lt_of_lt_pow' (by norm_num) hlt
    have hexcess : excess n = 0 := by
      unfold excess
      omega
    rw [Exact, hexcess]
    exact one_dvd n
  · have hexcess : excess n = 1 := by
      rw [excess, heq, Nat.log_pow (by norm_num)]
    have habs : (2 : ℤ) ∣ (n.natAbs : ℤ) := by
      rw [heq]
      norm_num
    rw [Exact, hexcess, pow_one]
    exact Int.dvd_natAbs.mp habs

/-- What has more than 53 bits stays as far from zero as the least of those. -/
theorem le_abs_nearest {q : ℚ} (h : 2 ^ 53 ≤ |q|) : 2 ^ 53 ≤ |nearest q| := by
  have hpos : 0 < |q| := lt_of_lt_of_le (by norm_num) h
  have hlog : 53 ≤ Int.log 2 |q| := by
    rw [← Int.zpow_le_iff_le_log (by norm_num) hpos]
    exact_mod_cast h
  have hpower : (2 : ℚ) ^ Int.log 2 |q| ≤ |q| := by
    exact_mod_cast Int.zpow_log_le_self (by norm_num) hpos
  have hulp : ulp q = 2 ^ (Int.log 2 |q| - 52) := by
    rw [ulp, max_eq_left (by omega)]
  -- the quotient has 53 bits, on its side of zero
  have hquotient : 2 ^ 52 ≤ |q / ulp q| := by
    rw [abs_div, abs_of_pos (ulp_pos q), le_div_iff₀ (ulp_pos q), hulp]
    refine le_trans (le_of_eq ?_) hpower
    rw [← zpow_natCast, ← zpow_add₀ (by norm_num)]
    congr 1
    omega
  have hround : 2 ^ 52 ≤ |(roundEven (q / ulp q) : ℚ)| := by
    rcases le_abs.mp hquotient with hle | hle
    · have hint : (2 ^ 52 : ℤ) ≤ roundEven (q / ulp q) :=
        intCast_le_roundEven (by exact_mod_cast hle)
      exact le_abs.mpr (Or.inl (by exact_mod_cast hint))
    · have hint : roundEven (q / ulp q) ≤ (-2 ^ 52 : ℤ) := roundEven_le_intCast (by
        push_cast
        linarith)
      refine le_abs.mpr (Or.inr ?_)
      have hcast : (roundEven (q / ulp q) : ℚ) ≤ -2 ^ 52 := by exact_mod_cast hint
      linarith
  rw [nearest, abs_mul, abs_of_pos (ulp_pos q), hulp]
  have hone : (2 : ℚ) ≤ 2 ^ (Int.log 2 |q| - 52) := by
    calc (2 : ℚ) = 2 ^ (1 : ℤ) := by norm_num
      _ ≤ 2 ^ (Int.log 2 |q| - 52) := zpow_le_zpow_right₀ (by norm_num) (by omega)
  rw [hulp] at hround
  calc (2 : ℚ) ^ 53 = 2 ^ 52 * 2 := by norm_num
    _ ≤ _ := mul_le_mul hround hone (by norm_num) (abs_nonneg _)

/-- An integer that is read below 2^53 is one that a double can be. -/
theorem exact_of_abs_nearest_lt {n : ℤ} (h : |nearest n| < 2 ^ 53) : Exact n := by
  refine exact_of_le ?_
  by_contra hlt
  have hle : (2 : ℚ) ^ 53 ≤ |(n : ℚ)| := by
    rw [← Int.cast_abs, Int.abs_eq_natAbs, Int.cast_natCast]
    exact_mod_cast (not_le.mp hlt).le
  exact absurd (le_abs_nearest hle) (not_le.mpr h)

end Binary64

/-! ## Numbers -/

/-- A number of JavaScript's, whose two zeros are one here. -/
inductive Number
  | nan
  | infinite (negative : Bool)
  | finite (value : ℚ)
  deriving DecidableEq, Repr

namespace Number

open Binary64

/-- The number nearest to a rational. -/
def ofRat (q : ℚ) : Number :=
  if |nearest q| < 2 ^ 1024 then finite (nearest q) else infinite (q < 0)

/-- `Number.isInteger`, and the integer. -/
def integer? : Number → Option ℤ
  | finite q => if q.den = 1 then some q.num else none
  | _ => none

/-- The number of an integer that a double can be. -/
theorem ofRat_of_exact {n : ℤ} (h : Exact n) (hbound : n.natAbs < 2 ^ 1024) :
    ofRat n = finite n := by
  have habs : |(n : ℚ)| < 2 ^ 1024 := by
    rw [← Int.cast_abs, Int.abs_eq_natAbs, Int.cast_natCast]
    exact_mod_cast hbound
  rw [ofRat, nearest_intCast_iff.mpr h, if_pos habs]

/-- Integers of up to 53 bits stay what they are. -/
theorem ofRat_of_le {n : ℤ} (h : n.natAbs ≤ 2 ^ 53) : ofRat n = finite n := by
  have hpow : ∀ {m n : ℕ}, m < n → 2 ^ m < 2 ^ n := Nat.pow_lt_pow_right Nat.one_lt_two
  refine ofRat_of_exact (exact_of_le h) (h.trans_lt (hpow ?_))
  decide

theorem integer?_eq_some {x : Number} {n : ℤ} : x.integer? = some n ↔ x = finite n := by
  cases x with
  | nan => simp [integer?]
  | infinite negative => simp [integer?]
  | finite q =>
    rw [integer?, finite.injEq]
    constructor
    · intro h
      split at h
      · rename_i hden
        rw [← Option.some.inj h]
        exact (Rat.coe_int_num_of_den_eq_one hden).symm
      · cases h
    · rintro rfl
      simp

@[simp] theorem integer?_intCast (n : ℤ) : (finite n).integer? = some n :=
  integer?_eq_some.mpr rfl

/-- A number that is an integer is the one that is nearest to what it was
made of. -/
theorem nearest_of_integer? {q : ℚ} {n : ℤ} (h : (ofRat q).integer? = some n) :
    nearest q = n := by
  have hfinite := integer?_eq_some.mp h
  unfold ofRat at hfinite
  split at hfinite
  · exact finite.inj hfinite
  · cases hfinite

end Number
