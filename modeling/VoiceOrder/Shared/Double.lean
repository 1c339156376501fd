import Mathlib.Algebra.Order.Round
import Mathlib.Data.Int.Log
import Mathlib.Data.Rat.Floor
import Mathlib.Tactic.FieldSimp
import Mathlib.Tactic.Linarith
import Mathlib.Tactic.Positivity

/-! # Double arithmetic

A double is an integer of 53 digits times a power of two. What is computed on doubles is the exact
result, rounded to the nearest one. Here a double is the rational number that it stands for, and
no result is too large for one. -/

namespace Double

/-- The nearest integer, and the even one at a midpoint. -/
def roundEven (q : ℚ) : ℤ :=
  let below := ⌊q⌋
  if q - below < 1 / 2 then below
  else if 1 / 2 < q - below then below + 1
  else below + below % 2

/-- The exponent of the last digit of a number. Below the normal numbers it stays as it is. -/
def lastExponent (q : ℚ) : ℤ := max (Int.log 2 |q| - 52) (-1074)

/-- The double nearest to a number. -/
def nearest (q : ℚ) : ℚ := roundEven (q / 2 ^ lastExponent q) * 2 ^ lastExponent q

example : nearest (2 ^ 53 + 1) = 2 ^ 53 := by decide +kernel

section

variable {q : ℚ} {n : ℤ}

theorem roundEven_error (q : ℚ) : |(roundEven q : ℚ) - q| ≤ 1 / 2 := by
  have hbelow : (⌊q⌋ : ℚ) ≤ q := Int.floor_le q
  have habove : q < ⌊q⌋ + 1 := Int.lt_floor_add_one q
  unfold roundEven
  dsimp only
  split
  case isTrue hlow =>
      rw [abs_le]
      constructor <;> linarith
  case isFalse hhigh =>
      split
      case isTrue =>
          push_cast
          rw [abs_le]
          constructor <;> linarith
      case isFalse hmid =>
          have hhalf : q - ⌊q⌋ = 1 / 2 := le_antisymm (not_lt.mp hmid) (not_lt.mp hhigh)
          rcases Int.emod_two_eq_zero_or_one ⌊q⌋ with heven | hodd
          · rw [heven, abs_le]
            push_cast
            constructor <;> linarith
          · rw [hodd, abs_le]
            push_cast
            constructor <;> linarith

/-- The nearest double is off by half of its last digit at most. -/
theorem nearest_error (q : ℚ) : |nearest q - q| ≤ 2 ^ lastExponent q / 2 := by
  have hunit : (0 : ℚ) < 2 ^ lastExponent q := zpow_pos two_pos _
  have hscaled : nearest q - q =
      (roundEven (q / 2 ^ lastExponent q) - q / 2 ^ lastExponent q) * 2 ^ lastExponent q := by
    rw [nearest]
    field_simp
  rw [hscaled, abs_mul, abs_of_pos hunit]
  calc |(roundEven (q / 2 ^ lastExponent q) : ℚ) - q / 2 ^ lastExponent q| * 2 ^ lastExponent q
      ≤ 1 / 2 * 2 ^ lastExponent q :=
        mul_le_mul_of_nonneg_right (roundEven_error _) hunit.le
    _ = 2 ^ lastExponent q / 2 := by ring

/-- Rounding a normal number changes it by no more than one part in two to the power 53. -/
theorem nearest_relative (hnormal : (2 : ℚ) ^ (-1022 : ℤ) ≤ |q|) : |nearest q - q| ≤ |q| / 2 ^ 53 := by
  have hleast : (0 : ℚ) < 2 ^ (-1022 : ℤ) := zpow_pos two_pos _
  have hpos : 0 < |q| := hleast.trans_le hnormal
  have hlog : ((2 : ℕ) : ℚ) ^ Int.log 2 |q| ≤ |q| := Int.zpow_log_le_self (by norm_num) hpos
  have hdigits : (-1022 : ℤ) ≤ Int.log 2 |q| := by
    have hmono := Int.log_mono_right (b := 2) hleast hnormal
    rwa [show (2 : ℚ) = ((2 : ℕ) : ℚ) by norm_num, Int.log_zpow (by norm_num)] at hmono
  have hlast : lastExponent q = Int.log 2 |q| - 52 := max_eq_left (by omega)
  have herror := nearest_error q
  rw [hlast, zpow_sub₀ (by norm_num)] at herror
  calc |nearest q - q| ≤ 2 ^ Int.log 2 |q| / 2 ^ (52 : ℤ) / 2 := herror
    _ = 2 ^ Int.log 2 |q| / 2 ^ 53 := by
        norm_num
        ring
    _ ≤ |q| / 2 ^ 53 := by
        gcongr
        exact_mod_cast hlog

/-- A number of fewer than 52 binary digits before the point has one after it at least. -/
theorem lastExponent_neg (h : |q| < 2 ^ 52) : lastExponent q ≤ -1 := by
  refine max_le ?_ (by norm_num)
  rcases (abs_nonneg q).eq_or_lt with hzero | hpos
  · rw [← hzero, Int.log_zero_right]
    norm_num
  · have hlog : Int.log 2 |q| < 52 :=
      (Int.lt_zpow_iff_log_lt (by norm_num) hpos).mp (by exact_mod_cast h)
    omega

/-! ## Back to integers -/

theorem round_eq_of_near (h : |q - n| < 1 / 2) : round q = n := by
  obtain ⟨hlow, hhigh⟩ := abs_lt.mp h
  rw [round_eq, Int.floor_eq_iff]
  constructor <;> linarith

/-- The integer nearest to the rounded number is less than one away from the number. -/
theorem round_nearest_error (h : |q| < 2 ^ 52) : |(round (nearest q) : ℚ) - q| < 1 := by
  have hunit : (2 : ℚ) ^ lastExponent q ≤ 2 ^ (-1 : ℤ) :=
    zpow_le_zpow_right₀ one_le_two (lastExponent_neg h)
  have hnearest : |nearest q - q| ≤ 1 / 4 := by
    have herror := nearest_error q
    norm_num at hunit
    linarith
  have hround : |nearest q - round (nearest q)| ≤ 1 / 2 := abs_sub_round (nearest q)
  rw [abs_le] at hnearest hround
  rw [abs_lt]
  constructor <;> linarith

theorem nearest_zero : nearest 0 = 0 := by
  simp [nearest, roundEven]

/-- A fraction that is read as a double and multiplied back is rounded to its numerator. -/
theorem round_fraction {d : ℚ} (hd : 0 < d) (hsmall : d ≤ 2 ^ 64) (hn : |(n : ℚ)| ≤ 2 ^ 50) :
    round (nearest (nearest (n / d) * d)) = n := by
  by_cases hzero : n = 0
  · simp [hzero, nearest_zero]
  have hone : (1 : ℚ) ≤ |(n : ℚ)| := by
    exact_mod_cast Int.one_le_abs hzero
  have htiny : (2 : ℚ) ^ (-1022 : ℤ) ≤ 2 ^ (-64 : ℤ) :=
    zpow_le_zpow_right₀ one_le_two (by norm_num)
  have hnormal : (2 : ℚ) ^ (-1022 : ℤ) ≤ |(n : ℚ) / d| := by
    rw [abs_div, abs_of_pos hd, le_div_iff₀ hd]
    calc (2 : ℚ) ^ (-1022 : ℤ) * d ≤ 2 ^ (-64 : ℤ) * 2 ^ 64 := by gcongr
      _ = 1 := by norm_num
      _ ≤ |(n : ℚ)| := hone
  -- Reading the fraction is off by one part in two to the power 53, and so is the product.
  have hread : |nearest (n / d) * d - n| ≤ |(n : ℚ)| / 2 ^ 53 := by
    have hscaled : nearest (n / d) * d - n = (nearest (n / d) - n / d) * d := by
      field_simp
    have hback : |(n : ℚ) / d| / 2 ^ 53 * d = |(n : ℚ)| / 2 ^ 53 := by
      rw [abs_div, abs_of_pos hd]
      field_simp
    rw [hscaled, abs_mul, abs_of_pos hd, ← hback]
    exact mul_le_mul_of_nonneg_right (nearest_relative hnormal) hd.le
  generalize nearest (n / d) * d = product at hread
  have hlower : |(n : ℚ)| - |product| ≤ |(n : ℚ)| / 2 ^ 53 := by
    rw [abs_sub_comm] at hread
    exact (abs_sub_abs_le_abs_sub _ _).trans hread
  have hupper : |product| - |(n : ℚ)| ≤ |(n : ℚ)| / 2 ^ 53 :=
    (abs_sub_abs_le_abs_sub _ _).trans hread
  have hproduct : |nearest product - product| ≤ |product| / 2 ^ 53 := by
    refine nearest_relative (htiny.trans ?_)
    norm_num
    linarith
  refine round_eq_of_near (lt_of_le_of_lt (abs_sub_le _ product _) ?_)
  linarith

end

end Double
