import Mathlib.Data.Int.Log
import Mathlib.Data.Rat.Floor
import Mathlib.Tactic.Linarith
import Mathlib.Tactic.Positivity

/-!
# Rounding to binary64

The numbers of the format are the multiples of a power of two that depends on their size (`ulp`): the
53 bits from the leading one on, and nothing below `2 ^ -1074`. An exact result is rounded to the
nearest of them, to the even one of two.

Numbers are rationals here, and so is what is rounded. The format's greatest number is not in the
definition: what exceeds it would be infinite.

**Theorem (`abs_nearest_sub_le`).** From `2 ^ -1022` on, rounding is off by at most one part in
`2 ^ 53`.

**Theorem (`nearest_natCast`).** Integers of up to 53 bits are numbers of the format.
-/

namespace Binary64

/-- The nearest integer, the even one of two. -/
def roundEven (q : ℚ) : ℤ :=
  if q - ⌊q⌋ < 1 / 2 then ⌊q⌋
  else if 1 / 2 < q - ⌊q⌋ then ⌊q⌋ + 1
  else if ⌊q⌋ % 2 = 0 then ⌊q⌋
  else ⌊q⌋ + 1

/-- What the last bit of a number of this size counts. -/
def ulp (q : ℚ) : ℚ := 2 ^ max (Int.log 2 |q| - 52) (-1074)

def nearest (q : ℚ) : ℚ := roundEven (q / ulp q) * ulp q

variable {q : ℚ}

theorem abs_roundEven_sub_le (q : ℚ) : |(roundEven q : ℚ) - q| ≤ 1 / 2 := by
  have hfloor := Int.floor_le q
  have hnext := Int.lt_floor_add_one q
  unfold roundEven
  rw [abs_le]
  split_ifs
  · constructor <;> linarith
  · push_cast
    constructor <;> linarith
  · constructor <;> linarith
  · push_cast
    constructor <;> linarith

theorem roundEven_intCast (n : ℤ) : roundEven n = n := by
  simp [roundEven]

theorem ulp_pos (q : ℚ) : 0 < ulp q := zpow_pos (by norm_num) _

/-- Half of what the last bit counts. -/
theorem abs_nearest_sub_le_ulp (q : ℚ) : |nearest q - q| ≤ ulp q / 2 := by
  have hpos := ulp_pos q
  have hfactor : nearest q - q = (roundEven (q / ulp q) - q / ulp q) * ulp q := by
    unfold nearest
    rw [sub_mul, div_mul_cancel₀ q hpos.ne']
  rw [hfactor, abs_mul, abs_of_pos hpos]
  have hhalf := abs_roundEven_sub_le (q / ulp q)
  calc |(roundEven (q / ulp q) : ℚ) - q / ulp q| * ulp q
      ≤ 1 / 2 * ulp q := mul_le_mul_of_nonneg_right hhalf hpos.le
    _ = ulp q / 2 := by ring

/-- A number that is not tiny has 53 bits. -/
theorem ulp_le (h : 2 ^ (-1022 : ℤ) ≤ |q|) : ulp q ≤ |q| / 2 ^ 52 := by
  have hpos : 0 < |q| := lt_of_lt_of_le (zpow_pos (by norm_num) _) h
  have hlog : -1022 ≤ Int.log 2 |q| := (Int.zpow_le_iff_le_log (by norm_num) hpos).1 (by
    simpa using h)
  have hmax : max (Int.log 2 |q| - 52) (-1074) = Int.log 2 |q| - 52 := max_eq_left (by omega)
  have hle : (2 : ℚ) ^ Int.log 2 |q| ≤ |q| := by
    simpa using Int.zpow_log_le_self (b := 2) (r := |q|) (by norm_num) hpos
  unfold ulp
  rw [hmax, zpow_sub₀ (by norm_num)]
  exact div_le_div_of_nonneg_right hle (by positivity)

/-- **Rounding is off by at most one part in `2 ^ 53`.** -/
theorem abs_nearest_sub_le (h : 2 ^ (-1022 : ℤ) ≤ |q|) : |nearest q - q| ≤ |q| / 2 ^ 53 := by
  have hulp := ulp_le h
  have hround := abs_nearest_sub_le_ulp q
  calc |nearest q - q| ≤ ulp q / 2 := hround
    _ ≤ |q| / 2 ^ 52 / 2 := by linarith
    _ = |q| / 2 ^ 53 := by ring

/-- Multiples of the last bit are numbers of the format. -/
theorem nearest_of_multiple {n : ℤ} (h : q = n * ulp q) : nearest q = q := by
  have hdiv : q / ulp q = n := by
    rw [div_eq_iff (ulp_pos q).ne']
    exact h
  unfold nearest
  rw [hdiv, roundEven_intCast, ← h]

/-- Below `2 ^ 53` the last bit counts one or a part of it. -/
theorem ulp_eq_one_div (h : |q| < 2 ^ 53) : ∃ k : ℕ, ulp q = 1 / 2 ^ k := by
  have hlog : Int.log 2 |q| ≤ 52 := by
    rcases eq_or_lt_of_le (abs_nonneg q) with hzero | hpos
    · simp [← hzero]
    · refine Int.lt_add_one_iff.1 ((Int.lt_zpow_iff_log_lt (by norm_num) hpos).1 ?_)
      exact_mod_cast h
  have hexponent : max (Int.log 2 |q| - 52) (-1074) ≤ 0 := max_le (by omega) (by omega)
  obtain ⟨k, hk⟩ := Int.eq_ofNat_of_zero_le (neg_nonneg.2 hexponent)
  refine ⟨k, ?_⟩
  unfold ulp
  rw [← neg_neg (max _ _), hk, zpow_neg, zpow_natCast, one_div]

theorem nearest_natCast {n : ℕ} (h : n < 2 ^ 53) : nearest n = n := by
  obtain ⟨k, hk⟩ := ulp_eq_one_div (q := n) (by rw [Nat.abs_cast]; exact_mod_cast h)
  refine nearest_of_multiple (n := n * 2 ^ k) ?_
  rw [hk]
  push_cast
  field_simp

/-- What lies between two powers of two, above the tiny ones. -/
theorem ulp_eq {e : ℤ} (he : -1022 ≤ e) (hlow : 2 ^ e ≤ q) (hhigh : q < 2 ^ (e + 1)) :
    ulp q = 2 ^ (e - 52) := by
  have hpos : 0 < q := lt_of_lt_of_le (zpow_pos (by norm_num) e) hlow
  have hle : e ≤ Int.log 2 q := (Int.zpow_le_iff_le_log (by norm_num) hpos).1 (by simpa using hlow)
  have hlt : Int.log 2 q < e + 1 :=
    (Int.lt_zpow_iff_log_lt (by norm_num) hpos).1 (by simpa using hhigh)
  have hlog : Int.log 2 |q| = e := by
    rw [abs_of_pos hpos]
    omega
  unfold ulp
  rw [hlog, max_eq_left (by omega)]

/-! ## Rounding keeps bounds -/

theorem le_roundEven {n : ℤ} (h : (n : ℚ) ≤ q) : n ≤ roundEven q := by
  have hfloor : n ≤ ⌊q⌋ := Int.le_floor.2 h
  unfold roundEven
  split_ifs <;> omega

/-- A multiple of the last bit stays below. -/
theorem multiple_le_nearest {n : ℤ} (h : n * ulp q ≤ q) : n * ulp q ≤ nearest q := by
  have hdiv : (n : ℚ) ≤ q / ulp q := (le_div_iff₀ (ulp_pos q)).2 h
  exact mul_le_mul_of_nonneg_right (by exact_mod_cast le_roundEven hdiv) (ulp_pos q).le

theorem intCast_le_nearest {n : ℤ} (hq : |q| < 2 ^ 53) (h : (n : ℚ) ≤ q) : n ≤ nearest q := by
  obtain ⟨k, hk⟩ := ulp_eq_one_div hq
  have hmultiple : (n : ℚ) = (n * 2 ^ k : ℤ) * ulp q := by
    rw [hk]
    push_cast
    field_simp
  rw [hmultiple] at h ⊢
  exact multiple_le_nearest h

theorem zpow_le_nearest {e : ℤ} (he : -1074 ≤ e) (h : 2 ^ e ≤ q) : 2 ^ e ≤ nearest q := by
  have hpos : 0 < q := lt_of_lt_of_le (zpow_pos (by norm_num) e) h
  have hlog : e ≤ Int.log 2 q := (Int.zpow_le_iff_le_log (by norm_num) hpos).1 (by simpa using h)
  have hself : (2 : ℚ) ^ Int.log 2 q ≤ q := by
    simpa using Int.zpow_log_le_self (b := 2) (by norm_num) hpos
  -- The power of two that leads the number is a multiple of its last bit.
  have hlast : max (Int.log 2 |q| - 52) (-1074) ≤ Int.log 2 q := by
    rw [abs_of_pos hpos]
    omega
  obtain ⟨k, hk⟩ := Int.eq_ofNat_of_zero_le (sub_nonneg.2 hlast)
  have hmultiple : (2 : ℚ) ^ Int.log 2 q = (2 ^ k : ℤ) * ulp q := by
    unfold ulp
    push_cast
    rw [← zpow_natCast, ← zpow_add₀ (by norm_num)]
    exact congrArg _ (by omega)
  calc (2 : ℚ) ^ e ≤ 2 ^ Int.log 2 q := zpow_le_zpow_right₀ (by norm_num) hlog
    _ ≤ nearest q := by
      rw [hmultiple] at hself ⊢
      exact multiple_le_nearest hself

/-- No positive number of the format is below `2 ^ -1074`. -/
theorem le_of_nearest_eq (h : 0 < q) (heq : nearest q = q) : 2 ^ (-1074 : ℤ) ≤ q := by
  have hulp : (2 : ℚ) ^ (-1074 : ℤ) ≤ ulp q := zpow_le_zpow_right₀ (by norm_num) (le_max_right _ _)
  have hround : 0 < roundEven (q / ulp q) := by
    rw [← heq, nearest] at h
    exact_mod_cast pos_of_mul_pos_left h (ulp_pos _).le
  calc (2 : ℚ) ^ (-1074 : ℤ) ≤ ulp q := hulp
    _ = 1 * ulp q := (one_mul _).symm
    _ ≤ roundEven (q / ulp q) * ulp q :=
      mul_le_mul_of_nonneg_right (by exact_mod_cast hround) (ulp_pos q).le
    _ = q := heq

theorem nearest_nonneg (h : 0 ≤ q) : 0 ≤ nearest q := by
  have hdiv : 0 ≤ q / ulp q := div_nonneg h (ulp_pos q).le
  have hfloor : 0 ≤ ⌊q / ulp q⌋ := Int.floor_nonneg.2 hdiv
  have heven : 0 ≤ roundEven (q / ulp q) := by
    unfold roundEven
    split_ifs <;> omega
  exact mul_nonneg (by exact_mod_cast heven) (ulp_pos q).le

end Binary64
