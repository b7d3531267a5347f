import Mathlib.Data.Rat.Floor
import PaymentGateway.Lib.Rounding
import PaymentGateway.Shared.Money

/-!
# The rounding divisions

Two sets of functions divide and round: `divFloor`, `divCeil` and `divHalfUp` for prices, and
`floorDiv`, `ceilDiv` and `halfUpDiv` for fees and tolerances. Both correct the truncated quotient.

**Theorem (`divisions_exact`).** For every dividend and every divisor but zero, of any signs, each
function of either set is the rounding of the exact quotient that its mode stands for
(`RoundingMode.round`). Rescaling to more decimals is exact, and to fewer it rounds.
-/

namespace PaymentGateway

open Rounding

/-- What a mode stands for. -/
def RoundingMode.round : RoundingMode → ℚ → ℤ
  | .floor, x => ⌊x⌋
  | .ceil, x => ⌈x⌉
  | .halfUp, x => nearest x

theorem RoundingMode.isRounding (mode : RoundingMode) : IsRounding mode.round := by
  cases mode with
  | floor => exact isRounding_floor
  | ceil => exact isRounding_ceil
  | halfUp => exact isRounding_nearest

theorem abs_eq_ite (a : Int) : |a| = if a < 0 then -a else a := by
  split_ifs with h
  · exact abs_of_neg h
  · exact abs_of_nonneg (not_lt.1 h)

/-! ## The functions -/

section Divisions

variable (a : Int) {b : Int} (hb : b ≠ 0)

include hb

theorem floorDiv_eq : floorDiv a b = RoundingMode.floor.round (a / b : ℚ) := by
  show floorDiv a b = ⌊(a / b : ℚ)⌋
  rw [(truncated_tdiv a hb).floor]
  unfold floorDiv
  refine if_congr ?_ rfl rfl
  by_cases ha : a < 0 <;> by_cases hb' : b < 0 <;> simp [ha, hb']

theorem ceilDiv_eq : ceilDiv a b = RoundingMode.ceil.round (a / b : ℚ) := by
  show ceilDiv a b = ⌈(a / b : ℚ)⌉
  rw [(truncated_tdiv a hb).ceil]
  unfold ceilDiv
  refine if_congr ?_ rfl rfl
  by_cases ha : a < 0 <;> by_cases hb' : b < 0 <;> simp [ha, hb']

theorem halfUpDiv_eq : halfUpDiv a b = RoundingMode.halfUp.round (a / b : ℚ) := by
  show halfUpDiv a b = nearest (a / b : ℚ)
  rw [nearest_div a hb, round_div (abs_nonneg a) (abs_pos.2 hb)]
  unfold halfUpDiv
  rw [← abs_eq_ite, ← abs_eq_ite]
  by_cases ha : a < 0 <;> by_cases hb' : b < 0 <;> simp [ha, hb']

theorem divFloor_eq : divFloor a b = .ok (RoundingMode.floor.round (a / b : ℚ)) := by
  rw [← floorDiv_eq a hb]
  simp only [divFloor, floorDiv, if_neg hb, Bool.and_comm]

theorem divCeil_eq : divCeil a b = .ok (RoundingMode.ceil.round (a / b : ℚ)) := by
  rw [← ceilDiv_eq a hb]
  simp only [divCeil, ceilDiv, if_neg hb, Bool.and_comm]

theorem divHalfUp_eq : divHalfUp a b = .ok (RoundingMode.halfUp.round (a / b : ℚ)) := by
  rw [← halfUpDiv_eq a hb]
  simp only [divHalfUp, halfUpDiv, if_neg hb]

/-- Division rounds the exact quotient. -/
theorem divide_eq (mode : RoundingMode) : divide a b mode = .ok (mode.round (a / b : ℚ)) := by
  cases mode with
  | floor => exact divFloor_eq a hb
  | ceil => exact divCeil_eq a hb
  | halfUp => exact divHalfUp_eq a hb

/-- A ratio of an amount is rounded once, from its exact value. -/
theorem Money.multiplyRatio_eq (m : Money) (numerator : Int) (mode : RoundingMode) :
    m.multiplyRatio numerator b mode =
      .ok ⟨mode.round (m.units * numerator / b : ℚ), m.asset, m.decimals⟩ := by
  have hcast : (m.units * numerator / b : ℚ) = ((m.units * numerator : ℤ) : ℚ) / b := by
    push_cast
    rfl
  rw [hcast]
  cases mode with
  | floor => simp only [Money.multiplyRatio, if_neg hb, floorDiv_eq _ hb]
  | ceil => simp only [Money.multiplyRatio, if_neg hb, ceilDiv_eq _ hb]
  | halfUp => simp only [Money.multiplyRatio, if_neg hb, halfUpDiv_eq _ hb]

end Divisions

/-! ## Rescaling -/

section Rescaling

variable {fewer more : Int} (hfewer : assertDecimals fewer = .ok ())
  (hmore : assertDecimals more = .ok ()) (hle : fewer ≤ more)

include hfewer hmore hle

/-- To more decimals nothing is lost. -/
theorem rescaleUnits_up (units : Int) (mode : RoundingMode) :
    rescaleUnits units fewer more mode = .ok (units * 10 ^ (more - fewer).toNat) := by
  have h0 := assertDecimals_eq_ok.1 hfewer
  have h1 := assertDecimals_eq_ok.1 hmore
  unfold rescaleUnits
  rw [hfewer, hmore]
  by_cases heq : fewer = more
  · simp [heq, bind, Except.bind, pure, Except.pure]
  · have hlt : fewer < more := lt_of_le_of_ne hle heq
    rw [pow10_of_mem (by omega) (by omega)]
    simp [heq, hlt, bind, Except.bind, pure, Except.pure]

/-- To fewer decimals the exact value is rounded. -/
theorem rescaleUnits_down (units : Int) (mode : RoundingMode) :
    rescaleUnits units more fewer mode =
      .ok (mode.round (units / 10 ^ (more - fewer).toNat : ℚ)) := by
  have h0 := assertDecimals_eq_ok.1 hfewer
  have h1 := assertDecimals_eq_ok.1 hmore
  unfold rescaleUnits
  rw [hfewer, hmore]
  by_cases heq : more = fewer
  · simp [heq, mode.isRounding.intCast, bind, Except.bind, pure, Except.pure]
  · have hlt : ¬fewer > more := not_lt.2 hle
    have hpow : pow10 (more - fewer) = .ok (10 ^ (more - fewer).toNat) :=
      pow10_of_mem (by omega) (by omega)
    have hdivide := divide_eq units (b := 10 ^ (more - fewer).toNat) (pow_ne_zero _ (by decide)) mode
    push_cast at hdivide
    simpa [heq, hlt, hpow, bind, Except.bind] using hdivide

theorem rescaleUnits_up_down (units : Int) (mode back : RoundingMode) :
    (rescaleUnits units fewer more mode >>= (rescaleUnits · more fewer back)) = .ok units := by
  rw [rescaleUnits_up hfewer hmore hle]
  show rescaleUnits _ more fewer back = _
  rw [rescaleUnits_down hfewer hmore hle]
  have hne : (10 : ℚ) ^ (more - fewer).toNat ≠ 0 := pow_ne_zero _ (by norm_num)
  push_cast
  rw [mul_div_cancel_right₀ _ hne, back.isRounding.intCast]

end Rescaling

/-! ## Both sets -/

/-- An integer with none nearer. Of two that are as near it is the one farther from zero. -/
structure IsNearest (x : ℚ) (n : ℤ) : Prop where
  nearest : ∀ k : ℤ, |x - n| ≤ |x - k|
  tie : |x - n| = 1 / 2 → |x| < |(n : ℚ)|

theorem isNearest_round (x : ℚ) : IsNearest x (RoundingMode.halfUp.round x) :=
  ⟨abs_sub_nearest_le x, abs_lt_abs_nearest_of_tie⟩

/-- How far a result may be from the exact value, and on which side. -/
def RoundingMode.Errs (x : ℚ) (n : ℤ) : RoundingMode → Prop
  | .floor => (n : ℚ) ≤ x ∧ x - n < 1
  | .ceil => x ≤ n ∧ n - x < 1
  | .halfUp => |x - n| ≤ 1 / 2

theorem RoundingMode.errs_round (mode : RoundingMode) (x : ℚ) : mode.Errs x (mode.round x) := by
  cases mode with
  | floor => exact ⟨Int.floor_le x, sub_lt_iff_lt_add'.2 (Int.lt_floor_add_one x)⟩
  | ceil => exact ⟨Int.le_ceil x, sub_lt_iff_lt_add'.2 (Int.ceil_lt_add_one x)⟩
  | halfUp => exact abs_sub_nearest x

/-- **Both sets of divisions are exact, and rescaling is.** -/
theorem divisions_exact (a : Int) {b : Int} (hb : b ≠ 0) {fewer more : Int}
    (hfewer : assertDecimals fewer = .ok ()) (hmore : assertDecimals more = .ok ())
    (hle : fewer ≤ more) :
    (divFloor a b = .ok ⌊(a / b : ℚ)⌋ ∧ floorDiv a b = ⌊(a / b : ℚ)⌋) ∧
    (divCeil a b = .ok ⌈(a / b : ℚ)⌉ ∧ ceilDiv a b = ⌈(a / b : ℚ)⌉) ∧
    (divHalfUp a b = .ok (halfUpDiv a b) ∧ IsNearest (a / b) (halfUpDiv a b)) ∧
    (∀ (m : Money) (mode : RoundingMode), ∃ scaled, m.multiplyRatio a b mode =
      .ok ⟨scaled, m.asset, m.decimals⟩ ∧ divide (m.units * a) b mode = .ok scaled) ∧
    (∀ units mode back,
      (rescaleUnits units fewer more mode >>= (rescaleUnits · more fewer back)) = .ok units) ∧
    ∀ units mode, ∃ rescaled, rescaleUnits units more fewer mode = .ok rescaled ∧
      mode.Errs (units / 10 ^ (more - fewer).toNat) rescaled := by
  refine ⟨⟨divFloor_eq a hb, floorDiv_eq a hb⟩, ⟨divCeil_eq a hb, ceilDiv_eq a hb⟩, ⟨?_, ?_⟩,
    fun m mode => ⟨_, m.multiplyRatio_eq hb a mode, ?_⟩,
    rescaleUnits_up_down hfewer hmore hle,
    fun units mode => ⟨_, rescaleUnits_down hfewer hmore hle units mode, mode.errs_round _⟩⟩
  · rw [divHalfUp_eq a hb, halfUpDiv_eq a hb]
  · rw [halfUpDiv_eq a hb]
    exact isNearest_round _
  · rw [divide_eq _ hb]
    push_cast
    rfl

/-- A tie between two negative numbers, and whole bitcoins of satoshis. -/
theorem divisions_exact_tie : halfUpDiv (-5) 2 = -3 ∧ IsNearest (((-5 : ℤ) : ℚ) / (2 : ℤ)) (-3) ∧
    divFloor (-5) 2 = .ok (-3) ∧ rescaleUnits 150000000 8 0 = .ok 2 := by
  have h := divisions_exact (-5) (b := 2) (by decide) (show assertDecimals 0 = .ok () from rfl)
    (show assertDecimals 8 = .ok () from rfl) (by decide)
  exact ⟨rfl, h.2.2.1.2, rfl, rfl⟩

end PaymentGateway
