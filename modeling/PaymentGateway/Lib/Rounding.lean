import Mathlib

/-!
# Rounding a quotient

A rounding takes a number to an integer, keeps the order, and keeps the integers (`IsRounding`).
Both together keep it on the right side of every integer (`IsRounding.le_of_intCast_le`). Down, up
and to the nearest integer, halves away from zero, are roundings.

Machine division truncates. Its remainder says on which side of the quotient the exact value lies
(`truncated_tdiv`), so each rounding of a quotient is the truncated one with a correction
(`Truncated.floor`, `Truncated.ceil`, `nearest_div`).
-/

namespace Rounding

variable {α : Type*} [Field α] [LinearOrder α]

/-- What every rounding keeps. -/
structure IsRounding (f : α → ℤ) : Prop where
  mono : Monotone f
  intCast : ∀ n : ℤ, f n = n

namespace IsRounding

variable {f : α → ℤ} {x : α} {n : ℤ}

theorem le_of_intCast_le (hf : IsRounding f) (h : (n : α) ≤ x) : n ≤ f x := by
  calc n = f n := (hf.intCast n).symm
    _ ≤ f x := hf.mono h

variable [FloorRing α]

variable [IsStrictOrderedRing α]

end IsRounding

variable [IsStrictOrderedRing α] [FloorRing α]

theorem isRounding_floor : IsRounding (fun x : α => ⌊x⌋) := ⟨Int.floor_mono, Int.floor_intCast⟩

theorem isRounding_ceil : IsRounding (fun x : α => ⌈x⌉) := ⟨Int.ceil_mono, Int.ceil_intCast⟩

/-! ## The nearest integer -/

/-- The nearest integer. A half goes away from zero. -/
def nearest (x : α) : ℤ := if x < 0 then -round |x| else round |x|

theorem round_mono : Monotone (round : α → ℤ) := by
  intro x y h
  rw [round_eq, round_eq]
  exact Int.floor_mono (by linarith)

theorem round_nonneg {x : α} (h : 0 ≤ x) : 0 ≤ round x := by
  simpa using round_mono h

theorem isRounding_nearest : IsRounding (nearest : α → ℤ) where
  mono := by
    intro x y h
    have hx := round_nonneg (abs_nonneg x)
    have hy := round_nonneg (abs_nonneg y)
    unfold nearest
    split_ifs with hxneg hyneg hyneg
    · rw [abs_of_neg hxneg, abs_of_neg hyneg]
      exact neg_le_neg (round_mono (neg_le_neg h))
    · omega
    · exact absurd (h.trans_lt hyneg) hxneg
    · rw [abs_of_nonneg (not_lt.1 hxneg), abs_of_nonneg (not_lt.1 hyneg)]
      exact round_mono h
  intCast n := by
    unfold nearest
    rw [← Int.cast_abs, round_intCast]
    split_ifs with hneg
    · rw [abs_of_neg (Int.cast_lt_zero.1 hneg), neg_neg]
    · rw [abs_of_nonneg (Int.cast_nonneg_iff.1 (not_lt.1 hneg))]

theorem abs_nearest (x : α) : |nearest x| = round |x| := by
  have h := round_nonneg (abs_nonneg x)
  unfold nearest
  split_ifs
  · rw [abs_neg, abs_of_nonneg h]
  · exact abs_of_nonneg h

/-- The error is that of the absolute value. -/
theorem abs_sub_nearest_eq (x : α) : |x - nearest x| = |(|x| - round |x|)| := by
  unfold nearest
  split_ifs with hneg
  · rw [abs_of_neg hneg, ← abs_neg (-x - _)]
    push_cast
    congr 1
    ring
  · rw [abs_of_nonneg (not_lt.1 hneg)]

theorem abs_sub_nearest (x : α) : |x - nearest x| ≤ 1 / 2 := by
  rw [abs_sub_nearest_eq]
  exact abs_sub_round |x|

/-- No integer is nearer. -/
theorem abs_sub_nearest_le (x : α) (n : ℤ) : |x - nearest x| ≤ |x - n| := by
  calc |x - nearest x| = |(|x| - round |x|)| := abs_sub_nearest_eq x
    _ ≤ |(|x| - (|n| : ℤ))| := round_le |x| |n|
    _ ≤ |x - n| := by
      rw [Int.cast_abs]
      exact abs_abs_sub_abs_le x n

/-- A half goes away from zero. -/
theorem abs_lt_abs_nearest_of_tie {x : α} (h : |x - nearest x| = 1 / 2) :
    |x| < |(nearest x : α)| := by
  rw [abs_sub_nearest_eq] at h
  rw [← Int.cast_abs, abs_nearest]
  have hlt := sub_half_lt_round |x|
  by_contra hle
  rw [abs_of_nonneg (by linarith)] at h
  linarith

/-! ## Truncated division -/

/-- A number and its truncation, and the side on which it lies. -/
structure Truncated (x : α) (quotient : ℤ) (below above : Prop) : Prop where
  lt_one : |x - quotient| < 1
  below : x < quotient ↔ below
  above : quotient < x ↔ above

namespace Truncated

variable {x : α} {quotient : ℤ} {below above : Prop}

theorem floor [Decidable below] (h : Truncated x quotient below above) :
    ⌊x⌋ = if below then quotient - 1 else quotient := by
  have hlt := abs_lt.1 h.lt_one
  rw [Int.floor_eq_iff]
  split_ifs with hbelow
  · have hx := h.below.2 hbelow
    push_cast
    constructor <;> linarith
  · have hx := not_lt.1 (mt h.below.1 hbelow)
    constructor <;> linarith

theorem ceil [Decidable above] (h : Truncated x quotient below above) :
    ⌈x⌉ = if above then quotient + 1 else quotient := by
  have hlt := abs_lt.1 h.lt_one
  rw [Int.ceil_eq_iff]
  split_ifs with habove
  · have hx := h.above.2 habove
    push_cast
    constructor <;> linarith
  · have hx := not_lt.1 (mt h.above.1 habove)
    constructor <;> linarith

end Truncated

/-- The remainder has the sign of the dividend. -/
theorem truncated_tdiv (a : ℤ) {b : ℤ} (hb : b ≠ 0) :
    Truncated (a / b : α) (a.tdiv b) (a.tmod b ≠ 0 ∧ ¬(a < 0 ↔ b < 0))
      (a.tmod b ≠ 0 ∧ (a < 0 ↔ b < 0)) := by
  have hb' : (b : α) ≠ 0 := Int.cast_ne_zero.2 hb
  have hpart : (a / b : α) - a.tdiv b = (a.tmod b : α) / b := by
    have hsplit : (a : α) = b * a.tdiv b + a.tmod b := by
      exact_mod_cast (Int.mul_tdiv_add_tmod a b).symm
    field_simp
    linarith
  have hnonneg : 0 ≤ a → 0 ≤ a.tmod b := Int.tmod_nonneg b
  have hnonpos : a < 0 → a.tmod b ≤ 0 := by
    intro ha
    have h := Int.tmod_nonneg b (a := -a) (by omega)
    rw [Int.neg_tmod] at h
    omega
  constructor
  · rw [hpart, abs_div, div_lt_one (abs_pos.2 hb'), ← Int.cast_abs, ← Int.cast_abs, Int.cast_lt,
      Int.abs_eq_natAbs, Int.abs_eq_natAbs, Int.natAbs_tmod]
    exact_mod_cast Nat.mod_lt _ (Int.natAbs_pos.2 hb)
  · rw [← sub_neg, hpart, div_neg_iff]
    simp only [Int.cast_pos, Int.cast_lt_zero]
    omega
  · rw [← sub_pos, hpart, div_pos_iff]
    simp only [Int.cast_pos, Int.cast_lt_zero]
    omega

/-- A remainder of at least one half rounds up. -/
theorem round_div {a b : ℤ} (ha : 0 ≤ a) (hb : 0 < b) :
    round (a / b : α) = if b ≤ a.tmod b * 2 then a.tdiv b + 1 else a.tdiv b := by
  have hb' : (0 : α) < b := Int.cast_pos.2 hb
  have hsplit : (a / b : α) = a.tdiv b + (a.tmod b : α) / b := by
    rw [← sub_eq_iff_eq_add']
    have hsplit : (a : α) = b * a.tdiv b + a.tmod b := by
      exact_mod_cast (Int.mul_tdiv_add_tmod a b).symm
    field_simp
    linarith
  have hnonneg : (0 : α) ≤ a.tmod b / b :=
    div_nonneg (Int.cast_nonneg (Int.tmod_nonneg b ha)) hb'.le
  have hlt : (a.tmod b : α) / b < 1 := by
    rw [div_lt_one hb']
    exact_mod_cast Int.tmod_lt_of_pos a hb
  have hhalf : b ≤ a.tmod b * 2 ↔ (1 / 2 : α) ≤ a.tmod b / b := by
    rw [div_le_div_iff₀ two_pos hb', one_mul]
    exact_mod_cast Iff.rfl
  rw [round_eq_iff, hsplit]
  split_ifs with h
  · have h := hhalf.1 h
    push_cast
    constructor <;> linarith
  · have h := not_le.1 (mt hhalf.2 h)
    constructor <;> linarith

/-- The nearest integer is found without the signs, and gets the sign of the quotient. -/
theorem nearest_div (a : ℤ) {b : ℤ} (hb : b ≠ 0) :
    nearest (a / b : α) = if a < 0 ↔ b < 0 then round ((|a| : ℤ) / (|b| : ℤ) : α)
      else -round ((|a| : ℤ) / (|b| : ℤ) : α) := by
  have hb' : (b : α) ≠ 0 := Int.cast_ne_zero.2 hb
  have habs : |(a / b : α)| = (|a| : ℤ) / (|b| : ℤ) := by
    rw [abs_div, Int.cast_abs, Int.cast_abs]
  unfold nearest
  rw [habs]
  by_cases ha : a = 0
  · simp [ha]
  · have hneg : (a / b : α) < 0 ↔ ¬(a < 0 ↔ b < 0) := by
      rw [div_neg_iff]
      simp only [Int.cast_pos, Int.cast_lt_zero]
      omega
    by_cases hsign : a < 0 ↔ b < 0
    · rw [if_pos hsign, if_neg (mt hneg.1 (not_not.2 hsign))]
    · rw [if_neg hsign, if_pos (hneg.2 hsign)]

end Rounding
