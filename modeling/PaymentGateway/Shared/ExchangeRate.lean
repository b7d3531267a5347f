import Mathlib.Order.Bounds.Basic
import PaymentGateway.Shared.Division

/-!
# Exchange rates

A rate is how much of `quote` one whole unit of `base` is worth, scaled by `10 ^ 18`. A conversion
puts the rate and both precisions into one division, so it rounds once, from the exact value
(`convertQuoteToBase_eq`, `convertBaseToQuote_eq`).

**Theorem (`convertQuoteToBase_least`).** Upward conversion of an amount gives the least number of
units that are worth the amount. So their conversion back is never less, whichever way it rounds:
every rounding stays above an integer that the exact value is above.
-/

namespace PaymentGateway

open Rounding

/-- Decimals of every rate. -/
def rateScale : Int := 18

/-- A price that was observed. -/
structure ExchangeRate where
  base : String
  quote : String
  /-- The rate, scaled by `10 ^ rateScale`. -/
  numerator : Int
  provider : String
  observedAt : Int
  positive : 0 < numerator

namespace ExchangeRate

/-- The constructor refuses a rate that is not positive. -/
def create (base quote : String) (numerator : Int) (provider : String) (observedAt : Int) :
    Except Error ExchangeRate :=
  if h : numerator ≤ 0 then
    .error (.money s!"exchange rate must be positive, received {numerator}")
  else .ok ⟨base, quote, numerator, provider, observedAt, not_le.1 h⟩

def fromDecimal (base quote rate provider : String) (observedAt : Int) :
    Except Error ExchangeRate := do
  create base quote (← parseUnits rate rateScale) provider observedAt

def fromScaledNumerator (base quote : String) (numerator : Int) (provider : String)
    (observedAt : Int) : Except Error ExchangeRate :=
  create base quote numerator provider observedAt

/-- A rate of one, for an amount that is invoiced in the asset it is paid in. -/
def identity (asset : String) (provider : String := "identity") (observedAt : Int) :
    Except Error ExchangeRate := do
  create asset asset (← pow10 rateScale) provider observedAt

variable (rate : ExchangeRate)

/-- Price an amount of `quote` in units of `base`. -/
def convertQuoteToBase (amount : Money) (baseDecimals : Nat) (mode : RoundingMode := .ceil) :
    Except Error Money := do
  if amount.asset ≠ rate.quote then
    throw (.money (s!"rate {rate.base}/{rate.quote} cannot price an amount denominated in " ++
      amount.asset))
  let numerator := amount.units * (← pow10 baseDecimals) * (← pow10 rateScale)
  let denominator := (← pow10 amount.decimals) * rate.numerator
  return Money.fromUnits (← divide numerator denominator mode) rate.base baseDecimals

/-- Value an amount of `base` in units of `quote`. -/
def convertBaseToQuote (amount : Money) (quoteDecimals : Nat) (mode : RoundingMode := .halfUp) :
    Except Error Money := do
  if amount.asset ≠ rate.base then
    throw (.money (s!"rate {rate.base}/{rate.quote} cannot value an amount denominated in " ++
      amount.asset))
  let numerator := amount.units * rate.numerator * (← pow10 quoteDecimals)
  let denominator := (← pow10 rateScale) * (← pow10 amount.decimals)
  return Money.fromUnits (← divide numerator denominator mode) rate.quote quoteDecimals

/-! ## Exact values -/

/-- What units of a precision amount to. -/
def exactly (units : Int) (decimals : Nat) : ℚ := units / 10 ^ decimals

/-- What one of `base` is worth in `quote`. -/
def price : ℚ := exactly rate.numerator rateScale.toNat

theorem exactly_mono (decimals : Nat) : StrictMono (exactly · decimals) := by
  intro units units' h
  exact div_lt_div_of_pos_right (Int.cast_lt.2 h) (by positivity)

theorem price_pos : 0 < rate.price :=
  div_pos (Int.cast_pos.2 rate.positive) (by positivity)

/-- Decimals for which there is a power of ten. -/
def Admitted (decimals : Nat) : Prop := (decimals : Int) ≤ maxDecimals * 2

instance (decimals : Nat) : Decidable (Admitted decimals) := inferInstanceAs (Decidable (_ ≤ _))

theorem Admitted.pow10 {decimals : Nat} (h : Admitted decimals) :
    pow10 decimals = .ok (10 ^ decimals) :=
  pow10_of_mem (Int.natCast_nonneg decimals) h

variable {units : Int} {source target : Nat} (hsource : Admitted source) (htarget : Admitted target)

include hsource htarget

/-- Pricing rounds the exact price. -/
theorem convertQuoteToBase_eq (mode : RoundingMode) :
    rate.convertQuoteToBase ⟨units, rate.quote, source⟩ target mode =
      .ok ⟨mode.round (exactly units source / rate.price * 10 ^ target), rate.base, target⟩ := by
  have hne : (10 : Int) ^ source * rate.numerator ≠ 0 :=
    mul_ne_zero (pow_ne_zero _ (by decide)) rate.positive.ne'
  have hnumerator : (rate.numerator : ℚ) ≠ 0 := Int.cast_ne_zero.2 rate.positive.ne'
  have hexact : ((units * 10 ^ target * 10 ^ rateScale.toNat : ℤ) : ℚ) /
      (10 ^ source * rate.numerator : ℤ) = exactly units source / rate.price * 10 ^ target := by
    unfold price exactly
    push_cast
    field_simp
  have hdivide := divide_eq (units * 10 ^ target * 10 ^ rateScale.toNat) hne mode
  rw [hexact] at hdivide
  have hscale : pow10 rateScale = .ok (10 ^ rateScale.toNat) := rfl
  simp [convertQuoteToBase, hsource.pow10, htarget.pow10, hscale, hdivide, Money.fromUnits, bind,
    Except.bind, pure, Except.pure]

/-- Valuing rounds the exact value. -/
theorem convertBaseToQuote_eq (mode : RoundingMode) :
    rate.convertBaseToQuote ⟨units, rate.base, source⟩ target mode =
      .ok ⟨mode.round (exactly units source * rate.price * 10 ^ target), rate.quote, target⟩ := by
  have hne : (10 : Int) ^ rateScale.toNat * 10 ^ source ≠ 0 := by positivity
  have hexact : ((units * rate.numerator * 10 ^ target : ℤ) : ℚ) /
      (10 ^ rateScale.toNat * 10 ^ source : ℤ) =
        exactly units source * rate.price * 10 ^ target := by
    unfold price exactly
    push_cast
    field_simp
  have hdivide := divide_eq (units * rate.numerator * 10 ^ target) hne mode
  rw [hexact] at hdivide
  have hscale : pow10 rateScale = .ok (10 ^ rateScale.toNat) := rfl
  simp [convertBaseToQuote, hsource.pow10, htarget.pow10, hscale, hdivide, Money.fromUnits, bind,
    Except.bind, pure, Except.pure]

omit hsource htarget

/-! ## The least sufficient amount -/

/-- What units of `base` are worth in `quote`. -/
def worth (units : Int) (decimals : Nat) : ℚ := exactly units decimals * rate.price

theorem worth_mono (decimals : Nat) : StrictMono (rate.worth · decimals) :=
  fun _ _ h => mul_lt_mul_of_pos_right (exactly_mono decimals h) rate.price_pos

/-- The exact price of an amount is the number of units that are worth it. -/
theorem le_worth_iff (amount : ℚ) (n : Int) (decimals : Nat) :
    amount / rate.price * 10 ^ decimals ≤ n ↔ amount ≤ rate.worth n decimals := by
  have hpow : (0 : ℚ) < 10 ^ decimals := by positivity
  unfold worth exactly
  rw [← div_le_iff₀ rate.price_pos, le_div_iff₀ hpow]

/-- What upward conversion answers. -/
theorem ceil_least (amount : ℚ) (decimals : Nat) :
    IsLeast {n : Int | amount ≤ rate.worth n decimals}
      (RoundingMode.ceil.round (amount / rate.price * 10 ^ decimals)) := by
  constructor
  · exact (rate.le_worth_iff amount _ decimals).1 (Int.le_ceil _)
  · exact fun n hn => Int.ceil_le.2 ((rate.le_worth_iff amount n decimals).2 hn)

/-- One unit less is not enough, so the excess is less than a unit is worth. -/
theorem worth_sub_lt {amount : ℚ} {decimals : Nat} {n : Int}
    (h : IsLeast {n : Int | amount ≤ rate.worth n decimals} n) :
    rate.worth n decimals - amount < rate.worth 1 decimals := by
  have hless : rate.worth (n - 1) decimals < amount := by
    by_contra hnot
    have hle := h.2 (not_lt.1 hnot)
    omega
  have hsub : rate.worth (n - 1) decimals = rate.worth n decimals - rate.worth 1 decimals := by
    unfold worth exactly
    push_cast
    ring
  linarith

/-- Units that are worth an amount are worth it in units of `quote`, however these are rounded. -/
theorem le_round_worth {units n : Int} {source target : Nat} (mode : RoundingMode)
    (h : exactly units source ≤ rate.worth n target) :
    units ≤ mode.round (exactly n target * rate.price * 10 ^ source) := by
  refine mode.isRounding.le_of_intCast_le ?_
  have hpow : (0 : ℚ) < 10 ^ source := by positivity
  unfold worth at h
  rw [exactly, div_le_iff₀ hpow] at h
  exact h

include hsource htarget

theorem convertQuoteToBase_mono {units units' : Int} (hle : units ≤ units') (mode : RoundingMode) :
    ∃ base base', rate.convertQuoteToBase ⟨units, rate.quote, source⟩ target mode = .ok base ∧
      rate.convertQuoteToBase ⟨units', rate.quote, source⟩ target mode = .ok base' ∧
        base.units ≤ base'.units := by
  refine ⟨_, _, rate.convertQuoteToBase_eq hsource htarget mode,
    rate.convertQuoteToBase_eq hsource htarget mode, mode.isRounding.mono ?_⟩
  have hprice := rate.price_pos
  have hexactly : exactly units source ≤ exactly units' source :=
    (exactly_mono source).monotone hle
  gcongr

theorem convertBaseToQuote_mono {units units' : Int} (hle : units ≤ units') (mode : RoundingMode) :
    ∃ quote quote', rate.convertBaseToQuote ⟨units, rate.base, source⟩ target mode = .ok quote ∧
      rate.convertBaseToQuote ⟨units', rate.base, source⟩ target mode = .ok quote' ∧
        quote.units ≤ quote'.units := by
  refine ⟨_, _, rate.convertBaseToQuote_eq hsource htarget mode,
    rate.convertBaseToQuote_eq hsource htarget mode, mode.isRounding.mono ?_⟩
  have hprice := rate.price_pos
  have hexactly : exactly units source ≤ exactly units' source :=
    (exactly_mono source).monotone hle
  gcongr

/-- **Upward conversion of an amount is the least sufficient amount.** -/
theorem convertQuoteToBase_least (units : Int) :
    (∃ base, rate.convertQuoteToBase ⟨units, rate.quote, source⟩ target = .ok base ∧
      base.asset = rate.base ∧ base.decimals = target ∧
      IsLeast {n : Int | exactly units source ≤ rate.worth n target} base.units ∧
      rate.worth base.units target - exactly units source < rate.worth 1 target ∧
      (0 < units → 0 < base.units) ∧
      ∀ mode, ∃ back, rate.convertBaseToQuote base source mode = .ok back ∧
        back.asset = rate.quote ∧ units ≤ back.units) ∧
    ∀ mode units', units ≤ units' →
      (∃ base base', rate.convertQuoteToBase ⟨units, rate.quote, source⟩ target mode = .ok base ∧
        rate.convertQuoteToBase ⟨units', rate.quote, source⟩ target mode = .ok base' ∧
          base.units ≤ base'.units) ∧
      ∃ quote quote', rate.convertBaseToQuote ⟨units, rate.base, source⟩ target mode = .ok quote ∧
        rate.convertBaseToQuote ⟨units', rate.base, source⟩ target mode = .ok quote' ∧
          quote.units ≤ quote'.units := by
  refine ⟨⟨_, rate.convertQuoteToBase_eq hsource htarget .ceil, rfl, rfl, ?_⟩, fun mode units' hle =>
    ⟨rate.convertQuoteToBase_mono hsource htarget hle mode,
      rate.convertBaseToQuote_mono hsource htarget hle mode⟩⟩
  have hleast := rate.ceil_least (exactly units source) target
  refine ⟨hleast, rate.worth_sub_lt hleast, fun hpos => ?_, fun mode => ?_⟩
  · have hworth : (0 : ℚ) < exactly units source := div_pos (Int.cast_pos.2 hpos) (by positivity)
    by_contra hnot
    have hle := (rate.worth_mono target).monotone (not_lt.1 hnot)
    have henough := hworth.trans_le (hleast.1.trans hle)
    simp [worth, exactly] at henough
  · exact ⟨_, rate.convertBaseToQuote_eq htarget hsource mode, rfl,
      rate.le_round_worth mode hleast.1⟩

end ExchangeRate

/-- One cent at a rate that is not round takes four units, and they are worth it on the way back. -/
theorem ExchangeRate.convertQuoteToBase_cent :
    let rate : ExchangeRate := ⟨"ETH", "USD", 3000550000000000000000, "shop", 0, by decide⟩
    rate.convertQuoteToBase ⟨1, "USD", 2⟩ 6 = .ok ⟨4, "ETH", 6⟩ ∧
      ∃ back, rate.convertBaseToQuote ⟨4, "ETH", 6⟩ 2 .floor = .ok back ∧ 1 ≤ back.units := by
  intro rate
  obtain ⟨⟨base, hbase, -, -, -, -, -, hback⟩, -⟩ :=
    rate.convertQuoteToBase_least (show Admitted 2 by decide) (show Admitted 6 by decide) 1
  have hfour : rate.convertQuoteToBase ⟨1, "USD", 2⟩ 6 = .ok ⟨4, "ETH", 6⟩ := by decide +kernel
  obtain rfl : base = ⟨4, "ETH", 6⟩ := Except.ok.inj (hbase.symm.trans hfour)
  obtain ⟨back, hok, -, hle⟩ := hback .floor
  exact ⟨hfour, back, hok, hle⟩

end PaymentGateway
