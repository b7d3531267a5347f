import PaymentGateway.Shared.Decimal

/-!
# Money

Amounts are integers of smallest units that carry their asset and its decimals. BigInt division
truncates toward zero, which is `Int.tdiv`; the three rounding divisions below correct its
quotient as the source does.
-/

namespace PaymentGateway

open Fallible

/-- Rounding down: the truncated quotient of a negative ratio is too high unless it is exact. -/
def floorDiv (numerator denominator : Int) : Int :=
  let quotient := numerator.tdiv denominator
  let negative := decide (numerator < 0) != decide (denominator < 0)
  if negative && numerator.tmod denominator != 0 then quotient - 1 else quotient

/-- Rounding up: the truncated quotient of a positive ratio is too low unless it is exact. -/
def ceilDiv (numerator denominator : Int) : Int :=
  let quotient := numerator.tdiv denominator
  let positive := decide (numerator < 0) == decide (denominator < 0)
  if positive && numerator.tmod denominator != 0 then quotient + 1 else quotient

/-- Rounding to nearest, halves away from zero. -/
def halfUpDiv (numerator denominator : Int) : Int :=
  let negative := decide (numerator < 0) != decide (denominator < 0)
  let absN := if numerator < 0 then -numerator else numerator
  let absD := if denominator < 0 then -denominator else denominator
  let quotient := absN.tdiv absD
  let remainder := absN.tmod absD
  let rounded := if remainder * 2 ≥ absD then quotient + 1 else quotient
  if negative then -rounded else rounded

/-- On a non-negative numerator the corrected quotient is the Euclidean one. -/
theorem floorDiv_of_nonneg {a b : Int} (ha : 0 ≤ a) (hb : 0 < b) : floorDiv a b = a / b := by
  have hna : ¬ a < 0 := by omega
  have hnb : ¬ b < 0 := by omega
  simp [floorDiv, hna, hnb, Int.tdiv_eq_ediv_of_nonneg ha]

/-- An amount of one specific asset, held as smallest units. -/
structure Money where
  units : Int
  asset : String
  decimals : Nat
  deriving DecidableEq, Repr

namespace Money

def fromUnits (units : Int) (asset : String) (decimals : Nat) : Money := ⟨units, asset, decimals⟩

/-- No units of an asset. -/
def zero (asset : String) (decimals : Nat) : Money := ⟨0, asset, decimals⟩

/-- Amounts are combined within one asset only. -/
def assertSameAsset (m other : Money) : Except Error Unit :=
  if m.asset ≠ other.asset ∨ m.decimals ≠ other.decimals then
    .error (.money ("cannot combine " ++ m.asset ++ "(" ++ toString m.decimals ++ ") with " ++
      other.asset ++ "(" ++ toString other.decimals ++ ")"))
  else
    .ok ()

/-- The sum of two amounts of one asset. -/
def add (m other : Money) : Except Error Money := do
  assertSameAsset m other
  return ⟨m.units + other.units, m.asset, m.decimals⟩

/-- The difference may be negative. -/
def subtract (m other : Money) : Except Error Money := do
  assertSameAsset m other
  return ⟨m.units - other.units, m.asset, m.decimals⟩

/-- A share of an amount, rounded as the caller says. -/
def multiplyRatio (m : Money) (numerator denominator : Int) (mode : RoundingMode := .halfUp) :
    Except Error Money :=
  if denominator = 0 then
    .error (.money "denominator must not be zero")
  else
    let product := m.units * numerator
    let scaled :=
      match mode with
      | .floor => floorDiv product denominator
      | .ceil => ceilDiv product denominator
      | .halfUp => halfUpDiv product denominator
    .ok ⟨scaled, m.asset, m.decimals⟩

/-- Basis points: 25 bps = 0.25%. -/
def percentageBps (m : Money) (bps : Int) (mode : RoundingMode := .halfUp) : Except Error Money :=
  m.multiplyRatio bps 10000 mode

/-- The sign of the difference. -/
def compare (m other : Money) : Except Error Int := do
  assertSameAsset m other
  return if m.units < other.units then -1 else if m.units > other.units then 1 else 0

/-- Strictly more, of one asset. -/
def greaterThan (m other : Money) : Except Error Bool := do
  return (← m.compare other) == 1

/-- Strictly less, of one asset. -/
def lessThan (m other : Money) : Except Error Bool := do
  return (← m.compare other) == -1

/-- No units at all. -/
def isZero (m : Money) : Bool := m.units == 0

/-- At least one unit. -/
def isPositive (m : Money) : Bool := decide (m.units > 0)

/-- The amount as it is shown, without its asset. -/
def toDecimalString (m : Money) : Except Error String := formatUnits m.units m.decimals

/-! ## Operations within one asset -/

variable (u v : Int) (asset : String) (decimals : Nat)

@[simp] theorem assertSameAsset_same :
    assertSameAsset ⟨u, asset, decimals⟩ ⟨v, asset, decimals⟩ = .ok () := by
  simp [assertSameAsset]

@[simp] theorem add_same : add ⟨u, asset, decimals⟩ ⟨v, asset, decimals⟩ =
    .ok ⟨u + v, asset, decimals⟩ := by
  simp [add, bind, Except.bind, pure, Except.pure]

@[simp] theorem subtract_same : subtract ⟨u, asset, decimals⟩ ⟨v, asset, decimals⟩ =
    .ok ⟨u - v, asset, decimals⟩ := by
  simp [subtract, bind, Except.bind, pure, Except.pure]

@[simp] theorem lessThan_same : lessThan ⟨u, asset, decimals⟩ ⟨v, asset, decimals⟩ =
    .ok (decide (u < v)) := by
  simp only [lessThan, compare, assertSameAsset_same, bind, Except.bind, pure, Except.pure]
  congr 1
  split_ifs <;> simp_all

@[simp] theorem greaterThan_same : greaterThan ⟨u, asset, decimals⟩ ⟨v, asset, decimals⟩ =
    .ok (decide (v < u)) := by
  simp only [greaterThan, compare, assertSameAsset_same, bind, Except.bind, pure, Except.pure]
  congr 1
  split_ifs with h1 h2
  · simp; omega
  · simpa using h2
  · simpa using h2

/-- A percentage rounded down, of an amount that is not negative. -/
theorem percentageBps_floor {bps : Int} (hu : 0 ≤ u) (hbps : 0 ≤ bps) :
    percentageBps ⟨u, asset, decimals⟩ bps .floor = .ok ⟨u * bps / 10000, asset, decimals⟩ := by
  simp [percentageBps, multiplyRatio, floorDiv_of_nonneg (Int.mul_nonneg hu hbps)]

/-! ## Failures -/

theorem subtract_plain (m other : Money) : Plain (m.subtract other) := by
  unfold subtract assertSameAsset
  split_ifs
  · exact avoids_error not_false
  · exact avoids_ok _

theorem percentageBps_plain (m : Money) (bps : Int) (mode : RoundingMode) :
    Plain (m.percentageBps bps mode) := avoids_ok _

end Money

end PaymentGateway
