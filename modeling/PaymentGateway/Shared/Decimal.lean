import Mathlib.Algebra.Ring.Int.Defs
import Mathlib.Data.List.DropRight
import PaymentGateway.Shared.Error

/-!
# Fixed-point decimals

Integers of smallest units, and the decimal text they have at the boundary of the system. BigInt
division truncates toward zero, which is `Int.tdiv`; the rounding divisions correct its quotient.

Decimals and exponents are checked where they are used: the functions throw outside `0..36`, and
outside `0..72` for a power of ten.
-/

namespace PaymentGateway

/-- How to resolve a division that does not come out exact. -/
inductive RoundingMode
  | floor | ceil | halfUp
  deriving DecidableEq, Repr

/-- Highest number of decimals accepted anywhere. -/
def maxDecimals : Int := 36

def assertDecimals (decimals : Int) : Except Error Unit :=
  if decimals < 0 ∨ decimals > maxDecimals then
    .error (.money s!"decimals must be an integer in [0, {maxDecimals}], received {decimals}")
  else .ok ()

def pow10 (exponent : Int) : Except Error Int :=
  if exponent < 0 ∨ exponent > maxDecimals * 2 then
    .error (.money s!"pow10 exponent out of range: {exponent}")
  else .ok (10 ^ exponent.toNat)

/-! ## Text -/

/-- White space and line terminators. -/
def isWhiteSpace (c : Char) : Bool :=
  [0x9, 0xa, 0xb, 0xc, 0xd, 0x20, 0xa0, 0x1680, 0x2028, 0x2029, 0x202f, 0x205f, 0x3000,
    0xfeff].contains c.toNat || decide (0x2000 ≤ c.toNat ∧ c.toNat ≤ 0x200a)

def trim (text : List Char) : List Char :=
  (text.dropWhile isWhiteSpace).rdropWhile isWhiteSpace

/-- `(\.\d+)?$` -/
def matchesFraction : List Char → Bool
  | [] => true
  | '.' :: digits => decide (digits ≠ []) && digits.all Char.isDigit
  | _ => false

/-- `^\d+(\.\d+)?$` -/
def matchesUnsigned (text : List Char) : Bool :=
  decide (text.takeWhile Char.isDigit ≠ []) && matchesFraction (text.dropWhile Char.isDigit)

/-- `^-?\d+(\.\d+)?$` -/
def decimalPattern : List Char → Bool
  | '-' :: text => matchesUnsigned text
  | text => matchesUnsigned text

/-- The number that digits write. -/
def bigInt (digits : List Char) : Int := Nat.ofDigitChars 10 digits 0

def parseUnits (value : String) (decimals : Int) : Except Error Int := do
  assertDecimals decimals
  let trimmed := trim value.toList
  if trimmed = [] ∨ ¬decimalPattern trimmed then
    throw (.money s!"invalid decimal amount: \"{value}\"")
  let negative := trimmed.head? = some '-'
  let unsigned := if negative then trimmed.drop 1 else trimmed
  let parts := unsigned.splitOn '.'
  let wholePart := parts[0]?.getD ['0']
  let fractionPart := parts[1]?.getD []
  if fractionPart.length > decimals then
    throw (.money (s!"amount \"{value}\" has {fractionPart.length} decimal places but " ++
      s!"the asset supports {decimals}"))
  let padded := fractionPart ++ List.replicate (decimals.toNat - fractionPart.length) '0'
  let units := bigInt wholePart * (← pow10 decimals) + bigInt (if padded = [] then ['0'] else padded)
  return if negative then -units else units

/-- A numeral of at least `width` digits. -/
def padStart (digits : List Char) (width : Nat) : List Char :=
  List.replicate (width - digits.length) '0' ++ digits

def formatUnits (units decimals : Int) : Except Error String := do
  assertDecimals decimals
  if decimals = 0 then return toString units
  let negative := units < 0
  let absolute := if negative then -units else units
  let divisor ← pow10 decimals
  let whole := absolute.tdiv divisor
  let fraction := padStart (toString (absolute.tmod divisor)).toList decimals.toNat
  return (if negative then "-" else "") ++ toString whole ++ "." ++ String.ofList fraction

/-- What `replace(/\.?0+$/, '')` leaves. -/
def dropTrailingZeros (text : List Char) : List Char :=
  let kept := text.rdropWhile (· = '0')
  if kept = text then text
  else if kept.getLast? = some '.' then kept.dropLast
  else kept

def formatUnitsTrimmed (units decimals : Int) : Except Error String := do
  let formatted ← formatUnits units decimals
  if '.' ∉ formatted.toList then return formatted
  return String.ofList (dropTrailingZeros formatted.toList)

/-! ## Division -/

/-- Rounds toward negative infinity. -/
def divFloor (numerator denominator : Int) : Except Error Int :=
  if denominator = 0 then .error (.money "division by zero")
  else
    let quotient := numerator.tdiv denominator
    let hasRemainder := numerator.tmod denominator != 0
    let negativeResult := decide (numerator < 0) != decide (denominator < 0)
    .ok (if hasRemainder && negativeResult then quotient - 1 else quotient)

/-- Rounds toward positive infinity. -/
def divCeil (numerator denominator : Int) : Except Error Int :=
  if denominator = 0 then .error (.money "division by zero")
  else
    let quotient := numerator.tdiv denominator
    let hasRemainder := numerator.tmod denominator != 0
    let positiveResult := decide (numerator < 0) == decide (denominator < 0)
    .ok (if hasRemainder && positiveResult then quotient + 1 else quotient)

/-- Rounds halves away from zero. -/
def divHalfUp (numerator denominator : Int) : Except Error Int :=
  if denominator = 0 then .error (.money "division by zero")
  else
    let negativeResult := decide (numerator < 0) != decide (denominator < 0)
    let absNumerator := if numerator < 0 then -numerator else numerator
    let absDenominator := if denominator < 0 then -denominator else denominator
    let quotient := absNumerator.tdiv absDenominator
    let remainder := absNumerator.tmod absDenominator
    let rounded := if remainder * 2 ≥ absDenominator then quotient + 1 else quotient
    .ok (if negativeResult then -rounded else rounded)

def divide (numerator denominator : Int) : RoundingMode → Except Error Int
  | .floor => divFloor numerator denominator
  | .ceil => divCeil numerator denominator
  | .halfUp => divHalfUp numerator denominator

/-- A value of one precision at another. -/
def rescaleUnits (units fromDecimals toDecimals : Int) (mode : RoundingMode := .halfUp) :
    Except Error Int := do
  assertDecimals fromDecimals
  assertDecimals toDecimals
  if fromDecimals = toDecimals then return units
  if toDecimals > fromDecimals then return units * (← pow10 (toDecimals - fromDecimals))
  divide units (← pow10 (fromDecimals - toDecimals)) mode

/-! ## Accepted decimals -/

theorem assertDecimals_eq_ok {decimals : Int} :
    assertDecimals decimals = .ok () ↔ 0 ≤ decimals ∧ decimals ≤ maxDecimals := by
  unfold assertDecimals
  split_ifs with h
  · simp only [false_iff]
    omega
  · simp only [true_iff]
    omega

theorem pow10_of_mem {exponent : Int} (h0 : 0 ≤ exponent) (h1 : exponent ≤ maxDecimals * 2) :
    pow10 exponent = .ok (10 ^ exponent.toNat) := by
  unfold pow10
  exact if_neg (by omega)

end PaymentGateway
