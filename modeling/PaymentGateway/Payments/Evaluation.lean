import PaymentGateway.Shared.Money

/-!
# Evaluating a payment

Whether a received amount settles an invoice. The merchant's tolerances are basis points of the
invoiced amount and each allowance is rounded down, so the accepted band is
`[required - ⌊required * under / 10000⌋, required + ⌊required * over / 10000⌋]`. The function
throws on amounts of different assets, on a required amount that is not positive and on
tolerances outside `0..10000`; `evaluatePayment_spec` says what it answers otherwise.
-/

namespace PaymentGateway

inductive PaymentOutcome
  | none | exact | underpaid | overpaid
  deriving DecidableEq, Repr

structure EvaluatePaymentInput where
  required : Money
  received : Money
  underpaymentToleranceBps : Option Int
  overpaymentToleranceBps : Option Int
  deriving DecidableEq, Repr

structure PaymentEvaluation where
  outcome : PaymentOutcome
  shortfall : Money
  excess : Money
  minimumAccepted : Money
  maximumAccepted : Money
  satisfiesInvoice : Bool
  deriving DecidableEq, Repr

def assertComparable (required received : Money) : Except Error Unit :=
  if required.asset ≠ received.asset ∨ required.decimals ≠ received.decimals then
    .error (.payment ("cannot evaluate " ++ received.asset ++ "(" ++ toString received.decimals ++
      ") against an invoice denominated in " ++ required.asset ++ "(" ++
      toString required.decimals ++ ")"))
  else
    .ok ()

def validateBps (value : Int) (label : String) : Except Error Int :=
  if value < 0 ∨ value > 10000 then
    .error (.payment (label ++ " must be an integer between 0 and 10000, received " ++
      toString value))
  else
    .ok value

def assertPositive (required : Money) : Except Error Unit :=
  if required.isPositive then .ok () else .error (.payment "invoice amount must be positive")

/-- `required - received`, floored at zero. -/
def shortfallOf (required received : Money) : Except Error Money := do
  if ← received.lessThan required then required.subtract received
  else return Money.zero required.asset required.decimals

/-- `received - required`, floored at zero. -/
def excessOf (required received : Money) : Except Error Money := do
  if ← received.greaterThan required then received.subtract required
  else return Money.zero required.asset required.decimals

def decideOutcome (received minimumAccepted maximumAccepted : Money) :
    Except Error PaymentOutcome := do
  if received.isZero then return .none
  if ← received.lessThan minimumAccepted then return .underpaid
  if ← received.greaterThan maximumAccepted then return .overpaid
  return .exact

def evaluatePayment (input : EvaluatePaymentInput) : Except Error PaymentEvaluation := do
  let required := input.required
  let received := input.received
  assertComparable required received
  assertPositive required
  let underBps ← validateBps (input.underpaymentToleranceBps.getD 0) "underpaymentToleranceBps"
  let overBps ← validateBps (input.overpaymentToleranceBps.getD 0) "overpaymentToleranceBps"
  let underAllowance ← required.percentageBps underBps .floor
  let overAllowance ← required.percentageBps overBps .floor
  let minimumAccepted ← required.subtract underAllowance
  let maximumAccepted ← required.add overAllowance
  let shortfall ← shortfallOf required received
  let excess ← excessOf required received
  let outcome ← decideOutcome received minimumAccepted maximumAccepted
  return ⟨outcome, shortfall, excess, minimumAccepted, maximumAccepted,
    decide (outcome = PaymentOutcome.exact)⟩

/-- The status a confirming invoice should move to; `none` leaves it where it is. -/
def statusForOutcome : PaymentOutcome → Option InvoiceStatus
  | .exact => some .paid
  | .underpaid => some .underpaid
  | .overpaid => some .overpaid
  | .none => Option.none

/-! ## The accepted band -/

/-- Lowest amount that counts as settled. -/
def minimumAccepted (required underBps : Int) : Int := required - required * underBps / 10000

/-- Highest amount that counts as settled. -/
def maximumAccepted (required overBps : Int) : Int := required + required * overBps / 10000

/-- The outcome as a comparison with the band. -/
def outcomeOf (required received underBps overBps : Int) : PaymentOutcome :=
  if received = 0 then .none
  else if received < minimumAccepted required underBps then .underpaid
  else if received > maximumAccepted required overBps then .overpaid
  else .exact

theorem validateBps_of_mem {value : Int} (label : String) (h0 : 0 ≤ value) (h1 : value ≤ 10000) :
    validateBps value label = .ok value := by
  have hnot : ¬ (value < 0 ∨ value > 10000) := by omega
  simp [validateBps, hnot]

section SameAsset

variable (u v lo hi : Int) (asset : String) (decimals : Nat)

theorem shortfallOf_same : shortfallOf ⟨u, asset, decimals⟩ ⟨v, asset, decimals⟩ =
    .ok ⟨if v < u then u - v else 0, asset, decimals⟩ := by
  by_cases h : v < u <;>
    simp [shortfallOf, h, Money.zero, bind, Except.bind, pure, Except.pure]

theorem excessOf_same : excessOf ⟨u, asset, decimals⟩ ⟨v, asset, decimals⟩ =
    .ok ⟨if u < v then v - u else 0, asset, decimals⟩ := by
  by_cases h : u < v <;>
    simp [excessOf, h, Money.zero, bind, Except.bind, pure, Except.pure]

theorem decideOutcome_same :
    decideOutcome ⟨v, asset, decimals⟩ ⟨lo, asset, decimals⟩ ⟨hi, asset, decimals⟩ =
      .ok (if v = 0 then .none else if v < lo then .underpaid else if v > hi then .overpaid
        else .exact) := by
  by_cases h0 : v = 0 <;> by_cases h1 : v < lo <;> by_cases h2 : hi < v <;>
    simp [decideOutcome, Money.isZero, h0, h1, h2, bind, Except.bind, pure, Except.pure]

end SameAsset

/-- Within one asset, on a positive amount and sane tolerances the evaluation succeeds, and its
outcome is the comparison with the band. -/
theorem evaluatePayment_spec {required received underBps overBps : Int} (asset : String)
    (decimals : Nat) (hreq : 0 < required) (hu0 : 0 ≤ underBps) (hu1 : underBps ≤ 10000)
    (ho0 : 0 ≤ overBps) (ho1 : overBps ≤ 10000) :
    ∃ evaluation, evaluatePayment ⟨⟨required, asset, decimals⟩, ⟨received, asset, decimals⟩,
        some underBps, some overBps⟩ = .ok evaluation ∧
      evaluation.outcome = outcomeOf required received underBps overBps := by
  have hcmp : assertComparable ⟨required, asset, decimals⟩ ⟨received, asset, decimals⟩ = .ok () :=
    if_neg (by simp)
  have hpos : assertPositive ⟨required, asset, decimals⟩ = .ok () :=
    if_pos (decide_eq_true hreq)
  have hunder := Money.percentageBps_floor required asset decimals hreq.le hu0
  have hover := Money.percentageBps_floor required asset decimals hreq.le ho0
  simp only [evaluatePayment, hcmp, hpos, Option.getD_some, validateBps_of_mem _ hu0 hu1,
    validateBps_of_mem _ ho0 ho1, hunder, hover, bind, Except.bind, pure, Except.pure,
    Money.subtract_same, Money.add_same, shortfallOf_same, excessOf_same, decideOutcome_same]
  exact ⟨_, rfl, rfl⟩

theorem statusForOutcome_settled {outcome : PaymentOutcome} {target : InvoiceStatus}
    (h : statusForOutcome outcome = some target) :
    target = .paid ∨ target = .underpaid ∨ target = .overpaid := by
  cases outcome <;> simp_all [statusForOutcome]

end PaymentGateway
