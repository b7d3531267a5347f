import PaymentGateway.Shared.Error

/-!
# Transfer matching and deadlines

`evaluateTransferMatch` decides what becomes of a detected transfer from facts the caller has
gathered. It is told that an asset was recognised, never which: `pending_iff` lists the facts a
transfer that will be counted rests on, and the asset of the invoice is not among them.
-/

namespace PaymentGateway

/-- A transaction's on-chain execution result. -/
inductive ChainTransactionStatus
  | pending | success | reverted
  deriving DecidableEq, Repr

structure MatchInput where
  /-- False when no allowlisted asset matches the contract or the native coin. -/
  assetRecognized : Bool
  /-- False when the amount is below the asset's dust threshold. -/
  meetsMinimum : Bool
  txStatus : ChainTransactionStatus
  /-- `none` when the destination belongs to us but no invoice claims it. -/
  invoiceStatus : Option InvoiceStatus
  invoiceExpired : Bool
  alreadyCredited : Bool
  complianceHold : Bool
  deriving DecidableEq, Repr

structure MatchDecision where
  status : TransferMatchStatus
  reason : String
  deriving DecidableEq, Repr

/-- Decide what to do with a detected transfer. The order of the checks is the source's:
idempotency comes before anything else. -/
def evaluateTransferMatch (input : MatchInput) : MatchDecision :=
  if input.alreadyCredited then
    ⟨.credited, "already credited; idempotent replay"⟩
  else if input.txStatus = .reverted then
    ⟨.unmatched, "transaction reverted on-chain"⟩
  else if !input.assetRecognized then
    ⟨.unsupportedAsset, "destination is ours but the asset is not allowlisted"⟩
  else if !input.meetsMinimum then
    ⟨.belowMinimum, "amount is below the asset dust threshold"⟩
  else if input.complianceHold then
    ⟨.complianceHold, "held pending compliance review"⟩
  else
    match input.invoiceStatus with
    | none => ⟨.unmatched, "destination is ours but no invoice claims it"⟩
    | some status =>
      -- Outside the payable window a payment is neither credited nor dropped.
      if input.invoiceExpired || !isPayableStatus status then
        ⟨.latePaymentReview, "invoice is " ++ status.name ++ ", not payable"⟩
      else
        ⟨.pendingConfirmation, "matched an open invoice, awaiting confirmations"⟩

/-- Whether a transfer observed at `observedAt` may still be credited to an invoice that expired
at `expiresAt`. Times are milliseconds. -/
def isWithinGrace (expiresAt observedAt : Int) (graceSeconds : Nat) : Bool :=
  decide (observedAt ≤ expiresAt + graceSeconds * 1000)

structure ExpiryDecision where
  expired : Bool
  /-- Negative once past expiry. -/
  remainingMs : Int
  lateArrival : Bool
  deriving DecidableEq, Repr

def evaluateExpiry (expiresAt now : Int) : ExpiryDecision :=
  let remainingMs := expiresAt - now
  let expired := decide (remainingMs ≤ 0)
  ⟨expired, remainingMs, expired⟩

/-! ## What a decision rests on -/

/-- The transfers that will be counted: not credited, not reverted, recognised, large enough,
not held, and for an invoice that is payable and in time. -/
theorem pending_iff (input : MatchInput) :
    (evaluateTransferMatch input).status = .pendingConfirmation ↔
      input.alreadyCredited = false ∧ input.txStatus ≠ .reverted ∧
      input.assetRecognized = true ∧ input.meetsMinimum = true ∧ input.complianceHold = false ∧
      input.invoiceExpired = false ∧
      ∃ status, input.invoiceStatus = some status ∧ isPayableStatus status = true := by
  obtain ⟨recognized, minimum, tx, invoice, expired, credited, hold⟩ := input
  unfold evaluateTransferMatch
  cases credited <;> cases recognized <;> cases minimum <;> cases hold <;> cases expired <;>
    cases invoice <;> simp <;> split_ifs <;> simp_all

/-- The late ones: all the same, but the invoice is not payable, or its time is over. -/
theorem late_iff (input : MatchInput) :
    (evaluateTransferMatch input).status = .latePaymentReview ↔
      input.alreadyCredited = false ∧ input.txStatus ≠ .reverted ∧
      input.assetRecognized = true ∧ input.meetsMinimum = true ∧ input.complianceHold = false ∧
      ∃ status, input.invoiceStatus = some status ∧
        (input.invoiceExpired = true ∨ isPayableStatus status = false) := by
  obtain ⟨recognized, minimum, tx, invoice, expired, credited, hold⟩ := input
  unfold evaluateTransferMatch
  cases credited <;> cases recognized <;> cases minimum <;> cases hold <;> cases expired <;>
    cases invoice <;> simp <;> split_ifs <;> simp_all

/-- Of the status of an invoice, a decision depends on whether it is payable. -/
theorem decision_congr {input : MatchInput} {status : Option InvoiceStatus}
    (h : status.map isPayableStatus = input.invoiceStatus.map isPayableStatus) :
    (evaluateTransferMatch { input with invoiceStatus := status }).status =
      (evaluateTransferMatch input).status := by
  unfold evaluateTransferMatch
  split_ifs
  · rfl
  · rfl
  · rfl
  · rfl
  · rfl
  · cases hs : status with
    | none =>
      rw [hs, Option.map_none, eq_comm, Option.map_eq_none_iff] at h
      rw [h]
    | some new =>
      rw [hs, Option.map_some, eq_comm, Option.map_eq_some_iff] at h
      obtain ⟨old, hold, hpayable⟩ := h
      rw [hold]
      dsimp only
      rw [hpayable]
      split_ifs <;> rfl

/-- Only the idempotency check yields a credited decision, and nothing is decided orphaned. -/
theorem decision_ne {input : MatchInput} (hc : input.alreadyCredited = false) :
    (evaluateTransferMatch input).status ≠ .credited ∧
      (evaluateTransferMatch input).status ≠ .orphaned := by
  unfold evaluateTransferMatch
  rw [if_neg (by rw [hc]; exact Bool.noConfusion)]
  cases input.invoiceStatus with
  | none =>
    split_ifs <;> exact ⟨TransferMatchStatus.noConfusion, TransferMatchStatus.noConfusion⟩
  | some status =>
    dsimp only
    split_ifs <;> exact ⟨TransferMatchStatus.noConfusion, TransferMatchStatus.noConfusion⟩

@[simp] theorem evaluateExpiry_expired (expiresAt now : Int) :
    (evaluateExpiry expiresAt now).expired = decide (expiresAt ≤ now) := by
  show decide (expiresAt - now ≤ 0) = decide (expiresAt ≤ now)
  exact decide_eq_decide.2 (by omega)

end PaymentGateway
