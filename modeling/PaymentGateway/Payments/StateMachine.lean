import PaymentGateway.Shared.Error

/-!
# Invoice state machine

The transition table, the two guards that read it and the gate that every status change passes
through. `canTransition` asks only whether an edge exists; `isActorAllowed` and
`assertTransition` also ask who takes it. The difference matters wherever a service guards with
the first and asserts with the last: `canTransition_monitor` and its siblings say for which
targets the two agree, and `humanOnly` collects the sources from which they do not.
-/

namespace PaymentGateway

/-- Who is permitted to drive a transition. -/
inductive TransitionActor
  | system | monitor | merchant | admin | compliance
  deriving DecidableEq, Repr

def TransitionActor.name : TransitionActor → String
  | system => "system"
  | monitor => "monitor"
  | merchant => "merchant"
  | admin => "admin"
  | compliance => "compliance"

structure TransitionRule where
  target : InvoiceStatus
  /-- Actors allowed to perform this transition. -/
  actors : List TransitionActor
  /-- Why this edge exists, for documentation and audit messages. -/
  reason : String
  deriving DecidableEq, Repr

def anyInternal : List TransitionActor := [.system, .monitor]

def humanReview : List TransitionActor := [.admin, .compliance]

/-- The complete transition table. An edge that is not listed here cannot happen. -/
def transitions : InvoiceStatus → List TransitionRule
  | .created => [
      ⟨.pending, [.system], "payment destination assigned"⟩,
      ⟨.cancelled, [.merchant, .admin], "cancelled before a destination was issued"⟩,
      ⟨.failed, [.system], "no address could be assigned"⟩,
      ⟨.complianceReviewRequired, humanReview ++ [.system],
        "screening flagged the merchant or invoice"⟩]
  | .pending => [
      ⟨.detected, [.monitor], "a matching transfer appeared on-chain"⟩,
      ⟨.expired, [.system], "expiry elapsed with no payment"⟩,
      ⟨.cancelled, [.merchant, .admin], "cancelled by the merchant"⟩,
      ⟨.failed, [.system], "unrecoverable processing error"⟩,
      ⟨.complianceReviewRequired, humanReview ++ [.system], "screening flagged the invoice"⟩]
  | .detected => [
      ⟨.confirming, [.monitor], "transaction mined, confirmations accruing"⟩,
      ⟨.pending, [.monitor], "transaction dropped, replaced or orphaned before confirming"⟩,
      ⟨.failed, [.system], "unrecoverable processing error"⟩,
      ⟨.complianceReviewRequired, humanReview ++ [.monitor], "the paying address was flagged"⟩]
  | .confirming => [
      ⟨.paid, [.monitor],
        "confirmation threshold reached and the amount satisfies the invoice"⟩,
      ⟨.underpaid, [.monitor], "confirmed, but less than the invoiced amount was received"⟩,
      ⟨.overpaid, [.monitor], "confirmed, but more than the invoiced amount was received"⟩,
      ⟨.detected, [.monitor], "reorg reduced the confirmation count"⟩,
      ⟨.pending, [.monitor], "reorg removed the transaction entirely"⟩,
      ⟨.failed, [.system], "unrecoverable processing error"⟩,
      ⟨.complianceReviewRequired, humanReview ++ [.monitor], "screening flagged the payment"⟩,
      ⟨.reconciliationRequired, anyInternal, "chain, database and ledger disagree"⟩]
  | .paid => [
      ⟨.refunded, [.system], "an approved refund confirmed on-chain"⟩,
      ⟨.reconciliationRequired, anyInternal,
        "the settling transaction was orphaned after the invoice was marked paid"⟩,
      ⟨.complianceReviewRequired, humanReview,
        "post-payment screening flagged the transaction"⟩]
  | .underpaid => [
      ⟨.confirming, [.monitor], "an additional transfer arrived and is confirming"⟩,
      ⟨.paid, [.monitor, .admin],
        "topped up to the full amount, or accepted under the merchant policy"⟩,
      ⟨.expired, [.system], "expiry elapsed while still short"⟩,
      ⟨.cancelled, [.merchant, .admin], "merchant rejected the partial payment"⟩,
      ⟨.refunded, [.system], "the partial payment was returned to the customer"⟩,
      ⟨.failed, [.system], "unrecoverable processing error"⟩,
      ⟨.reconciliationRequired, anyInternal, "chain, database and ledger disagree"⟩]
  | .overpaid => [
      ⟨.paid, [.monitor, .system, .admin],
        "excess accepted (automatically, under ACCEPT_FULL) or credited under the merchant policy"⟩,
      ⟨.refunded, [.system], "the excess was returned to the customer"⟩,
      ⟨.reconciliationRequired, anyInternal, "chain, database and ledger disagree"⟩,
      ⟨.failed, [.system], "unrecoverable processing error"⟩]
  | .expired => [⟨.latePaymentReview, [.monitor], "funds arrived after expiry"⟩]
  | .cancelled => [⟨.latePaymentReview, [.monitor], "funds arrived after cancellation"⟩]
  | .failed => [
      ⟨.reconciliationRequired, anyInternal, "the failure left funds unaccounted for"⟩,
      ⟨.pending, [.admin], "the underlying fault was fixed and the invoice was reopened"⟩]
  | .refunded => [
      ⟨.reconciliationRequired, anyInternal, "the refund transaction was orphaned or disputed"⟩]
  | .complianceReviewRequired => [
      ⟨.pending, [.compliance], "cleared before any payment arrived"⟩,
      ⟨.confirming, [.compliance], "cleared while a payment was confirming"⟩,
      ⟨.paid, [.compliance], "cleared and the payment already satisfied the invoice"⟩,
      ⟨.cancelled, humanReview, "blocked by compliance before payment"⟩,
      ⟨.refunded, [.system], "blocked by compliance and the funds were returned"⟩,
      ⟨.failed, humanReview, "blocked by compliance with no return path"⟩]
  | .latePaymentReview => [
      ⟨.paid, [.admin], "the late payment was accepted by the merchant"⟩,
      ⟨.refunded, [.system], "the late payment was returned to the customer"⟩,
      ⟨.reconciliationRequired, anyInternal, "the late payment could not be attributed"⟩,
      ⟨.complianceReviewRequired, humanReview, "the late payment was flagged by screening"⟩]
  | .reconciliationRequired => [
      ⟨.paid, [.admin], "resolved in favour of the recorded payment"⟩,
      ⟨.underpaid, [.admin], "resolved: less was actually received than recorded"⟩,
      ⟨.overpaid, [.admin], "resolved: more was actually received than recorded"⟩,
      ⟨.expired, [.admin], "resolved: no valid payment existed"⟩,
      ⟨.refunded, [.admin], "resolved by returning the funds"⟩,
      ⟨.failed, [.admin], "resolved as an unrecoverable failure"⟩]

def findRule (source target : InvoiceStatus) : Option TransitionRule :=
  (transitions source).find? fun rule => decide (rule.target = target)

def canTransition (source target : InvoiceStatus) : Bool := (findRule source target).isSome

def isActorAllowed (source target : InvoiceStatus) (actor : TransitionActor) : Bool :=
  match findRule source target with
  | some rule => decide (actor ∈ rule.actors)
  | none => false

/-- The single gate every status change passes through. -/
def assertTransition (source target : InvoiceStatus) (actor : TransitionActor) :
    Except Error TransitionRule :=
  if source = target then
    .error (.invalidTransition source target "the invoice is already in this state")
  else
    match findRule source target with
    | none =>
      let allowed := (transitions source).map (·.target.name)
      .error (.invalidTransition source target
        (if allowed.length > 0 then "permitted targets are " ++ ", ".intercalate allowed
        else "no transitions permitted"))
    | some rule =>
      if actor ∈ rule.actors then
        .ok rule
      else
        .error (.invalidTransition source target
          (actor.name ++ " may not perform this transition (allowed: " ++
            ", ".intercalate (rule.actors.map (·.name)) ++ ")"))

/-- Webhook emitted when an invoice enters a status. -/
def webhookEventForStatus : InvoiceStatus → Option WebhookEventType
  | .pending => some .paymentCreated
  | .detected => some .paymentDetected
  | .confirming => some .paymentConfirming
  | .paid => some .paymentPaid
  | .underpaid => some .paymentUnderpaid
  | .overpaid => some .paymentOverpaid
  | .expired => some .paymentExpired
  | .cancelled => some .paymentCancelled
  | .refunded => some .paymentRefunded
  | _ => none

/-! ## The gate -/

variable {source target : InvoiceStatus} {actor : TransitionActor}

theorem canTransition_of_isActorAllowed (h : isActorAllowed source target actor = true) :
    canTransition source target = true := by
  unfold isActorAllowed at h
  unfold canTransition
  cases hr : findRule source target with
  | none => simp [hr] at h
  | some rule => rfl

/-- No status has an edge to itself. -/
theorem not_canTransition_self (s : InvoiceStatus) : canTransition s s = false := by
  cases s <;> rfl

theorem ne_of_canTransition (h : canTransition source target = true) : source ≠ target := by
  rintro rfl
  rw [not_canTransition_self] at h
  exact Bool.noConfusion h

/-- The gate opens exactly for an allowed actor. -/
theorem assertTransition_isOk :
    (∃ rule, assertTransition source target actor = .ok rule) ↔
      isActorAllowed source target actor = true := by
  unfold assertTransition isActorAllowed
  split_ifs with heq
  · subst heq
    have hself : findRule source source = none := by
      simpa [canTransition] using not_canTransition_self source
    simp [hself]
  · cases findRule source target with
    | none => simp
    | some rule => by_cases ha : actor ∈ rule.actors <;> simp [ha]

theorem isActorAllowed_of_ok {rule : TransitionRule}
    (h : assertTransition source target actor = .ok rule) :
    isActorAllowed source target actor = true :=
  assertTransition_isOk.1 ⟨rule, h⟩

/-- What the gate throws is always the state machine's own error. -/
theorem assertTransition_error {e : Error} (h : assertTransition source target actor = .error e) :
    e.IsInvalidTransition := by
  unfold assertTransition at h
  split_ifs at h with heq
  · cases h; trivial
  · cases hr : findRule source target with
    | none => rw [hr] at h; cases h; trivial
    | some rule =>
      rw [hr] at h
      dsimp only at h
      split_ifs at h
      cases h; trivial

theorem assertTransition_not_ok (h : isActorAllowed source target actor = false) :
    ∃ e, assertTransition source target actor = .error e ∧ e.IsInvalidTransition := by
  cases ha : assertTransition source target actor with
  | error e => exact ⟨e, rfl, assertTransition_error ha⟩
  | ok rule => rw [isActorAllowed_of_ok ha] at h; exact Bool.noConfusion h

/-! ## Edges the monitor guards with `canTransition` alone -/

/-- Statuses that only people move on to a payable or settled status. -/
def humanOnly : List InvoiceStatus :=
  [.complianceReviewRequired, .latePaymentReview, .reconciliationRequired]

/-- Every edge to one of these targets is the monitor's. -/
theorem canTransition_monitor (ht : target = .detected ∨ target = .latePaymentReview ∨
      target = .reconciliationRequired) (h : canTransition source target = true) :
    isActorAllowed source target .monitor = true := by
  rcases ht with rfl | rfl | rfl <;> revert h <;> cases source <;> decide

/-- The sources from which the monitor itself may settle an invoice. -/
theorem settle_source (ht : target = .paid ∨ target = .underpaid ∨ target = .overpaid)
    (h : isActorAllowed source target .monitor = true) :
    source = .confirming ∨ source = .underpaid ∨ source = .overpaid := by
  rcases ht with rfl | rfl | rfl <;> revert h <;> cases source <;> decide

/-- The sources from which the monitor begins to confirm. -/
theorem confirming_source (h : isActorAllowed source .confirming .monitor = true) :
    source = .detected ∨ source = .underpaid := by
  revert h
  cases source <;> decide

/-- Only a confirming invoice is found to be short or over. -/
theorem unsettled_source (ht : target = .underpaid ∨ target = .overpaid)
    (h : isActorAllowed source target .monitor = true) : source = .confirming := by
  rcases ht with rfl | rfl <;> revert h <;> cases source <;> decide

/-- Only a pending or a short invoice expires by itself. -/
theorem expired_source (h : isActorAllowed source .expired .system = true) :
    source = .pending ∨ source = .underpaid := by
  revert h
  cases source <;> decide

/-- What a merchant may cancel. -/
theorem cancelled_source : isActorAllowed source .cancelled .merchant = true ↔
    source = .created ∨ source = .pending ∨ source = .underpaid := by
  cases source <;> decide

end PaymentGateway
