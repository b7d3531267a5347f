import Mathlib.Data.String.Basic

/-!
# Statuses

The vocabulary of invoices, transfers and webhook events, with the classifications that the
services share. The transitions between the invoice statuses are in
`PaymentGateway.Payments.StateMachine`.
-/

namespace PaymentGateway

/-- Invoice lifecycle states. -/
inductive InvoiceStatus
  | created | pending | detected | confirming | paid | underpaid | overpaid | expired | cancelled
  | failed | refunded | complianceReviewRequired | latePaymentReview | reconciliationRequired
  deriving DecidableEq, Repr

namespace InvoiceStatus

def name : InvoiceStatus → String
  | created => "CREATED"
  | pending => "PENDING"
  | detected => "DETECTED"
  | confirming => "CONFIRMING"
  | paid => "PAID"
  | underpaid => "UNDERPAID"
  | overpaid => "OVERPAID"
  | expired => "EXPIRED"
  | cancelled => "CANCELLED"
  | failed => "FAILED"
  | refunded => "REFUNDED"
  | complianceReviewRequired => "COMPLIANCE_REVIEW_REQUIRED"
  | latePaymentReview => "LATE_PAYMENT_REVIEW"
  | reconciliationRequired => "RECONCILIATION_REQUIRED"

end InvoiceStatus

/-- States in which the invoice can still legitimately receive a payment. -/
def payableStatuses : List InvoiceStatus := [.pending, .detected, .confirming, .underpaid]

def isPayableStatus (status : InvoiceStatus) : Bool := decide (status ∈ payableStatuses)

/-- Why a detected on-chain transfer was or was not credited. -/
inductive TransferMatchStatus
  | credited | pendingConfirmation | latePaymentReview | unsupportedAsset | belowMinimum
  | unmatched | complianceHold | orphaned
  deriving DecidableEq, Repr

/-- Webhook event names, one per externally meaningful transition. -/
inductive WebhookEventType
  | paymentCreated | paymentDetected | paymentConfirming | paymentPaid | paymentUnderpaid
  | paymentOverpaid | paymentExpired | paymentCancelled | paymentRefunded
  deriving DecidableEq, Repr

namespace WebhookEventType

def name : WebhookEventType → String
  | paymentCreated => "payment.created"
  | paymentDetected => "payment.detected"
  | paymentConfirming => "payment.confirming"
  | paymentPaid => "payment.paid"
  | paymentUnderpaid => "payment.underpaid"
  | paymentOverpaid => "payment.overpaid"
  | paymentExpired => "payment.expired"
  | paymentCancelled => "payment.cancelled"
  | paymentRefunded => "payment.refunded"

end WebhookEventType

end PaymentGateway
