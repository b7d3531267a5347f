import Mathlib.Data.List.Sort
import PaymentGateway.Lib.Execution
import PaymentGateway.Database.Transition
import PaymentGateway.Payments.Matcher

/-!
# The expiry sweep

Invoices past their deadline, oldest deadline first, one transaction each. Only PENDING and
UNDERPAID are the system's to expire, and each transaction asks again whether its invoice still
is one of them.
-/

namespace PaymentGateway

open Transactional

namespace ExpirySweep

def sweepableStatuses : List InvoiceStatus := [.pending, .underpaid]

def mayExpire (invoice : Invoice) (now : Int) : Bool :=
  isActorAllowed invoice.status .expired .system && (evaluateExpiry invoice.expiresAt now).expired

def expireOne (invoiceId : String) (now : Int) (db : Db) : Except Error Db := do
  let invoice ← db.findInvoice invoiceId
  if !mayExpire invoice now then
    .ok db
  else do
    let db ← db.applyTransition invoiceId invoice.status .expired .system
      { expiredAt := some now, bumpVersion := true } ⟨"payment.expired", "system:worker", []⟩
    return db.upsertWebhook
      (Db.webhookFor .paymentExpired invoice.merchantId invoiceId invoice.orderId)

def candidates (db : Db) (batchSize : Nat) (now : Int) : List Invoice :=
  ((db.invoices.rows.filter fun i => i.status ∈ sweepableStatuses ∧ i.expiresAt ≤ now).mergeSort
    fun a b => decide (a.expiresAt ≤ b.expiresAt)).take batchSize

def sweepExpiredInvoices (batchSize : Nat) (now : Int) (db : Db) : Execution Db Error :=
  execAll ((candidates db batchSize now).map fun i => expireOne i.id now) db

end ExpirySweep

end PaymentGateway
