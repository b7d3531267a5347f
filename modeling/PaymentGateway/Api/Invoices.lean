import Mathlib.Data.List.Sort
import PaymentGateway.Database.Transition
import PaymentGateway.Payments.Confirmations
import PaymentGateway.Payments.Matcher

/-!
# The invoice API

Creation, expiry on read and cancellation. Cancelling is two steps: the first reads the invoice,
expiring it when it is due, and asserts the transition on what it read; the second is the write
transaction, which trusts the first. `CancelRead` is what the first hands to the second.
-/

namespace PaymentGateway

namespace InvoicesService

/-! ## Creation -/

/-- A creation request after validation and pricing. -/
structure CreateInvoice where
  invoiceId : String
  merchantId : String
  orderId : String
  network : Network
  asset : String
  cryptoAmount : Int
  invoiceMaxExpirySeconds : Int
  deriving DecidableEq, Repr

/-- The oldest free address of the merchant that takes the asset. -/
def freeAddress (db : Db) (merchantId : String) (network : Network) (symbol : String) :
    Option PaymentAddress :=
  ((db.addresses.rows.filter fun a => a.merchantId = merchantId ∧ a.key.network = network ∧
    a.status = .available ∧ (a.assetSymbol = none ∨ a.assetSymbol = some symbol)).mergeSort
      fun a b => decide (a.createdAt ≤ b.createdAt)).head?

/-- The row of a new invoice, unless a CHECK constraint refuses it. -/
def invoiceRow (request : CreateInvoice) (asset : AssetConfig) (merchant : Merchant)
    (requiredConfirmations : Nat) (now : Int) : Except Error Invoice :=
  let expirySeconds := min merchant.invoiceExpirySeconds request.invoiceMaxExpirySeconds
  if h : 0 < request.cryptoAmount ∧ 0 < requiredConfirmations ∧ now < now + expirySeconds * 1000
  then
    .ok {
      id := request.invoiceId
      merchantId := request.merchantId
      orderId := request.orderId
      paymentAsset := asset.symbol
      paymentDecimals := asset.decimals
      network := request.network
      tokenContract := asset.contractAddress
      cryptoAmount := request.cryptoAmount
      underpaymentPolicy := merchant.underpaymentPolicy
      overpaymentPolicy := merchant.overpaymentPolicy
      underpaymentToleranceBps := merchant.underpaymentToleranceBps
      overpaymentToleranceBps := merchant.overpaymentToleranceBps
      requiredConfirmations := requiredConfirmations
      status := .pending
      receivedAmount := 0
      confirmedAmount := 0
      confirmationCount := 0
      expiresAt := now + expirySeconds * 1000
      detectedAt := none
      paidAt := none
      cancelledAt := none
      expiredAt := none
      version := 0
      createdAt := now
      crypto_amount_positive := h.1
      received_amount_non_negative := le_rfl
      confirmed_amount_non_negative := le_rfl
      confirmed_not_above_received := le_rfl
      required_confirmations_positive := h.2.1
      expiry_after_creation := h.2.2
      tolerances_sane := merchant.tolerances_sane }
  else
    .error (.checkViolation "invoices")

def assign (invoiceId : String) (now : Int) (a : PaymentAddress) : PaymentAddress :=
  { a with status := .assigned, invoiceId := some invoiceId, assignedAt := some now }

theorem assign_key (invoiceId : String) (now : Int) (a : PaymentAddress) :
    (assign invoiceId now a).key = a.key := rfl

def assignAddress (db : Db) (address : PaymentAddress) (invoiceId : String) (now : Int) : Db :=
  { db with addresses :=
      db.addresses.modify address.key (assign invoiceId now) (assign_key invoiceId now) }

/-- The transaction of `createInvoice`: reserve an address, create the invoice and hand the
address out, and record both transitions. -/
def createInvoiceTransaction (db : Db) (invoice : Invoice) (now : Int) : Except Error Db := do
  match freeAddress db invoice.merchantId invoice.network invoice.paymentAsset with
  | none => .error (.app 422 ("no available deposit address for " ++ invoice.paymentAsset))
  | some address => do
    let _ ← assertTransition .created .pending .system
    let db ← db.createInvoice invoice
    let db := assignAddress db address invoice.id now
    let db ← db.createEvent ⟨invoice.id, 1, "invoice.created", none, .created, "system", [],
      le_rfl⟩
    let db ← db.createEvent ⟨invoice.id, 2, "payment.created", some .created, .pending, "system",
      [("address", address.address)], by decide⟩
    db.createWebhook (Db.webhookFor .paymentCreated invoice.merchantId invoice.id invoice.orderId)

def createInvoice (request : CreateInvoice) (now : Int) (db : Db) : Except Error Db := do
  match findAsset request.network request.asset with
  | none => .error (.app 400 ("asset " ++ request.asset ++ " is not supported"))
  | some asset => do
    let merchant ← db.findMerchant request.merchantId
    let required ← effectiveConfirmations asset.requiredConfirmations
      ((merchant.confirmationOverrides.find? fun o => o.1 = request.network).map (·.2))
    let invoice ← invoiceRow request asset merchant required now
    createInvoiceTransaction db invoice now

/-! ## Expiry on read -/

def mayExpire (invoice : Invoice) (now : Int) : Bool :=
  isActorAllowed invoice.status .expired .system && (evaluateExpiry invoice.expiresAt now).expired

/-- The transaction that expires an invoice found due. Its webhook is created, not upserted: an
invoice that has emitted one before cannot expire here. -/
def expireOnRead (invoice : Invoice) (now : Int) (db : Db) : Except Error Db := do
  let db ← db.applyTransition invoice.id invoice.status .expired .system
    { expiredAt := some now, bumpVersion := true } ⟨"payment.expired", "system", []⟩
  db.createWebhook
    (Db.webhookFor .paymentExpired invoice.merchantId invoice.id invoice.orderId)

/-- Load an invoice of a merchant, expiring it first when it is due. -/
def loadAndMaybeExpire (merchantId id : String) (now : Int) (db : Db) :
    Except Error (Db × Invoice) :=
  match (db.invoices.find? id).filter (·.merchantId = merchantId) with
  | none => .error (.notFound "invoice")
  | some invoice =>
    if mayExpire invoice now then do
      let db ← expireOnRead invoice now db
      let fresh ← db.findInvoice id
      return (db, fresh)
    else
      .ok (db, invoice)

/-! ## Cancellation -/

/-- What the first step of `cancelInvoice` has read. -/
structure CancelRead where
  merchantId : String
  invoice : Invoice
  paymentAddress : Option PaymentAddress

/-- The first step: load, and assert the transition on what was loaded. -/
def cancelRead (merchantId id : String) (now : Int) (db : Db) :
    Except Error (Db × CancelRead) := do
  let (db, invoice) ← loadAndMaybeExpire merchantId id now db
  let _ ← assertTransition invoice.status .cancelled .merchant
  return (db, ⟨merchantId, invoice, db.addresses.rows.find? fun a => a.invoiceId = some id⟩)

def retire (now : Int) (a : PaymentAddress) : PaymentAddress :=
  { a with status := .retired, retiredAt := some now }

theorem retire_key (now : Int) (a : PaymentAddress) : (retire now a).key = a.key := rfl

/-- Retired, never returned to the pool. -/
def retireAddress (db : Db) (address : Option PaymentAddress) (now : Int) : Except Error Db :=
  match address with
  | none => .ok db
  | some a =>
    match db.addresses.find? a.key with
    | none => .error (.recordNotFound "PaymentAddress")
    | some _ => .ok { db with
        addresses := db.addresses.modify a.key (retire now) (retire_key now) }

/-- The second step: the write transaction. It does not look at the stored status again. -/
def cancelWrite (read : CancelRead) (now : Int) (db : Db) : Except Error Db := do
  let db ← db.writeStatus read.invoice.id read.invoice.status .cancelled .merchant
    { cancelledAt := some now, bumpVersion := true }
    ⟨"payment.cancelled", "merchant:" ++ read.merchantId, []⟩
  let db ← retireAddress db read.paymentAddress now
  db.createWebhook
    (Db.webhookFor .paymentCancelled read.merchantId read.invoice.id read.invoice.orderId)

end InvoicesService

end PaymentGateway
