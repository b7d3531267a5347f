import Mathlib.Algebra.Ring.Int.Defs
import PaymentGateway.Lib.Table
import PaymentGateway.Shared.Asset
import PaymentGateway.Payments.StateMachine

/-!
# Rows and tables

The tables the payment services read and write, each with its unique key. A CHECK constraint of
the migrations is a field of its row, so a row that breaks it cannot be written. Where the source
refers to a row by a generated id and the row also has a natural unique key, the model refers to
it by that key: a transfer by network, hash and index, a chain transaction by network and hash, an
address by network and normalised form. Amounts are whole smallest units, times are milliseconds.
-/

namespace PaymentGateway

open Keyed

inductive UnderpaymentPolicy
  | reject | acceptPartial | requestAdditional | manualReview
  deriving DecidableEq, Repr

inductive OverpaymentPolicy
  | acceptFull | creditDifference | refundDifference | manualReview
  deriving DecidableEq, Repr

inductive AddressStatus
  | available | assigned | retired | blocked
  deriving DecidableEq, Repr

inductive ChainTxStatus
  | mempool | mined | confirmed | reverted | orphaned | replaced | dropped
  deriving DecidableEq, Repr

inductive LedgerAccountType
  | asset | liability | equity | revenue | expense
  deriving DecidableEq, Repr

inductive LedgerDirection
  | debit | credit
  deriving DecidableEq, Repr

inductive DiscrepancyKind
  | missingTransaction | duplicateTransaction | amountMismatch | destinationMismatch
  | assetMismatch | ledgerImbalance | settlementMismatch | orphanedCredit
  deriving DecidableEq, Repr

inductive DiscrepancySeverity
  | info | warning | critical
  deriving DecidableEq, Repr

/-! ## Merchants and addresses -/

/-- The columns of a merchant that the monitor and the invoices read. -/
structure Merchant where
  id : String
  underpaymentPolicy : UnderpaymentPolicy
  overpaymentPolicy : OverpaymentPolicy
  underpaymentToleranceBps : Int
  overpaymentToleranceBps : Int
  invoiceExpirySeconds : Int
  feeBps : Int
  /-- Per-network confirmation overrides. -/
  confirmationOverrides : List (Network × Int)
  fee_bps_sane : 0 ≤ feeBps ∧ feeBps ≤ 10000
  expiry_sane : 60 ≤ invoiceExpirySeconds ∧ invoiceExpirySeconds ≤ 604800
  tolerances_sane : (0 ≤ underpaymentToleranceBps ∧ underpaymentToleranceBps ≤ 10000) ∧
    0 ≤ overpaymentToleranceBps ∧ overpaymentToleranceBps ≤ 10000

structure AddressKey where
  network : Network
  /-- Lowercased (EVM) or canonical (Bitcoin) form. -/
  addressNormalized : String
  deriving DecidableEq, Repr

structure PaymentAddress where
  key : AddressKey
  merchantId : String
  address : String
  /-- `none` means any allowlisted asset on the network. -/
  assetSymbol : Option String
  status : AddressStatus
  /-- Set once an invoice is served; an address is never handed to a second one. -/
  invoiceId : Option String
  assignedAt : Option Int
  retiredAt : Option Int
  createdAt : Int
  deriving DecidableEq, Repr

/-! ## Invoices -/

/-- An invoice, with the terms it was created on. -/
structure Invoice where
  id : String
  merchantId : String
  orderId : String
  paymentAsset : String
  paymentDecimals : Nat
  network : Network
  /-- Token contract of the payment asset; `none` for a native coin. -/
  tokenContract : Option String
  cryptoAmount : Int
  underpaymentPolicy : UnderpaymentPolicy
  overpaymentPolicy : OverpaymentPolicy
  underpaymentToleranceBps : Int
  overpaymentToleranceBps : Int
  requiredConfirmations : Nat
  status : InvoiceStatus
  receivedAmount : Int
  confirmedAmount : Int
  confirmationCount : Nat
  expiresAt : Int
  detectedAt : Option Int
  paidAt : Option Int
  cancelledAt : Option Int
  expiredAt : Option Int
  version : Nat
  createdAt : Int
  crypto_amount_positive : 0 < cryptoAmount
  received_amount_non_negative : 0 ≤ receivedAmount
  confirmed_amount_non_negative : 0 ≤ confirmedAmount
  confirmed_not_above_received : confirmedAmount ≤ receivedAmount
  required_confirmations_positive : 0 < requiredConfirmations
  expiry_after_creation : createdAt < expiresAt
  tolerances_sane : (0 ≤ underpaymentToleranceBps ∧ underpaymentToleranceBps ≤ 10000) ∧
    0 ≤ overpaymentToleranceBps ∧ overpaymentToleranceBps ≤ 10000

/-- What one settlement writes into the amount columns. -/
structure SettledAmounts where
  /-- Both the received and the confirmed amount. -/
  total : Int
  confirmationCount : Nat
  total_non_negative : 0 ≤ total

/-- The `data` of an invoice update. The columns that price the invoice are not among them: the
migrations' trigger refuses to change those. -/
structure InvoiceData where
  status : Option InvoiceStatus := none
  amounts : Option SettledAmounts := none
  detectedAt : Option Int := none
  paidAt : Option Int := none
  cancelledAt : Option Int := none
  expiredAt : Option Int := none
  /-- `version: { increment: 1 }`. -/
  bumpVersion : Bool := false

namespace Invoice

/-- The three amounts are written together. -/
def writeAmounts (invoice : Invoice) : Option SettledAmounts → Invoice
  | none => invoice
  | some a => { invoice with
      receivedAmount := a.total
      confirmedAmount := a.total
      confirmationCount := a.confirmationCount
      received_amount_non_negative := a.total_non_negative
      confirmed_amount_non_negative := a.total_non_negative
      confirmed_not_above_received := le_rfl }

/-- A field that the update leaves out stays. -/
def update (invoice : Invoice) (data : InvoiceData) : Invoice :=
  { invoice.writeAmounts data.amounts with
    status := data.status.getD invoice.status
    detectedAt := data.detectedAt.or invoice.detectedAt
    paidAt := data.paidAt.or invoice.paidAt
    cancelledAt := data.cancelledAt.or invoice.cancelledAt
    expiredAt := data.expiredAt.or invoice.expiredAt
    version := if data.bumpVersion then invoice.version + 1 else invoice.version }

/-- What an invoice was priced and promised at; no update changes it. -/
structure Terms where
  id : String
  merchantId : String
  orderId : String
  paymentAsset : String
  paymentDecimals : Nat
  network : Network
  tokenContract : Option String
  cryptoAmount : Int
  underpaymentToleranceBps : Int
  overpaymentToleranceBps : Int
  requiredConfirmations : Nat
  expiresAt : Int
  deriving DecidableEq, Repr

def terms (invoice : Invoice) : Terms :=
  ⟨invoice.id, invoice.merchantId, invoice.orderId, invoice.paymentAsset,
    invoice.paymentDecimals, invoice.network, invoice.tokenContract, invoice.cryptoAmount,
    invoice.underpaymentToleranceBps, invoice.overpaymentToleranceBps,
    invoice.requiredConfirmations, invoice.expiresAt⟩

@[simp] theorem terms_update (invoice : Invoice) (data : InvoiceData) :
    (invoice.update data).terms = invoice.terms := by
  cases h : data.amounts <;> simp [update, writeAmounts, terms, h]

@[simp] theorem id_update (invoice : Invoice) (data : InvoiceData) :
    (invoice.update data).id = invoice.id := congrArg Terms.id (terms_update invoice data)

@[simp] theorem status_update (invoice : Invoice) (data : InvoiceData) :
    (invoice.update data).status = data.status.getD invoice.status := rfl

theorem receivedAmount_update (invoice : Invoice) (data : InvoiceData) :
    (invoice.update data).receivedAmount =
      (data.amounts.map (·.total)).getD invoice.receivedAmount := by
  cases h : data.amounts <;> simp [update, writeAmounts, h]

theorem confirmedAmount_update (invoice : Invoice) (data : InvoiceData) :
    (invoice.update data).confirmedAmount =
      (data.amounts.map (·.total)).getD invoice.confirmedAmount := by
  cases h : data.amounts <;> simp [update, writeAmounts, h]

end Invoice

/-- A row of the timeline of an invoice. -/
structure PaymentEvent where
  invoiceId : String
  /-- Sequential per invoice. -/
  sequence : Nat
  type : String
  fromStatus : Option InvoiceStatus
  toStatus : InvoiceStatus
  actor : String
  payload : List (String × String)
  sequence_positive : 1 ≤ sequence

/-- A row of the outbox. -/
structure WebhookEvent where
  idempotencyKey : String
  merchantId : String
  invoiceId : String
  type : WebhookEventType
  payload : List (String × String)
  deriving DecidableEq, Repr

/-! ## The chain as observed -/

structure TxKey where
  network : Network
  txHash : String
  deriving DecidableEq, Repr

/-- A transaction as it was last seen. -/
structure BlockchainTransaction where
  key : TxKey
  status : ChainTxStatus
  blockNumber : Option Nat
  blockHash : Option String
  fromAddress : Option String
  toAddress : Option String
  feeAmount : Option Nat
  confirmations : Nat
  minedAt : Option Int
  orphanedAt : Option Int
  deriving DecidableEq, Repr

/-- The idempotency constraint of crediting: one row for each of these, forever. -/
structure TransferKey where
  network : Network
  txHash : String
  /-- EVM: log index, or -1 for the native coin. Bitcoin: output index. -/
  transferIndex : Int
  deriving DecidableEq, Repr

def TransferKey.txKey (k : TransferKey) : TxKey := ⟨k.network, k.txHash⟩

/-- A single value movement inside a transaction. -/
structure TokenTransfer where
  key : TransferKey
  tokenContract : Option String
  assetSymbol : String
  assetDecimals : Nat
  amount : Int
  fromAddress : Option String
  toAddress : String
  toAddressNormalized : String
  paymentAddressId : Option AddressKey
  invoiceId : Option String
  matchStatus : TransferMatchStatus
  matchReason : String
  confirmations : Nat
  creditedAt : Option Int
  amount_positive : 0 < amount
  index_valid : -1 ≤ key.transferIndex

/-- How far a network has been scanned. -/
structure ChainCursor where
  network : Network
  /-- Last block fully processed and committed. -/
  lastProcessedBlock : Nat
  lastProcessedHash : Option String
  chainTipBlock : Option Nat
  lastReorgAt : Option Int
  lastReorgDepth : Option Nat
  deriving DecidableEq, Repr

/-! ## The ledger -/

structure LedgerAccount where
  code : String
  name : String
  type : LedgerAccountType
  merchantId : Option String
  assetSymbol : String
  assetDecimals : Nat
  network : Option Network
  deriving DecidableEq, Repr

/-- One side of a posting. -/
structure LedgerEntry where
  accountCode : String
  direction : LedgerDirection
  amount : Int
  assetSymbol : String
  assetDecimals : Nat
  invoiceId : String
  tokenTransferId : TransferKey
  amount_positive : 0 < amount

/-- Sum of one side of a posting in one asset. -/
def sideTotal (entries : List LedgerEntry) (direction : LedgerDirection) (symbol : String) : Int :=
  ((entries.filter fun e => e.direction = direction ∧ e.assetSymbol = symbol).map (·.amount)).sum

/-- The deferred trigger: at least two legs, and the two sides agree in every asset. -/
def LedgerBalanced (entries : List LedgerEntry) : Prop :=
  2 ≤ entries.length ∧
    ∀ e ∈ entries, sideTotal entries .debit e.assetSymbol = sideTotal entries .credit e.assetSymbol

instance (entries : List LedgerEntry) : Decidable (LedgerBalanced entries) := by
  unfold LedgerBalanced
  infer_instance

/-- A balanced group of entries. -/
structure LedgerTransaction where
  idempotencyKey : String
  type : String
  description : String
  invoiceId : Option String
  tokenTransferId : Option TransferKey
  entries : List LedgerEntry
  balanced : LedgerBalanced entries

/-- The amount a posting moves: the sum of its debits. -/
def LedgerTransaction.grossAmount (posting : LedgerTransaction) : Int :=
  ((posting.entries.filter fun e => e.direction = .debit).map (·.amount)).sum

/-! ## Reconciliation -/

/-- What a run has found. -/
structure ReconciliationRun where
  scope : String
  status : String
  period : Int
  checkedCount : Nat
  discrepancyCount : Nat
  deriving DecidableEq, Repr

structure ReconciliationDiscrepancy where
  /-- Position of its run. -/
  runId : Nat
  kind : DiscrepancyKind
  severity : DiscrepancySeverity
  subjectType : String
  subjectId : TransferKey
  invoiceId : String
  reason : String
  deriving DecidableEq, Repr

/-- One write of a status column, with what was stored and who wrote. -/
structure StatusWrite where
  invoiceId : String
  stored : InvoiceStatus
  written : InvoiceStatus
  writer : TransitionActor
  deriving DecidableEq, Repr

/-- The tables. -/
structure Db where
  merchants : Table Merchant (·.id)
  addresses : Table PaymentAddress (·.key)
  invoices : Table Invoice (·.id)
  events : Table PaymentEvent fun e => (e.invoiceId, e.sequence)
  webhookEvents : Table WebhookEvent (·.idempotencyKey)
  chainTxs : Table BlockchainTransaction (·.key)
  transfers : Table TokenTransfer (·.key)
  ledgerAccounts : Table LedgerAccount (·.code)
  ledgerTransactions : Table LedgerTransaction (·.idempotencyKey)
  reconciliationRuns : List ReconciliationRun
  discrepancies : List ReconciliationDiscrepancy
  cursors : Table ChainCursor (·.network)
  /-- Every status write so far, oldest first. The database has no such table: it is kept to
  state what the writers do, and nothing reads it. -/
  statusWrites : List StatusWrite

/-- The database after the migrations. -/
def Db.empty : Db where
  merchants := .empty
  addresses := .empty
  invoices := .empty
  events := .empty
  webhookEvents := .empty
  chainTxs := .empty
  transfers := .empty
  ledgerAccounts := .empty
  ledgerTransactions := .empty
  reconciliationRuns := []
  discrepancies := []
  cursors := .empty
  statusWrites := []

end PaymentGateway
