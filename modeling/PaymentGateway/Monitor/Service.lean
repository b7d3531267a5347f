import Mathlib.Algebra.Order.BigOperators.Group.List
import PaymentGateway.Lib.Execution
import PaymentGateway.Blockchain.Adapter
import PaymentGateway.Database.Transition
import PaymentGateway.Ledger.Posting
import PaymentGateway.Payments.Confirmations
import PaymentGateway.Payments.Evaluation

/-!
# The monitor

Detection, confirmation, settlement and reorg handling. `processTransaction` is one database
transaction; `updateConfirmations` and `handleReorg` read a list and then run one transaction for
each of its elements, so they are executions: what they have committed before a failure stays.

The status changes of the monitor, settlement apart, are one definition, `moveInvoice`: look for
the edge with `canTransition`, do nothing without it, else assert the transition as the monitor,
write the status, bump the version, record the event and, for some, emit the webhook.
-/

namespace PaymentGateway

open Keyed Transactional

namespace MonitorService

/-- Check the edge, pass the gate, write, record. `invoice` is the row as this transaction read
it. -/
def moveInvoice (db : Db) (invoice : Invoice) (target : InvoiceStatus) (data : InvoiceData)
    (eventType : String) (notify : Bool) : Except Error Db :=
  if !canTransition invoice.status target then
    .ok db
  else do
    let db ← db.applyTransition invoice.id invoice.status target .monitor
      { data with bumpVersion := true } ⟨eventType, "monitor", []⟩
    if notify then db.emitWebhook invoice.id target else .ok db

/-! ## Detection and matching -/

def chainTxStatus (chainTx : ChainTransaction) : ChainTxStatus :=
  if chainTx.status = .reverted then .reverted
  else if chainTx.blockNumber = none then .mempool
  else .mined

def recordChainTransaction (db : Db) (network : Network) (chainTx : ChainTransaction)
    (now : Int) : Db :=
  match db.chainTxs.find? ⟨network, chainTx.hash⟩ with
  | some existing => db.upsertChainTx { existing with
      key := ⟨network, chainTx.hash⟩
      status := chainTxStatus chainTx
      blockNumber := chainTx.blockNumber
      blockHash := chainTx.blockHash
      confirmations := chainTx.confirmations
      minedAt := if chainTx.blockNumber ≠ none then existing.minedAt.or (some now) else none }
  | none => db.upsertChainTx {
      key := ⟨network, chainTx.hash⟩
      status := chainTxStatus chainTx
      blockNumber := chainTx.blockNumber
      blockHash := chainTx.blockHash
      fromAddress := chainTx.fromAddress
      toAddress := chainTx.toAddress
      feeAmount := chainTx.feeAmount
      confirmations := chainTx.confirmations
      minedAt := if chainTx.blockNumber ≠ none then some now else none
      orphanedAt := none }

/-- One sighting of one transfer: where, in which transaction, when and with which grace. -/
structure Sighting where
  network : Network
  chainTx : ChainTransaction
  transfer : ParsedTransfer
  graceSeconds : Nat
  now : Int

namespace Sighting

def key (s : Sighting) : TransferKey := ⟨s.network, s.chainTx.hash, s.transfer.transferIndex⟩

def asset (s : Sighting) : Option AssetConfig :=
  resolveTransferAsset s.network s.transfer.tokenContract

/-- The invoice whose address received the transfer. The asset plays no part in finding it. -/
def invoice (s : Sighting) (db : Db) : Option Invoice :=
  (db.findAddress s.network s.transfer.toAddress).bind fun address =>
    address.invoiceId.bind db.invoices.find?

/-- Expiry is judged against the deadline, not read off the status. -/
def matchInput (s : Sighting) (db : Db) : MatchInput where
  assetRecognized := s.asset.isSome
  meetsMinimum := s.asset.any fun a => decide (s.transfer.amount ≥ a.minDepositUnits)
  txStatus := s.chainTx.status
  invoiceStatus := (s.invoice db).map (·.status)
  invoiceExpired := (s.invoice db).any fun i => !isWithinGrace i.expiresAt s.now s.graceSeconds
  alreadyCredited := false
  complianceHold := false

def decision (s : Sighting) (db : Db) : MatchDecision := evaluateTransferMatch (s.matchInput db)

/-- The row to write, which the CHECK constraints on amount and index may refuse. -/
def row (s : Sighting) (db : Db) : Except Error TokenTransfer :=
  if h : 0 < s.transfer.amount ∧ -1 ≤ s.transfer.transferIndex then
    .ok {
      key := s.key
      tokenContract := s.transfer.tokenContract
      assetSymbol := s.asset.elim "UNKNOWN" (·.symbol)
      assetDecimals := s.asset.elim 0 (·.decimals)
      amount := s.transfer.amount
      fromAddress := s.transfer.fromAddress
      toAddress := s.transfer.toAddress
      toAddressNormalized := s.transfer.toAddress
      paymentAddressId := (db.findAddress s.network s.transfer.toAddress).map (·.key)
      invoiceId := (s.invoice db).map (·.id)
      matchStatus := (s.decision db).status
      matchReason := (s.decision db).reason
      confirmations := s.chainTx.confirmations
      creditedAt := none
      amount_positive := h.1
      index_valid := h.2 }
  else
    .error (.checkViolation "token_transfers_amount_positive")

end Sighting

/-- PENDING -> DETECTED the first time a matching transfer appears. -/
def advanceOnFirstSighting (db : Db) (invoice : Invoice) (now : Int) : Except Error Db :=
  moveInvoice db invoice .detected { detectedAt := some now } "transfer.detected" true

def moveToLatePaymentReview (db : Db) (invoice : Invoice) : Except Error Db :=
  moveInvoice db invoice .latePaymentReview {} "payment.late_arrival" false

def recordTransfer (db : Db) (s : Sighting) : Except Error Db :=
  -- Idempotent replay: the classification of a credited transfer never changes.
  if ((db.transfers.find? s.key).bind (·.creditedAt)).isSome then
    .ok db
  else do
    let row ← s.row db
    match s.invoice db with
    | none => return db.upsertTransfer row
    | some invoice =>
      match (s.decision db).status with
      | .pendingConfirmation => advanceOnFirstSighting (db.upsertTransfer row) invoice s.now
      | .latePaymentReview => moveToLatePaymentReview (db.upsertTransfer row) invoice
      | _ => return db.upsertTransfer row

/-- The transaction of `processTransaction`. -/
def recordTransfers (network : Network) (chainTx : ChainTransaction)
    (transfers : List ParsedTransfer) (graceSeconds : Nat) (now : Int) (db : Db) :
    Except Error Db :=
  transfers.foldlM
    (fun db transfer => recordTransfer db ⟨network, chainTx, transfer, graceSeconds, now⟩)
    (recordChainTransaction db network chainTx now)

/-- Fetch a transaction afresh and record every transfer it contains. -/
def processTransaction (adapter : BlockchainAdapter) (network : Network) (txHash : String)
    (graceSeconds : Nat) (now : Int) (db : Db) : Execution Db Error :=
  match adapter.getTransaction txHash with
  | .error e => .failed e
  | .ok none => .unchanged
  | .ok (some chainTx) =>
    match adapter.getTransfers txHash with
    | .error e => .failed e
    | .ok [] => .unchanged
    | .ok (transfer :: transfers) =>
      exec (recordTransfers network chainTx (transfer :: transfers) graceSeconds now) db

/-! ## Settlement -/

/-- The transfers matched to an invoice that may count: credited or awaiting confirmation. -/
def confirmedTransfers (db : Db) (invoiceId : String) : List TokenTransfer :=
  db.transfers.rows.filter fun t => t.invoiceId = some invoiceId ∧
    (t.matchStatus = .credited ∨ t.matchStatus = .pendingConfirmation)

/-- Those of them that have reached the invoice's threshold, by the count stored in their row. -/
def countedTransfers (db : Db) (invoice : Invoice) : List TokenTransfer :=
  (confirmedTransfers db invoice.id).filter fun t =>
    t.confirmations ≥ invoice.requiredConfirmations

def totalAmount (transfers : List TokenTransfer) : Int := (transfers.map (·.amount)).sum

theorem totalAmount_nonneg (transfers : List TokenTransfer) : 0 ≤ totalAmount transfers := by
  refine List.sum_nonneg ?_
  intro a ha
  obtain ⟨t, -, rfl⟩ := List.mem_map.1 ha
  exact t.amount_positive.le

theorem totalAmount_pos {transfers : List TokenTransfer} {t : TokenTransfer}
    (h : t ∈ transfers) : 0 < totalAmount transfers := by
  cases transfers with
  | nil => exact absurd h List.not_mem_nil
  | cons first rest =>
    have hfirst := first.amount_positive
    have hrest := totalAmount_nonneg rest
    show 0 < first.amount + totalAmount rest
    omega

def maxConfirmations (transfers : List TokenTransfer) : Nat :=
  (transfers.map (·.confirmations)).foldr max 0

def isFinalizable (status : InvoiceStatus) : Bool :=
  canTransition status .paid || canTransition status .underpaid || canTransition status .overpaid

/-- Whether the merchant's current policy lands a settled invoice on PAID. -/
def autoAccept (merchant : Merchant) (target : InvoiceStatus) : Bool :=
  decide (target = .paid) ||
    (decide (target = .overpaid) && decide (merchant.overpaymentPolicy = .acceptFull)) ||
    (decide (target = .underpaid) && decide (merchant.underpaymentPolicy = .acceptPartial))

def creditKey (k : TransferKey) : String :=
  "credit:" ++ k.network.name ++ ":" ++ k.txHash ++ ":" ++ toString k.transferIndex

/-- The amount of every counted transfer is posted in the asset of the invoice. -/
def creditParams (invoice : Invoice) (merchant : Merchant) (t : TokenTransfer) :
    PostPaymentCreditParams where
  merchantId := invoice.merchantId
  invoiceId := invoice.id
  tokenTransferId := t.key
  network := invoice.network
  assetSymbol := invoice.paymentAsset
  assetDecimals := invoice.paymentDecimals
  grossAmount := Money.fromUnits t.amount invoice.paymentAsset invoice.paymentDecimals
  feeBps := merchant.feeBps
  idempotencyKey := creditKey t.key

def creditTransfer (invoice : Invoice) (merchant : Merchant) (now : Int) (db : Db)
    (t : TokenTransfer) : Except Error Db := do
  let (db, result) ← postPaymentCredit db (creditParams invoice merchant t)
  if result.alreadyPosted then .ok db else db.markCredited t.key now

def creditTransfers (invoice : Invoice) (merchant : Merchant) (now : Int) (db : Db)
    (transfers : List TokenTransfer) : Except Error Db :=
  transfers.foldlM (creditTransfer invoice merchant now) db

/-- Record which policy accepted the discrepancy. -/
def acceptedVia (target : InvoiceStatus) : String :=
  if target = .overpaid then "overpayment_policy:ACCEPT_FULL"
  else "underpayment_policy:ACCEPT_PARTIAL"

/-- Land on PAID: by a second transition under the merchant's policy, or by a date alone. -/
def acceptPayment (db : Db) (invoice : Invoice) (target : InvoiceStatus) (now : Int) :
    Except Error Db :=
  if target ≠ .paid then do
    let db ← db.applyTransition invoice.id target .paid .monitor { paidAt := some now }
      ⟨"payment.paid", "monitor", [("acceptedVia", acceptedVia target)]⟩
    db.emitWebhook invoice.id .paid
  else
    db.updateInvoice invoice.id .monitor { paidAt := some now }

/-- The writing half of `finalizeInvoice`. -/
def settleInvoice (db : Db) (invoice : Invoice) (merchant : Merchant) (target : InvoiceStatus)
    (now : Int) : Except Error Db := do
  let confirmed := confirmedTransfers db invoice.id
  let counted := countedTransfers db invoice
  let db ← db.applyTransition invoice.id invoice.status target .monitor
    { amounts :=
        some ⟨totalAmount counted, maxConfirmations confirmed, totalAmount_nonneg counted⟩ }
    ⟨"payment." ++ toLowerCase target.name, "monitor", []⟩
  let db ← db.emitWebhook invoice.id target
  if !autoAccept merchant target then
    .ok db
  else do
    let db ← acceptPayment db invoice target now
    creditTransfers invoice merchant now db counted

def evaluationInput (invoice : Invoice) (total : Int) : EvaluatePaymentInput where
  required := Money.fromUnits invoice.cryptoAmount invoice.paymentAsset invoice.paymentDecimals
  received := Money.fromUnits total invoice.paymentAsset invoice.paymentDecimals
  underpaymentToleranceBps := some invoice.underpaymentToleranceBps
  overpaymentToleranceBps := some invoice.overpaymentToleranceBps

/-- Sum what has reached its threshold, evaluate it against what the invoice asked for, and
settle. The guards ask whether an edge exists, not whether the monitor may take it. -/
def finalizeInvoice (db : Db) (invoiceId : String) (now : Int) : Except Error Db := do
  let invoice ← db.findInvoice invoiceId
  if !isFinalizable invoice.status then
    .ok db
  else if totalAmount (countedTransfers db invoice) = 0 then
    .ok db
  else do
    let merchant ← db.findMerchant invoice.merchantId
    let evaluation ←
      evaluatePayment (evaluationInput invoice (totalAmount (countedTransfers db invoice)))
    match statusForOutcome evaluation.outcome with
    | none => .ok db
    | some target =>
      if !canTransition invoice.status target then .ok db
      else settleInvoice db invoice merchant target now

/-! ## Confirmations -/

/-- DETECTED -> CONFIRMING once the transfer has at least one confirmation. -/
def advanceConfirming (db : Db) (invoice : Invoice) (confirmations : Nat) : Except Error Db :=
  if confirmations < 1 then .ok db
  else moveInvoice db invoice .confirming {} "confirmation.started" true

/-- The transaction `updateConfirmations` runs for one pending transfer, as it was read before
the loop. -/
def confirmTransfer (transfer : TokenTransfer) (info : ConfirmationInfo) (now : Int) (db : Db) :
    Except Error Db := do
  let db ← db.setConfirmations transfer.key info.confirmations
  match transfer.invoiceId with
  | none => .ok db
  | some invoiceId => do
    let invoice ← db.findInvoice invoiceId
    let db ← advanceConfirming db invoice info.confirmations
    let required ← effectiveConfirmations invoice.requiredConfirmations none
    let confirmed ← isConfirmed info.confirmations required
    if confirmed then finalizeInvoice db invoice.id now else .ok db

/-- The transfers still awaiting confirmations. -/
def pendingTransfers (db : Db) (network : Network) : List TokenTransfer :=
  db.transfers.rows.filter fun t =>
    t.key.network = network ∧ t.matchStatus = .pendingConfirmation ∧ t.creditedAt = none

/-- Ask the adapter about one pending transfer and record the answer. -/
def updateConfirmation (adapter : BlockchainAdapter) (now : Int) (transfer : TokenTransfer)
    (db : Db) : Except Error Db := do
  let info ← adapter.getConfirmations transfer.key.txHash
  confirmTransfer transfer info now db

def updateConfirmations (adapter : BlockchainAdapter) (network : Network) (now : Int) (db : Db) :
    Execution Db Error :=
  execAll ((pendingTransfers db network).map (updateConfirmation adapter now)) db

/-! ## Reorg handling -/

def revertInvoiceAfterOrphan (db : Db) (invoiceId : String) : Except Error Db := do
  let invoice ← db.findInvoice invoiceId
  let remaining := db.transfers.rows.filter fun t =>
    t.invoiceId = some invoiceId ∧ t.matchStatus = .pendingConfirmation
  moveInvoice db invoice (if remaining.length > 0 then .detected else .pending) {}
    "reorg.reverted" false

def recordOrphanedCredit (db : Db) (transferId : TransferKey) (invoiceId : String) (now : Int) :
    Db :=
  { db with
    reconciliationRuns := db.reconciliationRuns ++
      [⟨"chain_vs_db", "DISCREPANCIES_FOUND", now, 1, 1⟩]
    discrepancies := db.discrepancies ++
      [⟨db.reconciliationRuns.length, .orphanedCredit, .critical, "token_transfer", transferId,
        invoiceId, "crediting transaction was orphaned by a chain reorganisation"⟩] }

/-- A credit whose transfer is gone. Unlike the other moves, this one records more than its event
once the status has changed, and nothing at all when it has not. -/
def flagOrphanedCredit (db : Db) (transferId : TransferKey) (invoiceId : Option String)
    (now : Int) : Except Error Db :=
  match invoiceId with
  | none => .ok db
  | some invoiceId => do
    let invoice ← db.findInvoice invoiceId
    if !canTransition invoice.status .reconciliationRequired then
      .ok db
    else do
      let db ← moveInvoice db invoice .reconciliationRequired {} "reorg.orphaned_credit" false
      return recordOrphanedCredit db transferId invoiceId now

def orphanTransfer (now : Int) (db : Db) (t : TokenTransfer) : Except Error Db :=
  if t.creditedAt.isSome then
    flagOrphanedCredit db t.key t.invoiceId now
  else do
    let db ← db.markOrphaned t.key
    match t.invoiceId with
    | none => .ok db
    | some invoiceId => revertInvoiceAfterOrphan db invoiceId

def markTxOrphaned (db : Db) (key : TxKey) (now : Int) : Except Error Db :=
  match db.chainTxs.find? key with
  | none => .error (.recordNotFound "BlockchainTransaction")
  | some _ => .ok { db with
      chainTxs := db.chainTxs.modify key
        (fun row => { row with status := .orphaned, orphanedAt := some now }) fun _ => rfl }

def transfersOf (db : Db) (key : TxKey) : List TokenTransfer :=
  db.transfers.rows.filter fun t => t.key.txKey = key

/-- The transaction `handleReorg` runs for one orphaned chain transaction. -/
def orphanTransaction (key : TxKey) (now : Int) (db : Db) : Except Error Db := do
  let db ← markTxOrphaned db key now
  (transfersOf db key).foldlM (orphanTransfer now) db

/-- Every transaction that was mined at or above `fromBlock`. -/
def orphanedTxs (db : Db) (network : Network) (fromBlock : Nat) : List BlockchainTransaction :=
  db.chainTxs.rows.filter fun row => row.key.network = network ∧
    row.blockNumber.any (fun b => decide (fromBlock ≤ b)) ∧
    (row.status = .mined ∨ row.status = .confirmed)

def handleReorg (network : Network) (fromBlock : Nat) (now : Int) (db : Db) :
    Execution Db Error :=
  execAll ((orphanedTxs db network fromBlock).map fun row => orphanTransaction row.key now) db

end MonitorService

end PaymentGateway
