import PaymentGateway.Monitor.Service
import PaymentGateway.Worker.ExpirySweep
import PaymentGateway.Api.Invoices

/-!
# Operations and runs

Everything that writes the payment tables, as a machine on one database. A `Transaction` is what
commits or rolls back whole; an `Operation` reads the database, and the chain where it needs it,
and prepares the transactions it will run.

* `Operation.script` — what an operation prepares; `run_updateConfirmations` and its siblings say
  that running the script is running the service's own function.
* `gateway` — the machine, and `Operation.run` its executions.
* `Operation.Automatic` — the monitor, the sweep, reads, and the environment around them, but no
  person who moves an invoice and no cancellation.
-/

namespace PaymentGateway

open Transactional

/-! ## The environment -/

namespace Environment

def registerMerchant (merchant : Merchant) (db : Db) : Except Error Db :=
  match h : db.merchants.find? merchant.id with
  | some _ => .error (.uniqueViolation "Merchant")
  | none => .ok { db with merchants := db.merchants.insert merchant h }

def withSettings (settings : Merchant) (m : Merchant) : Merchant := { settings with id := m.id }

theorem withSettings_id (settings m : Merchant) : (withSettings settings m).id = m.id := rfl

/-- A merchant's settings may change at any time. -/
def updateMerchant (settings : Merchant) (db : Db) : Except Error Db :=
  match db.merchants.find? settings.id with
  | none => .error (.recordNotFound "Merchant")
  | some _ => .ok { db with
      merchants := db.merchants.modify settings.id (withSettings settings)
        (withSettings_id settings) }

/-- A deposit address enters the pool. -/
def registerAddress (merchantId : String) (key : AddressKey) (address : String)
    (assetSymbol : Option String) (now : Int) (db : Db) : Except Error Db :=
  match h : db.addresses.find? key with
  | some _ => .error (.uniqueViolation "PaymentAddress")
  | none => .ok { db with
      addresses := db.addresses.insert
        ⟨key, merchantId, address, assetSymbol, .available, none, none, none, now⟩ h }

/-- Any edge of the transition table, taken by an actor it allows. -/
def takeEdge (invoiceId : String) (target : InvoiceStatus) (actor : TransitionActor) (db : Db) :
    Except Error Db := do
  let invoice ← db.findInvoice invoiceId
  db.applyTransition invoiceId invoice.status target actor { bumpVersion := true }
    ⟨"status.changed", actor.name, []⟩

end Environment

/-! ## Transactions -/

inductive Transaction
  | recordTransfers (network : Network) (chainTx : ChainTransaction)
      (transfers : List ParsedTransfer) (graceSeconds : Nat) (now : Int)
  | confirmTransfer (transfer : TokenTransfer) (info : ConfirmationInfo) (now : Int)
  | orphanTransaction (key : TxKey) (now : Int)
  | expireOne (invoiceId : String) (now : Int)
  | loadAndMaybeExpire (merchantId invoiceId : String) (now : Int)
  | cancelWrite (read : InvoicesService.CancelRead) (now : Int)
  | createInvoice (request : InvoicesService.CreateInvoice) (now : Int)
  | registerMerchant (merchant : Merchant)
  | updateMerchant (settings : Merchant)
  | registerAddress (merchantId : String) (key : AddressKey) (address : String)
      (assetSymbol : Option String) (now : Int)
  | takeEdge (invoiceId : String) (target : InvoiceStatus) (actor : TransitionActor)

namespace Transaction

/-- Expiry on read, without the row it returns. -/
def load (merchantId invoiceId : String) (now : Int) (db : Db) : Except Error Db :=
  (InvoicesService.loadAndMaybeExpire merchantId invoiceId now db).map (·.1)

def apply : Transaction → Db → Except Error Db
  | recordTransfers network chainTx transfers graceSeconds now =>
    MonitorService.recordTransfers network chainTx transfers graceSeconds now
  | confirmTransfer transfer info now => MonitorService.confirmTransfer transfer info now
  | orphanTransaction key now => MonitorService.orphanTransaction key now
  | expireOne invoiceId now => ExpirySweep.expireOne invoiceId now
  | loadAndMaybeExpire merchantId invoiceId now => load merchantId invoiceId now
  | cancelWrite read now => InvoicesService.cancelWrite read now
  | createInvoice request now => InvoicesService.createInvoice request now
  | registerMerchant merchant => Environment.registerMerchant merchant
  | updateMerchant settings => Environment.updateMerchant settings
  | registerAddress merchantId key address assetSymbol now =>
    Environment.registerAddress merchantId key address assetSymbol now
  | takeEdge invoiceId target actor => Environment.takeEdge invoiceId target actor

/-- Transactions no person issues, creation and registration apart. -/
def Automatic : Transaction → Prop
  | cancelWrite _ _ | takeEdge _ _ _ => False
  | _ => True

end Transaction

/-! ## Operations -/

inductive Operation
  | processTransaction (adapter : BlockchainAdapter) (network : Network) (txHash : String)
      (graceSeconds : Nat) (now : Int)
  | updateConfirmations (adapter : BlockchainAdapter) (network : Network) (now : Int)
  | handleReorg (network : Network) (fromBlock : Nat) (now : Int)
  | sweepExpiredInvoices (batchSize : Nat) (now : Int)
  | loadAndMaybeExpire (merchantId invoiceId : String) (now : Int)
  | cancelInvoice (merchantId invoiceId : String) (now : Int)
  | createInvoice (request : InvoicesService.CreateInvoice) (now : Int)
  | registerMerchant (merchant : Merchant)
  | updateMerchant (settings : Merchant)
  | registerAddress (merchantId : String) (key : AddressKey) (address : String)
      (assetSymbol : Option String) (now : Int)
  | takeEdge (invoiceId : String) (target : InvoiceStatus) (actor : TransitionActor)

namespace Operation

/-- What `processTransaction` prepares from the adapter's two answers. -/
def processScript (adapter : BlockchainAdapter) (network : Network) (txHash : String)
    (graceSeconds : Nat) (now : Int) : List (Except Error Transaction) :=
  match adapter.getTransaction txHash with
  | .error e => [.error e]
  | .ok none => []
  | .ok (some chainTx) =>
    match adapter.getTransfers txHash with
    | .error e => [.error e]
    | .ok [] => []
    | .ok (transfer :: transfers) =>
      [.ok (.recordTransfers network chainTx (transfer :: transfers) graceSeconds now)]

/-- The second transaction of a cancellation whose first step found what it found. -/
def cancelScript (merchantId invoiceId : String) (now : Int) (db : Db) :
    Except Error Transaction :=
  (InvoicesService.cancelRead merchantId invoiceId now db).map fun r => .cancelWrite r.2 now

def script : Operation → Db → List (Except Error Transaction)
  | processTransaction adapter network txHash graceSeconds now, _ =>
    processScript adapter network txHash graceSeconds now
  | updateConfirmations adapter network now, db =>
    (MonitorService.pendingTransfers db network).map fun t =>
      (adapter.getConfirmations t.key.txHash).map (.confirmTransfer t · now)
  | handleReorg network fromBlock now, db =>
    (MonitorService.orphanedTxs db network fromBlock).map fun row =>
      .ok (.orphanTransaction row.key now)
  | sweepExpiredInvoices batchSize now, db =>
    (ExpirySweep.candidates db batchSize now).map fun i => .ok (.expireOne i.id now)
  | loadAndMaybeExpire merchantId invoiceId now, _ =>
    [.ok (.loadAndMaybeExpire merchantId invoiceId now)]
  | cancelInvoice merchantId invoiceId now, db =>
    [.ok (.loadAndMaybeExpire merchantId invoiceId now), cancelScript merchantId invoiceId now db]
  | createInvoice request now, _ => [.ok (.createInvoice request now)]
  | registerMerchant merchant, _ => [.ok (.registerMerchant merchant)]
  | updateMerchant settings, _ => [.ok (.updateMerchant settings)]
  | registerAddress merchantId key address assetSymbol now, _ =>
    [.ok (.registerAddress merchantId key address assetSymbol now)]
  | takeEdge invoiceId target actor, _ => [.ok (.takeEdge invoiceId target actor)]

def Automatic : Operation → Prop
  | cancelInvoice _ _ _ | takeEdge _ _ _ => False
  | _ => True

instance : DecidablePred Automatic := fun op => by
  cases op <;> unfold Automatic <;> infer_instance

end Operation

/-- The payment services as one machine. -/
def gateway : Machine Db Error Transaction Operation := ⟨Transaction.apply, Operation.script⟩

def Operation.run (op : Operation) (db : Db) : Execution Db Error := gateway.run op db

/-! ## Scripts run as the services do -/

theorem run_processTransaction (adapter : BlockchainAdapter) (network : Network) (txHash : String)
    (graceSeconds : Nat) (now : Int) (db : Db) :
    (Operation.processTransaction adapter network txHash graceSeconds now).run db =
      MonitorService.processTransaction adapter network txHash graceSeconds now db := by
  show execAll ((Operation.processScript adapter network txHash graceSeconds now).map
    gateway.step) db = _
  unfold Operation.processScript MonitorService.processTransaction
  cases adapter.getTransaction txHash with
  | error e => rfl
  | ok found =>
    cases found with
    | none => rfl
    | some chainTx =>
      cases adapter.getTransfers txHash with
      | error e => rfl
      | ok transfers =>
        cases transfers with
        | nil => rfl
        | cons transfer transfers => exact execAll_singleton _ _

theorem run_updateConfirmations (adapter : BlockchainAdapter) (network : Network) (now : Int)
    (db : Db) : (Operation.updateConfirmations adapter network now).run db =
      MonitorService.updateConfirmations adapter network now db := by
  show execAll (((MonitorService.pendingTransfers db network).map _).map gateway.step) db = _
  rw [List.map_map, MonitorService.updateConfirmations]
  congr 1
  refine List.map_congr_left fun t _ => funext fun db => ?_
  show gateway.step ((adapter.getConfirmations t.key.txHash).map _) db =
    MonitorService.updateConfirmation adapter now t db
  unfold MonitorService.updateConfirmation
  cases adapter.getConfirmations t.key.txHash <;> rfl

theorem run_handleReorg (network : Network) (fromBlock : Nat) (now : Int) (db : Db) :
    (Operation.handleReorg network fromBlock now).run db =
      MonitorService.handleReorg network fromBlock now db := by
  show execAll (((MonitorService.orphanedTxs db network fromBlock).map _).map gateway.step) db = _
  rw [List.map_map]
  rfl

theorem run_sweepExpiredInvoices (batchSize : Nat) (now : Int) (db : Db) :
    (Operation.sweepExpiredInvoices batchSize now).run db =
      ExpirySweep.sweepExpiredInvoices batchSize now db := by
  show execAll (((ExpirySweep.candidates db batchSize now).map _).map gateway.step) db = _
  rw [List.map_map]
  rfl

/-- An automatic operation prepares automatic transactions. -/
theorem automatic_script {op : Operation} (db : Db) (hop : op.Automatic) (t : Transaction)
    (ht : Except.ok t ∈ op.script db) : t.Automatic := by
  cases op with
  | processTransaction adapter network txHash graceSeconds now =>
    simp only [Operation.script, Operation.processScript] at ht
    split at ht
    · simp at ht
    · simp at ht
    · split at ht
      · simp at ht
      · simp at ht
      · rw [List.mem_singleton] at ht
        cases ht
        trivial
  | updateConfirmations adapter network now =>
    obtain ⟨transfer, -, h⟩ := List.mem_map.1 ht
    cases hc : adapter.getConfirmations transfer.key.txHash with
    | error e => rw [hc] at h; cases h
    | ok info => rw [hc] at h; cases h; trivial
  | handleReorg network fromBlock now =>
    obtain ⟨row, -, h⟩ := List.mem_map.1 ht
    cases h
    trivial
  | sweepExpiredInvoices batchSize now =>
    obtain ⟨invoice, -, h⟩ := List.mem_map.1 ht
    cases h
    trivial
  | cancelInvoice merchantId invoiceId now => exact hop.elim
  | takeEdge invoiceId target actor => exact hop.elim
  | loadAndMaybeExpire _ _ _ => cases List.mem_singleton.1 ht; trivial
  | createInvoice _ _ => cases List.mem_singleton.1 ht; trivial
  | registerMerchant _ => cases List.mem_singleton.1 ht; trivial
  | updateMerchant _ => cases List.mem_singleton.1 ht; trivial
  | registerAddress _ _ _ _ _ => cases List.mem_singleton.1 ht; trivial

/-! ## A shop with one invoice

The setting in which later modules run the gateway on fixed inputs: one merchant, one deposit
address on Ethereum and one invoice over 100 USDT that waits for 12 confirmations. -/

namespace Shop

def merchant : Merchant where
  id := "shop"
  underpaymentPolicy := .reject
  overpaymentPolicy := .acceptFull
  underpaymentToleranceBps := 0
  overpaymentToleranceBps := 0
  invoiceExpirySeconds := 900
  feeBps := 100
  confirmationOverrides := []
  fee_bps_sane := by decide
  expiry_sane := by decide
  tolerances_sane := by decide

def usdt : String := "0xdac17f958d2ee523a2206206994597c13d831ec7"

/-- Everything up to the open invoice. -/
def opening : List Operation := [
  .registerMerchant merchant,
  .registerAddress "shop" ⟨.ethereum, "0xpay"⟩ "0xPay" none 0,
  .createInvoice ⟨"i", "shop", "o", .ethereum, "USDT", 100000000, 3600⟩ 0]

/-- A successful transaction in a block. -/
def mined (hash : String) (block confirmations : Nat) : ChainTransaction :=
  ⟨hash, some block, some "block", .success, some "0xpayer", some usdt, some 21000, confirmations⟩

/-- A transaction that has not been mined yet. -/
def unmined (hash : String) : ChainTransaction :=
  ⟨hash, none, none, .pending, some "0xpayer", some usdt, none, 0⟩

/-- A transfer of USDT to the shop. -/
def usdtTransfer (index amount : Int) : ParsedTransfer :=
  ⟨index, some usdt, some "0xpayer", "0xpay", amount⟩

def observe (tip : Nat) (known : List (ChainTransaction × List ParsedTransfer)) (hash : String) :
    Operation :=
  .processTransaction (.ofTransactions tip known) .ethereum hash 0 1000

def confirm (tip : Nat) (known : List (ChainTransaction × List ParsedTransfer)) : Operation :=
  .updateConfirmations (.ofTransactions tip known) .ethereum 2000

/-- The state after the opening and some more operations. -/
def after (ops : List Operation) : Db :=
  (gateway.log (opening ++ ops) [Db.empty]).headD Db.empty

def status (db : Db) : Option InvoiceStatus := (db.invoices.find? "i").map (·.status)

theorem after_reachable {allowed : Operation → Prop} {meets : Transaction → Db → Prop}
    (ops : List Operation) (hops : ∀ op ∈ opening ++ ops, allowed op)
    (hmeets : gateway.AllMeet meets (opening ++ ops) Db.empty) :
    gateway.Reachable allowed meets Db.empty (after ops) := Machine.reachable_log hops hmeets

end Shop

end PaymentGateway
