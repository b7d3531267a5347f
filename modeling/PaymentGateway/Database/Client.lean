import PaymentGateway.Lib.Fallible
import PaymentGateway.Database.Schema

/-!
# Queries and writes

The calls of the database client that the services make. `findUniqueOrThrow` and `update` fail on
a missing row, `create` fails on a taken unique key, `upsert` does neither. A service's
transaction is a function `Db → Except Error Db` built from these; when it fails, nothing of it
is committed.

Each write has one lemma that says which table it touches, as an equation between records, so
that a proof about another table never looks inside.
-/

namespace PaymentGateway

open Keyed Fallible

namespace Db

/-! ## Invoices -/

/-- `findUniqueOrThrow` of an invoice. -/
def findInvoice (db : Db) (id : String) : Except Error Invoice :=
  match db.invoices.find? id with
  | some invoice => .ok invoice
  | none => .error (.recordNotFound "Invoice")

def findMerchant (db : Db) (id : String) : Except Error Merchant :=
  match db.merchants.find? id with
  | some merchant => .ok merchant
  | none => .error (.recordNotFound "Merchant")

/-- `invoice.update`. A written status is logged with the one it replaces. -/
def updateInvoice (db : Db) (id : String) (writer : TransitionActor) (data : InvoiceData) :
    Except Error Db :=
  match db.invoices.find? id with
  | none => .error (.recordNotFound "Invoice")
  | some invoice => .ok { db with
      invoices := db.invoices.modify id (·.update data) fun r => r.id_update data
      statusWrites := db.statusWrites ++
        (data.status.map fun status => ⟨id, invoice.status, status, writer⟩).toList }

def createInvoice (db : Db) (invoice : Invoice) : Except Error Db :=
  match h : db.invoices.find? invoice.id with
  | some _ => .error (.uniqueViolation "Invoice")
  | none =>
    if ∃ r ∈ db.invoices.rows, r.merchantId = invoice.merchantId ∧ r.orderId = invoice.orderId then
      .error (.uniqueViolation "Invoice")
    else
      .ok { db with invoices := db.invoices.insert invoice h }

/-! ## Events and webhooks -/

def countEvents (db : Db) (invoiceId : String) : Nat :=
  (db.events.rows.filter fun e => e.invoiceId = invoiceId).length

/-- Two events of an invoice never share a number. -/
def createEvent (db : Db) (event : PaymentEvent) : Except Error Db :=
  match h : db.events.find? (event.invoiceId, event.sequence) with
  | some _ => .error (.uniqueViolation "PaymentEvent")
  | none => .ok { db with events := db.events.insert event h }

/-- Append an event under the next sequence number of its invoice. -/
def recordEvent (db : Db) (invoiceId type : String) (fromStatus toStatus : InvoiceStatus)
    (actor : String) (payload : List (String × String) := []) : Except Error Db :=
  db.createEvent ⟨invoiceId, db.countEvents invoiceId + 1, type, some fromStatus, toStatus, actor,
    payload, Nat.succ_pos _⟩

def createWebhook (db : Db) (event : WebhookEvent) : Except Error Db :=
  match h : db.webhookEvents.find? event.idempotencyKey with
  | some _ => .error (.uniqueViolation "WebhookEvent")
  | none => .ok { db with webhookEvents := db.webhookEvents.insert event h }

/-- An event that is there already stays as it is. -/
def upsertWebhook (db : Db) (event : WebhookEvent) : Db :=
  match h : db.webhookEvents.find? event.idempotencyKey with
  | some _ => db
  | none => { db with webhookEvents := db.webhookEvents.insert event h }

/-- The webhook event an invoice emits on a status, with its payload. -/
def webhookFor (type : WebhookEventType) (merchantId invoiceId orderId : String) : WebhookEvent :=
  ⟨type.name ++ ":" ++ invoiceId, merchantId, invoiceId, type,
    [("event", type.name), ("invoice_id", invoiceId), ("order_id", orderId)]⟩

/-- The event of the status an invoice has reached. -/
def emitWebhook (db : Db) (invoiceId : String) (status : InvoiceStatus) : Except Error Db :=
  match webhookEventForStatus status with
  | none => .ok db
  | some type => do
    let invoice ← db.findInvoice invoiceId
    return db.upsertWebhook (webhookFor type invoice.merchantId invoiceId invoice.orderId)

/-! ## Chain transactions and transfers -/

def findAddress (db : Db) (network : Network) (addressNormalized : String) :
    Option PaymentAddress :=
  db.addresses.find? ⟨network, addressNormalized⟩

def upsertChainTx (db : Db) (row : BlockchainTransaction) : Db :=
  match h : db.chainTxs.find? row.key with
  | some _ => { db with
      chainTxs := db.chainTxs.modify row.key (fun old => { row with key := old.key }) fun _ => rfl }
  | none => { db with chainTxs := db.chainTxs.insert row h }

/-- The `data` of a transfer update: every column but the key and `creditedAt`. -/
def overwrite (data row : TokenTransfer) : TokenTransfer :=
  { data with key := row.key, creditedAt := row.creditedAt, index_valid := row.index_valid }

theorem overwrite_key (data row : TokenTransfer) : (overwrite data row).key = row.key := rfl

/-- A transfer that is seen again is updated. -/
def upsertTransfer (db : Db) (row : TokenTransfer) : Db :=
  match h : db.transfers.find? row.key with
  | some _ => { db with
      transfers := db.transfers.modify row.key (overwrite row) (overwrite_key row) }
  | none => { db with transfers := db.transfers.insert row h }

def withConfirmations (confirmations : Nat) (t : TokenTransfer) : TokenTransfer :=
  { t with confirmations }

theorem withConfirmations_key (n : Nat) (t : TokenTransfer) :
    (withConfirmations n t).key = t.key := rfl

def setConfirmations (db : Db) (key : TransferKey) (confirmations : Nat) : Except Error Db :=
  match db.transfers.find? key with
  | none => .error (.recordNotFound "TokenTransfer")
  | some _ => .ok { db with
      transfers := db.transfers.modify key (withConfirmations confirmations)
        (withConfirmations_key confirmations) }

/-- `matchStatus: CREDITED, creditedAt: now`. -/
def credit (now : Int) (t : TokenTransfer) : TokenTransfer :=
  { t with matchStatus := .credited, creditedAt := some now }

theorem credit_key (now : Int) (t : TokenTransfer) : (credit now t).key = t.key := rfl

/-- The transfer counts as credited from now on. -/
def markCredited (db : Db) (key : TransferKey) (now : Int) : Except Error Db :=
  match db.transfers.find? key with
  | none => .error (.recordNotFound "TokenTransfer")
  | some _ => .ok { db with transfers := db.transfers.modify key (credit now) (credit_key now) }

def orphan (t : TokenTransfer) : TokenTransfer := { t with matchStatus := .orphaned }

theorem orphan_key (t : TokenTransfer) : (orphan t).key = t.key := rfl

def markOrphaned (db : Db) (key : TransferKey) : Except Error Db :=
  match db.transfers.find? key with
  | none => .error (.recordNotFound "TokenTransfer")
  | some _ => .ok { db with transfers := db.transfers.modify key orphan orphan_key }

/-! ## What a status write leaves in the logs -/

abbrev Events := Table PaymentEvent fun e => (e.invoiceId, e.sequence)

abbrev Webhooks := Table WebhookEvent (·.idempotencyKey)

/-- A status write is reported by one more event, under the next number of its invoice. -/
def Reported (old : Events) (w : StatusWrite) (actor : String) (new : Events) : Prop :=
  ∃ (e : PaymentEvent) (hfree : old.find? (e.invoiceId, e.sequence) = none),
    e.invoiceId = w.invoiceId ∧
    e.sequence = (old.rows.filter fun e => e.invoiceId = w.invoiceId).length + 1 ∧
    e.fromStatus = some w.stored ∧ e.toStatus = w.written ∧ e.actor = actor ∧
    new = old.insert e hfree

/-- A webhook of an invoice is in the outbox: it was there before, or it is its last row. -/
inductive Emitted (old : Webhooks) (id : String) : Option WebhookEventType → Webhooks → Prop
  | silent : Emitted old id none old
  | again {type : WebhookEventType}
      (hsome : (old.find? (type.name ++ ":" ++ id)).isSome = true) : Emitted old id (some type) old
  | first {row : WebhookEvent} (hid : row.invoiceId = id)
      (hkey : row.idempotencyKey = row.type.name ++ ":" ++ id)
      (hfree : old.find? row.idempotencyKey = none) :
      Emitted old id (some row.type) (old.insert row hfree)

/-- Status writes, each with its event and with the webhook of the status it enters. -/
inductive Announced (actor : String) :
    Events → Webhooks → List StatusWrite → Events → Webhooks → Prop
  | nil (ev : Events) (wh : Webhooks) : Announced actor ev wh [] ev wh
  | cons {ev ev1 ev2 : Events} {wh wh1 wh2 : Webhooks} {w : StatusWrite} {ws : List StatusWrite}
      (hreported : Reported ev w actor ev1)
      (hemitted : Emitted wh w.invoiceId (webhookEventForStatus w.written) wh1)
      (hrest : Announced actor ev1 wh1 ws ev2 wh2) : Announced actor ev wh (w :: ws) ev2 wh2

theorem Announced.single {actor : String} {ev ev' : Events} {wh wh' : Webhooks} {w : StatusWrite}
    (hreported : Reported ev w actor ev')
    (hemitted : Emitted wh w.invoiceId (webhookEventForStatus w.written) wh') :
    Announced actor ev wh [w] ev' wh' := .cons hreported hemitted (.nil _ _)

/-! ## What each write touches -/

variable {db db' : Db}

theorem findInvoice_eq_ok {id : String} {invoice : Invoice} :
    db.findInvoice id = .ok invoice ↔ db.invoices.find? id = some invoice := by
  unfold findInvoice
  cases db.invoices.find? id <;> simp

/-- A row that was found carries the id it was found under. -/
theorem found {id : String} {invoice : Invoice} (h : db.findInvoice id = .ok invoice) :
    invoice.id = id ∧ db.invoices.find? invoice.id = some invoice := by
  have hfind := findInvoice_eq_ok.1 h
  have hid : invoice.id = id := Table.key_of_find? hfind
  exact ⟨hid, hid ▸ hfind⟩

theorem findMerchant_eq_ok {id : String} {merchant : Merchant} :
    db.findMerchant id = .ok merchant ↔ db.merchants.find? id = some merchant := by
  unfold findMerchant
  cases db.merchants.find? id <;> simp

theorem updateInvoice_eq_ok {id : String} {writer : TransitionActor} {data : InvoiceData} :
    db.updateInvoice id writer data = .ok db' ↔
      ∃ invoice, db.invoices.find? id = some invoice ∧ db' = { db with
        invoices := db.invoices.modify id (·.update data) fun r => r.id_update data
        statusWrites := db.statusWrites ++
          (data.status.map fun status => ⟨id, invoice.status, status, writer⟩).toList } := by
  unfold updateInvoice
  cases db.invoices.find? id <;> simp [eq_comm]

theorem createInvoice_eq_ok {invoice : Invoice} (h : db.createInvoice invoice = .ok db') :
    ∃ hfree, db' = { db with invoices := db.invoices.insert invoice hfree } := by
  unfold createInvoice at h
  split at h
  · cases h
  · next hfree =>
    split_ifs at h
    cases h
    exact ⟨hfree, rfl⟩

theorem createEvent_eq_ok {event : PaymentEvent} (h : db.createEvent event = .ok db') :
    ∃ hfree, db' = { db with events := db.events.insert event hfree } := by
  unfold createEvent at h
  split at h
  · cases h
  · next hfree => cases h; exact ⟨hfree, rfl⟩

/-- An event is appended; nothing else changes. -/
theorem recordEvent_eq_ok {invoiceId type actor : String} {fromStatus toStatus : InvoiceStatus}
    {payload : List (String × String)} (writer : TransitionActor)
    (h : db.recordEvent invoiceId type fromStatus toStatus actor payload = .ok db') :
    ∃ events, Reported db.events ⟨invoiceId, fromStatus, toStatus, writer⟩ actor events ∧
      db' = { db with events := events } := by
  obtain ⟨hfree, rfl⟩ := createEvent_eq_ok h
  exact ⟨_, ⟨_, hfree, rfl, rfl, rfl, rfl, rfl, rfl⟩, rfl⟩

theorem upsertWebhook_eq (db : Db) (type : WebhookEventType) (merchantId id orderId : String) :
    ∃ webhooks, Emitted db.webhookEvents id (some type) webhooks ∧
      db.upsertWebhook (webhookFor type merchantId id orderId) =
        { db with webhookEvents := webhooks } := by
  unfold upsertWebhook
  split
  · next row hrow =>
    have hsome : (db.webhookEvents.find? (type.name ++ ":" ++ id)).isSome = true := by
      have hfind : db.webhookEvents.find? (type.name ++ ":" ++ id) = some row := hrow
      rw [hfind]
      rfl
    exact ⟨_, .again hsome, rfl⟩
  · next hfree =>
    exact ⟨_, @Emitted.first db.webhookEvents id (webhookFor type merchantId id orderId) rfl rfl
      hfree, rfl⟩

theorem createWebhook_eq_ok {type : WebhookEventType} {merchantId id orderId : String}
    (h : db.createWebhook (webhookFor type merchantId id orderId) = .ok db') :
    ∃ webhooks, Emitted db.webhookEvents id (some type) webhooks ∧
      db' = { db with webhookEvents := webhooks } := by
  unfold createWebhook at h
  split at h
  · cases h
  · next hfree =>
    cases h
    exact ⟨_, @Emitted.first db.webhookEvents id (webhookFor type merchantId id orderId) rfl rfl
      hfree, rfl⟩

theorem emitWebhook_eq_ok {invoiceId : String} {status : InvoiceStatus}
    (h : db.emitWebhook invoiceId status = .ok db') :
    ∃ webhooks, Emitted db.webhookEvents invoiceId (webhookEventForStatus status) webhooks ∧
      db' = { db with webhookEvents := webhooks } := by
  unfold emitWebhook at h
  cases hs : webhookEventForStatus status with
  | none => rw [hs] at h; cases h; exact ⟨_, .silent, rfl⟩
  | some type =>
    rw [hs] at h
    obtain ⟨invoice, -, hret⟩ := bind_eq_ok.1 h
    obtain ⟨webhooks, hemitted, hw⟩ :=
      upsertWebhook_eq db type invoice.merchantId invoiceId invoice.orderId
    exact ⟨webhooks, hemitted, (pure_eq_ok.1 hret).symm.trans hw⟩

theorem upsertChainTx_eq (db : Db) (row : BlockchainTransaction) :
    ∃ chainTxs, db.upsertChainTx row = { db with chainTxs := chainTxs } := by
  unfold upsertChainTx
  split <;> exact ⟨_, rfl⟩

theorem upsertTransfer_eq (db : Db) (row : TokenTransfer) :
    ∃ transfers, db.upsertTransfer row = { db with transfers := transfers } := by
  unfold upsertTransfer
  split <;> exact ⟨_, rfl⟩

/-- After the upsert the key holds the new row, with the old `creditedAt`. -/
theorem find?_upsertTransfer (db : Db) (row : TokenTransfer) (k : TransferKey) :
    (db.upsertTransfer row).transfers.find? k =
      if k = row.key then
        some ((db.transfers.find? k).elim row (overwrite row))
      else db.transfers.find? k := by
  unfold upsertTransfer
  by_cases hk : k = row.key
  · subst hk
    rw [if_pos rfl]
    split
    · next old hold =>
      show (db.transfers.modify row.key (overwrite row) (overwrite_key row)).find? row.key = _
      rw [Table.find?_modify_self, hold]
      rfl
    · next hnone =>
      show (db.transfers.insert row hnone).find? row.key = _
      rw [Table.find?_insert, if_pos rfl, hnone]
      rfl
  · rw [if_neg hk]
    split
    · next old hold =>
      show (db.transfers.modify row.key (overwrite row) (overwrite_key row)).find? k = _
      rw [Table.find?_modify_ne hk]
    · next hnone =>
      show (db.transfers.insert row hnone).find? k = _
      rw [Table.find?_insert, if_neg (Ne.symm hk)]

theorem setConfirmations_eq_ok {key : TransferKey} {confirmations : Nat} :
    db.setConfirmations key confirmations = .ok db' ↔
      (∃ t, db.transfers.find? key = some t) ∧ db' = { db with
        transfers := db.transfers.modify key (withConfirmations confirmations)
          (withConfirmations_key confirmations) } := by
  unfold setConfirmations
  cases db.transfers.find? key <;> simp [eq_comm]

theorem markCredited_eq_ok {key : TransferKey} {now : Int} :
    db.markCredited key now = .ok db' ↔
      (∃ t, db.transfers.find? key = some t) ∧
        db' = { db with transfers := db.transfers.modify key (credit now) (credit_key now) } := by
  unfold markCredited
  cases db.transfers.find? key <;> simp [eq_comm]

theorem markOrphaned_eq_ok {key : TransferKey} :
    db.markOrphaned key = .ok db' ↔
      (∃ t, db.transfers.find? key = some t) ∧
        db' = { db with transfers := db.transfers.modify key orphan orphan_key } := by
  unfold markOrphaned
  cases db.transfers.find? key <;> simp [eq_comm]

/-! ## What events and notices do not read -/

/-- The tables that take no part in an event, a notice or a posting, from another database. -/
def beside (db other : Db) : Db :=
  { db with invoices := other.invoices, transfers := other.transfers, merchants := other.merchants }

theorem createEvent_beside (db other : Db) (event : PaymentEvent) :
    (db.beside other).createEvent event = (db.createEvent event).map (·.beside other) := by
  have hsame : (db.beside other).events = db.events := rfl
  unfold createEvent
  split
  · next row hrow =>
    split
    · rfl
    · next hnone =>
      rw [hsame, hnone] at hrow
      cases hrow
  · next hnone =>
    split
    · next row hrow =>
      rw [hsame, hrow] at hnone
      cases hnone
    · rfl

theorem upsertWebhook_beside (db other : Db) (event : WebhookEvent) :
    (db.beside other).upsertWebhook event = (db.upsertWebhook event).beside other := by
  have hsame : (db.beside other).webhookEvents = db.webhookEvents := rfl
  unfold upsertWebhook
  split
  · next row hrow =>
    split
    · rfl
    · next hnone =>
      rw [hsame, hnone] at hrow
      cases hrow
  · next hnone =>
    split
    · next row hrow =>
      rw [hsame, hrow] at hnone
      cases hnone
    · rfl

end Db

end PaymentGateway
