import PaymentGateway.Monitor.Inversion
import PaymentGateway.Worker.ExpirySweep
import PaymentGateway.Api.Invoices

/-!
# How the services fail

What a transaction of the services can fail with. Reading, counting, pricing and posting raise
errors of their own (`Plain`). Only the gate of the state machine rejects a status change, and
only a webhook event that is created, rather than upserted, can clash with one that exists.

* `recordTransfers_unclashing` and its siblings: nothing the monitor or the sweep does clashes.
* `load_unclashing`, `cancelWrite_unclashing`, `createInvoice_unclashing`: the three that create
  their event do not clash when there is none under its key.
-/

namespace PaymentGateway

open Keyed Fallible

variable {db : Db}

namespace MonitorService

/-! ## Reading, counting, posting -/

theorem row_plain (s : Sighting) (db : Db) : Plain (s.row db) := by
  unfold Sighting.row
  split
  · exact avoids_ok _
  · exact avoids_error not_false

theorem setConfirmations_plain (db : Db) (key : TransferKey) (n : Nat) :
    Plain (db.setConfirmations key n) := by
  unfold Db.setConfirmations
  split
  · exact avoids_error not_false
  · exact avoids_ok _

theorem markCredited_plain (db : Db) (key : TransferKey) (now : Int) :
    Plain (db.markCredited key now) := by
  unfold Db.markCredited
  split
  · exact avoids_error not_false
  · exact avoids_ok _

theorem markOrphaned_plain (db : Db) (key : TransferKey) : Plain (db.markOrphaned key) := by
  unfold Db.markOrphaned
  split
  · exact avoids_error not_false
  · exact avoids_ok _

theorem markTxOrphaned_plain (db : Db) (key : TxKey) (now : Int) :
    Plain (markTxOrphaned db key now) := by
  unfold markTxOrphaned
  split
  · exact avoids_error not_false
  · exact avoids_ok _

theorem creditTransfer_plain (invoice : Invoice) (merchant : Merchant) (now : Int) (db : Db)
    (t : TokenTransfer) : Plain (creditTransfer invoice merchant now db t) := by
  apply (postPaymentCredit_plain _ _).bind
  intro r _
  obtain ⟨db1, result⟩ := r
  dsimp only
  split
  · exact avoids_ok _
  · exact markCredited_plain _ _ _

theorem creditTransfers_plain (invoice : Invoice) (merchant : Merchant) (now : Int) (db : Db)
    (l : List TokenTransfer) : Plain (creditTransfers invoice merchant now db l) :=
  avoids_foldlM (fun _ _ => True) trivial (fun _ _ _ _ _ _ => trivial)
    fun _ t _ x _ _ => creditTransfer_plain invoice merchant now x t

/-! ## The monitor emits by upsert -/

theorem moveInvoice_unclashing (db : Db) (invoice : Invoice) (target : InvoiceStatus)
    (data : InvoiceData) (eventType : String) (notify : Bool) :
    Unclashing (moveInvoice db invoice target data eventType notify) := by
  unfold moveInvoice
  split
  · exact avoids_ok _
  · apply Avoids.bind (Db.applyTransition_unclashing _)
    intro db1 _
    split
    · exact (Db.emitWebhook_plain _ _ _).unclashing
    · exact avoids_ok _

theorem recordTransfer_unclashing (db : Db) (s : Sighting) :
    Unclashing (recordTransfer db s) := by
  unfold recordTransfer
  split
  · exact avoids_ok _
  · apply (row_plain s db).unclashing.bind
    intro row _
    split
    · exact avoids_ok _
    · split
      · exact moveInvoice_unclashing _ _ _ _ _ _
      · exact moveInvoice_unclashing _ _ _ _ _ _
      · exact avoids_ok _

theorem recordTransfers_unclashing (network : Network) (chainTx : ChainTransaction)
    (transfers : List ParsedTransfer) (graceSeconds : Nat) (now : Int) (db : Db) :
    Unclashing (recordTransfers network chainTx transfers graceSeconds now db) :=
  avoids_foldlM (fun _ _ => True) trivial (fun _ _ _ _ _ _ => trivial)
    fun _ _ _ x _ _ => recordTransfer_unclashing x _

theorem acceptPayment_unclashing (db : Db) (invoice : Invoice) (target : InvoiceStatus)
    (now : Int) : Unclashing (acceptPayment db invoice target now) := by
  unfold acceptPayment
  split
  · apply Avoids.bind (Db.applyTransition_unclashing _)
    exact fun _ _ => (Db.emitWebhook_plain _ _ _).unclashing
  · exact (Db.updateInvoice_plain _ _ _ _).unclashing

theorem settleInvoice_unclashing (db : Db) (invoice : Invoice) (merchant : Merchant)
    (target : InvoiceStatus) (now : Int) :
    Unclashing (settleInvoice db invoice merchant target now) := by
  apply Avoids.bind (Db.applyTransition_unclashing _)
  intro db1 _
  apply Avoids.bind (Db.emitWebhook_plain _ _ _).unclashing
  intro db2 _
  split
  · exact avoids_ok _
  · apply Avoids.bind (acceptPayment_unclashing _ _ _ _)
    exact fun _ _ => (creditTransfers_plain _ _ _ _ _).unclashing

theorem finalizeInvoice_unclashing (db : Db) (invoiceId : String) (now : Int) :
    Unclashing (finalizeInvoice db invoiceId now) := by
  apply Avoids.bind (Db.findInvoice_plain _ _).unclashing
  intro invoice _
  split_ifs
  · exact avoids_ok _
  · exact avoids_ok _
  · apply Avoids.bind (Db.findMerchant_plain _ _).unclashing
    intro merchant _
    obtain ⟨evaluation, heval, -⟩ :=
      evaluatePayment_eq_ok invoice (totalAmount (countedTransfers db invoice))
    rw [heval, bind_ok]
    split
    · exact avoids_ok _
    · split
      · exact avoids_ok _
      · exact settleInvoice_unclashing _ _ _ _ _

theorem confirmTransfer_unclashing (transfer : TokenTransfer) (info : ConfirmationInfo)
    (now : Int) (db : Db) : Unclashing (confirmTransfer transfer info now db) := by
  apply Avoids.bind (setConfirmations_plain _ _ _).unclashing
  intro db1 _
  split
  · exact avoids_ok _
  · apply Avoids.bind (Db.findInvoice_plain _ _).unclashing
    intro invoice _
    have hadvance : Unclashing (advanceConfirming db1 invoice info.confirmations) := by
      unfold advanceConfirming
      split
      · exact avoids_ok _
      · exact moveInvoice_unclashing _ _ _ _ _ _
    apply hadvance.bind
    intro db2 _
    apply Avoids.bind (effectiveConfirmations_plain _ _).unclashing
    intro required _
    apply Avoids.bind (isConfirmed_plain _ _).unclashing
    intro confirmed _
    split
    · exact finalizeInvoice_unclashing _ _ _
    · exact avoids_ok _

theorem revertInvoiceAfterOrphan_unclashing (db : Db) (invoiceId : String) :
    Unclashing (revertInvoiceAfterOrphan db invoiceId) := by
  apply Avoids.bind (Db.findInvoice_plain _ _).unclashing
  exact fun _ _ => moveInvoice_unclashing _ _ _ _ _ _

theorem flagOrphanedCredit_unclashing (db : Db) (transferId : TransferKey)
    (invoiceId : Option String) (now : Int) :
    Unclashing (flagOrphanedCredit db transferId invoiceId now) := by
  unfold flagOrphanedCredit
  split
  · exact avoids_ok _
  · apply Avoids.bind (Db.findInvoice_plain _ _).unclashing
    intro invoice _
    split
    · exact avoids_ok _
    · exact (moveInvoice_unclashing _ _ _ _ _ _).bind fun _ _ => avoids_ok _

theorem orphanTransaction_unclashing (key : TxKey) (now : Int) (db : Db) :
    Unclashing (orphanTransaction key now db) := by
  apply Avoids.bind (markTxOrphaned_plain _ _ _).unclashing
  intro db1 _
  refine avoids_foldlM (fun _ _ => True) trivial (fun _ _ _ _ _ _ => trivial) ?_
  intro _ t _ x _ _
  unfold orphanTransfer
  split
  · exact flagOrphanedCredit_unclashing _ _ _ _
  · apply Avoids.bind (markOrphaned_plain _ _).unclashing
    intro db2 _
    split
    · exact avoids_ok _
    · exact revertInvoiceAfterOrphan_unclashing _ _

end MonitorService

/-! ## The other services -/

theorem ExpirySweep.expireOne_unclashing (invoiceId : String) (now : Int) (db : Db) :
    Unclashing (ExpirySweep.expireOne invoiceId now db) := by
  apply Avoids.bind (Db.findInvoice_plain _ _).unclashing
  intro invoice _
  split
  · exact avoids_ok _
  · exact (Db.applyTransition_unclashing _).bind fun _ _ => avoids_ok _

/-- Creating an event does not clash when its key is free. -/
theorem Db.createWebhook_unclashing {type : WebhookEventType} {merchantId id orderId : String}
    (h : db.webhookEvents.find? (type.name ++ ":" ++ id) = none) :
    Unclashing (db.createWebhook (Db.webhookFor type merchantId id orderId)) := by
  unfold Db.createWebhook
  split
  · next row hrow =>
    have hfind : db.webhookEvents.find? (type.name ++ ":" ++ id) = some row := hrow
    rw [h] at hfind
    cases hfind
  · exact avoids_ok _

namespace InvoicesService

theorem expireOnRead_unclashing {invoice : Invoice} {now : Int}
    (h : isActorAllowed invoice.status .expired .system = true →
      db.webhookEvents.find? (WebhookEventType.paymentExpired.name ++ ":" ++ invoice.id) = none) :
    Unclashing (expireOnRead invoice now db) := by
  apply Avoids.bind (Db.applyTransition_unclashing _)
  intro db1 hmove
  obtain ⟨hallowed, stored, events, -, -, rfl⟩ := Db.applyTransition_eq_ok hmove
  exact Db.createWebhook_unclashing (h hallowed)

theorem loadAndMaybeExpire_unclashing {merchantId id : String} {now : Int}
    (h : ∀ invoice, db.invoices.find? id = some invoice →
      isActorAllowed invoice.status .expired .system = true →
      db.webhookEvents.find? (WebhookEventType.paymentExpired.name ++ ":" ++ invoice.id) = none) :
    Unclashing (loadAndMaybeExpire merchantId id now db) := by
  unfold loadAndMaybeExpire
  split
  · exact avoids_error Error.noConfusion
  · next invoice hfound =>
    split
    · apply Avoids.bind (expireOnRead_unclashing (h invoice (Option.filter_eq_some_iff.1 hfound).1))
      intro db1 _
      exact (Db.findInvoice_plain _ _).unclashing.bind fun _ _ => avoids_ok _
    · exact avoids_ok _

theorem cancelWrite_unclashing {read : CancelRead} {now : Int}
    (h : ∀ stored, db.invoices.find? read.invoice.id = some stored →
      db.webhookEvents.find? (WebhookEventType.paymentCancelled.name ++ ":" ++ read.invoice.id) =
        none) :
    Unclashing (cancelWrite read now db) := by
  apply Avoids.bind (Db.writeStatus_plain _).unclashing
  intro db1 hwrite
  obtain ⟨stored, events, hfind, -, rfl⟩ := Db.writeStatus_eq_ok hwrite
  have hretire : ∀ db1 : Db, Plain (retireAddress db1 read.paymentAddress now) := by
    intro db1
    unfold retireAddress
    split
    · exact avoids_ok _
    · split
      · exact avoids_error not_false
      · exact avoids_ok _
  apply Avoids.bind (hretire _).unclashing
  intro db2 hret
  have hsame : db2.webhookEvents = db.webhookEvents := by
    unfold retireAddress at hret
    split at hret
    · cases hret; rfl
    · split at hret
      · cases hret
      · cases hret; rfl
  exact Db.createWebhook_unclashing (hsame ▸ h stored hfind)

theorem invoiceRow_plain (request : CreateInvoice) (asset : AssetConfig) (merchant : Merchant)
    (required : Nat) (now : Int) : Plain (invoiceRow request asset merchant required now) := by
  unfold invoiceRow
  dsimp only
  split_ifs
  · exact avoids_ok _
  · exact avoids_error not_false

theorem createInvoice_unclashing {request : CreateInvoice} {now : Int}
    (h : db.invoices.find? request.invoiceId = none →
      db.webhookEvents.find? (WebhookEventType.paymentCreated.name ++ ":" ++ request.invoiceId) =
        none) :
    Unclashing (createInvoice request now db) := by
  unfold createInvoice
  split
  · exact avoids_error Error.noConfusion
  · next asset _ =>
    apply Avoids.bind (Db.findMerchant_plain _ _).unclashing
    intro merchant _
    apply Avoids.bind (effectiveConfirmations_plain _ _).unclashing
    intro required _
    apply Avoids.bind (invoiceRow_plain _ _ _ _ _).unclashing
    intro invoice hrow
    have hid : invoice.id = request.invoiceId := by
      unfold invoiceRow at hrow
      dsimp only at hrow
      split_ifs at hrow
      cases hrow
      rfl
    unfold createInvoiceTransaction
    split
    · exact avoids_error Error.noConfusion
    · next address _ =>
      apply Avoids.bind (Db.assertTransition_unclashing _ _ _)
      intro _ _
      apply Avoids.bind (Db.createInvoice_plain _ _).unclashing
      intro db1 hdb1
      obtain ⟨hfree, rfl⟩ := Db.createInvoice_eq_ok hdb1
      apply Avoids.bind (Db.createEvent_plain _ _).unclashing
      intro db2 hdb2
      obtain ⟨hfirst, rfl⟩ := Db.createEvent_eq_ok hdb2
      apply Avoids.bind (Db.createEvent_plain _ _).unclashing
      intro db3 hdb3
      obtain ⟨hsecond, rfl⟩ := Db.createEvent_eq_ok hdb3
      have hnone : db.webhookEvents.find? (WebhookEventType.paymentCreated.name ++ ":" ++
          invoice.id) = none := by
        rw [hid]
        exact h (hid ▸ hfree)
      exact Db.createWebhook_unclashing hnone

end InvoicesService

end PaymentGateway
