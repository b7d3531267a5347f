import PaymentGateway.Monitor.Inversion

/-!
# What the monitor reads of the merchants

Nothing, while it records sightings and handles reorgs: every function commutes with another
merchant table in place of the stored one (`withMerchants`). A settlement reads the merchant of
the invoice, and of it the fee and whether its policy accepts the target
(`settleInvoice_withMerchants`).
-/

namespace PaymentGateway

open Keyed Fallible

/-- The same database with another merchant table. -/
def Db.withMerchants (db : Db) (merchants : Table Merchant (·.id)) : Db := { db with merchants }

variable (merchants : Table Merchant (·.id)) (db : Db)

/-! ## Queries and writes -/

namespace Db

theorem updateInvoice_withMerchants (id : String) (writer : TransitionActor) (data : InvoiceData) :
    (db.withMerchants merchants).updateInvoice id writer data =
      (db.updateInvoice id writer data).map (·.withMerchants merchants) := by
  have hsame : (db.withMerchants merchants).invoices = db.invoices := rfl
  unfold updateInvoice
  rw [hsame]
  cases db.invoices.find? id <;> rfl

theorem createEvent_withMerchants (event : PaymentEvent) :
    (db.withMerchants merchants).createEvent event =
      (db.createEvent event).map (·.withMerchants merchants) := by
  have hbeside : db.withMerchants merchants = db.beside (db.withMerchants merchants) := rfl
  rw [hbeside, createEvent_beside]
  cases hevent : db.createEvent event with
  | error e => rfl
  | ok db1 =>
    obtain ⟨hfree, rfl⟩ := createEvent_eq_ok hevent
    rfl

theorem upsertWebhook_withMerchants (event : WebhookEvent) :
    (db.withMerchants merchants).upsertWebhook event =
      (db.upsertWebhook event).withMerchants merchants := by
  have hbeside : db.withMerchants merchants = db.beside (db.withMerchants merchants) := rfl
  rw [hbeside, upsertWebhook_beside]
  unfold upsertWebhook
  split <;> rfl

theorem emitWebhook_withMerchants (id : String) (status : InvoiceStatus) :
    (db.withMerchants merchants).emitWebhook id status =
      (db.emitWebhook id status).map (·.withMerchants merchants) := by
  have hsame : (db.withMerchants merchants).findInvoice id = db.findInvoice id := rfl
  unfold emitWebhook
  cases webhookEventForStatus status with
  | none => rfl
  | some type =>
    dsimp only
    rw [hsame]
    cases db.findInvoice id with
    | error e => rfl
    | ok invoice => exact congrArg Except.ok (upsertWebhook_withMerchants merchants db _)

theorem applyTransition_withMerchants (id : String) (source target : InvoiceStatus)
    (writer : TransitionActor) (data : InvoiceData) (event : EventData) :
    (db.withMerchants merchants).applyTransition id source target writer data event =
      (db.applyTransition id source target writer data event).map (·.withMerchants merchants) := by
  unfold applyTransition
  cases assertTransition source target writer with
  | error e => rfl
  | ok rule =>
    rw [bind_ok, bind_ok, writeStatus, updateInvoice_withMerchants]
    exact map_bind_map fun db1 _ => createEvent_withMerchants merchants db1 _

theorem upsertChainTx_withMerchants (row : BlockchainTransaction) :
    (db.withMerchants merchants).upsertChainTx row =
      (db.upsertChainTx row).withMerchants merchants := by
  have hsame : (db.withMerchants merchants).chainTxs = db.chainTxs := rfl
  unfold upsertChainTx
  split
  · next old hold =>
    split
    · rfl
    · next hnone =>
      rw [hsame, hnone] at hold
      cases hold
  · next hnone =>
    split
    · next old hold =>
      rw [hsame, hold] at hnone
      cases hnone
    · rfl

theorem upsertTransfer_withMerchants (row : TokenTransfer) :
    (db.withMerchants merchants).upsertTransfer row =
      (db.upsertTransfer row).withMerchants merchants := by
  have hsame : (db.withMerchants merchants).transfers = db.transfers := rfl
  unfold upsertTransfer
  split
  · next old hold =>
    split
    · rfl
    · next hnone =>
      rw [hsame, hnone] at hold
      cases hold
  · next hnone =>
    split
    · next old hold =>
      rw [hsame, hold] at hnone
      cases hnone
    · rfl

theorem setConfirmations_withMerchants (key : TransferKey) (confirmations : Nat) :
    (db.withMerchants merchants).setConfirmations key confirmations =
      (db.setConfirmations key confirmations).map (·.withMerchants merchants) := by
  have hsame : (db.withMerchants merchants).transfers = db.transfers := rfl
  unfold setConfirmations
  rw [hsame]
  cases db.transfers.find? key <;> rfl

theorem markCredited_withMerchants (key : TransferKey) (now : Int) :
    (db.withMerchants merchants).markCredited key now =
      (db.markCredited key now).map (·.withMerchants merchants) := by
  have hsame : (db.withMerchants merchants).transfers = db.transfers := rfl
  unfold markCredited
  rw [hsame]
  cases db.transfers.find? key <;> rfl

theorem markOrphaned_withMerchants (key : TransferKey) :
    (db.withMerchants merchants).markOrphaned key =
      (db.markOrphaned key).map (·.withMerchants merchants) := by
  have hsame : (db.withMerchants merchants).transfers = db.transfers := rfl
  unfold markOrphaned
  rw [hsame]
  cases db.transfers.find? key <;> rfl

end Db

namespace MonitorService

open Db

/-! ## Sightings -/

theorem moveInvoice_withMerchants (invoice : Invoice) (target : InvoiceStatus)
    (data : InvoiceData) (eventType : String) (notify : Bool) :
    moveInvoice (db.withMerchants merchants) invoice target data eventType notify =
      (moveInvoice db invoice target data eventType notify).map (·.withMerchants merchants) := by
  unfold moveInvoice
  split
  · rfl
  · rw [applyTransition_withMerchants]
    refine map_bind_map fun db1 _ => ?_
    cases notify with
    | true => exact emitWebhook_withMerchants merchants db1 _ _
    | false => rfl

theorem advanceConfirming_withMerchants (invoice : Invoice) (n : Nat) :
    advanceConfirming (db.withMerchants merchants) invoice n =
      (advanceConfirming db invoice n).map (·.withMerchants merchants) := by
  unfold advanceConfirming
  split
  · rfl
  · exact moveInvoice_withMerchants merchants db _ _ _ _ _

theorem recordTransfer_withMerchants (s : Sighting) :
    recordTransfer (db.withMerchants merchants) s =
      (recordTransfer db s).map (·.withMerchants merchants) := by
  have hrow : s.row (db.withMerchants merchants) = s.row db := rfl
  have hinvoice : s.invoice (db.withMerchants merchants) = s.invoice db := rfl
  have hdecision : s.decision (db.withMerchants merchants) = s.decision db := rfl
  have htransfers : (db.withMerchants merchants).transfers = db.transfers := rfl
  unfold recordTransfer
  rw [hrow, hinvoice, hdecision, htransfers]
  split
  · rfl
  · cases s.row db with
    | error e => rfl
    | ok row =>
      rw [bind_ok, bind_ok, upsertTransfer_withMerchants]
      cases s.invoice db with
      | none => rfl
      | some invoice =>
        dsimp only
        cases (s.decision db).status with
        | pendingConfirmation => exact moveInvoice_withMerchants merchants _ _ _ _ _ _
        | latePaymentReview => exact moveInvoice_withMerchants merchants _ _ _ _ _ _
        | _ => rfl

theorem recordTransfers_withMerchants (network : Network) (chainTx : ChainTransaction)
    (transfers : List ParsedTransfer) (graceSeconds : Nat) (now : Int) :
    recordTransfers network chainTx transfers graceSeconds now (db.withMerchants merchants) =
      (recordTransfers network chainTx transfers graceSeconds now db).map
        (·.withMerchants merchants) := by
  have hchainTx : recordChainTransaction (db.withMerchants merchants) network chainTx now =
      (recordChainTransaction db network chainTx now).withMerchants merchants := by
    have hsame : (db.withMerchants merchants).chainTxs = db.chainTxs := rfl
    unfold recordChainTransaction
    rw [hsame]
    cases db.chainTxs.find? ⟨network, chainTx.hash⟩ <;>
      exact upsertChainTx_withMerchants merchants db _
  unfold recordTransfers
  rw [hchainTx]
  exact foldlM_map (g := fun x : Db => x.withMerchants merchants) (fun db1 transfer =>
    recordTransfer_withMerchants merchants db1 ⟨network, chainTx, transfer, graceSeconds, now⟩) _ _

/-! ## Reorgs -/

theorem revertInvoiceAfterOrphan_withMerchants (invoiceId : String) :
    revertInvoiceAfterOrphan (db.withMerchants merchants) invoiceId =
      (revertInvoiceAfterOrphan db invoiceId).map (·.withMerchants merchants) := by
  have hfind : (db.withMerchants merchants).findInvoice invoiceId = db.findInvoice invoiceId := rfl
  unfold revertInvoiceAfterOrphan
  rw [hfind]
  cases db.findInvoice invoiceId with
  | error e => rfl
  | ok invoice => exact moveInvoice_withMerchants merchants db _ _ _ _ _

theorem flagOrphanedCredit_withMerchants (key : TransferKey) (invoiceId : Option String)
    (now : Int) : flagOrphanedCredit (db.withMerchants merchants) key invoiceId now =
      (flagOrphanedCredit db key invoiceId now).map (·.withMerchants merchants) := by
  cases invoiceId with
  | none => rfl
  | some id =>
    have hfind : (db.withMerchants merchants).findInvoice id = db.findInvoice id := rfl
    unfold flagOrphanedCredit
    dsimp only
    rw [hfind]
    cases db.findInvoice id with
    | error e => rfl
    | ok invoice =>
      rw [bind_ok, bind_ok]
      split
      · rfl
      · rw [moveInvoice_withMerchants]
        exact map_bind_map fun db1 _ => rfl

theorem orphanTransfer_withMerchants (now : Int) (t : TokenTransfer) :
    orphanTransfer now (db.withMerchants merchants) t =
      (orphanTransfer now db t).map (·.withMerchants merchants) := by
  unfold orphanTransfer
  split
  · exact flagOrphanedCredit_withMerchants merchants db _ _ _
  · rw [markOrphaned_withMerchants]
    refine map_bind_map fun db1 _ => ?_
    cases t.invoiceId with
    | none => rfl
    | some id => exact revertInvoiceAfterOrphan_withMerchants merchants db1 id

theorem orphanTransaction_withMerchants (key : TxKey) (now : Int) :
    orphanTransaction key now (db.withMerchants merchants) =
      (orphanTransaction key now db).map (·.withMerchants merchants) := by
  have hmark : markTxOrphaned (db.withMerchants merchants) key now =
      (markTxOrphaned db key now).map (·.withMerchants merchants) := by
    have hsame : (db.withMerchants merchants).chainTxs = db.chainTxs := rfl
    unfold markTxOrphaned
    rw [hsame]
    cases db.chainTxs.find? key <;> rfl
  unfold orphanTransaction
  rw [hmark]
  refine map_bind_map fun db1 _ => ?_
  exact foldlM_map (fun db2 t => orphanTransfer_withMerchants merchants db2 now t) _ _

/-! ## Settlement -/

theorem postPaymentCredit_withMerchants (params : PostPaymentCreditParams) :
    postPaymentCredit (db.withMerchants merchants) params =
      (postPaymentCredit db params).map fun r => (r.1.withMerchants merchants, r.2) := by
  have hbeside : db.withMerchants merchants = db.beside (db.withMerchants merchants) := rfl
  rw [hbeside, postPaymentCredit_beside]
  cases hpost : postPaymentCredit db params with
  | error e => rfl
  | ok r =>
    obtain ⟨db1, result⟩ := r
    rcases postPaymentCredit_eq_ok hpost with ⟨-, rfl, -⟩ | ⟨accounts, entries, hb, hk, rfl, -, -⟩
    · rfl
    · rfl

theorem creditTransfers_withMerchants (invoice : Invoice) (merchant : Merchant) (now : Int)
    (transfers : List TokenTransfer) :
    creditTransfers invoice merchant now (db.withMerchants merchants) transfers =
      (creditTransfers invoice merchant now db transfers).map (·.withMerchants merchants) := by
  refine foldlM_map (g := fun x : Db => x.withMerchants merchants) (fun db1 t => ?_) _ _
  unfold creditTransfer
  rw [postPaymentCredit_withMerchants]
  refine map_bind_map fun r _ => ?_
  obtain ⟨db2, result⟩ := r
  dsimp only
  split
  · rfl
  · exact markCredited_withMerchants merchants db2 _ _

theorem acceptPayment_withMerchants (invoice : Invoice) (target : InvoiceStatus) (now : Int) :
    acceptPayment (db.withMerchants merchants) invoice target now =
      (acceptPayment db invoice target now).map (·.withMerchants merchants) := by
  unfold acceptPayment
  split
  · rw [applyTransition_withMerchants]
    exact map_bind_map fun db1 _ => emitWebhook_withMerchants merchants db1 _ _
  · exact updateInvoice_withMerchants merchants db _ _ _

theorem settleInvoice_withMerchants (invoice : Invoice) (merchant : Merchant)
    (target : InvoiceStatus) (now : Int) :
    settleInvoice (db.withMerchants merchants) invoice merchant target now =
      (settleInvoice db invoice merchant target now).map (·.withMerchants merchants) := by
  have hcounted : countedTransfers (db.withMerchants merchants) invoice =
      countedTransfers db invoice := rfl
  have hconfirmed : confirmedTransfers (db.withMerchants merchants) invoice.id =
      confirmedTransfers db invoice.id := rfl
  unfold settleInvoice
  dsimp only
  rw [applyTransition_withMerchants]
  refine map_bind_map fun db1 _ => ?_
  rw [emitWebhook_withMerchants]
  refine map_bind_map fun db2 _ => ?_
  split
  · rfl
  · rw [acceptPayment_withMerchants]
    exact map_bind_map fun db3 _ => creditTransfers_withMerchants merchants db3 _ _ _ _

/-- Of the merchant a settlement reads the fee and whether its policy accepts the target. -/
theorem settleInvoice_congr {merchant merchant' : Merchant} {target : InvoiceStatus}
    (hfee : merchant'.feeBps = merchant.feeBps)
    (haccept : autoAccept merchant' target = autoAccept merchant target) (invoice : Invoice)
    (now : Int) : settleInvoice db invoice merchant' target now =
      settleInvoice db invoice merchant target now := by
  have hparams : creditParams invoice merchant' = creditParams invoice merchant := by
    funext t
    unfold creditParams
    rw [hfee]
  have hcredit : creditTransfer invoice merchant' now = creditTransfer invoice merchant now := by
    funext db1 t
    unfold creditTransfer
    rw [hparams]
  unfold settleInvoice creditTransfers
  rw [haccept, hcredit]

/-! ## The policy that counts -/

/-- Whether the policy the invoice has captured lands it on PAID. -/
def acceptsAsCaptured (invoice : Invoice) (target : InvoiceStatus) : Bool :=
  decide (target = .paid) ||
    (decide (target = .overpaid) && decide (invoice.overpaymentPolicy = .acceptFull)) ||
    (decide (target = .underpaid) && decide (invoice.underpaymentPolicy = .acceptPartial))

/-- Should the invoice be settled now, from this status, its merchant accepts the outcome exactly
when the captured policy does. -/
def AsCaptured (db : Db) (invoice : Invoice) (status : InvoiceStatus) : Prop :=
  ∀ merchant ∈ db.merchants.find? invoice.merchantId,
    ∀ target ∈ statusForOutcome (outcomeFor invoice (totalAmount (countedTransfers db invoice))),
      canTransition status target = true →
        autoAccept merchant target = acceptsAsCaptured invoice target

/-- The settings of a merchant that an invoice does not capture. -/
def otherSettings (merchant : Merchant) : Int × Int × List (Network × Int) :=
  (merchant.invoiceExpirySeconds, merchant.feeBps, merchant.confirmationOverrides)

/-- Merchant tables that differ in the settings an invoice captures, at most. -/
def SameButPolicies (merchants merchants' : Table Merchant (·.id)) : Prop :=
  ∀ id, (merchants'.find? id).map otherSettings = (merchants.find? id).map otherSettings

theorem SameButPolicies.refl (merchants : Table Merchant (·.id)) :
    SameButPolicies merchants merchants := fun _ => rfl

theorem SameButPolicies.symm {a b : Table Merchant (·.id)} (h : SameButPolicies a b) :
    SameButPolicies b a := fun id => (h id).symm

theorem SameButPolicies.trans {a b c : Table Merchant (·.id)} (h : SameButPolicies a b)
    (h' : SameButPolicies b c) : SameButPolicies a c := fun id => (h' id).trans (h id)

variable {merchants db}

/-- **Two merchant tables under which the settlement goes as captured settle alike.** -/
theorem finalizeInvoice_withMerchants {id : String} {now : Int}
    (hsame : SameButPolicies db.merchants merchants)
    (hleft : ∀ invoice, db.invoices.find? id = some invoice →
      AsCaptured db invoice invoice.status)
    (hright : ∀ invoice, db.invoices.find? id = some invoice →
      AsCaptured (db.withMerchants merchants) invoice invoice.status) :
    finalizeInvoice (db.withMerchants merchants) id now =
      (finalizeInvoice db id now).map (·.withMerchants merchants) := by
  have hfind : (db.withMerchants merchants).findInvoice id = db.findInvoice id := rfl
  unfold finalizeInvoice
  rw [hfind]
  cases hinvoice : db.findInvoice id with
  | error e => rfl
  | ok invoice =>
    have hstored := Db.findInvoice_eq_ok.1 hinvoice
    have hcounted : countedTransfers (db.withMerchants merchants) invoice =
        countedTransfers db invoice := rfl
    rw [bind_ok, bind_ok, hcounted]
    split
    · rfl
    split
    · rfl
    obtain ⟨evaluation, hevaluation, houtcome⟩ :=
      evaluatePayment_eq_ok invoice (totalAmount (countedTransfers db invoice))
    rw [hevaluation]
    have hboth := hsame invoice.merchantId
    unfold Db.findMerchant
    cases hm : db.merchants.find? invoice.merchantId with
    | none =>
      have hm' : (db.withMerchants merchants).merchants.find? invoice.merchantId = none := by
        rw [hm] at hboth
        exact Option.map_eq_none_iff.1 hboth
      rw [hm']
      rfl
    | some merchant =>
      rw [hm] at hboth
      obtain ⟨merchant', hm', hother⟩ := Option.map_eq_some_iff.1 hboth
      have hm'' : (db.withMerchants merchants).merchants.find? invoice.merchantId =
          some merchant' := hm'
      rw [hm'']
      simp only [bind_ok]
      cases htarget : statusForOutcome evaluation.outcome with
      | none => rfl
      | some target =>
        dsimp only
        split
        · rfl
        · next hedge =>
          rw [houtcome] at htarget
          replace hedge : canTransition invoice.status target = true := by simpa using hedge
          have haccept : autoAccept merchant' target = autoAccept merchant target :=
            (hright invoice hstored merchant' hm'' target htarget hedge).trans
              (hleft invoice hstored merchant hm target htarget hedge).symm
          have hfee : merchant'.feeBps = merchant.feeBps :=
            congrArg (fun r : Int × Int × List (Network × Int) => r.2.1) hother
          rw [settleInvoice_congr (db.withMerchants merchants) hfee haccept]
          exact settleInvoice_withMerchants merchants db _ _ _ _

end MonitorService

end PaymentGateway
