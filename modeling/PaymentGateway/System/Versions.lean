import Mathlib.Data.List.Pairwise
import PaymentGateway.System.Interleaving
import PaymentGateway.System.Policies

/-!
# The version of an invoice

Every status change is to bump the version of its invoice, so that a writer who asks for the
version it has read cannot overwrite a change it has not seen. `VersionsRise` says so of two states:
no version has fallen, and where the status differs the version has risen.

**Theorem (`versions_count`).** In every interleaving in which no report settles an invoice that is
already CONFIRMING or OVERPAID, the versions rise from each state to each later one; so two states
that agree on the version of an invoice agree on its status.

All writers but one pass `bumpVersion`. The settlement does not. A report that finds its invoice
DETECTED or UNDERPAID moves it to CONFIRMING first, which bumps; from any other status the version
of the settled invoice is that of the unsettled one (`rises_iff`, `settled_unnoticed`).
-/

namespace PaymentGateway

open Keyed Fallible Transactional MonitorService

variable {db db' : Db}

/-! ## Rising versions -/

/-- No version falls, and it rises where the status changes. -/
def VersionsRise (db db' : Db) : Prop :=
  ∀ id invoice, db.invoices.find? id = some invoice →
    ∃ invoice', db'.invoices.find? id = some invoice' ∧ invoice.version ≤ invoice'.version ∧
      (invoice'.status ≠ invoice.status → invoice.version < invoice'.version)

theorem VersionsRise.of_eq (h : db'.invoices = db.invoices) : VersionsRise db db' := by
  intro id invoice hfind
  exact ⟨invoice, h ▸ hfind, le_rfl, fun hne => absurd rfl hne⟩

theorem VersionsRise.refl (db : Db) : VersionsRise db db := .of_eq rfl

/-- A status that differs at the end has changed on the way. -/
theorem VersionsRise.trans {x : Db} (h : VersionsRise db x) (h' : VersionsRise x db') :
    VersionsRise db db' := by
  intro id invoice hfind
  obtain ⟨mid, hmid, hle, hlt⟩ := h id invoice hfind
  obtain ⟨last, hlast, hle', hlt'⟩ := h' id mid hmid
  refine ⟨last, hlast, hle.trans hle', fun hne => ?_⟩
  by_cases hsame : mid.status = invoice.status
  · exact hle.trans_lt (hlt' (by rwa [hsame]))
  · exact (hlt hsame).trans_le hle'

@[simp] theorem Invoice.version_update (invoice : Invoice) (data : InvoiceData) :
    (invoice.update data).version =
      if data.bumpVersion = true then invoice.version + 1 else invoice.version := by
  cases hamounts : data.amounts <;> simp [Invoice.update, Invoice.writeAmounts, hamounts]

/-- A status written with a bump. -/
theorem VersionsRise.withStatus {stored : Invoice} {target : InvoiceStatus}
    {writer : TransitionActor} {data : InvoiceData}
    {events : Table PaymentEvent fun e => (e.invoiceId, e.sequence)}
    {webhooks : Table WebhookEvent (·.idempotencyKey)} (hbump : data.bumpVersion = true) :
    VersionsRise db (db.withStatus stored target writer data events webhooks) := by
  intro id invoice hfind
  refine ⟨_, by rw [Db.find?_withStatus, hfind, Option.map_some], ?_⟩
  by_cases hid : id = stored.id
  · rw [if_pos hid, Invoice.version_update]
    simp [hbump]
  · rw [if_neg hid]
    exact ⟨le_rfl, fun hne => absurd rfl hne⟩

theorem VersionsRise.insert {invoice : Invoice} (hfree : db.invoices.find? invoice.id = none)
    (h : db'.invoices = db.invoices.insert invoice hfree) : VersionsRise db db' := by
  intro id old hfind
  refine ⟨old, ?_, le_rfl, fun hne => absurd rfl hne⟩
  have hne : invoice.id ≠ id := by
    rintro rfl
    rw [hfree] at hfind
    cases hfind
  rw [h, Table.find?_insert, if_neg hne, hfind]

/-! ## The writers that bump -/

theorem moveInvoice_rises {invoice : Invoice} {target : InvoiceStatus} {data : InvoiceData}
    {eventType : String} {notify : Bool} (hfind : db.invoices.find? invoice.id = some invoice)
    (h : moveInvoice db invoice target data eventType notify = .ok db') : VersionsRise db db' := by
  rcases moveInvoice_eq_ok hfind h with ⟨-, rfl⟩ | ⟨-, events, webhooks, -, -, -, rfl⟩
  · exact .refl _
  · exact .withStatus rfl

theorem upsertTransfer_invoices (db : Db) (row : TokenTransfer) :
    (db.upsertTransfer row).invoices = db.invoices := by
  obtain ⟨transfers, hupsert⟩ := Db.upsertTransfer_eq db row
  rw [hupsert]

theorem recordTransfer_rises {s : Sighting} (h : recordTransfer db s = .ok db') :
    VersionsRise db db' := by
  unfold recordTransfer at h
  split_ifs at h
  · cases h
    exact .refl _
  obtain ⟨row, -, h⟩ := bind_eq_ok.1 h
  have hkept : VersionsRise db (db.upsertTransfer row) := .of_eq (upsertTransfer_invoices db row)
  cases hinvoice : s.invoice db with
  | none =>
    rw [hinvoice] at h
    cases h
    exact hkept
  | some invoice =>
    have hfind : (db.upsertTransfer row).invoices.find? invoice.id = some invoice := by
      rw [upsertTransfer_invoices]
      exact (find?_of_invoice hinvoice).1
    rw [hinvoice] at h
    dsimp only at h
    split at h
    · exact hkept.trans (moveInvoice_rises hfind h)
    · exact hkept.trans (moveInvoice_rises hfind h)
    · cases h
      exact hkept

theorem recordTransfers_rises {network : Network} {chainTx : ChainTransaction}
    {transfers : List ParsedTransfer} {graceSeconds : Nat} {now : Int}
    (h : recordTransfers network chainTx transfers graceSeconds now db = .ok db') :
    VersionsRise db db' := by
  obtain ⟨chainTxs, hchain⟩ := recordChainTransaction_eq db network chainTx now
  unfold recordTransfers at h
  rw [hchain] at h
  have hstart : VersionsRise db { db with chainTxs } := .of_eq rfl
  refine foldlM_invariant (VersionsRise db) hstart ?_ h
  intro t _ a b ha hab
  exact ha.trans (recordTransfer_rises hab)

theorem orphanTransfer_rises {t : TokenTransfer} {now : Int}
    (h : orphanTransfer now db t = .ok db') : VersionsRise db db' := by
  rcases orphanTransfer_eq_ok h with ⟨-, hflag⟩ | ⟨-, db1, hmark, hrest⟩
  · rcases flagOrphanedCredit_eq_ok hflag with ⟨-, rfl⟩ |
      ⟨invoice, -, -, ⟨-, rfl⟩ | ⟨events, webhooks, -, -, rfl⟩⟩
    · exact .refl _
    · exact .refl _
    · have hmoved : VersionsRise db (db.withStatus invoice .reconciliationRequired .monitor
        { bumpVersion := true } events webhooks) := .withStatus rfl
      exact hmoved.trans (.of_eq rfl)
  · obtain ⟨-, rfl⟩ := Db.markOrphaned_eq_ok.1 hmark
    have hkept : VersionsRise db { db with
      transfers := db.transfers.modify t.key Db.orphan Db.orphan_key } := .of_eq rfl
    rcases hrest with ⟨-, rfl⟩ | ⟨invoiceId, -, hrevert⟩
    · exact hkept
    · obtain ⟨invoice, -, rfl | ⟨target, events, webhooks, -, -, -, -, rfl⟩⟩ :=
        revertInvoiceAfterOrphan_eq_ok hrevert
      · exact hkept
      · exact hkept.trans (.withStatus rfl)

theorem orphanTransaction_rises {key : TxKey} {now : Int}
    (h : orphanTransaction key now db = .ok db') : VersionsRise db db' := by
  obtain ⟨db1, hmark, h⟩ := bind_eq_ok.1 h
  obtain ⟨chainTxs, rfl⟩ := markTxOrphaned_eq_ok hmark
  have hstart : VersionsRise db { db with chainTxs } := .of_eq rfl
  refine foldlM_invariant (VersionsRise db) hstart ?_ h
  intro t _ a b ha hab
  exact ha.trans (orphanTransfer_rises hab)

theorem writeStatus_rises {id : String} {source target : InvoiceStatus} {writer : TransitionActor}
    {data : InvoiceData} {event : Db.EventData} (hbump : data.bumpVersion = true)
    (h : db.writeStatus id source target writer data event = .ok db') : VersionsRise db db' := by
  obtain ⟨stored, events, -, -, rfl⟩ := Db.writeStatus_eq_ok h
  exact .withStatus hbump

theorem applyTransition_rises {id : String} {source target : InvoiceStatus}
    {writer : TransitionActor} {data : InvoiceData} {event : Db.EventData}
    (hbump : data.bumpVersion = true)
    (h : db.applyTransition id source target writer data event = .ok db') :
    VersionsRise db db' := by
  obtain ⟨-, -, hwrite⟩ := bind_eq_ok.1 h
  exact writeStatus_rises hbump hwrite

theorem createWebhook_rises {type : WebhookEventType} {merchantId id orderId : String}
    (h : db.createWebhook (Db.webhookFor type merchantId id orderId) = .ok db') :
    VersionsRise db db' := by
  obtain ⟨webhooks, -, rfl⟩ := Db.createWebhook_eq_ok h
  exact .of_eq rfl

theorem expireOne_rises {invoiceId : String} {now : Int}
    (h : ExpirySweep.expireOne invoiceId now db = .ok db') : VersionsRise db db' := by
  obtain ⟨invoice, -, h⟩ := bind_eq_ok.1 h
  split_ifs at h
  · cases h
    exact .refl _
  · obtain ⟨db1, hmove, hret⟩ := bind_eq_ok.1 h
    obtain ⟨webhooks, -, hwebhooks⟩ := Db.upsertWebhook_eq db1 .paymentExpired invoice.merchantId
      invoiceId invoice.orderId
    rw [← pure_eq_ok.1 hret, hwebhooks]
    exact (applyTransition_rises rfl hmove).trans (.of_eq rfl)

theorem loadAndMaybeExpire_rises {merchantId id : String} {now : Int} {invoice : Invoice}
    (h : InvoicesService.loadAndMaybeExpire merchantId id now db = .ok (db', invoice)) :
    VersionsRise db db' := by
  unfold InvoicesService.loadAndMaybeExpire at h
  split at h
  · cases h
  · split_ifs at h
    · obtain ⟨db1, hexpire, h⟩ := bind_eq_ok.1 h
      obtain ⟨fresh, -, hret⟩ := bind_eq_ok.1 h
      cases hret
      obtain ⟨db2, hmove, hwebhook⟩ := bind_eq_ok.1 hexpire
      exact (applyTransition_rises rfl hmove).trans (createWebhook_rises hwebhook)
    · cases h
      exact .refl _

theorem load_rises {merchantId id : String} {now : Int}
    (h : Transaction.load merchantId id now db = .ok db') : VersionsRise db db' := by
  unfold Transaction.load at h
  cases hload : InvoicesService.loadAndMaybeExpire merchantId id now db with
  | error e =>
    rw [hload] at h
    cases h
  | ok r =>
    rw [hload] at h
    cases h
    exact loadAndMaybeExpire_rises hload

theorem cancelWrite_rises {read : InvoicesService.CancelRead} {now : Int}
    (h : InvoicesService.cancelWrite read now db = .ok db') : VersionsRise db db' := by
  obtain ⟨db1, hwrite, h⟩ := bind_eq_ok.1 h
  obtain ⟨db2, hretire, hwebhook⟩ := bind_eq_ok.1 h
  obtain ⟨addresses, -, rfl⟩ := retireAddress_eq_ok hretire
  have hkept : VersionsRise db1 { db1 with addresses } := .of_eq rfl
  exact ((writeStatus_rises rfl hwrite).trans hkept).trans (createWebhook_rises hwebhook)

theorem createInvoice_rises {request : InvoicesService.CreateInvoice} {now : Int}
    (h : InvoicesService.createInvoice request now db = .ok db') : VersionsRise db db' := by
  unfold InvoicesService.createInvoice at h
  split at h
  · cases h
  obtain ⟨merchant, -, h⟩ := bind_eq_ok.1 h
  obtain ⟨required, -, h⟩ := bind_eq_ok.1 h
  obtain ⟨invoice, -, h⟩ := bind_eq_ok.1 h
  unfold InvoicesService.createInvoiceTransaction at h
  split at h
  · cases h
  obtain ⟨-, -, h⟩ := bind_eq_ok.1 h
  obtain ⟨db1, hinsert, h⟩ := bind_eq_ok.1 h
  obtain ⟨db2, hfirst, h⟩ := bind_eq_ok.1 h
  obtain ⟨db3, hsecond, hwebhook⟩ := bind_eq_ok.1 h
  obtain ⟨hfree, rfl⟩ := Db.createInvoice_eq_ok hinsert
  obtain ⟨_, rfl⟩ := Db.createEvent_eq_ok hfirst
  obtain ⟨_, rfl⟩ := Db.createEvent_eq_ok hsecond
  obtain ⟨webhooks, -, rfl⟩ := Db.createWebhook_eq_ok hwebhook
  exact .insert hfree rfl

theorem takeEdge_rises {invoiceId : String} {target : InvoiceStatus} {actor : TransitionActor}
    (h : Environment.takeEdge invoiceId target actor db = .ok db') : VersionsRise db db' := by
  obtain ⟨invoice, -, hmove⟩ := bind_eq_ok.1 h
  exact applyTransition_rises rfl hmove

/-! ## The writer that does not -/

/-- One invoice may change, but not its version. -/
structure KeepsVersion (id : String) (db db' : Db) : Prop where
  version : (db'.invoices.find? id).map (·.version) = (db.invoices.find? id).map (·.version)
  other : ∀ k, k ≠ id → db'.invoices.find? k = db.invoices.find? k

variable {id : String}

theorem KeepsVersion.of_eq (h : db'.invoices = db.invoices) : KeepsVersion id db db' :=
  ⟨by rw [h], fun k _ => by rw [h]⟩

theorem KeepsVersion.trans {x : Db} (h : KeepsVersion id db x) (h' : KeepsVersion id x db') :
    KeepsVersion id db db' :=
  ⟨h'.version.trans h.version, fun k hk => (h'.other k hk).trans (h.other k hk)⟩

theorem updateInvoice_keepsVersion {writer : TransitionActor} {data : InvoiceData}
    (h : db.updateInvoice id writer data = .ok db') (hbump : data.bumpVersion = false) :
    KeepsVersion id db db' := by
  obtain ⟨stored, hfind, rfl⟩ := Db.updateInvoice_eq_ok.1 h
  refine ⟨?_, fun k hk => ?_⟩
  · simp [Table.find?_modify_self, hfind, hbump]
  · show (db.invoices.modify id (·.update data) fun r => r.id_update data).find? k = _
    rw [Table.find?_modify_ne hk]

theorem applyTransition_keepsVersion {source target : InvoiceStatus} {writer : TransitionActor}
    {data : InvoiceData} {event : Db.EventData} (hbump : data.bumpVersion = false)
    (h : db.applyTransition id source target writer data event = .ok db') :
    KeepsVersion id db db' := by
  obtain ⟨-, -, hwrite⟩ := bind_eq_ok.1 h
  obtain ⟨db1, hupdate, hevent⟩ := bind_eq_ok.1 hwrite
  obtain ⟨events, -, rfl⟩ := Db.recordEvent_eq_ok writer hevent
  exact (updateInvoice_keepsVersion hupdate hbump).trans (.of_eq rfl)

theorem emitWebhook_invoices {status : InvoiceStatus} (h : db.emitWebhook id status = .ok db') :
    db'.invoices = db.invoices := by
  obtain ⟨webhooks, -, rfl⟩ := Db.emitWebhook_eq_ok h
  rfl

/-- No write of a settlement bumps the version. -/
theorem settleInvoice_keepsVersion {invoice : Invoice} {merchant : Merchant}
    {target : InvoiceStatus} {now : Int}
    (h : settleInvoice db invoice merchant target now = .ok db') :
    KeepsVersion invoice.id db db' := by
  obtain ⟨db1, hmove, h⟩ := bind_eq_ok.1 h
  obtain ⟨db2, hemit, h⟩ := bind_eq_ok.1 h
  have hsettled : KeepsVersion invoice.id db db2 :=
    (applyTransition_keepsVersion rfl hmove).trans (.of_eq (emitWebhook_invoices hemit))
  split_ifs at h
  · cases h
    exact hsettled
  obtain ⟨db3, haccept, hcredits⟩ := bind_eq_ok.1 h
  obtain ⟨accounts, ledger, transfers, rfl⟩ := creditTransfers_frame hcredits
  have hpaid : KeepsVersion invoice.id db2 db3 := by
    unfold acceptPayment at haccept
    split_ifs at haccept
    · obtain ⟨db4, hsecond, hemit'⟩ := bind_eq_ok.1 haccept
      exact (applyTransition_keepsVersion rfl hsecond).trans (.of_eq (emitWebhook_invoices hemit'))
    · exact updateInvoice_keepsVersion haccept rfl
  exact (hsettled.trans hpaid).trans (.of_eq rfl)

/-- The status a settlement leaves is not the one it found. -/
theorem settleInvoice_moves {invoice : Invoice} {merchant : Merchant} {target : InvoiceStatus}
    {now : Int} (hsettle : Settleable db invoice merchant target)
    (h : settleInvoice db invoice merchant target now = .ok db') :
    ∃ settled, db'.invoices.find? invoice.id = some settled ∧ settled.status ≠ invoice.status := by
  obtain ⟨hallowed, ⟨-, events, webhooks, -, rfl⟩ | ⟨-, db1, hpaid, hcredits⟩⟩ :=
    settleInvoice_eq_ok hsettle.invoice_found h
  · refine ⟨_, Db.find?_withStatus_self hsettle.invoice_found, ?_⟩
    exact (ne_of_canTransition hsettle.edge).symm
  · obtain ⟨f, hf, writes, _, _, _, _, _, hrow, -, rfl⟩ := accept_frame hpaid hcredits
    refine ⟨f invoice, ?_, ?_⟩
    · show (db.invoices.modify invoice.id f hf).find? invoice.id = _
      rw [Table.find?_modify_self, hsettle.invoice_found]
      rfl
    · rw [(hrow invoice).2.1]
      rintro hpaid
      have hsource := settle_source (statusForOutcome_settled hsettle.target_of) hallowed
      rw [← hpaid] at hsource
      simp at hsource

/-- The report would settle the invoice. -/
def Settles (db : Db) (invoice : Invoice) : Prop :=
  totalAmount (countedTransfers db invoice) ≠ 0 ∧
    ∃ target ∈ statusForOutcome (outcomeFor invoice (totalAmount (countedTransfers db invoice))),
      canTransition invoice.status target = true

instance (db : Db) (invoice : Invoice) : Decidable (Settles db invoice) := by
  unfold Settles
  infer_instance

/-- A finalisation settles exactly then. -/
theorem finalizeInvoice_rises {invoice : Invoice} {now : Int}
    (hfind : db.invoices.find? invoice.id = some invoice)
    (h : finalizeInvoice db invoice.id now = .ok db') :
    (¬ Settles db invoice ∧ db' = db) ∨
    (Settles db invoice ∧ ∃ merchant target, Settleable db invoice merchant target ∧
      settleInvoice db invoice merchant target now = .ok db') := by
  by_cases hsettles : Settles db invoice
  · refine .inr ⟨hsettles, ?_⟩
    obtain ⟨htotal, target, htarget, hedge⟩ := hsettles
    have hfinal : isFinalizable invoice.status = true := by
      unfold isFinalizable
      rcases statusForOutcome_settled htarget with rfl | rfl | rfl <;> simp [hedge]
    have hmerchant : ∃ merchant, db.findMerchant invoice.merchantId = .ok merchant := by
      unfold finalizeInvoice at h
      rw [Db.findInvoice_eq_ok.2 hfind, bind_ok, hfinal, if_neg (by simp), if_neg htotal] at h
      obtain ⟨merchant, hmerchant, -⟩ := bind_eq_ok.1 h
      exact ⟨merchant, hmerchant⟩
    obtain ⟨merchant, hmerchant⟩ := hmerchant
    have hfound : Settleable db invoice merchant target :=
      ⟨hfind, Db.findMerchant_eq_ok.1 hmerchant, htotal, htarget, hedge⟩
    rw [finalizeInvoice_of_settleable hfound] at h
    exact ⟨merchant, target, hfound, h⟩
  · refine .inl ⟨hsettles, ?_⟩
    rcases finalizeInvoice_eq_ok h with rfl | ⟨found, merchant, target, hid, hfound, -⟩
    · rfl
    · have hsame : found = invoice := by
        have hrow := hfound.invoice_found
        rw [hid, hfind] at hrow
        exact (Option.some.inj hrow).symm
      subst hsame
      exact absurd ⟨hfound.total_ne, target, hfound.target_of, hfound.edge⟩ hsettles

/-! ## Reports -/

/-- Nothing written to the invoice since its version has risen lowers it again. -/
theorem VersionsRise.keepsVersion {x : Db} {invoice : Invoice}
    (h : VersionsRise db x) (hkeep : KeepsVersion invoice.id x db')
    (hfind : db.invoices.find? invoice.id = some invoice)
    (hrisen : ∀ mid, x.invoices.find? invoice.id = some mid → invoice.version < mid.version) :
    VersionsRise db db' := by
  intro k old hold
  obtain ⟨mid, hmid, hle, hlt⟩ := h k old hold
  by_cases hk : k = invoice.id
  · subst hk
    have hsame : old = invoice := Option.some.inj (hold.symm.trans hfind)
    subst hsame
    obtain ⟨last, hlast, hversion⟩ := Option.map_eq_some_iff.1
      (hkeep.version.trans (congrArg (Option.map (·.version)) hmid))
    have hrise : old.version < last.version := hversion ▸ hrisen mid hmid
    exact ⟨last, hlast, hrise.le, fun _ => hrise⟩
  · exact ⟨mid, (hkeep.other k hk).trans hmid, hle, hlt⟩

/-- No report settles an invoice that has no edge to CONFIRMING left. -/
def Transaction.Bumps : Transaction → Db → Prop
  | .confirmTransfer transfer info _, db =>
    ∀ invoice ∈ transfer.invoiceId.bind db.invoices.find?,
      invoice.requiredConfirmations ≤ info.confirmations →
      canTransition invoice.status .confirming = true ∨
        ¬ Settles (db.reported transfer.key info.confirmations) invoice
  | _, _ => True

instance : ∀ (t : Transaction) (db : Db), Decidable (t.Bumps db)
  | .confirmTransfer transfer info _, db => inferInstanceAs (Decidable
      (∀ invoice ∈ transfer.invoiceId.bind db.invoices.find?,
        invoice.requiredConfirmations ≤ info.confirmations →
        canTransition invoice.status .confirming = true ∨
          ¬ Settles (db.reported transfer.key info.confirmations) invoice))
  | .recordTransfers .., _ | .orphanTransaction .., _ | .expireOne .., _
  | .loadAndMaybeExpire .., _ | .cancelWrite .., _ | .createInvoice .., _
  | .registerMerchant .., _ | .updateMerchant .., _ | .registerAddress .., _
  | .takeEdge .., _ => isTrue trivial

/-- A report from which the versions rise, and one from which they do not. -/
theorem confirmTransfer_rises_iff {transfer : TokenTransfer} {info : ConfirmationInfo} {now : Int}
    (h : confirmTransfer transfer info now db = .ok db') :
    VersionsRise db db' ↔ (Transaction.confirmTransfer transfer info now).Bumps db := by
  obtain ⟨db1, hset, hrest⟩ := confirmTransfer_eq_ok h
  obtain ⟨-, rfl⟩ := Db.setConfirmations_eq_ok.1 hset
  have hset : VersionsRise db (db.reported transfer.key info.confirmations) := .of_eq rfl
  rcases hrest with ⟨hnone, rfl⟩ | ⟨invoice, db2, hid, hfind, hadvance, hrest⟩
  · refine iff_of_true hset fun invoice hinvoice => ?_
    rw [hnone] at hinvoice
    cases hinvoice
  -- The report is about this invoice alone.
  have honly : ∀ i ∈ transfer.invoiceId.bind db.invoices.find?, i = invoice := by
    intro i hi
    rw [hid] at hi
    exact (Option.some.inj (hfind.symm.trans hi)).symm
  have hmem : invoice ∈ transfer.invoiceId.bind db.invoices.find? := by
    rw [hid]
    exact hfind
  rcases advanceConfirming_eq_ok hfind hadvance with
    ⟨rfl, hno⟩ | ⟨-, hallowed, events, webhooks, -, rfl⟩
  · rcases hrest with ⟨hshort, rfl⟩ | ⟨hreached, hfinalize⟩
    · refine iff_of_true hset fun i hi hreached => ?_
      rw [honly i hi] at hreached
      omega
    · -- At the threshold there is a first confirmation, so the edge is what is missing.
      have hedge : canTransition invoice.status .confirming = false := by
        have hpos := invoice.required_confirmations_positive
        rcases hno with hno | hno
        · omega
        · exact hno
      rcases finalizeInvoice_rises hfind hfinalize with
        ⟨hidle, rfl⟩ | ⟨hsettles, merchant, target, hfound, hsettle⟩
      · refine iff_of_true hset fun i hi _ => .inr ?_
        rw [honly i hi]
        exact hidle
      · refine iff_of_false (fun hrise => ?_) fun hbumps => ?_
        · obtain ⟨settled, hsettled, hmoved⟩ := settleInvoice_moves hfound hsettle
          obtain ⟨last, hlast, -, hlt⟩ := hrise invoice.id invoice hfind
          have hsame : last = settled := Option.some.inj (hlast.symm.trans hsettled)
          subst hsame
          have hversion : some last.version = some invoice.version := by
            have hkept := (settleInvoice_keepsVersion hsettle).version
            rw [hlast, hfound.invoice_found] at hkept
            exact hkept
          have hrisen := hlt hmoved
          rw [Option.some.inj hversion] at hrisen
          exact lt_irrefl _ hrisen
        · rcases hbumps invoice hmem hreached with hconfirming | hidle
          · rw [hedge] at hconfirming
            cases hconfirming
          · exact hidle hsettles
  · -- The invoice moves to CONFIRMING, and with that its version rises.
    have hrisen : VersionsRise (db.reported transfer.key info.confirmations)
      ((db.reported transfer.key info.confirmations).withStatus invoice .confirming .monitor
        { bumpVersion := true } events webhooks) := .withStatus rfl
    have hedge := canTransition_of_isActorAllowed hallowed
    refine iff_of_true ?_ fun i hi _ => .inl ?_
    · rcases hrest with ⟨-, rfl⟩ | ⟨-, hfinalize⟩
      · exact hset.trans hrisen
      · rcases finalizeInvoice_eq_ok hfinalize with rfl | ⟨found, merchant, target, hsame, -, hsettle⟩
        · exact hset.trans hrisen
        · have hkeep := settleInvoice_keepsVersion hsettle
          rw [hsame] at hkeep
          refine (hset.trans hrisen).keepsVersion hkeep hfind fun mid hmid => ?_
          have hrow := Option.some.inj (hmid.symm.trans (Db.find?_withStatus_self hfind))
          subst hrow
          simp
    · rw [honly i hi]
      exact hedge

/-- **What one transaction does to the versions.** -/
theorem Transaction.rises_iff {t : Transaction} (h : t.apply db = .ok db') :
    VersionsRise db db' ↔ t.Bumps db := by
  cases t with
  | confirmTransfer transfer info now => exact confirmTransfer_rises_iff h
  | recordTransfers => exact iff_of_true (recordTransfers_rises h) trivial
  | orphanTransaction => exact iff_of_true (orphanTransaction_rises h) trivial
  | expireOne => exact iff_of_true (expireOne_rises h) trivial
  | loadAndMaybeExpire merchantId invoiceId now =>
    exact iff_of_true (load_rises h) trivial
  | cancelWrite => exact iff_of_true (cancelWrite_rises h) trivial
  | createInvoice => exact iff_of_true (createInvoice_rises h) trivial
  | registerMerchant =>
    obtain ⟨hfree, rfl⟩ := registerMerchant_eq_ok h
    exact iff_of_true (.of_eq rfl) trivial
  | updateMerchant =>
    obtain rfl := updateMerchant_eq_ok h
    exact iff_of_true (.of_eq rfl) trivial
  | registerAddress =>
    obtain ⟨row, hfree, -, -, rfl⟩ := registerAddress_eq_ok h
    exact iff_of_true (.of_eq rfl) trivial
  | takeEdge => exact iff_of_true (takeEdge_rises h) trivial

/-! ## Runs -/

def Move.Bumps : Move → Session → Prop
  | .atomic t, s => t.Bumps s.db
  | _, _ => True

instance : ∀ (m : Move) (s : Session), Decidable (m.Bumps s)
  | .atomic t, s => inferInstanceAs (Decidable (t.Bumps s.db))
  | .beginCancel .., _ | .finishCancel .., _ => isTrue trivial

/-- One move of any writer. -/
theorem Move.rises {m : Move} {s s' : Session} (hmeets : m.Bumps s) (h : m.apply s = .ok s') :
    VersionsRise s.db s'.db := by
  cases m with
  | atomic t =>
    obtain ⟨db, ht, rfl⟩ := Move.atomic_eq_ok h
    exact (Transaction.rises_iff ht).2 hmeets
  | beginCancel merchantId invoiceId now =>
    obtain ⟨db, read, hload, -, rfl⟩ := Move.beginCancel_eq_ok h
    exact loadAndMaybeExpire_rises hload
  | finishCancel position now =>
    rcases Move.finishCancel_eq_ok h with ⟨-, rfl⟩ | ⟨read, db, -, hwrite, rfl⟩
    · exact .refl _
    · exact cancelWrite_rises hwrite

/-- Who has read the version of an invoice in one state knows its status in the other. -/
def VersionsAgree (db db' : Db) : Prop :=
  ∀ id invoice invoice', db.invoices.find? id = some invoice →
    db'.invoices.find? id = some invoice' → invoice.version = invoice'.version →
    invoice.status = invoice'.status

theorem VersionsAgree.symm (h : VersionsAgree db db') : VersionsAgree db' db :=
  fun id i i' hi hi' hversion => (h id i' i hi' hi hversion.symm).symm

theorem VersionsAgree.refl (db : Db) : VersionsAgree db db := by
  intro id i i' hi hi' _
  rw [hi] at hi'
  cases hi'
  rfl

theorem VersionsRise.agree (h : VersionsRise db db') : VersionsAgree db db' := by
  intro id invoice invoice' hfind hfind' hversion
  obtain ⟨last, hlast, -, hlt⟩ := h id invoice hfind
  have hsame : last = invoice' := Option.some.inj (hlast.symm.trans hfind')
  subst hsame
  by_contra hne
  exact (hlt (Ne.symm hne)).ne hversion

/-- **Versions count the transitions**: see the head of this module. -/
theorem versions_count {states : List Session} {rest : List (Except Error Move)}
    (h : interleaved.History (fun _ => True) Move.Bumps Session.empty states rest) :
    states.Pairwise (fun later earlier => VersionsRise earlier.db later.db) ∧
    ∀ s ∈ states, ∀ s' ∈ states, VersionsAgree s.db s'.db := by
  have hkind : ∀ op (s : Session), (fun _ : Move => True) op → ∀ t,
      Except.ok t ∈ interleaved.script op s → (fun _ : Move => True) t := fun _ _ _ _ _ => trivial
  have hrise : states.Pairwise fun later earlier => VersionsRise earlier.db later.db :=
    h.pairwise (fun _ => True) (fun a b => VersionsRise a.db b.db) hkind trivial
      (fun _ _ _ _ _ _ _ => trivial) (fun _ _ _ _ _ hmeets hok => Move.rises hmeets hok)
      fun _ _ _ => VersionsRise.trans
  have hagree : states.Pairwise fun later earlier => VersionsAgree later.db earlier.db :=
    hrise.imp fun hr => hr.agree.symm
  have hsymm : Std.Symm fun s s' : Session => VersionsAgree s.db s'.db := ⟨fun _ _ h => h.symm⟩
  refine ⟨hrise, fun s hs s' hs' => ?_⟩
  exact List.Pairwise.forall_of_forall (fun s _ => VersionsAgree.refl s.db) hagree hs hs'

/-! ## Two payments -/

namespace Shop

/-- The shop is open, and the payment has been recorded. -/
def sighted : List Move := [
  .atomic (.registerMerchant merchant),
  .atomic (.registerAddress "shop" ⟨.ethereum, "0xpay"⟩ "0xPay" none 0),
  .atomic (.createInvoice ⟨"i", "shop", "o", .ethereum, "USDT", 100000000, 3600⟩ 0),
  .atomic (.recordTransfers .ethereum (mined "a" 100 1) [usdtTransfer 5 100000000] 0 1000)]

/-- A report on the recorded transfer. -/
def report (confirmations tip : Nat) : List Move :=
  recorded.map fun t => .atomic (.confirmTransfer t ⟨confirmations, some 100, tip⟩ 2000)

/-- The statuses of the invoice along a run, newest first, with the version of each. -/
def versions (moves : List Move) : List (InvoiceStatus × Nat) :=
  (interleaved.log moves [Session.empty]).filterMap fun s =>
    (s.db.invoices.find? "i").map fun i => (i.status, i.version)

end Shop

/-- The only report finds the threshold reached. -/
theorem versions_count_shop :
    Shop.versions (Shop.sighted ++ Shop.report 12 111) =
      [(.paid, 2), (.detected, 1), (.pending, 0)] ∧
    ∀ s ∈ interleaved.log (Shop.sighted ++ Shop.report 12 111) [Session.empty],
      ∀ s' ∈ interleaved.log (Shop.sighted ++ Shop.report 12 111) [Session.empty],
        VersionsAgree s.db s'.db := by
  have hmeets : interleaved.AllMeet Move.Bumps (Shop.sighted ++ Shop.report 12 111)
    Session.empty := by decide +kernel
  obtain ⟨rest, hist⟩ := Machine.History.log (.start : interleaved.History (fun _ => True)
    Move.Bumps Session.empty [Session.empty] []) (fun _ _ => trivial) hmeets
  exact ⟨by decide +kernel, (versions_count hist).2⟩

/-- **A settlement that the version does not show**: a first report leaves the invoice CONFIRMING,
and the report that settles it finds no edge to CONFIRMING any more. -/
theorem settled_unnoticed :
    (∃ rest, interleaved.History (fun _ => True) (fun _ _ => True) Session.empty
      (interleaved.log (Shop.sighted ++ Shop.report 1 100 ++ Shop.report 12 111) [Session.empty])
      rest) ∧
    Shop.versions (Shop.sighted ++ Shop.report 1 100 ++ Shop.report 12 111) =
      [(.paid, 2), (.confirming, 2), (.detected, 1), (.pending, 0)] :=
  ⟨Machine.History.log .start (fun _ _ => trivial) (Machine.allMeet_true _ _), by decide +kernel⟩

end PaymentGateway
