import Mathlib.Logic.Relation
import PaymentGateway.Monitor.Inversion
import PaymentGateway.System.Operation

/-!
# What a transaction can do

`Effect` lists everything a transaction can do to the database, with what it had found when it
did it. The effects are chosen so that the invariants of the later modules hold between any two
of them: a sighting and the move it causes are one effect, and so are a settlement and its
credits. `Transaction.effects` shows that a transaction that commits is a sequence of effects; an
invariant is then proved by one case for each constructor of `Effect`, and
`Effects.invariant` carries it through every transaction.

The parameter `may` says which of the rights in `Right` are used. A transaction holds only the
rights of its service (`Transaction.rights`), so a proof about one service meets only its own
effects, and a run in which nobody cancels or takes an edge by hand has no such effect at all.
-/

namespace PaymentGateway

open Keyed Fallible Transactional MonitorService

/-- What only some services do. -/
inductive Right
  | record | orphan | settle | accept | expire | cancel | takeEdge | configure
  deriving DecidableEq, Repr

/-- A settlement that lands on PAID and credits what it counted. -/
structure Accepted (db db' : Db) (invoice : Invoice) (merchant : Merchant)
    (target : InvoiceStatus) : Prop where
  settleable : Settleable db invoice merchant target
  allowed : isActorAllowed invoice.status target .monitor = true
  auto : autoAccept merchant target = true
  credits : ∃ now db1, PaidWrite db db1 invoice (totalAmount (countedTransfers db invoice)) ∧
    creditTransfers invoice merchant now db1 (countedTransfers db invoice) = .ok db'

/-- The first two events of an invoice. -/
def Opened (old : Db.Events) (id : String) (new : Db.Events) : Prop :=
  ∃ (first second : PaymentEvent) (h1 : old.find? (first.invoiceId, first.sequence) = none)
    (h2 : (old.insert first h1).find? (second.invoiceId, second.sequence) = none),
    (first.invoiceId = id ∧ first.sequence = 1 ∧ first.fromStatus = none ∧
      first.toStatus = .created ∧ first.actor = "system") ∧
    (second.invoiceId = id ∧ second.sequence = 2 ∧ second.fromStatus = some .created ∧
      second.toStatus = .pending ∧ second.actor = "system") ∧
    new = (old.insert first h1).insert second h2

inductive Effect (may : Right → Prop) (db : Db) : Db → Prop
  | chainTxs (chainTxs : Table BlockchainTransaction (·.key)) :
      Effect may db { db with chainTxs }
  /-- A transfer is recorded and its invoice stays where it is. -/
  | record (hmay : may .record) {s : Sighting} {row : TokenTransfer}
      (huncredited : (db.transfers.find? s.key).bind (·.creditedAt) = none)
      (hrow : s.row db = .ok row)
      (hstays : ∀ invoice target, s.invoice db = some invoice →
        sightingTarget (s.decision db).status = some target →
        canTransition invoice.status target = false) :
      Effect may db (db.upsertTransfer row)
  /-- A transfer is recorded and its invoice moves to DETECTED or LATE_PAYMENT_REVIEW. -/
  | recordMove (hmay : may .record) {s : Sighting} {row : TokenTransfer} {invoice : Invoice}
      {target : InvoiceStatus} {data : InvoiceData}
      {events : Table PaymentEvent fun e => (e.invoiceId, e.sequence)}
      {webhooks : Table WebhookEvent (·.idempotencyKey)}
      (huncredited : (db.transfers.find? s.key).bind (·.creditedAt) = none)
      (hrow : s.row db = .ok row) (hinvoice : s.invoice db = some invoice)
      (htarget : sightingTarget (s.decision db).status = some target)
      (hallowed : isActorAllowed invoice.status target .monitor = true)
      (hamounts : data.amounts = none)
      (hsaid : Db.Announced "monitor" db.events db.webhookEvents
        [⟨invoice.id, invoice.status, target, .monitor⟩] events webhooks) :
      Effect may db
        ((db.upsertTransfer row).withStatus invoice target .monitor data events webhooks)
  | confirmations (hmay : may .settle) {key : TransferKey} {t : TokenTransfer} (n : Nat)
      (hrow : db.transfers.find? key = some t) :
      Effect may db { db with
        transfers := db.transfers.modify key (Db.withConfirmations n)
          (Db.withConfirmations_key n) }
  | confirming (hmay : may .settle) {invoice : Invoice}
      {events : Table PaymentEvent fun e => (e.invoiceId, e.sequence)}
      {webhooks : Table WebhookEvent (·.idempotencyKey)}
      (hfind : db.invoices.find? invoice.id = some invoice)
      (hallowed : isActorAllowed invoice.status .confirming .monitor = true)
      (hsaid : Db.Announced "monitor" db.events db.webhookEvents
        [⟨invoice.id, invoice.status, .confirming, .monitor⟩] events webhooks) :
      Effect may db (db.withStatus invoice .confirming .monitor { bumpVersion := true } events
        webhooks)
  /-- A settlement that stops short of PAID. -/
  | settle (hmay : may .settle) {invoice : Invoice} {merchant : Merchant} {target : InvoiceStatus}
      {events : Table PaymentEvent fun e => (e.invoiceId, e.sequence)}
      {webhooks : Table WebhookEvent (·.idempotencyKey)}
      (h : Settleable db invoice merchant target)
      (hallowed : isActorAllowed invoice.status target .monitor = true)
      (hauto : autoAccept merchant target = false)
      (hsaid : Db.Announced "monitor" db.events db.webhookEvents
        [⟨invoice.id, invoice.status, target, .monitor⟩] events webhooks) :
      Effect may db (db.withStatus invoice target .monitor (settleData db invoice) events
        webhooks)
  | accept (hmay : may .accept) {invoice : Invoice} {merchant : Merchant} {target : InvoiceStatus}
      {db' : Db} (h : Accepted db db' invoice merchant target) : Effect may db db'
  | orphan (hmay : may .orphan) {t : TokenTransfer} (hrow : db.transfers.find? t.key = some t)
      (huncredited : t.creditedAt = none) :
      Effect may db { db with transfers := db.transfers.modify t.key Db.orphan Db.orphan_key }
  | revert (hmay : may .orphan) {invoice : Invoice} {target : InvoiceStatus}
      {events : Table PaymentEvent fun e => (e.invoiceId, e.sequence)}
      {webhooks : Table WebhookEvent (·.idempotencyKey)}
      (hfind : db.invoices.find? invoice.id = some invoice)
      (hallowed : isActorAllowed invoice.status target .monitor = true)
      (htarget : target = if (awaiting db invoice.id).length > 0 then .detected else .pending)
      (hreported : Db.Reported db.events ⟨invoice.id, invoice.status, target, .monitor⟩ "monitor"
        events)
      (hsilent : webhooks = db.webhookEvents) :
      Effect may db (db.withStatus invoice target .monitor { bumpVersion := true } events
        webhooks)
  /-- A credited transfer is gone: its invoice is put up for reconciliation. -/
  | flag (hmay : may .orphan) {t : TokenTransfer} {invoice : Invoice} {now : Int}
      {events : Table PaymentEvent fun e => (e.invoiceId, e.sequence)}
      {webhooks : Table WebhookEvent (·.idempotencyKey)}
      (hrow : db.transfers.find? t.key = some t) (hcredited : t.creditedAt.isSome = true)
      (hid : t.invoiceId = some invoice.id)
      (hfind : db.invoices.find? invoice.id = some invoice)
      (hallowed : isActorAllowed invoice.status .reconciliationRequired .monitor = true)
      (hsaid : Db.Announced "monitor" db.events db.webhookEvents
        [⟨invoice.id, invoice.status, .reconciliationRequired, .monitor⟩] events webhooks) :
      Effect may db (recordOrphanedCredit (db.withStatus invoice .reconciliationRequired
        .monitor { bumpVersion := true } events webhooks) t.key invoice.id now)
  | expire (hmay : may .expire) {invoice : Invoice} {data : InvoiceData}
      {events : Table PaymentEvent fun e => (e.invoiceId, e.sequence)}
      {webhooks : Table WebhookEvent (·.idempotencyKey)}
      (hfind : db.invoices.find? invoice.id = some invoice)
      (hallowed : isActorAllowed invoice.status .expired .system = true)
      (hamounts : data.amounts = none)
      (hsaid : ∃ actor, (actor = "system" ∨ actor = "system:worker") ∧
        Db.Announced actor db.events db.webhookEvents
          [⟨invoice.id, invoice.status, .expired, .system⟩] events webhooks) :
      Effect may db (db.withStatus invoice .expired .system data events webhooks)
  | create (hmay : may .configure) {invoice : Invoice} {address : PaymentAddress}
      {asset : AssetConfig} {now : Int}
      {events : Table PaymentEvent fun e => (e.invoiceId, e.sequence)}
      {webhooks : Table WebhookEvent (·.idempotencyKey)}
      (hfree : db.invoices.find? invoice.id = none) (hstatus : invoice.status = .pending)
      (haddress : db.addresses.find? address.key = some address)
      (hasset : asset ∈ assetList ∧ asset.network = invoice.network ∧
        invoice.paymentAsset = asset.symbol ∧ invoice.paymentDecimals = asset.decimals ∧
        invoice.tokenContract = asset.contractAddress)
      (hmerchant : (db.merchants.find? invoice.merchantId).isSome = true)
      (hopened : Opened db.events invoice.id events)
      (hemitted : Db.Emitted db.webhookEvents invoice.id (some .paymentCreated) webhooks) :
      Effect may db { db with
        invoices := db.invoices.insert invoice hfree
        addresses := db.addresses.modify address.key (InvoicesService.assign invoice.id now)
          (InvoicesService.assign_key invoice.id now)
        events := events
        webhookEvents := webhooks }
  | merchants (hmay : may .configure) {merchants : Table Merchant (·.id)}
      (hkept : ∀ id, (db.merchants.find? id).isSome = true →
        (merchants.find? id).isSome = true) :
      Effect may db { db with merchants }
  | address (hmay : may .configure) {row : PaymentAddress}
      (hfree : db.addresses.find? row.key = none) (hunused : row.invoiceId = none) :
      Effect may db { db with addresses := db.addresses.insert row hfree }
  /-- The write of a cancellation, on whatever is stored by then. -/
  | cancel (hmay : may .cancel) {stored : Invoice} {data : InvoiceData}
      {events : Table PaymentEvent fun e => (e.invoiceId, e.sequence)}
      {webhooks : Table WebhookEvent (·.idempotencyKey)} {addresses : Table PaymentAddress (·.key)}
      (hfind : db.invoices.find? stored.id = some stored) (hamounts : data.amounts = none)
      (hkept : ∀ k, (addresses.find? k).map (·.invoiceId) =
        (db.addresses.find? k).map (·.invoiceId))
      (hsaid : ∃ actor source, Db.Announced actor db.events db.webhookEvents
        [⟨stored.id, source, .cancelled, .merchant⟩] events webhooks) :
      Effect may db { db.withStatus stored .cancelled .merchant data events webhooks with
        addresses }
  | edge (hmay : may .takeEdge) {invoice : Invoice} {target : InvoiceStatus}
      {actor : TransitionActor} {data : InvoiceData}
      {events : Table PaymentEvent fun e => (e.invoiceId, e.sequence)}
      {webhooks : Table WebhookEvent (·.idempotencyKey)}
      (hfind : db.invoices.find? invoice.id = some invoice)
      (hallowed : isActorAllowed invoice.status target actor = true)
      (hamounts : data.amounts = none)
      (hreported : Db.Reported db.events ⟨invoice.id, invoice.status, target, actor⟩ actor.name
        events)
      (hsilent : webhooks = db.webhookEvents) :
      Effect may db (db.withStatus invoice target actor data events webhooks)

/-- A sequence of effects. -/
abbrev Effects (may : Right → Prop) : Db → Db → Prop := Relation.ReflTransGen (Effect may)

variable {may : Right → Prop} {db db' : Db}

/-- The rights of an effect that is no accepted payment. -/
def Quiet (may : Right → Prop) (r : Right) : Prop := may r ∧ r ≠ .accept

theorem quiet_accept : ¬ Quiet may .accept := fun h => h.2 rfl

/-! ## The monitor's transactions -/

theorem recordTransfer_effects (hmay : may .record) {s : Sighting}
    (h : recordTransfer db s = .ok db') : Effects may db db' := by
  rcases recordTransfer_eq_ok h with ⟨-, rfl⟩ | ⟨huncredited, row, hrow, hcases⟩
  · exact .refl
  · rcases hcases with ⟨rfl, hstays⟩ |
      ⟨invoice, target, data, events, webhooks, hinvoice, htarget, hallowed, hamounts, hsaid, rfl⟩
    · exact .single (.record hmay huncredited hrow hstays)
    · exact .single (.recordMove hmay huncredited hrow hinvoice htarget hallowed hamounts hsaid)

theorem recordTransfers_effects (hmay : may .record) {network : Network}
    {chainTx : ChainTransaction} {transfers : List ParsedTransfer} {graceSeconds : Nat} {now : Int}
    (h : recordTransfers network chainTx transfers graceSeconds now db = .ok db') :
    Effects may db db' := by
  obtain ⟨chainTxs, hchain⟩ := recordChainTransaction_eq db network chainTx now
  unfold recordTransfers at h
  rw [hchain] at h
  refine foldlM_invariant (Effects may db) (.single (.chainTxs chainTxs)) ?_ h
  intro transfer _ a b ha hb
  exact ha.trans (recordTransfer_effects hmay hb)

/-- The writing half of a settlement is one effect. -/
theorem settleInvoice_effect (hmay : may .settle ∧ may .accept) {invoice : Invoice}
    {merchant : Merchant} {target : InvoiceStatus} {now : Int}
    (hsettle : Settleable db invoice merchant target)
    (h : settleInvoice db invoice merchant target now = .ok db') : Effect may db db' := by
  obtain ⟨hallowed, ⟨hauto, events, webhooks, hsaid, rfl⟩ | ⟨hauto, db1, hpaid, hcredits⟩⟩ :=
    settleInvoice_eq_ok hsettle.invoice_found h
  · exact .settle hmay.1 hsettle hallowed hauto hsaid
  · exact .accept hmay.2 ⟨hsettle, hallowed, hauto, _, _, hpaid, hcredits⟩

theorem finalizeInvoice_effects (hmay : may .settle ∧ may .accept) {invoiceId : String}
    {now : Int} (h : finalizeInvoice db invoiceId now = .ok db') : Effects may db db' := by
  rcases finalizeInvoice_eq_ok h with rfl | ⟨invoice, merchant, target, -, hsettle, h⟩
  · exact .refl
  · exact .single (settleInvoice_effect hmay hsettle h)

/-- Up to its settlement, confirming a transfer is at most two effects. -/
theorem confirmPrefix_effects (hmay : may .settle) {transfer : TokenTransfer} {invoice : Invoice}
    {n : Nat} {db1 : Db}
    (hset : db.setConfirmations transfer.key n = .ok db1)
    (hfind : db1.invoices.find? invoice.id = some invoice)
    (h : advanceConfirming db1 invoice n = .ok db') : Effects may db db' := by
  obtain ⟨⟨t, hrow⟩, rfl⟩ := Db.setConfirmations_eq_ok.1 hset
  have hfirst : Effects may db _ := .single (.confirmations hmay n hrow)
  rcases advanceConfirming_eq_ok hfind h with
    ⟨rfl, -⟩ | ⟨-, hallowed, events, webhooks, hsaid, rfl⟩
  · exact hfirst
  · exact hfirst.tail (.confirming hmay hfind hallowed hsaid)

theorem confirmTransfer_effects (hmay : may .settle ∧ may .accept) {transfer : TokenTransfer}
    {info : ConfirmationInfo} {now : Int}
    (h : confirmTransfer transfer info now db = .ok db') : Effects may db db' := by
  obtain ⟨db1, hset, ⟨-, rfl⟩ | ⟨invoice, db2, -, hfind, hadvance, hrest⟩⟩ :=
    confirmTransfer_eq_ok h
  · obtain ⟨⟨t, hrow⟩, rfl⟩ := Db.setConfirmations_eq_ok.1 hset
    exact .single (.confirmations hmay.1 _ hrow)
  · have hprefix : Effects may db db2 := confirmPrefix_effects hmay.1 hset hfind hadvance
    rcases hrest with ⟨-, rfl⟩ | ⟨-, hfinal⟩
    · exact hprefix
    · exact hprefix.trans (finalizeInvoice_effects hmay hfinal)

theorem revert_effects (hmay : may .orphan) {invoiceId : String}
    (h : revertInvoiceAfterOrphan db invoiceId = .ok db') : Effects may db db' := by
  obtain ⟨invoice, hfind, rfl |
    ⟨target, events, webhooks, hallowed, htarget, hreported, hsilent, rfl⟩⟩ :=
    revertInvoiceAfterOrphan_eq_ok h
  · exact .refl
  · have hid : invoice.id = invoiceId := Table.key_of_find? hfind
    subst hid
    exact .single (.revert hmay hfind hallowed htarget hreported hsilent)

theorem orphanTransfer_effects (hmay : may .orphan) {t : TokenTransfer} {now : Int}
    (hrow : db.transfers.find? t.key = some t) (h : orphanTransfer now db t = .ok db') :
    Effects may db db' := by
  rcases orphanTransfer_eq_ok h with ⟨hcredited, h⟩ | ⟨huncredited, db1, hmark, hrest⟩
  · rcases flagOrphanedCredit_eq_ok h with ⟨-, rfl⟩ | ⟨invoice, hid, hfind, hcases⟩
    · exact .refl
    · rcases hcases with ⟨-, rfl⟩ | ⟨events, webhooks, hallowed, hsaid, rfl⟩
      · exact .refl
      · exact .single (.flag hmay hrow hcredited hid hfind hallowed hsaid)
  · obtain ⟨-, rfl⟩ := Db.markOrphaned_eq_ok.1 hmark
    have hfirst : Effects may db _ := .single (.orphan hmay hrow huncredited)
    rcases hrest with ⟨-, rfl⟩ | ⟨invoiceId, -, hrevert⟩
    · exact hfirst
    · exact hfirst.trans (revert_effects hmay hrevert)

/-- Orphaning one transfer leaves the rows of the others as they are. -/
theorem orphanTransfer_find?_ne {t : TokenTransfer} {now : Int} {k : TransferKey}
    (hk : k ≠ t.key) (h : orphanTransfer now db t = .ok db') :
    db'.transfers.find? k = db.transfers.find? k := by
  rcases orphanTransfer_eq_ok h with ⟨-, h⟩ | ⟨-, db1, hmark, hrest⟩
  · rcases flagOrphanedCredit_eq_ok h with ⟨-, rfl⟩ | ⟨invoice, -, -, hcases⟩
    · rfl
    · rcases hcases with ⟨-, rfl⟩ | ⟨events, webhooks, -, -, rfl⟩ <;> rfl
  · obtain ⟨-, rfl⟩ := Db.markOrphaned_eq_ok.1 hmark
    rcases hrest with ⟨-, rfl⟩ | ⟨invoiceId, -, hrevert⟩
    · simp only [Table.find?_modify_ne hk]
    · obtain ⟨invoice, -, rfl | ⟨target, events, webhooks, -, -, -, -, rfl⟩⟩ :=
        revertInvoiceAfterOrphan_eq_ok hrevert
      · simp only [Table.find?_modify_ne hk]
      · simp only [Db.withStatus, Table.find?_modify_ne hk]

/-- The rows of a table, each found under its own key, without repetition. -/
theorem find?_of_mem_filter (db : Db) (p : TokenTransfer → Bool) :
    (∀ t ∈ db.transfers.rows.filter p, db.transfers.find? t.key = some t) ∧
      ((db.transfers.rows.filter p).map (·.key)).Nodup :=
  ⟨fun _ ht => Table.find?_of_mem (List.mem_filter.1 ht).1,
    List.Nodup.sublist (List.filter_sublist.map _) db.transfers.nodup⟩

/-- The loop over the transfers of an orphaned transaction meets each row as it was read. -/
theorem orphanTransfers_effects (hmay : may .orphan) {l : List TokenTransfer} {now : Int}
    (hrows : ∀ t ∈ l, db.transfers.find? t.key = some t) (hnodup : (l.map (·.key)).Nodup)
    (h : l.foldlM (orphanTransfer now) db = .ok db') : Effects may db db' := by
  have hinv := foldlM_invariant_rest
    (fun rest x => (rest.map (·.key)).Nodup ∧
      (∀ t ∈ rest, x.transfers.find? t.key = some t) ∧ Effects may db x)
    ⟨hnodup, hrows, .refl⟩ ?_ h
  · exact hinv.2.2
  · rintro t rest a b ⟨hnd, hfound, heff⟩ hstep
    rw [List.map_cons, List.nodup_cons] at hnd
    refine ⟨hnd.2, fun t' ht' => ?_,
      heff.trans (orphanTransfer_effects hmay (hfound t List.mem_cons_self) hstep)⟩
    have hne : t'.key ≠ t.key := fun heq => hnd.1 (heq ▸ List.mem_map_of_mem ht')
    rw [orphanTransfer_find?_ne hne hstep]
    exact hfound t' (List.mem_cons_of_mem _ ht')

theorem orphanTransaction_effects (hmay : may .orphan) {key : TxKey} {now : Int}
    (h : orphanTransaction key now db = .ok db') : Effects may db db' := by
  obtain ⟨db1, hmark, hloop⟩ := bind_eq_ok.1 h
  obtain ⟨chainTxs, rfl⟩ := markTxOrphaned_eq_ok hmark
  obtain ⟨hrows, hnodup⟩ := find?_of_mem_filter { db with chainTxs }
    fun t => decide (t.key.txKey = key)
  exact (Relation.ReflTransGen.single (.chainTxs chainTxs)).trans
    (orphanTransfers_effects hmay hrows hnodup hloop)

/-! ## The other services -/

/-- The sweep's transaction leaves an invoice that it may not expire, and expires any other. -/
theorem expireOne_eq_ok {invoiceId : String} {now : Int}
    (h : ExpirySweep.expireOne invoiceId now db = .ok db') :
    ∃ invoice, invoice.id = invoiceId ∧ db.invoices.find? invoice.id = some invoice ∧
      ((ExpirySweep.mayExpire invoice now = false ∧ db' = db) ∨
        (ExpirySweep.mayExpire invoice now = true ∧
          isActorAllowed invoice.status .expired .system = true ∧ ∃ events webhooks,
            Db.Announced "system:worker" db.events db.webhookEvents
              [⟨invoice.id, invoice.status, .expired, .system⟩] events webhooks ∧
            db' = db.withStatus invoice .expired .system
              { expiredAt := some now, bumpVersion := true } events webhooks)) := by
  obtain ⟨invoice, hinvoice, hbody⟩ := bind_eq_ok.1 h
  obtain ⟨hid, hfind⟩ := Db.found hinvoice
  refine ⟨invoice, hid, hfind, ?_⟩
  split_ifs at hbody with hmay
  · cases hbody
    exact .inl ⟨by simpa using hmay, rfl⟩
  · obtain ⟨db1, hmove, hret⟩ := bind_eq_ok.1 hbody
    obtain ⟨hallowed, stored, events, hstored, hreported, rfl⟩ := Db.applyTransition_eq_ok hmove
    have hsame : stored = invoice :=
      Option.some.inj (hstored.symm.trans (Db.findInvoice_eq_ok.1 hinvoice))
    subst hsame
    obtain ⟨webhooks, hemitted, hwebhooks⟩ := Db.upsertWebhook_eq
      (db.withStatus stored .expired .system { expiredAt := some now, bumpVersion := true } events
        db.webhookEvents) .paymentExpired stored.merchantId invoiceId stored.orderId
    have hdb' := (pure_eq_ok.1 hret).symm.trans hwebhooks
    subst hdb'
    subst hid
    exact .inr ⟨by simpa using hmay, hallowed, events, webhooks, .single hreported hemitted, rfl⟩

theorem expireOne_effects (hmay : may .expire) {invoiceId : String} {now : Int}
    (h : ExpirySweep.expireOne invoiceId now db = .ok db') : Effects may db db' := by
  obtain ⟨invoice, -, hfind, ⟨-, rfl⟩ | ⟨-, hallowed, events, webhooks, hsaid, rfl⟩⟩ :=
    expireOne_eq_ok h
  · exact .refl
  · exact .single (.expire hmay hfind hallowed rfl ⟨_, .inr rfl, hsaid⟩)

theorem expireOnRead_eq_ok {invoice : Invoice} {now : Int}
    (hfind : db.invoices.find? invoice.id = some invoice)
    (h : InvoicesService.expireOnRead invoice now db = .ok db') :
    isActorAllowed invoice.status .expired .system = true ∧ ∃ events webhooks,
      Db.Announced "system" db.events db.webhookEvents
        [⟨invoice.id, invoice.status, .expired, .system⟩] events webhooks ∧
      db' = db.withStatus invoice .expired .system
        { expiredAt := some now, bumpVersion := true } events webhooks := by
  obtain ⟨db1, hmove, hwebhook⟩ := bind_eq_ok.1 h
  obtain ⟨hallowed, stored, events, hstored, hreported, rfl⟩ := Db.applyTransition_eq_ok hmove
  have hsame : stored = invoice := Option.some.inj (hstored.symm.trans hfind)
  subst hsame
  obtain ⟨webhooks, hemitted, rfl⟩ := Db.createWebhook_eq_ok hwebhook
  exact ⟨hallowed, events, webhooks, .single hreported hemitted, rfl⟩

/-- Loading leaves an invoice that is not due, and expires any other. -/
theorem loadAndMaybeExpire_cases {merchantId id : String} {now : Int} {invoice : Invoice}
    (h : InvoicesService.loadAndMaybeExpire merchantId id now db = .ok (db', invoice)) :
    (invoice.id = id ∧ db'.invoices.find? id = some invoice) ∧ ∃ found,
      (db.invoices.find? id).filter (·.merchantId = merchantId) = some found ∧
      ((InvoicesService.mayExpire found now = false ∧ db' = db) ∨
        (InvoicesService.mayExpire found now = true ∧
          isActorAllowed found.status .expired .system = true ∧ ∃ events webhooks,
            Db.Announced "system" db.events db.webhookEvents
              [⟨found.id, found.status, .expired, .system⟩] events webhooks ∧
            db' = db.withStatus found .expired .system
              { expiredAt := some now, bumpVersion := true } events webhooks)) := by
  unfold InvoicesService.loadAndMaybeExpire at h
  split at h
  · cases h
  · next found hfound =>
    obtain ⟨hfind, -⟩ := Option.filter_eq_some_iff.1 hfound
    have hid : found.id = id := Table.key_of_find? hfind
    split_ifs at h with hmay
    · obtain ⟨db1, hexpire, hrest⟩ := bind_eq_ok.1 h
      obtain ⟨fresh, hfresh, hret⟩ := bind_eq_ok.1 hrest
      cases hret
      exact ⟨⟨(Db.found hfresh).1, Db.findInvoice_eq_ok.1 hfresh⟩, found, hfound,
        .inr ⟨hmay, expireOnRead_eq_ok (hid ▸ hfind) hexpire⟩⟩
    · cases h
      exact ⟨⟨hid, hfind⟩, _, hfound, .inl ⟨by simpa using hmay, rfl⟩⟩

/-- Loading returns the row it leaves, expired or not. -/
theorem loadAndMaybeExpire_eq_ok (hmay : may .expire) {merchantId id : String} {now : Int}
    {invoice : Invoice}
    (h : InvoicesService.loadAndMaybeExpire merchantId id now db = .ok (db', invoice)) :
    Effects may db db' ∧ invoice.id = id ∧ db'.invoices.find? id = some invoice := by
  obtain ⟨hleft, found, hfound, ⟨-, rfl⟩ | ⟨-, hallowed, events, webhooks, hsaid, rfl⟩⟩ :=
    loadAndMaybeExpire_cases h
  · exact ⟨.refl, hleft⟩
  · obtain ⟨hfind, -⟩ := Option.filter_eq_some_iff.1 hfound
    have hid : found.id = id := Table.key_of_find? hfind
    exact ⟨.single (.expire hmay (hid ▸ hfind) hallowed rfl ⟨_, .inl rfl, hsaid⟩), hleft⟩

theorem load_effects (hmay : may .expire) {merchantId id : String} {now : Int}
    (h : Transaction.load merchantId id now db = .ok db') : Effects may db db' := by
  unfold Transaction.load at h
  cases hload : InvoicesService.loadAndMaybeExpire merchantId id now db with
  | error e => rw [hload] at h; cases h
  | ok r =>
    rw [hload] at h
    cases h
    exact (loadAndMaybeExpire_eq_ok hmay hload).1

/-- The first step of a cancellation: load, assert on what was loaded, and look up its address. -/
theorem cancelRead_eq_ok {merchantId id : String} {now : Int} {read : InvoicesService.CancelRead}
    (h : InvoicesService.cancelRead merchantId id now db = .ok (db', read)) :
    InvoicesService.loadAndMaybeExpire merchantId id now db = .ok (db', read.invoice) ∧
      isActorAllowed read.invoice.status .cancelled .merchant = true ∧
      read.paymentAddress = db'.addresses.rows.find? fun a => a.invoiceId = some id := by
  obtain ⟨⟨db1, invoice⟩, hload, hrest⟩ := bind_eq_ok.1 h
  obtain ⟨rule, hrule, hret⟩ := bind_eq_ok.1 hrest
  cases hret
  exact ⟨hload, isActorAllowed_of_ok hrule, rfl⟩

/-- Retiring an address keeps the invoice it serves. -/
theorem retireAddress_eq_ok {address : Option PaymentAddress} {now : Int}
    (h : InvoicesService.retireAddress db address now = .ok db') :
    ∃ addresses, (∀ k, (addresses.find? k).map (·.invoiceId) =
        (db.addresses.find? k).map (·.invoiceId)) ∧ db' = { db with addresses } := by
  unfold InvoicesService.retireAddress at h
  cases address with
  | none => cases h; exact ⟨_, fun k => rfl, rfl⟩
  | some a =>
    dsimp only at h
    split at h
    · cases h
    · cases h
      refine ⟨_, ?_, rfl⟩
      intro k
      apply Table.map_find?_modify
      intro r
      rfl

/-- The write transaction of a cancellation: whatever is stored by then is overwritten. -/
theorem cancelWrite_eq_ok {read : InvoicesService.CancelRead} {now : Int}
    (h : InvoicesService.cancelWrite read now db = .ok db') :
    ∃ (stored : Invoice) (data : InvoiceData)
      (events : Table PaymentEvent fun e => (e.invoiceId, e.sequence))
      (webhooks : Table WebhookEvent (·.idempotencyKey)) (addresses : Table PaymentAddress (·.key)),
      stored.id = read.invoice.id ∧ db.invoices.find? stored.id = some stored ∧
      data.amounts = none ∧
      (∀ k, (addresses.find? k).map (·.invoiceId) =
        (db.addresses.find? k).map (·.invoiceId)) ∧
      Db.Announced ("merchant:" ++ read.merchantId) db.events db.webhookEvents
        [⟨stored.id, read.invoice.status, .cancelled, .merchant⟩] events webhooks ∧
      db' = { db.withStatus stored .cancelled .merchant data events webhooks with addresses } := by
  obtain ⟨db1, hwrite, hrest⟩ := bind_eq_ok.1 h
  obtain ⟨stored, events, hstored, hreported, rfl⟩ := Db.writeStatus_eq_ok hwrite
  obtain ⟨db2, hretire, hwebhook⟩ := bind_eq_ok.1 hrest
  obtain ⟨addresses, hkept, rfl⟩ := retireAddress_eq_ok hretire
  obtain ⟨webhooks, hemitted, rfl⟩ := Db.createWebhook_eq_ok hwebhook
  have hid : stored.id = read.invoice.id := Table.key_of_find? hstored
  rw [← hid] at hemitted
  exact ⟨stored, _, events, webhooks, addresses, hid, hid ▸ hstored, rfl, hkept,
    .single hreported hemitted, rfl⟩

theorem cancelWrite_effects (hmay : may .cancel) {read : InvoicesService.CancelRead} {now : Int}
    (h : InvoicesService.cancelWrite read now db = .ok db') : Effects may db db' := by
  obtain ⟨stored, data, events, webhooks, addresses, -, hfind, hamounts, hkept, hsaid, rfl⟩ :=
    cancelWrite_eq_ok h
  exact .single (.cancel hmay hfind hamounts hkept ⟨_, _, hsaid⟩)

/-- What a new invoice takes over from its request, the asset list and its merchant. -/
theorem invoiceRow_eq_ok {request : InvoicesService.CreateInvoice} {asset : AssetConfig}
    {merchant : Merchant} {required : Nat} {now : Int} {invoice : Invoice}
    (h : InvoicesService.invoiceRow request asset merchant required now = .ok invoice) :
    invoice.status = .pending ∧ invoice.network = request.network ∧
      invoice.merchantId = request.merchantId ∧ invoice.paymentAsset = asset.symbol ∧
      invoice.paymentDecimals = asset.decimals ∧ invoice.tokenContract = asset.contractAddress := by
  unfold InvoicesService.invoiceRow at h
  dsimp only at h
  split_ifs at h
  cases h
  exact ⟨rfl, rfl, rfl, rfl, rfl, rfl⟩

theorem freeAddress_mem {merchantId : String} {network : Network} {symbol : String}
    {address : PaymentAddress}
    (h : InvoicesService.freeAddress db merchantId network symbol = some address) :
    address ∈ db.addresses := by
  have hmem := List.mem_of_mem_head? h
  rw [List.mem_mergeSort] at hmem
  exact (List.mem_filter.1 hmem).1

theorem createInvoice_effects (hmay : may .configure) {request : InvoicesService.CreateInvoice}
    {now : Int}
    (h : InvoicesService.createInvoice request now db = .ok db') : Effects may db db' := by
  unfold InvoicesService.createInvoice at h
  cases hasset : findAsset request.network request.asset with
  | none => rw [hasset] at h; cases h
  | some asset =>
    rw [hasset] at h
    obtain ⟨merchant, hmerchant, h1⟩ := bind_eq_ok.1 h
    obtain ⟨required, -, h2⟩ := bind_eq_ok.1 h1
    obtain ⟨invoice, hrow, h3⟩ := bind_eq_ok.1 h2
    obtain ⟨hstatus, hnetwork, hmid, hsymbol, hdecimals, hcontract⟩ := invoiceRow_eq_ok hrow
    have hlisted : asset ∈ assetList ∧ asset.network = request.network := by
      obtain ⟨hmem, hp⟩ := find?_of_enabledOnly hasset
      simp only [Bool.decide_and, Bool.and_eq_true, decide_eq_true_eq] at hp
      exact ⟨hmem, hp.1⟩
    unfold InvoicesService.createInvoiceTransaction at h3
    cases haddress : InvoicesService.freeAddress db invoice.merchantId invoice.network
        invoice.paymentAsset with
    | none => rw [haddress] at h3; cases h3
    | some address =>
      rw [haddress] at h3
      obtain ⟨-, -, h4⟩ := bind_eq_ok.1 h3
      obtain ⟨db1, hcreate, h5⟩ := bind_eq_ok.1 h4
      obtain ⟨hfree, rfl⟩ := Db.createInvoice_eq_ok hcreate
      obtain ⟨db2, hevent1, h6⟩ := bind_eq_ok.1 h5
      obtain ⟨hfirst, rfl⟩ := Db.createEvent_eq_ok hevent1
      obtain ⟨db3, hevent2, h7⟩ := bind_eq_ok.1 h6
      obtain ⟨hsecond, rfl⟩ := Db.createEvent_eq_ok hevent2
      obtain ⟨webhooks, hemitted, rfl⟩ := Db.createWebhook_eq_ok h7
      refine .single (.create hmay hfree hstatus (Table.find?_of_mem (freeAddress_mem haddress))
        ⟨hlisted.1, hlisted.2.trans hnetwork.symm, hsymbol, hdecimals, hcontract⟩ ?_
        ⟨_, _, hfirst, hsecond, ⟨rfl, rfl, rfl, rfl, rfl⟩, ⟨rfl, rfl, rfl, rfl, rfl⟩, rfl⟩ hemitted)
      rw [hmid, Db.findMerchant_eq_ok.1 hmerchant]
      rfl

theorem registerMerchant_eq_ok {merchant : Merchant}
    (h : Environment.registerMerchant merchant db = .ok db') :
    ∃ hfree, db' = { db with merchants := db.merchants.insert merchant hfree } := by
  unfold Environment.registerMerchant at h
  split at h
  · cases h
  · next hfree =>
    cases h
    exact ⟨hfree, rfl⟩

theorem updateMerchant_eq_ok {settings : Merchant}
    (h : Environment.updateMerchant settings db = .ok db') :
    db' = { db with
      merchants := db.merchants.modify settings.id (Environment.withSettings settings)
        (Environment.withSettings_id settings) } := by
  unfold Environment.updateMerchant at h
  split at h
  · cases h
  · cases h
    rfl

theorem registerAddress_eq_ok {merchantId address : String} {key : AddressKey}
    {assetSymbol : Option String} {now : Int}
    (h : Environment.registerAddress merchantId key address assetSymbol now db = .ok db') :
    ∃ (row : PaymentAddress) (hfree : db.addresses.find? row.key = none),
      row.status = .available ∧ row.invoiceId = none ∧
      db' = { db with addresses := db.addresses.insert row hfree } := by
  unfold Environment.registerAddress at h
  split at h
  · cases h
  · next hfree =>
    cases h
    exact ⟨_, hfree, rfl, rfl, rfl⟩

theorem registerMerchant_effects (hmay : may .configure) {merchant : Merchant}
    (h : Environment.registerMerchant merchant db = .ok db') : Effects may db db' := by
  obtain ⟨hfree, rfl⟩ := registerMerchant_eq_ok h
  refine .single (.merchants hmay fun id hid => ?_)
  rw [Table.find?_insert]
  split
  · rfl
  · exact hid

theorem updateMerchant_effects (hmay : may .configure) {settings : Merchant}
    (h : Environment.updateMerchant settings db = .ok db') : Effects may db db' := by
  obtain rfl := updateMerchant_eq_ok h
  refine .single (.merchants hmay fun id hid => ?_)
  rw [Table.find?_modify_isSome]
  exact hid

theorem registerAddress_effects (hmay : may .configure) {merchantId address : String}
    {key : AddressKey} {assetSymbol : Option String} {now : Int}
    (h : Environment.registerAddress merchantId key address assetSymbol now db = .ok db') :
    Effects may db db' := by
  obtain ⟨row, hfree, -, hunused, rfl⟩ := registerAddress_eq_ok h
  exact .single (.address hmay hfree hunused)

theorem takeEdge_effects (hmay : may .takeEdge) {invoiceId : String} {target : InvoiceStatus}
    {actor : TransitionActor}
    (h : Environment.takeEdge invoiceId target actor db = .ok db') :
    Effects may db db' := by
  obtain ⟨invoice, hinvoice, hmove⟩ := bind_eq_ok.1 h
  obtain ⟨hallowed, stored, events, hstored, hreported, rfl⟩ := Db.applyTransition_eq_ok hmove
  have hsame : stored = invoice :=
    Option.some.inj (hstored.symm.trans (Db.findInvoice_eq_ok.1 hinvoice))
  subst hsame
  exact .single (.edge hmay (Db.found hinvoice).2 hallowed rfl hreported rfl)

/-! ## All transactions -/

namespace Transaction

/-- The rights of the service that issues a transaction. -/
def rights : Transaction → Right → Prop
  | recordTransfers _ _ _ _ _, r => r = .record
  | confirmTransfer _ _ _, r => r = .settle ∨ r = .accept
  | orphanTransaction _ _, r => r = .orphan
  | expireOne _ _, r => r = .expire
  | loadAndMaybeExpire _ _ _, r => r = .expire
  | cancelWrite _ _, r => r = .cancel
  | takeEdge _ _ _, r => r = .takeEdge
  | _, r => r = .configure

/-- **A transaction that commits is a sequence of effects**, using no right but its own. -/
theorem effects {t : Transaction} (h : t.apply db = .ok db') : Effects t.rights db db' := by
  cases t with
  | recordTransfers network chainTx transfers graceSeconds now =>
    exact recordTransfers_effects rfl h
  | confirmTransfer transfer info now =>
    exact confirmTransfer_effects ⟨.inl rfl, .inr rfl⟩ h
  | orphanTransaction key now => exact orphanTransaction_effects rfl h
  | expireOne invoiceId now => exact expireOne_effects rfl h
  | loadAndMaybeExpire merchantId invoiceId now => exact load_effects rfl h
  | cancelWrite read now => exact cancelWrite_effects rfl h
  | createInvoice request now => exact createInvoice_effects rfl h
  | registerMerchant merchant => exact registerMerchant_effects rfl h
  | updateMerchant settings => exact updateMerchant_effects rfl h
  | registerAddress merchantId key address assetSymbol now =>
    exact registerAddress_effects rfl h
  | takeEdge invoiceId target actor => exact takeEdge_effects rfl h

/-- An automatic transaction neither cancels nor takes an edge by hand. -/
theorem Automatic.rights {t : Transaction} (h : t.Automatic) :
    ¬ t.rights .cancel ∧ ¬ t.rights .takeEdge := by
  cases t with
  | cancelWrite read now => exact h.elim
  | takeEdge invoiceId target actor => exact h.elim
  | confirmTransfer transfer info now => exact ⟨by simp [Transaction.rights], by simp [Transaction.rights]⟩
  | _ => exact ⟨Right.noConfusion, Right.noConfusion⟩

end Transaction

/-- What every effect keeps, a sequence of effects keeps. -/
theorem Effects.invariant (P : Db → Prop) (h : Effects may db db') (h0 : P db)
    (hstep : ∀ a b, P a → Effect may a b → P b) : P db' := by
  induction h with
  | refl => exact h0
  | tail _ hab ih => exact hstep _ _ ih hab

/-- What every effect keeps, every run keeps. -/
theorem Effects.run_invariant {allowed : Operation → Prop} {meets : Transaction → Db → Prop}
    {kind : Transaction → Prop} {init s : Db} (P : Db → Prop)
    (h : gateway.Reachable allowed meets init s)
    (hkind : ∀ op s, allowed op → ∀ t, Except.ok t ∈ op.script s → kind t) (h0 : P init)
    (hstep : ∀ t a b, kind t → P a → Effect (Transaction.rights t) a b → P b) : P s := by
  refine h.invariant hkind h0 ?_
  intro t a b ht ha _ hok
  exact (Transaction.effects hok).invariant P ha fun x y hx hxy => hstep t x y ht hx hxy

end PaymentGateway
