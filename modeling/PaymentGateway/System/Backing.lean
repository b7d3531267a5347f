import PaymentGateway.Monitor.Orphaning
import PaymentGateway.Monitor.Report
import PaymentGateway.Monitor.Rescan
import PaymentGateway.System.Invoices

/-!
# What invoices claim and what is left on the chain

An invoice is `Backed` if it does not claim to be paid, or on its way to be, with all the transfers
matched to it orphaned, and if what it has received is still there. After a reorganisation this
should hold of every invoice for which no discrepancy is on record.

**Theorem (`claims_backed`).** It holds in every state of every run whose transactions are
`Sparing`. For the orphaning of a transaction this means: an invoice without a discrepancy that has
transfers in it gets its discrepancy (`Flags`), or loses none that is credited, and the transfers
it keeps cover what it has received.

Without the condition it fails, because an uncredited transfer reverts its invoice only along an
edge to PENDING or DETECTED. There is none from UNDERPAID and OVERPAID, where an invoice counts
transfers that are not credited, and no move resets the received amount.

The invariant (`Accounted`) has no need to look at the chain for an invoice without a discrepancy: its
transfers in orphaned transactions are all marked. What the kinds of transactions do to
the transfers of an invoice differs only in which of them still count (`StillCount`).
-/

namespace PaymentGateway

open Keyed Fallible Transactional MonitorService

variable {db db' : Db} {invoice : Invoice} {id : String}

/-! ## Claims -/

def TxOrphaned (db : Db) (key : TxKey) : Prop :=
  ∃ row ∈ db.chainTxs.find? key, row.status = .orphaned

instance (db : Db) (key : TxKey) : Decidable (TxOrphaned db key) := by
  unfold TxOrphaned
  infer_instance

/-- The transfers matched to an invoice that are still on the chain. -/
def standing (db : Db) (invoiceId : String) : List TokenTransfer :=
  (confirmedTransfers db invoiceId).filter fun t => ¬ TxOrphaned db t.key.txKey

/-- The transfers of an invoice that are not. -/
def vanished (db : Db) (invoiceId : String) : List TokenTransfer :=
  db.transfers.rows.filter fun t =>
    t.invoiceId = some invoiceId ∧ (t.matchStatus = .orphaned ∨ TxOrphaned db t.key.txKey)

/-- The statuses that say that money is there or arriving. -/
def claiming : List InvoiceStatus := [.detected, .confirming, .underpaid, .overpaid, .paid]

structure Backed (db : Db) (invoice : Invoice) : Prop where
  left : invoice.status ∈ claiming → vanished db invoice.id ≠ [] → standing db invoice.id ≠ []
  covered : invoice.receivedAmount ≤ totalAmount (standing db invoice.id)

instance (db : Db) (invoice : Invoice) : Decidable (Backed db invoice) :=
  decidable_of_iff ((invoice.status ∈ claiming → vanished db invoice.id ≠ [] →
      standing db invoice.id ≠ []) ∧ invoice.receivedAmount ≤ totalAmount (standing db invoice.id))
    ⟨fun h => ⟨h.1, h.2⟩, fun h => ⟨h.left, h.covered⟩⟩

/-! ## Sparing transactions -/

/-- The transfers of an invoice that are marked as orphaned. -/
def orphanedTransfers (db : Db) (invoiceId : String) : List TokenTransfer :=
  db.transfers.rows.filter fun t => t.invoiceId = some invoiceId ∧ t.matchStatus = .orphaned

/-- A transfer of an invoice that a transaction, seen once more, has as it was recorded: for the
same invoice, still counting and not smaller. -/
def Confirmed (see : ParsedTransfer → Sighting) (transfers : List ParsedTransfer) (db : Db)
    (t : TokenTransfer) : Prop :=
  t.creditedAt.isSome = true ∨ ∀ p ∈ transfers, (see p).key = t.key → t.amount ≤ p.amount ∧
    ∃ invoice ∈ (see p).invoice db, t.invoiceId = some invoice.id ∧ CountsFor (see p) invoice

instance (see : ParsedTransfer → Sighting) (transfers : List ParsedTransfer) (db : Db)
    (t : TokenTransfer) : Decidable (Confirmed see transfers db t) := by
  unfold Confirmed
  infer_instance

/-- What the invoice keeps of its transfers covers what it has received. -/
def CoveredBy (invoice : Invoice) (kept : List TokenTransfer) : Prop :=
  invoice.receivedAmount ≤ totalAmount kept

instance (invoice : Invoice) (kept : List TokenTransfer) : Decidable (CoveredBy invoice kept) := by
  unfold CoveredBy
  infer_instance

/-- The transfers of a transaction of the chain are orphaned, and an invoice without a discrepancy
has none of them, or will have its discrepancy, or has none that is credited and is left with what
it has received. -/
def SparingOrphan (db : Db) (key : TxKey) (invoice : Invoice) : Prop :=
  transfersIn db key invoice.id = [] ∨ Flags invoice (transfersIn db key invoice.id) ∨
    ((∀ t ∈ transfersIn db key invoice.id, t.creditedAt = none) ∧
      CoveredBy invoice ((confirmedTransfers db invoice.id).filter (·.key.txKey ≠ key)) ∧
      (invoice.status ∈ [.underpaid, .overpaid, .paid] →
        (confirmedTransfers db invoice.id).filter (·.key.txKey ≠ key) ≠ []))

instance (db : Db) (key : TxKey) (invoice : Invoice) : Decidable (SparingOrphan db key invoice) := by
  unfold SparingOrphan
  infer_instance

/-- A transaction that takes from no invoice without a discrepancy what it has received. -/
def Sparing : Transaction → Db → Prop
  | .orphanTransaction key _, db =>
    ∀ invoice ∈ db.invoices.rows, ¬ Flagged db invoice.id → SparingOrphan db key invoice
  | .recordTransfers network chainTx transfers graceSeconds now, db =>
    (transfers.map (·.transferIndex)).Nodup ∧
    ∀ invoice ∈ db.invoices.rows, ¬ Flagged db invoice.id →
      CoveredBy invoice ((confirmedTransfers db invoice.id).filter fun t =>
        Confirmed (sighting network chainTx graceSeconds now) transfers db t) ∧
      (invoice.status ∈ claiming → orphanedTransfers db invoice.id ≠ [] →
        ((confirmedTransfers db invoice.id).filter fun t =>
          Confirmed (sighting network chainTx graceSeconds now) transfers db t) ≠ [])
  | .takeEdge invoiceId target _, db =>
    ∀ invoice ∈ db.invoices.find? invoiceId, ¬ Flagged db invoice.id → target ∈ claiming →
      invoice.status ∈ claiming ∨
        (orphanedTransfers db invoice.id ≠ [] → confirmedTransfers db invoice.id ≠ [])
  | _, _ => True

instance : ∀ (t : Transaction) (db : Db), Decidable (Sparing t db)
  | .orphanTransaction key _, db => inferInstanceAs (Decidable
      (∀ invoice ∈ db.invoices.rows, ¬ Flagged db invoice.id → SparingOrphan db key invoice))
  | .recordTransfers network chainTx transfers graceSeconds now, db => inferInstanceAs (Decidable
      ((transfers.map (·.transferIndex)).Nodup ∧
      ∀ invoice ∈ db.invoices.rows, ¬ Flagged db invoice.id →
        CoveredBy invoice ((confirmedTransfers db invoice.id).filter fun t =>
          Confirmed (sighting network chainTx graceSeconds now) transfers db t) ∧
        (invoice.status ∈ claiming → orphanedTransfers db invoice.id ≠ [] →
          ((confirmedTransfers db invoice.id).filter fun t =>
            Confirmed (sighting network chainTx graceSeconds now) transfers db t) ≠ [])))
  | .takeEdge invoiceId target _, db => inferInstanceAs (Decidable
      (∀ invoice ∈ db.invoices.find? invoiceId, ¬ Flagged db invoice.id → target ∈ claiming →
        invoice.status ∈ claiming ∨
          (orphanedTransfers db invoice.id ≠ [] → confirmedTransfers db invoice.id ≠ [])))
  | .confirmTransfer .., _ | .expireOne .., _ | .loadAndMaybeExpire .., _ | .cancelWrite .., _
  | .createInvoice .., _ | .registerMerchant .., _ | .updateMerchant .., _
  | .registerAddress .., _ => isTrue trivial

/-! ## Totals -/

theorem mem_orphaned_iff {t : TokenTransfer} : t ∈ orphanedTransfers db id ↔
    t ∈ db.transfers ∧ t.invoiceId = some id ∧ t.matchStatus = .orphaned := by
  simp [orphanedTransfers, List.mem_filter, Table.mem_def]

/-- Transfers that can all be found, in no smaller amounts, among others. -/
theorem totalAmount_le {l l' : List TokenTransfer} (hnodup : (l.map (·.key)).Nodup)
    (h : ∀ t ∈ l, ∃ t' ∈ l', t'.key = t.key ∧ t.amount ≤ t'.amount) :
    totalAmount l ≤ totalAmount l' := by
  induction l generalizing l' with
  | nil => exact totalAmount_nonneg l'
  | cons t l ih =>
    rw [List.map_cons, List.nodup_cons] at hnodup
    obtain ⟨t', ht', hkey, hamount⟩ := h t List.mem_cons_self
    obtain ⟨before, after, rfl⟩ := List.append_of_mem ht'
    have hrest : totalAmount l ≤ totalAmount (before ++ after) := by
      refine ih hnodup.2 fun r hr => ?_
      obtain ⟨r', hr', hrkey, hramount⟩ := h r (List.mem_cons_of_mem _ hr)
      have hne : r' ≠ t' := by
        rintro rfl
        exact hnodup.1 (hkey.symm.trans hrkey ▸ List.mem_map_of_mem hr)
      refine ⟨r', ?_, hrkey, hramount⟩
      simp only [List.mem_append, List.mem_cons] at hr' ⊢
      tauto
    simp only [totalAmount, List.map_cons, List.map_append, List.sum_cons, List.sum_append]
      at hrest ⊢
    omega

/-- The transfers of an invoice that are in `keeps` still count, with no less. -/
def StillCount (db db' : Db) (id : String) (keeps : TokenTransfer → Prop) : Prop :=
  ∀ t ∈ confirmedTransfers db id, keeps t →
    ∃ t' ∈ confirmedTransfers db' id, t'.key = t.key ∧ t.amount ≤ t'.amount

section StillCount

variable {keeps : TokenTransfer → Prop} [DecidablePred keeps]

theorem StillCount.total (h : StillCount db db' id keeps) :
    totalAmount ((confirmedTransfers db id).filter keeps) ≤
      totalAmount (confirmedTransfers db' id) := by
  refine totalAmount_le ?_ fun t ht => ?_
  · exact List.Nodup.sublist ((List.filter_sublist.trans List.filter_sublist).map _)
      db.transfers.nodup
  · obtain ⟨hmem, hkeeps⟩ := List.mem_filter.1 ht
    exact h t hmem (of_decide_eq_true hkeeps)

theorem StillCount.ne_nil (h : StillCount db db' id keeps)
    (hne : (confirmedTransfers db id).filter keeps ≠ []) : confirmedTransfers db' id ≠ [] := by
  obtain ⟨t, ht⟩ := List.exists_mem_of_ne_nil _ hne
  obtain ⟨hmem, hkeeps⟩ := List.mem_filter.1 ht
  obtain ⟨t', ht', -⟩ := h t hmem (of_decide_eq_true hkeeps)
  exact List.ne_nil_of_mem ht'

end StillCount

/-! ## The invariant -/

/-- What is known of an invoice without a discrepancy, by the marks of its transfers. -/
structure InvoiceCovered (db : Db) (invoice : Invoice) : Prop where
  left : invoice.status ∈ claiming → orphanedTransfers db invoice.id ≠ [] →
    confirmedTransfers db invoice.id ≠ []
  amount : invoice.receivedAmount ≤ totalAmount (confirmedTransfers db invoice.id)

structure Accounted (db : Db) : Prop where
  /-- The transfers of an orphaned transaction are marked, or their invoices have a discrepancy. -/
  marked : ∀ t ∈ db.transfers, TxOrphaned db t.key.txKey → t.matchStatus = .orphaned ∨
    ∀ id, t.invoiceId = some id → Flagged db id
  covered : ∀ i ∈ db.invoices, ¬ Flagged db i.id → InvoiceCovered db i

theorem accounted_empty : Accounted Db.empty :=
  ⟨fun t ht => absurd ht (Table.not_mem_empty t), fun i hi => absurd hi (Table.not_mem_empty i)⟩

theorem Accounted.backed (h : Accounted db) (hi : invoice ∈ db.invoices)
    (hflag : ¬ Flagged db invoice.id) : Backed db invoice := by
  have hstanding : standing db invoice.id = confirmedTransfers db invoice.id := by
    refine List.filter_eq_self.2 fun t ht => decide_eq_true fun htx => ?_
    obtain ⟨hmem, hid, hstatus⟩ := mem_confirmed_iff.1 ht
    rcases h.marked t hmem htx with horphaned | hflagged
    · rw [horphaned] at hstatus
      rcases hstatus with hstatus | hstatus <;> cases hstatus
    · exact hflag (hflagged _ hid)
  have hcovered := h.covered invoice hi hflag
  refine ⟨fun hclaims hvanished => ?_, hstanding ▸ hcovered.amount⟩
  rw [hstanding]
  refine hcovered.left hclaims ?_
  obtain ⟨t, ht⟩ := List.exists_mem_of_ne_nil _ hvanished
  obtain ⟨hmem, hp⟩ := List.mem_filter.1 ht
  obtain ⟨hid, horphaned⟩ := of_decide_eq_true hp
  refine List.ne_nil_of_mem (mem_orphaned_iff.2 ⟨hmem, hid, ?_⟩)
  rcases horphaned with horphaned | htx
  · exact horphaned
  · exact (h.marked t hmem htx).resolve_right fun hflagged => hflag (hflagged _ hid)

/-- When all its transfers still count and no other of them is orphaned, an invoice stays covered
with what it had received. -/
theorem InvoiceCovered.step {invoice' : Invoice} (h : InvoiceCovered db invoice) (hid : invoice'.id = invoice.id)
    (hcounts : StillCount db db' invoice.id fun _ => True)
    (horphaned : orphanedTransfers db' invoice.id ≠ [] → orphanedTransfers db invoice.id ≠ [])
    (hstatus : invoice'.status ∈ claiming → invoice.status ∈ claiming)
    (hreceived : invoice'.receivedAmount = invoice.receivedAmount) : InvoiceCovered db' invoice' := by
  have hall : (confirmedTransfers db invoice.id).filter (fun _ => decide True) =
      confirmedTransfers db invoice.id := List.filter_eq_self.2 fun _ _ => rfl
  refine ⟨fun hclaims hlost => ?_, ?_⟩
  · rw [hid] at hlost ⊢
    refine hcounts.ne_nil ?_
    rw [hall]
    exact h.left (hstatus hclaims) (horphaned hlost)
  · rw [hreceived, hid]
    have htotal := hcounts.total
    rw [hall] at htotal
    exact h.amount.trans htotal

/-! ## Transactions aside from the transfers -/

/-- The invoices of a database come from those of another, with what they had received, and none
claims anything new. -/
def KeepsClaims (db db' : Db) : Prop :=
  ∀ i ∈ db'.invoices, ∃ i0, db.invoices.find? i.id = some i0 ∧
    i.receivedAmount = i0.receivedAmount ∧ (i.status ∈ claiming → i0.status ∈ claiming)

theorem KeepsClaims.of_eq (h : db'.invoices = db.invoices) : KeepsClaims db db' :=
  fun i hi => ⟨i, Table.find?_of_mem (h ▸ hi), rfl, fun hclaims => hclaims⟩

/-- A transaction that has to do neither with transfers nor with the chain, and leaves the invoices
with what they have received and claims nothing new for them. -/
structure Aside (db db' : Db) : Prop where
  chainTxs : db'.chainTxs = db.chainTxs
  transfers : db'.transfers = db.transfers
  discrepancies : db'.discrepancies = db.discrepancies
  invoices : ∀ i ∈ db'.invoices,
    (∃ i0, db.invoices.find? i.id = some i0 ∧ i.receivedAmount = i0.receivedAmount ∧
      (i.status ∈ claiming → i0.status ∈ claiming)) ∨
    (db.invoices.find? i.id = none ∧ i.receivedAmount = 0)

theorem Aside.of_eq (hchain : db'.chainTxs = db.chainTxs) (htransfers : db'.transfers = db.transfers)
    (hdiscrepancies : db'.discrepancies = db.discrepancies) (hinvoices : db'.invoices = db.invoices) :
    Aside db db' :=
  ⟨hchain, htransfers, hdiscrepancies, fun i hi => .inl (KeepsClaims.of_eq hinvoices i hi)⟩

theorem Aside.refl (db : Db) : Aside db db := .of_eq rfl rfl rfl rfl

theorem Aside.accounted (h : Aside db db') (hl : Linked db) (ha : Accounted db) :
    Accounted db' := by
  have hflagged : ∀ id, Flagged db' id ↔ Flagged db id := by
    intro id
    unfold Flagged
    rw [h.discrepancies]
  have hconfirmed : ∀ id, confirmedTransfers db' id = confirmedTransfers db id := by
    intro id
    unfold confirmedTransfers
    rw [h.transfers]
  have horphaned : ∀ id, orphanedTransfers db' id = orphanedTransfers db id := by
    intro id
    unfold orphanedTransfers
    rw [h.transfers]
  refine ⟨fun t ht htx => ?_, fun i hi hflag => ?_⟩
  · rw [h.transfers] at ht
    unfold TxOrphaned at htx
    rw [h.chainTxs] at htx
    exact (ha.marked t ht htx).imp_right fun hall id hid => (hflagged id).2 (hall id hid)
  · rw [hflagged] at hflag
    rcases h.invoices i hi with ⟨i0, hfind, hreceived, hstatus⟩ | ⟨hnew, hzero⟩
    · have hid : i0.id = i.id := Table.key_of_find? hfind
      rw [← hid] at hflag
      refine (ha.covered i0 (Table.mem_of_find? hfind) hflag).step hid.symm ?_ ?_ hstatus hreceived
      · exact fun t ht _ => ⟨t, by rwa [hconfirmed], rfl, le_rfl⟩
      · rw [horphaned]
        exact fun hlost => hlost
    · refine ⟨fun _ hlost => ?_, ?_⟩
      · obtain ⟨t, ht⟩ := List.exists_mem_of_ne_nil _ hlost
        rw [horphaned] at ht
        obtain ⟨hmem, hid, -⟩ := mem_orphaned_iff.1 ht
        have hsome := hl.transfer t hmem i.id hid
        rw [hnew] at hsome
        cases hsome
      · rw [hzero]
        exact totalAmount_nonneg _

/-- A status write that claims nothing new. -/
theorem keepsClaims_withStatus {stored : Invoice} {target : InvoiceStatus}
    {writer : TransitionActor} {data : InvoiceData} {events : Db.Events} {webhooks : Db.Webhooks}
    (hfind : db.invoices.find? stored.id = some stored) (hamounts : data.amounts = none)
    (htarget : target ∈ claiming → stored.status ∈ claiming) :
    KeepsClaims db (db.withStatus stored target writer data events webhooks) := by
  intro i hi
  have hfound := Table.find?_of_mem hi
  by_cases hid : i.id = stored.id
  · rw [hid, Db.find?_withStatus_self hfind] at hfound
    cases hfound
    refine ⟨stored, hid ▸ hfind, ?_, htarget⟩
    rw [Invoice.receivedAmount_update]
    show ((data.amounts.map (·.total)).getD _) = _
    rw [hamounts]
    rfl
  · rw [Db.find?_withStatus_ne hid] at hfound
    exact ⟨i, hfound, rfl, fun hclaims => hclaims⟩

theorem aside_withStatus {stored : Invoice} {target : InvoiceStatus} {writer : TransitionActor}
    {data : InvoiceData} {events : Db.Events} {webhooks : Db.Webhooks}
    (hfind : db.invoices.find? stored.id = some stored) (hamounts : data.amounts = none)
    (htarget : target ∈ claiming → stored.status ∈ claiming) :
    Aside db (db.withStatus stored target writer data events webhooks) :=
  ⟨rfl, rfl, rfl, fun i hi => .inl (keepsClaims_withStatus hfind hamounts htarget i hi)⟩

theorem aside_expireOne {invoiceId : String} {now : Int}
    (h : ExpirySweep.expireOne invoiceId now db = .ok db') : Aside db db' := by
  obtain ⟨invoice, -, hbody⟩ := bind_eq_ok.1 h
  split_ifs at hbody
  · cases hbody
    exact .refl _
  · obtain ⟨db1, hmove, hret⟩ := bind_eq_ok.1 hbody
    obtain ⟨-, stored, events, hstored, -, rfl⟩ := Db.applyTransition_eq_ok hmove
    obtain ⟨webhooks, -, hwebhooks⟩ := Db.upsertWebhook_eq
      (db.withStatus stored .expired .system { expiredAt := some now, bumpVersion := true } events
        db.webhookEvents) .paymentExpired invoice.merchantId invoiceId invoice.orderId
    obtain rfl := (pure_eq_ok.1 hret).symm.trans hwebhooks
    obtain rfl : stored.id = invoiceId := Table.key_of_find? hstored
    exact aside_withStatus hstored rfl fun hclaims => absurd hclaims (by decide)

theorem aside_expireOnRead {now : Int}
    (h : InvoicesService.expireOnRead invoice now db = .ok db') : Aside db db' := by
  obtain ⟨db1, hmove, hwebhook⟩ := bind_eq_ok.1 h
  obtain ⟨-, stored, events, hstored, -, rfl⟩ := Db.applyTransition_eq_ok hmove
  obtain ⟨webhooks, -, rfl⟩ := Db.createWebhook_eq_ok hwebhook
  have hid : stored.id = invoice.id := Table.key_of_find? hstored
  rw [← hid] at hstored
  exact aside_withStatus hstored rfl fun hclaims => absurd hclaims (by decide)

theorem aside_load {merchantId invoiceId : String} {now : Int}
    (h : Transaction.load merchantId invoiceId now db = .ok db') : Aside db db' := by
  unfold Transaction.load at h
  cases hload : InvoicesService.loadAndMaybeExpire merchantId invoiceId now db with
  | error e => rw [hload] at h; cases h
  | ok r =>
    rw [hload] at h
    cases h
    unfold InvoicesService.loadAndMaybeExpire at hload
    split at hload
    · cases hload
    split_ifs at hload
    · obtain ⟨db1, hexpire, hrest⟩ := bind_eq_ok.1 hload
      obtain ⟨fresh, -, hret⟩ := bind_eq_ok.1 hrest
      cases hret
      exact aside_expireOnRead hexpire
    · cases hload
      exact .refl _

theorem aside_cancelWrite {read : InvoicesService.CancelRead} {now : Int}
    (h : InvoicesService.cancelWrite read now db = .ok db') : Aside db db' := by
  obtain ⟨stored, data, events, webhooks, addresses, -, hfind, hamounts, -, -, rfl⟩ :=
    cancelWrite_eq_ok h
  have hwrite : Aside db (db.withStatus stored .cancelled .merchant data events webhooks) :=
    aside_withStatus hfind hamounts fun hclaims => absurd hclaims (by decide)
  exact ⟨hwrite.chainTxs, hwrite.transfers, hwrite.discrepancies, hwrite.invoices⟩

theorem aside_createInvoice {request : InvoicesService.CreateInvoice} {now : Int}
    (h : InvoicesService.createInvoice request now db = .ok db') : Aside db db' := by
  unfold InvoicesService.createInvoice at h
  cases hasset : findAsset request.network request.asset with
  | none => rw [hasset] at h; cases h
  | some asset =>
    rw [hasset] at h
    obtain ⟨merchant, -, h1⟩ := bind_eq_ok.1 h
    obtain ⟨required, -, h2⟩ := bind_eq_ok.1 h1
    obtain ⟨new, hrow, h3⟩ := bind_eq_ok.1 h2
    have hzero : new.receivedAmount = 0 := by
      unfold InvoicesService.invoiceRow at hrow
      dsimp only at hrow
      split_ifs at hrow
      cases hrow
      rfl
    unfold InvoicesService.createInvoiceTransaction at h3
    split at h3
    · cases h3
    obtain ⟨-, -, h4⟩ := bind_eq_ok.1 h3
    obtain ⟨db1, hcreate, h5⟩ := bind_eq_ok.1 h4
    obtain ⟨hfree, rfl⟩ := Db.createInvoice_eq_ok hcreate
    obtain ⟨db2, hevent1, h6⟩ := bind_eq_ok.1 h5
    obtain ⟨hfirst, rfl⟩ := Db.createEvent_eq_ok hevent1
    obtain ⟨db3, hevent2, h7⟩ := bind_eq_ok.1 h6
    obtain ⟨hsecond, rfl⟩ := Db.createEvent_eq_ok hevent2
    obtain ⟨webhooks, -, rfl⟩ := Db.createWebhook_eq_ok h7
    refine ⟨rfl, rfl, rfl, fun i hi => ?_⟩
    have hi' : i ∈ db.invoices.insert new hfree := hi
    rcases Table.mem_insert.1 hi' with hold | rfl
    · exact .inl ⟨i, Table.find?_of_mem hold, rfl, fun hclaims => hclaims⟩
    · exact .inr ⟨hfree, hzero⟩

theorem aside_registerMerchant {merchant : Merchant}
    (h : Environment.registerMerchant merchant db = .ok db') : Aside db db' := by
  obtain ⟨hfree, rfl⟩ := registerMerchant_eq_ok h
  exact .of_eq rfl rfl rfl rfl

theorem aside_updateMerchant {settings : Merchant}
    (h : Environment.updateMerchant settings db = .ok db') : Aside db db' := by
  obtain rfl := updateMerchant_eq_ok h
  exact .of_eq rfl rfl rfl rfl

theorem aside_registerAddress {merchantId address : String} {key : AddressKey}
    {assetSymbol : Option String} {now : Int}
    (h : Environment.registerAddress merchantId key address assetSymbol now db = .ok db') :
    Aside db db' := by
  obtain ⟨row, hfree, -, -, rfl⟩ := registerAddress_eq_ok h
  exact .of_eq rfl rfl rfl rfl

/-- An edge taken by hand leaves amounts as they are, so it can only claim what is not there. -/
theorem takeEdge_accounted {invoiceId : String} {target : InvoiceStatus} {actor : TransitionActor}
    (ha : Accounted db) (hsparing : Sparing (.takeEdge invoiceId target actor) db)
    (h : Environment.takeEdge invoiceId target actor db = .ok db') : Accounted db' := by
  obtain ⟨invoice, hinvoice, hmove⟩ := bind_eq_ok.1 h
  obtain ⟨-, stored, events, hstored, -, rfl⟩ := Db.applyTransition_eq_ok hmove
  obtain rfl : stored.id = invoiceId := Table.key_of_find? hstored
  refine ⟨ha.marked, fun i hi hflag => ?_⟩
  have hfound := Table.find?_of_mem hi
  by_cases hid : i.id = stored.id
  · rw [hid, Db.find?_withStatus_self hstored] at hfound
    cases hfound
    have hcovered := ha.covered stored (Table.mem_of_find? hstored) hflag
    refine ⟨fun hclaims hlost => ?_, hcovered.amount⟩
    rcases hsparing stored hstored hflag hclaims with hbefore | hleft
    · exact hcovered.left hbefore hlost
    · exact hleft hlost
  · rw [Db.find?_withStatus_ne hid] at hfound
    have hcovered := ha.covered i (Table.mem_of_find? hfound) hflag
    exact ⟨hcovered.left, hcovered.amount⟩

/-! ## Confirmations -/

/-- A settlement sets the received amount to the total of transfers that count. -/
theorem settleInvoice_amounts {merchant : Merchant} {target : InvoiceStatus} {now : Int}
    (hs : Settleable db invoice merchant target)
    (h : settleInvoice db invoice merchant target now = .ok db') :
    db'.chainTxs = db.chainTxs ∧ db'.discrepancies = db.discrepancies ∧
    invoice.status ∈ claiming ∧ ∀ i ∈ db'.invoices, db.invoices.find? i.id = some i ∨
      (i.id = invoice.id ∧ i.receivedAmount = totalAmount (countedTransfers db invoice)) := by
  obtain ⟨hallowed, hcases⟩ := settleInvoice_eq_ok hs.invoice_found h
  have hsource : invoice.status ∈ claiming := by
    rcases settle_source (statusForOutcome_settled hs.target_of) hallowed with hs | hs | hs <;>
      rw [hs] <;> decide
  rcases hcases with ⟨-, events, webhooks, -, rfl⟩ | ⟨-, db3, hpaid, hcredits⟩
  · refine ⟨rfl, rfl, hsource, fun i hi => ?_⟩
    have hfound := Table.find?_of_mem hi
    by_cases hid : i.id = invoice.id
    · rw [hid, Db.find?_withStatus_self hs.invoice_found] at hfound
      cases hfound
      exact .inr ⟨rfl, rfl⟩
    · rw [Db.find?_withStatus_ne hid] at hfound
      exact .inl hfound
  · obtain ⟨f, hf, _, _, _, _, _, _, hrow, -, rfl⟩ := accept_frame hpaid hcredits
    refine ⟨rfl, rfl, hsource, fun i hi => ?_⟩
    have hi' : i ∈ db.invoices.modify invoice.id f hf := hi
    rcases (Table.mem_modify_of_find? hs.invoice_found).1 hi' with rfl | ⟨hmem, -⟩
    · exact .inr ⟨hf _, (hrow _).2.2.1⟩
    · exact .inl (Table.find?_of_mem hmem)

/-- What a report leaves of the amounts and the claims. -/
theorem confirmTransfer_amounts {transfer : TokenTransfer} {info : ConfirmationInfo} {now : Int}
    (h : confirmTransfer transfer info now db = .ok db') :
    db'.chainTxs = db.chainTxs ∧ db'.discrepancies = db.discrepancies ∧
    ∀ i ∈ db'.invoices, ∃ i0, db.invoices.find? i.id = some i0 ∧
      (i.status ∈ claiming → i0.status ∈ claiming) ∧ (i.receivedAmount = i0.receivedAmount ∨
        ∃ x stored, x.transfers = (db.reported transfer.key info.confirmations).transfers ∧
          stored.id = i.id ∧ i.receivedAmount = totalAmount (countedTransfers x stored)) := by
  obtain ⟨db1, hset, hcases⟩ := confirmTransfer_eq_ok h
  obtain rfl : db1 = db.reported transfer.key info.confirmations :=
    (Db.setConfirmations_eq_ok.1 hset).2
  have hkept : KeepsClaims db (db.reported transfer.key info.confirmations) := .of_eq rfl
  rcases hcases with ⟨-, rfl⟩ | ⟨stored, db2, -, hfind, hadvance, hfinal⟩
  · refine ⟨rfl, rfl, fun i hi => ?_⟩
    obtain ⟨i0, hi0, hreceived, hclaims⟩ := hkept i hi
    exact ⟨i0, hi0, hclaims, .inl hreceived⟩
  -- Up to the settlement.
  have hbefore : db2.chainTxs = db.chainTxs ∧ db2.discrepancies = db.discrepancies ∧
      db2.transfers = (db.reported transfer.key info.confirmations).transfers ∧
      KeepsClaims db db2 := by
    rcases advanceConfirming_eq_ok hfind hadvance with
      ⟨rfl, -⟩ | ⟨-, hallowed, events, webhooks, -, rfl⟩
    · exact ⟨rfl, rfl, rfl, hkept⟩
    · have hstored : db.invoices.find? stored.id = some stored := hfind
      refine ⟨rfl, rfl, rfl, ?_⟩
      have hwrite : KeepsClaims db (db.withStatus stored .confirming .monitor
          { bumpVersion := true } events webhooks) := by
        refine keepsClaims_withStatus hstored rfl fun _ => ?_
        rcases confirming_source hallowed with hs | hs <;> rw [hs] <;> decide
      exact hwrite
  obtain ⟨hchain, hdiscrepancies, htransfers, hclaims⟩ := hbefore
  have hplain : db2.chainTxs = db.chainTxs ∧ db2.discrepancies = db.discrepancies ∧
      ∀ i ∈ db2.invoices, ∃ i0, db.invoices.find? i.id = some i0 ∧
        (i.status ∈ claiming → i0.status ∈ claiming) ∧ (i.receivedAmount = i0.receivedAmount ∨
          ∃ x stored, x.transfers = (db.reported transfer.key info.confirmations).transfers ∧
            stored.id = i.id ∧ i.receivedAmount = totalAmount (countedTransfers x stored)) := by
    refine ⟨hchain, hdiscrepancies, fun i hi => ?_⟩
    obtain ⟨i0, hi0, hreceived, hclaim⟩ := hclaims i hi
    exact ⟨i0, hi0, hclaim, .inl hreceived⟩
  rcases hfinal with ⟨-, rfl⟩ | ⟨-, hfinal⟩
  · exact hplain
  rcases finalizeInvoice_eq_ok hfinal with rfl | ⟨settled, merchant, target, -, hs, hsettle⟩
  · exact hplain
  obtain ⟨hchain', hdiscrepancies', hsource, hinvoices⟩ := settleInvoice_amounts hs hsettle
  refine ⟨hchain'.trans hchain, hdiscrepancies'.trans hdiscrepancies, fun i hi => ?_⟩
  rcases hinvoices i hi with hfound | ⟨hid, hreceived⟩
  · obtain ⟨i0, hi0, hreceived, hclaim⟩ := hclaims i (Table.mem_of_find? hfound)
    exact ⟨i0, hi0, hclaim, .inl hreceived⟩
  · obtain ⟨i0, hi0, -, hclaim⟩ := hclaims settled (Table.mem_of_find? hs.invoice_found)
    exact ⟨i0, hid ▸ hi0, fun _ => hclaim hsource, .inr ⟨db2, settled, htransfers, hid.symm,
      hreceived⟩⟩

/-- A transfer is the same for its invoice: neither orphaned nor uncounted by what happened. -/
structure RowStays (t t' : TokenTransfer) : Prop where
  key : t'.key = t.key
  invoiceId : t'.invoiceId = t.invoiceId
  amount : t'.amount = t.amount
  counted : t.matchStatus = .credited ∨ t.matchStatus = .pendingConfirmation →
    t'.matchStatus = .credited ∨ t'.matchStatus = .pendingConfirmation
  orphaned : t'.matchStatus = .orphaned ↔ t.matchStatus = .orphaned

theorem RowStays.refl (t : TokenTransfer) : RowStays t t := ⟨rfl, rfl, rfl, fun h => h, .rfl⟩

theorem RowStays.trans {t t' t'' : TokenTransfer} (h : RowStays t t') (h' : RowStays t' t'') :
    RowStays t t'' where
  key := h'.key.trans h.key
  invoiceId := h'.invoiceId.trans h.invoiceId
  amount := h'.amount.trans h.amount
  counted hc := h'.counted (h.counted hc)
  orphaned := h'.orphaned.trans h.orphaned

/-- The count of a row is of no account. -/
theorem reportedTransfer_stays (key : TransferKey) (n : Nat) (t : TokenTransfer) :
    RowStays t (reportedTransfer key n t) := by
  unfold reportedTransfer
  split
  · exact ⟨rfl, rfl, rfl, fun h => h, .rfl⟩
  · exact .refl t

/-- What reports do to a row. -/
theorem RowStep.stays {may : Right → Prop} {old new : Option TokenTransfer}
    (h : RowStep may db old new) (hrecord : ¬ may .record) (horphan : ¬ may .orphan) :
    Option.Rel RowStays old new := by
  cases h with
  | same =>
    cases old with
    | none => exact .none
    | some t => exact .some (.refl t)
  | observed hmay => exact absurd hmay hrecord
  | confirmed t n => exact .some ⟨rfl, rfl, rfl, fun hc => hc, .rfl⟩
  | orphaned hmay => exact absurd hmay horphan
  | @credited _ invoice t now hcounted huncredited =>
    refine .some ⟨rfl, rfl, rfl, fun _ => .inl rfl, ?_⟩
    have hstatus := (countedTransfers_spec db invoice).1 t hcounted
    refine iff_of_false TransferMatchStatus.noConfusion fun horphaned => ?_
    rw [horphaned] at hstatus
    rcases hstatus.2.2.2 with hs | hs <;> cases hs

theorem Effects.rows_stay {may : Right → Prop} (h : Effects may db db') (hc : CreditsAgree db)
    (hrecord : ¬ may .record) (horphan : ¬ may .orphan) (k : TransferKey) :
    Option.Rel RowStays (db.transfers.find? k) (db'.transfers.find? k) := by
  have hboth := h.invariant (fun x => CreditsAgree x ∧
    Option.Rel RowStays (db.transfers.find? k) (x.transfers.find? k)) ⟨hc, ?_⟩ ?_
  · exact hboth.2
  · cases db.transfers.find? k with
    | none => exact .none
    | some t => exact .some (.refl t)
  · rintro a b ⟨ha, hrel⟩ hab
    refine ⟨hab.creditsAgree ha, ?_⟩
    have hstep := (hab.rowStep ha k).stays hrecord horphan
    generalize db.transfers.find? k = old at hrel ⊢
    generalize a.transfers.find? k = mid at hrel hstep
    generalize b.transfers.find? k = new at hstep ⊢
    cases hrel with
    | none =>
      cases hstep
      exact .none
    | some hrel =>
      cases hstep with
      | some hstep => exact .some (hrel.trans hstep)

/-- **A report keeps invoices covered**: what it counts is matched to the invoice, and a credit
leaves a transfer counted. -/
theorem confirmTransfer_accounted {transfer : TokenTransfer} {info : ConfirmationInfo} {now : Int}
    (hc : CreditsAgree db) (ha : Accounted db)
    (h : confirmTransfer transfer info now db = .ok db') : Accounted db' := by
  obtain ⟨hchain, hdiscrepancies, hinvoices⟩ := confirmTransfer_amounts h
  have heffects : Effects (fun r => r = .settle ∨ r = .accept) db db' :=
    confirmTransfer_effects ⟨.inl rfl, .inr rfl⟩ h
  have hrows := heffects.rows_stay hc (by simp) (by simp)
  have hflagged : ∀ id, Flagged db' id ↔ Flagged db id := by
    intro id
    unfold Flagged
    rw [hdiscrepancies]
  have hforth : ∀ t ∈ db.transfers, ∃ t' ∈ db'.transfers, RowStays t t' := by
    intro t ht
    have hrel := hrows t.key
    rw [Table.find?_of_mem ht] at hrel
    generalize hnew : db'.transfers.find? t.key = new at hrel
    cases hrel with
    | some hstays => exact ⟨_, Table.mem_of_find? hnew, hstays⟩
  have hback : ∀ t' ∈ db'.transfers, ∃ t ∈ db.transfers, RowStays t t' := by
    intro t' ht'
    have hrel := hrows t'.key
    rw [Table.find?_of_mem ht'] at hrel
    generalize hold : db.transfers.find? t'.key = old at hrel
    cases hrel with
    | some hstays => exact ⟨_, Table.mem_of_find? hold, hstays⟩
  have hcounts : ∀ id, StillCount db db' id fun _ => True := by
    intro id t ht _
    obtain ⟨hmem, hid, hstatus⟩ := mem_confirmed_iff.1 ht
    obtain ⟨t', ht', hstays⟩ := hforth t hmem
    exact ⟨t', mem_confirmed_iff.2 ⟨ht', hstays.invoiceId.trans hid, hstays.counted hstatus⟩,
      hstays.key, hstays.amount.ge⟩
  refine ⟨fun t' ht' htx => ?_, fun i hi hflag => ?_⟩
  · obtain ⟨t, ht, hstays⟩ := hback t' ht'
    unfold TxOrphaned at htx
    rw [hchain, hstays.key] at htx
    rw [hstays.orphaned, hstays.invoiceId]
    exact (ha.marked t ht htx).imp_right fun hall id hid => (hflagged id).2 (hall id hid)
  · rw [hflagged] at hflag
    obtain ⟨i0, hfind, hclaims, hreceived⟩ := hinvoices i hi
    have hid : i0.id = i.id := Table.key_of_find? hfind
    have hcovered := ha.covered i0 (Table.mem_of_find? hfind) (hid ▸ hflag)
    have hlost : orphanedTransfers db' i0.id ≠ [] → orphanedTransfers db i0.id ≠ [] := by
      intro hne
      obtain ⟨t', ht'⟩ := List.exists_mem_of_ne_nil _ hne
      obtain ⟨hmem, hid', hstatus⟩ := mem_orphaned_iff.1 ht'
      obtain ⟨t, ht, hstays⟩ := hback t' hmem
      exact List.ne_nil_of_mem (mem_orphaned_iff.2
        ⟨ht, hstays.invoiceId.symm.trans hid', hstays.orphaned.1 hstatus⟩)
    rcases hreceived with hreceived | ⟨x, stored, htransfers, hsid, hreceived⟩
    · exact hcovered.step hid.symm (hcounts _) hlost hclaims hreceived
    · have hstill : InvoiceCovered db' i0 :=
        hcovered.step rfl (hcounts _) hlost (fun hclaim => hclaim) rfl
      refine ⟨fun hclaim hne => ?_, ?_⟩
      · rw [← hid] at hne ⊢
        exact hstill.left (hclaims hclaim) hne
      rw [hreceived]
      refine totalAmount_le (countedTransfers_spec x stored).2 fun t ht => ?_
      obtain ⟨hfound, htid, -, hstatus⟩ := (countedTransfers_spec x stored).1 t ht
      have hmem := Table.mem_of_find? hfound
      rw [htransfers] at hmem
      obtain ⟨r, hr, rfl⟩ := List.mem_map.1 hmem
      obtain ⟨t', ht', hstays⟩ := hforth r hr
      have hsame := reportedTransfer_stays transfer.key info.confirmations r
      have hid' := hstays.invoiceId.trans (hsame.invoiceId.symm.trans htid)
      rw [hsid] at hid'
      have hcounted : r.matchStatus = .credited ∨ r.matchStatus = .pendingConfirmation := by
        split at hstatus <;> exact hstatus
      exact ⟨t', mem_confirmed_iff.2 ⟨ht', hid', hstays.counted hcounted⟩,
        hstays.key.trans hsame.key.symm, (hsame.amount.trans hstays.amount.symm).le⟩

/-! ## Sightings -/

section Sightings

variable {network : Network} {chainTx : ChainTransaction} {transfers : List ParsedTransfer}
  {graceSeconds : Nat} {now : Int}

/-- What the sightings so far have done to the invoices: none has received anything, and one that
has moved is late, or detected by a transfer that counts for it. -/
def Sighted (db x : Db) (see : ParsedTransfer → Sighting) (done : List ParsedTransfer) : Prop :=
  ∀ i ∈ x.invoices, ∃ i0, db.invoices.find? i.id = some i0 ∧
    i.receivedAmount = i0.receivedAmount ∧
    (i.status = i0.status ∨ i.status = .latePaymentReview ∨ (i.status = .detected ∧ ∃ p ∈ done,
      (db.transfers.find? (see p).key).bind (·.creditedAt) = none ∧
      ((see p).invoice db).map (·.id) = some i.id ∧
      ((see p).decision db).status = .pendingConfirmation))

theorem Sighted.append {x y : Db} {see : ParsedTransfer → Sighting} {done : List ParsedTransfer}
    {p : ParsedTransfer} (ha : Alike db x) (hx : Sighted db x see done)
    (h : recordTransfer x (see p) = .ok y) : Sighted db y see (done ++ [p]) := by
  have hmore : Sighted db x see (done ++ [p]) := by
    intro i hi
    obtain ⟨i0, hi0, hreceived, hstatus⟩ := hx i hi
    refine ⟨i0, hi0, hreceived, hstatus.imp_right (Or.imp_right fun ⟨hs, q, hq, hwhy⟩ => ?_)⟩
    exact ⟨hs, q, List.mem_append_left _ hq, hwhy⟩
  rcases recordTransfer_eq_ok h with ⟨-, rfl⟩ | ⟨huncredited, row, -, hcases⟩
  · exact hmore
  obtain ⟨rows, hupsert⟩ := Db.upsertTransfer_eq x row
  have hinvoices : (x.upsertTransfer row).invoices = x.invoices := by rw [hupsert]
  rcases hcases with ⟨rfl, -⟩ |
    ⟨invoice, target, data, events, webhooks, hinvoice, htarget, hallowed, hamounts, -, rfl⟩
  · intro i hi
    rw [hinvoices] at hi
    exact hmore i hi
  have hfind : (x.upsertTransfer row).invoices.find? invoice.id = some invoice := by
    rw [hinvoices]
    exact (find?_of_invoice hinvoice).1
  intro i hi
  have hfound := Table.find?_of_mem hi
  by_cases hid : i.id = invoice.id
  · rw [hid, Db.find?_withStatus_self hfind] at hfound
    cases hfound
    obtain ⟨i0, hi0, hreceived, -⟩ := hx invoice (hinvoices ▸ Table.mem_of_find? hfind)
    refine ⟨i0, hid ▸ hi0, ?_, .inr ?_⟩
    · rw [Invoice.receivedAmount_update, ← hreceived]
      show ((data.amounts.map (·.total)).getD _) = _
      rw [hamounts]
      rfl
    · rw [ha.decision] at htarget
      rcases sightingTarget_eq_some htarget with ⟨hpending, rfl⟩ | ⟨-, rfl⟩
      · refine .inr ⟨rfl, p, by simp, ?_, ?_, hpending⟩
        · rw [← ha.credited, huncredited]
        · rw [← ha.invoiceId, hinvoice, hid]
          rfl
      · exact .inl rfl
  · rw [Db.find?_withStatus_ne hid, hinvoices] at hfound
    exact hmore i (Table.mem_of_find? hfound)

/-- What one transaction leaves outside the transfers. -/
theorem recordTransfers_sighted
    (h : recordTransfers network chainTx transfers graceSeconds now db = .ok db') :
    db'.discrepancies = db.discrepancies ∧
      Sighted db db' (sighting network chainTx graceSeconds now) transfers := by
  obtain ⟨chainTxs, hchain⟩ := recordChainTransaction_eq db network chainTx now
  unfold recordTransfers at h
  rw [hchain] at h
  have hfold := foldlM_invariant_done (fun done x => Alike db x ∧
    x.discrepancies = db.discrepancies ∧
    Sighted db x (sighting network chainTx graceSeconds now) done) ?_ ?_ h
  · exact hfold.2
  · exact ⟨⟨rfl, fun _ => rfl, fun _ => rfl⟩, rfl,
      fun i hi => ⟨i, Table.find?_of_mem hi, rfl, .inl rfl⟩⟩
  · rintro done p a b ⟨ha, hd, hs⟩ hab
    refine ⟨ha.trans (alike_recordTransfer hab), ?_, hs.append ha hab⟩
    rw [← hd]
    rcases recordTransfer_eq_ok hab with ⟨-, rfl⟩ | ⟨-, row, -, hcases⟩
    · rfl
    · obtain ⟨rows, hupsert⟩ := Db.upsertTransfer_eq a row
      rcases hcases with ⟨rfl, -⟩ | ⟨_, _, _, _, _, -, -, -, -, -, rfl⟩
      · rw [hupsert]
      · rw [hupsert]
        rfl

/-- The row of a transfer that is not credited, once it has been seen. -/
theorem recordTransfers_row
    (h : recordTransfers network chainTx transfers graceSeconds now db = .ok db')
    (hnodup : (transfers.map (·.transferIndex)).Nodup) {p : ParsedTransfer} (hp : p ∈ transfers)
    (huncredited : (db.transfers.find? (sighting network chainTx graceSeconds now p).key).bind
      (·.creditedAt) = none) :
    ∃ t ∈ db'.transfers, t.key = (sighting network chainTx graceSeconds now p).key ∧
      t.invoiceId = ((sighting network chainTx graceSeconds now p).invoice db).map (·.id) ∧
      t.amount = p.amount ∧
      t.matchStatus = ((sighting network chainTx graceSeconds now p).decision db).status := by
  have hunique : ∀ q ∈ transfers, (sighting network chainTx graceSeconds now q).key =
      (sighting network chainTx graceSeconds now p).key → q = p := by
    intro q hq hkey
    exact List.inj_on_of_nodup_map hnodup hq hp (congrArg TransferKey.transferIndex hkey)
  obtain ⟨row, hrow, hfacts⟩ := (recordTransfers_left h _).left p hp rfl huncredited hunique
  obtain ⟨-, -, hamount, hinvoice, hstatus, -, -⟩ := row_eq_ok hrow
  obtain ⟨t, ht, hsame⟩ := Option.map_eq_some_iff.1 hfacts
  refine ⟨t, Table.mem_of_find? ht, Table.key_of_find? ht, ?_, ?_, ?_⟩
  · exact (congrArg TokenTransfer.invoiceId hsame).trans hinvoice
  · exact (congrArg TokenTransfer.amount hsame).trans hamount
  · exact (congrArg TokenTransfer.matchStatus hsame).trans hstatus

/-- A row that is credited, or that no transfer has the key of, stays as it is. -/
theorem recordTransfers_kept
    (h : recordTransfers network chainTx transfers graceSeconds now db = .ok db')
    {k : TransferKey}
    (hwhy : (∀ p ∈ transfers, (sighting network chainTx graceSeconds now p).key ≠ k) ∨
      ((db.transfers.find? k).bind (·.creditedAt)).isSome = true) :
    db'.transfers.find? k = db.transfers.find? k := (recordTransfers_left h k).kept hwhy

/-- **A sparing sighting keeps invoices covered.** -/
theorem recordTransfers_accounted (ha : Accounted db)
    (hsparing : Sparing (.recordTransfers network chainTx transfers graceSeconds now) db)
    (h : recordTransfers network chainTx transfers graceSeconds now db = .ok db') :
    Accounted db' := by
  obtain ⟨hnodup, hspares⟩ := hsparing
  obtain ⟨hdiscrepancies, hsighted⟩ := recordTransfers_sighted h
  have hflagged : ∀ id, Flagged db' id ↔ Flagged db id := by
    intro id
    unfold Flagged
    rw [hdiscrepancies]
  -- A row is as it was, or its transfer has been seen, uncredited.
  have hrows : ∀ k, db'.transfers.find? k = db.transfers.find? k ∨ ∃ p ∈ transfers,
      (sighting network chainTx graceSeconds now p).key = k ∧
      (db.transfers.find? k).bind (·.creditedAt) = none := by
    intro k
    by_cases hcredited : ((db.transfers.find? k).bind (·.creditedAt)).isSome = true
    · exact .inl (recordTransfers_kept h (.inr hcredited))
    · by_cases hsome : ∃ p ∈ transfers, (sighting network chainTx graceSeconds now p).key = k
      · obtain ⟨p, hp, hkey⟩ := hsome
        exact .inr ⟨p, hp, hkey, by simpa using hcredited⟩
      · exact .inl (recordTransfers_kept h (.inl fun p hp hkey => hsome ⟨p, hp, hkey⟩))
  refine ⟨fun t' ht' htx => ?_, fun i hi hflag => ?_⟩
  · unfold TxOrphaned at htx
    rw [recordTransfers_chainTxs h] at htx
    split at htx
    · -- The transaction has just been seen.
      next hkey =>
      obtain ⟨row, hrow, hstatus⟩ := htx
      cases hrow
      refine absurd hstatus ?_
      have hchain : chainTxStatus chainTx ≠ .orphaned := by
        unfold chainTxStatus
        split_ifs <;> decide
      cases db.chainTxs.find? t'.key.txKey <;> exact hchain
    · next hkey =>
      have hsame := hrows t'.key
      rcases hsame with hsame | ⟨p, hp, hpkey, -⟩
      · rw [Table.find?_of_mem ht'] at hsame
        refine (ha.marked t' (Table.mem_of_find? hsame.symm) htx).imp_right fun hall id hid => ?_
        exact (hflagged id).2 (hall id hid)
      · refine absurd ?_ hkey
        rw [← hpkey]
        rfl
  · rw [hflagged] at hflag
    obtain ⟨i0, hfind, hreceived, hstatus⟩ := hsighted i hi
    have hid : i0.id = i.id := Table.key_of_find? hfind
    rw [← hid] at hflag
    have hmem0 : i0 ∈ db.invoices := Table.mem_of_find? hfind
    obtain ⟨hamount, hleft⟩ := hspares i0 hmem0 hflag
    have hcounts : StillCount db db' i0.id
        (Confirmed (sighting network chainTx graceSeconds now) transfers db) := by
      intro t ht hconfirmed
      obtain ⟨hmem, htid, hmatch⟩ := mem_confirmed_iff.1 ht
      rcases hrows t.key with hsame | ⟨p, hp, hkey, huncredited⟩
      · rw [Table.find?_of_mem hmem] at hsame
        exact ⟨t, mem_confirmed_iff.2 ⟨Table.mem_of_find? hsame, htid, hmatch⟩, rfl, le_rfl⟩
      · rw [Table.find?_of_mem hmem, Option.bind_some] at huncredited
        rcases hconfirmed with hcredited | hagain
        · rw [huncredited] at hcredited
          cases hcredited
        obtain ⟨hle, invoice, hinvoice, hiid, hfor⟩ := hagain p hp hkey
        obtain ⟨t', ht', hkey', hid', hamount', hstatus'⟩ := recordTransfers_row h hnodup hp
          (by rw [hkey, Table.find?_of_mem hmem]; exact huncredited)
        rw [decision_pending_iff _ _ |>.2 ⟨invoice, hinvoice, hfor⟩] at hstatus'
        refine ⟨t', mem_confirmed_iff.2 ⟨ht', ?_, .inr hstatus'⟩, hkey'.trans hkey,
          hle.trans hamount'.ge⟩
        rw [hid', hinvoice, Option.map_some, ← hiid, htid]
    have hlost : orphanedTransfers db' i0.id ≠ [] → orphanedTransfers db i0.id ≠ [] := by
      intro hne
      obtain ⟨t', ht'⟩ := List.exists_mem_of_ne_nil _ hne
      obtain ⟨hmem, hid', hmatch⟩ := mem_orphaned_iff.1 ht'
      rcases hrows t'.key with hsame | ⟨p, hp, hkey, huncredited⟩
      · rw [Table.find?_of_mem hmem] at hsame
        exact List.ne_nil_of_mem (mem_orphaned_iff.2
          ⟨Table.mem_of_find? hsame.symm, hid', hmatch⟩)
      · rw [← hkey] at huncredited
        obtain ⟨t, ht, hkey', -, -, hstatus'⟩ := recordTransfers_row h hnodup hp huncredited
        obtain rfl : t = t' := Table.eq_of_key_eq ht hmem (hkey'.trans hkey)
        rw [hmatch] at hstatus'
        exact absurd hstatus'.symm (decision_ne rfl).2
    refine ⟨fun hclaims hne => ?_, ?_⟩
    · rw [← hid] at hne ⊢
      rcases hstatus with hstatus | hlate | ⟨-, p, hp, huncredited, hpid, hpending⟩
      · exact hcounts.ne_nil (hleft (hstatus ▸ hclaims) (hlost hne))
      · rw [hlate] at hclaims
        exact absurd hclaims (by decide)
      · obtain ⟨t, ht, -, htid, -, hmatch⟩ := recordTransfers_row h hnodup hp huncredited
        rw [hid]
        exact List.ne_nil_of_mem (mem_confirmed_iff.2
          ⟨ht, htid.trans hpid, .inr (hmatch.trans hpending)⟩)
    · rw [hreceived, ← hid]
      exact hamount.trans hcounts.total

end Sightings

/-! ## Reorganisations -/

section Reorganisations

variable {key : TxKey} {now : Int}

/-- A row of another transaction, or one that is credited, stays; the others are marked. -/
theorem orphanTransaction_row (h : orphanTransaction key now db = .ok db') {t : TokenTransfer}
    (ht : t ∈ db.transfers) :
    (t.key.txKey = key ∧ t.creditedAt = none ∧ Db.orphan t ∈ db'.transfers) ∨
      ((t.key.txKey ≠ key ∨ t.creditedAt.isSome = true) ∧ t ∈ db'.transfers) := by
  have hmem : swept key [] t ∈ db'.transfers := by
    show swept key [] t ∈ db'.transfers.rows
    rw [(orphanTransaction_frame h).2.2]
    exact List.mem_map_of_mem ht
  unfold swept at hmem
  split at hmem
  · next hswept => exact .inl ⟨hswept.1, hswept.2.1, hmem⟩
  · next hstays =>
    refine .inr ⟨?_, hmem⟩
    by_cases htx : t.key.txKey = key
    · by_cases hcredited : t.creditedAt = none
      · exact absurd ⟨htx, hcredited, List.not_mem_nil⟩ hstays
      · exact .inr (Option.isSome_iff_ne_none.2 hcredited)
    · exact .inl htx

/-- Every row comes from one. -/
theorem orphanTransaction_origin (h : orphanTransaction key now db = .ok db') {t' : TokenTransfer}
    (ht' : t' ∈ db'.transfers) : ∃ t ∈ db.transfers, t'.key = t.key ∧ t'.invoiceId = t.invoiceId ∧
      ((t.key.txKey = key ∧ t.creditedAt = none ∧ t'.matchStatus = .orphaned) ∨
        ((t.key.txKey ≠ key ∨ t.creditedAt.isSome = true) ∧ t' = t)) := by
  have hmem : t' ∈ db'.transfers.rows := ht'
  rw [(orphanTransaction_frame h).2.2] at hmem
  obtain ⟨t, ht, rfl⟩ := List.mem_map.1 hmem
  refine ⟨t, ht, swept_key [] t, ?_, ?_⟩
  · unfold swept
    split <;> rfl
  · rcases orphanTransaction_row h ht with ⟨htx, hnone, -⟩ | ⟨hstays, -⟩
    · refine .inl ⟨htx, hnone, ?_⟩
      rw [swept, if_pos ⟨htx, hnone, List.not_mem_nil⟩]
      rfl
    · refine .inr ⟨hstays, if_neg ?_⟩
      rintro ⟨htx, hnone, -⟩
      rcases hstays with hne | hsome
      · exact hne htx
      · rw [hnone] at hsome
        cases hsome

/-- Only a creation adds invoices. -/
theorem Effects.invoice_origin {may : Right → Prop} (h : Effects may db db')
    (hconfigure : ¬ may .configure) {i : Invoice} (hi : i ∈ db'.invoices) :
    ∃ i0, db.invoices.find? i.id = some i0 := by
  refine h.invariant (fun x => ∀ i ∈ x.invoices, ∃ i0, db.invoices.find? i.id = some i0)
    (fun i hi => ⟨i, Table.find?_of_mem hi⟩) ?_ i hi
  intro a b ha hab i hi
  have hstep := hab.invoiceStep i.id
  rw [Table.find?_of_mem hi] at hstep
  rcases hstep.origin with ⟨i0, hold, -⟩ | ⟨-, hmay, -⟩
  · have hid : i0.id = i.id := Table.key_of_find? hold
    rw [← hid]
    exact ha i0 (Table.mem_of_find? hold)
  · exact absurd hmay hconfigure

/-- The transfers outside the transaction still count. -/
theorem orphanTransaction_counts (h : orphanTransaction key now db = .ok db') (id : String) :
    StillCount db db' id fun t => t.key.txKey ≠ key := by
  intro t ht hout
  obtain ⟨hmem, hid, hmatch⟩ := mem_confirmed_iff.1 ht
  rcases orphanTransaction_row h hmem with ⟨htx, -⟩ | ⟨-, hstays⟩
  · exact absurd htx hout
  · exact ⟨t, mem_confirmed_iff.2 ⟨hstays, hid, hmatch⟩, rfl, le_rfl⟩

/-- An invoice without transfers in the transaction stays covered. -/
theorem orphanTransaction_untouched (hnone : transfersIn db key invoice.id = [])
    (hcovered : InvoiceCovered db invoice) (h : orphanTransaction key now db = .ok db') :
    InvoiceCovered db' invoice := by
  have hout : ∀ t ∈ db.transfers, t.invoiceId = some invoice.id → t.key.txKey ≠ key := by
    intro t ht hid htx
    have hin : t ∈ transfersIn db key invoice.id :=
      mem_transfersIn.2 ⟨List.mem_filter.2 ⟨ht, decide_eq_true htx⟩, hid⟩
    rw [hnone] at hin
    exact absurd hin List.not_mem_nil
  refine hcovered.step rfl (fun t ht _ => ?_) (fun hne => ?_) (fun hclaims => hclaims) rfl
  · obtain ⟨hmem, hid, -⟩ := mem_confirmed_iff.1 ht
    exact orphanTransaction_counts h invoice.id t ht (hout t hmem hid)
  · obtain ⟨t', ht'⟩ := List.exists_mem_of_ne_nil _ hne
    obtain ⟨hmem, hid', hmatch⟩ := mem_orphaned_iff.1 ht'
    obtain ⟨t, ht, -, hid, hcases⟩ := orphanTransaction_origin h hmem
    rcases hcases with ⟨htx, -⟩ | ⟨-, rfl⟩
    · exact absurd htx (hout t ht (hid.symm.trans hid'))
    · exact List.ne_nil_of_mem (mem_orphaned_iff.2 ⟨ht, hid', hmatch⟩)

/-- **A sparing reorganisation keeps invoices covered.** -/
theorem orphanTransaction_accounted (hl : Linked db) (ha : Accounted db)
    (hsparing : Sparing (.orphanTransaction key now) db)
    (h : orphanTransaction key now db = .ok db') : Accounted db' := by
  obtain ⟨hchain, hdiscrepancies, -⟩ := orphanTransaction_frame h
  refine ⟨fun t' ht' htx => ?_, fun i hi hflag => ?_⟩
  · obtain ⟨t, ht, hkey, hid, hcases⟩ := orphanTransaction_origin h ht'
    rcases hcases with ⟨-, -, horphaned⟩ | ⟨hstays, rfl⟩
    · exact .inl horphaned
    by_cases htxkey : t'.key.txKey = key
    · -- A credited transfer of the transaction: its invoice has its discrepancy by now.
      have hcredited := hstays.resolve_left fun hne => hne htxkey
      refine .inr fun id hid => ?_
      obtain ⟨i, hfind⟩ := Option.isSome_iff_exists.1 (hl.transfer t' ht id hid)
      obtain rfl : i.id = id := Table.key_of_find? hfind
      have hin : t' ∈ transfersIn db key i.id :=
        mem_transfersIn.2 ⟨List.mem_filter.2 ⟨ht, decide_eq_true htxkey⟩, hid⟩
      by_cases hflag : Flagged db i.id
      · exact flagged_mono hflag hdiscrepancies
      rcases hsparing i (Table.mem_of_find? hfind) hflag with hnone | hflags | ⟨huncredited, -⟩
      · rw [hnone] at hin
        exact absurd hin List.not_mem_nil
      · exact orphanTransaction_flags hfind hflags h
      · rw [huncredited t' hin] at hcredited
        cases hcredited
    · unfold TxOrphaned at htx
      rw [hchain, if_neg htxkey] at htx
      refine (ha.marked t' ht htx).imp_right fun hall id hid => ?_
      exact flagged_mono (hall id hid) hdiscrepancies
  · have hflag0 : ¬ Flagged db i.id := fun hf => hflag (flagged_mono hf hdiscrepancies)
    have heffects : Effects (fun r => r = .orphan) db db' := orphanTransaction_effects rfl h
    obtain ⟨i0, hfind⟩ := heffects.invoice_origin Right.noConfusion hi
    have hid : i0.id = i.id := Table.key_of_find? hfind
    rw [← hid] at hflag0 hflag hfind
    have hcovered := ha.covered i0 (Table.mem_of_find? hfind) hflag0
    have hfound := Table.find?_of_mem hi
    rw [← hid] at hfound
    by_cases hnone : transfersIn db key i0.id = []
    · rw [orphanTransaction_other hnone h, hfind] at hfound
      cases hfound
      exact orphanTransaction_untouched hnone hcovered h
    rcases hsparing i0 (Table.mem_of_find? hfind) hflag0 with
      hnil | hflags | ⟨huncredited, hamount, hleft⟩
    · exact absurd hnil hnone
    · exact absurd (orphanTransaction_flags hfind hflags h) hflag
    obtain ⟨i', hfind', hreceived, hsettled, hwait⟩ :=
      orphanTransaction_reverts hfind hnone huncredited h
    obtain rfl : i = i' := Option.some.inj (hfound.symm.trans hfind')
    have hcounts := orphanTransaction_counts h i0.id
    refine ⟨fun hclaims _ => ?_, ?_⟩
    · rw [← hid]
      by_cases hstatus : i.status ∈ [.underpaid, .overpaid, .paid]
      · refine hcounts.ne_nil (hleft ?_)
        rwa [← hsettled hstatus]
      · -- On DETECTED or CONFIRMING the invoice waits for a transfer.
        have hwaits : awaiting db' i0.id ≠ [] := by
          refine hwait ?_
          revert hclaims hstatus
          cases i.status <;> decide
        obtain ⟨t, ht⟩ := List.exists_mem_of_ne_nil _ hwaits
        obtain ⟨hmem, htid, hmatch⟩ := mem_awaiting.1 ht
        exact List.ne_nil_of_mem (mem_confirmed_iff.2 ⟨hmem, htid, .inr hmatch⟩)
    · rw [hreceived, ← hid]
      exact hamount.trans hcounts.total

end Reorganisations

/-! ## Runs -/

/-- **Every sparing transaction keeps invoices covered.** -/
theorem Transaction.accounted {t : Transaction} (hc : CreditsAgree db) (hl : Linked db)
    (ha : Accounted db) (hsparing : Sparing t db) (h : t.apply db = .ok db') :
    Accounted db' := by
  cases t with
  | recordTransfers network chainTx transfers graceSeconds now =>
    exact recordTransfers_accounted ha hsparing h
  | confirmTransfer transfer info now => exact confirmTransfer_accounted hc ha h
  | orphanTransaction key now => exact orphanTransaction_accounted hl ha hsparing h
  | expireOne invoiceId now => exact (aside_expireOne h).accounted hl ha
  | loadAndMaybeExpire merchantId invoiceId now => exact (aside_load h).accounted hl ha
  | cancelWrite read now => exact (aside_cancelWrite h).accounted hl ha
  | createInvoice request now => exact (aside_createInvoice h).accounted hl ha
  | registerMerchant merchant => exact (aside_registerMerchant h).accounted hl ha
  | updateMerchant settings => exact (aside_updateMerchant h).accounted hl ha
  | registerAddress merchantId key address assetSymbol now =>
    exact (aside_registerAddress h).accounted hl ha
  | takeEdge invoiceId target actor => exact takeEdge_accounted ha hsparing h

/-- **Claims are backed**: see the head of this module. -/
theorem claims_backed (h : gateway.Reachable (fun _ => True) Sparing Db.empty db) :
    ∀ i ∈ db.invoices, ¬ Flagged db i.id → Backed db i := by
  have hany : ∀ op s, True → ∀ t, Except.ok t ∈ gateway.script op s → True :=
    fun _ _ _ _ _ => trivial
  have hinv := h.invariant (P := fun x => CreditsAgree x ∧ Linked x ∧ Accounted x) hany
    ⟨creditsAgree_empty, linked_empty, accounted_empty⟩ ?_
  · exact fun i hi hflag => hinv.2.2.backed hi hflag
  rintro t a b - ⟨hc, hl, ha⟩ hsparing hok
  have hboth := (Transaction.effects hok).invariant (fun x => CreditsAgree x ∧ Linked x) ⟨hc, hl⟩
    fun x y hx hxy => ⟨hxy.creditsAgree hx.1, hxy.linked hx.1 hx.2⟩
  exact ⟨hboth.1, hboth.2, Transaction.accounted hc hl ha hsparing hok⟩

/-! ## A shop whose payment is reorganised away -/

namespace Shop

def seenIn101 (amount : Int) : List (ChainTransaction × List ParsedTransfer) :=
  [(mined "0xa" 101 1, [usdtTransfer 0 amount])]

/-- A payment in block 101 is orphaned with its block once it has been seen. -/
def orphanedEarly (amount : Int) : List Operation :=
  [observe 101 (seenIn101 amount) "0xa", .handleReorg .ethereum 101 3000]

/-- The same once it has been confirmed at the tip 112. -/
def orphanedLate (amount : Int) : List Operation :=
  [observe 101 (seenIn101 amount) "0xa", confirm 112 (seenIn101 amount),
    .handleReorg .ethereum 101 3000]

/-- An invoice goes back to PENDING from DETECTED; the credit of a payment in full gets its
discrepancy. -/
theorem orphaned_backed :
    (status (after (orphanedEarly 60000000)) = some .pending ∧
      ∀ i ∈ (after (orphanedEarly 60000000)).invoices,
        ¬ Flagged (after (orphanedEarly 60000000)) i.id →
          Backed (after (orphanedEarly 60000000)) i) ∧
    Flagged (after (orphanedLate 100000000)) "i" ∧
      ∀ i ∈ (after (orphanedLate 100000000)).invoices,
        ¬ Flagged (after (orphanedLate 100000000)) i.id →
          Backed (after (orphanedLate 100000000)) i := by
  refine ⟨⟨by decide +kernel, claims_backed ?_⟩, by decide +kernel, claims_backed ?_⟩
  · exact after_reachable _ (fun _ _ => trivial) (by decide +kernel)
  · exact after_reachable _ (fun _ _ => trivial) (by decide +kernel)

/-- 60 of 100 USDT: the invoice is left on UNDERPAID with its only transfer orphaned and with what
it has received, and there is no discrepancy. -/
theorem orphaned_unbacked :
    gateway.Reachable (fun _ => True) (fun _ _ => True) Db.empty
      (after (orphanedLate 60000000)) ∧
    status (after (orphanedLate 60000000)) = some .underpaid ∧
    ¬ Flagged (after (orphanedLate 60000000)) "i" ∧
    (vanished (after (orphanedLate 60000000)) "i").map (·.amount) = [60000000] ∧
    standing (after (orphanedLate 60000000)) "i" = [] ∧
    ((after (orphanedLate 60000000)).invoices.find? "i").map (·.receivedAmount) =
      some 60000000 ∧
    ∃ i ∈ (after (orphanedLate 60000000)).invoices.rows, ¬ Backed (after (orphanedLate 60000000)) i :=
  ⟨after_reachable _ (fun _ _ => trivial) (Machine.allMeet_true _ _), by decide +kernel⟩

end Shop

end PaymentGateway
