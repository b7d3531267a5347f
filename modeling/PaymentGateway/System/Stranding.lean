import PaymentGateway.System.Freshness
import PaymentGateway.System.LateTransfers
import PaymentGateway.System.Outbox

/-!
# Stranded transfers

A transfer that awaits confirmation is counted by a settlement of its invoice. The monitor settles
an invoice that is DETECTED, CONFIRMING, UNDERPAID or OVERPAID; a transfer that still waits when its
invoice has left these statuses is stranded: nothing counts it, and nobody is asked to look at it.

**Theorem (`none_stranded`).** In every interleaving no transfer is stranded if each payment is
accepted, each invoice expired and each cancelled with no transfer left behind (`Clears`): when an
invoice becomes PAID, every transfer that awaits confirmation is above its threshold, and when it
becomes EXPIRED or CANCELLED, none awaits confirmation. The first move without this strands one.

The other writers cannot: a sighting that is to be counted finds or takes its invoice to one of the
four statuses, an orphaning takes it back to DETECTED as long as it waits for something, and what a
lost credit puts up for reconciliation has been paid before (`Within`).
-/

namespace PaymentGateway

open Keyed Fallible Transactional MonitorService

variable {may : Right → Prop} {db db' : Db}

/-! ## Transfers that can be counted -/

/-- The monitor can still count the transfer for its invoice. -/
def CanCount (db : Db) (t : TokenTransfer) : Prop :=
  ∃ invoice ∈ t.invoiceId.bind db.invoices.find?, invoice.status ∈ beyondDetected

instance (db : Db) (t : TokenTransfer) : Decidable (CanCount db t) := by
  unfold CanCount
  infer_instance

/-- No transfer awaits confirmation in vain. -/
def NoneStranded (db : Db) : Prop :=
  ∀ t ∈ db.transfers, t.matchStatus = .pendingConfirmation → CanCount db t

instance (db : Db) : Decidable (NoneStranded db) := by
  unfold NoneStranded
  infer_instance

theorem canCount_iff {t : TokenTransfer} {id : String} {invoice : Invoice}
    (hid : t.invoiceId = some id) (hfind : db.invoices.find? id = some invoice) :
    CanCount db t ↔ invoice.status ∈ beyondDetected := by
  unfold CanCount
  rw [hid, Option.bind_some, hfind]
  simp

/-- An invoice outside the four statuses waits for nothing. -/
theorem NoneStranded.awaiting_eq_nil (h : NoneStranded db) {id : String} {invoice : Invoice}
    (hfind : db.invoices.find? id = some invoice) (hstatus : invoice.status ∉ beyondDetected) :
    awaiting db id = [] := by
  by_contra hwait
  obtain ⟨t, ht⟩ := List.exists_mem_of_ne_nil _ hwait
  obtain ⟨hmem, hid, hpending⟩ := mem_awaiting.1 ht
  exact hstatus ((canCount_iff hid hfind).1 (h t hmem hpending))

/-- A transfer can be counted as before if its invoice has not left the four statuses. -/
theorem CanCount.kept {t t' : TokenTransfer} (h : CanCount db t) (hsame : t'.invoiceId = t.invoiceId)
    (hkept : ∀ id ∈ t.invoiceId, ∀ invoice, db.invoices.find? id = some invoice →
      invoice.status ∈ beyondDetected →
      ∃ invoice', db'.invoices.find? id = some invoice' ∧ invoice'.status ∈ beyondDetected) :
    CanCount db' t' := by
  obtain ⟨invoice, hinvoice, hstatus⟩ := h
  obtain ⟨id, hid, hfind⟩ := Option.bind_eq_some_iff.1 hinvoice
  obtain ⟨invoice', hfind', hstatus'⟩ := hkept id hid invoice hfind hstatus
  refine ⟨invoice', ?_, hstatus'⟩
  rw [hsame, hid]
  exact hfind'

/-- Fewer transfers await confirmation, and the invoices that something awaits stay. -/
theorem NoneStranded.step (h : NoneStranded db) (hrows : KeepsPending db db')
    (hkept : ∀ id invoice, db.invoices.find? id = some invoice →
      invoice.status ∈ beyondDetected → awaiting db' id ≠ [] →
      ∃ invoice', db'.invoices.find? id = some invoice' ∧ invoice'.status ∈ beyondDetected) :
    NoneStranded db' := by
  intro t ht hpending
  obtain ⟨t', ht', hpending', hsame⟩ := hrows t ht hpending
  refine (h t' ht' hpending').kept hsame.symm fun id hid invoice hfind hstatus => ?_
  exact hkept id invoice hfind hstatus
    (List.ne_nil_of_mem (mem_awaiting.2 ⟨ht, hsame.symm.trans hid, hpending⟩))

/-- **What a status write strands**: whatever the invoice waits for, unless it goes to one of the
four statuses. -/
theorem NoneStranded.withStatus_iff (h : NoneStranded db) {stored : Invoice}
    {target : InvoiceStatus} {writer : TransitionActor} {data : InvoiceData} {events : Db.Events}
    {webhooks : Db.Webhooks} (hfind : db.invoices.find? stored.id = some stored) :
    NoneStranded (db.withStatus stored target writer data events webhooks) ↔
      target ∈ beyondDetected ∨ awaiting db stored.id = [] := by
  have hself : (db.withStatus stored target writer data events webhooks).invoices.find? stored.id =
      some (stored.update { data with status := some target }) := Db.find?_withStatus_self hfind
  constructor
  · intro hnone
    by_contra hnot
    obtain ⟨htarget, hwait⟩ := not_or.1 hnot
    exact hwait (hnone.awaiting_eq_nil hself htarget)
  · intro hcases
    refine h.step (keepsPending_of_eq rfl) fun id invoice hinvoice hstatus hwait => ?_
    by_cases hid : id = stored.id
    · subst hid
      rcases hcases with htarget | hnil
      · exact ⟨_, hself, htarget⟩
      · exact absurd hnil hwait
    · exact ⟨invoice, (Db.find?_withStatus_ne hid).trans hinvoice, hstatus⟩

/-! ## The invariant -/

/-- Statuses that a paid or cancelled invoice does not leave without a person. -/
def leftStatuses : List InvoiceStatus :=
  [.paid, .cancelled, .latePaymentReview, .reconciliationRequired]

theorem closedUnder_left (hedge : ¬ may .takeEdge) : ClosedUnder may leftStatuses where
  paid := by decide
  moved := by
    intro s hs target
    revert hs
    cases s <;> cases target <;> decide
  expired := by decide
  cancelled _ := by decide
  edged := hedge

/-- What the writers rely on besides. -/
structure Grounded (db : Db) : Prop where
  agree : CreditsAgree db
  linked : Linked db
  within : Within leftStatuses db

theorem grounded_empty : Grounded Db.empty :=
  ⟨creditsAgree_empty, linked_empty, fun p hp => absurd hp (Table.not_mem_empty p)⟩

theorem Effect.grounded (h : Effect may db db') (hedge : ¬ may .takeEdge) (hg : Grounded db) :
    Grounded db' where
  agree := h.creditsAgree hg.agree
  linked := h.linked hg.agree hg.linked
  within := h.within (closedUnder_left hedge) hg.agree hg.linked hg.within

/-- The invoice of a credited transfer is none that the monitor still counts for. -/
theorem Grounded.credited (hg : Grounded db) {t : TokenTransfer} {invoice : Invoice}
    (hrow : db.transfers.find? t.key = some t) (hcredited : t.creditedAt.isSome = true)
    (hid : t.invoiceId = some invoice.id)
    (hfind : db.invoices.find? invoice.id = some invoice) : invoice.status ∉ beyondDetected := by
  intro hstatus
  have houtside : invoice.status ∉ leftStatuses := by
    revert hstatus
    cases invoice.status <;> decide
  have hnone := (uncredited hg.agree hg.within hfind houtside).2 t (Table.mem_of_find? hrow) hid
  rw [hnone] at hcredited
  cases hcredited

/-! ## Writers that strand nothing -/

/-- From none of the four statuses does the monitor move an invoice to LATE_PAYMENT_REVIEW. -/
theorem beyondDetected_not_late {s : InvoiceStatus} (hs : s ∈ beyondDetected) :
    isActorAllowed s .latePaymentReview .monitor = false := by
  revert hs
  cases s <;> decide

/-- **Sightings, orphanings, creations and registrations strand nothing.** -/
theorem Effect.noneStranded (h : Effect may db db') (hsettle : ¬ may .settle)
    (haccept : ¬ may .accept) (hexpire : ¬ may .expire) (hcancel : ¬ may .cancel)
    (hedge : ¬ may .takeEdge) (hg : Grounded db) (hn : NoneStranded db) : NoneStranded db' := by
  cases h with
  | @record _ s row huncredited hrow hstays =>
    obtain ⟨transfers, hupsert⟩ := Db.upsertTransfer_eq db row
    have hinvoices : (db.upsertTransfer row).invoices = db.invoices := by rw [hupsert]
    intro t ht hpending
    rcases pending_upsertTransfer huncredited hrow ht with hold | ⟨hdecided, hid⟩
    · refine (hn t hold hpending).kept rfl fun id _ invoice hfind hstatus => ?_
      exact ⟨invoice, by rw [hinvoices, hfind], hstatus⟩
    · -- The sighting did not move its invoice, which is therefore past DETECTED.
      have hdecision := hdecided.symm.trans hpending
      obtain ⟨invoice, hfound, hpayable⟩ := pending_decision hdecision
      have hstay := hstays invoice .detected hfound (by rw [hdecision]; rfl)
      rw [hfound, Option.map_some] at hid
      refine (canCount_iff hid ?_).2 (beyondDetected_of_payable hpayable hstay)
      rw [hinvoices]
      exact (find?_of_invoice hfound).1
  | @recordMove _ s row invoice target data events webhooks huncredited hrow hinvoice htarget
      hallowed _ _ =>
    obtain ⟨transfers, hupsert⟩ := Db.upsertTransfer_eq db row
    have hinvoices : (db.upsertTransfer row).invoices = db.invoices := by rw [hupsert]
    have hfind : (db.upsertTransfer row).invoices.find? invoice.id = some invoice := by
      rw [hinvoices]
      exact (find?_of_invoice hinvoice).1
    intro t ht hpending
    rcases pending_upsertTransfer huncredited hrow ht with hold | ⟨hdecided, hid⟩
    · refine (hn t hold hpending).kept rfl fun id _ other hother hstatus => ?_
      rw [← hinvoices] at hother
      by_cases hsame : id = invoice.id
      · -- An invoice that is counted for goes on to DETECTED at most.
        subst hsame
        rw [hfind] at hother
        cases hother
        refine ⟨_, Db.find?_withStatus_self hfind, ?_⟩
        rcases sightingTarget_eq_some htarget with ⟨-, rfl⟩ | ⟨-, rfl⟩
        · exact List.mem_cons_self
        · rw [beyondDetected_not_late hstatus] at hallowed
          cases hallowed
      · exact ⟨other, (Db.find?_withStatus_ne hsame).trans hother, hstatus⟩
    · rw [hinvoice, Option.map_some] at hid
      refine (canCount_iff hid (Db.find?_withStatus_self hfind)).2 ?_
      rw [← hdecided, hpending] at htarget
      cases htarget
      exact List.mem_cons_self
  | @orphan _ row _ _ =>
    have hkept : KeepsPending db { db with
        transfers := db.transfers.modify row.key Db.orphan Db.orphan_key } :=
      keepsPending_modify (fun _ => rfl) (fun _ hr => absurd hr TransferMatchStatus.noConfusion)
    exact hn.step hkept fun id invoice hfind hstatus _ => ⟨invoice, hfind, hstatus⟩
  | revert _ hfind _ htarget =>
    refine (hn.withStatus_iff hfind).2 ?_
    rw [htarget]
    split_ifs with hwait
    · exact .inl List.mem_cons_self
    · exact .inr (List.eq_nil_of_length_eq_zero (by omega))
  | @flag _ _ invoice _ events webhooks hrow hcredited hid hfind _ _ =>
    have hmoved : NoneStranded (db.withStatus invoice .reconciliationRequired .monitor
        { bumpVersion := true } events webhooks) :=
      (hn.withStatus_iff hfind).2
        (.inr (hn.awaiting_eq_nil hfind (hg.credited hrow hcredited hid hfind)))
    exact hmoved
  | @create _ invoice _ _ _ _ _ hfree =>
    refine hn.step (keepsPending_of_eq rfl) fun id other hother hstatus _ => ?_
    have hne : invoice.id ≠ id := by
      rintro rfl
      rw [hfree] at hother
      cases hother
    refine ⟨other, ?_, hstatus⟩
    show (db.invoices.insert invoice hfree).find? id = some other
    rw [Table.find?_insert, if_neg hne, hother]
  | confirmations hmay => exact absurd hmay hsettle
  | confirming hmay => exact absurd hmay hsettle
  | settle hmay => exact absurd hmay hsettle
  | accept hmay => exact absurd hmay haccept
  | expire hmay => exact absurd hmay hexpire
  | cancel hmay => exact absurd hmay hcancel
  | edge hmay => exact absurd hmay hedge
  | chainTxs | merchants | address => exact hn

/-! ## Reports -/

/-- A report of `n` confirmations of the transfer `key` settles the invoice, and the payment is
accepted. -/
def ReportPays (db : Db) (key : TransferKey) (n : Nat) (invoice : Invoice) : Prop :=
  invoice.requiredConfirmations ≤ n ∧
    ∃ merchant ∈ db.merchants.find? invoice.merchantId,
      ∃ target ∈ statusForOutcome (outcomeFor invoice
        (totalAmount (countedTransfers (db.reported key n) invoice))),
        canTransition (reportedStatus invoice n) target = true ∧ autoAccept merchant target = true

instance (db : Db) (key : TransferKey) (n : Nat) (invoice : Invoice) :
    Decidable (ReportPays db key n invoice) := by
  unfold ReportPays
  infer_instance

section Reports

variable {transfer : TokenTransfer} {info : ConfirmationInfo} {now : Int} {n : Nat}

theorem accepts_iff_reportPays {invoice : Invoice} (hid : transfer.invoiceId = some invoice.id)
    (hfind : db.invoices.find? invoice.id = some invoice) :
    Accepts db transfer n invoice ↔ ReportPays db transfer.key n invoice := by
  constructor
  · intro haccepts
    obtain ⟨merchant, target, hmerchant, htarget, hedge, hauto⟩ := haccepts.accepted
    exact ⟨haccepts.reached, merchant, hmerchant, target, htarget, hedge, hauto⟩
  · rintro ⟨hreached, merchant, hmerchant, target, htarget, hedge, hauto⟩
    exact ⟨hid, hfind, hreached, merchant, target, hmerchant, htarget, hedge, hauto⟩

theorem mem_reported {key : TransferKey} {t : TokenTransfer} :
    t ∈ (db.reported key n).transfers ↔ ∃ t0 ∈ db.transfers, reportedTransfer key n t0 = t :=
  List.mem_map

/-- A credited row has its posting, and a row without one is not credited. -/
theorem CreditsAgree.not_inLedger (hc : CreditsAgree db) {t : TokenTransfer}
    (ht : t ∈ db.transfers) (hpending : t.matchStatus = .pendingConfirmation) :
    ¬ InLedger db t.key := by
  intro hledger
  have hcredited := (hc.credited_iff t ht).1 (hc.credited_of_key (Table.find?_of_mem ht) hledger)
  rw [hpending] at hcredited
  cases hcredited

/-- **What still awaits confirmation after a report**: what did before, unless an accepted payment
has counted it. -/
theorem confirmTransfer_pending_iff (hc : CreditsAgree db)
    (h : confirmTransfer transfer info now db = .ok db') {t : TokenTransfer} :
    t ∈ db'.transfers ∧ t.matchStatus = .pendingConfirmation ↔
      t ∈ (db.reported transfer.key info.confirmations).transfers ∧
        t.matchStatus = .pendingConfirmation ∧
        ∀ invoice, Accepts db transfer info.confirmations invoice →
          t ∉ countedTransfers (db.reported transfer.key info.confirmations) invoice := by
  have hc' : CreditsAgree db' :=
    (Transaction.effects (t := .confirmTransfer transfer info now) h).creditsAgree hc
  obtain ⟨f, hf, htransfers, hrows⟩ := confirmTransfer_transfers h
  constructor
  · rintro ⟨ht, hpending⟩
    have hmem := ht
    rw [htransfers] at hmem
    obtain ⟨t0, ht0, rfl⟩ := List.mem_map.1 hmem
    rcases hrows t0 ht0 with hsame | ⟨hcredit, -⟩
    · refine ⟨mem_reported.2 ⟨t0, ht0, hsame.symm⟩, hpending, fun invoice haccepts hcounted => ?_⟩
      exact hc'.not_inLedger ht hpending
        ((confirmTransfer_ledger h _).2 (.inr ⟨invoice, haccepts, _, hcounted, rfl⟩))
    · rw [hcredit] at hpending
      cases hpending
  · rintro ⟨ht, hpending, huncounted⟩
    obtain ⟨t0, ht0, rfl⟩ := mem_reported.1 ht
    rw [reportedTransfer_matchStatus] at hpending
    have hmem : f t0 ∈ db'.transfers := by
      rw [htransfers]
      exact List.mem_map_of_mem ht0
    rcases hrows t0 ht0 with hsame | ⟨hcredit, -⟩
    · exact ⟨hsame ▸ hmem, by simpa using hpending⟩
    · -- A row that has been credited is one that a payment has counted.
      exfalso
      have hcredited : (f t0).creditedAt.isSome = true := by
        rw [hcredit]
        rfl
      have hledger := hc'.posted (f t0) hmem hcredited
      rw [hf] at hledger
      rcases (confirmTransfer_ledger h t0.key).1 hledger with
        hold | ⟨invoice, haccepts, c, hcounted, hc0⟩
      · exact hc.not_inLedger ht0 hpending hold
      · have hrow := (mem_confirmed_iff.1 (mem_counted_iff.1 hcounted).1).1
        obtain rfl : c = reportedTransfer transfer.key info.confirmations t0 :=
          Table.eq_of_key_eq hrow ht (by simp [hc0])
        exact huncounted invoice haccepts hcounted

/-- What an accepted payment leaves of its invoice. -/
theorem paid_of_accepts {invoice : Invoice} (h : confirmTransfer transfer info now db = .ok db')
    (haccepts : Accepts db transfer info.confirmations invoice) :
    ∃ invoice', db'.invoices.find? invoice.id = some invoice' ∧ invoice'.status = .paid := by
  obtain ⟨invoice', hfind', -, -, hleft⟩ := confirmTransfer_invoice haccepts.own haccepts.found h
  refine ⟨invoice', hfind', ?_⟩
  obtain ⟨merchant, target, hmerchant, htarget, hedge, hauto⟩ := haccepts.accepted
  cases hleft with
  | unsettled _ _ hno =>
    rw [hno haccepts.reached target htarget] at hedge
    cases hedge
  | settled _ hmerchant' htarget' _ hauto' =>
    obtain rfl := Option.some.inj (hmerchant'.symm.trans hmerchant)
    obtain rfl := Option.some.inj (htarget'.symm.trans htarget)
    rw [hauto'] at hauto
    cases hauto
  | accepted _ _ _ _ _ hstatus => exact hstatus

/-- An invoice that is counted for is counted for after a report, or the payment is accepted. -/
theorem beyondDetected_or_accepts {invoice : Invoice} (hid : transfer.invoiceId = some invoice.id)
    (hfind : db.invoices.find? invoice.id = some invoice)
    (hstatus : invoice.status ∈ beyondDetected)
    (h : confirmTransfer transfer info now db = .ok db') :
    (∃ invoice', db'.invoices.find? invoice.id = some invoice' ∧
      invoice'.status ∈ beyondDetected) ∨ Accepts db transfer info.confirmations invoice := by
  obtain ⟨invoice', hfind', -, -, hleft⟩ := confirmTransfer_invoice hid hfind h
  cases hleft with
  | unsettled hreported _ _ =>
    refine .inl ⟨invoice', hfind', ?_⟩
    rw [hreported]
    unfold reportedStatus
    split
    · decide
    · exact hstatus
  | settled _ _ htarget _ hauto hsettled _ =>
    refine .inl ⟨invoice', hfind', ?_⟩
    rw [hsettled]
    rcases statusForOutcome_settled htarget with rfl | rfl | rfl
    · exact absurd hauto (by simp [autoAccept])
    · decide
    · decide
  | accepted hreached hmerchant htarget hallowed hauto _ =>
    exact .inr ⟨hid, hfind, hreached, _, _, hmerchant, htarget,
      canTransition_of_isActorAllowed hallowed, hauto⟩

/-- **What a report strands**: the transfers that an accepted payment leaves below the threshold. -/
theorem confirmTransfer_stranded_iff (hc : CreditsAgree db) (hn : NoneStranded db)
    (h : confirmTransfer transfer info now db = .ok db') :
    NoneStranded db' ↔ ∀ invoice, Accepts db transfer info.confirmations invoice →
      ∀ t ∈ awaiting (db.reported transfer.key info.confirmations) invoice.id,
        invoice.requiredConfirmations ≤ t.confirmations := by
  constructor
  · intro hnone invoice haccepts t ht
    by_contra hbelow
    obtain ⟨hmem, hid, hpending⟩ := mem_awaiting.1 ht
    obtain ⟨invoice', hfind', hpaid⟩ := paid_of_accepts h haccepts
    have hleft : t ∈ db'.transfers ∧ t.matchStatus = .pendingConfirmation := by
      refine (confirmTransfer_pending_iff hc h).2 ⟨hmem, hpending, fun other hother hcounted => ?_⟩
      have hsame : other.id = invoice.id := Option.some.inj (hother.own.symm.trans haccepts.own)
      have hfound := hother.found
      rw [hsame, haccepts.found] at hfound
      cases hfound
      exact hbelow (mem_counted_iff.1 hcounted).2
    have hstatus := (canCount_iff hid hfind').1 (hnone t hleft.1 hleft.2)
    rw [hpaid] at hstatus
    exact absurd hstatus (by decide)
  · intro hclear t ht hpending
    obtain ⟨hmem, -, huncounted⟩ := (confirmTransfer_pending_iff hc h).1 ⟨ht, hpending⟩
    obtain ⟨t0, ht0, rfl⟩ := mem_reported.1 hmem
    have hpending0 := hpending
    rw [reportedTransfer_matchStatus] at hpending0
    refine (hn t0 ht0 hpending0).kept (by simp) fun id hid invoice hfind hstatus => ?_
    by_cases hown : transfer.invoiceId = some id
    · obtain rfl : invoice.id = id := Table.key_of_find? hfind
      rcases beyondDetected_or_accepts hown hfind hstatus h with hkept | haccepts
      · exact hkept
      · -- The accepted payment has counted the transfer, which is above the threshold.
        have hwaits : reportedTransfer transfer.key info.confirmations t0 ∈
            awaiting (db.reported transfer.key info.confirmations) invoice.id :=
          mem_awaiting.2 ⟨hmem, by simpa using hid, hpending⟩
        exact absurd (mem_counted_iff.2 ⟨mem_confirmed_iff.2 ⟨hmem, by simpa using hid,
          .inr hpending⟩, hclear invoice haccepts _ hwaits⟩) (huncounted invoice haccepts)
    · exact ⟨invoice, (confirmTransfer_other hown h).trans hfind, hstatus⟩

end Reports

/-! ## Transactions -/

/-- The transaction leaves no transfer behind on an invoice that it pays, expires or cancels. -/
def Transaction.Clears : Transaction → Db → Prop
  | .confirmTransfer transfer info _, db =>
    ∀ invoice ∈ transfer.invoiceId.bind db.invoices.find?,
      ReportPays db transfer.key info.confirmations invoice →
      ∀ t ∈ awaiting (db.reported transfer.key info.confirmations) invoice.id,
        invoice.requiredConfirmations ≤ t.confirmations
  | .expireOne invoiceId now, db =>
    ∀ invoice ∈ db.invoices.find? invoiceId, ExpirySweep.mayExpire invoice now = true →
      awaiting db invoiceId = []
  | .loadAndMaybeExpire merchantId invoiceId now, db =>
    ∀ invoice ∈ (db.invoices.find? invoiceId).filter (·.merchantId = merchantId),
      InvoicesService.mayExpire invoice now = true → awaiting db invoiceId = []
  | .cancelWrite read _, db => awaiting db read.invoice.id = []
  | _, _ => True

instance : ∀ (t : Transaction) (db : Db), Decidable (t.Clears db)
  | .confirmTransfer transfer info _, db => inferInstanceAs (Decidable
      (∀ invoice ∈ transfer.invoiceId.bind db.invoices.find?,
        ReportPays db transfer.key info.confirmations invoice →
        ∀ t ∈ awaiting (db.reported transfer.key info.confirmations) invoice.id,
          invoice.requiredConfirmations ≤ t.confirmations))
  | .expireOne invoiceId now, db => inferInstanceAs (Decidable
      (∀ invoice ∈ db.invoices.find? invoiceId, ExpirySweep.mayExpire invoice now = true →
        awaiting db invoiceId = []))
  | .loadAndMaybeExpire merchantId invoiceId now, db => inferInstanceAs (Decidable
      (∀ invoice ∈ (db.invoices.find? invoiceId).filter (·.merchantId = merchantId),
        InvoicesService.mayExpire invoice now = true → awaiting db invoiceId = []))
  | .cancelWrite read _, db => inferInstanceAs (Decidable (awaiting db read.invoice.id = []))
  | .recordTransfers .., _ | .orphanTransaction .., _ | .createInvoice .., _
  | .registerMerchant .., _ | .updateMerchant .., _ | .registerAddress .., _
  | .takeEdge .., _ => isTrue trivial

theorem expireOne_stranded_iff {invoiceId : String} {now : Int} (hn : NoneStranded db)
    (h : ExpirySweep.expireOne invoiceId now db = .ok db') :
    NoneStranded db' ↔ (Transaction.expireOne invoiceId now).Clears db := by
  obtain ⟨invoice, rfl, hfind, hcases⟩ := expireOne_eq_ok h
  have hclears : (Transaction.expireOne invoice.id now).Clears db ↔
      (ExpirySweep.mayExpire invoice now = true → awaiting db invoice.id = []) := by
    rw [Transaction.Clears, hfind]
    simp
  rw [hclears]
  rcases hcases with ⟨hnot, rfl⟩ | ⟨hmay, -, events, webhooks, -, rfl⟩
  · exact iff_of_true hn fun hmay => absurd (hnot.symm.trans hmay) Bool.false_ne_true
  · rw [hn.withStatus_iff hfind, or_iff_right (by decide), imp_iff_right hmay]

theorem loadAndMaybeExpire_stranded_iff {merchantId id : String} {now : Int} {invoice : Invoice}
    (hn : NoneStranded db)
    (h : InvoicesService.loadAndMaybeExpire merchantId id now db = .ok (db', invoice)) :
    NoneStranded db' ↔ (Transaction.loadAndMaybeExpire merchantId id now).Clears db := by
  obtain ⟨-, found, hfound, hcases⟩ := loadAndMaybeExpire_cases h
  obtain ⟨hfind, -⟩ := Option.filter_eq_some_iff.1 hfound
  obtain rfl : found.id = id := Table.key_of_find? hfind
  have hclears : (Transaction.loadAndMaybeExpire merchantId found.id now).Clears db ↔
      (InvoicesService.mayExpire found now = true → awaiting db found.id = []) := by
    rw [Transaction.Clears, hfound]
    simp
  rw [hclears]
  rcases hcases with ⟨hnot, rfl⟩ | ⟨hmay, -, events, webhooks, -, rfl⟩
  · exact iff_of_true hn fun hmay => absurd (hnot.symm.trans hmay) Bool.false_ne_true
  · rw [hn.withStatus_iff hfind, or_iff_right (by decide), imp_iff_right hmay]

theorem cancelWrite_stranded_iff {read : InvoicesService.CancelRead} {now : Int}
    (hn : NoneStranded db) (h : InvoicesService.cancelWrite read now db = .ok db') :
    NoneStranded db' ↔ awaiting db read.invoice.id = [] := by
  obtain ⟨stored, data, events, webhooks, addresses, hid, hfind, -, -, -, rfl⟩ := cancelWrite_eq_ok h
  have hrows : NoneStranded { db.withStatus stored .cancelled .merchant data events webhooks with
      addresses } ↔
        NoneStranded (db.withStatus stored .cancelled .merchant data events webhooks) := Iff.rfl
  rw [hrows, hn.withStatus_iff hfind, or_iff_right (by decide), hid]

theorem Transaction.Served.grounded {t : Transaction} (hserved : t.Served) (hg : Grounded db)
    (h : t.apply db = .ok db') : Grounded db' := by
  have hedge : ¬ t.rights .takeEdge := by
    cases t with
    | takeEdge => exact hserved.elim
    | confirmTransfer => rintro (h | h) <;> cases h
    | _ => exact Right.noConfusion
  exact (Transaction.effects h).invariant Grounded hg fun _ _ ha hab => hab.grounded hedge ha

/-- **What one transaction strands.** -/
theorem Transaction.stranded_iff {t : Transaction} (hserved : t.Served) (hg : Grounded db)
    (hn : NoneStranded db) (h : t.apply db = .ok db') : NoneStranded db' ↔ t.Clears db := by
  -- The writers that neither report nor expire nor cancel.
  have hquiet : ¬ t.rights .settle → ¬ t.rights .accept → ¬ t.rights .expire →
      ¬ t.rights .cancel → ¬ t.rights .takeEdge → NoneStranded db' := by
    intro hsettle haccept hexpire hcancel hedge
    refine ((Transaction.effects h).invariant (fun x => Grounded x ∧ NoneStranded x) ⟨hg, hn⟩ ?_).2
    intro a b ha hab
    exact ⟨hab.grounded hedge ha.1,
      hab.noneStranded hsettle haccept hexpire hcancel hedge ha.1 ha.2⟩
  cases t with
  | confirmTransfer transfer info now =>
    rw [confirmTransfer_stranded_iff hg.agree hn h]
    constructor
    · intro hclear invoice hinvoice hpays
      obtain ⟨id, hid, hfind⟩ := Option.bind_eq_some_iff.1 hinvoice
      obtain rfl : invoice.id = id := Table.key_of_find? hfind
      exact hclear invoice ((accepts_iff_reportPays hid hfind).2 hpays)
    · intro hclear invoice haccepts
      refine hclear invoice ?_ ((accepts_iff_reportPays haccepts.own haccepts.found).1 haccepts)
      rw [haccepts.own]
      exact haccepts.found
  | expireOne invoiceId now => exact expireOne_stranded_iff hn h
  | loadAndMaybeExpire merchantId invoiceId now =>
    have hload : Transaction.load merchantId invoiceId now db = .ok db' := h
    unfold Transaction.load at hload
    cases hread : InvoicesService.loadAndMaybeExpire merchantId invoiceId now db with
    | error e => rw [hread] at hload; cases hload
    | ok r =>
      rw [hread] at hload
      cases hload
      exact loadAndMaybeExpire_stranded_iff hn hread
  | cancelWrite read now => exact cancelWrite_stranded_iff hn h
  | takeEdge => exact hserved.elim
  | _ =>
    refine iff_of_true (hquiet ?_ ?_ ?_ ?_ ?_) trivial <;> exact Right.noConfusion

/-! ## Runs -/

namespace Move

/-- No person takes an edge by hand. -/
def Served : Move → Prop
  | atomic t => t.Served
  | _ => True

/-- The move leaves no transfer behind on an invoice that it pays, expires or cancels. -/
def Clears : Move → Session → Prop
  | atomic t, s => t.Clears s.db
  | beginCancel merchantId invoiceId now, s =>
    (Transaction.loadAndMaybeExpire merchantId invoiceId now).Clears s.db
  | finishCancel position _, s =>
    ∀ read ∈ s.cancels[position]?, awaiting s.db read.invoice.id = []

instance : DecidablePred Served
  | atomic (.takeEdge _ _ _) => isFalse not_false
  | atomic (.recordTransfers ..) | atomic (.confirmTransfer ..) | atomic (.orphanTransaction ..)
  | atomic (.expireOne ..) | atomic (.loadAndMaybeExpire ..) | atomic (.cancelWrite ..)
  | atomic (.createInvoice ..) | atomic (.registerMerchant ..) | atomic (.updateMerchant ..)
  | atomic (.registerAddress ..) | beginCancel .. | finishCancel .. => isTrue trivial

instance : ∀ (m : Move) (s : Session), Decidable (m.Clears s)
  | atomic t, s => inferInstanceAs (Decidable (t.Clears s.db))
  | beginCancel merchantId invoiceId now, s => inferInstanceAs
      (Decidable ((Transaction.loadAndMaybeExpire merchantId invoiceId now).Clears s.db))
  | finishCancel position _, s => inferInstanceAs
      (Decidable (∀ read ∈ s.cancels[position]?, awaiting s.db read.invoice.id = []))

theorem Served.grounded {m : Move} {s s' : Session} (hserved : m.Served) (hg : Grounded s.db)
    (h : m.apply s = .ok s') : Grounded s'.db := by
  cases m with
  | atomic t =>
    obtain ⟨db, ht, rfl⟩ := atomic_eq_ok h
    exact Transaction.Served.grounded hserved hg ht
  | beginCancel merchantId invoiceId now =>
    obtain ⟨db, read, hload, -, rfl⟩ := beginCancel_eq_ok h
    have heffects : Effects (Eq .expire) s.db db := (loadAndMaybeExpire_eq_ok rfl hload).1
    exact heffects.invariant Grounded hg fun _ _ ha hab => hab.grounded Right.noConfusion ha
  | finishCancel position now =>
    rcases finishCancel_eq_ok h with ⟨-, rfl⟩ | ⟨read, db, -, hwrite, rfl⟩
    · exact hg
    · have heffects : Effects (Eq .cancel) s.db db := cancelWrite_effects rfl hwrite
      exact heffects.invariant Grounded hg fun _ _ ha hab => hab.grounded Right.noConfusion ha

theorem stranded_iff {m : Move} {s s' : Session} (hserved : m.Served) (hg : Grounded s.db)
    (hn : NoneStranded s.db) (h : m.apply s = .ok s') : NoneStranded s'.db ↔ m.Clears s := by
  cases m with
  | atomic t =>
    obtain ⟨db, ht, rfl⟩ := atomic_eq_ok h
    exact Transaction.stranded_iff hserved hg hn ht
  | beginCancel merchantId invoiceId now =>
    obtain ⟨db, read, hload, -, rfl⟩ := beginCancel_eq_ok h
    exact loadAndMaybeExpire_stranded_iff hn hload
  | finishCancel position now =>
    rcases finishCancel_eq_ok h with ⟨hread, rfl⟩ | ⟨read, db, hread, hwrite, rfl⟩
    · rw [Clears, hread]
      exact iff_of_true hn fun _ hnone => by cases hnone
    · rw [Clears, hread, cancelWrite_stranded_iff hn hwrite]
      simp

end Move

/-- **Nothing is stranded** in an interleaving whose moves leave nothing behind, and the first move
that does leave something strands it. -/
theorem none_stranded {s : Session}
    (h : interleaved.Reachable Move.Served Move.Clears Session.empty s) :
    NoneStranded s.db ∧ ∀ (m : Move) (s' : Session), m.Served → m.apply s = .ok s' →
      (NoneStranded s'.db ↔ m.Clears s) := by
  have hkind : ∀ op (s : Session), Move.Served op → ∀ t,
      Except.ok t ∈ interleaved.script op s → Move.Served t := by
    intro op s hop t ht
    cases List.mem_singleton.1 ht
    exact hop
  have hboth : Grounded s.db ∧ NoneStranded s.db := by
    refine h.invariant (P := fun s : Session => Grounded s.db ∧ NoneStranded s.db) hkind
      ⟨grounded_empty, fun t ht => absurd ht (Table.not_mem_empty t)⟩ ?_
    intro m a b hserved ha hclears hok
    exact ⟨hserved.grounded ha.1 hok, (Move.stranded_iff hserved ha.1 ha.2 hok).2 hclears⟩
  exact ⟨hboth.2, fun m s' hserved hok => Move.stranded_iff hserved hboth.1 hboth.2 hok⟩

/-! ## A top-up -/

namespace Shop

/-- Operations of the services that leave nothing behind make an interleaving that does not. -/
theorem session_of_after {meets : Transaction → Db → Prop} {meets' : Move → Session → Prop}
    (ops : List Operation) (hops : ∀ op ∈ opening ++ ops, op.Served)
    (hall : gateway.AllMeet meets (opening ++ ops) Db.empty)
    (hmeets : ∀ t (s : Session), meets t s.db → meets' (.atomic t) s) :
    interleaved.Reachable Move.Served meets' Session.empty ⟨after ops, []⟩ :=
  interleaved_of_gateway (after_reachable ops hops hall)
    (fun _ s hop t ht => served_script s hop t ht) hmeets

/-- A payment that falls short, and a second one that makes up for it. -/
def toppedUp : List Operation := [
  observe 111 [(mined "a" 100 12, [usdtTransfer 5 60000000])] "a",
  confirm 111 [(mined "a" 100 12, [usdtTransfer 5 60000000])],
  observe 111 [(unmined "b", [usdtTransfer 7 40000000])] "b"]

/-- Both are confirmed before the deadline. -/
def completed : List Operation :=
  toppedUp ++ [confirm 130 [(mined "a" 100 31, []), (mined "b" 115 16, [])]]

/-- The deadline comes while the second is in the mempool. -/
def expiredToppedUp : List Operation := toppedUp ++ [.sweepExpiredInvoices 200 900000]

/-- The invoice is paid, and a second payment has been sighted but is not confirmed yet. -/
def paidTwice : List Operation := [
  observe 111 [(mined "a" 100 12, [usdtTransfer 5 100000000])] "a",
  observe 111 [(mined "b" 111 1, [usdtTransfer 7 50000000])] "b",
  confirm 111 [(mined "a" 100 12, []), (mined "b" 111 1, [])]]

end Shop

theorem none_stranded_completed :
    Shop.status (Shop.after Shop.completed) = some .paid ∧ NoneStranded (Shop.after Shop.completed) := by
  have hops : ∀ op ∈ Shop.opening ++ Shop.completed, op.Served := by decide
  have hall : gateway.AllMeet Transaction.Clears (Shop.opening ++ Shop.completed) Db.empty := by
    decide +kernel
  exact ⟨by decide +kernel,
    (none_stranded (Shop.session_of_after Shop.completed hops hall fun _ _ h => h)).1⟩

/-- **Money is stranded** by an expiry while a payment made in time is in the mempool, and by a
payment that settles the invoice before another one has been confirmed. -/
theorem Shop.stranded :
    (interleaved.Reachable Move.Served (fun _ _ => True) Session.empty
        ⟨Shop.after Shop.expiredToppedUp, []⟩ ∧
      Shop.status (Shop.after Shop.expiredToppedUp) = some .expired ∧
      ¬ NoneStranded (Shop.after Shop.expiredToppedUp)) ∧
    interleaved.Reachable Move.Served (fun _ _ => True) Session.empty
      ⟨Shop.after Shop.paidTwice, []⟩ ∧
    Shop.status (Shop.after Shop.paidTwice) = some .paid ∧
    ¬ NoneStranded (Shop.after Shop.paidTwice) := by
  have hexpired : ∀ op ∈ Shop.opening ++ Shop.expiredToppedUp, op.Served := by decide
  have hpaid : ∀ op ∈ Shop.opening ++ Shop.paidTwice, op.Served := by decide
  exact ⟨⟨Shop.session_of_after _ hexpired (Machine.allMeet_true _ _) fun _ _ h => h,
      by decide +kernel, by decide +kernel⟩,
    Shop.session_of_after _ hpaid (Machine.allMeet_true _ _) fun _ _ h => h,
    by decide +kernel, by decide +kernel⟩

end PaymentGateway
