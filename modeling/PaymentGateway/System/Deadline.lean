import PaymentGateway.System.Outbox
import PaymentGateway.System.Progress

/-!
# Expiry against sighting

A pending invoice falls due and a transfer that pays it is sighted, at the same time and in either
order. The expiry looks at the deadline alone and changes the status; the matcher grants a grace
period and, beyond it, changes nothing, because there is no edge from PENDING to
LATE_PAYMENT_REVIEW. Each order takes another branch.

|                  | expiry first              | sighting first            |
|------------------|---------------------------|---------------------------|
| within the grace | LATE_PAYMENT_REVIEW, late | DETECTED, pending         |
| beyond the grace | LATE_PAYMENT_REVIEW, late | EXPIRED, late             |

**Theorem (`expiry_sighting_differ`).** In every state the services reach this table is exact, so
no pair of an expiry and a sighting commutes.

A transaction may carry other transfers to the same invoice. They are judged alike throughout
(`Alike.decision`), and what they do to the status is bounded by two statuses, the one it has
before and the one it has after the transfer in question (`recordTransfers_moved`).
-/

namespace PaymentGateway

open Keyed Fallible Transactional MonitorService

variable {db x y : Db}

/-! ## The expiry -/

/-- The transactions that expire an invoice once it is due. -/
inductive Expiry (merchantId invoiceId : String) (now : Int) : Transaction → Prop
  | sweep : Expiry merchantId invoiceId now (.expireOne invoiceId now)
  | read : Expiry merchantId invoiceId now (.loadAndMaybeExpire merchantId invoiceId now)

variable {invoice : Invoice} {now : Int} {t : Transaction}

/-- What an expiry writes. -/
def expiredData (now : Int) : InvoiceData := { expiredAt := some now, bumpVersion := true }

theorem mayExpire_pending (hpending : invoice.status = .pending) (hdue : invoice.expiresAt ≤ now) :
    ExpirySweep.mayExpire invoice now = true := by
  unfold ExpirySweep.mayExpire
  rw [hpending, evaluateExpiry_expired, decide_eq_true hdue]
  rfl

theorem allowed_of_pending (hpending : invoice.status = .pending) :
    isActorAllowed invoice.status .expired .system = true := by
  rw [hpending]
  rfl

theorem expireOne_due (hn : Numbered db) (hfind : db.invoices.find? invoice.id = some invoice)
    (hpending : invoice.status = .pending) (hdue : invoice.expiresAt ≤ now) :
    ∃ events webhooks, ExpirySweep.expireOne invoice.id now db =
      .ok (db.withStatus invoice .expired .system (expiredData now) events webhooks) := by
  obtain ⟨events, hmove⟩ := applyTransition_isOk hn hfind (allowed_of_pending hpending)
    (expiredData now) ⟨"payment.expired", "system:worker", []⟩
  obtain ⟨webhooks, -, hwebhooks⟩ := Db.upsertWebhook_eq
    (db.withStatus invoice .expired .system (expiredData now) events db.webhookEvents)
    .paymentExpired invoice.merchantId invoice.id invoice.orderId
  refine ⟨events, webhooks, ?_⟩
  unfold ExpirySweep.expireOne
  rw [Db.findInvoice_eq_ok.2 hfind, bind_ok, mayExpire_pending hpending hdue, Bool.not_true,
    if_neg Bool.false_ne_true]
  show (db.applyTransition invoice.id invoice.status .expired .system (expiredData now) _ >>= _) = _
  rw [hmove, bind_ok, hwebhooks]
  rfl

/-- The expiry of a read creates its webhook, so it needs one that has not been emitted. -/
theorem expireOnRead_due (hn : Numbered db) (ho : Outbox db)
    (hfind : db.invoices.find? invoice.id = some invoice) (hpending : invoice.status = .pending) :
    ∃ events webhooks, InvoicesService.expireOnRead invoice now db =
      .ok (db.withStatus invoice .expired .system (expiredData now) events webhooks) := by
  have hallowed := allowed_of_pending hpending
  obtain ⟨events, hmove⟩ := applyTransition_isOk hn hfind hallowed (expiredData now)
    ⟨"payment.expired", "system", []⟩
  have hfree : db.webhookEvents.find? (WebhookEventType.paymentExpired.name ++ ":" ++ invoice.id) =
      none := by
    refine ho.unemitted hfind .expired ?_ (by decide) (expirable_open hallowed)
    intro s hs
    cases s <;> first | rfl | cases hs
  unfold InvoicesService.expireOnRead
  show ∃ events webhooks, (db.applyTransition invoice.id invoice.status .expired .system
    (expiredData now) _ >>= _) = _
  rw [hmove, bind_ok]
  unfold Db.createWebhook
  split
  · next row hrow =>
    have hfound : db.webhookEvents.find?
        (WebhookEventType.paymentExpired.name ++ ":" ++ invoice.id) = some row := hrow
    rw [hfree] at hfound
    cases hfound
  · exact ⟨events, _, rfl⟩

/-- **A due invoice expires**, whichever of the two expires it. -/
theorem Expiry.due (h : Expiry invoice.merchantId invoice.id now t) (hn : Numbered db)
    (ho : Outbox db) (hfind : db.invoices.find? invoice.id = some invoice)
    (hpending : invoice.status = .pending) (hdue : invoice.expiresAt ≤ now) :
    ∃ events webhooks, t.apply db =
      .ok (db.withStatus invoice .expired .system (expiredData now) events webhooks) := by
  cases h with
  | sweep => exact expireOne_due hn hfind hpending hdue
  | read =>
    obtain ⟨events, webhooks, hexpire⟩ := @expireOnRead_due db invoice now hn ho hfind hpending
    refine ⟨events, webhooks, ?_⟩
    have hmay : InvoicesService.mayExpire invoice now = true := mayExpire_pending hpending hdue
    show Transaction.load invoice.merchantId invoice.id now db = _
    unfold Transaction.load InvoicesService.loadAndMaybeExpire
    rw [hfind, Option.filter_some, if_pos (decide_eq_true rfl)]
    dsimp only
    rw [hmay, if_pos rfl, hexpire, bind_ok,
      Db.findInvoice_eq_ok.2 (Db.find?_withStatus_self hfind), bind_ok]
    rfl

/-- An invoice that is no longer the system's to expire is left alone. -/
theorem Expiry.undue (h : Expiry invoice.merchantId invoice.id now t)
    (hfind : db.invoices.find? invoice.id = some invoice)
    (hstatus : isActorAllowed invoice.status .expired .system = false) : t.apply db = .ok db := by
  have hmay : ExpirySweep.mayExpire invoice now = false := by
    unfold ExpirySweep.mayExpire
    rw [hstatus, Bool.false_and]
  cases h with
  | sweep =>
    show ExpirySweep.expireOne invoice.id now db = _
    unfold ExpirySweep.expireOne
    rw [Db.findInvoice_eq_ok.2 hfind, bind_ok, hmay, Bool.not_false, if_pos rfl]
  | read =>
    have hmay' : InvoicesService.mayExpire invoice now = false := hmay
    show Transaction.load invoice.merchantId invoice.id now db = _
    unfold Transaction.load InvoicesService.loadAndMaybeExpire
    rw [hfind, Option.filter_some, if_pos (decide_eq_true rfl)]
    dsimp only
    rw [hmay', if_neg Bool.false_ne_true]
    rfl

/-! ## The sighting -/

def statusOf (db : Db) (invoiceId : String) : Option InvoiceStatus :=
  (db.invoices.find? invoiceId).map (·.status)

/-- Where a decision takes the invoice it is about. -/
def moved (source : InvoiceStatus) (decision : TransferMatchStatus) : InvoiceStatus :=
  match sightingTarget decision with
  | none => source
  | some target => if canTransition source target then target else source

theorem moved_of_stays {source : InvoiceStatus} {decision : TransferMatchStatus}
    (h : ∀ target, sightingTarget decision = some target → canTransition source target = false) :
    moved source decision = source := by
  unfold moved
  cases hd : sightingTarget decision with
  | none => rfl
  | some target =>
    dsimp only
    rw [h target hd, if_neg Bool.false_ne_true]

theorem moved_of_target {source target : InvoiceStatus} {decision : TransferMatchStatus}
    (hd : sightingTarget decision = some target) (h : canTransition source target = true) :
    moved source decision = target := by
  unfold moved
  rw [hd]
  exact if_pos h

/-- A sighting moves its own invoice as the decision says, and no other. -/
theorem recordTransfer_status {s : Sighting} (h : recordTransfer x s = .ok y) (id : String) :
    (statusOf y id = statusOf x id ∧ (((x.transfers.find? s.key).bind (·.creditedAt)).isSome = true ∨
      (s.invoice x).map (·.id) ≠ some id)) ∨
    ((s.invoice x).map (·.id) = some id ∧
      statusOf y id = (statusOf x id).map (moved · (s.decision x).status)) := by
  rcases recordTransfer_eq_ok h with ⟨hcredited, rfl⟩ | ⟨-, row, -, hcases⟩
  · exact .inl ⟨rfl, .inl hcredited⟩
  obtain ⟨transfers, hupsert⟩ := Db.upsertTransfer_eq x row
  rcases hcases with ⟨rfl, hstays⟩ |
    ⟨invoice, target, data, events, webhooks, hinvoice, htarget, hallowed, -, -, rfl⟩
  · have hsame : statusOf (x.upsertTransfer row) id = statusOf x id := by
      unfold statusOf
      rw [hupsert]
    by_cases hid : (s.invoice x).map (·.id) = some id
    · refine .inr ⟨hid, ?_⟩
      obtain ⟨invoice, hinvoice, rfl⟩ := Option.map_eq_some_iff.1 hid
      rw [hsame]
      unfold statusOf
      rw [(find?_of_invoice hinvoice).1, Option.map_some, Option.map_some,
        moved_of_stays fun target ht => hstays invoice target hinvoice ht]
    · exact .inl ⟨hsame, .inr hid⟩
  · have hstatus : statusOf ((x.upsertTransfer row).withStatus invoice target .monitor data events
        webhooks) id = ((x.invoices.find? id).map fun r =>
          if id = invoice.id then r.update { data with status := some target } else r).map
            (·.status) := by
      unfold statusOf
      rw [Db.find?_withStatus, hupsert]
    rw [hstatus, hinvoice, Option.map_some]
    by_cases hid : invoice.id = id
    · subst hid
      refine .inr ⟨rfl, ?_⟩
      unfold statusOf
      rw [(find?_of_invoice hinvoice).1, Option.map_some, Option.map_some, Option.map_some,
        Option.map_some, if_pos rfl, Invoice.status_update, Option.getD_some,
        moved_of_target htarget (canTransition_of_isActorAllowed hallowed)]
    · refine .inl ⟨?_, .inr fun heq => hid (Option.some.inj heq)⟩
      simp only [if_neg (Ne.symm hid)]
      rw [Option.map_id']
      rfl

/-- Another transfer of the same transaction, seen by the same monitor. -/
def MonitorService.Sighting.other (s : Sighting) (transfer : ParsedTransfer) : Sighting :=
  MonitorService.sighting s.network s.chainTx s.graceSeconds s.now transfer

theorem other_self (s : Sighting) : s.other s.transfer = s := rfl

/-- The transaction that records a sighting with the other transfers around it. -/
def MonitorService.Sighting.recording (s : Sighting) (transfers : List ParsedTransfer) : Transaction :=
  .recordTransfers s.network s.chainTx transfers s.graceSeconds s.now

/-- One transfer of the list: it keeps the invoice between `a` and `b`, and the one in question
takes it to `b`. -/
theorem recordTransfer_moved {s : Sighting} {t : ParsedTransfer} {id : String}
    {a b : InvoiceStatus} (ha : Alike db x)
    (hothers : ((s.other t).invoice db).map (·.id) = some id →
      (moved a ((s.other t).decision db).status = a ∨
        moved a ((s.other t).decision db).status = b) ∧
      moved b ((s.other t).decision db).status = b)
    (hstatus : statusOf x id = some a ∨ statusOf x id = some b)
    (h : recordTransfer x (s.other t) = .ok y) :
    (statusOf y id = some a ∨ statusOf y id = some b) ∧
      (statusOf x id = some b → statusOf y id = some b) := by
  rcases recordTransfer_status h id with ⟨hsame, -⟩ | ⟨hid, hmoved⟩
  · rw [hsame]
    exact ⟨hstatus, fun hb => hb⟩
  · rw [ha.invoiceId] at hid
    obtain ⟨hfroma, hfromb⟩ := hothers hid
    rw [ha.decision] at hmoved
    refine ⟨?_, fun hb => ?_⟩
    · rcases hstatus with hs | hs
      · rw [hmoved, hs, Option.map_some]
        rcases hfroma with hm | hm
        · exact .inl (congrArg some hm)
        · exact .inr (congrArg some hm)
      · rw [hmoved, hs, Option.map_some, hfromb]
        exact .inr rfl
    · rw [hmoved, hb, Option.map_some, hfromb]

/-- **What a transaction does to the invoice of one of its transfers**, when all of them keep it
between two statuses. -/
theorem recordTransfers_moved {s : Sighting} {transfers : List ParsedTransfer} {id : String}
    {a b : InvoiceStatus} (hlisted : s.transfer ∈ transfers)
    (hdistinct : ∀ t ∈ transfers, t.transferIndex = s.transfer.transferIndex → t = s.transfer)
    (hid : (s.invoice db).map (·.id) = some id)
    (huncredited : (db.transfers.find? s.key).bind (·.creditedAt) = none)
    (hstatus : statusOf db id = some a) (hthis : moved a (s.decision db).status = b)
    (hothers : ∀ t, ((s.other t).invoice db).map (·.id) = some id →
      (moved a ((s.other t).decision db).status = a ∨
        moved a ((s.other t).decision db).status = b) ∧
      moved b ((s.other t).decision db).status = b)
    (h : (s.recording transfers).apply db = .ok y) :
    statusOf y id = some b ∧
      (y.transfers.find? s.key).map (·.matchStatus) = some (s.decision db).status := by
  obtain ⟨chainTxs, hchain⟩ := recordChainTransaction_eq db s.network s.chainTx s.now
  have hrun : transfers.foldlM (fun x t => recordTransfer x (s.other t))
      { db with chainTxs } = .ok y := by
    rw [← hchain]
    exact h
  have hend : Alike db y ∧ ∃ done, transfers = done ++ [] ∧
      (statusOf y id = some a ∨ statusOf y id = some b) ∧
      (s.transfer ∈ done → statusOf y id = some b ∧
        (y.transfers.find? s.key).map (·.matchStatus) = some (s.decision db).status) := by
    refine foldlM_invariant_rest (fun rest x => Alike db x ∧ ∃ done, transfers = done ++ rest ∧
      (statusOf x id = some a ∨ statusOf x id = some b) ∧
      (s.transfer ∈ done → statusOf x id = some b ∧
        (x.transfers.find? s.key).map (·.matchStatus) = some (s.decision db).status)) ?_ ?_ hrun
    · exact ⟨⟨rfl, fun _ => rfl, fun _ => rfl⟩, [], rfl, .inl hstatus,
        fun hmem => absurd hmem List.not_mem_nil⟩
    · rintro t rest x z ⟨ha, done, hsplit, hbetween, hdone⟩ hstep
      obtain ⟨hbetween', hkeeps⟩ := recordTransfer_moved ha (hothers t) hbetween hstep
      refine ⟨ha.trans (alike_recordTransfer hstep), done ++ [t], ?_, hbetween', fun hmem => ?_⟩
      · rw [hsplit, List.append_assoc, List.singleton_append]
      by_cases ht : t = s.transfer
      · subst ht
        have hnone : (x.transfers.find? s.key).bind (·.creditedAt) = none := by
          rw [ha.credited, huncredited]
        have hrow := recordTransfer_match hstep hnone
        rw [other_self] at hstep hrow
        rw [ha.decision] at hrow
        refine ⟨?_, hrow⟩
        rcases recordTransfer_status hstep id with ⟨-, hcredited | hne⟩ | ⟨-, hmoved⟩
        · rw [hnone] at hcredited
          cases hcredited
        · rw [ha.invoiceId] at hne
          exact absurd hid hne
        · rw [ha.decision] at hmoved
          rcases hbetween with hs | hs
          · rw [hmoved, hs, Option.map_some, hthis]
          · exact hkeeps hs
      · have hmem' : s.transfer ∈ done := by
          rcases List.mem_append.1 hmem with hmem | hmem
          · exact hmem
          · exact absurd (List.mem_singleton.1 hmem).symm ht
        obtain ⟨hb, hrow⟩ := hdone hmem'
        refine ⟨hkeeps hb, ?_⟩
        have hkey : (s.other t).key ≠ s.key := by
          intro heq
          have hlist : t ∈ transfers := by
            rw [hsplit]
            exact List.mem_append_right _ List.mem_cons_self
          exact ht (hdistinct t hlist (congrArg TransferKey.transferIndex heq))
        rcases recordTransfer_row hstep s.key with ⟨hsame, -⟩ | ⟨heq, -⟩
        · rw [hsame, hrow]
        · exact absurd heq hkey
  obtain ⟨-, done, hsplit, -, hdone⟩ := hend
  rw [List.append_nil] at hsplit
  exact hdone (hsplit ▸ hlisted)

/-! ## The two orders -/

/-- A transfer that is sighted for the first time and pays an invoice: it is a supported transfer
of the invoice's asset to its address, in a transaction that the database can record. -/
structure FirstSighting (db : Db) (s : Sighting) (transfers : List ParsedTransfer)
    (invoice : Invoice) : Prop where
  addressed : s.invoice db = some invoice
  supported : s.asset.any (fun a => decide (a.symbol = invoice.paymentAsset ∧
    a.minDepositUnits ≤ s.transfer.amount)) = true
  executed : s.chainTx.status ≠ .reverted
  unrecorded : db.transfers.find? s.key = none
  listed : s.transfer ∈ transfers
  distinct : ∀ t ∈ transfers, t.transferIndex = s.transfer.transferIndex → t = s.transfer
  recordable : ∀ t ∈ transfers, Recordable db (s.other t)

/-- What a run leaves of an invoice and of a transfer. -/
structure Outcome where
  invoiceStatus : Option InvoiceStatus
  matchStatus : Option TransferMatchStatus
  deriving DecidableEq, Repr

def outcome (db : Db) (invoiceId : String) (key : TransferKey) : Outcome :=
  ⟨statusOf db invoiceId, (db.transfers.find? key).map (·.matchStatus)⟩

def inOrder (first second : Transaction) (db : Db) : Except Error Db :=
  first.apply db >>= second.apply

/-- What should hold of an expiry and a sighting, in whatever order they come: both orders end
alike, beyond the grace period in a review, within it with the payment accepted. -/
structure Commute (db : Db) (s : Sighting) (invoice : Invoice) (expiry sighted : Transaction) :
    Prop where
  same : ∀ x y, inOrder expiry sighted db = .ok x → inOrder sighted expiry db = .ok y →
    outcome x invoice.id s.key = outcome y invoice.id s.key
  beyond : isWithinGrace invoice.expiresAt s.now s.graceSeconds = false → ∀ x,
    inOrder expiry sighted db = .ok x ∨ inOrder sighted expiry db = .ok x →
    outcome x invoice.id s.key = ⟨some .latePaymentReview, some .latePaymentReview⟩
  within : isWithinGrace invoice.expiresAt s.now s.graceSeconds = true → ∀ x,
    inOrder expiry sighted db = .ok x ∨ inOrder sighted expiry db = .ok x →
    statusOf x invoice.id ≠ some .expired ∧
      (outcome x invoice.id s.key).matchStatus = some .pendingConfirmation

theorem moved_open {d : TransferMatchStatus} (h : d ≠ .latePaymentReview) :
    (moved .pending d = .pending ∨ moved .pending d = .detected) ∧
      moved .detected d = .detected := by
  revert h
  cases d <;> decide

theorem moved_overdue {d : TransferMatchStatus} (h : d ≠ .pendingConfirmation) :
    moved .pending d = .pending ∧
      (moved .expired d = .expired ∨ moved .expired d = .latePaymentReview) ∧
      moved .latePaymentReview d = .latePaymentReview := by
  revert h
  cases d <;> decide

variable {s : Sighting} {transfers : List ParsedTransfer}

/-- A transfer that pays is counted or late. -/
theorem decision_of_pays (hinvoice : s.invoice db = some invoice)
    (hsupported : s.asset.any (fun a => decide (a.minDepositUnits ≤ s.transfer.amount)) = true)
    (hexecuted : s.chainTx.status ≠ .reverted) :
    (s.decision db).status =
      if isPayableStatus invoice.status && isWithinGrace invoice.expiresAt s.now s.graceSeconds
      then .pendingConfirmation else .latePaymentReview := by
  split_ifs with hopen
  · rw [Bool.and_eq_true] at hopen
    exact (decision_pending_iff s db).2
      ⟨invoice, hinvoice, hexecuted, hsupported, hopen.1, hopen.2⟩
  · refine (decision_late_iff s db).2 ⟨hexecuted, hsupported, invoice, hinvoice, ?_⟩
    rw [Bool.and_eq_true, not_and_or, Bool.not_eq_true, Bool.not_eq_true] at hopen
    exact hopen.symm

theorem FirstSighting.minimum (h : FirstSighting db s transfers invoice) :
    s.asset.any (fun a => decide (a.minDepositUnits ≤ s.transfer.amount)) = true := by
  obtain ⟨a, ha, hboth⟩ := (Option.any_eq_true _ _).1 h.supported
  exact (Option.any_eq_true _ _).2 ⟨a, ha, decide_eq_true (of_decide_eq_true hboth).2⟩

/-- The invoice another transfer of the transaction is for, if it is for this one. -/
theorem invoice_of_id {s : Sighting} (hid : (s.invoice db).map (·.id) = some invoice.id)
    (hfind : db.invoices.find? invoice.id = some invoice) : s.invoice db = some invoice := by
  obtain ⟨i, hi, heq⟩ := Option.map_eq_some_iff.1 hid
  have hfound := (find?_of_invoice hi).1
  rw [heq, hfind] at hfound
  rw [hi, Option.some.inj hfound]

/-- **The sighting comes first**: within the grace period the invoice is detected, beyond it the
invoice stays where it is. -/
theorem FirstSighting.first (h : FirstSighting db s transfers invoice) (hn : Numbered db)
    (hpending : invoice.status = .pending) :
    ∃ y, (s.recording transfers).apply db = .ok y ∧
      outcome y invoice.id s.key =
        if isWithinGrace invoice.expiresAt s.now s.graceSeconds
        then ⟨some .detected, some .pendingConfirmation⟩
        else ⟨some .pending, some .latePaymentReview⟩ := by
  obtain ⟨y, hy⟩ := (recordTransfers_isOk_iff hn s.network s.chainTx transfers s.graceSeconds
    s.now).2 h.recordable
  have hfind := (find?_of_invoice h.addressed).1
  have hid : (s.invoice db).map (·.id) = some invoice.id := by rw [h.addressed, Option.map_some]
  have huncredited : (db.transfers.find? s.key).bind (·.creditedAt) = none := by
    rw [h.unrecorded, Option.bind_none]
  have hstatus : statusOf db invoice.id = some .pending := by
    unfold statusOf
    rw [hfind, Option.map_some, hpending]
  have hdecision := decision_of_pays h.addressed h.minimum h.executed
  have hpayable : isPayableStatus invoice.status = true := by
    rw [hpending]
    rfl
  rw [hpayable, Bool.true_and] at hdecision
  refine ⟨y, hy, ?_⟩
  cases hgrace : isWithinGrace invoice.expiresAt s.now s.graceSeconds with
  | true =>
    rw [hgrace, if_pos rfl] at hdecision
    have hothers : ∀ t, ((s.other t).invoice db).map (·.id) = some invoice.id →
        (moved .pending ((s.other t).decision db).status = .pending ∨
          moved .pending ((s.other t).decision db).status = .detected) ∧
        moved .detected ((s.other t).decision db).status = .detected := by
      intro t ht
      refine moved_open fun hlate => ?_
      obtain ⟨-, -, i, hi, hwhy⟩ := (decision_late_iff _ _).1 hlate
      rw [invoice_of_id ht hfind] at hi
      obtain rfl := Option.some.inj hi
      rcases hwhy with hwhy | hwhy
      · exact Bool.false_ne_true (hwhy.symm.trans hgrace)
      · exact Bool.false_ne_true (hwhy.symm.trans hpayable)
    have hthis : moved .pending (s.decision db).status = .detected := by
      rw [hdecision]
      rfl
    obtain ⟨hend, hrow⟩ := recordTransfers_moved h.listed h.distinct hid huncredited hstatus hthis
      hothers hy
    unfold outcome
    rw [hend, hrow, hdecision]
    rfl
  | false =>
    rw [hgrace, if_neg Bool.false_ne_true] at hdecision
    have hothers : ∀ t, ((s.other t).invoice db).map (·.id) = some invoice.id →
        (moved .pending ((s.other t).decision db).status = .pending ∨
          moved .pending ((s.other t).decision db).status = .pending) ∧
        moved .pending ((s.other t).decision db).status = .pending := by
      intro t ht
      have hne : ((s.other t).decision db).status ≠ .pendingConfirmation := by
        intro hcounts
        obtain ⟨i, hi, hcounts⟩ := (decision_pending_iff _ _).1 hcounts
        rw [invoice_of_id ht hfind] at hi
        obtain rfl := Option.some.inj hi
        exact Bool.false_ne_true (hgrace.symm.trans hcounts.in_time)
      obtain ⟨hstays, -⟩ := moved_overdue hne
      exact ⟨.inl hstays, hstays⟩
    have hthis : moved .pending (s.decision db).status = .pending := by
      rw [hdecision]
      rfl
    obtain ⟨hend, hrow⟩ := recordTransfers_moved h.listed h.distinct hid huncredited hstatus hthis
      hothers hy
    unfold outcome
    rw [hend, hrow, hdecision]
    rfl

/-- **The expiry comes first**: whatever the grace period, the transfer is late. -/
theorem FirstSighting.second (h : FirstSighting db s transfers invoice)
    {events : Db.Events} {webhooks : Db.Webhooks}
    (hx : x = db.withStatus invoice .expired .system (expiredData s.now) events webhooks)
    (hxn : Numbered x) :
    ∃ y, (s.recording transfers).apply x = .ok y ∧
      outcome y invoice.id s.key = ⟨some .latePaymentReview, some .latePaymentReview⟩ := by
  have hfind := (find?_of_invoice h.addressed).1
  have hrow : x.invoices.find? invoice.id =
      some (invoice.update { expiredData s.now with status := some .expired }) := by
    rw [hx]
    exact Db.find?_withStatus_self hfind
  have htransfers : x.transfers = db.transfers := by rw [hx]; rfl
  have hrecordable : ∀ t ∈ transfers, Recordable x (s.other t) := by
    intro t ht
    unfold Recordable
    rw [htransfers]
    exact h.recordable t ht
  obtain ⟨y, hy⟩ := (recordTransfers_isOk_iff hxn s.network s.chainTx transfers s.graceSeconds
    s.now).2 hrecordable
  have haddressed : s.invoice x =
      some (invoice.update { expiredData s.now with status := some .expired }) := by
    obtain ⟨-, address, haddress, hid⟩ := find?_of_invoice h.addressed
    have haddress' : x.findAddress s.network s.transfer.toAddress = some address := by
      rw [hx]
      exact haddress
    unfold Sighting.invoice
    rw [haddress', Option.bind_some, hid, Option.bind_some, hrow]
  have hdecision := decision_of_pays haddressed h.minimum h.executed
  have hunpayable : isPayableStatus .expired = false := rfl
  rw [Invoice.status_update, Option.getD_some, hunpayable, Bool.false_and,
    if_neg Bool.false_ne_true] at hdecision
  have hid : (s.invoice x).map (·.id) = some invoice.id := by
    rw [haddressed, Option.map_some, Invoice.id_update]
  have huncredited : (x.transfers.find? s.key).bind (·.creditedAt) = none := by
    rw [htransfers, h.unrecorded, Option.bind_none]
  have hstatus : statusOf x invoice.id = some .expired := by
    unfold statusOf
    rw [hrow]
    rfl
  have hthis : moved .expired (s.decision x).status = .latePaymentReview := by
    rw [hdecision]
    rfl
  have hothers : ∀ t, ((s.other t).invoice x).map (·.id) = some invoice.id →
      (moved .expired ((s.other t).decision x).status = .expired ∨
        moved .expired ((s.other t).decision x).status = .latePaymentReview) ∧
      moved .latePaymentReview ((s.other t).decision x).status = .latePaymentReview := by
    intro t ht
    refine (moved_overdue fun hcounts => ?_).2
    obtain ⟨i, hi, hcounts⟩ := (decision_pending_iff _ _).1 hcounts
    rw [← Invoice.id_update invoice { expiredData s.now with status := some .expired }] at ht hrow
    rw [invoice_of_id ht hrow] at hi
    obtain rfl := Option.some.inj hi
    exact Bool.false_ne_true (hunpayable.symm.trans hcounts.payable)
  obtain ⟨hend, hmatch⟩ := recordTransfers_moved h.listed h.distinct hid huncredited hstatus hthis
    hothers hy
  refine ⟨y, hy, ?_⟩
  unfold outcome
  rw [hend, hmatch, hdecision]

/-- **No expiry commutes with a sighting**: see the head of this module. -/
theorem expiry_sighting_differ
    (h : gateway.Reachable Operation.Served (fun _ _ => True) Db.empty db)
    (hsighted : FirstSighting db s transfers invoice) (hpending : invoice.status = .pending)
    (hdue : invoice.expiresAt ≤ s.now) (hexpiry : Expiry invoice.merchantId invoice.id s.now t) :
    (∃ x y, inOrder t (s.recording transfers) db = .ok x ∧
      inOrder (s.recording transfers) t db = .ok y ∧
      outcome x invoice.id s.key = ⟨some .latePaymentReview, some .latePaymentReview⟩ ∧
      outcome y invoice.id s.key =
        if isWithinGrace invoice.expiresAt s.now s.graceSeconds
        then ⟨some .detected, some .pendingConfirmation⟩
        else ⟨some .expired, some .latePaymentReview⟩) ∧
    ¬ Commute db s invoice t (s.recording transfers) := by
  have hn := numbered h
  have hd := delivered h
  have hfind := (find?_of_invoice hsighted.addressed).1
  have horders : ∃ x y, inOrder t (s.recording transfers) db = .ok x ∧
      inOrder (s.recording transfers) t db = .ok y ∧
      outcome x invoice.id s.key = ⟨some .latePaymentReview, some .latePaymentReview⟩ ∧
      outcome y invoice.id s.key =
        if isWithinGrace invoice.expiresAt s.now s.graceSeconds
        then ⟨some .detected, some .pendingConfirmation⟩
        else ⟨some .expired, some .latePaymentReview⟩ := by
    obtain ⟨events, webhooks, hexpired⟩ := hexpiry.due hn hd.outbox hfind hpending hdue
    obtain ⟨x, hx, hxout⟩ := hsighted.second rfl ((Transaction.effects hexpired).numbered hn)
    obtain ⟨y, hy, hyout⟩ := hsighted.first hn hpending
    have hyn : Numbered y := (Transaction.effects hy).numbered hn
    have hyd : Delivered y := Transaction.delivered hy trivial trivial hd
    obtain ⟨halike, -⟩ := recordTransfers_spec hy
    have hjudged := halike.invoices invoice.id
    rw [hfind, Option.map_some] at hjudged
    obtain ⟨j, hj, hsame⟩ := Option.map_eq_some_iff.1 hjudged
    have hterms : j.terms = invoice.terms := congrArg Prod.fst hsame
    have hid : j.id = invoice.id := congrArg Invoice.Terms.id hterms
    have hmerchant : j.merchantId = invoice.merchantId :=
      congrArg Invoice.Terms.merchantId hterms
    have hdeadline : j.expiresAt = invoice.expiresAt := congrArg Invoice.Terms.expiresAt hterms
    rw [← hid] at hj
    have hexpiry' : Expiry j.merchantId j.id s.now t := by
      rw [hid, hmerchant]
      exact hexpiry
    have hstatus : statusOf y invoice.id = some j.status := by
      unfold statusOf
      rw [← hid, hj, Option.map_some]
    refine ⟨x, ?_⟩
    unfold inOrder
    rw [hexpired, bind_ok, hy, bind_ok]
    unfold outcome at hyout
    rw [hstatus] at hyout
    cases hgrace : isWithinGrace invoice.expiresAt s.now s.graceSeconds with
    | true =>
      rw [hgrace, if_pos rfl] at hyout
      obtain ⟨hdetected, hmatch⟩ := Outcome.mk.inj hyout
      have hleft : isActorAllowed j.status .expired .system = false := by
        rw [Option.some.inj hdetected]
        rfl
      refine ⟨y, hx, hexpiry'.undue hj hleft, hxout, ?_⟩
      rw [if_pos rfl]
      unfold outcome
      rw [hstatus, hdetected, hmatch]
    | false =>
      rw [hgrace, if_neg Bool.false_ne_true] at hyout
      obtain ⟨hstays, hmatch⟩ := Outcome.mk.inj hyout
      obtain ⟨events', webhooks', hexpired'⟩ := hexpiry'.due hyn hyd.outbox hj
        (Option.some.inj hstays) (hdeadline ▸ hdue)
      refine ⟨_, hx, hexpired', hxout, ?_⟩
      rw [if_neg Bool.false_ne_true]
      unfold outcome statusOf
      rw [← hid, Db.find?_withStatus_self hj]
      exact congrArg (Outcome.mk _) hmatch
  refine ⟨horders, fun hcommute => ?_⟩
  obtain ⟨x, y, hx, hy, hxout, hyout⟩ := horders
  have hsame := hcommute.same x y hx hy
  rw [hxout, hyout] at hsame
  revert hsame
  split_ifs <;> decide

namespace Shop

/-- A payment in full, sighted one second after the deadline. -/
def sightedLate (graceSeconds : Nat) : Sighting :=
  ⟨.ethereum, mined "a" 100 1, usdtTransfer 5 100000000, graceSeconds, 901000⟩

theorem opened : ∃ invoice, (after []).invoices.find? "i" = some invoice ∧ invoice.id = "i" ∧
    invoice.merchantId = "shop" ∧ invoice.paymentAsset = "USDT" ∧ invoice.status = .pending ∧
    invoice.expiresAt = 900000 := by
  have hrow : ((after []).invoices.find? "i").map
      (fun i => (i.id, i.merchantId, i.paymentAsset, i.status, i.expiresAt)) =
      some ("i", "shop", "USDT", .pending, 900000) := by decide +kernel
  obtain ⟨invoice, hfind, hcolumns⟩ := Option.map_eq_some_iff.1 hrow
  simp only [Prod.mk.injEq] at hcolumns
  exact ⟨invoice, hfind, hcolumns⟩

theorem sightedLate_first {invoice : Invoice} (hfind : (after []).invoices.find? "i" = some invoice)
    (hasset : invoice.paymentAsset = "USDT") (graceSeconds : Nat) :
    FirstSighting (after []) (sightedLate graceSeconds) [usdtTransfer 5 100000000] invoice where
  addressed := by
    have hserved : ((after []).findAddress .ethereum "0xpay").bind (·.invoiceId) = some "i" := by
      decide +kernel
    obtain ⟨address, haddress, hid⟩ := Option.bind_eq_some_iff.1 hserved
    show ((after []).findAddress .ethereum "0xpay").bind _ = _
    rw [haddress, Option.bind_some, hid, Option.bind_some, hfind]
  supported := by
    rw [hasset]
    show (resolveTransferAsset .ethereum (some usdt)).any (fun a => decide (a.symbol = "USDT" ∧
      a.minDepositUnits ≤ 100000000)) = true
    decide +kernel
  executed := by
    show ChainTransactionStatus.success ≠ .reverted
    decide
  unrecorded := by
    have hnone : ((after []).transfers.find? ⟨.ethereum, "a", 5⟩).isNone = true := by
      decide +kernel
    exact Option.isNone_iff_eq_none.1 hnone
  listed := List.mem_singleton_self _
  distinct t ht _ := List.mem_singleton.1 ht
  recordable t ht := by
    have hvalid : ValidTransfer (usdtTransfer 5 100000000) := by decide
    rw [List.mem_singleton.1 ht]
    exact .inr hvalid

/-- With an hour of grace the sweep sends a payment to review that it would have spared had the
monitor come first. -/
theorem expiry_sighting_differ_shop :
    ∃ invoice x y, (after []).invoices.find? "i" = some invoice ∧
      inOrder (.expireOne "i" 901000) ((sightedLate 3600).recording [usdtTransfer 5 100000000])
        (after []) = .ok x ∧
      inOrder ((sightedLate 3600).recording [usdtTransfer 5 100000000]) (.expireOne "i" 901000)
        (after []) = .ok y ∧
      outcome x "i" ⟨.ethereum, "a", 5⟩ = ⟨some .latePaymentReview, some .latePaymentReview⟩ ∧
      outcome y "i" ⟨.ethereum, "a", 5⟩ = ⟨some .detected, some .pendingConfirmation⟩ := by
  obtain ⟨invoice, hfind, hid, -, hasset, hpending, hdeadline⟩ := opened
  have hreach : gateway.Reachable Operation.Served (fun _ _ => True) Db.empty (after []) :=
    after_reachable [] (by decide) (Machine.allMeet_true _ _)
  have hdue : invoice.expiresAt ≤ (sightedLate 3600).now := by
    rw [hdeadline]
    decide
  have hexpiry : Expiry invoice.merchantId invoice.id (sightedLate 3600).now
      (.expireOne "i" 901000) := by
    rw [hid]
    exact .sweep
  have hwithin : isWithinGrace invoice.expiresAt (sightedLate 3600).now
      (sightedLate 3600).graceSeconds = true := by
    rw [hdeadline]
    decide
  obtain ⟨⟨x, y, hx, hy, hxout, hyout⟩, -⟩ := expiry_sighting_differ hreach
    (sightedLate_first hfind hasset 3600) hpending hdue hexpiry
  rw [hid] at hxout hyout
  rw [if_pos hwithin] at hyout
  exact ⟨invoice, x, y, hfind, hx, hy, hxout, hyout⟩

/-- The law fails within the grace period, when the sweep comes first, and beyond it, when the
sighting does: the payment is then left with an invoice that says no more than EXPIRED. -/
theorem expiry_sighting_conflict :
    ∃ invoice, (after []).invoices.find? "i" = some invoice ∧ invoice.status = .pending ∧
      invoice.expiresAt ≤ 901000 ∧
      ¬ Commute (after []) (sightedLate 3600) invoice (.expireOne "i" 901000)
        ((sightedLate 3600).recording [usdtTransfer 5 100000000]) ∧
      ¬ Commute (after []) (sightedLate 0) invoice (.loadAndMaybeExpire "shop" "i" 901000)
        ((sightedLate 0).recording [usdtTransfer 5 100000000]) := by
  obtain ⟨invoice, hfind, hid, -, -, hpending, hdeadline⟩ := opened
  have hrun : ∀ (first second : Transaction) (o : Outcome),
      ((inOrder first second (after [])).toOption.map
        (outcome · "i" ⟨.ethereum, "a", 5⟩)) = some o →
      ∃ x, inOrder first second (after []) = .ok x ∧ outcome x "i" ⟨.ethereum, "a", 5⟩ = o := by
    intro first second o h
    cases hr : inOrder first second (after []) with
    | error e => rw [hr] at h; cases h
    | ok x => rw [hr] at h; exact ⟨x, rfl, Option.some.inj h⟩
  refine ⟨invoice, hfind, hpending, by rw [hdeadline]; decide, fun h => ?_, fun h => ?_⟩
  · obtain ⟨x, hx, hxout⟩ := hrun (.expireOne "i" 901000)
      ((sightedLate 3600).recording [usdtTransfer 5 100000000])
      ⟨some .latePaymentReview, some .latePaymentReview⟩ (by decide +kernel)
    have hwithin := (h.within (by rw [hdeadline]; decide) x (.inl hx)).2
    rw [hid] at hwithin
    have hout := congrArg Outcome.matchStatus hxout
    exact absurd (hout.symm.trans hwithin) (by decide)
  · obtain ⟨y, hy, hyout⟩ := hrun ((sightedLate 0).recording [usdtTransfer 5 100000000])
      (.loadAndMaybeExpire "shop" "i" 901000)
      ⟨some .expired, some .latePaymentReview⟩ (by decide +kernel)
    have hbeyond := h.beyond (by rw [hdeadline]; decide) y (.inr hy)
    rw [hid] at hbeyond
    exact absurd (hyout.symm.trans hbeyond) (by decide)

end Shop

end PaymentGateway
