import PaymentGateway.System.Invoices

/-!
# Settlement

The amount evaluated, the amount stored and the credits posted are three computations over a set
of transfers that keeps changing. They agree because an invoice that can still be settled has no
credit: whatever has been credited keeps its invoice on PAID or RECONCILIATION_REQUIRED
(`closedUnder_automatic`), from where the monitor settles nothing. So the settlement that lands on
PAID credits all it counts (`uncredited`), and nothing is credited to the invoice again.

**Theorem (`settlement_sound`).** In every state of every run of the automatic operations, a PAID
invoice has received, confirmed and been credited one and the same total. That total is in the
tolerance band or on a side that the merchant's policy accepts, as the merchant was in the state
from which the invoice became PAID. An invoice that has never been PAID has no credit.
-/

namespace PaymentGateway

open Keyed Fallible Transactional MonitorService

variable {may : Right → Prop} {db db' : Db}

/-! ## Credited invoices of automatic runs -/

def creditedStatuses : List InvoiceStatus := [.paid, .reconciliationRequired]

theorem closedUnder_automatic (hcancel : ¬ may .cancel) (hedge : ¬ may .takeEdge) :
    ClosedUnder may creditedStatuses where
  paid := by decide
  moved := by
    intro s hs target
    rcases List.mem_pair.1 hs with rfl | rfl <;> cases target <;> decide
  expired := by decide
  cancelled := fun hmay => absurd hmay hcancel
  edged := hedge

/-- An invoice outside the statuses of the credited ones has neither postings nor credited
transfers. -/
theorem uncredited {S : List InvoiceStatus} {invoice : Invoice} (hc : CreditsAgree db)
    (hw : Within S db) (hfind : db.invoices.find? invoice.id = some invoice)
    (hS : invoice.status ∉ S) :
    creditsOf db invoice.id = [] ∧
      ∀ t ∈ db.transfers, t.invoiceId = some invoice.id → t.creditedAt = none := by
  have hnone : ∀ p ∈ db.ledgerTransactions, p.invoiceId ≠ some invoice.id :=
    fun p hp hid => hS (hw p hp invoice (Table.mem_of_find? hfind) hid)
  refine ⟨?_, fun t ht hid => ?_⟩
  · refine List.filter_eq_nil_iff.2 fun p hp => ?_
    have hid := hnone p hp
    simp [hid]
  · by_contra hcredited
    obtain ⟨p, hp, horigin⟩ := hc.posting ht (Option.isSome_iff_ne_none.2 hcredited)
    exact hnone p hp (horigin.invoice.trans hid)

/-! ## The three totals -/

/-- A paid invoice has received and confirmed what was credited to it. -/
def PaidAgree (db : Db) : Prop :=
  ∀ i ∈ db.invoices, i.status = .paid →
    i.receivedAmount = creditsTotal db i.id ∧ i.confirmedAmount = creditsTotal db i.id

/-- What an accepted payment posts for its invoice is what it has counted. -/
theorem Accepted.creditsTotal {invoice : Invoice} {merchant : Merchant} {target : InvoiceStatus}
    (h : Accepted db db' invoice merchant target) (hc : CreditsAgree db)
    (hw : Within creditedStatuses db) :
    creditsTotal db' invoice.id = totalAmount (countedTransfers db invoice) ∧
      ∀ id, id ≠ invoice.id → creditsTotal db' id = creditsTotal db id := by
  have hsource := settle_source (statusForOutcome_settled h.settleable.target_of) h.allowed
  have hnot : invoice.status ∉ creditedStatuses := by
    rcases hsource with hs | hs | hs <;> rw [hs] <;> decide
  obtain ⟨hnone, huncredited⟩ := uncredited hc hw h.settleable.invoice_found hnot
  obtain ⟨db1, -, hledger, hloop⟩ := h.creditLoop hc
  have hsame : ∀ id, PaymentGateway.creditsTotal db1 id = PaymentGateway.creditsTotal db id := by
    intro id
    unfold PaymentGateway.creditsTotal creditsOf
    rw [hledger]
  have hall : (countedTransfers db invoice).filter (fun t => t.creditedAt = none) =
      countedTransfers db invoice := by
    refine List.filter_eq_self.2 fun t ht => decide_eq_true ?_
    obtain ⟨hfind, hid, -⟩ := (countedTransfers_spec db invoice).1 t ht
    exact huncredited t (Table.mem_of_find? hfind) hid
  refine ⟨?_, fun id hid => (hloop.others id hid).trans (hsame id)⟩
  have hzero : PaymentGateway.creditsTotal db invoice.id = 0 := by
    unfold PaymentGateway.creditsTotal
    rw [hnone]
    rfl
  rw [hloop.total, hsame, hzero, hall, zero_add]

theorem Effect.paidAgree (h : Effect may db db') (hedge : ¬ may .takeEdge) (hc : CreditsAgree db)
    (hw : Within creditedStatuses db) (ha : PaidAgree db) : PaidAgree db' := by
  intro i hi hpaid
  rcases h.quiet_or_accepted with ⟨hledger, hsteps⟩ | ⟨invoice, merchant, target, -, haccept⟩
  · have hstep := hsteps i.id
    rw [Table.find?_of_mem hi] at hstep
    have hsame : creditsTotal db' i.id = creditsTotal db i.id := by
      unfold creditsTotal creditsOf
      rw [hledger]
    rw [hsame]
    exact ha i (Table.mem_of_find? (hstep.paid_same quiet_accept
      (fun hmay => hedge hmay.1) hpaid)) hpaid
  · obtain ⟨htotal, hothers⟩ := haccept.creditsTotal hc hw
    obtain ⟨⟨invoice', hfind, -, -, hreceived, hconfirmed⟩, hrest⟩ := haccept.find?
    by_cases hid : i.id = invoice.id
    · rw [← hid, Table.find?_of_mem hi] at hfind
      cases hfind
      rw [hid, htotal]
      exact ⟨hreceived, hconfirmed⟩
    · have hold := hrest i.id hid
      rw [Table.find?_of_mem hi] at hold
      rw [hothers i.id hid]
      exact ha i (Table.mem_of_find? hold.symm) hpaid

/-! ## The invariant of automatic runs -/

/-- What holds between any two transactions of an automatic run. -/
structure Consistent (db : Db) : Prop where
  agree : CreditsAgree db
  linked : Linked db
  within : Within creditedStatuses db
  paid : PaidAgree db

theorem consistent_empty : Consistent Db.empty :=
  ⟨creditsAgree_empty, linked_empty, fun p hp => absurd hp (Table.not_mem_empty p),
    fun i hi => absurd hi (Table.not_mem_empty i)⟩

theorem Effect.consistent (h : Effect may db db') (hcancel : ¬ may .cancel)
    (hedge : ¬ may .takeEdge) (hs : Consistent db) : Consistent db' where
  agree := h.creditsAgree hs.agree
  linked := h.linked hs.agree hs.linked
  within := h.within (closedUnder_automatic hcancel hedge) hs.agree hs.linked hs.within
  paid := h.paidAgree hedge hs.agree hs.within hs.paid

theorem Transaction.consistent {t : Transaction} (ht : t.Automatic) (hs : Consistent db)
    (h : t.apply db = .ok db') : Consistent db' := by
  refine (Transaction.effects h).invariant Consistent hs ?_
  intro a b ha hab
  exact hab.consistent ht.rights.1 ht.rights.2 ha

/-! ## What was read at settlement -/

/-- A total in the tolerance band of the invoice, or on a side the merchant accepts. -/
def Acceptable (invoice : Invoice) (merchant : Merchant) (total : Int) : Prop :=
  (minimumAccepted invoice.cryptoAmount invoice.underpaymentToleranceBps ≤ total ∧
      total ≤ maximumAccepted invoice.cryptoAmount invoice.overpaymentToleranceBps) ∨
    (total < minimumAccepted invoice.cryptoAmount invoice.underpaymentToleranceBps ∧
      merchant.underpaymentPolicy = .acceptPartial) ∨
    (maximumAccepted invoice.cryptoAmount invoice.overpaymentToleranceBps < total ∧
      merchant.overpaymentPolicy = .acceptFull)

theorem Acceptable.congr {invoice invoice' : Invoice} {merchant : Merchant} {total : Int}
    (hterms : invoice'.terms = invoice.terms) (h : Acceptable invoice merchant total) :
    Acceptable invoice' merchant total := by
  have hcrypto : invoice'.cryptoAmount = invoice.cryptoAmount :=
    congrArg Invoice.Terms.cryptoAmount hterms
  have hunder : invoice'.underpaymentToleranceBps = invoice.underpaymentToleranceBps :=
    congrArg Invoice.Terms.underpaymentToleranceBps hterms
  have hover : invoice'.overpaymentToleranceBps = invoice.overpaymentToleranceBps :=
    congrArg Invoice.Terms.overpaymentToleranceBps hterms
  unfold Acceptable
  rw [hcrypto, hunder, hover]
  exact h

/-- What the settlement accepts is acceptable. -/
theorem Accepted.acceptable {invoice : Invoice} {merchant : Merchant} {target : InvoiceStatus}
    (h : Accepted db db' invoice merchant target) :
    Acceptable invoice merchant (totalAmount (countedTransfers db invoice)) := by
  have htarget := h.settleable.target_of
  have hauto := h.auto
  unfold outcomeFor outcomeOf at htarget
  rw [if_neg h.settleable.total_ne] at htarget
  split_ifs at htarget with hlow hhigh
  · cases htarget
    exact .inr (.inl ⟨hlow, by simpa [autoAccept] using hauto⟩)
  · cases htarget
    exact .inr (.inr ⟨hhigh, by simpa [autoAccept] using hauto⟩)
  · exact .inl ⟨by omega, by omega⟩

def PaidIn (db : Db) (id : String) : Prop :=
  ∃ i, db.invoices.find? id = some i ∧ i.status = .paid

/-- Up to the settlement, confirming a transfer writes its count and may move its invoice to
CONFIRMING. It touches neither merchants nor ledger, and pays nothing. -/
theorem confirmTransfer_split (hmay : may .settle) {transfer : TokenTransfer}
    {info : ConfirmationInfo} {now : Int} (h : confirmTransfer transfer info now db = .ok db') :
    ∃ db2, Effects may db db2 ∧ db2.transfers = db.transfers.modify transfer.key
        (Db.withConfirmations info.confirmations) (Db.withConfirmations_key _) ∧
      db2.merchants = db.merchants ∧ db2.ledgerTransactions = db.ledgerTransactions ∧
      (∀ id, InvoiceStep (fun _ => False) db (db.invoices.find? id) (db2.invoices.find? id)) ∧
      (db' = db2 ∨ ∃ invoice merchant target, Settleable db2 invoice merchant target ∧
        settleInvoice db2 invoice merchant target now = .ok db') := by
  obtain ⟨db1, hset, ⟨-, rfl⟩ | ⟨invoice, db2, -, hfind, hadvance, hrest⟩⟩ :=
    confirmTransfer_eq_ok h
  · obtain ⟨⟨t, ht⟩, rfl⟩ := Db.setConfirmations_eq_ok.1 hset
    refine ⟨_, .single (.confirmations hmay info.confirmations ht), ?_, ?_, ?_, fun id => ?_,
      .inl rfl⟩
    · rfl
    · rfl
    · rfl
    · exact .same _
  · have heffects : Effects may db db2 := confirmPrefix_effects hmay hset hfind hadvance
    obtain ⟨-, rfl⟩ := Db.setConfirmations_eq_ok.1 hset
    have hfind' : db.invoices.find? invoice.id = some invoice := hfind
    have hprefix : db2.transfers = db.transfers.modify transfer.key
          (Db.withConfirmations info.confirmations) (Db.withConfirmations_key _) ∧
        db2.merchants = db.merchants ∧ db2.ledgerTransactions = db.ledgerTransactions ∧
        ∀ id, InvoiceStep (fun _ => False) db (db.invoices.find? id) (db2.invoices.find? id) := by
      rcases advanceConfirming_eq_ok hfind hadvance with
        ⟨rfl, -⟩ | ⟨-, hallowed, events, webhooks, -, rfl⟩
      · exact ⟨rfl, rfl, rfl, fun id => .same _⟩
      · refine ⟨rfl, rfl, rfl, fun id => ?_⟩
        show InvoiceStep _ db _ ((db.withStatus invoice .confirming .monitor _ events
          webhooks).invoices.find? id)
        exact invoiceStep_withStatus hfind' (.moved hallowed (by decide)) id
    refine ⟨db2, heffects, hprefix.1, hprefix.2.1, hprefix.2.2.1, hprefix.2.2.2, ?_⟩
    rcases hrest with ⟨-, rfl⟩ | ⟨-, hfinal⟩
    · exact .inl rfl
    · rcases finalizeInvoice_eq_ok hfinal with rfl | ⟨i, merchant, target, -, hsettle, hwrite⟩
      · exact .inl rfl
      · exact .inr ⟨i, merchant, target, hsettle, hwrite⟩

/-- Without settlements and edges taken by hand, nothing is posted and nothing paid. -/
theorem Effects.quiet (h : Effects may db db') (haccept : ¬ may .accept)
    (hedge : ¬ may .takeEdge) : db'.ledgerTransactions = db.ledgerTransactions ∧
      ∀ i ∈ db'.invoices, i.status = .paid → db.invoices.find? i.id = some i := by
  refine h.invariant (fun x => x.ledgerTransactions = db.ledgerTransactions ∧
    ∀ i ∈ x.invoices, i.status = .paid → db.invoices.find? i.id = some i)
    ⟨rfl, fun i hi _ => Table.find?_of_mem hi⟩ ?_
  rintro a b ⟨hledger, hpaid⟩ hab
  rcases hab.quiet_or_accepted with ⟨hsame, hsteps⟩ | ⟨_, _, _, hmay, -⟩
  · refine ⟨hsame.trans hledger, fun i hi hstatus => ?_⟩
    have hstep := hsteps i.id
    rw [Table.find?_of_mem hi] at hstep
    have hold := hstep.paid_same quiet_accept (fun hmay => hedge hmay.1) hstatus
    exact hpaid i (Table.mem_of_find? hold) hstatus
  · exact absurd hmay haccept

/-- The source of an accepted payment was not paid before the transfer was confirmed. -/
theorem not_paidIn_of_step {id : String} {invoice : Invoice} {target : InvoiceStatus}
    (hstep : InvoiceStep (fun _ => False) db (db.invoices.find? id) (some invoice))
    (htarget : target = .paid ∨ target = .underpaid ∨ target = .overpaid)
    (hallowed : isActorAllowed invoice.status target .monitor = true) : ¬ PaidIn db id := by
  rintro ⟨i, hfind, hpaid⟩
  have hS : ClosedUnder (fun _ => False) creditedStatuses :=
    closedUnder_automatic not_false not_false
  rw [hfind] at hstep
  have hin : invoice.status ∈ creditedStatuses :=
    hstep.within hS (by rw [hpaid]; decide)
  rcases settle_source htarget hallowed with hs | hs | hs <;>
    exact absurd hin (by rw [hs]; decide)

/-- What a transaction paid: an invoice that was not paid before, from the merchant it found, and
nothing was posted for any other. -/
theorem Transaction.settlement {t : Transaction} (ht : t.Automatic) (hs : Consistent db)
    (h : t.apply db = .ok db') :
    (∀ i ∈ db'.invoices, i.status = .paid → db.invoices.find? i.id = some i ∨
      (¬ PaidIn db i.id ∧ ∃ merchant, db.merchants.find? i.merchantId = some merchant ∧
        Acceptable i merchant i.receivedAmount)) ∧
    ∀ p ∈ db'.ledgerTransactions, p ∈ db.ledgerTransactions ∨
      ∃ id, p.invoiceId = some id ∧ PaidIn db' id := by
  by_cases haccepts : t.rights .accept
  · cases t with
    | confirmTransfer transfer info now =>
      have hmay : Transaction.rights (.confirmTransfer transfer info now) .settle := .inl rfl
      obtain ⟨db2, heffects, -, hmerchants, hledger, hsteps, rfl | ⟨_, _, _, hfound, hwrite⟩⟩ :=
        confirmTransfer_split hmay h
      · refine ⟨fun i hi hpaid => .inl ?_, fun p hp => .inl (hledger ▸ hp)⟩
        have hstep := hsteps i.id
        rw [Table.find?_of_mem hi] at hstep
        exact hstep.paid_same id id hpaid
      · -- The settlement starts in `db2`, which has the merchants and the postings of `db`.
        have hbefore : ∀ i ∈ db2.invoices, i.status = .paid → db.invoices.find? i.id = some i := by
          intro i hi hpaid
          have hstep := hsteps i.id
          rw [Table.find?_of_mem hi] at hstep
          exact hstep.paid_same id id hpaid
        have hs2 : Consistent db2 := by
          refine heffects.invariant Consistent hs fun a b ha hab => ?_
          exact hab.consistent ht.rights.1 ht.rights.2 ha
        have heffect := settleInvoice_effect ⟨hmay, haccepts⟩ hfound hwrite
        rcases heffect.quiet_or_accepted with
          ⟨hsame, hquiet⟩ | ⟨invoice, merchant, target, -, haccept⟩
        · refine ⟨fun i hi hpaid => .inl ?_, fun p hp => .inl ?_⟩
          · have hstep := hquiet i.id
            rw [Table.find?_of_mem hi] at hstep
            have hold := hstep.paid_same quiet_accept (fun hmay => ht.rights.2 hmay.1) hpaid
            exact hbefore i (Table.mem_of_find? hold) hpaid
          · rw [← hledger, ← hsame]
            exact hp
        · obtain ⟨⟨invoice', hfind, hterms, hstatus, hreceived, -⟩, hothers⟩ := haccept.find?
          refine ⟨fun i hi hpaid => ?_, fun p hp => ?_⟩
          · by_cases hid : i.id = invoice.id
            · rw [← hid, Table.find?_of_mem hi] at hfind
              have hsame : i = invoice' := Option.some.inj hfind
              subst hsame
              have hsettleable := haccept.settleable
              have hstep := hsteps invoice.id
              rw [hsettleable.invoice_found] at hstep
              refine .inr ⟨?_, merchant, ?_, ?_⟩
              · rw [hid]
                exact not_paidIn_of_step hstep
                  (statusForOutcome_settled hsettleable.target_of) haccept.allowed
              · have hmid : i.merchantId = invoice.merchantId :=
                  congrArg Invoice.Terms.merchantId hterms
                rw [hmid, ← hmerchants]
                exact hsettleable.merchant_found
              · rw [hreceived]
                exact haccept.acceptable.congr hterms
            · have hold := hothers i.id hid
              rw [Table.find?_of_mem hi] at hold
              exact .inl (hbefore i (Table.mem_of_find? hold.symm) hpaid)
          · obtain ⟨db1, -, hsame, hloop⟩ := haccept.creditLoop hs2.agree
            rcases hloop.fresh p hp with hold | ⟨x, hx, -, horigin⟩
            · rw [hsame, hledger] at hold
              exact .inl hold
            · have hid := ((countedTransfers_spec db2 invoice).1 x hx).2.1
              exact .inr ⟨invoice.id, horigin.invoice.trans hid, invoice', hfind, hstatus⟩
    | _ => cases haccepts
  · obtain ⟨hledger, hpaid⟩ := (Transaction.effects h).quiet haccepts ht.rights.2
    exact ⟨fun i hi hstatus => .inl (hpaid i hi hstatus), fun p hp => .inl (hledger ▸ hp)⟩

/-! ## Runs -/

/-- `merchant` is the merchant as it was in the state from which the invoice became paid; the row
of the invoice has not changed since. States are listed newest first. -/
def SettledAt (states : List Db) (invoice : Invoice) (merchant : Merchant) : Prop :=
  ∃ later after before earlier, states = later ++ after :: before :: earlier ∧
    (∀ x ∈ later ++ [after], x.invoices.find? invoice.id = some invoice) ∧
    ¬ PaidIn before invoice.id ∧ before.merchants.find? invoice.merchantId = some merchant

theorem SettledAt.cons {states : List Db} {s : Db} {invoice : Invoice} {merchant : Merchant}
    (h : SettledAt states invoice merchant) (hs : s.invoices.find? invoice.id = some invoice) :
    SettledAt (s :: states) invoice merchant := by
  obtain ⟨later, after, before, earlier, rfl, hsame, hbefore⟩ := h
  refine ⟨s :: later, after, before, earlier, rfl, ?_, hbefore⟩
  intro x hx
  rcases List.mem_cons.1 hx with rfl | hx
  · exact hs
  · exact hsame x hx

/-- What is known of a run about its last state. -/
structure SettledRun (s : Db) (past : List Db) : Prop where
  consistent : Consistent s
  settled : ∀ i ∈ s.invoices, i.status = .paid →
    ∃ merchant, SettledAt (s :: past) i merchant ∧ Acceptable i merchant i.receivedAmount
  credited : ∀ p ∈ s.ledgerTransactions, ∃ id, p.invoiceId = some id ∧
    ∃ x ∈ s :: past, PaidIn x id

theorem SettledRun.commit {s s' : Db} {past : List Db} {t : Transaction}
    (h : SettledRun s past) (ht : t.Automatic) (hok : t.apply s = .ok s') :
    SettledRun s' (s :: past) := by
  obtain ⟨hpaid, hposted⟩ := Transaction.settlement ht h.consistent hok
  refine ⟨Transaction.consistent ht h.consistent hok, fun i hi hstatus => ?_, fun p hp => ?_⟩
  · have hnow : s'.invoices.find? i.id = some i := Table.find?_of_mem hi
    rcases hpaid i hi hstatus with hold | ⟨hbefore, merchant, hmerchant, haccept⟩
    · obtain ⟨merchant, hsettled, haccept⟩ := h.settled i (Table.mem_of_find? hold) hstatus
      exact ⟨merchant, hsettled.cons hnow, haccept⟩
    · refine ⟨merchant, ⟨[], s', s, past, rfl, ?_, hbefore, hmerchant⟩, haccept⟩
      intro x hx
      rw [List.mem_singleton.1 hx]
      exact hnow
  · rcases hposted p hp with hold | ⟨id, hid, hpaidNow⟩
    · obtain ⟨id, hid, x, hx, hpaidThen⟩ := h.credited p hold
      exact ⟨id, hid, x, List.mem_cons_of_mem _ hx, hpaidThen⟩
    · exact ⟨id, hid, s', List.mem_cons_self, hpaidNow⟩

/-- **Settlement is sound**: see the head of this module. -/
theorem settlement_sound {states : List Db} {rest : List (Except Error Transaction)}
    (h : gateway.History Operation.Automatic (fun _ _ => True) Db.empty states rest)
    {later earlier : List Db} {s : Db} (hs : states = later ++ s :: earlier) :
    (∀ i ∈ s.invoices, i.status = .paid →
      i.receivedAmount = creditsTotal s i.id ∧ i.confirmedAmount = creditsTotal s i.id ∧
      ∃ merchant, SettledAt (s :: earlier) i merchant ∧
        Acceptable i merchant (creditsTotal s i.id)) ∧
    ∀ id, (∀ x ∈ s :: earlier, ¬ PaidIn x id) → creditsOf s id = [] := by
  obtain ⟨rest', hist⟩ := h.earlier hs
  have hrun : SettledRun s earlier := by
    refine Machine.History.induction
      (fun l => ∀ a past, l = a :: past → SettledRun a past) hist
      (fun op a hop t ht => automatic_script a hop t ht) ?_ ?_ s earlier rfl
    · rintro a past heq
      cases heq
      exact ⟨consistent_empty, fun i hi => absurd hi (Table.not_mem_empty i),
        fun p hp => absurd hp (Table.not_mem_empty p)⟩
    · rintro t a b past ht ih - hok c past' heq
      cases heq
      exact (ih a past rfl).commit ht hok
  refine ⟨fun i hi hpaid => ?_, fun id hnever => ?_⟩
  · obtain ⟨hreceived, hconfirmed⟩ := hrun.consistent.paid i hi hpaid
    obtain ⟨merchant, hsettled, haccept⟩ := hrun.settled i hi hpaid
    exact ⟨hreceived, hconfirmed, merchant, hsettled, hreceived ▸ haccept⟩
  · refine List.filter_eq_nil_iff.2 fun p hp => ?_
    obtain ⟨id', hid', x, hx, hpaid⟩ := hrun.credited p hp
    have hne : p.invoiceId ≠ some id := by
      intro hid
      have hsame : id' = id := Option.some.inj (hid'.symm.trans hid)
      exact hnever x hx (hsame ▸ hpaid)
    simp [hne]

/-- The operations of a shop whose invoice is paid in full. -/
def Shop.payment : List Operation :=
  let known := [(mined "a" 100 1, [usdtTransfer 5 100000000])]
  [observe 100 known "a", confirm 111 known]

/-- The shop's invoice ends paid, with one credit over what it asked for. -/
theorem settlement_sound_shop :
    Shop.status (Shop.after Shop.payment) = some .paid ∧
    creditsTotal (Shop.after Shop.payment) "i" = 100000000 ∧
    ∀ i ∈ (Shop.after Shop.payment).invoices, i.status = .paid →
      i.receivedAmount = creditsTotal (Shop.after Shop.payment) i.id := by
  have hops : ∀ op ∈ Shop.opening ++ Shop.payment, op.Automatic := by decide
  obtain ⟨past, rest, hist⟩ := Shop.after_reachable Shop.payment hops (Machine.allMeet_true _ _)
  refine ⟨by decide +kernel, by decide +kernel, fun i hi hpaid => ?_⟩
  have hlast : Shop.after Shop.payment :: past = [] ++ Shop.after Shop.payment :: past := rfl
  exact ((settlement_sound hist hlast).1 i hi hpaid).1

end PaymentGateway
