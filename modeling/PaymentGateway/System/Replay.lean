import PaymentGateway.System.Settlement

/-!
# Credits survive replays

Three things may be seen twice: a transaction, a confirmation report, and a transfer that has been
credited. Recording a transaction never posts. A report that is replayed right after itself finds
what it left: the confirmations it wrote, the status it wrote, and so the decision it took
(`confirmTransfer_replay`). A report that is replayed later may well post, when more transfers of
its invoice have reached their threshold in between; but it posts first credits only.

**Theorem (`credits_survive`).** In every state of every run, the credited transfers and the
`payment.credit` transactions correspond one to one through the key, amounts included; a credited
transfer stays credited; and replays post as just described.

`replayed_report_posts` is a run in which a report that posted nothing posts two credits when it
is replayed.
-/

namespace PaymentGateway

open Keyed Fallible Transactional MonitorService

variable {db db1 db2 : Db}

/-! ## One report, twice -/

/-- A settlement changes the status of its invoice. -/
theorem settleInvoice_status {invoice : Invoice} {merchant : Merchant} {target : InvoiceStatus}
    {now : Int} (hsettle : Settleable db invoice merchant target)
    (h : settleInvoice db invoice merchant target now = .ok db1) :
    ∃ invoice', db1.invoices.find? invoice.id = some invoice' ∧
      invoice'.terms = invoice.terms ∧
      ((invoice'.status = .paid ∧ autoAccept merchant target = true) ∨
        (autoAccept merchant target = false ∧ invoice'.status = target ∧
          db1.transfers = db.transfers ∧ db1.merchants = db.merchants)) := by
  obtain ⟨hallowed, ⟨hauto, events, webhooks, -, rfl⟩ | ⟨hauto, db3, hpaid, hcredits⟩⟩ :=
    settleInvoice_eq_ok hsettle.invoice_found h
  · exact ⟨_, Db.find?_withStatus_self hsettle.invoice_found, Invoice.terms_update _ _,
      .inr ⟨hauto, rfl, rfl, rfl⟩⟩
  · have haccept : Accepted db db1 invoice merchant target :=
      ⟨hsettle, hallowed, hauto, _, _, hpaid, hcredits⟩
    obtain ⟨⟨invoice', hfind, hterms, hstatus, -⟩, -⟩ := haccept.find?
    exact ⟨invoice', hfind, hterms, .inl ⟨hstatus, hauto⟩⟩

/-- Nothing can be settled from PAID. -/
theorem not_canTransition_paid {target : InvoiceStatus}
    (ht : target = .paid ∨ target = .underpaid ∨ target = .overpaid) :
    canTransition .paid target = false ∧ canTransition .paid .confirming = false := by
  rcases ht with rfl | rfl | rfl <;> decide

/-- Writing a confirmation count twice is writing it once. -/
theorem modify_withConfirmations (transfers : Table TokenTransfer (·.key)) (key : TransferKey)
    (n : Nat) :
    (transfers.modify key (Db.withConfirmations n) (Db.withConfirmations_key n)).modify key
        (Db.withConfirmations n) (Db.withConfirmations_key n) =
      transfers.modify key (Db.withConfirmations n) (Db.withConfirmations_key n) := by
  rw [Table.modify_modify]
  rfl

/-- When `finalizeInvoice` has left the database as it was, there was nothing to settle. -/
theorem not_settleable_of_unchanged {invoice : Invoice} {merchant : Merchant}
    {target : InvoiceStatus} {now : Int} (h : finalizeInvoice db invoice.id now = .ok db) :
    ¬ Settleable db invoice merchant target := by
  intro hsettle
  rw [finalizeInvoice_of_settleable hsettle] at h
  obtain ⟨invoice', hfind, -, hstatus⟩ := settleInvoice_status hsettle h
  rw [hsettle.invoice_found] at hfind
  cases hfind
  have hedge := hsettle.edge
  rcases hstatus with ⟨hpaid, -⟩ | ⟨-, htarget, -⟩
  · rw [hpaid, (not_canTransition_paid (statusForOutcome_settled hsettle.target_of)).1] at hedge
    cases hedge
  · rw [htarget, not_canTransition_self] at hedge
    cases hedge

/-- After a report has been processed, the same report accepts no payment. -/
theorem replay_not_accepted {transfer : TokenTransfer} {info : ConfirmationInfo} {now : Int}
    {invoice invoice' : Invoice} {merchant : Merchant} {target : InvoiceStatus}
    (h : confirmTransfer transfer info now db = .ok db1)
    (hid : transfer.invoiceId = some invoice.id)
    (hfind : db1.invoices.find? invoice.id = some invoice)
    (hreached : invoice.requiredConfirmations ≤ info.confirmations)
    (htransfers : db2.transfers = db1.transfers.modify transfer.key
      (Db.withConfirmations info.confirmations) (Db.withConfirmations_key _))
    (hmerchants : db2.merchants = db1.merchants) (hterms : invoice'.terms = invoice.terms)
    (hmoved : (invoice' = invoice ∧ (info.confirmations < 1 ∨
        canTransition invoice.status .confirming = false)) ∨
      (invoice'.status = .confirming ∧
        isActorAllowed invoice.status .confirming .monitor = true))
    (hsettle : Settleable db2 invoice' merchant target) : autoAccept merchant target = false := by
  obtain ⟨a, hset, ⟨hnone, -⟩ | ⟨i, b, hid', hfind', hadvance, hrest⟩⟩ := confirmTransfer_eq_ok h
  · rw [hnone] at hid
    cases hid
  have hsameId : i.id = invoice.id := Option.some.inj (hid'.symm.trans hid)
  obtain ⟨-, ha⟩ := Db.setConfirmations_eq_ok.1 hset
  obtain ⟨hb, hbm, -, j, hj, hjterms, hjmoved⟩ := advanceConfirming_row hfind' hadvance
  rw [hsameId] at hj
  -- What the first report left is what the second one finds.
  have hrows : b.transfers.modify transfer.key (Db.withConfirmations info.confirmations)
      (Db.withConfirmations_key _) = b.transfers := by
    rw [hb, ha]
    exact modify_withConfirmations _ _ _
  rcases hrest with ⟨hshort, rfl⟩ | ⟨-, hfinal⟩
  · -- The first report was below the threshold, so the second one is.
    have hsame : j = invoice := Option.some.inj (hj.symm.trans hfind)
    have hrequired : invoice.requiredConfirmations = i.requiredConfirmations :=
      congrArg Invoice.Terms.requiredConfirmations (hsame ▸ hjterms)
    omega
  rw [hsameId] at hfinal
  rcases finalizeInvoice_eq_ok hfinal with rfl | ⟨k, merchant1, target1, hkid, hsettle1, hwrite⟩
  · -- The first one settled nothing; the second finds the same invoice on the same status.
    have hsame : j = invoice := Option.some.inj (hj.symm.trans hfind)
    subst hsame
    have hno : canTransition j.status .confirming = false := by
      rcases hjmoved with ⟨rfl, hlt | hno⟩ | ⟨hconfirming, -⟩
      · have hpos := j.required_confirmations_positive
        omega
      · exact hno
      · rw [hconfirming]
        exact not_canTransition_self _
    rcases hmoved with ⟨rfl, -⟩ | ⟨-, hallowed⟩
    · exact absurd (hsettle.congr hfind (by rw [htransfers, hrows]) hmerchants.symm rfl
        hsettle.edge) (not_settleable_of_unchanged hfinal)
    · rw [canTransition_of_isActorAllowed hallowed] at hno
      cases hno
  · have hk : k = j := by
      have hkfind := hsettle1.invoice_found
      rw [hkid, hj] at hkfind
      exact (Option.some.inj hkfind).symm
    subst hk
    obtain ⟨i1, hi1, hterms1, hstatus⟩ := settleInvoice_status hsettle1 hwrite
    rw [hkid, hfind] at hi1
    cases hi1
    have hnot := not_canTransition_paid (statusForOutcome_settled hsettle.target_of)
    rcases hstatus with ⟨hpaid, -⟩ | ⟨hauto, -, htransfers1, hmerchants1⟩
    · -- The first one paid the invoice.
      rcases hmoved with ⟨rfl, -⟩ | ⟨-, hallowed⟩
      · have hedge := hsettle.edge
        rw [hpaid, hnot.1] at hedge
        cases hedge
      · have hedge := canTransition_of_isActorAllowed hallowed
        rw [hpaid, hnot.2] at hedge
        cases hedge
    · -- The first one settled short of PAID; the second comes to the same outcome.
      have hall : invoice'.terms = k.terms := hterms.trans hterms1
      have hcounted : countedTransfers db2 invoice' = countedTransfers b k :=
        countedTransfers_congr (by rw [htransfers, htransfers1, hrows]) hall
      have htarget : target = target1 := by
        have htarget2 := hsettle.target_of
        rw [hcounted, outcomeFor_congr hall] at htarget2
        exact Option.some.inj (htarget2.symm.trans hsettle1.target_of)
      have hmerchant : merchant = merchant1 := by
        have hmid : invoice'.merchantId = k.merchantId :=
          congrArg Invoice.Terms.merchantId hall
        have hfound := hsettle.merchant_found
        rw [hmid, hmerchants, hmerchants1] at hfound
        exact Option.some.inj (hfound.symm.trans hsettle1.merchant_found)
      rw [htarget, hmerchant]
      exact hauto

/-- **A report replayed right after itself posts nothing.** -/
theorem confirmTransfer_replay {transfer : TokenTransfer} {info : ConfirmationInfo}
    {now now' : Int} (h1 : confirmTransfer transfer info now db = .ok db1)
    (h2 : confirmTransfer transfer info now' db1 = .ok db2) :
    db2.ledgerTransactions = db1.ledgerTransactions := by
  obtain ⟨a, hset, ⟨-, rfl⟩ | ⟨i, b, hid, hfind, hadvance, hrest⟩⟩ := confirmTransfer_eq_ok h2
  · obtain ⟨-, rfl⟩ := Db.setConfirmations_eq_ok.1 hset
    rfl
  obtain ⟨-, rfl⟩ := Db.setConfirmations_eq_ok.1 hset
  obtain ⟨hb, hbm, hledger, j, hj, hterms, hmoved⟩ := advanceConfirming_row hfind hadvance
  rcases hrest with ⟨-, rfl⟩ | ⟨hreached, hfinal⟩
  · exact hledger
  rcases finalizeInvoice_eq_ok hfinal with rfl | ⟨k, merchant, target, hkid, hsettle, hwrite⟩
  · exact hledger
  have hk : k = j := by
    have hkfind := hsettle.invoice_found
    rw [hkid, hj] at hkfind
    exact (Option.some.inj hkfind).symm
  subst hk
  obtain ⟨-, ⟨hauto, events, webhooks, -, rfl⟩ | ⟨hauto, -⟩⟩ :=
    settleInvoice_eq_ok hsettle.invoice_found hwrite
  · exact hledger
  · rw [replay_not_accepted h1 hid hfind hreached hb hbm hterms hmoved hsettle] at hauto
    cases hauto

/-! ## First credits -/

/-- What a report posts are first credits. -/
theorem confirmTransfer_posts {transfer : TokenTransfer} {info : ConfirmationInfo} {now : Int}
    (hc : CreditsAgree db) (h : confirmTransfer transfer info now db = .ok db1) :
    ∀ p ∈ db1.ledgerTransactions, p ∈ db.ledgerTransactions ∨
      ∃ t ∈ db.transfers, t.creditedAt = none ∧ CreditOf p t := by
  have hmay : Transaction.rights (.confirmTransfer transfer info now) .settle := .inl rfl
  obtain ⟨db2, heffects, htransfers, -, hledger, -, rfl | ⟨_, _, _, hfound, hwrite⟩⟩ :=
    confirmTransfer_split hmay h
  · exact fun p hp => .inl (hledger ▸ hp)
  · intro p hp
    have heffect := settleInvoice_effect ⟨hmay, .inr rfl⟩ hfound hwrite
    rcases heffect.rowStep_or_accepted with ⟨hsame, -⟩ | ⟨invoice, merchant, target, -, haccept⟩
    · rw [hsame, hledger] at hp
      exact .inl hp
    · obtain ⟨db3, -, hsame, hloop⟩ := haccept.creditLoop (heffects.creditsAgree hc)
      rcases hloop.fresh p hp with hold | ⟨x, hx, hnone, horigin⟩
      · rw [hsame, hledger] at hold
        exact .inl hold
      · -- The counted row is a row of `db` but for its confirmations.
        obtain ⟨hfind, -⟩ := (countedTransfers_spec db2 invoice).1 x hx
        rw [htransfers, Table.find?_modify] at hfind
        obtain ⟨t, ht, hxt⟩ := Option.map_eq_some_iff.1 hfind
        refine .inr ⟨t, Table.mem_of_find? ht, ?_⟩
        split_ifs at hxt <;> subst hxt
        · exact ⟨hnone, horigin.1, horigin.2, horigin.3, horigin.4, horigin.5⟩
        · exact ⟨hnone, horigin⟩

/-- One transfer for one posting, and one posting for one transfer. -/
theorem CreditsAgree.bijection (h : CreditsAgree db) :
    (∀ t ∈ db.transfers, t.creditedAt.isSome = true →
      ∃! p, p ∈ db.ledgerTransactions ∧ CreditOf p t) ∧
    ∀ p ∈ db.ledgerTransactions, ∃! t, t ∈ db.transfers ∧ t.creditedAt.isSome = true ∧
      CreditOf p t := by
  refine ⟨fun t ht hcredited => ?_, fun p hp => ?_⟩
  · obtain ⟨p, hp, horigin⟩ := h.posting ht hcredited
    refine ⟨p, ⟨hp, horigin⟩, ?_⟩
    rintro q ⟨hq, hother⟩
    exact Table.eq_of_key_eq hq hp (hother.key.trans horigin.key.symm)
  · obtain ⟨t, ht, hcredited, -, horigin⟩ := h.origin p hp
    refine ⟨t, ⟨ht, hcredited, horigin⟩, ?_⟩
    rintro t' ⟨ht', -, hother⟩
    exact Table.eq_of_key_eq ht' ht
      (creditKey_injective (hother.key.symm.trans horigin.key))

/-- What was credited stays credited, with all its data but the confirmations. -/
def KeepsCredits (db db' : Db) : Prop :=
  ∀ t ∈ db.transfers, t.creditedAt.isSome = true →
    ∃ n, db'.transfers.find? t.key = some (Db.withConfirmations n t)

theorem KeepsCredits.trans {a b c : Db} (h1 : KeepsCredits a b) (h2 : KeepsCredits b c) :
    KeepsCredits a c := by
  intro t ht hcredited
  obtain ⟨n, hn⟩ := h1 t ht hcredited
  obtain ⟨m, hm⟩ := h2 _ (Table.mem_of_find? hn) hcredited
  exact ⟨m, hm⟩

/-! ## Runs -/

/-- **Credits survive**: see the head of this module. -/
theorem credits_survive {states : List Db} {rest : List (Except Error Transaction)}
    (h : gateway.History (fun _ => True) (fun _ _ => True) Db.empty states rest)
    {later earlier : List Db} {s : Db} (hs : states = later ++ s :: earlier) :
    -- The correspondence.
    (∀ t ∈ s.transfers, t.creditedAt.isSome = true →
      ∃! p, p ∈ s.ledgerTransactions ∧ CreditOf p t) ∧
    (∀ p ∈ s.ledgerTransactions, ∃! t, t ∈ s.transfers ∧ t.creditedAt.isSome = true ∧
      CreditOf p t) ∧
    -- What was credited stays credited.
    (∀ x ∈ later, KeepsCredits s x) ∧
    -- Replays.
    (∀ network chainTx transfers graceSeconds now s',
      recordTransfers network chainTx transfers graceSeconds now s = .ok s' →
      s'.ledgerTransactions = s.ledgerTransactions) ∧
    (∀ transfer info now now' s1 s2, confirmTransfer transfer info now s = .ok s1 →
      confirmTransfer transfer info now' s1 = .ok s2 →
      s2.ledgerTransactions = s1.ledgerTransactions) ∧
    ∀ transfer info now s', confirmTransfer transfer info now s = .ok s' →
      ∀ p ∈ s'.ledgerTransactions, p ∈ s.ledgerTransactions ∨
        ∃ t ∈ s.transfers, t.creditedAt = none ∧ CreditOf p t := by
  have hinv : ∀ t a b, CreditsAgree a → Transaction.apply t a = .ok b → CreditsAgree b :=
    fun t a b ha hok => (Transaction.effects hok).creditsAgree ha
  have hkeeps : ∀ t a b, CreditsAgree a → Transaction.apply t a = .ok b → KeepsCredits a b :=
    fun t a b ha hok x hx hcredited =>
      (Transaction.effects hok).credited_stays ha (Table.find?_of_mem hx) hcredited
  obtain ⟨rest', hist⟩ := h.earlier hs
  have hagree : CreditsAgree s := by
    refine Machine.Reachable.invariant ⟨earlier, rest', hist⟩
      (fun op a _ t ht => (trivial : (fun _ => True) t)) creditsAgree_empty ?_
    exact fun t a b _ ha _ hok => hinv t a b ha hok
  refine ⟨hagree.bijection.1, hagree.bijection.2, ?_, ?_, ?_, ?_⟩
  · have hpair := Machine.History.pairwise CreditsAgree KeepsCredits h
      (fun op a _ t ht => (trivial : (fun _ => True) t)) creditsAgree_empty
      (fun t a b _ ha _ => hinv t a b ha) (fun t a b _ ha _ => hkeeps t a b ha)
      fun a b c => KeepsCredits.trans
    rw [hs] at hpair
    exact fun x hx => (List.pairwise_append.1 hpair).2.2 x hx s List.mem_cons_self
  · intro network chainTx transfers graceSeconds now s' hok
    have heffects : Effects (Transaction.rights
        (.recordTransfers network chainTx transfers graceSeconds now)) s s' :=
      Transaction.effects hok
    exact (heffects.quiet Right.noConfusion Right.noConfusion).1
  · exact fun transfer info now now' s1 s2 h1 h2 => confirmTransfer_replay h1 h2
  · exact fun transfer info now s' hok => confirmTransfer_posts hagree hok

/-- In the shop, the credit of the paid invoice belongs to its one credited transfer. -/
theorem credits_survive_shop :
    (Shop.after Shop.payment).ledgerTransactions.rows.length = 1 ∧
    ∀ p ∈ (Shop.after Shop.payment).ledgerTransactions,
      ∃! t, t ∈ (Shop.after Shop.payment).transfers ∧ t.creditedAt.isSome = true ∧
        CreditOf p t := by
  obtain ⟨past, rest, hist⟩ := Shop.after_reachable Shop.payment
    (fun op _ => (trivial : (fun _ => True) op)) (Machine.allMeet_true _ _)
  have hlast : Shop.after Shop.payment :: past = [] ++ Shop.after Shop.payment :: past := rfl
  exact ⟨by decide +kernel, (credits_survive hist hlast).2.1⟩

/-! ## A replay that posts -/

namespace Shop

/-- Two halves of the payment, each deep enough when it is seen. -/
def half (hash : String) (block : Nat) : ChainTransaction × List ParsedTransfer :=
  (mined hash block 12, [usdtTransfer 5 50000000])

def firstHalf : List Operation := [observe 111 [half "a" 100] "a"]

/-- Report on the first half; record the second; report on the first half again, unchanged. -/
def replay (db : Db) (report : TokenTransfer) : Except Error (Db × Db × Db) := do
  let first ← confirmTransfer report ⟨12, some 100, 111⟩ 2000 db
  let second ← recordTransfers .ethereum (half "b" 101).1 (half "b" 101).2 0 3000 first
  let third ← confirmTransfer report ⟨12, some 100, 111⟩ 2000 second
  return (first, second, third)

end Shop

/-- **A report that posted nothing posts two credits when it is replayed**, because a second
transfer has reached its threshold in between. -/
theorem replayed_report_posts : ∃ s first second third report,
    gateway.Reachable Operation.Automatic (fun _ _ => True) Db.empty s ∧
    report ∈ pendingTransfers s .ethereum ∧
    confirmTransfer report ⟨12, some 100, 111⟩ 2000 s = .ok first ∧
    recordTransfers .ethereum (Shop.half "b" 101).1 (Shop.half "b" 101).2 0 3000 first =
      .ok second ∧
    confirmTransfer report ⟨12, some 100, 111⟩ 2000 second = .ok third ∧
    second.ledgerTransactions.rows.length = 0 ∧ third.ledgerTransactions.rows.length = 2 := by
  have hrun : (((pendingTransfers (Shop.after Shop.firstHalf) .ethereum).head?.bind fun report =>
      (Shop.replay (Shop.after Shop.firstHalf) report).toOption).map fun x =>
        (x.2.1.ledgerTransactions.rows.length, x.2.2.ledgerTransactions.rows.length)) =
      some (0, 2) := by decide +kernel
  obtain ⟨⟨first, second, third⟩, hreplay, hlengths⟩ := Option.map_eq_some_iff.1 hrun
  obtain ⟨report, hreport, hok⟩ := Option.bind_eq_some_iff.1 hreplay
  have hok' : Shop.replay (Shop.after Shop.firstHalf) report = .ok (first, second, third) := by
    cases hr : Shop.replay (Shop.after Shop.firstHalf) report with
    | error e => rw [hr] at hok; cases hok
    | ok x => rw [hr] at hok; cases hok; rfl
  obtain ⟨s1, h1, hrest1⟩ := bind_eq_ok.1 hok'
  obtain ⟨s2, h2, hrest2⟩ := bind_eq_ok.1 hrest1
  obtain ⟨s3, h3, hret⟩ := bind_eq_ok.1 hrest2
  cases hret
  obtain ⟨hnone, htwo⟩ := Prod.mk.inj hlengths
  exact ⟨_, first, second, third, report,
    Shop.after_reachable Shop.firstHalf (by decide) (Machine.allMeet_true _ _),
    List.mem_of_mem_head? hreport, h1, h2, h3, hnone, htwo⟩

end PaymentGateway
