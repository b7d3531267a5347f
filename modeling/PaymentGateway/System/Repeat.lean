import PaymentGateway.Monitor.Clock
import PaymentGateway.System.Courses
import PaymentGateway.System.Crediting
import PaymentGateway.System.Rejections

/-!
# Confirming twice

`updateConfirmations` run again, on the same chain, over the state its first run left.

**Theorem (`confirmed_once_iff`).** In every state of every run, and on every chain that gives each
transaction a fixed count, the second run commits no other state than the one the first run left
exactly if the reports of the first run are `Resting`: in their order, up to one that is `Stopped`
when it is made again, none is `Moving`.

Whether a report moves its invoice when it is made again is known from the first run's reports
about that invoice, by the last of them of a kind.

* If the last that counts leaves it short (`Report.Short`), the invoice is UNDERPAID, and there is
  an edge back to CONFIRMING: every report that counts moves it.
* If the last at the threshold leaves it short, a report at the threshold settles it again.
* If the last of all lowers what an OVERPAID invoice counts to the exact amount, a report at the
  threshold pays it, or fails where the merchant cannot be credited. A LATE_PAYMENT_REVIEW invoice
  has this edge too, but it is not the monitor's.

The invariant of the first run (`Underway`) says how far the course of each invoice has come, and
follows the rows of the transfers, so that the second run is known to read the transfers of the
first in the same order, without those that have been credited.
-/

namespace PaymentGateway

open Keyed Fallible Transactional MonitorService Report

variable {db db' : Db}

/-- A transfer that waits for confirmations. -/
def TokenTransfer.Awaiting (t : TokenTransfer) : Prop :=
  t.matchStatus = .pendingConfirmation ∧ t.creditedAt = none

instance (t : TokenTransfer) : Decidable t.Awaiting := by
  unfold TokenTransfer.Awaiting
  infer_instance

/-! ## The condition -/

/-- The merchant of the report's invoice can be credited. -/
def Report.MayCredit (r : Report) : Prop :=
  ∃ invoice ∈ r.invoice, ∃ merchant ∈ r.before.merchants.find? invoice.merchantId,
    Creditable invoice merchant

instance : DecidablePred Report.MayCredit := fun r => by
  unfold Report.MayCredit
  infer_instance

/-- Made again after all the reports about its invoice, a report moves the invoice. -/
def Moving (own : List Report) (r : Report) : Prop :=
  (r.Counts ∧ LastIs Counts Short own) ∨
  (r.Reaches ∧ LastIs Reaches Short own) ∨
  (r.Reaches ∧ LastIs (fun _ => True) (Lowers .overpaid) own ∧ r.MayCredit)

/-- Made again after all the reports about its invoice, a report fails. -/
def Stopped (own : List Report) (r : Report) : Prop :=
  r.Reaches ∧ (LastIs (fun _ => True) (Lowers .latePaymentReview) own ∨
    LastIs (fun _ => True) (Lowers .overpaid) own ∧ ¬r.MayCredit)

/-- The reports of a run about the invoice of one of them. -/
def own (reports : List Report) (r : Report) : List Report :=
  reports.filter fun r' => r'.transfer.invoiceId = r.transfer.invoiceId

/-- Made again in their order, after all the reports of a run, reports move no invoice, at least up
to one that fails. -/
def Resting (reports : List Report) : List Report → Prop
  | [] => True
  | r :: rest => Stopped (own reports r) r ∨ (¬Moving (own reports r) r ∧ Resting reports rest)

instance (own : List Report) (r : Report) : Decidable (Moving own r) := by
  unfold Moving
  infer_instance

instance (own : List Report) (r : Report) : Decidable (Stopped own r) := by
  unfold Stopped
  infer_instance

instance Resting.decidable (reports l : List Report) : Decidable (Resting reports l) :=
  match l with
  | [] => isTrue trivial
  | r :: rest =>
    have := Resting.decidable reports rest
    inferInstanceAs (Decidable (Stopped (own reports r) r ∨
      (¬Moving (own reports r) r ∧ Resting reports rest)))

/-! ## A report made again -/

section Edges

variable {s target : InvoiceStatus}

theorem confirming_no_edge (h : s ∉ [.detected, .underpaid, .complianceReviewRequired]) :
    canTransition s .confirming = false := by
  revert h
  cases s <;> decide

/-- Where a report finds no edge to CONFIRMING, the only edges of a settlement lead to PAID. -/
theorem settled_edge (hno : s ∉ [.detected, .underpaid, .complianceReviewRequired])
    (hs : s ≠ .confirming ∧ s ≠ .reconciliationRequired)
    (ht : target = .paid ∨ target = .underpaid ∨ target = .overpaid)
    (hedge : canTransition s target = true) :
    target = .paid ∧ (s = .overpaid ∨ s = .latePaymentReview) := by
  revert hno hs hedge
  rcases ht with rfl | rfl | rfl <;> cases s <;> decide

end Edges

/-- What every state of every run has. -/
structure Ready (db : Db) : Prop where
  numbered : Numbered db
  agree : CreditsAgree db
  linked : Linked db
  denominations : Denominations db

theorem ready {allowed : Operation → Prop} {meets : Transaction → Db → Prop}
    (h : gateway.Reachable allowed meets Db.empty db) : Ready db :=
  ⟨PaymentGateway.numbered h, (agree_linked h).1, (agree_linked h).2, denominated h⟩

section Again

variable {transfer row : TokenTransfer} {info : ConfirmationInfo} {now : Int}
  {invoice : Invoice} {merchant : Merchant} {target : InvoiceStatus} {reports : List Report}
  {r : Report}

theorem setConfirmations_again (hrow : db.transfers.find? transfer.key = some row)
    (hcount : row.confirmations = info.confirmations) :
    db.setConfirmations transfer.key info.confirmations = .ok db := by
  refine Db.setConfirmations_eq_ok.2 ⟨⟨row, hrow⟩, ?_⟩
  rw [Table.modify_eq_self hrow]
  rw [← hcount]
  rfl

/-- Where the count is in the row already, the rest is up to the invoice. -/
theorem confirmTransfer_again (hrow : db.transfers.find? transfer.key = some row)
    (hcount : row.confirmations = info.confirmations) (hid : transfer.invoiceId = some invoice.id)
    (hfind : db.invoices.find? invoice.id = some invoice) :
    confirmTransfer transfer info now db = (do
      let db ← advanceConfirming db invoice info.confirmations
      if invoice.requiredConfirmations ≤ info.confirmations then
        finalizeInvoice db invoice.id now
      else .ok db) := by
  unfold confirmTransfer
  rw [setConfirmations_again hrow hcount, bind_ok, hid]
  dsimp only
  rw [Db.findInvoice_eq_ok.2 hfind, bind_ok, effectiveConfirmations_none]
  simp only [bind_ok, isConfirmed_of_pos invoice.required_confirmations_positive,
    decide_eq_true_eq]

/-- A settlement logs the status it writes. -/
theorem settleInvoice_writes (hs : Settleable db invoice merchant target)
    (h : settleInvoice db invoice merchant target now = .ok db') :
    db.statusWrites.length < db'.statusWrites.length := by
  obtain ⟨hallowed, hwrite⟩ := settleInvoice_eq_ok hs.invoice_found h
  rcases hwrite with ⟨-, events, webhooks, -, rfl⟩ | ⟨-, db3, hpaid, hcredits⟩
  · simp [Db.withStatus]
  · obtain ⟨_, _, writes, _, _, _, _, _, -, ⟨hpath, -⟩, rfl⟩ := accept_frame hpaid hcredits
    cases writes with
    | cons w ws => simp
    | nil =>
      have hsource := settle_source (statusForOutcome_settled hs.target_of) hallowed
      generalize invoice.status = s at hpath hsource
      cases hpath
      simp at hsource

theorem advanceConfirming_writes {n : Nat} (hn : 1 ≤ n)
    (hedge : canTransition invoice.status .confirming = true)
    (hfind : db.invoices.find? invoice.id = some invoice)
    (h : advanceConfirming db invoice n = .ok db') :
    db.statusWrites.length < db'.statusWrites.length := by
  rcases advanceConfirming_eq_ok hfind h with ⟨-, hno | hno⟩ | ⟨-, -, events, webhooks, -, rfl⟩
  · omega
  · rw [hedge] at hno
    cases hno
  · simp [Db.withStatus]

/-- A report that has been made, and is made again after the reports about its invoice. -/
structure Again (db : Db) (reports : List Report) (r : Report) (invoice : Invoice)
    (row : TokenTransfer) : Prop where
  ready : Ready db
  course : Course reports db invoice
  mem : r ∈ reports
  id : r.transfer.invoiceId = some invoice.id
  found : db.invoices.find? invoice.id = some invoice
  stored : db.transfers.find? r.transfer.key = some row
  awaiting : row.Awaiting
  invoiceId : row.invoiceId = some invoice.id
  count : row.confirmations = r.confirmations

namespace Again

theorem reaches_iff (ha : Again db reports r invoice row) :
    r.Reaches ↔ invoice.requiredConfirmations ≤ r.confirmations := by
  obtain ⟨-, i, hi, hterms⟩ := ha.course.terms r ha.mem
  have hrequired : i.requiredConfirmations = invoice.requiredConfirmations :=
    congrArg Invoice.Terms.requiredConfirmations hterms
  rw [Report.reaches_iff hi, hrequired]

theorem mayCredit_iff (ha : Again db reports r invoice row) {merchant : Merchant}
    (hmerchant : db.merchants.find? invoice.merchantId = some merchant) :
    r.MayCredit ↔ Creditable invoice merchant := by
  obtain ⟨hmerchants, i, hi, hterms⟩ := ha.course.terms r ha.mem
  have hmid : i.merchantId = invoice.merchantId := congrArg Invoice.Terms.merchantId hterms
  simp [Report.MayCredit, hi, hmerchants, hmid, hmerchant, Creditable]

theorem listed (ha : Again db reports r invoice row) : invoice.Listed :=
  ha.ready.denominations.owed.listed invoice (Table.mem_of_find? ha.found)

theorem merchant_found (ha : Again db reports r invoice row) :
    ∃ merchant, db.merchants.find? invoice.merchantId = some merchant :=
  Option.isSome_iff_exists.1
    (ha.ready.linked.merchant invoice (Table.mem_of_find? ha.found))

/-- At the threshold the transfer itself counts, and it is not in the ledger. -/
theorem counted (ha : Again db reports r invoice row) (hreaches : r.Reaches) :
    row ∈ countedTransfers db invoice ∧ ¬InLedger db row.key := by
  obtain ⟨hmem, hkey⟩ := Table.find?_eq_some.1 ha.stored
  refine ⟨mem_counted_iff.2 ⟨mem_confirmed_iff.2 ⟨hmem, ha.invoiceId, .inr ha.awaiting.1⟩, ?_⟩, ?_⟩
  · rw [ha.count]
    exact ha.reaches_iff.1 hreaches
  · intro hledger
    have hcredited := ha.ready.agree.credited_of_key (hkey ▸ ha.stored) hledger
    rw [ha.awaiting.2] at hcredited
    cases hcredited

theorem settleable (ha : Again db reports r invoice row) (hreaches : r.Reaches)
    {target : InvoiceStatus} (htarget : statusForOutcome (currentOutcome db invoice) = some target)
    (hedge : canTransition invoice.status target = true) {merchant : Merchant}
    (hmerchant : db.merchants.find? invoice.merchantId = some merchant) :
    Settleable db invoice merchant target :=
  ⟨ha.found, hmerchant, (totalAmount_pos (ha.counted hreaches).1).ne', htarget, hedge⟩

theorem confirmTransfer_eq (ha : Again db reports r invoice row)
    (hcount : info.confirmations = r.confirmations) (now : Int) :
    confirmTransfer r.transfer info now db = (do
      let db ← advanceConfirming db invoice r.confirmations
      if invoice.requiredConfirmations ≤ r.confirmations then
        finalizeInvoice db invoice.id now
      else .ok db) := by
  rw [← hcount]
  exact confirmTransfer_again ha.stored (ha.count.trans hcount.symm) ha.id ha.found

/-- Where there is no edge to CONFIRMING, what a report makes of its invoice is up to the
settlement. -/
theorem confirmTransfer_of_no_edge (ha : Again db reports r invoice row)
    (hcount : info.confirmations = r.confirmations) (now : Int)
    (hno : canTransition invoice.status .confirming = false) :
    confirmTransfer r.transfer info now db =
      if invoice.requiredConfirmations ≤ r.confirmations then finalizeInvoice db invoice.id now
      else .ok db := by
  rw [ha.confirmTransfer_eq hcount, advanceConfirming_idle (.inr hno), bind_ok]

/-- What an invoice that waits for confirmations is found to be short of, it is settled for. -/
theorem settles_short (ha : Again db reports r invoice row) (now : Int) (hreaches : r.Reaches)
    (hlast : LastIs Reaches Short reports) {x : Db} {invoice' : Invoice} (hn : Numbered x)
    (htransfers : x.transfers = db.transfers) (hmerchants : x.merchants = db.merchants)
    (haccounts : x.ledgerAccounts = db.ledgerAccounts)
    (hfind : x.invoices.find? invoice.id = some invoice') (hterms : invoice'.terms = invoice.terms)
    (hstatus : invoice'.status = .confirming) :
    ∃ db', finalizeInvoice x invoice.id now = .ok db' ∧
      x.statusWrites.length < db'.statusWrites.length := by
  obtain ⟨-, houtcome, merchant, hmerchant, hpolicy⟩ := ha.course.reaching hlast
  have hid : invoice'.id = invoice.id := congrArg Invoice.Terms.id hterms
  have hmid : invoice'.merchantId = invoice.merchantId :=
    congrArg Invoice.Terms.merchantId hterms
  have hcounted := countedTransfers_congr htransfers hterms
  rw [← hid] at hfind ⊢
  have hs : Settleable x invoice' merchant .underpaid := by
    refine ⟨hfind, ?_, ?_, ?_, by rw [hstatus]; decide⟩
    · rw [hmerchants, hmid]
      exact hmerchant
    · rw [hcounted]
      exact (totalAmount_pos (ha.counted hreaches).1).ne'
    · rw [hcounted, outcomeFor_congr hterms]
      exact statusForOutcome_eq_underpaid.2 houtcome
  have hlisted : invoice'.Listed := by
    have hnetwork : invoice'.network = invoice.network := congrArg Invoice.Terms.network hterms
    have hasset : invoice'.paymentAsset = invoice.paymentAsset :=
      congrArg Invoice.Terms.paymentAsset hterms
    have hdecimals : invoice'.paymentDecimals = invoice.paymentDecimals :=
      congrArg Invoice.Terms.paymentDecimals hterms
    unfold Invoice.Listed
    rw [hnetwork, hasset, hdecimals]
    exact ha.listed
  have hallowed : isActorAllowed invoice'.status .underpaid .monitor = true := by
    rw [hstatus]
    decide
  have hok : ∃ db', settleInvoice x invoice' merchant .underpaid now = .ok db' := by
    refine (settleInvoice_isOk_iff hn hlisted (haccounts ▸ ha.ready.denominations.accounts) hfind
      (.inr (.inl rfl)) hallowed).2 (.inl ?_)
    simpa [autoAccept] using hpolicy
  obtain ⟨db', hok⟩ := hok
  exact ⟨db', (finalizeInvoice_of_settleable hs now).trans hok, settleInvoice_writes hs hok⟩

/-- A short invoice is taken back to CONFIRMING by a count. -/
theorem advances_short (ha : Again db reports r invoice row) (hcounts : r.Counts)
    (hstatus : invoice.status = .underpaid) :
    ∃ x invoice', advanceConfirming db invoice r.confirmations = .ok x ∧ Numbered x ∧
      x.transfers = db.transfers ∧ x.merchants = db.merchants ∧
      x.ledgerAccounts = db.ledgerAccounts ∧ x.invoices.find? invoice.id = some invoice' ∧
      invoice'.terms = invoice.terms ∧ invoice'.status = .confirming ∧
      db.statusWrites.length < x.statusWrites.length := by
  have hedge : canTransition invoice.status .confirming = true := by
    rw [hstatus]
    decide
  have hmoves : ∃ x, moveInvoice db invoice .confirming {} "confirmation.started" true = .ok x := by
    refine moveInvoice_isOk ha.ready.numbered ha.found (fun _ => ?_) _ _
    rw [hstatus]
    decide
  have hn : ¬r.confirmations < 1 := Nat.not_lt.2 hcounts
  obtain ⟨x, hx⟩ := hmoves
  have hadvance : advanceConfirming db invoice r.confirmations = .ok x := (if_neg hn).trans hx
  have hwrites := advanceConfirming_writes hcounts hedge ha.found hadvance
  rcases advanceConfirming_eq_ok ha.found hadvance with
    ⟨rfl, -⟩ | ⟨-, -, events, webhooks, hsaid, rfl⟩
  · omega
  · exact ⟨_, _, hadvance,
      (ha.ready.numbered.reported ha.found (Announced.reported hsaid)).withStatus, rfl, rfl, rfl,
      Db.find?_withStatus_self ha.found, Invoice.terms_update _ _, rfl, hwrites⟩

/-- Where the last count has left the invoice short, each count moves it. -/
theorem moved_of_counting (ha : Again db reports r invoice row)
    (hcount : info.confirmations = r.confirmations) (now : Int) (hcounts : r.Counts)
    (hlast : LastIs Counts Short reports) :
    ∃ db', confirmTransfer r.transfer info now db = .ok db' ∧ db' ≠ db := by
  obtain ⟨x, invoice', hadvance, hn, htransfers, hmerchants, haccounts, hfind, hterms, hstatus,
    hwrites⟩ := ha.advances_short hcounts (ha.course.counting hlast)
  rw [ha.confirmTransfer_eq hcount, hadvance, bind_ok]
  by_cases hreached : invoice.requiredConfirmations ≤ r.confirmations
  · obtain ⟨db', hok, hmore⟩ := ha.settles_short now (ha.reaches_iff.2 hreached) hlast.reaching hn
      htransfers hmerchants haccounts hfind hterms hstatus
    refine ⟨db', (if_pos hreached).trans hok, ?_⟩
    rintro rfl
    omega
  · refine ⟨x, if_neg hreached, ?_⟩
    rintro rfl
    omega

/-- Where the last report at the threshold has left the invoice short, each of them moves it. -/
theorem moved_of_reaching (ha : Again db reports r invoice row)
    (hcount : info.confirmations = r.confirmations) (now : Int) (hreaches : r.Reaches)
    (hlast : LastIs Reaches Short reports) :
    ∃ db', confirmTransfer r.transfer info now db = .ok db' ∧ db' ≠ db := by
  rcases (ha.course.reaching hlast).1 with hstatus | hstatus
  · refine ha.moved_of_counting hcount now hreaches.counts ?_
    exact (ha.course.underpaid hstatus).resolve_left fun hnone =>
      hnone r ha.mem hreaches.counts
  · obtain ⟨db', hok, hmore⟩ := ha.settles_short now hreaches hlast ha.ready.numbered rfl rfl rfl
      ha.found rfl hstatus
    rw [ha.confirmTransfer_of_no_edge hcount now (by rw [hstatus]; decide),
      if_pos (ha.reaches_iff.1 hreaches)]
    refine ⟨db', hok, ?_⟩
    rintro rfl
    omega

/-- Where the last report has lowered an excess to the exact amount, each at the threshold settles
the invoice as paid. -/
theorem pays (ha : Again db reports r invoice row) (hcount : info.confirmations = r.confirmations)
    (now : Int) (hreaches : r.Reaches)
    (hlast : LastIs (fun _ => True) (Lowers .overpaid) reports) :
    ∃ merchant, Settleable db invoice merchant .paid ∧
      confirmTransfer r.transfer info now db = settleInvoice db invoice merchant .paid now := by
  obtain ⟨hstatus, houtcome⟩ := ha.course.lowered .overpaid (.inl rfl) hlast
  obtain ⟨merchant, hmerchant⟩ := ha.merchant_found
  have hs : Settleable db invoice merchant .paid :=
    ha.settleable hreaches (by rw [houtcome]; rfl) (by rw [hstatus]; decide) hmerchant
  refine ⟨merchant, hs, ?_⟩
  rw [ha.confirmTransfer_of_no_edge hcount now (by rw [hstatus]; decide),
    if_pos (ha.reaches_iff.1 hreaches), finalizeInvoice_of_settleable hs]

/-- That goes through if the merchant can be credited. -/
theorem pays_iff (ha : Again db reports r invoice row)
    (hcount : info.confirmations = r.confirmations) (now : Int) (hreaches : r.Reaches)
    (hlast : LastIs (fun _ => True) (Lowers .overpaid) reports) :
    (∃ db', confirmTransfer r.transfer info now db = .ok db') ↔ r.MayCredit := by
  obtain ⟨merchant, hs, heq⟩ := ha.pays hcount now hreaches hlast
  have hallowed : isActorAllowed invoice.status .paid .monitor = true := by
    rw [(ha.course.lowered .overpaid (.inl rfl) hlast).1]
    decide
  rw [heq, settleInvoice_isOk_iff ha.ready.numbered ha.listed ha.ready.denominations.accounts
    ha.found (.inl rfl) hallowed, ha.mayCredit_iff hs.merchant_found]
  obtain ⟨hcounted, hfree⟩ := ha.counted hreaches
  have hnot : ¬∀ t ∈ countedTransfers db invoice, InLedger db t.key :=
    fun hall => hfree (hall row hcounted)
  simp [autoAccept, hnot]

/-- **A report that moves its invoice.** -/
theorem moved (ha : Again db reports r invoice row) (hcount : info.confirmations = r.confirmations)
    (now : Int) (h : Moving reports r) :
    ∃ db', confirmTransfer r.transfer info now db = .ok db' ∧ db' ≠ db := by
  rcases h with ⟨hcounts, hlast⟩ | ⟨hreaches, hlast⟩ | ⟨hreaches, hlast, hcredit⟩
  · exact ha.moved_of_counting hcount now hcounts hlast
  · exact ha.moved_of_reaching hcount now hreaches hlast
  · obtain ⟨db', hok⟩ := (ha.pays_iff hcount now hreaches hlast).2 hcredit
    obtain ⟨merchant, hs, heq⟩ := ha.pays hcount now hreaches hlast
    have hwrites := settleInvoice_writes hs (heq.symm.trans hok)
    refine ⟨db', hok, ?_⟩
    rintro rfl
    omega

/-- **A report that fails.** -/
theorem stopped (ha : Again db reports r invoice row) (hcount : info.confirmations = r.confirmations)
    (now : Int) (h : Stopped reports r) :
    ∃ e, confirmTransfer r.transfer info now db = .error e := by
  obtain ⟨hreaches, hlast | ⟨hlast, hcredit⟩⟩ := h
  · obtain ⟨hstatus, houtcome⟩ := ha.course.lowered .latePaymentReview (.inr rfl) hlast
    rw [ha.confirmTransfer_of_no_edge hcount now (by rw [hstatus]; decide),
      if_pos (ha.reaches_iff.1 hreaches)]
    have hmerchant := Option.isSome_iff_exists.2 ha.merchant_found
    have hpaid : statusForOutcome (currentOutcome db invoice) = some .paid := by
      rw [houtcome]
      rfl
    have hgated : Gated invoice.status .paid := by
      rw [gated_paid, hstatus]
      decide
    obtain ⟨e, he, -⟩ := (finalizeInvoice_rejected_iff ha.found hmerchant).2 ⟨.paid, hpaid, hgated⟩
    exact ⟨e, he⟩
  · cases hreport : confirmTransfer r.transfer info now db with
    | error e => exact ⟨e, rfl⟩
    | ok db' => exact absurd ((ha.pays_iff hcount now hreaches hlast).1 ⟨db', hreport⟩) hcredit

/-- **Any other** changes nothing. -/
theorem unmoved (ha : Again db reports r invoice row) (hcount : info.confirmations = r.confirmations)
    (now : Int) (hmoved : ¬Moving reports r) (hstopped : ¬Stopped reports r) :
    confirmTransfer r.transfer info now db = .ok db := by
  by_cases hcounts : r.Counts
  · have hno : invoice.status ∉ [.detected, .underpaid, .complianceReviewRequired] := by
      intro hmem
      simp only [List.mem_cons, List.not_mem_nil, or_false] at hmem
      rcases hmem with hs | hs | hs
      · exact ha.course.begun (.inl hs) r ha.mem hcounts
      · rcases ha.course.underpaid hs with hnone | hlast
        · exact hnone r ha.mem hcounts
        · exact hmoved (.inl ⟨hcounts, hlast⟩)
      · exact ha.course.begun (.inr hs) r ha.mem hcounts
    rw [ha.confirmTransfer_of_no_edge hcount now (confirming_no_edge hno)]
    by_cases hreached : invoice.requiredConfirmations ≤ r.confirmations
    · have hreaches := ha.reaches_iff.2 hreached
      have hsettled : invoice.status ≠ .confirming ∧ invoice.status ≠ .reconciliationRequired := by
        refine ⟨fun hs => ?_, fun hs => ha.course.conflict hs r ha.mem hreaches⟩
        rcases ha.course.confirming hs with hnone | hlast
        · exact hnone r ha.mem hreaches
        · exact hmoved (.inr (.inl ⟨hreaches, hlast⟩))
      rw [if_pos hreached]
      refine finalizeInvoice_idle now ha.found (Option.isSome_iff_exists.2 ha.merchant_found) ?_
      intro target htarget
      by_contra hedge
      rw [Bool.not_eq_false] at hedge
      obtain ⟨rfl, hs⟩ := settled_edge hno hsettled (statusForOutcome_settled htarget) hedge
      have hexact : currentOutcome db invoice = .exact := statusForOutcome_eq_paid.1 htarget
      have hlast := ha.course.exact hs hexact ⟨r, ha.mem, hreaches⟩
      rcases hs with hs | hs <;> rw [hs] at hlast
      · by_cases hcredit : r.MayCredit
        · exact hmoved (.inr (.inr ⟨hreaches, hlast, hcredit⟩))
        · exact hstopped ⟨hreaches, .inr ⟨hlast, hcredit⟩⟩
      · exact hstopped ⟨hreaches, .inl hlast⟩
    · exact if_neg hreached
  · have hbelow : ¬r.Reaches := fun hreaches => hcounts hreaches.counts
    rw [ha.confirmTransfer_eq hcount, advanceConfirming_idle (.inl (Nat.lt_of_not_le hcounts)),
      bind_ok, if_neg fun hreached => hbelow (ha.reaches_iff.2 hreached)]

end Again

/-- The invoice of a report that goes through is stored. -/
theorem confirmTransfer_found {id : String} (hid : transfer.invoiceId = some id)
    (h : confirmTransfer transfer info now db = .ok db') :
    ∃ invoice, db.invoices.find? id = some invoice := by
  obtain ⟨db1, hset, hcases⟩ := confirmTransfer_eq_ok h
  obtain ⟨-, rfl⟩ := Db.setConfirmations_eq_ok.1 hset
  rcases hcases with ⟨hnone, -⟩ | ⟨invoice, db2, hid', hfind, -⟩
  · rw [hid] at hnone
    cases hnone
  · obtain rfl : id = invoice.id := Option.some.inj (hid.symm.trans hid')
    exact ⟨invoice, hfind⟩

/-- A report leaves a paid invoice paid. -/
theorem paid_after {id : String} (hfind : db.invoices.find? id = some invoice)
    (hpaid : invoice.status = .paid) (h : confirmTransfer transfer info now db = .ok db') :
    ∃ invoice', db'.invoices.find? id = some invoice' ∧ invoice'.status = .paid := by
  obtain rfl : invoice.id = id := Table.key_of_find? hfind
  by_cases hid : transfer.invoiceId = some invoice.id
  · obtain ⟨invoice', hfind', -, -, hleft⟩ := confirmTransfer_invoice hid hfind h
    have hsame : reportedStatus invoice info.confirmations = .paid := by
      rw [← hpaid]
      refine reportedStatus_of_no_edge (.inr ?_)
      rw [hpaid]
      rfl
    refine ⟨invoice', hfind', ?_⟩
    cases hleft with
    | accepted _ _ _ _ _ hstatus => exact hstatus
    | unsettled hstatus => exact hstatus.trans hsame
    | settled _ _ htarget hallowed =>
      rw [hsame] at hallowed
      rcases settle_source (statusForOutcome_settled htarget) hallowed with hs | hs | hs <;>
        cases hs
  · rw [confirmTransfer_other hid h]
    exact ⟨invoice, hfind, hpaid⟩

/-- A transfer whose row stays as it was, or is credited. -/
theorem awaiting_reported {key : TransferKey} {n : Nat} {t : TokenTransfer} :
    (reportedTransfer key n t).Awaiting ↔ t.Awaiting := by
  unfold reportedTransfer
  split <;> rfl

end Again

/-! ## The first run -/

/-- A run of reports from `start` on a chain with these counts, in its state `db`, with what it has
made of each row. -/
structure Underway (start db : Db) (chain : String → ConfirmationInfo) (reports : List Report)
    (f : TokenTransfer → TokenTransfer) : Prop where
  key : ∀ t, (f t).key = t.key
  transfers : db.transfers = start.transfers.map f key
  invoiceId : ∀ t ∈ start.transfers, (f t).invoiceId = t.invoiceId
  awaiting : ∀ t ∈ start.transfers, (f t).Awaiting → t.Awaiting
  /-- What is no longer pending was credited to an invoice that is paid. -/
  credited : ∀ t ∈ start.transfers, t.Awaiting → (f t).Awaiting ∨
    (f t).matchStatus = .credited ∧ ∃ id, t.invoiceId = some id ∧
      ∃ invoice, db.invoices.find? id = some invoice ∧ invoice.status = .paid
  read : ∀ r ∈ reports, r.transfer ∈ start.transfers ∧
    r.confirmations = (chain r.transfer.key.txHash).confirmations
  count : ∀ r ∈ reports, (f r.transfer).Awaiting →
    (f r.transfer).confirmations = r.confirmations
  course : ∀ id invoice, db.invoices.find? id = some invoice →
    Course (reports.filter (About id)) db invoice

theorem underway_start (start : Db) (chain : String → ConfirmationInfo) :
    Underway start start chain [] id where
  key _ := rfl
  transfers := (Table.map_id _).symm
  invoiceId _ _ := rfl
  awaiting _ _ h := h
  credited _ _ h := .inl h
  read _ hr := absurd hr List.not_mem_nil
  count _ hr := absurd hr List.not_mem_nil
  course _ _ _ := course_nil _ _

section Underway

variable {start : Db} {chain : String → ConfirmationInfo} {reports : List Report}
  {r : Report} {f : TokenTransfer → TokenTransfer} {t u : TokenTransfer} {now : Int}

theorem Underway.find? (hu : Underway start db chain reports f) (ht : t ∈ start.transfers) :
    db.transfers.find? t.key = some (f t) := by
  refine Table.find?_eq_some.2 ⟨?_, hu.key t⟩
  rw [hu.transfers]
  exact List.mem_map_of_mem ht

/-- The rows after a report: a row that is still pending has at most a new count. -/
theorem row_after (hu : Underway start db chain reports f) {info : ConfirmationInfo}
    {g : TokenTransfer → TokenTransfer} (ht : t ∈ start.transfers)
    (hrows : ∀ t ∈ db.transfers, g t = reportedTransfer u.key info.confirmations t ∨
      (g t = Db.credit now (reportedTransfer u.key info.confirmations t) ∧
        ∃ id, t.invoiceId = some id ∧ u.invoiceId = some id ∧
          ∃ invoice, db'.invoices.find? id = some invoice ∧ invoice.status = .paid)) :
    (g (f t)).invoiceId = t.invoiceId ∧
    ((g (f t)).Awaiting → (f t).Awaiting ∧
      g (f t) = reportedTransfer u.key info.confirmations (f t)) ∧
    ((f t).Awaiting → (g (f t)).Awaiting ∨ (g (f t)).matchStatus = .credited ∧
      ∃ id, t.invoiceId = some id ∧ ∃ invoice, db'.invoices.find? id = some invoice ∧
        invoice.status = .paid) ∧
    ((f t).matchStatus = .credited → (g (f t)).matchStatus = .credited) := by
  have hid := hu.invoiceId t ht
  have hreported : (reportedTransfer u.key info.confirmations (f t)).invoiceId = t.invoiceId :=
    (reportedTransfer_invoiceId ..).trans hid
  rcases hrows (f t) (Table.mem_of_find? (hu.find? ht)) with hsame | ⟨hcredit, id, hfid, -, hpaid⟩
  · rw [hsame, awaiting_reported]
    refine ⟨hreported, fun h => ⟨h, rfl⟩, .inl, fun h => ?_⟩
    unfold reportedTransfer
    split <;> exact h
  · rw [hcredit]
    refine ⟨hreported, fun h => ?_, fun _ => .inr ⟨rfl, id, hid ▸ hfid, hpaid⟩, fun _ => rfl⟩
    cases h.1

/-- **The step lemma.** A report takes the run one transfer further. -/
theorem Underway.step (hu : Underway start db chain reports f) (hstart : u ∈ start.transfers)
    (hawaiting : u.Awaiting) (hfresh : ∀ r ∈ reports, r.transfer.key ≠ u.key)
    (h : confirmTransfer u (chain u.key.txHash) now db = .ok db') :
    ∃ g, Underway start db' chain
      (reports ++ [⟨db, u, (chain u.key.txHash).confirmations⟩]) g := by
  obtain ⟨g, hg, hmap, hrows⟩ := confirmTransfer_transfers h
  have hafter := fun {t} (ht : t ∈ start.transfers) => row_after hu ht hrows
  refine ⟨g ∘ f, fun t => (hg _).trans (hu.key t), ?_, fun t ht => (hafter ht).1,
    fun t ht hpending => hu.awaiting t ht ((hafter ht).2.1 hpending).1, fun t ht hpending => ?_,
    fun r hr => ?_, fun r hr hpending => ?_, fun id invoice' hfind' => ?_⟩
  · rw [hmap, hu.transfers, Table.map_map]
  · rcases hu.credited t ht hpending with hstill | ⟨hcredited, id, hid, invoice, hfind, hpaid⟩
    · exact (hafter ht).2.2.1 hstill
    · exact .inr ⟨(hafter ht).2.2.2 hcredited, id, hid, paid_after hfind hpaid h⟩
  · rcases List.mem_append.1 hr with hr | hr
    · exact hu.read r hr
    · obtain rfl := List.mem_singleton.1 hr
      exact ⟨hstart, rfl⟩
  · rcases List.mem_append.1 hr with hr | hr
    · obtain ⟨hbefore, hrow⟩ := (hafter (hu.read r hr).1).2.1 hpending
      show (g (f r.transfer)).confirmations = r.confirmations
      rw [hrow, reportedTransfer, if_neg (by rw [hu.key]; exact hfresh r hr)]
      exact hu.count r hr hbefore
    · obtain rfl := List.mem_singleton.1 hr
      show (g (f u)).confirmations = _
      rw [((hafter hstart).2.1 hpending).2, reportedTransfer, if_pos (hu.key u)]
      rfl
  · obtain rfl : invoice'.id = id := Table.key_of_find? hfind'
    by_cases habout : u.invoiceId = some invoice'.id
    · obtain ⟨invoice, hfind⟩ := confirmTransfer_found habout h
      have hid : invoice.id = invoice'.id := Table.key_of_find? hfind
      have hmatched : (f u).matchStatus = .credited ∨ (f u).matchStatus = .pendingConfirmation := by
        rcases hu.credited u hstart hawaiting with hstill | ⟨hcredited, -⟩
        · exact .inr hstill.1
        · exact .inl hcredited
      have hrow : IsRow db u invoice (f u) :=
        ⟨hu.find? hstart, by rw [hu.invoiceId u hstart, habout, hid], hmatched⟩
      have hlast : About invoice'.id ⟨db, u, (chain u.key.txHash).confirmations⟩ := habout
      rw [filter_about_append, if_pos hlast]
      rw [← hid] at habout hfind hfind' ⊢
      exact (hu.course _ _ hfind).step habout hfind h hrow
        (fun r hr => hfresh r (List.mem_of_mem_filter hr)) hfind'
    · have hfind : db.invoices.find? invoice'.id = some invoice' := by
        rw [← confirmTransfer_other habout h]
        exact hfind'
      have hrow : ∀ t ∈ db.transfers, t.key = u.key → t.invoiceId = u.invoiceId := by
        intro t ht hkey
        rw [← hu.invoiceId u hstart]
        exact congrArg TokenTransfer.invoiceId
          (Table.eq_of_key_eq ht (Table.mem_of_find? (hu.find? hstart)) (hkey.trans (hu.key u).symm))
      have hlast : ¬About invoice'.id ⟨db, u, (chain u.key.txHash).confirmations⟩ := habout
      rw [filter_about_append, if_neg hlast]
      exact (hu.course _ _ hfind).congr (countedTransfers_other hrow habout h)
        (confirmTransfer_merchants h)

/-! ## The second run -/

/-- A report that moves its invoice or fails has one. -/
theorem about_of_moved (h : Moving (own reports r) r ∨ Stopped (own reports r) r) :
    ∃ id, r.transfer.invoiceId = some id := by
  have hown : ∀ r' ∈ own reports r, (∃ i, i ∈ r'.invoice) → ∃ id, r.transfer.invoiceId = some id := by
    intro r' hr' hinvoice
    obtain ⟨i, hi⟩ := hinvoice
    obtain ⟨id, hid, -⟩ := Option.bind_eq_some_iff.1 hi
    exact ⟨id, (of_decide_eq_true (List.mem_filter.1 hr').2).symm.trans hid⟩
  have hshort : ∀ {p : Report → Prop} [DecidablePred p], LastIs p Short (own reports r) →
      ∃ id, r.transfer.invoiceId = some id := by
    intro p _ hlast
    obtain ⟨r', hr', i, hi, -⟩ := hlast.exists_mem
    exact hown r' hr' ⟨i, hi⟩
  have hlowers : ∀ {status}, LastIs (fun _ => True) (Lowers status) (own reports r) →
      ∃ id, r.transfer.invoiceId = some id := by
    intro status hlast
    obtain ⟨r', hr', i, hi, -⟩ := hlast.exists_mem
    exact hown r' hr' ⟨i, hi⟩
  rcases h with (⟨-, hlast⟩ | ⟨-, hlast⟩ | ⟨-, hlast, -⟩) | ⟨-, hlast | ⟨hlast, -⟩⟩
  · exact hshort hlast
  · exact hshort hlast
  · exact hlowers hlast
  · exact hlowers hlast
  · exact hlowers hlast

theorem own_eq_about {id : String} (hid : r.transfer.invoiceId = some id) :
    own reports r = reports.filter (About id) := by
  unfold own About
  rw [hid]

/-- A report of a paid invoice is not made again, or for nothing. -/
theorem unmoved_of_paid (hu : Underway start db chain reports f) {id : String} {invoice : Invoice}
    (hid : r.transfer.invoiceId = some id) (hfind : db.invoices.find? id = some invoice)
    (hpaid : invoice.status = .paid) : ¬Moving (own reports r) r ∧ ¬Stopped (own reports r) r := by
  have hc := hu.course id invoice hfind
  rw [own_eq_about hid]
  have hlowers : ∀ status, status = .overpaid ∨ status = .latePaymentReview →
      ¬LastIs (fun _ => True) (Lowers status) (reports.filter (About id)) := by
    intro status hkind hlast
    have hs := (hc.lowered status hkind hlast).1
    rw [hpaid] at hs
    rcases hkind with rfl | rfl <;> cases hs
  refine ⟨?_, ?_⟩
  · rintro (⟨-, hlast⟩ | ⟨-, hlast⟩ | ⟨-, hlast, -⟩)
    · have hs := hc.counting hlast
      rw [hpaid] at hs
      cases hs
    · have hs := (hc.reaching hlast).1
      rw [hpaid] at hs
      simp at hs
    · exact hlowers _ (.inl rfl) hlast
  · rintro ⟨-, hlast | ⟨hlast, -⟩⟩
    · exact hlowers _ (.inr rfl) hlast
    · exact hlowers _ (.inl rfl) hlast

/-- What a report of a pending transfer does when it is made again. -/
theorem Underway.again (hu : Underway start db chain reports f) (hready : Ready db)
    (hr : r ∈ reports) (hawaiting : (f r.transfer).Awaiting) (later : Int) :
    (Moving (own reports r) r →
      ∃ db', confirmTransfer r.transfer (chain r.transfer.key.txHash) later db = .ok db' ∧
        db' ≠ db) ∧
    (Stopped (own reports r) r →
      ∃ e, confirmTransfer r.transfer (chain r.transfer.key.txHash) later db = .error e) ∧
    (¬Moving (own reports r) r → ¬Stopped (own reports r) r →
      confirmTransfer r.transfer (chain r.transfer.key.txHash) later db = .ok db) := by
  obtain ⟨hstart, hcount⟩ := hu.read r hr
  have hrow := hu.find? hstart
  have hrowcount := hu.count r hr hawaiting
  cases hid : r.transfer.invoiceId with
  | none =>
    have hnone : ¬(Moving (own reports r) r ∨ Stopped (own reports r) r) := by
      intro h
      obtain ⟨id, hsome⟩ := about_of_moved h
      rw [hid] at hsome
      cases hsome
    rw [not_or] at hnone
    refine ⟨fun h => absurd h hnone.1, fun h => absurd h hnone.2, fun _ _ => ?_⟩
    unfold confirmTransfer
    rw [setConfirmations_again hrow (hrowcount.trans hcount), bind_ok, hid]
  | some id =>
    have hrowid := (hu.invoiceId _ hstart).trans hid
    obtain ⟨invoice, hfind⟩ := Option.isSome_iff_exists.1
      (hready.linked.transfer _ (Table.mem_of_find? hrow) id hrowid)
    obtain rfl : invoice.id = id := Table.key_of_find? hfind
    have ha : Again db (own reports r) r invoice (f r.transfer) := by
      rw [own_eq_about hid]
      exact ⟨hready, hu.course _ _ hfind, List.mem_filter.2 ⟨hr, decide_eq_true hid⟩, hid, hfind,
        hrow, hawaiting, hrowid, hrowcount⟩
    exact ⟨ha.moved hcount.symm later, ha.stopped hcount.symm later, ha.unmoved hcount.symm later⟩

/-- A pending transfer of a paid invoice is reported without failing. -/
theorem confirmTransfer_of_paid {transfer row : TokenTransfer} {info : ConfirmationInfo}
    {now : Int} {id : String} {invoice : Invoice}
    (hrow : db.transfers.find? transfer.key = some row) (hid : transfer.invoiceId = some id)
    (hfind : db.invoices.find? id = some invoice) (hpaid : invoice.status = .paid) :
    ∃ db', confirmTransfer transfer info now db = .ok db' := by
  obtain rfl : invoice.id = id := Table.key_of_find? hfind
  have hset : db.setConfirmations transfer.key info.confirmations =
      .ok (db.reported transfer.key info.confirmations) :=
    Db.setConfirmations_eq_ok.2 ⟨⟨row, hrow⟩, rfl⟩
  have hfound : (db.reported transfer.key info.confirmations).findInvoice invoice.id =
      .ok invoice := Db.findInvoice_eq_ok.2 hfind
  have hadvance : advanceConfirming (db.reported transfer.key info.confirmations) invoice
      info.confirmations = .ok (db.reported transfer.key info.confirmations) := by
    unfold advanceConfirming moveInvoice
    rw [hpaid]
    split <;> rfl
  unfold confirmTransfer
  rw [hset, bind_ok, hid]
  dsimp only
  rw [hfound, bind_ok, hadvance, bind_ok, effectiveConfirmations_none, bind_ok,
    isConfirmed_of_pos invoice.required_confirmations_positive, bind_ok]
  split
  · unfold finalizeInvoice
    rw [hfound, bind_ok, hpaid]
    exact ⟨_, rfl⟩
  · exact ⟨_, rfl⟩

/-- Of the transfer as it was read, its key and its invoice matter. -/
theorem confirmTransfer_congr {t t' : TokenTransfer} (hkey : t'.key = t.key)
    (hid : t'.invoiceId = t.invoiceId) (info : ConfirmationInfo) (now : Int) :
    confirmTransfer t' info now = confirmTransfer t info now := by
  unfold confirmTransfer
  rw [hkey, hid]

/-- A later run reads the same transfers, as they have become and without the credited ones. -/
theorem Underway.pendingTransfers (hu : Underway start db chain reports f) (network : Network) :
    pendingTransfers db network =
      ((MonitorService.pendingTransfers start network).map f).filter fun t =>
        t.key.network = network ∧ t.Awaiting := by
  unfold MonitorService.pendingTransfers
  rw [hu.transfers, Table.rows_map, List.filter_map, List.filter_map, List.filter_filter]
  congr 1
  refine List.filter_congr fun t ht => ?_
  rw [Bool.eq_iff_iff]
  simp only [Function.comp_apply, Bool.and_eq_true, decide_eq_true_eq, hu.key]
  constructor
  · intro h
    exact ⟨h, h.1, hu.awaiting t ht h.2⟩
  · exact And.left

end Underway

section Runs

variable {adapter : BlockchainAdapter} {network : Network} {chain : String → ConfirmationInfo}
  {start : Db} {now : Int}

theorem updateConfirmation_of_chain
    (hchain : ∀ txHash, adapter.getConfirmations txHash = .ok (chain txHash)) (now : Int)
    (t : TokenTransfer) (db : Db) :
    updateConfirmation adapter now t db = confirmTransfer t (chain t.key.txHash) now db := by
  unfold updateConfirmation
  rw [hchain, bind_ok]

/-- The reports of a run on a chain with these counts. -/
def reports (adapter : BlockchainAdapter) (chain : String → ConfirmationInfo) (network : Network)
    (now : Int) (start : Db) : List Report :=
  (turns (updateConfirmation adapter now) (pendingTransfers start network) start).map fun o =>
    ⟨o.1, o.2, (chain o.2.key.txHash).confirmations⟩

/-- Where a first run ends: all its transfers are reported, or the next one fails. -/
theorem first_run (hchain : ∀ txHash, adapter.getConfirmations txHash = .ok (chain txHash))
    (hend : (updateConfirmations adapter network now start).final start = db) :
    (∃ f, Underway start db chain (reports adapter chain network now start) f) ∧
    ((reports adapter chain network now start).map (·.transfer) = pendingTransfers start network ∨
      ∃ u rest e, pendingTransfers start network =
          (reports adapter chain network now start).map (·.transfer) ++ u :: rest ∧
        confirmTransfer u (chain u.key.txHash) now db = .error e) := by
  have hpending : ∀ t ∈ pendingTransfers start network, t ∈ start.transfers ∧ t.Awaiting := by
    intro t ht
    obtain ⟨hmem, hp⟩ := List.mem_filter.1 ht
    exact ⟨hmem, (of_decide_eq_true hp).2⟩
  have hnodup : (pendingTransfers start network).Nodup :=
    (List.Nodup.of_map _ start.transfers.nodup).filter _
  have hstops := turns_stops (f := updateConfirmation adapter now)
    (fun done rest db => pendingTransfers start network = done.map (·.2) ++ rest ∧
      ∃ f, Underway start db chain
        (done.map fun o => ⟨o.1, o.2, (chain o.2.key.txHash).confirmations⟩) f)
    (l := pendingTransfers start network) (s := start) ⟨rfl, id, underway_start start chain⟩ ?_
  · have hrun : (execAll ((pendingTransfers start network).map (updateConfirmation adapter now))
        start).final start = db := hend
    have hread : (reports adapter chain network now start).map (·.transfer) =
        (turns (updateConfirmation adapter now) (pendingTransfers start network) start).map
          (·.2) := by
      unfold reports
      rw [List.map_map]
      rfl
    rw [hrun] at hstops
    rw [hread]
    rcases hstops with ⟨hall, -, f, hu⟩ | ⟨u, rest, e, hl, ⟨-, f, hu⟩, hfail⟩
    · exact ⟨⟨f, hu⟩, .inl hall⟩
    · rw [updateConfirmation_of_chain hchain] at hfail
      exact ⟨⟨f, hu⟩, .inr ⟨u, rest, e, hl, hfail⟩⟩
  · rintro done u rest a b ⟨hl, f, hu⟩ hstep
    rw [updateConfirmation_of_chain hchain] at hstep
    have hu' : u ∈ pendingTransfers start network := by
      rw [hl]
      simp
    refine ⟨by rw [hl]; simp, ?_⟩
    rw [List.map_append, List.map_singleton]
    refine hu.step (hpending u hu').1 (hpending u hu').2 (fun r hr hkey => ?_) hstep
    obtain ⟨o, ho, rfl⟩ := List.mem_map.1 hr
    have hsame : o.2 = u := Table.eq_of_key_eq (hu.read _ hr).1 (hpending u hu').1 hkey
    rw [hl, List.nodup_append] at hnodup
    exact hnodup.2.2 o.2 (List.mem_map_of_mem ho) u List.mem_cons_self hsame

/-- A report that is made again makes a run go on as it is, or stop, unless it moves its invoice. -/
theorem unmoved_iff (hchain : ∀ txHash, adapter.getConfirmations txHash = .ok (chain txHash))
    {R l : List Report} {f : TokenTransfer → TokenTransfer} (hu : Underway start db chain R f)
    (hready : Ready db) (hl : ∀ r ∈ l, r ∈ R ∧ r.transfer ∈ pendingTransfers start network)
    (later : Int) (fs : List (Db → Except Error Db))
    (hrest : ∀ s ∈ (execAll fs db).committed, s = db) :
    (∀ s ∈ (execAll ((((l.map (·.transfer)).map f).filter fun t =>
      decide (t.key.network = network ∧ t.Awaiting)).map (updateConfirmation adapter later) ++ fs)
        db).committed, s = db) ↔ Resting R l := by
  induction l with
  | nil => exact iff_of_true hrest trivial
  | cons r l ih =>
    have ih := ih fun r' hr' => hl r' (List.mem_cons_of_mem _ hr')
    obtain ⟨hr, hpending⟩ := hl r List.mem_cons_self
    obtain ⟨hmem, hp⟩ := List.mem_filter.1 hpending
    obtain ⟨hnetwork, hawaiting⟩ := of_decide_eq_true hp
    show _ ↔ Stopped (own R r) r ∨ (¬Moving (own R r) r ∧ Resting R l)
    rw [List.map_cons, List.map_cons]
    rcases hu.credited r.transfer hmem hawaiting with hstill | ⟨hcredited, id, hid, invoice, hfind,
      hpaid⟩
    · have hkept : decide ((f r.transfer).key.network = network ∧ (f r.transfer).Awaiting) =
          true := by
        rw [hu.key]
        exact decide_eq_true ⟨hnetwork, hstill⟩
      obtain ⟨hmoved, hstopped, hsame⟩ := hu.again hready hr hstill later
      have hreport : updateConfirmation adapter later (f r.transfer) db =
          confirmTransfer r.transfer (chain r.transfer.key.txHash) later db := by
        rw [updateConfirmation_of_chain hchain, hu.key,
          confirmTransfer_congr (hu.key r.transfer) (hu.invoiceId r.transfer hmem)]
      rw [List.filter_cons_of_pos (by simpa using hkept), List.map_cons, List.cons_append,
        fixed_cons_iff, hreport, ih]
      by_cases hm : Moving (own R r) r
      · obtain ⟨db', hok, hne⟩ := hmoved hm
        have hno : ¬Stopped (own R r) r := by
          intro hs
          obtain ⟨e, he⟩ := hstopped hs
          rw [hok] at he
          cases he
        simp [hok, hne, hm, hno]
      · by_cases hs : Stopped (own R r) r
        · obtain ⟨e, he⟩ := hstopped hs
          simp [he, hs]
        · simp [hsame hm hs, hm, hs]
    · obtain ⟨hm, hs⟩ := unmoved_of_paid hu hid hfind hpaid
      have hskipped : ¬((f r.transfer).key.network = network ∧ (f r.transfer).Awaiting) := by
        rintro ⟨-, hstill⟩
        have hwaiting := hstill.1
        rw [hcredited] at hwaiting
        cases hwaiting
      rw [List.filter_cons_of_neg (by simpa using hskipped), ih]
      simp [hm, hs]

/-- **When confirming once is enough.** In every state of every run, on a chain that gives each
transaction a fixed count, and whenever the second run begins. -/
theorem confirmed_once_iff
    (hstart : gateway.Reachable (fun _ => True) (fun _ _ => True) Db.empty start)
    (hchain : ∀ txHash, adapter.getConfirmations txHash = .ok (chain txHash)) (later : Int) :
    (∀ s ∈ (updateConfirmations adapter network later
        ((updateConfirmations adapter network now start).final start)).committed,
      s = (updateConfirmations adapter network now start).final start) ↔
    Resting (reports adapter chain network now start)
      (reports adapter chain network now start) := by
  have hready : Ready ((updateConfirmations adapter network now start).final start) := by
    rw [← run_updateConfirmations]
    exact ready (hstart.run trivial (Machine.meets_true _ _))
  generalize hend : (updateConfirmations adapter network now start).final start = db at hready ⊢
  obtain ⟨⟨f, hu⟩, hcases⟩ := first_run hchain hend
  have hread : ∀ r ∈ reports adapter chain network now start,
      r.transfer ∈ pendingTransfers start network := by
    intro r hr
    have hmem : r.transfer ∈ (reports adapter chain network now start).map (·.transfer) :=
      List.mem_map_of_mem hr
    rcases hcases with hall | ⟨u, rest, e, hl, -⟩
    · rwa [← hall]
    · rw [hl]
      exact List.mem_append_left _ hmem
  have hagain := unmoved_iff hchain hu hready (fun r hr => ⟨hr, hread r hr⟩) later
  unfold updateConfirmations
  rw [hu.pendingTransfers]
  rcases hcases with hall | ⟨u, rest, e, hl, hfail⟩
  · have hnothing : ∀ s ∈ (execAll ([] : List (Db → Except Error Db)) db).committed, s = db :=
      fun s hs => absurd hs List.not_mem_nil
    rw [← hagain [] hnothing, hall, List.append_nil]
  · -- The transfer at which the first run stopped is still pending, and fails again.
    have hpending : u ∈ pendingTransfers start network := by
      rw [hl]
      simp
    obtain ⟨hmem, hp⟩ := List.mem_filter.1 hpending
    obtain ⟨hnetwork, hawaiting⟩ := of_decide_eq_true hp
    have hstill : (f u).Awaiting := by
      rcases hu.credited u hmem hawaiting with hstill | ⟨-, id, hid, invoice, hfind, hpaid⟩
      · exact hstill
      · obtain ⟨db', hok⟩ := confirmTransfer_of_paid (hu.find? hmem) hid hfind hpaid
        rw [hok] at hfail
        cases hfail
    have hstop : updateConfirmation adapter later (f u) db = .error e := by
      rw [updateConfirmation_of_chain hchain, hu.key,
        confirmTransfer_congr (hu.key u) (hu.invoiceId u hmem)]
      have hagree := confirmTransfer_agree u (chain u.key.txHash) now later db
      rw [hfail] at hagree
      exact hagree.error_eq
    have hkept : (f u).key.network = network ∧ (f u).Awaiting := by
      rw [hu.key]
      exact ⟨hnetwork, hstill⟩
    rw [hl, List.map_append, List.filter_append, List.map_append, List.map_cons,
      List.filter_cons_of_pos (by simpa using hkept), List.map_cons]
    refine hagain _ fun s hs => ?_
    rw [execAll_cons_error hstop] at hs
    exact absurd hs List.not_mem_nil

end Runs

/-! ## Confirming twice in a shop -/

namespace Shop

/-- The counts of a chain of which some transactions are known. -/
def counts (chainTip : Nat) (known : List (ChainTransaction × List ParsedTransfer))
    (txHash : String) : ConfirmationInfo :=
  match (known.find? fun p => p.1.hash = txHash).bind (·.1.blockNumber) with
  | none => ⟨0, none, chainTip⟩
  | some block => ⟨if block ≤ chainTip then chainTip - block + 1 else 0, some block, chainTip⟩

theorem getConfirmations_ofTransactions (chainTip : Nat)
    (known : List (ChainTransaction × List ParsedTransfer)) (txHash : String) :
    (BlockchainAdapter.ofTransactions chainTip known).getConfirmations txHash =
      .ok (counts chainTip known txHash) := by
  unfold BlockchainAdapter.ofTransactions counts
  dsimp only
  cases (known.find? fun p => p.1.hash = txHash).bind (·.1.blockNumber) <;> rfl

/-- Two transfers to the invoice, in block 101. -/
def twoTransfers : List (ChainTransaction × List ParsedTransfer) :=
  [(mined "0xa" 101 1, [usdtTransfer 0 40000000]), (mined "0xb" 101 1, [usdtTransfer 0 100000000])]

/-- The excess is left for the merchant to look at. -/
def overpaid : Db := after [.updateMerchant { merchant with overpaymentPolicy := .manualReview },
  observe 101 twoTransfers "0xa", observe 101 twoTransfers "0xb", confirm 112 twoTransfers]

/-- One run at a tip, on this chain. -/
def confirmedAt (tip : Nat) (known : List (ChainTransaction × List ParsedTransfer)) (now : Int)
    (db : Db) : Db := (updateConfirmations (.ofTransactions tip known) .ethereum now db).final db

/-- One block back the first report lowers the 140 USDT to the exact 100, and the second takes these
as well. -/
theorem overpaid_confirmed_once : status overpaid = some .overpaid ∧
    status (confirmedAt 111 twoTransfers 3000 overpaid) = some .overpaid ∧
    ∀ s ∈ (updateConfirmations (.ofTransactions 111 twoTransfers) .ethereum 4000
        (confirmedAt 111 twoTransfers 3000 overpaid)).committed,
      s = confirmedAt 111 twoTransfers 3000 overpaid :=
  ⟨by decide +kernel, by decide +kernel,
    (confirmed_once_iff (after_reachable _ (fun _ _ => trivial) (Machine.allMeet_true _ _))
      (getConfirmations_ofTransactions 111 twoTransfers) 4000).2 (by decide +kernel)⟩

/-- One transfer to the invoice, in block 101. -/
def transferOf (amount : Int) : List (ChainTransaction × List ParsedTransfer) :=
  [(mined "0xa" 101 1, [usdtTransfer 0 amount])]

/-- The state after the transfer was observed. -/
def observed (amount : Int) : Db := after [observe 101 (transferOf amount) "0xa"]

/-- One run over the pending transfers, at the tip 112. -/
def confirmed (amount now : Int) (db : Db) : Db := confirmedAt 112 (transferOf amount) now db

/-- 60 of 100 USDT: the second run takes the invoice back to CONFIRMING and again to UNDERPAID, and
records both moves. -/
theorem paid_short_confirmed_again :
    gateway.Reachable (fun _ => True) (fun _ _ => True) Db.empty (observed 60000000) ∧
    status (confirmed 60000000 2000 (observed 60000000)) = some .underpaid ∧
    (confirmed 60000000 2000 (observed 60000000)).events.rows.length = 5 ∧
    ((confirmed 60000000 3000 (confirmed 60000000 2000 (observed 60000000))).events.rows.drop 5).map
        (fun e => (e.fromStatus, e.toStatus)) =
      [(some .underpaid, .confirming), (some .confirming, .underpaid)] :=
  ⟨after_reachable _ (fun _ _ => trivial) (Machine.allMeet_true _ _), by decide +kernel⟩

end Shop

end PaymentGateway
