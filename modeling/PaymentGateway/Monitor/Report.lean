import PaymentGateway.Monitor.Inversion

/-!
# Reports of confirmations

The transaction of one pending transfer, as a report of its count. `confirmTransfer_invoice` says
what a report that goes through leaves of the invoice it is about, in terms of the database with
the count written and of the status the invoice has when the settlement begins;
`confirmTransfer_transfers` says what it leaves of the transfers.
-/

namespace PaymentGateway

open Keyed Fallible

/-- The status of an invoice when a report of `n` confirmations comes to its settlement. -/
def reportedStatus (invoice : Invoice) (n : Nat) : InvoiceStatus :=
  if 1 ≤ n ∧ canTransition invoice.status .confirming = true then .confirming else invoice.status

/-- A transfer with a reported count. -/
def reportedTransfer (key : TransferKey) (n : Nat) (t : TokenTransfer) : TokenTransfer :=
  if t.key = key then Db.withConfirmations n t else t

@[simp] theorem reportedTransfer_key (key : TransferKey) (n : Nat) (t : TokenTransfer) :
    (reportedTransfer key n t).key = t.key := by
  unfold reportedTransfer
  split <;> rfl

@[simp] theorem reportedTransfer_invoiceId (key : TransferKey) (n : Nat) (t : TokenTransfer) :
    (reportedTransfer key n t).invoiceId = t.invoiceId := by
  unfold reportedTransfer
  split <;> rfl

@[simp] theorem reportedTransfer_matchStatus (key : TransferKey) (n : Nat) (t : TokenTransfer) :
    (reportedTransfer key n t).matchStatus = t.matchStatus := by
  unfold reportedTransfer
  split <;> rfl

/-- The database with a reported count. -/
def Db.reported (db : Db) (key : TransferKey) (n : Nat) : Db := { db with
  transfers := db.transfers.modify key (Db.withConfirmations n) (Db.withConfirmations_key n) }

namespace MonitorService

variable {db db' : Db}

/-! ## The status before the settlement -/

theorem reportedStatus_of_edge {invoice : Invoice} {n : Nat} (hn : 1 ≤ n)
    (hedge : canTransition invoice.status .confirming = true) :
    reportedStatus invoice n = .confirming := if_pos ⟨hn, hedge⟩

theorem reportedStatus_of_no_edge {invoice : Invoice} {n : Nat}
    (h : n < 1 ∨ canTransition invoice.status .confirming = false) :
    reportedStatus invoice n = invoice.status := by
  refine if_neg ?_
  rintro ⟨hn, hedge⟩
  rcases h with h | h
  · omega
  · rw [h] at hedge
    cases hedge

/-- What a report leaves before the settlement. -/
theorem advanceConfirming_reported {invoice : Invoice} {n : Nat}
    (hfind : db.invoices.find? invoice.id = some invoice)
    (h : advanceConfirming db invoice n = .ok db') :
    db'.transfers = db.transfers ∧ db'.merchants = db.merchants ∧ ∃ invoice',
      db'.invoices.find? invoice.id = some invoice' ∧ invoice'.terms = invoice.terms ∧
      invoice'.status = reportedStatus invoice n ∧
      invoice'.overpaymentPolicy = invoice.overpaymentPolicy ∧
      invoice'.underpaymentPolicy = invoice.underpaymentPolicy := by
  rcases advanceConfirming_eq_ok hfind h with
    ⟨rfl, hno⟩ | ⟨hn, hallowed, events, webhooks, -, rfl⟩
  · exact ⟨rfl, rfl, invoice, hfind, rfl, (reportedStatus_of_no_edge hno).symm, rfl, rfl⟩
  · refine ⟨rfl, rfl, _, Db.find?_withStatus_self hfind, Invoice.terms_update _ _, ?_, rfl, rfl⟩
    rw [reportedStatus_of_edge hn (canTransition_of_isActorAllowed hallowed)]
    rfl

/-! ## The invoice of a report -/

/-- With an edge to the status of its outcome, an invoice is settled. -/
theorem finalizeInvoice_settles {invoice : Invoice} {target : InvoiceStatus} {now : Int}
    (hfind : db.invoices.find? invoice.id = some invoice)
    (htarget : statusForOutcome (outcomeFor invoice (totalAmount (countedTransfers db invoice))) =
      some target)
    (hedge : canTransition invoice.status target = true)
    (h : finalizeInvoice db invoice.id now = .ok db') :
    ∃ merchant, Settleable db invoice merchant target ∧
      settleInvoice db invoice merchant target now = .ok db' := by
  have htotal : totalAmount (countedTransfers db invoice) ≠ 0 := by
    intro hzero
    rw [hzero] at htarget
    cases htarget
  cases hmerchant : db.merchants.find? invoice.merchantId with
  | some merchant =>
    have hs : Settleable db invoice merchant target :=
      ⟨hfind, hmerchant, htotal, htarget, hedge⟩
    exact ⟨merchant, hs, (finalizeInvoice_of_settleable hs now).symm.trans h⟩
  | none =>
    obtain ⟨stored, hstored, hbody⟩ := bind_eq_ok.1 h
    obtain rfl : stored = invoice :=
      Option.some.inj ((Db.findInvoice_eq_ok.1 hstored).symm.trans hfind)
    have hfinal : isFinalizable stored.status = true := by
      unfold isFinalizable
      rcases statusForOutcome_settled htarget with rfl | rfl | rfl <;> simp [hedge]
    rw [hfinal, if_neg (by simp), if_neg htotal] at hbody
    obtain ⟨merchant, hfound, -⟩ := bind_eq_ok.1 hbody
    rw [Db.findMerchant_eq_ok.1 hfound] at hmerchant
    cases hmerchant

/-- What a report of `n` confirmations of the transfer `key` leaves of its invoice. -/
inductive ReportLeft (db db' : Db) (key : TransferKey) (invoice invoice' : Invoice) (n : Nat) :
    Prop
  /-- The count is below the threshold, or the outcome has no status to go to. -/
  | unsettled (hstatus : invoice'.status = reportedStatus invoice n)
      (htransfers : db'.transfers = (db.reported key n).transfers)
      (hno : invoice.requiredConfirmations ≤ n → ∀ target,
        statusForOutcome (outcomeFor invoice
          (totalAmount (countedTransfers (db.reported key n) invoice))) = some target →
        canTransition (reportedStatus invoice n) target = false)
  /-- The invoice takes the status of its outcome, which the merchant does not accept as paid. -/
  | settled {merchant : Merchant} {target : InvoiceStatus}
      (hreached : invoice.requiredConfirmations ≤ n)
      (hmerchant : db.merchants.find? invoice.merchantId = some merchant)
      (htarget : statusForOutcome (outcomeFor invoice
        (totalAmount (countedTransfers (db.reported key n) invoice))) = some target)
      (hallowed : isActorAllowed (reportedStatus invoice n) target .monitor = true)
      (hauto : autoAccept merchant target = false) (hstatus : invoice'.status = target)
      (htransfers : db'.transfers = (db.reported key n).transfers)
  /-- The outcome is PAID, or the merchant accepts it as paid. -/
  | accepted {merchant : Merchant} {target : InvoiceStatus}
      (hreached : invoice.requiredConfirmations ≤ n)
      (hmerchant : db.merchants.find? invoice.merchantId = some merchant)
      (htarget : statusForOutcome (outcomeFor invoice
        (totalAmount (countedTransfers (db.reported key n) invoice))) = some target)
      (hallowed : isActorAllowed (reportedStatus invoice n) target .monitor = true)
      (hauto : autoAccept merchant target = true) (hstatus : invoice'.status = .paid)

theorem confirmTransfer_invoice {transfer : TokenTransfer} {info : ConfirmationInfo} {now : Int}
    {invoice : Invoice} (hid : transfer.invoiceId = some invoice.id)
    (hfind : db.invoices.find? invoice.id = some invoice)
    (h : confirmTransfer transfer info now db = .ok db') :
    ∃ invoice', db'.invoices.find? invoice.id = some invoice' ∧ invoice'.terms = invoice.terms ∧
      (reportedStatus invoice info.confirmations = invoice.status ∨
        isActorAllowed invoice.status .confirming .monitor = true) ∧
      ReportLeft db db' transfer.key invoice invoice' info.confirmations := by
  obtain ⟨db1, hset, hcases⟩ := confirmTransfer_eq_ok h
  obtain rfl : db1 = db.reported transfer.key info.confirmations :=
    (Db.setConfirmations_eq_ok.1 hset).2
  rcases hcases with ⟨hnone, -⟩ | ⟨stored, db2, hid', hstored, hadvance, hfinal⟩
  · rw [hid] at hnone
    cases hnone
  have hsame : stored.id = invoice.id := Option.some.inj (hid'.symm.trans hid)
  rw [hsame] at hstored hfinal
  obtain rfl : stored = invoice := Option.some.inj (hstored.symm.trans hfind)
  obtain ⟨htransfers, hmerchants, invoice2, hfind2, hterms, hstatus, -, -⟩ :=
    advanceConfirming_reported hstored hadvance
  have hadvanced : reportedStatus stored info.confirmations = stored.status ∨
      isActorAllowed stored.status .confirming .monitor = true := by
    rcases advanceConfirming_eq_ok hstored hadvance with ⟨-, hno⟩ | ⟨-, hallowed, -⟩
    · exact .inl (reportedStatus_of_no_edge hno)
    · exact .inr hallowed
  have hcounted := countedTransfers_congr htransfers hterms
  have hid2 : invoice2.id = stored.id := congrArg Invoice.Terms.id hterms
  have hfind2' : db2.invoices.find? invoice2.id = some invoice2 := by rw [hid2, hfind2]
  rcases hfinal with ⟨hbelow, rfl⟩ | ⟨hreached, hfinal⟩
  · exact ⟨invoice2, hfind2, hterms, hadvanced,
      .unsettled hstatus htransfers fun hle => absurd hle (by omega)⟩
  -- At the threshold the settlement decides, by whether the outcome has an edge to go.
  by_cases hedge : ∃ target, statusForOutcome (outcomeFor stored (totalAmount (countedTransfers
      (db.reported transfer.key info.confirmations) stored))) = some target ∧
      canTransition (reportedStatus stored info.confirmations) target = true
  · obtain ⟨target, htarget, hedge⟩ := hedge
    have htarget2 := htarget
    rw [← hcounted, ← outcomeFor_congr hterms] at htarget2
    rw [← hstatus] at hedge
    rw [← hid2] at hfinal
    obtain ⟨merchant, hs, hsettle⟩ := finalizeInvoice_settles hfind2' htarget2 hedge hfinal
    have hmerchant : db.merchants.find? stored.merchantId = some merchant := by
      have hmid : invoice2.merchantId = stored.merchantId :=
        congrArg Invoice.Terms.merchantId hterms
      have hfound := hs.merchant_found
      rwa [hmerchants, hmid] at hfound
    obtain ⟨hallowed, hwrite⟩ := settleInvoice_eq_ok hfind2' hsettle
    rw [hstatus] at hallowed
    rcases hwrite with ⟨hauto, events, webhooks, -, rfl⟩ | ⟨hauto, db3, hpaid, hcredits⟩
    · refine ⟨_, hid2 ▸ Db.find?_withStatus_self hfind2', ?_, hadvanced,
        .settled hreached hmerchant htarget hallowed hauto rfl htransfers⟩
      rw [Invoice.terms_update, hterms]
    · obtain ⟨f, hf, writes, events, webhooks, accounts, ledger, transfers, hrow, -, rfl⟩ :=
        accept_frame hpaid hcredits
      refine ⟨f invoice2, ?_, (hrow invoice2).1.trans hterms, hadvanced,
        .accepted hreached hmerchant htarget hallowed hauto (hrow invoice2).2.1⟩
      show (db2.invoices.modify invoice2.id f hf).find? stored.id = _
      rw [← hid2, Table.find?_modify_self, hfind2', Option.map_some]
  · rcases finalizeInvoice_eq_ok hfinal with rfl | ⟨i, merchant, target, hi, hs, -⟩
    · refine ⟨invoice2, hfind2, hterms, hadvanced, .unsettled hstatus htransfers ?_⟩
      intro _ target htarget
      by_contra hsome
      exact hedge ⟨target, htarget, by simpa using hsome⟩
    · refine absurd ⟨target, ?_, ?_⟩ hedge
      · have hfound := hs.invoice_found
        rw [hi, hfind2] at hfound
        cases hfound
        have htarget := hs.target_of
        rwa [hcounted, outcomeFor_congr hterms] at htarget
      · have hfound := hs.invoice_found
        rw [hi, hfind2] at hfound
        cases hfound
        rw [← hstatus]
        exact hs.edge

/-- A report does not write the merchants. -/
theorem confirmTransfer_merchants {transfer : TokenTransfer} {info : ConfirmationInfo} {now : Int}
    (h : confirmTransfer transfer info now db = .ok db') : db'.merchants = db.merchants := by
  obtain ⟨db1, hset, hcases⟩ := confirmTransfer_eq_ok h
  obtain ⟨-, rfl⟩ := Db.setConfirmations_eq_ok.1 hset
  rcases hcases with ⟨-, rfl⟩ | ⟨invoice, db2, -, hfind, hadvance, hfinal⟩
  · rfl
  obtain ⟨-, hmerchants, -⟩ := advanceConfirming_reported hfind hadvance
  rcases hfinal with ⟨-, rfl⟩ | ⟨-, hfinal⟩
  · exact hmerchants
  rcases finalizeInvoice_eq_ok hfinal with rfl | ⟨i, merchant, target, -, hs, hsettle⟩
  · exact hmerchants
  rcases (settleInvoice_eq_ok hs.invoice_found hsettle).2 with
    ⟨-, events, webhooks, -, rfl⟩ | ⟨-, db3, hpaid, hcredits⟩
  · exact hmerchants
  · obtain ⟨_, _, _, _, _, _, _, _, -, -, rfl⟩ := accept_frame hpaid hcredits
    exact hmerchants

/-- The other invoices stay as they are. -/
theorem confirmTransfer_other {transfer : TokenTransfer} {info : ConfirmationInfo} {now : Int}
    {id : String} (hid : transfer.invoiceId ≠ some id)
    (h : confirmTransfer transfer info now db = .ok db') :
    db'.invoices.find? id = db.invoices.find? id := by
  obtain ⟨db1, hset, hcases⟩ := confirmTransfer_eq_ok h
  obtain ⟨-, rfl⟩ := Db.setConfirmations_eq_ok.1 hset
  rcases hcases with ⟨-, rfl⟩ | ⟨invoice, db2, hid', hfind, hadvance, hfinal⟩
  · rfl
  have hne : id ≠ invoice.id := by
    rintro rfl
    exact hid hid'
  have hfirst : db2.invoices.find? id = db.invoices.find? id := by
    rcases advanceConfirming_eq_ok hfind hadvance with ⟨rfl, -⟩ | ⟨-, -, events, webhooks, -, rfl⟩
    · rfl
    · exact Db.find?_withStatus_ne hne
  rcases hfinal with ⟨-, rfl⟩ | ⟨-, hfinal⟩
  · exact hfirst
  rcases finalizeInvoice_eq_ok hfinal with rfl | ⟨i, merchant, target, hi, hs, hsettle⟩
  · exact hfirst
  rw [← hi] at hne
  rcases (settleInvoice_eq_ok hs.invoice_found hsettle).2 with
    ⟨-, events, webhooks, -, rfl⟩ | ⟨-, db3, hpaid, hcredits⟩
  · exact (Db.find?_withStatus_ne hne).trans hfirst
  · obtain ⟨f, hf, writes, events, webhooks, accounts, ledger, transfers, -, -, rfl⟩ :=
      accept_frame hpaid hcredits
    show (db2.invoices.modify i.id f hf).find? id = _
    rw [Table.find?_modify_ne hne, hfirst]

/-! ## The transfers of a report -/

/-- The credit loop marks transfers of its list. -/
theorem creditTransfers_transfers {invoice : Invoice} {merchant : Merchant} {now : Int}
    {l : List TokenTransfer} (h : creditTransfers invoice merchant now db l = .ok db') :
    ∃ (f : TokenTransfer → TokenTransfer) (hf : ∀ t, (f t).key = t.key),
      db'.transfers = db.transfers.map f hf ∧
      ∀ t, f t = t ∨ (f t = Db.credit now t ∧ ∃ c ∈ l, c.key = t.key) := by
  refine foldlM_invariant (fun x : Db => ∃ (f : TokenTransfer → TokenTransfer)
    (hf : ∀ t, (f t).key = t.key), x.transfers = db.transfers.map f hf ∧
      ∀ t, f t = t ∨ (f t = Db.credit now t ∧ ∃ c ∈ l, c.key = t.key)) ?_ ?_ h
  · exact ⟨id, fun _ => rfl, (Table.map_id _).symm, fun _ => .inl rfl⟩
  · rintro c hc a b ⟨f, hf, htransfers, hmarked⟩ hturn
    rcases creditTransfer_eq_ok hturn with ⟨-, rfl⟩ | ⟨_, _, _, -, -, -, -, -, -, rfl⟩
    · exact ⟨f, hf, htransfers, hmarked⟩
    · refine ⟨(fun t => if t.key = c.key then Db.credit now t else t) ∘ f, ?_, ?_, ?_⟩
      · intro t
        simp only [Function.comp_apply]
        split
        · exact hf t
        · exact hf t
      · show a.transfers.modify c.key (Db.credit now) (Db.credit_key now) = _
        rw [htransfers, Table.modify_eq_map, Table.map_map]
      · intro t
        simp only [Function.comp_apply, hf]
        by_cases hkey : t.key = c.key
        · rw [if_pos hkey]
          refine .inr ⟨?_, c, hc, hkey.symm⟩
          rcases hmarked t with ht | ⟨ht, -⟩ <;> rw [ht]
          rfl
        · rw [if_neg hkey]
          exact hmarked t

/-- A report writes its count, and may credit transfers of its invoice, which is then paid. -/
theorem confirmTransfer_transfers {transfer : TokenTransfer} {info : ConfirmationInfo} {now : Int}
    (h : confirmTransfer transfer info now db = .ok db') :
    ∃ (f : TokenTransfer → TokenTransfer) (hf : ∀ t, (f t).key = t.key),
      db'.transfers = db.transfers.map f hf ∧ ∀ t ∈ db.transfers,
        f t = reportedTransfer transfer.key info.confirmations t ∨
        (f t = Db.credit now (reportedTransfer transfer.key info.confirmations t) ∧
          ∃ id, t.invoiceId = some id ∧ transfer.invoiceId = some id ∧
            ∃ invoice, db'.invoices.find? id = some invoice ∧ invoice.status = .paid) := by
  obtain ⟨db1, hset, hcases⟩ := confirmTransfer_eq_ok h
  obtain rfl : db1 = db.reported transfer.key info.confirmations :=
    (Db.setConfirmations_eq_ok.1 hset).2
  have hkey := reportedTransfer_key transfer.key info.confirmations
  have hreported : (db.reported transfer.key info.confirmations).transfers =
      db.transfers.map (reportedTransfer transfer.key info.confirmations) hkey := rfl
  have hplain : ∀ x : Db,
      x.transfers = (db.reported transfer.key info.confirmations).transfers →
      ∃ (f : TokenTransfer → TokenTransfer) (hf : ∀ t, (f t).key = t.key),
        x.transfers = db.transfers.map f hf ∧ ∀ t ∈ db.transfers,
          f t = reportedTransfer transfer.key info.confirmations t ∨
          (f t = Db.credit now (reportedTransfer transfer.key info.confirmations t) ∧
            ∃ id, t.invoiceId = some id ∧ transfer.invoiceId = some id ∧
              ∃ invoice, x.invoices.find? id = some invoice ∧ invoice.status = .paid) :=
    fun x hx => ⟨_, hkey, hx.trans hreported, fun _ _ => .inl rfl⟩
  rcases hcases with ⟨-, rfl⟩ | ⟨invoice, db2, hid, hfind, hadvance, hfinal⟩
  · exact hplain _ rfl
  obtain ⟨htransfers, -, -, -, -⟩ := advanceConfirming_row hfind hadvance
  rcases hfinal with ⟨-, rfl⟩ | ⟨-, hfinal⟩
  · exact hplain _ htransfers
  rcases finalizeInvoice_eq_ok hfinal with rfl | ⟨i, merchant, target, hi, hs, hsettle⟩
  · exact hplain _ htransfers
  rcases (settleInvoice_eq_ok hs.invoice_found hsettle).2 with
    ⟨-, events, webhooks, -, rfl⟩ | ⟨-, db3, hpaid, hcredits⟩
  · exact hplain _ htransfers
  · obtain ⟨f, hf, hmap, hmarked⟩ := creditTransfers_transfers hcredits
    obtain ⟨g, hg, writes, events, webhooks, hrow, -, rfl⟩ := hpaid
    have hstatus : ∃ invoice', db'.invoices.find? i.id = some invoice' ∧
        invoice'.status = .paid := by
      obtain ⟨accounts, ledger, transfers, rfl⟩ := creditTransfers_frame hcredits
      refine ⟨g i, ?_, (hrow i).2.1⟩
      show (db2.invoices.modify i.id g hg).find? i.id = _
      rw [Table.find?_modify_self, hs.invoice_found, Option.map_some]
    refine ⟨f ∘ reportedTransfer transfer.key info.confirmations,
      fun t => (hf _).trans (hkey t), ?_, ?_⟩
    · rw [hmap]
      show db2.transfers.map f hf = _
      rw [htransfers, hreported, Table.map_map]
    · intro t ht
      simp only [Function.comp_apply]
      refine (hmarked (reportedTransfer transfer.key info.confirmations t)).imp_right ?_
      rintro ⟨hcredit, c, hc, hckey⟩
      refine ⟨hcredit, i.id, ?_, by rw [hid, hi], hstatus⟩
      -- The counted transfer with this key is the row itself.
      obtain ⟨hconfirmed, -⟩ := List.mem_filter.1 hc
      obtain ⟨hmem, hmatch⟩ := List.mem_filter.1 hconfirmed
      have hcid : c.invoiceId = some i.id := by
        simp only [decide_eq_true_eq] at hmatch
        exact hmatch.1
      have hrow' : reportedTransfer transfer.key info.confirmations t ∈ db2.transfers := by
        rw [htransfers, hreported]
        exact List.mem_map_of_mem ht
      have hsame := Table.eq_of_key_eq hmem hrow' hckey
      rwa [hsame, reportedTransfer_invoiceId] at hcid

end MonitorService

end PaymentGateway
