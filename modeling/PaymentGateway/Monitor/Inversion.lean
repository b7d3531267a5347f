import PaymentGateway.Monitor.Service

/-!
# What the monitor's functions did

One inversion lemma for each function of the monitor: from a call that succeeded, what it found
and what it left. Nothing here needs an invariant, so the lemmas hold in any database.

Settlement has two parts. `Settleable` collects what `finalizeInvoice` has established when it
begins to write, with the outcome of the evaluation as a comparison with the tolerance band;
`settleInvoice_eq_ok` says what is written, where the loop over the credits stays a call of
`creditTransfers` for the invariants to run through.
-/

namespace PaymentGateway

open Keyed Fallible Transactional

namespace MonitorService

variable {db db' : Db}

/-! ## Moves -/

/-- A move finds no edge and changes nothing, or writes the status the monitor may write. -/
theorem moveInvoice_eq_ok {invoice : Invoice} {target : InvoiceStatus} {data : InvoiceData}
    {eventType : String} {notify : Bool} (hfind : db.invoices.find? invoice.id = some invoice)
    (h : moveInvoice db invoice target data eventType notify = .ok db') :
    (canTransition invoice.status target = false ∧ db' = db) ∨
    (isActorAllowed invoice.status target .monitor = true ∧ ∃ events webhooks,
      Db.Reported db.events ⟨invoice.id, invoice.status, target, .monitor⟩ "monitor" events ∧
      (notify = true →
        Db.Emitted db.webhookEvents invoice.id (webhookEventForStatus target) webhooks) ∧
      (notify = false → webhooks = db.webhookEvents) ∧
      db' = db.withStatus invoice target .monitor { data with bumpVersion := true } events
        webhooks) := by
  unfold moveInvoice at h
  split at h
  · next hedge =>
    cases h
    exact .inl ⟨by simpa using hedge, rfl⟩
  · obtain ⟨db1, hmove, h⟩ := bind_eq_ok.1 h
    obtain ⟨hallowed, stored, events, hstored, hreported, rfl⟩ := Db.applyTransition_eq_ok hmove
    have hsame : stored = invoice := Option.some.inj (hstored.symm.trans hfind)
    subst hsame
    refine .inr ⟨hallowed, events, ?_⟩
    split_ifs at h with hnotify
    · obtain ⟨webhooks, hemitted, rfl⟩ := Db.emitWebhook_withStatus h
      exact ⟨webhooks, hreported, fun _ => hemitted, fun hno => by simp [hno] at hnotify, rfl⟩
    · cases h
      exact ⟨_, hreported, fun hyes => absurd hyes hnotify, fun _ => rfl, rfl⟩

/-! ## Sightings -/

/-- The columns of the row a sighting writes. -/
theorem row_eq_ok {s : Sighting} {row : TokenTransfer} (h : s.row db = .ok row) :
    row.key = s.key ∧ row.tokenContract = s.transfer.tokenContract ∧
      row.amount = s.transfer.amount ∧ row.invoiceId = (s.invoice db).map (·.id) ∧
      row.matchStatus = (s.decision db).status ∧ row.confirmations = s.chainTx.confirmations ∧
      row.creditedAt = none := by
  unfold Sighting.row at h
  split_ifs at h
  cases h
  exact ⟨rfl, rfl, rfl, rfl, rfl, rfl, rfl⟩

theorem find?_of_invoice {s : Sighting} {invoice : Invoice} (h : s.invoice db = some invoice) :
    db.invoices.find? invoice.id = some invoice ∧ ∃ address,
      db.findAddress s.network s.transfer.toAddress = some address ∧
      address.invoiceId = some invoice.id := by
  unfold Sighting.invoice at h
  obtain ⟨address, haddress, h⟩ := Option.bind_eq_some_iff.1 h
  obtain ⟨id, hid, h⟩ := Option.bind_eq_some_iff.1 h
  have hkey : invoice.id = id := Table.key_of_find? h
  subst hkey
  exact ⟨h, address, haddress, hid⟩

/-- Where a counted or late transfer moves its invoice, if there is an edge. -/
def sightingTarget : TransferMatchStatus → Option InvoiceStatus
  | .pendingConfirmation => some .detected
  | .latePaymentReview => some .latePaymentReview
  | _ => none

theorem sightingTarget_eq_some {status : TransferMatchStatus} {target : InvoiceStatus}
    (h : sightingTarget status = some target) :
    (status = .pendingConfirmation ∧ target = .detected) ∨
      (status = .latePaymentReview ∧ target = .latePaymentReview) := by
  cases status <;> cases h
  · exact .inl ⟨rfl, rfl⟩
  · exact .inr ⟨rfl, rfl⟩

/-- A sighting of a credited transfer changes nothing. Any other writes its row, and then moves
the invoice as the decision asks and the edges allow. -/
theorem recordTransfer_eq_ok {s : Sighting} (h : recordTransfer db s = .ok db') :
    (((db.transfers.find? s.key).bind (·.creditedAt)).isSome = true ∧ db' = db) ∨
    ((db.transfers.find? s.key).bind (·.creditedAt) = none ∧ ∃ row, s.row db = .ok row ∧
      ((db' = db.upsertTransfer row ∧ ∀ invoice target, s.invoice db = some invoice →
          sightingTarget (s.decision db).status = some target →
          canTransition invoice.status target = false) ∨
        ∃ invoice target data events webhooks, s.invoice db = some invoice ∧
          sightingTarget (s.decision db).status = some target ∧
          isActorAllowed invoice.status target .monitor = true ∧
          data.amounts = none ∧
          Db.Announced "monitor" db.events db.webhookEvents
            [⟨invoice.id, invoice.status, target, .monitor⟩] events webhooks ∧
          db' = (db.upsertTransfer row).withStatus invoice target .monitor data events
            webhooks)) := by
  unfold recordTransfer at h
  split_ifs at h with hcredited
  · cases h
    exact .inl ⟨hcredited, rfl⟩
  obtain ⟨row, hrow, h⟩ := bind_eq_ok.1 h
  refine .inr ⟨by simpa using hcredited, row, hrow, ?_⟩
  obtain ⟨transfers, hupsert⟩ := Db.upsertTransfer_eq db row
  have hinvoices : (db.upsertTransfer row).invoices = db.invoices := by rw [hupsert]
  have hevents : (db.upsertTransfer row).events = db.events := by rw [hupsert]
  have hwebhooks : (db.upsertTransfer row).webhookEvents = db.webhookEvents := by rw [hupsert]
  cases hinvoice : s.invoice db with
  | none =>
    rw [hinvoice] at h
    cases h
    exact .inl ⟨rfl, fun invoice target hno => by cases hno⟩
  | some invoice =>
    rw [hinvoice] at h
    dsimp only at h
    have hfind : (db.upsertTransfer row).invoices.find? invoice.id = some invoice := by
      rw [hinvoices]
      exact (find?_of_invoice hinvoice).1
    cases hdecision : (s.decision db).status <;> rw [hdecision] at h <;> dsimp only at h
    case pendingConfirmation =>
      rcases moveInvoice_eq_ok hfind h with
        ⟨hedge, rfl⟩ | ⟨hallowed, events, webhooks, hreported, hemitted, -, rfl⟩
      · refine .inl ⟨rfl, fun i target hi ht => ?_⟩
        cases hi
        cases ht
        exact hedge
      · rw [hevents] at hreported
        rw [hwebhooks] at hemitted
        exact .inr ⟨invoice, _, _, events, webhooks, rfl, rfl, hallowed, rfl,
          .single hreported (hemitted rfl), rfl⟩
    case latePaymentReview =>
      rcases moveInvoice_eq_ok hfind h with
        ⟨hedge, rfl⟩ | ⟨hallowed, events, webhooks, hreported, -, hsilent, rfl⟩
      · refine .inl ⟨rfl, fun i target hi ht => ?_⟩
        cases hi
        cases ht
        exact hedge
      · rw [hevents] at hreported
        rw [hwebhooks] at hsilent
        have hemitted : Db.Emitted db.webhookEvents invoice.id none webhooks := by
          rw [hsilent rfl]
          exact .silent
        exact .inr ⟨invoice, _, _, events, webhooks, rfl, rfl, hallowed, rfl,
          .single hreported hemitted, rfl⟩
    all_goals
      cases h
      exact .inl ⟨rfl, fun i target _ ht => by cases ht⟩

theorem recordChainTransaction_eq (db : Db) (network : Network) (chainTx : ChainTransaction)
    (now : Int) :
    ∃ chainTxs, recordChainTransaction db network chainTx now = { db with chainTxs } := by
  unfold recordChainTransaction
  split <;> exact Db.upsertChainTx_eq _ _

/-! ## Settlement -/

/-- The outcome of an invoice that has received `total`. -/
def outcomeFor (invoice : Invoice) (total : Int) : PaymentOutcome :=
  outcomeOf invoice.cryptoAmount total invoice.underpaymentToleranceBps
    invoice.overpaymentToleranceBps

/-- On a stored invoice the evaluation never fails. -/
theorem evaluatePayment_eq_ok (invoice : Invoice) (total : Int) :
    ∃ evaluation, evaluatePayment (evaluationInput invoice total) = .ok evaluation ∧
      evaluation.outcome = outcomeFor invoice total :=
  evaluatePayment_spec invoice.paymentAsset invoice.paymentDecimals
    invoice.crypto_amount_positive invoice.tolerances_sane.1.1 invoice.tolerances_sane.1.2
    invoice.tolerances_sane.2.1 invoice.tolerances_sane.2.2

/-- What `finalizeInvoice` has found when it begins to write. -/
structure Settleable (db : Db) (invoice : Invoice) (merchant : Merchant)
    (target : InvoiceStatus) : Prop where
  invoice_found : db.invoices.find? invoice.id = some invoice
  merchant_found : db.merchants.find? invoice.merchantId = some merchant
  total_ne : totalAmount (countedTransfers db invoice) ≠ 0
  target_of : statusForOutcome (outcomeFor invoice (totalAmount (countedTransfers db invoice))) =
    some target
  edge : canTransition invoice.status target = true

theorem finalizeInvoice_eq_ok {invoiceId : String} {now : Int}
    (h : finalizeInvoice db invoiceId now = .ok db') :
    db' = db ∨ ∃ invoice merchant target, invoice.id = invoiceId ∧
      Settleable db invoice merchant target ∧
      settleInvoice db invoice merchant target now = .ok db' := by
  obtain ⟨invoice, hinvoice, hbody⟩ := bind_eq_ok.1 h
  obtain ⟨hid, hfind⟩ := Db.found hinvoice
  split_ifs at hbody with hfinal htotal
  · cases hbody; exact .inl rfl
  · cases hbody; exact .inl rfl
  obtain ⟨merchant, hmerchant, hsettle⟩ := bind_eq_ok.1 hbody
  obtain ⟨evaluation, heval, houtcome⟩ :=
    evaluatePayment_eq_ok invoice (totalAmount (countedTransfers db invoice))
  rw [heval, bind_ok, houtcome] at hsettle
  cases htarget : statusForOutcome
      (outcomeFor invoice (totalAmount (countedTransfers db invoice))) with
  | none => rw [htarget] at hsettle; cases hsettle; exact .inl rfl
  | some target =>
    rw [htarget] at hsettle
    dsimp only at hsettle
    split_ifs at hsettle with hedge
    · cases hsettle; exact .inl rfl
    · exact .inr ⟨invoice, merchant, target, hid,
        ⟨hfind, Db.findMerchant_eq_ok.1 hmerchant, htotal, htarget, by simpa using hedge⟩,
        hsettle⟩

/-- What it finds decides whether `finalizeInvoice` writes. -/
theorem finalizeInvoice_of_settleable {invoice : Invoice} {merchant : Merchant}
    {target : InvoiceStatus} (h : Settleable db invoice merchant target) (now : Int) :
    finalizeInvoice db invoice.id now = settleInvoice db invoice merchant target now := by
  obtain ⟨evaluation, heval, houtcome⟩ :=
    evaluatePayment_eq_ok invoice (totalAmount (countedTransfers db invoice))
  have hfinal : isFinalizable invoice.status = true := by
    have hedge := h.edge
    unfold isFinalizable
    rcases statusForOutcome_settled h.target_of with rfl | rfl | rfl <;> simp [hedge]
  unfold finalizeInvoice
  rw [Db.findInvoice_eq_ok.2 h.invoice_found, bind_ok, hfinal, if_neg (by simp),
    if_neg h.total_ne, Db.findMerchant_eq_ok.2 h.merchant_found, bind_ok, heval, bind_ok, houtcome,
    h.target_of]
  dsimp only
  rw [h.edge, if_neg (by simp)]

/-- The amounts a settlement writes. -/
def settleData (db : Db) (invoice : Invoice) : InvoiceData :=
  { amounts := some ⟨totalAmount (countedTransfers db invoice),
      maxConfirmations (confirmedTransfers db invoice.id), totalAmount_nonneg _⟩ }

/-- `db1` is `db` with the invoice on PAID, its amounts at `total`, and the writes that took it
there logged. -/
structure PaidWrite (db db1 : Db) (invoice : Invoice) (total : Int) : Prop where
  eq : ∃ (f : Invoice → Invoice) (hf : ∀ r, (f r).id = r.id) (writes : List StatusWrite)
    (events : Table PaymentEvent fun e => (e.invoiceId, e.sequence))
    (webhooks : Table WebhookEvent (·.idempotencyKey)),
    (∀ r, (f r).terms = r.terms ∧ (f r).status = .paid ∧ (f r).receivedAmount = total ∧
      (f r).confirmedAmount = total) ∧
    (Db.StatusPath invoice.id invoice.status writes .paid ∧
      Db.Announced "monitor" db.events db.webhookEvents writes events webhooks ∧
      ∀ w ∈ writes, w.writer = .monitor) ∧
    db1 = { db with
      invoices := db.invoices.modify invoice.id f hf
      statusWrites := db.statusWrites ++ writes
      events := events
      webhookEvents := webhooks }

/-- Landing on PAID from the status the settlement has just written. -/
theorem acceptPayment_eq_ok {invoice : Invoice} {target : InvoiceStatus} {now : Int}
    {data : InvoiceData} {total : Int} {db1 : Db}
    {events : Table PaymentEvent fun e => (e.invoiceId, e.sequence)}
    {webhooks : Table WebhookEvent (·.idempotencyKey)}
    (hfind : db.invoices.find? invoice.id = some invoice)
    (hallowed : isActorAllowed invoice.status target .monitor = true)
    (hamounts : data.amounts.map (·.total) = some total)
    (hsaid : Db.Announced "monitor" db.events db.webhookEvents
      [⟨invoice.id, invoice.status, target, .monitor⟩] events webhooks)
    (h : acceptPayment (db.withStatus invoice target .monitor data events webhooks) invoice target
      now = .ok db1) : PaidWrite db db1 invoice total := by
  -- The row as the first write left it, and the two updates as one change of the table.
  have hrow : (db.withStatus invoice target .monitor data events webhooks).invoices.find?
      invoice.id = some (invoice.update { data with status := some target }) :=
    Db.find?_withStatus_self hfind
  have htwice : ∀ d : InvoiceData, d.amounts = none → d.status.getD target = .paid →
      ∀ r : Invoice,
        ((r.update { data with status := some target }).update d).terms = r.terms ∧
        ((r.update { data with status := some target }).update d).status = .paid ∧
        ((r.update { data with status := some target }).update d).receivedAmount = total ∧
        ((r.update { data with status := some target }).update d).confirmedAmount = total := by
    intro d hd hs r
    refine ⟨by simp, hs, ?_, ?_⟩
    · rw [Invoice.receivedAmount_update, Invoice.receivedAmount_update, hd, hamounts]
      rfl
    · rw [Invoice.confirmedAmount_update, Invoice.confirmedAmount_update, hd, hamounts]
      rfl
  unfold acceptPayment at h
  split_ifs at h with hpaid
  · obtain ⟨db2, hmove, h⟩ := bind_eq_ok.1 h
    obtain ⟨hsecond, stored, events', hstored, hreported', rfl⟩ := Db.applyTransition_eq_ok hmove
    have hsame := Option.some.inj (hstored.symm.trans hrow)
    subst hsame
    obtain ⟨webhooks', hemitted', rfl⟩ := Db.emitWebhook_withStatus h
    rw [Invoice.id_update] at hreported'
    obtain - | ⟨hreported, hemitted, hnil⟩ := hsaid
    refine ⟨_, fun r => (Invoice.id_update _ _).trans (Invoice.id_update _ _),
      [⟨invoice.id, invoice.status, target, .monitor⟩,
      ⟨invoice.id, target, .paid, .monitor⟩], events', webhooks',
      htwice { status := some .paid, paidAt := some now } rfl rfl, ?_, ?_⟩
    · refine ⟨(Db.StatusPath.single invoice.id hallowed).append
        (Db.StatusPath.single invoice.id hsecond), .cons hreported hemitted ?_, by simp⟩
      cases hnil
      exact .single hreported' hemitted'
    · simp only [Db.withStatus, Invoice.id_update, Table.modify_modify, List.append_assoc]
      rfl
  · have htarget : target = .paid := by simpa using hpaid
    obtain ⟨stored, hstored, rfl⟩ := Db.updateInvoice_eq_ok.1 h
    refine ⟨_, fun r => (Invoice.id_update _ _).trans (Invoice.id_update _ _),
      [⟨invoice.id, invoice.status, target, .monitor⟩], events, webhooks,
      htwice { paidAt := some now } rfl htarget, ?_, ?_⟩
    · rw [htarget] at hsaid ⊢
      exact ⟨Db.StatusPath.single invoice.id (htarget ▸ hallowed), hsaid, by simp⟩
    · simp only [Db.withStatus, Table.modify_modify, Option.map_none, Option.toList_none,
        List.append_nil]

/-- What a settlement writes: the target status with the amounts; and, when the outcome or the
merchant's policy accepts the payment, PAID and the credits of the counted transfers. -/
theorem settleInvoice_eq_ok {invoice : Invoice} {merchant : Merchant} {target : InvoiceStatus}
    {now : Int} (hfind : db.invoices.find? invoice.id = some invoice)
    (h : settleInvoice db invoice merchant target now = .ok db') :
    isActorAllowed invoice.status target .monitor = true ∧
    ((autoAccept merchant target = false ∧ ∃ events webhooks,
        Db.Announced "monitor" db.events db.webhookEvents
          [⟨invoice.id, invoice.status, target, .monitor⟩] events webhooks ∧
        db' = db.withStatus invoice target .monitor (settleData db invoice) events webhooks) ∨
      (autoAccept merchant target = true ∧ ∃ db1,
        PaidWrite db db1 invoice (totalAmount (countedTransfers db invoice)) ∧
        creditTransfers invoice merchant now db1 (countedTransfers db invoice) = .ok db')) := by
  obtain ⟨db1, hmove, h⟩ := bind_eq_ok.1 h
  obtain ⟨hallowed, stored, events, hstored, hreported, rfl⟩ := Db.applyTransition_eq_ok hmove
  have hsame : stored = invoice := Option.some.inj (hstored.symm.trans hfind)
  subst hsame
  obtain ⟨db2, hemit, h⟩ := bind_eq_ok.1 h
  obtain ⟨webhooks, hemitted, rfl⟩ := Db.emitWebhook_withStatus hemit
  have hsaid : Db.Announced "monitor" db.events db.webhookEvents
    [⟨stored.id, stored.status, target, .monitor⟩] events webhooks := .single hreported hemitted
  refine ⟨hallowed, ?_⟩
  split_ifs at h with hauto
  · cases h
    exact .inl ⟨by simpa using hauto, events, webhooks, hsaid, rfl⟩
  · obtain ⟨db3, haccept, hcredits⟩ := bind_eq_ok.1 h
    exact .inr ⟨by simpa using hauto, db3,
      acceptPayment_eq_ok hfind hallowed rfl hsaid haccept, hcredits⟩

/-- One turn of the credit loop: the key is taken, or a posting is added and the row marked. -/
theorem creditTransfer_eq_ok {invoice : Invoice} {merchant : Merchant} {now : Int}
    {t : TokenTransfer} (h : creditTransfer invoice merchant now db t = .ok db') :
    ((db.ledgerTransactions.find? (creditKey t.key)).isSome = true ∧ db' = db) ∨
    ∃ (accounts : Table LedgerAccount (·.code)) (posting : LedgerTransaction)
      (hk : db.ledgerTransactions.find? posting.idempotencyKey = none),
      (∃ row, db.transfers.find? t.key = some row) ∧
      posting.idempotencyKey = creditKey t.key ∧ posting.type = "payment.credit" ∧
      posting.invoiceId = some invoice.id ∧ posting.tokenTransferId = some t.key ∧
      posting.grossAmount = t.amount ∧
      db' = { db with
        ledgerAccounts := accounts
        ledgerTransactions := db.ledgerTransactions.insert posting hk
        transfers := db.transfers.modify t.key (Db.credit now) (Db.credit_key now) } := by
  obtain ⟨⟨db1, result⟩, hpost, hmark⟩ := bind_eq_ok.1 h
  rcases postPaymentCredit_eq_ok hpost with
    ⟨hsome, rfl, hposted⟩ | ⟨accounts, entries, hb, hk, rfl, hgross, hposted⟩
  · dsimp only at hmark
    rw [if_pos hposted] at hmark
    cases hmark
    exact .inl ⟨hsome, rfl⟩
  · dsimp only at hmark
    rw [hposted] at hmark
    obtain ⟨hrow, rfl⟩ := Db.markCredited_eq_ok.1 hmark
    exact .inr ⟨accounts, _, hk, hrow, rfl, rfl, rfl, rfl, hgross, rfl⟩

/-- The credit loop writes the ledger and the transfers, and nothing else. -/
theorem creditTransfers_frame {invoice : Invoice} {merchant : Merchant} {now : Int}
    {l : List TokenTransfer} (h : creditTransfers invoice merchant now db l = .ok db') :
    ∃ accounts ledger transfers, db' = { db with
      ledgerAccounts := accounts
      ledgerTransactions := ledger
      transfers := transfers } := by
  refine foldlM_invariant
    (fun x => ∃ accounts ledger transfers, x = { db with
      ledgerAccounts := accounts
      ledgerTransactions := ledger
      transfers := transfers }) ⟨_, _, _, rfl⟩ ?_ h
  rintro t - a b ⟨accounts, ledger, transfers, rfl⟩ hturn
  rcases creditTransfer_eq_ok hturn with ⟨-, rfl⟩ | ⟨accounts', posting, hk, -, -, -, -, -, -, rfl⟩
  · exact ⟨_, _, _, rfl⟩
  · exact ⟨_, _, _, rfl⟩

/-- What an accepted payment leaves: the invoice on PAID with its amounts, the writes that took it
there, and tables that have nothing to do with invoices. -/
theorem accept_frame {invoice : Invoice} {merchant : Merchant} {total now : Int} {db1 : Db}
    {l : List TokenTransfer} (hpaid : PaidWrite db db1 invoice total)
    (hcredits : creditTransfers invoice merchant now db1 l = .ok db') :
    ∃ (f : Invoice → Invoice) (hf : ∀ r, (f r).id = r.id) (writes : List StatusWrite)
      (events : Table PaymentEvent fun e => (e.invoiceId, e.sequence))
      (webhooks : Table WebhookEvent (·.idempotencyKey)) (accounts : Table LedgerAccount (·.code))
      (ledger : Table LedgerTransaction (·.idempotencyKey))
      (transfers : Table TokenTransfer (·.key)),
      (∀ r, (f r).terms = r.terms ∧ (f r).status = .paid ∧ (f r).receivedAmount = total ∧
        (f r).confirmedAmount = total) ∧
      (Db.StatusPath invoice.id invoice.status writes .paid ∧
        Db.Announced "monitor" db.events db.webhookEvents writes events webhooks ∧
        ∀ w ∈ writes, w.writer = .monitor) ∧
      db' = { db with
        invoices := db.invoices.modify invoice.id f hf
        statusWrites := db.statusWrites ++ writes
        events := events
        webhookEvents := webhooks
        ledgerAccounts := accounts
        ledgerTransactions := ledger
        transfers := transfers } := by
  obtain ⟨f, hf, writes, events, webhooks, hrow, hwrites, rfl⟩ := hpaid
  obtain ⟨accounts, ledger, transfers, rfl⟩ := creditTransfers_frame hcredits
  exact ⟨f, hf, writes, events, webhooks, accounts, ledger, transfers, hrow, hwrites, rfl⟩

/-! ## Confirmations -/

/-- What the transaction of one pending transfer did: the count is written; then, for a transfer
with an invoice, the invoice may move to CONFIRMING; and at the threshold it is finalised. -/
theorem confirmTransfer_eq_ok {transfer : TokenTransfer} {info : ConfirmationInfo} {now : Int}
    (h : confirmTransfer transfer info now db = .ok db') :
    ∃ db1, db.setConfirmations transfer.key info.confirmations = .ok db1 ∧
      ((transfer.invoiceId = none ∧ db' = db1) ∨
        ∃ invoice db2, transfer.invoiceId = some invoice.id ∧
          db1.invoices.find? invoice.id = some invoice ∧
          advanceConfirming db1 invoice info.confirmations = .ok db2 ∧
          ((info.confirmations < invoice.requiredConfirmations ∧ db' = db2) ∨
            (invoice.requiredConfirmations ≤ info.confirmations ∧
              finalizeInvoice db2 invoice.id now = .ok db'))) := by
  obtain ⟨db1, hset, h⟩ := bind_eq_ok.1 h
  refine ⟨db1, hset, ?_⟩
  cases hid : transfer.invoiceId with
  | none =>
    rw [hid] at h
    cases h
    exact .inl ⟨rfl, rfl⟩
  | some invoiceId =>
    rw [hid] at h
    obtain ⟨invoice, hinvoice, hbody⟩ := bind_eq_ok.1 h
    obtain ⟨hkey, hfind⟩ := Db.found hinvoice
    obtain ⟨db2, hadvance, hrest⟩ := bind_eq_ok.1 hbody
    rw [effectiveConfirmations_none, bind_ok,
      isConfirmed_of_pos invoice.required_confirmations_positive, bind_ok] at hrest
    refine .inr ⟨invoice, db2, by rw [hkey], hfind, hadvance, ?_⟩
    split_ifs at hrest with hreached
    · exact .inr ⟨by simpa using hreached, hrest⟩
    · cases hrest
      exact .inl ⟨by simpa using hreached, rfl⟩

theorem advanceConfirming_eq_ok {invoice : Invoice} {n : Nat}
    (hfind : db.invoices.find? invoice.id = some invoice)
    (h : advanceConfirming db invoice n = .ok db') :
    (db' = db ∧ (n < 1 ∨ canTransition invoice.status .confirming = false)) ∨
    (1 ≤ n ∧ isActorAllowed invoice.status .confirming .monitor = true ∧
      ∃ events webhooks,
        Db.Announced "monitor" db.events db.webhookEvents
          [⟨invoice.id, invoice.status, .confirming, .monitor⟩] events webhooks ∧
        db' = db.withStatus invoice .confirming .monitor { bumpVersion := true } events
          webhooks) := by
  unfold advanceConfirming at h
  split_ifs at h with hn
  · cases h; exact .inl ⟨rfl, .inl hn⟩
  · rcases moveInvoice_eq_ok hfind h with
      ⟨hedge, rfl⟩ | ⟨hallowed, events, webhooks, hreported, hemitted, -, rfl⟩
    · exact .inl ⟨rfl, .inr hedge⟩
    · exact .inr ⟨by omega, hallowed, events, webhooks, .single hreported (hemitted rfl), rfl⟩

/-- What stands before the settlement: the tables a settlement reads, and the invoice, on
CONFIRMING if there is an edge to it. -/
theorem advanceConfirming_row {invoice : Invoice} {n : Nat}
    (hfind : db.invoices.find? invoice.id = some invoice)
    (h : advanceConfirming db invoice n = .ok db') :
    db'.transfers = db.transfers ∧ db'.merchants = db.merchants ∧
      db'.ledgerTransactions = db.ledgerTransactions ∧
      ∃ invoice', db'.invoices.find? invoice.id = some invoice' ∧
        invoice'.terms = invoice.terms ∧
        ((invoice' = invoice ∧ (n < 1 ∨ canTransition invoice.status .confirming = false)) ∨
          (invoice'.status = .confirming ∧
            isActorAllowed invoice.status .confirming .monitor = true)) := by
  rcases advanceConfirming_eq_ok hfind h with ⟨rfl, hno⟩ | ⟨-, hallowed, events, webhooks, -, rfl⟩
  · exact ⟨rfl, rfl, rfl, invoice, hfind, rfl, .inl ⟨rfl, hno⟩⟩
  · exact ⟨rfl, rfl, rfl, _, Db.find?_withStatus_self hfind, Invoice.terms_update _ _,
      .inr ⟨rfl, hallowed⟩⟩

theorem mem_confirmed_iff {t : TokenTransfer} {id : String} : t ∈ confirmedTransfers db id ↔
    t ∈ db.transfers ∧ t.invoiceId = some id ∧
      (t.matchStatus = .credited ∨ t.matchStatus = .pendingConfirmation) := by
  simp [confirmedTransfers, List.mem_filter, Table.mem_def]

theorem mem_counted_iff {t : TokenTransfer} {invoice : Invoice} :
    t ∈ countedTransfers db invoice ↔
      t ∈ confirmedTransfers db invoice.id ∧ invoice.requiredConfirmations ≤ t.confirmations := by
  simp [countedTransfers, List.mem_filter]

/-- Two databases that agree on what a settlement reads count the same transfers. -/
theorem countedTransfers_congr {invoice invoice' : Invoice}
    (htransfers : db'.transfers = db.transfers) (hterms : invoice'.terms = invoice.terms) :
    countedTransfers db' invoice' = countedTransfers db invoice := by
  have hid : invoice'.id = invoice.id := congrArg Invoice.Terms.id hterms
  have hrequired : invoice'.requiredConfirmations = invoice.requiredConfirmations :=
    congrArg Invoice.Terms.requiredConfirmations hterms
  unfold countedTransfers confirmedTransfers
  rw [htransfers, hid, hrequired]

theorem outcomeFor_congr {invoice invoice' : Invoice} (hterms : invoice'.terms = invoice.terms)
    (total : Int) : outcomeFor invoice' total = outcomeFor invoice total := by
  have hcrypto : invoice'.cryptoAmount = invoice.cryptoAmount :=
    congrArg Invoice.Terms.cryptoAmount hterms
  have hunder : invoice'.underpaymentToleranceBps = invoice.underpaymentToleranceBps :=
    congrArg Invoice.Terms.underpaymentToleranceBps hterms
  have hover : invoice'.overpaymentToleranceBps = invoice.overpaymentToleranceBps :=
    congrArg Invoice.Terms.overpaymentToleranceBps hterms
  unfold outcomeFor
  rw [hcrypto, hunder, hover]

/-- What `finalizeInvoice` finds depends on the transfers, the merchants and the terms, and on the
status for the edge alone. -/
theorem Settleable.congr {invoice invoice' : Invoice} {merchant : Merchant}
    {target : InvoiceStatus} (h : Settleable db invoice merchant target)
    (hfind : db'.invoices.find? invoice'.id = some invoice')
    (htransfers : db'.transfers = db.transfers) (hmerchants : db'.merchants = db.merchants)
    (hterms : invoice'.terms = invoice.terms) (hedge : canTransition invoice'.status target = true) :
    Settleable db' invoice' merchant target := by
  have hcounted := countedTransfers_congr htransfers hterms
  have hmid : invoice'.merchantId = invoice.merchantId :=
    congrArg Invoice.Terms.merchantId hterms
  refine ⟨hfind, ?_, ?_, ?_, hedge⟩
  · rw [hmerchants, hmid]
    exact h.merchant_found
  · rw [hcounted]
    exact h.total_ne
  · rw [hcounted, outcomeFor_congr hterms]
    exact h.target_of

/-! ## Reorgs -/

/-- The transfers an invoice is still waiting for. -/
def awaiting (db : Db) (invoiceId : String) : List TokenTransfer :=
  db.transfers.rows.filter fun t =>
    t.invoiceId = some invoiceId ∧ t.matchStatus = .pendingConfirmation

theorem mem_awaiting {t : TokenTransfer} {id : String} : t ∈ awaiting db id ↔
    t ∈ db.transfers ∧ t.invoiceId = some id ∧ t.matchStatus = .pendingConfirmation := by
  simp [awaiting, List.mem_filter, Table.mem_def]

theorem revertInvoiceAfterOrphan_eq_ok {invoiceId : String}
    (h : revertInvoiceAfterOrphan db invoiceId = .ok db') :
    ∃ invoice, db.invoices.find? invoiceId = some invoice ∧
      (db' = db ∨ ∃ target events webhooks,
        isActorAllowed invoice.status target .monitor = true ∧
        target = (if (awaiting db invoiceId).length > 0 then .detected else .pending) ∧
        Db.Reported db.events ⟨invoice.id, invoice.status, target, .monitor⟩ "monitor" events ∧
        webhooks = db.webhookEvents ∧
        db' = db.withStatus invoice target .monitor { bumpVersion := true } events webhooks) := by
  obtain ⟨invoice, hinvoice, hmove⟩ := bind_eq_ok.1 h
  obtain ⟨-, hfind⟩ := Db.found hinvoice
  refine ⟨invoice, Db.findInvoice_eq_ok.1 hinvoice, ?_⟩
  rcases moveInvoice_eq_ok hfind hmove with
    ⟨-, rfl⟩ | ⟨hallowed, events, webhooks, hreported, -, hsilent, rfl⟩
  · exact .inl rfl
  · exact .inr ⟨_, events, webhooks, hallowed, rfl, hreported, hsilent rfl, rfl⟩

theorem flagOrphanedCredit_eq_ok {key : TransferKey} {invoiceId : Option String} {now : Int}
    (h : flagOrphanedCredit db key invoiceId now = .ok db') :
    (invoiceId = none ∧ db' = db) ∨ ∃ invoice, invoiceId = some invoice.id ∧
      db.invoices.find? invoice.id = some invoice ∧
      ((canTransition invoice.status .reconciliationRequired = false ∧ db' = db) ∨
        ∃ events webhooks,
          isActorAllowed invoice.status .reconciliationRequired .monitor = true ∧
          Db.Announced "monitor" db.events db.webhookEvents
            [⟨invoice.id, invoice.status, .reconciliationRequired, .monitor⟩] events webhooks ∧
          db' = recordOrphanedCredit (db.withStatus invoice .reconciliationRequired .monitor
            { bumpVersion := true } events webhooks) key invoice.id now) := by
  unfold flagOrphanedCredit at h
  cases invoiceId with
  | none => cases h; exact .inl ⟨rfl, rfl⟩
  | some id =>
    obtain ⟨invoice, hinvoice, hbody⟩ := bind_eq_ok.1 h
    obtain ⟨hkey, hfind⟩ := Db.found hinvoice
    refine .inr ⟨invoice, by rw [hkey], hfind, ?_⟩
    split_ifs at hbody with hedge
    · cases hbody
      exact .inl ⟨by simpa using hedge, rfl⟩
    · obtain ⟨db1, hmove, hret⟩ := bind_eq_ok.1 hbody
      cases hret
      rw [← hkey]
      rcases moveInvoice_eq_ok hfind hmove with
        ⟨hno, -⟩ | ⟨hallowed, events, webhooks, hreported, -, hsilent, rfl⟩
      · simp [hno] at hedge
      · have hemitted : Db.Emitted db.webhookEvents invoice.id none webhooks := by
          rw [hsilent rfl]
          exact .silent
        exact .inr ⟨events, webhooks, hallowed, .single hreported hemitted, rfl⟩

/-- What becomes of one transfer of an orphaned transaction. -/
theorem orphanTransfer_eq_ok {t : TokenTransfer} {now : Int}
    (h : orphanTransfer now db t = .ok db') :
    (t.creditedAt.isSome = true ∧ flagOrphanedCredit db t.key t.invoiceId now = .ok db') ∨
    (t.creditedAt = none ∧ ∃ db1, db.markOrphaned t.key = .ok db1 ∧
      ((t.invoiceId = none ∧ db' = db1) ∨ ∃ invoiceId, t.invoiceId = some invoiceId ∧
        revertInvoiceAfterOrphan db1 invoiceId = .ok db')) := by
  unfold orphanTransfer at h
  split_ifs at h with hcredited
  · exact .inl ⟨hcredited, h⟩
  · obtain ⟨db1, hmark, h⟩ := bind_eq_ok.1 h
    refine .inr ⟨by simpa using hcredited, db1, hmark, ?_⟩
    cases hid : t.invoiceId with
    | none => rw [hid] at h; cases h; exact .inl ⟨rfl, rfl⟩
    | some invoiceId => rw [hid] at h; exact .inr ⟨invoiceId, rfl, h⟩

theorem markTxOrphaned_eq_ok {key : TxKey} {now : Int}
    (h : markTxOrphaned db key now = .ok db') :
    ∃ chainTxs, db' = { db with chainTxs } := by
  unfold markTxOrphaned at h
  split at h
  · cases h
  · cases h; exact ⟨_, rfl⟩

end MonitorService

end PaymentGateway
