import PaymentGateway.System.MerchantBalances
import PaymentGateway.System.Progress

/-!
# Credits that go through

**Theorem (`settleInvoice_isOk_iff`).** In every state of every run, a settlement that the state
machine allows goes through exactly if it credits nothing, or the merchant can be credited
(`Creditable`: it has an id, and its fee leaves something), or all the transfers it counts are in
the ledger already. The writes before the credits go through (`acceptPayment_isOk`); the credits are
a loop, which `creditTransfers_isOk_iff` follows.

The accounts of every run keep to the decimals of the listed assets (`denominated`), because what is
posted is in the asset of an invoice, and no invoice is over anything else.
-/

namespace PaymentGateway

open Keyed Fallible Transactional MonitorService

variable {may : Right → Prop} {db db' : Db}

/-! ## One number of decimals, in every run -/

/-- The decimals of a listed asset. -/
def listedDecimals (network : Network) (symbol : String) : Nat :=
  (findAsset network symbol).elim 0 (·.decimals)

/-- An invoice over a listed asset. -/
def Invoice.Listed (invoice : Invoice) : Prop :=
  ∃ asset ∈ assetList, asset.network = invoice.network ∧ asset.symbol = invoice.paymentAsset ∧
    asset.decimals = invoice.paymentDecimals

theorem Invoice.Listed.denominated {invoice : Invoice} (h : invoice.Listed) (merchant : Merchant)
    (t : TokenTransfer) : (creditParams invoice merchant t).ref.Denominated listedDecimals := by
  obtain ⟨asset, hasset, hnetwork, hsymbol, hdecimals⟩ := h
  obtain ⟨hcolon, hfound⟩ := assetList_symbols asset hasset
  constructor
  · show ':' ∉ invoice.paymentAsset.toList
    rw [← hsymbol]
    exact hcolon
  · show invoice.paymentDecimals = listedDecimals invoice.network invoice.paymentAsset
    obtain ⟨found, hfind, hsame⟩ := Option.map_eq_some_iff.1 hfound
    rw [← hnetwork, ← hsymbol, ← hdecimals, listedDecimals, hfind]
    exact hsame.symm

/-- The loop over the credits keeps the decimals. -/
theorem creditTransfers_denominated {invoice : Invoice} {merchant : Merchant} {now : Int}
    {l : List TokenTransfer} (hlisted : invoice.Listed)
    (hc : DenominatedAccounts listedDecimals db.ledgerAccounts)
    (h : creditTransfers invoice merchant now db l = .ok db') :
    DenominatedAccounts listedDecimals db'.ledgerAccounts := by
  refine foldlM_invariant (fun x : Db => DenominatedAccounts listedDecimals x.ledgerAccounts) hc
    ?_ h
  intro t _ a b ha hturn
  obtain ⟨⟨db1, result⟩, hpost, hmark⟩ := bind_eq_ok.1 hturn
  have hposted := Denominated.postPaymentCredit ha (hlisted.denominated merchant t) hpost
  dsimp only at hmark
  split at hmark
  · cases hmark
    exact hposted
  · obtain ⟨-, rfl⟩ := Db.markCredited_eq_ok.1 hmark
    exact hposted

/-- What the ledger of a run is kept to. -/
structure Denominations (db : Db) : Prop where
  owed : Owed (fun _ _ _ => True) db
  accounts : DenominatedAccounts listedDecimals db.ledgerAccounts

theorem Effect.denominations (h : Effect may db db') (hd : Denominations db) :
    Denominations db' := by
  refine ⟨(h.owed hd.owed fun _ _ _ _ _ _ => trivial).1, ?_⟩
  rcases h.ledger_or_accepted with ⟨haccounts, -⟩ | ⟨invoice, merchant, target, -, haccept⟩
  · rw [haccounts]
    exact hd.accounts
  · obtain ⟨now, db1, hpaid, hcredits⟩ := haccept.credits
    obtain ⟨f, hf, writes, events, webhooks, -, -, rfl⟩ := hpaid
    have hlisted : invoice.Listed :=
      hd.owed.listed invoice (Table.mem_of_find? haccept.settleable.invoice_found)
    refine creditTransfers_denominated hlisted ?_ hcredits
    exact hd.accounts

/-- **The accounts keep to the decimals of the listed assets**, in every state of every run. -/
theorem denominated {allowed : Operation → Prop} {meets : Transaction → Db → Prop}
    (h : gateway.Reachable allowed meets Db.empty db) : Denominations db := by
  have hkind : ∀ op db, allowed op → ∀ t, Except.ok t ∈ gateway.script op db → True :=
    fun _ _ _ _ _ => trivial
  refine Effects.run_invariant Denominations h hkind ⟨owed_empty, fun a ha => ?_⟩
    fun _ _ _ _ ha hab => hab.denominations ha
  exact absurd ha (Table.not_mem_empty a)

/-! ## The credit loop -/

/-- The merchant of an invoice can be credited. -/
def Creditable (invoice : Invoice) (merchant : Merchant) : Prop :=
  invoice.merchantId ≠ "" ∧ merchant.feeBps < 10000

instance (invoice : Invoice) (merchant : Merchant) : Decidable (Creditable invoice merchant) :=
  instDecidableAnd

section Loop

variable {invoice : Invoice} {merchant : Merchant} {now : Int} {t : TokenTransfer}
  {l : List TokenTransfer}

theorem admissible_creditParams (invoice : Invoice) (merchant : Merchant) (t : TokenTransfer) :
    Admissible (creditParams invoice merchant t) :=
  ⟨t.amount_positive, merchant.fee_bps_sane.1, merchant.fee_bps_sane.2⟩

/-- A transfer in the ledger is passed over. -/
theorem creditTransfer_of_inLedger (h : InLedger db t.key) :
    creditTransfer invoice merchant now db t = .ok db := by
  obtain ⟨db1, result, hpost, -⟩ :=
    credit_repeated (admissible_creditParams invoice merchant t) h
  rcases postPaymentCredit_eq_ok hpost with ⟨-, rfl, hposted⟩ | ⟨_, _, _, hfree, -⟩
  · unfold creditTransfer
    rw [hpost, bind_ok]
    dsimp only
    rw [if_pos hposted]
  · have hnone : db.ledgerTransactions.find? (creditKey t.key) = none := hfree
    rw [InLedger, hnone] at h
    cases h

/-- What is posted anew is posted to a merchant with an id, and leaves it something. -/
theorem creditable_of_posted {params : PostPaymentCreditParams} {result : PostingResult}
    (h : Admissible params) (hpost : postPaymentCredit db params = .ok (db', result))
    (hfree : db.ledgerTransactions.find? params.idempotencyKey = none) :
    params.merchantId ≠ "" ∧ params.feeBps < 10000 := by
  unfold postPaymentCredit at hpost
  rw [h.assertPostable, bind_ok, h.feeAmount, bind_ok, netAmount, bind_ok, hfree] at hpost
  dsimp only at hpost
  obtain ⟨_, -, hpost⟩ := bind_eq_ok.1 hpost
  obtain ⟨_, hpayable, hpost⟩ := bind_eq_ok.1 hpost
  obtain ⟨_, -, hpost⟩ := bind_eq_ok.1 hpost
  obtain ⟨credit, hcredit, -⟩ := bind_eq_ok.1 hpost
  have hnet : credit.amount = netUnits params := (createEntry_eq_ok hcredit).2
  exact ⟨ensureAccount_merchant rfl hpayable, h.net_pos_iff.1 (hnet ▸ credit.amount_positive)⟩

/-- Any other is credited exactly if the merchant can be. -/
theorem creditTransfer_isOk_iff (hlisted : invoice.Listed)
    (hc : DenominatedAccounts listedDecimals db.ledgerAccounts)
    (hrow : (db.transfers.find? t.key).isSome = true) (hfree : ¬InLedger db t.key) :
    (∃ db', creditTransfer invoice merchant now db t = .ok db') ↔ Creditable invoice merchant := by
  have hnone : db.ledgerTransactions.find? (creditParams invoice merchant t).idempotencyKey =
      none := by
    rw [InLedger, Bool.not_eq_true, Option.isSome_eq_false_iff, Option.isNone_iff_eq_none] at hfree
    exact hfree
  have hadmissible := admissible_creditParams invoice merchant t
  constructor
  · rintro ⟨db', hok⟩
    obtain ⟨⟨db1, result⟩, hpost, -⟩ := bind_eq_ok.1 hok
    exact creditable_of_posted hadmissible hpost hnone
  · rintro ⟨hmerchant, hrate⟩
    obtain ⟨db1, result, hpost, -⟩ :=
      credit_posted hc ⟨hmerchant, hlisted.denominated merchant t⟩ hadmissible hrate hnone
    rcases postPaymentCredit_eq_ok hpost with ⟨htaken, -⟩ | ⟨accounts, entries, hb, hk, rfl, -, hnew⟩
    · rw [hnone] at htaken
      cases htaken
    · obtain ⟨row, hrow⟩ := Option.isSome_iff_exists.1 hrow
      unfold creditTransfer
      rw [hpost, bind_ok]
      dsimp only
      rw [hnew, if_neg Bool.false_ne_true]
      exact ⟨_, Db.markCredited_eq_ok.2 ⟨⟨row, hrow⟩, rfl⟩⟩

/-- **When the credits go through.** -/
theorem creditTransfers_isOk_iff (hlisted : invoice.Listed)
    (hc : DenominatedAccounts listedDecimals db.ledgerAccounts)
    (hrows : ∀ t ∈ l, (db.transfers.find? t.key).isSome = true) :
    (∃ db', creditTransfers invoice merchant now db l = .ok db') ↔
      Creditable invoice merchant ∨ ∀ t ∈ l, InLedger db t.key := by
  induction l generalizing db with
  | nil => exact iff_of_true ⟨db, rfl⟩ (.inr fun t ht => absurd ht List.not_mem_nil)
  | cons t l ih =>
    have hrest : ∀ t ∈ l, (db.transfers.find? t.key).isSome = true :=
      fun u hu => hrows u (List.mem_cons_of_mem _ hu)
    have hloop : creditTransfers invoice merchant now db (t :: l) =
        creditTransfer invoice merchant now db t >>=
          fun x => creditTransfers invoice merchant now x l := List.foldlM_cons
    by_cases htaken : InLedger db t.key
    · rw [hloop, creditTransfer_of_inLedger htaken, bind_ok, ih hc hrest]
      simp [htaken]
    have hturn : (∃ db', creditTransfer invoice merchant now db t = .ok db') ↔
        Creditable invoice merchant :=
      creditTransfer_isOk_iff hlisted hc (hrows t List.mem_cons_self) htaken
    have hright : (Creditable invoice merchant ∨ ∀ u ∈ t :: l, InLedger db u.key) ↔
        Creditable invoice merchant := or_iff_left fun hall => htaken (hall t List.mem_cons_self)
    rw [hright]
    constructor
    · rintro ⟨db', hok⟩
      rw [hloop] at hok
      obtain ⟨x, hx, -⟩ := bind_eq_ok.1 hok
      exact hturn.1 ⟨x, hx⟩
    · intro hcreditable
      obtain ⟨x, hx⟩ := hturn.2 hcreditable
      have hrows' : ∀ u ∈ l, (x.transfers.find? u.key).isSome = true := by
        intro u hu
        rcases creditTransfer_eq_ok hx with ⟨-, rfl⟩ | ⟨_, _, _, -, -, -, -, -, -, rfl⟩
        · exact hrest u hu
        · rw [Table.find?_modify_isSome]
          exact hrest u hu
      have hx' : creditTransfers invoice merchant now db [t] = .ok x := by
        show (creditTransfer invoice merchant now db t >>= fun x => pure x) = .ok x
        rw [hx, bind_ok]
        rfl
      rw [hloop, hx, bind_ok]
      exact (ih (creditTransfers_denominated hlisted hc hx') hrows').2 (.inl hcreditable)

/-! ## Settlements -/

variable {target : InvoiceStatus}

/-- Landing on PAID goes through, from a status that a settlement has just written. -/
theorem acceptPayment_isOk {stored : Invoice} (hn : Numbered db)
    (hfind : db.invoices.find? invoice.id = some stored) (hstatus : stored.status = target)
    (htarget : target = .paid ∨ target = .underpaid ∨ target = .overpaid) (now : Int) :
    ∃ db', acceptPayment db invoice target now = .ok db' := by
  have hid : stored.id = invoice.id := Table.key_of_find? hfind
  rw [← hid] at hfind
  unfold acceptPayment
  rw [← hid, ← hstatus]
  split
  · next hne =>
    have hallowed : isActorAllowed stored.status .paid .monitor = true := by
      rcases htarget with htarget | htarget | htarget <;> rw [hstatus, htarget]
      · exact absurd (hstatus.trans htarget) hne
      · decide
      · decide
    obtain ⟨events, hmove⟩ := applyTransition_isOk hn hfind hallowed { paidAt := some now }
      ⟨"payment.paid", "monitor", [("acceptedVia", acceptedVia stored.status)]⟩
    rw [hmove, bind_ok]
    exact emitWebhook_isOk (Db.find?_withStatus_self hfind) _
  · exact updateInvoice_isOk hfind

/-- **When a settlement goes through.** -/
theorem settleInvoice_isOk_iff (hn : Numbered db) (hlisted : invoice.Listed)
    (hc : DenominatedAccounts listedDecimals db.ledgerAccounts)
    (hfind : db.invoices.find? invoice.id = some invoice)
    (htarget : target = .paid ∨ target = .underpaid ∨ target = .overpaid)
    (hallowed : isActorAllowed invoice.status target .monitor = true) :
    (∃ db', settleInvoice db invoice merchant target now = .ok db') ↔
      autoAccept merchant target = false ∨ Creditable invoice merchant ∨
        ∀ t ∈ countedTransfers db invoice, InLedger db t.key := by
  obtain ⟨events, hmove⟩ := applyTransition_isOk hn hfind hallowed (settleData db invoice)
    ⟨"payment." ++ toLowerCase target.name, "monitor", []⟩
  obtain ⟨-, stored, events', hstored, hreported, hsame⟩ := Db.applyTransition_eq_ok hmove
  obtain rfl : stored = invoice := Option.some.inj (hstored.symm.trans hfind)
  obtain rfl : events = events' := congrArg Db.events hsame
  have hmoved : (db.withStatus stored target .monitor (settleData db stored) events
      db.webhookEvents).invoices.find? stored.id = some _ := Db.find?_withStatus_self hfind
  obtain ⟨x, hemit⟩ := emitWebhook_isOk hmoved target
  obtain ⟨webhooks, hemitted, rfl⟩ := Db.emitWebhook_withStatus hemit
  have hsettle : settleInvoice db stored merchant target now =
      if !autoAccept merchant target then
        .ok (db.withStatus stored target .monitor (settleData db stored) events webhooks)
      else (do
        let db1 ← acceptPayment (db.withStatus stored target .monitor (settleData db stored) events
          webhooks) stored target now
        creditTransfers stored merchant now db1 (countedTransfers db stored)) := by
    unfold settleInvoice
    dsimp only [settleData] at hmove hemit ⊢
    rw [hmove, bind_ok, hemit, bind_ok]
  rw [hsettle]
  cases hauto : autoAccept merchant target with
  | false => exact iff_of_true ⟨_, rfl⟩ (.inl rfl)
  | true =>
    have hwritten : Numbered (db.withStatus stored target .monitor (settleData db stored) events
        webhooks) := (hn.reported hfind hreported).withStatus
    have hrow : (db.withStatus stored target .monitor (settleData db stored) events
        webhooks).invoices.find? stored.id = some _ := Db.find?_withStatus_self hfind
    have hstatus : (stored.update { settleData db stored with status := some target }).status =
        target := rfl
    obtain ⟨db1, haccept⟩ := acceptPayment_isOk hwritten hrow hstatus htarget now
    obtain ⟨f, hf, writes, events', webhooks', -, -, rfl⟩ := acceptPayment_eq_ok hfind hallowed rfl
      (.single hreported hemitted) haccept
    have hrows : ∀ t ∈ countedTransfers db stored, (db.transfers.find? t.key).isSome = true := by
      intro t ht
      have hmem := (mem_confirmed_iff.1 (mem_counted_iff.1 ht).1).1
      rw [Table.find?_of_mem hmem]
      rfl
    rw [Bool.not_true, if_neg Bool.false_ne_true, haccept, bind_ok]
    simp only [Bool.true_eq_false, false_or]
    exact creditTransfers_isOk_iff hlisted hc hrows

end Loop

end PaymentGateway
