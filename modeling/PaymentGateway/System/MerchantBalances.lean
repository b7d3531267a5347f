import PaymentGateway.Api.Balance
import PaymentGateway.Ledger.Payable
import PaymentGateway.Shared.Units
import PaymentGateway.System.Settlement

/-!
# What a merchant is shown is what was credited

**Theorem (`balances_owed`).** In every run, at whatever two of its states the two queries of
`getBalances` find the database, the answer has one entry for each asset in which the merchant had
been credited anything at the first, and the amount in it is, at the second, the sum of the
credited transfers of the merchant's invoices in that asset, less their fees. The fee of a transfer
is the rate the merchant's row had in the very state in which the credit was posted, rounded down.

`Owed` is the invariant behind it. A posting belongs to an invoice and splits its gross amount
between revenue and the payable account of the invoice's merchant and asset (`Owes`), and there is
no liability account without a posting. The rate is a parameter of the invariant: a predicate on
the key of the posting, the merchant and the rate, which `RateIn` instantiates with what the run has
been through. The sum over the postings becomes a sum over the transfers because `CreditsAgree`
pairs them by their keys.
-/

namespace PaymentGateway

open Keyed Fallible Transactional MonitorService BalanceService

variable {may : Right → Prop} {rate : String → String → Int → Prop} {db db' : Db}

/-! ## The invariant -/

/-- Every posting is the credit of an invoice's merchant in the invoice's asset, and every
liability account has one. -/
structure Owed (rate : String → String → Int → Prop) (db : Db) : Prop where
  charted : Charted db.ledgerAccounts
  listed : ∀ i ∈ db.invoices, ∃ asset ∈ assetList, asset.network = i.network ∧
    asset.symbol = i.paymentAsset ∧ asset.decimals = i.paymentDecimals
  posted : ∀ p ∈ db.ledgerTransactions, ∃ i ∈ db.invoices, p.invoiceId = some i.id ∧
    ∃ bps, rate p.idempotencyKey i.merchantId bps ∧
      Owes db.ledgerAccounts i.merchantId i.network i.paymentAsset i.paymentDecimals bps p
  payable : ∀ a ∈ db.ledgerAccounts, a.type = .liability →
    ∃ p ∈ db.ledgerTransactions, ∃ i ∈ db.invoices, p.invoiceId = some i.id ∧
      i.merchantId ≠ "" ∧
      IsPayable i.merchantId i.network i.paymentAsset i.paymentDecimals a

theorem owed_empty : Owed rate Db.empty :=
  ⟨fun a ha => absurd ha (Table.not_mem_empty a), fun i hi => absurd hi (Table.not_mem_empty i),
    fun p hp => absurd hp (Table.not_mem_empty p), fun a ha => absurd ha (Table.not_mem_empty a)⟩

theorem Owed.mono {rate' : String → String → Int → Prop} (h : Owed rate db)
    (hrate : ∀ p ∈ db.ledgerTransactions, ∀ m bps, rate p.idempotencyKey m bps →
      rate' p.idempotencyKey m bps) : Owed rate' db := by
  refine ⟨h.charted, h.listed, fun p hp => ?_, h.payable⟩
  obtain ⟨i, hi, hinvoice, bps, hbps, howes⟩ := h.posted p hp
  exact ⟨i, hi, hinvoice, bps, hrate p hp _ _ hbps, howes⟩

/-- The invoices of one database are in another, with their terms. -/
def TermsKept (db db' : Db) : Prop :=
  ∀ i ∈ db.invoices, ∃ i' ∈ db'.invoices, i'.terms = i.terms

/-- The ledger stays, the invoices keep their terms, and new ones are over listed assets. -/
theorem Owed.aside (h : Owed rate db) (hterms : TermsKept db db')
    (haccounts : db'.ledgerAccounts = db.ledgerAccounts)
    (hledger : db'.ledgerTransactions = db.ledgerTransactions)
    (hlisted : ∀ i ∈ db'.invoices, ∃ asset ∈ assetList, asset.network = i.network ∧
      asset.symbol = i.paymentAsset ∧ asset.decimals = i.paymentDecimals) : Owed rate db' := by
  refine ⟨haccounts ▸ h.charted, hlisted, fun p hp => ?_, fun a ha htype => ?_⟩
  · rw [hledger] at hp
    obtain ⟨i, hi, hinvoice, bps, hbps, howes⟩ := h.posted p hp
    obtain ⟨i', hi', heq⟩ := hterms i hi
    refine ⟨i', hi', hinvoice.trans (congrArg some (congrArg Invoice.Terms.id heq).symm), bps, ?_,
      ?_⟩
    · rw [show i'.merchantId = i.merchantId from congrArg Invoice.Terms.merchantId heq]
      exact hbps
    · rw [haccounts, show i'.merchantId = i.merchantId from congrArg Invoice.Terms.merchantId heq,
        show i'.network = i.network from congrArg Invoice.Terms.network heq,
        show i'.paymentAsset = i.paymentAsset from congrArg Invoice.Terms.paymentAsset heq,
        show i'.paymentDecimals = i.paymentDecimals from
          congrArg Invoice.Terms.paymentDecimals heq]
      exact howes
  · rw [haccounts] at ha
    obtain ⟨p, hp, i, hi, hinvoice, hnonempty, hpayable⟩ := h.payable a ha htype
    obtain ⟨i', hi', heq⟩ := hterms i hi
    refine ⟨p, hledger ▸ hp, i', hi',
      hinvoice.trans (congrArg some (congrArg Invoice.Terms.id heq).symm), ?_, ?_⟩
    · rw [show i'.merchantId = i.merchantId from congrArg Invoice.Terms.merchantId heq]
      exact hnonempty
    · rw [show i'.merchantId = i.merchantId from congrArg Invoice.Terms.merchantId heq,
        show i'.network = i.network from congrArg Invoice.Terms.network heq,
        show i'.paymentAsset = i.paymentAsset from congrArg Invoice.Terms.paymentAsset heq,
        show i'.paymentDecimals = i.paymentDecimals from
          congrArg Invoice.Terms.paymentDecimals heq]
      exact hpayable

/-! ## The credit loop -/

/-- Accounts and postings are only added. -/
structure LedgerGrows (db db' : Db) : Prop where
  accounts : ∀ a ∈ db.ledgerAccounts, a ∈ db'.ledgerAccounts
  postings : ∀ p ∈ db.ledgerTransactions, p ∈ db'.ledgerTransactions

theorem LedgerGrows.refl (db : Db) : LedgerGrows db db := ⟨fun _ ha => ha, fun _ hp => hp⟩

theorem LedgerGrows.trans {db'' : Db} (h : LedgerGrows db db') (h' : LedgerGrows db' db'') :
    LedgerGrows db db'' :=
  ⟨fun a ha => h'.accounts a (h.accounts a ha), fun p hp => h'.postings p (h.postings p hp)⟩

theorem LedgerGrows.fresh (h : LedgerGrows db db') {key : String}
    (hnone : db'.ledgerTransactions.find? key = none) :
    db.ledgerTransactions.find? key = none :=
  Table.find?_eq_none.2 fun p hp => Table.find?_eq_none.1 hnone p (h.postings p hp)

/-- One turn of the loop, for an invoice that is stored. -/
theorem Owed.creditTransfer (h : Owed rate db) {invoice stored : Invoice} {merchant : Merchant}
    {now : Int} {t : TokenTransfer} (hstored : stored ∈ db.invoices)
    (hterms : stored.terms = invoice.terms)
    (hrate : db.ledgerTransactions.find? (creditKey t.key) = none →
      rate (creditKey t.key) invoice.merchantId merchant.feeBps)
    (hturn : creditTransfer invoice merchant now db t = .ok db') :
    Owed rate db' ∧ db'.invoices = db.invoices ∧ LedgerGrows db db' := by
  obtain ⟨⟨db1, result⟩, hpost, hmark⟩ := bind_eq_ok.1 hturn
  have hmarked : ∃ transfers, db' = { db1 with transfers := transfers } := by
    dsimp only at hmark
    split at hmark
    · cases hmark
      exact ⟨_, rfl⟩
    · obtain ⟨-, rfl⟩ := Db.markCredited_eq_ok.1 hmark
      exact ⟨_, rfl⟩
  obtain ⟨transfers, rfl⟩ := hmarked
  have hid : stored.id = invoice.id := congrArg Invoice.Terms.id hterms
  have hmerchant : stored.merchantId = invoice.merchantId :=
    congrArg Invoice.Terms.merchantId hterms
  have hnetwork : stored.network = invoice.network := congrArg Invoice.Terms.network hterms
  have hsymbol : stored.paymentAsset = invoice.paymentAsset :=
    congrArg Invoice.Terms.paymentAsset hterms
  have hdecimals : stored.paymentDecimals = invoice.paymentDecimals :=
    congrArg Invoice.Terms.paymentDecimals hterms
  rcases postPaymentCredit_owes h.charted hpost with
    ⟨-, rfl⟩ | ⟨accounts, entries, hb, hk, rfl, hcharted, hsub, hnew, howes⟩
  · exact ⟨⟨h.charted, h.listed, h.posted, h.payable⟩, rfl, fun a ha => ha, fun p hp => hp⟩
  · have hmem : ∀ p, p ∈ db.ledgerTransactions → p ∈ db.ledgerTransactions.insert
        (creditPosting (creditParams invoice merchant t) entries hb) hk := fun p hp =>
      Table.mem_insert.2 (.inl hp)
    refine ⟨⟨hcharted, h.listed, fun p hp => ?_, fun a ha htype => ?_⟩, rfl, hsub, hmem⟩
    · have hp' : p ∈ db.ledgerTransactions.insert
        (creditPosting (creditParams invoice merchant t) entries hb) hk := hp
      rcases Table.mem_insert.1 hp' with hp | rfl
      · obtain ⟨i, hi, hinvoice, bps, hbps, howes⟩ := h.posted p hp
        exact ⟨i, hi, hinvoice, bps, hbps, howes.mono hsub⟩
      · refine ⟨stored, hstored, congrArg some hid.symm, merchant.feeBps, ?_, ?_⟩
        · rw [hmerchant]
          exact hrate hk
        · rw [hmerchant, hnetwork, hsymbol, hdecimals]
          exact howes
    · rcases hnew a ha htype with hold | hpayable
      · obtain ⟨p, hp, i, hi, hrest⟩ := h.payable a hold htype
        exact ⟨p, hmem p hp, i, hi, hrest⟩
      · refine ⟨_, (Table.mem_insert (h := hk)).2 (.inr rfl), stored, hstored, congrArg some hid.symm, ?_, ?_⟩
        · rw [hmerchant]
          exact howes.1
        · rw [hmerchant, hnetwork, hsymbol, hdecimals]
          exact hpayable

theorem Owed.creditTransfers (h : Owed rate db) {invoice stored : Invoice} {merchant : Merchant}
    {now : Int} {l : List TokenTransfer} (hstored : stored ∈ db.invoices)
    (hterms : stored.terms = invoice.terms)
    (hrate : ∀ key, db.ledgerTransactions.find? key = none →
      rate key invoice.merchantId merchant.feeBps)
    (hloop : creditTransfers invoice merchant now db l = .ok db') :
    Owed rate db' ∧ LedgerGrows db db' := by
  have hinv := foldlM_invariant
    (fun x => (Owed rate x ∧ LedgerGrows db x) ∧ stored ∈ x.invoices)
    ⟨⟨h, .refl db⟩, hstored⟩ ?_ hloop
  · exact hinv.1
  · rintro t - a b ⟨⟨ha, hgrows⟩, hmem⟩ hturn
    obtain ⟨hb, hinvoices, hturned⟩ := ha.creditTransfer hmem hterms
      (fun hnone => hrate _ (hgrows.fresh hnone)) hturn
    exact ⟨⟨hb, hgrows.trans hturned⟩, hinvoices ▸ hmem⟩

/-! ## Effects -/

theorem Effect.ledger_or_accepted (h : Effect may db db') :
    (db'.ledgerAccounts = db.ledgerAccounts ∧
      db'.ledgerTransactions = db.ledgerTransactions) ∨
    ∃ invoice merchant target, may .accept ∧ Accepted db db' invoice merchant target := by
  cases h with
  | accept hmay h => exact .inr ⟨_, _, _, hmay, h⟩
  | record =>
    obtain ⟨transfers, hupsert⟩ := Db.upsertTransfer_eq db _
    rw [hupsert]
    exact .inl ⟨rfl, rfl⟩
  | recordMove =>
    obtain ⟨transfers, hupsert⟩ := Db.upsertTransfer_eq db _
    rw [hupsert]
    exact .inl ⟨rfl, rfl⟩
  | _ => exact .inl ⟨rfl, rfl⟩

theorem Effect.termsKept (h : Effect may db db') : TermsKept db db' := by
  intro i hi
  obtain ⟨i', hfind, hterms⟩ :=
    Effects.terms (Relation.ReflTransGen.single h) (Table.find?_of_mem hi)
  exact ⟨i', Table.mem_of_find? hfind, hterms⟩

/-- An invoice that an effect adds is over a listed asset. -/
theorem Effect.created (h : Effect may db db') {invoice : Invoice}
    (hnew : invoice ∈ db'.invoices) (hnone : db.invoices.find? invoice.id = none) :
    ∃ asset ∈ assetList, asset.network = invoice.network ∧
      asset.symbol = invoice.paymentAsset ∧ asset.decimals = invoice.paymentDecimals := by
  have hfound := Table.find?_of_mem hnew
  -- Who writes a status, and what is said about it, does not matter to the invoices.
  have hwritten : ∀ stored target data,
      (db.withStatus stored target .system data db.events db.webhookEvents).invoices.find?
        invoice.id = none := by
    intro stored target data
    rw [Db.find?_withStatus, hnone, Option.map_none]
  cases h with
  | @create _ created address asset now events webhooks hfree _ _ hasset =>
    have hmem : invoice ∈ db.invoices.insert created hfree := hnew
    rcases Table.mem_insert.1 hmem with hold | rfl
    · rw [Table.find?_of_mem hold] at hnone
      cases hnone
    · exact ⟨asset, hasset.1, hasset.2.1, hasset.2.2.1.symm, hasset.2.2.2.1.symm⟩
  | @accept _ accepted merchant target _ h =>
    obtain ⟨-, hothers⟩ := h.find?
    have hne : invoice.id ≠ accepted.id := by
      intro hid
      rw [hid, h.settleable.invoice_found] at hnone
      cases hnone
    rw [hothers _ hne, hnone] at hfound
    cases hfound
  | record =>
    obtain ⟨transfers, hupsert⟩ := Db.upsertTransfer_eq db _
    rw [hupsert] at hfound
    exact absurd (hnone.symm.trans hfound) (by simp)
  | @recordMove _ _ _ moved target data =>
    obtain ⟨transfers, hupsert⟩ := Db.upsertTransfer_eq db _
    rw [hupsert] at hfound
    exact absurd ((hwritten moved target data).symm.trans hfound) (by simp)
  -- The status writes change a row in place, the others leave the invoices alone.
  | confirming | settle | revert | flag | expire | cancel | edge =>
    exact absurd ((hwritten _ _ _).symm.trans hfound) (by simp)
  | _ => exact absurd (hnone.symm.trans hfound) (by simp)

theorem Owed.listed_effect (h : Owed rate db) (heffect : Effect may db db') :
    ∀ i ∈ db'.invoices, ∃ asset ∈ assetList, asset.network = i.network ∧
      asset.symbol = i.paymentAsset ∧ asset.decimals = i.paymentDecimals := by
  intro i hi
  cases hold : db.invoices.find? i.id with
  | none => exact heffect.created hi hold
  | some i0 =>
    have hstep := heffect.invoiceStep i.id
    rw [hold, Table.find?_of_mem hi] at hstep
    obtain ⟨i', hi', hterms⟩ := hstep.terms
    cases hi'
    obtain ⟨asset, hasset, hnetwork, hsymbol, hdecimals⟩ := h.listed i0 (Table.mem_of_find? hold)
    exact ⟨asset, hasset, hnetwork.trans (congrArg Invoice.Terms.network hterms).symm,
      hsymbol.trans (congrArg Invoice.Terms.paymentAsset hterms).symm,
      hdecimals.trans (congrArg Invoice.Terms.paymentDecimals hterms).symm⟩

theorem Owed.accepted (h : Owed rate db) {invoice : Invoice} {merchant : Merchant}
    {target : InvoiceStatus} (haccept : Accepted db db' invoice merchant target)
    (hrate : ∀ key, db.ledgerTransactions.find? key = none →
      rate key invoice.merchantId merchant.feeBps) : Owed rate db' ∧ LedgerGrows db db' := by
  obtain ⟨now, db1, hpaid, hcredits⟩ := haccept.credits
  obtain ⟨f, hf, writes, events, webhooks, hrow, -, rfl⟩ := hpaid
  have hfound := haccept.settleable.invoice_found
  have hmem : ∀ i, i ∈ db.invoices.modify invoice.id f hf ↔
      i = f invoice ∨ (i ∈ db.invoices ∧ i.id ≠ invoice.id) :=
    fun i => Table.mem_modify_of_find? hfound
  have hterms : TermsKept db { db with
      invoices := db.invoices.modify invoice.id f hf
      statusWrites := db.statusWrites ++ writes
      events := events
      webhookEvents := webhooks } := by
    intro i hi
    by_cases hid : i.id = invoice.id
    · have hsame : i = invoice := Table.eq_of_key_eq hi (Table.mem_of_find? hfound) hid
      exact ⟨f invoice, (hmem _).2 (.inl rfl), by rw [hsame, (hrow invoice).1]⟩
    · exact ⟨i, (hmem i).2 (.inr ⟨hi, hid⟩), rfl⟩
  have haside := h.aside hterms rfl rfl ?_
  · obtain ⟨howed, hgrows⟩ :=
      haside.creditTransfers ((hmem _).2 (.inl rfl)) (hrow invoice).1 hrate hcredits
    exact ⟨howed, hgrows.accounts, hgrows.postings⟩
  · intro i hi
    rcases (hmem i).1 hi with rfl | ⟨hi, -⟩
    · obtain ⟨asset, hasset, hnetwork, hsymbol, hdecimals⟩ :=
        h.listed invoice (Table.mem_of_find? hfound)
      have hterms := (hrow invoice).1
      exact ⟨asset, hasset, hnetwork.trans (congrArg Invoice.Terms.network hterms).symm,
        hsymbol.trans (congrArg Invoice.Terms.paymentAsset hterms).symm,
        hdecimals.trans (congrArg Invoice.Terms.paymentDecimals hterms).symm⟩
    · exact h.listed i hi

/-- **Every effect keeps the invariant**, when an accepted payment is credited at a rate that the
invariant admits for a free key. -/
theorem Effect.owed (h : Effect may db db') (ho : Owed rate db)
    (hrate : may .accept → ∀ key m row, db.merchants.find? m = some row →
      db.ledgerTransactions.find? key = none → rate key m row.feeBps) :
    Owed rate db' ∧ LedgerGrows db db' := by
  rcases h.ledger_or_accepted with
    ⟨haccounts, hledger⟩ | ⟨invoice, merchant, target, hmay, haccept⟩
  · refine ⟨ho.aside h.termsKept haccounts hledger (ho.listed_effect h), ?_⟩
    exact ⟨fun a ha => haccounts ▸ ha, fun p hp => hledger ▸ hp⟩
  · exact ho.accepted haccept fun key => hrate hmay key _ _ haccept.settleable.merchant_found

theorem Effect.merchants_eq (h : Effect may db db') (hnot : ¬ may .configure) :
    db'.merchants = db.merchants := by
  cases h with
  | merchants hmay => exact absurd hmay hnot
  | accept _ h =>
    obtain ⟨now, db1, hpaid, hcredits⟩ := h.credits
    obtain ⟨_, _, _, _, _, _, _, _, -, -, rfl⟩ := accept_frame hpaid hcredits
    rfl
  | record =>
    obtain ⟨transfers, hupsert⟩ := Db.upsertTransfer_eq db _
    rw [hupsert]
  | recordMove =>
    obtain ⟨transfers, hupsert⟩ := Db.upsertTransfer_eq db _
    rw [hupsert]
    rfl
  | _ => rfl

/-- What settles invoices does not touch the merchants. -/
theorem Transaction.accept_configure {t : Transaction} (h : t.rights .accept) :
    ¬ t.rights .configure := by
  cases t <;> simp [Transaction.rights] at h ⊢

/-! ## Runs -/

/-- The rate of a posting in a run, newest state first: the merchant's rate in the state in which
the key was free, before the one in which it is taken. -/
def RateIn (states : List Db) (key merchantId : String) (bps : Int) : Prop :=
  ∃ newer after before older, states = newer ++ after :: before :: older ∧
    before.ledgerTransactions.find? key = none ∧
    (after.ledgerTransactions.find? key).isSome = true ∧
    ∃ merchant, before.merchants.find? merchantId = some merchant ∧ merchant.feeBps = bps

theorem RateIn.cons {states : List Db} {key merchantId : String} {bps : Int}
    (h : RateIn states key merchantId bps) (s : Db) : RateIn (s :: states) key merchantId bps := by
  obtain ⟨newer, after, before, older, rfl, hrest⟩ := h
  exact ⟨s :: newer, after, before, older, rfl, hrest⟩

/-- What a transaction posts, it posts at the rates of the state it begins in. -/
theorem Transaction.owed {t : Transaction} {s s' : Db} {past : List Db}
    (h : Owed (RateIn (s :: past)) s) (hok : t.apply s = .ok s') :
    Owed (RateIn (s' :: s :: past)) s' ∧ LedgerGrows s s' := by
  have hinv := (Transaction.effects hok).invariant
    (fun x => (Owed (fun key m bps => RateIn (s :: past) key m bps ∨
        s.ledgerTransactions.find? key = none ∧
          ∃ merchant, s.merchants.find? m = some merchant ∧ merchant.feeBps = bps) x ∧
      LedgerGrows s x) ∧ (t.rights .accept → x.merchants = s.merchants))
    ⟨⟨h.mono fun _ _ _ _ hold => .inl hold, .refl s⟩, fun _ => rfl⟩ ?_
  · obtain ⟨⟨howed, hgrows⟩, -⟩ := hinv
    refine ⟨howed.mono fun p hp m bps hbps => ?_, hgrows⟩
    rcases hbps with hold | ⟨hfree, hmerchant⟩
    · exact hold.cons s'
    · refine ⟨[], s', s, past, rfl, hfree, ?_, hmerchant⟩
      rw [Table.find?_of_mem hp]
      rfl
  · rintro a b ⟨⟨ha, hgrows⟩, hmerchants⟩ hab
    obtain ⟨hb, hgrows'⟩ := hab.owed ha fun haccept key m row hrow hnone =>
      .inr ⟨hgrows.fresh hnone, row, by rw [← hmerchants haccept, hrow], rfl⟩
    refine ⟨⟨hb, hgrows.trans hgrows'⟩, fun haccept => ?_⟩
    rw [hab.merchants_eq (Transaction.accept_configure haccept), hmerchants haccept]

/-- The invariant along a run: it holds in the newest state with the rates of the run, in every
state with some rates, and the ledger has only grown. -/
structure OwedAlong (states : List Db) : Prop where
  newest : ∀ s ∈ states.head?, Owed (RateIn states) s ∧ ∀ x ∈ states, LedgerGrows x s
  every : ∀ x ∈ states, Owed (fun _ _ _ => True) x

theorem owedAlong {states : List Db} {rest : List (Except Error Transaction)}
    (h : gateway.History (fun _ => True) (fun _ _ => True) Db.empty states rest) :
    OwedAlong states := by
  have hkind : ∀ op s, True → ∀ t, Except.ok t ∈ gateway.script op s → True :=
    fun _ _ _ _ _ => trivial
  refine Machine.History.induction OwedAlong h hkind ?_ ?_
  · refine ⟨fun s hs => ?_, fun x hx => ?_⟩
    · cases hs
      exact ⟨owed_empty, fun x hx => by rw [List.mem_singleton.1 hx]; exact .refl _⟩
    · rw [List.mem_singleton.1 hx]
      exact owed_empty
  · intro t s s' past _ ih _ hok
    obtain ⟨hs, hgrown⟩ := ih.newest s rfl
    obtain ⟨hs', hgrows⟩ := Transaction.owed hs hok
    refine ⟨fun y hy => ?_, fun x hx => ?_⟩
    · cases hy
      refine ⟨hs', fun x hx => ?_⟩
      rcases List.mem_cons.1 hx with rfl | hx
      · exact .refl _
      · exact (hgrown x hx).trans hgrows
    · rcases List.mem_cons.1 hx with rfl | hx
      · exact hs'.mono fun _ _ _ _ _ => trivial
      · exact ih.every x hx

/-! ## Postings and transfers -/

/-- The transfer or the posting belongs to an invoice of the merchant over the asset. -/
def isFor (db : Db) (merchantId : String) (asset : AssetConfig) (invoiceId : Option String) :
    Bool :=
  (invoiceId.bind db.invoices.find?).any fun i =>
    i.merchantId = merchantId ∧ i.network = asset.network ∧ i.paymentAsset = asset.symbol

/-- The credited transfers of the merchant's invoices over the asset. -/
def creditedTo (db : Db) (merchantId : String) (asset : AssetConfig) : List TokenTransfer :=
  db.transfers.rows.filter fun t => t.creditedAt.isSome && isFor db merchantId asset t.invoiceId

/-- The fee that was booked for a transfer. -/
def feeOf (db : Db) (t : TokenTransfer) : Int :=
  (db.ledgerTransactions.find? (creditKey t.key)).elim 0 (bookedFee db.ledgerAccounts)

/-- What the merchant is owed in the asset: the credited transfers less their fees. -/
def owedIn (db : Db) (merchantId : String) (asset : AssetConfig) : Int :=
  ((creditedTo db merchantId asset).map fun t => t.amount - feeOf db t).sum

/-- A listed asset is determined by its network and symbol. -/
theorem assetList_unique : ∀ a ∈ assetList, ∀ b ∈ assetList,
    a.network = b.network → a.symbol = b.symbol → a = b := by decide +kernel

/-- Every listed asset has decimals that amounts can be written with. -/
theorem assetList_decimals : ∀ a ∈ assetList, assertDecimals a.decimals = .ok () := by
  decide +kernel

theorem CreditsAgree.posting_eq (hc : CreditsAgree db) {t : TokenTransfer}
    (ht : t ∈ db.transfers) (hcredited : t.creditedAt.isSome = true) :
    ∃ p ∈ db.ledgerTransactions, db.ledgerTransactions.find? (creditKey t.key) = some p ∧
      CreditOf p t := by
  obtain ⟨p, hp, hcredit⟩ := hc.posting ht hcredited
  exact ⟨p, hp, hcredit.key ▸ Table.find?_of_mem hp, hcredit⟩

theorem sum_map_filter {α : Type} (p : α → Bool) (f : α → Int) (l : List α) :
    ((l.filter p).map f).sum = (l.map fun a => if p a then f a else 0).sum := by
  induction l with
  | nil => rfl
  | cons a l ih => cases ha : p a <;> simp [ha, ih]

/-- The postings, summed by their keys, are the credited transfers summed by theirs. -/
theorem CreditsAgree.sum_postings (hc : CreditsAgree db) (f : LedgerTransaction → Int) :
    (db.ledgerTransactions.rows.map f).sum =
      ((db.transfers.rows.filter fun t => t.creditedAt.isSome).map fun t =>
        (db.ledgerTransactions.find? (creditKey t.key)).elim 0 f).sum := by
  have hkeys : (db.ledgerTransactions.rows.map (·.idempotencyKey)).Perm
      ((db.transfers.rows.filter fun t => t.creditedAt.isSome).map fun t => creditKey t.key) := by
    refine (List.perm_ext_iff_of_nodup db.ledgerTransactions.nodup ?_).2 fun k => ?_
    · have hnodup := List.Nodup.sublist ((List.filter_sublist (p := fun t : TokenTransfer =>
        t.creditedAt.isSome)).map (·.key)) db.transfers.nodup
      have hcredits := hnodup.map (f := creditKey) fun k k' => creditKey_injective
      rwa [List.map_map] at hcredits
    · simp only [List.mem_map, List.mem_filter]
      constructor
      · rintro ⟨p, hp, rfl⟩
        obtain ⟨t, ht, hcredited, -, hcredit⟩ := hc.origin p hp
        exact ⟨t, ⟨ht, hcredited⟩, hcredit.key.symm⟩
      · rintro ⟨t, ⟨ht, hcredited⟩, rfl⟩
        obtain ⟨p, hp, -, hcredit⟩ := hc.posting_eq ht hcredited
        exact ⟨p, hp, hcredit.key⟩
  have hrows : db.ledgerTransactions.rows.map f =
      (db.ledgerTransactions.rows.map (·.idempotencyKey)).map fun k =>
        (db.ledgerTransactions.find? k).elim 0 f := by
    rw [List.map_map]
    refine List.map_congr_left fun p hp => ?_
    show f p = (db.ledgerTransactions.find? p.idempotencyKey).elim 0 f
    rw [Table.find?_of_mem hp]
    rfl
  rw [hrows, (hkeys.map _).sum_eq, List.map_map]
  rfl

/-- A posting belongs to the asset of exactly the payable account it credits. -/
theorem Owed.isPayable_iff (h : Owed rate db) {asset : AssetConfig} (hasset : asset ∈ assetList)
    {merchantId : String} {a : LedgerAccount}
    (ha : IsPayable merchantId asset.network asset.symbol asset.decimals a) {i : Invoice}
    (hi : i ∈ db.invoices) :
    IsPayable i.merchantId i.network i.paymentAsset i.paymentDecimals a ↔
      isFor db merchantId asset (some i.id) = true := by
  obtain ⟨listed, hlisted, hnetwork, hsymbol, hdecimals⟩ := h.listed i hi
  have hfor : isFor db merchantId asset (some i.id) = true ↔ i.merchantId = merchantId ∧
      i.network = asset.network ∧ i.paymentAsset = asset.symbol := by
    simp [isFor, Table.find?_of_mem hi]
  rw [hfor]
  constructor
  · intro hi
    refine ⟨?_, ?_, hi.symbol_eq.symm.trans ha.symbol_eq⟩
    · exact Option.some.inj (hi.merchant_eq.symm.trans ha.merchant_eq)
    · exact Option.some.inj (hi.network_eq.symm.trans ha.network_eq)
  · rintro ⟨hm, hn, hs⟩
    have hsame : listed = asset := assetList_unique listed hlisted asset hasset
      (hnetwork.trans hn) (hsymbol.trans hs)
    rw [hm, hn, hs, ← hdecimals, hsame]
    exact ha

/-- The balance of a payable account is what its merchant is owed. -/
theorem Owed.balance (h : Owed rate db) (hc : CreditsAgree db) {asset : AssetConfig}
    (hasset : asset ∈ assetList) {merchantId : String} {a : LedgerAccount}
    (hmem : a ∈ db.ledgerAccounts)
    (ha : IsPayable merchantId asset.network asset.symbol asset.decimals a) :
    db.balanceOf a.code = owedIn db merchantId asset := by
  have hnet : ∀ p ∈ db.ledgerTransactions.rows, -DoubleEntry.net p.legs a.code =
      if isFor db merchantId asset p.invoiceId then
        p.grossAmount - bookedFee db.ledgerAccounts p
      else 0 := by
    intro p hp
    obtain ⟨i, hi, hinvoice, bps, -, howes⟩ := h.posted p hp
    have hiff := h.isPayable_iff hasset ha hi
    rw [howes.net_liability h.charted hmem ha.type_eq, hinvoice]
    by_cases hfor : isFor db merchantId asset (some i.id) = true
    · rw [if_pos (hiff.2 hfor), if_pos hfor, neg_neg]
    · rw [if_neg fun hp => hfor (hiff.1 hp), if_neg hfor, neg_zero]
  have hneg : ∀ l : List Int, -l.sum = (l.map Neg.neg).sum := by
    intro l
    induction l with
    | nil => rfl
    | cons x l ih => rw [List.sum_cons, neg_add, ih, List.map_cons, List.sum_cons]
  have hcalc : db.balanceOf a.code = (db.ledgerTransactions.rows.map fun p =>
      if isFor db merchantId asset p.invoiceId then
        p.grossAmount - bookedFee db.ledgerAccounts p
      else 0).sum := by
    rw [balanceOf_eq (Table.find?_of_mem hmem), ha.type_eq]
    show -DoubleEntry.netOn (· = a.code) db.postings.flatten = _
    rw [DoubleEntry.netOn_sum, hneg, Db.postings, List.map_map, List.map_map]
    congr 1
    exact List.map_congr_left hnet
  rw [hcalc, hc.sum_postings, owedIn, creditedTo, sum_map_filter]
  rw [sum_map_filter]
  congr 1
  refine List.map_congr_left fun t ht => ?_
  cases hcredited : t.creditedAt.isSome with
  | false => simp
  | true =>
    obtain ⟨p, -, hfind, hcredit⟩ := hc.posting_eq ht hcredited
    simp only [hfind, Option.elim_some, feeOf, hcredit.invoice, hcredit.gross, Bool.true_and,
      if_true]

/-! ## The answer -/

/-- The asset passes the filters. -/
def Asked (network : Option Network) (symbol : Option String) (asset : AssetConfig) : Prop :=
  (∀ n ∈ network, asset.network = n) ∧
    ∀ s ∈ symbol.filter (· ≠ ""), asset.symbol = toUpperCase s

theorem mem_findAccounts {merchantId : String} {network : Option Network} {symbol : Option String}
    {a : LedgerAccount} : a ∈ findAccounts merchantId network symbol db ↔
      a ∈ db.ledgerAccounts ∧ a.merchantId = some merchantId ∧ a.type = .liability ∧
        (∀ n ∈ network, a.network = some n) ∧
        ∀ s ∈ symbol.filter (· ≠ ""), a.assetSymbol = toUpperCase s := by
  simp only [findAccounts, List.mem_filter, Bool.and_eq_true, decide_eq_true_eq, Option.all_eq_true,
    and_assoc]
  rfl

/-- The accounts of the first query are the payable accounts of the assets in which the merchant
has been credited. -/
theorem Owed.findAccounts_iff (h : Owed rate db) (hc : CreditsAgree db) (merchantId : String)
    (network : Option Network) (symbol : Option String) :
    (∀ a ∈ findAccounts merchantId network symbol db, ∃ asset ∈ assetList,
      IsPayable merchantId asset.network asset.symbol asset.decimals a ∧
        Asked network symbol asset ∧ creditedTo db merchantId asset ≠ [] ∧ merchantId ≠ "") ∧
    ∀ asset ∈ assetList, Asked network symbol asset → creditedTo db merchantId asset ≠ [] →
      ∃ a ∈ findAccounts merchantId network symbol db,
        IsPayable merchantId asset.network asset.symbol asset.decimals a := by
  refine ⟨fun a ha => ?_, fun asset hasset hasked hcredited => ?_⟩
  · obtain ⟨hmem, hmerchant, htype, hn, hs⟩ := mem_findAccounts.1 ha
    obtain ⟨p, hp, i, hi, hinvoice, hnonempty, hpayable⟩ := h.payable a hmem htype
    obtain ⟨asset, hasset, hnetwork, hsymbol, hdecimals⟩ := h.listed i hi
    have hm : i.merchantId = merchantId :=
      Option.some.inj (hpayable.merchant_eq.symm.trans hmerchant)
    have hpays : IsPayable merchantId asset.network asset.symbol asset.decimals a := by
      rw [hnetwork, hsymbol, hdecimals, ← hm]
      exact hpayable
    refine ⟨asset, hasset, hpays, ⟨fun n hmem => ?_, fun s hmem => ?_⟩, ?_, hm ▸ hnonempty⟩
    · exact Option.some.inj (hpays.network_eq.symm.trans (hn n hmem))
    · exact hpays.symbol_eq.symm.trans (hs s hmem)
    · obtain ⟨t, ht, hcredited, -, hcredit⟩ := hc.origin p hp
      have hfor : isFor db merchantId asset t.invoiceId = true := by
        rw [← hcredit.invoice, hinvoice]
        exact (h.isPayable_iff hasset hpays hi).1 hpayable
      exact List.ne_nil_of_mem (List.mem_filter.2 ⟨ht, by rw [hcredited, hfor]; rfl⟩)
  · obtain ⟨t, ht⟩ := List.exists_mem_of_ne_nil _ hcredited
    obtain ⟨hmem, hboth⟩ := List.mem_filter.1 ht
    rw [Bool.and_eq_true] at hboth
    obtain ⟨p, hp, -, hcredit⟩ := hc.posting_eq hmem hboth.1
    obtain ⟨i, hi, hinvoice, bps, -, -, debit, credit, fees, hentries, hsplits⟩ := h.posted p hp
    obtain ⟨-, a, ha, -, hpayable⟩ := hsplits.payable
    have hfor : isFor db merchantId asset (some i.id) = true := by
      rw [← hinvoice, hcredit.invoice]
      exact hboth.2
    obtain ⟨listed, hlisted, hnetwork, hsymbol, hdecimals⟩ := h.listed i hi
    have hterms : i.merchantId = merchantId ∧ i.network = asset.network ∧
        i.paymentAsset = asset.symbol := by
      simpa [isFor, Table.find?_of_mem hi] using hfor
    have hsame : listed = asset := assetList_unique listed hlisted asset hasset
      (hnetwork.trans hterms.2.1) (hsymbol.trans hterms.2.2)
    rw [hterms.1, hterms.2.1, hterms.2.2, ← hdecimals, hsame] at hpayable
    refine ⟨a, mem_findAccounts.2 ⟨ha, hpayable.merchant_eq, hpayable.type_eq,
      fun n hn => ?_, fun s hs => ?_⟩, hpayable⟩
    · rw [hpayable.network_eq, hasked.1 n hn]
    · rw [hpayable.symbol_eq, hasked.2 s hs]

theorem balanceEntry_eq {a : LedgerAccount} (ha : a ∈ db.ledgerAccounts) {text : String}
    (htext : formatUnits (db.balanceOf a.code) a.assetDecimals = .ok text) :
    balanceEntry db a = .ok ⟨(a.network.map (·.name)).getD "UNKNOWN", a.assetSymbol, text⟩ := by
  have hfound : db.ledgerAccounts.find? a.code = some a := Table.find?_of_mem ha
  simp only [Db.balanceOf, computeAccountBalance, hfound] at htext
  simp only [balanceEntry, computeAccountBalance, hfound, bind_ok, toMoney, Money.fromUnits,
    Money.toDecimalString, htext]
  rfl

/-- The fee of a credited transfer is the merchant's rate when it was posted. -/
theorem Owed.feeOf (h : Owed rate db) (hc : CreditsAgree db) {merchantId : String}
    {asset : AssetConfig} {t : TokenTransfer} (ht : t ∈ creditedTo db merchantId asset) :
    ∃ bps, rate (creditKey t.key) merchantId bps ∧ (0 ≤ bps ∧ bps < 10000) ∧
      feeOf db t = t.amount * bps / 10000 := by
  obtain ⟨hmem, hboth⟩ := List.mem_filter.1 ht
  rw [Bool.and_eq_true] at hboth
  obtain ⟨p, hp, hfind, hcredit⟩ := hc.posting_eq hmem hboth.1
  obtain ⟨i, hi, hinvoice, bps, hrate, howes⟩ := h.posted p hp
  obtain ⟨hrange, hfee⟩ := howes.bookedFee
  have hfor := hboth.2
  rw [← hcredit.invoice, hinvoice] at hfor
  have hmerchant : i.merchantId = merchantId := by
    have hterms : i.merchantId = merchantId ∧ i.network = asset.network ∧
        i.paymentAsset = asset.symbol := by
      simpa [isFor, Table.find?_of_mem hi] using hfor
    exact hterms.1
  refine ⟨bps, by rw [← hcredit.key, ← hmerchant]; exact hrate, hrange, ?_⟩
  rw [PaymentGateway.feeOf, hfind, Option.elim_some, hfee, hcredit.gross]

/-- **A merchant is shown what was credited, less the fees**: see the head of this module. -/
theorem balances_owed {found read : Db} {past : List Db}
    {rest : List (Except Error Transaction)}
    (h : gateway.History (fun _ => True) (fun _ _ => True) Db.empty (read :: past) rest)
    (hfound : found ∈ read :: past) (merchantId : String) (filters : BalanceFilters)
    {network : Option Network} (hnetwork : parseNetworkFilter filters.network = .ok network) :
    ∃ entries, getBalances merchantId filters found read = .ok entries ∧
      (entries.map fun e => (e.network, e.asset)).Nodup ∧
      (∀ e, e ∈ entries ↔ ∃ asset ∈ assetList, Asked network filters.asset asset ∧
        creditedTo found merchantId asset ≠ [] ∧ e.network = asset.network.name ∧
        e.asset = asset.symbol ∧
        formatUnits (owedIn read merchantId asset) asset.decimals = .ok e.available) ∧
      ∀ asset, ∀ t ∈ creditedTo read merchantId asset, ∃ bps,
        RateIn (read :: past) (creditKey t.key) merchantId bps ∧ (0 ≤ bps ∧ bps < 10000) ∧
          feeOf read t = t.amount * bps / 10000 := by
  have halong := owedAlong h
  obtain ⟨hread, hgrown⟩ := halong.newest read rfl
  have hagree := (agree_linked (h.reachable List.mem_cons_self)).1
  obtain ⟨hfrom, honto⟩ := (halong.every found hfound).findAccounts_iff
    (agree_linked (h.reachable hfound)).1 merchantId network filters.asset
  -- The entry of an account of the first query.
  have hentry : ∀ a ∈ findAccounts merchantId network filters.asset found, ∀ asset ∈ assetList,
      IsPayable merchantId asset.network asset.symbol asset.decimals a →
      ∃ text, formatUnits (owedIn read merchantId asset) asset.decimals = .ok text ∧
        balanceEntry read a = .ok ⟨asset.network.name, asset.symbol, text⟩ := by
    intro a ha asset hasset hpayable
    have hmem : a ∈ read.ledgerAccounts :=
      (hgrown found hfound).accounts a (mem_findAccounts.1 ha).1
    have hbalance := hread.balance hagree hasset hmem hpayable
    have htext := formatUnits_eq (owedIn read merchantId asset) (assetList_decimals asset hasset)
    refine ⟨_, htext, ?_⟩
    rw [balanceEntry_eq hmem (by rw [hbalance, hpayable.decimals_eq]; exact htext),
      hpayable.network_eq, hpayable.symbol_eq]
    rfl
  have hall : ∀ a ∈ findAccounts merchantId network filters.asset found, ∃ e,
      balanceEntry read a = .ok e := by
    intro a ha
    obtain ⟨asset, hasset, hpayable, -⟩ := hfrom a ha
    obtain ⟨text, -, hok⟩ := hentry a ha asset hasset hpayable
    exact ⟨_, hok⟩
  have hok : ∀ a ∈ findAccounts merchantId network filters.asset found, balanceEntry read a =
      .ok ((balanceEntry read a).toOption.getD ⟨"", "", ""⟩) := by
    intro a ha
    obtain ⟨e, he⟩ := hall a ha
    rw [he]
    rfl
  refine ⟨_, by rw [getBalances, hnetwork, bind_ok]; exact mapM_eq_map hok, ?_, fun e => ?_,
    fun asset t ht => hread.feeOf hagree ht⟩
  · rw [List.map_map]
    refine List.Nodup.map_on ?_ ((List.Nodup.of_map _ found.ledgerAccounts.nodup).filter _)
    intro a ha b hb hkey
    obtain ⟨asset, hasset, hpayable, -, -, hnonempty⟩ := hfrom a ha
    obtain ⟨asset', hasset', hpayable', -, -, -⟩ := hfrom b hb
    obtain ⟨text, -, hok⟩ := hentry a ha asset hasset hpayable
    obtain ⟨text', -, hok'⟩ := hentry b hb asset' hasset' hpayable'
    simp only [Function.comp_apply, hok, hok', Except.toOption, Option.getD_some,
      Prod.mk.injEq] at hkey
    have hsame : asset = asset' := assetList_unique asset hasset asset' hasset'
      (Network.name_injective (congrArg String.toList hkey.1)) hkey.2
    exact hpayable.unique (halong.every found hfound).charted (mem_findAccounts.1 ha).1
      (mem_findAccounts.1 hb).1 hnonempty (hsame ▸ hpayable')
  · rw [List.mem_map]
    constructor
    · rintro ⟨a, ha, rfl⟩
      obtain ⟨asset, hasset, hpayable, hasked, hcredited, -⟩ := hfrom a ha
      obtain ⟨text, htext, hok⟩ := hentry a ha asset hasset hpayable
      rw [hok]
      exact ⟨asset, hasset, hasked, hcredited, rfl, rfl, htext⟩
    · rintro ⟨asset, hasset, hasked, hcredited, hnetwork, hsymbol, htext⟩
      obtain ⟨a, ha, hpayable⟩ := honto asset hasset hasked hcredited
      obtain ⟨text, htext', hok⟩ := hentry a ha asset hasset hpayable
      have hsame : text = e.available := Except.ok.inj (htext'.symm.trans htext)
      refine ⟨a, ha, ?_⟩
      rw [hok, hsame, ← hnetwork, ← hsymbol]
      rfl

/-- The shop is paid 100 USDT at 1 %; then its rate is raised to 5 %. -/
def Shop.raised : Db :=
  Shop.after (Shop.payment ++ [.updateMerchant { Shop.merchant with
    feeBps := 500
    fee_bps_sane := by decide }])

/-- What was credited at the old rate stays 99 USDT. -/
theorem balances_owed_raised :
    ∃ entries, getBalances "shop" ⟨some "ethereum", some "usdt"⟩ Shop.raised Shop.raised =
        .ok entries ∧
      (entries.map fun e => (e.network, e.asset)).Nodup ∧
      ⟨"ETHEREUM", "USDT", "99.000000"⟩ ∈ entries := by
  have hreachable : gateway.Reachable (fun _ => True) (fun _ _ => True) Db.empty Shop.raised :=
    Shop.after_reachable _ (fun _ _ => trivial) (Machine.allMeet_true _ _)
  obtain ⟨past, rest, hist⟩ := hreachable
  have hnetwork : parseNetworkFilter (some "ethereum") = .ok (some .ethereum) := by decide +kernel
  obtain ⟨entries, hok, hnodup, hentries, -⟩ := balances_owed hist List.mem_cons_self "shop"
    ⟨some "ethereum", some "usdt"⟩ hnetwork
  refine ⟨entries, hok, hnodup, (hentries _).2 ⟨asset ⟨"USDT", .ethereum,
    some "0xdAC17F958D2ee523a2206206994597C13D831ec7", 6, 12, 1000000, true⟩, by decide +kernel,
    ?_, ?_, rfl, rfl, ?_⟩⟩
  · exact ⟨by decide +kernel, by decide +kernel⟩
  · decide +kernel
  · decide +kernel

end PaymentGateway
