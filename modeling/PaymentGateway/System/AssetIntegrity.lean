import PaymentGateway.Monitor.Recording
import PaymentGateway.System.Settlement

/-!
# Asset integrity

The matcher is told that an asset was recognised, never which, and the settlement adds up amounts
of whatever was matched. So an invoice is settled in its own asset exactly as long as nothing else
is sent to its address in time: `native_coin_pays_usdt` is a run in which 0.001 ETH pays an invoice
over 100 USDT.

**Theorem (`asset_integrity`).** In every run in which each transaction that is recorded pays the
open invoices it pays in their own asset (`PaysInKind`), the transfers that may be counted for an
invoice are of its asset, so are those it is credited for, and an invoice that has just been
settled was settled by such transfers.

`PaysInKind` is asked of the state before the transaction, for all its transfers at once, because
`recordTransfers_spec` judges them all in that state. No other transaction looks at an asset: it
keeps the rows that count, with their contract, and the terms of the invoices.
-/

namespace PaymentGateway

open Keyed Fallible Transactional MonitorService

variable {may : Right → Prop} {db db' : Db}

/-- What is received under this contract is the asset of the invoice. -/
def OwnAsset (invoice : Invoice) (network : Network) (tokenContract : Option String) : Prop :=
  ∃ a, resolveTransferAsset network tokenContract = some a ∧ a.network = invoice.network ∧
    a.contractAddress = invoice.tokenContract ∧ a.symbol = invoice.paymentAsset ∧
    a.decimals = invoice.paymentDecimals

instance (invoice : Invoice) (network : Network) (tokenContract : Option String) :
    Decidable (OwnAsset invoice network tokenContract) :=
  match h : resolveTransferAsset network tokenContract with
  | none => isFalse (by rintro ⟨a, ha, -⟩; rw [h] at ha; cases ha)
  | some a => decidable_of_iff (a.network = invoice.network ∧
      a.contractAddress = invoice.tokenContract ∧ a.symbol = invoice.paymentAsset ∧
      a.decimals = invoice.paymentDecimals)
    ⟨fun hown => ⟨a, h, hown⟩, by rintro ⟨b, hb, hown⟩; rw [h] at hb; cases hb; exact hown⟩

theorem OwnAsset.congr {invoice invoice' : Invoice} {network : Network}
    {tokenContract : Option String} (hterms : invoice'.terms = invoice.terms)
    (h : OwnAsset invoice network tokenContract) : OwnAsset invoice' network tokenContract := by
  obtain ⟨a, ha, hnetwork, hcontract, hsymbol, hdecimals⟩ := h
  exact ⟨a, ha, hnetwork.trans (congrArg Invoice.Terms.network hterms).symm,
    hcontract.trans (congrArg Invoice.Terms.tokenContract hterms).symm,
    hsymbol.trans (congrArg Invoice.Terms.paymentAsset hterms).symm,
    hdecimals.trans (congrArg Invoice.Terms.paymentDecimals hterms).symm⟩

/-- The transfers that are counted for an invoice, or may yet be, are of its asset. -/
def AssetIntegrity (db : Db) : Prop :=
  ∀ i ∈ db.invoices, ∀ t ∈ confirmedTransfers db i.id, OwnAsset i t.key.network t.tokenContract

/-- Every transfer that is about to be matched to an open invoice is of the invoice's asset. -/
def PaysInKind : Transaction → Db → Prop
  | .recordTransfers network chainTx transfers graceSeconds now, db =>
    ∀ t ∈ transfers, ∀ i,
      (sighting network chainTx graceSeconds now t).invoice db = some i →
      CountsFor (sighting network chainTx graceSeconds now t) i →
      (db.transfers.find? ⟨network, chainTx.hash, t.transferIndex⟩).bind (·.creditedAt) = none →
      OwnAsset i network t.tokenContract
  | _, _ => True

instance (t : Transaction) (db : Db) : Decidable (PaysInKind t db) :=
  match t with
  | .recordTransfers network chainTx transfers graceSeconds now =>
    inferInstanceAs (Decidable (∀ t ∈ transfers,
      ∀ i ∈ (sighting network chainTx graceSeconds now t).invoice db,
        CountsFor (sighting network chainTx graceSeconds now t) i →
        (db.transfers.find? ⟨network, chainTx.hash, t.transferIndex⟩).bind (·.creditedAt) = none →
        OwnAsset i network t.tokenContract))
  | .confirmTransfer _ _ _ | .orphanTransaction _ _ | .expireOne _ _
  | .loadAndMaybeExpire _ _ _ | .cancelWrite _ _ | .createInvoice _ _ | .registerMerchant _
  | .updateMerchant _ | .registerAddress _ _ _ _ _ | .takeEdge _ _ _ => isTrue trivial

theorem mem_confirmedTransfers {t : TokenTransfer} {id : String} :
    t ∈ confirmedTransfers db id ↔ db.transfers.find? t.key = some t ∧
      t.invoiceId = some id ∧ (t.matchStatus = .credited ∨ t.matchStatus = .pendingConfirmation) := by
  rw [mem_confirmed_iff]
  exact and_congr_left fun _ => ⟨Table.find?_of_mem, Table.mem_of_find?⟩

/-! ## One transaction -/

/-- Recording a transaction that pays in kind keeps integrity. -/
theorem AssetIntegrity.recordTransfers {network : Network} {chainTx : ChainTransaction}
    {transfers : List ParsedTransfer} {graceSeconds : Nat} {now : Int} (h : AssetIntegrity db)
    (hkind : PaysInKind (.recordTransfers network chainTx transfers graceSeconds now) db)
    (hok : recordTransfers network chainTx transfers graceSeconds now db = .ok db') :
    AssetIntegrity db' := by
  obtain ⟨halike, hrows⟩ := recordTransfers_spec hok
  intro i hi t ht
  obtain ⟨hfind, hid, hstatus⟩ := mem_confirmedTransfers.1 ht
  -- The invoice before the transaction, with the same terms.
  have hjudged := halike.invoices i.id
  rw [Table.find?_of_mem hi, Option.map_some] at hjudged
  obtain ⟨i0, hi0, hview⟩ := Option.map_eq_some_iff.1 hjudged.symm
  have hterms : i.terms = i0.terms := (congrArg Prod.fst hview).symm
  have hid0 : i0.id = i.id := Table.key_of_find? hi0
  cases hrows t.key with
  | kept hsame _ =>
    rw [hfind] at hsame
    refine (h i0 (Table.mem_of_find? hi0) t ?_).congr hterms
    exact mem_confirmedTransfers.2 ⟨hsame.symm, hid0 ▸ hid, hstatus⟩
  | @recorded before after p row hsplit hkey _ huncredited hrow hrecorded =>
    rw [hfind] at hrow
    cases hrow
    have hpending : t.matchStatus = .pendingConfirmation :=
      hstatus.resolve_left hrecorded.not_credited
    obtain ⟨i1, hi1, hcounts⟩ := hrecorded.pending_iff.1 hpending
    have hsame : i1.id = i.id := by
      have hinvoice := hrecorded.invoice
      rw [hi1, hid, Option.map_some] at hinvoice
      exact (Option.some.inj hinvoice).symm
    have hi01 : i1 = i0 := by
      have hfound := (find?_of_invoice hi1).1
      rw [hsame, hi0] at hfound
      exact (Option.some.inj hfound).symm
    rw [hi01] at hi1 hcounts
    have hp : p ∈ transfers := by rw [hsplit]; simp
    have hnetwork : t.key.network = network := by rw [← hkey]; rfl
    rw [hnetwork, hrecorded.contract]
    rw [← hkey] at huncredited
    exact (hkind p hp i0 hi1 hcounts huncredited).congr hterms

/-- An effect that records nothing keeps integrity. -/
theorem Effect.assetIntegrity (h : Effect may db db') (hrecord : ¬ may .record)
    (hc : CreditsAgree db) (hl : Linked db) (ha : AssetIntegrity db) : AssetIntegrity db' := by
  intro i hi t ht
  obtain ⟨hfind, hid, hstatus⟩ := mem_confirmedTransfers.1 ht
  have hrow := h.rowStep hc t.key
  rw [hfind] at hrow
  -- The row before the effect, which counted as well.
  have hold : ∃ t0 ∈ confirmedTransfers db i.id, t0.key = t.key ∧
      t0.tokenContract = t.tokenContract := by
    generalize hnew : some t = new at hrow
    generalize hbefore : db.transfers.find? t.key = old at hrow
    cases hrow with
    | same =>
      exact ⟨t, mem_confirmedTransfers.2 ⟨hbefore.trans hnew.symm, hid, hstatus⟩, rfl, rfl⟩
    | observed hmay => exact absurd hmay hrecord
    | confirmed t0 n =>
      cases hnew
      exact ⟨t0, mem_confirmedTransfers.2 ⟨hbefore, hid, hstatus⟩, rfl, rfl⟩
    | orphaned => cases hnew; rcases hstatus with hs | hs <;> cases hs
    | @credited _ invoice t0 now hcounted hnone =>
      cases hnew
      obtain ⟨-, -, -, hcountable⟩ := (countedTransfers_spec db invoice).1 t0 hcounted
      exact ⟨t0, mem_confirmedTransfers.2 ⟨hbefore, hid, hcountable⟩, rfl, rfl⟩
  obtain ⟨t0, ht0, hkey, hcontract⟩ := hold
  have hstep := h.invoiceStep i.id
  rw [Table.find?_of_mem hi] at hstep
  rcases hstep.origin with ⟨i0, hi0, hterms⟩ | ⟨hnone, -⟩
  · have hid0 : i0.id = i.id := Table.key_of_find? hi0
    have hown := ha i0 (Table.mem_of_find? hi0) t0 (hid0 ▸ ht0)
    rw [hkey, hcontract] at hown
    exact hown.congr hterms
  · obtain ⟨hfind0, hid0, -⟩ := mem_confirmedTransfers.1 ht0
    have hsome := hl.transfer t0 (Table.mem_of_find? hfind0) i.id hid0
    rw [hnone] at hsome
    cases hsome

theorem Transaction.assetIntegrity {t : Transaction} (hkind : PaysInKind t db)
    (hc : CreditsAgree db) (hl : Linked db) (ha : AssetIntegrity db)
    (h : t.apply db = .ok db') : AssetIntegrity db' := by
  by_cases hrecord : t.rights .record
  · cases t with
    | recordTransfers network chainTx transfers graceSeconds now =>
      exact ha.recordTransfers hkind h
    | confirmTransfer => rcases hrecord with hr | hr <;> cases hr
    | _ => cases hrecord
  · have hall := (Transaction.effects h).invariant
      (fun x => CreditsAgree x ∧ Linked x ∧ AssetIntegrity x) ⟨hc, hl, ha⟩ ?_
    · exact hall.2.2
    · rintro a b ⟨hca, hla, haa⟩ hab
      exact ⟨hab.creditsAgree hca, hab.linked hca hla, hab.assetIntegrity hrecord hca hla haa⟩

/-! ## What settled an invoice -/

/-- A settlement leaves the transfers it counted counted, and the other invoices as they were. -/
theorem settleInvoice_counts {invoice : Invoice} {merchant : Merchant} {target : InvoiceStatus}
    {now : Int} (hc : CreditsAgree db) (hsettle : Settleable db invoice merchant target)
    (h : settleInvoice db invoice merchant target now = .ok db') :
    ∀ i ∈ db'.invoices, db.invoices.find? i.id = some i ∨ ∃ t, t ∈ countedTransfers db' i := by
  have hsome : ∃ t, t ∈ countedTransfers db invoice := by
    apply List.exists_mem_of_ne_nil
    intro hnil
    exact hsettle.total_ne (by rw [hnil]; rfl)
  obtain ⟨t, ht⟩ := hsome
  intro i hi
  have hnow := Table.find?_of_mem hi
  obtain ⟨hallowed, ⟨hauto, events, webhooks, -, rfl⟩ | ⟨hauto, db3, hpaid, hcredits⟩⟩ :=
    settleInvoice_eq_ok hsettle.invoice_found h
  · by_cases hid : i.id = invoice.id
    · rw [hid, Db.find?_withStatus_self hsettle.invoice_found] at hnow
      cases hnow
      refine .inr ⟨t, ?_⟩
      rw [countedTransfers_congr rfl (Invoice.terms_update _ _)]
      exact ht
    · rw [Db.find?_withStatus_ne hid] at hnow
      exact .inl hnow
  · have haccept : Accepted db db' invoice merchant target :=
      ⟨hsettle, hallowed, hauto, _, _, hpaid, hcredits⟩
    obtain ⟨⟨invoice', hfind, hterms, -⟩, hothers⟩ := haccept.find?
    by_cases hid : i.id = invoice.id
    · rw [hid, hfind] at hnow
      have hsame : invoice' = i := Option.some.inj hnow
      subst hsame
      have hrequired : invoice'.requiredConfirmations = invoice.requiredConfirmations :=
        congrArg Invoice.Terms.requiredConfirmations hterms
      obtain ⟨hconfirmed, hreached⟩ := mem_counted_iff.1 ht
      obtain ⟨hrow, htid, hstatus⟩ := mem_confirmedTransfers.1 hconfirmed
      obtain ⟨db1, htransfers, -, hloop⟩ := haccept.creditLoop hc
      refine .inr ?_
      rcases hloop.rows t.key with hkept | ⟨u, -, -, hu, -, at_, hcredited⟩
      · rw [htransfers] at hkept
        refine ⟨t, mem_counted_iff.2 ⟨?_, hrequired ▸ hreached⟩⟩
        rw [hid]
        exact mem_confirmedTransfers.2 ⟨hkept.trans hrow, htid, hstatus⟩
      · rw [htransfers, hrow] at hu
        cases hu
        refine ⟨Db.credit at_ t, mem_counted_iff.2 ⟨?_, hrequired ▸ hreached⟩⟩
        rw [hid]
        exact mem_confirmedTransfers.2 ⟨hcredited, htid, .inl rfl⟩
    · exact .inl ((hothers i.id hid).symm.trans hnow)

/-- Only a settlement settles. -/
theorem InvoiceStep.settled_same {old : Option Invoice} {invoice : Invoice}
    (h : InvoiceStep may db old (some invoice)) (hsettle : ¬ may .settle) (haccept : ¬ may .accept)
    (hedge : ¬ may .takeEdge) (hstatus : invoice.status ∈ settledStatuses) :
    old = some invoice := by
  generalize hnew : some invoice = new at h
  cases h with
  | same => rfl
  | created _ hpending => cases hnew; rw [hpending] at hstatus; exact absurd hstatus (by decide)
  | moved _ hnot => cases hnew; exact absurd hstatus hnot
  | settled hmay => exact absurd hmay hsettle
  | accepted hmay => exact absurd hmay haccept
  | expired => cases hnew; exact absurd hstatus (by decide : InvoiceStatus.expired ∉ settledStatuses)
  | cancelled =>
    cases hnew
    exact absurd hstatus (by decide : InvoiceStatus.cancelled ∉ settledStatuses)
  | edged hmay => exact absurd hmay hedge

/-- An invoice that a transaction leaves settled was so before, or has counted transfers now. -/
theorem Transaction.settled_counts {t : Transaction} (ht : t.Automatic) (hc : CreditsAgree db)
    (h : t.apply db = .ok db') : ∀ i ∈ db'.invoices, i.status ∈ settledStatuses →
      db.invoices.find? i.id = some i ∨ ∃ u, u ∈ countedTransfers db' i := by
  intro i hi hstatus
  by_cases hsettles : t.rights .settle
  · cases t with
    | confirmTransfer transfer info now =>
      have hmay : Transaction.rights (.confirmTransfer transfer info now) .settle := hsettles
      obtain ⟨db2, heffects, -, -, -, hsteps, hrest⟩ := confirmTransfer_split hmay h
      have hbefore : ∀ j, db2.invoices.find? i.id = some j → j.status ∈ settledStatuses →
          db.invoices.find? i.id = some j := by
        intro j hj hjs
        have hstep := hsteps i.id
        rw [hj] at hstep
        exact hstep.settled_same id id id hjs
      rcases hrest with rfl | ⟨invoice, merchant, target, hfound, hwrite⟩
      · exact .inl (hbefore i (Table.find?_of_mem hi) hstatus)
      · rcases settleInvoice_counts (heffects.creditsAgree hc) hfound hwrite i hi with
          hold | hcounted
        · exact .inl (hbefore i hold hstatus)
        · exact .inr hcounted
    | _ => cases hsettles
  · have haccepts : ¬ t.rights .accept := by
      intro haccepts
      cases t with
      | confirmTransfer => exact hsettles (.inl rfl)
      | _ => cases haccepts
    refine .inl ?_
    refine (Transaction.effects h).invariant
      (fun x => ∀ i ∈ x.invoices, i.status ∈ settledStatuses → db.invoices.find? i.id = some i)
      (fun i hi _ => Table.find?_of_mem hi) ?_ i hi hstatus
    intro a b ha hab j hj hjs
    have hstep := hab.invoiceStep j.id
    rw [Table.find?_of_mem hj] at hstep
    have hold := hstep.settled_same hsettles haccepts ht.rights.2 hjs
    exact ha j (Table.mem_of_find? hold) hjs

/-! ## Runs -/

/-- What is known of a run that pays in kind about its last state. -/
structure PaidInKind (s : Db) (past : List Db) : Prop where
  agree : CreditsAgree s
  linked : Linked s
  assets : AssetIntegrity s
  settled : ∀ i ∈ s.invoices, i.status ∈ settledStatuses →
    ∃ x ∈ s :: past, ∃ t ∈ countedTransfers x i, OwnAsset i t.key.network t.tokenContract

theorem PaidInKind.commit {s s' : Db} {past : List Db} {t : Transaction} (h : PaidInKind s past)
    (ht : t.Automatic) (hkind : PaysInKind t s) (hok : t.apply s = .ok s') :
    PaidInKind s' (s :: past) := by
  have heffects := Transaction.effects hok
  have hagree := heffects.invariant (fun x => CreditsAgree x ∧ Linked x) ⟨h.agree, h.linked⟩
    fun a b ha hab => ⟨hab.creditsAgree ha.1, hab.linked ha.1 ha.2⟩
  have hassets : AssetIntegrity s' :=
    Transaction.assetIntegrity hkind h.agree h.linked h.assets hok
  refine ⟨hagree.1, hagree.2, hassets, fun i hi hstatus => ?_⟩
  rcases Transaction.settled_counts ht h.agree hok i hi hstatus with hold | ⟨u, hu⟩
  · obtain ⟨x, hx, u, hu, hown⟩ := h.settled i (Table.mem_of_find? hold) hstatus
    exact ⟨x, List.mem_cons_of_mem _ hx, u, hu, hown⟩
  · exact ⟨s', List.mem_cons_self, u, hu, hassets i hi u (mem_counted_iff.1 hu).1⟩

/-- **Asset integrity**: see the head of this module. -/
theorem asset_integrity {states : List Db} {rest : List (Except Error Transaction)}
    (h : gateway.History Operation.Automatic PaysInKind Db.empty states rest)
    {later earlier : List Db} {s : Db} (hs : states = later ++ s :: earlier) :
    (∀ i ∈ s.invoices, ∀ t ∈ confirmedTransfers s i.id,
      OwnAsset i t.key.network t.tokenContract) ∧
    (∀ p ∈ s.ledgerTransactions, ∃ i ∈ s.invoices, ∃ t ∈ confirmedTransfers s i.id,
      CreditOf p t ∧ OwnAsset i t.key.network t.tokenContract) ∧
    ∀ i ∈ s.invoices, i.status ∈ settledStatuses →
      ∃ x ∈ s :: earlier, ∃ t ∈ countedTransfers x i,
        OwnAsset i t.key.network t.tokenContract := by
  obtain ⟨rest', hist⟩ := h.earlier hs
  have hrun : PaidInKind s earlier := by
    refine Machine.History.induction (fun l => ∀ a past, l = a :: past → PaidInKind a past) hist
      (fun op a hop t ht => automatic_script a hop t ht) ?_ ?_ s earlier rfl
    · rintro a past heq
      cases heq
      refine ⟨creditsAgree_empty, linked_empty, ?_, ?_⟩
      · exact fun i hi => absurd hi (Table.not_mem_empty i)
      · exact fun i hi => absurd hi (Table.not_mem_empty i)
    · rintro t a b past ht ih hkind hok c past' heq
      cases heq
      exact (ih a past rfl).commit ht hkind hok
  refine ⟨hrun.assets, fun p hp => ?_, hrun.settled⟩
  obtain ⟨t, ht, hcredited, hid, horigin⟩ := hrun.agree.origin p hp
  obtain ⟨id, hid⟩ := Option.isSome_iff_exists.1 hid
  obtain ⟨i, hi⟩ := Option.isSome_iff_exists.1 (hrun.linked.transfer t ht id hid)
  have hkey : i.id = id := Table.key_of_find? hi
  subst hkey
  have hcounts : t ∈ confirmedTransfers s i.id :=
    mem_confirmedTransfers.2 ⟨Table.find?_of_mem ht, hid,
      .inl ((hrun.agree.credited_iff t ht).1 hcredited)⟩
  exact ⟨i, Table.mem_of_find? hi, t, hcounts, horigin,
    hrun.assets i (Table.mem_of_find? hi) t hcounts⟩

/-- In the shop, USDT pays an invoice over USDT. -/
theorem asset_integrity_shop :
    Shop.status (Shop.after Shop.payment) = some .paid ∧
    ∀ i ∈ (Shop.after Shop.payment).invoices,
      ∀ t ∈ confirmedTransfers (Shop.after Shop.payment) i.id,
        OwnAsset i t.key.network t.tokenContract := by
  have hops : ∀ op ∈ Shop.opening ++ Shop.payment, op.Automatic := by decide
  have hkind : gateway.AllMeet PaysInKind (Shop.opening ++ Shop.payment) Db.empty := by
    decide +kernel
  obtain ⟨past, rest, hist⟩ := Shop.after_reachable Shop.payment hops hkind
  have hlast : Shop.after Shop.payment :: past = [] ++ Shop.after Shop.payment :: past := rfl
  exact ⟨by decide +kernel, (asset_integrity hist hlast).1⟩

/-! ## Paid in the wrong coin -/

/-- The operations of a shop that is sent 0.001 ETH: 10^15 base units, where the invoice asks for
10^8 base units of USDT. -/
def Shop.nativePayment : List Operation :=
  let known := [(mined "a" 100 1, [⟨-1, none, some "0xpayer", "0xpay", 1000000000000000⟩])]
  [observe 100 known "a", confirm 111 known]

/-- **The native coin pays an invoice over USDT**: the invoice is PAID, and the ledger holds a
credit for a transfer that is not of its asset. -/
theorem native_coin_pays_usdt :
    gateway.Reachable Operation.Automatic (fun _ _ => True) Db.empty
      (Shop.after Shop.nativePayment) ∧
    Shop.status (Shop.after Shop.nativePayment) = some .paid ∧
    ((Shop.after Shop.nativePayment).ledgerTransactions.find? "credit:ETHEREUM:a:-1").isSome =
      true ∧
    ∃ i ∈ (Shop.after Shop.nativePayment).invoices,
      ∃ t ∈ countedTransfers (Shop.after Shop.nativePayment) i,
        t.creditedAt.isSome = true ∧
        (resolveTransferAsset t.key.network t.tokenContract).isSome = true ∧
        ¬ OwnAsset i t.key.network t.tokenContract := by
  have hcredited : ((Shop.after Shop.nativePayment).invoices.rows.any fun i =>
      (countedTransfers (Shop.after Shop.nativePayment) i).any fun t =>
        t.creditedAt.isSome && ((resolveTransferAsset t.key.network t.tokenContract).isSome &&
          !decide (OwnAsset i t.key.network t.tokenContract))) = true := by
    decide +kernel
  refine ⟨Shop.after_reachable Shop.nativePayment (by decide) (Machine.allMeet_true _ _),
    by decide +kernel, by decide +kernel, ?_⟩
  obtain ⟨i, hi, h⟩ := List.any_eq_true.1 hcredited
  obtain ⟨t, ht, h⟩ := List.any_eq_true.1 h
  rw [Bool.and_eq_true, Bool.and_eq_true] at h
  exact ⟨i, hi, t, ht, h.1, h.2.1, by simpa using h.2.2⟩

end PaymentGateway
