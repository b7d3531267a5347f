import PaymentGateway.System.Credits

/-!
# What a run does to one invoice

`Effect.invoiceStep` says what one effect can do to the invoice under one id: nothing, create it,
move it along an edge its writer may take, land it on PAID with the amounts of a settlement, or
overwrite it with CANCELLED. It never touches the terms.

Two invariants follow for every run. `Linked` is the part of the foreign keys that the proofs
need: an invoice once created stays, so what refers to it keeps referring to something. `Within`
says that the invoices something was credited to have not left a set of statuses; it holds for
every set that contains PAID and is closed under the moves of the writers at work.
-/

namespace PaymentGateway

open Keyed Fallible MonitorService

variable {may : Right → Prop} {db db' : Db}

/-! ## Steps of one invoice -/

/-- The outcomes of a settlement. -/
def settledStatuses : List InvoiceStatus := [.paid, .underpaid, .overpaid]

/-- What one effect can do to the invoice under one id. -/
inductive InvoiceStep (may : Right → Prop) (db : Db) : Option Invoice → Option Invoice → Prop
  | same (r : Option Invoice) : InvoiceStep may db r r
  | created (hmay : may .configure) {invoice : Invoice} (hstatus : invoice.status = .pending)
      (hmerchant : (db.merchants.find? invoice.merchantId).isSome = true) :
      InvoiceStep may db none (some invoice)
  | moved {invoice : Invoice} {target : InvoiceStatus} {data : InvoiceData}
      (hallowed : isActorAllowed invoice.status target .monitor = true)
      (htarget : target ∉ settledStatuses) :
      InvoiceStep may db (some invoice) (some (invoice.update { data with status := some target }))
  | settled (hmay : may .settle) {invoice : Invoice} {target : InvoiceStatus} {data : InvoiceData}
      (hallowed : isActorAllowed invoice.status target .monitor = true)
      (htarget : target = .underpaid ∨ target = .overpaid) :
      InvoiceStep may db (some invoice) (some (invoice.update { data with status := some target }))
  | accepted (hmay : may .accept) {invoice invoice' : Invoice} {target : InvoiceStatus}
      (hallowed : isActorAllowed invoice.status target .monitor = true)
      (htarget : target = .paid ∨ target = .underpaid ∨ target = .overpaid)
      (hterms : invoice'.terms = invoice.terms) (hstatus : invoice'.status = .paid) :
      InvoiceStep may db (some invoice) (some invoice')
  | expired (hmay : may .expire) {invoice : Invoice} {data : InvoiceData}
      (hallowed : isActorAllowed invoice.status .expired .system = true) :
      InvoiceStep may db (some invoice) (some (invoice.update { data with status := some .expired }))
  | cancelled (hmay : may .cancel) {invoice : Invoice} {data : InvoiceData} :
      InvoiceStep may db (some invoice) (some (invoice.update { data with status := some .cancelled }))
  | edged (hmay : may .takeEdge) {invoice : Invoice} {target : InvoiceStatus}
      {actor : TransitionActor} {data : InvoiceData}
      (hallowed : isActorAllowed invoice.status target actor = true) :
      InvoiceStep may db (some invoice) (some (invoice.update { data with status := some target }))

theorem InvoiceStep.terms {invoice : Invoice} {new : Option Invoice}
    (h : InvoiceStep may db (some invoice) new) :
    ∃ invoice', new = some invoice' ∧ invoice'.terms = invoice.terms := by
  generalize hold : some invoice = old at h
  cases h with
  | same => exact ⟨invoice, hold.symm, rfl⟩
  | created => cases hold
  | moved => cases hold; exact ⟨_, rfl, Invoice.terms_update _ _⟩
  | settled => cases hold; exact ⟨_, rfl, Invoice.terms_update _ _⟩
  | accepted _ _ _ hterms => cases hold; exact ⟨_, rfl, hterms⟩
  | expired => cases hold; exact ⟨_, rfl, Invoice.terms_update _ _⟩
  | cancelled => cases hold; exact ⟨_, rfl, Invoice.terms_update _ _⟩
  | edged => cases hold; exact ⟨_, rfl, Invoice.terms_update _ _⟩

/-- Where the invoice under an id comes from. -/
theorem InvoiceStep.origin {old : Option Invoice} {invoice : Invoice}
    (h : InvoiceStep may db old (some invoice)) :
    (∃ invoice', old = some invoice' ∧ invoice.terms = invoice'.terms) ∨
      (old = none ∧ may .configure ∧ invoice.status = .pending ∧
        (db.merchants.find? invoice.merchantId).isSome = true) := by
  generalize hnew : some invoice = new at h
  cases h with
  | same => exact .inl ⟨invoice, hnew.symm, rfl⟩
  | created hmay hstatus hmerchant => cases hnew; exact .inr ⟨rfl, hmay, hstatus, hmerchant⟩
  | moved => cases hnew; exact .inl ⟨_, rfl, Invoice.terms_update _ _⟩
  | settled => cases hnew; exact .inl ⟨_, rfl, Invoice.terms_update _ _⟩
  | accepted _ _ _ hterms => cases hnew; exact .inl ⟨_, rfl, hterms⟩
  | expired => cases hnew; exact .inl ⟨_, rfl, Invoice.terms_update _ _⟩
  | cancelled => cases hnew; exact .inl ⟨_, rfl, Invoice.terms_update _ _⟩
  | edged => cases hnew; exact .inl ⟨_, rfl, Invoice.terms_update _ _⟩

/-- A status write is a step of the invoice it is about, and of no other. -/
theorem invoiceStep_withStatus {stored : Invoice} {target : InvoiceStatus}
    {writer : TransitionActor} {data : InvoiceData}
    {events : Table PaymentEvent fun e => (e.invoiceId, e.sequence)}
    {webhooks : Table WebhookEvent (·.idempotencyKey)}
    (hfind : db.invoices.find? stored.id = some stored)
    (h : InvoiceStep may db (some stored) (some (stored.update { data with status := some target })))
    (id : String) : InvoiceStep may db (db.invoices.find? id)
      ((db.withStatus stored target writer data events webhooks).invoices.find? id) := by
  by_cases hid : id = stored.id
  · rw [hid, Db.find?_withStatus_self hfind, hfind]
    exact h
  · rw [Db.find?_withStatus_ne hid]
    exact .same _

/-- What an accepted payment does to the invoices. -/
theorem Accepted.find? {invoice : Invoice} {merchant : Merchant} {target : InvoiceStatus}
    (h : Accepted db db' invoice merchant target) :
    (∃ invoice', db'.invoices.find? invoice.id = some invoice' ∧
      invoice'.terms = invoice.terms ∧ invoice'.status = .paid ∧
      invoice'.receivedAmount = totalAmount (countedTransfers db invoice) ∧
      invoice'.confirmedAmount = totalAmount (countedTransfers db invoice)) ∧
    ∀ id, id ≠ invoice.id → db'.invoices.find? id = db.invoices.find? id := by
  obtain ⟨now, db1, hpaid, hcredits⟩ := h.credits
  obtain ⟨f, hf, _, _, _, _, _, _, hrow, -, rfl⟩ := accept_frame hpaid hcredits
  refine ⟨⟨f invoice, ?_, hrow invoice⟩, fun id hid => ?_⟩
  · simp only [Table.find?_modify_self, h.settleable.invoice_found, Option.map_some]
  · simp only [Table.find?_modify_ne hid]

theorem Effect.invoiceStep_or_accepted (h : Effect may db db') :
    (∀ id, InvoiceStep (Quiet may) db (db.invoices.find? id) (db'.invoices.find? id)) ∨
      ∃ invoice merchant target, may .accept ∧ Accepted db db' invoice merchant target := by
  cases h with
  | accept hmay h => exact .inr ⟨_, _, _, hmay, h⟩
  | record _ _ _ _ =>
    obtain ⟨transfers, hupsert⟩ := Db.upsertTransfer_eq db _
    rw [hupsert]
    exact .inl fun id => .same _
  | @recordMove _ _ _ invoice target data events webhooks _ _ hinvoice htarget hallowed _ =>
    obtain ⟨transfers, hupsert⟩ := Db.upsertTransfer_eq db _
    rw [hupsert]
    refine .inl fun id => ?_
    show InvoiceStep _ db _ ((db.withStatus invoice target .monitor data events
      webhooks).invoices.find? id)
    refine invoiceStep_withStatus (find?_of_invoice hinvoice).1 (.moved hallowed ?_) id
    rcases sightingTarget_eq_some htarget with ⟨-, rfl⟩ | ⟨-, rfl⟩ <;> decide
  | confirming _ hfind hallowed =>
    exact .inl fun id =>
      invoiceStep_withStatus hfind (.moved hallowed (by decide)) id
  | settle hmay h hallowed hauto =>
    refine .inl fun id => invoiceStep_withStatus h.invoice_found
      (.settled ⟨hmay, Right.noConfusion⟩ hallowed ?_) id
    rcases statusForOutcome_settled h.target_of with rfl | ht
    · exact absurd hauto (by simp [autoAccept])
    · exact ht
  | revert _ hfind hallowed htarget =>
    refine .inl fun id => invoiceStep_withStatus hfind (.moved hallowed ?_) id
    split at htarget <;> subst htarget <;> decide
  | @flag _ _ invoice _ events webhooks _ _ _ hfind hallowed =>
    refine .inl fun id => ?_
    show InvoiceStep _ db _ ((db.withStatus invoice .reconciliationRequired .monitor _ events
      webhooks).invoices.find? id)
    exact invoiceStep_withStatus hfind (.moved hallowed (by decide)) id
  | expire hmay hfind hallowed _ =>
    exact .inl fun id =>
      invoiceStep_withStatus hfind (.expired ⟨hmay, Right.noConfusion⟩ hallowed) id
  | @create hmay invoice address asset now events webhooks hfree hstatus _ _ hmerchant =>
    refine .inl fun id => ?_
    show InvoiceStep _ db _ ((db.invoices.insert invoice hfree).find? id)
    rw [Table.find?_insert]
    split
    · next hid =>
      rw [← hid, hfree]
      exact .created ⟨hmay, Right.noConfusion⟩ hstatus hmerchant
    · exact .same _
  | @cancel hmay stored data events webhooks _ hfind _ _ =>
    refine .inl fun id => ?_
    show InvoiceStep _ db _ ((db.withStatus stored .cancelled .merchant data events
      webhooks).invoices.find? id)
    exact invoiceStep_withStatus hfind (.cancelled ⟨hmay, Right.noConfusion⟩) id
  | edge hmay hfind hallowed _ =>
    exact .inl fun id =>
      invoiceStep_withStatus hfind (.edged ⟨hmay, Right.noConfusion⟩ hallowed) id
  | _ => exact .inl fun id => .same _

/-- Without an accepted payment and without edges taken by hand no invoice lands on PAID. -/
theorem InvoiceStep.paid_same {old : Option Invoice} {invoice : Invoice}
    (h : InvoiceStep may db old (some invoice)) (haccept : ¬ may .accept)
    (hedge : ¬ may .takeEdge) (hpaid : invoice.status = .paid) : old = some invoice := by
  generalize hnew : some invoice = new at h
  cases h with
  | same => rfl
  | created _ hstatus => cases hnew; rw [hstatus] at hpaid; cases hpaid
  | moved _ hnot =>
    cases hnew
    rw [Invoice.status_update, Option.getD_some] at hpaid
    exact absurd (by rw [hpaid]; decide) hnot
  | settled _ _ htarget =>
    cases hnew
    rw [Invoice.status_update, Option.getD_some] at hpaid
    rcases htarget with rfl | rfl <;> cases hpaid
  | accepted hmay => exact absurd hmay haccept
  | expired => cases hnew; cases hpaid
  | cancelled => cases hnew; cases hpaid
  | edged hmay => exact absurd hmay hedge

/-- Either an effect posts nothing and pays no invoice, or it is an accepted payment. -/
theorem Effect.quiet_or_accepted (h : Effect may db db') :
    (db'.ledgerTransactions = db.ledgerTransactions ∧
      ∀ id, InvoiceStep (Quiet may) db (db.invoices.find? id) (db'.invoices.find? id)) ∨
    ∃ invoice merchant target, may .accept ∧ Accepted db db' invoice merchant target := by
  rcases h.rowStep_or_accepted with ⟨hledger, -⟩ | haccept
  · rcases h.invoiceStep_or_accepted with hsteps | haccept
    · exact .inl ⟨hledger, hsteps⟩
    · exact .inr haccept
  · exact .inr haccept

theorem InvoiceStep.mono {may' : Right → Prop} (hmono : ∀ r, may r → may' r)
    {old new : Option Invoice} (h : InvoiceStep may db old new) : InvoiceStep may' db old new := by
  cases h with
  | same => exact .same _
  | created hmay hstatus hmerchant => exact .created (hmono _ hmay) hstatus hmerchant
  | moved hallowed htarget => exact .moved hallowed htarget
  | settled hmay hallowed htarget => exact .settled (hmono _ hmay) hallowed htarget
  | accepted hmay hallowed htarget hterms hstatus =>
    exact .accepted (hmono _ hmay) hallowed htarget hterms hstatus
  | expired hmay hallowed => exact .expired (hmono _ hmay) hallowed
  | cancelled hmay => exact .cancelled (hmono _ hmay)
  | edged hmay hallowed => exact .edged (hmono _ hmay) hallowed

theorem Effect.invoiceStep (h : Effect may db db') (id : String) :
    InvoiceStep may db (db.invoices.find? id) (db'.invoices.find? id) := by
  rcases h.invoiceStep_or_accepted with hstep | ⟨invoice, merchant, target, hmay, haccept⟩
  · exact (hstep id).mono fun r hr => hr.1
  · obtain ⟨⟨invoice', hfind, hterms, hstatus, -⟩, hothers⟩ := haccept.find?
    by_cases hid : id = invoice.id
    · subst hid
      rw [haccept.settleable.invoice_found, hfind]
      exact .accepted hmay haccept.allowed (statusForOutcome_settled haccept.settleable.target_of)
        hterms hstatus
    · rw [hothers id hid]
      exact .same _

/-- **The terms of an invoice never change**, and an invoice never disappears. -/
theorem Effects.terms {id : String} {invoice : Invoice} (h : Effects may db db')
    (hfind : db.invoices.find? id = some invoice) :
    ∃ invoice', db'.invoices.find? id = some invoice' ∧ invoice'.terms = invoice.terms := by
  refine h.invariant (fun x => ∃ i, x.invoices.find? id = some i ∧ i.terms = invoice.terms)
    ⟨invoice, hfind, rfl⟩ ?_
  rintro a b ⟨i, hi, hterms⟩ hab
  have hstep := hab.invoiceStep id
  rw [hi] at hstep
  obtain ⟨i', hi', hterms'⟩ := hstep.terms
  exact ⟨i', hi', hterms'.trans hterms⟩

theorem Effect.invoice_isSome {id : String} (h : Effect may db db')
    (hsome : (db.invoices.find? id).isSome = true) : (db'.invoices.find? id).isSome = true := by
  obtain ⟨invoice, hinvoice⟩ := Option.isSome_iff_exists.1 hsome
  have hstep := h.invoiceStep id
  rw [hinvoice] at hstep
  obtain ⟨invoice', hfind, -⟩ := hstep.terms
  rw [hfind]
  rfl

/-! ## Foreign keys -/

/-- What refers to an invoice or a merchant refers to one that exists. -/
structure Linked (db : Db) : Prop where
  transfer : ∀ t ∈ db.transfers, ∀ id, t.invoiceId = some id → (db.invoices.find? id).isSome = true
  merchant : ∀ i ∈ db.invoices, (db.merchants.find? i.merchantId).isSome = true

theorem RowStep.invoiceId {old : Option TokenTransfer} {t : TokenTransfer}
    (h : RowStep may db old (some t)) :
    (∃ t', old = some t' ∧ t.invoiceId = t'.invoiceId) ∨
      ∃ s : Sighting, t.invoiceId = (s.invoice db).map (·.id) := by
  generalize hnew : some t = new at h
  cases h with
  | same => exact .inl ⟨t, hnew.symm, rfl⟩
  | observed _ hrow hnone => cases hnew; exact .inr ⟨_, (observed_row hrow hnone).2.2.1⟩
  | confirmed t' n => cases hnew; exact .inl ⟨t', rfl, rfl⟩
  | orphaned => cases hnew; exact .inl ⟨_, rfl, rfl⟩
  | credited => cases hnew; exact .inl ⟨_, rfl, rfl⟩

theorem linked_empty : Linked Db.empty :=
  ⟨fun t ht => absurd ht (Table.not_mem_empty t), fun i hi => absurd hi (Table.not_mem_empty i)⟩

/-- Merchants only come and change, they never go. -/
theorem Effect.merchant_isSome {id : String} (h : Effect may db db')
    (hsome : (db.merchants.find? id).isSome = true) : (db'.merchants.find? id).isSome = true := by
  cases h with
  | merchants _ hkept => exact hkept id hsome
  | record _ _ _ _ =>
    obtain ⟨transfers, hupsert⟩ := Db.upsertTransfer_eq db _
    rw [hupsert]
    exact hsome
  | recordMove _ _ _ _ _ _ _ =>
    obtain ⟨transfers, hupsert⟩ := Db.upsertTransfer_eq db _
    rw [hupsert]
    exact hsome
  | accept _ h =>
    obtain ⟨now, db1, hpaid, hcredits⟩ := h.credits
    obtain ⟨_, _, _, _, _, _, _, _, -, -, rfl⟩ := accept_frame hpaid hcredits
    exact hsome
  | _ => exact hsome

/-- **Every effect keeps the foreign keys.** -/
theorem Effect.linked (h : Effect may db db') (hc : CreditsAgree db) (hl : Linked db) :
    Linked db' := by
  refine ⟨fun t ht id hid => ?_, fun i hi => ?_⟩
  · have hstep := h.rowStep hc t.key
    rw [Table.find?_of_mem ht] at hstep
    apply h.invoice_isSome
    rcases hstep.invoiceId with ⟨t', hold, hsame⟩ | ⟨s, hsight⟩
    · exact hl.transfer t' (Table.mem_of_find? hold) id (hsame.symm.trans hid)
    · obtain ⟨invoice, hinvoice, rfl⟩ := Option.map_eq_some_iff.1 (hsight.symm.trans hid)
      rw [(find?_of_invoice hinvoice).1]
      rfl
  · have hstep := h.invoiceStep i.id
    rw [Table.find?_of_mem hi] at hstep
    apply h.merchant_isSome
    rcases hstep.origin with ⟨i', hold, hterms⟩ | ⟨-, -, -, hmerchant⟩
    · have hsame : i.merchantId = i'.merchantId := congrArg Invoice.Terms.merchantId hterms
      rw [hsame]
      exact hl.merchant i' (Table.mem_of_find? hold)
    · exact hmerchant

/-- The credits and the foreign keys, in every state of every run. -/
theorem agree_linked {allowed : Operation → Prop} {meets : Transaction → Db → Prop}
    (h : gateway.Reachable allowed meets Db.empty db) : CreditsAgree db ∧ Linked db := by
  have hkind : ∀ op s, allowed op → ∀ t, Except.ok t ∈ gateway.script op s → True :=
    fun _ _ _ _ _ => trivial
  refine Effects.run_invariant (fun x => CreditsAgree x ∧ Linked x) h hkind
    ⟨creditsAgree_empty, linked_empty⟩ ?_
  exact fun _ _ _ _ ha hab => ⟨hab.creditsAgree ha.1, hab.linked ha.1 ha.2⟩

/-! ## Credited invoices -/

/-- The invoices something was credited to are in one of the statuses `S`. -/
def Within (S : List InvoiceStatus) (db : Db) : Prop :=
  ∀ p ∈ db.ledgerTransactions, ∀ i ∈ db.invoices, p.invoiceId = some i.id → i.status ∈ S

/-- The writers at work do not leave the statuses `S`. -/
structure ClosedUnder (may : Right → Prop) (S : List InvoiceStatus) : Prop where
  paid : .paid ∈ S
  moved : ∀ s ∈ S, ∀ target, isActorAllowed s target .monitor = true → target ∈ S
  expired : ∀ s ∈ S, isActorAllowed s .expired .system = false
  cancelled : may .cancel → .cancelled ∈ S
  edged : ¬ may .takeEdge

theorem InvoiceStep.within {S : List InvoiceStatus} {invoice invoice' : Invoice}
    (h : InvoiceStep may db (some invoice) (some invoice')) (hS : ClosedUnder may S)
    (hin : invoice.status ∈ S) : invoice'.status ∈ S := by
  generalize hold : some invoice = old at h
  generalize hnew : some invoice' = new at h
  cases h with
  | same => cases hold; cases hnew; exact hin
  | created => cases hold
  | moved hallowed => cases hold; cases hnew; exact hS.moved _ hin _ hallowed
  | settled _ hallowed => cases hold; cases hnew; exact hS.moved _ hin _ hallowed
  | accepted _ _ _ _ hstatus => cases hnew; rw [hstatus]; exact hS.paid
  | expired _ hallowed =>
    cases hold
    rw [hS.expired _ hin] at hallowed
    cases hallowed
  | cancelled hmay => cases hnew; exact hS.cancelled hmay
  | edged hmay => exact absurd hmay hS.edged

/-- **Credited invoices stay within a closed set of statuses.** -/
theorem Effect.within {S : List InvoiceStatus} (h : Effect may db db') (hS : ClosedUnder may S)
    (hc : CreditsAgree db) (hl : Linked db) (hw : Within S db) : Within S db' := by
  intro p hp i hi hpi
  have hstep := h.invoiceStep i.id
  rw [Table.find?_of_mem hi] at hstep
  -- A posting that was there before.
  have hbefore : p ∈ db.ledgerTransactions → i.status ∈ S := by
    intro hp
    rcases hstep.origin with ⟨i', hold, hterms⟩ | ⟨hnone, -⟩
    · rw [hold] at hstep
      have hid : i.id = i'.id := congrArg Invoice.Terms.id hterms
      exact hstep.within hS (hw p hp i' (Table.mem_of_find? hold) (hpi.trans (by rw [hid])))
    · -- Nothing can have been posted for an invoice that did not exist.
      obtain ⟨t, ht, -, -, horigin⟩ := hc.origin p hp
      have hsome := hl.transfer t ht i.id (horigin.invoice.symm.trans hpi)
      rw [hnone] at hsome
      cases hsome
  rcases h.rowStep_or_accepted with ⟨hledger, -⟩ | ⟨invoice, merchant, target, -, haccept⟩
  · exact hbefore (hledger ▸ hp)
  · obtain ⟨db1, -, hledger, hloop⟩ := haccept.creditLoop hc
    rcases hloop.fresh p hp with hold | ⟨t, ht, -, horigin⟩
    · exact hbefore (hledger ▸ hold)
    · -- A new posting is for the invoice that has just been paid.
      have hid : t.invoiceId = some invoice.id := ((countedTransfers_spec db invoice).1 t ht).2.1
      have hsame : i.id = invoice.id :=
        Option.some.inj ((hpi.symm.trans horigin.invoice).trans hid)
      obtain ⟨⟨invoice', hfind, -, hstatus, -⟩, -⟩ := haccept.find?
      rw [← hsame, Table.find?_of_mem hi] at hfind
      cases hfind
      rw [hstatus]
      exact hS.paid

end PaymentGateway
