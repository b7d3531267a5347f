import PaymentGateway.Monitor.Recording
import PaymentGateway.System.Pool

/-!
# Late transfers

A transfer is late when its first sighting finds its invoice unpayable, or the grace period after
the deadline over. Nobody but a person is to credit it.

**Theorem (`late_never_credited`).** Whatever the monitor, the sweep, reads and cancellations do
from then on, in any order, with a clock that does not go back and the same grace period, the row
of a transfer that was late when it was recorded is never credited and never among the transfers
that may count, and no ledger transaction credits it to its invoice.

The invoice stays `Closed`: the moves of these writers lead from an unpayable status to unpayable
ones, and the time only grows. So each new sighting of the transfer finds it late again, or not
matched at all, and a settlement credits only what it has counted.
-/

namespace PaymentGateway

open Keyed Fallible Transactional MonitorService

variable {db db' : Db} {may : Right → Prop}

/-! ## Closed invoices -/

/-- What is sighted from now on for this invoice is late. -/
def Closed (db : Db) (id : String) (grace : Nat) (clock : Int) : Prop :=
  ∃ invoice, db.invoices.find? id = some invoice ∧
    (isWithinGrace invoice.expiresAt clock grace = false ∨
      isPayableStatus invoice.status = false)

theorem Closed.later {id : String} {grace : Nat} {clock clock' : Int}
    (h : Closed db id grace clock) (hle : clock ≤ clock') : Closed db id grace clock' := by
  obtain ⟨invoice, hfind, hlate | hunpayable⟩ := h
  · refine ⟨invoice, hfind, .inl ?_⟩
    simp only [isWithinGrace, decide_eq_false_iff_not, not_le] at hlate ⊢
    omega
  · exact ⟨invoice, hfind, .inr hunpayable⟩

theorem Closed.alike {id : String} {grace : Nat} {clock : Int} (h : Closed db id grace clock)
    (halike : Alike db db') : Closed db' id grace clock := by
  obtain ⟨invoice, hfind, hclosed⟩ := h
  have hjudged := halike.invoices id
  rw [hfind, Option.map_some] at hjudged
  obtain ⟨invoice', hfind', hsame⟩ := Option.map_eq_some_iff.1 hjudged
  have hterms : invoice'.terms = invoice.terms := congrArg Prod.fst hsame
  have hpayable : isPayableStatus invoice'.status = isPayableStatus invoice.status :=
    congrArg Prod.snd hsame
  have hexpires : invoice'.expiresAt = invoice.expiresAt :=
    congrArg Invoice.Terms.expiresAt hterms
  exact ⟨invoice', hfind', by rwa [hexpires, hpayable]⟩

/-- The statuses outside the payable window. -/
def unpayable : List InvoiceStatus :=
  [.created, .paid, .overpaid, .expired, .cancelled, .failed, .refunded,
    .complianceReviewRequired, .latePaymentReview, .reconciliationRequired]

theorem mem_unpayable {s : InvoiceStatus} : s ∈ unpayable ↔ isPayableStatus s = false := by
  cases s <;> decide

/-- Only a person leads back into it. -/
theorem closedUnder_unpayable (hedge : ¬ may .takeEdge) : ClosedUnder may unpayable where
  paid := by decide
  moved := by
    intro s hs target
    revert hs
    cases s <;> cases target <;> decide
  expired := by decide
  cancelled _ := by decide
  edged := hedge

theorem Closed.effect {id : String} {grace : Nat} {clock : Int} (h : Closed db id grace clock)
    (hedge : ¬ may .takeEdge) (heffect : Effect may db db') : Closed db' id grace clock := by
  obtain ⟨invoice, hfind, hclosed⟩ := h
  have hstep := heffect.invoiceStep id
  rw [hfind] at hstep
  obtain ⟨invoice', hfind', hterms⟩ := hstep.terms
  rw [hfind'] at hstep
  have hexpires : invoice'.expiresAt = invoice.expiresAt :=
    congrArg Invoice.Terms.expiresAt hterms
  refine ⟨invoice', hfind', ?_⟩
  rcases hclosed with hlate | hunpayable
  · exact .inl (by rwa [hexpires])
  · exact .inr (mem_unpayable.1 (hstep.within (closedUnder_unpayable hedge)
      (mem_unpayable.2 hunpayable)))

/-- A sighting for a closed invoice is not counted. -/
theorem Closed.not_pending {s : Sighting} {id : String} (h : Closed db id s.graceSeconds s.now)
    (hid : (s.invoice db).map (·.id) = some id) :
    (s.decision db).status ≠ .pendingConfirmation := by
  rw [Ne, decision_pending_iff]
  rintro ⟨invoice, hinvoice, hcounts⟩
  obtain ⟨closed, hfind, hclosed⟩ := h
  rw [hinvoice] at hid
  have hsame : invoice.id = id := Option.some.inj hid
  rw [← hsame, (find?_of_invoice hinvoice).1] at hfind
  cases hfind
  rcases hclosed with hlate | hunpayable
  · rw [hcounts.in_time] at hlate
    cases hlate
  · rw [hcounts.payable] at hunpayable
    cases hunpayable

/-! ## The row of a late transfer -/

/-- A row that may be counted or credited. -/
def Countable (t : TokenTransfer) : Prop :=
  t.matchStatus = .pendingConfirmation ∨ t.matchStatus = .credited

/-- What a sighting writes under a key. -/
theorem recordTransfer_written {s : Sighting} (h : recordTransfer db s = .ok db')
    (k : TransferKey) :
    db'.transfers.find? k = db.transfers.find? k ∨
    (s.key = k ∧ ∃ row, db'.transfers.find? k = some row ∧
      row.toAddressNormalized = s.transfer.toAddress ∧
      row.invoiceId = (s.invoice db).map (·.id) ∧ row.matchStatus = (s.decision db).status) := by
  rcases recordTransfer_eq_ok h with ⟨-, rfl⟩ | ⟨huncredited, row, hrow, hcases⟩
  · exact .inl rfl
  · have hrows : db'.transfers.find? k = (db.upsertTransfer row).transfers.find? k := by
      rcases hcases with ⟨rfl, -⟩ | ⟨_, _, _, _, _, -, -, -, -, -, rfl⟩ <;> rfl
    rw [hrows, Db.find?_upsertTransfer]
    unfold Sighting.row at hrow
    split_ifs at hrow
    cases hrow
    by_cases hk : k = s.key
    · rw [if_pos hk]
      refine .inr ⟨hk.symm, _, rfl, ?_⟩
      cases db.transfers.find? k <;> exact ⟨rfl, rfl, rfl⟩
    · rw [if_neg hk]
      exact .inl rfl

/-- No row under `key` that is matched to the closed invoice `id` can be counted. -/
structure Refused (key : TransferKey) (recipient id : String) (grace : Nat) (clock : Int)
    (db : Db) : Prop where
  credits : CreditsAgree db
  closed : Closed db id grace clock
  matched : ∀ t, db.transfers.find? key = some t → t.toAddressNormalized = recipient →
    t.invoiceId = some id
  uncounted : ∀ t, db.transfers.find? key = some t → t.invoiceId = some id → ¬ Countable t

/-- Besides, the address `recipient` belongs to that invoice. -/
structure Shut (key : TransferKey) (recipient id : String) (grace : Nat) (clock : Int)
    (db : Db) : Prop extends Refused key recipient id grace clock db where
  unassigned : Unassigned db
  owned : ∃ a, db.findAddress key.network recipient = some a ∧ a.invoiceId = some id

variable {key : TransferKey} {recipient id : String} {grace : Nat} {clock : Int}

theorem Shut.later {clock' : Int} (h : Shut key recipient id grace clock db)
    (hle : clock ≤ clock') : Shut key recipient id grace clock' db :=
  { h with closed := h.closed.later hle }

/-- The invoice of a sighting of the address. -/
theorem invoice_of_owned {s : Sighting} {a : PaymentAddress}
    (ha : db.findAddress s.network s.transfer.toAddress = some a) (hid : a.invoiceId = some id)
    (hclosed : Closed db id grace clock) : (s.invoice db).map (·.id) = some id := by
  obtain ⟨invoice, hfind, -⟩ := hclosed
  have hinvoice : s.invoice db = some invoice := by
    unfold Sighting.invoice
    rw [ha, Option.bind_some, hid, Option.bind_some, hfind]
  rw [hinvoice, Option.map_some, Table.key_of_find? hfind]

/-- One more sighting. -/
theorem Shut.recordTransfer {s : Sighting} (h : Shut key recipient id s.graceSeconds s.now db)
    (hok : MonitorService.recordTransfer db s = .ok db') :
    Shut key recipient id s.graceSeconds s.now db' := by
  have halike := alike_recordTransfer hok
  have heffects : Effects (fun _ => True) db db' := recordTransfer_effects trivial hok
  obtain ⟨a, ha, haid⟩ := h.owned
  refine ⟨⟨heffects.creditsAgree h.credits, h.closed.alike halike, fun t ht hto => ?_,
    fun t ht hid => ?_⟩, ?_, ⟨a, ?_, haid⟩⟩
  · rcases recordTransfer_written hok key with hsame | ⟨hkey, row, hrow, hrecipient, hinvoice, -⟩
    · exact h.matched t (hsame ▸ ht) hto
    · rw [hrow] at ht
      cases ht
      rw [hinvoice]
      have hnetwork : s.network = key.network := congrArg TransferKey.network hkey
      refine invoice_of_owned (a := a) ?_ haid h.closed
      rw [← hrecipient, hto, hnetwork]
      exact ha
  · rcases recordTransfer_written hok key with hsame | ⟨-, row, hrow, -, hinvoice, hstatus⟩
    · exact h.uncounted t (hsame ▸ ht) hid
    · rw [hrow] at ht
      cases ht
      rw [hinvoice] at hid
      rintro (hpending | hcredited)
      · exact h.closed.not_pending hid (hstatus ▸ hpending)
      · exact (decision_ne rfl).1 (hstatus ▸ hcredited)
  · unfold Unassigned
    rw [halike.addresses]
    exact h.unassigned
  · unfold Db.findAddress
    rw [halike.addresses]
    exact ha

theorem Shut.recordTransfers {network : Network} {chainTx : ChainTransaction}
    {transfers : List ParsedTransfer} {now : Int} (h : Shut key recipient id grace now db)
    (hok : MonitorService.recordTransfers network chainTx transfers grace now db = .ok db') :
    Shut key recipient id grace now db' := by
  obtain ⟨chainTxs, hchain⟩ := recordChainTransaction_eq db network chainTx now
  unfold MonitorService.recordTransfers at hok
  rw [hchain] at hok
  have hstart : Shut key recipient id grace now { db with chainTxs } :=
    ⟨⟨⟨h.credits.1, h.credits.2, h.credits.3⟩, h.closed, h.matched, h.uncounted⟩, h.unassigned,
      h.owned⟩
  refine foldlM_invariant (Shut key recipient id grace now) hstart ?_ hok
  intro t _ a b ha hab
  exact ha.recordTransfer hab

/-- What is no sighting does not match a row anew, and credits only what was counted. -/
theorem RowStep.refused {t : TokenTransfer} {old : Option TokenTransfer}
    (h : RowStep may db old (some t)) (hrecord : ¬ may .record)
    (hmatched : ∀ t, old = some t → t.toAddressNormalized = recipient → t.invoiceId = some id)
    (huncounted : ∀ t, old = some t → t.invoiceId = some id → ¬ Countable t) :
    (t.toAddressNormalized = recipient → t.invoiceId = some id) ∧
      (t.invoiceId = some id → ¬ Countable t) := by
  generalize hnew : some t = new at h
  cases h with
  | same => exact ⟨hmatched t hnew.symm, huncounted t hnew.symm⟩
  | observed hmay => exact absurd hmay hrecord
  | confirmed t' n => cases hnew; exact ⟨hmatched t' rfl, huncounted t' rfl⟩
  | @orphaned _ t' =>
    cases hnew
    refine ⟨hmatched t' rfl, fun _ => ?_⟩
    rintro (hpending | hcredited)
    · cases hpending
    · cases hcredited
  | @credited _ invoice t' now hcounted _ =>
    cases hnew
    refine ⟨hmatched t' rfl, fun hid _ => huncounted t' rfl hid ?_⟩
    exact (((countedTransfers_spec db invoice).1 t' hcounted).2.2.2).symm

theorem Effects.refused (h : Effects may db db') (hrecord : ¬ may .record)
    (hedge : ¬ may .takeEdge) (hrefused : Refused key recipient id grace clock db) :
    Refused key recipient id grace clock db' := by
  refine h.invariant (Refused key recipient id grace clock) hrefused fun a b ha hab => ?_
  have hrow : ∀ t, b.transfers.find? key = some t →
      (t.toAddressNormalized = recipient → t.invoiceId = some id) ∧
        (t.invoiceId = some id → ¬ Countable t) := by
    intro t ht
    have hrow := hab.rowStep ha.credits key
    rw [ht] at hrow
    exact hrow.refused hrecord ha.matched ha.uncounted
  exact ⟨hab.creditsAgree ha.credits, ha.closed.effect hedge hab, fun t ht => (hrow t ht).1,
    fun t ht => (hrow t ht).2⟩

/-- What records nothing and takes no edge by hand. -/
theorem Shut.effects (h : Shut key recipient id grace clock db) (heffects : Effects may db db')
    (hrecord : ¬ may .record) (hedge : ¬ may .takeEdge)
    (hstep : ∀ k, AddressStep (db.addresses.find? k) (db'.addresses.find? k)) :
    Shut key recipient id grace clock db' := by
  obtain ⟨a, ha, haid⟩ := h.owned
  obtain ⟨a', ha', haid', -⟩ := KeepsAssigned.of_step h.unassigned hstep _ a id ha haid
  exact ⟨heffects.refused hrecord hedge h.toRefused, h.unassigned.step hstep, a', ha', haid'⟩

/-! ## Moves -/

def Transaction.time : Transaction → Option Int
  | recordTransfers _ _ _ _ now | confirmTransfer _ _ now | orphanTransaction _ now
  | expireOne _ now | loadAndMaybeExpire _ _ now | cancelWrite _ now | createInvoice _ now
  | registerAddress _ _ _ _ now => some now
  | registerMerchant _ | updateMerchant _ | takeEdge _ _ _ => none

namespace Move

def time : Move → Option Int
  | atomic t => t.time
  | beginCancel _ _ now | finishCancel _ now => some now

/-- No person moves an invoice by hand, and the monitor keeps its grace period. -/
def Unattended (grace : Nat) : Move → Prop
  | atomic (.takeEdge _ _ _) => False
  | atomic (.recordTransfers _ _ _ graceSeconds _) => graceSeconds = grace
  | _ => True

instance (grace : Nat) : DecidablePred (Unattended grace)
  | atomic (.takeEdge _ _ _) => isFalse not_false
  | atomic (.recordTransfers _ _ _ graceSeconds _) =>
    inferInstanceAs (Decidable (graceSeconds = grace))
  | atomic (.confirmTransfer _ _ _) | atomic (.orphanTransaction _ _) | atomic (.expireOne _ _)
  | atomic (.loadAndMaybeExpire _ _ _) | atomic (.cancelWrite _ _) | atomic (.createInvoice _ _)
  | atomic (.registerMerchant _) | atomic (.updateMerchant _)
  | atomic (.registerAddress _ _ _ _ _) | beginCancel _ _ _ | finishCancel _ _ => isTrue trivial

/-- The rights a move uses. -/
def rights : Move → Right → Prop
  | atomic t, r => t.rights r
  | beginCancel _ _ _, r => .expire = r
  | finishCancel _ _, r => .cancel = r

/-- What a move does to the payment tables. -/
theorem effects {m : Move} {s s' : Session} (h : m.apply s = .ok s') :
    Effects m.rights s.db s'.db ∧
      ∀ k, AddressStep (s.db.addresses.find? k) (s'.db.addresses.find? k) := by
  cases m with
  | atomic t =>
    obtain ⟨db, ht, rfl⟩ := atomic_eq_ok h
    exact ⟨Transaction.effects ht, Transaction.addressStep ht⟩
  | beginCancel merchantId invoiceId now =>
    obtain ⟨db, read, hload, -, rfl⟩ := beginCancel_eq_ok h
    have heffects : Effects (Eq .expire) s.db db := (loadAndMaybeExpire_eq_ok rfl hload).1
    refine ⟨heffects, fun k => ?_⟩
    rw [heffects.addresses_eq Right.noConfusion Right.noConfusion]
    exact .same _
  | finishCancel position now =>
    rcases finishCancel_eq_ok h with ⟨-, rfl⟩ | ⟨read, db, -, hwrite, rfl⟩
    · exact ⟨.refl, fun k => .same _⟩
    · have heffects : Effects (Eq .cancel) s.db db := cancelWrite_effects rfl hwrite
      refine ⟨heffects, fun k => ?_⟩
      rcases cancelWrite_step hwrite k with hsame | ⟨-, hstep⟩
      · rw [hsame]
        exact .same _
      · exact hstep

end Move

/-- One move, at the time it reads off the clock. -/
theorem Shut.move {m : Move} {s s' : Session} (h : Shut key recipient id grace clock s.db)
    (hm : m.Unattended grace) (htime : ∀ now ∈ m.time, clock ≤ now) (hok : m.apply s = .ok s') :
    Shut key recipient id grace (m.time.getD clock) s'.db := by
  have hle : clock ≤ m.time.getD clock := by
    cases hnow : m.time with
    | none => exact le_rfl
    | some now => exact htime now hnow
  obtain ⟨heffects, hstep⟩ := Move.effects hok
  have hquiet : ¬ m.rights .record → ¬ m.rights .takeEdge →
      Shut key recipient id grace (m.time.getD clock) s'.db := fun hrecord hedge =>
    (h.later hle).effects heffects hrecord hedge hstep
  cases m with
  | beginCancel => exact hquiet Right.noConfusion Right.noConfusion
  | finishCancel => exact hquiet Right.noConfusion Right.noConfusion
  | atomic t =>
    cases t with
    | takeEdge => exact hm.elim
    | recordTransfers network chainTx transfers graceSeconds now =>
      obtain rfl : graceSeconds = grace := hm
      obtain ⟨db, ht, rfl⟩ := Move.atomic_eq_ok hok
      exact (h.later (htime now rfl)).recordTransfers ht
    | confirmTransfer =>
      exact hquiet (by simp [Move.rights, Transaction.rights])
        (by simp [Move.rights, Transaction.rights])
    | _ => exact hquiet Right.noConfusion Right.noConfusion

/-! ## The first recording -/

/-- A sighting found late leaves its invoice closed, and its row out of the count. -/
theorem shut_of_decision {s : Sighting} {row : TokenTransfer} (hcredits : CreditsAgree db)
    (hunassigned : Unassigned db) (hok : MonitorService.recordTransfer db s = .ok db')
    (hlate : (s.decision db).status = .latePaymentReview)
    (hrow : db'.transfers.find? s.key = some row)
    (hrecipient : row.toAddressNormalized = s.transfer.toAddress)
    (hinvoice : row.invoiceId = (s.invoice db).map (·.id))
    (hstatus : row.matchStatus = (s.decision db).status) :
    ∃ id, row.invoiceId = some id ∧
      Shut s.key row.toAddressNormalized id s.graceSeconds s.now db' := by
  have halike := alike_recordTransfer hok
  have heffects : Effects (fun _ => True) db db' := recordTransfer_effects trivial hok
  obtain ⟨-, -, invoice, hfound, hclosed⟩ := (decision_late_iff s db).1 hlate
  obtain ⟨hfind, a, ha, haid⟩ := find?_of_invoice hfound
  rw [hfound, Option.map_some] at hinvoice
  have hshut : Closed db invoice.id s.graceSeconds s.now := ⟨invoice, hfind, hclosed⟩
  refine ⟨invoice.id, hinvoice, ⟨heffects.creditsAgree hcredits, hshut.alike halike,
    fun t ht _ => ?_, fun t ht _ => ?_⟩, ?_, a, ?_, haid⟩
  · rw [hrow] at ht
    cases ht
    exact hinvoice
  · rw [hrow] at ht
    cases ht
    rw [hlate] at hstatus
    rintro (hpending | hcredited)
    · rw [hstatus] at hpending
      cases hpending
    · rw [hstatus] at hcredited
      cases hcredited
  · unfold Unassigned
    rw [halike.addresses]
    exact hunassigned
  · rw [hrecipient]
    unfold Db.findAddress
    rw [halike.addresses]
    exact ha

/-- A transaction that records a row for the first time, and records it late. -/
theorem shut_of_first {network : Network} {chainTx : ChainTransaction}
    {transfers : List ParsedTransfer} {now : Int} {row : TokenTransfer}
    (hcredits : CreditsAgree db) (hunassigned : Unassigned db)
    (hok : MonitorService.recordTransfers network chainTx transfers grace now db = .ok db')
    (hfirst : db.transfers.find? row.key = none)
    (hrow : db'.transfers.find? row.key = some row)
    (hlate : row.matchStatus = .latePaymentReview) :
    ∃ id, row.invoiceId = some id ∧
      Shut row.key row.toAddressNormalized id grace now db' := by
  obtain ⟨chainTxs, hchain⟩ := recordChainTransaction_eq db network chainTx now
  unfold MonitorService.recordTransfers at hok
  rw [hchain] at hok
  have hall : CreditsAgree db' ∧ Unassigned db' ∧ ∀ t, db'.transfers.find? row.key = some t →
      t.matchStatus = .latePaymentReview → ∃ id, t.invoiceId = some id ∧
        Shut row.key t.toAddressNormalized id grace now db' := by
    refine foldlM_invariant (fun x => CreditsAgree x ∧ Unassigned x ∧
      ∀ t, x.transfers.find? row.key = some t → t.matchStatus = .latePaymentReview →
        ∃ id, t.invoiceId = some id ∧
          Shut row.key t.toAddressNormalized id grace now x) ?_ ?_ hok
    · refine ⟨⟨hcredits.1, hcredits.2, hcredits.3⟩, hunassigned, fun t ht => ?_⟩
      have hnone : db.transfers.find? row.key = some t := ht
      rw [hfirst] at hnone
      cases hnone
    · rintro transfer _ a b ⟨hcredits, hunassigned, hrows⟩ hab
      have heffects : Effects (fun _ => True) a b := recordTransfer_effects trivial hab
      have hkept : Unassigned b := by
        unfold Unassigned
        rw [(alike_recordTransfer hab).addresses]
        exact hunassigned
      refine ⟨heffects.creditsAgree hcredits, hkept, fun t ht hlate => ?_⟩
      rcases recordTransfer_written hab row.key with
        hsame | ⟨hkey, written, hwritten, hrecipient, hinvoice, hstatus⟩
      · obtain ⟨id, hid, hshut⟩ := hrows t (hsame ▸ ht) hlate
        exact ⟨id, hid, hshut.recordTransfer hab⟩
      · rw [hwritten] at ht
        cases ht
        rw [← hkey]
        exact shut_of_decision hcredits hunassigned hab (hstatus ▸ hlate) (hkey ▸ hwritten)
          hrecipient hinvoice hstatus
  exact hall.2.2 row hrow hlate

/-! ## Runs -/

theorem Move.agree_unassigned {s : Session}
    (h : interleaved.Reachable (fun _ => True) (fun _ _ => True) Session.empty s) :
    CreditsAgree s.db ∧ Unassigned s.db := by
  have hkind : ∀ op (s : Session), (fun _ : Move => True) op → ∀ t,
      Except.ok t ∈ interleaved.script op s → (fun _ : Move => True) t := fun _ _ _ _ _ => trivial
  have hstart : CreditsAgree Session.empty.db ∧ Unassigned Session.empty.db :=
    ⟨creditsAgree_empty, unassigned_empty⟩
  refine h.invariant (P := fun s => CreditsAgree s.db ∧ Unassigned s.db) hkind hstart ?_
  intro m a b _ ha _ hok
  obtain ⟨heffects, hstep⟩ := Move.effects hok
  exact ⟨heffects.creditsAgree ha.1, ha.2.step hstep⟩

/-- **Late transfers are never credited**: see the head of this module. -/
theorem late_never_credited {grace : Nat} {before recorded after : Session} {now clock : Int}
    {network : Network} {chainTx : ChainTransaction} {transfers : List ParsedTransfer}
    {row : TokenTransfer}
    (hbefore : interleaved.Reachable (fun _ => True) (fun _ _ => True) Session.empty before)
    (hrecord : (Move.atomic (.recordTransfers network chainTx transfers grace now)).apply before =
      .ok recorded)
    (hfirst : before.db.transfers.find? row.key = none) (hrow : row ∈ recorded.db.transfers)
    (hlate : row.matchStatus = .latePaymentReview)
    (hafter : (interleaved.clocked Move.time).Reachable (Move.Unattended grace)
      (Machine.OnTime Move.time) (recorded, now) (after, clock)) :
    (∀ t ∈ after.db.transfers, t.key = row.key →
      t.toAddressNormalized = row.toAddressNormalized →
      t.creditedAt = none ∧ ∀ invoiceId, t ∉ confirmedTransfers after.db invoiceId) ∧
    ∀ p ∈ after.db.ledgerTransactions, p.tokenTransferId = some row.key →
      p.invoiceId ≠ row.invoiceId := by
  obtain ⟨hcredits, hunassigned⟩ := Move.agree_unassigned hbefore
  obtain ⟨db, hok, rfl⟩ := Move.atomic_eq_ok hrecord
  obtain ⟨id, hid, hstart⟩ := shut_of_first hcredits hunassigned hok hfirst
    (Table.find?_of_mem hrow) hlate
  have hkind : ∀ op (s : Session × Int), Move.Unattended grace op → ∀ t,
      Except.ok t ∈ (interleaved.clocked Move.time).script op s → Move.Unattended grace t := by
    intro op s hop t ht
    cases List.mem_singleton.1 ht
    exact hop
  have hshut : Shut row.key row.toAddressNormalized id grace clock after.db := by
    refine hafter.invariant (P := fun s => Shut row.key row.toAddressNormalized id grace s.2
      s.1.db) hkind hstart ?_
    intro m a b hm ha htime hstep
    obtain ⟨hmove, hclock⟩ := Machine.clocked_eq_ok hstep
    rw [hclock]
    exact ha.move hm htime hmove
  refine ⟨fun t ht hkey hto => ?_, fun p hp htoken hpid => ?_⟩
  · have hfind : after.db.transfers.find? row.key = some t := hkey ▸ Table.find?_of_mem ht
    have huncounted := hshut.uncounted t hfind (hshut.matched t hfind hto)
    refine ⟨?_, fun invoiceId hconfirmed => huncounted ?_⟩
    · by_contra hne
      exact huncounted (.inr ((hshut.credits.credited_iff t ht).1
        (Option.isSome_iff_ne_none.2 hne)))
    · have hp := (List.mem_filter.1 hconfirmed).2
      simp only [Bool.decide_and, Bool.and_eq_true, decide_eq_true_eq] at hp
      exact hp.2.symm
  · obtain ⟨t, ht, hcredited, -, horigin⟩ := hshut.credits.origin p hp
    have hkey : t.key = row.key := Option.some.inj (horigin.transfer.symm.trans htoken)
    have hfind : after.db.transfers.find? row.key = some t := hkey ▸ Table.find?_of_mem ht
    refine hshut.uncounted t hfind ?_ (.inr ((hshut.credits.credited_iff t ht).1 hcredited))
    exact (horigin.invoice.symm.trans hpid).trans hid

/-! ## A payment after the sweep -/

namespace Shop

def step (m : Move) (s : Session) : Session := (m.apply s).toOption.getD s

theorem apply_step {m : Move} {s : Session} (h : (m.apply s).isOk = true) :
    m.apply s = .ok (step m s) := by
  unfold step
  cases hm : m.apply s with
  | error e => rw [hm] at h; cases h
  | ok a => rfl

/-- The deadline of the invoice has passed, and the sweep has seen it. -/
def swept : Session := session [
  .atomic (.registerMerchant merchant),
  .atomic (.registerAddress "shop" ⟨.ethereum, "0xpay"⟩ "0xPay" none 0),
  .atomic (.createInvoice ⟨"i", "shop", "o", .ethereum, "USDT", 100000000, 3600⟩ 0),
  .atomic (.expireOne "i" 901000)]

/-- A transaction that pays the invoice, sighted at `now`. -/
def pays (hash : String) (now : Int) : Move :=
  .atomic (.recordTransfers .ethereum (mined hash 100 1) [usdtTransfer 5 100000000] 120 now)

def late : Session := step (pays "a" 902000) swept

/-- What the late payment goes through: it is processed again, another one comes, and both have
all their confirmations. -/
def lateMoves : List Move :=
  [pays "a" 903000, pays "b" 904000] ++
  (step (pays "b" 904000) late).db.transfers.rows.map fun t =>
    .atomic (.confirmTransfer t ⟨12, some 100, 111⟩ 905000)

def afterLate : Session × Int :=
  ((interleaved.clocked Move.time).log lateMoves [(late, 902000)]).headD (late, 902000)

end Shop

theorem late_never_credited_shop :
    Shop.late.db.transfers.rows.map (·.matchStatus) = [.latePaymentReview] ∧
    Shop.afterLate.1.db.transfers.rows.map (fun t => (t.matchStatus, t.confirmations)) =
      [(.latePaymentReview, 12), (.latePaymentReview, 12)] ∧
    ∀ row ∈ Shop.late.db.transfers, ∀ p ∈ Shop.afterLate.1.db.ledgerTransactions,
      p.tokenTransferId = some row.key → p.invoiceId ≠ row.invoiceId := by
  refine ⟨by decide +kernel, by decide +kernel, fun row hrow => ?_⟩
  have hbefore : interleaved.Reachable (fun _ => True) (fun _ _ => True) Session.empty Shop.swept :=
    Machine.reachable_log (fun _ _ => trivial) (Machine.allMeet_true _ _)
  have hrecord := Shop.apply_step (m := Shop.pays "a" 902000) (s := Shop.swept) (by decide +kernel)
  have hfirst : Shop.swept.db.transfers.find? row.key = none := by
    have hempty : Shop.swept.db.transfers.rows.length = 0 := by decide +kernel
    refine Table.find?_eq_none.2 fun t ht => ?_
    have hmem : t ∈ Shop.swept.db.transfers.rows := ht
    rw [List.length_eq_zero_iff.1 hempty] at hmem
    cases hmem
  have hlate : ∀ status ∈ Shop.late.db.transfers.rows.map (·.matchStatus),
      status = .latePaymentReview := by decide +kernel
  have hmoves : ∀ m ∈ Shop.lateMoves, m.Unattended 120 := by decide +kernel
  have hmeets : (interleaved.clocked Move.time).AllMeet (Machine.OnTime Move.time) Shop.lateMoves
    (Shop.late, 902000) := by decide +kernel
  have hafter : (interleaved.clocked Move.time).Reachable (Move.Unattended 120)
    (Machine.OnTime Move.time) (Shop.late, 902000) Shop.afterLate :=
      Machine.reachable_log hmoves hmeets
  exact (late_never_credited hbefore hrecord hfirst hrow
    (hlate _ (List.mem_map_of_mem hrow)) hafter).2

end PaymentGateway
