import PaymentGateway.Monitor.Failures
import PaymentGateway.Monitor.Orphaning
import PaymentGateway.Monitor.Report
import PaymentGateway.System.Progress

/-!
# What the state machine rejects

The monitor looks for an edge with `canTransition`, which does not ask who may take it, and then
asserts the transition as the monitor. Where the edge belongs to somebody else (`Gated`), the
assertion throws, the transaction is lost, and with it the rest of the operation: one such invoice
stops the confirmation of all others of its network, at every tick.

**Theorem (`rejected_iff`).** In every state of every run, whoever acts, an operation of the monitor
ends in an `InvalidTransitionError` exactly if one of the transactions it begins is `Blocked` in the
state in which it begins.

* A sighting never is. Every edge it looks for is the monitor's.
* A report is, if it confirms a transfer of an invoice in COMPLIANCE_REVIEW_REQUIRED, or reaches the
  threshold of an invoice in RECONCILIATION_REQUIRED, or pays one in LATE_PAYMENT_REVIEW.
* The orphaning of a transaction is, if it takes from an invoice in COMPLIANCE_REVIEW_REQUIRED or
  FAILED the last transfer that it waits for.

So one invoice stops the confirmation of the others on its network exactly when a report on it is
blocked (`unpoisoned_iff`), and the monitor alone can bring an invoice there (`Shop.poisoned`).

For reports the inversion of each function is turned round, from the gate outwards. For orphanings
the loop over the transfers is followed with what it has left of the rows (`SweepFrame`) and of the
status of an invoice (`Held`).
-/

namespace PaymentGateway

open Keyed Fallible Transactional

/-- Stopped by the gate of the state machine. -/
def Rejected {α : Type} (x : Except Error α) : Prop := ∃ e, x = .error e ∧ e.IsInvalidTransition

section Rejected

variable {α β : Type} {x : Except Error α} {f : α → Except Error β}

theorem Unrejected.not_rejected (h : Unrejected x) : ¬Rejected x := by
  intro hrejected
  obtain ⟨e, he, hinvalid⟩ := hrejected
  exact h e he hinvalid

theorem rejected_bind_iff {a : α} (h : x = .ok a) : Rejected (x >>= f) ↔ Rejected (f a) := by
  rw [h, bind_ok]

theorem Rejected.bind (h : Rejected x) (f : α → Except Error β) : Rejected (x >>= f) := by
  obtain ⟨e, he, hinvalid⟩ := h
  exact ⟨e, by rw [he]; rfl, hinvalid⟩

/-- What comes after does not reject, so the rejection is the first part's. -/
theorem rejected_bind_left (h : ∀ a, x = .ok a → Unrejected (f a)) :
    Rejected (x >>= f) ↔ Rejected x := by
  refine ⟨fun hrejected => ?_, fun hrejected => hrejected.bind f⟩
  obtain ⟨e, he, hinvalid⟩ := hrejected
  cases hx : x with
  | error e' =>
    rw [hx] at he
    cases he
    exact ⟨_, rfl, hinvalid⟩
  | ok a =>
    rw [hx, bind_ok] at he
    exact absurd hinvalid (h a hx e he)

end Rejected

/-- There is an edge, and it is not the monitor's. -/
def Gated (source target : InvoiceStatus) : Prop :=
  canTransition source target = true ∧ isActorAllowed source target .monitor = false

section Gated

variable {s : InvoiceStatus}

theorem gated_confirming : Gated s .confirming ↔ s = .complianceReviewRequired := by
  unfold Gated
  cases s <;> decide

theorem gated_paid : Gated s .paid ↔ s ∈ humanOnly := by
  unfold Gated
  cases s <;> decide

theorem gated_pending :
    Gated s .pending ↔ s ∈ [.created, .failed, .complianceReviewRequired] := by
  unfold Gated
  cases s <;> decide

theorem not_gated_of {target : InvoiceStatus} (h : target = .detected ∨ target = .latePaymentReview ∨
    target = .reconciliationRequired) : ¬Gated s target := by
  intro hgated
  have hallowed := canTransition_monitor h hgated.1
  rw [hgated.2] at hallowed
  cases hallowed

end Gated

namespace MonitorService

variable {db db' x y : Db} {invoice : Invoice} {target : InvoiceStatus} {n : Nat}

/-! ## Moves and settlements -/

theorem applyTransition_rejected_iff {id : String} {source target : InvoiceStatus}
    {writer : TransitionActor} {data : InvoiceData} {event : Db.EventData} :
    Rejected (db.applyTransition id source target writer data event) ↔
      isActorAllowed source target writer = false := by
  cases hallowed : isActorAllowed source target writer with
  | true => simpa using Unrejected.not_rejected (Db.applyTransition_unrejected hallowed)
  | false => exact iff_of_true (Db.applyTransition_rejected hallowed) rfl

theorem moveInvoice_rejected_iff {data : InvoiceData} {eventType : String} {notify : Bool} :
    Rejected (moveInvoice db invoice target data eventType notify) ↔
      Gated invoice.status target := by
  unfold moveInvoice Gated
  by_cases hedge : canTransition invoice.status target = true
  · rw [hedge, Bool.not_true, if_neg Bool.false_ne_true, rejected_bind_left]
    · rw [applyTransition_rejected_iff]
      simp
    · intro db1 _
      split
      · exact (Db.emitWebhook_plain _ _ _).unrejected
      · exact avoids_ok _
  · rw [Bool.not_eq_true] at hedge
    rw [hedge, Bool.not_false, if_pos rfl]
    have hok : ¬Rejected (.ok db : Except Error Db) := Unrejected.not_rejected (avoids_ok db)
    simpa using hok

theorem advanceConfirming_rejected_iff :
    Rejected (advanceConfirming db invoice n) ↔
      1 ≤ n ∧ invoice.status = .complianceReviewRequired := by
  unfold advanceConfirming
  by_cases hn : n < 1
  · rw [if_pos hn]
    have hok : ¬Rejected (.ok db : Except Error Db) := Unrejected.not_rejected (avoids_ok db)
    exact ⟨fun h => absurd h hok, fun h => absurd h.1 (by omega)⟩
  · rw [if_neg hn, moveInvoice_rejected_iff, gated_confirming]
    exact ⟨fun h => ⟨by omega, h⟩, fun h => h.2⟩

theorem acceptPayment_unrejected (htarget : target = .paid ∨ target = .underpaid ∨
    target = .overpaid) (now : Int) : Unrejected (acceptPayment db invoice target now) := by
  unfold acceptPayment
  split
  · next hne =>
    have hallowed : isActorAllowed target .paid .monitor = true := by
      rcases htarget with rfl | rfl | rfl
      · exact absurd rfl hne
      · decide
      · decide
    apply Avoids.bind (Db.applyTransition_unrejected hallowed)
    exact fun _ _ => (Db.emitWebhook_plain _ _ _).unrejected
  · exact (Db.updateInvoice_plain _ _ _ _).unrejected

/-- Past its gate a settlement is not rejected. -/
theorem settleInvoice_rejected_iff {merchant : Merchant} {now : Int} (htarget : target = .paid ∨
    target = .underpaid ∨ target = .overpaid) :
    Rejected (settleInvoice db invoice merchant target now) ↔
      isActorAllowed invoice.status target .monitor = false := by
  unfold settleInvoice
  rw [rejected_bind_left]
  · exact applyTransition_rejected_iff
  · intro db1 _
    apply Avoids.bind (Db.emitWebhook_plain _ _ _).unrejected
    intro db2 _
    split
    · exact avoids_ok _
    · apply Avoids.bind (acceptPayment_unrejected htarget now)
      exact fun _ _ => (creditTransfers_plain _ _ _ _ _).unrejected

/-- Without an edge for its outcome an invoice is left as it is. -/
theorem finalizeInvoice_idle (now : Int) (hfind : db.invoices.find? invoice.id = some invoice)
    (hmerchant : (db.merchants.find? invoice.merchantId).isSome = true)
    (hno : ∀ target, statusForOutcome (outcomeFor invoice
      (totalAmount (countedTransfers db invoice))) = some target →
      canTransition invoice.status target = false) :
    finalizeInvoice db invoice.id now = .ok db := by
  obtain ⟨merchant, hmerchant⟩ := Option.isSome_iff_exists.1 hmerchant
  obtain ⟨evaluation, heval, houtcome⟩ :=
    evaluatePayment_eq_ok invoice (totalAmount (countedTransfers db invoice))
  unfold finalizeInvoice
  rw [Db.findInvoice_eq_ok.2 hfind, bind_ok]
  split_ifs
  · rfl
  · rfl
  rw [Db.findMerchant_eq_ok.2 hmerchant, bind_ok, heval, bind_ok, houtcome]
  cases htarget : statusForOutcome
      (outcomeFor invoice (totalAmount (countedTransfers db invoice))) with
  | none => rfl
  | some target => simp [hno target htarget]

theorem finalizeInvoice_rejected_iff {now : Int}
    (hfind : db.invoices.find? invoice.id = some invoice)
    (hmerchant : (db.merchants.find? invoice.merchantId).isSome = true) :
    Rejected (finalizeInvoice db invoice.id now) ↔ ∃ target, statusForOutcome (outcomeFor invoice
      (totalAmount (countedTransfers db invoice))) = some target ∧
        Gated invoice.status target := by
  by_cases hedge : ∃ target, statusForOutcome (outcomeFor invoice
      (totalAmount (countedTransfers db invoice))) = some target ∧
      canTransition invoice.status target = true
  · obtain ⟨target, htarget, hedge⟩ := hedge
    obtain ⟨merchant, hmerchant⟩ := Option.isSome_iff_exists.1 hmerchant
    have htotal : totalAmount (countedTransfers db invoice) ≠ 0 := by
      intro hzero
      rw [hzero] at htarget
      cases htarget
    have hs : Settleable db invoice merchant target :=
      ⟨hfind, hmerchant, htotal, htarget, hedge⟩
    rw [finalizeInvoice_of_settleable hs now,
      settleInvoice_rejected_iff (statusForOutcome_settled htarget)]
    constructor
    · exact fun hallowed => ⟨target, htarget, hedge, hallowed⟩
    · intro hgated
      obtain ⟨target', htarget', -, hallowed⟩ := hgated
      obtain rfl : target = target' := Option.some.inj (htarget.symm.trans htarget')
      exact hallowed
  · have hidle := finalizeInvoice_idle now hfind hmerchant fun target htarget => by
      by_contra hsome
      exact hedge ⟨target, htarget, by simpa using hsome⟩
    rw [hidle]
    refine ⟨fun h => absurd h (Unrejected.not_rejected (avoids_ok db)), fun h => ?_⟩
    obtain ⟨target, htarget, hgated⟩ := h
    exact absurd ⟨target, htarget, hgated.1⟩ hedge

/-! ## Reports -/

/-- A report of `n` confirmations is stopped at the gate. The total is that of the transfers counted
once the report has been written. -/
def ReportBlocked (db : Db) (transfer : TokenTransfer) (n : Nat) : Prop :=
  ∃ id ∈ transfer.invoiceId, ∃ invoice ∈ db.invoices.find? id,
    (1 ≤ n ∧ invoice.status = .complianceReviewRequired) ∨
    (invoice.requiredConfirmations ≤ n ∧
      ∃ target ∈ statusForOutcome (outcomeFor invoice
        (totalAmount (countedTransfers (db.reported transfer.key n) invoice))),
        invoice.status = .reconciliationRequired ∨
          (invoice.status = .latePaymentReview ∧ target = .paid))

instance (db : Db) (transfer : TokenTransfer) (n : Nat) :
    Decidable (ReportBlocked db transfer n) := by
  unfold ReportBlocked
  infer_instance

/-- Between the first move and the settlement an invoice that is not under review by the compliance
team keeps or gets a status from which only people settle in those two cases. -/
theorem gated_reported (hn : 1 ≤ n) (hne : invoice.status ≠ .complianceReviewRequired)
    (htarget : target = .paid ∨ target = .underpaid ∨ target = .overpaid) :
    Gated (reportedStatus invoice n) target ↔ invoice.status = .reconciliationRequired ∨
      (invoice.status = .latePaymentReview ∧ target = .paid) := by
  unfold reportedStatus Gated
  generalize invoice.status = s at hne
  rcases htarget with rfl | rfl | rfl <;> revert hne <;> cases s <;> simp [hn] <;> decide

theorem advanceConfirming_idle (h : n < 1 ∨ canTransition invoice.status .confirming = false) :
    advanceConfirming db invoice n = .ok db := by
  unfold advanceConfirming
  by_cases hn : n < 1
  · exact if_pos hn
  · rw [if_neg hn, moveInvoice, h.resolve_left hn]
    rfl

/-- The settlement of a report, once its threshold is reached. -/
theorem settles_rejected_iff (now : Int) :
    Rejected (do
      let required ← effectiveConfirmations invoice.requiredConfirmations none
      let confirmed ← isConfirmed n required
      if confirmed then finalizeInvoice db invoice.id now else .ok db) ↔
    invoice.requiredConfirmations ≤ n ∧ Rejected (finalizeInvoice db invoice.id now) := by
  rw [effectiveConfirmations_none, bind_ok,
    isConfirmed_of_pos invoice.required_confirmations_positive, bind_ok]
  by_cases hreached : invoice.requiredConfirmations ≤ n
  · simp [hreached]
  · simpa [hreached] using Unrejected.not_rejected (avoids_ok db)

/-- What a report does once it has been written, up to the invoice's rejection. -/
theorem advance_rejected_iff (now : Int) (hfind : db.invoices.find? invoice.id = some invoice)
    (hmerchant : (db.merchants.find? invoice.merchantId).isSome = true) :
    Rejected (do
      let db ← advanceConfirming db invoice n
      let required ← effectiveConfirmations invoice.requiredConfirmations none
      let confirmed ← isConfirmed n required
      if confirmed then finalizeInvoice db invoice.id now else .ok db) ↔
    (1 ≤ n ∧ invoice.status = .complianceReviewRequired) ∨
    (invoice.requiredConfirmations ≤ n ∧
      ∃ target ∈ statusForOutcome (outcomeFor invoice (totalAmount (countedTransfers db invoice))),
        invoice.status = .reconciliationRequired ∨
          (invoice.status = .latePaymentReview ∧ target = .paid)) := by
  by_cases hreview : 1 ≤ n ∧ invoice.status = .complianceReviewRequired
  · exact iff_of_true ((advanceConfirming_rejected_iff.2 hreview).bind _) (.inl hreview)
  have hpositive := invoice.required_confirmations_positive
  constructor
  · intro hrejected
    refine .inr ?_
    cases hadvance : advanceConfirming db invoice n with
    | error e =>
      rw [hadvance] at hrejected
      obtain ⟨e', he', hinvalid⟩ := hrejected
      cases he'
      exact absurd (advanceConfirming_rejected_iff.1 ⟨_, hadvance, hinvalid⟩) hreview
    | ok db2 =>
      rw [rejected_bind_iff hadvance, settles_rejected_iff] at hrejected
      obtain ⟨hreached, hrejected⟩ := hrejected
      obtain ⟨htransfers, hmerchants, invoice2, hfind2, hterms, hstatus, -, -⟩ :=
        advanceConfirming_reported hfind hadvance
      have hid : invoice2.id = invoice.id := congrArg Invoice.Terms.id hterms
      have hmid : invoice2.merchantId = invoice.merchantId :=
        congrArg Invoice.Terms.merchantId hterms
      rw [← hid, finalizeInvoice_rejected_iff (hid ▸ hfind2) (by rw [hmerchants, hmid, hmerchant]),
        countedTransfers_congr htransfers hterms, outcomeFor_congr hterms] at hrejected
      obtain ⟨target, htarget, hgated⟩ := hrejected
      refine ⟨hreached, target, htarget, ?_⟩
      rw [hstatus, gated_reported (by omega) (fun hs => hreview ⟨by omega, hs⟩)
        (statusForOutcome_settled htarget)] at hgated
      exact hgated
  · intro hblocked
    obtain ⟨hreached, target, htarget, hstatus⟩ := hblocked.resolve_left hreview
    have hidle : canTransition invoice.status .confirming = false := by
      rcases hstatus with hstatus | ⟨hstatus, -⟩ <;> rw [hstatus] <;> rfl
    rw [rejected_bind_iff (advanceConfirming_idle (.inr hidle)), settles_rejected_iff,
      finalizeInvoice_rejected_iff hfind hmerchant]
    refine ⟨hreached, target, htarget, ?_⟩
    have hgated := (gated_reported (n := n) (by omega) (fun hs => hreview ⟨by omega, hs⟩)
      (statusForOutcome_settled htarget)).2 hstatus
    rwa [reportedStatus_of_no_edge (.inr hidle)] at hgated

/-- **When a report is stopped.** -/
theorem confirmTransfer_rejected_iff {transfer : TokenTransfer} {info : ConfirmationInfo}
    {now : Int} (hrow : (db.transfers.find? transfer.key).isSome = true) (hlinked : Linked db) :
    Rejected (confirmTransfer transfer info now db) ↔
      ReportBlocked db transfer info.confirmations := by
  obtain ⟨row, hrow⟩ := Option.isSome_iff_exists.1 hrow
  have hset : db.setConfirmations transfer.key info.confirmations =
      .ok (db.reported transfer.key info.confirmations) :=
    Db.setConfirmations_eq_ok.2 ⟨⟨row, hrow⟩, rfl⟩
  unfold confirmTransfer ReportBlocked
  rw [rejected_bind_iff hset]
  cases hid : transfer.invoiceId with
  | none => simpa using Unrejected.not_rejected (avoids_ok _)
  | some id =>
    cases hfind : db.invoices.find? id with
    | none =>
      have hmissing : (db.reported transfer.key info.confirmations).findInvoice id =
          .error (.recordNotFound "Invoice") := by
        rw [Db.findInvoice, show (db.reported transfer.key info.confirmations).invoices =
          db.invoices from rfl, hfind]
      refine iff_of_false (fun h => ?_) (by simp [hfind])
      dsimp only at h
      rw [hmissing] at h
      obtain ⟨e, he, hinvalid⟩ := h
      cases he
      exact hinvalid
    | some invoice =>
      obtain rfl : invoice.id = id := Table.key_of_find? hfind
      have hfind' : (db.reported transfer.key info.confirmations).invoices.find? invoice.id =
          some invoice := hfind
      have hmerchant : ((db.reported transfer.key info.confirmations).merchants.find?
          invoice.merchantId).isSome = true :=
        hlinked.merchant invoice (Table.mem_of_find? hfind)
      dsimp only
      rw [rejected_bind_iff (Db.findInvoice_eq_ok.2 hfind'),
        advance_rejected_iff now hfind' hmerchant]
      simp [hfind]

/-! ## Orphanings -/

theorem revert_rejected_iff {id : String} (hfind : x.invoices.find? id = some invoice) :
    Rejected (revertInvoiceAfterOrphan x id) ↔
      invoice.status ∈ [.created, .failed, .complianceReviewRequired] ∧ awaiting x id = [] := by
  unfold revertInvoiceAfterOrphan
  rw [rejected_bind_iff (Db.findInvoice_eq_ok.2 hfind)]
  show Rejected (moveInvoice x invoice (if (awaiting x id).length > 0 then _ else _) _ _ _) ↔ _
  rw [moveInvoice_rejected_iff]
  by_cases hwait : awaiting x id = []
  · simp [hwait, gated_pending]
  · have hpos : 0 < (awaiting x id).length := List.length_pos_iff.2 hwait
    rw [if_pos hpos]
    exact iff_of_false (not_gated_of (.inl rfl)) (fun h => hwait h.2)

/-- The database once a transfer has been marked. -/
def marked (db : Db) (t : TokenTransfer) : Db :=
  { db with transfers := db.transfers.modify t.key Db.orphan Db.orphan_key }

variable {key : TxKey} {now : Int} {t : TokenTransfer} {rest done : List TokenTransfer} {id : String}

/-- A transfer whose turn has come is stored as it was read. -/
theorem SweepFrame.find? (hs : SweepFrame db x key (t :: rest)) :
    x.transfers.find? t.key = some t := by
  refine Table.find?_of_mem ?_
  show t ∈ x.transfers.rows
  rw [hs.rows]
  exact List.mem_map.2 ⟨t, (hs.stored t List.mem_cons_self).1, if_neg (by simp)⟩

/-- An invoice waits for nothing once a transfer has been marked if the transfers it was waiting for
are all of the transaction and have had their turn. -/
theorem awaiting_marked (hs : SweepFrame db x key (t :: rest)) (hc : CreditsAgree db)
    (huncredited : t.creditedAt = none) (id : String) :
    awaiting (marked x t) id = [] ↔
      ∀ p ∈ awaiting db id, p.key.txKey = key ∧ p.key ∉ rest.map (·.key) := by
  obtain ⟨hmem, hkey⟩ := hs.stored t List.mem_cons_self
  have hnodup := hs.nodup
  rw [List.map_cons, List.nodup_cons] at hnodup
  have hrows : (marked x t).transfers.rows =
      db.transfers.rows.map (swept key (rest.map (·.key))) := by
    show x.transfers.rows.map (fun r => if r.key = t.key then Db.orphan r else r) = _
    rw [hs.rows, List.map_map]
    refine List.map_congr_left fun r hr => ?_
    simp only [Function.comp_apply, swept_key]
    by_cases hrt : r.key = t.key
    · obtain rfl : r = t := Table.eq_of_key_eq hr hmem hrt
      have hwait : swept key ((r :: rest).map (·.key)) r = r := if_neg (by simp)
      rw [if_pos rfl, hwait]
      exact (if_pos ⟨hkey, huncredited, hnodup.1⟩).symm
    · rw [if_neg hrt]
      unfold swept
      simp [hrt]
  unfold awaiting
  rw [hrows, List.filter_map, List.map_eq_nil_iff, List.filter_eq_nil_iff]
  constructor
  · intro hnone p hp
    obtain ⟨hrow, hwait⟩ := List.mem_filter.1 hp
    by_contra hnot
    have hsame : swept key (rest.map (·.key)) p = p := if_neg fun h => hnot ⟨h.1, h.2.2⟩
    refine hnone p hrow ?_
    rwa [Function.comp_apply, hsame]
  · intro hall r hr hwait
    rw [Function.comp_apply] at hwait
    by_cases hswept : r.key.txKey = key ∧ r.creditedAt = none ∧ r.key ∉ rest.map (·.key)
    · rw [swept, if_pos hswept] at hwait
      exact absurd (of_decide_eq_true hwait).2 (by simp [Db.orphan])
    · rw [swept, if_neg hswept] at hwait
      obtain ⟨hrkey, hout⟩ := hall r (List.mem_filter.2 ⟨hr, hwait⟩)
      have hpending := (of_decide_eq_true hwait).2
      have hcredited := hc.credited_iff r hr
      rw [hpending] at hcredited
      exact hswept ⟨hrkey, by simpa using hcredited, hout⟩

/-- The statuses with an edge back to PENDING that is not the monitor's. -/
def heldStatuses : List InvoiceStatus := [.created, .failed, .complianceReviewRequired]

/-- The invoice is in one of them, from which a credited transfer takes only FAILED away. -/
def Held (invoice : Invoice) (done : List TokenTransfer) : Prop :=
  invoice.status ∈ heldStatuses ∧
    (invoice.status = .failed → ∀ u ∈ done, u.invoiceId = some invoice.id → u.creditedAt = none)

/-- One more transfer, unless it is a credited one of the invoice. -/
theorem held_append (h : t.invoiceId = some invoice.id → t.creditedAt = none) :
    Held invoice (done ++ [t]) ↔ Held invoice done := by
  unfold Held
  refine and_congr_right fun _ => imp_congr_right fun _ => ?_
  simp only [List.mem_append, List.mem_singleton, or_imp, forall_and, forall_eq]
  exact and_iff_left h

theorem Held.of_append (h : Held invoice (done ++ [t])) : Held invoice done :=
  ⟨h.1, fun hfailed u hu => h.2 hfailed u (List.mem_append_left _ hu)⟩

/-- What the loop has left of the statuses from which it may be stopped. -/
def Holding (db x : Db) (done : List TokenTransfer) : Prop :=
  ∀ id invoice, db.invoices.find? id = some invoice →
    ∃ invoice', x.invoices.find? id = some invoice' ∧
      (Held invoice done → invoice'.status = invoice.status) ∧
      (¬Held invoice done → invoice'.status ∉ heldStatuses)

theorem Holding.start (db : Db) : Holding db db [] := by
  intro id invoice hfind
  refine ⟨invoice, hfind, fun _ => rfl, fun hheld hstatus => hheld ⟨hstatus, ?_⟩⟩
  exact fun _ u hu => absurd hu List.not_mem_nil

/-- The monitor moves no invoice away from these statuses but by a discrepancy. -/
theorem not_held_of_allowed {source target : InvoiceStatus}
    (htarget : target = .detected ∨ target = .pending)
    (h : isActorAllowed source target .monitor = true) : source ∉ heldStatuses := by
  unfold heldStatuses
  rcases htarget with rfl | rfl <;> revert h <;> cases source <;> decide

/-- Of these statuses only FAILED has an edge to RECONCILIATION_REQUIRED. -/
theorem reconciled_of_held {source : InvoiceStatus} (h : source ∈ heldStatuses) :
    canTransition source .reconciliationRequired = true ↔ source = .failed := by
  unfold heldStatuses at h
  revert h
  cases source <;> decide

theorem Holding.step (hh : Holding db x done) (h : orphanTransfer now x t = .ok y) :
    Holding db y (done ++ [t]) := by
  intro id invoice hfind
  obtain rfl : invoice.id = id := Table.key_of_find? hfind
  obtain ⟨invoice', hfind', hsame, hfree⟩ := hh invoice.id invoice hfind
  by_cases hid : t.invoiceId = some invoice.id
  · by_cases huncredited : t.creditedAt = none
    · rw [held_append fun _ => huncredited]
      rcases orphanTransfer_own hid huncredited hfind' h with ⟨-, hkept⟩ | ⟨hallowed, hmoved⟩
      · exact ⟨invoice', hkept, hsame, hfree⟩
      · have htarget : (if (awaiting y invoice.id).length > 0 then InvoiceStatus.detected
            else .pending) = .detected ∨ (if (awaiting y invoice.id).length > 0 then
            InvoiceStatus.detected else .pending) = .pending := by split <;> simp
        have hnot := not_held_of_allowed htarget hallowed
        refine ⟨_, hmoved, fun hheld => ?_, fun _ => ?_⟩
        · rw [hsame hheld] at hnot
          exact absurd hheld.1 hnot
        · show (if (awaiting y invoice.id).length > 0 then InvoiceStatus.detected
            else .pending) ∉ heldStatuses
          split <;> decide
    · have hcredited : t.creditedAt.isSome = true := Option.isSome_iff_ne_none.2 huncredited
      have hnot : Held invoice (done ++ [t]) → invoice.status ≠ .failed := fun hheld hfailed =>
        huncredited (hheld.2 hfailed t (by simp) hid)
      rcases orphanTransfer_eq_ok h with ⟨-, hflag⟩ | ⟨hnone, -⟩
      · rcases flagOrphanedCredit_eq_ok hflag with ⟨hnone, -⟩ | ⟨stored, hstored, hfound, hcases⟩
        · rw [hid] at hnone
          cases hnone
        obtain ⟨rfl⟩ : stored = invoice' := by
          rw [hid] at hstored
          rw [← Option.some.inj hstored] at hfound
          exact Option.some.inj (hfound.symm.trans hfind')
        rcases hcases with ⟨hno, rfl⟩ | ⟨events, webhooks, hallowed, -, rfl⟩
        · refine ⟨invoice', hfind', fun hheld => hsame hheld.of_append, fun hno' => ?_⟩
          by_cases hheld : Held invoice done
          · -- No edge, so it is not FAILED, and the transfer does not count.
            have hstatus := hsame hheld
            refine absurd ⟨hheld.1, fun hfailed => ?_⟩ hno'
            rw [(reconciled_of_held (hstatus ▸ hheld.1)).2 (hstatus.trans hfailed)] at hno
            cases hno
          · exact hfree hheld
        · have hkey : invoice'.id = invoice.id := Table.key_of_find? hfind'
          have hmoved : (x.withStatus invoice' .reconciliationRequired .monitor
              { bumpVersion := true } events webhooks).invoices.find? invoice'.id = some _ :=
            Db.find?_withStatus_self (hkey.symm ▸ hfind')
          refine ⟨_, hkey ▸ hmoved, fun hheld => ?_, fun _ => ?_⟩
          · have hstatus := hsame hheld.of_append
            have hfailed := (reconciled_of_held (hstatus ▸ hheld.1)).1
              (canTransition_of_isActorAllowed hallowed)
            exact absurd (hstatus.symm.trans hfailed) (hnot hheld)
          · show InvoiceStatus.reconciliationRequired ∉ heldStatuses
            decide
      · exact absurd hnone huncredited
  · rw [held_append fun hown => absurd hown hid]
    exact ⟨invoice', (orphanTransfer_other hid h).trans hfind', hsame, hfree⟩

theorem Holding.linked (hh : Holding db x done) (h : (db.invoices.find? id).isSome = true) :
    ∃ invoice, x.invoices.find? id = some invoice := by
  obtain ⟨invoice, hfind⟩ := Option.isSome_iff_exists.1 h
  obtain ⟨invoice', hfind', -, -⟩ := hh id invoice hfind
  exact ⟨invoice', hfind'⟩

/-- A move fails at the gate or not at all. -/
theorem moveInvoice_invalid {data : InvoiceData} {eventType : String} {notify : Bool} {e : Error}
    (hn : Numbered x) (hfind : x.invoices.find? invoice.id = some invoice)
    (h : moveInvoice x invoice target data eventType notify = .error e) :
    e.IsInvalidTransition := by
  by_cases hgated : Gated invoice.status target
  · obtain ⟨e', he', hinvalid⟩ := moveInvoice_rejected_iff.2 hgated
    rw [h] at he'
    cases he'
    exact hinvalid
  · have hallowed : canTransition invoice.status target = true →
        isActorAllowed invoice.status target .monitor = true := fun hedge => by
      by_contra hno
      exact hgated ⟨hedge, by simpa using hno⟩
    have hmoved : ∃ y, moveInvoice x invoice target data eventType notify = .ok y :=
      moveInvoice_isOk hn hfind hallowed eventType notify
    obtain ⟨y, hy⟩ := hmoved
    rw [h] at hy
    cases hy

/-- Recording an orphaned credit goes through. -/
theorem flagOrphanedCredit_isOk (key : TransferKey) (now : Int) {invoiceId : Option String}
    (hn : Numbered x) (hlinked : ∀ id ∈ invoiceId, ∃ invoice, x.invoices.find? id = some invoice) :
    ∃ y, flagOrphanedCredit x key invoiceId now = .ok y := by
  unfold flagOrphanedCredit
  cases invoiceId with
  | none => exact ⟨x, rfl⟩
  | some id =>
    obtain ⟨invoice, hfind⟩ := hlinked id rfl
    dsimp only
    rw [Db.findInvoice_eq_ok.2 hfind, bind_ok]
    split
    · exact ⟨x, rfl⟩
    · have hmoved : ∃ y, moveInvoice x invoice .reconciliationRequired {} "reorg.orphaned_credit"
          false = .ok y :=
        moveInvoice_isOk hn (Table.key_of_find? hfind ▸ hfind)
          (fun hedge => canTransition_monitor (.inr (.inr rfl)) hedge) _ _
      obtain ⟨y, hy⟩ := hmoved
      rw [hy, bind_ok]
      exact ⟨_, rfl⟩

/-- The loop is stopped at a transfer: it is the last that a held invoice waits for. -/
def StopsAt (db : Db) (before : List TokenTransfer) (t : TokenTransfer) : Prop :=
  t.creditedAt = none ∧ ∃ id ∈ t.invoiceId, ∃ invoice ∈ db.invoices.find? id,
    Held invoice before ∧ ∀ p ∈ awaiting db id, p.key ∈ (before ++ [t]).map (·.key)

instance (db : Db) (before : List TokenTransfer) (t : TokenTransfer) :
    Decidable (StopsAt db before t) := by
  unfold StopsAt Held
  infer_instance

/-- What the loop keeps. -/
structure Sweeping (db x : Db) (key : TxKey) (done rest : List TokenTransfer) : Prop where
  split : transfersOf db key = done ++ rest
  frame : SweepFrame db x key rest
  holding : Holding db x done
  numbered : Numbered x

namespace Sweeping

theorem start (hn : Numbered db) : Sweeping db db key [] (transfersOf db key) :=
  ⟨rfl, .start db key, .start db, hn⟩

theorem step (hs : Sweeping db x key done (t :: rest)) (h : orphanTransfer now x t = .ok y) :
    Sweeping db y key (done ++ [t]) rest where
  split := by rw [hs.split, List.append_assoc, List.singleton_append]
  frame := hs.frame.step h
  holding := hs.holding.step h
  numbered := by
    have heffects : Effects (fun _ => True) x y := orphanTransfer_effects trivial hs.frame.find? h
    exact heffects.numbered hs.numbered

/-- Which transfers have had their turn. -/
theorem mem_done {p : TokenTransfer} (hs : Sweeping db x key done (t :: rest))
    (hp : p ∈ db.transfers) :
    (p.key.txKey = key ∧ p.key ∉ rest.map (·.key)) ↔ p.key ∈ (done ++ [t]).map (·.key) := by
  have hall : p.key ∈ (transfersOf db key).map (·.key) ↔ p.key.txKey = key := by
    refine ⟨fun h => ?_, fun h => ?_⟩
    · obtain ⟨r, hr, hkey⟩ := List.mem_map.1 h
      rw [← hkey]
      exact of_decide_eq_true (List.mem_filter.1 hr).2
    · exact List.mem_map_of_mem (List.mem_filter.2 ⟨hp, decide_eq_true h⟩)
  have hsplit : transfersOf db key = (done ++ [t]) ++ rest := by
    rw [hs.split, List.append_assoc, List.singleton_append]
  have hnodup : ((transfersOf db key).map (·.key)).Nodup :=
    List.Nodup.sublist (List.filter_sublist.map _) db.transfers.nodup
  rw [hsplit, List.map_append] at hnodup
  rw [← hall, hsplit, List.map_append, List.mem_append]
  constructor
  · intro h
    obtain ⟨hmem | hmem, hout⟩ := h
    · exact hmem
    · exact absurd hmem hout
  · intro hmem
    exact ⟨.inl hmem, List.disjoint_left.1 (List.nodup_append'.1 hnodup).2.2 hmem⟩

theorem linked (hs : Sweeping db x key done (t :: rest)) (hl : Linked db)
    (hid : t.invoiceId = some id) : ∃ invoice, db.invoices.find? id = some invoice :=
  Option.isSome_iff_exists.1 (hl.transfer t (hs.frame.stored t List.mem_cons_self).1 id hid)

/-- A turn of the loop that fails does so once the transfer has been marked. -/
theorem error_revert_iff (hs : Sweeping db x key done (t :: rest)) (hl : Linked db) {e : Error} :
    orphanTransfer now x t = .error e ↔ t.creditedAt = none ∧ ∃ id ∈ t.invoiceId,
      revertInvoiceAfterOrphan (marked x t) id = .error e := by
  have hlinked : ∀ id ∈ t.invoiceId, ∃ invoice, x.invoices.find? id = some invoice := by
    intro id hid
    obtain ⟨invoice, hfind⟩ := hs.linked hl hid
    exact hs.holding.linked (Option.isSome_iff_exists.2 ⟨invoice, hfind⟩)
  unfold orphanTransfer
  by_cases hcredited : t.creditedAt.isSome = true
  · obtain ⟨y, hy⟩ := flagOrphanedCredit_isOk t.key now hs.numbered hlinked
    rw [if_pos hcredited, hy]
    refine iff_of_false (fun h => by cases h) (fun h => ?_)
    rw [h.1] at hcredited
    cases hcredited
  · have hmark : x.markOrphaned t.key = .ok (marked x t) :=
      Db.markOrphaned_eq_ok.2 ⟨⟨t, hs.frame.find?⟩, rfl⟩
    rw [if_neg hcredited, hmark, bind_ok]
    have huncredited : t.creditedAt = none := by simpa using hcredited
    cases hid : t.invoiceId with
    | none => simp
    | some id => simp [huncredited]

theorem invalid (hs : Sweeping db x key done (t :: rest)) (hl : Linked db) {e : Error}
    (h : orphanTransfer now x t = .error e) : e.IsInvalidTransition := by
  obtain ⟨-, id, hid, hrevert⟩ := (hs.error_revert_iff hl).1 h
  obtain ⟨invoice, hfind⟩ := hs.linked hl hid
  obtain ⟨invoice', hfind'⟩ := hs.holding.linked (Option.isSome_iff_exists.2 ⟨invoice, hfind⟩)
  obtain rfl : invoice'.id = id := Table.key_of_find? hfind'
  unfold revertInvoiceAfterOrphan at hrevert
  have hfound : (marked x t).findInvoice invoice'.id = .ok invoice' := Db.findInvoice_eq_ok.2 hfind'
  rw [hfound, bind_ok] at hrevert
  have hn : Numbered (marked x t) := hs.numbered.congr (fun _ h => h) rfl
  exact moveInvoice_invalid hn hfind' hrevert

/-- **When a turn of the loop is stopped.** -/
theorem error_iff (hs : Sweeping db x key done (t :: rest)) (hc : CreditsAgree db)
    (hl : Linked db) : (∃ e, orphanTransfer now x t = .error e) ↔ StopsAt db done t := by
  have hrejected : (∃ e, orphanTransfer now x t = .error e) ↔ t.creditedAt = none ∧
      ∃ id ∈ t.invoiceId, Rejected (revertInvoiceAfterOrphan (marked x t) id) := by
    constructor
    · intro h
      obtain ⟨e, he⟩ := h
      obtain ⟨huncredited, id, hid, hrevert⟩ := (hs.error_revert_iff hl).1 he
      exact ⟨huncredited, id, hid, e, hrevert, hs.invalid hl he⟩
    · intro h
      obtain ⟨huncredited, id, hid, e, hrevert, -⟩ := h
      exact ⟨e, (hs.error_revert_iff hl).2 ⟨huncredited, id, hid, hrevert⟩⟩
  rw [hrejected]
  refine and_congr_right fun huncredited => exists_congr fun id => and_congr_right fun hid => ?_
  obtain ⟨invoice, hfind⟩ := hs.linked hl hid
  obtain ⟨invoice', hfind', hsame, hfree⟩ := hs.holding id invoice hfind
  have hstatus : invoice'.status ∈ heldStatuses ↔ Held invoice done := by
    refine ⟨fun h => ?_, fun hheld => (hsame hheld).symm ▸ hheld.1⟩
    by_contra hno
    exact hfree hno h
  have hwait : awaiting (marked x t) id = [] ↔
      ∀ p ∈ awaiting db id, p.key ∈ (done ++ [t]).map (·.key) := by
    rw [awaiting_marked hs.frame hc huncredited]
    exact forall₂_congr fun p hp => hs.mem_done (List.mem_filter.1 hp).1
  rw [revert_rejected_iff (show (marked x t).invoices.find? id = some invoice' from hfind'), hwait]
  simp [hfind, ← hstatus, heldStatuses]

end Sweeping

/-- The orphaning of a transaction is stopped at one of its transfers. -/
def OrphanBlocked (db : Db) (key : TxKey) : Prop :=
  ∃ before t after, transfersOf db key = before ++ t :: after ∧ StopsAt db before t

instance (db : Db) (key : TxKey) : Decidable (OrphanBlocked db key) :=
  decidable_of_iff (∃ n ∈ List.range (transfersOf db key).length, ∃ t ∈ (transfersOf db key)[n]?,
      StopsAt db ((transfersOf db key).take n) t) <| by
    unfold OrphanBlocked
    constructor
    · intro h
      obtain ⟨n, -, t, ht, hstops⟩ := h
      obtain ⟨hn, rfl⟩ := List.getElem?_eq_some_iff.1 ht
      refine ⟨_, _, (transfersOf db key).drop (n + 1), ?_, hstops⟩
      rw [List.getElem_cons_drop, List.take_append_drop]
    · intro h
      obtain ⟨before, t, after, hsplit, hstops⟩ := h
      refine ⟨before.length, ?_, t, ?_, ?_⟩ <;> simp [hsplit, hstops]

/-- **When the orphaning of a transaction is stopped.** -/
theorem orphanTransaction_rejected_iff (hrow : (db.chainTxs.find? key).isSome = true)
    (hn : Numbered db) (hc : CreditsAgree db) (hl : Linked db) :
    Rejected (orphanTransaction key now db) ↔ OrphanBlocked db key := by
  obtain ⟨row, hrow⟩ := Option.isSome_iff_exists.1 hrow
  obtain ⟨chainTxs, hmark⟩ : ∃ chainTxs, markTxOrphaned db key now = .ok { db with chainTxs } := by
    unfold markTxOrphaned
    rw [hrow]
    exact ⟨_, rfl⟩
  have hc' : CreditsAgree { db with chainTxs } := ⟨hc.credited_iff, hc.posted, hc.origin⟩
  have hl' : Linked { db with chainTxs } := ⟨hl.transfer, hl.merchant⟩
  unfold orphanTransaction
  rw [rejected_bind_iff hmark]
  exact foldlM_error_iff (fun done rest x => Sweeping { db with chainTxs } x key done rest)
    (.start (hn.congr (fun _ h => h) rfl)) (fun _ _ _ _ _ hs h => hs.step h)
    (fun _ _ _ _ _ hs h => hs.invalid hl' h) (fun _ _ _ _ hs => hs.error_iff hc' hl')

/-! ## Sightings -/

theorem moveInvoice_unrejected {data : InvoiceData} {eventType : String} {notify : Bool}
    (h : ¬Gated invoice.status target) :
    Unrejected (moveInvoice db invoice target data eventType notify) := by
  intro e he hinvalid
  exact h (moveInvoice_rejected_iff.1 ⟨e, he, hinvalid⟩)

/-- The edges that a sighting looks for are the monitor's. -/
theorem recordTransfers_unrejected (network : Network) (chainTx : ChainTransaction)
    (transfers : List ParsedTransfer) (graceSeconds : Nat) (now : Int) (db : Db) :
    Unrejected (recordTransfers network chainTx transfers graceSeconds now db) := by
  refine avoids_foldlM (fun _ _ => True) trivial (fun _ _ _ _ _ _ => trivial) ?_
  intro _ t _ x _ _
  unfold recordTransfer
  split
  · exact avoids_ok _
  · apply Avoids.bind (row_plain _ x).unrejected
    intro row _
    split
    · exact avoids_ok _
    · split
      · exact moveInvoice_unrejected (not_gated_of (.inl rfl))
      · exact moveInvoice_unrejected (not_gated_of (.inr (.inl rfl)))
      · exact avoids_ok _

end MonitorService

/-! ## Operations -/

open MonitorService

variable {db db' : Db}

/-- A transaction of the monitor begins in a state in which it is stopped at the gate. -/
def Transaction.Blocked : Transaction → Db → Prop
  | confirmTransfer transfer info _, db => ReportBlocked db transfer info.confirmations
  | orphanTransaction key _, db => OrphanBlocked db key
  | _, _ => False

instance (t : Transaction) (db : Db) : Decidable (t.Blocked db) :=
  match t with
  | .confirmTransfer transfer info _ => instDecidableReportBlocked db transfer info.confirmations
  | .orphanTransaction key _ => instDecidableOrphanBlocked db key
  | .recordTransfers _ _ _ _ _ | .expireOne _ _ | .loadAndMaybeExpire _ _ _ | .cancelWrite _ _
  | .createInvoice _ _ | .registerMerchant _ | .updateMerchant _ | .registerAddress _ _ _ _ _
  | .takeEdge _ _ _ => instDecidableFalse

/-- The rows that a transaction of the monitor has been prepared from. -/
def Transaction.Prepared : Transaction → Db → Prop
  | recordTransfers _ _ _ _ _, _ => True
  | confirmTransfer transfer _ _, db => (db.transfers.find? transfer.key).isSome = true
  | orphanTransaction key _, db => (db.chainTxs.find? key).isSome = true
  | _, _ => False

/-- The operations of the monitor. -/
def Operation.ByMonitor : Operation → Prop
  | processTransaction _ _ _ _ _ | updateConfirmations _ _ _ | handleReorg _ _ _ => True
  | _ => False

theorem Transaction.rejected_precisely {t : Transaction} (hprepared : t.Prepared db)
    (hc : CreditsAgree db) (hl : Linked db) (hn : Numbered db) :
    Rejected (t.apply db) ↔ t.Blocked db := by
  cases t with
  | recordTransfers network chainTx transfers graceSeconds now =>
    have hnot := recordTransfers_unrejected network chainTx transfers graceSeconds now db
    exact iff_of_false hnot.not_rejected not_false
  | confirmTransfer transfer info now => exact confirmTransfer_rejected_iff hprepared hl
  | orphanTransaction key now => exact orphanTransaction_rejected_iff hprepared hn hc hl
  | _ => exact hprepared.elim

theorem RowStep.isSome {may : Right → Prop} {old new : Option TokenTransfer}
    (h : RowStep may db old new) (hold : old.isSome = true) : new.isSome = true := by
  cases h with
  | same => exact hold
  | _ => rfl

/-- Transfers only come and change, they never go. -/
theorem Transaction.transfer_isSome {t : Transaction} {k : TransferKey} (hc : CreditsAgree db)
    (h : t.apply db = .ok db') (hsome : (db.transfers.find? k).isSome = true) :
    (db'.transfers.find? k).isSome = true := by
  refine ((Transaction.effects h).invariant
    (fun x => CreditsAgree x ∧ (x.transfers.find? k).isSome = true) ⟨hc, hsome⟩ ?_).2
  intro a b ha hab
  exact ⟨hab.creditsAgree ha.1, (hab.rowStep ha.1 k).isSome ha.2⟩

/-- An orphaning takes no transaction of the chain away. -/
theorem orphanTransaction_isSome {key k : TxKey} {now : Int}
    (h : orphanTransaction key now db = .ok db') (hsome : (db.chainTxs.find? k).isSome = true) :
    (db'.chainTxs.find? k).isSome = true := by
  rw [(orphanTransaction_frame h).1 k]
  split
  · rw [Option.isSome_map, hsome]
  · exact hsome

/-- A script of the monitor finds the rows it was prepared from, at each of its transactions. -/
theorem Operation.ByMonitor.prepared {op : Operation} (hop : op.ByMonitor) (hc : CreditsAgree db) :
    ∀ o ∈ attempts gateway.step (op.script db) db, ∀ t, o.2 = .ok t → t.Prepared o.1 := by
  intro o ho t ht
  cases op with
  | processTransaction adapter network txHash graceSeconds now =>
    obtain ⟨-, hmem⟩ := attempts_invariant (P := fun _ => True) trivial
      (fun _ _ _ _ _ _ => trivial) o ho
    rw [ht] at hmem
    simp only [Operation.script, Operation.processScript] at hmem
    split at hmem
    · simp at hmem
    · simp at hmem
    · split at hmem
      · simp at hmem
      · simp at hmem
      · rw [List.mem_singleton] at hmem
        cases hmem
        trivial
  | updateConfirmations adapter network now =>
    have hinv := attempts_invariant
      (P := fun x => CreditsAgree x ∧ ∀ t ∈ pendingTransfers db network,
        (x.transfers.find? t.key).isSome = true) ⟨hc, ?_⟩ ?_ o ho
    · obtain ⟨⟨-, hkept⟩, hmem⟩ := hinv
      rw [ht] at hmem
      obtain ⟨transfer, hpending, hentry⟩ := List.mem_map.1 hmem
      cases hinfo : adapter.getConfirmations transfer.key.txHash with
      | error e =>
        rw [hinfo] at hentry
        cases hentry
      | ok info =>
        rw [hinfo] at hentry
        cases hentry
        exact hkept transfer hpending
    · intro transfer hpending
      rw [Table.find?_of_mem (List.mem_filter.1 hpending).1]
      rfl
    · intro entry _ a b ha hab
      cases entry with
      | error e => cases hab
      | ok u =>
        have hok : u.apply a = .ok b := hab
        have hagree := (Transaction.effects hok).creditsAgree ha.1
        exact ⟨hagree, fun transfer hpending =>
          Transaction.transfer_isSome ha.1 hok (ha.2 transfer hpending)⟩
  | handleReorg network fromBlock now =>
    have hinv := attempts_invariant
      (P := fun x => ∀ row ∈ orphanedTxs db network fromBlock,
        (x.chainTxs.find? row.key).isSome = true) ?_ ?_ o ho
    · obtain ⟨hkept, hmem⟩ := hinv
      rw [ht] at hmem
      obtain ⟨row, hrow, hentry⟩ := List.mem_map.1 hmem
      cases hentry
      exact hkept row hrow
    · intro row hrow
      rw [Table.find?_of_mem (List.mem_filter.1 hrow).1]
      rfl
    · intro entry hentry a b ha hab row hrow
      obtain ⟨row', -, hentry⟩ := List.mem_map.1 hentry
      cases hentry
      exact orphanTransaction_isSome hab (ha row hrow)
  | _ => exact hop.elim

/-- What an adapter fails with is not a rejection. -/
theorem Operation.ByMonitor.provider {op : Operation} {e : Error} (hop : op.ByMonitor)
    (h : .error e ∈ op.script db) : ¬e.IsInvalidTransition := by
  have hprovider : ∀ e : Error, e.FromProvider → ¬e.IsInvalidTransition := by
    intro e he hinvalid
    cases e <;> first | exact he.elim | exact hinvalid.elim
  cases op with
  | processTransaction adapter network txHash graceSeconds now =>
    simp only [Operation.script, Operation.processScript] at h
    split at h
    · next hfails =>
      cases List.mem_singleton.1 h
      exact hprovider _ (adapter.getTransaction_error _ _ hfails)
    · simp at h
    · split at h
      · next hfails =>
        cases List.mem_singleton.1 h
        exact hprovider _ (adapter.getTransfers_error _ _ hfails)
      · simp at h
      · simp at h
  | updateConfirmations adapter network now =>
    obtain ⟨transfer, -, hentry⟩ := List.mem_map.1 h
    cases hinfo : adapter.getConfirmations transfer.key.txHash with
    | error e' =>
      rw [hinfo] at hentry
      cases hentry
      exact hprovider _ (adapter.getConfirmations_error _ _ hinfo)
    | ok info =>
      rw [hinfo] at hentry
      cases hentry
  | handleReorg network fromBlock now =>
    obtain ⟨row, -, hentry⟩ := List.mem_map.1 h
    cases hentry
  | _ => exact hop.elim

/-- Each transaction that an operation of the monitor begins is rejected exactly if it is blocked. -/
theorem Operation.ByMonitor.attempt_rejected_iff {op : Operation} (hop : op.ByMonitor)
    (h : gateway.Reachable (fun _ => True) (fun _ _ => True) Db.empty db) :
    ∀ o ∈ attempts gateway.step (op.script db) db, ∀ t, o.2 = .ok t →
      (Rejected (gateway.step o.2 o.1) ↔ t.Blocked o.1) := by
  intro o ho t ht
  have hreachable : gateway.Reachable (fun _ => True) (fun _ _ => True) Db.empty o.1 :=
    h.attempts trivial (fun _ _ => trivial) o ho
  obtain ⟨hc, hl⟩ := agree_linked hreachable
  rw [ht]
  exact Transaction.rejected_precisely (hop.prepared (agree_linked h).1 o ho t ht) hc hl
    (numbered hreachable)

/-- An operation is rejected with one of the transactions it begins. -/
theorem Operation.ByMonitor.run_rejected_iff {op : Operation} (hop : op.ByMonitor) :
    (∃ e, (op.run db).error = some e ∧ e.IsInvalidTransition) ↔
      ∃ o ∈ attempts gateway.step (op.script db) db, ∃ t, o.2 = .ok t ∧
        Rejected (gateway.step o.2 o.1) := by
  constructor
  · intro hrejected
    obtain ⟨e, he, hinvalid⟩ := hrejected
    obtain ⟨o, ho, hfails⟩ := error_execAll_iff.1 he
    cases hentry : o.2 with
    | error e' =>
      rw [hentry] at hfails
      cases hfails
      have hmem := (attempts_invariant (P := fun _ => True) trivial
        (fun _ _ _ _ _ _ => trivial) o ho).2
      exact absurd hinvalid (hop.provider (hentry ▸ hmem))
    | ok t => exact ⟨o, ho, t, hentry, e, hentry ▸ hfails, hinvalid⟩
  · intro hattempt
    obtain ⟨o, ho, t, -, e, hfails, hinvalid⟩ := hattempt
    exact ⟨e, error_execAll_iff.2 ⟨o, ho, hfails⟩, hinvalid⟩

/-- **When an operation of the monitor is rejected.** -/
theorem rejected_iff {op : Operation}
    (h : gateway.Reachable (fun _ => True) (fun _ _ => True) Db.empty db) (hop : op.ByMonitor) :
    (∃ e, (op.run db).error = some e ∧ e.IsInvalidTransition) ↔
      ∃ o ∈ attempts gateway.step (op.script db) db, ∃ t, o.2 = .ok t ∧ t.Blocked o.1 := by
  rw [hop.run_rejected_iff]
  exact exists_congr fun o => and_congr_right fun ho => exists_congr fun t =>
    and_congr_right fun ht => hop.attempt_rejected_iff h o ho t ht

namespace Shop

/-- The invoice has been paid by a transaction that the chain then loses, and another transfer has
been sighted for it. -/
def reconciled : Db :=
  after [observe 111 [(mined "a" 100 12, [usdtTransfer 5 100000000])] "a",
    observe 111 [(unmined "b", [usdtTransfer 7 50000000])] "b",
    confirm 111 [(mined "a" 100 12, []), (unmined "b", [])],
    .handleReorg .ethereum 100 3000]

/-- The other transfer has its confirmations. -/
def confirmOther : Operation := confirm 130 [(mined "b" 115 16, [])]

end Shop

theorem rejected_iff_reconciled :
    Shop.status Shop.reconciled = some .reconciliationRequired ∧
    ∃ e, (Shop.confirmOther.run Shop.reconciled).error = some e ∧ e.IsInvalidTransition := by
  refine ⟨by decide +kernel, ?_⟩
  have hreachable : gateway.Reachable (fun _ => True) (fun _ _ => True) Db.empty Shop.reconciled :=
    Shop.after_reachable _ (fun _ _ => trivial) (Machine.allMeet_true _ _)
  have hmonitor : Shop.confirmOther.ByMonitor := trivial
  have hblocked : ∃ o ∈ attempts gateway.step (Shop.confirmOther.script Shop.reconciled)
      Shop.reconciled, ∃ t ∈ o.2.toOption, t.Blocked o.1 := by
    decide +kernel
  refine (rejected_iff hreachable hmonitor).2 ?_
  obtain ⟨o, ho, t, ht, hblocked⟩ := hblocked
  refine ⟨o, ho, t, ?_, hblocked⟩
  cases hentry : o.2 with
  | error e => rw [hentry] at ht; cases ht
  | ok u => rw [hentry] at ht; cases ht; rfl

/-! ## An invoice that stops the others -/

/-- **What keeps an operation of the monitor going.** In every state of every run it is never
rejected exactly if every transaction it comes to begins in a state in which it is not blocked. Then
each transaction it has prepared is begun, whatever the invoices of the ones before, or the operation
fails with another error. -/
theorem unpoisoned_iff {op : Operation}
    (h : gateway.Reachable (fun _ => True) (fun _ _ => True) Db.empty db) (hop : op.ByMonitor) :
    ((∀ e, (op.run db).error = some e → ¬e.IsInvalidTransition) ↔
      gateway.Meets (fun t x => ¬t.Blocked x) (op.script db) db) ∧
    (gateway.Meets (fun t x => ¬t.Blocked x) (op.script db) db →
      (attempts gateway.step (op.script db) db).map (·.2) = op.script db ∨
        ∃ e, (op.run db).error = some e ∧ ¬e.IsInvalidTransition) := by
  have hnever : (∀ e, (op.run db).error = some e → ¬e.IsInvalidTransition) ↔
      gateway.Meets (fun t x => ¬t.Blocked x) (op.script db) db := by
    rw [Machine.meets_iff_attempts]
    constructor
    · intro hnone o ho t ht hblocked
      obtain ⟨e, he, hinvalid⟩ := hop.run_rejected_iff.2
        ⟨o, ho, t, ht, (hop.attempt_rejected_iff h o ho t ht).2 hblocked⟩
      exact hnone e he hinvalid
    · intro hmeets e he hinvalid
      obtain ⟨o, ho, t, ht, hrejected⟩ := hop.run_rejected_iff.1 ⟨e, he, hinvalid⟩
      exact hmeets o ho t ht ((hop.attempt_rejected_iff h o ho t ht).1 hrejected)
  refine ⟨hnever, fun hmeets => ?_⟩
  cases herror : (op.run db).error with
  | none => exact .inl (attempts_complete herror)
  | some e => exact .inr ⟨e, rfl, hnever.2 hmeets e herror⟩

namespace Shop

/-- A second invoice, with a transfer of its own. -/
def twoInvoices : Db :=
  after [.registerAddress "shop" ⟨.ethereum, "0xother"⟩ "0xOther" none 0,
    .createInvoice ⟨"j", "shop", "p", .ethereum, "USDT", 100000000, 3600⟩ 0,
    observe 111 [(mined "a" 100 12, [usdtTransfer 5 100000000])] "a",
    observe 111 [(unmined "b", [usdtTransfer 7 50000000])] "b",
    confirm 111 [(mined "a" 100 12, []), (unmined "b", [])],
    .handleReorg .ethereum 100 3000,
    observe 115 [(mined "c" 115 1, [⟨2, some usdt, some "0xpayer", "0xother", 100000000⟩])] "c"]

/-- Both transfers that are waiting have their confirmations. -/
def confirmBoth : Operation := confirm 130 [(mined "b" 115 16, []), (mined "c" 115 16, [])]

/-- The second transfer alone has them. -/
def confirmSecond : Operation := confirm 130 [(unmined "b", []), (mined "c" 115 16, [])]

def statusOf (db : Db) (id : String) : Option InvoiceStatus := (db.invoices.find? id).map (·.status)

end Shop

/-- The monitor alone, with a credited, an orphaned and a waiting transfer of one invoice: the report
on that invoice is rejected, and the other invoice's payment is not confirmed. -/
theorem Shop.poisoned :
    gateway.Reachable Operation.Automatic (fun _ _ => True) Db.empty Shop.twoInvoices ∧
    ¬(∀ e, (Shop.confirmBoth.run Shop.twoInvoices).error = some e → ¬e.IsInvalidTransition) ∧
    Shop.statusOf ((Shop.confirmBoth.run Shop.twoInvoices).final Shop.twoInvoices) "j" =
      some .detected := by
  refine ⟨Shop.after_reachable _ (by decide) (Machine.allMeet_true _ _), fun hnever => ?_,
    by decide +kernel⟩
  have herror : ((Shop.confirmBoth.run Shop.twoInvoices).error.any
      fun e => decide e.IsInvalidTransition) = true := by decide +kernel
  rw [Option.any_eq_true] at herror
  obtain ⟨e, he, hinvalid⟩ := herror
  exact hnever e he (of_decide_eq_true hinvalid)

/-- As long as the first invoice's transfer has no confirmation, the other invoice is paid. -/
theorem unpoisoned_iff_second :
    (∀ e, (Shop.confirmSecond.run Shop.twoInvoices).error = some e → ¬e.IsInvalidTransition) ∧
    ((attempts gateway.step (Shop.confirmSecond.script Shop.twoInvoices)
      Shop.twoInvoices).map (·.2) = Shop.confirmSecond.script Shop.twoInvoices ∨
        ∃ e, (Shop.confirmSecond.run Shop.twoInvoices).error = some e ∧ ¬e.IsInvalidTransition) ∧
    Shop.statusOf ((Shop.confirmSecond.run Shop.twoInvoices).final Shop.twoInvoices) "j" =
      some .paid := by
  have hreachable : gateway.Reachable (fun _ => True) (fun _ _ => True) Db.empty
      Shop.twoInvoices := Shop.after_reachable _ (fun _ _ => trivial) (Machine.allMeet_true _ _)
  have hmonitor : Shop.confirmSecond.ByMonitor := trivial
  have hmeets : gateway.Meets (fun t x => ¬t.Blocked x)
      (Shop.confirmSecond.script Shop.twoInvoices) Shop.twoInvoices := by decide +kernel
  obtain ⟨hnever, hall⟩ := unpoisoned_iff hreachable hmonitor
  exact ⟨hnever.2 hmeets, hall hmeets, by decide +kernel⟩

end PaymentGateway
