import PaymentGateway.Monitor.Inversion

/-!
# What the orphaning of a transaction leaves

`orphanTransaction` goes through the transfers of one transaction of the chain, in the order of
their rows. `orphanTransaction_transfers` says what it leaves of the transfers: the uncredited ones
of the transaction are marked, the others are as they were.

What it leaves of an invoice depends on its transfers in the transaction.

* Without any, the invoice stays as it is (`orphanTransaction_other`).
* If they are uncredited, it keeps what it has received, is not moved to a settled status, and has
  a transfer to wait for if it ends on DETECTED or CONFIRMING (`orphanTransaction_reverts`).
* With a credited one, and an edge to RECONCILIATION_REQUIRED that an earlier transfer does not
  take away, a discrepancy of the invoice is recorded (`orphanTransaction_flags`).
-/

namespace PaymentGateway

open Keyed Fallible

/-- The discrepancy of an orphaned credit is on record for an invoice. -/
def Flagged (db : Db) (invoiceId : String) : Prop :=
  ∃ d ∈ db.discrepancies, d.kind = .orphanedCredit ∧ d.invoiceId = invoiceId

instance (db : Db) (invoiceId : String) : Decidable (Flagged db invoiceId) := by
  unfold Flagged
  infer_instance

namespace MonitorService

variable {db db' x y : Db} {t : TokenTransfer} {key : TxKey} {now : Int} {id : String}

/-! ## One transfer -/

/-- An edge that is not there, or the monitor's move back. -/
theorem revertInvoiceAfterOrphan_row {invoice : Invoice}
    (hfind : x.invoices.find? id = some invoice) (h : revertInvoiceAfterOrphan x id = .ok y) :
    let target : InvoiceStatus := if (awaiting x id).length > 0 then .detected else .pending
    (canTransition invoice.status target = false ∧ y = x) ∨
      (isActorAllowed invoice.status target .monitor = true ∧ ∃ events,
        y = x.withStatus invoice target .monitor { bumpVersion := true } events
          x.webhookEvents) := by
  obtain rfl : invoice.id = id := Table.key_of_find? hfind
  obtain ⟨stored, hstored, hmove⟩ := bind_eq_ok.1 h
  obtain rfl : stored = invoice :=
    Option.some.inj ((Db.findInvoice_eq_ok.1 hstored).symm.trans hfind)
  rcases moveInvoice_eq_ok hfind hmove with
    ⟨hno, rfl⟩ | ⟨hallowed, events, webhooks, -, -, hsilent, rfl⟩
  · exact .inl ⟨hno, rfl⟩
  · obtain rfl := hsilent rfl
    exact .inr ⟨hallowed, events, rfl⟩

/-- What the orphaning of one transfer writes outside the invoices. -/
theorem orphanTransfer_frame (h : orphanTransfer now x t = .ok y) :
    y.chainTxs = x.chainTxs ∧ (∃ l, y.discrepancies = x.discrepancies ++ l) ∧
    y.transfers.rows = if t.creditedAt = none then
      x.transfers.rows.map (fun r => if r.key = t.key then Db.orphan r else r)
      else x.transfers.rows := by
  rcases orphanTransfer_eq_ok h with ⟨hcredited, hflag⟩ | ⟨huncredited, db1, hmark, hrest⟩
  · rw [if_neg (Option.isSome_iff_ne_none.1 hcredited)]
    rcases flagOrphanedCredit_eq_ok hflag with ⟨-, rfl⟩ |
      ⟨invoice, -, -, ⟨-, rfl⟩ | ⟨events, webhooks, -, -, rfl⟩⟩
    · exact ⟨rfl, ⟨[], by simp⟩, rfl⟩
    · exact ⟨rfl, ⟨[], by simp⟩, rfl⟩
    · exact ⟨rfl, ⟨_, rfl⟩, rfl⟩
  · rw [if_pos huncredited]
    obtain ⟨-, rfl⟩ := Db.markOrphaned_eq_ok.1 hmark
    rcases hrest with ⟨-, rfl⟩ | ⟨invoiceId, -, hrevert⟩
    · exact ⟨rfl, ⟨[], by simp⟩, rfl⟩
    · obtain ⟨invoice, -, rfl | ⟨target, events, webhooks, -, -, -, -, rfl⟩⟩ :=
        revertInvoiceAfterOrphan_eq_ok hrevert
      · exact ⟨rfl, ⟨[], by simp⟩, rfl⟩
      · exact ⟨rfl, ⟨[], by simp [Db.withStatus]⟩, rfl⟩

/-- The invoices it is not about stay as they are. -/
theorem orphanTransfer_other (hid : t.invoiceId ≠ some id) (h : orphanTransfer now x t = .ok y) :
    y.invoices.find? id = x.invoices.find? id := by
  rcases orphanTransfer_eq_ok h with ⟨-, hflag⟩ | ⟨-, db1, hmark, hrest⟩
  · rcases flagOrphanedCredit_eq_ok hflag with ⟨-, rfl⟩ |
      ⟨invoice, hinvoice, -, ⟨-, rfl⟩ | ⟨events, webhooks, -, -, rfl⟩⟩
    · rfl
    · rfl
    · have hne : id ≠ invoice.id := by
        rintro rfl
        exact hid hinvoice
      show (x.withStatus invoice .reconciliationRequired .monitor _ events
        webhooks).invoices.find? id = _
      exact Db.find?_withStatus_ne hne
  · obtain ⟨-, rfl⟩ := Db.markOrphaned_eq_ok.1 hmark
    rcases hrest with ⟨-, rfl⟩ | ⟨invoiceId, hinvoice, hrevert⟩
    · rfl
    · obtain ⟨invoice, hfind, rfl | ⟨target, events, webhooks, -, -, -, -, rfl⟩⟩ :=
        revertInvoiceAfterOrphan_eq_ok hrevert
      · rfl
      · have hkey : invoice.id = invoiceId := Table.key_of_find? hfind
        have hne : id ≠ invoice.id := by
          rintro rfl
          exact hid (hinvoice.trans (congrArg some hkey.symm))
        exact Db.find?_withStatus_ne hne

/-- The move of an uncredited transfer's invoice. -/
theorem orphanTransfer_own {invoice : Invoice} (hid : t.invoiceId = some id)
    (huncredited : t.creditedAt = none) (hfind : x.invoices.find? id = some invoice)
    (h : orphanTransfer now x t = .ok y) :
    let target : InvoiceStatus := if (awaiting y id).length > 0 then .detected else .pending
    (canTransition invoice.status target = false ∧ y.invoices.find? id = some invoice) ∨
      (isActorAllowed invoice.status target .monitor = true ∧ y.invoices.find? id =
        some (invoice.update { bumpVersion := true, status := some target })) := by
  rcases orphanTransfer_eq_ok h with ⟨hcredited, -⟩ | ⟨-, db1, hmark, hrest⟩
  · rw [huncredited] at hcredited
    cases hcredited
  obtain ⟨-, rfl⟩ := Db.markOrphaned_eq_ok.1 hmark
  rcases hrest with ⟨hnone, -⟩ | ⟨invoiceId, hinvoice, hrevert⟩
  · rw [hid] at hnone
    cases hnone
  obtain rfl : invoiceId = id := Option.some.inj (hinvoice.symm.trans hid)
  generalize hmarked : { x with
    transfers := x.transfers.modify t.key Db.orphan Db.orphan_key } = marked at hrevert
  have hfind' : marked.invoices.find? invoiceId = some invoice := by
    rw [← hmarked]
    exact hfind
  rcases revertInvoiceAfterOrphan_row hfind' hrevert with ⟨hno, rfl⟩ | ⟨hallowed, events, rfl⟩
  · exact .inl ⟨hno, hfind'⟩
  · refine .inr ⟨hallowed, ?_⟩
    obtain rfl : invoice.id = invoiceId := Table.key_of_find? hfind
    exact Db.find?_withStatus_self hfind'

/-- A credited transfer of an invoice with the edge is put on record. -/
theorem orphanTransfer_flagged {invoice : Invoice} (hid : t.invoiceId = some id)
    (hcredited : t.creditedAt.isSome = true) (hfind : x.invoices.find? id = some invoice)
    (hedge : canTransition invoice.status .reconciliationRequired = true)
    (h : orphanTransfer now x t = .ok y) : Flagged y id := by
  rcases orphanTransfer_eq_ok h with ⟨-, hflag⟩ | ⟨huncredited, -⟩
  · rcases flagOrphanedCredit_eq_ok hflag with ⟨hnone, -⟩ | ⟨stored, hstored, hfound, hcases⟩
    · rw [hid] at hnone
      cases hnone
    obtain rfl : stored.id = id := Option.some.inj (hstored.symm.trans hid)
    obtain rfl : stored = invoice := Option.some.inj (hfound.symm.trans hfind)
    rcases hcases with ⟨hno, -⟩ | ⟨events, webhooks, -, -, rfl⟩
    · rw [hedge] at hno
      cases hno
    · exact ⟨_, List.mem_append_right _ (List.mem_singleton.2 rfl), rfl, rfl⟩
  · rw [huncredited] at hcredited
    cases hcredited

theorem flagged_mono (hf : Flagged x id) (h : ∃ l, y.discrepancies = x.discrepancies ++ l) :
    Flagged y id := by
  obtain ⟨l, hl⟩ := h
  obtain ⟨d, hd, hkind⟩ := hf
  exact ⟨d, by rw [hl]; exact List.mem_append_left _ hd, hkind⟩

/-! ## The transfers of a transaction -/

/-- A transfer of an orphaned transaction, unless its turn is still to come. -/
def swept (key : TxKey) (rest : List TransferKey) (t : TokenTransfer) : TokenTransfer :=
  if t.key.txKey = key ∧ t.creditedAt = none ∧ t.key ∉ rest then Db.orphan t else t

theorem swept_key (rest : List TransferKey) (t : TokenTransfer) : (swept key rest t).key = t.key := by
  unfold swept
  split <;> rfl

/-- What a part of the loop leaves behind, in terms of the state before it. -/
structure SweepFrame (db x : Db) (key : TxKey) (rest : List TokenTransfer) : Prop where
  stored : ∀ t ∈ rest, t ∈ db.transfers ∧ t.key.txKey = key
  nodup : (rest.map (·.key)).Nodup
  chainTxs : x.chainTxs = db.chainTxs
  discrepancies : ∃ l, x.discrepancies = db.discrepancies ++ l
  rows : x.transfers.rows = db.transfers.rows.map (swept key (rest.map (·.key)))

theorem SweepFrame.start (db : Db) (key : TxKey) : SweepFrame db db key (transfersOf db key) where
  stored := by
    intro t ht
    obtain ⟨hmem, hkey⟩ := List.mem_filter.1 ht
    exact ⟨hmem, of_decide_eq_true hkey⟩
  nodup := List.Nodup.sublist (List.filter_sublist.map _) db.transfers.nodup
  chainTxs := rfl
  discrepancies := ⟨[], by simp⟩
  rows := by
    refine (List.map_id _).symm.trans (List.map_congr_left fun t ht => ?_)
    refine (if_neg ?_).symm
    rintro ⟨hkey, -, hout⟩
    exact hout (List.mem_map_of_mem (List.mem_filter.2 ⟨ht, decide_eq_true hkey⟩))

theorem SweepFrame.step {rest : List TokenTransfer} (hs : SweepFrame db x key (t :: rest))
    (h : orphanTransfer now x t = .ok y) : SweepFrame db y key rest := by
  obtain ⟨hchain, ⟨l, hl⟩, hrows⟩ := orphanTransfer_frame h
  obtain ⟨l0, hl0⟩ := hs.discrepancies
  have hnodup := hs.nodup
  rw [List.map_cons, List.nodup_cons] at hnodup
  refine ⟨fun r hr => hs.stored r (List.mem_cons_of_mem _ hr), hnodup.2,
    hchain.trans hs.chainTxs, ⟨l0 ++ l, by rw [hl, hl0, List.append_assoc]⟩, ?_⟩
  obtain ⟨hmem, hkey⟩ := hs.stored t List.mem_cons_self
  rw [hrows, hs.rows]
  split
  · next huncredited =>
    rw [List.map_map]
    refine List.map_congr_left fun r hr => ?_
    simp only [Function.comp_apply, swept_key]
    by_cases hrt : r.key = t.key
    · obtain rfl : r = t := Table.eq_of_key_eq hr hmem hrt
      have hwait : swept key ((r :: rest).map (·.key)) r = r := if_neg (by simp)
      rw [if_pos rfl, hwait]
      exact (if_pos ⟨hkey, huncredited, hnodup.1⟩).symm
    · rw [if_neg hrt]
      unfold swept
      simp [hrt]
  · next hcredited =>
    refine List.map_congr_left fun r hr => ?_
    unfold swept
    by_cases hrt : r.key = t.key
    · obtain rfl : r = t := Table.eq_of_key_eq hr hmem hrt
      simp [hcredited]
    · simp [hrt]

/-- **What is left of the rows.** -/
theorem orphanTransaction_frame (h : orphanTransaction key now db = .ok y) :
    (∀ k, y.chainTxs.find? k = if k = key then
        (db.chainTxs.find? k).map fun row =>
          { row with status := .orphaned, orphanedAt := some now }
      else db.chainTxs.find? k) ∧
    (∃ l, y.discrepancies = db.discrepancies ++ l) ∧
    y.transfers.rows = db.transfers.rows.map (swept key []) := by
  obtain ⟨db1, hmark, hloop⟩ := bind_eq_ok.1 h
  unfold markTxOrphaned at hmark
  split at hmark
  · cases hmark
  cases hmark
  have hframe := foldlM_invariant_rest (fun rest x => SweepFrame _ x key rest)
    (SweepFrame.start _ key) (fun t rest a b ha hab => ha.step hab) hloop
  refine ⟨fun k => ?_, hframe.discrepancies, hframe.rows⟩
  rw [hframe.chainTxs]
  by_cases hk : k = key
  · rw [if_pos hk, hk, Table.find?_modify_self]
  · rw [if_neg hk, Table.find?_modify_ne hk]

/-! ## The invoices of a transaction -/

/-- The transfers of an invoice in a transaction of the chain. -/
def transfersIn (db : Db) (key : TxKey) (id : String) : List TokenTransfer :=
  (transfersOf db key).filter fun t => t.invoiceId = some id

theorem mem_transfersIn :
    t ∈ transfersIn db key id ↔ t ∈ transfersOf db key ∧ t.invoiceId = some id := by
  simp [transfersIn, List.mem_filter]

/-- An invoice without transfers in the transaction. -/
theorem orphanTransaction_other (hnone : transfersIn db key id = [])
    (h : orphanTransaction key now db = .ok y) :
    y.invoices.find? id = db.invoices.find? id := by
  obtain ⟨db1, hmark, hloop⟩ := bind_eq_ok.1 h
  obtain ⟨chainTxs, rfl⟩ := markTxOrphaned_eq_ok hmark
  refine foldlM_invariant (fun x : Db => x.invoices.find? id = db.invoices.find? id) ?_ ?_ hloop
  · rfl
  intro t ht a b ha hab
  refine (orphanTransfer_other (fun hid => ?_) hab).trans ha
  have hmem : t ∈ transfersIn db key id := mem_transfersIn.2 ⟨ht, hid⟩
  rw [hnone] at hmem
  exact absurd hmem List.not_mem_nil

/-- A turn of the loop leaves another invoice what it waits for. -/
theorem SweepFrame.awaiting {rest : List TokenTransfer} (hs : SweepFrame db x key (t :: rest))
    (hid : t.invoiceId ≠ some id) (h : orphanTransfer now x t = .ok y)
    (hwait : MonitorService.awaiting x id ≠ []) : MonitorService.awaiting y id ≠ [] := by
  obtain ⟨r, hr⟩ := List.exists_mem_of_ne_nil _ hwait
  refine List.ne_nil_of_mem (a := r) ?_
  obtain ⟨hmem, hrid, hp⟩ := mem_awaiting.1 hr
  refine mem_awaiting.2 ⟨?_, hrid, hp⟩
  rw [Table.mem_def, (orphanTransfer_frame h).2.2]
  split
  · refine List.mem_map.2 ⟨r, hmem, if_neg fun hkey => hid ?_⟩
    -- The row with this key is the transfer itself, which is another invoice's.
    rw [Table.mem_def, hs.rows] at hmem
    obtain ⟨r0, hr0, rfl⟩ := List.mem_map.1 hmem
    rw [swept_key] at hkey
    obtain rfl : r0 = t := Table.eq_of_key_eq hr0 (hs.stored t List.mem_cons_self).1 hkey
    have hsame : swept key ((r0 :: rest).map (·.key)) r0 = r0 := if_neg (by simp)
    rw [hsame] at hrid
    exact hrid
  · exact hmem

/-- What the loop has left of an invoice whose transfers in the transaction are uncredited. -/
structure Reverted (x : Db) (id : String) (invoice : Invoice) (rest : List TokenTransfer) :
    Prop where
  uncredited : ∀ t ∈ rest, t.invoiceId = some id → t.creditedAt = none
  found : ∃ invoice', x.invoices.find? id = some invoice' ∧
    invoice'.receivedAmount = invoice.receivedAmount ∧
    (invoice'.status ∈ [.underpaid, .overpaid, .paid] → invoice'.status = invoice.status) ∧
    ((∃ t ∈ rest, t.invoiceId = some id) ∨
      (invoice'.status = .detected ∨ invoice'.status = .confirming → awaiting x id ≠ []))

theorem Reverted.step {invoice : Invoice} {rest : List TokenTransfer}
    (hs : SweepFrame db x key (t :: rest)) (hr : Reverted x id invoice (t :: rest))
    (h : orphanTransfer now x t = .ok y) : Reverted y id invoice rest := by
  refine ⟨fun r hmem => hr.uncredited r (List.mem_cons_of_mem _ hmem), ?_⟩
  obtain ⟨found, hfind, hreceived, hsettled, hwait⟩ := hr.found
  by_cases hid : t.invoiceId = some id
  · rcases orphanTransfer_own hid (hr.uncredited t List.mem_cons_self hid) hfind h with
      ⟨hno, hsame⟩ | ⟨hallowed, hmoved⟩
    · refine ⟨found, hsame, hreceived, hsettled, .inr fun hstatus hnil => ?_⟩
      rw [hnil] at hno
      rcases hstatus with hstatus | hstatus <;> rw [hstatus] at hno <;> cases hno
    · refine ⟨_, hmoved, hreceived, ?_, .inr fun hstatus hnil => ?_⟩
      · intro hstatus
        rw [Invoice.status_update, Option.getD_some] at hstatus
        split at hstatus <;> exact absurd hstatus (by decide)
      · rw [hnil] at hstatus
        rcases hstatus with hstatus | hstatus <;> cases hstatus
  · refine ⟨found, (orphanTransfer_other hid h).trans hfind, hreceived, hsettled, ?_⟩
    rcases hwait with ⟨r, hmem, hrid⟩ | hwait
    · rcases List.mem_cons.1 hmem with rfl | hmem
      · exact absurd hrid hid
      · exact .inl ⟨r, hmem, hrid⟩
    · exact .inr fun hstatus => hs.awaiting hid h (hwait hstatus)

/-- **An invoice that loses uncredited transfers** keeps what it has received, settles on nothing
new, and waits for something if it is still on DETECTED or CONFIRMING. -/
theorem orphanTransaction_reverts {invoice : Invoice} (hfind : db.invoices.find? id = some invoice)
    (hsome : transfersIn db key id ≠ [])
    (huncredited : ∀ t ∈ transfersIn db key id, t.creditedAt = none)
    (h : orphanTransaction key now db = .ok y) :
    ∃ invoice', y.invoices.find? id = some invoice' ∧
      invoice'.receivedAmount = invoice.receivedAmount ∧
      (invoice'.status ∈ [.underpaid, .overpaid, .paid] → invoice'.status = invoice.status) ∧
      (invoice'.status = .detected ∨ invoice'.status = .confirming → awaiting y id ≠ []) := by
  obtain ⟨db1, hmark, hloop⟩ := bind_eq_ok.1 h
  obtain ⟨chainTxs, rfl⟩ := markTxOrphaned_eq_ok hmark
  have hboth := foldlM_invariant_rest
    (fun rest x => SweepFrame { db with chainTxs } x key rest ∧ Reverted x id invoice rest)
    ⟨SweepFrame.start _ key, ?_⟩ ?_ hloop
  · obtain ⟨-, -, invoice', hfind', hreceived, hsettled, ⟨t, ht, -⟩ | hwait⟩ := hboth
    · exact absurd ht List.not_mem_nil
    · exact ⟨invoice', hfind', hreceived, hsettled, hwait⟩
  · obtain ⟨t, ht⟩ := List.exists_mem_of_ne_nil _ hsome
    exact ⟨fun r hr hid => huncredited r (mem_transfersIn.2 ⟨hr, hid⟩), invoice, hfind, rfl,
      fun _ => rfl, .inl ⟨t, (mem_transfersIn.1 ht).1, (mem_transfersIn.1 ht).2⟩⟩
  · rintro t rest a b ⟨hs, hr⟩ hab
    exact ⟨hs.step hab, hr.step hs hab⟩

/-- From a status with an edge to RECONCILIATION_REQUIRED, CONFIRMING apart, the monitor does not
move back. -/
theorem not_reverted {source target : InvoiceStatus}
    (hedge : canTransition source .reconciliationRequired = true) (hne : source ≠ .confirming)
    (htarget : target = .detected ∨ target = .pending) :
    isActorAllowed source target .monitor = false := by
  rcases htarget with rfl | rfl <;> revert hedge hne <;> cases source <;> decide

/-- The invoice will have its discrepancy: it has a credited transfer in the transaction and an
edge to RECONCILIATION_REQUIRED, which only CONFIRMING loses to an uncredited transfer that comes
first. -/
structure Flags (invoice : Invoice) (transfers : List TokenTransfer) : Prop where
  edge : canTransition invoice.status .reconciliationRequired = true
  credited : ∃ t ∈ transfers, t.creditedAt.isSome = true
  first : invoice.status = .confirming → ∀ t ∈ transfers.head?, t.creditedAt.isSome = true

instance (invoice : Invoice) (transfers : List TokenTransfer) :
    Decidable (Flags invoice transfers) :=
  decidable_of_iff (canTransition invoice.status .reconciliationRequired = true ∧
      (∃ t ∈ transfers, t.creditedAt.isSome = true) ∧
      (invoice.status = .confirming → ∀ t ∈ transfers.head?, t.creditedAt.isSome = true))
    ⟨fun h => ⟨h.1, h.2.1, h.2.2⟩, fun h => ⟨h.edge, h.credited, h.first⟩⟩

/-- **An invoice that loses a credited transfer** is put on record. -/
theorem orphanTransaction_flags {invoice : Invoice} (hfind : db.invoices.find? id = some invoice)
    (hflags : Flags invoice (transfersIn db key id))
    (h : orphanTransaction key now db = .ok y) : Flagged y id := by
  obtain ⟨db1, hmark, hloop⟩ := bind_eq_ok.1 h
  obtain ⟨chainTxs, rfl⟩ := markTxOrphaned_eq_ok hmark
  have hend := foldlM_invariant_rest (fun rest x => Flagged x id ∨
    (x.invoices.find? id = some invoice ∧
      Flags invoice (rest.filter fun t => t.invoiceId = some id))) ?_ ?_ hloop
  · rcases hend with hflagged | ⟨-, -, ⟨t, ht, -⟩, -⟩
    · exact hflagged
    · exact absurd ht List.not_mem_nil
  · exact .inr ⟨hfind, hflags⟩
  rintro t rest a b (hflagged | ⟨hfound, hwill⟩) hab
  · exact .inl (flagged_mono hflagged (orphanTransfer_frame hab).2.1)
  by_cases hid : t.invoiceId = some id
  · rw [List.filter_cons, if_pos (by simpa using hid)] at hwill
    by_cases hcredited : t.creditedAt.isSome = true
    · exact .inl (orphanTransfer_flagged hid hcredited hfound hwill.edge hab)
    have hne : invoice.status ≠ .confirming := fun hs => hcredited (hwill.first hs t rfl)
    have huncredited : t.creditedAt = none := by simpa using hcredited
    refine .inr ⟨?_, hwill.edge, ?_, fun hs => absurd hs hne⟩
    · rcases orphanTransfer_own hid huncredited hfound hab with ⟨-, hsame⟩ | ⟨hallowed, -⟩
      · exact hsame
      · rw [not_reverted hwill.edge hne (by split <;> simp)] at hallowed
        cases hallowed
    · obtain ⟨r, hr, hrcredited⟩ := hwill.credited
      rcases List.mem_cons.1 hr with rfl | hr
      · exact absurd hrcredited hcredited
      · exact ⟨r, hr, hrcredited⟩
  · rw [List.filter_cons, if_neg (by simpa using hid)] at hwill
    exact .inr ⟨(orphanTransfer_other hid hab).trans hfound, hwill⟩

end MonitorService

end PaymentGateway
