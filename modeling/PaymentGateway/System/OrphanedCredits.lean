import PaymentGateway.Monitor.Orphaning
import PaymentGateway.System.Credits
import PaymentGateway.System.Operation

/-!
# Which orphaned credits are named

A credit is never reversed: when a reorganisation takes its transfer from the chain, a
discrepancy is to name it. The discrepancy is written together with the move of the invoice to
RECONCILIATION_REQUIRED, and that move is made once.

* `Due` — the transfers of a transaction that a discrepancy will name: the first credited transfer
  of each invoice that has the edge.
* `orphanTransaction_named` — one transaction names those and no others.
* `everyCreditNamed_iff` — after any calls of `handleReorg`, every credit in the ledger whose
  transfer they orphaned is named exactly if each of them was due, or named before.

The proof goes through the transfers of a transaction from the first: `due_step` says that a turn
of the loop does not change what is due among the transfers behind it. Between the transactions
only the ones that are still mined matter, since an orphaned one does not come back in a reorg.
-/

namespace PaymentGateway

open Keyed Fallible Transactional

/-- A discrepancy names the transfer as an orphaned credit. -/
def Named (db : Db) (k : TransferKey) : Prop :=
  ∃ d ∈ db.discrepancies, d.kind = .orphanedCredit ∧ d.subjectId = k

instance (db : Db) (k : TransferKey) : Decidable (Named db k) := by
  unfold Named
  infer_instance

namespace MonitorService

variable {db db' x y : Db} {t r : TokenTransfer} {key : TxKey} {now : Int} {k : TransferKey}
  {rest : List TokenTransfer}

/-! ## One transfer -/

/-- What `flagOrphanedCredit` asks for before it names a credited transfer. -/
def Flaggable (x : Db) (t : TokenTransfer) : Prop :=
  t.creditedAt.isSome = true ∧ ∃ invoice ∈ t.invoiceId.bind x.invoices.find?,
    canTransition invoice.status .reconciliationRequired = true

theorem orphanTransfer_named (h : orphanTransfer now x t = .ok y) (k : TransferKey) :
    Named y k ↔ Named x k ∨ (k = t.key ∧ Flaggable x t) := by
  rcases orphanTransfer_eq_ok h with ⟨hcredited, hflag⟩ | ⟨huncredited, db1, hmark, hrest⟩
  · rcases flagOrphanedCredit_eq_ok hflag with ⟨hnone, rfl⟩ |
      ⟨invoice, hinvoice, hfind, ⟨hno, rfl⟩ | ⟨events, webhooks, hallowed, -, rfl⟩⟩
    · simp [Flaggable, hnone]
    · simp [Flaggable, hinvoice, hfind, hno]
    · have hedge := canTransition_of_isActorAllowed hallowed
      have hflaggable : Flaggable x t := ⟨hcredited, invoice, by rw [hinvoice]; exact hfind, hedge⟩
      simp only [Named, recordOrphanedCredit, Db.withStatus, List.mem_append, List.mem_singleton,
        or_and_right, exists_or, exists_eq_left, true_and, hflaggable, and_true]
      rw [eq_comm (a := k)]
  · have hsame : y.discrepancies = x.discrepancies := by
      obtain ⟨-, rfl⟩ := Db.markOrphaned_eq_ok.1 hmark
      rcases hrest with ⟨-, rfl⟩ | ⟨invoiceId, -, hrevert⟩
      · rfl
      · obtain ⟨invoice, -, rfl | ⟨target, events, webhooks, -, -, -, -, rfl⟩⟩ :=
          revertInvoiceAfterOrphan_eq_ok hrevert <;> rfl
    simp [Named, Flaggable, hsame, huncredited]

/-- A transfer whose turn comes names no other. -/
theorem loop_named_other (h : rest.foldlM (orphanTransfer now) x = .ok y)
    (hk : k ∉ rest.map (·.key)) : Named y k ↔ Named x k := by
  refine foldlM_invariant (fun a => Named a k ↔ Named x k) Iff.rfl ?_ h
  intro t ht a b ha hab
  rw [orphanTransfer_named hab, ha, or_iff_left]
  rintro ⟨rfl, -⟩
  exact hk (List.mem_map_of_mem ht)

/-! ## The transfers that are due -/

/-- The transfers of an invoice, in the order of the loop. -/
def ofInvoice (rest : List TokenTransfer) (id : String) : List TokenTransfer :=
  rest.filter fun t => t.invoiceId = some id

/-- A discrepancy will name the transfer when the loop goes through `rest`: it is the first
credited one of its invoice, which is put on record. -/
def Due (x : Db) (rest : List TokenTransfer) (t : TokenTransfer) : Prop :=
  ∃ invoice ∈ t.invoiceId.bind x.invoices.find?, Flags invoice (ofInvoice rest invoice.id) ∧
    (ofInvoice rest invoice.id).find? (·.creditedAt.isSome) = some t

theorem ofInvoice_cons_self {id : String} (h : r.invoiceId = some id) :
    ofInvoice (r :: rest) id = r :: ofInvoice rest id := List.filter_cons_of_pos (by simpa using h)

theorem ofInvoice_cons_ne {id : String} (h : r.invoiceId ≠ some id) :
    ofInvoice (r :: rest) id = ofInvoice rest id := List.filter_cons_of_neg (by simpa using h)

theorem due_iff {invoice : Invoice} (hid : t.invoiceId = some invoice.id)
    (hfind : x.invoices.find? invoice.id = some invoice) :
    Due x rest t ↔ Flags invoice (ofInvoice rest invoice.id) ∧
      (ofInvoice rest invoice.id).find? (·.creditedAt.isSome) = some t := by
  simp [Due, hid, hfind]

/-- The transfer whose turn it is. -/
theorem due_first : Due x (t :: rest) t ↔ Flaggable x t := by
  constructor
  · rintro ⟨invoice, hinvoice, hflags, hfirst⟩
    exact ⟨by simpa using List.find?_some hfirst, invoice, hinvoice, hflags.edge⟩
  · rintro ⟨hcredited, invoice, hinvoice, hedge⟩
    obtain ⟨id, hid, hfind⟩ := Option.bind_eq_some_iff.1 hinvoice
    obtain rfl : invoice.id = id := Table.key_of_find? hfind
    refine ⟨invoice, hinvoice, ?_, ?_⟩ <;> rw [ofInvoice_cons_self hid]
    · refine ⟨hedge, ⟨t, List.mem_cons_self, hcredited⟩, fun _ s hs => ?_⟩
      cases hs
      exact hcredited
    · exact List.find?_cons_of_pos (by simpa using hcredited)

/-- Behind a credited transfer of the same invoice nothing is due. -/
theorem not_due_of_credited {invoice : Invoice} (hid : r.invoiceId = some invoice.id)
    (htid : t.invoiceId = some invoice.id) (hfind : x.invoices.find? invoice.id = some invoice)
    (hne : r ≠ t) (hcredited : r.creditedAt.isSome = true) : ¬ Due x (r :: rest) t := by
  rw [due_iff htid hfind, ofInvoice_cons_self hid, List.find?_cons_of_pos (by simpa using hcredited)]
  rintro ⟨-, hfirst⟩
  exact hne (Option.some.inj hfirst)

/-- Nor without the edge. -/
theorem not_due_of_edge {invoice : Invoice} {id : String} (hid : t.invoiceId = some id)
    (hfind : x.invoices.find? id = some invoice)
    (hno : canTransition invoice.status .reconciliationRequired = false) : ¬ Due x rest t := by
  obtain rfl : invoice.id = id := Table.key_of_find? hfind
  rw [due_iff hid hfind]
  rintro ⟨hflags, -⟩
  exact absurd hflags.edge (by simp [hno])

/-- A turn of the loop whose transfer is credited leaves its invoice without the edge. -/
theorem orphanTransfer_spends {id : String} (hid : t.invoiceId = some id)
    (hcredited : t.creditedAt.isSome = true) (h : orphanTransfer now x t = .ok y) :
    ∃ invoice, y.invoices.find? id = some invoice ∧
      canTransition invoice.status .reconciliationRequired = false := by
  rcases orphanTransfer_eq_ok h with ⟨-, hflag⟩ | ⟨huncredited, -⟩
  · rcases flagOrphanedCredit_eq_ok hflag with ⟨hnone, -⟩ |
      ⟨invoice, hinvoice, hfind, ⟨hno, rfl⟩ | ⟨events, webhooks, -, -, rfl⟩⟩
    · rw [hid] at hnone
      cases hnone
    · obtain rfl : invoice.id = id := Option.some.inj (hinvoice.symm.trans hid)
      exact ⟨invoice, hfind, hno⟩
    · obtain rfl : invoice.id = id := Option.some.inj (hinvoice.symm.trans hid)
      have hfound : (x.withStatus invoice .reconciliationRequired .monitor
          { bumpVersion := true } events webhooks).invoices.find? invoice.id = _ :=
        Db.find?_withStatus_self hfind
      exact ⟨_, hfound, rfl⟩
  · rw [huncredited] at hcredited
    cases hcredited

/-- A transfer with an invoice is only gone through if the invoice is there. -/
theorem orphanTransfer_finds {id : String} (hid : t.invoiceId = some id)
    (h : orphanTransfer now x t = .ok y) : ∃ invoice, x.invoices.find? id = some invoice := by
  rcases orphanTransfer_eq_ok h with ⟨-, hflag⟩ | ⟨-, db1, hmark, hrest⟩
  · rcases flagOrphanedCredit_eq_ok hflag with ⟨hnone, -⟩ | ⟨invoice, hinvoice, hfind, -⟩
    · rw [hid] at hnone
      cases hnone
    · obtain rfl : invoice.id = id := Option.some.inj (hinvoice.symm.trans hid)
      exact ⟨invoice, hfind⟩
  · obtain ⟨-, rfl⟩ := Db.markOrphaned_eq_ok.1 hmark
    rcases hrest with ⟨hnone, -⟩ | ⟨invoiceId, hinvoice, hrevert⟩
    · rw [hid] at hnone
      cases hnone
    · obtain rfl : invoiceId = id := Option.some.inj (hinvoice.symm.trans hid)
      obtain ⟨invoice, hfind, -⟩ := revertInvoiceAfterOrphan_eq_ok hrevert
      exact ⟨invoice, hfind⟩

/-- An uncredited transfer that comes first takes the edge from CONFIRMING alone, and then nothing
was due behind it. -/
theorem due_uncredited {invoice : Invoice} (hid : r.invoiceId = some invoice.id)
    (htid : t.invoiceId = some invoice.id) (hfind : x.invoices.find? invoice.id = some invoice)
    (huncredited : r.creditedAt = none) (h : orphanTransfer now x r = .ok y) :
    Due y rest t ↔ Due x (r :: rest) t := by
  rw [due_iff htid hfind, ofInvoice_cons_self hid,
    List.find?_cons_of_neg (by simp [huncredited])]
  rcases orphanTransfer_own hid huncredited hfind h with ⟨hno, hsame⟩ | ⟨hallowed, hmoved⟩
  · have hne : invoice.status ≠ .confirming := by
      intro hs
      rw [hs] at hno
      split at hno <;> cases hno
    rw [due_iff htid hsame]
    have hflags : Flags invoice (ofInvoice rest invoice.id) ↔
        Flags invoice (r :: ofInvoice rest invoice.id) := by
      constructor
      · intro hf
        obtain ⟨c, hc, hcredited⟩ := hf.credited
        exact ⟨hf.edge, ⟨c, List.mem_cons_of_mem _ hc, hcredited⟩, fun hs => absurd hs hne⟩
      · intro hf
        obtain ⟨c, hc, hcredited⟩ := hf.credited
        rcases List.mem_cons.1 hc with rfl | hc
        · simp [huncredited] at hcredited
        · exact ⟨hf.edge, ⟨c, hc, hcredited⟩, fun hs => absurd hs hne⟩
    rw [hflags]
  · have hnot : ¬ Due y rest t := by
      refine not_due_of_edge htid hmoved ?_
      rw [Invoice.status_update, Option.getD_some]
      split <;> rfl
    refine iff_of_false hnot ?_
    rintro ⟨hflags, -⟩
    by_cases hs : invoice.status = .confirming
    · have := hflags.first hs r rfl
      simp [huncredited] at this
    · rw [not_reverted hflags.edge hs (by split <;> simp)] at hallowed
      cases hallowed

/-- **A turn of the loop** does not change what is due behind it. -/
theorem due_step (hne : r ≠ t) (h : orphanTransfer now x r = .ok y) :
    Due y rest t ↔ Due x (r :: rest) t := by
  cases htid : t.invoiceId with
  | none => simp [Due, htid]
  | some id =>
    by_cases hid : r.invoiceId = some id
    · obtain ⟨invoice, hfind⟩ := orphanTransfer_finds hid h
      obtain rfl : invoice.id = id := Table.key_of_find? hfind
      by_cases hcredited : r.creditedAt.isSome = true
      · obtain ⟨invoice', hfind', hno⟩ := orphanTransfer_spends hid hcredited h
        exact iff_of_false (not_due_of_edge htid hfind' hno)
          (not_due_of_credited hid htid hfind hne hcredited)
      · exact due_uncredited hid htid hfind (by simpa using hcredited) h
    · simp only [Due, htid, Option.bind_some, orphanTransfer_other hid h]
      refine exists_congr fun invoice => and_congr_right fun hfind => ?_
      obtain rfl : invoice.id = id := Table.key_of_find? hfind
      rw [ofInvoice_cons_ne hid]

/-! ## A transaction -/

theorem loop_named (hnodup : (rest.map (·.key)).Nodup)
    (h : rest.foldlM (orphanTransfer now) x = .ok y) (ht : t ∈ rest) :
    Named y t.key ↔ Named x t.key ∨ Due x rest t := by
  induction rest generalizing x with
  | nil => exact absurd ht List.not_mem_nil
  | cons r rest ih =>
    obtain ⟨a, hstep, hrest⟩ := bind_eq_ok.1 (List.foldlM_cons.symm.trans h)
    rw [List.map_cons, List.nodup_cons] at hnodup
    rcases List.mem_cons.1 ht with rfl | hmem
    · rw [loop_named_other hrest hnodup.1, orphanTransfer_named hstep, due_first]
      simp
    · have hkey : t.key ≠ r.key := fun heq => hnodup.1 (heq ▸ List.mem_map_of_mem hmem)
      have hne : r ≠ t := fun heq => hkey (heq ▸ rfl)
      rw [ih hnodup.2 hrest hmem, orphanTransfer_named hstep, due_step hne hstep]
      simp [hkey]

/-- **One transaction** names the transfers that are due in it. -/
theorem orphanTransaction_named (h : orphanTransaction key now db = .ok y)
    (ht : t ∈ transfersOf db key) :
    Named y t.key ↔ Named db t.key ∨ Due db (transfersOf db key) t := by
  obtain ⟨db1, hmark, hloop⟩ := bind_eq_ok.1 h
  obtain ⟨chainTxs, rfl⟩ := markTxOrphaned_eq_ok hmark
  exact loop_named (x := { db with chainTxs }) (SweepFrame.start db key).nodup hloop ht

theorem orphanTransaction_named_other (h : orphanTransaction key now db = .ok y)
    (hk : k.txKey ≠ key) : Named y k ↔ Named db k := by
  obtain ⟨db1, hmark, hloop⟩ := bind_eq_ok.1 h
  obtain ⟨chainTxs, rfl⟩ := markTxOrphaned_eq_ok hmark
  refine loop_named_other (x := { db with chainTxs }) hloop fun hmem => hk ?_
  obtain ⟨t, ht, rfl⟩ := List.mem_map.1 hmem
  exact of_decide_eq_true (List.mem_filter.1 ht).2

/-! ## One transaction after the other -/

/-- A later reorganisation would find the transaction. -/
def StillMined (db : Db) (key : TxKey) : Prop :=
  ∃ row, db.chainTxs.find? key = some row ∧ row.status ≠ .orphaned

/-- An orphaned transaction is not found again. -/
theorem stillMined_after (h : orphanTransaction key now db = .ok y) {key' : TxKey} :
    StillMined y key' ↔ key' ≠ key ∧ StillMined db key' := by
  unfold StillMined
  rw [(orphanTransaction_frame h).1]
  split
  · next heq => simp [heq]
  · next hne => simp [hne]

/-- A transaction of `handleReorg`, with the time it reads. -/
def orphanAt (o : TxKey × Int) (db : Db) : Except Error Db := orphanTransaction o.1 o.2 db

/-- Transactions orphaned one after the other, each of them still mined when its turn came. -/
structure Orphanings (db : Db) (l : List (Db × TxKey × Int)) (y : Db) : Prop where
  turns : Turns orphanAt db l y
  found : ∀ o ∈ l, StillMined o.1 o.2.1

namespace Orphanings

variable {l l' : List (Db × TxKey × Int)} {o : Db × TxKey × Int}

theorem append {z : Db} (h : Orphanings db l y) (h' : Orphanings y l' z) :
    Orphanings db (l ++ l') z :=
  ⟨h.turns.append h'.turns, fun o ho => (List.mem_append.1 ho).elim (h.found o) (h'.found o)⟩

/-- An entry is its own turn, or one of the turns after the first. -/
theorem uncons (h : Orphanings db (o :: l) y) :
    o.1 = db ∧ StillMined db o.2.1 ∧ ∃ db', orphanTransaction o.2.1 o.2.2 db = .ok db' ∧
      Orphanings db' l y := by
  obtain ⟨hturns, hfound⟩ := h
  cases hturns with
  | next hstep hrest =>
    exact ⟨rfl, hfound _ List.mem_cons_self, _, hstep, hrest,
      fun o ho => hfound o (List.mem_cons_of_mem _ ho)⟩

theorem mined (h : Orphanings db l y) (ho : o ∈ l) : StillMined db o.2.1 := by
  induction l generalizing db with
  | nil => exact absurd ho List.not_mem_nil
  | cons o' l ih =>
    obtain ⟨-, hmined, db', hstep, hrest⟩ := h.uncons
    rcases List.mem_cons.1 ho with rfl | ho
    · exact hmined
    · exact ((stillMined_after hstep).1 (ih hrest ho)).2

/-- The transfers stay, row by row. -/
theorem keys (h : Orphanings db l y) (ho : o ∈ l) :
    o.1.transfers.rows.map (·.key) = db.transfers.rows.map (·.key) := by
  induction l generalizing db with
  | nil => exact absurd ho List.not_mem_nil
  | cons o' l ih =>
    obtain ⟨heq, -, db', hstep, hrest⟩ := h.uncons
    rcases List.mem_cons.1 ho with rfl | ho
    · rw [heq]
    · rw [ih hrest ho, (orphanTransaction_frame hstep).2.2, List.map_map]
      exact List.map_congr_left fun t _ => swept_key [] t

theorem named_other (h : Orphanings db l y) (hk : ∀ o ∈ l, k.txKey ≠ o.2.1) :
    Named y k ↔ Named db k := by
  induction l generalizing db with
  | nil =>
    cases h.turns
    exact Iff.rfl
  | cons o' l ih =>
    obtain ⟨-, -, db', hstep, hrest⟩ := h.uncons
    rw [ih hrest fun o ho => hk o (List.mem_cons_of_mem _ ho)]
    exact orphanTransaction_named_other hstep (hk _ List.mem_cons_self)

/-- In the end those transfers are named that were due when their transaction was found, or had a
name already. -/
theorem named (h : Orphanings db l y) (ho : o ∈ l) (ht : t ∈ transfersOf o.1 o.2.1) :
    Named y t.key ↔ Named o.1 t.key ∨ Due o.1 (transfersOf o.1 o.2.1) t := by
  induction l generalizing db with
  | nil => exact absurd ho List.not_mem_nil
  | cons o' l ih =>
    obtain ⟨heq, -, db', hstep, hrest⟩ := h.uncons
    rcases List.mem_cons.1 ho with rfl | ho
    · rw [heq] at ht ⊢
      rw [← orphanTransaction_named hstep ht]
      refine hrest.named_other fun o' ho hkey => ?_
      have hgone := (stillMined_after hstep).1 (hrest.mined ho)
      exact hgone.1 (hkey ▸ of_decide_eq_true (List.mem_filter.1 ht).2)
    · exact ih hrest ho

end Orphanings

/-! ## Calls of `handleReorg` -/

structure Reorg where
  network : Network
  fromBlock : Nat
  now : Int

namespace Reorg

def run (r : Reorg) (db : Db) : Db := (handleReorg r.network r.fromBlock r.now db).final db

/-- The transactions a call goes through. -/
def entries (r : Reorg) (db : Db) : List (TxKey × Int) :=
  (orphanedTxs db r.network r.fromBlock).map fun row => (row.key, r.now)

/-- A transaction that comes later in the list is not touched before its turn. -/
theorem found_of_turns {entries : List (TxKey × Int)} (hnodup : (entries.map (·.1)).Nodup)
    (hmined : ∀ e ∈ entries, StillMined db e.1) :
    ∀ o ∈ turns orphanAt entries db, StillMined o.1 o.2.1 := by
  induction entries generalizing db with
  | nil => exact fun o ho => absurd ho List.not_mem_nil
  | cons e entries ih =>
    rw [List.map_cons, List.nodup_cons] at hnodup
    cases hstep : orphanAt e db with
    | error _ =>
      rw [turns_cons_error hstep]
      exact fun o ho => absurd ho List.not_mem_nil
    | ok db' =>
      rw [turns_cons_ok hstep]
      intro o ho
      rcases List.mem_cons.1 ho with rfl | ho
      · exact hmined _ List.mem_cons_self
      · refine ih hnodup.2 (fun e' he' => ?_) o ho
        refine (stillMined_after hstep).2 ⟨fun heq => ?_, hmined e' (List.mem_cons_of_mem _ he')⟩
        exact hnodup.1 (heq ▸ List.mem_map_of_mem he')

theorem orphanings (r : Reorg) (db : Db) :
    Orphanings db (turns orphanAt (r.entries db) db) (r.run db) := by
  have hrun : r.run db = (execAll ((r.entries db).map orphanAt) db).final db := by
    rw [entries, List.map_map]
    rfl
  refine ⟨hrun ▸ turns_execAll orphanAt (r.entries db) db, found_of_turns ?_ ?_⟩
  · rw [entries, List.map_map]
    exact List.Nodup.sublist (List.filter_sublist.map _) db.chainTxs.nodup
  · intro e he
    obtain ⟨row, hrow, rfl⟩ := List.mem_map.1 he
    obtain ⟨hmem, hp⟩ := List.mem_filter.1 hrow
    refine ⟨row, Table.find?_of_mem hmem, fun horphaned => ?_⟩
    simp [horphaned] at hp

end Reorg

/-- The state that calls one after the other leave. -/
def reorgs : List Reorg → Db → Db
  | [], db => db
  | r :: rs, db => reorgs rs (r.run db)

/-- The transactions they orphan, each with the state in which it was found. -/
def orphaned : List Reorg → Db → List (Db × TxKey × Int)
  | [], _ => []
  | r :: rs, db => turns orphanAt (r.entries db) db ++ orphaned rs (r.run db)

theorem orphanings_reorgs (calls : List Reorg) (db : Db) :
    Orphanings db (orphaned calls db) (reorgs calls db) := by
  induction calls generalizing db with
  | nil => exact ⟨.none db, fun o ho => absurd ho List.not_mem_nil⟩
  | cons r rs ih => exact (r.orphanings db).append (ih (r.run db))

/-! ## Every credit -/

/-- The credited transfers that the calls take from the chain. -/
def orphanedCredits (calls : List Reorg) (db : Db) : List TokenTransfer :=
  db.transfers.rows.filter fun t =>
    t.key.txKey ∈ (orphaned calls db).map (·.2.1) ∧ InLedger db t.key

/-- All of them are named, so that what is named is all that was credited for them. -/
def EveryCreditNamed (calls : List Reorg) (db : Db) : Prop :=
  (∀ t ∈ orphanedCredits calls db, Named (reorgs calls db) t.key) ∧
    totalAmount (orphanedCredits calls db) = totalAmount
      ((orphanedCredits calls db).filter fun t => Named (reorgs calls db) t.key)

instance (calls : List Reorg) (db : Db) : Decidable (EveryCreditNamed calls db) := by
  unfold EveryCreditNamed
  infer_instance

/-- **Every reversed credit is named** exactly if each was due when its transaction was found, or
had been named by then. -/
theorem everyCreditNamed_iff (calls : List Reorg) (db : Db) : EveryCreditNamed calls db ↔
    ∀ o ∈ orphaned calls db, ∀ t ∈ transfersOf o.1 o.2.1, InLedger db t.key →
      Named o.1 t.key ∨ Due o.1 (transfersOf o.1 o.2.1) t := by
  have hall := orphanings_reorgs calls db
  constructor
  · rintro ⟨hnamed, -⟩ o ho t ht hledger
    rw [← hall.named ho ht]
    obtain ⟨hmem, htx⟩ := List.mem_filter.1 ht
    obtain ⟨t0, ht0, hkey⟩ := List.mem_map.1 (hall.keys ho ▸ List.mem_map_of_mem hmem)
    rw [← hkey] at htx hledger ⊢
    refine hnamed t0 (List.mem_filter.2 ⟨ht0, decide_eq_true ⟨?_, hledger⟩⟩)
    exact of_decide_eq_true htx ▸ List.mem_map_of_mem ho
  · intro hdue
    have hnamed : ∀ t ∈ orphanedCredits calls db, Named (reorgs calls db) t.key := by
      intro t ht
      obtain ⟨hmem, hp⟩ := List.mem_filter.1 ht
      obtain ⟨htx, hledger⟩ := of_decide_eq_true hp
      obtain ⟨o, ho, hkey⟩ := List.mem_map.1 htx
      obtain ⟨t0, ht0, hsame⟩ := List.mem_map.1 ((hall.keys ho).symm ▸ List.mem_map_of_mem hmem)
      have ht0' : t0 ∈ transfersOf o.1 o.2.1 :=
        List.mem_filter.2 ⟨ht0, decide_eq_true (hsame ▸ hkey.symm)⟩
      rw [← hsame] at hledger ⊢
      exact (hall.named ho ht0').2 (hdue o ho t0 ht0' hledger)
    refine ⟨hnamed, ?_⟩
    rw [List.filter_eq_self.2 fun t ht => decide_eq_true (hnamed t ht)]

end MonitorService

namespace Shop

open MonitorService

def halves : List (ChainTransaction × List ParsedTransfer) := [
  (mined "0xa" 100 12, [usdtTransfer 0 50000000]), (mined "0xb" 101 12, [usdtTransfer 0 50000000])]

def paidInHalves : Db :=
  after [observe 112 halves "0xa", observe 112 halves "0xb", confirm 112 halves]

/-- An invoice paid in two halves: the credit of the second is skipped, since that of the first
has already moved the invoice. -/
theorem second_half_unnamed : ¬ EveryCreditNamed [⟨.ethereum, 100, 3000⟩] paidInHalves := by
  decide +kernel

end Shop

end PaymentGateway
