import PaymentGateway.Lib.Separated
import PaymentGateway.System.Effects

/-!
# Credits and transfers agree

Three separate mechanisms keep a transfer from being credited twice: the early return of
`recordTransfer`, the `creditedAt` filter and the ledger's idempotency key. `CreditsAgree` is the
invariant that ties them together. A row is marked credited exactly when `creditedAt` is set, its
key is then taken in the ledger, and every ledger transaction is the credit of one such row, for
the row's invoice and the row's amount.

* `creditKey_injective` — the text of the key determines the transfer.
* `Effect.creditsAgree` — every effect keeps the invariant.
* `Effect.rowStep` — what one effect can do to one row: nothing, a new sighting or the orphaning of
  a row that is not credited, a new confirmation count, or the credit.
* `creditTransfers_spec` — the loop over the credits of a settlement.
-/

namespace PaymentGateway

open Keyed Fallible Transactional MonitorService

/-! ## The key -/

theorem toList_creditKey (k : TransferKey) : (creditKey k).toList =
    "credit:".toList ++ (k.network.name.toList ++
      ':' :: (k.txHash.toList ++ ':' :: (toString k.transferIndex).toList)) := by
  have hcolon : ":".toList = [':'] := by decide
  simp only [creditKey, String.toList_append, hcolon, List.append_assoc, List.cons_append,
    List.nil_append]

/-- The idempotency key of a credit determines its transfer, whatever the hash contains: the
network's name and the index are free of colons. -/
theorem creditKey_injective {k k' : TransferKey} (h : creditKey k = creditKey k') : k = k' := by
  have hlist := congrArg String.toList h
  rw [toList_creditKey, toList_creditKey] at hlist
  obtain ⟨hnetwork, hrest⟩ := Separated.append_left k.network.colon_notMem_name
    k'.network.colon_notMem_name (List.append_cancel_left hlist)
  obtain ⟨hhash, hindex⟩ := Separated.append_right
    (Separated.notMem_toString rfl (by decide) _) (Separated.notMem_toString rfl (by decide) _)
    hrest
  obtain ⟨network, txHash, index⟩ := k
  obtain ⟨network', txHash', index'⟩ := k'
  have h1 : network = network' := Network.name_injective hnetwork
  have h2 : txHash = txHash' := String.toList_injective hhash
  have h3 : index = index' := Separated.toString_injective hindex
  rw [h1, h2, h3]

/-- The ledger holds the credit of a transfer. -/
def InLedger (db : Db) (k : TransferKey) : Prop :=
  (db.ledgerTransactions.find? (creditKey k)).isSome = true

instance (db : Db) (k : TransferKey) : Decidable (InLedger db k) := by
  unfold InLedger
  infer_instance

/-! ## The invariant -/

/-- A ledger transaction is the credit of a transfer. -/
structure CreditOf (p : LedgerTransaction) (t : TokenTransfer) : Prop where
  key : p.idempotencyKey = creditKey t.key
  type : p.type = "payment.credit"
  invoice : p.invoiceId = t.invoiceId
  transfer : p.tokenTransferId = some t.key
  gross : p.grossAmount = t.amount

structure CreditsAgree (db : Db) : Prop where
  credited_iff : ∀ t ∈ db.transfers, t.creditedAt.isSome = true ↔ t.matchStatus = .credited
  posted : ∀ t ∈ db.transfers, t.creditedAt.isSome = true →
    (db.ledgerTransactions.find? (creditKey t.key)).isSome = true
  origin : ∀ p ∈ db.ledgerTransactions, ∃ t ∈ db.transfers,
    t.creditedAt.isSome = true ∧ t.invoiceId.isSome = true ∧ CreditOf p t

variable {may : Right → Prop} {db db' : Db}

/-- A taken key means a credited transfer. -/
theorem CreditsAgree.credited_of_key (h : CreditsAgree db) {t : TokenTransfer}
    (ht : db.transfers.find? t.key = some t)
    (hk : (db.ledgerTransactions.find? (creditKey t.key)).isSome = true) :
    t.creditedAt.isSome = true := by
  obtain ⟨p, hp⟩ := Option.isSome_iff_exists.1 hk
  obtain ⟨t', ht', hcredited, -, horigin⟩ := h.origin p (Table.mem_of_find? hp)
  have hkey : t'.key = t.key :=
    creditKey_injective (horigin.key.symm.trans (Table.key_of_find? hp))
  have hsame : t' = t := Table.eq_of_key_eq ht' (Table.mem_of_find? ht) hkey
  rwa [← hsame]

/-- A credited transfer has its posting. -/
theorem CreditsAgree.posting (h : CreditsAgree db) {t : TokenTransfer} (ht : t ∈ db.transfers)
    (hc : t.creditedAt.isSome = true) : ∃ p ∈ db.ledgerTransactions, CreditOf p t := by
  obtain ⟨p, hp⟩ := Option.isSome_iff_exists.1 (h.posted t ht hc)
  obtain ⟨t', ht', -, -, horigin⟩ := h.origin p (Table.mem_of_find? hp)
  have hkey : t'.key = t.key :=
    creditKey_injective (horigin.key.symm.trans (Table.key_of_find? hp))
  have hsame : t' = t := Table.eq_of_key_eq ht' ht hkey
  exact ⟨p, Table.mem_of_find? hp, hsame ▸ horigin⟩

/-! ## Rows -/

/-- What one effect can do to the row under one key. -/
inductive RowStep (may : Right → Prop) (db : Db) : Option TokenTransfer → Option TokenTransfer → Prop
  | same (r : Option TokenTransfer) : RowStep may db r r
  | observed (hmay : may .record) {s : Sighting} {row : TokenTransfer} {old : Option TokenTransfer}
      (hrow : s.row db = .ok row) (hold : old.bind (·.creditedAt) = none) :
      RowStep may db old (some (old.elim row (Db.overwrite row)))
  | confirmed (t : TokenTransfer) (n : Nat) :
      RowStep may db (some t) (some (Db.withConfirmations n t))
  | orphaned (hmay : may .orphan) {t : TokenTransfer} (huncredited : t.creditedAt = none) :
      RowStep may db (some t) (some (Db.orphan t))
  | credited (hmay : may .accept) {invoice : Invoice} {t : TokenTransfer} (now : Int)
      (hcounted : t ∈ countedTransfers db invoice) (huncredited : t.creditedAt = none) :
      RowStep may db (some t) (some (Db.credit now t))

/-- The row a sighting leaves has the sighting's data, whether it is new or overwritten. -/
theorem observed_row {s : Sighting} {row : TokenTransfer} {old : Option TokenTransfer}
    (hrow : s.row db = .ok row) (hold : old.bind (·.creditedAt) = none) :
    (old.elim row (Db.overwrite row)).creditedAt = none ∧
      (old.elim row (Db.overwrite row)).matchStatus = (s.decision db).status ∧
      (old.elim row (Db.overwrite row)).invoiceId = (s.invoice db).map (·.id) ∧
      (old.elim row (Db.overwrite row)).tokenContract = s.transfer.tokenContract := by
  obtain ⟨-, hcontract, -, hinvoice, hstatus, -, hnone⟩ := row_eq_ok hrow
  cases old with
  | none => exact ⟨hnone, hstatus, hinvoice, hcontract⟩
  | some t => exact ⟨hold, hstatus, hinvoice, hcontract⟩

/-- A credited row keeps everything but its confirmations. -/
theorem RowStep.of_credited {t : TokenTransfer} {new : Option TokenTransfer}
    (h : RowStep may db (some t) new) (hc : t.creditedAt.isSome = true) :
    ∃ n, new = some (Db.withConfirmations n t) := by
  have hne : t.creditedAt ≠ none := Option.isSome_iff_ne_none.1 hc
  generalize hold : some t = old at h
  cases h with
  | same => exact ⟨t.confirmations, hold.symm⟩
  | observed _ hrow hnone =>
    rw [← hold, Option.bind_some] at hnone
    exact absurd hnone hne
  | confirmed t' n => cases hold; exact ⟨n, rfl⟩
  | orphaned _ hnone => cases hold; exact absurd hnone hne
  | credited _ now _ hnone => cases hold; exact absurd hnone hne

/-- When no row becomes credited and the ledger stays, the invariant stays. -/
theorem CreditsAgree.of_rows (h : CreditsAgree db)
    (hledger : db'.ledgerTransactions = db.ledgerTransactions)
    (hrows : ∀ k, RowStep (Quiet may) db (db.transfers.find? k) (db'.transfers.find? k)) :
    CreditsAgree db' := by
  -- Where a row of the new database comes from.
  have hback : ∀ t' ∈ db'.transfers, (t'.creditedAt = none ∧ t'.matchStatus ≠ .credited) ∨
      ∃ t ∈ db.transfers, ∃ n, t' = Db.withConfirmations n t := by
    intro t' ht'
    have hstep := hrows t'.key
    generalize hold : db.transfers.find? t'.key = old at hstep
    rw [Table.find?_of_mem ht'] at hstep
    generalize hnew : some t' = new at hstep
    cases hstep with
    | same =>
      rw [← hnew] at hold
      exact .inr ⟨t', Table.mem_of_find? hold, t'.confirmations, rfl⟩
    | observed _ hrow hnone =>
      cases hnew
      obtain ⟨hcredited, hstatus, -⟩ := observed_row hrow hnone
      refine .inl ⟨hcredited, ?_⟩
      rw [hstatus]
      exact (decision_ne rfl).1
    | confirmed t n =>
      cases hnew
      exact .inr ⟨t, Table.mem_of_find? hold, n, rfl⟩
    | orphaned _ hnone =>
      cases hnew
      exact .inl ⟨hnone, TransferMatchStatus.noConfusion⟩
    | credited hmay => exact absurd hmay quiet_accept
  refine ⟨fun t' ht' => ?_, fun t' ht' hc => ?_, fun p hp => ?_⟩
  · rcases hback t' ht' with ⟨hnone, hstatus⟩ | ⟨t, ht, n, rfl⟩
    · simp [hnone, hstatus]
    · exact h.credited_iff t ht
  · rcases hback t' ht' with ⟨hnone, -⟩ | ⟨t, ht, n, rfl⟩
    · rw [hnone] at hc
      exact absurd hc (by simp)
    · rw [hledger]
      exact h.posted t ht hc
  · rw [hledger] at hp
    obtain ⟨t, ht, hcredited, hinvoice, horigin⟩ := h.origin p hp
    have hstep := hrows t.key
    rw [Table.find?_of_mem ht] at hstep
    obtain ⟨n, hn⟩ := hstep.of_credited hcredited
    exact ⟨_, Table.mem_of_find? hn, hcredited, hinvoice, horigin.1, horigin.2, horigin.3,
      horigin.4, horigin.5⟩

/-! ## The credit loop -/

/-- The `payment.credit` transactions of an invoice. -/
def creditsOf (db : Db) (invoiceId : String) : List LedgerTransaction :=
  db.ledgerTransactions.rows.filter fun p =>
    p.type = "payment.credit" ∧ p.invoiceId = some invoiceId

def creditsTotal (db : Db) (invoiceId : String) : Int :=
  ((creditsOf db invoiceId).map (·.grossAmount)).sum

/-- A posting is added and its row marked. -/
def withCredit (db : Db) (accounts : Table LedgerAccount (·.code)) (posting : LedgerTransaction)
    (hk : db.ledgerTransactions.find? posting.idempotencyKey = none) (key : TransferKey)
    (now : Int) : Db :=
  { db with
    ledgerAccounts := accounts
    ledgerTransactions := db.ledgerTransactions.insert posting hk
    transfers := db.transfers.modify key (Db.credit now) (Db.credit_key now) }

/-- One turn of the loop, on a row as it is stored: a credited row is passed over; another gets
its posting and its mark. -/
theorem creditTransfer_spec (h : CreditsAgree db) {invoice : Invoice} {merchant : Merchant}
    {now : Int} {t : TokenTransfer} (ht : db.transfers.find? t.key = some t)
    (hid : t.invoiceId = some invoice.id)
    (hturn : creditTransfer invoice merchant now db t = .ok db') :
    (t.creditedAt.isSome = true ∧ db' = db) ∨
    (t.creditedAt = none ∧ ∃ accounts posting hk, CreditOf posting t ∧
      db' = withCredit db accounts posting hk t.key now) := by
  rcases creditTransfer_eq_ok hturn with
    ⟨hsome, rfl⟩ | ⟨accounts, posting, hk, -, hkey, htype, hinvoice, htransfer, hgross, rfl⟩
  · exact .inl ⟨h.credited_of_key ht hsome, rfl⟩
  · refine .inr ⟨?_, accounts, posting, hk, ⟨hkey, htype, hinvoice.trans hid.symm, htransfer,
      hgross⟩, rfl⟩
    by_contra hne
    have hposted := h.posted t (Table.mem_of_find? ht) (Option.isSome_iff_ne_none.2 hne)
    rw [hkey] at hk
    rw [hk] at hposted
    exact absurd hposted (by simp)

/-- Whatever the database, a turn puts its own transfer into the ledger and no other. -/
theorem creditTransfer_inLedger {invoice : Invoice} {merchant : Merchant} {now : Int}
    {t : TokenTransfer} (h : creditTransfer invoice merchant now db t = .ok db')
    (k : TransferKey) : InLedger db' k ↔ InLedger db k ∨ t.key = k := by
  unfold InLedger
  rcases creditTransfer_eq_ok h with
    ⟨hsome, rfl⟩ | ⟨accounts, posting, hk, -, hkey, -, -, -, -, rfl⟩
  · refine (or_iff_left_of_imp ?_).symm
    rintro rfl
    exact hsome
  · show ((db.ledgerTransactions.insert posting hk).find? (creditKey k)).isSome = true ↔ _
    rw [Table.find?_insert, hkey]
    by_cases hsame : t.key = k
    · simp [hsame]
    · have hne : creditKey t.key ≠ creditKey k := fun heq => hsame (creditKey_injective heq)
      simp [hsame, hne]

theorem creditTransfers_inLedger {invoice : Invoice} {merchant : Merchant} {now : Int}
    {l : List TokenTransfer} (h : creditTransfers invoice merchant now db l = .ok db')
    (k : TransferKey) : InLedger db' k ↔ InLedger db k ∨ ∃ t ∈ l, t.key = k := by
  induction l generalizing db with
  | nil =>
    cases pure_eq_ok.1 h
    simp
  | cons t l ih =>
    unfold creditTransfers at h
    rw [List.foldlM_cons] at h
    obtain ⟨db1, hturn, hrest⟩ := bind_eq_ok.1 h
    rw [ih hrest, creditTransfer_inLedger hturn]
    simp [or_assoc]

/-- A credit keeps the invariant. -/
theorem CreditsAgree.withCredit (h : CreditsAgree db) {t : TokenTransfer} {now : Int}
    {accounts : Table LedgerAccount (·.code)} {posting : LedgerTransaction}
    {hk : db.ledgerTransactions.find? posting.idempotencyKey = none}
    (ht : db.transfers.find? t.key = some t) (hid : t.invoiceId.isSome = true)
    (horigin : CreditOf posting t) :
    CreditsAgree (withCredit db accounts posting hk t.key now) := by
  have hmem : ∀ x, x ∈ (PaymentGateway.withCredit db accounts posting hk t.key now).transfers ↔
      x = Db.credit now t ∨ (x ∈ db.transfers ∧ x.key ≠ t.key) := by
    intro x
    show x ∈ db.transfers.modify t.key (Db.credit now) (Db.credit_key now) ↔ _
    rw [Table.mem_modify_of_find? ht]
  have hfind : ∀ k, (db.ledgerTransactions.find? k).isSome = true →
      ((db.ledgerTransactions.insert posting hk).find? k).isSome = true := by
    intro k hsome
    rw [Table.find?_insert]
    split
    · rfl
    · exact hsome
  refine ⟨fun x hx => ?_, fun x hx hc => ?_, fun p hp => ?_⟩
  · rcases (hmem x).1 hx with rfl | ⟨hx, -⟩
    · exact ⟨fun _ => rfl, fun _ => rfl⟩
    · exact h.credited_iff x hx
  · rcases (hmem x).1 hx with rfl | ⟨hx, -⟩
    · have hkey : posting.idempotencyKey = creditKey t.key := horigin.key
      show ((db.ledgerTransactions.insert posting hk).find? (creditKey t.key)).isSome = true
      rw [Table.find?_insert, if_pos hkey]
      rfl
    · exact hfind _ (h.posted x hx hc)
  · have hp' : p ∈ db.ledgerTransactions.insert posting hk := hp
    rcases Table.mem_insert.1 hp' with hp | rfl
    · obtain ⟨x, hx, hcredited, hinvoice, hx'⟩ := h.origin p hp
      have hne : x.key ≠ t.key := by
        intro heq
        have hsame : x = t := Table.eq_of_key_eq hx (Table.mem_of_find? ht) heq
        have hfree := Table.find?_eq_none.1 hk p hp
        exact hfree (hx'.key.trans ((congrArg creditKey heq).trans horigin.key.symm))
      exact ⟨x, (hmem x).2 (.inr ⟨hx, hne⟩), hcredited, hinvoice, hx'⟩
    · exact ⟨_, (hmem _).2 (.inl rfl), rfl, hid, horigin.1, horigin.2, horigin.3, horigin.4,
        horigin.5⟩

theorem creditsTotal_withCredit {t : TokenTransfer} {now : Int}
    {accounts : Table LedgerAccount (·.code)} {posting : LedgerTransaction}
    {hk : db.ledgerTransactions.find? posting.idempotencyKey = none}
    (horigin : CreditOf posting t) (invoiceId : String) :
    creditsTotal (withCredit db accounts posting hk t.key now) invoiceId =
      creditsTotal db invoiceId + if t.invoiceId = some invoiceId then t.amount else 0 := by
  have hinvoice : posting.invoiceId = t.invoiceId := horigin.invoice
  have hgross : posting.grossAmount = t.amount := horigin.gross
  have htype : posting.type = "payment.credit" := horigin.type
  unfold creditsTotal creditsOf withCredit
  simp only [Table.rows_insert, List.filter_append, List.map_append, List.sum_append]
  congr 1
  by_cases hi : t.invoiceId = some invoiceId
  · simp [hinvoice, hi, hgross, htype]
  · simp [hinvoice, hi]

/-- What the loop over the credits of a settlement leaves: the invariant, each listed row credited
and the other rows as they were, and in the ledger the amounts of the rows that were not credited
before. -/
structure CreditLoop (db db' : Db) (invoice : Invoice) (l : List TokenTransfer) : Prop where
  agree : CreditsAgree db'
  kept : ∀ p ∈ db.ledgerTransactions, p ∈ db'.ledgerTransactions
  fresh : ∀ p ∈ db'.ledgerTransactions, p ∈ db.ledgerTransactions ∨
    ∃ t ∈ l, t.creditedAt = none ∧ CreditOf p t
  rows : ∀ k, db'.transfers.find? k = db.transfers.find? k ∨ ∃ t ∈ l, t.key = k ∧
    db.transfers.find? k = some t ∧ t.creditedAt = none ∧
    ∃ now, db'.transfers.find? k = some (Db.credit now t)
  listed : ∀ t ∈ l, ∃ t', db'.transfers.find? t.key = some t' ∧ t'.creditedAt.isSome = true
  total : creditsTotal db' invoice.id = creditsTotal db invoice.id +
    totalAmount (l.filter fun t => t.creditedAt = none)
  others : ∀ id, id ≠ invoice.id → creditsTotal db' id = creditsTotal db id

theorem creditTransfers_spec {invoice : Invoice} {merchant : Merchant} {now : Int}
    {l : List TokenTransfer} (h : CreditsAgree db)
    (hrows : ∀ t ∈ l, db.transfers.find? t.key = some t)
    (hid : ∀ t ∈ l, t.invoiceId = some invoice.id) (hnodup : (l.map (·.key)).Nodup)
    (hloop : creditTransfers invoice merchant now db l = .ok db') :
    CreditLoop db db' invoice l := by
  induction l generalizing db with
  | nil =>
    cases pure_eq_ok.1 hloop
    exact ⟨h, fun p hp => hp, fun p hp => .inl hp, fun k => .inl rfl, fun t ht => absurd ht List.not_mem_nil,
      by simp [totalAmount], fun id _ => rfl⟩
  | cons t l ih =>
    unfold creditTransfers at hloop
    rw [List.foldlM_cons] at hloop
    obtain ⟨db1, hturn, hrest⟩ := bind_eq_ok.1 hloop
    have ht := hrows t List.mem_cons_self
    have htid := hid t List.mem_cons_self
    rw [List.map_cons, List.nodup_cons] at hnodup
    have hne : ∀ t' ∈ l, t'.key ≠ t.key :=
      fun t' ht' heq => hnodup.1 (heq ▸ List.mem_map_of_mem ht')
    rcases creditTransfer_spec h ht htid hturn with
      ⟨hcredited, rfl⟩ | ⟨hnone, accounts, posting, hk, horigin, rfl⟩
    · -- The row was credited before: the turn changes nothing.
      obtain ⟨hagree, hkept, hfresh, hrow, hlisted, htotal, hothers⟩ := ih h
        (fun t' ht' => hrows t' (List.mem_cons_of_mem _ ht'))
        (fun t' ht' => hid t' (List.mem_cons_of_mem _ ht')) hnodup.2 hrest
      refine ⟨hagree, hkept, fun p hp => ?_, fun k => ?_, fun t' ht' => ?_, ?_, hothers⟩
      · rcases hfresh p hp with hold | ⟨t', ht', hnew⟩
        · exact .inl hold
        · exact .inr ⟨t', List.mem_cons_of_mem _ ht', hnew⟩
      · rcases hrow k with hsame | ⟨t', ht', hfound⟩
        · exact .inl hsame
        · exact .inr ⟨t', List.mem_cons_of_mem _ ht', hfound⟩
      · rcases List.mem_cons.1 ht' with rfl | ht'
        · rcases hrow t'.key with hsame | ⟨t'', ht'', hkey, -⟩
          · exact ⟨t', hsame.trans ht, hcredited⟩
          · exact absurd hkey (hne t'' ht'')
        · exact hlisted t' ht'
      · have hnot : ¬ t.creditedAt = none := by
          intro hnone
          simp [hnone] at hcredited
        rw [htotal, List.filter_cons_of_neg (by simpa using hnot)]
    · -- The row gets its credit; the rest of the list is stored as before.
      have hstored : ∀ k, k ≠ t.key →
          (withCredit db accounts posting hk t.key now).transfers.find? k =
            db.transfers.find? k := by
        intro k hkne
        simp only [withCredit, Table.find?_modify_ne hkne]
      have hself : (withCredit db accounts posting hk t.key now).transfers.find? t.key =
          some (Db.credit now t) := by
        simp only [withCredit, Table.find?_modify_self, ht, Option.map_some]
      obtain ⟨hagree, hkept, hfresh, hrow, hlisted, htotal, hothers⟩ :=
        ih (h.withCredit ht (by rw [htid]; rfl) horigin)
          (fun t' ht' => (hstored _ (hne t' ht')).trans (hrows t' (List.mem_cons_of_mem _ ht')))
          (fun t' ht' => hid t' (List.mem_cons_of_mem _ ht')) hnodup.2 hrest
      have hmem : ∀ p, p ∈ (withCredit db accounts posting hk t.key now).ledgerTransactions ↔
          p ∈ db.ledgerTransactions ∨ p = posting := by
        intro p
        show p ∈ db.ledgerTransactions.insert posting hk ↔ _
        exact Table.mem_insert
      refine ⟨hagree, fun p hp => hkept p ((hmem p).2 (.inl hp)), fun p hp => ?_, fun k => ?_,
        fun t' ht' => ?_, ?_, fun id hid' => ?_⟩
      · rcases hfresh p hp with hold | ⟨t', ht', hnew⟩
        · rcases (hmem p).1 hold with hold | rfl
          · exact .inl hold
          · exact .inr ⟨t, List.mem_cons_self, hnone, horigin⟩
        · exact .inr ⟨t', List.mem_cons_of_mem _ ht', hnew⟩
      · by_cases hkt : k = t.key
        · subst hkt
          rcases hrow t.key with hsame | ⟨t', ht', hkey, -⟩
          · exact .inr ⟨t, List.mem_cons_self, rfl, ht, hnone, now, hsame.trans hself⟩
          · exact absurd hkey (hne t' ht')
        · have hk' := hrow k
          rw [hstored k hkt] at hk'
          rcases hk' with hsame | ⟨t', ht', hfound⟩
          · exact .inl hsame
          · exact .inr ⟨t', List.mem_cons_of_mem _ ht', hfound⟩
      · rcases List.mem_cons.1 ht' with rfl | ht'
        · rcases hrow t'.key with hsame | ⟨t'', ht'', hkey, -⟩
          · exact ⟨_, hsame.trans hself, rfl⟩
          · exact absurd hkey (hne t'' ht'')
        · exact hlisted t' ht'
      · rw [htotal, creditsTotal_withCredit horigin, if_pos htid,
          List.filter_cons_of_pos (by simpa using hnone)]
        simp only [totalAmount, List.map_cons, List.sum_cons]
        omega
      · have hother : ¬ t.invoiceId = some id := by
          rw [htid]
          intro heq
          exact hid' (Option.some.inj heq).symm
        rw [hothers id hid', creditsTotal_withCredit horigin, if_neg hother]
        omega

/-! ## Effects -/

/-- A new sighting of a row that is not credited. -/
theorem rowStep_upsertTransfer (hmay : may .record) {s : Sighting} {row : TokenTransfer}
    (huncredited : (db.transfers.find? s.key).bind (·.creditedAt) = none)
    (hrow : s.row db = .ok row) (k : TransferKey) :
    RowStep may db (db.transfers.find? k) ((db.upsertTransfer row).transfers.find? k) := by
  have hkey : row.key = s.key := (row_eq_ok hrow).1
  rw [Db.find?_upsertTransfer]
  by_cases hk : k = row.key
  · rw [if_pos hk, hk, hkey]
    exact .observed hmay hrow huncredited
  · rw [if_neg hk]
    exact .same _

/-- Changing the row under one key. -/
theorem rowStep_modify {key : TransferKey} {f : TokenTransfer → TokenTransfer}
    (hf : ∀ r, (f r).key = r.key) {t : TokenTransfer} (hrow : db.transfers.find? key = some t)
    (hstep : RowStep may db (some t) (some (f t))) (k : TransferKey) :
    RowStep may db (db.transfers.find? k) ((db.transfers.modify key f hf).find? k) := by
  by_cases hk : k = key
  · rw [hk, Table.find?_modify_self, hrow]
    exact hstep
  · rw [Table.find?_modify_ne hk]
    exact .same _

/-- The transfers a settlement counts, as rows of the invoice. -/
theorem countedTransfers_spec (db : Db) (invoice : Invoice) :
    (∀ t ∈ countedTransfers db invoice, db.transfers.find? t.key = some t ∧
      t.invoiceId = some invoice.id ∧ invoice.requiredConfirmations ≤ t.confirmations ∧
      (t.matchStatus = .credited ∨ t.matchStatus = .pendingConfirmation)) ∧
    ((countedTransfers db invoice).map (·.key)).Nodup := by
  refine ⟨fun t ht => ?_, ?_⟩
  · obtain ⟨hconfirmed, hreached⟩ := List.mem_filter.1 ht
    obtain ⟨hmem, hp⟩ := List.mem_filter.1 hconfirmed
    simp only [Bool.decide_and, Bool.and_eq_true, decide_eq_true_eq] at hp
    exact ⟨Table.find?_of_mem hmem, hp.1, by simpa using hreached, by simpa using hp.2⟩
  · exact List.Nodup.sublist ((List.filter_sublist.trans List.filter_sublist).map _)
      db.transfers.nodup

/-- The credits of an accepted payment, over a database with the tables of the one before. -/
theorem Accepted.creditLoop {invoice : Invoice} {merchant : Merchant} {target : InvoiceStatus}
    (h : Accepted db db' invoice merchant target) (hc : CreditsAgree db) :
    ∃ db1, db1.transfers = db.transfers ∧ db1.ledgerTransactions = db.ledgerTransactions ∧
      CreditLoop db1 db' invoice (countedTransfers db invoice) := by
  obtain ⟨now, db1, hpaid, hcredits⟩ := h.credits
  obtain ⟨f, hf, writes, events, webhooks, -, -, hdb1⟩ := hpaid
  obtain ⟨hcounted, hnodup⟩ := countedTransfers_spec db invoice
  have htransfers : db1.transfers = db.transfers := by rw [hdb1]
  have hledger : db1.ledgerTransactions = db.ledgerTransactions := by rw [hdb1]
  have hc1 : CreditsAgree db1 := by
    rw [hdb1]
    exact ⟨hc.1, hc.2, hc.3⟩
  refine ⟨db1, htransfers, hledger, creditTransfers_spec hc1 ?_ ?_ hnodup hcredits⟩
  · intro t ht
    rw [htransfers]
    exact (hcounted t ht).1
  · intro t ht
    exact (hcounted t ht).2.1

/-- An effect other than an accepted payment posts nothing and credits no row. -/
theorem Effect.rowStep_or_accepted (h : Effect may db db') :
    (db'.ledgerTransactions = db.ledgerTransactions ∧
      ∀ k, RowStep (Quiet may) db (db.transfers.find? k) (db'.transfers.find? k)) ∨
    ∃ invoice merchant target, may .accept ∧ Accepted db db' invoice merchant target := by
  cases h with
  | accept hmay h => exact .inr ⟨_, _, _, hmay, h⟩
  | record hmay huncredited hrow hstays =>
    obtain ⟨transfers, hupsert⟩ := Db.upsertTransfer_eq db _
    exact .inl ⟨by rw [hupsert],
      rowStep_upsertTransfer ⟨hmay, Right.noConfusion⟩ huncredited hrow⟩
  | recordMove hmay huncredited hrow hinvoice htarget hallowed hamounts =>
    obtain ⟨transfers, hupsert⟩ := Db.upsertTransfer_eq db _
    refine .inl ⟨?_, rowStep_upsertTransfer ⟨hmay, Right.noConfusion⟩ huncredited hrow⟩
    show (db.upsertTransfer _).ledgerTransactions = _
    rw [hupsert]
  | confirmations _ n hrow =>
    exact .inl ⟨rfl, rowStep_modify (Db.withConfirmations_key n) hrow (.confirmed _ n)⟩
  | orphan hmay hrow huncredited =>
    exact .inl ⟨rfl, rowStep_modify Db.orphan_key hrow
      (.orphaned ⟨hmay, Right.noConfusion⟩ huncredited)⟩
  | _ => exact .inl ⟨rfl, fun k => .same _⟩

theorem RowStep.mono {may' : Right → Prop} (hmono : ∀ r, may r → may' r)
    {old new : Option TokenTransfer} (h : RowStep may db old new) : RowStep may' db old new := by
  cases h with
  | same => exact .same _
  | observed hmay hrow hold => exact .observed (hmono _ hmay) hrow hold
  | confirmed t n => exact .confirmed t n
  | orphaned hmay hnone => exact .orphaned (hmono _ hmay) hnone
  | credited hmay now hcounted hnone => exact .credited (hmono _ hmay) now hcounted hnone

/-- **Every effect keeps credits and transfers in agreement.** -/
theorem Effect.creditsAgree (h : Effect may db db') (hc : CreditsAgree db) :
    CreditsAgree db' := by
  rcases h.rowStep_or_accepted with ⟨hledger, hrows⟩ | ⟨invoice, merchant, target, -, haccept⟩
  · exact hc.of_rows hledger hrows
  · obtain ⟨db1, -, -, hloop⟩ := haccept.creditLoop hc
    exact hloop.agree

theorem Effect.rowStep (h : Effect may db db') (hc : CreditsAgree db) (k : TransferKey) :
    RowStep may db (db.transfers.find? k) (db'.transfers.find? k) := by
  rcases h.rowStep_or_accepted with ⟨-, hrows⟩ | ⟨invoice, merchant, target, hmay, haccept⟩
  · exact (hrows k).mono fun r hr => hr.1
  · obtain ⟨db1, htransfers, -, hloop⟩ := haccept.creditLoop hc
    have hrow := hloop.rows k
    rw [htransfers] at hrow
    rcases hrow with hsame | ⟨t, hcounted, -, hfound, hnone, now, hnew⟩
    · rw [hsame]
      exact .same _
    · rw [hfound, hnew]
      exact .credited hmay now hcounted hnone

theorem creditsAgree_empty : CreditsAgree Db.empty :=
  ⟨fun t ht => absurd ht (Table.not_mem_empty t), fun t ht => absurd ht (Table.not_mem_empty t),
    fun p hp => absurd hp (Table.not_mem_empty p)⟩

theorem Effects.creditsAgree (h : Effects may db db') (hc : CreditsAgree db) :
    CreditsAgree db' :=
  h.invariant CreditsAgree hc fun _ _ ha hab => hab.creditsAgree ha

/-- A credited row stays credited through any effects, with all its data but the confirmations. -/
theorem Effects.credited_stays (h : Effects may db db') (hc : CreditsAgree db)
    {k : TransferKey} {t : TokenTransfer} (ht : db.transfers.find? k = some t)
    (hcredited : t.creditedAt.isSome = true) :
    ∃ n, db'.transfers.find? k = some (Db.withConfirmations n t) := by
  have hboth := h.invariant
    (fun x => CreditsAgree x ∧ ∃ n, x.transfers.find? k = some (Db.withConfirmations n t))
    ⟨hc, t.confirmations, ht⟩ ?_
  · exact hboth.2
  · rintro a b ⟨ha, n, hn⟩ hab
    have hstep := hab.rowStep ha k
    rw [hn] at hstep
    obtain ⟨m, hm⟩ := hstep.of_credited hcredited
    exact ⟨hab.creditsAgree ha, m, hm⟩

end PaymentGateway
