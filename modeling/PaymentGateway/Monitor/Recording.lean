import PaymentGateway.Monitor.Inversion

/-!
# What one transaction records

`recordTransfers` judges the transfers of a transaction one after the other, each in the state the
earlier ones have left. That state gives the same judgement as the one before the transaction:
the addresses and the terms of the invoices are the same, and so is what the matcher asks of a
status, whether it is payable, because the moves on the way go from payable to payable and from
unpayable to unpayable (`Alike`).

So the outcome can be said in terms of the state before (`recordTransfers_spec`): a row is as it
was, or it has been recorded from the last transfer of the list with its index, and it will be
counted exactly if that transfer `Counts`.
-/

namespace PaymentGateway

open Keyed Fallible

namespace MonitorService

variable {db x y : Db}

/-! ## What the matcher counts -/

/-- The facts by which a transfer is matched to an invoice and awaits confirmation. The asset is
recognised and the amount above its dust threshold; which asset it is plays no part. -/
structure CountsFor (s : Sighting) (invoice : Invoice) : Prop where
  executed : s.chainTx.status ≠ .reverted
  recognised : s.asset.any (fun a => decide (a.minDepositUnits ≤ s.transfer.amount)) = true
  payable : isPayableStatus invoice.status = true
  in_time : isWithinGrace invoice.expiresAt s.now s.graceSeconds = true

instance (s : Sighting) (invoice : Invoice) : Decidable (CountsFor s invoice) :=
  decidable_of_iff (s.chainTx.status ≠ .reverted ∧
      s.asset.any (fun a => decide (a.minDepositUnits ≤ s.transfer.amount)) = true ∧
      isPayableStatus invoice.status = true ∧
      isWithinGrace invoice.expiresAt s.now s.graceSeconds = true)
    ⟨fun h => ⟨h.1, h.2.1, h.2.2.1, h.2.2.2⟩, fun h => ⟨h.1, h.2, h.3, h.4⟩⟩

def Counts (s : Sighting) (db : Db) : Prop := ∃ invoice, s.invoice db = some invoice ∧
  CountsFor s invoice

theorem decision_pending_iff (s : Sighting) (db : Db) :
    (s.decision db).status = .pendingConfirmation ↔ Counts s db := by
  unfold Sighting.decision
  rw [pending_iff]
  unfold Sighting.matchInput Counts
  constructor
  · rintro ⟨-, hexecuted, hrecognised, hminimum, -, hexpired, status, hstatus, hpayable⟩
    obtain ⟨invoice, hinvoice, rfl⟩ := Option.map_eq_some_iff.1 hstatus
    obtain ⟨a, ha⟩ := Option.isSome_iff_exists.1 hrecognised
    refine ⟨invoice, hinvoice, hexecuted, ?_, hpayable, ?_⟩
    · simpa [ha] using hminimum
    · simpa [hinvoice] using hexpired
  · rintro ⟨invoice, hinvoice, hexecuted, hminimum, hpayable, htime⟩
    obtain ⟨a, ha, -⟩ := (Option.any_eq_true _ _).1 hminimum
    refine ⟨rfl, hexecuted, ?_, ?_, rfl, ?_, invoice.status, ?_, hpayable⟩
    · simp [ha]
    · simpa using hminimum
    · simpa [hinvoice] using htime
    · simp [hinvoice]

/-- The late transfers: counted but for an invoice that is not payable or not in time. -/
theorem decision_late_iff (s : Sighting) (db : Db) :
    (s.decision db).status = .latePaymentReview ↔ s.chainTx.status ≠ .reverted ∧
      s.asset.any (fun a => decide (a.minDepositUnits ≤ s.transfer.amount)) = true ∧
      ∃ invoice, s.invoice db = some invoice ∧
        (isWithinGrace invoice.expiresAt s.now s.graceSeconds = false ∨
          isPayableStatus invoice.status = false) := by
  unfold Sighting.decision
  rw [late_iff]
  unfold Sighting.matchInput
  constructor
  · rintro ⟨-, hexecuted, -, hminimum, -, status, hstatus, hlate⟩
    obtain ⟨invoice, hinvoice, rfl⟩ := Option.map_eq_some_iff.1 hstatus
    refine ⟨hexecuted, by simpa using hminimum, invoice, hinvoice, ?_⟩
    simpa [hinvoice] using hlate
  · rintro ⟨hexecuted, hminimum, invoice, hinvoice, hlate⟩
    obtain ⟨a, ha, -⟩ := (Option.any_eq_true _ _).1 hminimum
    refine ⟨rfl, hexecuted, ?_, by simpa using hminimum, rfl, invoice.status, ?_, ?_⟩
    · simp [ha]
    · simp [hinvoice]
    · simpa [hinvoice] using hlate

/-! ## States that judge alike -/

/-- What a sighting is judged by in an invoice. -/
def judged (invoice : Invoice) : Invoice.Terms × Bool :=
  (invoice.terms, isPayableStatus invoice.status)

structure Alike (db x : Db) : Prop where
  addresses : x.addresses = db.addresses
  invoices : ∀ id, (x.invoices.find? id).map judged = (db.invoices.find? id).map judged
  credited : ∀ k, (x.transfers.find? k).bind (·.creditedAt) =
    (db.transfers.find? k).bind (·.creditedAt)

theorem Alike.refl (db : Db) : Alike db db := ⟨rfl, fun _ => rfl, fun _ => rfl⟩

theorem Alike.trans (h : Alike db x) (h' : Alike x y) : Alike db y where
  addresses := h'.addresses.trans h.addresses
  invoices id := (h'.invoices id).trans (h.invoices id)
  credited k := (h'.credited k).trans (h.credited k)

theorem Alike.invoice (h : Alike db x) (s : Sighting) :
    (s.invoice x).map judged = (s.invoice db).map judged := by
  unfold Sighting.invoice Db.findAddress
  rw [h.addresses]
  cases db.addresses.find? ⟨s.network, s.transfer.toAddress⟩ with
  | none => rfl
  | some address =>
    cases hid : address.invoiceId with
    | none => simp [hid]
    | some id =>
      simp only [Option.bind_some, hid]
      exact h.invoices id

theorem Alike.invoiceId (h : Alike db x) (s : Sighting) :
    (s.invoice x).map (·.id) = (s.invoice db).map (·.id) := by
  have hid := congrArg (Option.map fun v : Invoice.Terms × Bool => v.1.id) (h.invoice s)
  rw [Option.map_map, Option.map_map] at hid
  exact hid

theorem Alike.counts (h : Alike db x) (s : Sighting) : Counts s x ↔ Counts s db := by
  have hone : ∀ a b : Db, (s.invoice a).map judged = (s.invoice b).map judged →
      Counts s a → Counts s b := by
    rintro a b hab ⟨invoice, hinvoice, hcounts⟩
    rw [hinvoice, Option.map_some] at hab
    obtain ⟨invoice', hinvoice', hjudged⟩ := Option.map_eq_some_iff.1 hab.symm
    have hterms : invoice'.terms = invoice.terms := congrArg Prod.fst hjudged
    have hpayable : isPayableStatus invoice'.status = isPayableStatus invoice.status :=
      congrArg Prod.snd hjudged
    have hexpires : invoice'.expiresAt = invoice.expiresAt :=
      congrArg Invoice.Terms.expiresAt hterms
    exact ⟨invoice', hinvoice', hcounts.1, hcounts.2, hpayable.trans hcounts.3,
      hexpires ▸ hcounts.4⟩
  exact ⟨hone x db (h.invoice s), hone db x (h.invoice s).symm⟩

/-- Such states decide alike. -/
theorem Alike.decision (h : Alike db x) (s : Sighting) :
    (s.decision x).status = (s.decision db).status := by
  have hjudged := h.invoice s
  have hpayable : ((s.invoice x).map (·.status)).map isPayableStatus =
      ((s.invoice db).map (·.status)).map isPayableStatus := by
    have hsnd := congrArg (Option.map Prod.snd) hjudged
    rw [Option.map_map, Option.map_map] at hsnd
    rw [Option.map_map, Option.map_map]
    exact hsnd
  have hexpired : (s.matchInput x).invoiceExpired = (s.matchInput db).invoiceExpired := by
    have hany := congrArg (Option.any fun v : Invoice.Terms × Bool =>
      !isWithinGrace v.1.expiresAt s.now s.graceSeconds) hjudged
    rw [Option.any_map, Option.any_map] at hany
    exact hany
  have hinput : s.matchInput x =
      { s.matchInput db with invoiceStatus := (s.invoice x).map (·.status) } := by
    unfold Sighting.matchInput at hexpired ⊢
    dsimp only at hexpired ⊢
    rw [hexpired]
  unfold Sighting.decision
  rw [hinput]
  exact decision_congr hpayable

/-- The moves of a sighting do not change whether its invoice is payable. -/
theorem payable_of_sighting {status : TransferMatchStatus} {source target : InvoiceStatus}
    (htarget : sightingTarget status = some target)
    (hallowed : isActorAllowed source target .monitor = true) :
    isPayableStatus target = isPayableStatus source := by
  rcases sightingTarget_eq_some htarget with ⟨-, rfl⟩ | ⟨-, rfl⟩ <;> revert hallowed <;>
    cases source <;> decide

theorem alike_upsertTransfer {s : Sighting} {row : TokenTransfer} (hrow : s.row db = .ok row)
    (huncredited : (db.transfers.find? s.key).bind (·.creditedAt) = none) :
    Alike db (db.upsertTransfer row) := by
  obtain ⟨hkey, -, -, -, -, -, hnone⟩ := row_eq_ok hrow
  obtain ⟨transfers, hupsert⟩ := Db.upsertTransfer_eq db row
  refine ⟨by rw [hupsert], fun id => by rw [hupsert], fun k => ?_⟩
  rw [Db.find?_upsertTransfer]
  by_cases hk : k = row.key
  · rw [if_pos hk, hk, hkey, huncredited, Option.bind_some]
    cases hold : db.transfers.find? s.key with
    | none => exact hnone
    | some old =>
      rw [hold] at huncredited
      exact huncredited
  · rw [if_neg hk]

theorem alike_recordTransfer {s : Sighting} (h : recordTransfer x s = .ok y) : Alike x y := by
  rcases recordTransfer_eq_ok h with ⟨-, rfl⟩ | ⟨huncredited, row, hrow, hcases⟩
  · exact Alike.refl _
  · have hupsert := alike_upsertTransfer hrow huncredited
    rcases hcases with ⟨rfl, -⟩ |
      ⟨invoice, target, data, events, webhooks, hinvoice, htarget, hallowed, -, -, rfl⟩
    · exact hupsert
    · refine hupsert.trans ⟨rfl, fun id => ?_, fun k => rfl⟩
      rw [Db.find?_withStatus, Option.map_map]
      have hfind : (x.upsertTransfer row).invoices.find? invoice.id = some invoice := by
        obtain ⟨transfers, hx⟩ := Db.upsertTransfer_eq x row
        rw [hx]
        exact (find?_of_invoice hinvoice).1
      by_cases hid : id = invoice.id
      · subst hid
        rw [hfind, Option.map_some, Option.map_some]
        simp only [Function.comp_apply, if_true, judged, Invoice.terms_update]
        rw [Invoice.status_update, Option.getD_some, payable_of_sighting htarget hallowed]
      · simp only [if_neg hid]
        rfl

/-! ## The recorded rows -/

/-- The row of a transfer as a sighting in `db` records it. -/
structure Recorded (db : Db) (s : Sighting) (row : TokenTransfer) : Prop where
  contract : row.tokenContract = s.transfer.tokenContract
  invoice : row.invoiceId = (s.invoice db).map (·.id)
  uncredited : row.creditedAt = none
  pending_iff : row.matchStatus = .pendingConfirmation ↔ Counts s db
  not_credited : row.matchStatus ≠ .credited

theorem Recorded.of_alike {s : Sighting} {row : TokenTransfer} (ha : Alike db x)
    (h : Recorded x s row) : Recorded db s row where
  contract := h.contract
  invoice := h.invoice.trans (ha.invoiceId s)
  uncredited := h.uncredited
  pending_iff := h.pending_iff.trans (ha.counts s)
  not_credited := h.not_credited

/-- A sighting records its own row unless that row is credited, and touches no other. -/
theorem recordTransfer_row {s : Sighting} (h : recordTransfer x s = .ok y) (k : TransferKey) :
    (y.transfers.find? k = x.transfers.find? k ∧
      (s.key ≠ k ∨ ((x.transfers.find? k).bind (·.creditedAt)).isSome = true)) ∨
    (s.key = k ∧ (x.transfers.find? k).bind (·.creditedAt) = none ∧
      ∃ row, y.transfers.find? k = some row ∧ Recorded x s row) := by
  rcases recordTransfer_eq_ok h with ⟨hcredited, rfl⟩ | ⟨huncredited, row, hrow, hcases⟩
  · by_cases hk : s.key = k
    · exact .inl ⟨rfl, .inr (hk ▸ hcredited)⟩
    · exact .inl ⟨rfl, .inl hk⟩
  · obtain ⟨hkey, hcontract, -, hinvoice, hstatus, -, hnone⟩ := row_eq_ok hrow
    have hrows : y.transfers.find? k = (x.upsertTransfer row).transfers.find? k := by
      rcases hcases with ⟨rfl, -⟩ | ⟨_, _, _, _, _, -, -, -, -, -, rfl⟩ <;> rfl
    rw [hrows, Db.find?_upsertTransfer]
    by_cases hk : s.key = k
    · rw [if_pos (by rw [hkey, hk])]
      refine .inr ⟨hk, hk ▸ huncredited, _, rfl, ?_⟩
      have hpending := decision_pending_iff s x
      cases hold : x.transfers.find? k with
      | none =>
        refine ⟨hcontract, hinvoice, hnone, ?_, ?_⟩
        · show row.matchStatus = _ ↔ _
          rw [hstatus]
          exact hpending
        · show row.matchStatus ≠ _
          rw [hstatus]
          exact (decision_ne rfl).1
      | some old =>
        rw [hk, hold] at huncredited
        refine ⟨hcontract, hinvoice, huncredited, ?_, ?_⟩
        · show row.matchStatus = _ ↔ _
          rw [hstatus]
          exact hpending
        · show row.matchStatus ≠ _
          rw [hstatus]
          exact (decision_ne rfl).1
    · rw [if_neg (by rw [hkey]; exact Ne.symm hk)]
      exact .inl ⟨rfl, .inl hk⟩

/-- The row of a sighting carries its decision. -/
theorem recordTransfer_match {s : Sighting} (h : recordTransfer x s = .ok y)
    (huncredited : (x.transfers.find? s.key).bind (·.creditedAt) = none) :
    (y.transfers.find? s.key).map (·.matchStatus) = some (s.decision x).status := by
  rcases recordTransfer_eq_ok h with ⟨hcredited, -⟩ | ⟨-, row, hrow, hcases⟩
  · rw [huncredited] at hcredited
    cases hcredited
  · obtain ⟨hkey, -, -, -, hstatus, -, -⟩ := row_eq_ok hrow
    have hrows : y.transfers.find? s.key = (x.upsertTransfer row).transfers.find? s.key := by
      rcases hcases with ⟨rfl, -⟩ | ⟨_, _, _, _, _, -, -, -, -, -, rfl⟩ <;> rfl
    rw [hrows, Db.find?_upsertTransfer, if_pos hkey.symm, ← hstatus]
    cases x.transfers.find? s.key <;> rfl

/-- A transfer of a transaction, as the monitor sees it. -/
def sighting (network : Network) (chainTx : ChainTransaction) (graceSeconds : Nat) (now : Int)
    (transfer : ParsedTransfer) : Sighting :=
  ⟨network, chainTx, transfer, graceSeconds, now⟩

/-- What has become of the row under `k` once the transfers of a list have been recorded. -/
inductive RowRecorded (db db' : Db) (see : ParsedTransfer → Sighting)
    (transfers : List ParsedTransfer) (k : TransferKey) : Prop
  /-- No transfer has this key, or the row is credited. -/
  | kept (hsame : db'.transfers.find? k = db.transfers.find? k)
      (hwhy : (∀ t ∈ transfers, (see t).key ≠ k) ∨
        ((db.transfers.find? k).bind (·.creditedAt)).isSome = true)
  /-- `t` is the last transfer with this key. -/
  | recorded {before after : List ParsedTransfer} {t : ParsedTransfer} {row : TokenTransfer}
      (hsplit : transfers = before ++ t :: after) (hkey : (see t).key = k)
      (hlast : ∀ t' ∈ after, (see t').key ≠ k)
      (huncredited : (db.transfers.find? k).bind (·.creditedAt) = none)
      (hrow : db'.transfers.find? k = some row) (hrecorded : Recorded db (see t) row)

/-- One more transfer. -/
theorem RowRecorded.append {see : ParsedTransfer → Sighting} {done : List ParsedTransfer}
    {t : ParsedTransfer} {k : TransferKey} (ha : Alike db x)
    (h : RowRecorded db x see done k) (hstep : recordTransfer x (see t) = .ok y) :
    RowRecorded db y see (done ++ [t]) k := by
  have hcredited := ha.credited k
  rcases recordTransfer_row hstep k with ⟨hsame, hwhy⟩ | ⟨hkey, huncredited, row, hrow, hrecorded⟩
  · cases h with
    | kept hsame' hwhy' =>
      refine .kept (hsame.trans hsame') ?_
      rcases hwhy with hne | hcred
      · rcases hwhy' with hnone | hcred'
        · refine .inl fun t' ht' => ?_
          rcases List.mem_append.1 ht' with ht' | ht'
          · exact hnone t' ht'
          · rw [List.mem_singleton.1 ht']
            exact hne
        · exact .inr hcred'
      · exact .inr (hcredited ▸ hcred)
    | @recorded before after t' row hsplit hkey hlast huncredited hrow hrecorded =>
      have hne : (see t).key ≠ k := by
        rcases hwhy with hne | hcred
        · exact hne
        · rw [hcredited, huncredited] at hcred
          cases hcred
      have hsplit' : done ++ [t] = before ++ t' :: (after ++ [t]) := by
        rw [hsplit, List.append_assoc, List.cons_append]
      refine .recorded hsplit' hkey ?_ huncredited (hsame.trans hrow) hrecorded
      intro t'' ht''
      rcases List.mem_append.1 ht'' with ht'' | ht''
      · exact hlast t'' ht''
      · rw [List.mem_singleton.1 ht'']
        exact hne
  · exact .recorded rfl hkey (fun t' ht' => absurd ht' List.not_mem_nil)
      (hcredited ▸ huncredited) hrow (hrecorded.of_alike ha)

/-- **What a transaction records**, in terms of the state before it. -/
theorem recordTransfers_spec {network : Network} {chainTx : ChainTransaction}
    {transfers : List ParsedTransfer} {graceSeconds : Nat} {now : Int}
    (h : recordTransfers network chainTx transfers graceSeconds now db = .ok y) :
    Alike db y ∧
      ∀ k, RowRecorded db y (sighting network chainTx graceSeconds now) transfers k := by
  obtain ⟨chainTxs, hchain⟩ := recordChainTransaction_eq db network chainTx now
  unfold recordTransfers at h
  rw [hchain] at h
  refine foldlM_invariant_done (fun done x => Alike db x ∧
    ∀ k, RowRecorded db x (sighting network chainTx graceSeconds now) done k) ?_ ?_ h
  · exact ⟨⟨rfl, fun _ => rfl, fun _ => rfl⟩,
      fun k => .kept rfl (.inl fun t ht => absurd ht List.not_mem_nil)⟩
  · rintro done t a b ⟨ha, hrows⟩ hstep
    exact ⟨ha.trans (alike_recordTransfer hstep), fun k => (hrows k).append ha hstep⟩

end MonitorService

end PaymentGateway
