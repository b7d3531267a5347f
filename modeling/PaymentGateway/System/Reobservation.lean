import PaymentGateway.Monitor.Rescan
import PaymentGateway.System.Progress

/-!
# Observing a transaction again

`processTransaction` of a transaction whose transfers all have their rows, at any later time.

**Theorem (`reobserved_iff`).** In every state of every run, it leaves the statuses and received
amounts of the invoices, the match statuses of the transfers and the events and notices as they are
exactly if each of its transfers is credited or `Undisturbed`: the facts by which its row was
classified still hold, the status of the invoice and the deadline among them, and the invoice is
not where such a transfer moves it on from.

Only a credited transfer is exempt from a second judgement. A pending one is judged by the clock of
the second sighting, so after the deadline it becomes late, and for an invoice on CONFIRMING there
is an edge back to DETECTED, which the second sighting takes.

The proof follows the transfers of the transaction with the judgement of each in the state before
all of them (`Alike`), and with the alternative that no invoice has moved yet, or that one has and
its event is recorded (`Moved`).
-/

namespace PaymentGateway

open Keyed Fallible Transactional MonitorService

variable {db db' : Db}

/-! ## Transfers that are where a sighting leaves them -/

/-- The transfer a row was written from. -/
def TokenTransfer.parsed (row : TokenTransfer) : ParsedTransfer :=
  ⟨row.key.transferIndex, row.tokenContract, row.fromAddress, row.toAddress, row.amount⟩

/-- Every transfer of a transaction has been recorded. -/
def Processed (network : Network) (txHash : String) (transfers : List ParsedTransfer) (db : Db) :
    Prop :=
  ∀ t ∈ transfers, ∃ row ∈ db.transfers.find? ⟨network, txHash, t.transferIndex⟩, row.parsed = t

/-- The facts for which a sighting gives a transfer its match status still hold, and its invoice
has no edge to where the sighting would move it. -/
def Undisturbed (s : Sighting) (db : Db) : TransferMatchStatus → Prop
  | .pendingConfirmation => ∃ invoice ∈ s.invoice db, CountsFor s invoice ∧
      canTransition invoice.status .detected = false
  | .latePaymentReview => s.chainTx.status ≠ .reverted ∧
      s.asset.any (fun a => decide (a.minDepositUnits ≤ s.transfer.amount)) = true ∧
      ∃ invoice ∈ s.invoice db,
        (isWithinGrace invoice.expiresAt s.now s.graceSeconds = false ∨
          isPayableStatus invoice.status = false) ∧
        canTransition invoice.status .latePaymentReview = false
  | .unmatched => s.chainTx.status = .reverted ∨
      (s.asset.any (fun a => decide (a.minDepositUnits ≤ s.transfer.amount)) = true ∧
        s.invoice db = none)
  | .unsupportedAsset => s.chainTx.status ≠ .reverted ∧ s.asset = none
  | .belowMinimum => s.chainTx.status ≠ .reverted ∧
      ∃ a ∈ s.asset, s.transfer.amount < a.minDepositUnits
  | .credited | .complianceHold | .orphaned => False

instance (s : Sighting) (db : Db) :
    ∀ status, Decidable (Undisturbed s db status)
  | .pendingConfirmation => inferInstanceAs (Decidable (∃ invoice ∈ s.invoice db,
      CountsFor s invoice ∧ canTransition invoice.status .detected = false))
  | .latePaymentReview => inferInstanceAs (Decidable (s.chainTx.status ≠ .reverted ∧
      s.asset.any (fun a => decide (a.minDepositUnits ≤ s.transfer.amount)) = true ∧
      ∃ invoice ∈ s.invoice db,
        (isWithinGrace invoice.expiresAt s.now s.graceSeconds = false ∨
          isPayableStatus invoice.status = false) ∧
        canTransition invoice.status .latePaymentReview = false))
  | .unmatched => inferInstanceAs (Decidable (s.chainTx.status = .reverted ∨
      (s.asset.any (fun a => decide (a.minDepositUnits ≤ s.transfer.amount)) = true ∧
        s.invoice db = none)))
  | .unsupportedAsset => inferInstanceAs (Decidable (s.chainTx.status ≠ .reverted ∧ s.asset = none))
  | .belowMinimum => inferInstanceAs (Decidable (s.chainTx.status ≠ .reverted ∧
      ∃ a ∈ s.asset, s.transfer.amount < a.minDepositUnits))
  | .credited | .complianceHold | .orphaned => isFalse not_false

/-- A sighting has no move to make for an invoice with this status. -/
def Settled (status : TransferMatchStatus) (invoice : Option Invoice) : Prop :=
  ∀ i ∈ invoice, ∀ target, sightingTarget status = some target →
    canTransition i.status target = false

theorem settled_of_none {status : TransferMatchStatus} (h : sightingTarget status = none)
    (invoice : Option Invoice) : Settled status invoice := by
  intro i _ target ht
  rw [h] at ht
  cases ht

/-- The decisions that rest on the transaction and the asset. -/
theorem decision_status (s : Sighting) (db : Db) : (s.decision db).status =
    if s.chainTx.status = .reverted then .unmatched
    else if s.asset = none then .unsupportedAsset
    else if s.asset.any (fun a => decide (a.minDepositUnits ≤ s.transfer.amount)) = false then
      .belowMinimum
    else match s.invoice db with
      | none => .unmatched
      | some invoice =>
        if isWithinGrace invoice.expiresAt s.now s.graceSeconds = false ∨
          isPayableStatus invoice.status = false then .latePaymentReview
        else .pendingConfirmation := by
  unfold Sighting.decision evaluateTransferMatch Sighting.matchInput
  cases s.asset <;> cases s.invoice db <;> by_cases hreverted : s.chainTx.status = .reverted <;>
    simp [hreverted] <;> split_ifs <;> simp_all

/-- It is what the matcher decides now, with no move to make. -/
theorem undisturbed_iff {s : Sighting} {status : TransferMatchStatus} :
    Undisturbed s db status ↔
      (s.decision db).status = status ∧ Settled status (s.invoice db) := by
  cases status with
  | pendingConfirmation =>
    rw [decision_pending_iff]
    constructor
    · rintro ⟨invoice, hinvoice, hcounts, hedge⟩
      refine ⟨⟨invoice, hinvoice, hcounts⟩, fun i hi target ht => ?_⟩
      cases ht
      rwa [Option.mem_unique hi hinvoice]
    · rintro ⟨⟨invoice, hinvoice, hcounts⟩, hsettled⟩
      exact ⟨invoice, hinvoice, hcounts, hsettled invoice hinvoice _ rfl⟩
  | latePaymentReview =>
    rw [decision_late_iff]
    constructor
    · rintro ⟨hexecuted, hminimum, invoice, hinvoice, hlate, hedge⟩
      refine ⟨⟨hexecuted, hminimum, invoice, hinvoice, hlate⟩, fun i hi target ht => ?_⟩
      cases ht
      rwa [Option.mem_unique hi hinvoice]
    · rintro ⟨⟨hexecuted, hminimum, invoice, hinvoice, hlate⟩, hsettled⟩
      exact ⟨hexecuted, hminimum, invoice, hinvoice, hlate, hsettled invoice hinvoice _ rfl⟩
  | unmatched =>
    rw [and_iff_left (settled_of_none rfl _), decision_status]
    simp only [Undisturbed]
    split_ifs with hreverted hasset hminimum
    · simp [hreverted]
    · simp [hreverted, hasset]
    · simp [hreverted, hminimum]
    · rw [Bool.not_eq_false] at hminimum
      cases s.invoice db with
      | none => simp [hminimum]
      | some invoice =>
        dsimp only
        split_ifs <;> simp [hreverted]
  | unsupportedAsset =>
    rw [and_iff_left (settled_of_none rfl _), decision_status]
    simp only [Undisturbed]
    split_ifs with hreverted hasset hminimum
    · simp [hreverted]
    · simp [hreverted, hasset]
    · simp [hasset]
    · cases s.invoice db with
      | none => simp [hasset]
      | some invoice =>
        dsimp only
        split_ifs <;> simp [hasset]
  | belowMinimum =>
    rw [and_iff_left (settled_of_none rfl _), decision_status]
    simp only [Undisturbed]
    cases hasset : s.asset with
    | none => by_cases hreverted : s.chainTx.status = .reverted <;> simp [hreverted]
    | some a =>
      split_ifs with hreverted hnone hminimum
      · simp [hreverted]
      · cases hnone
      · simpa [hreverted] using hminimum
      · have hnot : ¬ s.transfer.amount < a.minDepositUnits := by simpa using hminimum
        cases s.invoice db with
        | none => simp [hnot]
        | some invoice =>
          dsimp only
          split_ifs <;> simp [hnot]
  | credited => exact iff_of_false not_false fun h => (decision_ne rfl).1 h.1
  | orphaned => exact iff_of_false not_false fun h => (decision_ne rfl).2 h.1
  | complianceHold =>
    refine iff_of_false not_false fun h => ?_
    have hstatus := h.1
    rw [decision_status] at hstatus
    cases hinvoice : s.invoice db <;> rw [hinvoice] at hstatus <;> dsimp only at hstatus <;>
      split_ifs at hstatus

/-! ## What a second sighting writes -/

/-- The tables that a sighting writes only when it moves an invoice, with the addresses. -/
structure Unmoved (db x : Db) : Prop where
  invoices : x.invoices = db.invoices
  addresses : x.addresses = db.addresses
  events : x.events = db.events
  webhooks : x.webhookEvents = db.webhookEvents

/-- The transfer of a sighting is credited. -/
def CreditedAt (db : Db) (key : TransferKey) : Prop :=
  ((db.transfers.find? key).bind (·.creditedAt)).isSome = true

theorem creditedAt_eq_none {key : TransferKey} (h : ¬ CreditedAt db key) :
    (db.transfers.find? key).bind (·.creditedAt) = none := by
  rwa [CreditedAt, Bool.not_eq_true, Option.isSome_eq_false_iff, Option.isNone_iff_eq_none] at h

/-- A move is on record, of an invoice that was not settled. -/
structure Moved (db x : Db) (see : ParsedTransfer → Sighting) (transfers : List ParsedTransfer) :
    Prop where
  recorded : db.events.rows.length < x.events.rows.length
  unsettled : ∃ t ∈ transfers, ¬ CreditedAt db (see t).key ∧
    ¬ Settled ((see t).decision db).status ((see t).invoice db)

section Sighting

variable {x y : Db} {s : Sighting}

theorem Unmoved.invoice (hx : Unmoved db x) (s : Sighting) : s.invoice x = s.invoice db := by
  unfold Sighting.invoice Db.findAddress
  rw [hx.addresses, hx.invoices]

/-- One sighting, in a state in which no invoice has moved yet. -/
theorem recordTransfer_unmoved (ha : Alike db x) (hx : Unmoved db x)
    (h : recordTransfer x s = .ok y) :
    (Unmoved db y ∧ (CreditedAt db s.key ∨
        Settled (s.decision db).status (s.invoice db))) ∨
      (db.events.rows.length < y.events.rows.length ∧ ¬ CreditedAt db s.key ∧
        ¬ Settled (s.decision db).status (s.invoice db)) := by
  have hcredited := ha.credited s.key
  rcases recordTransfer_eq_ok h with ⟨hcred, rfl⟩ | ⟨huncredited, row, hrow, hcases⟩
  · rw [hcredited] at hcred
    exact .inl ⟨hx, .inl hcred⟩
  obtain ⟨transfers, hupsert⟩ := Db.upsertTransfer_eq x row
  rw [ha.decision, hx.invoice] at hcases
  rw [hcredited] at huncredited
  rcases hcases with ⟨rfl, hsettled⟩ |
    ⟨invoice, target, data, events, webhooks, hinvoice, htarget, hallowed, -, hannounced, rfl⟩
  · refine .inl ⟨?_, .inr fun i hi target ht => hsettled i target hi ht⟩
    rw [hupsert]
    exact ⟨hx.invoices, hx.addresses, hx.events, hx.webhooks⟩
  · refine .inr ⟨?_, ?_, fun hsettled => ?_⟩
    · rw [hx.events] at hannounced
      obtain - | ⟨⟨e, hfree, -, -, -, -, -, rfl⟩, -, hnil⟩ := hannounced
      cases hnil
      show _ < (db.events.insert e hfree).rows.length
      simp
    · unfold CreditedAt
      rw [huncredited]
      exact Bool.noConfusion
    · have hedge := canTransition_of_isActorAllowed hallowed
      rw [hsettled invoice hinvoice target htarget] at hedge
      cases hedge

/-- Events are only added. -/
theorem recordTransfer_events (h : recordTransfer x s = .ok y) :
    x.events.rows.length ≤ y.events.rows.length := by
  rcases recordTransfer_eq_ok h with ⟨-, rfl⟩ | ⟨-, row, -, hcases⟩
  · exact le_rfl
  obtain ⟨transfers, hupsert⟩ := Db.upsertTransfer_eq x row
  rcases hcases with ⟨rfl, -⟩ | ⟨_, _, _, events, webhooks, -, -, -, -, hannounced, rfl⟩
  · rw [hupsert]
  · obtain - | ⟨⟨e, hfree, -, -, -, -, -, rfl⟩, -, hnil⟩ := hannounced
    cases hnil
    show _ ≤ (x.events.insert e hfree).rows.length
    simp

end Sighting

section Transaction

variable {network : Network} {chainTx : ChainTransaction} {transfers : List ParsedTransfer}
  {graceSeconds : Nat} {now : Int}

/-- **The moves of a second sighting**: none, or one that is on record. -/
theorem recordTransfers_unmoved
    (h : recordTransfers network chainTx transfers graceSeconds now db = .ok db') :
    (Unmoved db db' ∧ ∀ t ∈ transfers,
      CreditedAt db (sighting network chainTx graceSeconds now t).key ∨
      Settled ((sighting network chainTx graceSeconds now t).decision db).status
        ((sighting network chainTx graceSeconds now t).invoice db)) ∨
    Moved db db' (sighting network chainTx graceSeconds now) transfers := by
  obtain ⟨chainTxs, hchain⟩ := recordChainTransaction_eq db network chainTx now
  unfold recordTransfers at h
  rw [hchain] at h
  have hfold := foldlM_invariant_rest (fun rest x => ∃ done, transfers = done ++ rest ∧
    Alike db x ∧ ((Unmoved db x ∧ ∀ t ∈ done,
      CreditedAt db (sighting network chainTx graceSeconds now t).key ∨
      Settled ((sighting network chainTx graceSeconds now t).decision db).status
        ((sighting network chainTx graceSeconds now t).invoice db)) ∨
      Moved db x (sighting network chainTx graceSeconds now) transfers)) ?_ ?_ h
  · obtain ⟨done, hdone, -, hcases⟩ := hfold
    have hall : done = transfers := by rw [hdone, List.append_nil]
    rwa [hall] at hcases
  · exact ⟨[], rfl, ⟨rfl, fun _ => rfl, fun _ => rfl⟩, .inl ⟨⟨rfl, rfl, rfl, rfl⟩,
      fun t ht => absurd ht List.not_mem_nil⟩⟩
  · rintro t rest x y ⟨done, hdone, ha, hcases⟩ hstep
    refine ⟨done ++ [t], by rw [hdone]; simp, ha.trans (alike_recordTransfer hstep), ?_⟩
    rcases hcases with ⟨hx, hsettled⟩ | hmoved
    · rcases recordTransfer_unmoved ha hx hstep with ⟨hy, hlast⟩ | ⟨hlength, huncredited, hlast⟩
      · refine .inl ⟨hy, fun t' ht' => ?_⟩
        rcases List.mem_append.1 ht' with ht' | ht'
        · exact hsettled t' ht'
        · rw [List.mem_singleton.1 ht']
          exact hlast
      · exact .inr ⟨hlength, t, by rw [hdone]; simp, huncredited, hlast⟩
    · exact .inr ⟨hmoved.recorded.trans_le (recordTransfer_events hstep), hmoved.unsettled⟩

/-! ## The second observation -/

/-- The same statuses and amounts of invoices, match statuses of transfers, events and notices. -/
structure SameRecords (db db' : Db) : Prop where
  invoices : ∀ id, (db'.invoices.find? id).map (fun i => (i.status, i.receivedAmount)) =
    (db.invoices.find? id).map fun i => (i.status, i.receivedAmount)
  matched : ∀ k, (db'.transfers.find? k).map (·.matchStatus) =
    (db.transfers.find? k).map (·.matchStatus)
  events : db'.events = db.events
  webhooks : db'.webhookEvents = db.webhookEvents

theorem SameRecords.refl (db : Db) : SameRecords db db :=
  ⟨fun _ => rfl, fun _ => rfl, rfl, rfl⟩

/-- A row holds one transfer. -/
theorem Processed.unique (hdone : Processed network chainTx.hash transfers db)
    {t t' : ParsedTransfer} (ht : t ∈ transfers) (ht' : t' ∈ transfers)
    (hkey : (sighting network chainTx graceSeconds now t').key =
      (sighting network chainTx graceSeconds now t).key) : t' = t := by
  have hindex : t'.transferIndex = t.transferIndex := congrArg TransferKey.transferIndex hkey
  obtain ⟨row, hrow, rfl⟩ := hdone t ht
  obtain ⟨row', hrow', rfl⟩ := hdone t' ht'
  rw [hindex] at hrow'
  rw [Option.mem_unique hrow' hrow]

/-- The row of an uncredited transfer is given the decision of the second sighting. -/
theorem matched_of_uncredited (hdone : Processed network chainTx.hash transfers db)
    (h : recordTransfers network chainTx transfers graceSeconds now db = .ok db')
    {t : ParsedTransfer} (ht : t ∈ transfers)
    (huncredited : ¬ CreditedAt db (sighting network chainTx graceSeconds now t).key) :
    (db'.transfers.find? (sighting network chainTx graceSeconds now t).key).map (·.matchStatus) =
      some ((sighting network chainTx graceSeconds now t).decision db).status := by
  obtain ⟨row, hrow, hfacts⟩ := (recordTransfers_left h _).left t ht rfl
    (creditedAt_eq_none huncredited) fun t' ht' hkey => hdone.unique ht ht' hkey
  obtain ⟨-, -, -, -, hstatus, -, -⟩ := row_eq_ok hrow
  obtain ⟨row', hrow', hsame⟩ := Option.map_eq_some_iff.1 hfacts
  rw [hrow', Option.map_some, ← hstatus]
  have hmatch : row'.facts.matchStatus = row.facts.matchStatus := by rw [hsame]
  exact congrArg some hmatch

/-- A recorded transaction can be recorded again. -/
theorem recordTransfers_of_processed (hn : Numbered db)
    (hdone : Processed network chainTx.hash transfers db) (graceSeconds : Nat) (now : Int) :
    ∃ db', recordTransfers network chainTx transfers graceSeconds now db = .ok db' := by
  refine (recordTransfers_isOk_iff hn network chainTx transfers graceSeconds now).2 ?_
  intro t ht
  obtain ⟨row, -, rfl⟩ := hdone t ht
  exact .inr ⟨row.amount_positive, row.index_valid⟩

/-- **What a second observation changes.** In every state of every run, observing a recorded
transaction again changes nothing exactly if each of its transfers is credited or undisturbed. -/
theorem reobserved_iff {allowed : Operation → Prop} {meets : Transaction → Db → Prop}
    (hreachable : gateway.Reachable allowed meets Db.empty db) {adapter : BlockchainAdapter}
    (htx : adapter.getTransaction chainTx.hash = .ok (some chainTx))
    (htransfers : adapter.getTransfers chainTx.hash = .ok transfers)
    (hdone : Processed network chainTx.hash transfers db) (graceSeconds : Nat) (now : Int) :
    SameRecords db
        ((processTransaction adapter network chainTx.hash graceSeconds now db).final db) ↔
      ∀ t ∈ transfers, ∀ row ∈ db.transfers.find? ⟨network, chainTx.hash, t.transferIndex⟩,
        row.creditedAt.isSome = true ∨
          Undisturbed (sighting network chainTx graceSeconds now t) db row.matchStatus := by
  cases htransfers' : transfers with
  | nil =>
    rw [htransfers'] at htransfers
    unfold processTransaction
    rw [htx, htransfers]
    exact iff_of_true (SameRecords.refl db) fun t ht => absurd ht List.not_mem_nil
  | cons first rest =>
    rw [← htransfers']
    obtain ⟨db', hok⟩ := recordTransfers_of_processed (numbered hreachable) hdone graceSeconds now
    have hfinal : (processTransaction adapter network chainTx.hash graceSeconds now db).final db =
        db' := by
      unfold processTransaction
      rw [htx, htransfers, htransfers']
      dsimp only
      rw [← htransfers', exec, hok]
      rfl
    rw [hfinal]
    have hmoves := recordTransfers_unmoved hok
    constructor
    · intro hsame t ht row hrow
      by_cases hcredited : CreditedAt db (sighting network chainTx graceSeconds now t).key
      · left
        have hkey : (sighting network chainTx graceSeconds now t).key =
            ⟨network, chainTx.hash, t.transferIndex⟩ := rfl
        rw [CreditedAt, hkey, Option.mem_def.1 hrow] at hcredited
        exact hcredited
      · right
        have hmatched := hsame.matched (sighting network chainTx graceSeconds now t).key
        rw [matched_of_uncredited hdone hok ht hcredited] at hmatched
        have hstatus : ((sighting network chainTx graceSeconds now t).decision db).status =
            row.matchStatus := by
          have hfound : db.transfers.find? (sighting network chainTx graceSeconds now t).key =
              some row := hrow
          rw [hfound, Option.map_some] at hmatched
          exact Option.some.inj hmatched
        rcases hmoves with ⟨-, hsettled⟩ | hmoved
        · refine undisturbed_iff.2 ⟨hstatus, ?_⟩
          rw [← hstatus]
          exact (hsettled t ht).resolve_left hcredited
        · have hlength := hmoved.recorded
          rw [hsame.events] at hlength
          exact absurd hlength (lt_irrefl _)
    · intro hundisturbed
      have hboth : ∀ t ∈ transfers,
          ¬ CreditedAt db (sighting network chainTx graceSeconds now t).key →
          ∃ row, db.transfers.find? (sighting network chainTx graceSeconds now t).key = some row ∧
            Undisturbed (sighting network chainTx graceSeconds now t) db row.matchStatus := by
        intro t ht huncredited
        obtain ⟨row, hrow, -⟩ := hdone t ht
        refine ⟨row, hrow, (hundisturbed t ht row hrow).resolve_left fun hcredited => ?_⟩
        have hfound : db.transfers.find? (sighting network chainTx graceSeconds now t).key =
            some row := hrow
        rw [CreditedAt, hfound] at huncredited
        exact huncredited hcredited
      rcases hmoves with ⟨hunmoved, -⟩ | ⟨-, t, ht, huncredited, hunsettled⟩
      · refine ⟨fun id => by rw [hunmoved.invoices], fun k => ?_, hunmoved.events,
          hunmoved.webhooks⟩
        by_cases hsome : ∃ t ∈ transfers,
            (sighting network chainTx graceSeconds now t).key = k ∧ ¬ CreditedAt db k
        · obtain ⟨t, ht, rfl, huncredited⟩ := hsome
          obtain ⟨row, hrow, hund⟩ := hboth t ht huncredited
          rw [matched_of_uncredited hdone hok ht huncredited, hrow, Option.map_some,
            (undisturbed_iff.1 hund).1]
        · rw [(recordTransfers_left hok k).kept ?_]
          by_cases hcredited : CreditedAt db k
          · exact .inr hcredited
          · exact .inl fun t ht hkey => hsome ⟨t, ht, hkey, hcredited⟩
      · obtain ⟨row, -, hund⟩ := hboth t ht huncredited
        obtain ⟨hstatus, hsettled⟩ := undisturbed_iff.1 hund
        rw [← hstatus] at hsettled
        exact absurd hsettled hunsettled

end Transaction

/-! ## A shop whose payment is seen twice -/

namespace Shop

/-- The transaction of a payment in full, at the tip 101. -/
def paymentTx : ChainTransaction := mined "0xa" 101 1

def seen : List (ChainTransaction × List ParsedTransfer) :=
  [(paymentTx, [usdtTransfer 0 100000000])]

/-- The state after the payment was observed, and after some more operations. -/
def afterSighting (ops : List Operation) : Db := after (observe 101 seen "0xa" :: ops)

/-- The payment observed once more. -/
def seenAgain (now : Int) (db : Db) : Db :=
  (processTransaction (.ofTransactions 101 seen) .ethereum paymentTx.hash 0 now db).final db

def paymentMatch (db : Db) : Option TransferMatchStatus :=
  (db.transfers.find? ⟨.ethereum, "0xa", 0⟩).map (·.matchStatus)

instance (network : Network) (txHash : String) (transfers : List ParsedTransfer) (db : Db) :
    Decidable (Processed network txHash transfers db) := by
  unfold Processed
  infer_instance

theorem afterSighting_reachable (ops : List Operation) : gateway.Reachable (fun _ => True)
    (fun _ _ => True) Db.empty (afterSighting ops) :=
  after_reachable _ (fun _ _ => trivial) (Machine.allMeet_true _ _)

/-- Within the hour, on DETECTED, nothing changes. -/
theorem reobserved_detected : SameRecords (afterSighting []) (seenAgain 2000 (afterSighting [])) := by
  have htx : (BlockchainAdapter.ofTransactions 101 seen).getTransaction paymentTx.hash =
      .ok (some paymentTx) := by decide +kernel
  have htransfers : (BlockchainAdapter.ofTransactions 101 seen).getTransfers paymentTx.hash =
      .ok [usdtTransfer 0 100000000] := by decide +kernel
  have hdone : Processed .ethereum paymentTx.hash [usdtTransfer 0 100000000]
      (afterSighting []) := by decide +kernel
  exact (reobserved_iff (afterSighting_reachable []) htx htransfers hdone 0 2000).2
    (by decide +kernel)

/-- After the deadline the pending transfer becomes late; on CONFIRMING the invoice goes back to
DETECTED, with an event for it. -/
theorem reobserved_differs :
    (∀ ops, gateway.Reachable (fun _ => True) (fun _ _ => True) Db.empty (afterSighting ops)) ∧
    Processed .ethereum paymentTx.hash [usdtTransfer 0 100000000] (afterSighting []) ∧
    (paymentMatch (afterSighting []) = some .pendingConfirmation ∧
      paymentMatch (seenAgain 3600001 (afterSighting [])) = some .latePaymentReview) ∧
    status (afterSighting [confirm 105 seen]) = some .confirming ∧
    status (seenAgain 3000 (afterSighting [confirm 105 seen])) = some .detected ∧
    ((seenAgain 3000 (afterSighting [confirm 105 seen])).events.rows.drop 4).map (·.toStatus) =
      [.detected] :=
  ⟨afterSighting_reachable, by decide +kernel⟩

end Shop

end PaymentGateway
