import PaymentGateway.Monitor.Recording

/-!
# Recording several transactions

What a row says after several transactions have been recorded does not depend on their order. The
judgement of a transfer is that of the state before all of them (`Alike`), so the row it leaves is
too, up to the text of its reason, which names the status an invoice had at that moment
(`TokenTransfer.facts`). The rows of a transaction that was not among them are as they were.
-/

namespace PaymentGateway

open Keyed Fallible

/-- A row without the text of its reason. -/
def TokenTransfer.facts (t : TokenTransfer) : TokenTransfer := { t with matchReason := "" }

namespace MonitorService

variable {db x y : Db} {s : Sighting}

/-! ## One transfer -/

/-- Such states give a sighting the same row. -/
theorem Alike.row (ha : Alike db x) {row : TokenTransfer} (h : s.row x = .ok row) :
    ∃ row', s.row db = .ok row' ∧ row'.facts = row.facts := by
  unfold Sighting.row at h ⊢
  split_ifs at h ⊢ with hvalid
  cases h
  refine ⟨_, rfl, ?_⟩
  have haddress : x.findAddress s.network s.transfer.toAddress =
      db.findAddress s.network s.transfer.toAddress := by
    unfold Db.findAddress
    rw [ha.addresses]
  simp only [TokenTransfer.facts, ha.invoiceId s, ha.decision s, haddress]

/-- A sighting leaves its own row, if that was not credited, and no other. -/
theorem recordTransfer_facts (ha : Alike db x) (h : recordTransfer x s = .ok y) (k : TransferKey) :
    (s.key ≠ k ∨ ((db.transfers.find? k).bind (·.creditedAt)).isSome = true →
      y.transfers.find? k = x.transfers.find? k) ∧
    (s.key = k → (db.transfers.find? k).bind (·.creditedAt) = none →
      ∃ row, s.row db = .ok row ∧ (y.transfers.find? k).map (·.facts) = some row.facts) := by
  have hcredited := ha.credited k
  rcases recordTransfer_eq_ok h with ⟨hdone, rfl⟩ | ⟨huncredited, row, hrow, hcases⟩
  · refine ⟨fun _ => rfl, fun hk hnone => ?_⟩
    rw [hk, hcredited, hnone] at hdone
    cases hdone
  · obtain ⟨hkey, -, -, -, -, -, hnone⟩ := row_eq_ok hrow
    have hrows : y.transfers.find? k = (x.upsertTransfer row).transfers.find? k := by
      rcases hcases with ⟨rfl, -⟩ | ⟨_, _, _, _, _, -, -, -, -, -, rfl⟩ <;> rfl
    rw [hrows, Db.find?_upsertTransfer, hkey]
    constructor
    · rintro (hne | hcred)
      · rw [if_neg (Ne.symm hne)]
      · refine if_neg fun hk => ?_
        rw [← hcredited, hk, huncredited] at hcred
        cases hcred
    · intro hk _
      obtain ⟨row', hrow', hfacts⟩ := ha.row hrow
      refine ⟨row', hrow', ?_⟩
      rw [if_pos hk.symm, hfacts, Option.map_some]
      cases hold : x.transfers.find? k with
      | none => rfl
      | some old =>
        rw [hk, hold] at huncredited
        have holdkey : old.key = row.key := by
          rw [Table.key_of_find? hold, hkey, hk]
        have huncredited' : old.creditedAt = none := huncredited
        simp [TokenTransfer.facts, Db.overwrite, holdkey, huncredited', hnone]

/-! ## One transaction -/

/-- The row of a chain transaction once it has been recorded. -/
def chainRow (network : Network) (chainTx : ChainTransaction) (now : Int) :
    Option BlockchainTransaction → BlockchainTransaction
  | some existing => { existing with
      key := ⟨network, chainTx.hash⟩
      status := chainTxStatus chainTx
      blockNumber := chainTx.blockNumber
      blockHash := chainTx.blockHash
      confirmations := chainTx.confirmations
      minedAt := if chainTx.blockNumber ≠ none then existing.minedAt.or (some now) else none }
  | none => {
      key := ⟨network, chainTx.hash⟩
      status := chainTxStatus chainTx
      blockNumber := chainTx.blockNumber
      blockHash := chainTx.blockHash
      fromAddress := chainTx.fromAddress
      toAddress := chainTx.toAddress
      feeAmount := chainTx.feeAmount
      confirmations := chainTx.confirmations
      minedAt := if chainTx.blockNumber ≠ none then some now else none
      orphanedAt := none }

theorem chainRow_key (network : Network) (chainTx : ChainTransaction) (now : Int)
    (old : Option BlockchainTransaction) :
    (chainRow network chainTx now old).key = ⟨network, chainTx.hash⟩ := by
  cases old <;> rfl

theorem find?_upsertChainTx (db : Db) (row : BlockchainTransaction) (key : TxKey) :
    (db.upsertChainTx row).chainTxs.find? key =
      if key = row.key then some row else db.chainTxs.find? key := by
  unfold Db.upsertChainTx
  split
  · next old hold =>
    show (db.chainTxs.modify row.key (fun old => { row with key := old.key })
      fun _ => rfl).find? key = _
    by_cases hkey : key = row.key
    · have hsame : old.key = row.key := Table.key_of_find? hold
      rw [if_pos hkey, hkey, Table.find?_modify_self, hold, Option.map_some, hsame]
    · rw [if_neg hkey, Table.find?_modify_ne hkey]
  · next hfree =>
    show (db.chainTxs.insert row hfree).find? key = _
    rw [Table.find?_insert]
    by_cases hkey : key = row.key
    · rw [if_pos hkey, if_pos hkey.symm]
    · rw [if_neg hkey, if_neg (Ne.symm hkey)]

theorem find?_recordChainTransaction (db : Db) (network : Network) (chainTx : ChainTransaction)
    (now : Int) (key : TxKey) :
    (recordChainTransaction db network chainTx now).chainTxs.find? key =
      if key = ⟨network, chainTx.hash⟩ then
        some (chainRow network chainTx now (db.chainTxs.find? key))
      else db.chainTxs.find? key := by
  have hupsert : recordChainTransaction db network chainTx now = db.upsertChainTx
      (chainRow network chainTx now (db.chainTxs.find? ⟨network, chainTx.hash⟩)) := by
    unfold recordChainTransaction
    cases db.chainTxs.find? ⟨network, chainTx.hash⟩ <;> rfl
  rw [hupsert, find?_upsertChainTx, chainRow_key]
  by_cases hkey : key = ⟨network, chainTx.hash⟩
  · rw [if_pos hkey, if_pos hkey, hkey]
  · rw [if_neg hkey, if_neg hkey]

/-- Recording a chain transaction twice is recording it once. -/
theorem chainRow_chainRow (network : Network) (chainTx : ChainTransaction) (now : Int)
    (old : Option BlockchainTransaction) :
    chainRow network chainTx now (some (chainRow network chainTx now old)) =
      chainRow network chainTx now old := by
  cases old with
  | none => cases hblock : chainTx.blockNumber <;> simp [chainRow, hblock]
  | some existing =>
    cases hblock : chainTx.blockNumber <;> cases hmined : existing.minedAt <;>
      simp [chainRow, hblock, hmined]

theorem recordTransfer_chainTxs (h : recordTransfer x s = .ok y) : y.chainTxs = x.chainTxs := by
  rcases recordTransfer_eq_ok h with ⟨-, rfl⟩ | ⟨-, row, -, hcases⟩
  · rfl
  · obtain ⟨transfers, hupsert⟩ := Db.upsertTransfer_eq x row
    rcases hcases with ⟨rfl, -⟩ | ⟨_, _, _, _, _, -, -, -, -, -, rfl⟩
    · rw [hupsert]
    · rw [hupsert]
      rfl

section Transaction

variable {network : Network} {chainTx : ChainTransaction} {transfers : List ParsedTransfer}
  {graceSeconds : Nat} {now : Int}

theorem recordTransfers_chainTxs
    (h : recordTransfers network chainTx transfers graceSeconds now db = .ok y) (key : TxKey) :
    y.chainTxs.find? key =
      if key = ⟨network, chainTx.hash⟩ then
        some (chainRow network chainTx now (db.chainTxs.find? key))
      else db.chainTxs.find? key := by
  rw [← find?_recordChainTransaction]
  have hkept : y.chainTxs = (recordChainTransaction db network chainTx now).chainTxs := by
    refine foldlM_invariant (fun x : Db => x.chainTxs = _) rfl (fun t _ a b ha hab => ?_) h
    exact (recordTransfer_chainTxs hab).trans ha
  rw [hkept]

/-- What the transfers of a transaction leave under a key. -/
structure RowLeft (db y : Db) (see : ParsedTransfer → Sighting) (transfers : List ParsedTransfer)
    (k : TransferKey) : Prop where
  kept : (∀ t ∈ transfers, (see t).key ≠ k) ∨
    ((db.transfers.find? k).bind (·.creditedAt)).isSome = true →
      y.transfers.find? k = db.transfers.find? k
  left : ∀ t ∈ transfers, (see t).key = k → (db.transfers.find? k).bind (·.creditedAt) = none →
    (∀ t' ∈ transfers, (see t').key = k → t' = t) →
      ∃ row, (see t).row db = .ok row ∧ (y.transfers.find? k).map (·.facts) = some row.facts

theorem RowLeft.append {see : ParsedTransfer → Sighting} {done : List ParsedTransfer}
    {t : ParsedTransfer} {k : TransferKey} (ha : Alike db x) (h : RowLeft db x see done k)
    (hstep : recordTransfer x (see t) = .ok y) : RowLeft db y see (done ++ [t]) k := by
  obtain ⟨hkept, hleft⟩ := recordTransfer_facts ha hstep k
  constructor
  · intro hwhy
    have hbefore : (∀ t' ∈ done, (see t').key ≠ k) ∨
        ((db.transfers.find? k).bind (·.creditedAt)).isSome = true :=
      hwhy.imp_left fun hne t' ht' => hne t' (List.mem_append_left _ ht')
    rw [hkept (hwhy.imp_left fun hne => hne t (by simp)), h.kept hbefore]
  · intro t' ht' hkey hnone hunique
    by_cases hlast : (see t).key = k
    · rw [← hunique t (by simp) hlast]
      exact hleft hlast hnone
    · rw [hkept (.inl hlast)]
      have hdone : t' ∈ done := by
        rcases List.mem_append.1 ht' with hdone | hsame
        · exact hdone
        · rw [List.mem_singleton.1 hsame] at hkey
          exact absurd hkey hlast
      exact h.left t' hdone hkey hnone fun t'' ht'' =>
        hunique t'' (List.mem_append_left _ ht'')

/-- **The rows a transaction leaves**, up to their reasons. -/
theorem recordTransfers_left
    (h : recordTransfers network chainTx transfers graceSeconds now db = .ok y) (k : TransferKey) :
    RowLeft db y (sighting network chainTx graceSeconds now) transfers k := by
  obtain ⟨chainTxs, hchain⟩ := recordChainTransaction_eq db network chainTx now
  unfold recordTransfers at h
  rw [hchain] at h
  have hboth := foldlM_invariant_done (fun done x => Alike db x ∧
    RowLeft db x (sighting network chainTx graceSeconds now) done k) ?_ ?_ h
  · exact hboth.2
  · exact ⟨⟨rfl, fun _ => rfl, fun _ => rfl⟩, fun _ => rfl,
      fun t ht => absurd ht List.not_mem_nil⟩
  · rintro done t a b ⟨ha, hrows⟩ hstep
    exact ⟨ha.trans (alike_recordTransfer hstep), hrows.append ha hstep⟩

end Transaction

end MonitorService

end PaymentGateway
