import PaymentGateway.Monitor.Recording
import PaymentGateway.System.Credits

/-!
# One movement, one credit

A transfer is known by network, transaction and index. The index of a token transfer is its
position in the block, so a transaction that is mined again may bring the same movement back under
another index, as another row.

`Standing` records for each row which transfer of its transaction, by position, it was last
recorded from; no column holds that, and nothing reads it. A row is live (`Live`) if it is credited
or awaits confirmation.

**Theorem (`movement_once`).** In every run whose observations are all in place, at most one credit
is posted for each movement, and at most one row of it is counted. An observation is in place
(`Transaction.InPlace`) if it makes no row live for a movement that keeps a live row under another
index.

The invariant (`OneLive`) is that no movement has two live rows. Only an observation makes a row
live, and `recordTransfers_spec` says what it leaves of each row.
-/

namespace PaymentGateway

open Keyed Fallible Transactional MonitorService

variable {db db' : Db} {k k' : TransferKey}

/-! ## Which transfer a row stands for -/

/-- The position, in its transaction, of the transfer that a row was last recorded from. -/
abbrev Standing := TransferKey → Option Nat

/-- The last transfer of a list with a given key, and its position. -/
def lastWith (see : ParsedTransfer → Sighting) (transfers : List ParsedTransfer)
    (k : TransferKey) : Option (ParsedTransfer × Nat) :=
  (transfers.zipIdx.filter fun p => (see p.1).key = k).getLast?

/-- A row that is not credited comes to stand for the last transfer observed under its key. -/
def Transaction.stand : Transaction → Db → Standing → Standing
  | .recordTransfers network chainTx transfers graceSeconds now, db, standing => fun k =>
    if ((db.transfers.find? k).bind (·.creditedAt)).isSome then standing k
    else ((lastWith (sighting network chainTx graceSeconds now) transfers k).map (·.2)).or
      (standing k)
  | _, _, standing => standing

/-- The gateway, with what the rows stand for. -/
def movements : Machine (Db × Standing) Error Transaction Operation :=
  gateway.tracked Transaction.stand

/-- Two rows of one transaction that stand for the same of its transfers. -/
def SameMovement (standing : Standing) (k k' : TransferKey) : Prop :=
  k.txKey = k'.txKey ∧ (standing k).isSome = true ∧ standing k = standing k'

instance (standing : Standing) (k k' : TransferKey) : Decidable (SameMovement standing k k') := by
  unfold SameMovement
  infer_instance

/-- Each movement has at most one credit in the ledger and at most one row that is counted. -/
structure OncePerMovement (s : Db × Standing) : Prop where
  credits : ∀ p ∈ s.1.ledgerTransactions.rows, ∀ q ∈ s.1.ledgerTransactions.rows,
    p.type = "payment.credit" → q.type = "payment.credit" →
    ∀ k ∈ p.tokenTransferId, ∀ k' ∈ q.tokenTransferId, SameMovement s.2 k k' →
      p.idempotencyKey = q.idempotencyKey
  rows : ∀ i ∈ s.1.invoices.rows, ∀ i' ∈ s.1.invoices.rows, ∀ t ∈ countedTransfers s.1 i,
    ∀ t' ∈ countedTransfers s.1 i', SameMovement s.2 t.key t'.key → t.key = t'.key

/-! ## Live rows -/

/-- A row that is credited, or may still be. -/
def Live (t : TokenTransfer) : Prop :=
  t.creditedAt.isSome = true ∨ t.matchStatus = .pendingConfirmation

instance (t : TokenTransfer) : Decidable (Live t) :=
  inferInstanceAs (Decidable (_ ∨ _))

def LiveAt (db : Db) (k : TransferKey) : Prop := ∃ t ∈ db.transfers.find? k, Live t

/-- No movement has two live rows. -/
def OneLive (db : Db) (standing : Standing) : Prop :=
  ∀ k k', LiveAt db k → LiveAt db k' → SameMovement standing k k' → k = k'

/-- The observation of a transaction makes no row live for a movement that keeps a live row under
another index. -/
def Transaction.InPlace : Transaction → Db × Standing → Prop
  | .recordTransfers network chainTx transfers graceSeconds now, (db, standing) =>
    let see := sighting network chainTx graceSeconds now
    ∀ seen ∈ transfers, ∀ p ∈ lastWith see transfers (see seen).key, Counts (see p.1) db →
      (db.transfers.find? (see seen).key).bind (·.creditedAt) = none →
      ∀ t ∈ db.transfers.rows, t.key ≠ (see seen).key → t.key.txKey = (see seen).key.txKey →
        standing t.key = some p.2 → Live t →
        t.creditedAt = none ∧ (lastWith see transfers t.key).isSome = true
  | _, _ => True

instance (s : Sighting) (db : Db) : Decidable (Counts s db) :=
  inferInstanceAs (Decidable (∃ invoice ∈ s.invoice db, CountsFor s invoice))

instance (t : Transaction) (s : Db × Standing) : Decidable (t.InPlace s) :=
  match t with
  | .recordTransfers network chainTx transfers graceSeconds now =>
    inferInstanceAs (Decidable (
      let see := sighting network chainTx graceSeconds now
      ∀ seen ∈ transfers, ∀ p ∈ lastWith see transfers (see seen).key, Counts (see p.1) s.1 →
        (s.1.transfers.find? (see seen).key).bind (·.creditedAt) = none →
        ∀ t ∈ s.1.transfers.rows, t.key ≠ (see seen).key → t.key.txKey = (see seen).key.txKey →
          s.2 t.key = some p.2 → Live t →
          t.creditedAt = none ∧ (lastWith see transfers t.key).isSome = true))
  | .confirmTransfer _ _ _ | .orphanTransaction _ _ | .expireOne _ _
  | .loadAndMaybeExpire _ _ _ | .cancelWrite _ _ | .createInvoice _ _ | .registerMerchant _
  | .updateMerchant _ | .registerAddress _ _ _ _ _ | .takeEdge _ _ _ => isTrue trivial

/-- Where credits and transfers agree, the rows that a settlement counts are live. -/
theorem live_of_counted (hc : CreditsAgree db) {invoice : Invoice} {t : TokenTransfer}
    (ht : t ∈ countedTransfers db invoice) : db.transfers.find? t.key = some t ∧ Live t := by
  obtain ⟨hfind, -, -, hstatus⟩ := (countedTransfers_spec db invoice).1 t ht
  refine ⟨hfind, ?_⟩
  rcases hstatus with hcredited | hpending
  · exact .inl ((hc.credited_iff t (Table.mem_of_find? hfind)).2 hcredited)
  · exact .inr hpending

/-- With no two live rows a movement is credited and counted once. -/
theorem OneLive.oncePerMovement {s : Db × Standing} (h : OneLive s.1 s.2)
    (hc : CreditsAgree s.1) : OncePerMovement s where
  credits p hp q hq _ _ k hk k' hk' hsame := by
    obtain ⟨t, ht, hcredited, -, horigin⟩ := hc.origin p hp
    obtain ⟨t', ht', hcredited', -, horigin'⟩ := hc.origin q hq
    obtain rfl : t.key = k := Option.some.inj (horigin.transfer.symm.trans hk)
    obtain rfl : t'.key = k' := Option.some.inj (horigin'.transfer.symm.trans hk')
    have hkey := h t.key t'.key ⟨t, Table.find?_of_mem ht, .inl hcredited⟩
      ⟨t', Table.find?_of_mem ht', .inl hcredited'⟩ hsame
    rw [horigin.key, horigin'.key, hkey]
  rows i _ i' _ t ht t' ht' hsame := by
    obtain ⟨hfind, hlive⟩ := live_of_counted hc ht
    obtain ⟨hfind', hlive'⟩ := live_of_counted hc ht'
    exact h t.key t'.key ⟨t, hfind, hlive⟩ ⟨t', hfind', hlive'⟩ hsame

/-! ## Steps that observe nothing -/

/-- Only an observation makes a row live. -/
theorem RowStep.live {may : Right → Prop} (hmay : ¬may .record) (hc : CreditsAgree db)
    {old new : Option TokenTransfer} (h : RowStep may db old new)
    (hlive : ∃ t ∈ new, Live t) : ∃ t ∈ old, Live t := by
  cases h with
  | same => exact hlive
  | observed hrecord => exact absurd hrecord hmay
  | confirmed t n =>
    obtain ⟨_, ⟨⟩, hlive⟩ := hlive
    exact ⟨t, rfl, hlive⟩
  | @orphaned _ t huncredited =>
    obtain ⟨_, ⟨⟩, hlive⟩ := hlive
    rcases hlive with hcredited | hpending
    · exact ⟨t, rfl, .inl hcredited⟩
    · cases hpending
  | @credited _ invoice t now hcounted =>
    exact ⟨t, rfl, (live_of_counted hc hcounted).2⟩

theorem Effects.oneLive {may : Right → Prop} (hmay : ¬may .record) {standing : Standing}
    (h : Effects may db db') (hc : CreditsAgree db) (hl : OneLive db standing) :
    CreditsAgree db' ∧ OneLive db' standing := by
  refine h.invariant (fun x => CreditsAgree x ∧ OneLive x standing) ⟨hc, hl⟩ ?_
  intro a b hab heffect
  refine ⟨heffect.creditsAgree hab.1, fun k k' hk hk' hsame => hab.2 k k' ?_ ?_ hsame⟩
  · exact (heffect.rowStep hab.1 k).live hmay hab.1 hk
  · exact (heffect.rowStep hab.1 k').live hmay hab.1 hk'

/-! ## Observations -/

section Last

variable {see : ParsedTransfer → Sighting} {transfers before after : List ParsedTransfer}
  {t : ParsedTransfer} {n : Nat}

theorem lastWith_eq_some (h : lastWith see transfers k = some (t, n)) :
    transfers[n]? = some t ∧ (see t).key = k := by
  have hmem := List.mem_of_getLast? h
  rw [List.mem_filter, List.mem_zipIdx_iff_getElem?] at hmem
  exact ⟨hmem.1, of_decide_eq_true hmem.2⟩

theorem lastWith_eq_none (h : ∀ t ∈ transfers, (see t).key ≠ k) :
    lastWith see transfers k = none := by
  have hnone : (transfers.zipIdx.filter fun p => (see p.1).key = k) = [] := by
    rw [List.filter_eq_nil_iff]
    intro p hp
    have hmem := List.mem_of_getElem? (List.mem_zipIdx_iff_getElem?.1 hp)
    simpa using h p.1 hmem
  rw [lastWith, hnone, List.getLast?_nil]

theorem lastWith_split (hkey : (see t).key = k) (hlast : ∀ t' ∈ after, (see t').key ≠ k) :
    lastWith see (before ++ t :: after) k = some (t, before.length) := by
  have hnone : ((after.zipIdx (before.length + 1)).filter fun p => (see p.1).key = k) = [] := by
    rw [List.filter_eq_nil_iff]
    intro p hp
    have hmem := List.fst_mem_of_mem_zipIdx hp
    simpa using hlast p.1 hmem
  simp [lastWith, List.zipIdx_append, List.zipIdx_cons, List.filter_append, hkey, hnone]

end Last

section Observed

variable {network : Network} {chainTx : ChainTransaction} {transfers : List ParsedTransfer}
  {graceSeconds : Nat} {now : Int} {standing : Standing}

/-- A live row after an observation: it was live and stands for what it stood for, or it stands for
the last transfer under its key, which is counted. -/
theorem observed_cases (standing : Standing)
    (h : recordTransfers network chainTx transfers graceSeconds now db = .ok db')
    (hlive : LiveAt db' k) :
    let see := sighting network chainTx graceSeconds now
    let after := (Transaction.recordTransfers network chainTx transfers graceSeconds now).stand
      db standing
    (LiveAt db k ∧ after k = standing k ∧
      ((db.transfers.find? k).bind (·.creditedAt) = none → lastWith see transfers k = none)) ∨
    ∃ t n, lastWith see transfers k = some (t, n) ∧ after k = some n ∧ Counts (see t) db ∧
      (db.transfers.find? k).bind (·.creditedAt) = none := by
  intro see after
  obtain ⟨row, hrow, hrowlive⟩ := hlive
  cases (recordTransfers_spec h).2 k with
  | kept hsame hwhy =>
    refine .inl ⟨⟨row, hsame ▸ hrow, hrowlive⟩, ?_⟩
    rcases hwhy with hnone | hcredited
    · have hlast : lastWith see transfers k = none := lastWith_eq_none hnone
      refine ⟨?_, fun _ => hlast⟩
      simp only [after, Transaction.stand]
      rw [show sighting network chainTx graceSeconds now = see from rfl, hlast, Option.map_none,
        Option.none_or, ite_self]
    · refine ⟨if_pos hcredited, fun huncredited => ?_⟩
      rw [huncredited] at hcredited
      cases hcredited
  | @recorded before rest t row' hsplit hkey hlast huncredited hrow' hrecorded =>
    have hfound : lastWith see transfers k = some (t, before.length) := by
      rw [hsplit]
      exact lastWith_split hkey hlast
    refine .inr ⟨t, before.length, hfound, ?_, ?_, huncredited⟩
    · simp only [after, Transaction.stand]
      rw [show sighting network chainTx graceSeconds now = see from rfl, hfound, huncredited]
      rfl
    · obtain rfl : row' = row := Option.some.inj (hrow'.symm.trans hrow)
      rcases hrowlive with hcredited | hpending
      · rw [hrecorded.uncredited] at hcredited
        cases hcredited
      · exact hrecorded.pending_iff.1 hpending

/-- An observation in place leaves no movement two live rows. -/
theorem OneLive.observed (hl : OneLive db standing)
    (h : recordTransfers network chainTx transfers graceSeconds now db = .ok db')
    (hplace : (Transaction.recordTransfers network chainTx transfers graceSeconds now).InPlace
      (db, standing)) :
    OneLive db' ((Transaction.recordTransfers network chainTx transfers graceSeconds now).stand
      db standing) := by
  -- A row that has just become live leaves no older live row of its movement.
  have hfresh : ∀ a b, LiveAt db b → ∀ t n,
      lastWith (sighting network chainTx graceSeconds now) transfers a = some (t, n) →
      Counts (sighting network chainTx graceSeconds now t) db →
      (db.transfers.find? a).bind (·.creditedAt) = none → b.txKey = a.txKey →
      standing b = some n → ((db.transfers.find? b).bind (·.creditedAt) = none →
        lastWith (sighting network chainTx graceSeconds now) transfers b = none) → b = a := by
    intro a b hb t n hlast hcounts huncredited htx hstands hkept
    by_contra hne
    obtain ⟨old, hold, holdlive⟩ := hb
    obtain rfl : old.key = b := Table.key_of_find? hold
    obtain ⟨ht, rfl⟩ := lastWith_eq_some hlast
    obtain ⟨hnone, hsome⟩ := hplace t (List.mem_of_getElem? ht) (t, n) hlast hcounts huncredited
      old (Table.mem_of_find? hold) hne htx hstands holdlive
    rw [hkept (by rw [hold]; exact hnone)] at hsome
    cases hsome
  intro a b ha hb hsame
  obtain ⟨htx, hstands, heq⟩ := hsame
  rcases observed_cases standing h ha with
    ⟨hliveA, hsameA, hkeptA⟩ | ⟨t, n, hlastA, hsameA, hcountsA, huncreditedA⟩
  · rcases observed_cases standing h hb with
      ⟨hliveB, hsameB, -⟩ | ⟨t', n', hlastB, hsameB, hcountsB, huncreditedB⟩
    · refine hl a b hliveA hliveB ⟨htx, ?_, ?_⟩
      · rwa [hsameA] at hstands
      · rwa [hsameA, hsameB] at heq
    · refine hfresh b a hliveA t' n' hlastB hcountsB huncreditedB htx ?_ hkeptA
      rwa [hsameA, hsameB] at heq
  · rcases observed_cases standing h hb with
      ⟨hliveB, hsameB, hkeptB⟩ | ⟨t', n', hlastB, hsameB, -, -⟩
    · refine (hfresh a b hliveB t n hlastA hcountsA huncreditedA htx.symm ?_ hkeptB).symm
      rwa [hsameA, hsameB, eq_comm] at heq
    · rw [hsameA, hsameB] at heq
      obtain rfl : n = n' := Option.some.inj heq
      obtain ⟨hgetA, hkeyA⟩ := lastWith_eq_some hlastA
      obtain ⟨hgetB, hkeyB⟩ := lastWith_eq_some hlastB
      obtain rfl : t = t' := Option.some.inj (hgetA.symm.trans hgetB)
      exact hkeyA.symm.trans hkeyB

end Observed

/-! ## Runs -/

/-- The invariant of a run in which everything is observed in place. -/
structure InOrderOfMining (s : Db × Standing) : Prop where
  agree : CreditsAgree s.1
  oneLive : OneLive s.1 s.2

theorem InOrderOfMining.commit {s s' : Db × Standing} {t : Transaction} (h : InOrderOfMining s)
    (hplace : t.InPlace s) (hok : movements.apply t s = .ok s') : InOrderOfMining s' := by
  obtain ⟨hstep, hstanding⟩ := Machine.tracked_eq_ok hok
  have heffects := Transaction.effects hstep
  by_cases hrecord : t.rights .record
  · cases t with
    | recordTransfers network chainTx transfers graceSeconds now =>
      refine ⟨heffects.creditsAgree h.agree, ?_⟩
      rw [hstanding]
      exact h.oneLive.observed hstep hplace
    | confirmTransfer => rcases hrecord with hrecord | hrecord <;> cases hrecord
    | _ => cases hrecord
  · have hsame : s'.2 = s.2 := by
      cases t with
      | recordTransfers => exact absurd rfl hrecord
      | _ => exact hstanding
    obtain ⟨hagree, hlive⟩ := heffects.oneLive hrecord h.agree h.oneLive
    exact ⟨hagree, hsame ▸ hlive⟩

/-- **One movement, one credit**: see the head of this module. -/
theorem movement_once {s : Db × Standing}
    (h : movements.Reachable (fun _ => True) Transaction.InPlace (Db.empty, fun _ => none) s) :
    OncePerMovement s := by
  have hrun : InOrderOfMining s := by
    refine Machine.Reachable.invariant h (fun _ _ _ t _ => (trivial : (fun _ => True) t)) ?_ ?_
    · refine ⟨creditsAgree_empty, ?_⟩
      intro k k' hlive _ _
      obtain ⟨t, ht, -⟩ := hlive
      exact absurd (Table.mem_of_find? ht) (Table.not_mem_empty t)
    · intro t a b _ ha hplace hok
      exact ha.commit hplace hok
  exact hrun.oneLive.oncePerMovement hrun.agree

namespace Shop

/-- The shop's transfer, in a block and at a log index. -/
def minedAt (block : Nat) (index amount : Int) : List (ChainTransaction × List ParsedTransfer) :=
  [(mined "a" block 1, [usdtTransfer index amount])]

/-- The transfer is seen in a block at log index 5. Then block 100, where the cursor is, turns out
to have been replaced, and the transaction is back in block 101, with log index 7. -/
def minedAgain (block : Nat) (amount : Int) : List Operation := [
  observe 100 (minedAt block 5 amount) "a",
  .handleReorg .ethereum 100 1500,
  observe 101 (minedAt 101 7 amount) "a",
  confirm 115 (minedAt 101 7 amount)]

def unobserved : Db × Standing := (Db.empty, fun _ => none)

/-- The state after the opening and some more operations, with what the rows stand for. -/
def standingAfter (ops : List Operation) : Db × Standing :=
  (movements.log (opening ++ ops) [unobserved]).headD unobserved

end Shop

/-- A transfer of 100 USDT that was in block 100: its first row is orphaned, and the invoice is
paid by the second. -/
theorem movement_once_minedAgain :
    Shop.status (Shop.standingAfter (Shop.minedAgain 100 100000000)).1 = some .paid ∧
    ((Shop.standingAfter (Shop.minedAgain 100 100000000)).1.ledgerTransactions.rows.map
      (·.idempotencyKey)) = ["credit:ETHEREUM:a:7"] ∧
    OncePerMovement (Shop.standingAfter (Shop.minedAgain 100 100000000)) := by
  refine ⟨by decide +kernel, by decide +kernel, ?_⟩
  have hplace : movements.AllMeet Transaction.InPlace
      (Shop.opening ++ Shop.minedAgain 100 100000000) Shop.unobserved := by decide +kernel
  exact movement_once (Machine.reachable_log (fun _ _ => trivial) hplace)

/-- **One movement, two credits**: a transfer of 50 USDT that was in block 98, below the block that
is orphaned, pays the invoice over 100 USDT. -/
theorem movement_credited_twice :
    movements.Reachable (fun _ => True) (fun _ _ => True) Shop.unobserved
      (Shop.standingAfter (Shop.minedAgain 98 50000000)) ∧
    Shop.status (Shop.standingAfter (Shop.minedAgain 98 50000000)).1 = some .paid ∧
    (∃ p ∈ (Shop.standingAfter (Shop.minedAgain 98 50000000)).1.ledgerTransactions.rows,
      ∃ q ∈ (Shop.standingAfter (Shop.minedAgain 98 50000000)).1.ledgerTransactions.rows,
      p.type = "payment.credit" ∧ q.type = "payment.credit" ∧
      p.idempotencyKey ≠ q.idempotencyKey ∧ ∃ k ∈ p.tokenTransferId, ∃ k' ∈ q.tokenTransferId,
        SameMovement (Shop.standingAfter (Shop.minedAgain 98 50000000)).2 k k') ∧
    ∃ i ∈ (Shop.standingAfter (Shop.minedAgain 98 50000000)).1.invoices.rows,
      ∃ t ∈ countedTransfers (Shop.standingAfter (Shop.minedAgain 98 50000000)).1 i,
      ∃ t' ∈ countedTransfers (Shop.standingAfter (Shop.minedAgain 98 50000000)).1 i,
        t.key ≠ t'.key ∧
        SameMovement (Shop.standingAfter (Shop.minedAgain 98 50000000)).2 t.key t'.key := by
  refine ⟨Machine.reachable_log (fun _ _ => trivial) (Machine.allMeet_true _ _), ?_, ?_, ?_⟩
  · decide +kernel
  · decide +kernel
  · decide +kernel

end PaymentGateway
