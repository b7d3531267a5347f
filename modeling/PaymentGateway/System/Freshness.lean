import PaymentGateway.Monitor.Report
import PaymentGateway.System.Credits
import PaymentGateway.System.Operation

/-!
# What the credits of a pass rest on

`updateConfirmations` asks the adapter about one pending transfer after the other, and settles the
invoice of each that has reached its threshold. A settlement sweeps in the siblings, by the counts
in their rows: a row the pass has come to holds the adapter's answer, any other holds what an
earlier pass, or the first sighting, has left there.

* `confirmTransfer_ledger` — what one report credits, in terms of the state before it.
* `credited_turn` — a credit of the pass is the credit of one of its turns.
* `creditsFresh_iff` — every credit of the pass rests on the chain of the pass exactly if each
  settlement counts executed transactions only, and no stale count that the chain would not bear
  out.
-/

namespace PaymentGateway

open Keyed Fallible Transactional

namespace MonitorService

variable {adapter : BlockchainAdapter} {network : Network} {now : Int} {db db' x y : Db}
  {p t : TokenTransfer} {k : TransferKey}

/-! ## One report -/

/-- A report of `n` confirmations of `p` settles the invoice, and the payment is accepted. -/
structure Accepts (db : Db) (p : TokenTransfer) (n : Nat) (invoice : Invoice) : Prop where
  own : p.invoiceId = some invoice.id
  found : db.invoices.find? invoice.id = some invoice
  reached : invoice.requiredConfirmations ≤ n
  accepted : ∃ merchant target, db.merchants.find? invoice.merchantId = some merchant ∧
    statusForOutcome (outcomeFor invoice
      (totalAmount (countedTransfers (db.reported p.key n) invoice))) = some target ∧
    canTransition (reportedStatus invoice n) target = true ∧ autoAccept merchant target = true

/-- The invoice of a report, between the two moves: what it accepts is what the settlement finds and
accepts. -/
theorem accepts_iff {invoice invoice' : Invoice} {n : Nat} {db2 : Db}
    (hid : p.invoiceId = some invoice.id) (hfind : db.invoices.find? invoice.id = some invoice)
    (hreached : invoice.requiredConfirmations ≤ n)
    (hadvance : advanceConfirming (db.reported p.key n) invoice n = .ok db2)
    (hfind' : db2.invoices.find? invoice.id = some invoice') :
    Accepts db p n invoice ↔ ∃ merchant target, Settleable db2 invoice' merchant target ∧
      autoAccept merchant target = true := by
  have hreported : (db.reported p.key n).invoices.find? invoice.id = some invoice := hfind
  obtain ⟨htransfers, hmerchants, found, hfound, hterms, hstatus, -, -⟩ :=
    advanceConfirming_reported hreported hadvance
  obtain rfl : found = invoice' := Option.some.inj (hfound.symm.trans hfind')
  have hcounted := countedTransfers_congr htransfers hterms
  have hid' : found.id = invoice.id := congrArg Invoice.Terms.id hterms
  have hmid : found.merchantId = invoice.merchantId := congrArg Invoice.Terms.merchantId hterms
  constructor
  · intro haccepts
    obtain ⟨merchant, target, hmerchant, htarget, hedge, hauto⟩ := haccepts.accepted
    refine ⟨merchant, target, ⟨by rw [hid', hfind'], ?_, ?_, ?_, ?_⟩, hauto⟩
    · rw [hmerchants, hmid]
      exact hmerchant
    · intro hzero
      rw [← hcounted, hzero] at htarget
      cases htarget
    · rw [hcounted, outcomeFor_congr hterms]
      exact htarget
    · rw [hstatus]
      exact hedge
  · rintro ⟨merchant, target, hs, hauto⟩
    refine ⟨hid, hfind, hreached, merchant, target, ?_, ?_, ?_, hauto⟩
    · have hmerchant := hs.merchant_found
      rwa [hmerchants, hmid] at hmerchant
    · have htarget := hs.target_of
      rwa [hcounted, outcomeFor_congr hterms] at htarget
    · rw [← hstatus]
      exact hs.edge

/-- What a finalisation credits: the counted transfers, if it accepts the payment. -/
theorem finalizeInvoice_ledger {invoice : Invoice}
    (hfind : db.invoices.find? invoice.id = some invoice)
    (h : finalizeInvoice db invoice.id now = .ok db') (k : TransferKey) :
    InLedger db' k ↔ InLedger db k ∨ (∃ merchant target, Settleable db invoice merchant target ∧
      autoAccept merchant target = true) ∧ ∃ t ∈ countedTransfers db invoice, t.key = k := by
  by_cases hsettleable : ∃ merchant target, Settleable db invoice merchant target
  · obtain ⟨merchant, target, hs⟩ := hsettleable
    rw [finalizeInvoice_of_settleable hs] at h
    rcases (settleInvoice_eq_ok hfind h).2 with
      ⟨hauto, events, webhooks, -, rfl⟩ | ⟨hauto, db1, hpaid, hcredits⟩
    · have hsame : InLedger (db.withStatus invoice target .monitor (settleData db invoice) events
          webhooks) k ↔ InLedger db k := Iff.rfl
      refine hsame.trans (or_iff_left ?_).symm
      rintro ⟨⟨merchant', target', hs', hauto'⟩, -⟩
      obtain rfl := Option.some.inj (hs'.merchant_found.symm.trans hs.merchant_found)
      obtain rfl := Option.some.inj (hs'.target_of.symm.trans hs.target_of)
      rw [hauto] at hauto'
      cases hauto'
    · obtain ⟨f, hf, writes, events, webhooks, -, -, rfl⟩ := hpaid
      rw [creditTransfers_inLedger hcredits, and_iff_right ⟨merchant, target, hs, hauto⟩]
      rfl
  · rcases finalizeInvoice_eq_ok h with rfl | ⟨found, merchant, target, hkey, hs, -⟩
    · refine (or_iff_left ?_).symm
      rintro ⟨⟨merchant, target, hs, -⟩, -⟩
      exact hsettleable ⟨merchant, target, hs⟩
    · have hfound := hs.invoice_found
      rw [hkey, hfind] at hfound
      cases hfound
      exact absurd ⟨merchant, target, hs⟩ hsettleable

/-- **What one report credits**: the counted transfers of an invoice it settles as paid. -/
theorem confirmTransfer_ledger {info : ConfirmationInfo}
    (h : confirmTransfer p info now db = .ok db') (k : TransferKey) :
    InLedger db' k ↔ InLedger db k ∨ ∃ invoice, Accepts db p info.confirmations invoice ∧
      ∃ t ∈ countedTransfers (db.reported p.key info.confirmations) invoice, t.key = k := by
  obtain ⟨db1, hset, hcases⟩ := confirmTransfer_eq_ok h
  obtain rfl : db1 = db.reported p.key info.confirmations := (Db.setConfirmations_eq_ok.1 hset).2
  have hreported : InLedger (db.reported p.key info.confirmations) k ↔ InLedger db k := Iff.rfl
  rcases hcases with ⟨hnone, rfl⟩ | ⟨stored, db2, hid, hstored, hadvance, hfinal⟩
  · rw [hreported, or_iff_left]
    rintro ⟨invoice, haccepts, -⟩
    rw [haccepts.own] at hnone
    cases hnone
  -- Whatever the report accepts is the invoice it is about.
  have hown : ∀ invoice, Accepts db p info.confirmations invoice → invoice = stored := by
    intro invoice haccepts
    have hkey : invoice.id = stored.id := Option.some.inj (haccepts.own.symm.trans hid)
    have hfound := haccepts.found
    rw [hkey] at hfound
    exact Option.some.inj (hfound.symm.trans hstored)
  obtain ⟨htransfers, -, hledger, invoice', hfind', hterms, -⟩ :=
    advanceConfirming_row hstored hadvance
  have hbefore : InLedger db2 k ↔ InLedger db k := by
    unfold InLedger
    rw [hledger]
    exact hreported
  rcases hfinal with ⟨hbelow, rfl⟩ | ⟨hreached, hfinal⟩
  · rw [hbefore, or_iff_left]
    rintro ⟨invoice, haccepts, -⟩
    obtain rfl := hown invoice haccepts
    exact absurd haccepts.reached (by omega)
  have hid' : invoice'.id = stored.id := congrArg Invoice.Terms.id hterms
  have hfound : db.invoices.find? stored.id = some stored := hstored
  rw [← hid'] at hfinal
  rw [finalizeInvoice_ledger (by rw [hid', hfind']) hfinal, hbefore,
    countedTransfers_congr htransfers hterms, ← accepts_iff hid hfound hreached hadvance hfind']
  refine or_congr_right ⟨fun haccepts => ⟨stored, haccepts⟩, ?_⟩
  rintro ⟨invoice, haccepts, hmem⟩
  obtain rfl := hown invoice haccepts
  exact ⟨haccepts, hmem⟩

/-! ## The turns of a pass -/

theorem updateConfirmation_eq_ok (h : updateConfirmation adapter now p x = .ok y) :
    ∃ info, adapter.getConfirmations p.key.txHash = .ok info ∧
      confirmTransfer p info now x = .ok y := bind_eq_ok.1 h

/-- The turn of `p` counts a transfer in a payment it accepts. -/
def Counted (adapter : BlockchainAdapter) (x : Db) (p : TokenTransfer) (k : TransferKey) : Prop :=
  ∃ info invoice, adapter.getConfirmations p.key.txHash = .ok info ∧
    Accepts x p info.confirmations invoice ∧
    ∃ t ∈ countedTransfers (x.reported p.key info.confirmations) invoice, t.key = k

theorem updateConfirmation_ledger (h : updateConfirmation adapter now p x = .ok y)
    (k : TransferKey) : InLedger y k ↔ InLedger x k ∨ Counted adapter x p k := by
  obtain ⟨info, hinfo, hconfirm⟩ := updateConfirmation_eq_ok h
  rw [confirmTransfer_ledger hconfirm]
  refine or_congr_right ⟨?_, ?_⟩
  · rintro ⟨invoice, haccepts, hmem⟩
    exact ⟨info, invoice, hinfo, haccepts, hmem⟩
  · rintro ⟨info', invoice, hinfo', haccepts, hmem⟩
    obtain rfl := Except.ok.inj (hinfo'.symm.trans hinfo)
    exact ⟨invoice, haccepts, hmem⟩

variable {l l' : List (Db × TokenTransfer)}

theorem inLedger_of_turns (h : Turns (updateConfirmation adapter now) db l y)
    (hk : InLedger db k) : InLedger y k :=
  h.invariant hk fun _ _ _ hx hstep => (updateConfirmation_ledger hstep k).2 (.inl hx)

/-- **A credit of the pass** is the credit of one of its turns. -/
theorem credited_turn (h : Turns (updateConfirmation adapter now) db l y)
    (hbefore : ¬ InLedger db k) (hafter : InLedger y k) :
    ∃ before x p after, l = before ++ (x, p) :: after ∧ ¬ InLedger x k ∧
      Counted adapter x p k := by
  induction h with
  | none _ => exact absurd hafter hbefore
  | @next x x' y p l hstep _ ih =>
    by_cases hk : InLedger x' k
    · exact ⟨[], x, p, l, rfl, hbefore,
        ((updateConfirmation_ledger hstep k).1 hk).resolve_left hbefore⟩
    · obtain ⟨before, x', p', after, rfl, hturn⟩ := ih hk hafter
      exact ⟨(x, p) :: before, x', p', after, rfl, hturn⟩

/-- The counts the pass has asked for by now are in their rows. -/
def Asked (adapter : BlockchainAdapter) (x : Db) (asked : List TransferKey) : Prop :=
  ∀ t ∈ x.transfers, t.key ∈ asked →
    ∃ info, adapter.getConfirmations t.key.txHash = .ok info ∧ t.confirmations = info.confirmations

theorem asked_reported {asked : List TransferKey} {info : ConfirmationInfo}
    (ha : Asked adapter x asked) (hinfo : adapter.getConfirmations p.key.txHash = .ok info) :
    Asked adapter (x.reported p.key info.confirmations) (asked ++ [p.key]) := by
  intro t ht hmem
  obtain ⟨t0, ht0, rfl⟩ := List.mem_map.1 ht
  by_cases hkey : t0.key = p.key
  · simp only [if_pos hkey]
    exact ⟨info, hkey ▸ hinfo, rfl⟩
  · simp only [if_neg hkey] at hmem ⊢
    exact ha t0 ht0 ((List.mem_append.1 hmem).resolve_right (by simpa using hkey))

theorem asked_step {asked : List TransferKey} (ha : Asked adapter x asked)
    (h : updateConfirmation adapter now p x = .ok y) : Asked adapter y (asked ++ [p.key]) := by
  obtain ⟨info, hinfo, hconfirm⟩ := updateConfirmation_eq_ok h
  obtain ⟨f, hf, htransfers, hrows⟩ := confirmTransfer_transfers hconfirm
  intro t ht hmem
  rw [htransfers] at ht
  obtain ⟨t0, ht0, rfl⟩ := List.mem_map.1 ht
  -- A credit leaves the count in the row as the report has written it.
  have hrow := asked_reported ha hinfo (reportedTransfer p.key info.confirmations t0)
    (List.mem_map_of_mem ht0)
  rw [reportedTransfer_key] at hrow
  rw [hf] at hmem ⊢
  rcases hrows t0 ht0 with heq | ⟨heq, -⟩ <;> rw [heq]
  · exact hrow hmem
  · exact hrow hmem

theorem asked_of_turns (h : Turns (updateConfirmation adapter now) db l y)
    {asked : List TransferKey} (ha : Asked adapter db asked) :
    Asked adapter y (asked ++ l.map (·.2.key)) := by
  induction h generalizing asked with
  | none _ => simpa using ha
  | next hstep _ ih => simpa using ih (asked_step ha hstep)

/-- The transfers keep their invoices, and the invoices their terms. -/
structure SameBills (db x : Db) : Prop where
  transfers : ∀ k, (x.transfers.find? k).map (·.invoiceId) =
    (db.transfers.find? k).map (·.invoiceId)
  invoices : ∀ id, (x.invoices.find? id).map (·.terms) = (db.invoices.find? id).map (·.terms)

theorem sameBills_step (hs : SameBills db x) (h : updateConfirmation adapter now p x = .ok y) :
    SameBills db y := by
  obtain ⟨info, -, hconfirm⟩ := updateConfirmation_eq_ok h
  refine ⟨fun k => ?_, fun id => ?_⟩
  · rw [← hs.transfers k]
    obtain ⟨f, hf, htransfers, hrows⟩ := confirmTransfer_transfers hconfirm
    rw [htransfers, Table.find?_map, Option.map_map]
    cases hfind : x.transfers.find? k with
    | none => rfl
    | some t =>
      have hreported := reportedTransfer_invoiceId p.key info.confirmations t
      rcases hrows t (Table.mem_of_find? hfind) with heq | ⟨heq, -⟩ <;>
        simp only [Option.map_some, Function.comp_apply, heq]
      · rw [hreported]
      · exact congrArg some hreported
  · rw [← hs.invoices id]
    by_cases hid : p.invoiceId = some id
    · cases hfind : x.invoices.find? id with
      | none =>
        obtain ⟨db1, hset, hcases⟩ := confirmTransfer_eq_ok hconfirm
        obtain ⟨-, rfl⟩ := Db.setConfirmations_eq_ok.1 hset
        rcases hcases with ⟨hnone, -⟩ | ⟨invoice, db2, hown, hstored, -⟩
        · rw [hid] at hnone
          cases hnone
        · obtain rfl : invoice.id = id := Option.some.inj (hown.symm.trans hid)
          exact absurd (hstored.symm.trans hfind) (by simp)
      | some invoice =>
        obtain rfl : invoice.id = id := Table.key_of_find? hfind
        obtain ⟨invoice', hfind', hterms, -⟩ := confirmTransfer_invoice hid hfind hconfirm
        rw [hfind', Option.map_some, Option.map_some, hterms]
    · rw [confirmTransfer_other hid hconfirm]

theorem sameBills_of_turns (h : Turns (updateConfirmation adapter now) db l y) :
    SameBills db y :=
  h.invariant ⟨fun _ => rfl, fun _ => rfl⟩ fun _ _ _ hx hstep => sameBills_step hx hstep

/-! ## Credits and the chain -/

/-- On the chain of the adapter a successful, mined transaction makes the transfer. -/
def OnChain (adapter : BlockchainAdapter) (k : TransferKey) : Prop :=
  match adapter.getTransaction k.txHash, adapter.getTransfers k.txHash with
  | .ok (some chainTx), .ok transfers => chainTx.status = .success ∧ chainTx.blockNumber ≠ none ∧
      ∃ s ∈ transfers, s.transferIndex = k.transferIndex
  | _, _ => False

/-- The chain of the adapter bears out the number of confirmations. -/
def DeepEnough (adapter : BlockchainAdapter) (k : TransferKey) (required : Nat) : Prop :=
  match adapter.getConfirmations k.txHash with
  | .ok info => required ≤ info.confirmations
  | .error _ => False

instance (adapter : BlockchainAdapter) (k : TransferKey) : Decidable (OnChain adapter k) := by
  unfold OnChain
  split <;> infer_instance

instance (adapter : BlockchainAdapter) (k : TransferKey) (required : Nat) :
    Decidable (DeepEnough adapter k required) := by
  unfold DeepEnough
  split <;> infer_instance

/-- The transfers that a pass credits. -/
def creditedBy (db y : Db) : List TokenTransfer :=
  db.transfers.rows.filter fun t => ¬ InLedger db t.key ∧ InLedger y t.key

/-- Every transfer that a pass of `updateConfirmations` credits is, on the chain of this pass, a
transfer of a successful transaction mined as deep as its invoice requires. -/
def CreditsFresh (adapter : BlockchainAdapter) (network : Network) (now : Int) (db : Db) : Prop :=
  ∀ t ∈ creditedBy db ((updateConfirmations adapter network now db).final db),
    ∃ invoice ∈ t.invoiceId.bind db.invoices.find?,
      OnChain adapter t.key ∧ DeepEnough adapter t.key invoice.requiredConfirmations

instance (adapter : BlockchainAdapter) (network : Network) (now : Int) (db : Db) :
    Decidable (CreditsFresh adapter network now db) := by
  unfold CreditsFresh
  infer_instance

/-- If the turn of `p` accepts a payment, every transfer it newly credits is on the chain, and as
deep as required unless the adapter has been asked about it by now. -/
def SettlesFresh (adapter : BlockchainAdapter) (asked : List TransferKey) (x : Db)
    (p : TokenTransfer) : Prop :=
  ∀ info invoice, adapter.getConfirmations p.key.txHash = .ok info →
    Accepts x p info.confirmations invoice →
    ∀ t ∈ countedTransfers (x.reported p.key info.confirmations) invoice, ¬ InLedger x t.key →
      OnChain adapter t.key ∧
        (t.key ∈ asked ∨ DeepEnough adapter t.key invoice.requiredConfirmations)

/-- The row a turn counts, as it was at the start of the pass, with the invoice. -/
theorem SameBills.counted {n : Nat} {invoice : Invoice} (hs : SameBills db x)
    (hfind : x.invoices.find? invoice.id = some invoice)
    (ht : t ∈ countedTransfers (x.reported p.key n) invoice) :
    ∃ t0 ∈ db.transfers, t0.key = t.key ∧ ∃ invoice0 ∈ t0.invoiceId.bind db.invoices.find?,
      invoice0.requiredConfirmations = invoice.requiredConfirmations := by
  obtain ⟨hmem, hid, -⟩ := mem_confirmed_iff.1 (mem_counted_iff.1 ht).1
  obtain ⟨t1, ht1, rfl⟩ := List.mem_map.1 hmem
  have hkey : (if t1.key = p.key then Db.withConfirmations n t1 else t1).key = t1.key ∧
      (if t1.key = p.key then Db.withConfirmations n t1 else t1).invoiceId = t1.invoiceId := by
    split <;> exact ⟨rfl, rfl⟩
  rw [hkey.2] at hid
  rw [hkey.1]
  have hrow := hs.transfers t1.key
  rw [Table.find?_of_mem ht1, Option.map_some, hid] at hrow
  obtain ⟨t0, hfound, hid0⟩ := Option.map_eq_some_iff.1 hrow.symm
  have hbill := hs.invoices invoice.id
  rw [hfind, Option.map_some] at hbill
  obtain ⟨invoice0, hfound0, hterms⟩ := Option.map_eq_some_iff.1 hbill.symm
  refine ⟨t0, Table.mem_of_find? hfound, Table.key_of_find? hfound, invoice0, ?_,
    congrArg Invoice.Terms.requiredConfirmations hterms⟩
  rw [hid0]
  exact hfound0

/-- **The credits of a pass rest on its chain** exactly if each of its settlements does. -/
theorem creditsFresh_iff (adapter : BlockchainAdapter) (network : Network) (now : Int) (db : Db) :
    CreditsFresh adapter network now db ↔ ∀ before x p after,
      turns (updateConfirmation adapter now) (pendingTransfers db network) db =
        before ++ (x, p) :: after →
      SettlesFresh adapter (before.map (·.2.key) ++ [p.key]) x p := by
  have hturns := turns_execAll (updateConfirmation adapter now) (pendingTransfers db network) db
  constructor
  · intro hfresh before x p after hsplit info invoice hinfo haccepts t ht hnew
    rw [hsplit] at hturns
    obtain ⟨hbefore, x', hstep, hafter⟩ := hturns.split
    obtain ⟨t0, ht0, hkey, invoice0, hinvoice0, hrequired⟩ :=
      (sameBills_of_turns hbefore).counted haccepts.found ht
    have hcredited : InLedger x' t.key :=
      (updateConfirmation_ledger hstep t.key).2 (.inr ⟨info, invoice, hinfo, haccepts, t, ht, rfl⟩)
    have hmem : t0 ∈ creditedBy db ((updateConfirmations adapter network now db).final db) := by
      refine List.mem_filter.2 ⟨ht0, decide_eq_true ⟨?_, ?_⟩⟩ <;> rw [hkey]
      · exact fun hold => hnew (inLedger_of_turns hbefore hold)
      · exact inLedger_of_turns hafter hcredited
    obtain ⟨invoice1, hinvoice1, honchain, hdeep⟩ := hfresh t0 hmem
    obtain rfl := Option.some.inj (hinvoice1.symm.trans hinvoice0)
    rw [hkey] at honchain hdeep
    exact ⟨honchain, .inr (hrequired ▸ hdeep)⟩
  · intro hall t0 ht0
    obtain ⟨hmem0, hp⟩ := List.mem_filter.1 ht0
    obtain ⟨hbefore, hafter⟩ := of_decide_eq_true hp
    obtain ⟨before, x, p, after, hsplit, hnew, info, invoice, hinfo, haccepts, t, ht, hkey⟩ :=
      credited_turn hturns hbefore hafter
    have hsettles := hall before x p after hsplit info invoice hinfo haccepts t ht (hkey ▸ hnew)
    rw [hsplit] at hturns
    obtain ⟨hlead, x', hstep, -⟩ := hturns.split
    obtain ⟨t1, ht1, hkey1, invoice0, hinvoice0, hrequired⟩ :=
      (sameBills_of_turns hlead).counted haccepts.found ht
    obtain rfl : t1 = t0 := Table.eq_of_key_eq ht1 hmem0 (hkey1.trans hkey)
    refine ⟨invoice0, hinvoice0, hkey ▸ hsettles.1, ?_⟩
    rw [← hkey, hrequired]
    rcases hsettles.2 with hasked | hdeep
    · have hnone : Asked adapter db [] := fun t _ hnot => absurd hnot List.not_mem_nil
      have hrows := asked_reported (asked_of_turns hlead hnone) hinfo
      obtain ⟨hconfirmed, hcount⟩ := mem_counted_iff.1 ht
      obtain ⟨hrow, -⟩ := mem_confirmed_iff.1 hconfirmed
      obtain ⟨info', hinfo', hsame⟩ := hrows t hrow hasked
      unfold DeepEnough
      rw [hinfo']
      show invoice.requiredConfirmations ≤ info'.confirmations
      rw [← hsame]
      exact hcount
    · exact hdeep

end MonitorService

namespace Shop

open MonitorService

/-- Two transactions that pay the invoice together; the second as given. -/
def twoHalves (second : ChainTransaction × List ParsedTransfer) :
    List (ChainTransaction × List ParsedTransfer) :=
  [(mined "0xa" 100 13, [usdtTransfer 0 50000000]), second]

def secondMined : ChainTransaction × List ParsedTransfer :=
  (mined "0xb" 101 12, [usdtTransfer 0 50000000])

/-- The second transaction back in the mempool. -/
def secondDropped : ChainTransaction × List ParsedTransfer :=
  ({ mined "0xb" 101 0 with blockNumber := none, blockHash := none, status := .pending }, [])

/-- The second transaction mined again, and reverted this time. -/
def secondReverted : ChainTransaction × List ParsedTransfer :=
  ({ mined "0xb" 101 12 with status := .reverted }, [])

def halvesSeen : Db := after [observe 112 (twoHalves secondMined) "0xa",
  observe 112 (twoHalves secondMined) "0xb"]

/-- Both halves are credited on the strength of the first, and of a count that the sighting of the
second has left in its row. -/
theorem stale_half_credited :
    ¬ CreditsFresh (.ofTransactions 112 (twoHalves secondDropped)) .ethereum 2000 halvesSeen ∧
    ¬ CreditsFresh (.ofTransactions 112 (twoHalves secondReverted)) .ethereum 2000
      halvesSeen := by
  decide +kernel

end Shop

end PaymentGateway
