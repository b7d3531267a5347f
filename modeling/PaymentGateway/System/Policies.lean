import PaymentGateway.Monitor.Merchants
import PaymentGateway.Monitor.Report
import PaymentGateway.System.Operation

/-!
# Two runs under different policies

The same operations of the monitor, run twice, while the merchants' settings for underpayment,
overpayment and tolerances change in each run at moments and to values of its own.

**Theorem (`policies_captured`).** As long as every settlement of either run goes as the captured
policy says, the two runs commit the same states, up to those settings: the same statuses, amounts,
matches and credits.

The tolerances are read from the invoice, where they were captured. The policies are read from the
merchant, so the condition is on the state before each report that settles an invoice: where its
amount is under (over) the band, the merchant's policy for that side has to accept exactly when the
captured one does. `policy_changed` is a pair of runs without the condition.
-/

namespace PaymentGateway

open Keyed Fallible Transactional MonitorService

/-! ## Settings that change -/

structure PolicySettings where
  underpaymentPolicy : UnderpaymentPolicy
  overpaymentPolicy : OverpaymentPolicy
  underpaymentToleranceBps : Int
  overpaymentToleranceBps : Int
  tolerances_sane : (0 ≤ underpaymentToleranceBps ∧ underpaymentToleranceBps ≤ 10000) ∧
    0 ≤ overpaymentToleranceBps ∧ overpaymentToleranceBps ≤ 10000

def Merchant.withPolicy (p : PolicySettings) (m : Merchant) : Merchant := { m with
  underpaymentPolicy := p.underpaymentPolicy
  overpaymentPolicy := p.overpaymentPolicy
  underpaymentToleranceBps := p.underpaymentToleranceBps
  overpaymentToleranceBps := p.overpaymentToleranceBps
  tolerances_sane := p.tolerances_sane }

theorem Merchant.id_withPolicy (p : PolicySettings) (m : Merchant) :
    (m.withPolicy p).id = m.id := rfl

/-- A merchant changes these settings. -/
def Db.setPolicy (db : Db) (merchantId : String) (p : PolicySettings) : Db :=
  db.withMerchants (db.merchants.modify merchantId (Merchant.withPolicy p)
    (Merchant.id_withPolicy p))

theorem sameButPolicies_setPolicy (merchants : Table Merchant (·.id)) (merchantId : String)
    (p : PolicySettings) : SameButPolicies merchants
      (merchants.modify merchantId (Merchant.withPolicy p) (Merchant.id_withPolicy p)) := by
  have hother : ∀ m : Merchant, otherSettings (m.withPolicy p) = otherSettings m := fun _ => rfl
  exact fun id => Table.map_find?_modify hother id

/-! ## Twin runs -/

/-- One of the two runs: its database and what is left of the current script. -/
structure Side where
  db : Db
  script : List (Except Error Transaction)

def Side.begin (op : Operation) (s : Side) : Side := ⟨s.db, op.script s.db⟩

/-- The next transaction of the script; a failure ends the script. -/
def Side.step (s : Side) : Side :=
  match s.script with
  | [] => s
  | entry :: rest =>
    match gateway.step entry s.db with
    | .ok db => ⟨db, rest⟩
    | .error _ => ⟨s.db, []⟩

def Side.setPolicy (merchantId : String) (p : PolicySettings) (s : Side) : Side :=
  { s with db := s.db.setPolicy merchantId p }

/-- Both runs begin the same operation and take the same steps; settings change in one of them. -/
inductive TwinEvent
  | begin (op : Operation)
  | step
  | setLeft (merchantId : String) (p : PolicySettings)
  | setRight (merchantId : String) (p : PolicySettings)

def TwinEvent.apply : TwinEvent → Side × Side → Side × Side
  | begin op, s => (s.1.begin op, s.2.begin op)
  | step, s => (s.1.step, s.2.step)
  | setLeft merchantId p, s => (s.1.setPolicy merchantId p, s.2)
  | setRight merchantId p, s => (s.1, s.2.setPolicy merchantId p)

def twins : Machine (Side × Side) Error TwinEvent TwinEvent :=
  ⟨fun e s => .ok (e.apply s), fun e _ => [.ok e]⟩

def Operation.OfMonitor : Operation → Prop
  | .processTransaction .. | .updateConfirmations .. | .handleReorg .. => True
  | _ => False

/-- Both runs run the monitor. -/
def TwinEvent.OfMonitor : TwinEvent → Prop
  | begin op => op.OfMonitor
  | _ => True

/-! ## The condition -/

/-- A report that reaches the threshold of its invoice settles it as captured. -/
def SettlesAsCaptured : Transaction → Db → Prop
  | .confirmTransfer transfer info _, db =>
    ∀ invoice ∈ transfer.invoiceId.bind db.invoices.find?,
      invoice.requiredConfirmations ≤ info.confirmations →
      AsCaptured (db.reported transfer.key info.confirmations) invoice
        (reportedStatus invoice info.confirmations)
  | _, _ => True

/-- The next transaction of a side meets the condition. -/
def Side.AsCaptured (s : Side) : Prop :=
  ∀ t ∈ s.script.head?.bind Except.toOption, SettlesAsCaptured t s.db

def StepsAsCaptured : TwinEvent → Side × Side → Prop
  | .step, s => s.1.AsCaptured ∧ s.2.AsCaptured
  | _, _ => True

instance (db : Db) (invoice : Invoice) (status : InvoiceStatus) :
    Decidable (MonitorService.AsCaptured db invoice status) := by
  unfold MonitorService.AsCaptured
  infer_instance

instance : ∀ (t : Transaction) (db : Db), Decidable (SettlesAsCaptured t db)
  | .confirmTransfer transfer info _, db => inferInstanceAs (Decidable
      (∀ invoice ∈ transfer.invoiceId.bind db.invoices.find?,
        invoice.requiredConfirmations ≤ info.confirmations →
        MonitorService.AsCaptured (db.reported transfer.key info.confirmations) invoice
          (reportedStatus invoice info.confirmations)))
  | .recordTransfers .., _ | .orphanTransaction .., _ | .expireOne .., _
  | .loadAndMaybeExpire .., _ | .cancelWrite .., _ | .createInvoice .., _
  | .registerMerchant .., _ | .updateMerchant .., _ | .registerAddress .., _
  | .takeEdge .., _ => isTrue trivial

instance (s : Side) : Decidable s.AsCaptured := by
  unfold Side.AsCaptured
  infer_instance

instance : ∀ (e : TwinEvent) (s : Side × Side), Decidable (StepsAsCaptured e s)
  | .step, s => inferInstanceAs (Decidable (s.1.AsCaptured ∧ s.2.AsCaptured))
  | .begin _, _ | .setLeft _ _, _ | .setRight _ _, _ => isTrue trivial

/-! ## Transactions -/

variable {db : Db} {merchants : Table Merchant (·.id)}

/-- What the report does before the settlement leaves the condition as it is. -/
theorem asCaptured_of_advance {db1 db2 : Db} {invoice invoice' : Invoice} {n : Nat}
    (hfind : db1.invoices.find? invoice.id = some invoice)
    (hadvance : advanceConfirming db1 invoice n = .ok db2)
    (hfind' : db2.invoices.find? invoice.id = some invoice')
    (h : MonitorService.AsCaptured db1 invoice (reportedStatus invoice n)) :
    MonitorService.AsCaptured db2 invoice' invoice'.status := by
  obtain ⟨htransfers, hmerchants, stored, hstored, hterms, hstatus, hover, hunder⟩ :=
    advanceConfirming_reported hfind hadvance
  obtain rfl : invoice' = stored := Option.some.inj (hfind'.symm.trans hstored)
  have hmid : invoice'.merchantId = invoice.merchantId := congrArg Invoice.Terms.merchantId hterms
  intro merchant hm target htarget hedge
  rw [hmerchants, hmid] at hm
  rw [countedTransfers_congr htransfers hterms, outcomeFor_congr hterms] at htarget
  rw [hstatus] at hedge
  rw [h merchant hm target htarget hedge]
  unfold acceptsAsCaptured
  rw [hover, hunder]

/-- A report that settles as captured under both merchant tables does the same under both. -/
theorem confirmTransfer_withMerchants {transfer : TokenTransfer} {info : ConfirmationInfo}
    {now : Int} (hsame : SameButPolicies db.merchants merchants)
    (hleft : SettlesAsCaptured (.confirmTransfer transfer info now) db)
    (hright : SettlesAsCaptured (.confirmTransfer transfer info now)
      (db.withMerchants merchants)) :
    confirmTransfer transfer info now (db.withMerchants merchants) =
      (confirmTransfer transfer info now db).map (·.withMerchants merchants) := by
  unfold confirmTransfer
  rw [Db.setConfirmations_withMerchants]
  refine map_bind_map fun db1 hset => ?_
  obtain rfl : db1 = db.reported transfer.key info.confirmations :=
    (Db.setConfirmations_eq_ok.1 hset).2
  cases hid : transfer.invoiceId with
  | none => rfl
  | some id =>
    dsimp only
    have hfind : ((db.reported transfer.key info.confirmations).withMerchants merchants).findInvoice
        id = (db.reported transfer.key info.confirmations).findInvoice id := rfl
    rw [hfind]
    cases hinvoice : (db.reported transfer.key info.confirmations).findInvoice id with
    | error e => rfl
    | ok invoice =>
      obtain ⟨rfl, hstored⟩ := Db.found hinvoice
      simp only [bind_ok]
      rw [advanceConfirming_withMerchants]
      refine map_bind_map fun db2 hadvance => ?_
      rw [effectiveConfirmations_none, bind_ok, bind_ok,
        isConfirmed_of_pos invoice.required_confirmations_positive, bind_ok, bind_ok]
      split
      · next hreached =>
        have hthreshold : invoice.requiredConfirmations ≤ info.confirmations :=
          of_decide_eq_true hreached
        have hmem : invoice ∈ transfer.invoiceId.bind db.invoices.find? := by
          rw [hid]
          exact hstored
        have hmerchants : db2.merchants = db.merchants := (advanceConfirming_row hstored hadvance).2.1
        have hstored' : ((db.reported transfer.key info.confirmations).withMerchants
            merchants).invoices.find? invoice.id = some invoice := hstored
        have hadvance' := advanceConfirming_withMerchants merchants
          (db.reported transfer.key info.confirmations) invoice info.confirmations
        rw [hadvance] at hadvance'
        refine finalizeInvoice_withMerchants (hmerchants ▸ hsame) (fun invoice' hfind' => ?_)
          fun invoice' hfind' => ?_
        · exact asCaptured_of_advance hstored hadvance hfind' (hleft invoice hmem hthreshold)
        · exact asCaptured_of_advance hstored' hadvance' hfind' (hright invoice hmem hthreshold)
      · rfl

/-- The transactions of the monitor. -/
def Transaction.OfMonitor : Transaction → Prop
  | .recordTransfers .. | .confirmTransfer .. | .orphanTransaction .. => True
  | _ => False

theorem Transaction.apply_withMerchants {t : Transaction} (ht : t.OfMonitor)
    (hsame : SameButPolicies db.merchants merchants) (hleft : SettlesAsCaptured t db)
    (hright : SettlesAsCaptured t (db.withMerchants merchants)) :
    t.apply (db.withMerchants merchants) = (t.apply db).map (·.withMerchants merchants) := by
  cases t with
  | recordTransfers network chainTx transfers graceSeconds now =>
    exact recordTransfers_withMerchants merchants db network chainTx transfers graceSeconds now
  | confirmTransfer transfer info now => exact confirmTransfer_withMerchants hsame hleft hright
  | orphanTransaction key now => exact orphanTransaction_withMerchants merchants db key now
  | _ => exact ht.elim

/-- The monitor writes nothing to the merchants. -/
theorem Transaction.merchants_eq {t : Transaction} {db' : Db} (ht : t.OfMonitor)
    (hcaptured : SettlesAsCaptured t db) (h : t.apply db = .ok db') :
    db'.merchants = db.merchants := by
  have hself := Transaction.apply_withMerchants ht (.refl db.merchants) hcaptured hcaptured
  have hdb : db.withMerchants db.merchants = db := rfl
  rw [hdb, h] at hself
  have hkept : db' = db'.withMerchants db.merchants := Except.ok.inj hself
  have hmerchants : db'.merchants = (db'.withMerchants db.merchants).merchants :=
    congrArg Db.merchants hkept
  exact hmerchants

/-! ## Runs -/

/-- Two sides that differ in the policies, at most, and have the same script of the monitor
before them. -/
structure Twin (s : Side × Side) : Prop where
  script : s.2.script = s.1.script
  ofMonitor : ∀ t, Except.ok t ∈ s.1.script → t.OfMonitor
  db : ∃ merchants, s.2.db = s.1.db.withMerchants merchants ∧
    SameButPolicies s.1.db.merchants merchants

theorem script_ofMonitor {op : Operation} (hop : op.OfMonitor) (db : Db) :
    (∀ t, Except.ok t ∈ op.script db → t.OfMonitor) ∧
      ∀ merchants, op.script (db.withMerchants merchants) = op.script db := by
  cases op with
  | processTransaction adapter network txHash graceSeconds now =>
    refine ⟨fun t ht => ?_, fun _ => rfl⟩
    simp only [Operation.script, Operation.processScript] at ht
    split at ht
    · simp at ht
    · simp at ht
    · split at ht
      · simp at ht
      · simp at ht
      · rw [List.mem_singleton] at ht
        cases ht
        trivial
  | updateConfirmations adapter network now =>
    refine ⟨fun t ht => ?_, fun _ => rfl⟩
    obtain ⟨transfer, -, h⟩ := List.mem_map.1 ht
    cases hc : adapter.getConfirmations transfer.key.txHash with
    | error e => rw [hc] at h; cases h
    | ok info => rw [hc] at h; cases h; trivial
  | handleReorg network fromBlock now =>
    refine ⟨fun t ht => ?_, fun _ => rfl⟩
    obtain ⟨row, -, h⟩ := List.mem_map.1 ht
    cases h
    trivial
  | _ => exact hop.elim

theorem Twin.begin {s : Side × Side} (h : Twin s) {op : Operation} (hop : op.OfMonitor) :
    Twin (s.1.begin op, s.2.begin op) := by
  obtain ⟨merchants, hdb, hsame⟩ := h.db
  obtain ⟨hmonitor, hscript⟩ := script_ofMonitor hop s.1.db
  refine ⟨?_, hmonitor, merchants, hdb, hsame⟩
  show op.script s.2.db = op.script s.1.db
  rw [hdb, hscript]

/-- **A step of both sides.** -/
theorem Twin.step {s : Side × Side} (h : Twin s) (hcaptured : StepsAsCaptured .step s) :
    Twin (s.1.step, s.2.step) := by
  obtain ⟨merchants, hdb, hsame⟩ := h.db
  unfold Side.step
  rw [h.script]
  cases hscript : s.1.script with
  | nil => exact ⟨h.script, h.ofMonitor, merchants, hdb, hsame⟩
  | cons entry rest =>
    have hmonitor : ∀ t, Except.ok t ∈ rest → t.OfMonitor := fun t ht =>
      h.ofMonitor t (hscript ▸ List.mem_cons_of_mem _ ht)
    have hnone : ∀ t, Except.ok t ∈ ([] : List (Except Error Transaction)) → t.OfMonitor :=
      fun t ht => absurd ht List.not_mem_nil
    cases entry with
    | error e => exact ⟨rfl, hnone, merchants, hdb, hsame⟩
    | ok t =>
      have ht : t.OfMonitor := h.ofMonitor t (hscript ▸ List.mem_cons_self)
      obtain ⟨hleft, hright⟩ := hcaptured
      unfold Side.AsCaptured at hleft hright
      rw [hscript] at hleft
      rw [h.script, hscript, hdb] at hright
      replace hleft : SettlesAsCaptured t s.1.db := hleft t rfl
      replace hright : SettlesAsCaptured t (s.1.db.withMerchants merchants) := hright t rfl
      have happly := Transaction.apply_withMerchants ht hsame hleft hright
      show Twin (match t.apply s.1.db with
        | .ok db => ⟨db, rest⟩
        | .error _ => ⟨s.1.db, []⟩, match t.apply s.2.db with
        | .ok db => ⟨db, rest⟩
        | .error _ => ⟨s.2.db, []⟩)
      rw [hdb, happly]
      cases hok : t.apply s.1.db with
      | error e => exact ⟨rfl, hnone, merchants, rfl, hsame⟩
      | ok db' =>
        refine ⟨rfl, hmonitor, merchants, rfl, ?_⟩
        rw [Transaction.merchants_eq ht hleft hok]
        exact hsame

theorem TwinEvent.twin {e : TwinEvent} {s : Side × Side} (he : e.OfMonitor) (h : Twin s)
    (hcaptured : StepsAsCaptured e s) : Twin (e.apply s) := by
  obtain ⟨merchants, hdb, hsame⟩ := h.db
  cases e with
  | begin op => exact h.begin he
  | step => exact h.step hcaptured
  | setLeft merchantId p =>
    refine ⟨h.script, h.ofMonitor, merchants, hdb, ?_⟩
    exact (sameButPolicies_setPolicy s.1.db.merchants merchantId p).symm.trans hsame
  | setRight merchantId p =>
    refine ⟨h.script, h.ofMonitor, merchants.modify merchantId (Merchant.withPolicy p)
      (Merchant.id_withPolicy p), ?_, hsame.trans (sameButPolicies_setPolicy merchants _ _)⟩
    show s.2.db.setPolicy merchantId p = _
    rw [hdb]
    rfl

/-- **Settings that change after an invoice was created do not matter**: see the head of this
module. -/
theorem policies_captured {db : Db} {states : List (Side × Side)}
    {rest : List (Except Error TwinEvent)}
    (h : twins.History TwinEvent.OfMonitor StepsAsCaptured (⟨db, []⟩, ⟨db, []⟩) states rest) :
    ∀ s ∈ states, ∃ merchants, s.2.db = s.1.db.withMerchants merchants ∧
      SameButPolicies s.1.db.merchants merchants := by
  intro s hs
  have hkind : ∀ e (x : Side × Side), e.OfMonitor → ∀ t, Except.ok t ∈ twins.script e x →
      t.OfMonitor := by
    intro e x he t ht
    cases List.mem_singleton.1 ht
    exact he
  have hstart : Twin (⟨db, []⟩, ⟨db, []⟩) :=
    ⟨rfl, fun t ht => absurd ht List.not_mem_nil, db.merchants, rfl, .refl _⟩
  have hstep : ∀ e (a b : Side × Side), e.OfMonitor → Twin a → StepsAsCaptured e a →
      twins.apply e a = .ok b → Twin b := by
    intro e a b he ha hcaptured hok
    cases hok
    exact TwinEvent.twin he ha hcaptured
  have hreach : twins.Reachable TwinEvent.OfMonitor StepsAsCaptured (⟨db, []⟩, ⟨db, []⟩) s :=
    h.reachable hs
  exact (hreach.invariant hkind hstart hstep).db

/-! ## Two pairs of runs -/

namespace Shop

def policy (short : UnderpaymentPolicy) (excess : OverpaymentPolicy) (toleranceBps : Fin 10001) :
    PolicySettings :=
  ⟨short, excess, toleranceBps, toleranceBps, by omega⟩

/-- What the chain knows: a payment of 40 USDT, and one of 60. -/
def partialPayments : List (ChainTransaction × List ParsedTransfer) := [
  (mined "0xa" 100 1, [usdtTransfer 5 40000000]),
  (mined "0xb" 101 1, [usdtTransfer 6 60000000])]

/-- The invoice is paid in two parts, the first of which is settled on its own. -/
def payInParts (between : List TwinEvent) : List TwinEvent := [
  .begin (observe 100 partialPayments "0xa"), .step] ++ between ++ [
  .begin (confirm 111 partialPayments), .step,
  .begin (observe 111 partialPayments "0xb"), .step,
  .begin (confirm 112 partialPayments), .step, .step]

/-- Both runs from the open invoice. -/
def bothOpen : Side × Side := (⟨after [], []⟩, ⟨after [], []⟩)

def twinsAfter (events : List TwinEvent) : Side × Side :=
  (twins.log events [bothOpen]).headD bothOpen

/-- Settings that do not accept a part, as the captured ones, but with other tolerances. -/
def otherTolerances : List TwinEvent := [
  .setLeft "shop" (policy .requestAdditional .acceptFull 10000),
  .setRight "shop" (policy .manualReview .manualReview 500)]

/-- One run begins to accept a part. -/
def partsAccepted : List TwinEvent := [.setRight "shop" (policy .acceptPartial .acceptFull 0)]

def matchStatuses (s : Side) : List TransferMatchStatus := s.db.transfers.rows.map (·.matchStatus)

end Shop

open Shop

theorem payInParts_ofMonitor {between : List TwinEvent} (h : ∀ e ∈ between, e.OfMonitor) :
    ∀ e ∈ payInParts between, e.OfMonitor := by
  intro e he
  simp only [payInParts, List.mem_append, List.mem_cons, List.not_mem_nil, or_false] at he
  rcases he with ((rfl | rfl) | he) | rfl | rfl | rfl | rfl | rfl | rfl | rfl
  all_goals first | exact h e he | trivial

theorem policies_captured_shop : ∃ merchants,
    (twinsAfter (payInParts otherTolerances)).2.db =
      (twinsAfter (payInParts otherTolerances)).1.db.withMerchants merchants ∧
    matchStatuses (twinsAfter (payInParts otherTolerances)).1 = [.credited, .credited] := by
  have hops : ∀ e ∈ payInParts otherTolerances, e.OfMonitor := by
    refine payInParts_ofMonitor fun e he => ?_
    rcases List.mem_pair.1 he with rfl | rfl <;> trivial
  obtain ⟨past, rest, hist⟩ : twins.Reachable TwinEvent.OfMonitor StepsAsCaptured bothOpen
      (twinsAfter (payInParts otherTolerances)) :=
    Machine.reachable_log hops (by decide +kernel)
  obtain ⟨merchants, hdb, -⟩ := policies_captured hist _ List.mem_cons_self
  exact ⟨merchants, hdb, by decide +kernel⟩

/-- **A later change of policy decides.** Captured was that a part is rejected. -/
theorem policy_changed :
    gateway.Reachable Operation.Automatic (fun _ _ => True) Db.empty bothOpen.1.db ∧
    ∃ s, twins.Reachable TwinEvent.OfMonitor (fun _ _ => True) bothOpen s ∧
      matchStatuses s.1 = [.credited, .credited] ∧
      matchStatuses s.2 = [.credited, .latePaymentReview] := by
  have hops : ∀ e ∈ payInParts partsAccepted, e.OfMonitor := by
    refine payInParts_ofMonitor fun e he => ?_
    rw [List.mem_singleton.1 he]
    trivial
  refine ⟨after_reachable [] (by decide) (Machine.allMeet_true _ _), _,
    Machine.reachable_log hops (Machine.allMeet_true _ _), ?_, ?_⟩
  · show matchStatuses (twinsAfter (payInParts partsAccepted)).1 = _
    decide +kernel
  · show matchStatuses (twinsAfter (payInParts partsAccepted)).2 = _
    decide +kernel

end PaymentGateway
