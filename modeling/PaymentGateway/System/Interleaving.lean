import PaymentGateway.System.Settlement

/-!
# Cancellation between its two steps

`cancelInvoice` reads the invoice and asserts the transition, and writes in a later transaction
that does not look again. Every other writer is one transaction. `interleaved` is the machine of
both: cancellations may begin, wait and finish between any transactions of the others.

Every status write is logged with the status it found. The log of an invoice should be a path of
the transition table from PENDING to the status now stored (`Logged`): no write goes unnoticed,
and each takes an edge its writer may take.

**Theorem (`status_writes_safe`).** In every interleaving in which each cancellation, when it
writes, still finds a status that a merchant may cancel, the log is such a path; so no invoice with
a detected payment is overwritten by CANCELLED or EXPIRED.

The other writers check what they overwrite inside their transaction, so each effect extends the
path (`Effect.logged`). A cancelling write extends it exactly under the condition
(`finishCancel_logged_iff`), and `cancelled_over_paid` is an interleaving without it.
-/

namespace PaymentGateway

open Keyed Fallible Transactional MonitorService

variable {may : Right → Prop} {db db' : Db}

/-! ## The log of an invoice -/

def writesOf (db : Db) (invoiceId : String) : List StatusWrite :=
  db.statusWrites.filter fun w => w.invoiceId = invoiceId

/-- The writes of each invoice are a path from PENDING to its status. -/
structure Logged (db : Db) : Prop where
  known : ∀ w ∈ db.statusWrites, (db.invoices.find? w.invoiceId).isSome = true
  path : ∀ i ∈ db.invoices, Db.StatusPath i.id .pending (writesOf db i.id) i.status

theorem logged_empty : Logged Db.empty :=
  ⟨fun _ hw => absurd hw List.not_mem_nil, fun i hi => absurd hi (Table.not_mem_empty i)⟩

theorem Logged.congr (hl : Logged db) (hinvoices : db'.invoices = db.invoices)
    (hwrites : db'.statusWrites = db.statusWrites) : Logged db' := by
  refine ⟨?_, ?_⟩
  · rw [hinvoices, hwrites]
    exact hl.known
  · unfold writesOf
    rw [hinvoices, hwrites]
    exact hl.path

/-- Every logged write was allowed. -/
theorem Logged.allowed (hl : Logged db) {w : StatusWrite} (hw : w ∈ db.statusWrites) :
    isActorAllowed w.stored w.written w.writer = true := by
  obtain ⟨i, hi⟩ := Option.isSome_iff_exists.1 (hl.known w hw)
  have hid : i.id = w.invoiceId := Table.key_of_find? hi
  have hmem : w ∈ writesOf db i.id := List.mem_filter.2 ⟨hw, by simp [hid]⟩
  exact ((hl.path i (Table.mem_of_find? hi)).mem w hmem).2

/-- Writes of one invoice that start at what is stored extend its path and touch no other. -/
theorem Logged.write (hl : Logged db) {stored : Invoice} {f : Invoice → Invoice}
    (hf : ∀ r, (f r).id = r.id) {ws : List StatusWrite}
    (hfind : db.invoices.find? stored.id = some stored)
    (hpath : Db.StatusPath stored.id stored.status ws (f stored).status)
    (hinvoices : db'.invoices = db.invoices.modify stored.id f hf)
    (hwrites : db'.statusWrites = db.statusWrites ++ ws) : Logged db' := by
  refine ⟨fun w hw => ?_, fun i hi => ?_⟩
  · rw [hinvoices, Table.find?_modify_isSome]
    rw [hwrites] at hw
    rcases List.mem_append.1 hw with hw | hw
    · exact hl.known w hw
    · rw [(hpath.mem w hw).1, hfind]
      rfl
  · unfold writesOf
    rw [hwrites, List.filter_append]
    rw [hinvoices] at hi
    rcases (Table.mem_modify_of_find? hfind).1 hi with rfl | ⟨hi, hne⟩
    · -- The invoice written: its new writes are all of `ws`.
      have hall : ws.filter (fun w => w.invoiceId = (f stored).id) = ws := by
        refine List.filter_eq_self.2 fun w hw => decide_eq_true ?_
        rw [hf]
        exact (hpath.mem w hw).1
      rw [hall, hf]
      exact (hl.path stored (Table.mem_of_find? hfind)).append hpath
    · have hnone : ws.filter (fun w => w.invoiceId = i.id) = [] := by
        refine List.filter_eq_nil_iff.2 fun w hw => ?_
        simp [(hpath.mem w hw).1, Ne.symm hne]
      rw [hnone, List.append_nil]
      exact hl.path i hi

theorem Logged.withStatus (hl : Logged db) {stored : Invoice} {target : InvoiceStatus}
    {writer : TransitionActor} {data : InvoiceData}
    {events : Table PaymentEvent fun e => (e.invoiceId, e.sequence)}
    {webhooks : Table WebhookEvent (·.idempotencyKey)}
    (hfind : db.invoices.find? stored.id = some stored)
    (hallowed : isActorAllowed stored.status target writer = true) :
    Logged (db.withStatus stored target writer data events webhooks) := by
  refine hl.write (fun r => r.id_update _) hfind ?_ rfl rfl
  rw [Invoice.status_update]
  exact Db.StatusPath.single stored.id hallowed

/-! ## The writers that check -/

/-- **Every effect but a cancellation extends the paths.** -/
theorem Effect.logged (h : Effect may db db') (hcancel : ¬ may .cancel) (hl : Logged db) :
    Logged db' := by
  cases h with
  | record _ _ _ _ =>
    obtain ⟨transfers, hupsert⟩ := Db.upsertTransfer_eq db _
    rw [hupsert]
    exact hl.congr rfl rfl
  | recordMove _ _ _ hinvoice _ hallowed _ =>
    obtain ⟨transfers, hupsert⟩ := Db.upsertTransfer_eq db _
    have hrows : Logged (db.upsertTransfer _) := hl.congr (by rw [hupsert]) (by rw [hupsert])
    refine hrows.withStatus ?_ hallowed
    rw [hupsert]
    exact (find?_of_invoice hinvoice).1
  | confirming _ hfind hallowed => exact hl.withStatus hfind hallowed
  | settle _ hsettle hallowed _ => exact hl.withStatus hsettle.invoice_found hallowed
  | @accept _ invoice _ _ _ haccept =>
    obtain ⟨now, db1, hpaid, hcredits⟩ := haccept.credits
    obtain ⟨f, hf, writes, _, _, _, _, _, hrow, hpath, rfl⟩ := accept_frame hpaid hcredits
    refine hl.write hf haccept.settleable.invoice_found ?_ rfl rfl
    rw [(hrow invoice).2.1]
    exact hpath.1
  | revert _ hfind hallowed _ => exact hl.withStatus hfind hallowed
  | @flag _ _ invoice _ events webhooks _ _ _ hfind hallowed =>
    have hmoved : Logged (db.withStatus invoice .reconciliationRequired .monitor
      { bumpVersion := true } events webhooks) := hl.withStatus hfind hallowed
    exact hmoved.congr rfl rfl
  | expire _ hfind hallowed _ => exact hl.withStatus hfind hallowed
  | @create _ invoice address asset now events webhooks hfree hstatus _ _ _ =>
    refine ⟨fun w hw => ?_, fun i hi => ?_⟩
    · show ((db.invoices.insert invoice hfree).find? w.invoiceId).isSome = true
      rw [Table.find?_insert]
      split
      · rfl
      · exact hl.known w hw
    · have hi' : i ∈ db.invoices.insert invoice hfree := hi
      rcases Table.mem_insert.1 hi' with hi | rfl
      · exact hl.path i hi
      · -- Nothing was written to an invoice that did not exist.
        have hnone : writesOf db i.id = [] := by
          refine List.filter_eq_nil_iff.2 fun w hw => ?_
          intro hid
          have hknown := hl.known w hw
          rw [of_decide_eq_true hid, hfree] at hknown
          cases hknown
        show Db.StatusPath i.id .pending (writesOf db i.id) i.status
        rw [hnone, hstatus]
        exact .nil _
  | cancel hmay => exact absurd hmay hcancel
  | edge _ hfind hallowed _ => exact hl.withStatus hfind hallowed
  | _ => exact hl.congr rfl rfl

theorem Effects.logged (h : Effects may db db') (hcancel : ¬ may .cancel) (hl : Logged db) :
    Logged db' :=
  h.invariant Logged hl fun _ _ ha hab => hab.logged hcancel ha

/-! ## The write that does not check -/

/-- What a merchant may cancel. -/
def cancellable : List InvoiceStatus := [.created, .pending, .underpaid]

theorem mem_cancellable {s : InvoiceStatus} :
    s ∈ cancellable ↔ isActorAllowed s .cancelled .merchant = true := by
  cases s <;> decide

/-- The write of a cancellation extends the path exactly if it finds what may be cancelled. -/
theorem cancelWrite_logged_iff {read : InvoicesService.CancelRead} {now : Int} (hl : Logged db)
    (h : InvoicesService.cancelWrite read now db = .ok db') :
    Logged db' ↔
      ∀ i, db.invoices.find? read.invoice.id = some i → i.status ∈ cancellable := by
  obtain ⟨stored, data, events, webhooks, addresses, hid, hfind, -, -, -, rfl⟩ := cancelWrite_eq_ok h
  constructor
  · intro hlogged i hi
    rw [← hid, hfind] at hi
    have hsame : stored = i := Option.some.inj hi
    subst hsame
    have hwrite : (⟨stored.id, stored.status, .cancelled, .merchant⟩ : StatusWrite) ∈
        db.statusWrites ++ [⟨stored.id, stored.status, .cancelled, .merchant⟩] :=
      List.mem_append.2 (.inr (List.mem_singleton.2 rfl))
    exact mem_cancellable.2 (hlogged.allowed hwrite)
  · intro hfound
    have hallowed := mem_cancellable.1 (hfound stored (hid ▸ hfind))
    have hmoved : Logged (db.withStatus stored .cancelled .merchant data events webhooks) :=
      hl.withStatus hfind hallowed
    exact hmoved.congr rfl rfl

/-! ## The machine -/

/-- The database and the cancellations between their two steps. -/
structure Session where
  db : Db
  cancels : List InvoicesService.CancelRead

def Session.empty : Session := ⟨Db.empty, []⟩

inductive Move
  | atomic (t : Transaction)
  | beginCancel (merchantId invoiceId : String) (now : Int)
  /-- The cancellation at this position writes. -/
  | finishCancel (position : Nat) (now : Int)

namespace Move

def apply : Move → Session → Except Error Session
  | atomic t, s => (t.apply s.db).map fun db => { s with db }
  | beginCancel merchantId invoiceId now, s =>
    (InvoicesService.cancelRead merchantId invoiceId now s.db).map fun r =>
      ⟨r.1, s.cancels ++ [r.2]⟩
  | finishCancel position now, s =>
    match s.cancels[position]? with
    | none => .ok s
    | some read => (InvoicesService.cancelWrite read now s.db).map fun db =>
        ⟨db, s.cancels.eraseIdx position⟩

theorem atomic_eq_ok {t : Transaction} {s s' : Session} (h : (atomic t).apply s = .ok s') :
    ∃ db, t.apply s.db = .ok db ∧ s' = { s with db } := by
  cases ht : t.apply s.db with
  | error e => rw [Move.apply, ht] at h; cases h
  | ok db => rw [Move.apply, ht] at h; cases h; exact ⟨db, rfl, rfl⟩

theorem beginCancel_eq_ok {merchantId invoiceId : String} {now : Int} {s s' : Session}
    (h : (beginCancel merchantId invoiceId now).apply s = .ok s') :
    ∃ db read, InvoicesService.loadAndMaybeExpire merchantId invoiceId now s.db =
        .ok (db, read.invoice) ∧
      read.paymentAddress = db.addresses.rows.find? (fun a => a.invoiceId = some invoiceId) ∧
      s' = ⟨db, s.cancels ++ [read]⟩ := by
  cases hread : InvoicesService.cancelRead merchantId invoiceId now s.db with
  | error e => rw [Move.apply, hread] at h; cases h
  | ok r =>
    rw [Move.apply, hread] at h
    cases h
    obtain ⟨hload, -, haddress⟩ := cancelRead_eq_ok hread
    exact ⟨r.1, r.2, hload, haddress, rfl⟩

theorem finishCancel_eq_ok {position : Nat} {now : Int} {s s' : Session}
    (h : (finishCancel position now).apply s = .ok s') :
    (s.cancels[position]? = none ∧ s' = s) ∨ ∃ read db, s.cancels[position]? = some read ∧
      InvoicesService.cancelWrite read now s.db = .ok db ∧
      s' = ⟨db, s.cancels.eraseIdx position⟩ := by
  unfold Move.apply at h
  cases hread : s.cancels[position]? with
  | none =>
    simp only [hread] at h
    cases h
    exact .inl ⟨rfl, rfl⟩
  | some read =>
    simp only [hread] at h
    cases hwrite : InvoicesService.cancelWrite read now s.db with
    | error e => rw [hwrite] at h; cases h
    | ok db => rw [hwrite] at h; cases h; exact .inr ⟨read, db, rfl, hwrite, rfl⟩

/-- Cancellations go through their two steps. -/
def TwoStep : Move → Prop
  | atomic (.cancelWrite _ _) => False
  | _ => True

instance : DecidablePred TwoStep := fun m => by
  cases m with
  | atomic t => cases t <;> unfold TwoStep <;> infer_instance
  | _ => exact isTrue trivial

/-- A cancellation that writes finds a status that a merchant may cancel. -/
def StillCancellable : Move → Session → Prop
  | finishCancel position _, s => ∀ read ∈ s.cancels[position]?,
    ∀ i ∈ s.db.invoices.find? read.invoice.id, i.status ∈ cancellable
  | _, _ => True

instance (m : Move) (s : Session) : Decidable (m.StillCancellable s) :=
  match m with
  | finishCancel position _ => inferInstanceAs (Decidable (∀ read ∈ s.cancels[position]?,
      ∀ i ∈ s.db.invoices.find? read.invoice.id, i.status ∈ cancellable))
  | atomic _ | beginCancel _ _ _ => isTrue trivial

end Move

/-- The writers of invoices, interleaved. -/
def interleaved : Machine Session Error Move Move := ⟨Move.apply, fun m _ => [.ok m]⟩

/-- Operations that follow one another are an interleaving. -/
theorem interleaved_of_gateway {allowed : Operation → Prop} {meets : Transaction → Db → Prop}
    {allowed' : Move → Prop} {meets' : Move → Session → Prop}
    (h : gateway.Reachable allowed meets Db.empty db)
    (hallowed : ∀ op s, allowed op → ∀ t, Except.ok t ∈ op.script s → allowed' (.atomic t))
    (hmeets : ∀ t (s : Session), meets t s.db → meets' (.atomic t) s) :
    interleaved.Reachable allowed' meets' Session.empty ⟨db, []⟩ := by
  refine h.invariant (P := fun x => interleaved.Reachable allowed' meets' Session.empty ⟨x, []⟩)
    hallowed ⟨[], [], .start⟩ ?_
  rintro t a b hkind ⟨past, rest, hist⟩ hm hok
  refine ⟨⟨a, []⟩ :: past, [], .commit (hist.begin hkind) (hmeets t ⟨a, []⟩ hm) ?_⟩
  show (t.apply a).map _ = _
  rw [show t.apply a = .ok b from hok]
  rfl

/-! ## Interleavings -/

/-- A cancelling move extends the paths exactly if it is still allowed to cancel. -/
theorem finishCancel_logged_iff {position : Nat} {now : Int} {s s' : Session}
    (hl : Logged s.db) (h : (Move.finishCancel position now).apply s = .ok s') :
    Logged s'.db ↔ (Move.finishCancel position now).StillCancellable s := by
  rcases Move.finishCancel_eq_ok h with ⟨hread, rfl⟩ | ⟨read, db, hread, hwrite, rfl⟩
  · refine ⟨fun _ read hr => ?_, fun _ => hl⟩
    rw [hread] at hr
    cases hr
  · refine (cancelWrite_logged_iff hl hwrite).trans ⟨fun hall r hr i hi => ?_, fun hall i hi => ?_⟩
    · rw [hread] at hr
      cases hr
      exact hall i hi
    · exact hall read hread i hi

/-- One move of any writer. -/
theorem Move.logged {m : Move} {s s' : Session} (hm : m.TwoStep) (hmeets : m.StillCancellable s)
    (hl : Logged s.db) (h : m.apply s = .ok s') : Logged s'.db := by
  cases m with
  | atomic t =>
    obtain ⟨db, ht, rfl⟩ := Move.atomic_eq_ok h
    refine (Transaction.effects ht).logged ?_ hl
    cases t with
    | cancelWrite => exact hm.elim
    | confirmTransfer => rintro (hr | hr) <;> cases hr
    | _ => exact Right.noConfusion
  | beginCancel merchantId invoiceId now =>
    obtain ⟨db, read, hload, -, rfl⟩ := Move.beginCancel_eq_ok h
    have heffects : Effects (Eq .expire) s.db db := (loadAndMaybeExpire_eq_ok rfl hload).1
    exact heffects.logged Right.noConfusion hl
  | finishCancel position now => exact (finishCancel_logged_iff hl h).2 hmeets

/-- No edge leads from a payment in progress, or done, to CANCELLED or EXPIRED. -/
theorem paying_kept {stored written : InvoiceStatus} {writer : TransitionActor}
    (hpaying : stored ∈ [InvoiceStatus.detected, .confirming, .paid, .overpaid])
    (hallowed : isActorAllowed stored written writer = true) :
    written ≠ .cancelled ∧ written ≠ .expired := by
  constructor
  · rintro rfl
    revert hpaying hallowed
    cases stored <;> cases writer <;> decide
  · rintro rfl
    revert hpaying hallowed
    cases stored <;> cases writer <;> decide

/-- **Status writes are safe**: see the head of this module. -/
theorem status_writes_safe {s : Session}
    (h : interleaved.Reachable Move.TwoStep Move.StillCancellable Session.empty s) :
    (∀ i ∈ s.db.invoices, Db.StatusPath i.id .pending (writesOf s.db i.id) i.status) ∧
    ∀ w ∈ s.db.statusWrites, isActorAllowed w.stored w.written w.writer = true ∧
      (w.stored ∈ [InvoiceStatus.detected, .confirming, .paid, .overpaid] →
        w.written ≠ .cancelled ∧ w.written ≠ .expired) := by
  have hkind : ∀ op (s : Session), Move.TwoStep op → ∀ t,
      Except.ok t ∈ interleaved.script op s → Move.TwoStep t := by
    intro op s hop t ht
    cases List.mem_singleton.1 ht
    exact hop
  have hstep : ∀ m (a b : Session), Move.TwoStep m → Logged a.db → Move.StillCancellable m a →
      interleaved.apply m a = .ok b → Logged b.db :=
    fun m a b hm ha hmeets hok => Move.logged hm hmeets ha hok
  have hl : Logged s.db := h.invariant hkind logged_empty hstep
  exact ⟨hl.path, fun w hw => ⟨hl.allowed hw, fun hpaying => paying_kept hpaying (hl.allowed hw)⟩⟩

/-! ## Two shops -/

namespace Shop

def begun : List Move := [
  .atomic (.registerMerchant merchant),
  .atomic (.registerAddress "shop" ⟨.ethereum, "0xpay"⟩ "0xPay" none 0),
  .atomic (.createInvoice ⟨"i", "shop", "o", .ethereum, "USDT", 100000000, 3600⟩ 0),
  .beginCancel "shop" "i" 500]

/-- A cancellation that nothing comes between. -/
def cancelled : List Move := begun ++ [.finishCancel 0 500]

/-- What the monitor reads of the payment once it has been recorded. -/
def recorded : List TokenTransfer := pendingTransfers (after (payment.take 1)) .ethereum

/-- A cancellation that the whole payment comes between. -/
def overtaken : List Move := begun ++
  [.atomic (.recordTransfers .ethereum (mined "a" 100 1) [usdtTransfer 5 100000000] 0 1000)] ++
  recorded.map (fun t => .atomic (.confirmTransfer t ⟨12, some 100, 111⟩ 2000)) ++
  [.finishCancel 0 3000]

def session (moves : List Move) : Session :=
  (interleaved.log moves [Session.empty]).headD Session.empty

end Shop

/-- The pending invoice is cancelled by a write that its merchant may make. -/
theorem status_writes_safe_shop :
    Shop.status (Shop.session Shop.cancelled).db = some .cancelled ∧
    ∀ w ∈ (Shop.session Shop.cancelled).db.statusWrites,
      isActorAllowed w.stored w.written w.writer = true := by
  have hmoves : ∀ m ∈ Shop.cancelled, m.TwoStep := by decide
  have hmeets : interleaved.AllMeet Move.StillCancellable Shop.cancelled Session.empty := by
    decide +kernel
  have hreach : interleaved.Reachable Move.TwoStep Move.StillCancellable Session.empty
    (Shop.session Shop.cancelled) := Machine.reachable_log hmoves hmeets
  exact ⟨by decide +kernel, fun w hw => ((status_writes_safe hreach).2 w hw).1⟩

/-- **A paid invoice is overwritten with CANCELLED**: the cancellation was asserted on PENDING, and
the payment was detected, confirmed and credited before it wrote. -/
theorem cancelled_over_paid :
    interleaved.Reachable Move.TwoStep (fun _ _ => True) Session.empty
      (Shop.session Shop.overtaken) ∧
    Shop.status (Shop.session Shop.overtaken).db = some .cancelled ∧
    (Shop.session Shop.overtaken).db.ledgerTransactions.rows.length = 1 ∧
    ⟨"i", .paid, .cancelled, .merchant⟩ ∈ (Shop.session Shop.overtaken).db.statusWrites ∧
    isActorAllowed .paid .cancelled .merchant = false := by
  have hmoves : ∀ m ∈ Shop.overtaken, m.TwoStep := by decide +kernel
  have hreach : interleaved.Reachable Move.TwoStep (fun _ _ => True) Session.empty
    (Shop.session Shop.overtaken) := Machine.reachable_log hmoves (Machine.allMeet_true _ _)
  exact ⟨hreach, by decide +kernel, by decide +kernel, by decide +kernel, by decide⟩

end PaymentGateway
