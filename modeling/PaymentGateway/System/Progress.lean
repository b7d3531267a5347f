import PaymentGateway.Monitor.Recording
import PaymentGateway.System.Trace

/-!
# Transactions that go through

A service counts the events of an invoice and appends one under the next number. Should that
number be taken, the whole transaction is lost, so what a service is able to do depends on the
numbers. They never have a gap: in every state of every run, whoever acts, the events of each
invoice are numbered 1, 2, … (`numbered`), and the next number is free (`Numbered.free`).

It follows that a status change which the state machine allows goes through
(`applyTransition_isOk`), and that recording a transaction is stopped by one thing only: a
transfer whose row the CHECK constraints refuse (`recordTransfers_isOk_iff`). A credited transfer
is not written again, so its amount and index are not looked at.
-/

namespace PaymentGateway

open Keyed Fallible Transactional MonitorService

variable {may : Right → Prop} {db db' : Db}

/-! ## Numbers without gaps -/

/-- The events of each invoice are numbered from 1 without gaps, and none precedes its invoice. -/
structure Numbered (db : Db) : Prop where
  known : ∀ id, db.invoices.find? id = none → eventsOf db.events id = []
  sequences : ∀ id, (eventsOf db.events id).map (·.sequence) =
    List.range' 1 (eventsOf db.events id).length

theorem numbered_empty : Numbered Db.empty := ⟨fun _ _ => rfl, fun _ => rfl⟩

/-- Nothing but the events and the ids of the invoices matters. -/
theorem Numbered.congr (h : Numbered db)
    (hinvoices : ∀ id, db'.invoices.find? id = none → db.invoices.find? id = none)
    (hevents : db'.events = db.events) : Numbered db' := by
  refine ⟨fun id hid => ?_, fun id => ?_⟩
  · rw [hevents]
    exact h.known id (hinvoices id hid)
  · rw [hevents]
    exact h.sequences id

/-- The number an invoice's next event gets is free. -/
theorem Numbered.free (h : Numbered db) (id : String) :
    db.events.find? (id, db.countEvents id + 1) = none := by
  rw [Table.find?_eq_none]
  intro e he hkey
  obtain ⟨hid, hseq⟩ := Prod.mk.inj hkey
  have hmem : e ∈ eventsOf db.events id := List.mem_filter.2 ⟨he, decide_eq_true hid⟩
  have hrange : e.sequence ∈ List.range' 1 (eventsOf db.events id).length := by
    rw [← h.sequences id]
    exact List.mem_map_of_mem hmem
  have hcount : db.countEvents id = (eventsOf db.events id).length := rfl
  rw [List.mem_range'_1] at hrange
  omega

theorem sequences_append {events : List PaymentEvent} {e : PaymentEvent}
    (h : events.map (·.sequence) = List.range' 1 events.length)
    (hseq : e.sequence = events.length + 1) :
    (events ++ [e]).map (·.sequence) = List.range' 1 (events ++ [e]).length := by
  rw [List.map_append, h, List.length_append, List.length_singleton, List.range'_concat,
    List.map_singleton, hseq]
  simp [Nat.add_comm]

/-- A reported write keeps the numbering. -/
theorem Numbered.report (h : Numbered db) {w : StatusWrite} {name : String} {events : Db.Events}
    (hreported : Db.Reported db.events w name events)
    (hknown : (db.invoices.find? w.invoiceId).isSome = true) :
    Numbered { db with events } := by
  obtain ⟨e, hfree, hid, hseq, -, -, -, rfl⟩ := hreported
  refine ⟨fun id hnone => ?_, fun id => ?_⟩
  · have hne : e.invoiceId ≠ id := by
      intro heq
      have hnone' : db.invoices.find? id = none := hnone
      rw [← hid, heq, hnone'] at hknown
      cases hknown
    rw [eventsOf_insert, if_neg hne]
    exact h.known id hnone
  · rw [eventsOf_insert]
    split_ifs with heq
    · subst heq
      rw [← hid] at hseq
      exact sequences_append (h.sequences _) hseq
    · exact h.sequences id

theorem Announced.numbered {ev ev' : Db.Events} {wh wh' : Db.Webhooks} {ws : List StatusWrite}
    {name : String} (h : Db.Announced name ev wh ws ev' wh')
    (hknown : ∀ w ∈ ws, (db.invoices.find? w.invoiceId).isSome = true)
    (hn : Numbered { db with events := ev }) : Numbered { db with events := ev' } := by
  induction h with
  | nil ev wh => exact hn
  | cons hreported _ _ ih =>
    refine ih (fun w hw => hknown w (List.mem_cons_of_mem _ hw)) ?_
    exact hn.report hreported (hknown _ List.mem_cons_self)

theorem Numbered.modify (h : Numbered db) {k : String} {f : Invoice → Invoice}
    (hf : ∀ r, (f r).id = r.id) (hinvoices : db'.invoices = db.invoices.modify k f hf)
    (hevents : db'.events = db.events) : Numbered db' := by
  refine h.congr (fun id hid => ?_) hevents
  rw [hinvoices, Table.find?_modify_eq_none] at hid
  exact hid

theorem Numbered.withStatus {stored : Invoice} {target : InvoiceStatus}
    {writer : TransitionActor} {data : InvoiceData} {events : Db.Events} {webhooks : Db.Webhooks}
    (h : Numbered { db with events }) :
    Numbered (db.withStatus stored target writer data events webhooks) :=
  h.modify (fun r => r.id_update _) rfl rfl

/-- The write of a found invoice, reported on its own or with a webhook. -/
theorem Numbered.reported (h : Numbered db) {invoice : Invoice} {source target : InvoiceStatus}
    {writer : TransitionActor} {name : String} {events : Db.Events}
    (hfind : db.invoices.find? invoice.id = some invoice)
    (hreported : Db.Reported db.events ⟨invoice.id, source, target, writer⟩ name events) :
    Numbered { db with events } := by
  refine h.report hreported ?_
  rw [hfind]
  rfl

/-- The first two events of an invoice are the first two numbers. -/
theorem Opened.numbered {events : Db.Events} {id : String} (h : Opened db.events id events)
    (hn : Numbered db) (hfree : db.invoices.find? id = none) (other : String) :
    (eventsOf events other).map (·.sequence) = List.range' 1 (eventsOf events other).length := by
  by_cases hne : id = other
  · subst hne
    exact (Opened.trace h (hn.known id hfree)).sequences
  · rw [Opened.other h hne]
    exact hn.sequences other

/-- **Every effect keeps the numbering.** -/
theorem Effect.numbered (h : Effect may db db') (hn : Numbered db) : Numbered db' := by
  cases h with
  | record _ _ _ _ =>
    obtain ⟨transfers, hupsert⟩ := Db.upsertTransfer_eq db _
    rw [hupsert]
    exact hn.congr (fun _ h => h) rfl
  | recordMove _ _ _ hinvoice _ _ _ h =>
    obtain ⟨transfers, hupsert⟩ := Db.upsertTransfer_eq db _
    rw [hupsert]
    have hrows : Numbered { db with transfers } := hn.congr (fun _ h => h) rfl
    exact (hrows.reported (find?_of_invoice hinvoice).1 (Announced.reported h)).withStatus
  | confirming _ hfind _ h => exact (hn.reported hfind (Announced.reported h)).withStatus
  | settle _ hsettle _ _ h =>
    exact (hn.reported hsettle.invoice_found (Announced.reported h)).withStatus
  | @accept _ invoice _ _ _ haccept =>
    obtain ⟨now, db1, hpaid, hcredits⟩ := haccept.credits
    obtain ⟨f, hf, writes, events, webhooks, _, _, _, -, ⟨hpath, hannounced, -⟩, rfl⟩ :=
      accept_frame hpaid hcredits
    have hevents : Numbered { db with events } := by
      refine Announced.numbered hannounced (fun w hw => ?_) hn
      rw [(hpath.mem w hw).1, haccept.settleable.invoice_found]
      rfl
    exact hevents.modify hf rfl rfl
  | revert _ hfind _ _ hreported _ => exact (hn.reported hfind hreported).withStatus
  | flag _ _ _ _ hfind _ h =>
    exact (hn.reported hfind (Announced.reported h)).modify (fun r => r.id_update _) rfl rfl
  | expire _ hfind _ _ h =>
    obtain ⟨name, -, h⟩ := h
    exact (hn.reported hfind (Announced.reported h)).withStatus
  | @create _ invoice _ _ _ _ _ hfree _ _ _ _ hopened _ =>
    refine ⟨fun id hid => ?_, Opened.numbered hopened hn hfree⟩
    have hid' : (db.invoices.insert invoice hfree).find? id = none := hid
    rw [Table.find?_insert] at hid'
    split_ifs at hid' with hne
    rw [Opened.other hopened hne]
    exact hn.known id hid'
  | cancel _ hfind _ _ h =>
    obtain ⟨name, source, h⟩ := h
    exact (hn.reported hfind (Announced.reported h)).modify (fun r => r.id_update _) rfl rfl
  | edge _ hfind _ _ hreported _ => exact (hn.reported hfind hreported).withStatus
  | _ => exact hn.congr (fun _ h => h) rfl

theorem Effects.numbered (h : Effects may db db') (hn : Numbered db) : Numbered db' :=
  h.invariant Numbered hn fun _ _ ha hab => hab.numbered ha

/-- **The events are numbered without gaps**, in every state of every run. -/
theorem numbered {allowed : Operation → Prop} {meets : Transaction → Db → Prop}
    (h : gateway.Reachable allowed meets Db.empty db) : Numbered db := by
  have hkind : ∀ op db, allowed op → ∀ t, Except.ok t ∈ gateway.script op db → True :=
    fun _ _ _ _ _ => trivial
  exact Effects.run_invariant Numbered h hkind numbered_empty fun _ _ _ _ ha hab => hab.numbered ha

/-! ## Status changes -/

theorem recordEvent_isOk (h : Numbered db) (id type : String) (source target : InvoiceStatus)
    (actor : String) (payload : List (String × String)) :
    ∃ db', db.recordEvent id type source target actor payload = .ok db' := by
  unfold Db.recordEvent Db.createEvent
  split
  · next row hrow =>
    have hfree := h.free id
    have hfound : db.events.find? (id, db.countEvents id + 1) = some row := hrow
    rw [hfree] at hfound
    cases hfound
  · exact ⟨_, rfl⟩

variable {id : String} {invoice : Invoice} {source target : InvoiceStatus}
  {writer : TransitionActor} {data : InvoiceData}

theorem updateInvoice_isOk (hfind : db.invoices.find? id = some invoice) :
    ∃ db', db.updateInvoice id writer data = .ok db' := by
  unfold Db.updateInvoice
  rw [hfind]
  exact ⟨_, rfl⟩

/-- A change that the state machine allows goes through. -/
theorem applyTransition_isOk (h : Numbered db)
    (hfind : db.invoices.find? invoice.id = some invoice)
    (hallowed : isActorAllowed invoice.status target writer = true) (data : InvoiceData)
    (event : Db.EventData) :
    ∃ events, db.applyTransition invoice.id invoice.status target writer data event =
      .ok (db.withStatus invoice target writer data events db.webhookEvents) := by
  have hok : ∃ db', db.applyTransition invoice.id invoice.status target writer data event =
      .ok db' := by
    obtain ⟨rule, hrule⟩ := assertTransition_isOk.2 hallowed
    obtain ⟨db1, hupdate⟩ := @updateInvoice_isOk db invoice.id invoice writer
      { data with status := some target } hfind
    obtain ⟨stored, -, rfl⟩ := Db.updateInvoice_eq_ok.1 hupdate
    unfold Db.applyTransition Db.writeStatus
    rw [hrule, bind_ok, hupdate, bind_ok]
    refine recordEvent_isOk ?_ _ _ _ _ _ _
    exact h.modify (fun r => r.id_update _) rfl rfl
  obtain ⟨db', hok⟩ := hok
  obtain ⟨-, stored, events, hstored, -, rfl⟩ := Db.applyTransition_eq_ok hok
  obtain rfl : stored = invoice := Option.some.inj (hstored.symm.trans hfind)
  exact ⟨events, hok⟩

theorem emitWebhook_isOk (hfind : db.invoices.find? id = some invoice) (status : InvoiceStatus) :
    ∃ db', db.emitWebhook id status = .ok db' := by
  unfold Db.emitWebhook
  cases webhookEventForStatus status with
  | none => exact ⟨db, rfl⟩
  | some type =>
    dsimp only
    rw [Db.findInvoice_eq_ok.2 hfind, bind_ok]
    exact ⟨_, rfl⟩

/-- The monitor's moves go through, when each edge they look for is the monitor's. -/
theorem moveInvoice_isOk (h : Numbered db) (hfind : db.invoices.find? invoice.id = some invoice)
    (htarget : canTransition invoice.status target = true →
      isActorAllowed invoice.status target .monitor = true) (eventType : String) (notify : Bool) :
    ∃ db', moveInvoice db invoice target data eventType notify = .ok db' := by
  unfold moveInvoice
  by_cases hedge : canTransition invoice.status target = true
  · obtain ⟨events, hmove⟩ := applyTransition_isOk h hfind (htarget hedge)
      { data with bumpVersion := true } ⟨eventType, "monitor", []⟩
    rw [hedge, Bool.not_true, if_neg Bool.false_ne_true, hmove, bind_ok]
    cases notify with
    | false => exact ⟨_, rfl⟩
    | true => exact emitWebhook_isOk (Db.find?_withStatus_self hfind) _
  · rw [Bool.not_eq_true] at hedge
    rw [hedge, Bool.not_false, if_pos rfl]
    exact ⟨db, rfl⟩

/-! ## Recording -/

/-- What the CHECK constraints ask of a transfer. -/
def ValidTransfer (t : ParsedTransfer) : Prop := 0 < t.amount ∧ -1 ≤ t.transferIndex

instance (t : ParsedTransfer) : Decidable (ValidTransfer t) := instDecidableAnd

/-- A transfer that needs no writing, or can be written. -/
def Recordable (db : Db) (s : Sighting) : Prop :=
  ((db.transfers.find? s.key).bind (·.creditedAt)).isSome = true ∨ ValidTransfer s.transfer

theorem MonitorService.Alike.recordable {x : Db} (h : Alike db x) (s : Sighting) :
    Recordable x s ↔ Recordable db s := by
  unfold Recordable
  rw [h.credited]

theorem row_isOk {s : Sighting} (h : ValidTransfer s.transfer) (db : Db) :
    ∃ row, s.row db = .ok row := by
  unfold Sighting.row
  split_ifs with hvalid
  · exact ⟨_, rfl⟩
  · exact absurd h hvalid

theorem valid_of_row {s : Sighting} {row : TokenTransfer} (h : s.row db = .ok row) :
    ValidTransfer s.transfer := by
  unfold Sighting.row at h
  split_ifs at h with hvalid
  exact hvalid

/-- Whatever state an invoice is in, a sighting of a valid transfer goes through. -/
theorem recordTransfer_isOk_iff (h : Numbered db) (s : Sighting) :
    (∃ db', recordTransfer db s = .ok db') ↔ Recordable db s := by
  constructor
  · rintro ⟨db', hok⟩
    rcases recordTransfer_eq_ok hok with ⟨hcredited, -⟩ | ⟨-, row, hrow, -⟩
    · exact .inl hcredited
    · exact .inr (valid_of_row hrow)
  · intro hrecordable
    unfold recordTransfer
    by_cases hcredited : ((db.transfers.find? s.key).bind (·.creditedAt)).isSome = true
    · rw [if_pos hcredited]
      exact ⟨db, rfl⟩
    · obtain ⟨row, hrow⟩ := row_isOk (hrecordable.resolve_left hcredited) db
      rw [if_neg hcredited, hrow, bind_ok]
      cases hinvoice : s.invoice db with
      | none => exact ⟨_, rfl⟩
      | some invoice =>
        obtain ⟨transfers, hupsert⟩ := Db.upsertTransfer_eq db row
        have hrows : Numbered (db.upsertTransfer row) := by
          rw [hupsert]
          exact h.congr (fun _ h => h) rfl
        have hfind : (db.upsertTransfer row).invoices.find? invoice.id = some invoice := by
          rw [hupsert]
          exact (find?_of_invoice hinvoice).1
        dsimp only
        cases (s.decision db).status with
        | pendingConfirmation =>
          exact moveInvoice_isOk hrows hfind (canTransition_monitor (.inl rfl)) _ _
        | latePaymentReview =>
          exact moveInvoice_isOk hrows hfind (canTransition_monitor (.inr (.inl rfl))) _ _
        | _ => exact ⟨_, rfl⟩

theorem recordTransfer_numbered {s : Sighting} (h : Numbered db)
    (hok : recordTransfer db s = .ok db') : Numbered db' := by
  have heffects : Effects (Eq Right.record) db db' := recordTransfer_effects rfl hok
  exact heffects.numbered h

/-- **What stops a transaction from being recorded**: a transfer that is not credited yet and
that the CHECK constraints refuse. -/
theorem recordTransfers_isOk_iff (h : Numbered db) (network : Network) (chainTx : ChainTransaction)
    (transfers : List ParsedTransfer) (graceSeconds : Nat) (now : Int) :
    (∃ db', recordTransfers network chainTx transfers graceSeconds now db = .ok db') ↔
      ∀ t ∈ transfers, Recordable db (sighting network chainTx graceSeconds now t) := by
  obtain ⟨chainTxs, hchain⟩ := recordChainTransaction_eq db network chainTx now
  unfold recordTransfers
  rw [hchain]
  refine foldlM_isOk_iff (fun x => Numbered x ∧ Alike db x) ?_ ?_ ?_
  · exact ⟨h.congr (fun _ h => h) rfl, rfl, fun _ => rfl, fun _ => rfl⟩
  · rintro x t y ⟨hx, ha⟩ hok
    exact ⟨recordTransfer_numbered hx hok, ha.trans (alike_recordTransfer hok)⟩
  · rintro x t ⟨hx, ha⟩
    exact (recordTransfer_isOk_iff hx _).trans (ha.recordable _)

end PaymentGateway
