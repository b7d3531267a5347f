import PaymentGateway.Database.Client

/-!
# Status writes

The shape every status change of the services has: write the status of an invoice, then append
the event that reports it. `applyTransition` asks the state machine first. A write without that
question is `writeStatus` alone; `cancelInvoice` is the one service that does this, having asked
before its transaction began.
-/

namespace PaymentGateway

open Keyed Fallible

namespace Db

/-- What an event says about a status change. -/
structure EventData where
  type : String
  actor : String
  payload : List (String × String) := []
  deriving DecidableEq, Repr

/-- Write a status and record the event. `source` is the status the event reports as left. -/
def writeStatus (db : Db) (id : String) (source target : InvoiceStatus)
    (writer : TransitionActor) (data : InvoiceData) (event : EventData) : Except Error Db := do
  let db ← db.updateInvoice id writer { data with status := some target }
  db.recordEvent id event.type source target event.actor event.payload

/-- Ask the state machine, then write. -/
def applyTransition (db : Db) (id : String) (source target : InvoiceStatus)
    (writer : TransitionActor) (data : InvoiceData) (event : EventData) : Except Error Db := do
  let _ ← assertTransition source target writer
  db.writeStatus id source target writer data event

/-- The database with the status of one invoice written: its row, the log, and whatever the
event and webhook tables then hold. -/
def withStatus (db : Db) (stored : Invoice) (target : InvoiceStatus) (writer : TransitionActor)
    (data : InvoiceData) (events : Table PaymentEvent fun e => (e.invoiceId, e.sequence))
    (webhooks : Table WebhookEvent (·.idempotencyKey)) : Db :=
  { db with
    invoices := db.invoices.modify stored.id (·.update { data with status := some target })
      fun r => r.id_update _
    statusWrites := db.statusWrites ++ [⟨stored.id, stored.status, target, writer⟩]
    events := events
    webhookEvents := webhooks }

variable {db db' : Db} {id : String} {source target : InvoiceStatus} {writer : TransitionActor}
  {data : InvoiceData} {event : EventData}

theorem writeStatus_eq_ok (h : db.writeStatus id source target writer data event = .ok db') :
    ∃ stored events, db.invoices.find? id = some stored ∧
      Reported db.events ⟨stored.id, source, target, writer⟩ event.actor events ∧
      db' = db.withStatus stored target writer data events db.webhookEvents := by
  obtain ⟨db1, h1, h2⟩ := bind_eq_ok.1 h
  obtain ⟨stored, hfind, rfl⟩ := updateInvoice_eq_ok.1 h1
  obtain ⟨events, hreported, rfl⟩ := recordEvent_eq_ok writer h2
  have hid : stored.id = id := Table.key_of_find? hfind
  subst hid
  exact ⟨stored, events, hfind, hreported, rfl⟩

theorem applyTransition_eq_ok
    (h : db.applyTransition id source target writer data event = .ok db') :
    isActorAllowed source target writer = true ∧ ∃ stored events,
      db.invoices.find? id = some stored ∧
      Reported db.events ⟨stored.id, source, target, writer⟩ event.actor events ∧
      db' = db.withStatus stored target writer data events db.webhookEvents := by
  obtain ⟨rule, hrule, hwrite⟩ := bind_eq_ok.1 h
  exact ⟨isActorAllowed_of_ok hrule, writeStatus_eq_ok hwrite⟩

/-- The webhook that may follow a status write is part of the same shape. -/
theorem emitWebhook_withStatus {stored : Invoice} {events : Events} {webhooks : Webhooks}
    {status : InvoiceStatus}
    (h : (db.withStatus stored target writer data events webhooks).emitWebhook id status =
      .ok db') :
    ∃ webhooks', Emitted webhooks id (webhookEventForStatus status) webhooks' ∧
      db' = db.withStatus stored target writer data events webhooks' := by
  obtain ⟨webhooks', hemitted, rfl⟩ := emitWebhook_eq_ok h
  exact ⟨webhooks', hemitted, rfl⟩

theorem find?_withStatus {stored : Invoice}
    {events : Table PaymentEvent fun e => (e.invoiceId, e.sequence)}
    {webhooks : Table WebhookEvent (·.idempotencyKey)} (id : String) :
    (db.withStatus stored target writer data events webhooks).invoices.find? id =
      (db.invoices.find? id).map fun r =>
        if id = stored.id then r.update { data with status := some target } else r := by
  simp only [withStatus, Table.find?_modify]

theorem find?_withStatus_self {stored : Invoice}
    {events : Table PaymentEvent fun e => (e.invoiceId, e.sequence)}
    {webhooks : Table WebhookEvent (·.idempotencyKey)}
    (h : db.invoices.find? stored.id = some stored) :
    (db.withStatus stored target writer data events webhooks).invoices.find? stored.id =
      some (stored.update { data with status := some target }) := by
  rw [find?_withStatus, h, Option.map_some, if_pos rfl]

theorem find?_withStatus_ne {stored : Invoice}
    {events : Table PaymentEvent fun e => (e.invoiceId, e.sequence)}
    {webhooks : Table WebhookEvent (·.idempotencyKey)} (h : id ≠ stored.id) :
    (db.withStatus stored target writer data events webhooks).invoices.find? id =
      db.invoices.find? id := by
  simp only [withStatus, Table.find?_modify_ne h]

theorem find?_withStatus_isSome {stored : Invoice} {events : Events} {webhooks : Webhooks}
    (id : String) :
    ((db.withStatus stored target writer data events webhooks).invoices.find? id).isSome =
      (db.invoices.find? id).isSome := by
  rw [find?_withStatus, Option.isSome_map]

/-! ## Paths of status writes -/

/-- Writes of one invoice that lead from one status to another: each from the status that is
stored when it happens, by a writer the table allows. -/
inductive StatusPath (id : String) : InvoiceStatus → List StatusWrite → InvoiceStatus → Prop
  | nil (s : InvoiceStatus) : StatusPath id s [] s
  | cons {w : StatusWrite} {ws : List StatusWrite} {s : InvoiceStatus} (hid : w.invoiceId = id)
      (hallowed : isActorAllowed w.stored w.written w.writer = true)
      (h : StatusPath id w.written ws s) : StatusPath id w.stored (w :: ws) s

theorem StatusPath.single {s : InvoiceStatus} (id : String)
    (hallowed : isActorAllowed s target writer = true) :
    StatusPath id s [⟨id, s, target, writer⟩] target :=
  @StatusPath.cons id ⟨id, s, target, writer⟩ [] target rfl hallowed (.nil _)

theorem StatusPath.append {a b c : InvoiceStatus} {ws ws' : List StatusWrite}
    (h : StatusPath id a ws b) (h' : StatusPath id b ws' c) : StatusPath id a (ws ++ ws') c := by
  induction h with
  | nil => exact h'
  | cons hid hallowed _ ih => exact .cons hid hallowed (ih h')

theorem StatusPath.mem {a b : InvoiceStatus} {ws : List StatusWrite} (h : StatusPath id a ws b) :
    ∀ w ∈ ws, w.invoiceId = id ∧ isActorAllowed w.stored w.written w.writer = true := by
  induction h with
  | nil => exact fun w hw => absurd hw List.not_mem_nil
  | cons hid hallowed _ ih =>
    intro w hw
    rcases List.mem_cons.1 hw with rfl | hw
    · exact ⟨hid, hallowed⟩
    · exact ih w hw

/-! ## Failures -/

theorem findInvoice_plain (db : Db) (id : String) : Plain (db.findInvoice id) := by
  unfold findInvoice
  split
  · exact avoids_ok _
  · exact avoids_error not_false

theorem findMerchant_plain (db : Db) (id : String) : Plain (db.findMerchant id) := by
  unfold findMerchant
  split
  · exact avoids_ok _
  · exact avoids_error not_false

theorem updateInvoice_plain (db : Db) (id : String) (writer : TransitionActor)
    (data : InvoiceData) : Plain (db.updateInvoice id writer data) := by
  unfold updateInvoice
  split
  · exact avoids_error not_false
  · exact avoids_ok _

theorem createInvoice_plain (db : Db) (invoice : Invoice) : Plain (db.createInvoice invoice) := by
  have hmodel : ¬ (Error.uniqueViolation "Invoice").OfHistory := by
    show ¬ "Invoice" = "WebhookEvent"
    decide
  unfold createInvoice
  split
  · exact avoids_error hmodel
  · split_ifs
    · exact avoids_error hmodel
    · exact avoids_ok _

theorem createEvent_plain (db : Db) (row : PaymentEvent) : Plain (db.createEvent row) := by
  unfold createEvent
  split
  · refine avoids_error ?_
    show ¬ "PaymentEvent" = "WebhookEvent"
    decide
  · exact avoids_ok _

/-- Notices go out by upsert, so they never clash. -/
theorem emitWebhook_plain (db : Db) (id : String) (status : InvoiceStatus) :
    Plain (db.emitWebhook id status) := by
  unfold emitWebhook
  split
  · exact avoids_ok _
  · exact (findInvoice_plain db id).bind fun _ _ => avoids_ok _

theorem writeStatus_plain (db : Db) :
    Plain (db.writeStatus id source target writer data event) := by
  apply Avoids.bind (updateInvoice_plain _ _ _ _)
  exact fun db1 _ => createEvent_plain _ _

theorem assertTransition_unclashing (source target : InvoiceStatus) (writer : TransitionActor) :
    Unclashing (assertTransition source target writer) := by
  intro e he hclash
  cases hclash
  exact assertTransition_error he

theorem applyTransition_unclashing (db : Db) :
    Unclashing (db.applyTransition id source target writer data event) := by
  apply Avoids.bind (assertTransition_unclashing _ _ _)
  exact fun rule _ => (writeStatus_plain db).unclashing

/-- A status change of an allowed writer is not rejected. -/
theorem applyTransition_unrejected (h : isActorAllowed source target writer = true) :
    Unrejected (db.applyTransition id source target writer data event) := by
  obtain ⟨rule, hrule⟩ := assertTransition_isOk.2 h
  unfold applyTransition
  rw [hrule, bind_ok]
  exact (writeStatus_plain db).unrejected

/-- One of any other writer is. -/
theorem applyTransition_rejected (h : isActorAllowed source target writer = false) :
    ∃ e, db.applyTransition id source target writer data event = .error e ∧
      e.IsInvalidTransition := by
  obtain ⟨e, hgate, he⟩ := assertTransition_not_ok h
  refine ⟨e, ?_, he⟩
  unfold applyTransition
  rw [hgate]
  rfl

end Db

end PaymentGateway
