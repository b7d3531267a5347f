import PaymentGateway.Webhooks.Retries

/-!
# Progress of the fan-out

`enqueueNewDeliveries` asks for one batch of the events without deliveries whose merchant has an
enabled endpoint, oldest first. An event that none of these endpoints is subscribed to gets no
delivery, so it is in the answer again the next time.

**Theorem (`fansOut_iff`).** One call whose statements are answered makes progress, in the sense that
some event with a subscriber gets a delivery if any has none yet, exactly when there is no such event
or one is in the first batch. A batch of events that nobody subscribes to stops all others
(`events_starved`).

As for retries, what the loop has done and what is left of the batch together stay the same
(`WillFan`).
-/

namespace PaymentGateway

namespace Webhooks

open Program Keyed Concurrent

/-- Events without deliveries whose merchant has an enabled endpoint, as they are answered. -/
def unfannedEvents (m : Moment) (s : Shared) : List WebhookEvent :=
  (m.events.order (s.events.rows.filter fun event =>
    (∀ row ∈ s.deliveries.rows, row.webhookEventId ≠ event.id) ∧
      ∃ endpoint ∈ s.endpoints.rows, endpoint.merchantId = event.merchantId ∧
        endpoint.enabled)).insertionSort fun event event' => event.createdAt ≤ event'.createdAt

theorem perform_findUnfannedEvents (s : Shared) (m : Moment) (take : Nat) :
    perform s m (.findUnfannedEvents take) = (.ok ((unfannedEvents m s).take take), s) := rfl

theorem mem_unfannedEvents {m : Moment} {s : Shared} {event : WebhookEvent} :
    event ∈ unfannedEvents m s ↔ event ∈ s.events ∧
      (∀ row ∈ s.deliveries.rows, row.webhookEventId ≠ event.id) ∧
        ∃ endpoint ∈ s.endpoints.rows, endpoint.merchantId = event.merchantId ∧
          endpoint.enabled := by
  simp [unfannedEvents, List.mem_insertionSort, Arrangement.mem_order, Table.mem_def]

/-- Some delivery of the event is there. -/
def Delivered (s : Shared) (webhookEventId : String) : Prop :=
  ∃ row ∈ s.deliveries.rows, row.webhookEventId = webhookEventId
  deriving Decidable

/-- An enabled endpoint of the event's merchant is subscribed to its type. -/
def HasSubscriber (s : Shared) (event : WebhookEvent) : Prop :=
  ∃ endpoint ∈ s.endpoints.rows, endpoint.merchantId = event.merchantId ∧ endpoint.enabled ∧
    subscribed event endpoint
  deriving Decidable

/-- An event that waits to be fanned out. -/
def Unfanned (s : Shared) (event : WebhookEvent) : Prop :=
  event ∈ s.events.rows ∧ ¬Delivered s event.id ∧ HasSubscriber s event
  deriving Decidable

/-! ## The loops -/

theorem delivered_upsert (s : Shared) (m : Moment) (id : DeliveryId) (url : String) (now : Int)
    (webhookEventId : String) :
    Delivered (perform s m (.upsertDelivery id url now)).2 webhookEventId ↔
      Delivered s webhookEventId ∨ webhookEventId = id.webhookEventId := by
  simp only [perform]
  split
  · rename_i row hrow
    refine ⟨.inl, fun h => h.elim (fun h => h) ?_⟩
    rintro rfl
    exact ⟨row, Table.mem_of_find? hrow, by rw [Table.key_of_find? hrow]⟩
  · simp only [Delivered, Shared.insertDelivery, Table.rows_insert, List.mem_append,
      List.mem_singleton, or_and_right, exists_or, exists_eq_left, newDelivery, eq_comm]

/-- The event has a delivery, or is going to have one when the rest has been fanned out. -/
def WillFan (s : Shared) (rest : List WebhookEvent) (webhookEventId : String) : Prop :=
  Delivered s webhookEventId ∨ ∃ event ∈ rest, event.id = webhookEventId ∧ HasSubscriber s event

/-- What the outer loop keeps. -/
structure Fanning (s₀ : Shared) (batch rest : List WebhookEvent) (s : Shared) : Prop where
  endpoints : s.endpoints = s₀.endpoints
  events : ∀ id, WillFan s rest id ↔ WillFan s₀ batch id

/-- What the inner loop keeps, with some endpoints of the first event left. -/
structure FanningOne (s₀ : Shared) (batch rest : List WebhookEvent) (event : WebhookEvent)
    (left : List WebhookEndpoint) (s : Shared) : Prop where
  endpoints : s.endpoints = s₀.endpoints
  events : ∀ id, (WillFan s rest id ∨
    id = event.id ∧ ∃ endpoint ∈ left, subscribed event endpoint) ↔ WillFan s₀ batch id

/-- An endpoint that is subscribed gets a delivery of the event. -/
theorem FanningOne.insert {s₀ s : Shared} {batch rest : List WebhookEvent} {event : WebhookEvent}
    {endpoint : WebhookEndpoint} {endpoints : List WebhookEndpoint}
    (h : FanningOne s₀ batch rest event (endpoint :: endpoints) s)
    (hsubscribed : subscribed event endpoint) (m : Moment) (url : String) (now : Int) :
    FanningOne s₀ batch rest event endpoints
      (perform s m (.upsertDelivery ⟨event.id, endpoint.id, 1⟩ url now)).2 := by
  have hendpoints : (perform s m (.upsertDelivery ⟨event.id, endpoint.id, 1⟩ url now)).2.endpoints =
      s.endpoints := by
    simp only [perform]
    split <;> rfl
  have hsubscriber : ∀ event', HasSubscriber
      (perform s m (.upsertDelivery ⟨event.id, endpoint.id, 1⟩ url now)).2 event' ↔
        HasSubscriber s event' := by
    intro event'
    rw [HasSubscriber, hendpoints]
    rfl
  refine ⟨hendpoints.trans h.endpoints, fun id => ?_⟩
  rw [← h.events id]
  simp only [WillFan, delivered_upsert, hsubscriber, List.mem_cons, exists_eq_or_imp, hsubscribed,
    true_or, and_true]
  constructor
  · rintro (((hdelivered | hid) | hrest) | ⟨hid, -⟩)
    exacts [.inl (.inl hdelivered), .inr hid, .inl (.inr hrest), .inr hid]
  · rintro ((hdelivered | hrest) | hid)
    exacts [.inl (.inl (.inl hdelivered)), .inl (.inr hrest), .inl (.inl (.inr hid))]

/-- One that is not subscribed does not. -/
theorem FanningOne.skip {s₀ s : Shared} {batch rest : List WebhookEvent} {event : WebhookEvent}
    {endpoint : WebhookEndpoint} {endpoints : List WebhookEndpoint}
    (h : FanningOne s₀ batch rest event (endpoint :: endpoints) s)
    (hsubscribed : ¬subscribed event endpoint) :
    FanningOne s₀ batch rest event endpoints s where
  endpoints := h.endpoints
  events id := by
    rw [← h.events id]
    simp only [List.mem_cons, exists_eq_or_imp, hsubscribed, false_or]

theorem fanOut_alone (s₀ : Shared) (batch rest : List WebhookEvent) (event : WebhookEvent)
    (created : Nat) :
    Triple answer alone (Fanning s₀ batch (event :: rest)) (fanOut event created)
      (Ends (fun _ => False) fun _ => Fanning s₀ batch rest) := by
  refine Triple.bind_ends alone_frame
    (Q := fun endpoints => FanningOne s₀ batch rest event endpoints) ?_ fun endpoints => ?_
  · refine alone_call fun m s hm hs => ⟨_, by rw [answer_answered hm]; rfl, ?_⟩
    rw [answer_answered hm]
    refine ⟨hs.endpoints, fun id => ?_⟩
    rw [← hs.events id]
    simp only [perform, WillFan, HasSubscriber, List.mem_cons, exists_eq_or_imp,
      Arrangement.mem_order, List.mem_filter, decide_eq_true_eq, and_assoc]
    rw [or_assoc]
    refine or_congr_right (or_comm.trans (or_congr_left ?_))
    rw [eq_comm]
  refine (Triple.foldlM_ends alone_frame
    (I := fun endpoints _ => FanningOne s₀ batch rest event endpoints)
    (fun _ => stable_alone _) (fun endpoint endpoints created => ?_) endpoints created).ends_mono
      (fun _ _ hs => hs) fun _ s hs => ?_
  · have hnext : ∀ created : Nat, Triple answer alone
        (FanningOne s₀ batch rest event endpoints) (pure created)
        (Ends (fun _ => False) fun _ => FanningOne s₀ batch rest event endpoints) :=
      fun created => Triple.pure_ends (stable_alone _) fun _ _ hs => hs
    refine Triple.ite (fun hsubscribed => ?_) fun hsubscribed =>
      (hnext created).ends_mono (fun _ _ hs => hs.skip hsubscribed) fun _ _ h => h
    refine Triple.bind_ends alone_frame ?_ fun _ => hnext (created + 1)
    refine Triple.bind_ends alone_frame
      (Q := fun _ => FanningOne s₀ batch rest event (endpoint :: endpoints))
      (alone_call fun m s _ hs => ⟨m.now, rfl, hs⟩) fun at_ => ?_
    refine alone_call fun m s hm hs => ⟨(), ?_⟩
    rw [answer_answered hm]
    refine ⟨?_, hs.insert hsubscribed m _ _⟩
    simp only [perform]
    split <;> rfl
  · refine ⟨hs.endpoints, fun id => ?_⟩
    rw [← hs.events id]
    simp

/-- **What one call leaves**: the events that had deliveries, and those of the batch that have
subscribers. -/
theorem fannedOut_iff {o : WebhookDispatcherOptions} {feed : Nat → Moment} {n : Nat} (s : Shared)
    (hfeed : ∀ k, (feed k).fate = .answered) (id : String) :
    Delivered ((enqueueNewDeliveries o).exec answer feed n s).2 id ↔
      WillFan s ((unfannedEvents (feed n) s).take o.batchSize) id := by
  have hexec : (enqueueNewDeliveries o).exec answer feed n s =
      (((unfannedEvents (feed n) s).take o.batchSize).foldlM
        (fun created event => fanOut event created) 0).exec answer feed (n + 1) s := by
    simp [enqueueNewDeliveries, db, Bind.bind, Program.bind, Program.andThen, Program.call,
      Program.exec, answer, perform_findUnfannedEvents, hfeed]
  set batch := (unfannedEvents (feed n) s).take o.batchSize
  have hloop := Triple.foldlM_ends alone_frame (I := fun rest _ => Fanning s batch rest)
    (fun _ => stable_alone _) (fun event rest created => fanOut_alone s batch rest event created)
    batch 0
  have hpost : Ends (fun _ => False) (fun _ => Fanning s batch [])
      ((batch.foldlM (fun created event => fanOut event created) 0).exec answer feed (n + 1) s).1
      ((batch.foldlM (fun created event => fanOut event created) 0).exec answer feed (n + 1) s).2 :=
    (hloop s trivial ⟨rfl, fun _ => Iff.rfl⟩).exec trivial (fun _ => rfl) fun _ k _ => hfeed k
  rw [hexec]
  cases hresult : ((batch.foldlM (fun created event => fanOut event created) 0).exec answer feed
      (n + 1) s).1 with
  | error e =>
    rw [hresult] at hpost
    exact hpost.elim
  | ok created =>
    rw [hresult] at hpost
    simpa [WillFan] using hpost.events id

/-! ## Progress -/

/-- **The fan-out makes progress** exactly when no event waits for it, or one that does is in the
first batch. -/
theorem fansOut_iff (o : WebhookDispatcherOptions) (feed : Nat → Moment) (n : Nat) (s : Shared)
    (hfeed : ∀ k, (feed k).fate = .answered) :
    ((∃ event, Unfanned s event) → ∃ event, Unfanned s event ∧
      Delivered ((enqueueNewDeliveries o).exec answer feed n s).2 event.id) ↔
    ((∃ event, Unfanned s event) →
      ∃ event ∈ (unfannedEvents (feed n) s).take o.batchSize, Unfanned s event) := by
  refine forall_congr' fun _ => ⟨?_, ?_⟩
  · rintro ⟨event, hunfanned, hdelivered⟩
    rcases (fannedOut_iff s hfeed event.id).1 hdelivered with hold | ⟨event', hmem, hid, -⟩
    · exact absurd hold hunfanned.2.1
    · have hstored := (mem_unfannedEvents.1 (List.mem_of_mem_take hmem)).1
      exact ⟨event', hmem, Table.eq_of_key_eq hstored hunfanned.1 hid ▸ hunfanned⟩
  · rintro ⟨event, hmem, hunfanned⟩
    exact ⟨event, hunfanned, (fannedOut_iff s hfeed _).2 (.inr ⟨event, hmem, rfl, hunfanned.2.2⟩)⟩

/-- A call that leaves the rows as they are makes no progress. -/
theorem Unfanned.not_delivered {s s' : Shared}
    (hrows : s'.deliveries.rows = s.deliveries.rows) :
    ¬∃ event, Unfanned s event ∧ Delivered s' event.id := by
  rintro ⟨event, ⟨-, hnone, -⟩, hdelivered⟩
  rw [Delivered, hrows] at hdelivered
  exact hnone hdelivered

/-! ## A batch that nobody subscribes to -/

namespace Shop

def unwanted : WebhookEvent := ⟨"evt_0", "mer_1", "payment.expired", "\x7b\x7d", -1⟩

/-- The endpoint wants payments only, and the older of two events is about something else. -/
def filtered : List (Move Unit Moment Change) :=
  [.environment (.create { endpoint with eventTypes := ["payment.paid"] }),
    .environment (.emit unwanted), .environment (.emit event)]

/-- A batch with both events in it is fanned out. -/
theorem fansOut_both :
    let s := ((system options).after filtered Shared.empty).shared
    let s' := ((enqueueNewDeliveries options).exec answer (fun _ => moment 0 200) 0 s).2
    (∃ event, Unfanned s event) ∧ ∃ event, Unfanned s event ∧ Delivered s' event.id := by
  intro s s'
  have hunfanned : Unfanned s event := by decide +kernel
  have hmem : event ∈ (unfannedEvents (moment 0 200) s).take options.batchSize := by decide +kernel
  exact ⟨⟨event, hunfanned⟩, (fansOut_iff options (fun _ => moment 0 200) 0 s fun _ => rfl).2
    (fun _ => ⟨event, hmem, hunfanned⟩) ⟨event, hunfanned⟩⟩

/-- The batch is the event that nobody subscribes to. The other one waits behind it, and the call
leaves all rows as they are. -/
theorem events_starved : ∃ s : State,
    (system oneByOne).Reachable single Shared.empty s ∧
      let s' := ((enqueueNewDeliveries oneByOne).exec answer (fun _ => moment 0 200) 0 s.shared).2
      (∃ event, Unfanned s.shared event) ∧
        (¬∃ event, Unfanned s.shared event ∧ Delivered s' event.id) ∧
        s'.deliveries.rows = s.shared.deliveries.rows :=
  ⟨(system oneByOne).after filtered Shared.empty, System.reachable_after (by decide +kernel),
    ⟨event, by decide +kernel⟩, Unfanned.not_delivered (by decide +kernel), by decide +kernel⟩

end Shop

end Webhooks

end PaymentGateway
