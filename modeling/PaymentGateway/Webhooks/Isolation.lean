import PaymentGateway.Lib.Confined
import PaymentGateway.Security.WebhookSignature
import PaymentGateway.Webhooks.Terminal

/-!
# Whom a webhook is sent to

A worker reads the delivery, its endpoint and its event at three different times, with other workers,
other events and the merchants' own changes between them, and sends much later. What it sends all the
same belongs together: deliveries are inserted only for an event and an endpoint of one merchant,
neither of which ever changes its merchant, its text or its URL, and a secret is read with the
endpoint whose secret it is.

Two things are left open. Which stored secrets are an endpoint's own (`own`) is what the merchants
say when they create an endpoint or rotate its secret (`Change.Stores`); and which URLs are safe
(`safe`) is what the guard says when it lets one pass (`Vouched`).

**Theorem (`requests_isolated`).** In every reachable state, whatever request is about to be sent
carries the whole of one event to an endpoint of the same merchant, to a URL that the guard let pass
where it is asked, and is signed with a secret of that endpoint: who holds the secret accepts it as
long as it is near in time, and no other body under its header.
-/

namespace PaymentGateway

namespace Webhooks

open Program Keyed Concurrent

/-! ## What belongs together -/

/-- The event and the endpoint of a delivery are there, and are of one merchant. -/
def Addressed (id : DeliveryId) (s : Shared) : Prop :=
  ∃ event endpoint, s.events.find? id.webhookEventId = some event ∧
    s.endpoints.find? id.endpointId = some endpoint ∧ endpoint.merchantId = event.merchantId

structure Isolated (own : String → String → Prop) (s : Shared) : Prop where
  deliveries : ∀ id row, s.deliveries.find? id = some row → Addressed id s
  secrets : ∀ id endpoint, s.endpoints.find? id = some endpoint → own id endpoint.secretEncrypted

/-- Events stay as they are, and endpoints keep their merchant and their URL. -/
structure Persists (s s' : Shared) : Prop where
  events : ∀ id event, s.events.find? id = some event → s'.events.find? id = some event
  endpoints : ∀ id endpoint, s.endpoints.find? id = some endpoint →
    ∃ endpoint', s'.endpoints.find? id = some endpoint' ∧
      endpoint'.merchantId = endpoint.merchantId ∧ endpoint'.url = endpoint.url

/-- The request is what the event says, and goes to where the endpoint is. -/
structure Carries (request : WebhookRequest) (event : WebhookEvent) (endpoint : WebhookEndpoint) :
    Prop where
  merchantId : endpoint.merchantId = event.merchantId
  eventId : request.eventId = event.id
  webhookEventId : request.deliveryId.webhookEventId = event.id
  endpointId : request.deliveryId.endpointId = endpoint.id
  eventType : request.eventType = event.type
  body : request.body = event.payload
  url : request.url = endpoint.url

/-- The request is signed with one of the secrets that are the endpoint's own. -/
def SignedFor (o : WebhookDispatcherOptions) (own : String → String → Prop) (endpointId : String)
    (request : WebhookRequest) : Prop :=
  ∃ stored secret, own endpointId stored ∧ o.decryptSecret stored = .ok secret ∧
    request.signature = o.signWebhook secret request.body request.timestamp

def Proper (o : WebhookDispatcherOptions) (own : String → String → Prop) (safe : String → Prop)
    (request : WebhookRequest) (s : Shared) : Prop :=
  (∃ event ∈ s.events, ∃ endpoint ∈ s.endpoints, Carries request event endpoint) ∧
    SignedFor o own request.deliveryId.endpointId request ∧
    (o.blockPrivateNetworks = true → safe request.url)

/-! ## Stable facts -/

theorem Persists.refl (s : Shared) : Persists s s :=
  ⟨fun _ _ h => h, fun _ endpoint h => ⟨endpoint, h, rfl, rfl⟩⟩

theorem Persists.trans {s s' s'' : Shared} (h : Persists s s') (h' : Persists s' s'') :
    Persists s s'' := by
  refine ⟨fun id event hevent => h'.events id event (h.events id event hevent), ?_⟩
  intro id endpoint hendpoint
  obtain ⟨endpoint', hendpoint', hmerchant, hurl⟩ := h.endpoints id endpoint hendpoint
  obtain ⟨endpoint'', hendpoint'', hmerchant', hurl'⟩ := h'.endpoints id endpoint' hendpoint'
  exact ⟨endpoint'', hendpoint'', hmerchant'.trans hmerchant, hurl'.trans hurl⟩

theorem Addressed.persists {id : DeliveryId} {s s' : Shared} (h : Addressed id s)
    (hs : Persists s s') : Addressed id s' := by
  obtain ⟨event, endpoint, hevent, hendpoint, hmerchant⟩ := h
  obtain ⟨endpoint', hendpoint', hmerchant', -⟩ := hs.endpoints _ endpoint hendpoint
  exact ⟨event, endpoint', hs.events _ event hevent, hendpoint', hmerchant'.trans hmerchant⟩

/-- A retry is for the same event and endpoint. -/
theorem Addressed.next {id : DeliveryId} {s : Shared} (h : Addressed id s) : Addressed id.next s := h

/-- What a worker has read of a delivery: its event, and the merchant and the URL of its endpoint. -/
def Matched (id : DeliveryId) (event : WebhookEvent) (endpoint : WebhookEndpoint) (s : Shared) :
    Prop :=
  s.events.find? id.webhookEventId = some event ∧
    ∃ endpoint', s.endpoints.find? id.endpointId = some endpoint' ∧
      endpoint'.merchantId = event.merchantId ∧ endpoint'.url = endpoint.url

theorem Matched.persists {id : DeliveryId} {event : WebhookEvent} {endpoint : WebhookEndpoint}
    {s s' : Shared} (h : Matched id event endpoint s) (hs : Persists s s') :
    Matched id event endpoint s' := by
  obtain ⟨hevent, endpoint', hendpoint', hmerchant, hurl⟩ := h
  obtain ⟨endpoint'', hendpoint'', hmerchant', hurl'⟩ := hs.endpoints _ endpoint' hendpoint'
  exact ⟨hs.events _ event hevent, endpoint'', hendpoint'', hmerchant'.trans hmerchant,
    hurl'.trans hurl⟩

/-! ## Steps -/

variable {o : WebhookDispatcherOptions} {own : String → String → Prop} {safe : String → Prop}
  {s s' : Shared}

theorem Isolated.empty : Isolated own Shared.empty :=
  ⟨fun _ _ h => (nomatch h), fun _ _ h => (nomatch h)⟩

/-- A step that leaves the secrets an endpoint's own, and adds no delivery that is not addressed. -/
theorem Isolated.persists (h : Isolated own s) (hs : Persists s s')
    (hdeliveries : ∀ id row', s'.deliveries.find? id = some row' →
      (s.deliveries.find? id).isSome ∨ Addressed id s)
    (hsecrets : ∀ id endpoint', s'.endpoints.find? id = some endpoint' →
      own id endpoint'.secretEncrypted) : Isolated own s' := by
  refine ⟨fun id row' hrow' => ?_, hsecrets⟩
  rcases hdeliveries id row' hrow' with hsome | haddressed
  · obtain ⟨row, hrow⟩ := Option.isSome_iff_exists.1 hsome
    exact (h.deliveries id row hrow).persists hs
  · exact haddressed.persists hs

/-- Deliveries are rewritten in place. -/
theorem Isolated.rewrite (h : Isolated own s) {f : DeliveryId → WebhookDelivery → WebhookDelivery}
    (hevents : s'.events = s.events) (hendpoints : s'.endpoints = s.endpoints)
    (hfind : ∀ id, s'.deliveries.find? id = (s.deliveries.find? id).map (f id)) :
    Isolated own s' ∧ Persists s s' := by
  have hs : Persists s s' := by
    refine ⟨fun id event hevent => hevents ▸ hevent, fun id endpoint hendpoint => ?_⟩
    exact ⟨endpoint, hendpoints ▸ hendpoint, rfl, rfl⟩
  refine ⟨h.persists hs (fun id row' hrow' => .inl ?_) fun id endpoint' hendpoint' => ?_, hs⟩
  · rw [hfind] at hrow'
    obtain ⟨row, hrow, -⟩ := Option.map_eq_some_iff.1 hrow'
    rw [hrow, Option.isSome_some]
  · exact h.secrets id endpoint' (hendpoints ▸ hendpoint')

/-- What an endpoint is and where, is left alone, and its secret stays its own. -/
theorem Isolated.updateEndpoint (h : Isolated own s) (id : String)
    {f : WebhookEndpoint → WebhookEndpoint} (hf : ∀ endpoint, (f endpoint).id = endpoint.id)
    (hkeeps : ∀ endpoint, (f endpoint).merchantId = endpoint.merchantId ∧
      (f endpoint).url = endpoint.url)
    (hsecret : ∀ endpoint, own id endpoint.secretEncrypted → own id (f endpoint).secretEncrypted) :
    Isolated own (s.updateEndpoint id f hf) ∧ Persists s (s.updateEndpoint id f hf) := by
  have hfind := s.find?_updateEndpoint id hf
  have hs : Persists s (s.updateEndpoint id f hf) := by
    refine ⟨fun _ _ hevent => hevent, fun id' endpoint hendpoint => ?_⟩
    refine ⟨if id' = id then f endpoint else endpoint, by rw [hfind, hendpoint]; rfl, ?_⟩
    split
    · exact hkeeps endpoint
    · exact ⟨rfl, rfl⟩
  refine ⟨h.persists hs (fun id' row' hrow' => .inl ?_) fun id' endpoint' hendpoint' => ?_, hs⟩
  · rw [show s.deliveries.find? id' = some row' from hrow', Option.isSome_some]
  · rw [hfind] at hendpoint'
    obtain ⟨endpoint, hendpoint, rfl⟩ := Option.map_eq_some_iff.1 hendpoint'
    have hown := h.secrets id' endpoint hendpoint
    by_cases hid : id' = id
    · subst hid
      rw [if_pos rfl]
      exact hsecret endpoint hown
    · rw [if_neg hid]
      exact hown

theorem Isolated.insertDelivery (h : Isolated own s) {id : DeliveryId} (haddressed : Addressed id s)
    (url : String) (now at_ : Int) (hnone : s.deliveries.find? id = none) :
    Isolated own (s.insertDelivery id url now at_ hnone) ∧
      Persists s (s.insertDelivery id url now at_ hnone) := by
  have hs : Persists s (s.insertDelivery id url now at_ hnone) :=
    ⟨fun _ _ h => h, fun _ endpoint h => ⟨endpoint, h, rfl, rfl⟩⟩
  refine ⟨h.persists hs (fun id' row' hrow' => ?_) h.secrets, hs⟩
  rw [s.find?_insertDelivery] at hrow'
  by_cases hid : id = id'
  · exact .inr (hid ▸ haddressed)
  · rw [if_neg hid] at hrow'
    exact .inl (by rw [hrow', Option.isSome_some])

/-- What a request has to keep to: what is sent is proper, and what is inserted is addressed. -/
def Entitled (o : WebhookDispatcherOptions) (own : String → String → Prop) (safe : String → Prop) :
    Request → Shared → Prop
  | .fetch sent, s => Proper o own safe sent s
  | .statement (.upsertDelivery id _ _), s => Addressed id s
  | _, _ => True

theorem Isolated.perform (h : Isolated own s) {q : Statement}
    (hq : Entitled o own safe (.statement q) s) (m : Moment) :
    Isolated own (perform s m q).2 ∧ Persists s (perform s m q).2 := by
  cases q with
  | upsertDelivery id url now =>
    simp only [Webhooks.perform]
    split
    · exact ⟨h, .refl s⟩
    · rename_i hnone
      exact h.insertDelivery hq url now m.now hnone
  | updateDelivery id data =>
    simp only [Webhooks.perform]
    split
    · exact h.rewrite rfl rfl (s.find?_updateDelivery id data m.now)
    · exact ⟨h, .refl s⟩
  | claimDelivery id =>
    simp only [Webhooks.perform]
    split
    · exact h.rewrite rfl rfl (s.find?_updateDelivery id _ m.now)
    · exact ⟨h, .refl s⟩
  | abandonPending endpointId => exact h.rewrite rfl rfl (s.find?_sweep endpointId m.now)
  | resetFailures | incrementFailures | disableEndpoint =>
    simp only [Webhooks.perform]
    split
    · exact h.updateEndpoint _ _ (fun _ => ⟨rfl, rfl⟩) fun _ hown => hown
    · exact ⟨h, .refl s⟩
  | _ => exact ⟨h, .refl s⟩

theorem Isolated.answer (h : Isolated own s) {r : Request} (hr : Entitled o own safe r s)
    (m : Moment) : Isolated own (answer r m s).2 ∧ Persists s (answer r m s).2 := by
  cases r with
  | statement q =>
    simp only [Webhooks.answer]
    split
    · exact h.perform hr m
    · exact ⟨h, .refl s⟩
    · exact h.perform hr m
  | _ => exact ⟨h, .refl s⟩

/-! ## Merchants -/

/-- The secret that is stored is the endpoint's own. -/
def Change.Stores (own : String → String → Prop) : Change → Prop
  | .create endpoint => own endpoint.id endpoint.secretEncrypted
  | .rotateSecret id secretEncrypted => own id secretEncrypted
  | _ => True

instance (own : String → String → Prop) [∀ id stored, Decidable (own id stored)] (c : Change) :
    Decidable (c.Stores own) :=
  match c with
  | .create endpoint => inferInstanceAs (Decidable (own endpoint.id endpoint.secretEncrypted))
  | .rotateSecret id secretEncrypted => inferInstanceAs (Decidable (own id secretEncrypted))
  | .emit _ => isTrue trivial
  | .update .. => isTrue trivial

theorem Isolated.change (h : Isolated own s) {c : Change} (hc : c.Stores own) :
    Isolated own (change c s) ∧ Persists s (change c s) := by
  cases c with
  | emit event =>
    simp only [Webhooks.change]
    split
    · exact ⟨h, .refl s⟩
    · rename_i hnone
      have hs : Persists s { s with events := s.events.insert event hnone } := by
        refine ⟨fun id old hold => ?_, fun _ endpoint h => ⟨endpoint, h, rfl, rfl⟩⟩
        rw [Table.find?_insert, if_neg (by rintro rfl; simp [hnone] at hold), hold]
      refine ⟨h.persists hs (fun id row' hrow' => .inl ?_) h.secrets, hs⟩
      rw [show s.deliveries.find? id = some row' from hrow', Option.isSome_some]
  | create endpoint =>
    simp only [Webhooks.change]
    split
    · exact ⟨h, .refl s⟩
    · rename_i hnone
      have hs : Persists s { s with endpoints := s.endpoints.insert endpoint hnone } := by
        refine ⟨fun _ _ h => h, fun id old hold => ⟨old, ?_, rfl, rfl⟩⟩
        rw [Table.find?_insert, if_neg (by rintro rfl; simp [hnone] at hold), hold]
      refine ⟨h.persists hs (fun id row' hrow' => .inl ?_) fun id endpoint' hendpoint' => ?_, hs⟩
      · rw [show s.deliveries.find? id = some row' from hrow', Option.isSome_some]
      · rw [Table.find?_insert] at hendpoint'
        split at hendpoint'
        · rename_i hid
          cases hendpoint'
          exact hid ▸ hc
        · exact h.secrets id endpoint' hendpoint'
  | update id enabled eventTypes now =>
    refine h.updateEndpoint id _ (fun endpoint => ?_) fun endpoint hown => ?_
    · unfold updated
      split <;> exact ⟨rfl, rfl⟩
    · unfold updated
      split <;> exact hown
  | rotateSecret id secretEncrypted =>
    exact h.updateEndpoint id _ (fun _ => ⟨rfl, rfl⟩) fun _ _ => hc

/-! ## Along the awaits -/

/-- The guard lets a URL pass only if it is safe. -/
def Vouched (safe : String → Prop) : Request → Moment → Shared → Prop
  | .assertPublicWebhookUrl url, m, _ => m.guard = .ok () → safe url
  | _, _, _ => True

instance (safe : String → Prop) [∀ url, Decidable (safe url)] (r : Request) (m : Moment)
    (s : Shared) : Decidable (Vouched safe r m s) :=
  match r with
  | .assertPublicWebhookUrl url => inferInstanceAs (Decidable (m.guard = .ok () → safe url))
  | .now => isTrue trivial
  | .random => isTrue trivial
  | .fetch _ => isTrue trivial
  | .statement _ => isTrue trivial

/-- Workers send what is proper, insert what is addressed, and leave events and endpoints where they
are. -/
abbrev isolation (o : WebhookDispatcherOptions) (own : String → String → Prop)
    (safe : String → Prop) : Terms Request Moment Shared :=
  ⟨Isolated own, Persists, fun r s s' => Entitled o own safe r s ∧ Persists s s', Vouched safe⟩

theorem isolation_frame : (isolation o own safe).Frame fun _ => True :=
  ⟨⟨Persists.refl, fun _ _ _ => Persists.trans⟩, fun _ _ _ _ _ => trivial⟩

/-- What is kept where events and endpoints are. -/
def Persistent (P : Shared → Prop) : Prop := ∀ s s', P s → Persists s s' → P s'

theorem Persistent.stable {P : Shared → Prop} (hP : Persistent P) :
    Stable (isolation o own safe) P :=
  fun s s' hs _ hrely => hP s s' hs hrely

theorem Persistent.fact (p : Prop) : Persistent fun _ => p := fun _ _ h _ => h

theorem Persistent.and {P Q : Shared → Prop} (hP : Persistent P) (hQ : Persistent Q) :
    Persistent fun s => P s ∧ Q s :=
  fun s s' h hs => ⟨hP s s' h.1 hs, hQ s s' h.2 hs⟩

theorem Persistent.matched (id : DeliveryId) (event : WebhookEvent) (endpoint : WebhookEndpoint) :
    Persistent (Matched id event endpoint) :=
  fun _ _ h hs => h.persists hs

/-- It neither sends nor inserts. -/
def Plain : Request → Prop
  | .fetch _ => False
  | .statement (.upsertDelivery ..) => False
  | _ => True

theorem Plain.entitled {r : Request} (h : Plain r) (s : Shared) : Entitled o own safe r s := by
  cases r with
  | fetch => exact h.elim
  | statement q =>
    cases q with
    | upsertDelivery => exact h.elim
    | _ => trivial
  | _ => trivial

section Calls

variable {P : Shared → Prop} {α : Type}

/-- A process that is confined to plain requests keeps what persists. -/
theorem plain_kept {x : Process α} (hx : x.Confined Plain) (hP : Persistent P) :
    Triple answer (isolation o own safe) P x (Ends P fun _ => P) := by
  have hkeeps : Triple answer (isolation o own safe) P x fun _ => P := by
    refine hx.triple hP.stable fun r m s hr hinv hs _ => ?_
    have hentitled : Entitled o own safe r s := hr.entitled s
    obtain ⟨hinv', hpersists⟩ := hinv.answer hentitled m
    exact ⟨hinv', ⟨hentitled, hpersists⟩, hP s _ hs hpersists⟩
  refine hkeeps.mono (fun _ _ h => h) fun r s hs => ?_
  cases r with
  | ok a => exact hs
  | error e => exact hs

/-- One request, from what entitles to it to what is known of its answer. -/
theorem call_kept {r : Request} {Q : Answer r → Shared → Prop} (hP : Persistent P)
    (hQ : ∀ a, Persistent (Q a)) (hr : ∀ s, P s → Entitled o own safe r s)
    (hpost : ∀ m s a, Isolated own s → P s → Vouched safe r m s → (answer r m s).1 = .ok a →
      Persists s (answer r m s).2 → Q a (answer r m s).2) :
    Triple answer (isolation o own safe) P (Program.call r) (Ends P Q) := by
  refine Triple.call hP.stable (Stable.ends hP.stable fun a => (hQ a).stable) ?_
  intro m s hinv hs hm
  obtain ⟨hinv', hpersists⟩ := hinv.answer (hr s hs) m
  refine ⟨hinv', ⟨hr s hs, hpersists⟩, ?_⟩
  cases hresult : (answer r m s).1 with
  | ok a => exact hpost m s a hinv hs hm hresult hpersists
  | error e => exact hP s _ hs hpersists

theorem onSuccess_of_kept {x : Process α} {Q : α → Shared → Prop}
    (h : Triple answer (isolation o own safe) P x (Ends P Q)) :
    Triple answer (isolation o own safe) P x (OnSuccess Q) := by
  refine h.mono (fun _ _ hs => hs) fun r s hs => ?_
  cases r with
  | ok a => exact hs
  | error e => trivial

theorem plain_ends {x : Process α} (hx : x.Confined Plain) (hP : Persistent P) :
    Triple answer (isolation o own safe) P x (OnSuccess fun _ => P) :=
  onSuccess_of_kept (plain_kept hx hP)

/-- A statement that only reads. -/
theorem read_ends {q : Statement} {Q : q.Answer → Shared → Prop} (hP : Persistent P)
    (hQ : ∀ a, Persistent (Q a)) (hplain : Plain (.statement q))
    (hpost : ∀ m s a, Isolated own s → P s → (perform s m q).1 = .ok a → Q a s) :
    Triple answer (isolation o own safe) P (db q) (OnSuccess Q) := by
  refine onSuccess_of_kept (call_kept hP hQ (fun s _ => hplain.entitled s) ?_)
  intro m s a hinv hs _ hok hpersists
  refine hQ a s _ (hpost m s a hinv hs ?_) hpersists
  rw [← Discipline.answer_ok hok]
  exact hok

theorem upsert_ends {id : DeliveryId} (hP : Persistent P) (haddressed : ∀ s, P s → Addressed id s)
    (url : String) (now : Int) :
    Triple answer (isolation o own safe) P (db (.upsertDelivery id url now))
      (OnSuccess fun _ => P) :=
  onSuccess_of_kept (call_kept hP (fun _ => hP) haddressed
    fun _ s _ _ hs _ _ hpersists => hP s _ hs hpersists)

end Calls

/-! ## What is confined -/

theorem confined_now : now.Confined Plain := .call trivial

theorem confined_db {q : Statement} (h : Plain (.statement q)) : (db q).Confined Plain := .call h

theorem confined_returned {α : Type} (r : Except DispatchError α) :
    (returned r).Confined Plain := trivial

theorem confined_finalizeFailure (o : WebhookDispatcherOptions) (id : DeliveryId) (attempt : Nat)
    (endpointId : String) (info : FailureInfo) :
    (finalizeFailure o id attempt endpointId info).Confined Plain := by
  refine .bind (confined_db trivial) fun endpoint => ?_
  dsimp only
  refine .bind ?_ fun abandoned => .bind confined_now fun sentAt => .bind ?_ fun nextRetryAt =>
    .bind (confined_db trivial) fun _ => .pure _
  · refine .ite ?_ (.pure _)
    exact .bind confined_now fun _ => .bind (confined_db trivial) fun _ => confined_db trivial
  · refine .ite (.map _ ?_) (.pure _)
    exact .bind confined_now fun at_ => .bind (.call trivial) fun draw =>
      .bind (confined_returned _) fun delay => .pure _

theorem confined_finalizeSuccess (id : DeliveryId) (endpointId : String) (httpStatus : Nat)
    (responseTimeMs : Int) (responseBody : String) :
    (finalizeSuccess id endpointId httpStatus responseTimeMs responseBody).Confined Plain :=
  .bind confined_now fun _ => .bind (confined_db trivial) fun _ => confined_db trivial

theorem confined_recoverStaleInFlight (o : WebhookDispatcherOptions) :
    (recoverStaleInFlight o).Confined Plain := by
  refine .bind confined_now fun at_ => .bind (confined_db trivial) fun stale =>
    .bind (.foldlM (fun swept delivery => ?_) stale 0) fun _ => .pure _
  exact .bind (confined_finalizeFailure ..) fun _ => .pure _

/-! ## The phases -/

/-- The endpoints that an event is to be sent to, and what else persists. -/
def Fanned (rest : Shared → Prop) (eventId : String) (endpoints : List WebhookEndpoint)
    (s : Shared) : Prop :=
  rest s ∧ ∀ endpoint ∈ endpoints, Addressed ⟨eventId, endpoint.id, 1⟩ s

theorem Persistent.fanned {rest : Shared → Prop} (hrest : Persistent rest) (eventId : String)
    (endpoints : List WebhookEndpoint) : Persistent (Fanned rest eventId endpoints) :=
  hrest.and fun _ _ h hs endpoint hmem => (h endpoint hmem).persists hs

theorem fanOut_isolated {rest : Shared → Prop} (hrest : Persistent rest) (event : WebhookEvent)
    (created : Nat) :
    Triple answer (isolation o own safe)
      (fun s => rest s ∧ s.events.find? event.id = some event) (fanOut event created)
      (OnSuccess fun _ => rest) := by
  have hevent : Persistent fun s => rest s ∧ s.events.find? event.id = some event :=
    hrest.and fun _ _ h hs => hs.events _ event h
  refine Triple.bind_ends isolation_frame (Q := Fanned rest event.id)
    (read_ends hevent (Persistent.fanned hrest event.id) trivial ?_) fun endpoints => ?_
  · rintro m s _ _ hs ⟨⟩
    refine ⟨hs.1, fun endpoint hmem => ?_⟩
    rw [Arrangement.mem_order, List.mem_filter] at hmem
    obtain ⟨hendpoint, hfilter⟩ := hmem
    simp only [decide_eq_true_eq] at hfilter
    exact ⟨event, endpoint, hs.2, Table.find?_of_mem hendpoint, hfilter.1⟩
  refine (Triple.foldlM_ends isolation_frame (I := fun endpoints _ => Fanned rest event.id endpoints)
    (fun _ => (Persistent.fanned hrest event.id []).stable) (fun endpoint others created => ?_)
    endpoints created).ends_mono (fun _ _ hs => hs) fun _ _ hs => hs.1
  have hfanned := Persistent.fanned hrest event.id (endpoint :: others)
  have hnext : ∀ created : Nat, Triple answer (isolation o own safe)
      (Fanned rest event.id (endpoint :: others)) (pure created)
      (OnSuccess fun _ => Fanned rest event.id others) := fun _ =>
    Triple.pure_ends hfanned.stable fun _ _ hs =>
      ⟨hs.1, fun other hother => hs.2 other (List.mem_cons_of_mem _ hother)⟩
  refine Triple.ite (fun _ => ?_) fun _ => hnext created
  refine Triple.bind_ends isolation_frame ?_ fun _ => hnext (created + 1)
  exact Triple.bind_ends isolation_frame (plain_ends confined_now hfanned) fun at_ =>
    upsert_ends hfanned (fun s hs => hs.2 endpoint List.mem_cons_self) endpoint.url at_

/-- Events that are there. -/
def Emitted (events : List WebhookEvent) (s : Shared) : Prop :=
  ∀ event ∈ events, s.events.find? event.id = some event

theorem Persistent.emitted (events : List WebhookEvent) : Persistent (Emitted events) :=
  fun _ _ h hs event hmem => hs.events _ event (h event hmem)

theorem enqueueNewDeliveries_isolated :
    Triple answer (isolation o own safe) (fun _ => True) (enqueueNewDeliveries o)
      (OnSuccess fun _ _ => True) := by
  refine Triple.bind_ends isolation_frame (Q := Emitted)
    (read_ends (.fact True) Persistent.emitted trivial ?_) fun unfannedEvents => ?_
  · rintro m s _ _ _ ⟨⟩ event hmem
    have hmem := List.mem_of_mem_take hmem
    rw [List.mem_insertionSort, Arrangement.mem_order, List.mem_filter] at hmem
    exact Table.find?_of_mem hmem.1
  refine (Triple.foldlM_ends isolation_frame (I := fun events _ => Emitted events)
    (fun _ => (Persistent.emitted []).stable) (fun event rest created => ?_) unfannedEvents
      0).ends_mono (fun _ _ hs => hs) fun _ _ _ => trivial
  refine (fanOut_isolated (Persistent.emitted rest) event created).ends_mono (fun s _ hs => ?_)
    fun _ _ hs => hs
  exact ⟨fun other hother => hs other (List.mem_cons_of_mem _ hother), hs event List.mem_cons_self⟩

/-- A retry keeps its event and its endpoint. -/
theorem promote_isolated (promoted : Nat) (previous : WebhookDelivery) (due : List WebhookDelivery) :
    Triple answer (isolation o own safe)
      (fun s => ∀ row ∈ previous :: due, Addressed row.toDeliveryId s) (promote promoted previous)
      (OnSuccess fun _ s => ∀ row ∈ due, Addressed row.toDeliveryId s) := by
  have haddressed : ∀ due : List WebhookDelivery, Persistent fun s =>
      ∀ row ∈ due, Addressed row.toDeliveryId s :=
    fun _ s s' h hs row hmem => (h row hmem).persists hs
  have hnext : ∀ promoted : Nat, Triple answer (isolation o own safe)
      (fun s => ∀ row ∈ previous :: due, Addressed row.toDeliveryId s) (pure promoted)
      (OnSuccess fun _ s => ∀ row ∈ due, Addressed row.toDeliveryId s) := fun _ =>
    Triple.pure_ends (haddressed _).stable fun _ _ hs row hmem =>
      hs row (List.mem_cons_of_mem _ hmem)
  refine Triple.bind_ends isolation_frame (plain_ends (confined_db trivial) (haddressed _))
    fun endpoint? => ?_
  refine Triple.bind_ends isolation_frame (plain_ends confined_now (haddressed _)) fun at_ => ?_
  split
  · exact Triple.bind_ends isolation_frame (plain_ends (confined_db trivial) (haddressed _))
      fun _ => hnext promoted
  · exact Triple.bind_ends isolation_frame (upsert_ends (haddressed _)
      (fun s hs => (hs previous List.mem_cons_self).next) _ at_) fun _ => hnext (promoted + 1)

theorem promoteDueRetries_isolated :
    Triple answer (isolation o own safe) (fun _ => True) (promoteDueRetries o)
      (OnSuccess fun _ _ => True) := by
  have haddressed : ∀ due : List WebhookDelivery, Persistent fun s =>
      ∀ row ∈ due, Addressed row.toDeliveryId s :=
    fun _ s s' h hs row hmem => (h row hmem).persists hs
  refine Triple.bind_ends isolation_frame (plain_ends confined_now (.fact True)) fun at_ => ?_
  refine Triple.bind_ends isolation_frame (read_ends (.fact True) haddressed trivial ?_)
    fun due => ?_
  · rintro m s _ hisolated _ ⟨⟩ row hmem
    obtain ⟨hrow, -⟩ := mem_dueRetries.1 (List.mem_of_mem_take hmem)
    exact hisolated.deliveries _ row (Table.find?_of_mem hrow)
  exact (Triple.foldlM_ends isolation_frame (I := fun due _ s =>
    ∀ row ∈ due, Addressed row.toDeliveryId s) (fun _ => (haddressed []).stable)
    (fun previous rest promoted => promote_isolated promoted previous rest) due 0).ends_mono
      (fun _ _ hs => hs) fun _ _ _ => trivial

/-! ## Sending -/

/-- A URL without a complaint is safe, where the guard is asked. -/
theorem blocked_ends {P : Shared → Prop} (hP : Persistent P) (url : String) :
    Triple answer (isolation o own safe) P (blocked o url) (OnSuccess fun complaint s =>
      P s ∧ (complaint = none → o.blockPrivateNetworks = true → safe url)) := by
  have hpost : ∀ complaint : Option String, Persistent fun s =>
      P s ∧ (complaint = none → o.blockPrivateNetworks = true → safe url) :=
    fun _ => hP.and (.fact _)
  refine Triple.ite (fun _ => ?_) fun hoff => ?_
  · refine Triple.tryCatch_ends (E := P) isolation_frame.toLawful ?_ (fun _ => (hpost _).stable)
      fun error => ?_
    · have hframe : (isolation o own safe).Frame P := ⟨isolation_frame.toLawful, hP.stable⟩
      refine Triple.bind_ends hframe (Q := fun _ s => P s ∧ safe url) ?_ fun _ => ?_
      · exact call_kept hP (fun _ => hP.and (.fact _)) (fun _ _ => trivial)
          fun m s _ _ hs hm hok _ => ⟨hs, hm hok⟩
      · exact Triple.pure_ends (hP.and (.fact _)).stable fun _ _ hs => ⟨hs.1, fun _ _ => hs.2⟩
    · exact Triple.pure_ends hP.stable fun _ _ hs => ⟨hs, fun h => by cases h⟩
  · exact Triple.pure_ends hP.stable fun _ _ hs => ⟨hs, fun _ hon => absurd hon hoff⟩

/-- What is made of what was read, is proper. -/
theorem Matched.proper {id : DeliveryId} {event : WebhookEvent} {endpoint : WebhookEndpoint}
    {secret : String} (h : Matched id event endpoint s) (hown : own id.endpointId
      endpoint.secretEncrypted) (hsecret : o.decryptSecret endpoint.secretEncrypted = .ok secret)
    (hsafe : o.blockPrivateNetworks = true → safe endpoint.url) {timestamp : Int}
    {timeoutMs : Nat} : Proper o own safe ⟨endpoint.url, o.signWebhook secret event.payload timestamp,
      timestamp, event.id, id, event.type, event.payload, timeoutMs⟩ s := by
  obtain ⟨hevent, endpoint', hendpoint', hmerchant, hurl⟩ := h
  refine ⟨⟨event, Table.mem_of_find? hevent, endpoint', Table.mem_of_find? hendpoint', ?_⟩,
    ⟨endpoint.secretEncrypted, secret, hown, hsecret, rfl⟩, hsafe⟩
  exact ⟨hmerchant, rfl, (Table.key_of_find? hevent).symm, (Table.key_of_find? hendpoint').symm, rfl,
    rfl, hurl.symm⟩

theorem send_isolated (delivery : WebhookDelivery) {endpoint : WebhookEndpoint}
    (event : WebhookEvent) (hown : own delivery.endpointId endpoint.secretEncrypted)
    (hsafe : o.blockPrivateNetworks = true → safe endpoint.url) :
    Triple answer (isolation o own safe) (Matched delivery.toDeliveryId event endpoint)
      (send o delivery endpoint event) (OnSuccess fun _ _ => True) := by
  have hmatched := Persistent.matched delivery.toDeliveryId event endpoint
  have hdone : ∀ {α : Type} {x : Process α}, x.Confined Plain → Triple answer
      (isolation o own safe) (Matched delivery.toDeliveryId event endpoint) x
      (OnSuccess fun _ _ => True) :=
    fun hx => (plain_ends hx hmatched).ends_mono (fun _ _ hs => hs) fun _ _ _ => trivial
  cases hsecret : o.decryptSecret endpoint.secretEncrypted with
  | error message =>
    refine Triple.bind_ends isolation_frame (Q := fun _ _ => False) ?_ fun secret => ?_
    · refine Triple.done hmatched.stable fun _ _ _ => ?_
      rw [hsecret]
      trivial
    · exact fun _ _ h => h.elim
  | ok secret =>
  refine Triple.bind_ends isolation_frame (Q := fun a s =>
    Matched delivery.toDeliveryId event endpoint s ∧ a = secret) ?_ fun _ => ?_
  · refine Triple.done hmatched.stable fun _ _ hs => ?_
    rw [hsecret]
    exact ⟨hs, rfl⟩
  refine Triple.knowing ?_
  rintro rfl
  refine Triple.bind_ends isolation_frame (plain_ends confined_now hmatched) fun sentAt => ?_
  dsimp only
  refine Triple.bind_ends isolation_frame (plain_ends (confined_db trivial) hmatched) fun _ => ?_
  refine Triple.bind_ends isolation_frame (plain_ends confined_now hmatched) fun startedAt => ?_
  refine Triple.bind_ends isolation_frame (Q := fun _ =>
    Matched delivery.toDeliveryId event endpoint) ?_ fun sent => ?_
  · refine Triple.tryCatch_ends (E := Matched delivery.toDeliveryId event endpoint)
      isolation_frame.toLawful ?_ (fun _ => hmatched.stable) fun error => ?_
    · have hframe : (isolation o own safe).Frame (Matched delivery.toDeliveryId event endpoint) :=
        ⟨isolation_frame.toLawful, hmatched.stable⟩
      refine Triple.bind_ends hframe (Q := fun _ => Matched delivery.toDeliveryId event endpoint)
        ?_ fun response => ?_
      · exact call_kept hmatched (fun _ => hmatched) (fun s hs => hs.proper hown hsecret hsafe)
          fun _ _ _ _ hs _ _ _ => hs
      · refine Triple.bind_ends hframe (plain_kept confined_now hmatched) fun receivedAt => ?_
        refine plain_kept (.ite (.bind (confined_finalizeSuccess ..) fun _ => .pure _) (.pure _))
          hmatched
    · exact Triple.pure_ends hmatched.stable fun _ _ hs => hs
  · cases sent with
    | delivered => exact hdone (.pure _)
    | refused response responseTimeMs => exact hdone (confined_finalizeFailure ..)
    | threw message =>
      exact hdone (.bind confined_now fun _ => confined_finalizeFailure ..)

theorem attemptDelivery_isolated (id : DeliveryId) :
    Triple answer (isolation o own safe) (fun _ => True) (attemptDelivery o id)
      (OnSuccess fun _ _ => True) := by
  have hdone : ∀ {P : Shared → Prop} {α : Type} {x : Process α}, Persistent P → x.Confined Plain →
      Triple answer (isolation o own safe) P x (OnSuccess fun _ _ => True) :=
    fun hP hx => (plain_ends hx hP).ends_mono (fun _ _ hs => hs) fun _ _ _ => trivial
  have hdelivery : ∀ delivery? : Option WebhookDelivery, Persistent fun s =>
      ∀ delivery, delivery? = some delivery → Addressed delivery.toDeliveryId s :=
    fun _ s s' h hs delivery heq => (h delivery heq).persists hs
  refine Triple.bind_ends isolation_frame (read_ends (.fact True) hdelivery trivial ?_)
    fun delivery? => ?_
  · rintro m s _ hisolated _ ⟨⟩ delivery hfound
    rw [Table.key_of_find? hfound]
    exact hisolated.deliveries id delivery hfound
  cases hpending : delivery?.filter (·.status = .pending) with
  | none => exact hdone (hdelivery delivery?) (.pure _)
  | some delivery =>
  obtain ⟨rfl, -⟩ := Option.filter_eq_some_iff.1 hpending
  have hread : ∀ endpoint? : Option WebhookEndpoint, Persistent fun s =>
      ∀ endpoint, endpoint? = some endpoint →
        (∃ event, Matched delivery.toDeliveryId event endpoint s) ∧
          own delivery.endpointId endpoint.secretEncrypted := by
    intro endpoint? s s' h hs endpoint heq
    obtain ⟨⟨event, hmatched⟩, hown⟩ := h endpoint heq
    exact ⟨⟨event, hmatched.persists hs⟩, hown⟩
  refine Triple.bind_ends isolation_frame (read_ends (q := .findEndpoint delivery.endpointId)
    (hdelivery _) hread trivial ?_) fun endpoint? => ?_
  · rintro m s _ hisolated hs ⟨⟩ endpoint hfound
    obtain ⟨event, endpoint', hevent, hendpoint', hmerchant⟩ := hs delivery rfl
    obtain rfl : endpoint' = endpoint := Option.some.inj (hendpoint'.symm.trans hfound)
    exact ⟨⟨event, hevent, endpoint', hendpoint', hmerchant, rfl⟩, hisolated.secrets _ _ hfound⟩
  cases henabled : endpoint?.filter (·.enabled) with
  | none => exact hdone (hread endpoint?) (.bind (confined_db trivial) fun _ => .pure _)
  | some endpoint =>
  obtain ⟨rfl, -⟩ := Option.filter_eq_some_iff.1 henabled
  refine (Triple.knowing (P := fun s => ∃ event, Matched delivery.toDeliveryId event endpoint s)
    fun hown => ?_).ends_mono (fun s _ hs => hs endpoint rfl) fun _ _ h => h
  have hsome : Persistent fun s => ∃ event, Matched delivery.toDeliveryId event endpoint s := by
    rintro s s' ⟨event, hmatched⟩ hs
    exact ⟨event, hmatched.persists hs⟩
  have hevent : ∀ event? : Option WebhookEvent, Persistent fun s =>
      ∀ event, event? = some event → Matched delivery.toDeliveryId event endpoint s :=
    fun _ s s' h hs event heq => (h event heq).persists hs
  refine Triple.bind_ends isolation_frame (read_ends (q := .findEvent delivery.webhookEventId)
    hsome hevent trivial ?_) fun event? => ?_
  · rintro m s _ _ ⟨event, hmatched⟩ ⟨⟩ event' hfound
    obtain rfl : event = event' := Option.some.inj (hmatched.1.symm.trans hfound)
    exact hmatched
  cases event? with
  | none =>
    refine hdone (hevent none) (.bind (confined_db ?_) fun _ => .pure _)
    trivial
  | some event =>
  have hmatched := Persistent.matched delivery.toDeliveryId event endpoint
  refine Triple.bind_ends isolation_frame ((plain_ends (confined_db
    (q := .claimDelivery delivery.toDeliveryId) trivial) hmatched).ends_mono
    (fun s _ hs => hs event rfl) fun _ _ h => h) fun claimed => ?_
  refine Triple.ite (fun _ => hdone hmatched (.pure _)) fun _ => ?_
  refine Triple.bind_ends isolation_frame (blocked_ends hmatched endpoint.url) fun complaint => ?_
  refine Triple.bind_ends isolation_frame (Q := fun _ _ => True) ?_ fun ended =>
    hdone (.fact True) (.pure _)
  refine Triple.knowing fun hcomplaint => ?_
  cases complaint with
  | none => exact send_isolated delivery event hown (hcomplaint rfl)
  | some message => exact hdone hmatched (confined_finalizeFailure ..)

/-- A poll cycle among others sends only what is proper. -/
theorem runOnce_isolated :
    Triple answer (isolation o own safe) (fun _ => True) (runOnce o)
      (OnSuccess fun _ _ => True) := by
  have htrue : Persistent fun _ => True := .fact True
  refine Triple.bind_ends isolation_frame (plain_ends (confined_recoverStaleInFlight o) htrue)
    fun recovered => ?_
  refine Triple.bind_ends isolation_frame enqueueNewDeliveries_isolated fun enqueued => ?_
  refine Triple.bind_ends isolation_frame promoteDueRetries_isolated fun retriesPromoted => ?_
  refine Triple.bind_ends isolation_frame (plain_ends confined_now htrue) fun at_ => ?_
  refine Triple.bind_ends isolation_frame (plain_ends (confined_db trivial) htrue) fun due => ?_
  exact Triple.foldlM_ends isolation_frame (I := fun _ _ _ => True) (fun _ => htrue.stable)
    (fun delivery _ summary => Triple.map_ends isolation_frame
      (attemptDelivery_isolated delivery.toDeliveryId) fun _ => htrue.stable) due _

/-! ## Runs -/

/-- Runs in which merchants store their own secrets, and the guard lets pass what is safe. -/
def guarded (own : String → String → Prop) (safe : String → Prop) :
    Rules Request Answer DispatchError WebhookDispatchSummary Unit Moment Change Shared where
  starts _ _ := True
  live _ _ := True
  steps _ := Vouched safe
  happens c _ := c.Stores own

instance (own : String → String → Prop) (safe : String → Prop)
    [∀ id stored, Decidable (own id stored)] [∀ url, Decidable (safe url)]
    (move : Move Unit Moment Change) (s : State) : Decidable ((guarded own safe).meets move s) :=
  have : ∀ l s, Decidable ((guarded own safe).starts l s) :=
    fun _ _ => inferInstanceAs (Decidable True)
  have : ∀ n i, Decidable ((guarded own safe).live n i) := fun _ _ => inferInstanceAs (Decidable True)
  have : ∀ i r m s, Decidable ((guarded own safe).steps i r m s) :=
    fun _ r m s => inferInstanceAs (Decidable (Vouched safe r m s))
  have : ∀ c s, Decidable ((guarded own safe).happens c s) :=
    fun c _ => inferInstanceAs (Decidable (c.Stores own))
  inferInstance

theorem guarded_compatible (o : WebhookDispatcherOptions) (own : String → String → Prop)
    (safe : String → Prop) :
    Compatible (system o) (guarded own safe) Shared.empty (Isolated own) (fun _ => Persists)
      (fun _ _ r s s' => Entitled o own safe r s ∧ Persists s s') (fun _ _ _ => True)
      (fun _ _ => OnSuccess fun _ _ => True) where
  lawful _ _ := isolation_frame.toLawful
  code _ _ := runOnce_isolated
  live _ _ _ _ := trivial
  others _ _ _ _ _ _ _ _ _ _ _ _ hguar := hguar.2
  environment _ _ hisolated hc := ⟨(hisolated.change hc).1, fun _ => (hisolated.change hc).2⟩
  start _ s _ hgood _ := ⟨hgood.invariant, trivial, fun _ _ _ => .refl s.shared⟩

/-- What a worker is about to send. -/
def aboutToSend (s : State) (i : Nat) : Option WebhookRequest :=
  match s.calls[i]? with
  | some (_, .request (.fetch sent) _) => some sent
  | _ => none

theorem proper_of_reachable {s : State} (h : (system o).Reachable (guarded own safe) Shared.empty s)
    {i : Nat} {request : WebhookRequest} (hsend : aboutToSend s i = some request) :
    Proper o own safe request s.shared := by
  obtain ⟨l, next, hcall⟩ : ∃ l next, s.calls[i]? = some (l, .request (.fetch request) next) := by
    unfold aboutToSend at hsend
    split at hsend
    · rename_i hcall
      cases hsend
      exact ⟨_, _, hcall⟩
    · cases hsend
  have hgood := Good.of_reachable (guarded_compatible o own safe) Isolated.empty h
  have hvouched : Vouched safe (.fetch request) (Shop.moment 0 200) s.shared := trivial
  exact (hgood.asks (guarded_compatible o own safe) hcall trivial (m := Shop.moment 0 200) hvouched).1

/-! ## At the endpoint -/

open WebhookSignature

/-- Signatures are made by `signWebhook`, of the bytes of the text. -/
def Signs (hmac : Hmac) (o : WebhookDispatcherOptions) : Prop :=
  ∀ secret body, ∀ timestamp : Nat, o.signWebhook secret body timestamp =
    (signWebhook hmac 0 secret (Utf8.encode body.toList) timestamp).signature

/-- Whoever holds the secret accepts the header for the body as long as it is near, and for nothing
else. -/
def Binds (hmac : Hmac) (secret : String) (timestamp : Nat) (rawBody : List UInt8)
    (header : String) : Prop :=
  ∀ clock current options, secret ∈ secretsInUse current options →
    ((∃ time, Accepts hmac clock current options header time rawBody) ↔
      |(options.now clock : ℚ) - timestamp| ≤ options.tolerance) ∧
    ∀ time rawBody', Accepts hmac clock current options header time rawBody' →
      CollisionFree hmac (secretsInUse current options)
        [buildSignedPayload time rawBody', buildSignedPayload timestamp rawBody] →
      time = timestamp ∧ rawBody' = rawBody

theorem binds_signWebhook (hmac : Hmac) (clock : Nat) (secret : String) (rawBody : List UInt8)
    {timestamp : Nat} (htimestamp : timestamp < 10 ^ 15) :
    Binds hmac secret timestamp rawBody
      (signWebhook hmac clock secret rawBody timestamp).signature := by
  intro clock' current options hsecret
  have hparse : parseSignatureHeader (signWebhook hmac clock secret rawBody timestamp).signature =
      some ⟨timestamp, [computeSignature hmac secret (buildSignedPayload timestamp rawBody)]⟩ :=
    parse_signWebhook clock htimestamp
  refine ⟨⟨?_, fun hclose => ?_⟩, fun time rawBody' haccepts hfree => ?_⟩
  · rintro ⟨time, haccepts⟩
    obtain ⟨parsed, hparsed, rfl, hclose, -⟩ := accepts_iff.1 haccepts
    obtain rfl := Option.some.inj (hparse.symm.trans hparsed)
    exact hclose
  · exact ⟨timestamp, accepts_iff.2 ⟨_, hparse, rfl, hclose, _, List.mem_cons_self, secret, hsecret,
      rfl⟩⟩
  · obtain ⟨parsed, hparsed, rfl, -, value, hvalue, hsigned⟩ := accepts_iff.1 haccepts
    obtain rfl := Option.some.inj (hparse.symm.trans hparsed)
    obtain rfl := List.mem_singleton.1 hvalue
    refine hsigned.unique ⟨secret, hsecret, rfl⟩ fun one hone other hother => ?_
    rw [List.mem_append, or_self] at hone hother
    exact hfree one hone other hother

/-- **Webhooks reach whom they are for.** Whatever is about to be sent carries the whole of one event
to an endpoint of the same merchant, to a URL that the guard let pass, and is signed so that the
holder of a secret of that endpoint, and nobody for anything else, finds it authentic. -/
theorem requests_isolated {hmac : Hmac} (hsigns : Signs hmac o) {s : State}
    (h : (system o).Reachable (guarded own safe) Shared.empty s) {i : Nat}
    {request : WebhookRequest} (hsend : aboutToSend s i = some request) :
    (∃ event ∈ s.shared.events, ∃ endpoint ∈ s.shared.endpoints, Carries request event endpoint) ∧
      (o.blockPrivateNetworks = true → safe request.url) ∧
      ∃ stored secret, own request.deliveryId.endpointId stored ∧
        o.decryptSecret stored = .ok secret ∧
        ∀ timestamp < 10 ^ 15, request.timestamp = (timestamp : Nat) →
          Binds hmac secret timestamp (Utf8.encode request.body.toList) request.signature := by
  obtain ⟨hcarries, ⟨stored, secret, hown, hsecret, hsignature⟩, hsafe⟩ := proper_of_reachable h hsend
  refine ⟨hcarries, hsafe, stored, secret, hown, hsecret, fun timestamp hsmall htimestamp => ?_⟩
  rw [hsignature, htimestamp, hsigns]
  exact binds_signWebhook hmac 0 secret _ hsmall

/-! ## Two merchants -/

namespace Shop

/-- The dispatcher of one merchant among others. -/
def signing : WebhookDispatcherOptions :=
  { options with
    signWebhook := fun secret body timestamp =>
      (signWebhook sampleHmac 0 secret (Utf8.encode body.toList) timestamp.toNat).signature }

def rivalEndpoint : WebhookEndpoint :=
  { endpoint with
    id := "we_2"
    merchantId := "mer_2"
    url := "https://other.example/hooks"
    secretEncrypted := "whsec_2" }

/-- What the two merchants store, and after a rotation. -/
def stored (id secretEncrypted : String) : Prop :=
  (id, secretEncrypted) ∈ [("we_1", "whsec_1"), ("we_1", "whsec_3"), ("we_2", "whsec_2")]

instance (id secretEncrypted : String) : Decidable (stored id secretEncrypted) :=
  inferInstanceAs (Decidable (_ ∈ _))

/-- A worker is about to send the event of one merchant, whose secret has just been rotated. -/
def sending : List (Move Unit Moment Change) :=
  .environment (.create rivalEndpoint) :: claimed ++ .environment (.rotateSecret "we_1" "whsec_3") ::
    steps 0 4 (moment 100000 200)

theorem requests_isolated_sending :
    ∃ request, aboutToSend ((system signing).after sending Shared.empty) 0 = some request ∧
      request.url = "https://shop.example/hooks" ∧
      ∃ encrypted secret, stored request.deliveryId.endpointId encrypted ∧
        signing.decryptSecret encrypted = .ok secret ∧
        Binds sampleHmac secret 100 (Utf8.encode request.body.toList) request.signature := by
  have hsigns : Signs sampleHmac signing := fun _ _ _ => rfl
  have hrun : (system signing).Reachable (guarded stored (· = "https://shop.example/hooks"))
      Shared.empty ((system signing).after sending Shared.empty) :=
    System.reachable_after (by decide +kernel)
  have hsent : (aboutToSend ((system signing).after sending Shared.empty) 0).map
      (fun request => (request.url, request.timestamp)) =
        some ("https://shop.example/hooks", 100) := by
    decide +kernel
  obtain ⟨request, hsend, hfields⟩ := Option.map_eq_some_iff.1 hsent
  rw [Prod.mk.injEq] at hfields
  obtain ⟨-, -, encrypted, secret, hstored, hsecret, hbinds⟩ := requests_isolated hsigns hrun hsend
  exact ⟨request, hsend, hfields.1, encrypted, secret, hstored, hsecret,
    hbinds 100 (by decide) hfields.2⟩

end Shop

end Webhooks

end PaymentGateway
