import PaymentGateway.Webhooks.Attempts

/-!
# One batch of deliveries

`runOnce` sends what is due, one delivery after the other. Whatever is wrong with one of them, with
its URL or with the answer of its server, is caught and recorded as a failure of that attempt. Only
the secret is decrypted outside of every handler.

**Theorem (`runOnce_unspoilt_iff`).** A poll cycle whose statements are answered ends normally, with
every due delivery attempted and every delivery that it has claimed in a final status (`Unspoilt`),
exactly when each of those either has a URL that the guard refuses or a secret that can be decrypted
(`Claim.Sendable`).

What the cycle asks for, and is answered, is written down as it goes (`Log.note`); merchants go on
changing everything between two of its requests (`Turn`). The proof is an outline of the cycle in
which a failure leaves a claim that could not be sent, and a success leaves none.
-/

namespace PaymentGateway

namespace Webhooks

open Program Keyed

/-! ## What is written down -/

/-- A delivery that was claimed, the endpoint by which the cycle goes, and whether the guard has
refused its URL. -/
structure Claim where
  id : DeliveryId
  endpoint : Option WebhookEndpoint
  refused : Bool

structure Log where
  batch : List DeliveryId
  attempted : List DeliveryId
  /-- The endpoint that was read last. -/
  endpoint : Option WebhookEndpoint
  /-- The latest claim first. -/
  claims : List Claim

def Log.empty : Log := ⟨[], [], none, []⟩

def Log.note (log : Log) : (r : Request) → Except DispatchError (Answer r) → Log
  | .statement (.findDue ..), .ok due => { log with batch := due.map (·.toDeliveryId) }
  | .statement (.findDelivery id), .ok _ => { log with attempted := id :: log.attempted }
  | .statement (.findEndpoint _), .ok endpoint? => { log with endpoint := endpoint? }
  | .statement (.claimDelivery id), .ok claimed =>
    if claimed = 0 then log else { log with claims := ⟨id, log.endpoint, false⟩ :: log.claims }
  | .assertPublicWebhookUrl _, .error _ =>
    { log with claims := log.claims.modifyHead ({ · with refused := true }) }
  | _, _ => log

/-- The tables, and what the cycle has done. -/
structure Cycle where
  shared : Shared
  log : Log

def Cycle.answer (r : Request) (m : Moment) (c : Cycle) : Except DispatchError (Answer r) × Cycle :=
  let answered := Webhooks.answer r m c.shared
  (answered.1, ⟨answered.2, c.log.note r answered.1⟩)

/-- What others have changed since the last request, and the moment of the next one. -/
structure Turn where
  meanwhile : List Change
  moment : Moment

def Cycle.changed (c : Cycle) (changes : List Change) : Cycle :=
  { c with shared := changes.foldl (fun s event => change event s) c.shared }

/-- A poll cycle, from the tables it begins with. -/
def cycle (o : WebhookDispatcherOptions) (feed : Nat → Turn) (s : Shared) :
    Except DispatchError WebhookDispatchSummary × Cycle :=
  (runOnce o).exec (fun r turn c => Cycle.answer r turn.moment (c.changed turn.meanwhile)) feed 0
    ⟨s, .empty⟩

/-- The attempt is over; one that failed has the time of its retry. -/
def WebhookDelivery.Final (row : WebhookDelivery) : Prop :=
  row.status = .delivered ∨ (row.status = .failed ∧ row.nextRetryAt.isSome) ∨
    row.status = .exhausted ∨ row.status = .abandoned
  deriving Decidable

/-- The row is there, and its attempt is over. -/
def Settled (s : Shared) (id : DeliveryId) : Prop :=
  ∃ row ∈ s.deliveries.find? id, row.Final
  deriving Decidable

/-- The row is there, and does not wait to be sent. -/
def TakenUp (s : Shared) (id : DeliveryId) : Prop :=
  ∃ row ∈ s.deliveries.find? id, row.status ≠ .pending
  deriving Decidable

/-- No delivery has spoilt the batch. -/
structure Unspoilt (ended : Except DispatchError WebhookDispatchSummary × Cycle) : Prop where
  returns : ∃ summary, ended.1 = .ok summary
  attempted : ∀ id ∈ ended.2.log.batch, id ∈ ended.2.log.attempted ∧ TakenUp ended.2.shared id
  settled : ∀ claim ∈ ended.2.log.claims, Settled ended.2.shared claim.id

/-- The secret can be decrypted, or is not needed. -/
def Claim.Sendable (o : WebhookDispatcherOptions) (claim : Claim) : Prop :=
  claim.refused = true ∨ ∃ endpoint ∈ claim.endpoint, ∃ secret,
    o.decryptSecret endpoint.secretEncrypted = .ok secret

/-! ## What rows come to -/

theorem WebhookDelivery.Final.not_pending {row : WebhookDelivery} (h : row.Final) :
    row.status ≠ .pending := by
  rcases h with h | ⟨h, -⟩ | h | h <;> simp [h]

theorem Settled.takenUp {s : Shared} {id : DeliveryId} (h : Settled s id) : TakenUp s id := by
  obtain ⟨row, hrow, hfinal⟩ := h
  exact ⟨row, hrow, hfinal.not_pending⟩

/-- An attempt is numbered from one, and its endpoint is there. -/
def Registered (s : Shared) (id : DeliveryId) : Prop :=
  1 ≤ id.attempt ∧ ∃ maxAttempts, Allows s id.endpointId maxAttempts

/-- Every delivery is registered. -/
def Founded (s : Shared) : Prop :=
  ∀ id row, s.deliveries.find? id = some row → Registered s id

/-- Rows and endpoints stay; what is taken up stays so, and so does what is final. -/
structure Onward (s s' : Shared) : Prop where
  deliveries : ∀ id row, s.deliveries.find? id = some row →
    ∃ row', s'.deliveries.find? id = some row' ∧
      (row.status ≠ .pending → row'.status ≠ .pending) ∧ (row.Final → row'.Final)
  endpoints : ∀ endpointId maxAttempts, Allows s endpointId maxAttempts →
    Allows s' endpointId maxAttempts

theorem Onward.refl (s : Shared) : Onward s s :=
  ⟨fun _ row hrow => ⟨row, hrow, fun h => h, fun h => h⟩, fun _ _ h => h⟩

theorem Onward.trans {s s' s'' : Shared} (h : Onward s s') (h' : Onward s' s'') :
    Onward s s'' := by
  refine ⟨fun id row hrow => ?_, fun _ _ hallows => h'.endpoints _ _ (h.endpoints _ _ hallows)⟩
  obtain ⟨row', hrow', htaken, hfinal⟩ := h.deliveries id row hrow
  obtain ⟨row'', hrow'', htaken', hfinal'⟩ := h'.deliveries id row' hrow'
  exact ⟨row'', hrow'', fun hrow => htaken' (htaken hrow), fun hrow => hfinal' (hfinal hrow)⟩

/-- The row is there. -/
def Present (s : Shared) (id : DeliveryId) : Prop := (s.deliveries.find? id).isSome

theorem Onward.present {s s' : Shared} (h : Onward s s') {id : DeliveryId} (hid : Present s id) :
    Present s' id := by
  obtain ⟨row, hrow⟩ := Option.isSome_iff_exists.1 hid
  obtain ⟨row', hrow', -⟩ := h.deliveries id row hrow
  exact Option.isSome_iff_exists.2 ⟨row', hrow'⟩

theorem Onward.takenUp {s s' : Shared} (h : Onward s s') {id : DeliveryId} (hid : TakenUp s id) :
    TakenUp s' id := by
  obtain ⟨row, hrow, htaken⟩ := hid
  obtain ⟨row', hrow', hkept, -⟩ := h.deliveries id row hrow
  exact ⟨row', hrow', hkept htaken⟩

theorem Onward.settled {s s' : Shared} (h : Onward s s') {id : DeliveryId} (hid : Settled s id) :
    Settled s' id := by
  obtain ⟨row, hrow, hfinal⟩ := hid
  obtain ⟨row', hrow', -, hkept⟩ := h.deliveries id row hrow
  exact ⟨row', hrow', hkept hfinal⟩

theorem Registered.onward {s s' : Shared} {id : DeliveryId} (h : Registered s id)
    (hs : Onward s s') : Registered s' id := by
  obtain ⟨hfirst, maxAttempts, hallows⟩ := h
  exact ⟨hfirst, maxAttempts, hs.endpoints _ _ hallows⟩

/-- Merchants change no delivery. -/
theorem Onward.change (event : Change) (s : Shared) : Onward s (change event s) := by
  refine ⟨fun id row hrow => ⟨row, ?_, fun h => h, fun h => h⟩, (Progresses.change event s).endpoints⟩
  rw [deliveries_change, hrow]

/-- Rewriting rows in place. -/
theorem Onward.rewrite {s s' : Shared} {f : DeliveryId → WebhookDelivery → WebhookDelivery}
    (hendpoints : s'.endpoints = s.endpoints)
    (hfind : ∀ id, s'.deliveries.find? id = (s.deliveries.find? id).map (f id))
    (hf : ∀ id row, s.deliveries.find? id = some row →
      (row.status ≠ .pending → (f id row).status ≠ .pending) ∧ (row.Final → (f id row).Final)) :
    Onward s s' := by
  refine ⟨fun id row hrow => ⟨f id row, by simp [hfind, hrow], hf id row hrow⟩, ?_⟩
  intro endpointId maxAttempts hallows
  simpa only [Allows, hendpoints] using hallows

theorem Onward.updateEndpoint (s : Shared) (id : String) {f : WebhookEndpoint → WebhookEndpoint}
    (hf : ∀ endpoint, (f endpoint).id = endpoint.id)
    (hmax : ∀ endpoint, (f endpoint).maxAttempts = endpoint.maxAttempts) :
    Onward s (s.updateEndpoint id f hf) :=
  ⟨fun _ row hrow => ⟨row, hrow, fun h => h, fun h => h⟩,
    (Progresses.updateEndpoint s id hf hmax).endpoints⟩

/-! ## Statements -/

/-- A status that is written is final, and no retry is taken back otherwise. -/
def DeliveryUpdate.Concludes (data : DeliveryUpdate) : Prop :=
  match data.status with
  | none => data.nextRetryAt = none
  | some .failed => ∃ at_, data.nextRetryAt = some (some at_)
  | some status => status.Terminal

theorem DeliveryUpdate.Concludes.final {data : DeliveryUpdate} (h : data.Concludes)
    (hsome : data.status.isSome) (at_ : Int) (row : WebhookDelivery) : (data.apply at_ row).Final := by
  obtain ⟨status, hstatus⟩ := Option.isSome_iff_exists.1 hsome
  simp only [Concludes, hstatus] at h
  cases status with
  | failed =>
    obtain ⟨retryAt, hretry⟩ := h
    simp [WebhookDelivery.Final, apply, hstatus, hretry]
  | delivered | exhausted | abandoned => simp [WebhookDelivery.Final, apply, hstatus]
  | pending | inFlight => simp [WebhookDeliveryStatus.Terminal] at h

theorem Onward.updateDelivery {data : DeliveryUpdate} (hdata : data.Concludes) (s : Shared)
    (id : DeliveryId) (at_ : Int) : Onward s (s.updateDelivery id data at_) := by
  refine .rewrite rfl (s.find?_updateDelivery id data at_) fun id' row _ => ?_
  by_cases hid : id' = id
  · rw [if_pos hid]
    cases hstatus : data.status with
    | none =>
      have hretry : data.nextRetryAt = none := by simpa only [DeliveryUpdate.Concludes, hstatus] using hdata
      simp [DeliveryUpdate.apply, WebhookDelivery.Final, hstatus, hretry]
    | some status =>
      have hfinal := hdata.final (by rw [hstatus]; rfl) at_ row
      exact ⟨fun _ => hfinal.not_pending, fun _ => hfinal⟩
  · rw [if_neg hid]
    exact ⟨fun h => h, fun h => h⟩

/-- What a cycle makes sure of before it issues a statement. -/
def Prepared (s : Shared) : Statement → Prop
  | .updateDelivery id data => Present s id ∧ data.Concludes
  | .upsertDelivery id _ _ => Registered s id
  | .resetFailures endpointId | .incrementFailures endpointId | .disableEndpoint endpointId .. =>
    ∃ maxAttempts, Allows s endpointId maxAttempts
  | _ => True

/-- A statement for which everything is prepared succeeds, and takes the tables onward. -/
theorem Founded.perform {s : Shared} (h : Founded s) {q : Statement} (hq : Prepared s q)
    (m : Moment) : (∃ a, (perform s m q).1 = .ok a) ∧ Founded (perform s m q).2 ∧
      Onward s (perform s m q).2 := by
  have hkeeps : ∀ s', Onward s s' → (∀ id, Present s' id → Present s id ∨ Registered s id) →
      Founded s' := by
    intro s' hs hnew id row hrow
    rcases hnew id (Option.isSome_iff_exists.2 ⟨row, hrow⟩) with hold | hregistered
    · obtain ⟨row', hrow'⟩ := Option.isSome_iff_exists.1 hold
      exact (h id row' hrow').onward hs
    · exact hregistered.onward hs
  have hendpoint : ∀ id (f : WebhookEndpoint → WebhookEndpoint) hf,
      (∀ endpoint, (f endpoint).maxAttempts = endpoint.maxAttempts) →
        Founded (s.updateEndpoint id f hf) ∧ Onward s (s.updateEndpoint id f hf) :=
    fun id f hf hmax => ⟨hkeeps _ (.updateEndpoint s id hf hmax) fun _ h => .inl h,
      .updateEndpoint s id hf hmax⟩
  cases q with
  | upsertDelivery id url now =>
    simp only [Webhooks.perform]
    split
    · exact ⟨⟨(), rfl⟩, h, .refl s⟩
    · rename_i hnone
      have hfind := s.find?_insertDelivery url now m.now hnone
      have hs : Onward s (s.insertDelivery id url now m.now hnone) := by
        refine ⟨fun id' row hrow => ⟨row, ?_, fun h => h, fun h => h⟩, fun _ _ h => h⟩
        rw [hfind, if_neg (by rintro rfl; simp [hnone] at hrow), hrow]
      refine ⟨⟨(), rfl⟩, hkeeps _ hs fun id' hid' => ?_, hs⟩
      by_cases hid : id = id'
      · exact .inr (hid ▸ hq)
      · rw [Present, hfind, if_neg hid] at hid'
        exact .inl hid'
  | updateDelivery id data =>
    obtain ⟨row, hrow⟩ := Option.isSome_iff_exists.1 hq.1
    have hs := Onward.updateDelivery hq.2 s id m.now
    simp only [Webhooks.perform, hrow]
    refine ⟨by simp, hkeeps _ hs fun id' hid' => ?_, hs⟩
    rw [Present, s.find?_updateDelivery, Option.isSome_map] at hid'
    exact .inl hid'
  | claimDelivery id =>
    simp only [Webhooks.perform]
    split
    · rename_i hpending
      have hs : Onward s (s.updateDelivery id { status := some .inFlight } m.now) := by
        refine .rewrite rfl (s.find?_updateDelivery id _ m.now) fun id' row hrow => ?_
        by_cases hid : id' = id
        · subst hid
          simp only [hrow, Option.any_some, decide_eq_true_eq] at hpending
          exact ⟨fun hne => absurd hpending hne, fun hfinal => absurd hpending hfinal.not_pending⟩
        · rw [if_neg hid]
          exact ⟨fun h => h, fun h => h⟩
      refine ⟨⟨1, rfl⟩, hkeeps _ hs fun id' hid' => ?_, hs⟩
      rw [Present, s.find?_updateDelivery, Option.isSome_map] at hid'
      exact .inl hid'
    · exact ⟨⟨0, rfl⟩, h, .refl s⟩
  | abandonPending endpointId =>
    have hs : Onward s (s.sweep endpointId m.now) := by
      refine .rewrite rfl (s.find?_sweep endpointId m.now) fun id row _ => ?_
      unfold sweep
      split
      · rename_i hpending
        exact ⟨fun hne => absurd hpending.2 hne, fun hfinal => absurd hpending.2 hfinal.not_pending⟩
      · exact ⟨fun h => h, fun h => h⟩
    refine ⟨⟨_, rfl⟩, hkeeps _ hs fun id hid => ?_, hs⟩
    have hsome : ((s.sweep endpointId m.now).deliveries.find? id).isSome := hid
    rw [s.find?_sweep, Option.isSome_map] at hsome
    exact .inl hsome
  | resetFailures endpointId | incrementFailures endpointId | disableEndpoint endpointId =>
    obtain ⟨maxAttempts, endpoint, hendpoint', -⟩ := hq
    simp only [Webhooks.perform, hendpoint']
    exact ⟨by simp, hendpoint _ _ _ fun _ => rfl⟩
  | _ => exact ⟨⟨_, rfl⟩, h, .refl s⟩

/-! ## An outline of the cycle -/

/-- The tables move on, and nothing is written down. -/
def Along (c c' : Cycle) : Prop := Onward c.shared c'.shared ∧ c'.log = c.log

/-- Statements are answered, and others do no more than move the tables on. -/
def batching : Terms Request Moment Cycle :=
  ⟨fun c => Founded c.shared, Along, fun _ _ _ => True, fun _ m _ => m.fate = .answered⟩

theorem batching_lawful : batching.Lawful where
  refl c := ⟨.refl c.shared, rfl⟩
  trans _ _ _ h h' := ⟨h.1.trans h'.1, h'.2.trans h.2⟩

theorem stable_present (id : DeliveryId) : Stable batching fun c => Present c.shared id :=
  fun _ _ h _ hrely => hrely.1.present h

theorem stable_settled (id : DeliveryId) : Stable batching fun c => Settled c.shared id :=
  fun _ _ h _ hrely => hrely.1.settled h

/-- What is written down stays. -/
theorem stable_log (p : Log → Prop) : Stable batching fun c => p c.log := by
  intro c c' h _ hrely
  rw [hrely.2]
  exact h

section Requests

variable {P E : Cycle → Prop}

/-- A statement for which everything is prepared. -/
theorem prepared {q : Statement} {Q : q.Answer → Cycle → Prop} (hP : Stable batching P)
    (hE : batching.Frame E) (hQ : ∀ a, Stable batching (Q a))
    (hprepared : ∀ c, Founded c.shared → P c → Prepared c.shared q)
    (hpost : ∀ m c a, P c → Founded (perform c.shared m q).2 →
      Onward c.shared (perform c.shared m q).2 → (perform c.shared m q).1 = .ok a →
      Q a ⟨(perform c.shared m q).2, c.log.note (.statement q) (.ok a)⟩) :
    Triple Cycle.answer batching P (db q) (Ends E Q) := by
  refine Triple.call hP (Stable.ends hE.failure hQ) fun m c hinv hc hm => ?_
  obtain ⟨⟨a, hok⟩, hfounded, hs⟩ := Founded.perform hinv (hprepared c hinv hc) m
  have hm : m.fate = .answered := hm
  simp only [Cycle.answer, Webhooks.answer, hm]
  refine ⟨hfounded, trivial, ?_⟩
  rw [hok]
  exact hpost m c a hc hfounded hs hok

/-- A statement of which nothing is written down. -/
theorem quiet {q : Statement} (hP : Stable batching P) (hE : batching.Frame E)
    (hprepared : ∀ c, Founded c.shared → P c → Prepared c.shared q)
    (hnote : ∀ (log : Log) (a : q.Answer), log.note (.statement q) (.ok a) = log) :
    Triple Cycle.answer batching P (db q) (Ends E fun _ => P) := by
  refine prepared hP hE (fun _ => hP) hprepared fun m c a hc hfounded hs _ => ?_
  rw [hnote]
  exact hP c _ hc hfounded ⟨hs, rfl⟩

/-- A request that is no statement, and of which nothing is written down. -/
theorem outside_batching {r : Request} (hr : ∀ q, r ≠ .statement q) (hP : Stable batching P)
    (hE : batching.Frame E) (hnote : ∀ (log : Log) a, log.note r a = log)
    (herror : ∀ m c e, P c → (Webhooks.answer r m c.shared).1 = .error e → E c) :
    Triple Cycle.answer batching P (Program.call r) (Ends E fun _ => P) := by
  refine Triple.unchanged hP hE.failure (fun m c => ?_) (fun _ => trivial) herror
  simp only [Cycle.answer, answer_outside hr, hnote]

theorem now_batching (hP : Stable batching P) (hE : batching.Frame E) :
    Triple Cycle.answer batching P now (Ends E fun _ => P) :=
  outside_batching (fun _ h => nomatch h) hP hE (fun _ _ => rfl) fun _ _ _ _ h => nomatch h

theorem fetch_batching (request : WebhookRequest) (hP : Stable batching P) :
    Triple Cycle.answer batching P (fetchImpl request) (Ends P fun _ => P) :=
  outside_batching (fun _ h => nomatch h) hP ⟨batching_lawful, hP⟩ (fun _ _ => rfl)
    fun _ _ _ hc _ => hc

end Requests

/-! ## Finalization -/

section Finalization

variable {P E : Cycle → Prop} {o : WebhookDispatcherOptions}

theorem disable_batching (hP : Stable batching P) (hE : batching.Frame E) {endpointId : String}
    (hallows : ∀ c, Founded c.shared → P c → ∃ maxAttempts, Allows c.shared endpointId maxAttempts)
    (failures : Nat) :
    Triple Cycle.answer batching P (disable endpointId failures) (Ends E fun _ => P) := by
  refine Triple.bind_ends hE (now_batching hP hE) fun disabledAt => ?_
  refine Triple.bind_ends hE (quiet hP hE hallows fun _ _ => rfl) fun _ => ?_
  exact quiet hP hE (fun _ _ _ => trivial) fun _ _ => rfl

theorem retryAt_batching (hP : Stable batching P) (hE : batching.Frame E) {attempt : Nat}
    (hfirst : 1 ≤ attempt) :
    Triple Cycle.answer batching P (retryAt attempt) (Ends E fun _ => P) := by
  refine Triple.bind_ends hE (now_batching hP hE) fun at_ => ?_
  refine Triple.bind_ends hE (Q := fun _ => P) ?_ fun draw => ?_
  · exact outside_batching (fun _ h => nomatch h) hP hE (fun _ _ => rfl) fun _ _ _ _ h => nomatch h
  · simp only [computeRetryDelayMs, Nat.not_lt.2 hfirst, if_false]
    exact Triple.pure_ends hP fun _ _ hc => hc

/-- Writing a final status. -/
theorem concludes_batching (hP : Stable batching P) (hE : batching.Frame E) (id : DeliveryId)
    {data : DeliveryUpdate} (hdata : data.Concludes) (hsome : data.status.isSome) :
    Triple Cycle.answer batching (fun c => P c ∧ Present c.shared id) (db (.updateDelivery id data))
      (Ends E fun _ c => P c ∧ Settled c.shared id) := by
  refine prepared (hP.and (stable_present id)) hE (fun _ => hP.and (stable_settled id))
    (fun _ _ hc => ⟨hc.2, hdata⟩) fun m c a hc hfounded hs _ => ⟨hP c _ hc.1 hfounded ⟨hs, rfl⟩, ?_⟩
  obtain ⟨row, hrow⟩ := Option.isSome_iff_exists.1 hc.2
  simp only [perform, hrow]
  refine ⟨data.apply m.now row, ?_, hdata.final hsome m.now row⟩
  simp [Shared.find?_updateDelivery, hrow]

/-- A failure is recorded, and settles the attempt. -/
theorem finalizeFailure_settles (hP : Stable batching P) (hE : batching.Frame E) (id : DeliveryId)
    (info : FailureInfo) :
    Triple Cycle.answer batching (fun c => P c ∧ Present c.shared id)
      (finalizeFailure o id id.attempt id.endpointId info)
      (Ends E fun _ c => P c ∧ Settled c.shared id) := by
  have hregistered : ∀ c, Founded c.shared → P c ∧ Present c.shared id →
      Registered c.shared id := by
    intro c hfounded hc
    obtain ⟨row, hrow⟩ := Option.isSome_iff_exists.1 hc.2
    exact hfounded id row hrow
  intro c hinv hc
  have hfirst := (hregistered c hinv hc).1
  revert c
  have hallows := fun c hfounded hc => (hregistered c hfounded hc).2
  have hstable := hP.and (stable_present id)
  refine Triple.bind_ends hE (quiet hstable hE hallows fun _ _ => rfl) fun endpoint => ?_
  dsimp only
  refine Triple.bind_ends hE (Q := fun _ c => P c ∧ Present c.shared id) ?_ fun abandoned => ?_
  · exact Triple.ite (fun _ => disable_batching hstable hE hallows _) fun _ =>
      Triple.pure_ends hstable fun _ _ hc => hc
  refine Triple.bind_ends hE (now_batching hstable hE) fun sentAt => ?_
  generalize hstatus : (if decide (endpoint.maxAttempts ≤ id.attempt) = true then
    WebhookDeliveryStatus.exhausted else _) = status
  have hends : status = .failed ∨ status.Terminal := by
    subst hstatus
    split_ifs <;> simp [WebhookDeliveryStatus.Terminal]
  refine Triple.bind_ends hE (Q := fun nextRetryAt c => (P c ∧ Present c.shared id) ∧
    (status = .failed → nextRetryAt.isSome)) ?_ fun nextRetryAt => ?_
  · have hgiven : ∀ nextRetryAt : Option Int, Stable batching fun c => (P c ∧ Present c.shared id) ∧
        (status = .failed → nextRetryAt.isSome) := fun _ => hstable.and (Stable.fact _)
    refine Triple.ite (fun _ => ?_) fun hne => ?_
    · refine (retryAt_batching hstable hE hfirst).bind_ends hE fun at_ => ?_
      exact Triple.pure_ends hstable fun _ _ hc => ⟨hc, fun _ => rfl⟩
    · exact Triple.pure_ends hstable fun _ _ hc => ⟨hc, fun h => absurd h hne⟩
  refine Triple.knowing fun hretry => ?_
  refine Triple.bind_ends hE (concludes_batching hP hE id ?_ rfl) fun _ =>
    Triple.pure_ends (hP.and (stable_settled id)) fun _ _ hc => hc
  rcases hends with rfl | hterminal
  · obtain ⟨at_, rfl⟩ := Option.isSome_iff_exists.1 (hretry rfl)
    exact ⟨at_, rfl⟩
  · rcases hterminal with rfl | rfl | rfl <;> simp [DeliveryUpdate.Concludes, WebhookDeliveryStatus.Terminal]

/-- A success is recorded, and settles the attempt. -/
theorem finalizeSuccess_settles (hP : Stable batching P) (hE : batching.Frame E) (id : DeliveryId)
    {endpointId : String}
    (hallows : ∀ c, Founded c.shared → P c → ∃ maxAttempts, Allows c.shared endpointId maxAttempts)
    (httpStatus : Nat) (responseTimeMs : Int) (responseBody : String) :
    Triple Cycle.answer batching (fun c => P c ∧ Present c.shared id)
      (finalizeSuccess id endpointId httpStatus responseTimeMs responseBody)
      (Ends E fun _ c => P c ∧ Settled c.shared id) := by
  refine Triple.bind_ends hE (now_batching (hP.and (stable_present id)) hE) fun sentAt => ?_
  refine Triple.bind_ends hE (concludes_batching hP hE id ?_ rfl) fun _ => ?_
  · exact .inl rfl
  · exact quiet (hP.and (stable_settled id)) hE (fun c hfounded hc => hallows c hfounded hc.1)
      fun _ _ => rfl

/-- What is sent with a secret is settled, whatever is answered. -/
theorem send_settles (hP : Stable batching P) (hE : batching.Frame E) (delivery : WebhookDelivery)
    {endpoint : WebhookEndpoint} (hendpoint : endpoint.id = delivery.endpointId)
    (event : WebhookEvent) {secret : String}
    (hsecret : o.decryptSecret endpoint.secretEncrypted = .ok secret) :
    Triple Cycle.answer batching (fun c => P c ∧ Present c.shared delivery.toDeliveryId)
      (send o delivery endpoint event)
      (Ends E fun _ c => P c ∧ Settled c.shared delivery.toDeliveryId) := by
  have hstable := hP.and (stable_present delivery.toDeliveryId)
  have hlast : ∀ info, Triple Cycle.answer batching
      (fun c => P c ∧ Present c.shared delivery.toDeliveryId)
      (finalizeFailure o delivery.toDeliveryId delivery.attempt endpoint.id info)
      (Ends E fun _ c => P c ∧ Settled c.shared delivery.toDeliveryId) := by
    intro info
    rw [hendpoint]
    exact finalizeFailure_settles hP hE delivery.toDeliveryId info
  have hallows : ∀ c, Founded c.shared → P c ∧ Present c.shared delivery.toDeliveryId →
      ∃ maxAttempts, Allows c.shared endpoint.id maxAttempts := by
    intro c hfounded hc
    obtain ⟨row, hrow⟩ := Option.isSome_iff_exists.1 hc.2
    rw [hendpoint]
    exact (hfounded _ row hrow).2
  refine Triple.bind_ends hE (Q := fun _ c => P c ∧ Present c.shared delivery.toDeliveryId) ?_
    fun secret => ?_
  · rw [hsecret]
    exact Triple.pure_ends hstable fun _ _ hc => hc
  refine Triple.bind_ends hE (now_batching hstable hE) fun at_ => ?_
  refine Triple.bind_ends hE (quiet hstable hE (fun _ _ hc => ⟨hc.2, rfl⟩) fun _ _ => rfl)
    fun _ => ?_
  refine Triple.bind_ends hE (now_batching hstable hE) fun startedAt => ?_
  have hsent : ∀ sent, Stable batching fun c =>
      (P c ∧ Present c.shared delivery.toDeliveryId) ∧
        (sent = Sent.delivered → Settled c.shared delivery.toDeliveryId) :=
    fun _ => hstable.and (Stable.all fun _ => stable_settled _)
  refine Triple.bind_ends hE (Q := fun sent c => (P c ∧ Present c.shared delivery.toDeliveryId) ∧
    (sent = Sent.delivered → Settled c.shared delivery.toDeliveryId)) ?_ fun sent => ?_
  · -- what goes wrong in the `try` leaves the delivery to the handler
    refine Triple.tryCatch_ends batching_lawful
      (E := fun c => P c ∧ Present c.shared delivery.toDeliveryId) ?_ hsent
      fun e => Triple.pure_ends hstable fun _ _ hc => ⟨hc, fun h => nomatch h⟩
    have htry : batching.Frame fun c => P c ∧ Present c.shared delivery.toDeliveryId :=
      ⟨batching_lawful, hstable⟩
    refine Triple.bind_ends htry (fetch_batching _ hstable) fun response => ?_
    refine Triple.bind_ends htry (now_batching hstable htry) fun at_ => ?_
    refine Triple.ite (fun _ => ?_) fun _ => ?_
    · have hrecorded := finalizeSuccess_settles hstable htry delivery.toDeliveryId hallows
      refine Triple.bind_ends htry ((hrecorded _ _ _).ends_mono (fun _ _ hc => ⟨hc, hc.2⟩)
        fun _ _ hc => hc) fun _ => ?_
      exact Triple.pure_ends (hstable.and (stable_settled _)) fun _ _ hc => ⟨hc.1, fun _ => hc.2⟩
    · exact Triple.pure_ends hstable fun _ _ hc => ⟨hc, fun h => nomatch h⟩
  · cases sent with
    | delivered => exact Triple.pure_ends (hsent _) fun _ _ hc => ⟨hc.1.1, hc.2 rfl⟩
    | refused response responseTimeMs =>
      exact (hlast _).ends_mono (fun _ _ hc => hc.1) fun _ _ hc => hc
    | threw message =>
      refine Triple.bind_ends hE ((now_batching hstable hE).ends_mono (fun _ _ hc => hc.1)
        fun _ _ hc => hc) fun at_ => ?_
      exact hlast _

end Finalization

/-! ## A delivery of the batch -/

section Deliveries

variable (o : WebhookDispatcherOptions)

/-- A claim that cannot be sent. -/
def Stuck (c : Cycle) : Prop := ∃ claim ∈ c.log.claims, ¬claim.Sendable o

theorem frame_stuck : batching.Frame (Stuck o) :=
  ⟨batching_lawful, stable_log fun log => ∃ claim ∈ log.claims, ¬claim.Sendable o⟩

/-- These claims are done with, and of the batch these deliveries are left. -/
structure Going (claims : Log → List Claim) (rest : List DeliveryId) (c : Cycle) : Prop where
  claims : ∀ claim ∈ claims c.log, claim.Sendable o ∧ Settled c.shared claim.id
  batch : ∀ id ∈ c.log.batch, id ∈ rest ∨ (id ∈ c.log.attempted ∧ TakenUp c.shared id)
  rest : ∀ id ∈ rest, Present c.shared id

variable {o} {claims : Log → List Claim} {rest : List DeliveryId} {id : DeliveryId}

/-- The tables move on, and more may be written down. -/
theorem Going.onward {c c' : Cycle} (h : Going o claims rest c) (hs : Onward c.shared c'.shared)
    (hclaims : claims c'.log = claims c.log) (hbatch : c'.log.batch = c.log.batch)
    (hattempted : c.log.attempted ⊆ c'.log.attempted) : Going o claims rest c' where
  claims claim hclaim := by
    obtain ⟨hsendable, hsettled⟩ := h.claims claim (hclaims ▸ hclaim)
    exact ⟨hsendable, hs.settled hsettled⟩
  batch id hid := by
    refine (h.batch id (hbatch ▸ hid)).imp_right fun htaken => ?_
    exact ⟨hattempted htaken.1, hs.takenUp htaken.2⟩
  rest id hid := hs.present (h.rest id hid)

theorem stable_going (claims : Log → List Claim) (rest : List DeliveryId) :
    Stable batching (Going o claims rest) := by
  intro c c' h _ hrely
  have hlog : c'.log = c.log := hrely.2
  exact h.onward hrely.1 (by rw [hlog]) (by rw [hlog]) (by rw [hlog]; exact List.Subset.refl _)

/-- The next delivery of the batch was read. -/
def Reading (o : WebhookDispatcherOptions) (id : DeliveryId) (rest : List DeliveryId) (c : Cycle) :
    Prop := Going o Log.claims (id :: rest) c ∧ id ∈ c.log.attempted

/-- It was claimed. -/
def InHand (o : WebhookDispatcherOptions) (id : DeliveryId) (rest : List DeliveryId)
    (endpoint : WebhookEndpoint) (refused : Bool) (c : Cycle) : Prop :=
  (Going o (·.claims.tail) (id :: rest) c ∧ id ∈ c.log.attempted) ∧
    c.log.claims.head? = some ⟨id, some endpoint, refused⟩

theorem stable_reading : Stable batching (Reading o id rest) :=
  (stable_going _ _).and (stable_log fun log => id ∈ log.attempted)

theorem stable_inHand (endpoint : WebhookEndpoint) (refused : Bool) :
    Stable batching (InHand o id rest endpoint refused) :=
  ((stable_going _ _).and (stable_log fun log => id ∈ log.attempted)).and
    (stable_log fun log => log.claims.head? = some ⟨id, some endpoint, refused⟩)

/-- A delivery that is taken up is done with. -/
theorem Going.done {c : Cycle} (h : Going o claims (id :: rest) c) (hid : id ∈ c.log.attempted)
    (htaken : TakenUp c.shared id) : Going o claims rest c where
  claims := h.claims
  batch id' hid' := by
    rcases h.batch id' hid' with hmem | hdone
    · rcases List.mem_cons.1 hmem with rfl | hmem
      · exact .inr ⟨hid, htaken⟩
      · exact .inl hmem
    · exact .inr hdone
  rest id' hid' := h.rest id' (List.mem_cons_of_mem _ hid')

theorem InHand.done {c : Cycle} {endpoint : WebhookEndpoint} {refused : Bool}
    (h : InHand o id rest endpoint refused c) (hsettled : Settled c.shared id)
    (hsendable : Claim.Sendable o ⟨id, some endpoint, refused⟩) : Going o Log.claims rest c := by
  obtain ⟨⟨hgoing, hid⟩, hhead⟩ := h
  have hdone := hgoing.done hid hsettled.takenUp
  obtain ⟨others, hothers⟩ := List.head?_eq_some_iff.1 hhead
  refine ⟨fun claim hclaim => ?_, hdone.batch, hdone.rest⟩
  rw [hothers, List.mem_cons] at hclaim
  rcases hclaim with rfl | hmem
  · exact ⟨hsendable, hsettled⟩
  · exact hdone.claims claim (by rw [hothers]; exact hmem)

/-- The guard is asked about the endpoint of a delivery that was claimed. -/
theorem blocked_batching (endpoint : WebhookEndpoint) :
    Triple Cycle.answer batching (InHand o id rest endpoint false) (blocked o endpoint.url)
      (Ends (Stuck o) fun complaint => InHand o id rest endpoint complaint.isSome) := by
  refine Triple.ite (fun _ => ?_) fun _ => Triple.pure_ends (stable_inHand endpoint false)
    fun _ _ hc => hc
  refine Triple.tryCatch_ends batching_lawful (E := InHand o id rest endpoint true) ?_
    (fun complaint => stable_inHand endpoint complaint.isSome)
    fun e => Triple.pure_ends (stable_inHand endpoint true) fun _ _ hc => hc
  have htry : batching.Frame (InHand o id rest endpoint true) :=
    ⟨batching_lawful, stable_inHand endpoint true⟩
  refine Triple.bind_ends htry (Q := fun _ => InHand o id rest endpoint false) ?_ fun _ =>
    Triple.pure_ends (stable_inHand endpoint false) fun _ _ hc => hc
  refine Triple.call (stable_inHand endpoint false) (Stable.ends (stable_inHand endpoint true)
    fun _ => stable_inHand endpoint false) fun m c hinv hc _ => ⟨hinv, trivial, ?_⟩
  obtain ⟨⟨hgoing, hid⟩, hhead⟩ := hc
  obtain ⟨others, hothers⟩ := List.head?_eq_some_iff.1 hhead
  simp only [Cycle.answer, Webhooks.answer]
  cases m.guard with
  | ok a => exact ⟨⟨hgoing, hid⟩, hhead⟩
  | error e =>
    have hclaims : (c.log.note (.assertPublicWebhookUrl endpoint.url) (.error e)).claims =
        ⟨id, some endpoint, true⟩ :: others := by
      simp [Log.note, hothers]
    refine ⟨⟨hgoing.onward (.refl c.shared) ?_ rfl (List.Subset.refl _), hid⟩, ?_⟩
    · show (Log.claims _).tail = c.log.claims.tail
      rw [hclaims, hothers]
      rfl
    · show (Log.claims _).head? = _
      rw [hclaims]
      rfl

/-- A delivery that is not sent is abandoned. -/
theorem abandon_batching {data : DeliveryUpdate} (hdata : data.Concludes)
    (hsome : data.status.isSome) (result : Swept (Option Outcome)) :
    Triple Cycle.answer batching (Reading o id rest)
      (do db (.updateDelivery id data); pure result)
      (Ends (Stuck o) fun _ => Going o Log.claims rest) := by
  refine Triple.bind_ends (frame_stuck o) ((concludes_batching stable_reading (frame_stuck o) id hdata
    hsome).ends_mono (fun _ _ hc => ⟨hc, hc.1.rest id List.mem_cons_self⟩) fun _ _ hc => hc)
    fun _ => ?_
  exact Triple.pure_ends (stable_reading.and (stable_settled id)) fun _ _ hc =>
    hc.1.1.done hc.1.2 hc.2.takenUp

/-- A claimed delivery is settled, or cannot be sent. -/
theorem handle_batching (delivery : WebhookDelivery) {endpoint : WebhookEndpoint}
    (hendpoint : endpoint.id = delivery.endpointId) (event : WebhookEvent)
    (complaint : Option String) :
    Triple Cycle.answer batching
      (InHand o delivery.toDeliveryId rest endpoint complaint.isSome)
      (match complaint with
        | some message =>
          finalizeFailure o delivery.toDeliveryId delivery.attempt endpoint.id
            ⟨none, message, none, none⟩
        | none => send o delivery endpoint event)
      (Ends (Stuck o) fun _ => Going o Log.claims rest) := by
  have hpresent : ∀ refused c, InHand o delivery.toDeliveryId rest endpoint refused c →
      Present c.shared delivery.toDeliveryId :=
    fun _ _ hc => hc.1.1.rest _ List.mem_cons_self
  have hE := frame_stuck o
  cases complaint with
  | some message =>
    rw [hendpoint]
    exact (finalizeFailure_settles (stable_inHand endpoint true) hE _ _).ends_mono
      (fun c _ hc => ⟨hc, hpresent _ c hc⟩) fun _ _ hc => hc.1.done hc.2 (.inl rfl)
  | none =>
    cases hsecret : o.decryptSecret endpoint.secretEncrypted with
    | ok secret =>
      exact (send_settles (stable_inHand endpoint false) hE delivery hendpoint event
        hsecret).ends_mono (fun c _ hc => ⟨hc, hpresent _ c hc⟩)
          fun _ _ hc => hc.1.done hc.2 (.inr ⟨endpoint, rfl, secret, hsecret⟩)
    | error message =>
      -- nothing catches this
      refine Triple.bind_ends hE (Q := fun _ _ => False) ?_ fun _ _ _ hc => hc.elim
      rw [hsecret]
      refine Triple.throw_ends hE fun c _ hc => ⟨_, List.mem_of_mem_head? hc.2, ?_⟩
      rintro (hrefused | ⟨endpoint', hendpoint', secret, hok⟩)
      · cases hrefused
      · cases hendpoint'
        rw [hsecret] at hok
        cases hok

/-- What a claim leaves. -/
theorem Reading.claimed {c : Cycle} (h : Reading o id rest c) {endpoint : WebhookEndpoint}
    (hendpoint : c.log.endpoint = some endpoint) {m : Moment} {claimed : Nat}
    (hs : Onward c.shared (perform c.shared m (.claimDelivery id)).2)
    (hok : (perform c.shared m (.claimDelivery id)).1 = .ok claimed) :
    let c' : Cycle := ⟨(perform c.shared m (.claimDelivery id)).2,
      c.log.note (.statement (.claimDelivery id)) (.ok claimed)⟩
    (claimed = 0 → Going o Log.claims rest c') ∧
      (claimed ≠ 0 → InHand o id rest endpoint false c') := by
  obtain ⟨hgoing, hid⟩ := h
  refine ⟨?_, fun hne => ?_⟩
  · rintro rfl
    obtain ⟨row, hrow⟩ := Option.isSome_iff_exists.1 (hgoing.rest id List.mem_cons_self)
    have hnot : row.status ≠ .pending := by
      intro hpending
      simp [perform, hrow, hpending] at hok
    refine Going.done (hgoing.onward hs rfl rfl (List.Subset.refl _)) hid ?_
    exact hs.takenUp ⟨row, hrow, hnot⟩
  · have hlog : c.log.note (.statement (.claimDelivery id)) (.ok claimed) =
        { c.log with claims := ⟨id, some endpoint, false⟩ :: c.log.claims } := by
      simp only [Log.note, hne, if_false, hendpoint]
    rw [hlog]
    refine ⟨⟨⟨?_, ?_, fun id hid => hs.present (hgoing.rest id hid)⟩, hid⟩, rfl⟩
    · intro claim hclaim
      obtain ⟨hsendable, hsettled⟩ := hgoing.claims claim hclaim
      exact ⟨hsendable, hs.settled hsettled⟩
    · intro id hid
      exact (hgoing.batch id hid).imp_right fun hdone => ⟨hdone.1, hs.takenUp hdone.2⟩

/-- One delivery of the batch. -/
theorem attemptDelivery_batching (id : DeliveryId) (rest : List DeliveryId) :
    Triple Cycle.answer batching (Going o Log.claims (id :: rest)) (attemptDelivery o id)
      (Ends (Stuck o) fun _ => Going o Log.claims rest) := by
  have hE := frame_stuck o
  have hdone : ∀ result : Swept (Option Outcome), Triple Cycle.answer batching
      (Going o Log.claims rest) (pure result) (Ends (Stuck o) fun _ => Going o Log.claims rest) :=
    fun _ => Triple.pure_ends (stable_going _ _) fun _ _ hc => hc
  refine Triple.bind_ends hE (Q := fun delivery? c => (Reading o id rest c ∧
    (delivery?.filter (·.status = .pending) = none → TakenUp c.shared id)) ∧
      ∀ delivery ∈ delivery?, delivery.toDeliveryId = id) ?_ fun delivery? => ?_
  · refine prepared (stable_going _ _) hE (fun delivery? => ?_) (fun _ _ _ => trivial) ?_
    · exact (stable_reading.and (Stable.all fun _ _ _ h _ hrely => hrely.1.takenUp h)).and
        (Stable.fact _)
    rintro m c _ hc _ _ ⟨⟩
    refine ⟨⟨⟨hc.onward (.refl c.shared) rfl rfl (List.subset_cons_self _ _), List.mem_cons_self⟩,
      fun hnone => ?_⟩, fun delivery hdelivery => Table.key_of_find? hdelivery⟩
    obtain ⟨row, hrow⟩ := Option.isSome_iff_exists.1 (hc.rest id List.mem_cons_self)
    refine ⟨row, hrow, ?_⟩
    simpa using Option.filter_eq_none_iff.1 hnone row hrow
  cases hpending : delivery?.filter (·.status = .pending) with
  | none =>
    exact (hdone _).ends_mono (fun _ _ hc => hc.1.1.1.done hc.1.1.2 (hc.1.2 rfl))
      fun _ _ hc => hc
  | some delivery =>
  simp only [Option.filter_eq_some_iff] at hpending
  obtain ⟨rfl, -⟩ := hpending
  refine Triple.knowing fun hid => ?_
  obtain rfl := hid delivery rfl
  refine Triple.bind_ends hE (Q := fun endpoint? c => (Reading o delivery.toDeliveryId rest c ∧
    c.log.endpoint = endpoint?) ∧ ∀ endpoint ∈ endpoint?, endpoint.id = delivery.endpointId) ?_
    fun endpoint? => ?_
  · refine (prepared (q := .findEndpoint delivery.endpointId) stable_reading hE (fun endpoint? =>
      (stable_reading.and (stable_log fun log => log.endpoint = endpoint?)).and (Stable.fact _))
      (fun _ _ _ => trivial) ?_).ends_mono (fun _ _ hc => hc.1) fun _ _ hc => hc
    rintro m c _ hc _ _ ⟨⟩
    exact ⟨⟨⟨hc.1.onward (.refl c.shared) rfl rfl (List.Subset.refl _), hc.2⟩, rfl⟩,
      fun endpoint hendpoint => Table.key_of_find? hendpoint⟩
  cases henabled : endpoint?.filter (·.enabled) with
  | none =>
    refine (abandon_batching ?_ rfl _).ends_mono (fun _ _ hc => hc.1.1) fun _ _ hc => hc
    exact .inr (.inr rfl)
  | some endpoint =>
  simp only [Option.filter_eq_some_iff] at henabled
  obtain ⟨rfl, -⟩ := henabled
  refine Triple.knowing fun hendpoint => ?_
  have hread : Stable batching fun c => Reading o delivery.toDeliveryId rest c ∧
      c.log.endpoint = some endpoint :=
    stable_reading.and (stable_log fun log => log.endpoint = some endpoint)
  refine Triple.bind_ends hE (quiet hread hE (fun _ _ _ => trivial) fun _ _ => rfl) fun event? => ?_
  cases event? with
  | none =>
    refine (abandon_batching ?_ rfl _).ends_mono (fun _ _ hc => hc.1) fun _ _ hc => hc
    exact .inr (.inr rfl)
  | some event =>
  refine Triple.bind_ends hE (Q := fun claimed c =>
    (claimed = 0 → Going o Log.claims rest c) ∧
      (claimed ≠ 0 → InHand o delivery.toDeliveryId rest endpoint false c)) ?_ fun claimed => ?_
  · refine prepared hread hE (fun _ => (Stable.all fun _ => stable_going _ _).and
      (Stable.all fun _ => stable_inHand endpoint false)) (fun _ _ _ => trivial) ?_
    intro m c claimed hc _ hs hok
    exact hc.1.claimed hc.2 hs hok
  refine Triple.ite (fun hzero => (hdone _).ends_mono (fun _ _ hc => hc.1 hzero) fun _ _ hc => hc)
    fun hne => ?_
  refine Triple.bind_ends hE ((blocked_batching endpoint).ends_mono (fun _ _ hc => hc.2 hne)
    fun _ _ hc => hc) fun complaint => ?_
  refine Triple.bind_ends hE (handle_batching delivery (hendpoint endpoint rfl) event complaint)
    fun ended => hdone _

end Deliveries

/-! ## The phases -/

section Phases

variable {o : WebhookDispatcherOptions}

/-- Nothing was claimed so far. -/
def Idle (c : Cycle) : Prop := c.log.claims = []

theorem stable_idle : Stable batching Idle := stable_log fun log => log.claims = []

/-- Nothing was claimed, and the rows of a list are there. -/
def IdleOver (rows : List WebhookDelivery) (c : Cycle) : Prop :=
  Idle c ∧ ∀ row ∈ rows, Present c.shared row.toDeliveryId

theorem stable_idleOver (rows : List WebhookDelivery) : Stable batching (IdleOver rows) :=
  stable_idle.and (Stable.all fun _ => Stable.all fun _ => stable_present _)

theorem IdleOver.tail {row : WebhookDelivery} {rows : List WebhookDelivery} {c : Cycle}
    (h : IdleOver (row :: rows) c) : IdleOver rows c :=
  ⟨h.1, fun other hother => h.2 other (List.mem_cons_of_mem _ hother)⟩

theorem recoverStaleInFlight_batching :
    Triple Cycle.answer batching Idle (recoverStaleInFlight o) (Ends (Stuck o) fun _ => Idle) := by
  have hE := frame_stuck o
  refine Triple.bind_ends hE (now_batching stable_idle hE) fun at_ => ?_
  refine Triple.bind_ends hE (Q := IdleOver) (prepared stable_idle hE stable_idleOver
    (fun _ _ _ => trivial) ?_) fun stale => ?_
  · rintro m c _ hc _ _ ⟨⟩
    refine ⟨hc, fun row hrow => ?_⟩
    have hmem := m.deliveries.mem_order.1 (List.mem_of_mem_take hrow)
    exact Option.isSome_iff_exists.2 ⟨row, Table.find?_of_mem (List.mem_filter.1 hmem).1⟩
  refine Triple.bind_ends hE (Q := fun _ => IdleOver []) ?_ fun _ =>
    Triple.pure_ends (stable_idleOver []) fun _ _ hc => hc.1
  refine Triple.foldlM_ends hE (I := fun stale _ => IdleOver stale)
    (fun _ => stable_idleOver []) (fun delivery rest swept => ?_) stale 0
  refine Triple.bind_ends hE ((finalizeFailure_settles (stable_idleOver rest) hE
    delivery.toDeliveryId _).ends_mono (fun _ _ hc => ⟨hc.tail, hc.2 _ List.mem_cons_self⟩)
      fun _ _ hc => hc) fun finalized => ?_
  exact Triple.pure_ends ((stable_idleOver rest).and (stable_settled _)) fun _ _ hc => hc.1

/-- Nothing was claimed, and the endpoints of a list are there. -/
def IdleFor (endpoints : List WebhookEndpoint) (c : Cycle) : Prop :=
  Idle c ∧ ∀ endpoint ∈ endpoints, ∃ maxAttempts, Allows c.shared endpoint.id maxAttempts

theorem stable_idleFor (endpoints : List WebhookEndpoint) : Stable batching (IdleFor endpoints) := by
  refine stable_idle.and (Stable.all fun _ => Stable.all fun _ => ?_)
  rintro c c' ⟨maxAttempts, hallows⟩ _ hrely
  exact ⟨maxAttempts, hrely.1.endpoints _ _ hallows⟩

theorem IdleFor.tail {endpoint : WebhookEndpoint} {endpoints : List WebhookEndpoint} {c : Cycle}
    (h : IdleFor (endpoint :: endpoints) c) : IdleFor endpoints c :=
  ⟨h.1, fun other hother => h.2 other (List.mem_cons_of_mem _ hother)⟩

theorem fanOut_batching (event : WebhookEvent) (created : Nat) :
    Triple Cycle.answer batching Idle (fanOut event created) (Ends (Stuck o) fun _ => Idle) := by
  have hE := frame_stuck o
  refine Triple.bind_ends hE (Q := IdleFor) (prepared stable_idle hE stable_idleFor
    (fun _ _ _ => trivial) ?_) fun endpoints => ?_
  · rintro m c _ hc _ _ ⟨⟩
    refine ⟨hc, fun endpoint hendpoint => ?_⟩
    have hmem := m.endpoints.mem_order.1 hendpoint
    exact ⟨_, endpoint, Table.find?_of_mem (List.mem_filter.1 hmem).1, rfl⟩
  refine (Triple.foldlM_ends hE (I := fun endpoints _ => IdleFor endpoints)
    (fun _ => stable_idleFor []) (fun endpoint rest created => ?_) endpoints created).ends_mono
      (fun _ _ hc => hc) fun _ _ hc => hc.1
  have hnext : ∀ created : Nat, Triple Cycle.answer batching (IdleFor (endpoint :: rest))
      (pure created) (Ends (Stuck o) fun _ => IdleFor rest) :=
    fun _ => Triple.pure_ends (stable_idleFor _) fun _ _ hc => hc.tail
  refine Triple.ite (fun _ => ?_) fun _ => hnext created
  refine Triple.bind_ends hE (Q := fun _ => IdleFor (endpoint :: rest)) ?_ fun _ =>
    hnext (created + 1)
  refine Triple.bind_ends hE (now_batching (stable_idleFor _) hE) fun at_ => ?_
  exact quiet (stable_idleFor _) hE (fun _ _ hc => ⟨le_rfl, hc.2 endpoint List.mem_cons_self⟩)
    fun _ _ => rfl

theorem promote_batching (promoted : Nat) (previous : WebhookDelivery)
    (rest : List WebhookDelivery) :
    Triple Cycle.answer batching (IdleOver (previous :: rest)) (promote promoted previous)
      (Ends (Stuck o) fun _ => IdleOver rest) := by
  have hE := frame_stuck o
  have hstable := stable_idleOver (previous :: rest)
  have hnext : ∀ promoted : Nat, Triple Cycle.answer batching (IdleOver (previous :: rest))
      (pure promoted) (Ends (Stuck o) fun _ => IdleOver rest) :=
    fun _ => Triple.pure_ends hstable fun _ _ hc => hc.tail
  refine Triple.bind_ends hE (Q := fun _ => IdleOver (previous :: rest)) ?_ fun endpoint? => ?_
  · refine prepared hstable hE (fun _ => hstable) (fun _ _ _ => trivial) ?_
    rintro m c _ hc _ _ ⟨⟩
    exact hc
  refine Triple.bind_ends hE (now_batching hstable hE) fun at_ => ?_
  split
  · refine Triple.bind_ends hE (quiet hstable hE (fun _ _ hc => ⟨hc.2 _ List.mem_cons_self, ?_⟩)
      fun _ _ => rfl) fun _ => hnext promoted
    exact .inr (.inr rfl)
  · refine Triple.bind_ends hE (quiet hstable hE (fun c hfounded hc => ?_) fun _ _ => rfl)
      fun _ => hnext (promoted + 1)
    obtain ⟨row, hrow⟩ := Option.isSome_iff_exists.1 (hc.2 previous List.mem_cons_self)
    exact ⟨Nat.succ_pos _, (hfounded _ row hrow).2⟩

/-- **A poll cycle** leaves a claim that it could not send, or none and nothing of its batch. -/
theorem runOnce_batching :
    Triple Cycle.answer batching Idle (runOnce o)
      (Ends (Stuck o) fun _ => Going o Log.claims []) := by
  have hE := frame_stuck o
  refine Triple.bind_ends hE recoverStaleInFlight_batching fun recovered => ?_
  refine Triple.bind_ends hE (Q := fun _ => Idle) ?_ fun enqueued => ?_
  · refine Triple.bind_ends hE (quiet stable_idle hE (fun _ _ _ => trivial) fun _ _ => rfl)
      fun unfannedEvents => ?_
    exact Triple.foldlM_ends hE (I := fun _ _ => Idle) (fun _ => stable_idle)
      (fun event _ created => fanOut_batching event created) unfannedEvents 0
  refine Triple.bind_ends hE (Q := fun _ => Idle) ?_ fun retriesPromoted => ?_
  · refine Triple.bind_ends hE (now_batching stable_idle hE) fun at_ => ?_
    refine Triple.bind_ends hE (Q := IdleOver) (prepared stable_idle hE stable_idleOver
      (fun _ _ _ => trivial) ?_) fun due => ?_
    · rintro m c _ hc _ _ ⟨⟩
      refine ⟨hc, fun row hrow => ?_⟩
      have hmem := (mem_dueRetries.1 (List.mem_of_mem_take hrow)).1
      exact Option.isSome_iff_exists.2 ⟨row, Table.find?_of_mem hmem⟩
    exact (Triple.foldlM_ends hE (I := fun due _ => IdleOver due) (fun _ => stable_idleOver [])
      (fun previous rest promoted => promote_batching promoted previous rest) due 0).ends_mono
        (fun _ _ hc => hc) fun _ _ hc => hc.1
  refine Triple.bind_ends hE (now_batching stable_idle hE) fun at_ => ?_
  refine Triple.bind_ends hE (Q := fun due => Going o Log.claims (due.map (·.toDeliveryId)))
    (prepared stable_idle hE (fun _ => stable_going _ _) (fun _ _ _ => trivial) ?_) fun due => ?_
  · rintro m c _ hc _ _ ⟨⟩
    refine ⟨fun claim hclaim => ?_, fun id hid => .inl hid, fun id hid => ?_⟩
    · have hnone : claim ∈ c.log.claims := hclaim
      rw [show c.log.claims = [] from hc] at hnone
      cases hnone
    · obtain ⟨row, hrow, rfl⟩ := List.mem_map.1 hid
      have hmem := m.deliveries.mem_order.1 ((List.mem_insertionSort _).1 (List.mem_of_mem_take hrow))
      exact Option.isSome_iff_exists.2 ⟨row, Table.find?_of_mem (List.mem_filter.1 hmem).1⟩
  refine Triple.foldlM_ends hE (I := fun due _ => Going o Log.claims (due.map (·.toDeliveryId)))
    (fun _ => stable_going _ _) (fun delivery rest summary => ?_) due _
  exact Triple.map_ends hE (attemptDelivery_batching delivery.toDeliveryId _) fun _ => stable_going _ _

end Phases

/-! ## The batch -/

theorem Onward.changes (changes : List Change) (s : Shared) :
    Onward s (changes.foldl (fun s event => Webhooks.change event s) s) := by
  induction changes generalizing s with
  | nil => exact .refl s
  | cons event changes ih => exact (Onward.change event s).trans (ih _)

theorem Founded.changes {s : Shared} (h : Founded s) (changes : List Change) :
    Founded (changes.foldl (fun s event => change event s) s) := by
  induction changes generalizing s with
  | nil => exact h
  | cons event changes ih =>
    refine ih fun id row hrow => ?_
    rw [deliveries_change] at hrow
    exact (h id row hrow).onward (.change event s)

/-- **One delivery spoils the batch** exactly when it is claimed, the guard does not refuse its URL,
and its secret cannot be decrypted. -/
theorem runOnce_unspoilt_iff (o : WebhookDispatcherOptions) {s : Shared} (hs : Founded s)
    (feed : Nat → Turn) (hfeed : ∀ k, (feed k).moment.fate = .answered) :
    Unspoilt (cycle o feed s) ↔ ∀ claim ∈ (cycle o feed s).2.log.claims, claim.Sendable o := by
  have hends : Ends (Stuck o) (fun _ => Going o Log.claims []) (cycle o feed s).1
      (cycle o feed s).2 := by
    refine Safe.exec_among (runOnce_batching ⟨s, .empty⟩ hs rfl) hs batching_lawful.refl ?_ ?_
    · exact fun k c hc => ⟨Founded.changes hc _, .changes _ _, rfl⟩
    · exact fun _ k _ => hfeed k
  cases hresult : (cycle o feed s).1 with
  | ok summary =>
    rw [hresult] at hends
    have hgoing : Going o Log.claims [] (cycle o feed s).2 := hends
    refine ⟨fun _ claim hclaim => (hgoing.claims claim hclaim).1, fun _ => ?_⟩
    refine ⟨⟨summary, hresult⟩, fun id hid => ?_, fun claim hclaim => (hgoing.claims claim hclaim).2⟩
    exact (hgoing.batch id hid).resolve_left List.not_mem_nil
  | error e =>
    rw [hresult] at hends
    obtain ⟨claim, hclaim, hstuck⟩ : Stuck o (cycle o feed s).2 := hends
    refine ⟨fun h => ?_, fun h => absurd (h claim hclaim) hstuck⟩
    obtain ⟨summary, hok⟩ := h.returns
    rw [hresult] at hok
    cases hok

/-! ## A secret that is lost -/

namespace Shop

def otherEndpoint : WebhookEndpoint :=
  { endpoint with id := "we_2", secretEncrypted := "whsec_2" }

/-- Two endpoints wait for one event. -/
def emitted : Shared :=
  change (.emit event) (change (.create otherEndpoint) (change (.create endpoint) Shared.empty))

def quietly (status : Nat) (_ : Nat) : Turn := ⟨[], moment 0 status⟩

theorem emitted_founded : Founded emitted := by
  intro id row hrow
  simp only [emitted, deliveries_change] at hrow
  cases hrow

/-- The key of the first endpoint's secret is gone. -/
def keyless : WebhookDispatcherOptions where
  decryptSecret secretEncrypted :=
    if secretEncrypted = "whsec_1" then .error "unknown encryption key id: k_1"
    else .ok secretEncrypted
  signWebhook secret _ _ := secret

theorem batch_unspoilt :
    (cycle options (quietly 500) emitted).2.log.batch = [attempt 1, ⟨"evt_1", "we_2", 1⟩] ∧
      Unspoilt (cycle options (quietly 500) emitted) := by
  have hread : ∀ claim ∈ (cycle options (quietly 500) emitted).2.log.claims,
      claim.endpoint.isSome := by decide +kernel
  refine ⟨by decide +kernel,
    (runOnce_unspoilt_iff options emitted_founded (quietly 500) fun _ => rfl).2 ?_⟩
  intro claim hclaim
  obtain ⟨endpoint, hendpoint⟩ := Option.isSome_iff_exists.1 (hread claim hclaim)
  exact .inr ⟨endpoint, hendpoint, endpoint.secretEncrypted, rfl⟩

/-- The cycle throws, the first delivery stays in flight, and the second, to an
endpoint with nothing wrong, is not attempted. -/
theorem batch_spoilt :
    let ended := cycle keyless (quietly 200) emitted
    ended.1 = .error (.secret "unknown encryption key id: k_1") ∧
      (ended.2.shared.deliveries.find? (attempt 1)).map (·.status) = some .inFlight ∧
      (⟨"evt_1", "we_2", 1⟩ : DeliveryId) ∈ ended.2.log.batch ∧
      (⟨"evt_1", "we_2", 1⟩ : DeliveryId) ∉ ended.2.log.attempted ∧ ¬Unspoilt ended := by
  intro ended
  have hresult : ended.1 = .error (.secret "unknown encryption key id: k_1") := by decide +kernel
  refine ⟨hresult, by decide +kernel, by decide +kernel, by decide +kernel, fun h => ?_⟩
  obtain ⟨summary, hok⟩ := h.returns
  rw [hresult] at hok
  cases hok

end Shop

end Webhooks

end PaymentGateway
