import PaymentGateway.Webhooks.Attempts

/-!
# A proof outline of a poll cycle

Along its awaits a worker goes by what it has read: a delivery it has claimed, or has found stale, is
in flight; one it is about to send is pending; a retry it promotes was given up. What it can count on
depends on who else is at work, so the outline leaves open what it means that a row *has* a status
(`Discipline`): that it is so, for a worker that is alone, or nothing, for one that is not.

**Theorem (`Discipline.runOnce`).** Every statement of a poll cycle is issued soundly, and writes to
a row of which the worker knows the status (`GoesBy`).
-/

namespace PaymentGateway

namespace Webhooks

open Program Keyed

/-- The status by which a worker goes when it writes a status. It finalizes what is in flight, and
abandons what is pending; only a retry that is given up is neither. -/
def DeliveryUpdate.expects (data : DeliveryUpdate) : Option WebhookDeliveryStatus :=
  match data.status, data.sentAt, data.nextRetryAt with
  | some _, some _, _ => some .inFlight
  | some _, none, none => some .pending
  | _, _, _ => none

/-- The status by which a worker goes when it writes at all. It is for a delivery that it has claimed
that it writes no status. -/
def DeliveryUpdate.presumes (data : DeliveryUpdate) : Option WebhookDeliveryStatus :=
  match data.status with
  | none => some .inFlight
  | some _ => data.expects

/-- The row that a request writes to has the status the worker goes by. Without one, the worker gives
a retry up. -/
def GoesBy (has : WebhookDeliveryStatus → DeliveryId → Shared → Prop) : Request → Shared → Prop
  | .statement (.updateDelivery id data), s =>
    match data.presumes with
    | some status => has status id s
    | none => data.status = some .abandoned
  | _, _ => True

theorem GoesBy.outside {has : WebhookDeliveryStatus → DeliveryId → Shared → Prop} {r : Request}
    (hr : ∀ q, r ≠ .statement q) (s : Shared) : GoesBy has r s := by
  cases r with
  | statement q => exact absurd rfl (hr q)
  | _ => trivial

/-- Workers keep the chains, go by what they know, and grant one another that rows move along the
diagram. -/
abbrev sharing (has : WebhookDeliveryStatus → DeliveryId → Shared → Prop)
    (rely : Shared → Shared → Prop) (steps : Request → Moment → Shared → Prop) :
    Terms Request Moment Shared :=
  ⟨Chain, rely, fun r s s' => GoesBy has r s ∧ Progresses s s', steps⟩

/-- What a worker can count on of the rows it works on. -/
structure Discipline (has : WebhookDeliveryStatus → DeliveryId → Shared → Prop)
    (rely : Shared → Shared → Prop) (steps : Request → Moment → Shared → Prop) : Prop
    extends (sharing has rely steps).Lawful where
  progresses : ∀ s s', rely s s' → Progresses s s'
  stable : ∀ status id, Stable (sharing has rely steps) (has status id)
  read : ∀ id row s, s.deliveries.find? id = some row → has row.status id s
  kept : ∀ id q m s, has .inFlight id s →
    (∀ data, q = .updateDelivery id data → data.status = none) →
    has .inFlight id (perform s m q).2
  found : ∀ id data status m s, steps (.statement (.updateDelivery id data)) m s →
    m.fate.effective → data.expects = some status → has status id s →
    ∀ row, s.deliveries.find? id = some row → row.status = status
  /-- A success that could not be recorded leaves the delivery in flight. -/
  unrecorded : ∀ id data m s e, steps (.statement (.updateDelivery id data)) m s →
    has .inFlight id s → (answer (.statement (.updateDelivery id data)) m s).1 = .error e →
    has .inFlight id (answer (.statement (.updateDelivery id data)) m s).2
  unreset : ∀ id endpointId maxAttempts m s e, steps (.statement (.resetFailures endpointId)) m s →
    Allows s endpointId maxAttempts →
    (answer (.statement (.resetFailures endpointId)) m s).1 = .error e →
    has .inFlight id (answer (.statement (.resetFailures endpointId)) m s).2

namespace Discipline

variable {has : WebhookDeliveryStatus → DeliveryId → Shared → Prop}
  {rely : Shared → Shared → Prop} {steps : Request → Moment → Shared → Prop}

theorem frame (D : Discipline has rely steps) : (sharing has rely steps).Frame fun _ => True :=
  ⟨D.toLawful, fun _ _ _ _ _ => trivial⟩

theorem frame_inFlight (D : Discipline has rely steps) (id : DeliveryId) :
    (sharing has rely steps).Frame (has .inFlight id) :=
  ⟨D.toLawful, D.stable .inFlight id⟩

/-! ## Stable assertions -/

theorem stable_allows (D : Discipline has rely steps) (endpointId : String) (maxAttempts : Nat) :
    Stable (sharing has rely steps) fun s => Allows s endpointId maxAttempts :=
  fun s s' h _ hrely => (D.progresses s s' hrely).endpoints _ _ h

/-- Every row on a list has the status. -/
def All (has : WebhookDeliveryStatus → DeliveryId → Shared → Prop) (status : WebhookDeliveryStatus)
    (ids : List DeliveryId) (s : Shared) : Prop := ∀ id ∈ ids, has status id s

theorem stable_all (D : Discipline has rely steps) (status : WebhookDeliveryStatus)
    (ids : List DeliveryId) : Stable (sharing has rely steps) (All has status ids) :=
  Stable.all fun id => Stable.all fun _ => D.stable status id

/-- The attempt was given up, and another one is within the budget. -/
def Due (id : DeliveryId) (s : Shared) : Prop :=
  WasGivenUp s id ∧ ∃ maxAttempts, Allows s id.endpointId maxAttempts ∧ id.attempt < maxAttempts

theorem Due.progresses {id : DeliveryId} {s s' : Shared} (h : Due id s) (hs : Progresses s s') :
    Due id s' := by
  obtain ⟨hgiven, maxAttempts, hallows, hlt⟩ := h
  exact ⟨hgiven.progresses hs, maxAttempts, hs.endpoints _ _ hallows, hlt⟩

theorem stable_due (D : Discipline has rely steps) (id : DeliveryId) :
    Stable (sharing has rely steps) (Due id) :=
  fun s s' h _ hrely => h.progresses (D.progresses s s' hrely)

/-! ## Requests -/

theorem answer_ok {q : Statement} {m : Moment} {s : Shared} {a : q.Answer}
    (h : (answer (.statement q) m s).1 = .ok a) :
    answer (.statement q) m s = perform s m q := by
  cases hfate : m.fate <;> simp_all [answer]

section Calls

variable {P E : Shared → Prop}

/-- A statement, from what it asks of the rows to what it leaves. -/
theorem statement_ends {q : Statement} {Q : q.Answer → Shared → Prop}
    (hP : Stable (sharing has rely steps) P) (hE : Stable (sharing has rely steps) E)
    (hQ : ∀ a, Stable (sharing has rely steps) (Q a))
    (hsound : ∀ m s, Chain s → P s → steps (.statement q) m s → m.fate.effective → Sound s q)
    (hby : ∀ s, P s → GoesBy has (.statement q) s)
    (herror : ∀ m s e, P s → steps (.statement q) m s →
      (answer (.statement q) m s).1 = .error e → E (answer (.statement q) m s).2)
    (hpost : ∀ m s a, Chain s → P s → (perform s m q).1 = .ok a → Q a (perform s m q).2) :
    Triple answer (sharing has rely steps) P (db q) (Ends E Q) := by
  refine Triple.call hP (Stable.ends hE hQ) fun m s hchain hs hm => ?_
  have hkeeps : Chain (answer (.statement q) m s).2 ∧
      Progresses s (answer (.statement q) m s).2 := by
    refine hchain.answer fun q' hq' heffective => ?_
    cases hq'
    exact hsound m s hchain hs hm heffective
  refine ⟨hkeeps.1, ⟨hby s hs, hkeeps.2⟩, ?_⟩
  cases hresult : (answer (.statement q) m s).1 with
  | ok a =>
    have hperform := answer_ok hresult
    rw [hperform] at hresult ⊢
    exact hpost m s a hchain hs hresult
  | error e => exact herror m s e hs hm hresult

theorem statement {q : Statement} {Q : q.Answer → Shared → Prop}
    (hP : Stable (sharing has rely steps) P) (hQ : ∀ a, Stable (sharing has rely steps) (Q a))
    (hsound : ∀ m s, Chain s → P s → steps (.statement q) m s → m.fate.effective → Sound s q)
    (hby : ∀ s, P s → GoesBy has (.statement q) s)
    (hpost : ∀ m s a, Chain s → P s → (perform s m q).1 = .ok a → Q a (perform s m q).2) :
    Triple answer (sharing has rely steps) P (db q) (OnSuccess Q) :=
  statement_ends hP (Stable.fact True) hQ hsound hby (fun _ _ _ _ _ _ => trivial) hpost

/-- A request that is no statement leaves the tables alone. -/
theorem outside {r : Request} (hr : ∀ q, r ≠ .statement q)
    (hP : Stable (sharing has rely steps) P) (hE : Stable (sharing has rely steps) E)
    (herror : ∀ s, P s → E s) :
    Triple answer (sharing has rely steps) P (Program.call r) (Ends E fun _ => P) :=
  Triple.unchanged hP hE (answer_outside hr) (fun s => ⟨GoesBy.outside hr s, .refl s⟩)
    fun _ s _ hs _ => herror s hs

theorem now (hP : Stable (sharing has rely steps) P) :
    Triple answer (sharing has rely steps) P now (OnSuccess fun _ => P) :=
  outside (by simp) hP (Stable.fact True) fun _ _ => trivial

theorem returned {α : Type} (r : Except DispatchError α) (hP : Stable (sharing has rely steps) P) :
    Triple answer (sharing has rely steps) P (returned r) (OnSuccess fun _ => P) := by
  refine Triple.done hP fun s _ hs => ?_
  cases r with
  | ok a => exact hs
  | error e => trivial

end Calls

/-! ## Finalization -/

theorem All.kept (D : Discipline has rely steps) {ids : List DeliveryId} {q : Statement}
    {m : Moment} {s : Shared} (h : All has .inFlight ids s)
    (hq : ∀ id ∈ ids, ∀ data, q = .updateDelivery id data → data.status = none) :
    All has .inFlight ids (perform s m q).2 :=
  fun id hid => D.kept id q m s (h id hid) (hq id hid)

theorem allows_incremented {endpointId : String} {endpoint : WebhookEndpoint} {m : Moment}
    {s : Shared} (h : (perform s m (.incrementFailures endpointId)).1 = .ok endpoint) :
    Allows (perform s m (.incrementFailures endpointId)).2 endpointId endpoint.maxAttempts := by
  simp only [perform] at h ⊢
  split at h
  · rename_i old hold
    cases h
    refine ⟨fails old, ?_, rfl⟩
    simp [s.find?_updateEndpoint endpointId fails_id, hold]
  · cases h

/-- Rows in flight, of an endpoint whose budget is known. -/
def Held (has : WebhookDeliveryStatus → DeliveryId → Shared → Prop) (ids : List DeliveryId)
    (endpointId : String) (maxAttempts : Nat) (s : Shared) : Prop :=
  All has .inFlight ids s ∧ Allows s endpointId maxAttempts

theorem stable_held (D : Discipline has rely steps) (ids : List DeliveryId) (endpointId : String)
    (maxAttempts : Nat) : Stable (sharing has rely steps) (Held has ids endpointId maxAttempts) :=
  (D.stable_all .inFlight ids).and (D.stable_allows endpointId maxAttempts)

theorem disable (D : Discipline has rely steps) (ids : List DeliveryId) (endpointId : String)
    (maxAttempts failures : Nat) :
    Triple answer (sharing has rely steps) (Held has ids endpointId maxAttempts)
      (Webhooks.disable endpointId failures)
      (OnSuccess fun _ => Held has ids endpointId maxAttempts) := by
  have hstable := D.stable_held ids endpointId maxAttempts
  refine Triple.bind_ends D.frame (now hstable) fun disabledAt => ?_
  refine Triple.bind_ends D.frame (Q := fun _ => Held has ids endpointId maxAttempts) ?_
    fun _ => ?_
  · refine statement hstable (fun _ => hstable) (fun _ _ _ _ _ _ => trivial) (fun _ _ => trivial) ?_
    intro m s _ hchain hs _
    refine ⟨hs.1.kept D (fun _ _ _ h => nomatch h), ?_⟩
    exact (hchain.perform (q := .disableEndpoint ..) trivial m).2.endpoints _ _ hs.2
  · refine statement hstable (fun _ => hstable) (fun _ _ _ _ _ _ => trivial) (fun _ _ => trivial) ?_
    intro m s _ hchain hs _
    refine ⟨hs.1.kept D (fun _ _ _ h => nomatch h), ?_⟩
    exact (hchain.perform (q := .abandonPending ..) trivial m).2.endpoints _ _ hs.2

theorem retryAt (D : Discipline has rely steps) {P : Shared → Prop}
    (hP : Stable (sharing has rely steps) P) (attempt : Nat) :
    Triple answer (sharing has rely steps) P (Webhooks.retryAt attempt) (OnSuccess fun _ => P) := by
  refine Triple.bind_ends D.frame (now hP) fun at_ => ?_
  refine Triple.bind_ends D.frame (Q := fun _ => P)
    (outside (by simp) hP (Stable.fact True) fun _ _ => trivial) fun draw => ?_
  refine Triple.bind_ends D.frame (returned _ hP) fun delay => ?_
  exact Triple.pure_ends hP fun _ _ hs => hs

/-- One of the rows in flight is finalized, and the others stay. -/
theorem finalizeFailure (D : Discipline has rely steps) (o : WebhookDispatcherOptions)
    (id : DeliveryId) {ids : List DeliveryId} (hid : id ∉ ids) (info : FailureInfo) :
    Triple answer (sharing has rely steps) (All has .inFlight (id :: ids))
      (Webhooks.finalizeFailure o id id.attempt id.endpointId info)
      (OnSuccess fun _ => All has .inFlight ids) := by
  refine Triple.bind_ends D.frame
    (Q := fun endpoint => Held has (id :: ids) id.endpointId endpoint.maxAttempts) ?_
    fun endpoint => ?_
  · refine statement (D.stable_all _ _) (fun _ => D.stable_held _ _ _)
      (fun _ _ _ _ _ _ => trivial) (fun _ _ => trivial) fun m s endpoint _ hs hok => ?_
    exact ⟨hs.kept D (fun _ _ _ h => nomatch h), allows_incremented hok⟩
  have hstable := D.stable_held (id :: ids) id.endpointId endpoint.maxAttempts
  dsimp only
  refine Triple.bind_ends D.frame
    (Q := fun _ => Held has (id :: ids) id.endpointId endpoint.maxAttempts) ?_ fun abandoned => ?_
  · exact Triple.ite (fun _ => D.disable _ _ _ _) fun _ =>
      Triple.pure_ends hstable fun _ _ hs => hs
  refine Triple.bind_ends D.frame (now hstable) fun sentAt => ?_
  refine Triple.bind_ends D.frame
    (Q := fun _ => Held has (id :: ids) id.endpointId endpoint.maxAttempts) ?_ fun nextRetryAt => ?_
  · refine Triple.ite (fun _ => ?_) fun _ => Triple.pure_ends hstable fun _ _ hs => hs
    exact Triple.map_ends (R := fun _ => Held has (id :: ids) id.endpointId endpoint.maxAttempts)
      D.frame (D.retryAt hstable _) fun _ => hstable
  refine Triple.bind_ends D.frame (Q := fun _ => All has .inFlight ids) ?_ fun _ =>
    Triple.pure_ends (D.stable_all _ _) fun _ _ hs => hs
  refine statement hstable (fun _ => D.stable_all _ _) ?_ ?_ ?_
  · intro m s hchain hs hm heffective status hstatus row hrow
    have hinFlight := D.found id _ .inFlight m s hm heffective rfl (hs.1 id List.mem_cons_self)
      row hrow
    obtain rfl := Option.some.inj hstatus
    refine ⟨?_, fun hfailed => ⟨(hchain.budget id row hrow).first, endpoint.maxAttempts, hs.2, ?_⟩⟩
    · rw [hinFlight]
      refine .inr (.inr (.inl ⟨rfl, ?_⟩))
      split_ifs <;> simp
    · split_ifs at hfailed with hexhausted
      have hlt : id.attempt < endpoint.maxAttempts := by simpa using hexhausted
      exact ⟨hlt.le, fun _ => hlt⟩
  · exact fun s hs => hs.1 id List.mem_cons_self
  · intro m s _ _ hs _
    refine All.kept D (fun id' hid' => hs.1 id' (List.mem_cons_of_mem _ hid')) ?_
    rintro id' hid' data heq
    cases heq
    exact absurd hid' hid

theorem allows_updateDelivery {id : DeliveryId} {data : DeliveryUpdate} {m : Moment} {s : Shared}
    {endpointId : String} {maxAttempts : Nat} (h : Allows s endpointId maxAttempts) :
    Allows (perform s m (.updateDelivery id data)).2 endpointId maxAttempts := by
  simp only [perform]
  split <;> exact h

/-- A success that is not recorded leaves the delivery in flight. -/
theorem finalizeSuccess (D : Discipline has rely steps) (id : DeliveryId) (endpointId : String)
    (maxAttempts httpStatus : Nat) (responseTimeMs : Int) (responseBody : String) :
    Triple answer (sharing has rely steps)
      (fun s => has .inFlight id s ∧ Allows s endpointId maxAttempts)
      (Webhooks.finalizeSuccess id endpointId httpStatus responseTimeMs responseBody)
      (Ends (has .inFlight id) fun _ _ => True) := by
  have hallows := D.stable_allows endpointId maxAttempts
  have hstable := (D.stable .inFlight id).and hallows
  refine Triple.bind_ends (D.frame_inFlight id)
    (outside (by simp) hstable (D.stable .inFlight id) fun _ hs => hs.1)
    fun sentAt => ?_
  refine Triple.bind_ends (D.frame_inFlight id) (Q := fun _ s => Allows s endpointId maxAttempts) ?_
    fun _ => ?_
  · refine statement_ends hstable (D.stable .inFlight id) (fun _ => hallows) ?_ ?_
      (fun m s e hs hm => D.unrecorded id _ m s e hm hs.1) fun _ _ _ _ hs _ =>
        allows_updateDelivery hs.2
    · intro m s _ hs hm heffective status hstatus row hrow
      have hinFlight := D.found id _ .inFlight m s hm heffective rfl hs.1 row hrow
      cases hstatus
      exact ⟨.inr (.inr (.inl ⟨hinFlight, by simp⟩)), fun h => by cases h⟩
    · exact fun s hs => hs.1
  · exact statement_ends hallows (D.stable .inFlight id) (fun _ => Stable.fact True)
      (fun _ _ _ _ _ _ => trivial) (fun _ _ => trivial)
      (fun m s e hs hm => D.unreset id endpointId maxAttempts m s e hm hs)
      fun _ _ _ _ _ _ => trivial

/-! ## Sending -/

theorem All.singleton {status : WebhookDeliveryStatus} {id : DeliveryId} {s : Shared}
    (h : has status id s) : All has status [id] s := by
  intro id' hid'
  rw [List.mem_singleton.1 hid']
  exact h

/-- The last of the rows in flight is finalized. -/
theorem finalizeLast (D : Discipline has rely steps) (o : WebhookDispatcherOptions)
    (id : DeliveryId) (info : FailureInfo) :
    Triple answer (sharing has rely steps) (has .inFlight id)
      (Webhooks.finalizeFailure o id id.attempt id.endpointId info) (OnSuccess fun _ _ => True) :=
  (D.finalizeFailure o id List.not_mem_nil info).ends_mono (fun _ _ hs => All.singleton hs)
    fun _ _ _ => trivial

/-- Send a delivery that is in flight. -/
theorem send (D : Discipline has rely steps) (o : WebhookDispatcherOptions)
    (delivery : WebhookDelivery) {endpoint : WebhookEndpoint}
    (hendpoint : endpoint.id = delivery.endpointId) (event : WebhookEvent) (maxAttempts : Nat) :
    Triple answer (sharing has rely steps)
      (fun s => has .inFlight delivery.toDeliveryId s ∧ Allows s endpoint.id maxAttempts)
      (Webhooks.send o delivery endpoint event) (OnSuccess fun _ _ => True) := by
  have hinFlight := D.stable .inFlight delivery.toDeliveryId
  have hstable := hinFlight.and (D.stable_allows endpoint.id maxAttempts)
  have hlast := D.finalizeLast o delivery.toDeliveryId
  rw [← hendpoint] at hlast
  refine Triple.bind_ends D.frame (returned _ hstable) fun secret => ?_
  refine Triple.bind_ends D.frame (now hstable) fun at_ => ?_
  refine Triple.bind_ends D.frame (Q := fun _ s => has .inFlight delivery.toDeliveryId s ∧
    Allows s endpoint.id maxAttempts) ?_ fun _ => ?_
  · refine statement hstable (fun _ => hstable) ?_ ?_ fun m s _ _ hs _ => ?_
    · intro m s _ _ _ _ status hstatus
      cases hstatus
    · exact fun s hs => hs.1
    · refine ⟨D.kept _ _ m s hs.1 ?_, allows_updateDelivery hs.2⟩
      intro data heq
      cases heq
      rfl
  refine Triple.bind_ends D.frame (now hstable) fun startedAt => ?_
  refine Triple.bind_ends D.frame
    (Q := fun sent s => sent ≠ Sent.delivered → has .inFlight delivery.toDeliveryId s) ?_
    fun sent => ?_
  · have hsent : ∀ sent, Stable (sharing has rely steps) fun s =>
        sent ≠ Sent.delivered → has .inFlight delivery.toDeliveryId s :=
      fun _ => Stable.all fun _ => hinFlight
    refine Triple.tryCatch_ends D.toLawful (E := has .inFlight delivery.toDeliveryId) ?_ hsent
      fun e => Triple.pure_ends hinFlight fun _ _ hs _ => hs
    refine Triple.bind_ends (D.frame_inFlight _)
      (outside (by simp) hstable hinFlight fun _ hs => hs.1) fun response => ?_
    refine Triple.bind_ends (D.frame_inFlight _)
      (outside (by simp) hstable hinFlight fun _ hs => hs.1) fun at_ => ?_
    refine Triple.ite (fun _ => ?_) fun _ => ?_
    · refine Triple.bind_ends (D.frame_inFlight _)
        (D.finalizeSuccess delivery.toDeliveryId endpoint.id maxAttempts _ _ _) fun _ => ?_
      exact Triple.pure_ends (Stable.fact True) fun _ _ _ hne => absurd rfl hne
    · exact Triple.pure_ends hstable fun _ _ hs _ => hs.1
  · cases sent with
    | delivered =>
      refine (Triple.pure_ends (Stable.fact True) fun _ _ _ => trivial).ends_mono
        (fun _ _ _ => trivial) fun _ _ h => h
    | refused response responseTimeMs =>
      exact (hlast _).ends_mono (fun _ _ hs => hs (by simp)) fun _ _ h => h
    | threw message =>
      refine Triple.bind_ends D.frame ((now hinFlight).ends_mono (fun _ _ hs => hs (by simp))
        fun _ _ h => h) fun at_ => ?_
      exact hlast _

theorem blocked (D : Discipline has rely steps) (o : WebhookDispatcherOptions) (url : String)
    {P : Shared → Prop} (hP : Stable (sharing has rely steps) P) :
    Triple answer (sharing has rely steps) P (Webhooks.blocked o url) (OnSuccess fun _ => P) := by
  refine Triple.ite (fun _ => ?_) fun _ => Triple.pure_ends hP fun _ _ hs => hs
  refine Triple.tryCatch_ends D.toLawful (E := P) ?_ (fun _ => hP)
    fun _ => Triple.pure_ends hP fun _ _ hs => hs
  refine Triple.bind_ends ⟨D.toLawful, hP⟩
    (outside (by simp) hP hP fun _ hs => hs) fun _ => ?_
  exact Triple.pure_ends hP fun _ _ hs => hs

/-- A delivery that is not sent is abandoned while it is pending. -/
theorem abandon (D : Discipline has rely steps) (id : DeliveryId) {data : DeliveryUpdate}
    (hdata : data.status = some .abandoned) (hexpects : data.expects = some .pending)
    (result : Swept (Option Outcome)) :
    Triple answer (sharing has rely steps) (has .pending id)
      (do db (.updateDelivery id data); pure result) (OnSuccess fun _ _ => True) := by
  refine Triple.bind_ends D.frame (Q := fun _ _ => True) (statement (D.stable .pending id)
    (fun _ => Stable.fact True) ?_ ?_ fun _ _ _ _ _ _ => trivial) fun _ =>
      Triple.pure_ends (Stable.fact True) fun _ _ _ => trivial
  · intro m s _ hs hm heffective status hstatus row hrow
    have hpending := D.found id data .pending m s hm heffective hexpects hs row hrow
    rw [hdata] at hstatus
    cases hstatus
    exact ⟨.inr (.inl hpending), fun h => by cases h⟩
  · intro s hs
    simpa only [GoesBy, DeliveryUpdate.presumes, hdata, hexpects] using hs

theorem claimed_inFlight {id : DeliveryId} {m : Moment} {s : Shared} {claimed : Nat}
    (h : (perform s m (.claimDelivery id)).1 = .ok claimed) (hne : claimed ≠ 0) :
    ∃ row, (perform s m (.claimDelivery id)).2.deliveries.find? id = some row ∧
      row.status = .inFlight := by
  simp only [perform] at h ⊢
  cases hrow : s.deliveries.find? id with
  | none =>
    simp only [hrow, Option.any_none, Bool.false_eq_true, if_false] at h
    cases h
    exact absurd rfl hne
  | some row =>
    by_cases hpending : row.status = .pending
    · simp [hpending, s.find?_updateDelivery, hrow, DeliveryUpdate.apply]
    · simp only [hrow, Option.any_some, hpending, decide_false, Bool.false_eq_true, if_false] at h
      cases h
      exact absurd rfl hne

theorem attemptDelivery (D : Discipline has rely steps) (o : WebhookDispatcherOptions)
    (id : DeliveryId) :
    Triple answer (sharing has rely steps) (fun _ => True) (Webhooks.attemptDelivery o id)
      (OnSuccess fun _ _ => True) := by
  have htrue : Stable (sharing has rely steps) fun _ => True := Stable.fact True
  refine Triple.bind_ends D.frame (Q := fun delivery? s => ∀ delivery, delivery? = some delivery →
    has delivery.status delivery.toDeliveryId s) ?_ fun delivery? => ?_
  · refine statement htrue (fun _ => Stable.all fun _ => Stable.all fun _ => D.stable _ _)
      (fun _ _ _ _ _ _ => trivial) (fun _ _ => trivial) ?_
    rintro m s _ _ _ ⟨⟩ delivery hdelivery
    rw [Table.key_of_find? hdelivery]
    exact D.read id delivery s hdelivery
  cases hpending : delivery?.filter (·.status = .pending) with
  | none =>
    exact (Triple.pure_ends htrue fun _ _ hs => hs).ends_mono (fun _ _ _ => trivial) fun _ _ h => h
  | some delivery =>
  simp only [Option.filter_eq_some_iff, decide_eq_true_eq] at hpending
  obtain ⟨rfl, hstatus⟩ := hpending
  have hstable := D.stable .pending delivery.toDeliveryId
  refine Triple.bind_ends D.frame (Q := fun endpoint? s => has .pending delivery.toDeliveryId s ∧
    ∀ endpoint, endpoint? = some endpoint → endpoint.id = delivery.endpointId ∧
      Allows s endpoint.id endpoint.maxAttempts) ?_ fun endpoint? => ?_
  · refine (statement (q := .findEndpoint _) hstable (fun _ => hstable.and (Stable.all fun _ =>
      Stable.all fun _ => (Stable.fact _).and (D.stable_allows _ _)))
      (fun _ _ _ _ _ _ => trivial) (fun _ _ => trivial) ?_).ends_mono
      (fun s _ hs => hstatus ▸ hs delivery rfl) fun _ _ h => h
    rintro m s _ _ hs ⟨⟩
    refine ⟨hs, fun endpoint hendpoint => ?_⟩
    have hid := Table.key_of_find? hendpoint
    exact ⟨hid, endpoint, by rw [hid]; exact hendpoint, rfl⟩
  cases henabled : endpoint?.filter (·.enabled) with
  | none =>
    exact (D.abandon delivery.toDeliveryId rfl rfl _).ends_mono (fun _ _ hs => hs.1) fun _ _ h => h
  | some endpoint =>
  simp only [Option.filter_eq_some_iff] at henabled
  obtain ⟨rfl, -⟩ := henabled
  have hallows := D.stable_allows endpoint.id endpoint.maxAttempts
  have hready := hstable.and hallows
  refine (Triple.knowing (P := fun s => has .pending delivery.toDeliveryId s ∧
    Allows s endpoint.id endpoint.maxAttempts) fun hendpoint => ?_).ends_mono
      (fun _ _ hs => ⟨⟨hs.1, (hs.2 endpoint rfl).2⟩, (hs.2 endpoint rfl).1⟩) fun _ _ h => h
  refine Triple.bind_ends D.frame (statement (Q := fun _ s => has .pending delivery.toDeliveryId s ∧
    Allows s endpoint.id endpoint.maxAttempts) hready (fun _ => hready)
    (fun _ _ _ _ _ _ => trivial) (fun _ _ => trivial) ?_) fun event? => ?_
  · rintro m s _ _ hs ⟨⟩
    exact hs
  cases event? with
  | none =>
    exact (D.abandon delivery.toDeliveryId rfl rfl _).ends_mono (fun _ _ hs => hs.1) fun _ _ h => h
  | some event =>
  have hclaimed := (D.stable .inFlight delivery.toDeliveryId).and hallows
  refine Triple.bind_ends D.frame (statement (Q := fun claimed s => claimed ≠ 0 →
    has .inFlight delivery.toDeliveryId s ∧ Allows s endpoint.id endpoint.maxAttempts) hready
    (fun _ => Stable.all fun _ => hclaimed) (fun _ _ _ _ _ _ => trivial) (fun _ _ => trivial) ?_)
    fun claimed => ?_
  · intro m s claimed hchain hs hok hne
    have hprogress := (hchain.perform (q := .claimDelivery delivery.toDeliveryId) trivial m).2
    obtain ⟨row, hrow, hinFlight⟩ := claimed_inFlight hok hne
    exact ⟨hinFlight ▸ D.read _ row _ hrow, hprogress.endpoints _ _ hs.2⟩
  refine Triple.ite (fun _ => (Triple.pure_ends (Stable.fact True) fun _ _ hs => hs).ends_mono
    (fun _ _ _ => trivial) fun _ _ h => h) fun hne => ?_
  have hinFlight := D.stable .inFlight delivery.toDeliveryId
  refine Triple.bind_ends D.frame ((D.blocked o endpoint.url hclaimed).ends_mono
    (fun _ _ hs => hs hne) fun _ _ h => h) fun complaint => ?_
  refine Triple.bind_ends D.frame (Q := fun _ _ => True) ?_ fun _ =>
    Triple.pure_ends htrue fun _ _ hs => hs
  cases complaint with
  | none => exact D.send o delivery hendpoint event endpoint.maxAttempts
  | some message =>
    rw [hendpoint]
    exact (D.finalizeLast o delivery.toDeliveryId _).ends_mono (fun _ _ hs => hs.1) fun _ _ h => h

/-! ## The phases -/

/-- Rows that wait to be recovered. -/
def Waiting (has : WebhookDeliveryStatus → DeliveryId → Shared → Prop)
    (stale : List WebhookDelivery) (s : Shared) : Prop :=
  All has .inFlight (stale.map (·.toDeliveryId)) s ∧ (stale.map (·.toDeliveryId)).Nodup

theorem stable_waiting (D : Discipline has rely steps) (stale : List WebhookDelivery) :
    Stable (sharing has rely steps) (Waiting has stale) :=
  (D.stable_all _ _).and (Stable.fact _)

theorem recoverStaleInFlight (D : Discipline has rely steps) (o : WebhookDispatcherOptions) :
    Triple answer (sharing has rely steps) (fun _ => True) (Webhooks.recoverStaleInFlight o)
      (OnSuccess fun _ _ => True) := by
  have htrue : Stable (sharing has rely steps) fun _ => True := Stable.fact True
  refine Triple.bind_ends D.frame (now htrue) fun at_ => ?_
  refine Triple.bind_ends D.frame (statement (Q := Waiting has) htrue D.stable_waiting
    (fun _ _ _ _ _ _ => trivial) (fun _ _ => trivial) ?_) fun stale => ?_
  · rintro m s _ _ _ ⟨⟩
    have hperm := m.deliveries.perm (s.deliveries.rows.filter fun row =>
      row.status = .inFlight ∧ row.updatedAt < at_ - o.staleInFlightMs)
    refine ⟨fun id hid => ?_, ?_⟩
    · obtain ⟨row, hrow, rfl⟩ := List.mem_map.1 hid
      have hmem := hperm.subset (List.mem_of_mem_take hrow)
      simp only [List.mem_filter, decide_eq_true_eq] at hmem
      exact hmem.2.1 ▸ D.read _ row s (Table.find?_of_mem hmem.1)
    · refine ((List.take_sublist o.batchSize _).map _).nodup ((hperm.map _).nodup_iff.2 ?_)
      exact (List.filter_sublist.map _).nodup s.deliveries.nodup
  refine Triple.bind_ends D.frame (Q := fun _ _ => True) ?_ fun _ =>
    Triple.pure_ends htrue fun _ _ hs => hs
  refine (Triple.foldlM_ends D.frame (I := fun stale _ => Waiting has stale)
    (fun _ => D.stable_waiting []) (fun delivery rest swept => ?_) stale 0).ends_mono
      (fun _ _ hs => hs) fun _ _ _ => trivial
  refine Triple.knowing fun hnodup => ?_
  rw [List.map_cons, List.nodup_cons] at hnodup
  refine Triple.bind_ends D.frame (D.finalizeFailure o delivery.toDeliveryId hnodup.1 _)
    fun finalized => ?_
  exact Triple.pure_ends (D.stable_all _ _) fun _ _ hs => ⟨hs, hnodup.2⟩

/-- An attempt is enqueued when its budget and the attempt before it allow it. -/
theorem enqueue (D : Discipline has rely steps) {P : Shared → Prop}
    (hP : Stable (sharing has rely steps) P) (hprogress : ∀ s s', P s → Progresses s s' → P s')
    {id : DeliveryId} (hsound : ∀ s url now, Chain s → P s → Sound s (.upsertDelivery id url now))
    (url : String) :
    Triple answer (sharing has rely steps) P (Webhooks.enqueue id url) (OnSuccess fun _ => P) := by
  refine Triple.bind_ends D.frame (now hP) fun at_ => ?_
  refine statement hP (fun _ => hP) (fun m s hchain hs _ _ => hsound s url at_ hchain hs)
    (fun _ _ => trivial) ?_
  intro m s _ hchain hs _
  exact hprogress s _ hs (hchain.perform (hsound s url at_ hchain hs) m).2

/-- The endpoints on a list are there. -/
def Listed (endpoints : List WebhookEndpoint) (s : Shared) : Prop :=
  ∀ endpoint ∈ endpoints, Allows s endpoint.id endpoint.maxAttempts

theorem stable_listed (D : Discipline has rely steps) (endpoints : List WebhookEndpoint) :
    Stable (sharing has rely steps) (Listed endpoints) :=
  Stable.all fun _ => Stable.all fun _ => D.stable_allows _ _

theorem fanOut (D : Discipline has rely steps) (event : WebhookEvent) (created : Nat) :
    Triple answer (sharing has rely steps) (fun _ => True) (Webhooks.fanOut event created)
      (OnSuccess fun _ _ => True) := by
  refine Triple.bind_ends D.frame (statement (Q := Listed) (Stable.fact True) D.stable_listed
    (fun _ _ _ _ _ _ => trivial) (fun _ _ => trivial) ?_) fun endpoints => ?_
  · rintro m s _ _ _ ⟨⟩ endpoint hendpoint
    rw [Arrangement.mem_order, List.mem_filter] at hendpoint
    exact ⟨endpoint, Table.find?_of_mem hendpoint.1, rfl⟩
  refine (Triple.foldlM_ends D.frame (I := fun endpoints _ => Listed endpoints)
    (fun _ => D.stable_listed []) (fun endpoint rest created => ?_) endpoints created).ends_mono
      (fun _ _ hs => hs) fun _ _ _ => trivial
  have hnext : ∀ created : Nat, Triple answer (sharing has rely steps) (Listed (endpoint :: rest))
      (pure created) (OnSuccess fun _ => Listed rest) := fun created =>
    Triple.pure_ends (D.stable_listed _) fun _ _ hs other hother =>
      hs other (List.mem_cons_of_mem _ hother)
  refine Triple.ite (fun _ => ?_) fun _ => hnext created
  refine Triple.bind_ends D.frame (Q := fun _ => Listed (endpoint :: rest)) ?_ fun _ =>
    hnext (created + 1)
  refine D.enqueue (D.stable_listed _) (fun s s' hs hprogress other hother =>
    hprogress.endpoints _ _ (hs other hother)) ?_ _
  intro s url now _ hs
  refine ⟨⟨le_rfl, endpoint.maxAttempts, hs endpoint List.mem_cons_self, endpoint.positive,
    fun h => by cases h⟩, fun before hfirst heq => ?_⟩
  have hattempt := congrArg DeliveryId.attempt heq
  simp only [DeliveryId.next] at hattempt
  omega

theorem enqueueNewDeliveries (D : Discipline has rely steps) (o : WebhookDispatcherOptions) :
    Triple answer (sharing has rely steps) (fun _ => True) (Webhooks.enqueueNewDeliveries o)
      (OnSuccess fun _ _ => True) := by
  refine Triple.bind_ends D.frame (statement (Q := fun _ _ => True) (Stable.fact True)
    (fun _ => Stable.fact True) (fun _ _ _ _ _ _ => trivial) (fun _ _ => trivial)
    fun _ _ _ _ _ _ => trivial)
    fun unfannedEvents => ?_
  exact Triple.foldlM_ends D.frame (I := fun _ _ _ => True) (fun _ => Stable.fact True)
    (fun event _ created => D.fanOut event created) unfannedEvents 0

/-- Rows that wait to be promoted. -/
def Promotable (due : List WebhookDelivery) (s : Shared) : Prop :=
  ∀ row ∈ due, Due row.toDeliveryId s

theorem stable_promotable (D : Discipline has rely steps) (due : List WebhookDelivery) :
    Stable (sharing has rely steps) (Promotable due) :=
  Stable.all fun _ => Stable.all fun _ => D.stable_due _

theorem Promotable.progresses {due : List WebhookDelivery} {s s' : Shared} (h : Promotable due s)
    (hs : Progresses s s') : Promotable due s' :=
  fun row hrow => (h row hrow).progresses hs

theorem Due.sound_next {id : DeliveryId} {s : Shared} (h : Due id s) (url : String) (now : Int) :
    Sound s (.upsertDelivery id.next url now) := by
  obtain ⟨hgiven, maxAttempts, hallows, hlt⟩ := h
  refine ⟨⟨Nat.succ_pos _, maxAttempts, hallows, hlt, fun h => by cases h⟩, fun before _ heq => ?_⟩
  rwa [← DeliveryId.next_injective heq]

theorem Due.sound_abandoned {id : DeliveryId} {s : Shared} (h : Due id s) {data : DeliveryUpdate}
    (hdata : data.status = some .abandoned) : Sound s (.updateDelivery id data) := by
  intro status hstatus row hrow
  rw [hdata] at hstatus
  cases hstatus
  obtain ⟨⟨row', hrow', hgiven⟩, -⟩ := h
  rw [hrow] at hrow'
  cases hrow'
  refine ⟨?_, fun h => by cases h⟩
  rcases hgiven with hfailed | habandoned
  · exact .inr (.inr (.inr ⟨hfailed, rfl⟩))
  · exact .inl habandoned

theorem promote (D : Discipline has rely steps) (promoted : Nat) (previous : WebhookDelivery)
    (due : List WebhookDelivery) :
    Triple answer (sharing has rely steps) (Promotable (previous :: due))
      (Webhooks.promote promoted previous) (OnSuccess fun _ => Promotable due) := by
  have hstable := D.stable_promotable (previous :: due)
  have hrest : ∀ s, Promotable (previous :: due) s → Promotable due s :=
    fun s hs row hrow => hs row (List.mem_cons_of_mem _ hrow)
  refine Triple.bind_ends D.frame (Q := fun _ => Promotable (previous :: due))
    (statement hstable (fun _ => hstable) (fun _ _ _ _ _ _ => trivial) (fun _ _ => trivial)
      fun m s _ _ hs _ => hs)
    fun endpoint? => ?_
  refine Triple.bind_ends D.frame (now hstable) fun at_ => ?_
  split
  · refine Triple.bind_ends D.frame (Q := fun _ => Promotable due) (statement hstable
      (fun _ => D.stable_promotable due) ?_ ?_ ?_) fun _ =>
        Triple.pure_ends (D.stable_promotable due) fun _ _ hs => hs
    · exact fun _ s _ hs _ _ => (hs previous List.mem_cons_self).sound_abandoned rfl
    · exact fun _ _ => rfl
    · intro m s _ hchain hs _
      have hsound : Sound s (.updateDelivery previous.toDeliveryId
          { status := some .abandoned, nextRetryAt := some none }) :=
        (hs previous List.mem_cons_self).sound_abandoned rfl
      exact (hrest s hs).progresses (hchain.perform hsound m).2
  · refine Triple.bind_ends D.frame (Q := fun _ => Promotable due) (statement hstable
      (fun _ => D.stable_promotable due) ?_ (fun _ _ => trivial) ?_) fun _ =>
        Triple.pure_ends (D.stable_promotable due) fun _ _ hs => hs
    · exact fun _ s _ hs _ _ => (hs previous List.mem_cons_self).sound_next _ _
    · intro m s _ hchain hs _
      exact (hrest s hs).progresses
        (hchain.perform ((hs previous List.mem_cons_self).sound_next _ _) m).2

theorem promoteDueRetries (D : Discipline has rely steps) (o : WebhookDispatcherOptions) :
    Triple answer (sharing has rely steps) (fun _ => True) (Webhooks.promoteDueRetries o)
      (OnSuccess fun _ _ => True) := by
  refine Triple.bind_ends D.frame (now (Stable.fact True)) fun at_ => ?_
  refine Triple.bind_ends D.frame (statement (Q := Promotable) (Stable.fact True)
    D.stable_promotable (fun _ _ _ _ _ _ => trivial) (fun _ _ => trivial) ?_) fun due => ?_
  · rintro m s _ hchain _ ⟨⟩ row hrow
    obtain ⟨hmem, hfailed, -⟩ := mem_dueRetries.1 (List.mem_of_mem_take hrow)
    have hfind := Table.find?_of_mem hmem
    obtain ⟨-, maxAttempts, hallows, -, hlt⟩ := hchain.budget _ row hfind
    exact ⟨⟨row, hfind, .inl hfailed⟩, maxAttempts, hallows, hlt hfailed⟩
  exact (Triple.foldlM_ends D.frame (I := fun due _ => Promotable due)
    (fun _ => D.stable_promotable []) (fun previous rest promoted =>
      D.promote promoted previous rest) due 0).ends_mono (fun _ _ hs => hs) fun _ _ _ => trivial

/-- **Every statement of a poll cycle is issued soundly.** -/
theorem runOnce (D : Discipline has rely steps) (o : WebhookDispatcherOptions) :
    Triple answer (sharing has rely steps) (fun _ => True) (Webhooks.runOnce o)
      (OnSuccess fun _ _ => True) := by
  have htrue : Stable (sharing has rely steps) fun _ => True := Stable.fact True
  refine Triple.bind_ends D.frame (D.recoverStaleInFlight o) fun recovered => ?_
  refine Triple.bind_ends D.frame (D.enqueueNewDeliveries o) fun enqueued => ?_
  refine Triple.bind_ends D.frame (D.promoteDueRetries o) fun retriesPromoted => ?_
  refine Triple.bind_ends D.frame (now htrue) fun at_ => ?_
  refine Triple.bind_ends D.frame (statement (Q := fun _ _ => True) htrue (fun _ => htrue)
    (fun _ _ _ _ _ _ => trivial) (fun _ _ => trivial) fun _ _ _ _ _ _ => trivial) fun due => ?_
  exact Triple.foldlM_ends D.frame (I := fun _ _ _ => True) (fun _ => htrue)
    (fun delivery _ summary => Triple.map_ends D.frame
      (D.attemptDelivery o delivery.toDeliveryId) fun _ => htrue) due _

end Discipline

end Webhooks

end PaymentGateway
