import PaymentGateway.Webhooks.Attempts
import PaymentGateway.Lib.Concurrent

/-!
# Endpoints that fail

An endpoint counts its consecutive failures, and is disabled, with what is queued for it, once there
are too many of them. The counter and the delivery are written by different statements: a failure
counts first and then ends the attempt, a success ends the attempt and then resets the counter.

What the counter should come to is in the history of the endpoint: attempts that failed, with the
tables they left, attempts that were delivered, and merchants who enabled it again (`Record`).

**Theorem (`failures_counted`).** In every run, of any number of workers, whose statements are
`Orderly`, each failed attempt leaves the counter at the number of failures since the last success
or enabling, and an endpoint with too many of them disabled with nothing pending (`Counted`).

While a delivery of an endpoint is being finalized the counter runs ahead of the history, or behind
it; the record says so, and whose doing it is (`Finalizing`). Others then leave the endpoint alone
(`Kept`), which is what a worker relies on.
-/

namespace PaymentGateway

namespace Webhooks

open Program Keyed Concurrent

/-! ## The history of an endpoint -/

/-- The call that is finalizing a delivery, and whether the delivery was made. -/
structure Finalizing where
  call : Nat
  delivered : Bool
  deriving DecidableEq, Repr

inductive Entry
  /-- An attempt has failed and left the tables like this. -/
  | failed (after : Shared)
  | delivered
  | enabled

structure Record where
  /-- The latest entry first. -/
  history : List Entry
  underway : Option Finalizing

/-- Failures since the last success or enabling. -/
def streak : List Entry → Nat
  | .failed _ :: entries => streak entries + 1
  | _ => 0

/-- The tables, and the record of every endpoint. -/
structure Watched where
  shared : Shared
  records : String → Record

def Watched.empty : Watched := ⟨.empty, fun _ => ⟨[], none⟩⟩

/-- The status with which an update ends an attempt. -/
def DeliveryUpdate.finalizes (data : DeliveryUpdate) : Option WebhookDeliveryStatus :=
  data.sentAt.bind fun _ => data.status

/-- An attempt is over that may have been over before. -/
def Record.finalized (record : Record) (i : Nat) (status : WebhookDeliveryStatus) (ended : Bool)
    (after : Shared) : Record :=
  let entry := if status = .delivered then .delivered else .failed after
  ⟨if ended then entry :: record.history else record.history,
    if status = .delivered then some ⟨i, true⟩ else none⟩

/-- The record that a statement of a call has to do with, and what it makes of it. -/
def Watched.noted (w : Watched) (i : Nat) (q : Statement) (after : Shared) : String → Record :=
  match q with
  | .incrementFailures endpointId => Function.update w.records endpointId
      { w.records endpointId with underway := some ⟨i, false⟩ }
  | .resetFailures endpointId => Function.update w.records endpointId
      { w.records endpointId with underway := none }
  | .updateDelivery id data =>
    match data.finalizes with
    | none => w.records
    | some status => Function.update w.records id.endpointId
        ((w.records id.endpointId).finalized i status
          ((w.shared.deliveries.find? id).any (·.status = .inFlight)) after)
  | _ => w.records

def Watched.answer (i : Nat) (r : Request) (m : Moment) (w : Watched) :
    Except DispatchError (Answer r) × Watched :=
  let answered := Webhooks.answer r m w.shared
  (answered.1, ⟨answered.2, match r with
    | .statement q =>
      if m.fate.effective ∧ (perform w.shared m q).1.isOk then w.noted i q answered.2 else w.records
    | _ => w.records⟩)

/-- The endpoint that a merchant enables. -/
def Change.enables : Change → Option String
  | .update id (some true) .. => some id
  | _ => none

def Watched.change (event : Change) (w : Watched) : Watched :=
  ⟨Webhooks.change event w.shared, match event.enables with
    | none => w.records
    | some id => Function.update w.records id
        { w.records id with history := .enabled :: (w.records id).history }⟩

/-- Workers and merchants, and the histories they make. -/
def watched (o : WebhookDispatcherOptions) :
    Concurrent.System Request Answer DispatchError WebhookDispatchSummary Unit Moment Change
      Watched where
  code _ := runOnce o
  perform := Watched.answer
  enter _ _ w := w
  environment := Watched.change

/-! ## What is asked of a run -/

/-- The counter; that of an endpoint which is not there is zero. -/
def failures (s : Shared) (endpointId : String) : Nat :=
  (s.endpoints.find? endpointId).elim 0 (·.consecutiveFailures)

def Disabled (s : Shared) (endpointId : String) : Prop :=
  ∃ endpoint ∈ s.endpoints.find? endpointId, endpoint.enabled = false
  deriving Decidable

/-- Nothing of the endpoint is pending. -/
def Clear (s : Shared) (endpointId : String) : Prop :=
  ∀ row ∈ s.deliveries, row.endpointId = endpointId → row.status ≠ .pending
  deriving Decidable

/-- The endpoint is disabled and nothing is left in its queue. -/
def Shut (s : Shared) (endpointId : String) : Prop := Disabled s endpointId ∧ Clear s endpointId
  deriving Decidable

/-- What a failed attempt should leave. -/
structure Counted (o : WebhookDispatcherOptions) (endpointId : String) (history : List Entry)
    (s : Shared) : Prop where
  count : failures s endpointId = streak history
  shut : o.disableAfterConsecutiveFailures ≤ failures s endpointId → Shut s endpointId

/-- Finalizations of one endpoint follow one another, and end rows that are in flight; nothing is
queued for an endpoint with too many failures that is disabled; and a failed attempt that was the
last of its budget does not bring the counter to its limit. -/
def Orderly (o : WebhookDispatcherOptions) (w : Watched) : Statement → Prop
  | .incrementFailures endpointId => (w.records endpointId).underway = none
  | .updateDelivery id data => ∀ status ∈ data.finalizes,
      (∀ row ∈ w.shared.deliveries.find? id, row.status = .inFlight) ∧
      (status = .delivered → (w.records id.endpointId).underway = none) ∧
      (status ≠ .delivered → ∀ endpoint ∈ w.shared.endpoints.find? id.endpointId,
        endpoint.maxAttempts ≤ id.attempt →
          failures w.shared id.endpointId < o.disableAfterConsecutiveFailures ∨
            Shut w.shared id.endpointId)
  | .upsertDelivery id .. => w.shared.deliveries.find? id = none →
      Disabled w.shared id.endpointId →
        failures w.shared id.endpointId < o.disableAfterConsecutiveFailures
  | _ => True

instance (o : WebhookDispatcherOptions) (w : Watched) (q : Statement) :
    Decidable (Orderly o w q) := by
  cases q <;> unfold Orderly <;> infer_instance

/-- A new endpoint has not failed yet, and one whose delivery is being finalized is not enabled
meanwhile. -/
def Happens (w : Watched) : Change → Prop
  | .create endpoint => endpoint.consecutiveFailures = 0
  | .update id (some true) .. => (w.records id).underway = none
  | _ => True

instance (w : Watched) (event : Change) : Decidable (Happens w event) := by
  unfold Happens
  split <;> infer_instance

def orderly (o : WebhookDispatcherOptions) :
    Rules Request Answer DispatchError WebhookDispatchSummary Unit Moment Change Watched where
  starts _ _ := True
  live _ _ := True
  steps _ r m w := ∀ q, r = .statement q → m.fate.effective → Orderly o w q
  happens event w := Happens w event

instance (o : WebhookDispatcherOptions) (r : Request) (m : Moment) (w : Watched) :
    Decidable (∀ q, r = .statement q → m.fate.effective → Orderly o w q) :=
  match r with
  | .statement q => decidable_of_iff (m.fate.effective → Orderly o w q)
      ⟨fun h _ hq => by cases hq; exact h, fun h => h q rfl⟩
  | .now | .random | .assertPublicWebhookUrl _ | .fetch _ => isTrue fun _ h => nomatch h

instance (o : WebhookDispatcherOptions) (move : Move Unit Moment Change)
    (s : Concurrent.State Request Answer DispatchError WebhookDispatchSummary Unit Watched) :
    Decidable ((orderly o).meets move s) :=
  have : ∀ l s, Decidable ((orderly o).starts l s) := fun _ _ => inferInstanceAs (Decidable True)
  have : ∀ n i, Decidable ((orderly o).live n i) := fun _ _ => inferInstanceAs (Decidable True)
  have : ∀ i r m w, Decidable ((orderly o).steps i r m w) := fun _ r m w => inferInstanceAs
    (Decidable (∀ q, r = .statement q → m.fate.effective → Orderly o w q))
  have : ∀ e w, Decidable ((orderly o).happens e w) :=
    fun e w => inferInstanceAs (Decidable (Happens w e))
  inferInstance

/-! ## What statements do to rows and endpoints -/

/-- A row that is pending was pending, or is new. -/
theorem pending_perform {q : Statement} (hq : ∀ id data, q = .updateDelivery id data →
      data.status ≠ some .pending) (m : Moment) (s : Shared) {id : DeliveryId}
    {row' : WebhookDelivery} (hrow' : (perform s m q).2.deliveries.find? id = some row')
    (hpending : row'.status = .pending) :
    (∃ row, s.deliveries.find? id = some row ∧ row.status = .pending) ∨
      (s.deliveries.find? id = none ∧ ∃ url now, q = .upsertDelivery id url now) := by
  have hsame : ∀ s' : Shared, s'.deliveries.find? id = some row' → s'.deliveries = s.deliveries →
      ∃ row, s.deliveries.find? id = some row ∧ row.status = .pending :=
    fun s' h hs => ⟨row', hs ▸ h, hpending⟩
  have hupdate : ∀ id' (data : DeliveryUpdate), data.status ≠ some .pending →
      (s.updateDelivery id' data m.now).deliveries.find? id = some row' →
        ∃ row, s.deliveries.find? id = some row ∧ row.status = .pending := by
    intro id' data hdata h
    rw [s.find?_updateDelivery, Option.map_eq_some_iff] at h
    obtain ⟨row, hrow, rfl⟩ := h
    refine ⟨row, hrow, ?_⟩
    by_cases hid : id = id'
    · rw [if_pos hid] at hpending
      cases hstatus : data.status with
      | none => simpa [DeliveryUpdate.apply, hstatus] using hpending
      | some status =>
        simp only [DeliveryUpdate.apply, hstatus, Option.getD_some] at hpending
        rw [hstatus, hpending] at hdata
        exact absurd rfl hdata
    · rwa [if_neg hid] at hpending
  cases q with
  | upsertDelivery id' url now =>
    simp only [perform] at hrow'
    split at hrow'
    · exact .inl ⟨row', hrow', hpending⟩
    · rename_i hnone
      by_cases hid : id' = id
      · subst hid
        exact .inr ⟨hnone, url, now, rfl⟩
      · rw [s.find?_insertDelivery, if_neg hid] at hrow'
        exact .inl ⟨row', hrow', hpending⟩
  | updateDelivery id' data =>
    simp only [perform] at hrow'
    split at hrow'
    · exact .inl (hupdate id' data (hq id' data rfl) hrow')
    · exact .inl ⟨row', hrow', hpending⟩
  | claimDelivery id' =>
    simp only [perform] at hrow'
    split at hrow'
    · exact .inl (hupdate id' _ (by simp) hrow')
    · exact .inl ⟨row', hrow', hpending⟩
  | abandonPending endpointId =>
    have hfind : (s.sweep endpointId m.now).deliveries.find? id = some row' := hrow'
    rw [s.find?_sweep, Option.map_eq_some_iff] at hfind
    obtain ⟨row, hrow, rfl⟩ := hfind
    refine .inl ⟨row, hrow, ?_⟩
    unfold sweep at hpending
    split at hpending
    · cases hpending
    · exact hpending
  | resetFailures | incrementFailures | disableEndpoint =>
    simp only [perform] at hrow'
    split at hrow' <;> exact .inl ⟨row', hrow', hpending⟩
  | _ => exact .inl ⟨row', hrow', hpending⟩

/-- What a statement makes of an endpoint. -/
def Statement.revises (q : Statement) (endpoint : WebhookEndpoint) : WebhookEndpoint :=
  match q with
  | .resetFailures endpointId =>
    if endpoint.id = endpointId then { endpoint with consecutiveFailures := 0 } else endpoint
  | .incrementFailures endpointId => if endpoint.id = endpointId then fails endpoint else endpoint
  | .disableEndpoint endpointId disabledAt disabledReason =>
    if endpoint.id = endpointId then { endpoint with
      enabled := false
      disabledAt := some disabledAt
      disabledReason := some disabledReason }
    else endpoint
  | _ => endpoint

theorem find?_endpoints_perform (q : Statement) (m : Moment) (s : Shared) (endpointId : String) :
    (perform s m q).2.endpoints.find? endpointId =
      (s.endpoints.find? endpointId).map q.revises := by
  have hupdate : ∀ id (f : WebhookEndpoint → WebhookEndpoint) hf,
      (s.updateEndpoint id f hf).endpoints.find? endpointId =
        (s.endpoints.find? endpointId).map
          fun endpoint => if endpoint.id = id then f endpoint else endpoint := by
    intro id f hf
    rw [s.find?_updateEndpoint]
    cases hendpoint : s.endpoints.find? endpointId with
    | none => rfl
    | some endpoint => rw [Option.map_some, Option.map_some, Table.key_of_find? hendpoint]
  have hmissing : ∀ id (f : WebhookEndpoint → WebhookEndpoint), s.endpoints.find? id = none →
      s.endpoints.find? endpointId = (s.endpoints.find? endpointId).map
        fun endpoint => if endpoint.id = id then f endpoint else endpoint := by
    intro id f hnone
    cases hendpoint : s.endpoints.find? endpointId with
    | none => rfl
    | some endpoint =>
      have hid := Table.key_of_find? hendpoint
      rw [Option.map_some, if_neg]
      rintro rfl
      rw [hid, hendpoint] at hnone
      cases hnone
  have hid : s.endpoints.find? endpointId = (s.endpoints.find? endpointId).map id := by simp
  cases q with
  | resetFailures id | incrementFailures id | disableEndpoint id =>
    simp only [perform]
    split
    · exact hupdate id _ _
    · rename_i hnone
      exact hmissing id _ hnone
  | upsertDelivery | updateDelivery | claimDelivery =>
    simp only [perform]
    split <;> exact hid
  | _ => exact hid

/-! ## The invariant -/

/-- How far the counter is ahead of the history. -/
def Balanced (failures : Nat) (record : Record) : Prop :=
  match record.underway.map (·.delivered) with
  | none => failures = streak record.history
  | some false => failures = streak record.history + 1
  | some true => streak record.history = 0

structure Books (o : WebhookDispatcherOptions) (w : Watched) : Prop where
  history : ∀ endpointId later after earlier,
    (w.records endpointId).history = later ++ .failed after :: earlier →
      Counted o endpointId (.failed after :: earlier) after
  balanced : ∀ endpointId, Balanced (failures w.shared endpointId) (w.records endpointId)

theorem Books.empty (o : WebhookDispatcherOptions) : Books o Watched.empty where
  history endpointId later after earlier h := by simp [Watched.empty] at h
  balanced _ := rfl

/-- What others leave of an endpoint whose delivery is being finalized. -/
structure Kept (o : WebhookDispatcherOptions) (endpointId : String) (w w' : Watched) : Prop where
  underway : (w'.records endpointId).underway = (w.records endpointId).underway
  failures : failures w'.shared endpointId = failures w.shared endpointId
  allows : ∀ maxAttempts, Allows w.shared endpointId maxAttempts →
    Allows w'.shared endpointId maxAttempts
  disabled : Disabled w.shared endpointId → Disabled w'.shared endpointId
  clear : o.disableAfterConsecutiveFailures ≤ Webhooks.failures w.shared endpointId →
    Disabled w.shared endpointId → Clear w.shared endpointId → Clear w'.shared endpointId

section Keeping

variable {o : WebhookDispatcherOptions} {endpointId : String}

theorem Kept.refl (o : WebhookDispatcherOptions) (endpointId : String) (w : Watched) :
    Kept o endpointId w w :=
  ⟨rfl, rfl, fun _ h => h, fun h => h, fun _ _ h => h⟩

theorem Kept.trans {w w' w'' : Watched} (h : Kept o endpointId w w')
    (h' : Kept o endpointId w' w'') : Kept o endpointId w w'' where
  underway := h'.underway.trans h.underway
  failures := h'.failures.trans h.failures
  allows maxAttempts hallows := h'.allows maxAttempts (h.allows maxAttempts hallows)
  disabled hdisabled := h'.disabled (h.disabled hdisabled)
  clear hlimit hdisabled hclear :=
    h'.clear (h.failures ▸ hlimit) (h.disabled hdisabled) (h.clear hlimit hdisabled hclear)

/-- The call that is finalizing a delivery of an endpoint. -/
def Watched.owner (w : Watched) (endpointId : String) : Option Nat :=
  (w.records endpointId).underway.map (·.call)

def Relies (o : WebhookDispatcherOptions) (i : Nat) (w w' : Watched) : Prop :=
  ∀ endpointId, w.owner endpointId = some i → Kept o endpointId w w'

def Grants (o : WebhookDispatcherOptions) (i : Nat) (w w' : Watched) : Prop :=
  ∀ endpointId j, j ≠ i → w.owner endpointId = some j → Kept o endpointId w w'

theorem Relies.refl (i : Nat) (w : Watched) : Relies o i w w := fun _ _ => .refl o _ w

theorem Relies.trans {i : Nat} {w w' w'' : Watched} (h : Relies o i w w')
    (h' : Relies o i w' w'') : Relies o i w w'' := by
  intro endpointId howner
  have hkept := h endpointId howner
  refine hkept.trans (h' endpointId ?_)
  rw [Watched.owner, hkept.underway]
  exact howner

/-! ## Statements of a call -/

/-- The endpoint whose record a statement has to do with. -/
def Statement.target : Statement → Option String
  | .incrementFailures endpointId | .resetFailures endpointId => some endpointId
  | .updateDelivery id data => data.finalizes.map fun _ => id.endpointId
  | _ => none

/-- What a call makes sure of before it issues a statement. -/
def Ready (o : WebhookDispatcherOptions) (i : Nat) (w : Watched) : Statement → Prop
  | .resetFailures endpointId => (w.records endpointId).underway = some ⟨i, true⟩
  | .updateDelivery id data => data.status ≠ some .pending ∧
      ∀ status ∈ data.finalizes, status ≠ .delivered →
        (w.records id.endpointId).underway = some ⟨i, false⟩ ∧
          ∃ maxAttempts, Allows w.shared id.endpointId maxAttempts ∧
            (o.disableAfterConsecutiveFailures ≤ failures w.shared id.endpointId →
              maxAttempts ≤ id.attempt ∨ Shut w.shared id.endpointId)
  | _ => True

variable {i : Nat} {q : Statement} {m : Moment} {w : Watched}

theorem Ready.not_pending (h : Ready o i w q) :
    ∀ id data, q = .updateDelivery id data → data.status ≠ some .pending := by
  rintro id data rfl
  exact h.1

theorem noted_of_target_ne (h : q.target ≠ some endpointId) (after : Shared) :
    w.noted i q after endpointId = w.records endpointId := by
  cases q with
  | incrementFailures id | resetFailures id =>
    refine Function.update_of_ne ?_ _ _
    rintro rfl
    exact h rfl
  | updateDelivery id data =>
    cases hstatus : data.finalizes with
    | none => simp only [Watched.noted, hstatus]
    | some status =>
      simp only [Watched.noted, hstatus]
      refine Function.update_of_ne ?_ _ _
      rintro rfl
      exact h (by simp [Statement.target, hstatus])
  | _ => rfl

/-- Only the one that finalizes has to do with the record. -/
theorem owner_of_target (horderly : Orderly o w q) (hready : Ready o i w q)
    (h : q.target = some endpointId) {j : Nat} (howner : w.owner endpointId = some j) : j = i := by
  have hnone : (w.records endpointId).underway ≠ none := by
    intro hnone
    simp [Watched.owner, hnone] at howner
  have hcall : ∀ delivered, (w.records endpointId).underway = some ⟨i, delivered⟩ → j = i := by
    intro delivered hunderway
    rw [Watched.owner, hunderway] at howner
    exact (Option.some.inj howner).symm
  cases q with
  | incrementFailures id =>
    cases h
    exact absurd horderly hnone
  | resetFailures id =>
    cases h
    exact hcall true hready
  | updateDelivery id data =>
    simp only [Statement.target, Option.map_eq_some_iff] at h
    obtain ⟨status, hstatus, rfl⟩ := h
    by_cases hdelivered : status = .delivered
    · exact absurd ((horderly status hstatus).2.1 hdelivered) hnone
    · exact hcall false (hready.2 status hstatus hdelivered).1
  | _ => cases h

theorem revises_of_target_ne {endpoint : WebhookEndpoint} (h : q.target ≠ some endpoint.id) :
    (q.revises endpoint).consecutiveFailures = endpoint.consecutiveFailures := by
  cases q with
  | incrementFailures id | resetFailures id =>
    simp only [Statement.revises]
    rw [if_neg]
    rintro rfl
    exact h rfl
  | disableEndpoint id =>
    simp only [Statement.revises]
    split <;> rfl
  | _ => rfl

theorem revises_maxAttempts (q : Statement) (endpoint : WebhookEndpoint) :
    (q.revises endpoint).maxAttempts = endpoint.maxAttempts := by
  unfold Statement.revises
  split <;> first | rfl | (split <;> rfl)

theorem revises_disabled {endpoint : WebhookEndpoint} (q : Statement)
    (h : endpoint.enabled = false) : (q.revises endpoint).enabled = false := by
  unfold Statement.revises
  split <;> first | exact h | (split <;> first | exact h | rfl)

theorem Disabled.perform {s : Shared} (h : Disabled s endpointId) :
    Disabled (perform s m q).2 endpointId := by
  obtain ⟨endpoint, hendpoint, hdisabled⟩ := h
  refine ⟨q.revises endpoint, ?_, revises_disabled q hdisabled⟩
  rw [find?_endpoints_perform, hendpoint]
  rfl

/-- A statement queues nothing for an endpoint with too many failures that is disabled. -/
theorem Clear.perform (h : Clear w.shared endpointId) (horderly : Orderly o w q)
    (hready : Ready o i w q)
    (hlimit : o.disableAfterConsecutiveFailures ≤ failures w.shared endpointId)
    (hdisabled : Disabled w.shared endpointId) : Clear (perform w.shared m q).2 endpointId := by
  intro row' hmem hid hpending
  rcases pending_perform hready.not_pending m w.shared (Table.find?_of_mem hmem) hpending with
    ⟨row, hrow, hwas⟩ | ⟨hnone, url, now, rfl⟩
  · have hkey := congrArg DeliveryId.endpointId (Table.key_of_find? hrow)
    exact h row (Table.mem_of_find? hrow) (hkey.trans hid) hwas
  · have hlt := horderly hnone (hid ▸ hdisabled)
    rw [hid] at hlt
    exact absurd hlimit (Nat.not_le.2 hlt)

/-- A statement leaves an endpoint alone whose record it has nothing to do with. -/
theorem Kept.perform (horderly : Orderly o w q) (hready : Ready o i w q)
    (htarget : q.target ≠ some endpointId) :
    Kept o endpointId w
      ⟨(perform w.shared m q).2, w.noted i q (perform w.shared m q).2⟩ where
  underway := by
    show (w.noted i q _ endpointId).underway = _
    rw [noted_of_target_ne htarget]
  failures := by
    simp only [Webhooks.failures, find?_endpoints_perform]
    cases hendpoint : w.shared.endpoints.find? endpointId with
    | none => rfl
    | some endpoint =>
      exact revises_of_target_ne (by rwa [Table.key_of_find? hendpoint])
  allows := by
    rintro _ ⟨endpoint, hendpoint, rfl⟩
    refine ⟨q.revises endpoint, ?_, revises_maxAttempts q endpoint⟩
    rw [find?_endpoints_perform, hendpoint, Option.map_some]
  disabled := .perform
  clear hlimit hdisabled hclear := hclear.perform horderly hready hlimit hdisabled

/-! ## Books -/

theorem Books.same {w' : Watched} (h : Books o w)
    (hsame : ∀ endpointId, w'.records endpointId = w.records endpointId ∧
      failures w'.shared endpointId = failures w.shared endpointId) : Books o w' where
  history endpointId later after earlier heq := by
    rw [(hsame endpointId).1] at heq
    exact h.history endpointId later after earlier heq
  balanced endpointId := by
    rw [(hsame endpointId).1, (hsame endpointId).2]
    exact h.balanced endpointId

/-- Updating one record, in which a failed attempt may have been written down. -/
theorem Books.of_record {w' : Watched} (h : Books o w) (endpointId : String)
    (hrecords : ∀ other, other ≠ endpointId → w'.records other = w.records other ∧
      failures w'.shared other = failures w.shared other)
    (hhistory : (w'.records endpointId).history = (w.records endpointId).history ∨
      ∃ entry, (w'.records endpointId).history = entry :: (w.records endpointId).history ∧
        ∀ after, entry = .failed after →
          Counted o endpointId (.failed after :: (w.records endpointId).history) after)
    (hbalanced : Balanced (failures w'.shared endpointId) (w'.records endpointId)) :
    Books o w' where
  history other later after earlier heq := by
    by_cases hother : other = endpointId
    · subst hother
      rcases hhistory with hsame | ⟨entry, hcons, hentry⟩
      · exact h.history other later after earlier (hsame ▸ heq)
      · rw [hcons] at heq
        cases later with
        | nil =>
          obtain ⟨rfl, rfl⟩ := List.cons.inj heq
          exact hentry after rfl
        | cons _ later => exact h.history other later after earlier (List.cons.inj heq).2
    · rw [(hrecords other hother).1] at heq
      exact h.history other later after earlier heq
  balanced other := by
    by_cases hother : other = endpointId
    · exact hother ▸ hbalanced
    · rw [(hrecords other hother).1, (hrecords other hother).2]
      exact h.balanced other

theorem failures_increment {s : Shared}
    (hok : (perform s m (.incrementFailures endpointId)).1.isOk) :
    failures (perform s m (.incrementFailures endpointId)).2 endpointId =
      failures s endpointId + 1 := by
  rw [failures, failures, find?_endpoints_perform]
  cases hendpoint : s.endpoints.find? endpointId with
  | none => simp [perform, hendpoint, Except.isOk, Except.toBool] at hok
  | some endpoint => simp [Statement.revises, Table.key_of_find? hendpoint, fails]

theorem failures_reset (s : Shared) :
    failures (perform s m (.resetFailures endpointId)).2 endpointId = 0 := by
  rw [failures, find?_endpoints_perform]
  cases hendpoint : s.endpoints.find? endpointId with
  | none => rfl
  | some endpoint => simp [Statement.revises, Table.key_of_find? hendpoint]

theorem failures_updateDelivery (s : Shared) (id : DeliveryId) (data : DeliveryUpdate) :
    failures (perform s m (.updateDelivery id data)).2 endpointId = failures s endpointId := by
  rw [failures, failures, find?_endpoints_perform]
  cases s.endpoints.find? endpointId with
  | none => rfl
  | some endpoint => rfl

/-- An update that ends an attempt writes it down. -/
theorem noted_finalized {id : DeliveryId} {data : DeliveryUpdate} {status : WebhookDeliveryStatus}
    (horderly : Orderly o w (.updateDelivery id data)) (hstatus : data.finalizes = some status)
    (hok : (perform w.shared m (.updateDelivery id data)).1.isOk) (after : Shared) :
    w.noted i (.updateDelivery id data) after id.endpointId =
      ⟨(if status = .delivered then .delivered else .failed after) ::
          (w.records id.endpointId).history,
        if status = .delivered then some ⟨i, true⟩ else none⟩ := by
  cases hrow : w.shared.deliveries.find? id with
  | none => simp [perform, hrow, Except.isOk, Except.toBool] at hok
  | some row =>
    have hinFlight := (horderly status hstatus).1 row hrow
    simp [Watched.noted, hstatus, hrow, hinFlight, Record.finalized]

/-- A failed attempt is counted. -/
theorem Books.counted (h : Books o w) {id : DeliveryId} {data : DeliveryUpdate}
    {status : WebhookDeliveryStatus} (horderly : Orderly o w (.updateDelivery id data))
    (hready : Ready o i w (.updateDelivery id data)) (hstatus : data.finalizes = some status)
    (hfailed : status ≠ .delivered) :
    Counted o id.endpointId
      (.failed (perform w.shared m (.updateDelivery id data)).2 :: (w.records id.endpointId).history)
      (perform w.shared m (.updateDelivery id data)).2 := by
  obtain ⟨hunderway, maxAttempts, ⟨endpoint, hendpoint, rfl⟩, hshut⟩ :=
    hready.2 status hstatus hfailed
  have hbalanced := h.balanced id.endpointId
  simp only [Balanced, hunderway, Option.map_some] at hbalanced
  refine ⟨by rw [failures_updateDelivery, hbalanced, streak], fun hlimit => ?_⟩
  rw [failures_updateDelivery] at hlimit
  have hbefore : Shut w.shared id.endpointId := by
    rcases hshut hlimit with hlast | hshut
    · have hlt := (horderly status hstatus).2.2 hfailed endpoint hendpoint hlast
      exact hlt.resolve_left (Nat.not_lt.2 hlimit)
    · exact hshut
  exact ⟨hbefore.1.perform, hbefore.2.perform horderly hready hlimit hbefore.1⟩

/-- A statement that is ready, in an orderly run. -/
theorem Books.perform (h : Books o w) (horderly : Orderly o w q) (hready : Ready o i w q)
    (hok : (perform w.shared m q).1.isOk) :
    Books o ⟨(perform w.shared m q).2, w.noted i q (perform w.shared m q).2⟩ := by
  have hkept : ∀ other, q.target ≠ some other →
      w.noted i q (Webhooks.perform w.shared m q).2 other = w.records other ∧
        failures (Webhooks.perform w.shared m q).2 other = failures w.shared other :=
    fun other htarget => ⟨noted_of_target_ne htarget _,
      (Kept.perform horderly hready htarget).failures⟩
  have hothers : ∀ endpointId, q.target = some endpointId → ∀ other, other ≠ endpointId →
      q.target ≠ some other := by
    intro endpointId htarget other hne heq
    rw [htarget] at heq
    exact hne (Option.some.inj heq).symm
  cases htarget : q.target with
  | none =>
    exact h.same fun other => hkept other (by rw [htarget]; exact fun h => nomatch h)
  | some endpointId =>
    have hrecords := fun other hne => hkept other (hothers endpointId htarget other hne)
    have hbalanced := h.balanced endpointId
    cases q with
    | incrementFailures id =>
      cases htarget
      have hnone : (w.records endpointId).underway = none := horderly
      simp only [Balanced, hnone, Option.map_none] at hbalanced
      refine h.of_record endpointId hrecords (.inl (by simp [Watched.noted])) ?_
      rw [failures_increment hok]
      simp [Balanced, Watched.noted, hbalanced]
    | resetFailures id =>
      cases htarget
      have hdelivered : (w.records endpointId).underway = some ⟨i, true⟩ := hready
      simp only [Balanced, hdelivered, Option.map_some] at hbalanced
      refine h.of_record endpointId hrecords (.inl (by simp [Watched.noted])) ?_
      rw [failures_reset]
      simp [Balanced, Watched.noted, hbalanced]
    | updateDelivery id data =>
      simp only [Statement.target, Option.map_eq_some_iff] at htarget
      obtain ⟨status, hstatus, rfl⟩ := htarget
      have hnoted := noted_finalized (i := i) horderly hstatus hok
      by_cases hdelivered : status = .delivered
      · refine h.of_record id.endpointId hrecords (.inr ⟨.delivered, ?_, fun _ h => nomatch h⟩) ?_
        · simp [hnoted, hdelivered]
        · simp [Balanced, hnoted, hdelivered, streak]
      · refine h.of_record id.endpointId hrecords (.inr ⟨.failed (Webhooks.perform w.shared m (.updateDelivery id data)).2, ?_, fun after heq => ?_⟩) ?_
        · simp only [hnoted, hdelivered, if_false]
        · cases heq
          exact h.counted horderly hready hstatus hdelivered
        · have hcount := (h.counted (m := m) horderly hready hstatus hdelivered).count
          simpa [Balanced, hnoted, hdelivered, streak] using hcount
    | _ => cases htarget

/-- A statement that fails of itself changes nothing. -/
theorem perform_of_not_isOk {s : Shared} (h : ¬(perform s m q).1.isOk) : (perform s m q).2 = s := by
  cases q with
  | updateDelivery | resetFailures | incrementFailures | disableEndpoint =>
    simp only [perform] at h ⊢
    split at h
    · exact absurd rfl h
    · rfl
  | upsertDelivery | claimDelivery =>
    simp only [perform] at h
    split at h <;> exact absurd rfl h
  | _ => exact absurd rfl h

/-- What a request of a call leaves, if it is a statement that is ready in an orderly run. -/
theorem Books.answer (h : Books o w) {r : Request}
    (horderly : ∀ q, r = .statement q → m.fate.effective → Orderly o w q)
    (hready : ∀ q, r = .statement q → Ready o i w q) :
    Books o (Watched.answer i r m w).2 ∧ Grants o i w (Watched.answer i r m w).2 := by
  have hsame : ∀ w' : Watched, w' = w → Books o w' ∧ Grants o i w w' := by
    rintro _ rfl
    exact ⟨h, fun _ _ _ _ => .refl o _ _⟩
  cases r with
  | statement q =>
    by_cases heffect : m.fate.effective ∧ (Webhooks.perform w.shared m q).1.isOk
    · have heq : (Watched.answer i (.statement q) m w).2 =
          ⟨(Webhooks.perform w.shared m q).2, w.noted i q (Webhooks.perform w.shared m q).2⟩ := by
        obtain ⟨hfate, hok⟩ := heffect
        cases hm : m.fate <;> simp_all [Watched.answer, Webhooks.answer, Fate.effective]
      rw [heq]
      have horderly := horderly q rfl heffect.1
      have hready := hready q rfl
      refine ⟨h.perform horderly hready heffect.2, fun endpointId j hne howner => ?_⟩
      refine .perform horderly hready fun htarget => hne ?_
      exact owner_of_target horderly hready htarget howner
    · refine hsame _ ?_
      simp only [Watched.answer, heffect, if_false]
      have hshared : (Webhooks.answer (.statement q) m w.shared).2 = w.shared := by
        simp only [Webhooks.answer]
        cases hm : m.fate with
        | answered | failedLate =>
          refine perform_of_not_isOk fun hok => heffect ⟨?_, hok⟩
          rw [hm]
          trivial
        | failed => rfl
      rw [hshared]
  | _ => exact hsame _ rfl

/-- Changing an endpoint, but for enabling it. -/
theorem updated_kept {enabled : Option Bool} (h : enabled ≠ some true)
    (eventTypes : Option (List String)) (now : Int) (endpoint : WebhookEndpoint) :
    (updated enabled eventTypes now endpoint).consecutiveFailures = endpoint.consecutiveFailures ∧
      (endpoint.enabled = false →
        (updated enabled eventTypes now endpoint).enabled = false) := by
  unfold updated
  split
  · exact ⟨rfl, fun h => h⟩
  · exact ⟨rfl, fun _ => rfl⟩
  · exact absurd rfl h

/-- What merchants leave of an endpoint that they do not enable. -/
theorem change_kept {event : Change} (hevent : Happens w event)
    (h : event.enables ≠ some endpointId) :
    failures (Webhooks.change event w.shared) endpointId = failures w.shared endpointId ∧
      (Disabled w.shared endpointId → Disabled (Webhooks.change event w.shared) endpointId) := by
  have hupdate : ∀ id (f : WebhookEndpoint → WebhookEndpoint) hf,
      (endpointId = id → ∀ endpoint, (f endpoint).consecutiveFailures =
        endpoint.consecutiveFailures ∧ (endpoint.enabled = false → (f endpoint).enabled = false)) →
      failures (w.shared.updateEndpoint id f hf) endpointId = failures w.shared endpointId ∧
        (Disabled w.shared endpointId →
          Disabled (w.shared.updateEndpoint id f hf) endpointId) := by
    intro id f hf hkept
    simp only [failures, Disabled, w.shared.find?_updateEndpoint]
    by_cases hid : endpointId = id
    · cases hendpoint : w.shared.endpoints.find? endpointId with
      | none => simp
      | some endpoint =>
        obtain ⟨hfailures, hdisabled⟩ := hkept hid endpoint
        simpa [hid, hfailures] using hdisabled
    · simp [hid]
  cases event with
  | emit event =>
    simp only [Webhooks.change]
    split <;> exact ⟨rfl, fun h => h⟩
  | create endpoint =>
    simp only [Webhooks.change]
    split
    · exact ⟨rfl, fun h => h⟩
    · rename_i hnone
      have hzero : endpoint.consecutiveFailures = 0 := hevent
      simp only [failures, Disabled, Table.find?_insert]
      by_cases hid : endpoint.id = endpointId
      · subst hid
        simp [hnone, hzero]
      · simp [hid]
  | update id enabled eventTypes now =>
    refine hupdate id _ _ fun hid endpoint => updated_kept ?_ eventTypes now endpoint
    rintro rfl
    exact h (by rw [hid]; rfl)
  | rotateSecret id secretEncrypted =>
    exact hupdate id _ _ fun _ _ => ⟨rfl, fun h => h⟩

theorem failures_enabled {event : Change} (h : event.enables = some endpointId) :
    failures (Webhooks.change event w.shared) endpointId = 0 := by
  unfold Change.enables at h
  split at h
  · cases h
    simp only [failures, Webhooks.change, w.shared.find?_updateEndpoint]
    cases w.shared.endpoints.find? endpointId with
    | none => rfl
    | some endpoint => simp [updated]
  · cases h

/-- An endpoint is not enabled while its delivery is being finalized. -/
theorem Happens.not_enables {event : Change} (h : Happens w event)
    (hunderway : (w.records endpointId).underway ≠ none) : event.enables ≠ some endpointId := by
  intro henables
  unfold Change.enables at henables
  split at henables
  · cases henables
    exact hunderway h
  · cases henables

theorem change_records {event : Change} (h : event.enables ≠ some endpointId) :
    (w.change event).records endpointId = w.records endpointId := by
  simp only [Watched.change]
  cases henables : event.enables with
  | none => rfl
  | some id =>
    refine Function.update_of_ne ?_ _ _
    rintro rfl
    exact h henables

/-- Merchants leave an endpoint alone whose delivery is being finalized, but for disabling it. -/
theorem Kept.change {event : Change} (hevent : Happens w event) {j : Nat}
    (howner : w.owner endpointId = some j) : Kept o endpointId w (w.change event) := by
  have henables : event.enables ≠ some endpointId := by
    refine hevent.not_enables fun hnone => ?_
    simp [Watched.owner, hnone] at howner
  obtain ⟨hfailures, hdisabled⟩ := change_kept hevent henables
  refine ⟨by rw [change_records henables], hfailures, (Progresses.change event w.shared).endpoints _,
    hdisabled, fun _ _ hclear row hrow => hclear row ?_⟩
  have hrow : row ∈ (Webhooks.change event w.shared).deliveries := hrow
  rwa [deliveries_change] at hrow

theorem Books.change (h : Books o w) {event : Change} (hevent : Happens w event) :
    Books o (w.change event) := by
  have hkept : ∀ other, event.enables ≠ some other →
      (w.change event).records other = w.records other ∧
        failures (w.change event).shared other = failures w.shared other :=
    fun other hother => ⟨change_records hother, (change_kept hevent hother).1⟩
  cases henables : event.enables with
  | none =>
    exact h.same fun other => hkept other (by rw [henables]; exact fun h => nomatch h)
  | some endpointId =>
    have hunderway : (w.records endpointId).underway = none := by
      by_contra hne
      exact hevent.not_enables hne henables
    refine h.of_record endpointId (fun other hne => hkept other ?_)
      (.inr ⟨.enabled, ?_, fun _ h => nomatch h⟩) ?_
    · rw [henables]
      exact fun heq => hne (Option.some.inj heq).symm
    · simp [Watched.change, henables]
    · have hzero : failures (w.change event).shared endpointId = 0 := failures_enabled henables
      rw [hzero]
      simp [Balanced, Watched.change, henables, hunderway, streak]

end Keeping

/-! ## An outline of a call -/

abbrev bookkeeping (o : WebhookDispatcherOptions) (i : Nat) : Terms Request Moment Watched :=
  ⟨Books o, Relies o i, fun _ => Grants o i, (orderly o).steps i⟩

section Calls

variable {o : WebhookDispatcherOptions} {i : Nat} {P : Watched → Prop}

theorem bookkeeping_frame (o : WebhookDispatcherOptions) (i : Nat) :
    (bookkeeping o i).Frame fun _ => True :=
  ⟨⟨.refl i, fun _ _ _ => .trans⟩, fun _ _ _ _ _ => trivial⟩

theorem issue {q : Statement} {Q : q.Answer → Watched → Prop} (hP : Stable (bookkeeping o i) P)
    (hQ : ∀ a, Stable (bookkeeping o i) (Q a)) (hready : ∀ w, Books o w → P w → Ready o i w q)
    (hpost : ∀ m w a, Books o w → P w → Orderly o w q → (perform w.shared m q).1 = .ok a →
      Q a ⟨(perform w.shared m q).2, w.noted i q (perform w.shared m q).2⟩) :
    Triple (Watched.answer i) (bookkeeping o i) P (db q) (OnSuccess Q) := by
  refine Triple.call hP (Stable.ends (Stable.fact True) hQ) fun m w hbooks hw hm => ?_
  obtain ⟨hbooks', hgrants⟩ := hbooks.answer hm fun q' hq' => by
    cases hq'
    exact hready w hbooks hw
  refine ⟨hbooks', hgrants, ?_⟩
  cases hresult : (Watched.answer i (.statement q) m w).1 with
  | error e => trivial
  | ok a =>
    -- only what was performed is answered
    have hfate : m.fate = .answered := by
      cases hm : m.fate <;> simp_all [Watched.answer, Webhooks.answer]
    simp only [Watched.answer, Webhooks.answer, hfate] at hresult ⊢
    have heffective : Fate.answered.effective ∧ (perform w.shared m q).1.isOk := by
      rw [hresult]
      exact ⟨trivial, rfl⟩
    rw [if_pos heffective]
    exact hpost m w a hbooks hw (hm q rfl (by rw [hfate]; trivial)) hresult

/-- A statement that has to do with no record leaves alone what others leave alone. -/
theorem aside {q : Statement} (hP : Stable (bookkeeping o i) P) (htarget : q.target = none)
    (hready : ∀ w, Ready o i w q) :
    Triple (Watched.answer i) (bookkeeping o i) P (db q) (OnSuccess fun _ => P) := by
  have hother : ∀ endpointId, q.target ≠ some endpointId := by
    rw [htarget]
    exact fun _ h => nomatch h
  refine issue hP (fun _ => hP) (fun w _ _ => hready w) fun m w a hbooks hw horderly hok => ?_
  refine hP w _ hw (hbooks.perform horderly (hready w) (by rw [hok]; rfl)) fun endpointId _ => ?_
  exact .perform horderly (hready w) (hother endpointId)

/-- A request that is no statement. -/
theorem outside_bookkeeping {r : Request} (hr : ∀ q, r ≠ .statement q)
    (hP : Stable (bookkeeping o i) P) :
    Triple (Watched.answer i) (bookkeeping o i) P (Program.call r) (OnSuccess fun _ => P) := by
  refine Triple.unchanged hP (Stable.fact True) (fun m w => ?_) (fun w _ _ _ _ => .refl o _ w)
    fun _ _ _ _ _ => trivial
  cases r with
  | statement q => exact absurd rfl (hr q)
  | _ => rfl

theorem now_bookkeeping (hP : Stable (bookkeeping o i) P) :
    Triple (Watched.answer i) (bookkeeping o i) P now (OnSuccess fun _ => P) :=
  outside_bookkeeping (fun _ h => nomatch h) hP

theorem stable_true : Stable (bookkeeping o i) fun _ => True := Stable.fact True

/-! ## Finalization -/

/-- The call has counted a failure of the endpoint. -/
structure Counting (i : Nat) (endpointId : String) (count maxAttempts : Nat) (w : Watched) :
    Prop where
  underway : (w.records endpointId).underway = some ⟨i, false⟩
  count : failures w.shared endpointId = count
  allows : Allows w.shared endpointId maxAttempts

theorem Counting.kept {endpointId : String} {count maxAttempts : Nat} {w w' : Watched}
    (h : Counting i endpointId count maxAttempts w) (hs : Kept o endpointId w w') :
    Counting i endpointId count maxAttempts w' :=
  ⟨hs.underway.trans h.underway, hs.failures.trans h.count, hs.allows _ h.allows⟩

theorem Counting.owner {endpointId : String} {count maxAttempts : Nat} {w : Watched}
    (h : Counting i endpointId count maxAttempts w) : w.owner endpointId = some i := by
  rw [Watched.owner, h.underway]
  rfl

section Finalization

variable {endpointId : String} {count maxAttempts : Nat}

theorem stable_counting :
    Stable (bookkeeping o i) (Counting i endpointId count maxAttempts) :=
  fun _ _ h _ hrely => h.kept (hrely endpointId h.owner)

/-- ... and has disabled it. -/
def Disabling (i : Nat) (endpointId : String) (count maxAttempts : Nat) (w : Watched) : Prop :=
  Counting i endpointId count maxAttempts w ∧ Disabled w.shared endpointId

theorem stable_disabling :
    Stable (bookkeeping o i) (Disabling i endpointId count maxAttempts) := by
  intro w w' h _ hrely
  have hkept := hrely endpointId h.1.owner
  exact ⟨h.1.kept hkept, hkept.disabled h.2⟩

/-- The endpoint is shut, if it has failed too often and the attempt is not the last. -/
def Concluding (o : WebhookDispatcherOptions) (i attempt : Nat) (endpointId : String)
    (count maxAttempts : Nat) (w : Watched) : Prop :=
  Counting i endpointId count maxAttempts w ∧
    (o.disableAfterConsecutiveFailures ≤ count → maxAttempts ≤ attempt ∨ Shut w.shared endpointId)

theorem stable_concluding {attempt : Nat} :
    Stable (bookkeeping o i) (Concluding o i attempt endpointId count maxAttempts) := by
  intro w w' h _ hrely
  have hkept := hrely endpointId h.1.owner
  refine ⟨h.1.kept hkept, fun hlimit => (h.2 hlimit).imp_right fun hshut => ?_⟩
  exact ⟨hkept.disabled hshut.1, hkept.clear (h.1.count ▸ hlimit) hshut.1 hshut.2⟩

theorem find?_incremented {s : Shared} {m : Moment} {endpoint : WebhookEndpoint}
    (h : (perform s m (.incrementFailures endpointId)).1 = .ok endpoint) :
    (perform s m (.incrementFailures endpointId)).2.endpoints.find? endpointId = some endpoint := by
  rw [find?_endpoints_perform]
  cases hold : s.endpoints.find? endpointId with
  | none => simp [perform, hold] at h
  | some old =>
    simp only [perform, hold, Except.ok.injEq] at h
    simp [Statement.revises, Table.key_of_find? hold, h]

theorem increment_bookkeeping (endpointId : String) :
    Triple (Watched.answer i) (bookkeeping o i) (fun _ => True) (db (.incrementFailures endpointId))
      (OnSuccess fun endpoint =>
        Counting i endpointId endpoint.consecutiveFailures endpoint.maxAttempts) := by
  refine issue stable_true (fun _ => stable_counting) (fun _ _ _ => trivial) ?_
  intro m w endpoint _ _ _ hok
  have hfind := find?_incremented hok
  refine ⟨?_, ?_, endpoint, hfind, rfl⟩
  · simp [Watched.noted]
  · rw [failures, hfind]
    rfl

theorem disabled_perform {s : Shared} {m : Moment} {disabledAt : Int} {disabledReason : String}
    (h : Allows s endpointId maxAttempts) :
    Disabled (perform s m (.disableEndpoint endpointId disabledAt disabledReason)).2 endpointId := by
  obtain ⟨endpoint, hendpoint, -⟩ := h
  rw [Disabled, find?_endpoints_perform, hendpoint]
  exact ⟨_, rfl, by simp [Statement.revises, Table.key_of_find? hendpoint]⟩

/-- Nothing that was pending is left. -/
theorem clear_abandoned (s : Shared) (m : Moment) (endpointId : String) :
    Clear (perform s m (.abandonPending endpointId)).2 endpointId := by
  intro row hrow hid hpending
  have hfind : (s.sweep endpointId m.now).deliveries.find? row.toDeliveryId = some row :=
    Table.find?_of_mem hrow
  rw [s.find?_sweep, Option.map_eq_some_iff] at hfind
  obtain ⟨old, hold, rfl⟩ := hfind
  unfold sweep at hid hpending
  split at hpending
  · cases hpending
  · rename_i hnot
    rw [if_neg hnot] at hid
    exact hnot ⟨hid, hpending⟩

theorem disable_bookkeeping (attempt failures : Nat) :
    Triple (Watched.answer i) (bookkeeping o i) (Counting i endpointId count maxAttempts)
      (disable endpointId failures)
      (OnSuccess fun _ => Concluding o i attempt endpointId count maxAttempts) := by
  refine Triple.bind_ends (bookkeeping_frame o i) (now_bookkeeping stable_counting)
    fun disabledAt => ?_
  refine Triple.bind_ends (bookkeeping_frame o i)
    (Q := fun _ => Disabling i endpointId count maxAttempts) ?_ fun _ => ?_
  · refine issue stable_counting (fun _ => stable_disabling) (fun _ _ _ => trivial) ?_
    intro m w _ _ hw horderly _
    refine ⟨hw.kept (.perform horderly trivial fun h => nomatch h), ?_⟩
    exact disabled_perform hw.allows
  · refine issue stable_disabling (fun _ => stable_concluding) (fun _ _ _ => trivial) ?_
    intro m w _ _ hw horderly _
    refine ⟨hw.1.kept (.perform horderly trivial fun h => nomatch h), fun _ => .inr ⟨?_, ?_⟩⟩
    · exact hw.2.perform
    · exact clear_abandoned w.shared m endpointId

theorem retryAt_bookkeeping (hP : Stable (bookkeeping o i) P) (attempt : Nat) :
    Triple (Watched.answer i) (bookkeeping o i) P (retryAt attempt) (OnSuccess fun _ => P) := by
  refine Triple.bind_ends (bookkeeping_frame o i) (now_bookkeeping hP) fun at_ => ?_
  refine Triple.bind_ends (bookkeeping_frame o i) (Q := fun _ => P)
    (outside_bookkeeping (fun _ h => nomatch h) hP) fun draw => ?_
  refine Triple.bind_ends (bookkeeping_frame o i) (Q := fun _ => P) ?_ fun delay =>
    Triple.pure_ends hP fun _ _ hw => hw
  refine Triple.done hP fun w _ hw => ?_
  cases computeRetryDelayMs attempt {} draw with
  | ok delay => exact hw
  | error e => trivial

/-- A failure is counted, and ends the attempt. -/
theorem finalizeFailure_bookkeeping (id : DeliveryId) (info : FailureInfo) :
    Triple (Watched.answer i) (bookkeeping o i) (fun _ => True)
      (finalizeFailure o id id.attempt id.endpointId info) (OnSuccess fun _ _ => True) := by
  have hframe := bookkeeping_frame o i
  refine Triple.bind_ends hframe (increment_bookkeeping id.endpointId) fun endpoint => ?_
  dsimp only
  have hstable : Stable (bookkeeping o i) (Concluding o i id.attempt id.endpointId
      endpoint.consecutiveFailures endpoint.maxAttempts) := stable_concluding
  refine Triple.bind_ends hframe (Q := fun _ => Concluding o i id.attempt id.endpointId
    endpoint.consecutiveFailures endpoint.maxAttempts) ?_ fun abandoned => ?_
  · refine Triple.ite (fun _ => disable_bookkeeping id.attempt _) fun hnot => ?_
    refine Triple.pure_ends stable_counting fun w _ hw => ⟨hw, fun hlimit => .inl ?_⟩
    by_contra hlast
    exact hnot (by simp [hlimit, Nat.not_le.1 hlast])
  refine Triple.bind_ends hframe (now_bookkeeping hstable) fun sentAt => ?_
  refine Triple.bind_ends hframe (Q := fun _ => Concluding o i id.attempt id.endpointId
    endpoint.consecutiveFailures endpoint.maxAttempts) ?_ fun nextRetryAt => ?_
  · refine Triple.ite (fun _ => ?_) fun _ => Triple.pure_ends hstable fun _ _ hw => hw
    exact (retryAt_bookkeeping hstable _).bind_ends hframe fun at_ =>
      Triple.pure_ends hstable fun _ _ hw => hw
  refine Triple.bind_ends hframe (Q := fun _ _ => True) ?_ fun _ =>
    Triple.pure_ends stable_true fun _ _ _ => trivial
  refine issue hstable (fun _ => stable_true) (fun w _ hw => ⟨?_, ?_⟩) fun _ _ _ _ _ _ _ => trivial
  · split_ifs <;> simp
  · intro status hstatus hfailed
    exact ⟨hw.1.underway, endpoint.maxAttempts, hw.1.allows, fun hlimit => hw.2 (hw.1.count ▸ hlimit)⟩

theorem finalizeSuccess_bookkeeping (id : DeliveryId) (httpStatus : Nat) (responseTimeMs : Int)
    (responseBody : String) :
    Triple (Watched.answer i) (bookkeeping o i) (fun _ => True)
      (finalizeSuccess id id.endpointId httpStatus responseTimeMs responseBody)
      (OnSuccess fun _ _ => True) := by
  have hframe := bookkeeping_frame o i
  have hdelivered : Stable (bookkeeping o i) fun w =>
      (w.records id.endpointId).underway = some ⟨i, true⟩ := by
    intro w w' h _ hrely
    refine (hrely id.endpointId ?_).underway.trans h
    rw [Watched.owner, h]
    rfl
  refine Triple.bind_ends hframe (now_bookkeeping stable_true) fun sentAt => ?_
  refine Triple.bind_ends hframe (Q := fun _ w =>
    (w.records id.endpointId).underway = some ⟨i, true⟩) ?_ fun _ => ?_
  · refine issue stable_true (fun _ => hdelivered) (fun w _ _ => ⟨by simp, ?_⟩) ?_
    · rintro _ ⟨⟩ hfailed
      exact absurd rfl hfailed
    · intro m w _ _ _ horderly hok
      have hnoted := noted_finalized (i := i) horderly rfl (by rw [hok]; rfl)
      show (w.noted i _ _ id.endpointId).underway = _
      rw [hnoted]
      rfl
  · exact issue hdelivered (fun _ => stable_true) (fun _ _ hw => hw) fun _ _ _ _ _ _ _ => trivial

end Finalization

/-! ## The phases -/

theorem send_bookkeeping (delivery : WebhookDelivery) {endpoint : WebhookEndpoint}
    (hendpoint : endpoint.id = delivery.endpointId) (event : WebhookEvent) :
    Triple (Watched.answer i) (bookkeeping o i) (fun _ => True) (send o delivery endpoint event)
      (OnSuccess fun _ _ => True) := by
  have hframe := bookkeeping_frame o i
  have hlast := finalizeFailure_bookkeeping (o := o) (i := i) delivery.toDeliveryId
  have hsuccess := finalizeSuccess_bookkeeping (o := o) (i := i) delivery.toDeliveryId
  rw [← hendpoint] at hlast hsuccess
  refine Triple.bind_ends hframe (Q := fun _ _ => True) ?_ fun secret => ?_
  · refine Triple.done stable_true fun _ _ _ => ?_
    cases (o.decryptSecret endpoint.secretEncrypted).mapError DispatchError.secret <;> trivial
  refine Triple.bind_ends hframe (now_bookkeeping stable_true) fun at_ => ?_
  refine Triple.bind_ends hframe (aside stable_true rfl fun _ => ⟨by simp, fun _ h => nomatch h⟩)
    fun _ => ?_
  refine Triple.bind_ends hframe (now_bookkeeping stable_true) fun startedAt => ?_
  refine Triple.bind_ends hframe (Q := fun _ _ => True) ?_ fun sent => ?_
  · refine Triple.tryCatch_ends hframe.toLawful (E := fun _ => True) ?_ (fun _ => stable_true)
      fun e => Triple.pure_ends stable_true fun _ _ _ => trivial
    refine Triple.bind_ends hframe (outside_bookkeeping (fun _ h => nomatch h) stable_true)
      fun response => ?_
    refine Triple.bind_ends hframe (now_bookkeeping stable_true) fun at_ => ?_
    refine Triple.ite (fun _ => ?_) fun _ => Triple.pure_ends stable_true fun _ _ _ => trivial
    exact Triple.bind_ends hframe (hsuccess _ _ _) fun _ =>
      Triple.pure_ends stable_true fun _ _ _ => trivial
  · cases sent with
    | delivered => exact Triple.pure_ends stable_true fun _ _ _ => trivial
    | refused response responseTimeMs => exact hlast _
    | threw message =>
      exact Triple.bind_ends hframe (now_bookkeeping stable_true) fun at_ => hlast _

theorem blocked_bookkeeping (url : String) :
    Triple (Watched.answer i) (bookkeeping o i) (fun _ => True) (blocked o url)
      (OnSuccess fun _ _ => True) := by
  have hframe := bookkeeping_frame o i
  refine Triple.ite (fun _ => ?_) fun _ => Triple.pure_ends stable_true fun _ _ _ => trivial
  refine Triple.tryCatch_ends hframe.toLawful (E := fun _ => True) ?_ (fun _ => stable_true)
    fun e => Triple.pure_ends stable_true fun _ _ _ => trivial
  exact Triple.bind_ends hframe (outside_bookkeeping (fun _ h => nomatch h) stable_true) fun _ =>
    Triple.pure_ends stable_true fun _ _ _ => trivial

theorem attemptDelivery_bookkeeping (id : DeliveryId) :
    Triple (Watched.answer i) (bookkeeping o i) (fun _ => True) (attemptDelivery o id)
      (OnSuccess fun _ _ => True) := by
  have hframe := bookkeeping_frame o i
  have hdone : ∀ result : Swept (Option Outcome), Triple (Watched.answer i) (bookkeeping o i)
      (fun _ => True) (pure result) (OnSuccess fun _ _ => True) :=
    fun _ => Triple.pure_ends stable_true fun _ _ _ => trivial
  have habandon : ∀ (id : DeliveryId) (data : DeliveryUpdate) (result : Swept (Option Outcome)),
      data.status = some .abandoned → data.sentAt = none →
        Triple (Watched.answer i) (bookkeeping o i) (fun _ => True)
          (do db (.updateDelivery id data); pure result) (OnSuccess fun _ _ => True) := by
    intro id data result hstatus hsent
    have hnone : data.finalizes = none := by simp [DeliveryUpdate.finalizes, hsent]
    refine Triple.bind_ends hframe (aside stable_true ?_ fun w => ⟨?_, ?_⟩) fun _ => hdone result
    · simp [Statement.target, hnone]
    · simp [hstatus]
    · simp [hnone]
  refine Triple.bind_ends hframe (aside stable_true rfl fun _ => trivial) fun delivery? => ?_
  cases delivery?.filter (·.status = .pending) with
  | none => exact hdone _
  | some delivery =>
  refine Triple.bind_ends hframe (Q := fun endpoint? _ =>
    True ∧ ∀ endpoint ∈ endpoint?, endpoint.id = delivery.endpointId) ?_ fun endpoint? => ?_
  · refine issue (q := .findEndpoint delivery.endpointId) stable_true (fun _ => Stable.fact _)
      (fun _ _ _ => trivial) ?_
    rintro m w _ _ _ _ ⟨⟩
    exact ⟨trivial, fun endpoint hendpoint => Table.key_of_find? hendpoint⟩
  refine Triple.knowing fun hid => ?_
  cases henabled : endpoint?.filter (·.enabled) with
  | none => exact habandon _ _ _ rfl rfl
  | some endpoint =>
  have hendpoint := hid endpoint (Option.filter_eq_some_iff.1 henabled).1
  refine Triple.bind_ends hframe (aside stable_true rfl fun _ => trivial) fun event? => ?_
  cases event? with
  | none => exact habandon _ _ _ rfl rfl
  | some event =>
  refine Triple.bind_ends hframe (aside stable_true rfl fun _ => trivial) fun claimed => ?_
  refine Triple.ite (fun _ => hdone _) fun _ => ?_
  refine Triple.bind_ends hframe (blocked_bookkeeping endpoint.url) fun complaint => ?_
  refine Triple.bind_ends hframe (Q := fun _ _ => True) ?_ fun ended => hdone _
  cases complaint with
  | some message =>
    rw [hendpoint]
    exact finalizeFailure_bookkeeping delivery.toDeliveryId _
  | none => exact send_bookkeeping delivery hendpoint event

/-- **Every statement of a poll cycle is ready when it is issued.** -/
theorem runOnce_bookkeeping :
    Triple (Watched.answer i) (bookkeeping o i) (fun _ => True) (runOnce o)
      (OnSuccess fun _ _ => True) := by
  have hframe := bookkeeping_frame o i
  have hquiet : ∀ q : Statement, q.target = none → (∀ w, Ready o i w q) →
      Triple (Watched.answer i) (bookkeeping o i) (fun _ => True) (db q)
        (OnSuccess fun _ _ => True) := fun _ => aside stable_true
  have hnow := now_bookkeeping (o := o) (i := i) stable_true
  refine Triple.bind_ends hframe (Q := fun _ _ => True) ?_ fun recovered => ?_
  · refine Triple.bind_ends hframe hnow fun at_ => ?_
    refine Triple.bind_ends hframe (hquiet _ rfl fun _ => trivial) fun stale => ?_
    refine Triple.bind_ends hframe (Q := fun _ _ => True) ?_ fun _ =>
      Triple.pure_ends stable_true fun _ _ _ => trivial
    refine Triple.foldlM_ends hframe (I := fun _ _ _ => True) (fun _ => stable_true)
      (fun delivery _ swept => ?_) stale 0
    exact Triple.bind_ends hframe (finalizeFailure_bookkeeping delivery.toDeliveryId _) fun _ =>
      Triple.pure_ends stable_true fun _ _ _ => trivial
  refine Triple.bind_ends hframe (Q := fun _ _ => True) ?_ fun enqueued => ?_
  · refine Triple.bind_ends hframe (hquiet _ rfl fun _ => trivial) fun unfannedEvents => ?_
    refine Triple.foldlM_ends hframe (I := fun _ _ _ => True) (fun _ => stable_true)
      (fun event _ created => ?_) unfannedEvents 0
    refine Triple.bind_ends hframe (hquiet _ rfl fun _ => trivial) fun endpoints => ?_
    refine Triple.foldlM_ends hframe (I := fun _ _ _ => True) (fun _ => stable_true)
      (fun endpoint _ created => ?_) endpoints created
    refine Triple.ite (fun _ => ?_) fun _ => Triple.pure_ends stable_true fun _ _ _ => trivial
    refine Triple.bind_ends hframe (Q := fun _ _ => True) ?_ fun _ =>
      Triple.pure_ends stable_true fun _ _ _ => trivial
    exact Triple.bind_ends hframe hnow fun at_ => hquiet _ rfl fun _ => trivial
  refine Triple.bind_ends hframe (Q := fun _ _ => True) ?_ fun retriesPromoted => ?_
  · refine Triple.bind_ends hframe hnow fun at_ => ?_
    refine Triple.bind_ends hframe (hquiet _ rfl fun _ => trivial) fun due => ?_
    refine Triple.foldlM_ends hframe (I := fun _ _ _ => True) (fun _ => stable_true)
      (fun previous _ promoted => ?_) due 0
    refine Triple.bind_ends hframe (hquiet _ rfl fun _ => trivial) fun endpoint? => ?_
    refine Triple.bind_ends hframe hnow fun at_ => ?_
    split
    · exact Triple.bind_ends hframe (hquiet _ rfl fun _ => ⟨by simp, fun _ h => nomatch h⟩) fun _ =>
        Triple.pure_ends stable_true fun _ _ _ => trivial
    · exact Triple.bind_ends hframe (hquiet _ rfl fun _ => trivial) fun _ =>
        Triple.pure_ends stable_true fun _ _ _ => trivial
  refine Triple.bind_ends hframe hnow fun at_ => ?_
  refine Triple.bind_ends hframe (hquiet _ rfl fun _ => trivial) fun due => ?_
  exact Triple.foldlM_ends hframe (I := fun _ _ _ => True) (fun _ => stable_true)
    (fun delivery _ summary => Triple.map_ends hframe
      (attemptDelivery_bookkeeping delivery.toDeliveryId) fun _ => stable_true) due _

end Calls

/-! ## Runs -/

theorem orderly_compatible (o : WebhookDispatcherOptions) :
    Compatible (watched o) (orderly o) Watched.empty (Books o) (Relies o)
      (fun i _ _ => Grants o i) (fun _ _ _ => True) (fun _ _ => OnSuccess fun _ _ => True) where
  lawful i _ := (bookkeeping_frame o i).toLawful
  code _ _ := runOnce_bookkeeping
  live _ _ _ _ := trivial
  others _ i _ _ _ _ _ hij _ _ _ _ hgrants := fun endpointId howner =>
    hgrants endpointId i hij howner
  environment _ _ hbooks hevent :=
    ⟨hbooks.change hevent, fun _ _ howner => .change hevent howner⟩
  start _ _ _ hgood _ := ⟨hgood.invariant, trivial, fun i _ _ => .refl i _⟩

/-- **Failures are counted** in every orderly run: each failed attempt leaves the counter at the
number of failures since the last success or enabling, and an endpoint with too many of them
disabled with nothing pending. -/
theorem failures_counted {o : WebhookDispatcherOptions}
    {s : Concurrent.State Request Answer DispatchError WebhookDispatchSummary Unit Watched}
    (h : (watched o).Reachable (orderly o) Watched.empty s) {endpointId : String}
    {later earlier : List Entry} {after : Shared}
    (hfailed : (s.shared.records endpointId).history = later ++ .failed after :: earlier) :
    Counted o endpointId (.failed after :: earlier) after :=
  (Good.of_reachable (orderly_compatible o) (Books.empty o) h).invariant.history endpointId later
    after earlier hfailed

/-! ## The last attempt of a budget -/

namespace Shop

/-- One failure is too many. -/
def strict : WebhookDispatcherOptions := { options with disableAfterConsecutiveFailures := 1 }

/-- Two events wait for one endpoint, and the first attempt fails. -/
def failingOnce (endpoint : WebhookEndpoint) : List (Move Unit Moment Change) :=
  [.environment (.create endpoint), .environment (.emit event),
    .environment (.emit { event with id := "evt_2" }), .start ()] ++ steps 0 30 (moment 0 500)

/-- What the only attempt that failed has left. -/
def onlyFailure : List Entry → Option Shared
  | [.failed after] => some after
  | _ => none

theorem onlyFailure_eq_some {history : List Entry} {after : Shared}
    (h : onlyFailure history = some after) : history = [.failed after] := by
  unfold onlyFailure at h
  split at h
  · rw [Option.some.inj h]
  · cases h

theorem failures_counted_once :
    let s := (watched strict).after (failingOnce endpoint) Watched.empty
    ∃ after, (s.shared.records "we_1").history = [.failed after] ∧ failures after "we_1" = 1 ∧
      Shut after "we_1" := by
  intro s
  have hrun : (watched strict).Reachable (orderly strict) Watched.empty s :=
    System.reachable_after (by decide +kernel)
  have hsome : (onlyFailure (s.shared.records "we_1").history).isSome := by decide +kernel
  obtain ⟨after, hafter⟩ := Option.isSome_iff_exists.1 hsome
  have hhistory := onlyFailure_eq_some hafter
  have hsplit : (s.shared.records "we_1").history = [] ++ .failed after :: [] := hhistory
  have hcounted := failures_counted hrun hsplit
  have hone : failures after "we_1" = 1 := hcounted.count
  exact ⟨after, hhistory, hone, hcounted.shut (by rw [hone]; decide)⟩

/-- It is given one attempt. -/
def lastChance : WebhookEndpoint := { endpoint with maxAttempts := 1, positive := by decide }

/-- The attempt was the last of its budget, so the endpoint stays enabled, and the other delivery
pending. -/
theorem exhausted_not_disabled : ∃ s after,
    (watched strict).Reachable .interleaved Watched.empty s ∧
      (s.shared.records "we_1").history = [.failed after] ∧ failures after "we_1" = 1 ∧
      ¬Disabled after "we_1" ∧ ¬Clear after "we_1" ∧
      ¬Counted strict "we_1" [.failed after] after := by
  set s := (watched strict).after (failingOnce lastChance) Watched.empty
  have hleft : (onlyFailure (s.shared.records "we_1").history).any fun after =>
      failures after "we_1" = 1 ∧ ¬Disabled after "we_1" ∧ ¬Clear after "we_1" := by decide +kernel
  obtain ⟨after, hafter, hfacts⟩ := (Option.any_eq_true _ _).1 hleft
  obtain ⟨hone, henabled, hpending⟩ := of_decide_eq_true hfacts
  have hhistory := onlyFailure_eq_some hafter
  refine ⟨s, after, System.reachable_after (by decide +kernel), hhistory, hone, henabled, hpending,
    fun h => henabled (h.shut ?_).1⟩
  rw [hone]
  decide

end Shop

end Webhooks

end PaymentGateway
