import Mathlib.Data.List.Sort
import Mathlib.Data.Rat.Floor
import PaymentGateway.Lib.Concurrent
import PaymentGateway.Lib.Table
import PaymentGateway.Lib.Utf16

/-!
# The webhook dispatcher

`runOnce`, cut at its awaits: recover the rows of a crashed worker, fan new events out, promote due
retries, and send what is due. Every attempt is a row of its own, known by its event, its endpoint
and its number, and bracketed by two writes with the HTTP call between them.

The statements are performed one at a time on the shared tables. A query that asks for no order, or
for one that leaves ties, is answered in an order the moment chooses.
-/

namespace PaymentGateway

namespace Webhooks

open Program Keyed

/-! ## Rows -/

inductive WebhookDeliveryStatus
  | pending
  | inFlight
  | delivered
  | failed
  | exhausted
  | abandoned
  deriving DecidableEq, Repr

structure WebhookEvent where
  id : String
  merchantId : String
  type : String
  /-- The JSON body that is signed and sent. -/
  payload : String
  createdAt : Int
  deriving DecidableEq, Repr

/-- At least one attempt is made; the column defaults to eight. -/
structure WebhookEndpoint where
  id : String
  merchantId : String
  url : String
  eventTypes : List String
  secretEncrypted : String
  enabled : Bool
  maxAttempts : Nat
  timeoutMs : Nat
  consecutiveFailures : Nat
  disabledAt : Option Int
  disabledReason : Option String
  positive : 0 < maxAttempts

/-- The unique key of a delivery, which stands for its id. -/
structure DeliveryId where
  webhookEventId : String
  endpointId : String
  attempt : Nat
  deriving DecidableEq, Repr

structure WebhookDelivery extends DeliveryId where
  url : String
  status : WebhookDeliveryStatus
  httpStatus : Option Nat
  responseTimeMs : Option Int
  responseBody : Option String
  errorMessage : Option String
  signatureTimestamp : Int
  scheduledAt : Int
  sentAt : Option Int
  nextRetryAt : Option Int
  createdAt : Int
  updatedAt : Int
  deriving DecidableEq, Repr

/-- The columns of an update, where they are given. -/
structure DeliveryUpdate where
  status : Option WebhookDeliveryStatus := none
  httpStatus : Option (Option Nat) := none
  responseTimeMs : Option (Option Int) := none
  responseBody : Option (Option String) := none
  errorMessage : Option (Option String) := none
  signatureTimestamp : Option Int := none
  sentAt : Option (Option Int) := none
  nextRetryAt : Option (Option Int) := none
  deriving DecidableEq, Repr

def DeliveryUpdate.apply (data : DeliveryUpdate) (now : Int) (row : WebhookDelivery) :
    WebhookDelivery :=
  { row with
    status := data.status.getD row.status
    httpStatus := data.httpStatus.getD row.httpStatus
    responseTimeMs := data.responseTimeMs.getD row.responseTimeMs
    responseBody := data.responseBody.getD row.responseBody
    errorMessage := data.errorMessage.getD row.errorMessage
    signatureTimestamp := data.signatureTimestamp.getD row.signatureTimestamp
    sentAt := data.sentAt.getD row.sentAt
    nextRetryAt := data.nextRetryAt.getD row.nextRetryAt
    updatedAt := now }

theorem DeliveryUpdate.apply_id (data : DeliveryUpdate) (now : Int) (row : WebhookDelivery) :
    (data.apply now row).toDeliveryId = row.toDeliveryId := rfl

/-! ## The retry policy -/

inductive DispatchError
  | range (message : String)
  | webhookUrl (message : String)
  | secret (message : String)
  | fetch (message : String)
  | recordNotFound
  /-- What a statement failed with. -/
  | unavailable (message : String)
  deriving DecidableEq, Repr

def DispatchError.message : DispatchError → String
  | .range message => message
  | .webhookUrl message => message
  | .secret message => message
  | .fetch message => message
  | .recordNotFound => "record to update not found"
  | .unavailable message => message

/-- How long a retry waits. -/
structure RetryPolicyOptions where
  baseDelayMs : ℚ := 30000
  maxDelayMs : ℚ := 60 * 60 * 1000
  jitterRatio : ℚ := 1 / 5

/-- The closest integer, the greater one of two. -/
def mathRound (x : ℚ) : Int := ⌊x + 1 / 2⌋

/-- The draw `random` is at least zero and less than one. -/
def computeRetryDelayMs (failedAttempt : Nat) (options : RetryPolicyOptions) (random : ℚ) :
    Except DispatchError Int :=
  if failedAttempt < 1 then
    .error (.range s!"failedAttempt must be a positive integer, got {failedAttempt}")
  else
    let exponential := min options.maxDelayMs (options.baseDelayMs * 2 ^ (failedAttempt - 1))
    let jitter := exponential * options.jitterRatio * (random * 2 - 1)
    .ok (max 0 (mathRound (min options.maxDelayMs (exponential + jitter))))

/-- The cap is never exceeded: jitter is applied before it. -/
theorem computeRetryDelayMs_bounds {failedAttempt : Nat} {options : RetryPolicyOptions} {random : ℚ}
    {delay : Int} (h : computeRetryDelayMs failedAttempt options random = .ok delay) :
    0 ≤ delay ∧ delay ≤ max 0 (mathRound options.maxDelayMs) := by
  simp only [computeRetryDelayMs] at h
  split at h
  · cases h
  · cases h
    refine ⟨le_max_left _ _, max_le_max (le_refl 0) (Int.floor_le_floor ?_)⟩
    gcongr
    exact min_le_left _ _

/-- `response.ok`. -/
def isSuccessStatus (httpStatus : Nat) : Prop := 200 ≤ httpStatus ∧ httpStatus < 300

instance (httpStatus : Nat) : Decidable (isSuccessStatus httpStatus) :=
  inferInstanceAs (Decidable (_ ∧ _))

/-! ## The awaits -/

/-- What is posted to an endpoint. -/
structure WebhookRequest where
  url : String
  signature : String
  timestamp : Int
  eventId : String
  deliveryId : DeliveryId
  eventType : String
  body : String
  timeoutMs : Nat

/-- The body is empty where it could not be read. -/
structure WebhookResponse where
  status : Nat
  text : String

/-- The statements of the dispatcher. -/
inductive Statement
  | findStale (cutoff : Int) (take : Nat)
  | findUnfannedEvents (take : Nat)
  | findEnabledEndpoints (merchantId : String)
  | upsertDelivery (id : DeliveryId) (url : String) (now : Int)
  | findDueRetries (now : Int) (take : Nat)
  | findDue (now : Int) (take : Nat)
  | findDelivery (id : DeliveryId)
  | findEndpoint (id : String)
  | findEvent (id : String)
  | updateDelivery (id : DeliveryId) (data : DeliveryUpdate)
  | claimDelivery (id : DeliveryId)
  | abandonPending (endpointId : String)
  | resetFailures (endpointId : String)
  | incrementFailures (endpointId : String)
  | disableEndpoint (endpointId : String) (disabledAt : Int) (disabledReason : String)
  deriving DecidableEq, Repr

abbrev Statement.Answer : Statement → Type
  | .findStale .. => List WebhookDelivery
  | .findUnfannedEvents _ => List WebhookEvent
  | .findEnabledEndpoints _ => List WebhookEndpoint
  | .upsertDelivery .. => Unit
  | .findDueRetries .. => List WebhookDelivery
  | .findDue .. => List WebhookDelivery
  | .findDelivery _ => Option WebhookDelivery
  | .findEndpoint _ => Option WebhookEndpoint
  | .findEvent _ => Option WebhookEvent
  | .updateDelivery .. => Unit
  | .claimDelivery _ => Nat
  | .abandonPending _ => Nat
  | .resetFailures _ => Unit
  | .incrementFailures _ => WebhookEndpoint
  | .disableEndpoint .. => Unit

/-- The clock and the dice are read between two awaits; a process may be cut there all the same. -/
inductive Request
  | now
  | random
  | assertPublicWebhookUrl (url : String)
  | fetch (request : WebhookRequest)
  | statement (q : Statement)

abbrev Answer : Request → Type
  | .now => Int
  | .random => ℚ
  | .assertPublicWebhookUrl _ => Unit
  | .fetch _ => WebhookResponse
  | .statement q => q.Answer

/-- A method of the dispatcher. -/
abbrev Process := Program Request Answer DispatchError

def now : Process Int := Program.call Request.now

def random : Process ℚ := Program.call Request.random

def assertPublicWebhookUrl (url : String) : Process Unit :=
  Program.call (Request.assertPublicWebhookUrl url)

def fetchImpl (request : WebhookRequest) : Process WebhookResponse :=
  Program.call (Request.fetch request)

def db (q : Statement) : Process q.Answer := Program.call (Request.statement q)

/-- A call that does not await. -/
def returned {α : Type} : Except DispatchError α → Process α := .done

/-! ## The dispatcher -/

/-- The key provider is in `decryptSecret`. -/
structure WebhookDispatcherOptions where
  decryptSecret : String → Except String String
  signWebhook : String → String → Int → String
  disableAfterConsecutiveFailures : Nat := 50
  staleInFlightMs : Int := 5 * 60 * 1000
  batchSize : Nat := 100
  blockPrivateNetworks : Bool := true

/-- `MAX_RESPONSE_BODY_CHARS`. -/
def maxResponseBodyChars : Nat := 2000

inductive Outcome
  | delivered
  | failed
  | exhausted
  | abandoned
  deriving DecidableEq, Repr

/-- A result, with how many rows were abandoned in bulk on the way. -/
structure Swept (α : Type) where
  result : α
  bulkAbandoned : Nat

structure FailureInfo where
  httpStatus : Option Nat
  errorMessage : String
  responseTimeMs : Option Int
  responseBody : Option String := none

/-- The row is written by its id, whatever it holds. -/
def finalizeSuccess (deliveryId : DeliveryId) (endpointId : String) (httpStatus : Nat)
    (responseTimeMs : Int) (responseBody : String) : Process Unit := do
  let sentAt ← now
  db (.updateDelivery deliveryId {
    status := some .delivered
    httpStatus := some (some httpStatus)
    responseTimeMs := some (some responseTimeMs)
    responseBody := some (some responseBody)
    sentAt := some (some sentAt)
    nextRetryAt := some none })
  db (.resetFailures endpointId)

/-- Disable the endpoint, and sweep its other queued rows. -/
def disable (endpointId : String) (consecutiveFailures : Nat) : Process Nat := do
  let disabledAt ← now
  db (.disableEndpoint endpointId disabledAt s!"{consecutiveFailures} consecutive delivery failures")
  db (.abandonPending endpointId)

def retryAt (attempt : Nat) : Process Int := do
  let at_ ← now
  let draw ← random
  let delay ← returned (computeRetryDelayMs attempt {} draw)
  pure (at_ + delay)

/-- The last attempt of a budget is exhausted, and disables nothing. -/
def finalizeFailure (o : WebhookDispatcherOptions) (deliveryId : DeliveryId) (attempt : Nat)
    (endpointId : String) (info : FailureInfo) : Process (Swept Outcome) := do
  let endpoint ← db (.incrementFailures endpointId)
  let attemptsExhausted : Bool := endpoint.maxAttempts ≤ attempt
  let shouldDisable : Bool := !attemptsExhausted &&
    o.disableAfterConsecutiveFailures ≤ endpoint.consecutiveFailures
  let abandoned ←
    (if shouldDisable then disable endpointId endpoint.consecutiveFailures else pure 0)
  let status : WebhookDeliveryStatus :=
    if attemptsExhausted then .exhausted else if shouldDisable then .abandoned else .failed
  let sentAt ← now
  let nextRetryAt ← (if status = .failed then some <$> retryAt attempt else pure none)
  db (.updateDelivery deliveryId {
    status := some status
    httpStatus := some info.httpStatus
    errorMessage := some (some info.errorMessage)
    responseTimeMs := some info.responseTimeMs
    responseBody := some info.responseBody
    sentAt := some (some sentAt)
    nextRetryAt := some nextRetryAt })
  pure ⟨if status = .failed then .failed
    else if status = .exhausted then .exhausted else .abandoned, abandoned⟩

/-- Rows that a crashed dispatcher has left in flight. -/
def recoverStaleInFlight (o : WebhookDispatcherOptions) : Process (Swept Nat) := do
  let at_ ← now
  let stale ← db (.findStale (at_ - o.staleInFlightMs) o.batchSize)
  let swept ← stale.foldlM (fun swept delivery => do
    let finalized ← finalizeFailure o delivery.toDeliveryId delivery.attempt delivery.endpointId
      ⟨none, "recovered: worker crashed mid-delivery", none, none⟩
    pure (swept + finalized.bulkAbandoned)) 0
  pure ⟨stale.length, swept⟩

/-- A PENDING row for an attempt, unless it is there. -/
def enqueue (id : DeliveryId) (url : String) : Process Unit := do
  let at_ ← now
  db (.upsertDelivery id url at_)

/-- An endpoint gets the events of its merchant that it has subscribed to. -/
def subscribed (event : WebhookEvent) (endpoint : WebhookEndpoint) : Prop :=
  0 < endpoint.eventTypes.length → event.type ∈ endpoint.eventTypes

instance (event : WebhookEvent) (endpoint : WebhookEndpoint) :
    Decidable (subscribed event endpoint) :=
  inferInstanceAs (Decidable (_ → _))

/-- Fan one event out. -/
def fanOut (event : WebhookEvent) (created : Nat) : Process Nat := do
  let endpoints ← db (.findEnabledEndpoints event.merchantId)
  endpoints.foldlM (fun created endpoint =>
    if subscribed event endpoint then do
      enqueue ⟨event.id, endpoint.id, 1⟩ endpoint.url
      pure (created + 1)
    else pure created) created

/-- The first attempt at every event of the batch. -/
def enqueueNewDeliveries (o : WebhookDispatcherOptions) : Process Nat := do
  let unfannedEvents ← db (.findUnfannedEvents o.batchSize)
  unfannedEvents.foldlM (fun created event => fanOut event created) 0

/-- The attempt that follows. -/
def DeliveryId.next (id : DeliveryId) : DeliveryId := { id with attempt := id.attempt + 1 }

/-- Promote one due retry. -/
def promote (promoted : Nat) (previous : WebhookDelivery) : Process Nat := do
  let endpoint? ← db (.findEndpoint previous.endpointId)
  let at_ ← now
  match endpoint?.filter (·.enabled) with
  | none =>
    db (.updateDelivery previous.toDeliveryId { status := some .abandoned, nextRetryAt := some none })
    pure promoted
  | some endpoint =>
    db (.upsertDelivery previous.toDeliveryId.next endpoint.url at_)
    pure (promoted + 1)

/-- The next attempt at every failed row of the batch. -/
def promoteDueRetries (o : WebhookDispatcherOptions) : Process Nat := do
  let at_ ← now
  let due ← db (.findDueRetries at_ o.batchSize)
  due.foldlM promote 0

/-- How sending ended. -/
inductive Sent
  | delivered
  | refused (response : WebhookResponse) (responseTimeMs : Int)
  | threw (message : String)

def guardMessage : DispatchError → String
  | .webhookUrl message => message
  | _ => "blocked webhook URL"

/-- The guard's complaint about a URL, if it has one. -/
def blocked (o : WebhookDispatcherOptions) (url : String) : Process (Option String) :=
  if o.blockPrivateNetworks then do
    try
      assertPublicWebhookUrl url
      pure none
    catch error =>
      pure (some (guardMessage error))
  else pure none

/-- Sign and send a claimed delivery. Only the call and a success that is recorded are inside the
`try`; `return this.finalizeFailure(..)` hands its promise out of it. -/
def send (o : WebhookDispatcherOptions) (delivery : WebhookDelivery) (endpoint : WebhookEndpoint)
    (event : WebhookEvent) : Process (Swept Outcome) := do
  let secret ← returned ((o.decryptSecret endpoint.secretEncrypted).mapError DispatchError.secret)
  let timestampSeconds := (← now) / 1000
  let signature := o.signWebhook secret event.payload timestampSeconds
  db (.updateDelivery delivery.toDeliveryId { signatureTimestamp := some (timestampSeconds * 1000) })
  let startedAt ← now
  let sent ←
    try
      let response ← fetchImpl ⟨endpoint.url, signature, timestampSeconds, event.id,
        delivery.toDeliveryId, event.type, event.payload, endpoint.timeoutMs⟩
      let responseTimeMs := (← now) - startedAt
      let responseBody := String.ofList (Utf16.take maxResponseBodyChars response.text.toList)
      if isSuccessStatus response.status then
        finalizeSuccess delivery.toDeliveryId endpoint.id response.status responseTimeMs responseBody
        pure Sent.delivered
      else pure (Sent.refused { response with text := responseBody } responseTimeMs)
    catch error =>
      pure (Sent.threw error.message)
  match sent with
  | .delivered => pure ⟨.delivered, 0⟩
  | .refused response responseTimeMs =>
    finalizeFailure o delivery.toDeliveryId delivery.attempt endpoint.id ⟨some response.status,
      s!"endpoint responded {response.status}", some responseTimeMs, some response.text⟩
  | .threw message =>
    let responseTimeMs := (← now) - startedAt
    finalizeFailure o delivery.toDeliveryId delivery.attempt endpoint.id
      ⟨none, message, some responseTimeMs, none⟩

/-- Claim the row, check the address, send, and write what came of it. -/
def attemptDelivery (o : WebhookDispatcherOptions) (deliveryId : DeliveryId) :
    Process (Swept (Option Outcome)) := do
  let delivery? ← db (.findDelivery deliveryId)
  match delivery?.filter (·.status = .pending) with
  | none => pure ⟨none, 0⟩
  | some delivery =>
    let endpoint? ← db (.findEndpoint delivery.endpointId)
    match endpoint?.filter (·.enabled) with
    | none =>
      db (.updateDelivery delivery.toDeliveryId { status := some .abandoned })
      pure ⟨some .abandoned, 0⟩
    | some endpoint =>
      match ← db (.findEvent delivery.webhookEventId) with
      | none =>
        db (.updateDelivery delivery.toDeliveryId {
          status := some .abandoned
          errorMessage := some (some "webhook event no longer exists") })
        pure ⟨some .abandoned, 0⟩
      | some event =>
        let claimed ← db (.claimDelivery delivery.toDeliveryId)
        if claimed = 0 then pure ⟨none, 0⟩
        else
          let complaint ← blocked o endpoint.url
          let ended ← (match complaint with
            | some message =>
              finalizeFailure o delivery.toDeliveryId delivery.attempt endpoint.id
                ⟨none, message, none, none⟩
            | none => send o delivery endpoint event)
          pure ⟨some ended.result, ended.bulkAbandoned⟩

structure WebhookDispatchSummary where
  enqueued : Nat
  retriesPromoted : Nat
  recoveredStale : Nat
  delivered : Nat
  failed : Nat
  exhausted : Nat
  abandoned : Nat
  deriving DecidableEq, Repr

def WebhookDispatchSummary.add (summary : WebhookDispatchSummary) (ended : Swept (Option Outcome)) :
    WebhookDispatchSummary :=
  let summary := { summary with abandoned := summary.abandoned + ended.bulkAbandoned }
  match ended.result with
  | none => summary
  | some .delivered => { summary with delivered := summary.delivered + 1 }
  | some .failed => { summary with failed := summary.failed + 1 }
  | some .exhausted => { summary with exhausted := summary.exhausted + 1 }
  | some .abandoned => { summary with abandoned := summary.abandoned + 1 }

/-- One pass. -/
def runOnce (o : WebhookDispatcherOptions) : Process WebhookDispatchSummary := do
  let recovered ← recoverStaleInFlight o
  let enqueued ← enqueueNewDeliveries o
  let retriesPromoted ← promoteDueRetries o
  let at_ ← now
  let due ← db (.findDue at_ o.batchSize)
  due.foldlM (fun summary delivery => summary.add <$> attemptDelivery o delivery.toDeliveryId)
    ⟨enqueued, retriesPromoted, recovered.result, 0, 0, 0, recovered.bulkAbandoned⟩

/-! ## The tables -/

structure Shared where
  events : Table WebhookEvent WebhookEvent.id
  endpoints : Table WebhookEndpoint WebhookEndpoint.id
  deliveries : Table WebhookDelivery WebhookDelivery.toDeliveryId

def Shared.empty : Shared := ⟨.empty, .empty, .empty⟩

/-- An order of rows that the database is free to choose. -/
structure Arrangement (α : Type) where
  order : List α → List α
  perm : ∀ l, (order l).Perm l

theorem Arrangement.mem_order {α : Type} (A : Arrangement α) {l : List α} {x : α} :
    x ∈ A.order l ↔ x ∈ l :=
  (A.perm l).mem_iff

def Arrangement.inserted (α : Type) : Arrangement α := ⟨id, fun l => .refl l⟩

/-- How a statement ends. One that fails late has taken effect all the same. -/
inductive Fate
  | answered
  | failed (message : String)
  | failedLate (message : String)
  deriving DecidableEq, Repr

structure Moment where
  now : Int
  fate : Fate
  random : ℚ
  guard : Except DispatchError Unit
  response : Except String WebhookResponse
  deliveries : Arrangement WebhookDelivery
  events : Arrangement WebhookEvent
  endpoints : Arrangement WebhookEndpoint

def newDelivery (id : DeliveryId) (url : String) (now at_ : Int) : WebhookDelivery :=
  { id with
    url := url
    status := .pending
    httpStatus := none
    responseTimeMs := none
    responseBody := none
    errorMessage := none
    signatureTimestamp := now
    scheduledAt := now
    sentAt := none
    nextRetryAt := none
    createdAt := at_
    updatedAt := at_ }

/-- Due retries, in the order in which they are answered. -/
def dueRetries (now : Int) (m : Moment) (s : Shared) : List WebhookDelivery :=
  (m.deliveries.order (s.deliveries.rows.filter fun row =>
    row.status = .failed ∧ ∃ at_ ∈ row.nextRetryAt, at_ ≤ now)).insertionSort
      fun row row' => row.nextRetryAt.getD 0 ≤ row'.nextRetryAt.getD 0

theorem mem_dueRetries {now : Int} {m : Moment} {s : Shared} {row : WebhookDelivery} :
    row ∈ dueRetries now m s ↔ row ∈ s.deliveries ∧ row.status = .failed ∧
      ∃ at_ ∈ row.nextRetryAt, at_ ≤ now := by
  simp [dueRetries, List.mem_insertionSort, Arrangement.mem_order, Table.mem_def]

def Shared.updateDelivery (s : Shared) (id : DeliveryId) (data : DeliveryUpdate) (at_ : Int) :
    Shared :=
  { s with deliveries := s.deliveries.modify id (data.apply at_) (data.apply_id at_) }

theorem Shared.find?_updateDelivery (s : Shared) (id : DeliveryId) (data : DeliveryUpdate)
    (at_ : Int) (id' : DeliveryId) : (s.updateDelivery id data at_).deliveries.find? id' =
      (s.deliveries.find? id').map fun row => if id' = id then data.apply at_ row else row := by
  simp only [updateDelivery, Table.find?_modify]

theorem newDelivery_id (id : DeliveryId) (url : String) (now at_ : Int) :
    (newDelivery id url now at_).toDeliveryId = id := rfl

def Shared.insertDelivery (s : Shared) (id : DeliveryId) (url : String) (now at_ : Int)
    (h : s.deliveries.find? id = none) : Shared :=
  { s with
    deliveries := s.deliveries.insert (newDelivery id url now at_) (by rw [newDelivery_id, h]) }

theorem Shared.find?_insertDelivery (s : Shared) {id : DeliveryId} (url : String) (now at_ : Int)
    (h : s.deliveries.find? id = none) (id' : DeliveryId) :
    (s.insertDelivery id url now at_ h).deliveries.find? id' =
      if id = id' then some (newDelivery id url now at_) else s.deliveries.find? id' := by
  simp only [insertDelivery, Table.find?_insert]
  rfl

def Shared.updateEndpoint (s : Shared) (id : String) (f : WebhookEndpoint → WebhookEndpoint)
    (hf : ∀ endpoint, (f endpoint).id = endpoint.id) : Shared :=
  { s with endpoints := s.endpoints.modify id f hf }

theorem Shared.find?_updateEndpoint (s : Shared) (id : String)
    {f : WebhookEndpoint → WebhookEndpoint} (hf : ∀ endpoint, (f endpoint).id = endpoint.id)
    (id' : String) : (s.updateEndpoint id f hf).endpoints.find? id' =
      (s.endpoints.find? id').map fun endpoint => if id' = id then f endpoint else endpoint := by
  simp only [updateEndpoint, Table.find?_modify]

/-- The update of every PENDING row of an endpoint. -/
def sweep (endpointId : String) (at_ : Int) (row : WebhookDelivery) : WebhookDelivery :=
  if row.endpointId = endpointId ∧ row.status = .pending then
    { row with status := .abandoned, updatedAt := at_ }
  else row

theorem sweep_id (endpointId : String) (at_ : Int) (row : WebhookDelivery) :
    (sweep endpointId at_ row).toDeliveryId = row.toDeliveryId := by
  unfold sweep
  split <;> rfl

def Shared.sweep (s : Shared) (endpointId : String) (at_ : Int) : Shared :=
  { s with deliveries :=
      s.deliveries.map (Webhooks.sweep endpointId at_) (sweep_id endpointId at_) }

theorem Shared.find?_sweep (s : Shared) (endpointId : String) (at_ : Int) (id : DeliveryId) :
    (s.sweep endpointId at_).deliveries.find? id =
      (s.deliveries.find? id).map (Webhooks.sweep endpointId at_) := by
  simp only [sweep, Table.find?_map]

def fails (endpoint : WebhookEndpoint) : WebhookEndpoint :=
  { endpoint with consecutiveFailures := endpoint.consecutiveFailures + 1 }

theorem fails_id (endpoint : WebhookEndpoint) : (fails endpoint).id = endpoint.id := rfl

def perform (s : Shared) (m : Moment) : (q : Statement) → Except DispatchError q.Answer × Shared
  | .findStale cutoff take =>
    (.ok ((m.deliveries.order (s.deliveries.rows.filter fun row =>
      row.status = .inFlight ∧ row.updatedAt < cutoff)).take take), s)
  | .findUnfannedEvents take =>
    (.ok (((m.events.order (s.events.rows.filter fun event =>
      (∀ row ∈ s.deliveries.rows, row.webhookEventId ≠ event.id) ∧
        ∃ endpoint ∈ s.endpoints.rows, endpoint.merchantId = event.merchantId ∧
          endpoint.enabled)).insertionSort fun event event' =>
            event.createdAt ≤ event'.createdAt).take take), s)
  | .findEnabledEndpoints merchantId =>
    (.ok (m.endpoints.order (s.endpoints.rows.filter fun endpoint =>
      endpoint.merchantId = merchantId ∧ endpoint.enabled)), s)
  | .upsertDelivery id url now =>
    match h : s.deliveries.find? id with
    | some _ => (.ok (), s)
    | none => (.ok (), s.insertDelivery id url now m.now h)
  | .findDueRetries now take => (.ok ((dueRetries now m s).take take), s)
  | .findDue now take =>
    (.ok (((m.deliveries.order (s.deliveries.rows.filter fun row =>
      row.status = .pending ∧ row.scheduledAt ≤ now)).insertionSort fun row row' =>
        row.createdAt ≤ row'.createdAt).take take), s)
  | .findDelivery id => (.ok (s.deliveries.find? id), s)
  | .findEndpoint id => (.ok (s.endpoints.find? id), s)
  | .findEvent id => (.ok (s.events.find? id), s)
  | .updateDelivery id data =>
    match s.deliveries.find? id with
    | some _ => (.ok (), s.updateDelivery id data m.now)
    | none => (.error .recordNotFound, s)
  | .claimDelivery id =>
    if (s.deliveries.find? id).any (·.status = .pending) then
      (.ok 1, s.updateDelivery id { status := some .inFlight } m.now)
    else (.ok 0, s)
  | .abandonPending endpointId =>
    (.ok (s.deliveries.rows.countP fun row => row.endpointId = endpointId ∧ row.status = .pending),
      s.sweep endpointId m.now)
  | .resetFailures endpointId =>
    match s.endpoints.find? endpointId with
    | some _ =>
      (.ok (), s.updateEndpoint endpointId ({ · with consecutiveFailures := 0 }) fun _ => rfl)
    | none => (.error .recordNotFound, s)
  | .incrementFailures endpointId =>
    match s.endpoints.find? endpointId with
    | some endpoint => (.ok (fails endpoint), s.updateEndpoint endpointId fails fails_id)
    | none => (.error .recordNotFound, s)
  | .disableEndpoint endpointId disabledAt disabledReason =>
    match s.endpoints.find? endpointId with
    | some _ =>
      (.ok (), s.updateEndpoint endpointId ({ · with
        enabled := false
        disabledAt := some disabledAt
        disabledReason := some disabledReason }) fun _ => rfl)
    | none => (.error .recordNotFound, s)

def answer (r : Request) (m : Moment) (s : Shared) : Except DispatchError (Answer r) × Shared :=
  match r with
  | .now => (.ok m.now, s)
  | .random => (.ok m.random, s)
  | .assertPublicWebhookUrl _ => (m.guard, s)
  | .fetch _ => (m.response.mapError DispatchError.fetch, s)
  | .statement q =>
    match m.fate with
    | .answered => perform s m q
    | .failed message => (.error (.unavailable message), s)
    | .failedLate message => (.error (.unavailable message), (perform s m q).2)

/-! ## The system -/

/-- What merchants, and the services that emit events, do. -/
inductive Change
  | emit (event : WebhookEvent)
  | create (endpoint : WebhookEndpoint)
  | update (id : String) (enabled : Option Bool) (eventTypes : Option (List String)) (now : Int)
  | rotateSecret (id : String) (secretEncrypted : String)

def updated (enabled : Option Bool) (eventTypes : Option (List String)) (now : Int)
    (endpoint : WebhookEndpoint) : WebhookEndpoint :=
  let endpoint := { endpoint with eventTypes := eventTypes.getD endpoint.eventTypes }
  match enabled with
  | none => endpoint
  | some false => { endpoint with
      enabled := false
      disabledAt := some now
      disabledReason := some "disabled by merchant" }
  | some true => { endpoint with
      enabled := true
      disabledAt := none
      disabledReason := none
      consecutiveFailures := 0 }

theorem updated_id (enabled : Option Bool) (eventTypes : Option (List String)) (now : Int)
    (endpoint : WebhookEndpoint) : (updated enabled eventTypes now endpoint).id = endpoint.id := by
  unfold updated
  split <;> rfl

def change : Change → Shared → Shared
  | .emit event, s =>
    match h : s.events.find? event.id with
    | some _ => s
    | none => { s with events := s.events.insert event h }
  | .create endpoint, s =>
    match h : s.endpoints.find? endpoint.id with
    | some _ => s
    | none => { s with endpoints := s.endpoints.insert endpoint h }
  | .update id enabled eventTypes now, s =>
    s.updateEndpoint id (updated enabled eventTypes now) (updated_id enabled eventTypes now)
  | .rotateSecret id secretEncrypted, s =>
    s.updateEndpoint id ({ · with secretEncrypted := secretEncrypted }) fun _ => rfl

/-- Each call is one poll cycle of a worker. -/
def system (o : WebhookDispatcherOptions) :
    Concurrent.System Request Answer DispatchError WebhookDispatchSummary Unit Moment Change
      Shared where
  code _ := runOnce o
  perform _ := answer
  enter _ _ s := s
  environment := change

abbrev State :=
  Concurrent.State Request Answer DispatchError WebhookDispatchSummary Unit Shared

/-! ## One endpoint -/

namespace Shop

def options : WebhookDispatcherOptions where
  decryptSecret := .ok
  signWebhook secret _ _ := secret

def endpoint : WebhookEndpoint :=
  ⟨"we_1", "mer_1", "https://shop.example/hooks", [], "whsec_1", true, 8, 10000, 0, none, none,
    by decide⟩

def event : WebhookEvent := ⟨"evt_1", "mer_1", "payment.paid", "\x7b\"id\":\"evt_1\"\x7d", 0⟩

/-- The server answers with a status. -/
def moment (now : Int) (status : Nat) : Moment :=
  ⟨now, .answered, 1 / 2, .ok (), .ok ⟨status, ""⟩, .inserted _, .inserted _, .inserted _⟩

def steps (i n : Nat) (m : Moment) : List (Concurrent.Move Unit Moment Change) :=
  List.replicate n (.step i m)

/-- The event is emitted, and a worker gets as far as claiming its delivery. -/
def claimed : List (Concurrent.Move Unit Moment Change) :=
  [.environment (.create endpoint), .environment (.emit event), .start ()] ++
    steps 0 14 (moment 0 200)

def attempt (n : Nat) : DeliveryId := ⟨"evt_1", "we_1", n⟩

end Shop

end Webhooks

end PaymentGateway
