import Mathlib.Algebra.GroupWithZero.Nat
import Mathlib.Data.List.Dedup
import PaymentGateway.Lib.Concurrent
import PaymentGateway.Shared.Asset

/-!
# The policy-enforcing signing service

`submit`, `approve` and `reject`, cut at their awaits: the approval store, the spend tracker, the
signing backend and the audit trail are each asked by a request, and each request may fail, before
it has taken effect or after. The approval store is a row for each id that is read and overwritten;
nothing between a read and the write that follows from it keeps others out.

The shared state remembers in a journal which calls began, what was signed and what was saved.
`recording` reads from it whose signature has not yet been followed by its saved `SIGNED`.
-/

namespace PaymentGateway

namespace Signing

/-! ## Requests to sign, and the policy -/

/-- The amount is validated to be a non-negative integer; times are in milliseconds. -/
structure SigningRequest where
  id : String
  merchantId : String
  network : String
  asset : String
  fromAddress : String
  toAddress : String
  amount : Nat
  requestedBy : String
  requestedAt : Int
  deriving DecidableEq, Repr

/-- What a backend returns. -/
structure SignedTransaction where
  requestId : String
  rawTxHex : String
  signedAt : Int
  deriving DecidableEq, Repr

/-- The limits that a request is held to. -/
structure SigningPolicy where
  allowedDestinations : List String
  maxAmountPerTx : Nat
  maxAmountPerWindow : Nat
  windowSeconds : Int
  requiredApprovals : Int
  deriving DecidableEq, Repr

inductive SigningRequestStatus
  | pendingApproval
  | signed
  | rejected
  deriving DecidableEq, Repr

def SigningRequestStatus.name : SigningRequestStatus → String
  | .pendingApproval => "PENDING_APPROVAL"
  | .signed => "SIGNED"
  | .rejected => "REJECTED"

/-- A row of the approval store. -/
structure PendingSigningRequest where
  request : SigningRequest
  status : SigningRequestStatus
  approvals : List String
  rejectedBy : Option String
  rejectionReason : Option String
  deriving DecidableEq, Repr

inductive SigningError
  | destinationNotAllowed (message : String)
  | amountCeilingExceeded (message : String)
  | selfApproval
  | unknownSigningRequest (requestId : String)
  | signingRequestAlreadyDecided (requestId : String) (status : SigningRequestStatus)
  /-- What a store, the backend or the audit trail failed with. -/
  | unavailable (message : String)
  deriving DecidableEq, Repr

def SigningError.message : SigningError → String
  | .destinationNotAllowed message => message
  | .amountCeilingExceeded message => message
  | .selfApproval => "the requester cannot also approve their own signing request"
  | .unknownSigningRequest requestId => s!"no pending signing request with id {requestId}"
  | .signingRequestAlreadyDecided requestId status =>
    s!"signing request {requestId} is already {toLowerCase status.name}, not pending approval"
  | .unavailable message => message

/-! ## The audit trail -/

inductive SigningAuditEventType
  | submitted
  | approved
  | rejected
  | signed
  | validationFailed
  | signFailed
  deriving DecidableEq, Repr

inductive AuditValue
  | text (value : String)
  | number (value : Int)
  deriving DecidableEq, Repr

structure SigningAuditEvent where
  requestId : String
  type : SigningAuditEventType
  actorId : Option String
  detail : List (String × AuditValue)
  deriving DecidableEq, Repr

/-- What the audit trail keeps of a request. -/
def requestSummary (request : SigningRequest) : List (String × AuditValue) :=
  [("merchantId", .text request.merchantId), ("network", .text request.network),
    ("asset", .text request.asset), ("toAddress", .text request.toAddress),
    ("amount", .text (toString request.amount))]

/-! ## The awaits -/

/-- The awaits. -/
inductive Request
  | get (requestId : String)
  | save (entry : PendingSigningRequest)
  | windowTotal (merchantId network : String) (windowSeconds asOf : Int)
  | record (merchantId network : String) (amount : Nat) (at_ : Int)
  | sign (request : SigningRequest)
  | audit (event : SigningAuditEvent)
  deriving DecidableEq, Repr

abbrev Answer : Request → Type
  | .get _ => Option PendingSigningRequest
  | .save _ => Unit
  | .windowTotal .. => Nat
  | .record .. => Unit
  | .sign _ => SignedTransaction
  | .audit _ => Unit

/-- A method of the service. -/
abbrev Process := Program Request Answer SigningError

def ApprovalStore.get (requestId : String) : Process (Option PendingSigningRequest) :=
  Program.call (Request.get requestId)

def ApprovalStore.save (entry : PendingSigningRequest) : Process Unit :=
  Program.call (Request.save entry)

def SpendTracker.total (merchantId network : String) (windowSeconds asOf : Int) : Process Nat :=
  Program.call (Request.windowTotal merchantId network windowSeconds asOf)

def SpendTracker.record (merchantId network : String) (amount : Nat) (at_ : Int) : Process Unit :=
  Program.call (Request.record merchantId network amount at_)

def SigningBackend.sign (request : SigningRequest) : Process SignedTransaction :=
  Program.call (Request.sign request)

def SigningAuditTrail.record (event : SigningAuditEvent) : Process Unit :=
  Program.call (Request.audit event)

/-- What `submit` and `approve` return. `reject` returns the rejected request. -/
inductive Outcome
  | signed (transaction : SignedTransaction)
  | pending (entry : PendingSigningRequest)
  deriving DecidableEq, Repr

/-! ## The service -/

def audit (requestId : String) (type : SigningAuditEventType) (actorId : Option String)
    (detail : List (String × AuditValue)) : Process Unit :=
  SigningAuditTrail.record ⟨requestId, type, actorId, detail⟩

def auditValidationFailure (requestId actorId : String) (error : SigningError) : Process Unit :=
  audit requestId .validationFailed (some actorId) [("reason", .text error.message)]

/-- An empty allow list allows nothing. -/
def assertDestinationAllowed (policy : SigningPolicy) (request : SigningRequest) : Process Unit :=
  if toLowerCase request.toAddress ∈ policy.allowedDestinations then pure ()
  else
    throw (.destinationNotAllowed
      s!"destination {request.toAddress} is not on the {request.network} signing allowlist")

/-- The limit of one transaction, then the limit of the window. -/
def assertWithinCeilings (policy : SigningPolicy) (request : SigningRequest) : Process Unit := do
  if policy.maxAmountPerTx < request.amount then
    throw (.amountCeilingExceeded (s!"amount {request.amount} exceeds the per-transaction " ++
      s!"ceiling of {policy.maxAmountPerTx}"))
  else
    let windowTotal ← SpendTracker.total request.merchantId request.network policy.windowSeconds
      request.requestedAt
    if policy.maxAmountPerWindow < windowTotal + request.amount then
      throw (.amountCeilingExceeded (s!"amount {request.amount} would bring the " ++
        s!"{policy.windowSeconds}s rolling total to {windowTotal + request.amount}, " ++
        s!"exceeding the ceiling of {policy.maxAmountPerWindow}"))
    else
      pure ()

/-- The signature is recorded once the backend has answered. -/
def finalizeAndSign (request : SigningRequest) (approvals : List String) :
    Process SignedTransaction := do
  try
    let signed ← SigningBackend.sign request
    SpendTracker.record request.merchantId request.network request.amount request.requestedAt
    ApprovalStore.save ⟨request, .signed, approvals, none, none⟩
    audit request.id .signed (some request.requestedBy) [("rawTxHex", .text signed.rawTxHex)]
    pure signed
  catch error =>
    audit request.id .signFailed (some request.requestedBy) [("reason", .text error.message)]
    throw error

/-- A request that needs no second approval is signed at once. -/
def submit (policy : SigningPolicy) (request : SigningRequest) : Process Outcome := do
  audit request.id .submitted (some request.requestedBy) (requestSummary request)
  try
    assertDestinationAllowed policy request
    assertWithinCeilings policy request
  catch error =>
    auditValidationFailure request.id request.requestedBy error
    throw error
  if policy.requiredApprovals ≤ 1 then
    let signed ← finalizeAndSign request [request.requestedBy]
    pure (.signed signed)
  else
    let pending : PendingSigningRequest := ⟨request, .pendingApproval, [], none, none⟩
    ApprovalStore.save pending
    pure (.pending pending)

/-- The row that `approve` and `reject` decide about. -/
def getPending (requestId : String) : Process PendingSigningRequest := do
  match ← ApprovalStore.get requestId with
  | none => throw (.unknownSigningRequest requestId)
  | some pending =>
    if pending.status ≠ .pendingApproval then
      throw (.signingRequestAlreadyDecided requestId pending.status)
    else
      pure pending

/-- The last approval that is needed signs. -/
def approve (policy : SigningPolicy) (requestId approverId : String) : Process Outcome := do
  let pending ← getPending requestId
  if pending.request.requestedBy = approverId then
    throw .selfApproval
  else if approverId ∈ pending.approvals then
    pure (.pending pending)
  else
    let approvals := pending.approvals ++ [approverId]
    audit requestId .approved (some approverId) [("approvalCount", .number approvals.length),
      ("required", .number policy.requiredApprovals)]
    if policy.requiredApprovals ≤ approvals.length then
      try
        assertWithinCeilings policy pending.request
      catch error =>
        auditValidationFailure requestId approverId error
        throw error
      let signed ← finalizeAndSign pending.request approvals
      pure (.signed signed)
    else
      let updated := { pending with approvals := approvals }
      ApprovalStore.save updated
      pure (.pending updated)

/-- Only a request that is still pending is rejected. -/
def reject (requestId actorId : String) (reason : Option String) : Process Outcome := do
  let pending ← getPending requestId
  let updated := { pending with
    status := .rejected
    rejectedBy := some actorId
    rejectionReason := reason }
  ApprovalStore.save updated
  audit requestId .rejected (some actorId)
    ((reason.filter (· ≠ "")).toList.map fun reason => ("reason", .text reason))
  pure (.pending updated)

/-! ## The world -/

/-- What the tracker has of a signature. -/
structure SpendEntry where
  merchantId : String
  network : String
  amount : Nat
  occurredAt : Int
  deriving DecidableEq, Repr

inductive SpendTracker
  | prisma
  | inMemory
  deriving DecidableEq, Repr

/-- The entries a tracker sums up. The one over the database has an upper bound. -/
def SpendTracker.counts (merchantId network : String) (windowSeconds asOf : Int)
    (entry : SpendEntry) : SpendTracker → Prop
  | .prisma => entry.merchantId = merchantId ∧ entry.network = network ∧
      asOf - windowSeconds * 1000 < entry.occurredAt ∧ entry.occurredAt ≤ asOf
  | .inMemory => entry.merchantId = merchantId ∧ entry.network = network ∧
      asOf - windowSeconds * 1000 < entry.occurredAt

instance (merchantId network : String) (windowSeconds asOf : Int) (entry : SpendEntry)
    (tracker : SpendTracker) :
    Decidable (tracker.counts merchantId network windowSeconds asOf entry) := by
  cases tracker <;> unfold SpendTracker.counts <;> infer_instance

def SpendTracker.windowTotal (tracker : SpendTracker) (entries : List SpendEntry)
    (merchantId network : String) (windowSeconds asOf : Int) : Nat :=
  ((entries.filter fun entry =>
    tracker.counts merchantId network windowSeconds asOf entry).map (·.amount)).sum

/-! ## Calls -/

/-- The requests of the callers. -/
inductive Call
  | submit (request : SigningRequest)
  | approve (requestId approverId : String)
  | reject (requestId actorId : String) (reason : Option String)
  deriving DecidableEq, Repr

def Call.code (policy : SigningPolicy) : Call → Process Outcome
  | .submit request => Signing.submit policy request
  | .approve requestId approverId => Signing.approve policy requestId approverId
  | .reject requestId actorId reason => Signing.reject requestId actorId reason

/-- The id a call is about. -/
def Call.requestId : Call → String
  | .submit request => request.id
  | .approve requestId _ => requestId
  | .reject requestId _ _ => requestId

/-- What happened, as far as it can be seen from outside. -/
inductive Event
  | began (call : Call)
  | signed (by_ : Nat) (request : SigningRequest) (at_ : Int)
  | saved (entry : PendingSigningRequest)
  deriving DecidableEq, Repr

/-- The rows of the store and of the tracker, and the journal, which has the newest event first. -/
structure Book where
  store : String → Option PendingSigningRequest
  entries : List SpendEntry
  journal : List Event

/-- What the calls share. The clock is the last time it has shown. -/
structure Shared extends Book where
  audits : List (SigningAuditEvent × Int)
  clock : Int

/-- How a request ends. A request that fails late has taken effect all the same. -/
inductive Fate
  | answered
  | failed (message : String)
  | failedLate (message : String)
  deriving DecidableEq, Repr

def Fate.late : Fate → Bool
  | .failedLate _ => true
  | _ => false

/-- The clock, and what becomes of a request. -/
structure Moment where
  now : Int
  fate : Fate
  rawTxHex : String
  deriving DecidableEq, Repr

def answer (tracker : SpendTracker) (m : Moment) (b : Book) : (r : Request) → Answer r
  | .get requestId => b.store requestId
  | .save _ => ()
  | .windowTotal merchantId network windowSeconds asOf =>
    tracker.windowTotal b.entries merchantId network windowSeconds asOf
  | .record .. => ()
  | .sign request => ⟨request.id, m.rawTxHex, m.now⟩
  | .audit _ => ()

def effect (i : Nat) (m : Moment) (b : Book) : Request → Book
  | .get _ => b
  | .save entry => { b with
      store := Function.update b.store entry.request.id (some entry)
      journal := .saved entry :: b.journal }
  | .windowTotal .. => b
  | .record merchantId network amount occurredAt => { b with
      entries := ⟨merchantId, network, amount, occurredAt⟩ :: b.entries }
  | .sign request => { b with journal := .signed i request m.now :: b.journal }
  | .audit _ => b

def audited (m : Moment) (audits : List (SigningAuditEvent × Int)) :
    Request → List (SigningAuditEvent × Int)
  | .audit event => (event, m.now) :: audits
  | _ => audits

def perform (tracker : SpendTracker) (i : Nat) (r : Request) (m : Moment) (s : Shared) :
    Except SigningError (Answer r) × Shared :=
  match m.fate with
  | .answered =>
    (.ok (answer tracker m s.toBook r), ⟨effect i m s.toBook r, audited m s.audits r, m.now⟩)
  | .failed message => (.error (.unavailable message), { s with clock := m.now })
  | .failedLate message =>
    (.error (.unavailable message), ⟨effect i m s.toBook r, audited m s.audits r, m.now⟩)

/-- A submitted request carries the time of its submission. -/
def enter (_ : Nat) (call : Call) (s : Shared) : Shared :=
  ⟨{ s.toBook with journal := .began call :: s.journal }, s.audits,
    match call with
    | .submit request => request.requestedAt
    | _ => s.clock⟩

/-- The system that the vault runs. -/
def system (tracker : SpendTracker) (policy : SigningPolicy) :
    Concurrent.System Request Answer SigningError Outcome Call Moment Empty Shared where
  code := Call.code policy
  perform := perform tracker
  enter := enter
  environment := fun e _ => nomatch e

def Book.empty : Book := ⟨fun _ => none, [], []⟩

def start (clock : Int) : Shared := ⟨Book.empty, [], clock⟩

abbrev State := Concurrent.State Request Answer SigningError Outcome Call Shared

/-! ## Reading the journal -/

/-- The requests with an id that were signed. -/
def signatures (id : String) : List Event → List SigningRequest
  | [] => []
  | .signed _ request _ :: journal =>
    if request.id = id then request :: signatures id journal else signatures id journal
  | _ :: journal => signatures id journal

/-- The call whose signature of this id is not yet followed by a saved `SIGNED`. -/
def recording (id : String) : List Event → Option Nat
  | [] => none
  | .signed i request _ :: journal => if request.id = id then some i else recording id journal
  | .saved entry :: journal =>
    if entry.request.id = id ∧ entry.status = .signed then none else recording id journal
  | .began _ :: journal => recording id journal

def submissions : List Event → List SigningRequest
  | [] => []
  | .began (.submit request) :: journal => request :: submissions journal
  | _ :: journal => submissions journal

/-- Submissions have fresh ids, and the clock does not run backwards. -/
def Submitted (call : Call) (s : Shared) : Prop :=
  match call with
  | .submit request => s.clock ≤ request.requestedAt ∧
      request.id ∉ (submissions s.journal).map (·.id)
  | _ => True

instance (call : Call) (s : Shared) : Decidable (Submitted call s) := by
  cases call <;> unfold Submitted <;> infer_instance

/-! ## A vault -/

namespace Vault

open Concurrent

def policy : SigningPolicy := ⟨["0xhot"], 10, 8, 60, 2⟩

/-- The `n`-th request, for five coins. -/
def request (n : Nat) (requestedAt : Int) : SigningRequest :=
  ⟨s!"req_{n}", "m", "ethereum", "ETH", "0xcold", "0xHOT", 5, "alice", requestedAt⟩

/-- A number of steps of one call, all of them answered. -/
def steps (i n : Nat) (now : Int) : List (Move Call Moment Empty) :=
  List.replicate n (.step i ⟨now, .answered, "0x"⟩)

/-- One request gets its two approvals, one after the other; a second one is rejected. -/
def decided : List (Move Call Moment Empty) :=
  .start (.submit (request 1 0)) :: steps 0 3 0 ++
  .start (.approve "req_1" "carol") :: steps 1 3 1 ++
  .start (.submit (request 2 2)) :: steps 2 3 2 ++
  .start (.approve "req_1" "bob") :: steps 3 7 3 ++
  .start (.reject "req_2" "carol" none) :: steps 4 3 4

end Vault

/-! ## Reasoning about the calls -/

section Rules

open Program

variable {tracker : SpendTracker} {i : Nat} {I : Book → Prop} {rely guar : Book → Book → Prop}
  {steps : Request → Moment → Shared → Prop}

/-- Terms that speak of the book alone. -/
def terms (I : Book → Prop) (rely guar : Book → Book → Prop)
    (steps : Request → Moment → Shared → Prop) : Terms Request Moment Shared where
  inv s := I s.toBook
  rely s s' := rely s.toBook s'.toBook
  guar _ s s' := guar s.toBook s'.toBook
  meets := steps

/-- What the others leave alone of the book. -/
def Kept (I : Book → Prop) (rely : Book → Book → Prop) (P : Book → Prop) : Prop :=
  ∀ b b', P b → I b' → rely b b' → P b'

theorem Kept.stable {P : Book → Prop} (h : Kept I rely P) :
    Stable (terms I rely guar steps) fun s => P s.toBook :=
  fun s s' hs hinv hrely => h s.toBook s'.toBook hs hinv hrely

/-- The rule for one request: what its effect keeps, if it comes to have one. -/
theorem Triple.perform {r : Request} {P E : Book → Prop} {Q : Answer r → Book → Prop}
    (hP : Kept I rely P) (hE : Kept I rely E) (hQ : ∀ a, Kept I rely (Q a))
    (hrefl : ∀ b, guar b b)
    (hfailed : ∀ m s, P s.toBook → steps r m s → (∃ e, m.fate = .failed e) → E s.toBook)
    (heffect : ∀ m s, I s.toBook → P s.toBook → steps r m s → (∀ e, m.fate ≠ .failed e) →
      I (effect i m s.toBook r) ∧ guar s.toBook (effect i m s.toBook r) ∧
      (m.fate = .answered → Q (answer tracker m s.toBook r) (effect i m s.toBook r)) ∧
      ((∃ e, m.fate = .failedLate e) → E (effect i m s.toBook r))) :
    Triple (Signing.perform tracker i) (terms I rely guar steps) (fun s => P s.toBook)
      (Program.call r) (Ends (fun s => E s.toBook) fun a s => Q a s.toBook) := by
  refine Triple.call hP.stable (fun a => ?_) ?_
  · cases a with
    | ok a => exact (hQ a).stable
    | error e => exact hE.stable
  · intro m s hI hs hm
    unfold Signing.perform
    cases hfate : m.fate with
    | failed e => exact ⟨hI, hrefl _, hfailed m s hs hm ⟨e, hfate⟩⟩
    | answered =>
      obtain ⟨hI', hguar, hok, -⟩ := heffect m s hI hs hm (by simp [hfate])
      exact ⟨hI', hguar, hok hfate⟩
    | failedLate e =>
      obtain ⟨hI', hguar, -, herror⟩ := heffect m s hI hs hm (by simp [hfate])
      exact ⟨hI', hguar, herror ⟨e, hfate⟩⟩

end Rules

end Signing

end PaymentGateway
