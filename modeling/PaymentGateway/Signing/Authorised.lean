import PaymentGateway.Signing.Outline

/-!
# Every signature was authorised

**Theorem (`signatures_authorised`).** Let the calls follow one another, each of them possibly cut
off by a crash, each of its requests possibly failing. Then what is signed is the payload that was
submitted under its id, its destination is on the allowlist and its amount within the ceiling of a
transaction, enough distinct approvers have asked to approve it, none of them its requester, and no
rejection of it has been saved.

The four checks stand in three entry points, with a stored row in between. `Vetted` carries them
from one call to the next: a row that awaits approval is `Vouched` for by the journal.
-/

namespace PaymentGateway

namespace Signing

open Concurrent

/-- One call after the other. The one before may have been cut off. -/
def sequential : Rules Request Answer SigningError Outcome Call Moment Empty Shared where
  starts call s := Submitted call s.shared
  live n i := i + 1 = n
  steps _ _ m s := s.clock ≤ m.now
  happens _ _ := True

instance (move : Move Call Moment Empty) (s : State) : Decidable (sequential.meets move s) :=
  have : ∀ call s, Decidable (sequential.starts call s) := fun call s =>
    inferInstanceAs (Decidable (Submitted call s.shared))
  have : ∀ n i, Decidable (sequential.live n i) := fun n i =>
    inferInstanceAs (Decidable (i + 1 = n))
  have : ∀ i r m s, Decidable (sequential.steps i r m s) := fun _ _ m s =>
    inferInstanceAs (Decidable (s.clock ≤ m.now))
  have : ∀ e s, Decidable (sequential.happens e s) := fun _ _ => inferInstanceAs (Decidable True)
  inferInstance

/-! ## Authorisation -/

/-- What the policy asks of a signature, as the journal before it shows it. -/
structure Authorised (policy : SigningPolicy) (request : SigningRequest) (journal : List Event) :
    Prop where
  submitted : request ∈ submissions journal
  payload : ∀ other ∈ submissions journal, other.id = request.id → other = request
  destination : toLowerCase request.toAddress ∈ policy.allowedDestinations
  amount : request.amount ≤ policy.maxAmountPerTx
  approvals : policy.requiredApprovals ≤ 1 ∨ ∃ approvers : List String, approvers.Nodup ∧
    policy.requiredApprovals ≤ approvers.length ∧
    ∀ a ∈ approvers, a ≠ request.requestedBy ∧ Event.began (.approve request.id a) ∈ journal
  unrejected : ∀ entry, Event.saved entry ∈ journal → entry.status = .rejected →
    entry.request.id ≠ request.id

/-- What a row that awaits approval shows of the journal. -/
structure Vouched (policy : SigningPolicy) (request : SigningRequest) (approvers : List String)
    (journal : List Event) : Prop where
  submitted : request ∈ submissions journal
  destination : toLowerCase request.toAddress ∈ policy.allowedDestinations
  nodup : approvers.Nodup
  approved : ∀ a ∈ approvers,
    a ≠ request.requestedBy ∧ Event.began (.approve request.id a) ∈ journal
  unrejected : ∀ entry, Event.saved entry ∈ journal → entry.status = .rejected →
    entry.request.id ≠ request.id

theorem mem_submissions_cons {request : SigningRequest} {journal : List Event} (event : Event)
    (h : request ∈ submissions journal) : request ∈ submissions (event :: journal) := by
  cases event with
  | began call => cases call <;> simp [submissions, h]
  | signed i r now => exact h
  | saved entry => exact h

theorem mem_submissions {request : SigningRequest} {journal : List Event} :
    request ∈ submissions journal ↔ Event.began (.submit request) ∈ journal := by
  induction journal with
  | nil => simp [submissions]
  | cons event journal ih =>
    cases event with
    | began call => cases call <;> simp [submissions, ih]
    | signed i r now => simp [submissions, ih]
    | saved entry => simp [submissions, ih]

theorem Vouched.cons {policy : SigningPolicy} {request : SigningRequest} {approvers : List String}
    {journal : List Event} (h : Vouched policy request approvers journal) {event : Event}
    (hevent : ∀ entry, event = .saved entry → entry.status = .rejected →
      entry.request.id ≠ request.id) : Vouched policy request approvers (event :: journal) where
  submitted := mem_submissions_cons event h.submitted
  destination := h.destination
  nodup := h.nodup
  approved a ha := ⟨(h.approved a ha).1, List.mem_cons_of_mem _ (h.approved a ha).2⟩
  unrejected entry hentry hstatus := by
    rcases List.mem_cons.1 hentry with heq | hentry
    · exact hevent entry heq.symm hstatus
    · exact h.unrejected entry hentry hstatus

/-- One more approver. -/
theorem Vouched.approve {policy : SigningPolicy} {request : SigningRequest}
    {approvers : List String} {journal : List Event} {approver : String}
    (h : Vouched policy request approvers journal) (hself : request.requestedBy ≠ approver)
    (hagain : approver ∉ approvers) (hbegan : Event.began (.approve request.id approver) ∈ journal) :
    Vouched policy request (approvers ++ [approver]) journal where
  submitted := h.submitted
  destination := h.destination
  nodup := by
    refine List.nodup_append.2 ⟨h.nodup, List.nodup_singleton _, fun a ha b hb => ?_⟩
    rw [List.mem_singleton.1 hb]
    exact fun heq => hagain (heq ▸ ha)
  approved a ha := by
    rcases List.mem_append.1 ha with ha | ha
    · exact h.approved a ha
    · rw [List.mem_singleton.1 ha]
      exact ⟨Ne.symm hself, hbegan⟩
  unrejected := h.unrejected

/-! ## The invariant -/

structure Vetted (policy : SigningPolicy) (b : Book) : Prop where
  distinct : ((submissions b.journal).map (·.id)).Nodup
  rows : ∀ id p, b.store id = some p → p.request.id = id ∧ p.request ∈ submissions b.journal ∧
    (p.status = .pendingApproval → Vouched policy p.request p.approvals b.journal)
  saves : ∀ entry, Event.saved entry ∈ b.journal → entry.request ∈ submissions b.journal
  signatures : ∀ later i request now earlier,
    b.journal = later ++ .signed i request now :: earlier → Authorised policy request earlier

section Policy

variable {policy : SigningPolicy} {b : Book}

theorem Vetted.empty (policy : SigningPolicy) : Vetted policy Book.empty where
  distinct := List.nodup_nil
  rows id p hp := by cases hp
  saves entry hentry := by cases hentry
  signatures later i request now earlier h := by
    exact absurd (congrArg List.length h) (by simp [Book.empty])

/-- A submission is the only one with its id. -/
theorem Vetted.payload (h : Vetted policy b) {request other : SigningRequest}
    (hrequest : request ∈ submissions b.journal) (hother : other ∈ submissions b.journal)
    (hid : other.id = request.id) : other = request :=
  List.inj_on_of_nodup_map h.distinct hother hrequest hid

/-- What is older than the newest event was there before it. -/
theorem Vetted.signatures_cons (h : Vetted policy b) {event : Event} {later earlier : List Event}
    {i : Nat} {request : SigningRequest} {now : Int}
    (heq : event :: b.journal = later ++ .signed i request now :: earlier)
    (hnew : event = .signed i request now → Authorised policy request b.journal) :
    Authorised policy request earlier := by
  cases later with
  | nil =>
    obtain ⟨hevent, rfl⟩ := List.cons.inj heq
    exact hnew hevent
  | cons first later => exact h.signatures later i request now earlier (List.cons.inj heq).2

theorem Vetted.begin (h : Vetted policy b) {call : Call}
    (hfresh : ∀ request, call = .submit request → request.id ∉ (submissions b.journal).map (·.id)) :
    Vetted policy { b with journal := .began call :: b.journal } where
  distinct := by
    cases call with
    | submit request => exact List.nodup_cons.2 ⟨hfresh request rfl, h.distinct⟩
    | approve id approver => exact h.distinct
    | reject id actor reason => exact h.distinct
  rows id p hp := by
    obtain ⟨hid, hsubmitted, hvouched⟩ := h.rows id p hp
    refine ⟨hid, mem_submissions_cons _ hsubmitted, fun hstatus => (hvouched hstatus).cons ?_⟩
    intro entry heq
    cases heq
  saves entry hentry := by
    rcases List.mem_cons.1 hentry with heq | hentry
    · cases heq
    · exact mem_submissions_cons _ (h.saves entry hentry)
  signatures later i request now earlier heq := by
    refine h.signatures_cons heq fun hevent => ?_
    cases hevent

theorem Vetted.sign (h : Vetted policy b) {request : SigningRequest} (i : Nat) (now : Int)
    (hauthorised : Authorised policy request b.journal) :
    Vetted policy { b with journal := .signed i request now :: b.journal } where
  distinct := h.distinct
  rows id p hp := by
    obtain ⟨hid, hsubmitted, hvouched⟩ := h.rows id p hp
    refine ⟨hid, hsubmitted, fun hstatus => (hvouched hstatus).cons ?_⟩
    intro entry heq
    cases heq
  saves entry hentry := by
    rcases List.mem_cons.1 hentry with heq | hentry
    · cases heq
    · exact h.saves entry hentry
  signatures later j request' now' earlier heq := by
    refine h.signatures_cons heq fun hevent => ?_
    cases hevent
    exact hauthorised

theorem Vetted.save (h : Vetted policy b) {entry : PendingSigningRequest}
    (hsubmitted : entry.request ∈ submissions b.journal)
    (hvouched : entry.status = .pendingApproval →
      Vouched policy entry.request entry.approvals b.journal) :
    Vetted policy ⟨Function.update b.store entry.request.id (some entry), b.entries,
      .saved entry :: b.journal⟩ where
  distinct := h.distinct
  rows id p hp := by
    by_cases hid : id = entry.request.id
    · subst hid
      simp only [Function.update_self, Option.some.injEq] at hp
      subst hp
      refine ⟨rfl, hsubmitted, fun hstatus => (hvouched hstatus).cons fun entry' heq hrejected => ?_⟩
      cases heq
      rw [hstatus] at hrejected
      cases hrejected
    · simp only [Function.update_of_ne hid] at hp
      obtain ⟨hpid, hpsubmitted, hpvouched⟩ := h.rows id p hp
      refine ⟨hpid, hpsubmitted, fun hstatus => (hpvouched hstatus).cons fun entry' heq _ => ?_⟩
      cases heq
      rw [hpid]
      exact Ne.symm hid
  saves entry' hentry := by
    rcases List.mem_cons.1 hentry with heq | hentry
    · cases heq
      exact hsubmitted
    · exact h.saves entry' hentry
  signatures later i request now earlier heq := by
    refine h.signatures_cons heq fun hevent => ?_
    cases hevent

/-! ## The calls -/

/-- A call that has begun; the id of a submission is new to the store. -/
def Begun (call : Call) (b : Book) : Prop :=
  Event.began call ∈ b.journal ∧
    ∀ request, call = .submit request → ∀ entry, Event.saved entry ∈ b.journal →
      entry.request.id ≠ request.id

/-- What a call knows about the row it decides about. -/
structure Known (policy : SigningPolicy) (call : Call) (p : PendingSigningRequest) (b : Book) :
    Prop where
  began : Event.began call ∈ b.journal
  id : p.request.id = call.requestId
  vouched : Vouched policy p.request p.approvals b.journal

def authorisedOutline (policy : SigningPolicy) : Outline where
  begun := Begun
  read := Known policy
  checked call p b := Known policy call p b ∧ p.request.amount ≤ policy.maxAmountPerTx ∧
    Vetted policy b
  ready request b := Authorised policy request b.journal
  signed request b := request ∈ submissions b.journal
  recorded request b := request ∈ submissions b.journal
  closed _ := True
  rejected _ _ := True
  failed _ := True

/-- A vouched request with enough approvers is authorised. -/
theorem Vouched.authorised {p : PendingSigningRequest} {approvers : List String}
    (hb : Vetted policy b) (hvouched : Vouched policy p.request approvers b.journal)
    (hamount : p.request.amount ≤ policy.maxAmountPerTx)
    (henough : policy.requiredApprovals ≤ 1 ∨ policy.requiredApprovals ≤ approvers.length) :
    Authorised policy p.request b.journal where
  submitted := hvouched.submitted
  payload _ hother hid := hb.payload hvouched.submitted hother hid
  destination := hvouched.destination
  amount := hamount
  approvals := henough.imp_right fun hlength =>
    ⟨approvers, hvouched.nodup, hlength, hvouched.approved⟩
  unrejected := hvouched.unrejected

theorem authorised_holds (tracker : SpendTracker) (policy : SigningPolicy) (i : Nat) :
    (authorisedOutline policy).Holds tracker policy i (Vetted policy) Eq (fun _ _ => True)
      (sequential.steps i) where
  refl _ := rfl
  trans _ _ _ := Eq.trans
  guar_refl _ := trivial
  kept_begun _ _ _ hb _ heq := heq ▸ hb
  kept_read _ _ _ _ hb _ heq := heq ▸ hb
  kept_checked _ _ _ _ hb _ heq := heq ▸ hb
  kept_ready _ _ _ hb _ heq := heq ▸ hb
  kept_signed _ _ _ hb _ heq := heq ▸ hb
  kept_recorded _ _ _ hb _ heq := heq ▸ hb
  kept_closed _ _ _ _ _ := trivial
  kept_rejected _ _ _ _ _ _ := trivial
  kept_failed _ _ _ _ _ := trivial
  begun_failed _ _ _ := trivial
  read_failed _ _ _ _ := trivial
  checked_failed _ _ _ _ := trivial
  ready_failed _ _ _ := trivial
  recorded_failed _ _ _ := trivial
  closed_failed _ _ := trivial
  rejected_failed _ _ _ := trivial
  read_closed _ _ _ _ := trivial
  get call p b hI hb hp hstatus := by
    obtain ⟨hid, -, hvouched⟩ := hI.rows _ p hp
    exact ⟨hb.1, hid, hvouched hstatus⟩
  draft request b hb hdestination :=
    ⟨hb.1, rfl, {
      submitted := mem_submissions.2 hb.1
      destination := hdestination
      nodup := List.nodup_nil
      approved := fun a ha => by cases ha
      unrejected := fun entry hentry _ => hb.2 request rfl entry hentry }⟩
  check _ _ _ _ hI hb _ hamount _ := ⟨hb, hamount, hI⟩
  submitted request b hb hsingle := by
    obtain ⟨hknown, hamount, hI⟩ := hb
    exact Vouched.authorised hI hknown.vouched hamount (.inl hsingle)
  approved id approver p b hb hself hagain henough := by
    obtain ⟨hknown, hamount, hI⟩ := hb
    have hbegan : Event.began (.approve p.request.id approver) ∈ b.journal := by
      rw [hknown.id]
      exact hknown.began
    exact Vouched.authorised hI
      (hknown.vouched.approve hself hagain hbegan) hamount (.inr henough)
  sign request m _ hI hb _ :=
    ⟨hI.sign i m.now hb, trivial, fun _ => hb.submitted, fun _ => trivial⟩
  record _ _ _ hI hb _ :=
    ⟨⟨hI.distinct, hI.rows, hI.saves, hI.signatures⟩, trivial, fun _ => hb, fun _ => trivial⟩
  record_failed _ _ _ _ _ _ := trivial
  saveSigned _ _ _ _ hI hb _ :=
    ⟨hI.save hb (fun hstatus => by cases hstatus), trivial, fun _ => trivial, fun _ => trivial⟩
  savePending _ _ _ hI hb _ :=
    ⟨hI.save hb.1.vouched.submitted fun _ => hb.1.vouched, trivial, fun _ => trivial,
      fun _ => trivial⟩
  saveApproval id approver p _ s hI hb hself hagain _ := by
    have hbegan : Event.began (.approve p.request.id approver) ∈ s.journal := by
      rw [hb.id]
      exact hb.began
    exact ⟨hI.save hb.vouched.submitted fun _ => hb.vouched.approve hself hagain hbegan, trivial,
      fun _ => trivial, fun _ => trivial⟩
  saveRejected _ _ _ _ _ _ hI hb _ :=
    ⟨hI.save hb.vouched.submitted (fun hstatus => by cases hstatus), trivial, fun _ => trivial,
      fun _ => trivial⟩

/-! ## Runs -/

theorem authorised_compatible (tracker : SpendTracker) (policy : SigningPolicy) (clock : Int) :
    Compatible (system tracker policy) sequential (start clock) (fun s => Vetted policy s.toBook)
      (fun _ s s' => s.toBook = s'.toBook) (fun _ _ _ _ _ => True) (fun _ call s => Begun call s.toBook)
      (fun _ => (authorisedOutline policy).post) where
  lawful i _ := (authorised_holds tracker policy i).frame.toLawful
  code i call := (authorised_holds tracker policy i).code call
  live n i hi hlive := by
    have hlast : i + 1 = n + 1 := hlive
    omega
  others n i j _ r s s' hij hi hj := by
    have hi' : i + 1 = n := hi
    have hj' : j + 1 = n := hj
    omega
  environment e := nomatch e
  start call s _ hgood hcall := by
    have hfresh : ∀ request, call = .submit request →
        request.id ∉ (submissions s.shared.journal).map (·.id) := by
      intro request heq
      subst heq
      exact hcall.2
    refine ⟨hgood.invariant.begin hfresh, ⟨List.mem_cons_self, ?_⟩, fun i hi hlive => ?_⟩
    · intro request heq entry hentry hid
      rcases List.mem_cons.1 hentry with hevent | hentry
      · cases hevent
      · exact hfresh request heq (hid ▸ List.mem_map_of_mem (hgood.invariant.saves entry hentry))
    · have hlast : i + 1 = s.calls.length + 1 := hlive
      omega

/-- **Every signature was authorised** by what happened before it. -/
theorem signatures_authorised {tracker : SpendTracker} {clock : Int} {s : State}
    (h : (system tracker policy).Reachable sequential (start clock) s)
    {later earlier : List Event} {i : Nat} {request : SigningRequest} {now : Int}
    (hsigned : s.shared.journal = later ++ .signed i request now :: earlier) :
    Authorised policy request earlier := by
  have hgood := Good.of_reachable (authorised_compatible tracker policy clock)
    (Vetted.empty policy) h
  exact hgood.invariant.signatures later i request now earlier hsigned

end Policy

namespace Vault

/-- The signature of the first request, after its two approvals. -/
theorem signatures_authorised_vault : ∃ later i now earlier,
    ((system .prisma policy).after decided (start 0)).shared.journal =
      later ++ .signed i (request 1 0) now :: earlier ∧
    Authorised policy (request 1 0) earlier := by
  have hrun : (system .prisma policy).Reachable sequential (start 0)
      ((system .prisma policy).after decided (start 0)) :=
    System.reachable_after (by decide +kernel)
  have hsplit : ((system .prisma policy).after decided (start 0)).shared.journal =
      ((system .prisma policy).after decided (start 0)).shared.journal.take 3 ++
        .signed 3 (request 1 0) 3 ::
          ((system .prisma policy).after decided (start 0)).shared.journal.drop 4 := by
    decide +kernel
  exact ⟨_, 3, 3, _, hsplit, signatures_authorised hrun hsplit⟩

end Vault

end Signing

end PaymentGateway
