import PaymentGateway.Signing.Service

/-!
# A proof outline of the calls

What is proved of `submit`, `approve` and `reject` is proved along their awaits. An `Outline` gives
an assertion for every place where a call waits, and `Outline.Holds` asks of each request what
leads from one to the next, and of the others that they leave the assertions alone.

**Theorem (`Outline.Holds.code`).** Then each call that starts with `begun` ends with what the
outline says of its end.
-/

namespace PaymentGateway

namespace Signing

open Program

/-- The row as a submission would save it. -/
def draft (request : SigningRequest) : PendingSigningRequest :=
  ⟨request, .pendingApproval, [], none, none⟩

/-- Assertions between the awaits. A call has `read` the row it decides about, or drafted it, has
`checked` the ceilings, and is `ready` when nothing keeps it from signing. -/
structure Outline where
  begun : Call → Book → Prop
  read : Call → PendingSigningRequest → Book → Prop
  checked : Call → PendingSigningRequest → Book → Prop
  ready : SigningRequest → Book → Prop
  signed : SigningRequest → Book → Prop
  recorded : SigningRequest → Book → Prop
  closed : Book → Prop
  rejected : String → Book → Prop
  failed : Book → Prop

/-- What the effect of a request has to come to. -/
structure Outline.Step (O : Outline) (I : Book → Prop) (guar : Book → Book → Prop) (i : Nat)
    (m : Moment) (b : Book) (r : Request) (next : Book → Prop) : Prop where
  inv : I (effect i m b r)
  guar : guar b (effect i m b r)
  next : m.fate = .answered → next (effect i m b r)
  late : (∃ e, m.fate = .failedLate e) → O.failed (effect i m b r)

structure Outline.Holds (O : Outline) (tracker : SpendTracker) (policy : SigningPolicy) (i : Nat)
    (I : Book → Prop) (rely guar : Book → Book → Prop)
    (steps : Request → Moment → Shared → Prop) : Prop where
  refl : ∀ b, rely b b
  trans : ∀ b b' b'', rely b b' → rely b' b'' → rely b b''
  guar_refl : ∀ b, guar b b
  kept_begun : ∀ call, Kept I rely (O.begun call)
  kept_read : ∀ call p, Kept I rely (O.read call p)
  kept_checked : ∀ call p, Kept I rely (O.checked call p)
  kept_ready : ∀ request, Kept I rely (O.ready request)
  kept_signed : ∀ request, Kept I rely (O.signed request)
  kept_recorded : ∀ request, Kept I rely (O.recorded request)
  kept_closed : Kept I rely O.closed
  kept_rejected : ∀ id, Kept I rely (O.rejected id)
  kept_failed : Kept I rely O.failed
  begun_failed : ∀ call b, O.begun call b → O.failed b
  read_failed : ∀ call p b, O.read call p b → O.failed b
  checked_failed : ∀ call p b, O.checked call p b → O.failed b
  ready_failed : ∀ request b, O.ready request b → O.failed b
  recorded_failed : ∀ request b, O.recorded request b → O.failed b
  closed_failed : ∀ b, O.closed b → O.failed b
  rejected_failed : ∀ id b, O.rejected id b → O.failed b
  read_closed : ∀ call p b, O.read call p b → O.closed b
  get : ∀ call p b, I b → O.begun call b → b.store call.requestId = some p →
    p.status = .pendingApproval → O.read call p b
  draft : ∀ request b, O.begun (.submit request) b →
    toLowerCase request.toAddress ∈ policy.allowedDestinations →
    O.read (.submit request) (draft request) b
  check : ∀ call p m s, I s.toBook → O.read call p s.toBook →
    steps (.windowTotal p.request.merchantId p.request.network policy.windowSeconds
      p.request.requestedAt) m s →
    p.request.amount ≤ policy.maxAmountPerTx →
    tracker.windowTotal s.entries p.request.merchantId p.request.network policy.windowSeconds
      p.request.requestedAt + p.request.amount ≤ policy.maxAmountPerWindow →
    O.checked call p s.toBook
  submitted : ∀ request b, O.checked (.submit request) (Signing.draft request) b →
    policy.requiredApprovals ≤ 1 → O.ready request b
  approved : ∀ id approver p b, O.checked (.approve id approver) p b →
    p.request.requestedBy ≠ approver → approver ∉ p.approvals →
    policy.requiredApprovals ≤ (p.approvals ++ [approver]).length → O.ready p.request b
  sign : ∀ request m s, I s.toBook → O.ready request s.toBook → steps (.sign request) m s →
    O.Step I guar i m s.toBook (.sign request) (O.signed request)
  record : ∀ request m s, I s.toBook → O.signed request s.toBook →
    steps (.record request.merchantId request.network request.amount request.requestedAt) m s →
    O.Step I guar i m s.toBook
      (.record request.merchantId request.network request.amount request.requestedAt)
      (O.recorded request)
  record_failed : ∀ request m s, O.signed request s.toBook →
    steps (.record request.merchantId request.network request.amount request.requestedAt) m s →
    (∃ e, m.fate = .failed e) → O.failed s.toBook
  saveSigned : ∀ request approvals m s, I s.toBook → O.recorded request s.toBook →
    steps (.save ⟨request, .signed, approvals, none, none⟩) m s →
    O.Step I guar i m s.toBook (.save ⟨request, .signed, approvals, none, none⟩) O.closed
  savePending : ∀ request m s, I s.toBook →
    O.checked (.submit request) (Signing.draft request) s.toBook →
    steps (.save (Signing.draft request)) m s →
    O.Step I guar i m s.toBook (.save (Signing.draft request)) O.closed
  saveApproval : ∀ id approver p m s, I s.toBook → O.read (.approve id approver) p s.toBook →
    p.request.requestedBy ≠ approver → approver ∉ p.approvals →
    steps (.save { p with approvals := p.approvals ++ [approver] }) m s →
    O.Step I guar i m s.toBook (.save { p with approvals := p.approvals ++ [approver] }) O.closed
  saveRejected : ∀ id actor reason p m s, I s.toBook → O.read (.reject id actor reason) p s.toBook →
    steps (.save { p with
      status := .rejected
      rejectedBy := some actor
      rejectionReason := reason }) m s →
    O.Step I guar i m s.toBook (.save { p with
      status := .rejected
      rejectedBy := some actor
      rejectionReason := reason }) (O.rejected id)

namespace Outline.Holds

variable {O : Outline} {tracker : SpendTracker} {policy : SigningPolicy} {i : Nat}
  {I : Book → Prop} {rely guar : Book → Book → Prop} {steps : Request → Moment → Shared → Prop}

theorem frame (h : O.Holds tracker policy i I rely guar steps) :
    (terms I rely guar steps).Frame fun s => O.failed s.toBook where
  refl s := h.refl s.toBook
  trans s s' s'' := h.trans s.toBook s'.toBook s''.toBook
  failure := h.kept_failed.stable

/-- A request that has no effect on the book. -/
theorem quiet (h : O.Holds tracker policy i I rely guar steps) {r : Request}
    (hr : ∀ m b, effect i m b r = b) {P : Book → Prop} {Q : Answer r → Book → Prop}
    (hP : Kept I rely P) (hfailed : ∀ b, P b → O.failed b) (hQ : ∀ a, Kept I rely (Q a))
    (hanswer : ∀ m s, I s.toBook → P s.toBook → steps r m s →
      Q (answer tracker m s.toBook r) s.toBook) :
    Triple (perform tracker i) (terms I rely guar steps) (fun s => P s.toBook) (Program.call r)
      (Ends (fun s => O.failed s.toBook) fun a s => Q a s.toBook) := by
  refine Triple.perform hP h.kept_failed hQ h.guar_refl (fun m s hs _ _ => hfailed _ hs) ?_
  intro m s hI hs hm _
  rw [hr]
  exact ⟨hI, h.guar_refl _, fun _ => hanswer m s hI hs hm, fun _ => hfailed _ hs⟩

/-- A request that writes. -/
theorem writes (h : O.Holds tracker policy i I rely guar steps) {r : Request} {P Q : Book → Prop}
    (hP : Kept I rely P) (hQ : Kept I rely Q)
    (hfailed : ∀ m s, P s.toBook → steps r m s → (∃ e, m.fate = .failed e) → O.failed s.toBook)
    (hstep : ∀ m s, I s.toBook → P s.toBook → steps r m s → O.Step I guar i m s.toBook r Q) :
    Triple (perform tracker i) (terms I rely guar steps) (fun s => P s.toBook) (Program.call r)
      (Ends (fun s => O.failed s.toBook) fun _ s => Q s.toBook) := by
  refine Triple.perform (Q := fun _ => Q) hP h.kept_failed (fun _ => hQ) h.guar_refl hfailed ?_
  intro m s hI hs hm _
  obtain ⟨hinv, hguar, hnext, hlate⟩ := hstep m s hI hs hm
  exact ⟨hinv, hguar, hnext, hlate⟩

theorem audit (h : O.Holds tracker policy i I rely guar steps) {P : Book → Prop}
    (hP : Kept I rely P) (hfailed : ∀ b, P b → O.failed b) (id : String)
    (type : SigningAuditEventType) (actor : Option String) (detail : List (String × AuditValue)) :
    Triple (perform tracker i) (terms I rely guar steps) (fun s => P s.toBook)
      (Signing.audit id type actor detail)
      (Ends (fun s => O.failed s.toBook) fun _ s => P s.toBook) :=
  h.quiet (Q := fun _ => P) (fun _ _ => rfl) hP hfailed (fun _ => hP) fun _ _ _ hs _ => hs

/-- The handlers audit a failure and pass it on. -/
theorem rethrow (h : O.Holds tracker policy i I rely guar steps) {α : Type} {Q : α → Shared → Prop}
    (id : String) (type : SigningAuditEventType) (actor : Option String)
    (detail : List (String × AuditValue)) (error : SigningError) :
    Triple (perform tracker i) (terms I rely guar steps) (fun s => O.failed s.toBook)
      (do Signing.audit id type actor detail; throw error)
      (Ends (fun s => O.failed s.toBook) Q) := by
  refine Triple.bind_ends h.frame (h.audit h.kept_failed (fun _ hb => hb) _ _ _ _) fun _ => ?_
  exact Triple.throw_ends h.frame fun _ _ hs => hs

theorem assertWithinCeilings (h : O.Holds tracker policy i I rely guar steps) (call : Call)
    (p : PendingSigningRequest) :
    Triple (perform tracker i) (terms I rely guar steps) (fun s => O.read call p s.toBook)
      (Signing.assertWithinCeilings policy p.request)
      (Ends (fun s => O.failed s.toBook) fun _ s => O.checked call p s.toBook) := by
  have hfailed := h.read_failed call p
  unfold Signing.assertWithinCeilings
  by_cases htx : policy.maxAmountPerTx < p.request.amount
  · simp only [htx, if_true]
    exact Triple.throw_ends h.frame fun s _ hs => hfailed _ hs
  · simp only [htx, if_false]
    refine Triple.bind_ends h.frame (h.quiet (fun _ _ => rfl) (h.kept_read call p) hfailed
      (Q := fun total b => O.read call p b ∧
        (total + p.request.amount ≤ policy.maxAmountPerWindow → O.checked call p b)) ?_ ?_)
      fun total => ?_
    · intro total b b' hb hinv hrely
      exact ⟨h.kept_read call p b b' hb.1 hinv hrely,
        fun hle => h.kept_checked call p b b' (hb.2 hle) hinv hrely⟩
    · intro m s hI hs hm
      exact ⟨hs, fun hle => h.check call p m s hI hs hm (Nat.le_of_not_lt htx) hle⟩
    · by_cases hwindow : policy.maxAmountPerWindow < total + p.request.amount
      · simp only [hwindow, if_true]
        exact Triple.throw_ends h.frame fun s _ hs => hfailed _ hs.1
      · simp only [hwindow, if_false]
        refine (Triple.pure_ends (h.kept_checked call p).stable fun _ _ hs => hs).ends_mono
          (fun s _ hs => hs.2 (Nat.le_of_not_lt hwindow)) fun _ _ hs => hs

theorem finalizeAndSign (h : O.Holds tracker policy i I rely guar steps) (request : SigningRequest)
    (approvals : List String) :
    Triple (perform tracker i) (terms I rely guar steps) (fun s => O.ready request s.toBook)
      (Signing.finalizeAndSign request approvals)
      (Ends (fun s => O.failed s.toBook) fun _ s => O.closed s.toBook) := by
  unfold Signing.finalizeAndSign
  refine Triple.tryCatch_ends h.frame.toLawful (E := fun s => O.failed s.toBook)
    (Q := fun _ s => O.closed s.toBook) ?_ (fun _ => h.kept_closed.stable)
    fun e => h.rethrow _ _ _ _ e
  refine Triple.bind_ends h.frame (h.writes (h.kept_ready request) (h.kept_signed request)
    (fun _ s hs _ _ => h.ready_failed request _ hs) (h.sign request)) fun signed => ?_
  refine Triple.bind_ends h.frame (h.writes (h.kept_signed request) (h.kept_recorded request)
    (h.record_failed request) (h.record request)) fun _ => ?_
  refine Triple.bind_ends h.frame (h.writes (h.kept_recorded request) h.kept_closed
    (fun _ s hs _ _ => h.recorded_failed request _ hs) (h.saveSigned request approvals)) fun _ => ?_
  refine Triple.bind_ends h.frame (h.audit h.kept_closed h.closed_failed _ _ _ _) fun _ => ?_
  exact Triple.pure_ends h.kept_closed.stable fun _ _ hs => hs

theorem submit (h : O.Holds tracker policy i I rely guar steps) (request : SigningRequest) :
    Triple (perform tracker i) (terms I rely guar steps)
      (fun s => O.begun (.submit request) s.toBook) (Signing.submit policy request)
      (Ends (fun s => O.failed s.toBook) fun _ s => O.closed s.toBook) := by
  have hbegun := h.kept_begun (.submit request)
  have hfailed := h.begun_failed (.submit request)
  have hchecked := h.kept_checked (.submit request) (Signing.draft request)
  unfold Signing.submit
  refine Triple.bind_ends h.frame (h.audit hbegun hfailed _ _ _ _) fun _ => ?_
  refine Triple.bind_ends h.frame (Triple.tryCatch_ends h.frame.toLawful
    (E := fun s => O.failed s.toBook)
    (Q := fun _ s => O.checked (.submit request) (Signing.draft request) s.toBook) ?_
    (fun _ => hchecked.stable) fun e => h.rethrow _ _ _ _ e) fun _ => ?_
  · refine Triple.bind_ends h.frame
      (Q := fun _ s => O.read (.submit request) (Signing.draft request) s.toBook) ?_
      fun _ => h.assertWithinCeilings (.submit request) (Signing.draft request)
    unfold assertDestinationAllowed
    by_cases hdestination : toLowerCase request.toAddress ∈ policy.allowedDestinations
    · simp only [hdestination, if_true]
      exact Triple.pure_ends hbegun.stable fun s _ hs => h.draft request _ hs hdestination
    · simp only [hdestination, if_false]
      exact Triple.throw_ends h.frame fun s _ hs => hfailed _ hs
  · by_cases hsingle : policy.requiredApprovals ≤ 1
    · simp only [hsingle, if_true]
      refine Triple.bind_ends h.frame ((h.finalizeAndSign request _).ends_mono
        (fun s _ hs => h.submitted request _ hs hsingle) fun _ _ hs => hs) fun _ => ?_
      exact Triple.pure_ends h.kept_closed.stable fun _ _ hs => hs
    · simp only [hsingle, if_false]
      refine Triple.bind_ends h.frame (h.writes hchecked h.kept_closed
        (fun _ s hs _ _ => h.checked_failed _ _ _ hs) (h.savePending request)) fun _ => ?_
      exact Triple.pure_ends h.kept_closed.stable fun _ _ hs => hs

theorem getPending (h : O.Holds tracker policy i I rely guar steps) (call : Call) :
    Triple (perform tracker i) (terms I rely guar steps) (fun s => O.begun call s.toBook)
      (Signing.getPending call.requestId)
      (Ends (fun s => O.failed s.toBook) fun p s => O.read call p s.toBook) := by
  have hfailed := h.begun_failed call
  unfold Signing.getPending
  refine Triple.bind_ends h.frame (h.quiet (fun _ _ => rfl) (h.kept_begun call) hfailed
    (Q := fun row b => O.begun call b ∧
      ∀ p, row = some p → p.status = .pendingApproval → O.read call p b) ?_ ?_) fun row => ?_
  · intro row b b' hb hinv hrely
    exact ⟨h.kept_begun call b b' hb.1 hinv hrely,
      fun p hp hstatus => h.kept_read call p b b' (hb.2 p hp hstatus) hinv hrely⟩
  · intro m s hI hs _
    exact ⟨hs, fun p hp hstatus => h.get call p _ hI hs hp hstatus⟩
  · cases row with
    | none => exact Triple.throw_ends h.frame fun s _ hs => hfailed _ hs.1
    | some pending =>
      by_cases hstatus : pending.status = .pendingApproval
      · simp only [hstatus, ne_eq, not_true_eq_false, if_false]
        exact (Triple.pure_ends (h.kept_read call pending).stable fun _ _ hs => hs).ends_mono
          (fun s _ hs => hs.2 pending rfl hstatus) fun _ _ hs => hs
      · simp only [ne_eq, hstatus, not_false_eq_true, if_true]
        exact Triple.throw_ends h.frame fun s _ hs => hfailed _ hs.1

theorem approve (h : O.Holds tracker policy i I rely guar steps) (id approver : String) :
    Triple (perform tracker i) (terms I rely guar steps)
      (fun s => O.begun (.approve id approver) s.toBook) (Signing.approve policy id approver)
      (Ends (fun s => O.failed s.toBook) fun _ s => O.closed s.toBook) := by
  unfold Signing.approve
  refine Triple.bind_ends h.frame (h.getPending (.approve id approver)) fun p => ?_
  have hread := h.kept_read (.approve id approver) p
  have hfailed := h.read_failed (.approve id approver) p
  by_cases hself : p.request.requestedBy = approver
  · simp only [hself, if_true]
    exact Triple.throw_ends h.frame fun s _ hs => hfailed _ hs
  by_cases hagain : approver ∈ p.approvals
  · simp only [hself, hagain, if_true, if_false]
    exact Triple.pure_ends hread.stable fun s _ hs => h.read_closed _ _ _ hs
  simp only [hself, hagain, if_false]
  refine Triple.bind_ends h.frame (h.audit hread hfailed _ _ _ _) fun _ => ?_
  by_cases henough : policy.requiredApprovals ≤ (p.approvals ++ [approver]).length
  · simp only [henough, if_true]
    refine Triple.bind_ends h.frame (Triple.tryCatch_ends h.frame.toLawful
      (E := fun s => O.failed s.toBook) (h.assertWithinCeilings (.approve id approver) p)
      (fun _ => (h.kept_checked _ p).stable) fun e => h.rethrow _ _ _ _ e) fun _ => ?_
    refine Triple.bind_ends h.frame ((h.finalizeAndSign p.request _).ends_mono
      (fun s _ hs => h.approved id approver p _ hs hself hagain henough) fun _ _ hs => hs)
      fun _ => ?_
    exact Triple.pure_ends h.kept_closed.stable fun _ _ hs => hs
  · simp only [henough, if_false]
    refine Triple.bind_ends h.frame (h.writes hread h.kept_closed
      (fun _ s hs _ _ => hfailed _ hs)
      fun m s hI hs hm => h.saveApproval id approver p m s hI hs hself hagain hm) fun _ => ?_
    exact Triple.pure_ends h.kept_closed.stable fun _ _ hs => hs

theorem reject (h : O.Holds tracker policy i I rely guar steps) (id actor : String)
    (reason : Option String) :
    Triple (perform tracker i) (terms I rely guar steps)
      (fun s => O.begun (.reject id actor reason) s.toBook) (Signing.reject id actor reason)
      (Ends (fun s => O.failed s.toBook) fun _ s => O.rejected id s.toBook) := by
  have hrejected := h.kept_rejected id
  unfold Signing.reject
  refine Triple.bind_ends h.frame (h.getPending (.reject id actor reason)) fun p => ?_
  refine Triple.bind_ends h.frame (h.writes (h.kept_read (.reject id actor reason) p) hrejected
    (fun _ s hs _ _ => h.read_failed _ _ _ hs) (h.saveRejected id actor reason p)) fun _ => ?_
  refine Triple.bind_ends h.frame (h.audit hrejected (h.rejected_failed id) _ _ _ _) fun _ => ?_
  exact Triple.pure_ends hrejected.stable fun _ _ hs => hs

end Outline.Holds

/-- What an outline says of the end of a call. -/
def Outline.post (O : Outline) (call : Call) : Except SigningError Outcome → Shared → Prop :=
  Ends (fun s => O.failed s.toBook) fun _ s =>
    match call with
    | .reject id _ _ => O.rejected id s.toBook
    | _ => O.closed s.toBook

/-- **The calls follow the outline.** -/
theorem Outline.Holds.code {O : Outline} {tracker : SpendTracker} {policy : SigningPolicy} {i : Nat}
    {I : Book → Prop} {rely guar : Book → Book → Prop}
    {steps : Request → Moment → Shared → Prop} (h : O.Holds tracker policy i I rely guar steps)
    (call : Call) :
    Triple (perform tracker i) (terms I rely guar steps) (fun s => O.begun call s.toBook)
      (call.code policy) (O.post call) := by
  cases call with
  | submit request => exact h.submit request
  | approve id approver => exact h.approve id approver
  | reject id actor reason => exact h.reject id actor reason

end Signing

end PaymentGateway
