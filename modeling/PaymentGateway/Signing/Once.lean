import PaymentGateway.Signing.Outline

/-!
# A request is signed at most once

A call decides on what it read of the row, and writes the row later; nothing keeps another call from
deciding in between, and a signature is made before it is saved. `Undecided` and `recording` say
when that does no harm: a call that signs, or saves an approval or a rejection, finds the row not
yet decided and no signature of the request waiting for its `SIGNED`.

**Theorem (`signed_once`).** In a run in which that holds of every such step, no id is signed twice,
and an id whose rejection has returned is never signed, whatever fails and whatever is tried again.

The invariant `Once` ties the journal to the store: while a signature is recorded, it is the only
one, and otherwise a signature shows as `SIGNED` in the row, and a rejection as `REJECTED`. Each call
counts on the others not to start or end a recording in its name.
-/

namespace PaymentGateway

namespace Signing

open Concurrent

/-- The row is missing or awaits approval. -/
def Undecided (row : Option PendingSigningRequest) : Prop :=
  ∀ entry ∈ row, entry.status = .pendingApproval

instance (row : Option PendingSigningRequest) : Decidable (Undecided row) :=
  inferInstanceAs (Decidable (∀ entry ∈ row, entry.status = .pendingApproval))

/-- What a decision of a call on a request finds. -/
def Unhindered (id : String) (b : Book) : Prop :=
  Undecided (b.store id) ∧ recording id b.journal = none

def Decides (r : Request) (b : Book) : Prop :=
  match r with
  | .sign request => Unhindered request.id b
  | .save entry => entry.status = .signed ∨ Unhindered entry.request.id b
  | _ => True

instance (id : String) (b : Book) : Decidable (Unhindered id b) :=
  inferInstanceAs (Decidable (_ ∧ _))

instance (r : Request) (b : Book) : Decidable (Decides r b) := by
  cases r <;> unfold Decides <;> infer_instance

/-- Calls that overlap in any way. -/
def interleaved : Rules Request Answer SigningError Outcome Call Moment Empty Shared where
  starts call s := Submitted call s.shared
  live _ _ := True
  steps _ _ m s := s.clock ≤ m.now
  happens _ _ := True

/-- What is asked of a step, so that calls do not get in each other's way. -/
def undisturbedSteps (r : Request) (m : Moment) (s : Shared) : Prop :=
  s.clock ≤ m.now ∧ Decides r s.toBook

/-- Calls that do not get in each other's way. -/
def unhindered : Rules Request Answer SigningError Outcome Call Moment Empty Shared where
  starts call s := Submitted call s.shared
  live _ _ := True
  steps _ := undisturbedSteps
  happens _ _ := True

instance (move : Move Call Moment Empty) (s : State) : Decidable (interleaved.meets move s) :=
  have : ∀ call s, Decidable (interleaved.starts call s) := fun call s =>
    inferInstanceAs (Decidable (Submitted call s.shared))
  have : ∀ n i, Decidable (interleaved.live n i) := fun _ _ => inferInstanceAs (Decidable True)
  have : ∀ i r m s, Decidable (interleaved.steps i r m s) := fun _ _ m s =>
    inferInstanceAs (Decidable (s.clock ≤ m.now))
  have : ∀ e s, Decidable (interleaved.happens e s) := fun _ _ => inferInstanceAs (Decidable True)
  inferInstance

instance (move : Move Call Moment Empty) (s : State) : Decidable (unhindered.meets move s) :=
  have : ∀ call s, Decidable (unhindered.starts call s) := fun call s =>
    inferInstanceAs (Decidable (Submitted call s.shared))
  have : ∀ n i, Decidable (unhindered.live n i) := fun _ _ => inferInstanceAs (Decidable True)
  have : ∀ i r m s, Decidable (unhindered.steps i r m s) := fun _ r m s =>
    inferInstanceAs (Decidable (s.clock ≤ m.now ∧ Decides r s.toBook))
  have : ∀ e s, Decidable (unhindered.happens e s) := fun _ _ => inferInstanceAs (Decidable True)
  inferInstance

/-! ## The invariant -/

structure Once (b : Book) : Prop where
  ids : ∀ id p, b.store id = some p → p.request.id = id
  during : ∀ id i, recording id b.journal = some i →
    (signatures id b.journal).length = 1 ∧ Undecided (b.store id)
  after : ∀ id, recording id b.journal = none → signatures id b.journal ≠ [] →
    (signatures id b.journal).length = 1 ∧ ∃ p, b.store id = some p ∧ p.status = .signed
  rejections : ∀ entry, Event.saved entry ∈ b.journal → entry.status = .rejected →
    ∃ p, b.store entry.request.id = some p ∧ p.status = .rejected

theorem Once.length_le {b : Book} (h : Once b) (id : String) :
    (signatures id b.journal).length ≤ 1 := by
  cases hrec : recording id b.journal with
  | some i => exact (h.during id i hrec).1.le
  | none =>
    by_cases hsigned : signatures id b.journal = []
    · simp [hsigned]
    · exact (h.after id hrec hsigned).1.le

/-- Nothing has been signed of a request that a call may decide about. -/
theorem Once.signatures_eq_nil {b : Book} (h : Once b) {id : String} (hid : Unhindered id b) :
    signatures id b.journal = [] := by
  by_contra hsigned
  obtain ⟨-, p, hp, hstatus⟩ := h.after id hid.2 hsigned
  have hpending := hid.1 p hp
  rw [hstatus] at hpending
  cases hpending

theorem Once.rejected {b : Book} (h : Once b) {entry : PendingSigningRequest}
    (hsaved : Event.saved entry ∈ b.journal) (hstatus : entry.status = .rejected) :
    signatures entry.request.id b.journal = [] := by
  obtain ⟨p, hp, hrejected⟩ := h.rejections entry hsaved hstatus
  by_contra hsigned
  cases hrec : recording entry.request.id b.journal with
  | some i =>
    have hpending := (h.during _ i hrec).2 p hp
    rw [hrejected] at hpending
    cases hpending
  | none =>
    obtain ⟨-, q, hq, hsignedStatus⟩ := h.after _ hrec hsigned
    rw [hp] at hq
    cases hq
    rw [hrejected] at hsignedStatus
    cases hsignedStatus

/-! ## One effect at a time -/

theorem Once.ids_update {b : Book} (h : Once b) (entry : PendingSigningRequest) (id : String)
    (p : PendingSigningRequest)
    (hp : Function.update b.store entry.request.id (some entry) id = some p) :
    p.request.id = id := by
  by_cases heq : id = entry.request.id
  · subst heq
    simp only [Function.update_self, Option.some.injEq] at hp
    rw [hp]
  · simp only [Function.update_of_ne heq] at hp
    exact h.ids id p hp

/-- A new signature. -/
theorem Once.sign {b : Book} (h : Once b) {request : SigningRequest} (i : Nat) (now : Int)
    (hid : Unhindered request.id b) :
    Once { b with journal := .signed i request now :: b.journal } := by
  refine ⟨h.ids, fun id j hrec => ?_, fun id hrec hsigned => ?_, fun entry hsaved => ?_⟩
  · by_cases hreq : request.id = id
    · subst hreq
      simp [signatures, h.signatures_eq_nil hid, hid.1]
    · simp only [recording, signatures, if_neg hreq] at hrec ⊢
      exact h.during id j hrec
  · by_cases hreq : request.id = id
    · simp [recording, hreq] at hrec
    · simp only [recording, signatures, if_neg hreq] at hrec hsigned ⊢
      exact h.after id hrec hsigned
  · simp only [List.mem_cons, reduceCtorEq, false_or] at hsaved
    exact h.rejections entry hsaved

/-- The row of a signature that was being recorded. -/
theorem Once.saveSigned {b : Book} (h : Once b) {entry : PendingSigningRequest} {i : Nat}
    (hrec : recording entry.request.id b.journal = some i) (hstatus : entry.status = .signed) :
    Once ⟨Function.update b.store entry.request.id (some entry), b.entries,
      .saved entry :: b.journal⟩ := by
  obtain ⟨hlength, hundecided⟩ := h.during _ i hrec
  refine ⟨h.ids_update entry, fun id j hj => ?_, fun id hj hsigned => ?_, fun e he hrejected => ?_⟩
  · by_cases hid : id = entry.request.id
    · simp [recording, hid, hstatus] at hj
    · simp only [recording, Ne.symm hid, false_and, if_false] at hj
      simpa [signatures, Function.update_of_ne hid] using h.during id j hj
  · by_cases hid : id = entry.request.id
    · subst hid
      simpa [signatures, hstatus] using hlength
    · simp only [recording, Ne.symm hid, false_and, if_false] at hj
      simpa [signatures, Function.update_of_ne hid] using h.after id hj (by simpa [signatures] using hsigned)
  · rcases List.mem_cons.1 he with heq | he
    · cases heq
      rw [hstatus] at hrejected
      cases hrejected
    · obtain ⟨p, hp, hpstatus⟩ := h.rejections e he hrejected
      by_cases hid : e.request.id = entry.request.id
      · rw [hid] at hp
        have hpending := hundecided p hp
        rw [hpstatus] at hpending
        cases hpending
      · exact ⟨p, by simpa [Function.update_of_ne hid] using hp, hpstatus⟩

/-- An approval or a rejection. -/
theorem Once.saveDecision {b : Book} (h : Once b) {entry : PendingSigningRequest}
    (hid : Unhindered entry.request.id b) (hstatus : entry.status ≠ .signed) :
    Once ⟨Function.update b.store entry.request.id (some entry), b.entries,
      .saved entry :: b.journal⟩ := by
  have hnone := h.signatures_eq_nil hid
  have hjournal : ∀ id, recording id (.saved entry :: b.journal) = recording id b.journal := by
    intro id
    simp [recording, hstatus]
  refine ⟨h.ids_update entry, fun id j hj => ?_, fun id hj hsigned => ?_, fun e he hrejected => ?_⟩
  · simp only [hjournal] at hj
    by_cases heq : id = entry.request.id
    · rw [heq, hid.2] at hj
      cases hj
    · simpa [signatures, Function.update_of_ne heq] using h.during id j hj
  · simp only [hjournal] at hj
    by_cases heq : id = entry.request.id
    · subst heq
      exact absurd hnone hsigned
    · simpa [signatures, Function.update_of_ne heq] using h.after id hj hsigned
  · by_cases heq : e.request.id = entry.request.id
    · rcases List.mem_cons.1 he with hnew | he
      · cases hnew
        exact ⟨entry, by simp, hrejected⟩
      · obtain ⟨p, hp, hpstatus⟩ := h.rejections e he hrejected
        rw [heq] at hp
        have hpending := hid.1 p hp
        rw [hpstatus] at hpending
        cases hpending
    · rcases List.mem_cons.1 he with hnew | he
      · cases hnew
        exact absurd rfl heq
      · obtain ⟨p, hp, hpstatus⟩ := h.rejections e he hrejected
        exact ⟨p, by simpa [Function.update_of_ne heq] using hp, hpstatus⟩

/-! ## What calls leave to one another -/

/-- Between two states, nothing is recorded in the name of a call. -/
def Undisturbed (i : Nat) (b b' : Book) : Prop :=
  b.journal <:+ b'.journal ∧
    ∀ id, recording id b.journal = some i ↔ recording id b'.journal = some i

/-- A call records in its own name. -/
def Considerate (i : Nat) (b b' : Book) : Prop := ∀ j, j ≠ i → Undisturbed j b b'

theorem Undisturbed.refl (i : Nat) (b : Book) : Undisturbed i b b :=
  ⟨List.suffix_rfl, fun _ => Iff.rfl⟩

theorem Undisturbed.trans {i : Nat} {b b' b'' : Book} (h : Undisturbed i b b')
    (h' : Undisturbed i b' b'') : Undisturbed i b b'' :=
  ⟨h.1.trans h'.1, fun id => (h.2 id).trans (h'.2 id)⟩

/-- The call has nothing to record. -/
def Idle (i : Nat) (b : Book) : Prop := ∀ id, recording id b.journal ≠ some i

def Recording (i : Nat) (id : String) (b : Book) : Prop := recording id b.journal = some i

theorem Idle.undisturbed {i : Nat} {b b' : Book} (h : Idle i b) (hb : Undisturbed i b b') :
    Idle i b' :=
  fun id hid => h id ((hb.2 id).2 hid)

theorem Recording.undisturbed {i : Nat} {id : String} {b b' : Book} (h : Recording i id b)
    (hb : Undisturbed i b b') : Recording i id b' :=
  (hb.2 id).1 h

/-! ## The requests -/

section Calls

variable {tracker : SpendTracker} {policy : SigningPolicy} {i : Nat}

/-- A journal entry that changes what is recorded of one request, in the name of one call. -/
theorem considerate_of {b b' : Book} {event : Event} (id : String)
    (hjournal : b'.journal = event :: b.journal)
    (hothers : ∀ id', id' ≠ id → recording id' b'.journal = recording id' b.journal)
    (hbefore : ∀ j, j ≠ i → recording id b.journal ≠ some j)
    (hafter : ∀ j, j ≠ i → recording id b'.journal ≠ some j) : Considerate i b b' := by
  intro j hj
  refine ⟨hjournal ▸ List.suffix_cons event b.journal, fun id' => ?_⟩
  by_cases heq : id' = id
  · subst heq
    exact iff_of_false (hbefore j hj) (hafter j hj)
  · rw [hothers id' heq]

/-- A rejection has been saved. -/
def RejectionSaved (id : String) (b : Book) : Prop :=
  ∃ entry, Event.saved entry ∈ b.journal ∧ entry.status = .rejected ∧ entry.request.id = id

theorem RejectionSaved.suffix {id : String} {b b' : Book} (h : RejectionSaved id b)
    (hb : b.journal <:+ b'.journal) : RejectionSaved id b' := by
  obtain ⟨entry, hentry, hrest⟩ := h
  exact ⟨entry, hb.subset hentry, hrest⟩

/-- A call that has read a row of its id has nothing to record, until it signs. -/
def onceOutline (i : Nat) : Outline where
  begun _ := Idle i
  read call p b := Idle i b ∧ p.request.id = call.requestId ∧ p.status = .pendingApproval
  checked _ _ := Idle i
  ready _ := Idle i
  signed request := Recording i request.id
  recorded request := Recording i request.id
  closed _ := True
  rejected := RejectionSaved
  failed _ := True

theorem Once.signStep {m : Moment} {s : Shared} (h : Once s.toBook) (request : SigningRequest)
    (hm : undisturbedSteps (.sign request) m s) :
    (onceOutline i).Step Once (Considerate i) i m s.toBook (.sign request)
      ((onceOutline i).signed request) := by
  have hnow : recording request.id (Event.signed i request m.now :: s.journal) = some i := by
    simp [recording]
  refine ⟨h.sign i m.now hm.2, ?_, fun _ => hnow, fun _ => trivial⟩
  refine considerate_of request.id rfl ?_ ?_ ?_
  · intro id' hid
    simp [effect, recording, Ne.symm hid]
  · intro j _
    simp [hm.2.2]
  · intro j hj hrec
    exact hj (Option.some.inj (hnow.symm.trans hrec)).symm

theorem Once.recordStep {m : Moment} {b : Book} (h : Once b) (request : SigningRequest)
    (hb : Recording i request.id b) :
    (onceOutline i).Step Once (Considerate i) i m b
      (.record request.merchantId request.network request.amount request.requestedAt)
      ((onceOutline i).recorded request) :=
  ⟨⟨h.ids, h.during, h.after, h.rejections⟩, fun _ _ => ⟨List.suffix_rfl, fun _ => Iff.rfl⟩,
    fun _ => hb, fun _ => trivial⟩

theorem Once.saveSignedStep {m : Moment} {b : Book} (h : Once b) (request : SigningRequest)
    (approvals : List String) (hb : Recording i request.id b) :
    (onceOutline i).Step Once (Considerate i) i m b
      (.save ⟨request, .signed, approvals, none, none⟩) (onceOutline i).closed := by
  refine ⟨h.saveSigned hb rfl, ?_, fun _ => trivial, fun _ => trivial⟩
  refine considerate_of request.id rfl ?_ ?_ ?_
  · intro id' hid
    simp [effect, recording, Ne.symm hid]
  · intro j hj hrec
    exact hj (Option.some.inj (hb.symm.trans hrec)).symm
  · intro j _
    simp [effect, recording]

theorem Once.saveDecisionStep {m : Moment} {s : Shared} (h : Once s.toBook)
    {entry : PendingSigningRequest} (hstatus : entry.status ≠ .signed)
    (hm : undisturbedSteps (.save entry) m s) {next : Book → Prop}
    (hnext : Event.saved entry ∈ (effect i m s.toBook (.save entry)).journal →
      next (effect i m s.toBook (.save entry))) :
    (onceOutline i).Step Once (Considerate i) i m s.toBook (.save entry) next := by
  have hsame : ∀ id, recording id (Event.saved entry :: s.journal) = recording id s.journal := by
    intro id
    simp [recording, hstatus]
  refine ⟨h.saveDecision (hm.2.resolve_left hstatus) hstatus,
    fun j _ => ⟨List.suffix_cons _ _, fun id => ?_⟩, fun _ => hnext List.mem_cons_self,
    fun _ => trivial⟩
  show recording id s.journal = some j ↔ recording id (.saved entry :: s.journal) = some j
  rw [hsame]

theorem once_holds (tracker : SpendTracker) (policy : SigningPolicy) (i : Nat) :
    (onceOutline i).Holds tracker policy i Once (Undisturbed i) (Considerate i)
      undisturbedSteps where
  refl := Undisturbed.refl i
  trans _ _ _ h h' := h.trans h'
  guar_refl b j _ := Undisturbed.refl j b
  kept_begun _ _ _ hb _ := hb.undisturbed
  kept_read _ _ _ _ hb _ hrely := ⟨hb.1.undisturbed hrely, hb.2⟩
  kept_checked _ _ _ _ hb _ := hb.undisturbed
  kept_ready _ _ _ hb _ := hb.undisturbed
  kept_signed _ _ _ hb _ := hb.undisturbed
  kept_recorded _ _ _ hb _ := hb.undisturbed
  kept_closed _ _ _ _ _ := trivial
  kept_rejected _ _ _ hb _ hrely := hb.suffix hrely.1
  kept_failed _ _ _ _ _ := trivial
  begun_failed _ _ _ := trivial
  read_failed _ _ _ _ := trivial
  checked_failed _ _ _ _ := trivial
  ready_failed _ _ _ := trivial
  recorded_failed _ _ _ := trivial
  closed_failed _ _ := trivial
  rejected_failed _ _ _ := trivial
  read_closed _ _ _ _ := trivial
  get _ p _ hI hb hp hstatus := ⟨hb, hI.ids _ p hp, hstatus⟩
  draft _ _ hb _ := ⟨hb, rfl, rfl⟩
  check _ _ _ _ _ hb _ _ _ := hb.1
  submitted _ _ hb _ := hb
  approved _ _ _ _ hb _ _ _ := hb
  sign request _ _ hI _ hm := hI.signStep request hm
  record request _ _ hI hb _ := hI.recordStep request hb
  record_failed _ _ _ _ _ _ := trivial
  saveSigned request approvals _ _ hI hb _ := hI.saveSignedStep request approvals hb
  savePending _ _ _ hI _ hm := hI.saveDecisionStep (by simp [draft]) hm fun _ => trivial
  saveApproval _ _ _ _ _ hI hb _ _ hm := hI.saveDecisionStep (by simp [hb.2.2]) hm fun _ => trivial
  saveRejected _ _ _ _ _ _ hI hb hm :=
    hI.saveDecisionStep (by simp) hm fun hsaved => ⟨_, hsaved, rfl, hb.2.1⟩

end Calls

/-! ## Runs -/

section Runs

open Program

variable {tracker : SpendTracker} {policy : SigningPolicy} {clock : Int} {s : State}

theorem mem_of_recording {id : String} {i : Nat} {journal : List Event}
    (h : recording id journal = some i) :
    ∃ request now, Event.signed i request now ∈ journal := by
  induction journal with
  | nil => cases h
  | cons event journal ih =>
    have hrest : recording id journal = some i →
        ∃ request now, Event.signed i request now ∈ event :: journal := by
      intro h
      obtain ⟨request, now, hmem⟩ := ih h
      exact ⟨request, now, List.mem_cons_of_mem _ hmem⟩
    cases event with
    | began call => exact hrest h
    | saved entry =>
      simp only [recording] at h
      split_ifs at h
      exact hrest h
    | signed j request now =>
      simp only [recording] at h
      split_ifs at h
      · cases h
        exact ⟨request, now, List.mem_cons_self⟩
      · exact hrest h

/-- A performed request signs in the name of its call only. -/
theorem mem_perform {i j : Nat} {r : Request} {m : Moment} {b : Shared} {request : SigningRequest}
    {now : Int} (h : Event.signed j request now ∈ (perform tracker i r m b).2.journal) :
    j = i ∨ Event.signed j request now ∈ b.journal := by
  have heffect : Event.signed j request now ∈ (effect i m b.toBook r).journal →
      j = i ∨ Event.signed j request now ∈ b.journal := by
    intro h
    cases r with
    | sign request' =>
      rcases List.mem_cons.1 h with heq | h
      · cases heq
        exact .inl rfl
      · exact .inr h
    | save entry =>
      rcases List.mem_cons.1 h with heq | h
      · cases heq
      · exact .inr h
    | _ => exact .inr h
  unfold perform at h
  cases hfate : m.fate with
  | answered => rw [hfate] at h; exact heffect h
  | failed e => rw [hfate] at h; exact .inr h
  | failedLate e => rw [hfate] at h; exact heffect h

/-- Only calls that have begun have signed. -/
theorem signed_lt {R : Rules Request Answer SigningError Outcome Call Moment Empty Shared}
    (h : (system tracker policy).Reachable R (start clock) s) {j : Nat} {request : SigningRequest}
    {now : Int} (hmem : Event.signed j request now ∈ s.shared.journal) : j < s.calls.length := by
  refine System.Reachable.induction (P := fun s => ∀ j request now,
    Event.signed j request now ∈ s.shared.journal → j < s.calls.length) h ?_ ?_ j request now hmem
  · intro j request now hmem
    cases hmem
  · intro move a b _ ih _ happly j request now hmem
    cases move with
    | environment e => cases e
    | start call =>
      cases happly
      rw [List.length_append]
      rcases List.mem_cons.1 hmem with heq | hmem
      · cases heq
      · exact Nat.lt_add_right _ (ih j request now hmem)
    | step i m =>
      obtain ⟨call, r, next, hcall, rfl⟩ := System.apply_step happly
      rw [List.length_set]
      rcases mem_perform hmem with rfl | hmem
      · exact (List.getElem?_eq_some_iff.1 hcall).1
      · exact ih j request now hmem

theorem once_compatible (tracker : SpendTracker) (policy : SigningPolicy) (clock : Int) :
    Compatible (system tracker policy) unhindered (start clock) (fun s => Once s.toBook)
      (fun i s s' => Undisturbed i s.toBook s'.toBook)
      (fun i _ _ s s' => Considerate i s.toBook s'.toBook) (fun i _ s => Idle i s.toBook)
      (fun i => (onceOutline i).post) where
  lawful i _ := (once_holds tracker policy i).frame.toLawful
  code i call := (once_holds tracker policy i).code call
  live _ _ _ _ := trivial
  others _ i j _ r s s' hij _ _ _ _ hguar := hguar i hij
  environment e := nomatch e
  start call s hreach hgood _ := by
    have hbegan : ∀ i, Undisturbed i s.shared.toBook (enter s.calls.length call s.shared).toBook :=
      fun i => ⟨List.suffix_cons _ _, fun _ => Iff.rfl⟩
    have hinv : Once (enter s.calls.length call s.shared).toBook := by
      refine ⟨hgood.invariant.ids, hgood.invariant.during, hgood.invariant.after, ?_⟩
      intro entry hentry
      rcases List.mem_cons.1 hentry with heq | hentry
      · cases heq
      · exact hgood.invariant.rejections entry hentry
    refine ⟨hinv, fun id hrec => ?_, fun i _ _ => hbegan i⟩
    obtain ⟨request, now, hmem⟩ := mem_of_recording hrec
    rcases List.mem_cons.1 hmem with heq | hmem
    · cases heq
    · exact Nat.lt_irrefl _ (signed_lt hreach hmem)

/-- **At most one signature** of a request, and none of one that was rejected, in every run in which
what signs or decides finds the row undecided and no signature waiting to be saved. -/
theorem signed_once (h : (system tracker policy).Reachable unhindered (start clock) s)
    (id : String) :
    (signatures id s.shared.journal).length ≤ 1 ∧
    ∀ actorId reason entry, (Call.reject id actorId reason, .done (.ok entry)) ∈ s.calls →
      signatures id s.shared.journal = [] := by
  have hgood := Good.of_reachable (once_compatible tracker policy clock) (by
    refine ⟨?_, ?_, ?_, ?_⟩
    all_goals
      intros
      simp_all [start, Book.empty, recording, signatures]) h
  refine ⟨hgood.invariant.length_le id, fun actorId reason entry hcall => ?_⟩
  obtain ⟨i, hi⟩ := List.mem_iff_getElem?.1 hcall
  have hpost := hgood.done (once_compatible tracker policy clock) hi trivial
  obtain ⟨rejected, hsaved, hstatus, rfl⟩ := hpost
  exact hgood.invariant.rejected hsaved hstatus

end Runs

/-! ## Two approvals that overlap -/

namespace Vault

open Program

theorem signed_once_vault :
    let journal := ((system .prisma policy).after decided (start 0)).shared.journal
    signatures "req_1" journal = [request 1 0] ∧ (signatures "req_1" journal).length ≤ 1 ∧
      signatures "req_2" journal = [] := by
  have hrun : (system .prisma policy).Reachable unhindered (start 0)
      ((system .prisma policy).after decided (start 0)) :=
    System.reachable_after (by decide +kernel)
  have hrejected : (Call.reject "req_2" "carol" none, Program.done (.ok (.pending
      ⟨request 2 2, .rejected, [], some "carol", none⟩))) ∈
        ((system .prisma policy).after decided (start 0)).calls :=
    List.mem_of_getElem? (i := 4) rfl
  exact ⟨by decide +kernel, (signed_once hrun "req_1").1, (signed_once hrun "req_2").2 _ _ _ hrejected⟩

/-- Carol's approval is saved; Bob and Dave both read the row before either of them has signed. -/
def overlapping : List (Move Call Moment Empty) :=
  .start (.submit (request 1 0)) :: steps 0 3 0 ++
  .start (.approve "req_1" "carol") :: steps 1 3 1 ++
  [.start (.approve "req_1" "bob"), .start (.approve "req_1" "dave")] ++
  steps 2 1 2 ++ steps 3 1 2 ++ steps 2 3 2 ++ steps 3 3 2

/-- Both sign, each of them the last approval that was needed. -/
theorem signed_twice : ∃ s : State,
    (system .prisma policy).Reachable interleaved (start 0) s ∧
      (signatures "req_1" s.shared.journal).length = 2 :=
  ⟨(system .prisma policy).after overlapping (start 0),
    System.reachable_after (by decide +kernel), by decide +kernel⟩

end Vault

end Signing

end PaymentGateway
