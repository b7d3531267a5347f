import PaymentGateway.Webhooks.Dispatcher

/-!
# Chains of attempts

The attempts of an event at an endpoint are numbered from one. Each was preceded by one that was
given up, and the endpoint's budget covers all of them (`Chain`).

**Theorem (`Chain.answer`).** A statement that is issued soundly keeps the chains and moves every row
along the status diagram only (`Progresses`). What a statement has to do with the chains is in
`Sound`: a status that is written follows from the one that is found, `FAILED` is written with budget
left, and an attempt is inserted after one that was given up.
-/

namespace PaymentGateway

namespace Webhooks

open Keyed

/-! ## Statuses -/

/-- What a status may come to, in any number of steps. -/
def WebhookDeliveryStatus.Becomes (status status' : WebhookDeliveryStatus) : Prop :=
  status = status' ∨ status = .pending ∨ (status = .inFlight ∧ status' ≠ .pending) ∨
    (status = .failed ∧ status' = .abandoned)
  deriving Decidable

/-- An attempt that another one may follow. -/
def WebhookDeliveryStatus.GivenUp (status : WebhookDeliveryStatus) : Prop :=
  status = .failed ∨ status = .abandoned
  deriving Decidable

/-- Nothing is left to be done. -/
def WebhookDeliveryStatus.Terminal (status : WebhookDeliveryStatus) : Prop :=
  status = .delivered ∨ status = .exhausted ∨ status = .abandoned
  deriving Decidable

namespace WebhookDeliveryStatus

variable {status status' status'' : WebhookDeliveryStatus}

theorem Becomes.refl (status : WebhookDeliveryStatus) : status.Becomes status := .inl rfl

theorem Becomes.trans (h : status.Becomes status') (h' : status'.Becomes status'') :
    status.Becomes status'' := by
  cases status <;> cases status' <;> cases status'' <;> simp_all [Becomes]

theorem GivenUp.becomes (h : status.GivenUp) (h' : status.Becomes status') : status'.GivenUp := by
  rcases h with rfl | rfl <;> simp_all [Becomes, GivenUp]
  rcases h' with rfl | rfl <;> simp

theorem Terminal.becomes (h : status.Terminal) (h' : status.Becomes status') :
    status' = status := by
  rcases h with rfl | rfl | rfl <;> simpa [Becomes, eq_comm] using h'

end WebhookDeliveryStatus

theorem DeliveryId.next_injective : Function.Injective DeliveryId.next := by
  intro id id' h
  simp only [next, DeliveryId.mk.injEq, Nat.add_right_cancel_iff] at h
  cases id
  cases id'
  simpa using h

/-! ## The invariant, and what steps do -/

/-- The endpoint is there, with this many attempts. -/
def Allows (s : Shared) (endpointId : String) (maxAttempts : Nat) : Prop :=
  ∃ endpoint, s.endpoints.find? endpointId = some endpoint ∧ endpoint.maxAttempts = maxAttempts

/-- The row is there and was given up. -/
def WasGivenUp (s : Shared) (id : DeliveryId) : Prop :=
  ∃ row, s.deliveries.find? id = some row ∧ row.status.GivenUp

/-- The endpoint's budget covers an attempt; one that failed is not the last. -/
structure WithinBudget (s : Shared) (id : DeliveryId) (status : WebhookDeliveryStatus) : Prop where
  first : 1 ≤ id.attempt
  last : ∃ maxAttempts, Allows s id.endpointId maxAttempts ∧ id.attempt ≤ maxAttempts ∧
    (status = .failed → id.attempt < maxAttempts)

structure Chain (s : Shared) : Prop where
  budget : ∀ id row, s.deliveries.find? id = some row → WithinBudget s id row.status
  previous : ∀ id : DeliveryId, 1 ≤ id.attempt → (s.deliveries.find? id.next).isSome →
    WasGivenUp s id

/-- Rows and endpoints stay, statuses move along the diagram, and budgets are fixed. -/
structure Progresses (s s' : Shared) : Prop where
  deliveries : ∀ id row, s.deliveries.find? id = some row →
    ∃ row', s'.deliveries.find? id = some row' ∧ row.status.Becomes row'.status
  endpoints : ∀ endpointId maxAttempts, Allows s endpointId maxAttempts →
    Allows s' endpointId maxAttempts

theorem Progresses.refl (s : Shared) : Progresses s s :=
  ⟨fun _ row h => ⟨row, h, .refl _⟩, fun _ _ h => h⟩

theorem Progresses.trans {s s' s'' : Shared} (h : Progresses s s') (h' : Progresses s' s'') :
    Progresses s s'' := by
  refine ⟨fun id row hrow => ?_, fun _ _ hallows => h'.endpoints _ _ (h.endpoints _ _ hallows)⟩
  obtain ⟨row', hrow', hstatus⟩ := h.deliveries id row hrow
  obtain ⟨row'', hrow'', hstatus'⟩ := h'.deliveries id row' hrow'
  exact ⟨row'', hrow'', hstatus.trans hstatus'⟩

theorem WasGivenUp.progresses {s s' : Shared} {id : DeliveryId} (h : WasGivenUp s id)
    (hs : Progresses s s') : WasGivenUp s' id := by
  obtain ⟨row, hrow, hgiven⟩ := h
  obtain ⟨row', hrow', hstatus⟩ := hs.deliveries id row hrow
  exact ⟨row', hrow', hgiven.becomes hstatus⟩

/-- A step that moves rows along the diagram keeps the chains, if what it inserts, and what it
writes `FAILED` to, is within the budget, and what it inserts follows what was given up. -/
theorem Chain.progresses {s s' : Shared} (h : Chain s) (hs : Progresses s s')
    (hbudget : ∀ id row', s'.deliveries.find? id = some row' →
      (∃ row, s.deliveries.find? id = some row ∧ (row'.status = .failed → row.status = .failed)) ∨
        WithinBudget s id row'.status)
    (hnew : ∀ id : DeliveryId, 1 ≤ id.attempt → (s'.deliveries.find? id.next).isSome →
      (s.deliveries.find? id.next).isSome ∨ WasGivenUp s id) : Chain s' where
  budget id row' hrow' := by
    have hwithin : WithinBudget s id row'.status := by
      rcases hbudget id row' hrow' with ⟨row, hrow, hfailed⟩ | hwithin
      · obtain ⟨hfirst, maxAttempts, hallows, hle, hlt⟩ := h.budget id row hrow
        exact ⟨hfirst, maxAttempts, hallows, hle, fun hstatus => hlt (hfailed hstatus)⟩
      · exact hwithin
    obtain ⟨hfirst, maxAttempts, hallows, hlast⟩ := hwithin
    exact ⟨hfirst, maxAttempts, hs.endpoints _ _ hallows, hlast⟩
  previous id hfirst hsome := by
    rcases hnew id hfirst hsome with hold | hgiven
    · exact (h.previous id hfirst hold).progresses hs
    · exact hgiven.progresses hs

/-- What keeps every delivery keeps the chains. -/
theorem Chain.of_deliveries_eq {s s' : Shared} (h : Chain s) (hs : Progresses s s')
    (hdeliveries : s'.deliveries = s.deliveries) : Chain s' := by
  refine h.progresses hs (fun id row' hrow' => ?_) (fun id _ hsome => ?_)
  · rw [hdeliveries] at hrow'
    exact .inl ⟨row', hrow', fun h => h⟩
  · rw [hdeliveries] at hsome
    exact .inl hsome

theorem Chain.empty : Chain Shared.empty := by
  refine ⟨fun id row hrow => ?_, fun id _ hsome => ?_⟩
  · cases hrow
  · cases hsome

/-! ## Kinds of steps -/

/-- Rewriting rows in place. -/
theorem Chain.rewrite {s s' : Shared} (h : Chain s) {f : DeliveryId → WebhookDelivery → WebhookDelivery}
    (hendpoints : s'.endpoints = s.endpoints)
    (hfind : ∀ id, s'.deliveries.find? id = (s.deliveries.find? id).map (f id))
    (hstatus : ∀ id row, s.deliveries.find? id = some row →
      row.status.Becomes (f id row).status ∧
        ((f id row).status = .failed → row.status = .failed ∨ WithinBudget s id .failed)) :
    Chain s' ∧ Progresses s s' := by
  have hs : Progresses s s' := by
    refine ⟨fun id row hrow => ⟨f id row, by simp [hfind, hrow], (hstatus id row hrow).1⟩, ?_⟩
    intro endpointId maxAttempts hallows
    simpa only [Allows, hendpoints] using hallows
  refine ⟨h.progresses hs (fun id row' hrow' => ?_) (fun id _ hsome => ?_), hs⟩
  · rw [hfind, Option.map_eq_some_iff] at hrow'
    obtain ⟨row, hrow, rfl⟩ := hrow'
    by_cases hfailed : (f id row).status = .failed
    · rcases (hstatus id row hrow).2 hfailed with hold | hwithin
      · exact .inl ⟨row, hrow, fun _ => hold⟩
      · exact .inr (hfailed ▸ hwithin)
    · exact .inl ⟨row, hrow, fun h => absurd h hfailed⟩
  · rw [hfind, Option.isSome_map] at hsome
    exact .inl hsome

/-- Changing endpoints, whose budgets are kept. -/
theorem Progresses.updateEndpoint (s : Shared) (id : String) {f : WebhookEndpoint → WebhookEndpoint}
    (hf : ∀ endpoint, (f endpoint).id = endpoint.id)
    (hmax : ∀ endpoint, (f endpoint).maxAttempts = endpoint.maxAttempts) :
    Progresses s (s.updateEndpoint id f hf) := by
  refine ⟨fun _ row hrow => ⟨row, hrow, .refl _⟩, ?_⟩
  rintro endpointId _ ⟨endpoint, hfind, rfl⟩
  refine ⟨if endpointId = id then f endpoint else endpoint, ?_, ?_⟩
  · simp [s.find?_updateEndpoint id hf, hfind]
  · split
    · exact hmax endpoint
    · rfl

/-! ## Statements -/

/-- How a statement has to fit the chains. -/
def Sound (s : Shared) : Statement → Prop
  | .updateDelivery id data => ∀ status ∈ data.status, ∀ row, s.deliveries.find? id = some row →
      row.status.Becomes status ∧ (status = .failed → WithinBudget s id .failed)
  | .upsertDelivery id _ _ => WithinBudget s id .pending ∧
      ∀ before : DeliveryId, 1 ≤ before.attempt → id = before.next → WasGivenUp s before
  | _ => True

theorem Chain.updateDelivery {s : Shared} (h : Chain s) {id : DeliveryId} {data : DeliveryUpdate}
    (hsound : Sound s (.updateDelivery id data)) (at_ : Int) :
    Chain (s.updateDelivery id data at_) ∧ Progresses s (s.updateDelivery id data at_) := by
  refine h.rewrite rfl (s.find?_updateDelivery id data at_) fun id' row hrow => ?_
  by_cases hid : id' = id
  · subst hid
    simp only [if_true, DeliveryUpdate.apply]
    cases hdata : data.status with
    | none => exact ⟨.refl _, fun hfailed => .inl hfailed⟩
    | some status =>
      obtain ⟨hbecomes, hwithin⟩ := hsound status hdata row hrow
      exact ⟨hbecomes, fun hfailed => .inr (hwithin hfailed)⟩
  · simp only [hid, if_false]
    exact ⟨.refl _, fun hfailed => .inl hfailed⟩

theorem Chain.sweep {s : Shared} (h : Chain s) (endpointId : String) (at_ : Int) :
    Chain (s.sweep endpointId at_) ∧ Progresses s (s.sweep endpointId at_) := by
  refine h.rewrite rfl (s.find?_sweep endpointId at_) fun id row _ => ?_
  unfold Webhooks.sweep
  split
  · rename_i hpending
    exact ⟨.inr (.inl hpending.2), fun hfailed => by cases hfailed⟩
  · exact ⟨.refl _, fun hfailed => .inl hfailed⟩

theorem Chain.insert {s : Shared} (h : Chain s) {id : DeliveryId} {url : String} {now : Int}
    (hsound : Sound s (.upsertDelivery id url now)) (hnone : s.deliveries.find? id = none)
    (at_ : Int) : Chain (s.insertDelivery id url now at_ hnone) ∧
      Progresses s (s.insertDelivery id url now at_ hnone) := by
  have hfind := s.find?_insertDelivery url now at_ hnone
  have hs : Progresses s (s.insertDelivery id url now at_ hnone) := by
    refine ⟨fun id' row hrow => ⟨row, ?_, .refl _⟩, fun _ _ h => h⟩
    rw [hfind, if_neg (by rintro rfl; simp [hnone] at hrow), hrow]
  refine ⟨h.progresses hs (fun id' row' hrow' => ?_) (fun id' hfirst hsome => ?_), hs⟩
  · by_cases hid : id = id'
    · subst hid
      rw [hfind, if_pos rfl] at hrow'
      cases hrow'
      exact .inr hsound.1
    · rw [hfind, if_neg hid] at hrow'
      exact .inl ⟨row', hrow', fun h => h⟩
  · by_cases hid : id = id'.next
    · exact .inr (hsound.2 id' hfirst hid)
    · rw [hfind, if_neg hid] at hsome
      exact .inl hsome

/-- A statement that is issued soundly keeps the chains. -/
theorem Chain.perform {s : Shared} (h : Chain s) {q : Statement} (hsound : Sound s q) (m : Moment) :
    Chain (perform s m q).2 ∧ Progresses s (perform s m q).2 := by
  have hendpoint : ∀ id (f : WebhookEndpoint → WebhookEndpoint) hf,
      (∀ endpoint, (f endpoint).maxAttempts = endpoint.maxAttempts) →
        Chain (s.updateEndpoint id f hf) ∧ Progresses s (s.updateEndpoint id f hf) :=
    fun id f hf hmax =>
      ⟨h.of_deliveries_eq (.updateEndpoint s id hf hmax) rfl, .updateEndpoint s id hf hmax⟩
  cases q with
  | upsertDelivery id url now =>
    simp only [Webhooks.perform]
    split
    · exact ⟨h, .refl s⟩
    · rename_i hnone
      exact h.insert hsound hnone m.now
  | updateDelivery id data =>
    simp only [Webhooks.perform]
    split
    · exact h.updateDelivery hsound m.now
    · exact ⟨h, .refl s⟩
  | claimDelivery id =>
    simp only [Webhooks.perform]
    split
    · rename_i hpending
      refine h.updateDelivery (fun status hstatus row hrow => ?_) m.now
      cases hstatus
      simp only [hrow, Option.any_some, decide_eq_true_eq] at hpending
      exact ⟨.inr (.inl hpending), fun hfailed => by cases hfailed⟩
    · exact ⟨h, .refl s⟩
  | abandonPending endpointId => exact h.sweep endpointId m.now
  | resetFailures endpointId =>
    simp only [Webhooks.perform]
    split
    · exact hendpoint _ _ _ fun _ => rfl
    · exact ⟨h, .refl s⟩
  | incrementFailures endpointId =>
    simp only [Webhooks.perform]
    split
    · exact hendpoint _ _ _ fun _ => rfl
    · exact ⟨h, .refl s⟩
  | disableEndpoint endpointId disabledAt disabledReason =>
    simp only [Webhooks.perform]
    split
    · exact hendpoint _ _ _ fun _ => rfl
    · exact ⟨h, .refl s⟩
  | _ => exact ⟨h, .refl s⟩

/-- Whether a statement takes effect. -/
def Fate.effective : Fate → Prop
  | .failed _ => False
  | _ => True

instance (fate : Fate) : Decidable fate.effective := by
  cases fate <;> unfold Fate.effective <;> infer_instance

/-- The same for a request, of which only a statement that takes effect counts. -/
theorem Chain.answer {s : Shared} (h : Chain s) {r : Request} {m : Moment}
    (hsound : ∀ q, r = .statement q → m.fate.effective → Sound s q) :
    Chain (answer r m s).2 ∧ Progresses s (answer r m s).2 := by
  cases r with
  | statement q =>
    simp only [Webhooks.answer]
    cases hfate : m.fate with
    | answered => exact h.perform (hsound q rfl (by rw [hfate]; trivial)) m
    | failed message => exact ⟨h, .refl s⟩
    | failedLate message => exact h.perform (hsound q rfl (by rw [hfate]; trivial)) m
  | _ => exact ⟨h, .refl s⟩

/-- A request that is no statement leaves the tables alone. -/
theorem answer_outside {r : Request} (hr : ∀ q, r ≠ .statement q) (m : Moment) (s : Shared) :
    (answer r m s).2 = s := by
  cases r with
  | statement q => exact absurd rfl (hr q)
  | _ => rfl

/-- Merchants change no delivery, and no budget. -/
theorem deliveries_change (c : Change) (s : Shared) : (change c s).deliveries = s.deliveries := by
  cases c with
  | emit event => simp only [change]; split <;> rfl
  | create endpoint => simp only [change]; split <;> rfl
  | update => rfl
  | rotateSecret => rfl

theorem Progresses.change (c : Change) (s : Shared) : Progresses s (change c s) := by
  cases c with
  | emit event =>
    simp only [Webhooks.change]
    split
    · exact .refl s
    · exact ⟨fun _ row hrow => ⟨row, hrow, .refl _⟩, fun _ _ h => h⟩
  | create endpoint =>
    simp only [Webhooks.change]
    split
    · exact .refl s
    · rename_i hnone
      refine ⟨fun _ row hrow => ⟨row, hrow, .refl _⟩, ?_⟩
      rintro endpointId _ ⟨old, hold, rfl⟩
      refine ⟨old, ?_, rfl⟩
      rw [Table.find?_insert, if_neg (by rintro rfl; simp [hnone] at hold), hold]
  | update id enabled eventTypes now =>
    refine .updateEndpoint s id _ fun endpoint => ?_
    unfold updated
    split <;> rfl
  | rotateSecret id secretEncrypted => exact .updateEndpoint s id _ fun _ => rfl

theorem Chain.change {s : Shared} (h : Chain s) (c : Change) : Chain (change c s) :=
  h.of_deliveries_eq (.change c s) (deliveries_change c s)

end Webhooks

end PaymentGateway
