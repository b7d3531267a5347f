import PaymentGateway.Webhooks.Chain

/-!
# Several dispatchers

Any number of workers run poll cycles against the same tables, their statements interleaved in any
order, and statements may fail. Terminal statuses are not absorbing then (`delivered_overwritten`):
recovery and finalization are unconditional writes, and a worker that is slow enough to be taken for
crashed comes back to a row that somebody else has finalized; so does the handler of a success that
was recorded but whose last statement failed.

**Theorem (`terminal_absorbing`).** In every run in which a finalization finds its row in flight, and
a delivery that is abandoned before it is sent is still pending, terminal statuses are never changed,
and nothing ever follows an attempt that was delivered.

Everything else is as the code has it: claims, promotions and the sweep of a disabled endpoint need
no condition, because what they write follows from any status they can find.
-/

namespace PaymentGateway

namespace Webhooks

open Program Keyed Concurrent

/-! ## The rules -/

/-- Workers that overlap in any way. -/
def interleaved :
    Rules Request Answer DispatchError WebhookDispatchSummary Unit Moment Change Shared where
  starts _ _ := True
  live _ _ := True
  steps _ _ _ _ := True
  happens _ _ := True

/-- A status that is written finds the row as the worker left it. -/
def InPlace : Request → Moment → Shared → Prop
  | .statement (.updateDelivery id data), m, s => m.fate.effective →
    ∀ status ∈ data.expects, ∀ row ∈ s.deliveries.find? id, row.status = status
  | _, _, _ => True

instance (r : Request) (m : Moment) (s : Shared) : Decidable (InPlace r m s) := by
  unfold InPlace
  split <;> infer_instance

/-- Nobody takes a row from the worker that has it. -/
def undisturbed :
    Rules Request Answer DispatchError WebhookDispatchSummary Unit Moment Change Shared where
  starts _ _ := True
  live _ _ := True
  steps _ := InPlace
  happens _ _ := True

instance (move : Move Unit Moment Change) (s : State) : Decidable (interleaved.meets move s) :=
  have : ∀ l s, Decidable (interleaved.starts l s) := fun _ _ => inferInstanceAs (Decidable True)
  have : ∀ n i, Decidable (interleaved.live n i) := fun _ _ => inferInstanceAs (Decidable True)
  have : ∀ i r m s, Decidable (interleaved.steps i r m s) :=
    fun _ _ _ _ => inferInstanceAs (Decidable True)
  have : ∀ e s, Decidable (interleaved.happens e s) := fun _ _ => inferInstanceAs (Decidable True)
  inferInstance

instance (move : Move Unit Moment Change) (s : State) : Decidable (undisturbed.meets move s) :=
  have : ∀ l s, Decidable (undisturbed.starts l s) := fun _ _ => inferInstanceAs (Decidable True)
  have : ∀ n i, Decidable (undisturbed.live n i) := fun _ _ => inferInstanceAs (Decidable True)
  have : ∀ i r m s, Decidable (undisturbed.steps i r m s) :=
    fun _ r m s => inferInstanceAs (Decidable (InPlace r m s))
  have : ∀ e s, Decidable (undisturbed.happens e s) := fun _ _ => inferInstanceAs (Decidable True)
  inferInstance

/-! ## Runs -/

/-- A worker among others counts on nothing but the condition. -/
theorem undisturbed_discipline (i : Nat) :
    Discipline (fun _ _ _ => True) Progresses (undisturbed.steps i) where
  refl := .refl
  trans _ _ _ := .trans
  progresses _ _ h := h
  stable _ _ := Stable.fact True
  read _ _ _ _ := trivial
  kept _ _ _ _ _ _ := trivial
  found _ _ status _ _ hm heffective hexpects _ row hrow := hm heffective status hexpects row hrow
  unrecorded _ _ _ _ _ _ _ _ := trivial
  unreset _ _ _ _ _ _ _ _ _ := trivial

theorem undisturbed_compatible (o : WebhookDispatcherOptions) :
    Compatible (system o) undisturbed Shared.empty Chain (fun _ => Progresses)
      (fun _ _ r s s' => GoesBy (fun _ _ _ => True) r s ∧ Progresses s s') (fun _ _ _ => True)
      (fun _ _ => OnSuccess fun _ _ => True) where
  lawful i _ := (undisturbed_discipline i).toLawful
  code i _ := (undisturbed_discipline i).runOnce o
  live _ _ _ _ := trivial
  others _ _ _ _ _ _ _ _ _ _ _ _ hguar := hguar.2
  environment c s hchain _ := ⟨hchain.change c, fun _ => .change c s⟩
  start _ s _ hgood _ := ⟨hgood.invariant, trivial, fun _ _ _ => .refl s.shared⟩

/-- **Terminal statuses are absorbing** in every run in which nobody takes a row from the worker that
has it, and nothing follows what was delivered. -/
theorem terminal_absorbing {o : WebhookDispatcherOptions} {s s' : State}
    (h : (system o).Reachable undisturbed Shared.empty s)
    (hlater : (system o).Later undisturbed s s') {id : DeliveryId} {row : WebhookDelivery}
    (hrow : s.shared.deliveries.find? id = some row) :
    (row.status.Terminal →
      ∃ row', s'.shared.deliveries.find? id = some row' ∧ row'.status = row.status) ∧
    (row.status = .delivered → ∀ n, id.attempt < n →
      s'.shared.deliveries.find? { id with attempt := n } = none) := by
  have hprogress : Progresses s.shared s'.shared :=
    Good.later (undisturbed_compatible o) Chain.empty .refl (fun _ _ _ => .trans)
      (fun _ _ _ _ _ hguar => hguar.2) (fun _ _ s => .refl s) (fun c s => .change c s) h hlater
  obtain ⟨row', hrow', hbecomes⟩ := hprogress.deliveries id row hrow
  refine ⟨fun hterminal => ⟨row', hrow', hterminal.becomes hbecomes⟩, fun hdelivered n hlt => ?_⟩
  have hchain := (Good.of_reachable (undisturbed_compatible o) Chain.empty
    (h.later hlater)).invariant
  obtain ⟨k, hk⟩ := hchain.attempts id.webhookEventId id.endpointId
  have hstatus := WebhookDeliveryStatus.Terminal.becomes (.inl hdelivered) hbecomes
  exact hk.none_after hrow' (hstatus.trans hdelivered) hlt

/-! ## A slow worker -/

namespace Shop

theorem terminal_absorbing_crashed :
    let s := (system options).after crashed Shared.empty
    let s' := (system options).onward [.start (), .environment (.update "we_1" (some false) none 0)] s
    (s.shared.deliveries.find? (attempt 2)).map (·.status) = some .delivered ∧
      (s'.shared.deliveries.find? (attempt 2)).map (·.status) = some .delivered ∧
      ∀ n, 2 < n → s'.shared.deliveries.find? (attempt n) = none := by
  intro s s'
  have hrun : (system options).Reachable undisturbed Shared.empty s :=
    System.reachable_after (by decide +kernel)
  have hlater : (system options).Later undisturbed s s' := System.later_onward (by decide +kernel)
  have hstatus : (s.shared.deliveries.find? (attempt 2)).map (·.status) = some .delivered := by
    decide +kernel
  obtain ⟨row, hrow, hdelivered⟩ := Option.map_eq_some_iff.1 hstatus
  have habsorbing := terminal_absorbing hrun hlater hrow
  obtain ⟨row', hrow', hsame⟩ := habsorbing.1 (.inl hdelivered)
  exact ⟨hstatus, by rw [hrow', Option.map_some, hsame, hdelivered],
    fun n hn => habsorbing.2 hdelivered n hn⟩

/-- A worker sends its delivery so slowly that another one recovers the row and inserts the second
attempt; then it records its success. -/
def slow : List (Move Unit Moment Change) :=
  claimed ++ steps 0 4 (moment 0 200) ++ .start () :: steps 1 12 (moment 360000 200) ++
    .start () :: steps 2 8 (moment 420000 200) ++ steps 0 4 (moment 420000 200)

/-- The failure counter cannot be reset, and the handler records a failure. -/
def unreset : List (Move Unit Moment Change) :=
  .step 0 { moment 420000 200 with fate := .failed "connection closed" } ::
    steps 0 6 (moment 420000 200)

/-- An attempt that was delivered has a successor, and is then marked as failed. -/
theorem delivered_overwritten : ∃ s s' : State,
    (system options).Reachable interleaved Shared.empty s ∧
      (system options).Later interleaved s s' ∧
      (s.shared.deliveries.find? (attempt 1)).map (·.status) = some .delivered ∧
      (s.shared.deliveries.find? (attempt 2)).map (·.status) = some .pending ∧
      (s'.shared.deliveries.find? (attempt 1)).map (·.status) = some .failed :=
  ⟨(system options).after slow Shared.empty,
    (system options).onward unreset ((system options).after slow Shared.empty),
    System.reachable_after (by decide +kernel), System.later_onward (by decide +kernel),
    by decide +kernel, by decide +kernel, by decide +kernel⟩

end Shop

end Webhooks

end PaymentGateway
