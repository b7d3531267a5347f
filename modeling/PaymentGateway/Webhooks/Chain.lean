import PaymentGateway.Webhooks.Outline

/-!
# One dispatcher, and its crashes

A dispatcher that is alone runs one poll cycle at a time. When it crashes its cycle is never given
another step, and the next cycle recovers what was in flight.

**Theorem (`attempts_chain`).** In every run of one dispatcher, whatever merchants and their servers
do and wherever it crashes, the attempts of an event at an endpoint are numbered from one to some `k`
within the endpoint's budget, all but the last were given up, and nothing ever follows an attempt
that was delivered.

Nobody else writes deliveries, so what the dispatcher has read of them stays true (`single`).
-/

namespace PaymentGateway

namespace Webhooks

open Program Keyed Concurrent

/-! ## The rules -/

/-- A dispatcher that runs alone: a cycle that has begun is the only one to go on. Statements are
answered, or never end. -/
def single : Rules Request Answer DispatchError WebhookDispatchSummary Unit Moment Change Shared where
  starts _ _ := True
  live n i := i + 1 = n
  steps _ r m _ := ∀ q, r = .statement q → m.fate = .answered
  happens _ _ := True

instance (r : Request) (m : Moment) :
    Decidable (∀ q, r = .statement q → m.fate = .answered) :=
  match r with
  | .statement q =>
    decidable_of_iff (m.fate = .answered) ⟨fun h _ _ => h, fun h => h q rfl⟩
  | .now | .random | .assertPublicWebhookUrl _ | .fetch _ => isTrue fun _ h => nomatch h

instance (move : Move Unit Moment Change) (s : State) : Decidable (single.meets move s) :=
  have : ∀ l s, Decidable (single.starts l s) := fun _ _ => inferInstanceAs (Decidable True)
  have : ∀ n i, Decidable (single.live n i) := fun _ _ => inferInstanceAs (Decidable (_ = _))
  have : ∀ i r m s, Decidable (single.steps i r m s) :=
    fun _ r m _ => inferInstanceAs (Decidable (∀ q, r = .statement q → m.fate = .answered))
  have : ∀ e s, Decidable (single.happens e s) := fun _ _ => inferInstanceAs (Decidable True)
  inferInstance

/-! ## What stays true of a delivery -/

/-- The row is there, with this status. -/
def HasStatus (status : WebhookDeliveryStatus) (id : DeliveryId) (s : Shared) : Prop :=
  ∃ row, s.deliveries.find? id = some row ∧ row.status = status

/-- Only merchants are at work. -/
def Unwatched (s s' : Shared) : Prop := s'.deliveries = s.deliveries ∧ Progresses s s'

theorem HasStatus.perform {id : DeliveryId} {q : Statement} {m : Moment} {s : Shared}
    (h : HasStatus .inFlight id s)
    (hq : ∀ data, q = .updateDelivery id data → data.status = none) :
    HasStatus .inFlight id (perform s m q).2 := by
  obtain ⟨row, hrow, hstatus⟩ := h
  have hupdate : ∀ (id' : DeliveryId) (data : DeliveryUpdate), (id = id' → data.status = none) →
      HasStatus .inFlight id (s.updateDelivery id' data m.now) := by
    intro id' data hdata
    rw [HasStatus, s.find?_updateDelivery, hrow]
    refine ⟨_, rfl, ?_⟩
    by_cases hid : id = id'
    · simp [hid, DeliveryUpdate.apply, hdata hid, hstatus]
    · simp [hid, hstatus]
  cases q with
  | upsertDelivery id' url now =>
    simp only [Webhooks.perform]
    split
    · exact ⟨row, hrow, hstatus⟩
    · rename_i hnone
      refine ⟨row, ?_, hstatus⟩
      rw [s.find?_insertDelivery, if_neg (by rintro rfl; simp [hnone] at hrow), hrow]
  | updateDelivery id' data =>
    simp only [Webhooks.perform]
    split
    · exact hupdate id' data fun hid => hq data (by rw [hid])
    · exact ⟨row, hrow, hstatus⟩
  | claimDelivery id' =>
    simp only [Webhooks.perform]
    split
    · rename_i hpending
      refine hupdate id' _ fun hid => ?_
      rw [← hid, hrow] at hpending
      simp [hstatus] at hpending
    · exact ⟨row, hrow, hstatus⟩
  | abandonPending endpointId =>
    refine ⟨sweep endpointId m.now row, ?_, ?_⟩
    · exact (s.find?_sweep endpointId m.now id).trans (by rw [hrow]; rfl)
    · simp [sweep, hstatus]
  | resetFailures | incrementFailures | disableEndpoint =>
    simp only [Webhooks.perform]
    split <;> exact ⟨row, hrow, hstatus⟩
  | _ => exact ⟨row, hrow, hstatus⟩

theorem single_discipline (i : Nat) : Discipline HasStatus Unwatched (single.steps i) where
  refl s := ⟨rfl, .refl s⟩
  trans _ _ _ h h' := ⟨h'.1.trans h.1, h.2.trans h'.2⟩
  progresses _ _ h := h.2
  stable status id s s' h _ hrely := by
    simpa only [HasStatus, hrely.1] using h
  read id row s hrow := ⟨row, hrow, rfl⟩
  kept id q m s h hq := h.perform hq
  found id data status m s _ _ _ h row hrow := by
    obtain ⟨row', hrow', hstatus⟩ := h
    rw [hrow] at hrow'
    cases hrow'
    exact hstatus
  unrecorded id data m s e hm h herror := by
    obtain ⟨row, hrow, -⟩ := h
    simp [answer, hm _ rfl, perform, hrow] at herror
  unreset id endpointId maxAttempts m s e hm h herror := by
    obtain ⟨endpoint, hendpoint, -⟩ := h
    simp [answer, hm _ rfl, perform, hendpoint] at herror

theorem single_compatible (o : WebhookDispatcherOptions) :
    Compatible (system o) single Shared.empty Chain (fun _ => Unwatched)
      (fun _ _ r s s' => GoesBy HasStatus r s ∧ Progresses s s') (fun _ _ _ => True)
      (fun _ _ => OnSuccess fun _ _ => True) where
  lawful i _ := (single_discipline i).toLawful
  code i _ := (single_discipline i).runOnce o
  live n i hi hlive := by
    have : i + 1 = n + 1 := hlive
    omega
  others n i j _ _ _ _ hij hi hj := by
    have hi : i + 1 = n := hi
    have hj : j + 1 = n := hj
    omega
  environment c s hchain _ :=
    ⟨hchain.change c, fun _ => ⟨deliveries_change c s, .change c s⟩⟩
  start _ s _ hgood _ := by
    refine ⟨hgood.invariant, trivial, fun i hi hlive => ?_⟩
    have : i + 1 = s.calls.length + 1 := hlive
    omega

/-! ## Attempts -/

/-- Numbers that are bounded, and have all smaller ones with them. -/
theorem exists_last {P : Nat → Prop} (bound : Nat) (hfirst : ∀ n, P n → 1 ≤ n)
    (hbound : ∀ n, P n → n ≤ bound) (hbefore : ∀ n, 1 ≤ n → P (n + 1) → P n) :
    ∃ k ≤ bound, ∀ n, P n ↔ 1 ≤ n ∧ n ≤ k := by
  induction bound with
  | zero =>
    refine ⟨0, le_rfl, fun n => ⟨fun hn => ⟨hfirst n hn, hbound n hn⟩, fun hn => ?_⟩⟩
    omega
  | succ bound ih =>
    by_cases hlast : P (bound + 1)
    · refine ⟨bound + 1, le_rfl, fun n => ⟨fun hn => ⟨hfirst n hn, hbound n hn⟩, ?_⟩⟩
      rintro ⟨hn, hle⟩
      induction hle using Nat.decreasingInduction with
      | self => exact hlast
      | of_succ k _ hk => exact hbefore k hn (hk (Nat.succ_pos k))
    · obtain ⟨k, hk, hiff⟩ := ih fun n hn => by
        have hne : n ≠ bound + 1 := fun h => hlast (h ▸ hn)
        have hle := hbound n hn
        omega
      exact ⟨k, hk.trans (Nat.le_succ bound), hiff⟩

/-- The attempts of an event at an endpoint are one to `k`. -/
structure Attempts (s : Shared) (webhookEventId endpointId : String) (k : Nat) : Prop where
  numbered : ∀ n, (s.deliveries.find? ⟨webhookEventId, endpointId, n⟩).isSome ↔ 1 ≤ n ∧ n ≤ k
  budget : 0 < k → ∃ endpoint, s.endpoints.find? endpointId = some endpoint ∧
    k ≤ endpoint.maxAttempts
  last : ∀ n row, s.deliveries.find? ⟨webhookEventId, endpointId, n⟩ = some row →
    row.status = .pending ∨ row.status = .inFlight ∨ row.status = .delivered ∨
      row.status = .exhausted → n = k

theorem Chain.attempts {s : Shared} (h : Chain s) (webhookEventId endpointId : String) :
    ∃ k, Attempts s webhookEventId endpointId k := by
  have hbudget : ∀ n, (s.deliveries.find? ⟨webhookEventId, endpointId, n⟩).isSome →
      1 ≤ n ∧ ∃ maxAttempts, Allows s endpointId maxAttempts ∧ n ≤ maxAttempts := by
    intro n hn
    obtain ⟨row, hrow⟩ := Option.isSome_iff_exists.1 hn
    obtain ⟨hfirst, maxAttempts, hallows, hle, -⟩ := h.budget _ row hrow
    exact ⟨hfirst, maxAttempts, hallows, hle⟩
  have hbefore : ∀ n, 1 ≤ n →
      (s.deliveries.find? ⟨webhookEventId, endpointId, n + 1⟩).isSome →
        WasGivenUp s ⟨webhookEventId, endpointId, n⟩ :=
    fun n hn hsome => h.previous ⟨webhookEventId, endpointId, n⟩ hn hsome
  obtain ⟨k, hk, hiff⟩ := exists_last
    (P := fun n => (s.deliveries.find? ⟨webhookEventId, endpointId, n⟩).isSome)
    (((s.endpoints.find? endpointId).map (·.maxAttempts)).getD 0)
    (fun n hn => (hbudget n hn).1)
    (fun n hn => by
      obtain ⟨-, maxAttempts, ⟨endpoint, hendpoint, rfl⟩, hle⟩ := hbudget n hn
      simpa [hendpoint] using hle)
    (fun n hn hsome => by
      obtain ⟨row, hrow, -⟩ := hbefore n hn hsome
      simp [hrow])
  refine ⟨k, hiff, fun hpos => ?_, fun n row hrow hstatus => ?_⟩
  · obtain ⟨-, maxAttempts, ⟨endpoint, hendpoint, rfl⟩, hle⟩ := hbudget k ((hiff k).2 ⟨hpos, le_rfl⟩)
    exact ⟨endpoint, hendpoint, hle⟩
  · obtain ⟨hfirst, hle⟩ := (hiff n).1 (by simp [hrow])
    by_contra hne
    obtain ⟨row', hrow', hgiven⟩ := hbefore n hfirst
      ((hiff (n + 1)).2 ⟨Nat.succ_pos n, Nat.lt_of_le_of_ne hle hne⟩)
    rw [hrow] at hrow'
    cases hrow'
    rcases hgiven with hgiven | hgiven <;> simp [hgiven] at hstatus

/-- What was delivered stays delivered, and nothing follows it. -/
theorem Attempts.none_after {s : Shared} {webhookEventId endpointId : String} {n n' k : Nat}
    {row : WebhookDelivery} (h : Attempts s webhookEventId endpointId k)
    (hrow : s.deliveries.find? ⟨webhookEventId, endpointId, n⟩ = some row)
    (hdelivered : row.status = .delivered) (hlt : n < n') :
    s.deliveries.find? ⟨webhookEventId, endpointId, n'⟩ = none := by
  have hn := h.last n row hrow (.inr (.inr (.inl hdelivered)))
  cases hrow' : s.deliveries.find? ⟨webhookEventId, endpointId, n'⟩ with
  | none => rfl
  | some row' =>
    have hle := ((h.numbered n').1 (by simp [hrow'])).2
    omega

/-- Later states have moved along the diagram. -/
theorem single_later {o : WebhookDispatcherOptions} {s s' : State}
    (h : (system o).Reachable single Shared.empty s) (hlater : (system o).Later single s s') :
    Progresses s.shared s'.shared :=
  Good.later (single_compatible o) Chain.empty .refl (fun _ _ _ => .trans)
    (fun _ _ _ _ _ hguar => hguar.2) (fun _ _ s => .refl s) (fun c s => .change c s) h hlater

/-- **Webhook attempts form a chain**, over all runs of one dispatcher. -/
theorem attempts_chain {o : WebhookDispatcherOptions} {s : State}
    (h : (system o).Reachable single Shared.empty s) (webhookEventId endpointId : String) :
    (∃ k, Attempts s.shared webhookEventId endpointId k) ∧
    ∀ n row, s.shared.deliveries.find? ⟨webhookEventId, endpointId, n⟩ = some row →
      row.status = .delivered → ∀ s', (system o).Later single s s' → ∀ n', n < n' →
        s'.shared.deliveries.find? ⟨webhookEventId, endpointId, n'⟩ = none := by
  have hchain : ∀ s, (system o).Reachable single Shared.empty s → Chain s.shared :=
    fun s hs => (Good.of_reachable (single_compatible o) Chain.empty hs).invariant
  refine ⟨(hchain s h).attempts webhookEventId endpointId, ?_⟩
  intro n row hrow hdelivered s' hlater n' hlt
  obtain ⟨row', hrow', hbecomes⟩ := (single_later h hlater).deliveries _ row hrow
  obtain ⟨k, hk⟩ := (hchain s' (h.later hlater)).attempts webhookEventId endpointId
  have hstatus := WebhookDeliveryStatus.Terminal.becomes (.inl hdelivered) hbecomes
  exact hk.none_after hrow' (hstatus.trans hdelivered) hlt

/-! ## A crash -/

namespace Shop

/-- The worker crashes once it has claimed the delivery; the next cycle recovers it, and another one
delivers the second attempt. -/
def crashed : List (Move Unit Moment Change) :=
  claimed ++ .start () :: steps 1 12 (moment 360000 200) ++
    .start () :: steps 2 23 (moment 420000 200)

theorem attempts_chain_crashed :
    let s := (system options).after crashed Shared.empty
    (∃ k, Attempts s.shared "evt_1" "we_1" k) ∧
      (s.shared.deliveries.find? (attempt 2)).map (·.status) = some .delivered ∧
      ∀ n, 2 < n → s.shared.deliveries.find? (attempt n) = none := by
  intro s
  have hrun : (system options).Reachable single Shared.empty s :=
    System.reachable_after (by decide +kernel)
  have hstatus : (s.shared.deliveries.find? (attempt 2)).map (·.status) = some .delivered := by
    decide +kernel
  obtain ⟨row, hrow, hdelivered⟩ := Option.map_eq_some_iff.1 hstatus
  have hchain := attempts_chain hrun "evt_1" "we_1"
  exact ⟨hchain.1, hstatus, fun n hn => hchain.2 2 row hrow hdelivered s .refl n hn⟩

end Shop

end Webhooks

end PaymentGateway
