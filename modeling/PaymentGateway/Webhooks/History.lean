import PaymentGateway.Webhooks.Terminal

/-!
# The history of an event

A row that failed is the record of its attempt; the next attempt is a row of its own. Promotion does
leave the row alone when it inserts the successor, and so the row stays due: later passes come back
to it, and one that finds the endpoint disabled abandons it (`history_rewritten`).

**Theorem (`history_immutable`).** In every run of one dispatcher a step rewrites what failed and was
tried again exactly when it abandons it; so history is immutable where no retry is abandoned that has
a successor. The same holds of dispatchers that overlap, if nobody takes a row from the worker that
has it.

That no other statement touches such a row is not in the statements, most of which write by id: it is
in what their worker knows of the row (`GoesBy`).
-/

namespace PaymentGateway

namespace Webhooks

open Program Keyed Concurrent

/-! ## Records -/

/-- What failed and was tried again stays as it was recorded. -/
def Records (s s' : Shared) : Prop :=
  ∀ id row, s.deliveries.find? id = some row → row.status = .failed →
    (s.deliveries.find? id.next).isSome →
      s'.deliveries.find? id = some row ∧ (s'.deliveries.find? id.next).isSome

theorem Records.of_deliveries_eq {s s' : Shared} (h : s'.deliveries = s.deliveries) :
    Records s s' := by
  intro id row hrow _ hnext
  rw [h]
  exact ⟨hrow, hnext⟩

theorem Records.refl (s : Shared) : Records s s := .of_deliveries_eq rfl

theorem Records.trans {s s' s'' : Shared} (h : Records s s') (h' : Records s' s'') :
    Records s s'' := by
  intro id row hrow hfailed hnext
  obtain ⟨hrow', hnext'⟩ := h id row hrow hfailed hnext
  exact h' id row hrow' hfailed hnext'

/-- Rewriting other rows in place. -/
theorem Records.rewrite {s s' : Shared} {f : DeliveryId → WebhookDelivery → WebhookDelivery}
    (hfind : ∀ id, s'.deliveries.find? id = (s.deliveries.find? id).map (f id))
    (hsame : ∀ id row, s.deliveries.find? id = some row → row.status = .failed →
      (s.deliveries.find? id.next).isSome → f id row = row) : Records s s' := by
  intro id row hrow hfailed hnext
  rw [hfind, hfind, Option.isSome_map, hrow, Option.map_some, hsame id row hrow hfailed hnext]
  exact ⟨rfl, hnext⟩

theorem Records.insert {s : Shared} {id : DeliveryId} {url : String} {now at_ : Int}
    (hnone : s.deliveries.find? id = none) : Records s (s.insertDelivery id url now at_ hnone) := by
  intro id' row hrow _ hnext
  have hid : id ≠ id' := by
    intro hid
    rw [← hid, hnone] at hrow
    cases hrow
  have hid' : id ≠ id'.next := by
    intro hid'
    rw [← hid', hnone] at hnext
    cases hnext
  rw [s.find?_insertDelivery, s.find?_insertDelivery, if_neg hid, if_neg hid']
  exact ⟨hrow, hnext⟩

/-! ## Requests -/

/-- What is asked of an update that takes effect, of the row that it finds. -/
def OnUpdate (P : DeliveryId → DeliveryUpdate → WebhookDelivery → Prop) :
    Request → Moment → Shared → Prop
  | .statement (.updateDelivery id data), m, s =>
    m.fate.effective → ∀ row ∈ s.deliveries.find? id, P id data row
  | _, _, _ => True

instance (P : DeliveryId → DeliveryUpdate → WebhookDelivery → Prop)
    [∀ id data row, Decidable (P id data row)] (r : Request) (m : Moment) (s : Shared) :
    Decidable (OnUpdate P r m s) :=
  match r with
  | .statement (.updateDelivery id data) =>
    inferInstanceAs (Decidable (m.fate.effective → ∀ row ∈ s.deliveries.find? id, P id data row))
  | .statement (.findStale ..) | .statement (.findUnfannedEvents _)
  | .statement (.findEnabledEndpoints _) | .statement (.upsertDelivery ..)
  | .statement (.findDueRetries ..) | .statement (.findDue ..) | .statement (.findDelivery _)
  | .statement (.findEndpoint _) | .statement (.findEvent _) | .statement (.claimDelivery _)
  | .statement (.abandonPending _) | .statement (.resetFailures _)
  | .statement (.incrementFailures _) | .statement (.disableEndpoint ..)
  | .now | .random | .assertPublicWebhookUrl _ | .fetch _ => isTrue trivial

/-- What failed is written to only to be abandoned. -/
def Spares : Request → Moment → Shared → Prop :=
  OnUpdate fun _ data row => row.status = .failed → data.status = some .abandoned

/-- What failed and is abandoned was not tried again. -/
def Unfollowed (r : Request) (m : Moment) (s : Shared) : Prop :=
  OnUpdate (fun id data row => row.status = .failed → data.status = some .abandoned →
    s.deliveries.find? id.next = none) r m s

/-- The time of a signature is noted while the delivery is in flight. -/
def Signed : Request → Moment → Shared → Prop :=
  OnUpdate fun _ data row => data.status = none → row.status = .inFlight

instance (r : Request) (m : Moment) (s : Shared) : Decidable (Unfollowed r m s) :=
  inferInstanceAs (Decidable (OnUpdate _ r m s))

instance (r : Request) (m : Moment) (s : Shared) : Decidable (Signed r m s) :=
  inferInstanceAs (Decidable (OnUpdate _ r m s))

theorem Records.updateDelivery {s : Shared} {id : DeliveryId} {data : DeliveryUpdate}
    (hspares : ∀ row ∈ s.deliveries.find? id, row.status = .failed → data.status = some .abandoned)
    (hunfollowed : ∀ row ∈ s.deliveries.find? id, row.status = .failed →
      data.status = some .abandoned → s.deliveries.find? id.next = none) (at_ : Int) :
    Records s (s.updateDelivery id data at_) := by
  refine .rewrite (s.find?_updateDelivery id data at_) fun id' row hrow hfailed hnext => ?_
  by_cases hid : id' = id
  · subst hid
    rw [hunfollowed row hrow hfailed (hspares row hrow hfailed)] at hnext
    cases hnext
  · rw [if_neg hid]

/-- Claims and sweeps leave alone what failed. -/
theorem Records.perform {s : Shared} {q : Statement} (hq : ∀ id data, q ≠ .updateDelivery id data)
    (m : Moment) : Records s (perform s m q).2 := by
  cases q with
  | upsertDelivery id url now =>
    simp only [Webhooks.perform]
    split
    · exact .refl s
    · rename_i hnone
      exact .insert hnone
  | updateDelivery id data => exact absurd rfl (hq id data)
  | claimDelivery id =>
    simp only [Webhooks.perform]
    split
    · rename_i hpending
      refine .rewrite (s.find?_updateDelivery id _ m.now) fun id' row hrow hfailed _ => if_neg ?_
      intro hid
      simp [← hid, hrow, hfailed] at hpending
    · exact .refl s
  | abandonPending endpointId =>
    refine .rewrite (s.find?_sweep endpointId m.now) fun id row _ hfailed _ => if_neg ?_
    simp [hfailed]
  | resetFailures | incrementFailures | disableEndpoint =>
    simp only [Webhooks.perform]
    split <;> exact .of_deliveries_eq rfl
  | _ => exact .refl s

theorem answer_effective {q : Statement} {m : Moment} {s : Shared} (h : m.fate.effective) :
    (answer (.statement q) m s).2 = (perform s m q).2 := by
  cases hfate : m.fate with
  | failed message => exact absurd h (by simp [hfate, Fate.effective])
  | _ => simp [answer, hfate]

theorem answer_ineffective {q : Statement} {m : Moment} {s : Shared} (h : ¬m.fate.effective) :
    (answer (.statement q) m s).2 = s := by
  cases hfate : m.fate with
  | failed message => simp [answer, hfate]
  | _ => simp [hfate, Fate.effective] at h

theorem perform_updateDelivery {s : Shared} {id : DeliveryId} {data : DeliveryUpdate} {m : Moment}
    {row : WebhookDelivery} (hrow : s.deliveries.find? id = some row) :
    (perform s m (.updateDelivery id data)).2 = s.updateDelivery id data m.now := by
  simp only [perform, hrow]

/-- An update that spares what failed, unless it abandons what was not tried again. -/
theorem Records.answer_update {s : Shared} {id : DeliveryId} {data : DeliveryUpdate} {m : Moment}
    (hspares : Spares (.statement (.updateDelivery id data)) m s)
    (hunfollowed : Unfollowed (.statement (.updateDelivery id data)) m s) :
    Records s (answer (.statement (.updateDelivery id data)) m s).2 := by
  by_cases heffective : m.fate.effective
  · rw [answer_effective heffective]
    cases hrow : s.deliveries.find? id with
    | none =>
      simp only [Webhooks.perform, hrow]
      exact .refl s
    | some row =>
      rw [perform_updateDelivery hrow]
      exact .updateDelivery (hspares heffective) (hunfollowed heffective) m.now
  · rw [answer_ineffective heffective]
    exact .refl s

/-- What failed and is abandoned is no longer recorded as it was. -/
theorem Unfollowed.of_records {s : Shared} {id : DeliveryId} {data : DeliveryUpdate} {m : Moment}
    (h : Records s (answer (.statement (.updateDelivery id data)) m s).2) :
    Unfollowed (.statement (.updateDelivery id data)) m s := by
  intro heffective row hrow hfailed hdata
  by_contra hnext
  obtain ⟨hsame, -⟩ := h id row hrow hfailed (Option.ne_none_iff_isSome.1 hnext)
  rw [answer_effective heffective, perform_updateDelivery hrow, s.find?_updateDelivery, hrow,
    Option.map_some, if_pos rfl, Option.some.injEq] at hsame
  have hstatus : (data.apply m.now row).status = .abandoned := by
    simp [DeliveryUpdate.apply, hdata]
  rw [hsame, hfailed] at hstatus
  cases hstatus

/-- A request that spares what failed rewrites history exactly when it abandons a retry that has a
successor. -/
theorem Spares.records_iff {r : Request} {m : Moment} {s : Shared} (h : Spares r m s) :
    Records s (answer r m s).2 ↔ Unfollowed r m s := by
  cases r with
  | statement q =>
    by_cases hq : ∃ id data, q = .updateDelivery id data
    · obtain ⟨id, data, rfl⟩ := hq
      exact ⟨Unfollowed.of_records, Records.answer_update h⟩
    · have hother : ∀ id data, q ≠ .updateDelivery id data := fun id data hid => hq ⟨id, data, hid⟩
      refine iff_of_true ?_ ?_
      · by_cases heffective : m.fate.effective
        · rw [answer_effective heffective]
          exact .perform hother m
        · rw [answer_ineffective heffective]
          exact .refl s
      · cases q with
        | updateDelivery id data => exact absurd rfl (hother id data)
        | _ => trivial
  | _ => exact iff_of_true (.refl s) trivial

/-! ## What a worker goes by -/

theorem DeliveryUpdate.presumes_ne_failed (data : DeliveryUpdate) :
    data.presumes ≠ some .failed := by
  simp only [presumes, expects]
  split
  · simp
  · split <;> simp

/-- Where every row is as the worker has it, none that failed is written to. -/
theorem GoesBy.spares {has : WebhookDeliveryStatus → DeliveryId → Shared → Prop} {r : Request}
    {m : Moment} {s : Shared} (h : GoesBy has r s)
    (hfound : ∀ id data status, r = .statement (.updateDelivery id data) → m.fate.effective →
      data.presumes = some status → has status id s →
        ∀ row ∈ s.deliveries.find? id, row.status = status) : Spares r m s := by
  cases r with
  | statement q =>
    cases q with
    | updateDelivery id data =>
      intro heffective row hrow hfailed
      simp only [GoesBy] at h
      split at h
      · rename_i status hpresumes
        have hstatus := hfound id data status rfl heffective hpresumes h row hrow
        rw [hfailed] at hstatus
        exact absurd (hstatus ▸ hpresumes) data.presumes_ne_failed
      · exact h
    | _ => trivial
  | _ => trivial

/-- A worker that runs alone knows the rows. -/
theorem spares_single {r : Request} {m : Moment} {s : Shared} (h : GoesBy HasStatus r s) :
    Spares r m s := by
  refine h.spares fun id data status _ _ _ hhas row hrow => ?_
  obtain ⟨row', hrow', hstatus⟩ := hhas
  rw [Option.mem_def.1 hrow] at hrow'
  cases hrow'
  exact hstatus

/-- One among others finds them as it should. -/
theorem spares_undisturbed {r : Request} {m : Moment} {s : Shared}
    (h : GoesBy (fun _ _ _ => True) r s) (hinPlace : InPlace r m s) (hsigned : Signed r m s) :
    Spares r m s := by
  refine h.spares fun id data status hr heffective hpresumes _ row hrow => ?_
  subst hr
  simp only [DeliveryUpdate.presumes] at hpresumes
  split at hpresumes
  · rename_i hdata
    cases hpresumes
    exact hsigned heffective row hrow hdata
  · exact hinPlace heffective status hpresumes row hrow

/-! ## Runs -/

/-- Runs in which no step abandons what it is known to spare, unless nothing follows it. -/
theorem records_later {o : WebhookDispatcherOptions}
    {R : Rules Request Answer DispatchError WebhookDispatchSummary Unit Moment Change Shared}
    {P : Request → Moment → Shared → Prop} {rely : Nat → Shared → Shared → Prop}
    {has : WebhookDeliveryStatus → DeliveryId → Shared → Prop} {pre : Nat → Unit → Shared → Prop}
    {post : Nat → Unit → Except DispatchError WebhookDispatchSummary → Shared → Prop}
    (hcompatible : Compatible (system o) R Shared.empty Chain rely
      (fun _ _ r s s' => GoesBy has r s ∧ Progresses s s') pre post)
    (hspares : ∀ i r m s, R.steps i r m s → P r m s → GoesBy has r s → Spares r m s)
    (hunfollowed : ∀ r m s, P r m s → Unfollowed r m s) {s s' : State}
    (h : (system o).Reachable (R.also P) Shared.empty s)
    (hlater : (system o).Later (R.also P) s s') : Records s.shared s'.shared := by
  induction hlater with
  | refl => exact .refl s.shared
  | tail hlater hstep ih =>
    obtain ⟨move, hm, happly⟩ := hstep
    refine ih.trans ?_
    cases move with
    | start =>
      cases happly
      exact .refl _
    | environment e =>
      cases happly
      exact .of_deliveries_eq (deliveries_change e _)
    | step i m =>
      obtain ⟨l, r, next, hcall, rfl⟩ := System.apply_step happly
      obtain ⟨hlive, hsteps, hP⟩ := System.meets_step hm hcall
      have hgood := Good.of_reachable hcompatible Chain.empty
        ((h.later hlater).mono fun _ _ hm => (Rules.also_meets.1 hm).1)
      have hby := (hgood.asks hcompatible hcall hlive hsteps).1
      exact (hspares i r m _ hsteps hP hby).records_iff.2 (hunfollowed r m _ hP)

/-- What a step of one dispatcher does to history. -/
theorem single_records_iff {o : WebhookDispatcherOptions} {s : State}
    (h : (system o).Reachable single Shared.empty s) {i : Nat} {l : Unit} {r : Request}
    {next : Except DispatchError (Answer r) →
      Program Request Answer DispatchError WebhookDispatchSummary}
    (hcall : s.calls[i]? = some (l, .request r next)) {m : Moment}
    (hm : single.meets (.step i m) s) :
    Records s.shared (answer r m s.shared).2 ↔ Unfollowed r m s.shared := by
  obtain ⟨hlive, hsteps⟩ := System.meets_step hm hcall
  have hgood := Good.of_reachable (single_compatible o) Chain.empty h
  have hby := (hgood.asks (single_compatible o) hcall hlive hsteps).1
  exact (spares_single hby).records_iff

/-- **Delivery history is immutable**, as long as no retry is abandoned that has a successor; of one
dispatcher, exactly as long. -/
theorem history_immutable {o : WebhookDispatcherOptions} :
    (∀ s i l r next m, (system o).Reachable single Shared.empty s →
      s.calls[i]? = some (l, .request r next) → single.meets (.step i m) s →
        (Records s.shared (answer r m s.shared).2 ↔ Unfollowed r m s.shared)) ∧
    (∀ s s', (system o).Reachable (single.also Unfollowed) Shared.empty s →
      (system o).Later (single.also Unfollowed) s s' → Records s.shared s'.shared) ∧
    ∀ s s', (system o).Reachable
        (undisturbed.also fun r m s => Signed r m s ∧ Unfollowed r m s) Shared.empty s →
      (system o).Later (undisturbed.also fun r m s => Signed r m s ∧ Unfollowed r m s) s s' →
        Records s.shared s'.shared := by
  refine ⟨?_, ?_, ?_⟩
  · intro s i l r next m h hcall hm
    exact single_records_iff h hcall hm
  · intro s s' h hlater
    exact records_later (single_compatible o) (fun _ _ _ _ _ _ hby => spares_single hby)
      (fun _ _ _ h => h) h hlater
  · intro s s' h hlater
    exact records_later (undisturbed_compatible o)
      (fun _ _ _ _ hinPlace hP hby => spares_undisturbed hby hinPlace hP.1)
      (fun _ _ _ hP => hP.2) h hlater

/-! ## A retry that was promoted -/

namespace Shop

/-- The first attempt fails; the next cycle promotes its retry, and delivers it. -/
def promoted : List (Move Unit Moment Change) :=
  [.environment (.create endpoint), .environment (.emit event), .start ()] ++
    steps 0 25 (moment 0 500) ++ .start () :: steps 1 23 (moment 60000 200)

/-- The merchant changes what the endpoint is for, and another cycle comes back to the retry. -/
def edited : List (Move Unit Moment Change) :=
  .environment (.update "we_1" none (some ["payment.paid"]) 90000) ::
    .start () :: steps 2 11 (moment 120000 200)

/-- Two cycles at once come back to it. -/
def overlapping : List (Move Unit Moment Change) :=
  .start () :: .start () :: steps 2 7 (moment 120000 200) ++ steps 3 11 (moment 120000 200) ++
    steps 2 4 (moment 120000 200)

theorem history_immutable_promoted :
    let s := (system options).after promoted Shared.empty
    let s' := (system options).onward edited s
    let s'' := (system options).onward overlapping s
    ∃ row, s.shared.deliveries.find? (attempt 1) = some row ∧ row.status = .failed ∧
      (s.shared.deliveries.find? (attempt 2)).isSome ∧
      s'.shared.deliveries.find? (attempt 1) = some row ∧
      s''.shared.deliveries.find? (attempt 1) = some row := by
  intro s s' s''
  have hrun : (system options).Reachable (single.also Unfollowed) Shared.empty s :=
    System.reachable_after (by decide +kernel)
  have hlater : (system options).Later (single.also Unfollowed) s s' :=
    System.later_onward (by decide +kernel)
  have hrun' : (system options).Reachable
      (undisturbed.also fun r m s => Signed r m s ∧ Unfollowed r m s) Shared.empty s :=
    System.reachable_after (by decide +kernel)
  have hlater' : (system options).Later
      (undisturbed.also fun r m s => Signed r m s ∧ Unfollowed r m s) s s'' :=
    System.later_onward (by decide +kernel)
  have hstatus : (s.shared.deliveries.find? (attempt 1)).map (·.status) = some .failed := by
    decide +kernel
  have hnext : (s.shared.deliveries.find? (attempt 2)).isSome := by decide +kernel
  obtain ⟨row, hrow, hfailed⟩ := Option.map_eq_some_iff.1 hstatus
  have halone := history_immutable.2.1 s s' hrun hlater
  have hoverlapping := history_immutable.2.2 s s'' hrun' hlater'
  exact ⟨row, hrow, hfailed, hnext, (halone (attempt 1) row hrow hfailed hnext).1,
    (hoverlapping (attempt 1) row hrow hfailed hnext).1⟩

/-- The merchant disables the endpoint, and another cycle comes back to the retry. -/
def disabled : List (Move Unit Moment Change) :=
  .environment (.update "we_1" (some false) none 90000) ::
    .start () :: steps 2 9 (moment 120000 200)

/-- What failed, and was tried again and delivered, is abandoned then. -/
theorem history_rewritten : ∃ s s' : State,
    (system options).Reachable single Shared.empty s ∧ (system options).Later single s s' ∧
      (s.shared.deliveries.find? (attempt 1)).map (fun row => (row.status, row.nextRetryAt)) =
        some (.failed, some 30000) ∧
      (s.shared.deliveries.find? (attempt 2)).map (·.status) = some .delivered ∧
      (s'.shared.deliveries.find? (attempt 1)).map (fun row => (row.status, row.nextRetryAt)) =
        some (.abandoned, none) :=
  ⟨(system options).after promoted Shared.empty,
    (system options).onward disabled ((system options).after promoted Shared.empty),
    System.reachable_after (by decide +kernel), System.later_onward (by decide +kernel),
    by decide +kernel, by decide +kernel, by decide +kernel⟩

end Shop

end Webhooks

end PaymentGateway
