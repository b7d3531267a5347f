import PaymentGateway.Webhooks.Chain

/-!
# Progress of retries

`promoteDueRetries` asks for one batch of the `FAILED` rows that are due, by the time of their retry.
A row stays `FAILED`, and due, after its successor was inserted: the answer has the oldest failures
first, whether they were followed or not.

**Theorem (`promotes_iff`).** One call whose statements are answered makes progress, in the sense
that some due retry gets its successor if any can, exactly when none can or one of the first batch
of due rows can. A batch of rows that were followed long ago starves all later ones
(`retries_starved`).

The call is run alone. What it leaves for a row is what the loop has done so far and what is left of
the batch, together (`WillHave`).
-/

namespace PaymentGateway

namespace Webhooks

open Program Keyed Concurrent

/-- A due retry that waits for its successor. -/
def Open (now : Int) (s : Shared) (id : DeliveryId) : Prop :=
  (∃ row ∈ s.deliveries.find? id, row.status = .failed ∧ ∃ at_ ∈ row.nextRetryAt, at_ ≤ now) ∧
    s.deliveries.find? id.next = none ∧
    ∃ endpoint ∈ s.endpoints.find? id.endpointId, endpoint.enabled = true
  deriving Decidable

/-! ## One call, alone -/

/-- Nobody else is at work, and statements are answered. -/
def alone : Terms Request Moment Shared :=
  ⟨fun _ => True, Eq, fun _ _ _ => True, fun _ m _ => m.fate = .answered⟩

theorem alone_frame : alone.Frame fun _ => False where
  refl _ := rfl
  trans _ _ _ := Eq.trans
  failure _ _ h _ _ := h

theorem stable_alone (P : Shared → Prop) : Stable alone P := by
  rintro s _ h _ rfl
  exact h

/-- A request that succeeds. -/
theorem alone_call {r : Request} {P : Shared → Prop} {Q : Answer r → Shared → Prop}
    (h : ∀ m s, m.fate = .answered → P s →
      ∃ a, (answer r m s).1 = .ok a ∧ Q a (answer r m s).2) :
    Triple answer alone P (Program.call r) (Ends (fun _ => False) Q) := by
  refine Triple.call (stable_alone P) (fun a => stable_alone _) fun m s _ hs hm => ?_
  obtain ⟨a, hok, hQ⟩ := h m s hm hs
  refine ⟨trivial, trivial, ?_⟩
  rw [hok]
  exact hQ

theorem answer_answered {q : Statement} {m : Moment} {s : Shared} (h : m.fate = .answered) :
    answer (.statement q) m s = perform s m q := by
  simp [answer, h]

/-! ## The loop -/

def Enabled (s : Shared) (endpointId : String) : Prop :=
  ∃ endpoint ∈ s.endpoints.find? endpointId, endpoint.enabled = true

/-- The attempt is there, or is going to be when the rest of the batch has been promoted. -/
def WillHave (s : Shared) (rest : List WebhookDelivery) (id : DeliveryId) : Prop :=
  (s.deliveries.find? id).isSome ∨
    ∃ row ∈ rest, id = row.toDeliveryId.next ∧ Enabled s row.endpointId

/-- What the loop keeps: the endpoints, the rows of the batch, and which attempts there will be. -/
structure Promoting (s₀ : Shared) (due rest : List WebhookDelivery) (s : Shared) : Prop where
  endpoints : s.endpoints = s₀.endpoints
  rows : ∀ row ∈ rest, (s.deliveries.find? row.toDeliveryId).isSome
  attempts : ∀ id, WillHave s rest id ↔ WillHave s₀ due id

/-- A row whose endpoint is not enabled gets no successor. -/
theorem Promoting.skip {s₀ s : Shared} {due rest : List WebhookDelivery} {row : WebhookDelivery}
    (h : Promoting s₀ due (row :: rest) s) (hdisabled : ¬Enabled s row.endpointId)
    (data : DeliveryUpdate) (at_ : Int) :
    Promoting s₀ due rest (s.updateDelivery row.toDeliveryId data at_) where
  endpoints := h.endpoints
  rows other hother := by
    rw [s.find?_updateDelivery, Option.isSome_map]
    exact h.rows other (List.mem_cons_of_mem _ hother)
  attempts id := by
    rw [← h.attempts id]
    simp only [WillHave, s.find?_updateDelivery, Option.isSome_map, List.mem_cons,
      exists_eq_or_imp, hdisabled, and_false, false_or]
    rfl

/-- A row whose endpoint is enabled has a successor then. -/
theorem Promoting.insert {s₀ s : Shared} {due rest : List WebhookDelivery} {row : WebhookDelivery}
    (h : Promoting s₀ due (row :: rest) s) (henabled : Enabled s row.endpointId) (m : Moment)
    (url : String) (now : Int) :
    Promoting s₀ due rest (perform s m (.upsertDelivery row.toDeliveryId.next url now)).2 := by
  have hsplit : ∀ id, WillHave s (row :: rest) id ↔
      WillHave s rest id ∨ id = row.toDeliveryId.next := by
    intro id
    simp only [WillHave, List.mem_cons, exists_eq_or_imp, henabled, and_true]
    exact (or_congr_right or_comm).trans or_assoc.symm
  simp only [perform]
  split
  · rename_i old hold
    refine ⟨h.endpoints, fun other hother => h.rows other (List.mem_cons_of_mem _ hother), ?_⟩
    intro id
    rw [← h.attempts id, hsplit id]
    refine ⟨.inl, fun hwill => hwill.elim (fun h => h) ?_⟩
    rintro rfl
    exact .inl (by simp [hold])
  · rename_i hnone
    have hfind : ∀ id, ((s.insertDelivery row.toDeliveryId.next url now m.now hnone).deliveries.find?
        id).isSome ↔ (s.deliveries.find? id).isSome ∨ id = row.toDeliveryId.next := by
      intro id
      rw [s.find?_insertDelivery]
      by_cases hid : row.toDeliveryId.next = id
      · simp [hid]
      · simp [hid, Ne.symm hid]
    refine ⟨h.endpoints, fun other hother => ?_, fun id => ?_⟩
    · exact (hfind _).2 (.inl (h.rows other (List.mem_cons_of_mem _ hother)))
    · rw [← h.attempts id, hsplit id]
      simp only [WillHave, hfind]
      exact or_right_comm

theorem promote_alone (s₀ : Shared) (due rest : List WebhookDelivery) (row : WebhookDelivery)
    (promoted : Nat) :
    Triple answer alone (Promoting s₀ due (row :: rest)) (promote promoted row)
      (Ends (fun _ => False) fun _ => Promoting s₀ due rest) := by
  refine Triple.bind_ends alone_frame (Q := fun endpoint? s => Promoting s₀ due (row :: rest) s ∧
    s.endpoints.find? row.endpointId = endpoint?) ?_ fun endpoint? => ?_
  · refine alone_call fun m s hm hs => ⟨s.endpoints.find? row.endpointId, ?_, ?_⟩
    · rw [answer_answered hm]
      rfl
    · rw [answer_answered hm]
      exact ⟨hs, rfl⟩
  refine Triple.bind_ends alone_frame (Q := fun _ s => Promoting s₀ due (row :: rest) s ∧
    s.endpoints.find? row.endpointId = endpoint?) (alone_call fun m s _ hs => ⟨m.now, rfl, hs⟩)
    fun at_ => ?_
  have hdone : ∀ promoted : Nat, Triple answer alone (Promoting s₀ due rest) (pure promoted)
      (Ends (fun _ => False) fun _ => Promoting s₀ due rest) :=
    fun promoted => Triple.pure_ends (stable_alone _) fun _ _ hs => hs
  cases henabled : endpoint?.filter (·.enabled) with
  | none =>
    refine Triple.bind_ends alone_frame (Q := fun _ => Promoting s₀ due rest) ?_ fun _ =>
      hdone promoted
    refine alone_call fun m s hm hs => ⟨(), ?_⟩
    obtain ⟨old, hold⟩ := Option.isSome_iff_exists.1 (hs.1.rows row List.mem_cons_self)
    simp only [answer_answered hm, perform, hold, true_and]
    refine hs.1.skip ?_ _ _
    rintro ⟨endpoint, hendpoint, hon⟩
    rw [hs.2] at hendpoint
    exact absurd hon (by simpa using Option.filter_eq_none_iff.1 henabled endpoint hendpoint)
  | some endpoint =>
    refine Triple.bind_ends alone_frame (Q := fun _ => Promoting s₀ due rest) ?_ fun _ =>
      hdone (promoted + 1)
    refine alone_call fun m s hm hs => ⟨(), ?_⟩
    obtain ⟨hsome, hon⟩ := Option.filter_eq_some_iff.1 henabled
    rw [answer_answered hm]
    refine ⟨?_, hs.1.insert ⟨endpoint, hs.2.trans hsome, hon⟩ m _ _⟩
    simp only [perform]
    split <;> rfl

/-- **What one call leaves**: the attempts there were, and the successors of the batch. -/
theorem promoted_iff {o : WebhookDispatcherOptions} {feed : Nat → Moment} {n : Nat} (s : Shared)
    (hfeed : ∀ k, (feed k).fate = .answered) (id : DeliveryId) :
    (((promoteDueRetries o).exec answer feed n s).2.deliveries.find? id).isSome ↔
      WillHave s ((dueRetries (feed n).now (feed (n + 1)) s).take o.batchSize) id := by
  have hexec : (promoteDueRetries o).exec answer feed n s =
      (((dueRetries (feed n).now (feed (n + 1)) s).take o.batchSize).foldlM promote 0).exec answer
        feed (n + 2) s := by
    simp [promoteDueRetries, now, db, Bind.bind, Program.bind, Program.andThen, Program.call,
      Program.exec, answer, perform, hfeed]
  set due := (dueRetries (feed n).now (feed (n + 1)) s).take o.batchSize
  have hstart : Promoting s due due s := by
    refine ⟨rfl, fun row hrow => ?_, fun _ => Iff.rfl⟩
    have hmem := (mem_dueRetries.1 (List.mem_of_mem_take hrow)).1
    rw [Table.find?_of_mem hmem]
    rfl
  have hloop := Triple.foldlM_ends alone_frame (I := fun rest _ => Promoting s due rest)
    (fun _ => stable_alone _) (fun row rest promoted => promote_alone s due rest row promoted) due 0
  have hpost : Ends (fun _ => False) (fun _ => Promoting s due [])
      ((due.foldlM promote 0).exec answer feed (n + 2) s).1
      ((due.foldlM promote 0).exec answer feed (n + 2) s).2 :=
    (hloop s trivial hstart).exec trivial (fun _ => rfl) fun _ k _ => hfeed k
  rw [hexec]
  cases hresult : ((due.foldlM promote 0).exec answer feed (n + 2) s).1 with
  | error e =>
    rw [hresult] at hpost
    exact hpost.elim
  | ok promoted =>
    rw [hresult] at hpost
    simpa [WillHave] using hpost.attempts id

/-! ## Progress -/

/-- **Retries make progress** exactly when no due retry waits for its successor, or one that does is
in the first batch. -/
theorem promotes_iff (o : WebhookDispatcherOptions) (feed : Nat → Moment) (n : Nat) (s : Shared)
    (hfeed : ∀ k, (feed k).fate = .answered) :
    ((∃ id, Open (feed n).now s id) → ∃ id, Open (feed n).now s id ∧
      (((promoteDueRetries o).exec answer feed n s).2.deliveries.find? id.next).isSome) ↔
    ((∃ id, Open (feed n).now s id) →
      ∃ row ∈ (dueRetries (feed n).now (feed (n + 1)) s).take o.batchSize,
        Open (feed n).now s row.toDeliveryId) := by
  refine forall_congr' fun _ => ⟨?_, ?_⟩
  · rintro ⟨id, hopen, hsome⟩
    rcases (promoted_iff s hfeed id.next).1 hsome with hold | ⟨row, hrow, hnext, -⟩
    · rw [hopen.2.1] at hold
      cases hold
    · exact ⟨row, hrow, DeliveryId.next_injective hnext ▸ hopen⟩
  · rintro ⟨row, hrow, hopen⟩
    refine ⟨row.toDeliveryId, hopen, (promoted_iff s hfeed _).2 (.inr ⟨row, hrow, rfl, ?_⟩)⟩
    exact hopen.2.2

/-- A call that leaves the rows as they are makes no progress. -/
theorem Open.not_next {now : Int} {s s' : Shared}
    (hrows : s'.deliveries.rows = s.deliveries.rows) :
    ¬∃ id, Open now s id ∧ (s'.deliveries.find? id.next).isSome := by
  rintro ⟨id, ⟨-, hnone, -⟩, hsome⟩
  rw [Table.find?, hrows] at hsome
  rw [Table.find?] at hnone
  rw [hnone] at hsome
  cases hsome

/-! ## A batch that was followed -/

namespace Shop

def oneByOne : WebhookDispatcherOptions := { options with batchSize := 1 }

/-- The first attempt fails, and the second, which was promoted, fails as well. -/
def failing : List (Move Unit Moment Change) :=
  [.environment (.create endpoint), .environment (.emit event), .start ()] ++
    steps 0 25 (moment 0 500) ++ .start () :: steps 1 25 (moment 60000 500)

/-- A batch with the second attempt in it is promoted. -/
theorem promotes_two :
    let s := ((system options).after failing Shared.empty).shared
    let s' := ((promoteDueRetries options).exec answer (fun _ => moment 200000 200) 0 s).2
    (∃ id, Open 200000 s id) ∧
      ∃ id, Open 200000 s id ∧ (s'.deliveries.find? id.next).isSome := by
  intro s s'
  have hopen : Open 200000 s (attempt 2) := by decide +kernel
  have hbatch : (s.deliveries.find? (attempt 2)).any fun row =>
      row ∈ (dueRetries 200000 (moment 200000 200) s).take options.batchSize := by decide +kernel
  obtain ⟨row, hrow, hmem⟩ := (Option.any_eq_true _ _).1 hbatch
  have hid := Table.key_of_find? hrow
  refine ⟨⟨attempt 2, hopen⟩, (promotes_iff options (fun _ => moment 200000 200) 0 s
    fun _ => rfl).2 (fun _ => ⟨row, of_decide_eq_true hmem, ?_⟩) ⟨attempt 2, hopen⟩⟩
  exact hid ▸ hopen

/-- The batch is the first attempt, which was followed. The second is due as well, and the call leaves
all rows as they are. -/
theorem retries_starved : ∃ s : State,
    (system oneByOne).Reachable single Shared.empty s ∧
      let s' := ((promoteDueRetries oneByOne).exec answer (fun _ => moment 200000 200) 0 s.shared).2
      (∃ id, Open 200000 s.shared id) ∧
        (¬∃ id, Open 200000 s.shared id ∧ (s'.deliveries.find? id.next).isSome) ∧
        s'.deliveries.rows = s.shared.deliveries.rows :=
  ⟨(system oneByOne).after failing Shared.empty, System.reachable_after (by decide +kernel),
    ⟨attempt 2, by decide +kernel⟩, Open.not_next (by decide +kernel), by decide +kernel⟩

end Shop

end Webhooks

end PaymentGateway
