import PaymentGateway.Monitor.Failures
import PaymentGateway.System.Interleaving

/-!
# The webhook outbox

Some writers create the webhook event of the status they enter, others upsert it, and the steps
back after a reorg emit nothing. `entered` lists the statuses an invoice has been in since it
exists.

**Theorem (`outbox_exact`).** In every committed state of every run of the services the webhook
events of an invoice are one for each status it has entered that has one, and no others; and no
operation fails because such an event exists.

The events under the keys of an invoice are those of the entered statuses (`Covered`): an emission
adds a key exactly when its status is entered for the first time. What the invariant has to know
about the silent steps and about the creating ones follows from the log of status writes:

* a step back leads to PENDING, where every invoice starts, or to DETECTED, and then only with a
  transfer awaiting confirmation, whose sighting led there before (`Outbox.sighted`);
* EXPIRED and CANCELLED are created, and no service leads an invoice back from them to a status
  that expires or may be cancelled (`closed_of_path`).
-/

namespace PaymentGateway

open Keyed Fallible Transactional MonitorService

variable {may : Right → Prop} {db db' : Db}

/-! ## Keys -/

theorem WebhookEventType.colon_notMem_name (type : WebhookEventType) :
    ':' ∉ type.name.toList := by
  cases type <;> decide

theorem WebhookEventType.name_injective {type type' : WebhookEventType}
    (h : type.name.toList = type'.name.toList) : type = type' := by
  revert h
  cases type <;> cases type' <;> decide

/-- The key of a webhook event determines its type and its invoice. -/
theorem webhookKey_injective {type type' : WebhookEventType} {id id' : String}
    (h : type.name ++ ":" ++ id = type'.name ++ ":" ++ id') : type = type' ∧ id = id' := by
  have hcolon : ":".toList = [':'] := by decide
  have hlist := congrArg String.toList h
  simp only [String.toList_append, hcolon, List.append_assoc, List.singleton_append] at hlist
  obtain ⟨hname, hid⟩ :=
    Separated.append_left type.colon_notMem_name type'.colon_notMem_name hlist
  exact ⟨WebhookEventType.name_injective hname, String.toList_injective hid⟩

/-! ## Statuses and their events -/

/-- The statuses an invoice has entered, PENDING at its creation first. -/
def entered (db : Db) (invoiceId : String) : List InvoiceStatus :=
  if (db.invoices.find? invoiceId).isSome then
    .pending :: (writesOf db invoiceId).map (·.written)
  else []

/-- The events under the keys of an invoice are those of some statuses. -/
def Covered (webhooks : Db.Webhooks) (invoiceId : String) (statuses : List InvoiceStatus) :
    Prop :=
  ∀ type : WebhookEventType, (webhooks.find? (type.name ++ ":" ++ invoiceId)).isSome = true ↔
    ∃ s ∈ statuses, webhookEventForStatus s = some type

theorem Covered.congr {webhooks : Db.Webhooks} {id : String} {v v' : List InvoiceStatus}
    (h : Covered webhooks id v) (hv : ∀ s, s ∈ v' ↔ s ∈ v) : Covered webhooks id v' := by
  intro type
  rw [h type]
  simp only [hv]

/-- An emission adds at most the key of its type. -/
theorem Emitted.find?_isSome {old new : Db.Webhooks} {id : String}
    {emitted : Option WebhookEventType} (h : Db.Emitted old id emitted new)
    (type : WebhookEventType) :
    (new.find? (type.name ++ ":" ++ id)).isSome = true ↔
      (old.find? (type.name ++ ":" ++ id)).isSome = true ∨ emitted = some type := by
  cases h with
  | silent => simp
  | @again type' hsome =>
    constructor
    · exact .inl
    · rintro (hold | heq)
      · exact hold
      · rw [← Option.some.inj heq]
        exact hsome
  | @first row hid hkey hfree =>
    rw [Table.find?_insert]
    by_cases htype : row.type = type
    · subst htype
      simp [hkey]
    · have hne : row.idempotencyKey ≠ type.name ++ ":" ++ id := by
        intro heq
        exact htype (webhookKey_injective (hkey.symm.trans heq)).1
      rw [if_neg hne]
      simp [htype]

theorem Emitted.find?_other {old new : Db.Webhooks} {id id' : String}
    {emitted : Option WebhookEventType} (h : Db.Emitted old id emitted new) (hne : id' ≠ id)
    (type : WebhookEventType) :
    new.find? (type.name ++ ":" ++ id') = old.find? (type.name ++ ":" ++ id') := by
  cases h with
  | silent => rfl
  | again => rfl
  | @first row hid hkey hfree =>
    have hkeys : row.idempotencyKey ≠ type.name ++ ":" ++ id' := by
      intro heq
      exact hne (webhookKey_injective (hkey.symm.trans heq)).2.symm
    rw [Table.find?_insert, if_neg hkeys]

theorem Emitted.covered {old new : Db.Webhooks} {id : String} {v : List InvoiceStatus}
    {s : InvoiceStatus} (h : Db.Emitted old id (webhookEventForStatus s) new)
    (hv : Covered old id v) : Covered new id (v ++ [s]) := by
  intro type
  rw [Emitted.find?_isSome h, hv type]
  simp [or_and_right, exists_or]

/-- Every row stands under the key of its type and invoice. -/
def KeyedByType (webhooks : Db.Webhooks) : Prop :=
  ∀ row ∈ webhooks, row.idempotencyKey = row.type.name ++ ":" ++ row.invoiceId

theorem Emitted.keyed {old new : Db.Webhooks} {id : String} {emitted : Option WebhookEventType}
    (h : Db.Emitted old id emitted new) (hk : KeyedByType old) : KeyedByType new := by
  cases h with
  | silent => exact hk
  | again => exact hk
  | first hid hkey hfree =>
    intro row hrow
    rcases Table.mem_insert.1 hrow with hrow | rfl
    · exact hk row hrow
    · rw [hid]
      exact hkey

/-- What a list of announced writes leaves in the outbox. -/
theorem Announced.covered {ev ev' : Db.Events} {wh wh' : Db.Webhooks} {ws : List StatusWrite}
    {id name : String} {v : List InvoiceStatus} (h : Db.Announced name ev wh ws ev' wh')
    (hid : ∀ w ∈ ws, w.invoiceId = id) (hv : Covered wh id v) :
    Covered wh' id (v ++ ws.map (·.written)) := by
  induction h generalizing v with
  | nil ev wh => simpa using hv
  | @cons _ _ _ _ _ _ w ws _ hemitted _ ih =>
    have hfirst : w.invoiceId = id := hid w List.mem_cons_self
    rw [hfirst] at hemitted
    have hrest := ih (fun x hx => hid x (List.mem_cons_of_mem _ hx)) (Emitted.covered hemitted hv)
    rwa [List.append_assoc] at hrest

theorem Announced.find?_other {ev ev' : Db.Events} {wh wh' : Db.Webhooks} {ws : List StatusWrite}
    {id id' name : String} (h : Db.Announced name ev wh ws ev' wh')
    (hid : ∀ w ∈ ws, w.invoiceId = id) (hne : id' ≠ id) (type : WebhookEventType) :
    wh'.find? (type.name ++ ":" ++ id') = wh.find? (type.name ++ ":" ++ id') := by
  induction h with
  | nil ev wh => rfl
  | @cons _ _ _ _ _ _ w ws _ hemitted _ ih =>
    have hfirst : w.invoiceId = id := hid w List.mem_cons_self
    rw [ih fun x hx => hid x (List.mem_cons_of_mem _ hx),
      Emitted.find?_other hemitted (hfirst.symm ▸ hne)]

theorem Announced.keyed {ev ev' : Db.Events} {wh wh' : Db.Webhooks} {ws : List StatusWrite}
    {name : String} (h : Db.Announced name ev wh ws ev' wh') (hk : KeyedByType wh) : KeyedByType wh' := by
  induction h with
  | nil ev wh => exact hk
  | cons _ hemitted _ ih => exact ih (Emitted.keyed hemitted hk)

/-! ## Paths of the services -/

/-- The monitor writes any status, the system EXPIRED and a merchant CANCELLED. -/
def ServiceWrite (w : StatusWrite) : Prop :=
  w.writer = .monitor ∨ (w.writer = .system ∧ w.written = .expired) ∨
    (w.writer = .merchant ∧ w.written = .cancelled)

/-- Statuses that are entered through DETECTED. -/
def beyondDetected : List InvoiceStatus := [.detected, .confirming, .underpaid, .overpaid]

/-- Statuses that no service leads back from. -/
def closedStatuses : List InvoiceStatus :=
  [.expired, .cancelled, .latePaymentReview, .reconciliationRequired]

theorem beyondDetected_edge {source target : InvoiceStatus} {actor : TransitionActor}
    (hserved : actor = .monitor ∨ (actor = .system ∧ target = .expired) ∨
      (actor = .merchant ∧ target = .cancelled))
    (hallowed : isActorAllowed source target actor = true) (ht : target ∈ beyondDetected) :
    target = .detected ∨ source ∈ beyondDetected := by
  rcases hserved with rfl | ⟨rfl, rfl⟩ | ⟨rfl, rfl⟩
  · revert hallowed ht
    cases target <;> cases source <;> decide
  · exact absurd ht (by decide)
  · exact absurd ht (by decide)

theorem closedStatuses_edge {source target : InvoiceStatus} {actor : TransitionActor}
    (hserved : actor = .monitor ∨ (actor = .system ∧ target = .expired) ∨
      (actor = .merchant ∧ target = .cancelled))
    (hallowed : isActorAllowed source target actor = true) (hs : source ∈ closedStatuses) :
    target ∈ closedStatuses := by
  rcases hserved with rfl | ⟨rfl, rfl⟩ | ⟨rfl, rfl⟩
  · revert hallowed hs
    cases target <;> cases source <;> decide
  · decide
  · decide

theorem detected_of_path {id : String} {source target : InvoiceStatus} {ws : List StatusWrite}
    (hpath : Db.StatusPath id source ws target) (hserved : ∀ w ∈ ws, ServiceWrite w)
    (ht : target ∈ beyondDetected) :
    source ∈ beyondDetected ∨ .detected ∈ ws.map (·.written) := by
  induction hpath with
  | nil s => exact .inl ht
  | @cons w ws s _ hallowed _ ih =>
    rcases ih (fun x hx => hserved x (List.mem_cons_of_mem _ hx)) ht with hw | hdetected
    · rcases beyondDetected_edge (hserved w List.mem_cons_self) hallowed hw with heq | hsource
      · exact .inr (by simp [heq])
      · exact .inl hsource
    · exact .inr (by simp [hdetected])

theorem closed_of_path {id : String} {source target : InvoiceStatus} {ws : List StatusWrite}
    (hpath : Db.StatusPath id source ws target) (hserved : ∀ w ∈ ws, ServiceWrite w)
    (hentered : ∃ s ∈ source :: ws.map (·.written), s ∈ closedStatuses) :
    target ∈ closedStatuses := by
  induction hpath with
  | nil s =>
    obtain ⟨s', hs', hclosed⟩ := hentered
    rwa [List.mem_singleton.1 hs'] at hclosed
  | @cons w ws s _ hallowed _ ih =>
    refine ih (fun x hx => hserved x (List.mem_cons_of_mem _ hx)) ?_
    obtain ⟨s', hs', hclosed⟩ := hentered
    rcases List.mem_cons.1 hs' with rfl | hs'
    · exact ⟨w.written, List.mem_cons_self,
        closedStatuses_edge (hserved w List.mem_cons_self) hallowed hclosed⟩
    · exact ⟨s', hs', hclosed⟩

/-! ## The invariant -/

structure Outbox (db : Db) : Prop where
  keyed : KeyedByType db.webhookEvents
  covered : ∀ id, Covered db.webhookEvents id (entered db id)
  logged : Logged db
  served : ∀ w ∈ db.statusWrites, ServiceWrite w
  /-- A transfer that awaits confirmation has taken its invoice to DETECTED. -/
  sighted : ∀ t ∈ db.transfers, t.matchStatus = .pendingConfirmation →
    ∀ id, t.invoiceId = some id → .detected ∈ entered db id

theorem outbox_empty : Outbox Db.empty where
  keyed row hrow := absurd hrow (Table.not_mem_empty row)
  covered id type := by simp [Db.empty, entered]
  logged := logged_empty
  served w hw := absurd hw List.not_mem_nil
  sighted t ht := absurd ht (Table.not_mem_empty t)

theorem entered_of_find? {id : String} {i : Invoice} (h : db.invoices.find? id = some i) :
    entered db id = .pending :: (writesOf db id).map (·.written) := by
  unfold entered
  rw [h]
  rfl

/-- The path of an invoice, as the services wrote it. -/
theorem Outbox.path (h : Outbox db) {i : Invoice} (hi : db.invoices.find? i.id = some i) :
    Db.StatusPath i.id .pending (writesOf db i.id) i.status ∧
      ∀ w ∈ writesOf db i.id, ServiceWrite w :=
  ⟨h.logged.path i (Table.mem_of_find? hi), fun w hw => h.served w (List.mem_filter.1 hw).1⟩

/-- An invoice beyond DETECTED has been there. -/
theorem Outbox.detected_entered (h : Outbox db) {i : Invoice}
    (hi : db.invoices.find? i.id = some i) (hs : i.status ∈ beyondDetected) :
    .detected ∈ entered db i.id := by
  obtain ⟨hpath, hserved⟩ := h.path hi
  rw [entered_of_find? hi]
  rcases detected_of_path hpath hserved hs with hpending | hdetected
  · exact absurd hpending (by decide)
  · exact List.mem_cons_of_mem _ hdetected

/-- An invoice that has been in a status no service leads back from is in one of them. -/
theorem Outbox.closed (h : Outbox db) {i : Invoice} (hi : db.invoices.find? i.id = some i)
    {s : InvoiceStatus} (hs : s ∈ entered db i.id) (hclosed : s ∈ closedStatuses) :
    i.status ∈ closedStatuses := by
  obtain ⟨hpath, hserved⟩ := h.path hi
  rw [entered_of_find? hi] at hs
  exact closed_of_path hpath hserved ⟨s, hs, hclosed⟩

/-- Transfers that await confirmation did so before. -/
def KeepsPending (db db' : Db) : Prop :=
  ∀ t ∈ db'.transfers, t.matchStatus = .pendingConfirmation →
    ∃ t' ∈ db.transfers, t'.matchStatus = .pendingConfirmation ∧ t'.invoiceId = t.invoiceId

theorem keepsPending_of_eq (h : db'.transfers = db.transfers) : KeepsPending db db' := by
  intro t ht hp
  rw [h] at ht
  exact ⟨t, ht, hp, rfl⟩

/-- Nothing but transfers has changed. -/
theorem Outbox.congr (h : Outbox db) (hl : Logged db')
    (hinvoices : ∀ id, (db'.invoices.find? id).isSome = (db.invoices.find? id).isSome)
    (hwrites : db'.statusWrites = db.statusWrites)
    (hwebhooks : db'.webhookEvents = db.webhookEvents)
    (hrows : ∀ t ∈ db'.transfers, t.matchStatus = .pendingConfirmation →
      (∃ t' ∈ db.transfers, t'.matchStatus = .pendingConfirmation ∧ t'.invoiceId = t.invoiceId) ∨
      ∀ id, t.invoiceId = some id → .detected ∈ entered db id) : Outbox db' := by
  have hentered : ∀ id, entered db' id = entered db id := by
    intro id
    unfold entered writesOf
    rw [hinvoices, hwrites]
  refine ⟨hwebhooks ▸ h.keyed, fun id => ?_, hl, hwrites ▸ h.served, fun t ht hp id hid => ?_⟩
  · rw [hwebhooks, hentered]
    exact h.covered id
  · rw [hentered]
    rcases hrows t ht hp with ⟨t', ht', hp', hsame⟩ | hdetected
    · exact h.sighted t' ht' hp' id (hsame.trans hid)
    · exact hdetected id hid

/-- Writes of one invoice, with an outbox that covers them. -/
theorem Outbox.write (h : Outbox db) (hl : Logged db') {stored : Invoice} {ws : List StatusWrite}
    (hfind : db.invoices.find? stored.id = some stored)
    (hinvoices : ∀ id, (db'.invoices.find? id).isSome = (db.invoices.find? id).isSome)
    (hwrites : db'.statusWrites = db.statusWrites ++ ws)
    (hid : ∀ w ∈ ws, w.invoiceId = stored.id) (hserved : ∀ w ∈ ws, ServiceWrite w)
    (hkeyed : KeyedByType db'.webhookEvents)
    (hcovered : Covered db'.webhookEvents stored.id
      (entered db stored.id ++ ws.map (·.written)))
    (hothers : ∀ id, id ≠ stored.id → ∀ type : WebhookEventType,
      db'.webhookEvents.find? (type.name ++ ":" ++ id) =
        db.webhookEvents.find? (type.name ++ ":" ++ id))
    (hrows : ∀ t ∈ db'.transfers, t.matchStatus = .pendingConfirmation →
      (∃ t' ∈ db.transfers, t'.matchStatus = .pendingConfirmation ∧ t'.invoiceId = t.invoiceId) ∨
      (t.invoiceId = some stored.id ∧ .detected ∈ ws.map (·.written))) : Outbox db' := by
  have hself : entered db' stored.id = entered db stored.id ++ ws.map (·.written) := by
    have hall : ws.filter (fun w => w.invoiceId = stored.id) = ws :=
      List.filter_eq_self.2 fun w hw => decide_eq_true (hid w hw)
    unfold entered writesOf
    rw [hinvoices, hfind, hwrites, List.filter_append, hall, List.map_append]
    simp
  have hother : ∀ id, id ≠ stored.id → entered db' id = entered db id := by
    intro id hne
    have hnone : ws.filter (fun w => w.invoiceId = id) = [] :=
      List.filter_eq_nil_iff.2 fun w hw => by simp [hid w hw, hne.symm]
    unfold entered writesOf
    rw [hinvoices, hwrites, List.filter_append, hnone, List.append_nil]
  have hgrows : ∀ id s, s ∈ entered db id → s ∈ entered db' id := by
    intro id s hs
    by_cases heq : id = stored.id
    · rw [heq, hself]
      exact List.mem_append_left _ (heq ▸ hs)
    · rwa [hother id heq]
  refine ⟨hkeyed, fun id => ?_, hl, fun w hw => ?_, fun t ht hp id hid' => ?_⟩
  · by_cases heq : id = stored.id
    · rw [heq, hself]
      exact hcovered
    · intro type
      rw [hothers id heq, hother id heq]
      exact h.covered id type
  · rw [hwrites] at hw
    rcases List.mem_append.1 hw with hw | hw
    · exact h.served w hw
    · exact hserved w hw
  · rcases hrows t ht hp with ⟨t', ht', hp', hsame⟩ | ⟨hsame, hdetected⟩
    · exact hgrows id _ (h.sighted t' ht' hp' id (hsame.trans hid'))
    · obtain rfl : stored.id = id := Option.some.inj (hsame.symm.trans hid')
      rw [hself]
      exact List.mem_append_right _ hdetected

/-- Announced writes of one invoice. -/
theorem Outbox.announced (h : Outbox db) (hl : Logged db') {stored : Invoice}
    {ws : List StatusWrite} {name : String} {events : Db.Events}
    (hfind : db.invoices.find? stored.id = some stored)
    (hinvoices : ∀ id, (db'.invoices.find? id).isSome = (db.invoices.find? id).isSome)
    (hwrites : db'.statusWrites = db.statusWrites ++ ws)
    (hid : ∀ w ∈ ws, w.invoiceId = stored.id) (hserved : ∀ w ∈ ws, ServiceWrite w)
    (hsaid : Db.Announced name db.events db.webhookEvents ws events db'.webhookEvents)
    (hrows : ∀ t ∈ db'.transfers, t.matchStatus = .pendingConfirmation →
      (∃ t' ∈ db.transfers, t'.matchStatus = .pendingConfirmation ∧ t'.invoiceId = t.invoiceId) ∨
      (t.invoiceId = some stored.id ∧ .detected ∈ ws.map (·.written))) : Outbox db' :=
  h.write hl hfind hinvoices hwrites hid hserved (Announced.keyed hsaid h.keyed)
    (Announced.covered hsaid hid (h.covered stored.id))
    (fun _ hne type => Announced.find?_other hsaid hid hne type) hrows

/-! ## Effects -/

/-- A status write that emits what its status asks for. -/
theorem Outbox.withStatus (h : Outbox db) {stored : Invoice} {target : InvoiceStatus}
    {writer : TransitionActor} {data : InvoiceData} {name : String} {events : Db.Events}
    {webhooks : Db.Webhooks} (hfind : db.invoices.find? stored.id = some stored)
    (hallowed : isActorAllowed stored.status target writer = true)
    (hserved : ServiceWrite ⟨stored.id, stored.status, target, writer⟩)
    (hsaid : ∃ source, Db.Announced name db.events db.webhookEvents
      [⟨stored.id, source, target, writer⟩] events webhooks) :
    Outbox (db.withStatus stored target writer data events webhooks) := by
  obtain ⟨source, hsaid⟩ := hsaid
  have hid : ∀ w ∈ [(⟨stored.id, source, target, writer⟩ : StatusWrite)],
      w.invoiceId = stored.id := by
    intro w hw
    rw [List.mem_singleton.1 hw]
  have hcovered := Announced.covered hsaid hid (h.covered stored.id)
  refine h.write (h.logged.withStatus hfind hallowed) hfind (Db.find?_withStatus_isSome ·) rfl ?_ ?_
    (Announced.keyed hsaid h.keyed) hcovered ?_ ?_
  · intro w hw
    rw [List.mem_singleton.1 hw]
  · intro w hw
    rw [List.mem_singleton.1 hw]
    exact hserved
  · exact fun id hne type => Announced.find?_other hsaid hid hne type
  · exact fun t ht hp => .inl (keepsPending_of_eq rfl t ht hp)

/-- A silent step back to a status the invoice has been in. -/
theorem Outbox.withStatus_silent (h : Outbox db) {stored : Invoice} {target : InvoiceStatus}
    {data : InvoiceData} {events : Db.Events}
    (hfind : db.invoices.find? stored.id = some stored)
    (hallowed : isActorAllowed stored.status target .monitor = true)
    (hentered : target ∈ entered db stored.id) :
    Outbox (db.withStatus stored target .monitor data events db.webhookEvents) := by
  refine h.write (h.logged.withStatus hfind hallowed) hfind (Db.find?_withStatus_isSome ·) rfl ?_ ?_
    h.keyed ?_ ?_ ?_
  · intro w hw
    rw [List.mem_singleton.1 hw]
  · intro w hw
    rw [List.mem_singleton.1 hw]
    exact .inl rfl
  · refine (h.covered stored.id).congr fun s => ?_
    simp only [List.map_cons, List.map_nil, List.mem_append, List.mem_singleton]
    exact ⟨fun hs => hs.elim id fun heq => heq ▸ hentered, .inl⟩
  · exact fun id hne type => rfl
  · exact fun t ht hp => .inl (keepsPending_of_eq rfl t ht hp)

/-- A row that awaits confirmation after a sighting did so before, or the sighting decided it. -/
theorem pending_upsertTransfer {s : Sighting} {row t : TokenTransfer}
    (huncredited : (db.transfers.find? s.key).bind (·.creditedAt) = none)
    (hrow : s.row db = .ok row) (ht : t ∈ (db.upsertTransfer row).transfers) :
    t ∈ db.transfers ∨
      (t.matchStatus = (s.decision db).status ∧ t.invoiceId = (s.invoice db).map (·.id)) := by
  have hfind := Table.find?_of_mem ht
  rw [Db.find?_upsertTransfer] at hfind
  split_ifs at hfind with hk
  · rw [hk, (row_eq_ok hrow).1] at hfind
    obtain ⟨-, hstatus, hinvoice, -⟩ := observed_row hrow huncredited
    rw [← Option.some.inj hfind]
    exact .inr ⟨hstatus, hinvoice⟩
  · exact .inl (Table.mem_of_find? hfind)

/-- What a sighting decided to await belongs to an invoice that was payable. -/
theorem pending_decision {s : Sighting} (h : (s.decision db).status = .pendingConfirmation) :
    ∃ invoice, s.invoice db = some invoice ∧ isPayableStatus invoice.status = true := by
  obtain ⟨-, -, -, -, -, -, status, hstatus, hpayable⟩ := (pending_iff _).1 h
  obtain ⟨invoice, hinvoice, rfl⟩ := Option.map_eq_some_iff.1 hstatus
  exact ⟨invoice, hinvoice, hpayable⟩

theorem beyondDetected_of_payable {s : InvoiceStatus} (hpayable : isPayableStatus s = true)
    (hstays : canTransition s .detected = false) : s ∈ beyondDetected := by
  revert hpayable hstays
  cases s <;> decide

/-- Changing transfers without making any await confirmation. -/
theorem keepsPending_modify {key : TransferKey} {f : TokenTransfer → TokenTransfer}
    {hf : ∀ r, (f r).key = r.key} (hid : ∀ r, (f r).invoiceId = r.invoiceId)
    (hstatus : ∀ r, (f r).matchStatus = .pendingConfirmation →
      r.matchStatus = .pendingConfirmation) :
    KeepsPending db { db with transfers := db.transfers.modify key f hf } := by
  intro t ht hp
  have ht' : t ∈ db.transfers.modify key f hf := ht
  obtain ⟨r, hr, rfl⟩ := Table.mem_modify.1 ht'
  refine ⟨r, hr, ?_⟩
  split_ifs at hp ⊢
  · exact ⟨hstatus r hp, (hid r).symm⟩
  · exact ⟨hp, rfl⟩

/-- A settlement that credits makes no transfer await confirmation. -/
theorem Accepted.keepsPending {invoice : Invoice} {merchant : Merchant} {target : InvoiceStatus}
    (h : Accepted db db' invoice merchant target) (hc : CreditsAgree db) : KeepsPending db db' := by
  obtain ⟨db1, htransfers, -, hloop⟩ := h.creditLoop hc
  intro t ht hp
  rcases hloop.rows t.key with hsame | ⟨t', -, -, -, -, now, hcredited⟩
  · rw [Table.find?_of_mem ht, htransfers] at hsame
    exact ⟨t, Table.mem_of_find? hsame.symm, hp, rfl⟩
  · rw [Table.find?_of_mem ht] at hcredited
    rw [Option.some.inj hcredited] at hp
    cases hp

/-- A new invoice, which nothing was known of, and its first event. -/
theorem Outbox.create (h : Outbox db) (hl : Logged db') {invoice : Invoice}
    (hfree : db.invoices.find? invoice.id = none)
    (hinvoices : ∀ id, db'.invoices.find? id =
      if invoice.id = id then some invoice else db.invoices.find? id)
    (hwrites : db'.statusWrites = db.statusWrites) (htransfers : db'.transfers = db.transfers)
    (hemitted : Db.Emitted db.webhookEvents invoice.id (some .paymentCreated)
      db'.webhookEvents) : Outbox db' := by
  have hnone : entered db invoice.id = [] := by
    unfold entered
    rw [hfree]
    rfl
  have hunwritten : writesOf db invoice.id = [] := by
    refine List.filter_eq_nil_iff.2 fun w hw heq => ?_
    have hknown := h.logged.known w hw
    rw [of_decide_eq_true heq, hfree] at hknown
    cases hknown
  have hself : entered db' invoice.id = [.pending] := by
    have hsame : writesOf db' invoice.id = [] := by
      rw [← hunwritten]
      unfold writesOf
      rw [hwrites]
    unfold entered
    rw [hinvoices, if_pos rfl, hsame]
    rfl
  have hother : ∀ id, invoice.id ≠ id → entered db' id = entered db id := by
    intro id hne
    unfold entered writesOf
    rw [hinvoices, if_neg hne, hwrites]
  refine ⟨Emitted.keyed hemitted h.keyed, fun id => ?_, hl, hwrites ▸ h.served,
    fun t ht hp id hid => ?_⟩
  · by_cases heq : invoice.id = id
    · have hold := h.covered invoice.id
      rw [hnone] at hold
      have hnew : Covered db'.webhookEvents invoice.id ([] ++ [.pending]) :=
        Emitted.covered hemitted hold
      rw [← heq, hself]
      exact hnew
    · intro type
      rw [Emitted.find?_other hemitted (Ne.symm heq), hother id heq]
      exact h.covered id type
  · rw [htransfers] at ht
    have hdetected := h.sighted t ht hp id hid
    have hne : invoice.id ≠ id := by
      rintro rfl
      rw [hnone] at hdetected
      cases hdetected
    rwa [hother id hne]

/-- **Every effect but those of people keeps the outbox exact.** -/
theorem Effect.outbox (h : Effect may db db') (hcancel : ¬ may .cancel) (hedge : ¬ may .takeEdge)
    (hc : CreditsAgree db) (ho : Outbox db) : Outbox db' := by
  have hl : Logged db' := h.logged hcancel ho.logged
  cases h with
  | record _ huncredited hrow hstays =>
    obtain ⟨transfers, hupsert⟩ := Db.upsertTransfer_eq db _
    refine ho.congr hl ?_ ?_ ?_ fun t ht hp => ?_
    · rw [hupsert]
      exact fun id => rfl
    · rw [hupsert]
    · rw [hupsert]
    · rcases pending_upsertTransfer huncredited hrow ht with hold | ⟨hdecided, hinvoice⟩
      · exact .inl ⟨t, hold, hp, rfl⟩
      · -- The sighting did not move its invoice, which is therefore past DETECTED.
        right
        intro id hid
        have hstatus := hdecided.symm.trans hp
        obtain ⟨invoice, hfound, hpayable⟩ := pending_decision hstatus
        have hstay := hstays invoice .detected hfound (by rw [hstatus]; rfl)
        rw [hinvoice, hfound] at hid
        obtain rfl : invoice.id = id := Option.some.inj hid
        exact ho.detected_entered (find?_of_invoice hfound).1
          (beyondDetected_of_payable hpayable hstay)
  | @recordMove _ s row invoice target data events webhooks huncredited hrow hinvoice htarget
      hallowed _ hsaid =>
    have hfind := (find?_of_invoice hinvoice).1
    obtain ⟨transfers, hupsert⟩ := Db.upsertTransfer_eq db row
    refine ho.announced hl hfind ?_ ?_ ?_ ?_ hsaid fun t ht hp => ?_
    · rw [hupsert]
      exact fun id => Db.find?_withStatus_isSome id
    · rw [hupsert]
      rfl
    · intro w hw
      rw [List.mem_singleton.1 hw]
    · intro w hw
      rw [List.mem_singleton.1 hw]
      exact .inl rfl
    · rcases pending_upsertTransfer huncredited hrow ht with hold | ⟨hdecided, hid⟩
      · exact .inl ⟨t, hold, hp, rfl⟩
      · right
        rw [hid, hinvoice]
        refine ⟨rfl, ?_⟩
        rw [← hdecided, hp] at htarget
        rw [← Option.some.inj htarget]
        exact List.mem_singleton.2 rfl
  | confirming _ hfind hallowed hsaid =>
    exact ho.withStatus hfind hallowed (.inl rfl) ⟨_, hsaid⟩
  | settle _ hsettle hallowed _ hsaid =>
    exact ho.withStatus hsettle.invoice_found hallowed (.inl rfl) ⟨_, hsaid⟩
  | @accept _ invoice _ _ _ haccept =>
    have hkept := haccept.keepsPending hc
    obtain ⟨now, db1, hpaid, hcredits⟩ := haccept.credits
    obtain ⟨f, hf, writes, events, webhooks, _, _, _, hrow, ⟨hpath, hsaid, hwriter⟩, rfl⟩ :=
      accept_frame hpaid hcredits
    refine ho.announced hl haccept.settleable.invoice_found ?_ rfl ?_ ?_ hsaid ?_
    · intro id
      show ((db.invoices.modify invoice.id f hf).find? id).isSome = _
      exact Table.find?_modify_isSome id
    · exact fun w hw => (hpath.mem w hw).1
    · exact fun w hw => .inl (hwriter w hw)
    · exact fun t ht hp => .inl (hkept t ht hp)
  | @confirmations _ key _ n hrow =>
    have hkept : KeepsPending db { db with
        transfers :=
          db.transfers.modify key (Db.withConfirmations n) (Db.withConfirmations_key n) } :=
      keepsPending_modify (fun _ => rfl) (fun _ hr => hr)
    exact ho.congr hl (fun _ => rfl) rfl rfl fun t ht hp => .inl (hkept t ht hp)
  | @orphan _ row hrow huncredited =>
    have hkept : KeepsPending db { db with
        transfers := db.transfers.modify row.key Db.orphan Db.orphan_key } :=
      keepsPending_modify (fun _ => rfl) (fun _ hr => absurd hr TransferMatchStatus.noConfusion)
    exact ho.congr hl (fun _ => rfl) rfl rfl fun t ht hp => .inl (hkept t ht hp)
  | @revert _ invoice target events webhooks hfind hallowed htarget _ hsilent =>
    subst hsilent
    refine ho.withStatus_silent hfind hallowed ?_
    rw [htarget]
    split_ifs with hawaiting
    · -- Back to DETECTED: a transfer of the invoice still awaits confirmation.
      obtain ⟨t, ht⟩ := List.exists_mem_of_length_pos hawaiting
      obtain ⟨hmem, hid, hp⟩ := mem_awaiting.1 ht
      exact ho.sighted t hmem hp invoice.id hid
    · rw [entered_of_find? hfind]
      exact List.mem_cons_self
  | @flag _ _ invoice _ events webhooks _ _ _ hfind hallowed hsaid =>
    have hmoved : Outbox (db.withStatus invoice .reconciliationRequired .monitor
        { bumpVersion := true } events webhooks) :=
      ho.withStatus hfind hallowed (.inl rfl) ⟨_, hsaid⟩
    exact ⟨hmoved.keyed, hmoved.covered, hl, hmoved.served, hmoved.sighted⟩
  | expire _ hfind hallowed _ hsaid =>
    obtain ⟨name, -, hsaid⟩ := hsaid
    exact ho.withStatus hfind hallowed (.inr (.inl ⟨rfl, rfl⟩)) ⟨_, hsaid⟩
  | @create _ invoice _ _ _ _ _ hfree _ _ _ _ _ hemitted =>
    have hinvoices : ∀ id, (db.invoices.insert invoice hfree).find? id =
        if invoice.id = id then some invoice else db.invoices.find? id := Table.find?_insert
    exact ho.create hl hfree hinvoices rfl rfl hemitted
  | cancel hmay _ _ _ _ => exact absurd hmay hcancel
  | edge hmay _ _ _ _ _ => exact absurd hmay hedge
  | _ => exact ho.congr hl (fun _ => rfl) rfl rfl fun t ht hp => .inl ⟨t, ht, hp, rfl⟩

/-! ## Transactions -/

/-- A cancellation that writes finds what it has read and asserted on. -/
def Transaction.Fresh : Transaction → Db → Prop
  | .cancelWrite read _, db => ∀ i ∈ db.invoices.find? read.invoice.id,
      i.status = read.invoice.status ∧ isActorAllowed i.status .cancelled .merchant = true
  | _, _ => True

/-- The services' own operations: no edge is taken by hand. -/
def Operation.Served : Operation → Prop
  | .takeEdge _ _ _ => False
  | _ => True

instance : DecidablePred Operation.Served
  | .takeEdge _ _ _ => isFalse not_false
  | .processTransaction _ _ _ _ _ | .updateConfirmations _ _ _ | .handleReorg _ _ _
  | .sweepExpiredInvoices _ _ | .loadAndMaybeExpire _ _ _ | .cancelInvoice _ _ _
  | .createInvoice _ _ | .registerMerchant _ | .updateMerchant _
  | .registerAddress _ _ _ _ _ => isTrue trivial

def Transaction.Served : Transaction → Prop
  | .takeEdge _ _ _ => False
  | _ => True

/-- An operation that is served is automatic or a cancellation. -/
theorem Operation.Served.cases {op : Operation} (h : op.Served) :
    op.Automatic ∨ ∃ merchantId invoiceId now, op = .cancelInvoice merchantId invoiceId now := by
  cases op with
  | cancelInvoice merchantId invoiceId now => exact .inr ⟨_, _, _, rfl⟩
  | takeEdge => exact h.elim
  | _ => exact .inl trivial

theorem fresh_of_automatic {t : Transaction} (h : t.Automatic) (db : Db) : t.Fresh db := by
  cases t with
  | cancelWrite => exact h.elim
  | _ => trivial

/-- What the first step of a cancellation hands on is fresh in the state it leaves. -/
theorem cancelRead_fresh {merchantId id : String} {now : Int}
    {read : InvoicesService.CancelRead}
    (h : InvoicesService.cancelRead merchantId id now db = .ok (db', read)) :
    Transaction.load merchantId id now db = .ok db' ∧
      (Transaction.cancelWrite read now).Fresh db' := by
  obtain ⟨hload, hallowed, -⟩ := cancelRead_eq_ok h
  obtain ⟨⟨hid, hfind⟩, -⟩ := loadAndMaybeExpire_cases hload
  refine ⟨?_, fun i hi => ?_⟩
  · unfold Transaction.load
    rw [hload]
    rfl
  · rw [hid, hfind] at hi
    cases hi
    exact ⟨rfl, hallowed⟩

/-- Every script the services prepare keeps its cancellation fresh. -/
theorem script_fresh (op : Operation) (db : Db) (hop : op.Served) :
    gateway.Meets Transaction.Fresh (gateway.script op db) db := by
  rcases hop.cases with hauto | ⟨merchantId, invoiceId, now, rfl⟩
  · exact Machine.meets_of_forall
      (fun t ht db => fresh_of_automatic (automatic_script _ hauto t ht) db) db
  · refine ⟨trivial, fun db' hload => ?_⟩
    show gateway.Meets _ [(InvoicesService.cancelRead merchantId invoiceId now db).map
      fun r => .cancelWrite r.2 now] db'
    cases hread : InvoicesService.cancelRead merchantId invoiceId now db with
    | error e => trivial
    | ok r =>
      obtain ⟨hsame, hfresh⟩ := cancelRead_fresh hread
      have hdb : r.1 = db' := Except.ok.inj (hsame.symm.trans hload)
      exact ⟨hdb ▸ hfresh, fun _ _ => trivial⟩

theorem served_script {op : Operation} (db : Db) (hop : op.Served) (t : Transaction)
    (ht : Except.ok t ∈ gateway.script op db) : t.Served := by
  rcases hop.cases with hauto | ⟨merchantId, invoiceId, now, rfl⟩
  · have h := automatic_script db hauto t ht
    cases t with
    | takeEdge => exact h.elim
    | _ => trivial
  · rcases List.mem_cons.1 ht with heq | ht
    · cases heq
      trivial
    · have heq := List.mem_singleton.1 ht
      unfold Operation.cancelScript at heq
      cases hread : InvoicesService.cancelRead merchantId invoiceId now db with
      | error e => rw [hread] at heq; cases heq
      | ok r => rw [hread] at heq; cases heq; trivial

/-- The outbox with what its proof knows of the credits. -/
structure Delivered (db : Db) : Prop where
  agree : CreditsAgree db
  outbox : Outbox db

theorem delivered_empty : Delivered Db.empty := ⟨creditsAgree_empty, outbox_empty⟩

/-- **Every transaction of the services keeps the outbox exact.** -/
theorem Transaction.delivered {t : Transaction} (h : t.apply db = .ok db') (hserved : t.Served)
    (hfresh : t.Fresh db) (hd : Delivered db) : Delivered db' := by
  have heffects := Transaction.effects h
  have hagree : CreditsAgree db' := heffects.creditsAgree hd.agree
  by_cases hauto : t.Automatic
  · obtain ⟨hcancel, hedge⟩ := hauto.rights
    refine heffects.invariant Delivered hd fun a b ha hab => ?_
    exact ⟨hab.creditsAgree ha.agree, hab.outbox hcancel hedge ha.agree ha.outbox⟩
  · cases t with
    | cancelWrite read now =>
      obtain ⟨stored, data, events, webhooks, addresses, hid, hfind, -, -, hsaid, rfl⟩ :=
        cancelWrite_eq_ok h
      have hfound : db.invoices.find? read.invoice.id = some stored := hid ▸ hfind
      have hmoved : Outbox (db.withStatus stored .cancelled .merchant data events webhooks) :=
        hd.outbox.withStatus hfind (hfresh stored hfound).2 (.inr (.inr ⟨rfl, rfl⟩)) ⟨_, hsaid⟩
      exact ⟨hagree, hmoved.keyed, hmoved.covered, hmoved.logged.congr rfl rfl, hmoved.served,
        hmoved.sighted⟩
    | takeEdge => exact hserved.elim
    | _ => exact absurd trivial hauto

/-! ## No clash -/

/-- An invoice that may expire has not emitted the event of an expired one; one that may be
cancelled has not emitted that of a cancelled one. -/
theorem Outbox.unemitted (h : Outbox db) {i : Invoice} (hi : db.invoices.find? i.id = some i)
    (s : InvoiceStatus) {type : WebhookEventType}
    (hs : ∀ s', webhookEventForStatus s' = some type → s' = s) (hclosed : s ∈ closedStatuses)
    (hopen : i.status ∉ closedStatuses) :
    db.webhookEvents.find? (type.name ++ ":" ++ i.id) = none := by
  by_contra hsome
  obtain ⟨s', hs', htype⟩ := (h.covered i.id type).1 (Option.isSome_iff_ne_none.2 hsome)
  rw [hs s' htype] at hs'
  exact hopen (h.closed hi hs' hclosed)

theorem expirable_open {s : InvoiceStatus} (h : isActorAllowed s .expired .system = true) :
    s ∉ closedStatuses := by
  rcases expired_source h with rfl | rfl <;> decide

theorem cancellable_open {s : InvoiceStatus} (h : isActorAllowed s .cancelled .merchant = true) :
    s ∉ closedStatuses := by
  rcases cancelled_source.1 h with rfl | rfl | rfl <;> decide

theorem Outbox.load_unclashing (h : Outbox db) (merchantId id : String) (now : Int) :
    Unclashing (InvoicesService.loadAndMaybeExpire merchantId id now db) := by
  refine InvoicesService.loadAndMaybeExpire_unclashing fun invoice hfind hallowed => ?_
  have hid : invoice.id = id := Table.key_of_find? hfind
  refine h.unemitted (hid ▸ hfind) .expired ?_ (by decide) (expirable_open hallowed)
  intro s hs
  cases s <;> first | rfl | cases hs

/-- **No transaction of the services emits an event a second time.** -/
theorem Transaction.unclashing {t : Transaction} (hfresh : t.Fresh db) (h : Outbox db) :
    Unclashing (t.apply db) := by
  cases t with
  | recordTransfers network chainTx transfers graceSeconds now =>
    exact recordTransfers_unclashing network chainTx transfers graceSeconds now db
  | confirmTransfer transfer info now => exact confirmTransfer_unclashing transfer info now db
  | orphanTransaction key now => exact orphanTransaction_unclashing key now db
  | expireOne invoiceId now => exact ExpirySweep.expireOne_unclashing invoiceId now db
  | loadAndMaybeExpire merchantId invoiceId now =>
    intro e he
    have hload : Transaction.load merchantId invoiceId now db = .error e := he
    unfold Transaction.load at hload
    cases hread : InvoicesService.loadAndMaybeExpire merchantId invoiceId now db with
    | error e' =>
      rw [hread] at hload
      cases hload
      exact h.load_unclashing merchantId invoiceId now _ hread
    | ok r => rw [hread] at hload; cases hload
  | cancelWrite read now =>
    refine InvoicesService.cancelWrite_unclashing fun stored hfind => ?_
    have hid : stored.id = read.invoice.id := Table.key_of_find? hfind
    obtain ⟨-, hallowed⟩ := hfresh stored hfind
    rw [← hid] at hfind ⊢
    refine h.unemitted hfind .cancelled ?_ (by decide) (cancellable_open hallowed)
    intro s hs
    cases s <;> first | rfl | cases hs
  | createInvoice request now =>
    refine InvoicesService.createInvoice_unclashing fun hfree => ?_
    by_contra hsome
    obtain ⟨s, hs, -⟩ := (h.covered _ _).1 (Option.isSome_iff_ne_none.2 hsome)
    unfold entered at hs
    rw [hfree] at hs
    cases hs
  | registerMerchant merchant =>
    show Unclashing (Environment.registerMerchant merchant db)
    unfold Environment.registerMerchant
    split
    · exact avoids_error (by unfold Error.IsWebhookClash; decide)
    · exact avoids_ok _
  | updateMerchant settings =>
    show Unclashing (Environment.updateMerchant settings db)
    unfold Environment.updateMerchant
    split
    · exact avoids_error Error.noConfusion
    · exact avoids_ok _
  | registerAddress merchantId key address assetSymbol now =>
    show Unclashing (Environment.registerAddress merchantId key address assetSymbol now db)
    unfold Environment.registerAddress
    split
    · exact avoids_error (by unfold Error.IsWebhookClash; decide)
    · exact avoids_ok _
  | takeEdge invoiceId target actor =>
    apply Avoids.bind (Db.findInvoice_plain _ _).unclashing
    exact fun _ _ => Db.applyTransition_unclashing _

/-- Nor does the preparation of a script. -/
theorem prepared_unclashing (h : Outbox db) {op : Operation} (hop : op.Served) {e : Error}
    (he : Except.error e ∈ gateway.script op db) : ¬ e.IsWebhookClash := by
  cases op with
  | processTransaction adapter network txHash graceSeconds now =>
    have he' : Except.error e ∈
        Operation.processScript adapter network txHash graceSeconds now := he
    unfold Operation.processScript at he'
    split at he'
    · next e' hfail =>
      cases List.mem_singleton.1 he'
      exact (plain_of_provider (adapter.getTransaction_error txHash)).unclashing e hfail
    · cases he'
    · split at he'
      · next e' hfail =>
        cases List.mem_singleton.1 he'
        exact (plain_of_provider (adapter.getTransfers_error txHash)).unclashing e hfail
      · cases he'
      · cases List.mem_singleton.1 he'
  | updateConfirmations adapter network now =>
    obtain ⟨transfer, -, hentry⟩ := List.mem_map.1 he
    cases hinfo : adapter.getConfirmations transfer.key.txHash with
    | error e' =>
      rw [hinfo] at hentry
      cases hentry
      exact (plain_of_provider (adapter.getConfirmations_error _)).unclashing e hinfo
    | ok info => rw [hinfo] at hentry; cases hentry
  | handleReorg network fromBlock now =>
    obtain ⟨row, -, hentry⟩ := List.mem_map.1 he
    cases hentry
  | sweepExpiredInvoices batchSize now =>
    obtain ⟨row, -, hentry⟩ := List.mem_map.1 he
    cases hentry
  | cancelInvoice merchantId invoiceId now =>
    rcases List.mem_cons.1 he with heq | he
    · cases heq
    · have heq := List.mem_singleton.1 he
      unfold Operation.cancelScript at heq
      have hread : Unclashing (InvoicesService.cancelRead merchantId invoiceId now db) := by
        apply (h.load_unclashing merchantId invoiceId now).bind
        intro r _
        exact (Db.assertTransition_unclashing _ _ _).bind fun _ _ => avoids_ok _
      cases hfail : InvoicesService.cancelRead merchantId invoiceId now db with
      | error e' =>
        rw [hfail] at heq
        cases heq
        exact hread e hfail
      | ok r => rw [hfail] at heq; cases heq
  | takeEdge => exact hop.elim
  | _ => cases List.mem_singleton.1 he

/-! ## Runs -/

/-- The webhook events of an invoice. -/
def webhooksOf (db : Db) (invoiceId : String) : List WebhookEvent :=
  db.webhookEvents.rows.filter fun row => row.invoiceId = invoiceId

theorem Outbox.exact (h : Outbox db) (id : String) :
    ((webhooksOf db id).map (·.type)).Nodup ∧ ∀ type,
      type ∈ (webhooksOf db id).map (·.type) ↔
        ∃ s ∈ entered db id, webhookEventForStatus s = some type := by
  refine ⟨?_, fun type => ?_⟩
  · have hpairs : (webhooksOf db id).Pairwise fun a b => a.type ≠ b.type := by
      have hkeys := List.pairwise_map.1 (List.nodup_iff_pairwise_ne.1 db.webhookEvents.nodup)
      refine (hkeys.filter _).imp_of_mem ?_
      intro a b ha hb hne heq
      obtain ⟨ha, hida⟩ := List.mem_filter.1 ha
      obtain ⟨hb, hidb⟩ := List.mem_filter.1 hb
      rw [h.keyed a ha, h.keyed b hb, heq, of_decide_eq_true hida, of_decide_eq_true hidb] at hne
      exact hne rfl
    exact List.nodup_iff_pairwise_ne.2 (List.pairwise_map.2 hpairs)
  · rw [← h.covered id type]
    constructor
    · intro hmem
      obtain ⟨row, hrow, rfl⟩ := List.mem_map.1 hmem
      obtain ⟨hrow, hid⟩ := List.mem_filter.1 hrow
      have hkey := h.keyed row hrow
      rw [of_decide_eq_true hid] at hkey
      rw [← hkey, Table.find?_of_mem hrow]
      rfl
    · intro hsome
      obtain ⟨row, hrow⟩ := Option.isSome_iff_exists.1 hsome
      obtain ⟨hmem, hkey⟩ := Table.find?_eq_some.1 hrow
      obtain ⟨htype, hid⟩ := webhookKey_injective ((h.keyed row hmem).symm.trans hkey)
      exact List.mem_map.2 ⟨row, List.mem_filter.2 ⟨hmem, decide_eq_true hid⟩, htype⟩

/-- The outbox and the credits agree in every state the services reach. -/
theorem delivered (h : gateway.Reachable Operation.Served (fun _ _ => True) Db.empty db) :
    Delivered db := by
  have hkind : ∀ op db, Operation.Served op → ∀ t, Except.ok t ∈ gateway.script op db →
      t.Served := fun op db hop t ht => served_script db hop t ht
  have hstep : ∀ (t : Transaction) (a b : Db), t.Served → Delivered a → t.Fresh a →
      gateway.apply t a = .ok b → Delivered b :=
    fun t a b hs ha hf hok => Transaction.delivered hok hs hf ha
  exact (h.of_scripts script_fresh).invariant hkind delivered_empty hstep

/-- **The outbox is complete and free of duplicates**: see the head of this module. -/
theorem outbox_exact
    (h : gateway.Reachable Operation.Served (fun _ _ => True) Db.empty db) :
    (∀ i ∈ db.invoices, ((webhooksOf db i.id).map (·.type)).Nodup ∧ ∀ type,
      type ∈ (webhooksOf db i.id).map (·.type) ↔
        ∃ s ∈ .pending :: (writesOf db i.id).map (·.written),
          webhookEventForStatus s = some type) ∧
    ∀ op : Operation, op.Served →
      (op.run db).error ≠ some (.uniqueViolation "WebhookEvent") := by
  have hd : Delivered db := delivered h
  refine ⟨fun i hi => ?_, fun op hop herror => ?_⟩
  · rw [← entered_of_find? (Table.find?_of_mem hi)]
    exact hd.outbox.exact i.id
  · have havoids : ∀ e, (op.run db).error = some e → ¬ e.IsWebhookClash := by
      refine Machine.script_avoids (script_fresh op db hop) hd ?_ ?_ ?_
      · exact fun t a b ht ha hf hok => Transaction.delivered hok (served_script db hop t ht) hf ha
      · exact fun e he => prepared_unclashing hd.outbox hop he
      · exact fun t a e _ ha hf herr => Transaction.unclashing hf ha.outbox e herr
    exact havoids _ herror rfl

/-- A payment whose block is orphaned after its first confirmation, and that is mined again. -/
def Shop.reorganised : List Operation := [
  observe 100 [(mined "a" 100 1, [usdtTransfer 5 100000000])] "a",
  confirm 100 [(mined "a" 100 1, [usdtTransfer 5 100000000])],
  .handleReorg .ethereum 100 1500,
  observe 101 [(mined "a" 101 1, [usdtTransfer 5 100000000])] "a",
  confirm 112 [(mined "a" 101 12, [usdtTransfer 5 100000000])]]

/-- The reorg sends the invoice back to PENDING, and every event is still there once. -/
theorem outbox_exact_shop :
    (writesOf (Shop.after Shop.reorganised) "i").map (·.written) =
      [.detected, .confirming, .pending, .detected, .confirming, .paid] ∧
    ((webhooksOf (Shop.after Shop.reorganised) "i").map (·.type)).length = 4 ∧
    (∀ i ∈ (Shop.after Shop.reorganised).invoices,
      ((webhooksOf (Shop.after Shop.reorganised) i.id).map (·.type)).Nodup) := by
  have hops : ∀ op ∈ Shop.opening ++ Shop.reorganised, op.Served := by decide
  have hreach : gateway.Reachable Operation.Served (fun _ _ => True) Db.empty
    (Shop.after Shop.reorganised) :=
    Shop.after_reachable Shop.reorganised hops (Machine.allMeet_true _ _)
  exact ⟨by decide +kernel, by decide +kernel,
    fun i hi => ((outbox_exact hreach).1 i hi).1⟩

end PaymentGateway
