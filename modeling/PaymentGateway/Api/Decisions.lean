import PaymentGateway.Api.Common
import PaymentGateway.Lib.Concurrent
import PaymentGateway.Lib.Table
import PaymentGateway.Shared.Error

/-!
# Administrative decisions

Refunds, compliance checks and reconciliation discrepancies are decided in the same way: read the
item, refuse if it has been decided, then write the decision and its audit entry in one transaction.
`DecisionService` is this pattern, and `adminRefunds`, `adminCompliance` and `adminReconciliation`
are the three services.

**Theorem (`decided_once`).** In every run in which a decision that is written finds the item
undecided, at most one call on an item succeeds, the item is as this call left it, and the audit log
has exactly one record of a decision on it. Calls that do not overlap meet this by their own check
(`checked_of_oneByOne`). A decision that is written over another is recorded beside it, and this is
what two calls that overlap may do (`decided_twice`).
-/

namespace PaymentGateway

namespace Admin

open Program Keyed Concurrent
open Redaction (plainText)

/-! ## The pattern -/

/-- `conflict` is the complaint about an item that is decided, and `write` what the update makes of a
row, from the item as it was read. `Shows` says whose decision a row shows. -/
structure DecisionService where
  Item : Type
  Decision : Type
  id : Item → String
  resource : String
  resourceType : String
  conflict : Item → Option String
  write : String → Decision → Int → Item → Item → Item
  entry : String → String → Decision → AuditMeta → Item → AuditLogEntry
  Shows : String → Decision → Item → Prop
  write_id : ∀ actor decision now existing row, id (write actor decision now existing row) = id row
  write_decided : ∀ actor decision now existing row,
    conflict (write actor decision now existing row) ≠ none
  write_shows : ∀ actor decision now existing row,
    Shows actor decision (write actor decision now existing row)
  entry_resource : ∀ actor itemId decision auditMeta existing,
    (entry actor itemId decision auditMeta existing).resourceType = resourceType ∧
      (entry actor itemId decision auditMeta existing).resourceId = some itemId

namespace DecisionService

variable (D : DecisionService)

/-- Who decides what about which item. -/
structure Call where
  actorUserId : String
  itemId : String
  decision : D.Decision
  auditMeta : AuditMeta

/-- The read, and the transaction that writes the decision and its record. -/
inductive Request
  | find (itemId : String)
  | update (call : D.Call) (existing : D.Item)

abbrev Answer : D.Request → Type
  | .find _ => Option D.Item
  | .update .. => D.Item

abbrev Process := Program D.Request D.Answer Error

def find (itemId : String) : D.Process (Option D.Item) := Program.call (Request.find itemId)

def update (call : D.Call) (existing : D.Item) : D.Process D.Item :=
  Program.call (Request.update call existing)

/-- The check is made on what was read. -/
def decide (call : D.Call) : D.Process D.Item := do
  match ← D.find call.itemId with
  | none => throw (.notFound D.resource)
  | some existing =>
    match D.conflict existing with
    | some message => throw (.conflict message)
    | none => D.update call existing

/-- The items, and the audit log. -/
structure Shared where
  items : Table D.Item D.id
  auditLog : List AuditLog

structure Moment where
  now : Int
  fate : Fate Error

variable {D}

def perform (text : TextFunctions) (i : Nat) (now : Int) (s : D.Shared) :
    (r : D.Request) → Except Error (D.Answer r) × D.Shared
  | .find itemId => (.ok (s.items.find? itemId), s)
  | .update call existing =>
    match s.items.find? call.itemId with
    | some row =>
      (.ok (D.write call.actorUserId call.decision now existing row),
        { items := s.items.modify call.itemId (D.write call.actorUserId call.decision now existing)
            (D.write_id _ _ _ _)
          auditLog := AuditLogService.record text i
            (D.entry call.actorUserId call.itemId call.decision call.auditMeta existing) s.auditLog })
    | none => (.error (.recordNotFound D.resource), s)

/-- A new item appears. -/
def insert (item : D.Item) (s : D.Shared) : D.Shared :=
  match h : s.items.find? (D.id item) with
  | some _ => s
  | none => { s with items := s.items.insert item h }

variable (D)

/-- Items appear while calls run. -/
def system (text : TextFunctions) :
    System D.Request D.Answer Error D.Item D.Call Moment D.Item D.Shared where
  code := D.decide
  perform i r m s := m.fate.answer (perform text i m.now s r) s
  enter _ _ s := s
  environment := insert

abbrev State := Concurrent.State D.Request D.Answer Error D.Item D.Call D.Shared

def start (items : Table D.Item D.id) : D.Shared := ⟨items, []⟩

/-- The records of decisions on an item. -/
def records (itemId : String) (s : D.Shared) : List AuditLog :=
  AuditLogService.about D.resourceType itemId s.auditLog

end DecisionService

/-! ## One decision -/

namespace DecisionService

variable {D : DecisionService} {text : TextFunctions}

def Undecided (item : D.Item) : Prop := D.conflict item = none

instance (item : D.Item) : Decidable (Undecided item) := inferInstanceAs (Decidable (_ = none))

/-- A decision that is written finds the item undecided. -/
def Asked : D.Request → Moment → D.Shared → Prop
  | .find _, _, _ => True
  | .update call _, m, s =>
    m.fate.effective → ∀ item ∈ s.items.find? call.itemId, Undecided item

instance (r : D.Request) (m : Moment) (s : D.Shared) : Decidable (Asked r m s) := by
  cases r <;> unfold Asked <;> infer_instance

variable (D) in
/-- Calls that overlap as long as a check still holds at the write. -/
abbrev checked : Rules D.Request D.Answer Error D.Item D.Call Moment D.Item D.Shared :=
  .asking Asked

/-- Only an item that is decided has a record, and it has one. -/
def Recorded (s : D.Shared) : Prop :=
  ∀ itemId, D.records itemId s = [] ∨ (D.records itemId s).length = 1 ∧
    ∃ item, s.items.find? itemId = some item ∧ ¬Undecided item

/-- The item is as a call has left it, with the record of this call. -/
def DecidedBy (text : TextFunctions) (i : Nat) (call : D.Call) (item : D.Item) (s : D.Shared) : Prop :=
  s.items.find? call.itemId = some item ∧ ¬Undecided item ∧
    D.Shows call.actorUserId call.decision item ∧
    ∃ existing, D.records call.itemId s =
      [(D.entry call.actorUserId call.itemId call.decision call.auditMeta existing).row text i]

/-- Decisions are left alone. -/
def Settles (s s' : D.Shared) : Prop :=
  ∀ itemId item, s.items.find? itemId = some item → ¬Undecided item →
    s'.items.find? itemId = some item ∧ D.records itemId s' = D.records itemId s

theorem Settles.refl (s : D.Shared) : Settles s s := fun _ _ hitem _ => ⟨hitem, rfl⟩

theorem Settles.trans {s s' s'' : D.Shared} (h : Settles s s') (h' : Settles s' s'') :
    Settles s s'' := by
  intro itemId item hitem hdecided
  obtain ⟨hitem', hrecords⟩ := h itemId item hitem hdecided
  obtain ⟨hitem'', hrecords'⟩ := h' itemId item hitem' hdecided
  exact ⟨hitem'', hrecords'.trans hrecords⟩

theorem DecidedBy.settles {i : Nat} {call : D.Call} {item : D.Item} {s s' : D.Shared}
    (h : DecidedBy text i call item s) (hs : Settles s s') : DecidedBy text i call item s' := by
  obtain ⟨hitem, hdecided, hshows, existing, hrecords⟩ := h
  obtain ⟨hitem', hrecords'⟩ := hs call.itemId item hitem hdecided
  exact ⟨hitem', hdecided, hshows, existing, hrecords'.trans hrecords⟩

theorem Recorded.start (items : Table D.Item D.id) : Recorded (D.start items) :=
  fun _ => .inl rfl

/-- A new item has no record, and touches no other. -/
theorem insert_items (item : D.Item) (s : D.Shared) :
    (insert item s).auditLog = s.auditLog ∧ ∀ itemId old, s.items.find? itemId = some old →
      (insert item s).items.find? itemId = some old := by
  unfold insert
  split
  · exact ⟨rfl, fun _ _ h => h⟩
  · rename_i hnone
    refine ⟨rfl, fun itemId old hold => ?_⟩
    rw [Table.find?_insert, if_neg (by rintro rfl; simp [hnone] at hold), hold]

theorem recorded_insert {s : D.Shared} (h : Recorded s) (item : D.Item) :
    Recorded (insert item s) := by
  obtain ⟨hlog, hitems⟩ := insert_items item s
  intro itemId
  have hrecords : D.records itemId (insert item s) = D.records itemId s := by
    rw [records, records, hlog]
  rw [hrecords]
  rcases h itemId with hnone | ⟨hone, old, hold, hdecided⟩
  · exact .inl hnone
  · exact .inr ⟨hone, old, hitems itemId old hold, hdecided⟩

theorem settles_insert (item : D.Item) (s : D.Shared) : Settles s (insert item s) := by
  obtain ⟨hlog, hitems⟩ := insert_items item s
  intro itemId old hold _
  exact ⟨hitems itemId old hold, by rw [records, records, hlog]⟩

/-! ## The write -/

section Update

variable {i : Nat} {now : Int} {s : D.Shared} {call : D.Call} {existing row : D.Item}

/-- What the write makes of the row it finds. -/
theorem perform_update (hrow : s.items.find? call.itemId = some row) (itemId : String) :
    (perform text i now s (.update call existing)).2.items.find? itemId =
      (s.items.find? itemId).map fun item => if itemId = call.itemId
        then D.write call.actorUserId call.decision now existing item else item := by
  simp only [perform, hrow, Table.find?_modify]

theorem records_update (hrow : s.items.find? call.itemId = some row) (itemId : String) :
    D.records itemId (perform text i now s (.update call existing)).2 =
      D.records itemId s ++ if itemId = call.itemId then
        [(D.entry call.actorUserId call.itemId call.decision call.auditMeta existing).row text i]
      else [] := by
  obtain ⟨htype, hid⟩ := D.entry_resource call.actorUserId call.itemId call.decision call.auditMeta
    existing
  simp only [perform, hrow, records, AuditLogService.about_record, htype, hid, true_and,
    Option.some.injEq, eq_comm]

theorem perform_update_none (hrow : s.items.find? call.itemId = none) :
    perform text i now s (.update call existing) = (.error (.recordNotFound D.resource), s) := by
  simp only [perform, hrow]

variable (text i now existing)

/-- A decision on an undecided item becomes the only one. -/
theorem Recorded.decidedBy (h : Recorded s) (hrow : s.items.find? call.itemId = some row)
    (hundecided : Undecided row) :
    DecidedBy text i call (D.write call.actorUserId call.decision now existing row)
      (perform text i now s (.update call existing)).2 := by
  have hnone : D.records call.itemId s = [] := by
    rcases h call.itemId with hnone | ⟨-, item, hitem, hdecided⟩
    · exact hnone
    · rw [hrow, Option.some.injEq] at hitem
      subst hitem
      exact absurd hundecided hdecided
  refine ⟨?_, D.write_decided _ _ _ _ _, D.write_shows .., existing, ?_⟩
  · rw [perform_update hrow, hrow, Option.map_some, if_pos rfl]
  · rw [records_update hrow, hnone, if_pos rfl, List.nil_append]

/-- Other items are left as they are. -/
theorem update_frame {itemId : String} (hne : itemId ≠ call.itemId) :
    (perform text i now s (.update call existing)).2.items.find? itemId = s.items.find? itemId ∧
      D.records itemId (perform text i now s (.update call existing)).2 = D.records itemId s := by
  cases hrow : s.items.find? call.itemId with
  | none => simp only [perform_update_none hrow, and_self]
  | some row =>
    refine ⟨?_, ?_⟩
    · rw [perform_update hrow]
      cases s.items.find? itemId <;> simp [hne]
    · rw [records_update hrow, if_neg hne, List.append_nil]

theorem Recorded.update (h : Recorded s)
    (hundecided : ∀ item ∈ s.items.find? call.itemId, Undecided item) :
    Recorded (perform text i now s (.update call existing)).2 ∧
      Settles s (perform text i now s (.update call existing)).2 := by
  cases hrow : s.items.find? call.itemId with
  | none =>
    rw [perform_update_none hrow]
    exact ⟨h, .refl s⟩
  | some row =>
    obtain ⟨hitem, hdecided, -, existing', hrecords⟩ := h.decidedBy text i now existing hrow
      (hundecided row hrow)
    refine ⟨fun itemId => ?_, fun itemId item hold hnot => ?_⟩
    · by_cases hid : itemId = call.itemId
      · subst hid
        exact .inr ⟨by rw [hrecords]; rfl, _, hitem, hdecided⟩
      · obtain ⟨hsame, hsameRecords⟩ := update_frame (s := s) text i now existing hid
        rw [hsame, hsameRecords]
        exact h itemId
    · by_cases hid : itemId = call.itemId
      · subst hid
        exact absurd (hundecided item hold) hnot
      · obtain ⟨hsame, hsameRecords⟩ := update_frame (s := s) text i now existing hid
        exact ⟨hsame.trans hold, hsameRecords⟩

end Update

/-! ## Runs -/

variable (D) in
/-- A call counts on decisions being left alone. -/
def settled : Terms D.Request Moment D.Shared where
  inv := Recorded
  rely := Settles
  guar _ := Settles
  meets := Asked

theorem settled_frame : D.settled.Frame fun _ => True where
  refl := .refl
  trans _ _ _ := .trans
  failure := Stable.fact True

theorem stable_decidedBy (i : Nat) (call : D.Call) (item : D.Item) :
    Stable D.settled (DecidedBy text i call item) :=
  fun _ _ h _ hrely => h.settles hrely

theorem settled_update (i : Nat) (call : D.Call) (existing : D.Item) :
    Triple ((D.system text).perform i) D.settled (fun _ => True) (D.update call existing)
      (OnSuccess (DecidedBy text i call)) := by
  refine Triple.call (Stable.fact True) ?_ ?_
  · intro answer
    cases answer with
    | error e => exact Stable.fact True
    | ok item => exact stable_decidedBy i call item
  · intro m s hinv _ hm
    have hkept : Recorded (m.fate.answer (perform text i m.now s (.update call existing)) s).2 ∧
        Settles s (m.fate.answer (perform text i m.now s (.update call existing)) s).2 :=
      Fate.answer_kept (P := fun s' => Recorded s' ∧ Settles s s') ⟨hinv, .refl s⟩
        fun heffective => hinv.update text i m.now existing (hm heffective)
    refine ⟨hkept.1, hkept.2, ?_⟩
    show OnSuccess (DecidedBy text i call) (m.fate.answer (perform text i m.now s (.update call existing)) s).1
      (m.fate.answer (perform text i m.now s (.update call existing)) s).2
    cases hanswer : (m.fate.answer (perform text i m.now s (.update call existing)) s).1 with
    | error e => trivial
    | ok item =>
      obtain ⟨heffective, hsame⟩ := Fate.answer_ok hanswer
      rw [hsame] at hanswer ⊢
      cases hrow : s.items.find? call.itemId with
      | none =>
        rw [perform_update_none hrow] at hanswer
        cases hanswer
      | some row =>
        have hdecided := hinv.decidedBy text i m.now existing hrow (hm heffective row hrow)
        simp only [perform, hrow, Except.ok.injEq] at hanswer
        rw [← hanswer]
        exact hdecided

theorem settled_decide (i : Nat) (call : D.Call) :
    Triple ((D.system text).perform i) D.settled (fun _ => True) (D.decide call)
      (OnSuccess (DecidedBy text i call)) := by
  have hthrow : ∀ e, Triple ((D.system text).perform i) D.settled (fun _ => True)
      (throw e : D.Process D.Item) (OnSuccess (DecidedBy text i call)) :=
    fun _ => Triple.throw_ends settled_frame fun _ _ _ => trivial
  have hfind : Triple ((D.system text).perform i) D.settled (fun _ => True) (D.find call.itemId)
      (OnSuccess fun _ _ => True) := by
    refine Triple.call (Stable.fact True) (fun answer => ?_) fun m s hinv _ _ => ?_
    · cases answer <;> exact Stable.fact True
    · have hsame : ((D.system text).perform i (.find call.itemId) m s).2 = s :=
        Fate.answer_kept (P := (· = s)) rfl fun _ => rfl
      rw [hsame]
      refine ⟨hinv, .refl s, ?_⟩
      cases ((D.system text).perform i (.find call.itemId) m s).1 <;> trivial
  refine hfind.bind_ends settled_frame fun existing? => ?_
  cases existing? with
  | none => exact hthrow _
  | some existing =>
    show Triple _ _ _ (match D.conflict existing with
      | some message => throw (.conflict message)
      | none => D.update call existing) _
    cases D.conflict existing with
    | some message => exact hthrow _
    | none => exact settled_update i call existing

theorem settled_compatible (text : TextFunctions) (items : Table D.Item D.id) :
    Compatible (D.system text) D.checked (D.start items) Recorded (fun _ => Settles)
      (fun _ _ _ => Settles) (fun _ _ _ => True) (fun i call => OnSuccess (DecidedBy text i call)) where
  lawful _ _ := settled_frame.toLawful
  code i call := settled_decide i call
  live _ _ _ _ := trivial
  others _ _ _ _ _ _ _ _ _ _ _ _ hguar := hguar
  environment item s hinv _ := ⟨recorded_insert hinv item, fun _ => settles_insert item s⟩
  start _ s _ hgood _ := ⟨hgood.invariant, trivial, fun _ _ _ => .refl s.shared⟩

/-! ## Calls one by one -/

variable (D) in
/-- Calls that do not overlap. -/
abbrev oneByOne : Rules D.Request D.Answer Error D.Item D.Call Moment D.Item D.Shared :=
  .oneByOne fun _ _ _ => True

/-- New items appear, and touch no other. -/
def Opens (s s' : D.Shared) : Prop :=
  ∀ itemId item, s.items.find? itemId = some item → s'.items.find? itemId = some item

variable (D) in
/-- Between the requests of a call that is alone, new items appear. -/
abbrev aloneHere : Terms D.Request Moment D.Shared := alone Opens (fun _ _ _ => True) Asked

theorem aloneHere_frame : D.aloneHere.Frame fun _ => True :=
  alone_frame (fun _ _ _ h => h) fun _ _ _ h h' itemId item hitem =>
    h' itemId item (h itemId item hitem)

/-- The item was undecided when it was read. -/
theorem alone_decide (i : Nat) (call : D.Call) :
    Triple ((D.system text).perform i) D.aloneHere (fun _ => True) (D.decide call)
      (OnSuccess fun _ _ => True) := by
  have hthrow : ∀ e, ∀ P, Triple ((D.system text).perform i) D.aloneHere P
      (throw e : D.Process D.Item) (OnSuccess fun _ _ => True) :=
    fun _ _ => Triple.throw_ends aloneHere_frame fun _ _ _ => trivial
  have hstable : ∀ existing, Stable D.aloneHere fun s =>
      s.items.find? call.itemId = some existing :=
    fun existing => stable_alone fun _ _ h hopens => hopens call.itemId existing h
  have hfind : Triple ((D.system text).perform i) D.aloneHere (fun _ => True) (D.find call.itemId)
      (OnSuccess fun existing? s => ∀ existing ∈ existing?,
        s.items.find? call.itemId = some existing) := by
    refine triple_alone (Stable.fact True) (fun existing? => Stable.all fun existing => ?_)
      (fun _ _ _ _ => trivial) fun m s existing? _ _ hok => ?_
    · exact fun s s' h hinv hopens hexisting => hstable existing s s' (h hexisting) hinv hopens
    · obtain ⟨-, hsame⟩ := Fate.answer_ok hok
      have hread : s.items.find? call.itemId = existing? := by
        have hperformed : (perform text i m.now s (.find call.itemId)).1 = .ok existing? :=
          hsame ▸ hok
        simpa only [perform, Except.ok.injEq] using hperformed
      show ∀ existing ∈ existing?, (m.fate.answer (perform text i m.now s (.find call.itemId))
        s).2.items.find? call.itemId = some existing
      rw [hsame]
      exact fun existing hexisting => hread.trans hexisting
  refine hfind.bind_ends aloneHere_frame fun existing? => ?_
  cases existing? with
  | none => exact hthrow _ _
  | some existing =>
    show Triple _ _ _ (match D.conflict existing with
      | some message => throw (.conflict message)
      | none => D.update call existing) _
    cases hconflict : D.conflict existing with
    | some message => exact hthrow _ _
    | none =>
      refine Triple.mono (P := fun s => s.items.find? call.itemId = some existing) ?_
        (fun s _ h => h existing rfl) fun _ _ h => h
      refine triple_alone (hstable existing) (fun _ => Stable.fact True) ?_
        fun _ _ _ _ _ _ => trivial
      intro m s hs _ _ item hitem
      rw [hs, Option.mem_some_iff] at hitem
      exact hitem ▸ hconflict

/-- The check of a decision is enough as long as calls do not overlap. -/
theorem checked_of_oneByOne {init : D.Shared} {s : D.State}
    (h : (D.system text).Reachable D.oneByOne init s) : (D.system text).Reachable D.checked init s := by
  refine h.of_oneByOne aloneHere_frame (fun i call => ?_) fun item s => ?_
  · exact (alone_decide i call).mono (fun _ _ h => h) fun _ _ _ => trivial
  · exact (insert_items (D := D) item s).2

end DecisionService

/-! ## Refunds -/

inductive RefundStatus
  | requested
  | complianceReview
  | approved
  | rejected
  | processing
  | broadcast
  | completed
  | failed
  deriving DecidableEq, Repr

def RefundStatus.name : RefundStatus → String
  | requested => "REQUESTED"
  | complianceReview => "COMPLIANCE_REVIEW"
  | approved => "APPROVED"
  | rejected => "REJECTED"
  | processing => "PROCESSING"
  | broadcast => "BROADCAST"
  | completed => "COMPLETED"
  | failed => "FAILED"

/-- The columns that the service reads or writes. -/
structure Refund where
  id : String
  merchantId : String
  status : RefundStatus
  approvedBy : Option String
  approvedAt : Option Int
  rejectedBy : Option String
  rejectedAt : Option Int
  deriving DecidableEq, Repr

inductive Target
  | approved
  | rejected
  deriving DecidableEq, Repr

def Target.status : Target → RefundStatus
  | approved => .approved
  | rejected => .rejected

/-- The statuses from which a refund is decided. -/
def approvableStatuses : List RefundStatus := [.requested, .complianceReview]

/-- `AdminRefundsService.decide`. -/
def adminRefunds : DecisionService where
  Item := Refund
  Decision := Target
  id := Refund.id
  resource := "refund"
  resourceType := "refund"
  conflict existing :=
    if existing.status ∈ approvableStatuses then none
    else some ("refund cannot be decided from status " ++ existing.status.name)
  write actorUserId target now _ row :=
    match target with
    | .approved =>
      { row with status := .approved, approvedBy := some actorUserId, approvedAt := some now }
    | .rejected =>
      { row with status := .rejected, rejectedBy := some actorUserId, rejectedAt := some now }
  entry actorUserId refundId target auditMeta existing := {
    actorUserId := some actorUserId
    action := match target with
      | .approved => "refund.approved"
      | .rejected => "refund.rejected"
    resourceType := "refund"
    resourceId := some refundId
    merchantId := some existing.merchantId
    before := some [("status", .string existing.status.name)]
    after := some [("status", .string target.status.name)]
    auditMeta := some auditMeta }
  Shows actorUserId target row := row.status = target.status ∧ match target with
    | .approved => row.approvedBy = some actorUserId
    | .rejected => row.rejectedBy = some actorUserId
  write_id _ target _ _ _ := by cases target <;> rfl
  write_decided _ target _ _ _ := by cases target <;> simp [approvableStatuses]
  write_shows _ target _ _ _ := by cases target <;> exact ⟨rfl, rfl⟩
  entry_resource _ _ _ _ _ := ⟨rfl, rfl⟩

/-! ## Compliance checks -/

inductive ComplianceStatus
  | notRequired
  | pending
  | passed
  | flagged
  | blocked
  deriving DecidableEq, Repr

def ComplianceStatus.name : ComplianceStatus → String
  | notRequired => "NOT_REQUIRED"
  | pending => "PENDING"
  | passed => "PASSED"
  | flagged => "FLAGGED"
  | blocked => "BLOCKED"

/-- The columns that the service reads or writes. -/
structure ComplianceCheck where
  id : String
  status : ComplianceStatus
  reviewedBy : Option String
  reviewedAt : Option Int
  notes : Option String
  deriving DecidableEq, Repr

inductive ReviewDecision
  | approve
  | reject
  deriving DecidableEq, Repr

def ReviewDecision.name : ReviewDecision → String
  | approve => "APPROVE"
  | reject => "REJECT"

def ReviewDecision.status : ReviewDecision → ComplianceStatus
  | approve => .passed
  | reject => .flagged

structure ReviewComplianceCheckDto where
  decision : ReviewDecision
  note : Option String
  deriving DecidableEq, Repr

/-- `AdminComplianceService.review`. -/
def adminCompliance : DecisionService where
  Item := ComplianceCheck
  Decision := ReviewComplianceCheckDto
  id := ComplianceCheck.id
  resource := "compliance check"
  resourceType := "compliance_check"
  conflict existing :=
    if existing.status ≠ .pending then
      some ("compliance check is already " ++ toLowerCase existing.status.name)
    else none
  write actorUserId dto now existing row := { row with
    status := dto.decision.status
    reviewedBy := some actorUserId
    reviewedAt := some now
    notes := dto.note.or existing.notes }
  entry actorUserId checkId dto auditMeta existing := {
    actorUserId := some actorUserId
    action := "compliance_check.reviewed"
    resourceType := "compliance_check"
    resourceId := some checkId
    before := some [("status", .string existing.status.name)]
    after := some [("status", .string dto.decision.status.name),
      ("decision", .string dto.decision.name)]
    metadata := (dto.note.filter (· ≠ "")).map fun note => [("note", note)]
    auditMeta := some auditMeta }
  Shows actorUserId dto row :=
    row.status = dto.decision.status ∧ row.reviewedBy = some actorUserId
  write_id _ _ _ _ _ := rfl
  write_decided _ dto _ _ _ := by cases dto.decision <;> simp [ReviewDecision.status]
  write_shows _ _ _ _ _ := ⟨rfl, rfl⟩
  entry_resource _ _ _ _ _ := ⟨rfl, rfl⟩

/-! ## Discrepancies -/

/-- What the service reads and writes of a discrepancy. -/
structure DiscrepancyRow where
  id : String
  resolvedBy : Option String
  resolvedAt : Option Int
  resolutionNote : Option String
  deriving DecidableEq, Repr

/-- `AdminReconciliationService.resolve`; the decision is its note. -/
def adminReconciliation : DecisionService where
  Item := DiscrepancyRow
  Decision := String
  id := DiscrepancyRow.id
  resource := "reconciliation discrepancy"
  resourceType := "reconciliation_discrepancy"
  conflict existing := existing.resolvedAt.map fun _ => "discrepancy is already resolved"
  write actorUserId resolutionNote now _ row := { row with
    resolvedBy := some actorUserId
    resolvedAt := some now
    resolutionNote := some resolutionNote }
  entry actorUserId discrepancyId resolutionNote auditMeta _ := {
    actorUserId := some actorUserId
    action := "reconciliation_discrepancy.resolved"
    resourceType := "reconciliation_discrepancy"
    resourceId := some discrepancyId
    metadata := some [("resolution_note", resolutionNote)]
    auditMeta := some auditMeta }
  Shows actorUserId resolutionNote row :=
    row.resolvedAt ≠ none ∧ row.resolvedBy = some actorUserId ∧
      row.resolutionNote = some resolutionNote
  write_id _ _ _ _ _ := rfl
  write_decided _ _ _ _ _ := by simp
  write_shows _ _ _ _ _ := by simp
  entry_resource _ _ _ _ _ := ⟨rfl, rfl⟩

/-- The services of the admin area that decide. -/
inductive AdminService
  | refunds
  | compliance
  | reconciliation
  deriving DecidableEq, Repr

def AdminService.decisions : AdminService → DecisionService
  | refunds => adminRefunds
  | compliance => adminCompliance
  | reconciliation => adminReconciliation

/-! ## Decisions are made once -/

section Once

variable {D : DecisionService} {text : TextFunctions}

/-- At most one call on an item has succeeded, the item is as it left it, and there is one record. -/
structure DecidedOnce (text : TextFunctions) (s : D.State) : Prop where
  single : ∀ (i j : Nat) (call call' : D.Call) (item item' : D.Item),
    s.calls[i]? = some (call, Program.done (.ok item)) →
    s.calls[j]? = some (call', Program.done (.ok item')) → call.itemId = call'.itemId → i = j
  stored : ∀ (i : Nat) (call : D.Call) (item : D.Item),
    s.calls[i]? = some (call, Program.done (.ok item)) →
    DecisionService.DecidedBy text i call item s.shared
  records : ∀ itemId, (D.records itemId s.shared).length ≤ 1

theorem decidedOnce {items : Table D.Item D.id} {s : D.State}
    (h : (D.system text).Reachable D.checked (D.start items) s) : DecidedOnce text s := by
  have hcompatible := DecisionService.settled_compatible text items
  have hgood := Good.of_reachable hcompatible (.start items) h
  have hstored : ∀ (i : Nat) (call : D.Call) (item : D.Item),
      s.calls[i]? = some (call, Program.done (.ok item)) →
      DecisionService.DecidedBy text i call item s.shared :=
    fun i call item hcall => hgood.done hcompatible hcall trivial
  refine ⟨?_, hstored, fun itemId => ?_⟩
  · intro i j call call' item item' hcall hcall' hsame
    obtain ⟨-, -, -, existing, hrecords⟩ := hstored i call item hcall
    obtain ⟨-, -, -, existing', hrecords'⟩ := hstored j call' item' hcall'
    rw [← hsame, hrecords, List.singleton_inj] at hrecords'
    exact congrArg AuditLog.id hrecords'
  · rcases hgood.invariant itemId with hnone | ⟨hone, -⟩
    · simp [hnone]
    · exact hone.le

/-- A decision that is written over another one is recorded beside it. -/
theorem recorded_twice {s s' : D.State} {i : Nat} {m : DecisionService.Moment}
    (happly : (D.system text).apply (.step i m) s = .ok s') (hnot : ¬D.checked.meets (.step i m) s) :
    ∃ itemId item, s.shared.items.find? itemId = some item ∧ ¬DecisionService.Undecided item ∧
      (D.records itemId s'.shared).length = (D.records itemId s.shared).length + 1 := by
  obtain ⟨call, r, next, hcall, rfl⟩ := System.apply_step happly
  simp only [Rules.meets, hcall, true_and] at hnot
  cases r with
  | find itemId => exact absurd trivial hnot
  | update call existing =>
    simp only [DecisionService.Asked, not_forall, exists_prop] at hnot
    obtain ⟨heffective, item, hitem, hdecided⟩ := hnot
    refine ⟨call.itemId, item, hitem, hdecided, ?_⟩
    show (D.records call.itemId (m.fate.answer
      (DecisionService.perform text i m.now s.shared (.update call existing)) s.shared).2).length = _
    rw [Fate.answer_of_effective heffective, DecisionService.records_update hitem, if_pos rfl,
      List.length_append, List.length_singleton]

end Once

/-- **An administrative decision is made once**, in every run in which a decision that is written
finds the item undecided, and a step that does not makes a second one. Runs of calls that do not
overlap are such runs. -/
theorem decided_once (text : TextFunctions) (service : AdminService)
    {items : Table service.decisions.Item service.decisions.id} {s : service.decisions.State}
    (h : (service.decisions.system text).Reachable service.decisions.checked
      (service.decisions.start items) s) :
    DecidedOnce text s ∧
    (∀ i m s', (service.decisions.system text).apply (.step i m) s = .ok s' →
      ¬service.decisions.checked.meets (.step i m) s →
      ∃ itemId item, s.shared.items.find? itemId = some item ∧
        ¬DecisionService.Undecided item ∧
        (service.decisions.records itemId s'.shared).length =
          (service.decisions.records itemId s.shared).length + 1) ∧
    ∀ t, (service.decisions.system text).Reachable service.decisions.oneByOne
        (service.decisions.start items) t →
      (service.decisions.system text).Reachable service.decisions.checked
        (service.decisions.start items) t :=
  ⟨decidedOnce h, fun _ _ _ happly hnot => recorded_twice happly hnot,
    fun _ => DecisionService.checked_of_oneByOne⟩

/-! ## Two administrators -/

namespace Shop

def refund : Refund := ⟨"ref_1", "mer_1", .requested, none, none, none, none⟩

def refunds : Table Refund Refund.id := ⟨[refund], by decide⟩

def approval : adminRefunds.Call := ⟨"usr_alice", "ref_1", Target.approved, ⟨"192.0.2.1", none⟩⟩

def rejection : adminRefunds.Call := ⟨"usr_bob", "ref_1", Target.rejected, ⟨"192.0.2.2", none⟩⟩

def step (i : Nat) : Move adminRefunds.Call DecisionService.Moment adminRefunds.Item :=
  .step i ⟨0, .answered⟩

/-- One call after the other: the second is refused. -/
def inTurn : List (Move adminRefunds.Call DecisionService.Moment adminRefunds.Item) :=
  [.start approval, step 0, step 0, .start rejection, step 1]

/-- Both calls have read the refund before either of them writes. -/
def crossing : List (Move adminRefunds.Call DecisionService.Moment adminRefunds.Item) :=
  [.start approval, .start rejection, step 0, step 1, step 0, step 1]

theorem decided_once_inTurn :
    let s := (adminRefunds.system plainText).after inTurn (adminRefunds.start refunds)
    s.calls[0]?.map (·.2) =
      some (.done (.ok { refund with
        status := .approved, approvedBy := some "usr_alice", approvedAt := some 0 })) ∧
    DecidedOnce plainText s ∧
    (adminRefunds.system plainText).Reachable adminRefunds.checked (adminRefunds.start refunds) s := by
  have hrun : (adminRefunds.system plainText).Reachable adminRefunds.checked
      (adminRefunds.start refunds)
      ((adminRefunds.system plainText).after inTurn (adminRefunds.start refunds)) :=
    System.reachable_after (by decide +kernel)
  have hturns : (adminRefunds.system plainText).Reachable adminRefunds.oneByOne
      (adminRefunds.start refunds)
      ((adminRefunds.system plainText).after inTurn (adminRefunds.start refunds)) :=
    System.reachable_after (by decide +kernel)
  obtain ⟨honce, -, hchecked⟩ := decided_once plainText .refunds hrun
  exact ⟨rfl, honce, hchecked _ hturns⟩

/-- An approval and a rejection of a refund both succeed. -/
theorem decided_twice : ∃ s : adminRefunds.State,
    (adminRefunds.system plainText).Reachable .interleaved (adminRefunds.start refunds) s ∧
    (∃ item, s.calls[0]? = some (approval, .done (.ok item))) ∧
    (∃ item, s.calls[1]? = some (rejection, .done (.ok item))) ∧
    (s.shared.items.find? "ref_1").map Refund.status = some .rejected ∧
    (adminRefunds.records "ref_1" s.shared).length = 2 :=
  ⟨(adminRefunds.system plainText).after crossing (adminRefunds.start refunds),
    System.reachable_after (by decide +kernel), ⟨_, rfl⟩, ⟨_, rfl⟩, rfl, rfl⟩

end Shop

end Admin

end PaymentGateway
