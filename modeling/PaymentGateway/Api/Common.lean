import Mathlib.Data.Fintype.Option
import PaymentGateway.Security.Redaction
import PaymentGateway.Shared.Asset
import PaymentGateway.Shared.Decimal

/-!
# What the services of the API share

The audit log: every privileged action is recorded in the transaction that performs it. Rows are only
ever appended, and what an action found and left is redacted before it is written (`redactFields`,
which by `redact_fields` is `redact`); the metadata is written as it is handed over. And the form in
which an email address is looked up.
-/

namespace PaymentGateway

/-- `email.toLowerCase().trim()`, of an address in ASCII. -/
def normalizeEmail (email : String) : String := String.ofList (trim (toLowerCase email).toList)

/-! ## The audit log -/

structure AuditMeta where
  ip : String
  userAgent : Option String
  deriving DecidableEq, Repr

/-- What stands in a field of an entry. -/
inductive AuditValue
  | string (value : String)
  | boolean (value : Bool)
  | strings (values : List String)
  deriving DecidableEq, Repr

abbrev AuditFields := List (String × AuditValue)

/-- A caller leaves out what it has not got. -/
structure AuditLogEntry where
  actorUserId : Option String
  action : String
  resourceType : String
  resourceId : Option String
  merchantId : Option String := none
  before : Option AuditFields := none
  after : Option AuditFields := none
  metadata : Option (List (String × String)) := none
  auditMeta : Option AuditMeta
  deriving DecidableEq, Repr

/-- A row, with the call that inserted it for an id. -/
structure AuditLog where
  id : Nat
  actorType : String
  actorId : Option String
  userId : Option String
  merchantId : Option String
  action : String
  resourceType : String
  resourceId : Option String
  ipAddress : Option String
  userAgent : Option String
  before : Option AuditFields
  after : Option AuditFields
  metadata : List (String × String)
  deriving DecidableEq, Repr

/-- An empty id is no actor. -/
def AuditLogEntry.actorType (entry : AuditLogEntry) : String :=
  if entry.actorUserId.any (· ≠ "") then "user" else "system"

section Redact

open Redaction

variable (text : TextFunctions)

/-- A text, as `redact` leaves it. -/
def redactText (value : String) : String :=
  if looksLikeMnemonic text value then redacted else redactString text value

def AuditValue.redact : AuditValue → AuditValue
  | string value => .string (redactText text value)
  | boolean value => .boolean value
  | strings values => .strings (values.map (redactText text))

/-- `redact(fields)`. -/
def redactFields (fields : AuditFields) : AuditFields :=
  fields.map fun field =>
    (field.1, if hides text {} field.1 then .string redacted else field.2.redact text)

end Redact

def AuditLogEntry.row (text : TextFunctions) (id : Nat) (entry : AuditLogEntry) : AuditLog where
  id := id
  actorType := entry.actorType
  actorId := entry.actorUserId
  userId := entry.actorUserId
  merchantId := entry.merchantId
  action := entry.action
  resourceType := entry.resourceType
  resourceId := entry.resourceId
  ipAddress := entry.auditMeta.map (·.ip)
  userAgent := entry.auditMeta.bind (·.userAgent)
  before := entry.before.map (redactFields text)
  after := entry.after.map (redactFields text)
  metadata := entry.metadata.getD []

namespace AuditLogService

def record (text : TextFunctions) (call : Nat) (entry : AuditLogEntry) (auditLog : List AuditLog) :
    List AuditLog :=
  auditLog ++ [entry.row text call]

/-- The rows about a resource. -/
def about (resourceType resourceId : String) (auditLog : List AuditLog) : List AuditLog :=
  auditLog.filter fun row => row.resourceType = resourceType ∧ row.resourceId = some resourceId

theorem about_record {text : TextFunctions} {resourceType resourceId : String} {call : Nat}
    {entry : AuditLogEntry} {auditLog : List AuditLog} :
    about resourceType resourceId (record text call entry auditLog) =
      about resourceType resourceId auditLog ++
        if entry.resourceType = resourceType ∧ entry.resourceId = some resourceId
        then [entry.row text call] else [] := by
  simp only [about, record, List.filter_append, List.filter_cons, List.filter_nil,
    decide_eq_true_eq]
  rfl

end AuditLogService

/-! ## Redacted fields -/

section Graph

open Redaction Lockstep

variable {text : TextFunctions}

/-- A field of the object, whose address an array gets. -/
def AuditValue.value {α : Type} (address : α) : AuditValue → Value Nat α
  | string value => .leaf (.string value)
  | boolean value => .leaf (.boolean value)
  | strings _ => .ref address

/-- The field in one place. -/
def fieldAt (fields : AuditFields) (k : Fin fields.length) :
    String × Value Nat (Option (Fin fields.length)) :=
  (fields[k].1, fields[k].2.value (some k))

/-- The object of the fields, and the array in each of them that holds one. -/
def fieldGraph (fields : AuditFields) :
    Option (Fin fields.length) → Cell Nat (Option (Fin fields.length))
  | none => .object ((List.finRange fields.length).map (fieldAt fields))
  | some k => .array (match fields[k].2 with
      | .strings values => values.map fun value => .leaf (.string value)
      | _ => [])

/-- A value of the audit log, as `redact` returns it. -/
def AuditValue.redacted : AuditValue → Redacted Nat
  | string value => .string value
  | boolean value => .boolean value
  | strings values => .array (values.map .string)

variable {α : Type} [DecidableEq α] {graph : α → Cell Nat α} {fuel depth : Nat} {seen : Finset α}

theorem walk_text (hdepth : depth ≤ 8) (value : String) :
    walk text {} graph (fuel + 1) depth (.leaf (.string value)) seen =
      .ok (.string (redactText text value), seen) := by
  have hnot : (MaxDepth.levels 8).exceededBy depth = false := by
    simp only [MaxDepth.exceededBy, decide_eq_false_iff_not, not_lt]
    exact_mod_cast hdepth
  rw [walk_leaf, Option.getD_none, hnot]
  rfl

theorem walk_texts (hdepth : depth ≤ 8) (values : List String) :
    traverse (walk text {} graph (fuel + 1) depth) (values.map fun value => .leaf (.string value))
      seen = .ok (values.map fun value => .string (redactText text value), seen) := by
  induction values with
  | nil => rfl
  | cons value values ih =>
    rw [List.map_cons, Lockstep.traverse, walk_text hdepth]
    dsimp only
    rw [ih]
    rfl

variable {fields : AuditFields}

/-- The field in one place, redacted. -/
def redactedAt (text : TextFunctions) (fields : AuditFields) (k : Fin fields.length) :
    String × Redacted Nat :=
  (fields[k].1, if hides text {} fields[k].1 then .string redacted
    else (fields[k].2.redact text).redacted)

/-- A field whose place has not been met. -/
theorem redactEntry_fieldAt {k : Fin fields.length} {seen : Finset (Option (Fin fields.length))}
    (hnew : some k ∉ seen) :
    ∃ seen', (∀ j, some j ∈ seen' → some j ∈ seen ∨ j = k) ∧
      redactEntry text {} (walk text {} (fieldGraph fields) (fuel + 2) 1) (fieldAt fields k) seen =
        .ok (redactedAt text fields k, seen') := by
  have hsame : ∀ j, some j ∈ seen → some j ∈ seen ∨ j = k := fun _ => .inl
  unfold redactEntry redactedAt
  cases hhides : hides text {} fields[k].1 with
  | true => exact ⟨seen, hsame, if_pos hhides⟩
  | false =>
    have hkey : ¬hides text {} (fieldAt fields k).1 = true := by
      rw [fieldAt, hhides]
      exact Bool.false_ne_true
    rw [if_neg hkey, fieldAt]
    cases hvalue : fields[k].2 with
    | string value =>
      refine ⟨seen, hsame, ?_⟩
      show mapResult _ (walk text {} (fieldGraph fields) (fuel + 2) 1 (.leaf (.string value)) seen) = _
      rw [walk_text (by omega)]
      rfl
    | boolean value => exact ⟨seen, hsame, rfl⟩
    | strings values =>
      have hcell : fieldGraph fields (some k) =
          .array (values.map fun value => .leaf (.string value)) := by
        simp only [fieldGraph, hvalue]
      refine ⟨insert (some k) seen, fun j hj => ?_, ?_⟩
      · rcases Finset.mem_insert.1 hj with hj | hj
        · exact .inr (Option.some.inj hj)
        · exact .inl hj
      · show mapResult _ (walk text {} (fieldGraph fields) (fuel + 2) 1 (.ref (some k)) seen) = _
        rw [walk_ref, if_neg (by decide), if_neg hnew, hcell]
        dsimp only
        rw [walk_texts (by omega)]
        simp [mapResult, AuditValue.redact, AuditValue.redacted]

/-- Fields in their order. -/
theorem traverse_fieldAt (ks : List (Fin fields.length)) (hks : ks.Nodup)
    {seen : Finset (Option (Fin fields.length))} (hnew : ∀ k ∈ ks, some k ∉ seen) :
    ∃ seen', traverse (redactEntry text {} (walk text {} (fieldGraph fields) (fuel + 2) 1))
      (ks.map (fieldAt fields)) seen = .ok (ks.map (redactedAt text fields), seen') := by
  induction ks generalizing seen with
  | nil => exact ⟨seen, rfl⟩
  | cons k ks ih =>
    rw [List.nodup_cons] at hks
    obtain ⟨seen₁, hmet, hfield⟩ : ∃ seen₁, _ ∧ redactEntry text {} _ (fieldAt fields k) seen =
        .ok (_, seen₁) := redactEntry_fieldAt (hnew k List.mem_cons_self)
    have hrest : ∀ j ∈ ks, some j ∉ seen₁ := by
      intro j hj hmem
      rcases hmet j hmem with hold | rfl
      · exact hnew j (List.mem_cons_of_mem _ hj) hold
      · exact hks.1 hj
    obtain ⟨seen₂, htraverse⟩ := ih hks.2 hrest
    refine ⟨seen₂, ?_⟩
    rw [List.map_cons, Lockstep.traverse, hfield]
    dsimp only
    rw [htraverse, List.map_cons]

/-- **What the audit log keeps of an entry is what `redact` makes of it.** -/
theorem redact_fields (text : TextFunctions) (fields : AuditFields) :
    Redaction.redact text {} (fieldGraph fields) (.ref none) =
      .ok (.object ((redactFields text fields).map fun field => (field.1, field.2.redacted))) := by
  have hnew : ∀ k ∈ List.finRange fields.length,
      some k ∉ insert none (∅ : Finset (Option (Fin fields.length))) := by simp
  obtain ⟨seen, htraverse⟩ : ∃ seen, traverse (redactEntry text {}
      (walk text {} (fieldGraph fields) (fields.length + 2) 1)) (List.map (fieldAt fields) _) _ =
        .ok (_, seen) := traverse_fieldAt (List.finRange fields.length) (List.nodup_finRange _) hnew
  have hfields : (List.finRange fields.length).map (redactedAt text fields) =
      (redactFields text fields).map fun field => (field.1, field.2.redacted) := by
    have hplaces := congrArg (List.map fun field : String × AuditValue =>
      (field.1, (if hides text {} field.1 then AuditValue.string redacted
        else field.2.redact text).redacted)) (List.map_getElem_finRange fields)
    rw [List.map_map] at hplaces
    rw [redactFields, List.map_map]
    refine Eq.trans (List.map_congr_left fun k _ => ?_) hplaces
    show _ = (fields[k].1, AuditValue.redacted (if _ then _ else _))
    rw [redactedAt, apply_ite AuditValue.redacted]
    rfl
  rw [redact_eq _ _ 1, Fintype.card_option, Fintype.card_fin, walk_ref, if_neg (by decide),
    if_neg (Finset.notMem_empty _)]
  show Except.map _ (mapResult _ (traverse _ ((List.finRange _).map (fieldAt fields)) _)) = _
  rw [htraverse, hfields]
  rfl

end Graph

end PaymentGateway
