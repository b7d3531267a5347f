import PaymentGateway.Api.Common
import PaymentGateway.Lib.Concurrent
import PaymentGateway.Lib.Table
import PaymentGateway.Shared.Error

/-!
# Merchant members

`add`, `updateRole` and `remove`, cut at their awaits. A member who is an owner is demoted or removed
in three statements: read the member, count the other owners, write. Nothing holds the members still
in between.

**Theorem (`owner_kept`).** In every run in which a write that takes OWNER from a member finds another
owner of the merchant, a merchant that has an owner keeps one; a write that finds none leaves its
merchant without. Calls that do not overlap meet this by their own check (`guarded_of_oneByOne`), and
two owners who depose each other need not (`ownerless`).
-/

namespace PaymentGateway

namespace MerchantMembersService

open Program Keyed Concurrent
open Redaction (plainText)

/-! ## The model -/

inductive MerchantRole
  | owner
  | admin
  | developer
  | viewer
  deriving DecidableEq, Repr

def MerchantRole.name : MerchantRole → String
  | owner => "OWNER"
  | admin => "ADMIN"
  | developer => "DEVELOPER"
  | viewer => "VIEWER"

/-- A user of a merchant, with a role. -/
structure MerchantMember where
  id : String
  merchantId : String
  userId : String
  role : MerchantRole
  deriving DecidableEq, Repr

structure User where
  id : String
  email : String
  deriving DecidableEq, Repr

structure Shared where
  users : Table User User.email
  merchantMembers : Table MerchantMember MerchantMember.id
  auditLog : List AuditLog

/-- The statements, and the transactions of a row and its audit entry. -/
inductive Statement
  | findUser (email : String)
  | findMembership (merchantId userId : String)
  | findMember (merchantId memberId : String)
  | countOwners (merchantId excludingMemberId : String)
  | create (member : MerchantMember) (entry : AuditLogEntry)
  | update (memberId : String) (role : MerchantRole) (entry : AuditLogEntry)
  | delete (memberId : String) (entry : AuditLogEntry)

abbrev Statement.Answer : Statement → Type
  | .findUser _ => Option User
  | .findMembership .. => Option MerchantMember
  | .findMember .. => Option MerchantMember
  | .countOwners .. => Nat
  | .create .. => MerchantMember
  | .update .. => MerchantMember
  | .delete .. => Unit

inductive Request
  | newId
  | statement (q : Statement)

abbrev Answer : Request → Type
  | .newId => String
  | .statement q => q.Answer

/-- A method of the service. -/
abbrev Process := Program Request Answer Error

def newId : Process String := Program.call Request.newId

def db (q : Statement) : Process q.Answer := Program.call (Request.statement q)

/-- The user has an account already, and is not yet a member. -/
def add (merchantId actorUserId email : String) (role : MerchantRole) (auditMeta : AuditMeta) :
    Process MerchantMember := do
  match ← db (.findUser (normalizeEmail email)) with
  | none => throw (.notFound "user with that email - they must already have an account")
  | some user =>
    match ← db (.findMembership merchantId user.id) with
    | some _ => throw (.conflict "this user is already a member of this merchant")
    | none =>
      let id ← newId
      db (.create ⟨id, merchantId, user.id, role⟩ {
        actorUserId := some actorUserId
        action := "merchant_member.added"
        resourceType := "merchant_member"
        resourceId := some id
        merchantId := some merchantId
        after := some [("user_id", .string user.id), ("email", .string user.email),
          ("role", .string role.name)]
        auditMeta := some auditMeta })

/-- A member of another merchant is not found. -/
def requireMember (merchantId memberId : String) : Process MerchantMember := do
  match ← db (.findMember merchantId memberId) with
  | none => throw (.notFound "merchant member")
  | some existing => pure existing

/-- The other owners are counted, and nothing is held. -/
def assertNotLastOwner (merchantId excludingMemberId : String) : Process Unit := do
  let remainingOwners ← db (.countOwners merchantId excludingMemberId)
  if remainingOwners = 0 then throw (.conflict "cannot remove the last owner of a merchant")
  else pure ()

/-- The check is made when an owner becomes something else. -/
def updateRole (merchantId actorUserId memberId : String) (role : MerchantRole)
    (auditMeta : AuditMeta) : Process MerchantMember := do
  let existing ← requireMember merchantId memberId
  (if existing.role = .owner ∧ role ≠ .owner then assertNotLastOwner merchantId memberId
    else pure ())
  db (.update memberId role {
    actorUserId := some actorUserId
    action := "merchant_member.role_changed"
    resourceType := "merchant_member"
    resourceId := some memberId
    merchantId := some merchantId
    before := some [("role", .string existing.role.name)]
    after := some [("role", .string role.name)]
    auditMeta := some auditMeta })

/-- The check is made when the member is an owner. -/
def remove (merchantId actorUserId memberId : String) (auditMeta : AuditMeta) : Process Unit := do
  let existing ← requireMember merchantId memberId
  (if existing.role = .owner then assertNotLastOwner merchantId memberId else pure ())
  db (.delete memberId {
    actorUserId := some actorUserId
    action := "merchant_member.removed"
    resourceType := "merchant_member"
    resourceId := some memberId
    merchantId := some merchantId
    before := some [("user_id", .string existing.userId), ("role", .string existing.role.name)]
    auditMeta := some auditMeta })

/-- The requests of the controller. -/
inductive Call
  | add (merchantId actorUserId email : String) (role : MerchantRole) (auditMeta : AuditMeta)
  | updateRole (merchantId actorUserId memberId : String) (role : MerchantRole)
    (auditMeta : AuditMeta)
  | remove (merchantId actorUserId memberId : String) (auditMeta : AuditMeta)

/-- The member as a call leaves it. -/
def Call.code : Call → Process (Option MerchantMember)
  | .add merchantId actorUserId email role auditMeta =>
    some <$> MerchantMembersService.add merchantId actorUserId email role auditMeta
  | .updateRole merchantId actorUserId memberId role auditMeta =>
    some <$> MerchantMembersService.updateRole merchantId actorUserId memberId role auditMeta
  | .remove merchantId actorUserId memberId auditMeta =>
    (fun _ => none) <$> MerchantMembersService.remove merchantId actorUserId memberId auditMeta

/-- The id that is drawn, and how the database answers. -/
structure Moment where
  newId : String
  fate : Fate Error

/-- The owners of a merchant besides one of its members. -/
def otherOwners (merchantId excludingMemberId : String) (s : Shared) : Nat :=
  s.merchantMembers.rows.countP fun member =>
    member.merchantId = merchantId ∧ member.role = .owner ∧ member.id ≠ excludingMemberId

def assign (role : MerchantRole) (member : MerchantMember) : MerchantMember :=
  { member with role := role }

theorem assign_id (role : MerchantRole) (member : MerchantMember) :
    (assign role member).id = member.id := rfl

def Shared.record (s : Shared) (text : TextFunctions) (call : Nat) (entry : AuditLogEntry) :
    Shared :=
  { s with auditLog := AuditLogService.record text call entry s.auditLog }

/-- A merchant has a user for a member once. -/
def perform (text : TextFunctions) (i : Nat) (s : Shared) :
    (q : Statement) → Except Error q.Answer × Shared
  | .findUser email => (.ok (s.users.find? email), s)
  | .findMembership merchantId userId =>
    (.ok (s.merchantMembers.rows.find? fun member =>
      member.merchantId = merchantId ∧ member.userId = userId), s)
  | .findMember merchantId memberId =>
    (.ok ((s.merchantMembers.find? memberId).filter (·.merchantId = merchantId)), s)
  | .countOwners merchantId excludingMemberId => (.ok (otherOwners merchantId excludingMemberId s), s)
  | .create member entry =>
    match h : s.merchantMembers.find? member.id with
    | some _ => (.error (.uniqueViolation "MerchantMember"), s)
    | none =>
      if ∃ other ∈ s.merchantMembers.rows,
          other.merchantId = member.merchantId ∧ other.userId = member.userId then
        (.error (.uniqueViolation "MerchantMember"), s)
      else
        (.ok member, Shared.record { s with
          merchantMembers := s.merchantMembers.insert member h } text i entry)
  | .update memberId role entry =>
    match s.merchantMembers.find? memberId with
    | some member =>
      (.ok (assign role member), Shared.record { s with
        merchantMembers := s.merchantMembers.modify memberId (assign role) (assign_id role) } text i entry)
    | none => (.error (.recordNotFound "MerchantMember"), s)
  | .delete memberId entry =>
    match s.merchantMembers.find? memberId with
    | some _ => (.ok (), Shared.record { s with
        merchantMembers := s.merchantMembers.erase memberId } text i entry)
    | none => (.error (.recordNotFound "MerchantMember"), s)

def answer (text : TextFunctions) (i : Nat) (r : Request) (m : Moment) (s : Shared) :
    Except Error (Answer r) × Shared :=
  match r with
  | .newId => (.ok m.newId, s)
  | .statement q => m.fate.answer (perform text i s q) s

def system (text : TextFunctions) :
    System Request Answer Error (Option MerchantMember) Call Moment Empty Shared where
  code := Call.code
  perform := answer text
  enter _ _ s := s
  environment e := nomatch e

abbrev State := Concurrent.State Request Answer Error (Option MerchantMember) Call Shared

/-! ## Owners -/

/-- Some member of the merchant is an owner. -/
def HasOwner (merchantId : String) (s : Shared) : Prop :=
  ∃ member ∈ s.merchantMembers, member.merchantId = merchantId ∧ member.role = .owner

/-- The member that a write leaves without the role of an owner. -/
def Statement.deposes : Statement → Option String
  | .update memberId role _ => if role = .owner then none else some memberId
  | .delete memberId _ => some memberId
  | _ => none

/-- A write that takes OWNER from a member finds another owner of the merchant. -/
def Guarded (q : Statement) (s : Shared) : Prop :=
  ∀ memberId ∈ q.deposes, ∀ member ∈ s.merchantMembers.find? memberId,
    member.role = .owner → otherOwners member.merchantId memberId s ≠ 0

instance (q : Statement) (s : Shared) : Decidable (Guarded q s) :=
  inferInstanceAs (Decidable (∀ memberId ∈ q.deposes, _))

theorem otherOwners_ne_zero {merchantId memberId : String} {s : Shared} :
    otherOwners merchantId memberId s ≠ 0 ↔ ∃ member ∈ s.merchantMembers,
      member.merchantId = merchantId ∧ member.role = .owner ∧ member.id ≠ memberId := by
  simp [otherOwners, List.countP_eq_zero, Table.mem_def]

/-- A write keeps the rows of all members but one. -/
theorem mem_perform {i : Nat} {q : Statement} {s : Shared} {member : MerchantMember}
    (h : member ∈ s.merchantMembers)
    (hq : ∀ role entry, q = .update member.id role entry → role = member.role)
    (hdelete : ∀ entry, q ≠ .delete member.id entry) :
    member ∈ (perform text i s q).2.merchantMembers := by
  cases q with
  | create other entry =>
    simp only [perform]
    split
    · exact h
    · split
      · exact h
      · simp only [Shared.record, Table.mem_insert]
        exact .inl h
  | update memberId role entry =>
    simp only [perform]
    split
    · simp only [Shared.record, Table.mem_modify]
      refine ⟨member, h, ?_⟩
      by_cases hid : member.id = memberId
      · subst hid
        rw [if_pos rfl, assign, hq role entry rfl]
      · rw [if_neg hid]
    · exact h
  | delete memberId entry =>
    simp only [perform]
    split
    · refine Table.mem_erase.2 ⟨h, fun hid => hdelete entry ?_⟩
      rw [← hid]
    · exact h
  | _ => exact h

/-- No owner is left of those a write deposes. -/
theorem perform_deposes {i : Nat} {q : Statement} {s : Shared} {memberId : String}
    {member : MerchantMember} (hq : q.deposes = some memberId)
    (hmember : member ∈ (perform text i s q).2.merchantMembers) (hrole : member.role = .owner) :
    member ∈ s.merchantMembers ∧ member.id ≠ memberId := by
  cases q with
  | update memberId' role entry =>
    simp only [Statement.deposes, Option.ite_none_left_eq_some, Option.some.injEq] at hq
    obtain ⟨hnot, rfl⟩ := hq
    simp only [perform] at hmember
    split at hmember
    · simp only [Shared.record, Table.mem_modify] at hmember
      obtain ⟨other, hother, rfl⟩ := hmember
      by_cases hid : other.id = memberId'
      · rw [if_pos hid] at hrole
        exact absurd hrole hnot
      · rw [if_neg hid]
        exact ⟨hother, hid⟩
    · rename_i hnone
      exact ⟨hmember, Table.find?_eq_none.1 hnone member hmember⟩
  | delete memberId' entry =>
    simp only [Statement.deposes, Option.some.injEq] at hq
    subst hq
    simp only [perform] at hmember
    split at hmember
    · exact Table.mem_erase.1 hmember
    · rename_i hnone
      exact ⟨hmember, Table.find?_eq_none.1 hnone member hmember⟩
  | _ => cases hq

theorem HasOwner.perform {merchantId : String} {s : Shared} (h : HasOwner merchantId s) {i : Nat}
    {q : Statement} (hq : Guarded q s) : HasOwner merchantId (perform text i s q).2 := by
  obtain ⟨member, hmember, hmerchant, hrole⟩ := h
  by_cases hdeposed : q.deposes = some member.id
  · have hother := hq member.id hdeposed member (Table.find?_of_mem hmember) hrole
    obtain ⟨other, hotherMem, hotherMerchant, hotherRole, hne⟩ := otherOwners_ne_zero.1 hother
    refine ⟨other, mem_perform hotherMem ?_ ?_, hotherMerchant.trans hmerchant, hotherRole⟩
    · intro role entry heq
      by_contra hnot
      have hnotOwner : role ≠ .owner := fun howner => hnot (howner.trans hotherRole.symm)
      simp [heq, Statement.deposes, hnotOwner, hne] at hdeposed
    · intro entry heq
      simp [heq, Statement.deposes, hne] at hdeposed
  · refine ⟨member, mem_perform hmember ?_ ?_, hmerchant, hrole⟩
    · intro role entry heq
      by_contra hnot
      have hnotOwner : role ≠ .owner := fun howner => hnot (howner.trans hrole.symm)
      simp [heq, Statement.deposes, hnotOwner] at hdeposed
    · intro entry heq
      simp [heq, Statement.deposes] at hdeposed

/-- What an unguarded write comes to. -/
theorem not_hasOwner_perform {i : Nat} {q : Statement} {s : Shared} (hq : ¬Guarded q s) :
    ∃ merchantId, HasOwner merchantId s ∧ ¬HasOwner merchantId (perform text i s q).2 := by
  simp only [Guarded, not_forall, not_not] at hq
  obtain ⟨memberId, hdeposes, member, hmember, hrole, hnone⟩ := hq
  refine ⟨member.merchantId, ⟨member, Table.mem_of_find? hmember, rfl, hrole⟩, ?_⟩
  rintro ⟨other, hother, hmerchant, hotherRole⟩
  obtain ⟨hbefore, hne⟩ := perform_deposes hdeposes hother hotherRole
  exact otherOwners_ne_zero.2 ⟨other, hbefore, hmerchant, hotherRole, hne⟩ hnone

/-! ## Runs -/

/-- What is asked of a statement that takes effect. -/
def Asked : Request → Moment → Shared → Prop
  | .newId, _, _ => True
  | .statement q, m, s => m.fate.effective → Guarded q s

instance (r : Request) (m : Moment) (s : Shared) : Decidable (Asked r m s) := by
  cases r <;> unfold Asked <;> infer_instance

/-- Calls that overlap as long as a check still holds at the write. -/
abbrev guarded : Rules Request Answer Error (Option MerchantMember) Call Moment Empty Shared :=
  .asking Asked

theorem hasOwner_kept (merchantId : String) : (system text).Keeps guarded (HasOwner merchantId) where
  perform i r m s h hm := by
    cases r with
    | newId => exact h
    | statement q =>
      exact Fate.answer_kept (P := HasOwner merchantId) h fun heffective =>
        h.perform (hm heffective)
  enter _ _ _ h := h
  environment e := nomatch e

/-! ## Calls one by one -/

/-- Calls that do not overlap. -/
abbrev oneByOne : Rules Request Answer Error (Option MerchantMember) Call Moment Empty Shared :=
  .oneByOne fun _ _ _ => True

section Alone

/-- Nothing happens between the requests of a call that is alone. -/
abbrev aloneHere : Terms Request Moment Shared :=
  alone (fun s s' => s' = s) (fun _ _ _ => True) Asked

theorem aloneHere_frame : aloneHere.Frame fun _ => True :=
  alone_frame (fun _ => rfl) fun _ _ _ h h' => h'.trans h

theorem stable_aloneHere (P : Shared → Prop) : Stable aloneHere P :=
  stable_alone fun _ _ hs hsame => hsame ▸ hs

variable {text : TextFunctions} {i : Nat}

/-- A statement that is guarded where it is made, with what is known of its answer. -/
theorem alone_db {P : Shared → Prop} {q : Statement} {Q : q.Answer → Shared → Prop}
    (hguarded : ∀ s, P s → Guarded q s)
    (hanswer : ∀ s a, P s → (perform text i s q).1 = .ok a → Q a (perform text i s q).2) :
    Triple (answer text i) aloneHere P (db q) (OnSuccess Q) := by
  refine triple_alone (stable_aloneHere P) (fun _ => stable_aloneHere _)
    (fun _ s hs _ _ => hguarded s hs) fun m s a hs _ hok => ?_
  obtain ⟨-, hsame⟩ := Fate.answer_ok hok
  have hperformed : (perform text i s q).1 = .ok a := hsame ▸ hok
  show Q a (m.fate.answer (perform text i s q) s).2
  rw [hsame]
  exact hanswer s a hs hperformed

/-- A statement that deposes nobody. -/
theorem alone_harmless {q : Statement} (hq : q.deposes = none) :
    Triple (answer text i) aloneHere (fun _ => True) (db q) (OnSuccess fun _ _ => True) := by
  refine alone_db (fun s _ memberId h => ?_) fun _ _ _ _ => trivial
  rw [hq] at h
  cases h

/-- The member as it was read. -/
def Found (merchantId memberId : String) (existing : MerchantMember) (s : Shared) : Prop :=
  s.merchantMembers.find? memberId = some existing ∧ existing.merchantId = merchantId

theorem alone_requireMember (merchantId memberId : String) :
    Triple (answer text i) aloneHere (fun _ => True) (requireMember merchantId memberId)
      (OnSuccess (Found merchantId memberId)) := by
  have hread : Triple (answer text i) aloneHere (fun _ => True)
      (db (.findMember merchantId memberId)) (OnSuccess fun existing? s =>
        ∀ existing ∈ existing?, Found merchantId memberId existing s) := by
    refine alone_db (fun _ _ _ h => nomatch h) fun s existing? _ hanswer existing hexisting => ?_
    simp only [perform, Except.ok.injEq] at hanswer
    rw [← hanswer, Option.mem_def, Option.filter_eq_some_iff] at hexisting
    exact ⟨hexisting.1, by simpa using hexisting.2⟩
  refine hread.bind_ends aloneHere_frame fun existing? => ?_
  cases existing? with
  | none => exact Triple.throw_ends aloneHere_frame fun _ _ _ => trivial
  | some existing => exact Triple.pure_ends (stable_aloneHere _) fun s _ h => h existing rfl

theorem alone_assertNotLastOwner {P : Shared → Prop} (merchantId memberId : String) :
    Triple (answer text i) aloneHere P (assertNotLastOwner merchantId memberId)
      (OnSuccess fun _ s => P s ∧ otherOwners merchantId memberId s ≠ 0) := by
  have hcount : Triple (answer text i) aloneHere P (db (.countOwners merchantId memberId))
      (OnSuccess fun n s => P s ∧ n = otherOwners merchantId memberId s) := by
    refine alone_db (fun _ _ _ h => nomatch h) fun s n hs hanswer => ⟨hs, ?_⟩
    simp only [perform, Except.ok.injEq] at hanswer
    exact hanswer.symm
  refine hcount.bind_ends aloneHere_frame fun n => Triple.ite (fun _ => ?_) fun hn => ?_
  · exact Triple.throw_ends aloneHere_frame fun _ _ _ => trivial
  · refine Triple.pure_ends (stable_aloneHere _) fun s _ h => ⟨h.1, ?_⟩
    rw [← h.2]
    exact hn

/-- The check of a call guards its write. -/
theorem alone_checked {merchantId memberId : String} {existing : MerchantMember} {c : Prop}
    [Decidable c] {q : Statement}
    (hc : ∀ memberId' ∈ q.deposes, memberId' = memberId ∧ (existing.role = .owner → c)) :
    Triple (answer text i) aloneHere (Found merchantId memberId existing)
      ((if c then assertNotLastOwner merchantId memberId else pure ()) >>= fun _ => db q)
      (OnSuccess fun _ _ => True) := by
  have hcheck : Triple (answer text i) aloneHere (Found merchantId memberId existing)
      (if c then assertNotLastOwner merchantId memberId else pure ())
      (OnSuccess fun _ s => Found merchantId memberId existing s ∧
        (c → otherOwners merchantId memberId s ≠ 0)) := by
    refine Triple.ite (fun hc => ?_) fun hnot => ?_
    · exact (alone_assertNotLastOwner merchantId memberId).ends_mono (fun _ _ h => h)
        fun _ _ h => ⟨h.1, fun _ => h.2⟩
    · exact Triple.pure_ends (stable_aloneHere _) fun _ _ h => ⟨h, fun h => absurd h hnot⟩
  refine hcheck.bind_ends aloneHere_frame fun _ => ?_
  refine alone_db (fun s hs memberId' hdeposes member hmember hrole => ?_) fun _ _ _ _ => trivial
  obtain ⟨rfl, hrequires⟩ := hc memberId' hdeposes
  rw [Option.mem_def, hs.1.1, Option.some.injEq] at hmember
  subst hmember
  rw [hs.1.2]
  exact hs.2 (hrequires hrole)

theorem alone_add (merchantId actorUserId email : String) (role : MerchantRole)
    (auditMeta : AuditMeta) : Triple (answer text i) aloneHere (fun _ => True)
      (add merchantId actorUserId email role auditMeta) (OnSuccess fun _ _ => True) := by
  have hthrow : ∀ e, Triple (answer text i) aloneHere (fun _ => True)
      (throw e : Process MerchantMember) (OnSuccess fun _ _ => True) :=
    fun _ => Triple.throw_ends aloneHere_frame fun _ _ _ => trivial
  refine (alone_harmless rfl).bind_ends aloneHere_frame fun user? => ?_
  cases user? with
  | none => exact hthrow _
  | some user =>
    refine (alone_harmless rfl).bind_ends aloneHere_frame fun existing? => ?_
    cases existing? with
    | some _ => exact hthrow _
    | none =>
      have hid : Triple (answer text i) aloneHere (fun _ => True) newId
          (OnSuccess fun _ _ => True) :=
        triple_alone (stable_aloneHere _) (fun _ => stable_aloneHere _)
          (fun _ _ _ _ => trivial) fun _ _ _ _ _ _ => trivial
      exact hid.bind_ends aloneHere_frame fun id => alone_harmless rfl

theorem alone_code (call : Call) : Triple (answer text i) aloneHere (fun _ => True) call.code
    (OnSuccess fun _ _ => True) := by
  have hany : ∀ α : Type, ∀ _ : α, Stable aloneHere fun _ => True := fun _ _ => Stable.fact True
  cases call with
  | add merchantId actorUserId email role auditMeta =>
    exact (alone_add merchantId actorUserId email role auditMeta).map_ends aloneHere_frame (hany _)
  | updateRole merchantId actorUserId memberId role auditMeta =>
    refine Triple.map_ends aloneHere_frame ?_ (hany _)
    refine (alone_requireMember merchantId memberId).bind_ends aloneHere_frame fun existing => ?_
    refine alone_checked fun memberId' hdeposes => ?_
    simp only [Statement.deposes, Option.mem_def, Option.ite_none_left_eq_some,
      Option.some.injEq] at hdeposes
    exact ⟨hdeposes.2.symm, fun hrole => ⟨hrole, hdeposes.1⟩⟩
  | remove merchantId actorUserId memberId auditMeta =>
    refine Triple.map_ends aloneHere_frame ?_ (hany _)
    refine (alone_requireMember merchantId memberId).bind_ends aloneHere_frame fun existing => ?_
    refine alone_checked fun memberId' hdeposes => ?_
    simp only [Statement.deposes, Option.mem_def, Option.some.injEq] at hdeposes
    exact ⟨hdeposes.symm, fun hrole => hrole⟩

/-- The last-owner check is enough as long as calls do not overlap. -/
theorem guarded_of_oneByOne {init : Shared} {s : State}
    (h : (system text).Reachable oneByOne init s) : (system text).Reachable guarded init s := by
  refine h.of_oneByOne aloneHere_frame (fun i call => ?_) fun e => nomatch e
  exact (alone_code call).mono (fun _ _ h => h) fun _ _ _ => trivial

end Alone

/-- **A merchant keeps an owner** in every run in which a write that takes OWNER from a member finds
another owner of the merchant, and in no step that does not. Runs of calls that do not overlap are
such runs. -/
theorem owner_kept {init : Shared} {s : State} (h : (system text).Reachable guarded init s) :
    (∀ merchantId, HasOwner merchantId init → HasOwner merchantId s.shared) ∧
    (∀ i m s', (system text).apply (.step i m) s = .ok s' → ¬guarded.meets (.step i m) s →
      ∃ merchantId, HasOwner merchantId s.shared ∧ ¬HasOwner merchantId s'.shared) ∧
    ∀ t, (system text).Reachable oneByOne init t → (system text).Reachable guarded init t := by
  refine ⟨fun merchantId => (hasOwner_kept merchantId).reachable h, ?_, fun _ => guarded_of_oneByOne⟩
  intro i m s' happly hnot
  obtain ⟨call, r, next, hcall, rfl⟩ := System.apply_step happly
  simp only [Rules.meets, hcall, true_and] at hnot
  cases r with
  | newId => exact absurd trivial hnot
  | statement q =>
    simp only [Asked, Classical.not_imp] at hnot
    obtain ⟨merchantId, hbefore, hafter⟩ := not_hasOwner_perform (i := i) hnot.2
    refine ⟨merchantId, hbefore, ?_⟩
    show ¬HasOwner merchantId (m.fate.answer (perform text i s.shared q) s.shared).2
    rwa [Fate.answer_of_effective hnot.1]

/-! ## Two owners -/

namespace Shop

def alice : MerchantMember := ⟨"mm_1", "mer_1", "usr_alice", .owner⟩

def bob : MerchantMember := ⟨"mm_2", "mer_1", "usr_bob", .owner⟩

def shared : Shared := ⟨.empty, ⟨[alice, bob], by decide⟩, []⟩

theorem hasOwner_shared : HasOwner "mer_1" shared := ⟨alice, List.mem_cons_self, rfl, rfl⟩

def steps (i n : Nat) : List (Move Call Moment Empty) :=
  List.replicate n (.step i ⟨"mm_3", .answered⟩)

/-- Alice makes Bob a developer. -/
def demotion : Call := .updateRole "mer_1" "usr_alice" "mm_2" .developer ⟨"192.0.2.1", none⟩

/-- Bob removes Alice. -/
def removal : Call := .remove "mer_1" "usr_bob" "mm_1" ⟨"192.0.2.2", none⟩

/-- One call after the other: the second is refused. -/
def inTurn : List (Move Call Moment Empty) :=
  .start demotion :: steps 0 3 ++ .start removal :: steps 1 2

theorem owner_kept_inTurn :
    HasOwner "mer_1" ((system plainText).after inTurn shared).shared ∧
    (system plainText).Reachable oneByOne shared ((system plainText).after inTurn shared) ∧
    (system plainText).Reachable guarded shared ((system plainText).after inTurn shared) := by
  have hrun : (system plainText).Reachable guarded shared ((system plainText).after inTurn shared) :=
    System.reachable_after (by decide +kernel)
  have hturns : (system plainText).Reachable oneByOne shared
      ((system plainText).after inTurn shared) :=
    System.reachable_after (by decide +kernel)
  obtain ⟨hkept, -, hguarded⟩ := owner_kept hrun
  exact ⟨hkept "mer_1" hasOwner_shared, hturns, hguarded _ hturns⟩

/-- Both calls have made their checks before either of them writes. -/
def crossing : List (Move Call Moment Empty) :=
  .start demotion :: steps 0 2 ++ .start removal :: steps 1 2 ++ steps 0 1 ++ steps 1 1

/-- Two owners who depose each other leave the merchant without an owner. -/
theorem ownerless : ∃ s : State, (system plainText).Reachable .interleaved shared s ∧
    HasOwner "mer_1" shared ∧ ¬HasOwner "mer_1" s.shared := by
  refine ⟨(system plainText).after crossing shared, System.reachable_after (by decide +kernel),
    hasOwner_shared, ?_⟩
  have hnone : ∀ member ∈ ((system plainText).after crossing shared).shared.merchantMembers,
      ¬(member.merchantId = "mer_1" ∧ member.role = .owner) := by
    decide +kernel
  rintro ⟨member, hmember, howner⟩
  exact hnone member hmember howner

end Shop

end MerchantMembersService

end PaymentGateway
