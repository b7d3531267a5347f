import Mathlib.Data.Set.Subsingleton
import PaymentGateway.Api.Auth

/-!
# Refresh tokens are exchanged once

A refresh looks its session up and decides that it is valid; the rotation that follows revokes the
session by its id, whatever it finds, and creates the successor.

**Theorem (`exchanged_once`).** In every run in which a rotation finds the session not revoked, every
refresh token has at most one successor, and of the sessions that descend from one login at most one
is live. Calls that do not overlap meet this by their own lookup (`checked_of_oneByOne`).

A session that has been exchanged is revoked, so a rotation that finds its session live is the first
one; and the session it revokes was the only live one of its login.
-/

namespace PaymentGateway

namespace AuthService

open Program Keyed Concurrent

/-! ## The invariant -/

/-- The sessions that a session was exchanged for. -/
def successors (tokenHash : String) (s : Shared) : Set Session :=
  {session | session ∈ s.sessions ∧ session.predecessor = some tokenHash}

/-- The sessions of a login that are not revoked. -/
def liveSessions (root : String) (s : Shared) : Set Session :=
  {session | session ∈ s.sessions ∧ session.root = root ∧ session.revokedAt = none}

structure SingleUse (s : Shared) : Prop where
  exchanged : ∀ tokenHash, (successors tokenHash s).Subsingleton
  live : ∀ root, (liveSessions root s).Subsingleton
  revoked : ∀ session ∈ s.sessions, ∀ tokenHash ∈ session.predecessor,
    ∃ old ∈ s.sessions, old.tokenHash = tokenHash ∧ old.revokedAt ≠ none
  rooted : ∀ session ∈ s.sessions, ∃ first ∈ s.sessions, first.tokenHash = session.root

theorem SingleUse.of_empty {s : Shared} (h : s.sessions = .empty) : SingleUse s := by
  have hnone : ∀ session, session ∉ s.sessions := by
    intro session
    rw [h]
    exact Table.not_mem_empty session
  refine ⟨fun _ a ha => ?_, fun _ a ha => ?_, fun a ha => ?_, fun a ha => ?_⟩
  · exact absurd ha.1 (hnone a)
  · exact absurd ha.1 (hnone a)
  · exact absurd ha (hnone a)
  · exact absurd ha (hnone a)

theorem SingleUse.of_sessions {s s' : Shared} (h : SingleUse s) (hs : s'.sessions = s.sessions) :
    SingleUse s' := by
  obtain ⟨users, sessions, clock, journal⟩ := s'
  subst hs
  exact ⟨h.exchanged, h.live, h.revoked, h.rooted⟩

/-- A change that revokes a session, and keeps where it comes from. -/
structure Revoking (f : Session → Session) : Prop where
  tokenHash : ∀ session, (f session).tokenHash = session.tokenHash
  predecessor : ∀ session, (f session).predecessor = session.predecessor
  root : ∀ session, (f session).root = session.root
  revokedAt : ∀ session, (f session).revokedAt ≠ none

theorem revoking_revokeAt (now : Int) : Revoking (revokeAt now) where
  tokenHash _ := rfl
  predecessor _ := rfl
  root _ := rfl
  revokedAt _ := by simp [revokeAt]

theorem revoking_overwriteRevokedAt (now : Int) : Revoking (overwriteRevokedAt now) where
  tokenHash _ := rfl
  predecessor _ := rfl
  root _ := rfl
  revokedAt _ := by simp [overwriteRevokedAt]

section Revoke

variable {s s' : Shared} {tokenHash : String} {f : Session → Session} (hf : Revoking f)
include hf

/-- Where a session of the changed table comes from. -/
theorem Revoking.origin (hs : s'.sessions = s.sessions.modify tokenHash f hf.tokenHash)
    {session : Session} (h : session ∈ s'.sessions) : ∃ old ∈ s.sessions,
      session = (if old.tokenHash = tokenHash then f old else old) ∧
      session.tokenHash = old.tokenHash ∧ session.predecessor = old.predecessor ∧
      session.root = old.root ∧ (old.revokedAt ≠ none → session.revokedAt ≠ none) ∧
      (session.revokedAt = none → old.tokenHash ≠ tokenHash) := by
  rw [hs, Table.mem_modify] at h
  obtain ⟨old, hold, rfl⟩ := h
  refine ⟨old, hold, rfl, ?_⟩
  by_cases hid : old.tokenHash = tokenHash
  · simp only [if_pos hid]
    exact ⟨hf.tokenHash old, hf.predecessor old, hf.root old, fun _ => hf.revokedAt old,
      fun hnone => absurd hnone (hf.revokedAt old)⟩
  · rw [if_neg hid]
    exact ⟨rfl, rfl, rfl, id, fun _ => hid⟩

/-- What becomes of a session of the table. -/
theorem Revoking.image (hs : s'.sessions = s.sessions.modify tokenHash f hf.tokenHash)
    {old : Session} (h : old ∈ s.sessions) : ∃ session ∈ s'.sessions,
      session.tokenHash = old.tokenHash ∧ (old.revokedAt ≠ none → session.revokedAt ≠ none) ∧
      session.predecessor = old.predecessor := by
  refine ⟨if old.tokenHash = tokenHash then f old else old, ?_, ?_⟩
  · rw [hs, Table.mem_modify]
    exact ⟨old, h, rfl⟩
  · by_cases hid : old.tokenHash = tokenHash
    · simp only [if_pos hid]
      exact ⟨hf.tokenHash old, fun _ => hf.revokedAt old, hf.predecessor old⟩
    · rw [if_neg hid]
      exact ⟨rfl, id, rfl⟩

theorem SingleUse.revoke (h : SingleUse s)
    (hs : s'.sessions = s.sessions.modify tokenHash f hf.tokenHash) : SingleUse s' := by
  refine ⟨?_, ?_, ?_, ?_⟩
  · rintro predecessor a ⟨ha, hpa⟩ b ⟨hb, hpb⟩
    obtain ⟨olda, holda, rfl, -, hpreda, -⟩ := hf.origin hs ha
    obtain ⟨oldb, holdb, rfl, -, hpredb, -⟩ := hf.origin hs hb
    rw [h.exchanged predecessor ⟨holda, hpreda.symm.trans hpa⟩ ⟨holdb, hpredb.symm.trans hpb⟩]
  · rintro root a ⟨ha, hra, hlivea⟩ b ⟨hb, hrb, hliveb⟩
    obtain ⟨olda, holda, rfl, -, -, hroota, hrevokeda, -⟩ := hf.origin hs ha
    obtain ⟨oldb, holdb, rfl, -, -, hrootb, hrevokedb, -⟩ := hf.origin hs hb
    rw [h.live root ⟨holda, hroota.symm.trans hra, not_not.1 fun hnot => hrevokeda hnot hlivea⟩
      ⟨holdb, hrootb.symm.trans hrb, not_not.1 fun hnot => hrevokedb hnot hliveb⟩]
  · intro a ha predecessor hpa
    obtain ⟨olda, holda, -, -, hpreda, -⟩ := hf.origin hs ha
    obtain ⟨old, hold, hid, hrevoked⟩ := h.revoked olda holda predecessor (hpreda ▸ hpa)
    obtain ⟨session, hsession, hkey, hkept, -⟩ := hf.image hs hold
    exact ⟨session, hsession, hkey.trans hid, hkept hrevoked⟩
  · intro a ha
    obtain ⟨olda, holda, -, -, -, hroota, -⟩ := hf.origin hs ha
    obtain ⟨first, hfirst, hid⟩ := h.rooted olda holda
    obtain ⟨session, hsession, hkey, -⟩ := hf.image hs hfirst
    exact ⟨session, hsession, hkey.trans (hid.trans hroota.symm)⟩

end Revoke

/-- A new session, of a login that has no live one, for a token that has no successor. -/
theorem SingleUse.insert {s s' : Shared} {session : Session} (h : SingleUse s)
    (hs : ∀ x, x ∈ s'.sessions ↔ x ∈ s.sessions ∨ x = session)
    (hpredecessor : ∀ tokenHash ∈ session.predecessor, successors tokenHash s = ∅ ∧
      ∃ old ∈ s.sessions, old.tokenHash = tokenHash ∧ old.revokedAt ≠ none)
    (hlive : liveSessions session.root s = ∅)
    (hroot : ∃ first ∈ s'.sessions, first.tokenHash = session.root) : SingleUse s' := by
  refine ⟨?_, ?_, ?_, ?_⟩
  · rintro predecessor a ⟨ha, hpa⟩ b ⟨hb, hpb⟩
    rcases (hs a).1 ha with ha | rfl <;> rcases (hs b).1 hb with hb | rfl
    · exact h.exchanged predecessor ⟨ha, hpa⟩ ⟨hb, hpb⟩
    · exact absurd ⟨ha, hpa⟩ (Set.eq_empty_iff_forall_notMem.1 (hpredecessor _ hpb).1 a)
    · exact absurd ⟨hb, hpb⟩ (Set.eq_empty_iff_forall_notMem.1 (hpredecessor _ hpa).1 b)
    · rfl
  · rintro root a ⟨ha, hra, hlivea⟩ b ⟨hb, hrb, hliveb⟩
    rcases (hs a).1 ha with ha | rfl <;> rcases (hs b).1 hb with hb | rfl
    · exact h.live root ⟨ha, hra, hlivea⟩ ⟨hb, hrb, hliveb⟩
    · exact absurd ⟨ha, hra.trans hrb.symm, hlivea⟩ (Set.eq_empty_iff_forall_notMem.1 hlive a)
    · exact absurd ⟨hb, hrb.trans hra.symm, hliveb⟩ (Set.eq_empty_iff_forall_notMem.1 hlive b)
    · rfl
  · intro a ha predecessor hpa
    have hold : ∃ old ∈ s.sessions, old.tokenHash = predecessor ∧ old.revokedAt ≠ none := by
      rcases (hs a).1 ha with ha | rfl
      · exact h.revoked a ha predecessor hpa
      · exact (hpredecessor predecessor hpa).2
    obtain ⟨old, hold, hid⟩ := hold
    exact ⟨old, (hs old).2 (.inl hold), hid⟩
  · intro a ha
    rcases (hs a).1 ha with ha | rfl
    · obtain ⟨first, hfirst, hid⟩ := h.rooted a ha
      exact ⟨first, (hs first).2 (.inl hfirst), hid⟩
    · exact hroot

/-! ## The statements -/

theorem createSession_free {session : Session} {s : Shared}
    (h : s.sessions.find? session.tokenHash = none) : ∃ s', createSession session s = .ok s' ∧
      ∀ x, x ∈ s'.sessions ↔ x ∈ s.sessions ∨ x = session := by
  unfold createSession
  split
  · rename_i hsome
    rw [h] at hsome
    cases hsome
  · refine ⟨_, rfl, fun x => ?_⟩
    simp only [Table.mem_insert]

theorem createSession_ok {session : Session} {s s' : Shared} (h : createSession session s = .ok s') :
    s.sessions.find? session.tokenHash = none ∧
      ∀ x, x ∈ s'.sessions ↔ x ∈ s.sessions ∨ x = session := by
  unfold createSession at h
  split at h
  · cases h
  · rename_i hnone
    cases h
    refine ⟨hnone, fun x => ?_⟩
    simp only [Table.mem_insert]

theorem transaction_kept {P : Shared → Prop} {s : Shared} {result : Except Error Shared} (h : P s)
    (hok : ∀ s', result = .ok s' → P s') : P (transaction s result).2 := by
  cases result with
  | ok s' => exact hok s' rfl
  | error e => exact h

/-- The first session of a login. -/
theorem SingleUse.openSession {s s' : Shared} (h : SingleUse s) {session : NewSession} {now : Int}
    (hs : createSession (session.row now none session.tokenHash) s = .ok s') : SingleUse s' := by
  obtain ⟨hfree, hmem⟩ := createSession_ok hs
  refine h.insert hmem (fun _ hnone => nomatch hnone) ?_ ⟨_, (hmem _).2 (.inr rfl), rfl⟩
  refine Set.eq_empty_iff_forall_notMem.2 fun x hx => ?_
  obtain ⟨first, hfirst, hid⟩ := h.rooted x hx.1
  exact Table.find?_eq_none.1 hfree first hfirst (hid.trans hx.2.1)

/-- A rotation of a live session. -/
theorem SingleUse.rotate {s s' : Shared} (h : SingleUse s) {tokenHash : String} {old : Session}
    {session : NewSession} {now : Int} (hold : s.sessions.find? tokenHash = some old)
    (hlive : old.revokedAt = none)
    (hs : createSession (session.row now (some tokenHash) old.root)
      (s.revokeSession tokenHash now) = .ok s') : SingleUse s' := by
  have hf := revoking_overwriteRevokedAt now
  have hrevoked : (s.revokeSession tokenHash now).sessions =
    s.sessions.modify tokenHash (overwriteRevokedAt now) hf.tokenHash := rfl
  obtain ⟨holdMem, hid⟩ := Table.find?_eq_some.1 hold
  obtain ⟨-, hmem⟩ := createSession_ok hs
  refine (h.revoke hf hrevoked).insert hmem ?_ ?_ ?_
  · intro predecessor hpredecessor
    have heq : tokenHash = predecessor := Option.some.inj hpredecessor
    subst heq
    refine ⟨Set.eq_empty_iff_forall_notMem.2 fun x hx => ?_, ?_⟩
    · -- A successor would have left the session revoked.
      obtain ⟨oldx, holdx, -, -, hpredx, -⟩ := hf.origin hrevoked hx.1
      obtain ⟨old', hold', hid', hrevoked'⟩ := h.revoked oldx holdx _ (hpredx.symm.trans hx.2)
      rw [Table.eq_of_key_eq hold' holdMem (hid'.trans hid.symm)] at hrevoked'
      exact hrevoked' hlive
    · refine ⟨overwriteRevokedAt now old, ?_, hid, hf.revokedAt old⟩
      rw [hrevoked, Table.mem_modify]
      exact ⟨old, holdMem, by rw [if_pos hid]⟩
  · -- The session was the only live one of its login, and is not any more.
    refine Set.eq_empty_iff_forall_notMem.2 fun x hx => ?_
    obtain ⟨oldx, holdx, -, -, -, hrootx, hkeptx, hnex⟩ := hf.origin hrevoked hx.1
    refine hnex hx.2.2 ?_
    have hsame : oldx = old := h.live old.root
      ⟨holdx, hrootx.symm.trans hx.2.1, not_not.1 fun hnot => hkeptx hnot hx.2.2⟩
      ⟨holdMem, rfl, hlive⟩
    rw [hsame]
    exact hid
  · obtain ⟨first, hfirst, hfirstId⟩ := h.rooted old holdMem
    obtain ⟨image, himage, hkey, -⟩ := hf.image hrevoked hfirst
    exact ⟨image, (hmem image).2 (.inl himage), hkey.trans hfirstId⟩

/-! ## Runs -/

namespace Sessions

/-- A rotation finds the session not revoked. -/
def Asked : Request → Moment → Shared → Prop
  | .statement (.rotate tokenHash _), m, s => m.fate.effective →
    ∀ session ∈ s.sessions.find? tokenHash, session.revokedAt = none
  | _, _, _ => True

instance (r : Request) (m : Moment) (s : Shared) : Decidable (Asked r m s) := by
  unfold Asked
  split <;> infer_instance

/-- Calls that overlap as long as a lookup still holds at the rotation. -/
abbrev checked : Rules Request Answer Error Outcome Call Moment Empty Shared := .asking Asked

theorem singleUse_perform {s : Shared} (h : SingleUse s) {m : Moment} {q : Statement}
    (hm : Asked (.statement q) m s) (heffective : m.fate.effective) :
    SingleUse (perform m.now s q).2 := by
  cases q with
  | recordFailure userId failedLoginCount =>
    simp only [perform]
    split
    · exact h.of_sessions rfl
    · exact h
  | openSession session =>
    simp only [perform]
    split
    · refine transaction_kept h fun s' hs' => SingleUse.openSession ?_ hs'
      exact h.of_sessions rfl
    · exact h
  | rotate tokenHash session =>
    simp only [perform]
    split
    · rename_i old hold
      exact transaction_kept h fun s' hs' => h.rotate hold (hm heffective old hold) hs'
    · exact h
  | revoke tokenHash => exact h.revoke (revoking_revokeAt m.now) rfl
  | _ => exact h

theorem singleUse_kept (o : AppConfig) : (system o).Keeps checked SingleUse where
  perform i r m s h hm := by
    have hclock : SingleUse { s with clock := m.now } := h.of_sessions rfl
    cases r with
    | statement q =>
      refine Fate.answer_kept (P := SingleUse) hclock fun heffective => ?_
      refine singleUse_perform hclock ?_ heffective
      cases q <;> exact hm
    | _ => exact hclock
  enter _ _ _ h := h
  environment e := nomatch e

/-! ### Calls one by one -/

/-- Calls that do not overlap. -/
abbrev oneByOne : Rules Request Answer Error Outcome Call Moment Empty Shared :=
  .oneByOne fun _ _ _ => True

section Alone

abbrev terms : Terms Request Moment Shared := aloneHere (fun _ _ _ => True) Asked

variable {o : AppConfig}

/-- A session as it was read. -/
def Found (session : Session) (s : Shared) : Prop :=
  s.sessions.find? session.tokenHash = some session

/-- The session was not revoked when it was read. -/
theorem alone_refresh (presented : String) (authMeta : AuthMeta) :
    Triple (answer o) terms (fun _ => True) (refresh o presented authMeta)
      (OnSuccess fun _ _ => True) := by
  have hfind : Triple (answer o) terms (fun _ => True) (db (.findSession (o.sha256Hex presented)))
      (OnSuccess fun session? s => ∀ session ∈ session?, Found session s) := by
    refine alone_find (fun _ _ _ _ => trivial) fun m s _ _ => ⟨_, rfl, fun session hsession => ?_⟩
    obtain ⟨hmem, -⟩ := Table.find?_eq_some.1 hsession
    exact Table.find?_of_mem hmem
  refine hfind.bind_ends aloneHere_frame fun session? => ?_
  have hnow : Triple (answer o) terms (fun s => ∀ session ∈ session?, Found session s) now
      (OnSuccess fun _ s => ∀ session ∈ session?, Found session s) :=
    alone_read (fun _ _ _ _ => trivial) fun _ _ hs _ => ⟨rfl, fun _ _ => hs⟩
  refine hnow.bind_ends aloneHere_frame fun at_ => ?_
  cases hvalid : session?.filter (·.isValid at_) with
  | none => exact alone_throw _
  | some session =>
    obtain ⟨hsession, hisValid⟩ := Option.filter_eq_some_iff.1 hvalid
    have hunrevoked : session.revokedAt = none := (of_decide_eq_true hisValid).1
    refine Triple.mono (P := Found session) ?_ (fun s _ h => h session hsession) fun _ _ h => h
    have huser : Triple (answer o) terms (Found session) (db (.findUser session.userId))
        (OnSuccess fun _ => Found session) :=
      alone_find (fun _ _ _ _ => trivial) fun _ _ hs _ => ⟨_, rfl, hs⟩
    refine huser.bind_ends aloneHere_frame fun user? => ?_
    cases user?.filter (·.status = .active) with
    | none => exact alone_throw _
    | some user =>
      have htoken : Triple (answer o) terms (Found session) randomToken
          (OnSuccess fun _ => Found session) :=
        alone_read (fun _ _ _ _ => trivial) fun _ _ hs _ => ⟨rfl, fun _ _ => hs⟩
      refine htoken.bind_ends aloneHere_frame fun token => ?_
      refine Triple.bind_ends aloneHere_frame (alone_last ?_) fun _ => alone_pure _
      intro m s hs _ _ found hfound
      rw [hs, Option.mem_some_iff] at hfound
      exact hfound ▸ hunrevoked

/-- Nothing is asked of the requests of a login. -/
theorem alone_login (email password : String) (authMeta : AuthMeta) :
    Triple (answer o) terms (fun _ => True) (login o email password authMeta)
      (OnSuccess fun _ _ => True) := by
  refine Triple.bind_ends aloneHere_frame (alone_last fun _ _ _ _ => trivial) fun user? => ?_
  cases user?.filter (·.status = .active) with
  | none => exact alone_throw _
  | some user =>
    refine Triple.bind_ends aloneHere_frame (alone_last fun _ _ _ _ => trivial) fun at_ => ?_
    refine Triple.ite (fun _ => alone_throw _) fun _ => ?_
    refine Triple.bind_ends aloneHere_frame (alone_last fun _ _ _ _ => trivial) fun valid => ?_
    refine Triple.ite (fun _ => ?_) fun _ => ?_
    · refine Triple.bind_ends aloneHere_frame (alone_last fun _ _ _ _ => trivial) fun token => ?_
      exact Triple.bind_ends aloneHere_frame (alone_last fun _ _ _ _ => trivial)
        fun _ => alone_pure _
    · exact Triple.bind_ends aloneHere_frame (alone_last fun _ _ _ _ => trivial)
        fun _ => alone_throw _

/-- The lookup of a refresh is enough as long as calls do not overlap. -/
theorem checked_of_oneByOne {init : Shared} {s : State}
    (h : (system o).Reachable oneByOne init s) : (system o).Reachable checked init s :=
  reachable_of_oneByOne alone_login alone_refresh
    (fun presented => alone_logout presented fun _ _ _ _ => trivial) h

end Alone

/-- **Refresh tokens are single use** in every run in which a rotation finds the session it has looked
up still not revoked. Runs of calls that do not overlap are such runs. -/
theorem exchanged_once {o : AppConfig} {init : Shared} {s : State} (h0 : init.sessions = .empty)
    (h : (system o).Reachable checked init s) :
    (∀ tokenHash, (successors tokenHash s.shared).Subsingleton) ∧
    (∀ root, (liveSessions root s.shared).Subsingleton) ∧
    ∀ t, (system o).Reachable oneByOne init t → (system o).Reachable checked init t := by
  have hsingle := (singleUse_kept o).reachable h (.of_empty h0)
  exact ⟨hsingle.exchanged, hsingle.live, fun _ => checked_of_oneByOne⟩

/-- A rotation of a session that has been exchanged gives it a second successor. -/
theorem exchanged_twice {s : Shared} {tokenHash : String} {old first : Session}
    {session : NewSession} {now : Int} (hold : s.sessions.find? tokenHash = some old)
    (hfirst : first ∈ successors tokenHash s)
    (hfree : s.sessions.find? session.tokenHash = none) :
    ¬(successors tokenHash (perform now s (.rotate tokenHash session)).2).Subsingleton := by
  have hf := revoking_overwriteRevokedAt now
  have hrevoked : (s.revokeSession tokenHash now).sessions =
    s.sessions.modify tokenHash (overwriteRevokedAt now) hf.tokenHash := rfl
  have hfree' : (s.revokeSession tokenHash now).sessions.find? session.tokenHash = none := by
    rw [hrevoked, Table.find?_modify_eq_none, hfree]
  have hcreate := @createSession_free (session.row now (some tokenHash) old.root)
  obtain ⟨s', hs', hmem⟩ := hcreate hfree'
  have hperform : (perform now s (.rotate tokenHash session)).2 = s' := by
    simp only [perform, hold, hs', transaction]
  obtain ⟨image, himage, hkey, -, hpredecessor⟩ := hf.image hrevoked hfirst.1
  rw [hperform]
  intro hsubsingleton
  have hsame : image = session.row now (some tokenHash) old.root :=
    hsubsingleton ⟨(hmem image).2 (.inl himage), hpredecessor.trans hfirst.2⟩
      ⟨(hmem _).2 (.inr rfl), rfl⟩
  refine Table.find?_eq_none.1 hfree first hfirst.1 ?_
  rw [← hkey, hsame]
  rfl

end Sessions

/-! ## A stolen token -/

namespace Shop

def moment (token : String) : Moment := ⟨0, token, .answered⟩

/-- Alice logs in and gets the token `t1`. -/
def loggedIn : List (Move Call Moment Empty) :=
  .start (.login "Alice@shop.example" "correct" authMeta) :: steps 0 5 (moment "t1")

/-- The token is exchanged for `t2`, and presented again. -/
def inTurn : List (Move Call Moment Empty) :=
  loggedIn ++ .start (.refresh "t1" authMeta) :: steps 1 5 (moment "t2") ++
    .start (.refresh "t1" authMeta) :: steps 2 2 (moment "t3")

/-- Both calls have looked the session up before either of them rotates it. -/
def replay : List (Move Call Moment Empty) :=
  loggedIn ++ [.start (.refresh "t1" authMeta), .start (.refresh "t1" authMeta)] ++
    steps 1 2 (moment "t2") ++ steps 2 2 (moment "t3") ++
    steps 1 3 (moment "t2") ++ steps 2 3 (moment "t3")

theorem exchanged_once_inTurn :
    let s := ((system config).after inTurn shared).shared
    (s.sessions.find? "t2").map Session.predecessor = some (some "t1") ∧
      (successors "t1" s).Subsingleton ∧ (liveSessions "t1" s).Subsingleton ∧
      (system config).Reachable Sessions.checked shared ((system config).after inTurn shared) := by
  have hrun : (system config).Reachable Sessions.checked shared
      ((system config).after inTurn shared) :=
    System.reachable_after (by decide +kernel)
  have hturns : (system config).Reachable Sessions.oneByOne shared
      ((system config).after inTurn shared) :=
    System.reachable_after (by decide +kernel)
  obtain ⟨hexchanged, hlive, hchecked⟩ := Sessions.exchanged_once rfl hrun
  exact ⟨by decide +kernel, hexchanged "t1", hlive "t1", hchecked _ hturns⟩

/-- One token is exchanged for two sessions, and both are live. -/
theorem exchanged_for_two : ∃ s : State, (system config).Reachable .interleaved shared s ∧
    ¬(successors "t1" s.shared).Subsingleton ∧ ¬(liveSessions "t1" s.shared).Subsingleton := by
  refine ⟨(system config).after replay shared, System.reachable_after (by decide +kernel), ?_, ?_⟩
  all_goals
    intro hsubsingleton
    have hfirst : ∃ session ∈ ((system config).after replay shared).shared.sessions.rows,
        session.tokenHash = "t2" ∧ session.predecessor = some "t1" ∧ session.root = "t1" ∧
          session.revokedAt = none := by decide +kernel
    have hsecond : ∃ session ∈ ((system config).after replay shared).shared.sessions.rows,
        session.tokenHash = "t3" ∧ session.predecessor = some "t1" ∧ session.root = "t1" ∧
          session.revokedAt = none := by decide +kernel
    obtain ⟨first, hmem, hid, hpredecessor, hroot, hlive⟩ := hfirst
    obtain ⟨second, hmem', hid', hpredecessor', hroot', hlive'⟩ := hsecond
    have hsame : first = second := hsubsingleton ⟨hmem, by tauto⟩ ⟨hmem', by tauto⟩
    rw [← hsame, hid] at hid'
    exact absurd hid' (by decide)

end Shop

end AuthService

end PaymentGateway
