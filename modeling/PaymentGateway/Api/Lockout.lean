import PaymentGateway.Api.Auth

/-!
# The login lockout

A login reads the failure counter, checks the password, and writes the counter or the lock that
follows from what it read.

**Theorem (`lockout_holds`).** In every run in which an attempt that fails without locking finds the
counter no higher than it has read and no lock running, and one that succeeds finds no lock running,
there are never five failed attempts since the last success or lock, and a lock stays for its full
duration. Calls that do not overlap meet this by what they have read (`unraced_of_oneByOne`).

The counter is then never behind the failures it stands for. An attempt that locks may come at any
time: its lock ends no earlier than one that is there.
-/

namespace PaymentGateway

namespace AuthService

open Program Keyed Concurrent

/-! ## The invariant -/

/-- The failed attempts of a user since the last success or lock. -/
def failures (userId : String) : List Event → Nat
  | [] => 0
  | .failed id _ :: journal => failures userId journal + if id = userId then 1 else 0
  | .locked id _ :: journal => if id = userId then 0 else failures userId journal
  | .succeeded id _ :: journal => if id = userId then 0 else failures userId journal

/-- The user is locked at least until a time. -/
def LockedUntil (userId : String) (until_ : Int) (s : Shared) : Prop :=
  ∃ user, s.users.find? userId = some user ∧ ∃ at_ ∈ user.lockedUntil, until_ ≤ at_

structure Lockout (s : Shared) : Prop where
  counted : ∀ user ∈ s.users, failures user.id s.journal ≤ user.failedLoginCount
  few : ∀ userId, failures userId s.journal < maxFailedLoginAttempts
  past : ∀ userId at_, Event.locked userId at_ ∈ s.journal → at_ ≤ s.clock
  locked : ∀ userId at_, Event.locked userId at_ ∈ s.journal →
    s.clock < at_ + lockoutDurationMs → LockedUntil userId (at_ + lockoutDurationMs) s

theorem Lockout.of_empty {s : Shared} (h : s.journal = []) : Lockout s := by
  refine ⟨?_, ?_, ?_, ?_⟩
  all_goals
    rw [h]
    intros
    simp_all [failures, maxFailedLoginAttempts]

/-- The clock goes on. -/
theorem Lockout.tick {s : Shared} (h : Lockout s) {now : Int} (hnow : s.clock ≤ now) :
    Lockout { s with clock := now } where
  counted := h.counted
  few := h.few
  past userId at_ hevent := (h.past userId at_ hevent).trans hnow
  locked userId at_ hevent hlt := h.locked userId at_ hevent (lt_of_le_of_lt hnow hlt)

theorem Lockout.of_users {s s' : Shared} (h : Lockout s) (husers : s'.users = s.users)
    (hclock : s'.clock = s.clock) (hjournal : s'.journal = s.journal) : Lockout s' := by
  obtain ⟨users, sessions, clock, journal⟩ := s'
  subst husers hclock hjournal
  exact ⟨h.counted, h.few, h.past, h.locked⟩

section Write

variable {s s' : Shared} {userId : String} {f : User → User} (hf : ∀ user, (f user).id = user.id)
include hf

/-- Locks of other users are left alone. -/
theorem LockedUntil.modify {id : String} {until_ : Int} (h : LockedUntil id until_ s)
    (hs : s'.users = s.users.modify userId f hf)
    (huser : id = userId → ∀ user, s.users.find? userId = some user →
      (∃ at_ ∈ user.lockedUntil, until_ ≤ at_) → ∃ at_ ∈ (f user).lockedUntil, until_ ≤ at_) :
    LockedUntil id until_ s' := by
  obtain ⟨user, hfind, hlocked⟩ := h
  rw [LockedUntil, hs, Table.find?_modify, hfind]
  refine ⟨_, rfl, ?_⟩
  show ∃ at_ ∈ (if id = userId then f user else user).lockedUntil, until_ ≤ at_
  by_cases hid : id = userId
  · subst hid
    rw [if_pos rfl]
    exact huser rfl user hfind hlocked
  · rw [if_neg hid]
    exact hlocked

/-- A write of one user, with its event. -/
theorem Lockout.write (h : Lockout s) {event : Event} (hs : s'.users = s.users.modify userId f hf)
    (hclock : s'.clock = s.clock) (hjournal : s'.journal = event :: s.journal)
    (hcounted : ∀ user, s.users.find? userId = some user →
      failures userId s'.journal ≤ (f user).failedLoginCount)
    (hfew : failures userId s'.journal < maxFailedLoginAttempts)
    (hothers : ∀ id, id ≠ userId → failures id s'.journal = failures id s.journal)
    (hlock : ∀ at_, event = .locked userId at_ → at_ ≤ s.clock ∧ ∃ user, s.users.find? userId =
      some user ∧ ∃ until_ ∈ (f user).lockedUntil, at_ + lockoutDurationMs ≤ until_)
    (hother : ∀ id at_, event = .locked id at_ → id = userId)
    (hkept : ∀ user, s.users.find? userId = some user → ∀ at_ ≤ s.clock,
      s.clock < at_ + lockoutDurationMs → (∃ until_ ∈ user.lockedUntil, at_ + lockoutDurationMs ≤ until_) →
      ∃ until_ ∈ (f user).lockedUntil, at_ + lockoutDurationMs ≤ until_) : Lockout s' := by
  refine ⟨?_, ?_, ?_, ?_⟩
  · intro user huser
    rw [hs, Table.mem_modify] at huser
    obtain ⟨old, hold, rfl⟩ := huser
    by_cases hid : old.id = userId
    · simp only [if_pos hid, hf]
      rw [hid]
      exact hcounted old (Table.find?_eq_some.2 ⟨hold, hid⟩)
    · simp only [if_neg hid]
      rw [hothers old.id hid]
      exact h.counted old hold
  · intro id
    by_cases hid : id = userId
    · rw [hid]
      exact hfew
    · rw [hothers id hid]
      exact h.few id
  · intro id at_ hevent
    rw [hjournal, List.mem_cons] at hevent
    rw [hclock]
    rcases hevent with heq | hevent
    · have hid := hother id at_ heq.symm
      subst hid
      exact (hlock at_ heq.symm).1
    · exact h.past id at_ hevent
  · intro id at_ hevent hlt
    rw [hjournal, List.mem_cons] at hevent
    rw [hclock] at hlt
    rcases hevent with heq | hevent
    · have hid := hother id at_ heq.symm
      subst hid
      obtain ⟨-, user, hfind, hlocked⟩ := hlock at_ heq.symm
      rw [LockedUntil, hs, Table.find?_modify_self, hfind]
      exact ⟨f user, rfl, hlocked⟩
    · refine (h.locked id at_ hevent hlt).modify hf hs fun _ user hfind hlocked => ?_
      exact hkept user hfind at_ (h.past id at_ hevent) hlt hlocked

end Write

/-! ## The statements -/

/-- What is asked of a failed attempt that does not lock. -/
def Uncontended (failedLoginCount : Nat) (now : Int) (user : User) : Prop :=
  user.failedLoginCount ≤ failedLoginCount ∧ ¬user.isLocked now

instance (failedLoginCount : Nat) (now : Int) (user : User) :
    Decidable (Uncontended failedLoginCount now user) :=
  inferInstanceAs (Decidable (_ ∧ _))

theorem Lockout.fail {s : Shared} (h : Lockout s) {userId : String} {failedLoginCount : Nat}
    {user : User} (hfind : s.users.find? userId = some user)
    (hasked : ¬locking failedLoginCount → Uncontended failedLoginCount s.clock user) :
    Lockout (perform s.clock s (.recordFailure userId failedLoginCount)).2 := by
  have hfound : ∀ user', s.users.find? userId = some user' → user' = user := by
    intro user' huser'
    rw [hfind, Option.some.injEq] at huser'
    exact huser'.symm
  simp only [perform, hfind]
  by_cases hlocking : locking failedLoginCount
  · -- A lock, which ends later than any that has been written.
    refine h.write (fail_id failedLoginCount s.clock) rfl rfl rfl ?_ ?_ ?_ ?_ ?_ ?_
    · intro user' _
      simp [failure, hlocking, failures]
    · simp [failure, hlocking, failures, maxFailedLoginAttempts]
    · intro id hid
      simp [failure, hlocking, failures, hid.symm]
    · intro at_ hevent
      simp only [failure, if_pos hlocking, Event.locked.injEq, true_and] at hevent
      subst hevent
      exact ⟨le_rfl, user, hfind, s.clock + lockoutDurationMs, by simp [AuthService.fail, hlocking],
        le_rfl⟩
    · intro id at_ hevent
      simp only [failure, if_pos hlocking, Event.locked.injEq] at hevent
      exact hevent.1.symm
    · intro user' _ at_ hle _ _
      refine ⟨s.clock + lockoutDurationMs, by simp [AuthService.fail, hlocking], ?_⟩
      omega
  · -- One more failure, and no lock to lift.
    obtain ⟨hcount, hunlocked⟩ := hasked hlocking
    obtain ⟨hmem, rfl⟩ := Table.find?_eq_some.1 hfind
    have hcounted := h.counted user hmem
    have hlt : failedLoginCount + 1 < maxFailedLoginAttempts := Nat.lt_of_not_le hlocking
    refine h.write (fail_id failedLoginCount s.clock) rfl rfl rfl ?_ ?_ ?_ ?_ ?_ ?_
    · intro user' _
      simp only [failure, if_neg hlocking, failures, if_pos, AuthService.fail]
      omega
    · simp only [failure, if_neg hlocking, failures, if_pos]
      omega
    · intro id hid
      simp [failure, hlocking, failures, hid.symm]
    · intro at_ hevent
      simp [failure, hlocking] at hevent
    · intro id at_ hevent
      simp [failure, hlocking] at hevent
    · rintro user' huser' at_ - hrunning ⟨until_, huntil, hle⟩
      rw [hfound user' huser'] at huntil
      exact absurd ⟨until_, huntil, lt_of_lt_of_le hrunning hle⟩ hunlocked

theorem Lockout.succeed {s s' : Shared} (h : Lockout s) {session : NewSession} {user : User}
    (hfind : s.users.find? session.userId = some user) (hunlocked : ¬user.isLocked s.clock)
    (hs : createSession (session.row s.clock none session.tokenHash) { s with
      users := s.users.modify session.userId (succeed s.clock) (succeed_id s.clock)
      journal := .succeeded session.userId s.clock :: s.journal } = .ok s') : Lockout s' := by
  have hsame : s'.users = s.users.modify session.userId (AuthService.succeed s.clock)
      (succeed_id s.clock) ∧ s'.clock = s.clock ∧
      s'.journal = .succeeded session.userId s.clock :: s.journal := by
    unfold createSession at hs
    split at hs
    · cases hs
    · cases hs
      exact ⟨rfl, rfl, rfl⟩
  obtain ⟨husers, hclock, hjournal⟩ := hsame
  refine h.write (succeed_id s.clock) husers hclock hjournal ?_ ?_ ?_ ?_ ?_ ?_
  · intro user' _
    simp [hjournal, failures]
  · simp [hjournal, failures, maxFailedLoginAttempts]
  · intro id hid
    simp [hjournal, failures, hid.symm]
  · intro at_ hevent
    cases hevent
  · intro id at_ hevent
    cases hevent
  · rintro user' huser' at_ - hrunning ⟨until_, huntil, hle⟩
    rw [hfind, Option.some.injEq] at huser'
    rw [← huser'] at huntil
    exact absurd ⟨until_, huntil, lt_of_lt_of_le hrunning hle⟩ hunlocked

/-! ## Runs -/

namespace Logins

/-- The clock does not go back. -/
def Timely (_ : Request) (m : Moment) (s : Shared) : Prop := s.clock ≤ m.now

/-- The counter and the lock have not moved under an attempt that writes. -/
def Asked (r : Request) (m : Moment) (s : Shared) : Prop :=
  s.clock ≤ m.now ∧ match r with
  | .statement (.recordFailure userId failedLoginCount) =>
    m.fate.effective → ¬locking failedLoginCount →
      ∀ user ∈ s.users.find? userId, Uncontended failedLoginCount m.now user
  | .statement (.openSession session) =>
    m.fate.effective → ∀ user ∈ s.users.find? session.userId, ¬user.isLocked m.now
  | _ => True

instance (r : Request) (m : Moment) (s : Shared) : Decidable (Timely r m s) :=
  inferInstanceAs (Decidable (_ ≤ _))

instance (r : Request) (m : Moment) (s : Shared) : Decidable (Asked r m s) := by
  unfold Asked
  split <;> infer_instance

/-- Attempts that overlap in any way. -/
abbrev timely : Rules Request Answer Error Outcome Call Moment Empty Shared := .asking Timely

/-- Attempts that overlap as long as they do not race. -/
abbrev unraced : Rules Request Answer Error Outcome Call Moment Empty Shared := .asking Asked

theorem perform_kept {s : Shared} (h : Lockout s) {q : Statement}
    (hfailure : ∀ userId failedLoginCount, q = .recordFailure userId failedLoginCount →
      ¬locking failedLoginCount → ∀ user ∈ s.users.find? userId,
        Uncontended failedLoginCount s.clock user)
    (hsuccess : ∀ session, q = .openSession session →
      ∀ user ∈ s.users.find? session.userId, ¬user.isLocked s.clock) :
    Lockout (perform s.clock s q).2 := by
  cases q with
  | recordFailure userId failedLoginCount =>
    cases hfind : s.users.find? userId with
    | none =>
      simp only [perform, hfind]
      exact h
    | some user =>
      exact h.fail hfind fun hnot => hfailure userId failedLoginCount rfl hnot user hfind
  | openSession session =>
    cases hfind : s.users.find? session.userId with
    | none =>
      simp only [perform, hfind]
      exact h
    | some user =>
      simp only [perform, hfind]
      cases hcreate : createSession (session.row s.clock none session.tokenHash) { s with
          users := s.users.modify session.userId (succeed s.clock) (succeed_id s.clock)
          journal := .succeeded session.userId s.clock :: s.journal } with
      | error e => exact h
      | ok s' => exact h.succeed hfind (hsuccess session rfl user hfind) hcreate
  | rotate tokenHash session =>
    simp only [perform]
    split
    · rename_i old hold
      cases hcreate : createSession (session.row s.clock (some tokenHash) old.root)
        (s.revokeSession tokenHash s.clock) with
      | error e => exact h
      | ok s' =>
        unfold createSession at hcreate
        split at hcreate
        · cases hcreate
        · cases hcreate
          exact h.of_users rfl rfl rfl
    · exact h
  | revoke tokenHash => exact h.of_users rfl rfl rfl
  | _ => exact h

theorem kept (o : AppConfig) : (system o).Keeps unraced Lockout where
  perform i r m s h hm := by
    have hclock : Lockout { s with clock := m.now } := h.tick hm.1
    cases r with
    | statement q =>
      refine Fate.answer_kept (P := Lockout) hclock fun heffective => ?_
      refine perform_kept hclock ?_ ?_
      · rintro userId failedLoginCount rfl
        exact hm.2 heffective
      · rintro session rfl
        exact hm.2 heffective
    | _ => exact hclock
  enter _ _ _ h := h
  environment e := nomatch e

/-! ### Attempts one by one -/

/-- Attempts that do not overlap. -/
abbrev oneByOne : Rules Request Answer Error Outcome Call Moment Empty Shared := .oneByOne Timely

section Alone

abbrev terms : Terms Request Moment Shared := aloneHere Timely Asked

variable {o : AppConfig}

/-- A user as it was read, who was not locked then. -/
structure Found (user : User) (at_ : Int) (s : Shared) : Prop where
  stored : s.users.find? user.id = some user
  since : at_ ≤ s.clock

theorem Found.later {user : User} {at_ now : Int} {s : Shared} (h : Found user at_ s)
    (hnow : s.clock ≤ now) : Found user at_ { s with clock := now } :=
  ⟨h.stored, h.since.trans hnow⟩

theorem not_isLocked_later {user : User} {at_ now : Int} (h : ¬user.isLocked at_)
    (hnow : at_ ≤ now) : ¬user.isLocked now := by
  rintro ⟨until_, hmem, hlt⟩
  exact h ⟨until_, hmem, lt_of_le_of_lt hnow hlt⟩

/-- The counter and the lock are as they were read. -/
theorem alone_login (email password : String) (authMeta : AuthMeta) :
    Triple (answer o) terms (fun _ => True) (login o email password authMeta)
      (OnSuccess fun _ _ => True) := by
  have hfind : Triple (answer o) terms (fun _ => True)
      (db (.findUserByEmail (normalizeEmail email))) (OnSuccess fun user? s =>
        ∀ user ∈ user?, s.users.find? user.id = some user) :=
    alone_find (fun _ _ _ hm => ⟨hm, trivial⟩) fun m s _ _ =>
      ⟨_, rfl, fun user huser => Table.find?_of_mem (List.mem_of_find?_eq_some huser)⟩
  refine hfind.bind_ends aloneHere_frame fun user? => ?_
  cases huser : user?.filter (·.status = .active) with
  | none => exact alone_throw _
  | some user =>
    obtain ⟨hread, -⟩ := Option.filter_eq_some_iff.1 huser
    have hnow : Triple (answer o) terms
        (fun s => ∀ user ∈ user?, s.users.find? user.id = some user) now
        (OnSuccess fun at_ => Found user at_) :=
      alone_read (fun _ _ _ hm => ⟨hm, trivial⟩) fun _ _ hs _ =>
        ⟨rfl, fun _ hat => by cases hat; exact ⟨hs user hread, le_rfl⟩⟩
    refine hnow.bind_ends aloneHere_frame fun at_ => ?_
    refine Triple.ite (fun _ => alone_throw _) fun hunlocked => ?_
    have hverify : Triple (answer o) terms (Found user at_)
        (verifyPassword password user.passwordHash) (OnSuccess fun _ => Found user at_) :=
      alone_read (fun _ _ _ hm => ⟨hm, trivial⟩) fun _ _ hs hm => ⟨rfl, fun _ _ => hs.later hm⟩
    refine hverify.bind_ends aloneHere_frame fun valid => Triple.ite (fun _ => ?_) fun _ => ?_
    · have htoken : Triple (answer o) terms (Found user at_) randomToken
          (OnSuccess fun _ => Found user at_) :=
        alone_read (fun _ _ _ hm => ⟨hm, trivial⟩) fun _ _ hs hm => ⟨rfl, fun _ _ => hs.later hm⟩
      refine htoken.bind_ends aloneHere_frame fun token => ?_
      refine Triple.bind_ends aloneHere_frame (alone_last ?_) fun _ => alone_pure _
      refine fun m s hs hm => ⟨hm, fun _ found hfound => ?_⟩
      rw [hs.stored, Option.mem_some_iff] at hfound
      exact hfound ▸ not_isLocked_later hunlocked (hs.since.trans hm)
    · refine Triple.bind_ends aloneHere_frame (alone_last ?_) fun _ => alone_throw _
      refine fun m s hs hm => ⟨hm, fun _ _ found hfound => ?_⟩
      rw [hs.stored, Option.mem_some_iff] at hfound
      subst hfound
      exact ⟨le_rfl, not_isLocked_later hunlocked (hs.since.trans hm)⟩

/-- Only the clock is asked of the requests of a refresh. -/
theorem alone_refresh (presented : String) (authMeta : AuthMeta) :
    Triple (answer o) terms (fun _ => True) (refresh o presented authMeta)
      (OnSuccess fun _ _ => True) := by
  refine Triple.bind_ends aloneHere_frame (alone_last fun _ _ _ hm => ⟨hm, trivial⟩)
    fun session? => ?_
  refine Triple.bind_ends aloneHere_frame (alone_last fun _ _ _ hm => ⟨hm, trivial⟩) fun at_ => ?_
  cases session?.filter (·.isValid at_) with
  | none => exact alone_throw _
  | some session =>
    refine Triple.bind_ends aloneHere_frame (alone_last fun _ _ _ hm => ⟨hm, trivial⟩)
      fun user? => ?_
    cases user?.filter (·.status = .active) with
    | none => exact alone_throw _
    | some user =>
      refine Triple.bind_ends aloneHere_frame (alone_last fun _ _ _ hm => ⟨hm, trivial⟩)
        fun token => ?_
      exact Triple.bind_ends aloneHere_frame (alone_last fun _ _ _ hm => ⟨hm, trivial⟩)
        fun _ => alone_pure _

/-- What an attempt has read is enough as long as calls do not overlap. -/
theorem unraced_of_oneByOne {init : Shared} {s : State}
    (h : (system o).Reachable oneByOne init s) : (system o).Reachable unraced init s :=
  reachable_of_oneByOne alone_login alone_refresh
    (fun presented => alone_logout presented fun _ _ _ hm => ⟨hm, trivial⟩) h

end Alone

end Logins

/-- **The lockout cannot be raced** in every run in which the counter and the lock have not moved under
an attempt that writes: there are never as many failed attempts since the last success or lock as
should have locked, and every lock is there until its time is over. Runs of calls that do not overlap
are such runs. -/
theorem lockout_holds {o : AppConfig} {init : Shared} {s : State} (h0 : init.journal = [])
    (h : (system o).Reachable Logins.unraced init s) :
    (∀ userId, failures userId s.shared.journal < maxFailedLoginAttempts) ∧
    (∀ userId at_, Event.locked userId at_ ∈ s.shared.journal →
      s.shared.clock < at_ + lockoutDurationMs →
      LockedUntil userId (at_ + lockoutDurationMs) s.shared) ∧
    ∀ t, (system o).Reachable Logins.oneByOne init t →
      (system o).Reachable Logins.unraced init t := by
  have hlockout := (Logins.kept o).reachable h (.of_empty h0)
  exact ⟨hlockout.few, hlockout.locked, fun _ => Logins.unraced_of_oneByOne⟩

/-! ## Guessing a password -/

namespace Shop

def guess : Call := .login "alice@shop.example" "guess" authMeta

def tick (now : Int) : Moment := ⟨now, "t1", .answered⟩

/-- Attempts one after the other, from the call `i` on. -/
def guesses (i n : Nat) : List (Move Call Moment Empty) :=
  (List.range n).flatMap fun k => .start guess :: steps (i + k) 4 (tick (i + k))

/-- Five attempts lock the account; the sixth is refused. -/
def lockedOut : List (Move Call Moment Empty) :=
  guesses 0 5 ++ .start guess :: steps 5 2 (tick 6)

theorem lockout_holds_lockedOut :
    let s := ((system config).after lockedOut shared).shared
    Event.locked "usr_1" 4 ∈ s.journal ∧ failures "usr_1" s.journal < maxFailedLoginAttempts ∧
      LockedUntil "usr_1" (4 + lockoutDurationMs) s ∧
      (system config).Reachable Logins.unraced shared ((system config).after lockedOut shared) := by
  have hrun : (system config).Reachable Logins.unraced shared
      ((system config).after lockedOut shared) :=
    System.reachable_after (by decide +kernel)
  have hturns : (system config).Reachable Logins.oneByOne shared
      ((system config).after lockedOut shared) :=
    System.reachable_after (by decide +kernel)
  obtain ⟨hfew, hlocked, hunraced⟩ := lockout_holds rfl hrun
  have hevent : Event.locked "usr_1" 4 ∈ ((system config).after lockedOut shared).shared.journal := by
    decide +kernel
  exact ⟨hevent, hfew "usr_1", hlocked "usr_1" 4 hevent (by decide +kernel), hunraced _ hturns⟩

/-- Five attempts read the counter before any of them writes it. -/
def together : List (Move Call Moment Empty) :=
  List.replicate 5 (.start guess) ++
    (List.range 5).flatMap (fun i => steps i 3 (tick 0)) ++
    (List.range 5).flatMap fun i => steps i 1 (tick 1)

/-- An attempt reads the user, five others lock the account, and then it writes. -/
def stale : List (Move Call Moment Empty) :=
  .start guess :: steps 0 3 (tick 0) ++ guesses 1 5 ++ steps 0 1 (tick 6)

/-- Five attempts fail and the account is not locked, and a lock is lifted before its time. -/
theorem lockout_raced :
    (∃ s : State, (system config).Reachable Logins.timely shared s ∧
      failures "usr_1" s.shared.journal = 5 ∧
      (s.shared.users.find? "usr_1").map User.lockedUntil = some none) ∧
    ∃ s : State, (system config).Reachable Logins.timely shared s ∧
      Event.locked "usr_1" 5 ∈ s.shared.journal ∧ s.shared.clock < 5 + lockoutDurationMs ∧
      (s.shared.users.find? "usr_1").map User.lockedUntil = some none :=
  ⟨⟨(system config).after together shared, System.reachable_after (by decide +kernel),
      by decide +kernel, by decide +kernel⟩,
    ⟨(system config).after stale shared, System.reachable_after (by decide +kernel),
      by decide +kernel, by decide +kernel, by decide +kernel⟩⟩

end Shop

end AuthService

end PaymentGateway
