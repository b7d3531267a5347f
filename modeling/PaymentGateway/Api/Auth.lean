import PaymentGateway.Api.Common
import PaymentGateway.Lib.Concurrent
import PaymentGateway.Lib.Table
import PaymentGateway.Shared.Error

/-!
# Logins and sessions

`login`, `refresh` and `logout`, cut at their awaits. A login reads the user, checks the password and
then writes the failure counter, or opens a session; a refresh reads the session and then rotates
it. What is written follows from what was read.

The data of a write are built with the clock of the moment it is performed in. Logins keep a journal
of what they have written about their users, and sessions remember where they come from; no code
reads either.
-/

namespace PaymentGateway

namespace AuthService

open Program Keyed

/-! ## Rows -/

inductive UserStatus
  | active
  | suspended
  | disabled
  deriving DecidableEq, Repr

/-- The columns that the service reads or writes. -/
structure User where
  id : String
  email : String
  passwordHash : String
  fullName : Option String
  platformRole : String
  status : UserStatus
  failedLoginCount : Nat
  lockedUntil : Option Int
  lastLoginAt : Option Int
  deriving DecidableEq, Repr

/-- The hash of its token is unique and stands for the id of a session. A session that was exchanged
for another one is its `predecessor`; `root` is the session of the login they descend from. -/
structure Session where
  tokenHash : String
  userId : String
  ipAddress : String
  userAgent : Option String
  expiresAt : Int
  revokedAt : Option Int
  predecessor : Option String
  root : String
  deriving DecidableEq, Repr

/-- What logins have written. -/
inductive Event
  | failed (userId : String) (at_ : Int)
  | locked (userId : String) (at_ : Int)
  | succeeded (userId : String) (at_ : Int)
  deriving DecidableEq, Repr

/-- The journal has its newest event first. -/
structure Shared where
  users : Table User User.id
  sessions : Table Session Session.tokenHash
  clock : Int
  journal : List Event

/-! ## The awaits -/

/-- Where a request comes from. -/
structure AuthMeta where
  ip : String
  userAgent : Option String
  deriving DecidableEq, Repr

/-- A session that is to be created, which expires after `ttl`. -/
structure NewSession where
  userId : String
  tokenHash : String
  authMeta : AuthMeta
  ttl : Int
  deriving DecidableEq, Repr

/-- The statements; a rotation and the opening of a session are transactions. -/
inductive Statement
  | findUserByEmail (email : String)
  | findUser (id : String)
  | findSession (tokenHash : String)
  | recordFailure (userId : String) (failedLoginCount : Nat)
  | openSession (session : NewSession)
  | rotate (tokenHash : String) (session : NewSession)
  | revoke (tokenHash : String)

abbrev Statement.Answer : Statement → Type
  | .findUserByEmail _ => Option User
  | .findUser _ => Option User
  | .findSession _ => Option Session
  | .recordFailure .. => Unit
  | .openSession _ => Unit
  | .rotate .. => Unit
  | .revoke _ => Unit

/-- The clock and the random bytes are read between two awaits; a call may be cut there all the
same. -/
inductive Request
  | now
  | randomToken
  | verify (password passwordHash : String)
  | statement (q : Statement)

abbrev Answer : Request → Type
  | .now => Int
  | .randomToken => String
  | .verify .. => Bool
  | .statement q => q.Answer

/-- A method of the service. -/
abbrev Process := Program Request Answer Error

/-- `new Date()`. -/
def now : Process Int := Program.call Request.now

/-- `randomBytes(32).toString("base64url")`. -/
def randomToken : Process String := Program.call Request.randomToken

/-- `verify` of Argon2id. -/
def verifyPassword (password passwordHash : String) : Process Bool :=
  Program.call (Request.verify password passwordHash)

def db (q : Statement) : Process q.Answer := Program.call (Request.statement q)

/-! ## The service -/

/-- `MAX_FAILED_LOGIN_ATTEMPTS`. -/
def maxFailedLoginAttempts : Nat := 5

/-- `LOCKOUT_DURATION_MS`: fifteen minutes. -/
def lockoutDurationMs : Int := 15 * 60 * 1000

/-- The parts of the configuration, and the cryptography, that the service uses. -/
structure AppConfig where
  sha256Hex : String → String
  verify : String → String → Bool
  signJwt : String → String → String → String
  jwtRefreshTtlSeconds : Int

/-- What a login and a refresh hand out. -/
structure AuthTokens where
  accessToken : String
  refreshToken : String
  deriving DecidableEq, Repr

/-- What of a user is shown to the user. -/
structure PublicUser where
  id : String
  email : String
  fullName : Option String
  platformRole : String
  deriving DecidableEq, Repr

structure LoginResult extends AuthTokens where
  user : PublicUser
  deriving DecidableEq, Repr

/-- One answer to every failed login, so that none tells what was wrong. -/
def invalidCredentials : Error := .app 401 "invalid email or password"

/-- One answer to every failed refresh. -/
def invalidSession : Error := .app 401 "invalid or expired session"

def toPublicUser (user : User) : PublicUser := ⟨user.id, user.email, user.fullName, user.platformRole⟩

/-- `user.lockedUntil && user.lockedUntil > now`. -/
def User.isLocked (user : User) (now : Int) : Prop := ∃ until_ ∈ user.lockedUntil, now < until_

instance (user : User) (now : Int) : Decidable (user.isLocked now) :=
  inferInstanceAs (Decidable (∃ until_ ∈ user.lockedUntil, now < until_))

/-- A session that is to be refreshed. -/
def Session.isValid (session : Session) (now : Int) : Prop :=
  session.revokedAt = none ∧ now < session.expiresAt

instance (session : Session) (now : Int) : Decidable (session.isValid now) :=
  inferInstanceAs (Decidable (_ ∧ _))

/-- The failure counter that a failed attempt writes is the one that was read at the start. -/
def login (o : AppConfig) (email password : String) (authMeta : AuthMeta) : Process LoginResult := do
  let user? ← db (.findUserByEmail (normalizeEmail email))
  match user?.filter (·.status = .active) with
  | none => throw invalidCredentials
  | some user =>
    let at_ ← now
    if user.isLocked at_ then throw invalidCredentials
    else
      let valid ← verifyPassword password user.passwordHash
      if valid then
        let refreshToken ← randomToken
        db (.openSession ⟨user.id, o.sha256Hex refreshToken, authMeta, o.jwtRefreshTtlSeconds * 1000⟩)
        pure ⟨⟨o.signJwt user.id user.email user.platformRole, refreshToken⟩, toPublicUser user⟩
      else
        db (.recordFailure user.id user.failedLoginCount)
        throw invalidCredentials

/-- The session is checked where it is read, and revoked after another read. -/
def refresh (o : AppConfig) (presented : String) (authMeta : AuthMeta) : Process AuthTokens := do
  let session? ← db (.findSession (o.sha256Hex presented))
  let at_ ← now
  match session?.filter (·.isValid at_) with
  | none => throw invalidSession
  | some session =>
    let user? ← db (.findUser session.userId)
    match user?.filter (·.status = .active) with
    | none => throw invalidSession
    | some user =>
      let newRefreshToken ← randomToken
      db (.rotate session.tokenHash
        ⟨user.id, o.sha256Hex newRefreshToken, authMeta, o.jwtRefreshTtlSeconds * 1000⟩)
      pure ⟨o.signJwt user.id user.email user.platformRole, newRefreshToken⟩

/-- `revoke` of the session, if a token is presented. -/
def logout (o : AppConfig) (presented : Option String) : Process Unit :=
  match presented.filter (· ≠ "") with
  | none => pure ()
  | some presented => db (.revoke (o.sha256Hex presented))

/-- The requests of the controller. -/
inductive Call
  | login (email password : String) (authMeta : AuthMeta)
  | refresh (presented : String) (authMeta : AuthMeta)
  | logout (presented : Option String)
  deriving DecidableEq, Repr

inductive Outcome
  | loggedIn (result : LoginResult)
  | refreshed (tokens : AuthTokens)
  | loggedOut
  deriving DecidableEq, Repr

def Call.code (o : AppConfig) : Call → Process Outcome
  | .login email password authMeta => .loggedIn <$> AuthService.login o email password authMeta
  | .refresh presented authMeta => .refreshed <$> AuthService.refresh o presented authMeta
  | .logout presented => (fun _ => .loggedOut) <$> AuthService.logout o presented

/-! ## The database -/

/-- The clock, the token that is drawn, and how the database answers. -/
structure Moment where
  now : Int
  token : String
  fate : Fate Error

/-- Whether a failed attempt locks, by the counter it has read. -/
def locking (failedLoginCount : Nat) : Prop := maxFailedLoginAttempts ≤ failedLoginCount + 1

instance (failedLoginCount : Nat) : Decidable (locking failedLoginCount) :=
  inferInstanceAs (Decidable (_ ≤ _))

/-- What a failed attempt writes, from the counter it has read. -/
def fail (failedLoginCount : Nat) (now : Int) (user : User) : User :=
  if locking failedLoginCount then
    { user with failedLoginCount := 0, lockedUntil := some (now + lockoutDurationMs) }
  else { user with failedLoginCount := failedLoginCount + 1, lockedUntil := none }

/-- What the journal has of a failed attempt. -/
def failure (userId : String) (failedLoginCount : Nat) (now : Int) : Event :=
  if locking failedLoginCount then .locked userId now else .failed userId now

/-- What a successful attempt writes. -/
def succeed (now : Int) (user : User) : User :=
  { user with failedLoginCount := 0, lockedUntil := none, lastLoginAt := some now }

theorem fail_id (failedLoginCount : Nat) (now : Int) (user : User) :
    (fail failedLoginCount now user).id = user.id := by
  unfold fail
  split <;> rfl

theorem succeed_id (now : Int) (user : User) : (succeed now user).id = user.id := rfl

/-- A session that is already revoked keeps its time. -/
def revokeAt (now : Int) (session : Session) : Session :=
  { session with revokedAt := some (session.revokedAt.getD now) }

/-- The rotation sets the column whatever it finds. -/
def overwriteRevokedAt (now : Int) (session : Session) : Session :=
  { session with revokedAt := some now }

theorem revokeAt_tokenHash (now : Int) (session : Session) :
    (revokeAt now session).tokenHash = session.tokenHash := rfl

theorem overwriteRevokedAt_tokenHash (now : Int) (session : Session) :
    (overwriteRevokedAt now session).tokenHash = session.tokenHash := rfl

/-- The row of a session that is created. -/
def NewSession.row (session : NewSession) (now : Int) (predecessor : Option String) (root : String) :
    Session :=
  ⟨session.tokenHash, session.userId, session.authMeta.ip, session.authMeta.userAgent,
    now + session.ttl, none, predecessor, root⟩

/-- Insert a session, unless its token is taken. -/
def createSession (session : Session) (s : Shared) : Except Error Shared :=
  match h : s.sessions.find? session.tokenHash with
  | some _ => .error (.uniqueViolation "Session")
  | none => .ok { s with sessions := s.sessions.insert session h }

/-- The first write of a rotation. -/
def Shared.revokeSession (s : Shared) (tokenHash : String) (now : Int) : Shared :=
  { s with
    sessions := s.sessions.modify tokenHash (overwriteRevokedAt now)
      (overwriteRevokedAt_tokenHash now) }

/-- A transaction that fails leaves the state as it was. -/
def transaction (s : Shared) (result : Except Error Shared) : Except Error Unit × Shared :=
  match result with
  | .ok s' => (.ok (), s')
  | .error e => (.error e, s)

/-- A write whose row is missing fails. -/
def perform (now : Int) (s : Shared) : (q : Statement) → Except Error q.Answer × Shared
  | .findUserByEmail email => (.ok (s.users.rows.find? (·.email = email)), s)
  | .findUser id => (.ok (s.users.find? id), s)
  | .findSession tokenHash => (.ok (s.sessions.find? tokenHash), s)
  | .recordFailure userId failedLoginCount =>
    match s.users.find? userId with
    | some _ =>
      (.ok (), { s with
        users := s.users.modify userId (fail failedLoginCount now) (fail_id failedLoginCount now)
        journal := failure userId failedLoginCount now :: s.journal })
    | none => (.error (.recordNotFound "User"), s)
  | .openSession session =>
    match s.users.find? session.userId with
    | some _ =>
      transaction s (createSession (session.row now none session.tokenHash) { s with
        users := s.users.modify session.userId (succeed now) (succeed_id now)
        journal := .succeeded session.userId now :: s.journal })
    | none => (.error (.recordNotFound "User"), s)
  | .rotate tokenHash session =>
    match s.sessions.find? tokenHash with
    | some old =>
      transaction s (createSession (session.row now (some tokenHash) old.root)
        (s.revokeSession tokenHash now))
    | none => (.error (.recordNotFound "Session"), s)
  | .revoke tokenHash =>
    (.ok (), { s with
      sessions := s.sessions.modify tokenHash (revokeAt now) (revokeAt_tokenHash now) })

/-- The clock shows the moment of the last request. -/
def answer (o : AppConfig) (r : Request) (m : Moment) (s : Shared) :
    Except Error (Answer r) × Shared :=
  match r with
  | .now => (.ok m.now, { s with clock := m.now })
  | .randomToken => (.ok m.token, { s with clock := m.now })
  | .verify password passwordHash =>
    (.ok (o.verify password passwordHash), { s with clock := m.now })
  | .statement q => m.fate.answer (perform m.now { s with clock := m.now } q) { s with clock := m.now }

/-- Nothing else writes these tables. -/
def system (o : AppConfig) :
    Concurrent.System Request Answer Error Outcome Call Moment Empty Shared where
  code := Call.code o
  perform _ := answer o
  enter _ _ s := s
  environment e := nomatch e

abbrev State := Concurrent.State Request Answer Error Outcome Call Shared

/-! ## A call that is alone -/

section Alone

open Concurrent

/-- Nothing happens between the requests of a call that is alone. -/
abbrev aloneHere (steps asked : Request → Moment → Shared → Prop) :
    Terms Request Moment Shared := alone (fun s s' => s' = s) steps asked

variable {steps asked : Request → Moment → Shared → Prop} {o : AppConfig} {P : Shared → Prop}

theorem aloneHere_frame : (aloneHere steps asked).Frame fun _ => True :=
  alone_frame (fun _ => rfl) fun _ _ _ h h' => h'.trans h

theorem stable_aloneHere (P : Shared → Prop) : Stable (aloneHere steps asked) P :=
  stable_alone fun _ _ hs hsame => hsame ▸ hs

theorem alone_throw {α : Type} {Q : α → Shared → Prop} (e : Error) :
    Triple (answer o) (aloneHere steps asked) P (throw e : Process α) (OnSuccess Q) :=
  Triple.throw_ends aloneHere_frame fun _ _ _ => trivial

theorem alone_pure {α : Type} (a : α) :
    Triple (answer o) (aloneHere steps asked) P (pure a) (OnSuccess fun _ _ => True) :=
  Triple.pure_ends (stable_aloneHere P) fun _ _ _ => trivial

/-- A request that is the last one. -/
theorem alone_last {r : Request} (hasked : ∀ m s, P s → steps r m s → asked r m s) :
    Triple (answer o) (aloneHere steps asked) P (Program.call r) (OnSuccess fun _ _ => True) :=
  triple_alone (stable_aloneHere P) (fun _ => stable_aloneHere _) hasked
    fun _ _ _ _ _ _ => trivial

/-- What is read, drawn or computed. -/
theorem alone_read {r : Request} {Q : Answer r → Shared → Prop}
    (hasked : ∀ m s, P s → steps r m s → asked r m s)
    (hread : ∀ m s, P s → steps r m s → (answer o r m s).2 = { s with clock := m.now } ∧
      ∀ a, (answer o r m s).1 = .ok a → Q a { s with clock := m.now }) :
    Triple (answer o) (aloneHere steps asked) P (Program.call r) (OnSuccess Q) := by
  refine triple_alone (stable_aloneHere P) (fun _ => stable_aloneHere _) hasked
    fun m s a hs hm hok => ?_
  obtain ⟨hsame, hQ⟩ := hread m s hs hm
  rw [hsame]
  exact hQ a hok

/-- A statement that only reads. -/
theorem alone_find {q : Statement} {Q : q.Answer → Shared → Prop}
    (hasked : ∀ m s, P s → steps (.statement q) m s → asked (.statement q) m s)
    (hread : ∀ m s, P s → steps (.statement q) m s → ∃ a,
      perform m.now { s with clock := m.now } q = (.ok a, { s with clock := m.now }) ∧
        Q a { s with clock := m.now }) :
    Triple (answer o) (aloneHere steps asked) P (db q) (OnSuccess Q) := by
  refine alone_read hasked fun m s hs hm => ?_
  obtain ⟨a, hperform, hQ⟩ := hread m s hs hm
  show (m.fate.answer (perform m.now { s with clock := m.now } q) _).2 = _ ∧
    ∀ a, (m.fate.answer (perform m.now { s with clock := m.now } q) _).1 = .ok a → _
  rw [hperform]
  cases m.fate with
  | answered => exact ⟨rfl, fun a' ha' => by cases ha'; exact hQ⟩
  | failed error => exact ⟨rfl, fun _ h => nomatch h⟩
  | failedLate error => exact ⟨rfl, fun _ h => nomatch h⟩

theorem alone_logout (presented : Option String)
    (hasked : ∀ tokenHash m s, steps (.statement (.revoke tokenHash)) m s →
      asked (.statement (.revoke tokenHash)) m s) :
    Triple (answer o) (aloneHere steps asked) (fun _ => True) (logout o presented)
      (OnSuccess fun _ _ => True) := by
  unfold logout
  cases presented.filter (· ≠ "") with
  | none => exact alone_pure _
  | some presented => exact alone_last fun m s _ => hasked _ m s

/-- **Calls that do not overlap meet what is asked**, if each of them does when it is alone. -/
theorem reachable_of_oneByOne
    (hlogin : ∀ email password authMeta, Triple (answer o) (aloneHere steps asked) (fun _ => True)
      (login o email password authMeta) (OnSuccess fun _ _ => True))
    (hrefresh : ∀ presented authMeta, Triple (answer o) (aloneHere steps asked) (fun _ => True)
      (refresh o presented authMeta) (OnSuccess fun _ _ => True))
    (hlogout : ∀ presented, Triple (answer o) (aloneHere steps asked) (fun _ => True)
      (logout o presented) (OnSuccess fun _ _ => True))
    {init : Shared} {s : State} (h : (system o).Reachable (.oneByOne steps) init s) :
    (system o).Reachable (.asking asked) init s := by
  have hany : ∀ α : Type, ∀ _ : α, Stable (aloneHere steps asked) fun _ => True :=
    fun _ _ => Stable.fact True
  refine h.of_oneByOne aloneHere_frame (fun _ call => ?_) fun e => nomatch e
  suffices hcode : Triple (answer o) (aloneHere steps asked) (fun _ => True) (call.code o)
      (OnSuccess fun _ _ => True) from hcode.mono (fun _ _ h => h) fun _ _ _ => trivial
  cases call with
  | login email password authMeta =>
    exact (hlogin email password authMeta).map_ends aloneHere_frame (hany _)
  | refresh presented authMeta =>
    exact (hrefresh presented authMeta).map_ends aloneHere_frame (hany _)
  | logout presented => exact (hlogout presented).map_ends aloneHere_frame (hany _)

end Alone

/-! ## One account -/

namespace Shop

/-- Passwords are stored as they are. -/
def config : AppConfig where
  sha256Hex := id
  verify password passwordHash := password = passwordHash
  signJwt userId _ _ := userId
  jwtRefreshTtlSeconds := 86400

def alice : User := ⟨"usr_1", "alice@shop.example", "correct", none, "USER", .active, 0, none, none⟩

def shared : Shared := ⟨⟨[alice], by decide⟩, .empty, 0, []⟩

def authMeta : AuthMeta := ⟨"192.0.2.1", none⟩

def steps (i n : Nat) (m : Moment) : List (Concurrent.Move Call Moment Empty) :=
  List.replicate n (.step i m)

end Shop

end AuthService

end PaymentGateway
