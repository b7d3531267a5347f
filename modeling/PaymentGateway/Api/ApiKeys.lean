import PaymentGateway.Api.Members
import PaymentGateway.Lib.Calendar
import PaymentGateway.Lib.Json
import PaymentGateway.Security.Encryption
import PaymentGateway.Shared.Units

/-!
# API keys

A logged-in member of a merchant creates and revokes keys (`createKey`, `revokeKey`, behind
`merchantRoleGuard`), an administrator suspends and reactivates the merchant, and a server presents
a key with each of its requests (`apiKeyGuard`, then `apiKeyScopeGuard`). All of them are cut at
their awaits. Members come and go in between, and a key that was let through is touched some time
later.

A credential that was generated is read again, with any white space around it (`bearer_parts`,
`parseApiKey_generated`).

The shared state remembers, for no code to read, how long the audit log was when a call began, and
everybody who has ever been a member.
-/

namespace PaymentGateway

namespace ApiKeys

open Program Keyed
open MerchantMembersService (MerchantRole MerchantMember)

/-! ## Permissions -/

inductive MerchantPermission
  | invoicesRead
  | balanceRead
  | transactionsRead
  | settingsRead
  | apiKeysRead
  | apiKeysManage
  | webhooksRead
  | webhooksManage
  | membersRead
  | membersManage
  deriving DecidableEq, Repr

/-- `READ_ONLY_MERCHANT_PERMISSIONS` -/
def readOnlyMerchantPermissions : List MerchantPermission :=
  [.invoicesRead, .balanceRead, .transactionsRead, .settingsRead, .apiKeysRead, .webhooksRead,
    .membersRead]

/-- `MERCHANT_ROLE_PERMISSIONS` -/
def merchantRolePermissions : MerchantRole → List MerchantPermission
  | .viewer => readOnlyMerchantPermissions
  | .developer => readOnlyMerchantPermissions ++ [.apiKeysManage, .webhooksManage]
  | .admin => readOnlyMerchantPermissions ++ [.apiKeysManage, .webhooksManage]
  | .owner => [.invoicesRead, .balanceRead, .transactionsRead, .settingsRead, .apiKeysRead,
      .apiKeysManage, .webhooksRead, .webhooksManage, .membersRead, .membersManage]

/-- The roles that hold every one of the permissions. -/
def merchantRolesWith (permissions : List MerchantPermission) : List MerchantRole :=
  [MerchantRole.viewer, .developer, .admin, .owner].filter fun role =>
    permissions.all (· ∈ merchantRolePermissions role)

inductive ApiKeyScope
  | invoicesRead
  | invoicesWrite
  | addressesRead
  | addressesWrite
  | transactionsRead
  | balanceRead
  | webhooksWrite
  deriving DecidableEq, Repr

def ApiKeyScope.name : ApiKeyScope → String
  | invoicesRead => "invoices:read"
  | invoicesWrite => "invoices:write"
  | addressesRead => "addresses:read"
  | addressesWrite => "addresses:write"
  | transactionsRead => "transactions:read"
  | balanceRead => "balance:read"
  | webhooksWrite => "webhooks:write"

/-- `ALL_API_KEY_SCOPES` -/
def allApiKeyScopes : List ApiKeyScope :=
  [.invoicesRead, .invoicesWrite, .addressesRead, .addressesWrite, .transactionsRead, .balanceRead,
    .webhooksWrite]

/-! ## Rows -/

inductive ApiKeyStatus
  | active
  | rotating
  | revoked
  | expired
  deriving DecidableEq, Repr

def ApiKeyStatus.name : ApiKeyStatus → String
  | active => "ACTIVE"
  | rotating => "ROTATING"
  | revoked => "REVOKED"
  | expired => "EXPIRED"

/-- What nobody changes about a key. -/
structure Credential where
  id : String
  merchantId : String
  name : String
  keyPrefix : String
  secretHash : String
  livemode : Bool
  scopes : List ApiKeyScope
  ipAllowlist : List String := []
  expiresAt : Option Int := none
  graceExpiresAt : Option Int := none
  deriving DecidableEq, Repr

structure ApiKey extends Credential where
  status : ApiKeyStatus
  createdAt : Int
  lastUsedAt : Option Int := none
  lastUsedIp : Option String := none
  revokedAt : Option Int := none
  revokedBy : Option String := none
  deriving DecidableEq, Repr

inductive MerchantStatus
  | pendingVerification
  | active
  | suspended
  | closed
  deriving DecidableEq, Repr

def MerchantStatus.name : MerchantStatus → String
  | pendingVerification => "PENDING_VERIFICATION"
  | active => "ACTIVE"
  | suspended => "SUSPENDED"
  | closed => "CLOSED"

structure Merchant where
  id : String
  status : MerchantStatus
  deriving DecidableEq, Repr

abbrev ApiKey.rowId (key : ApiKey) : String := key.id

/-- `begun` has the length of the audit log when a call began, and `formerMembers` everybody who has
been a member. -/
structure Shared where
  apiKeys : Table ApiKey ApiKey.rowId
  merchants : Table Merchant Merchant.id
  members : List MerchantMember
  auditLog : List AuditLog
  begun : Nat → Nat
  formerMembers : List MerchantMember

/-! ## The awaits -/

/-- The statements, and the transactions of a row and its audit entry. -/
inductive Statement
  | findMembership (merchantId userId : String)
  | createApiKey (credential : Credential) (entry : AuditLogEntry)
  | findApiKey (id merchantId : String)
  | findApiKeyByPrefix (keyPrefix : String)
  | revokeApiKey (id userId : String) (entry : AuditLogEntry)
  | findMerchant (id : String)
  | updateMerchant (id : String) (status : MerchantStatus) (entry : AuditLogEntry)

/-- A membership comes with its merchant's status. -/
abbrev Statement.Answer : Statement → Type
  | .findMembership .. => Option (MerchantMember × MerchantStatus)
  | .createApiKey .. => ApiKey
  | .findApiKey .. => Option ApiKey
  | .findApiKeyByPrefix _ => Option ApiKey
  | .revokeApiKey .. => ApiKey
  | .findMerchant _ => Option Merchant
  | .updateMerchant .. => Merchant

/-- The clock, the random bytes and a fresh id are read between two awaits; a call may be cut there
all the same. -/
inductive Request
  | now
  | newId
  | randomBytes (n : Nat)
  | hash (secret : String)
  | verify (secretHash secret : String)
  | statement (q : Statement)

/-- Checking a secret against a malformed hash throws. -/
abbrev Answer : Request → Type
  | .now => Int
  | .newId => String
  | .randomBytes n => Bytes n
  | .hash _ => String
  | .verify .. => Option Bool
  | .statement q => q.Answer

/-- A method of a service or a guard. -/
abbrev Process := Program Request Answer Error

def now : Process Int := Program.call Request.now

def newId : Process String := Program.call Request.newId

def randomBytes (n : Nat) : Process (Bytes n) := Program.call (Request.randomBytes n)

def hash (secret : String) : Process String := Program.call (Request.hash secret)

def verify (secretHash secret : String) : Process (Option Bool) :=
  Program.call (Request.verify secretHash secret)

def db (q : Statement) : Process q.Answer := Program.call (Request.statement q)

/-! ## Credentials -/

/-- The plain text is handed out once and is not kept. -/
structure GeneratedApiKey where
  plaintext : String
  keyPrefix : String
  secretHash : String
  livemode : Bool
  deriving DecidableEq, Repr

/-- What is read out of a credential. -/
structure ParsedApiKey where
  keyPrefix : String
  secret : String
  livemode : Bool
  deriving DecidableEq, Repr

def publicIdBytes : Nat := 9

def secretBytes : Nat := 32

/-- Keys of the test mode say so. -/
def environmentPrefix (livemode : Bool) : String := if livemode then "pk_live_" else "pk_test_"

/-- Only the hash of the secret is stored. -/
def generateApiKey (livemode : Bool) : Process GeneratedApiKey := do
  let publicId ← randomBytes publicIdBytes
  let secret ← randomBytes secretBytes
  let keyPrefix := environmentPrefix livemode ++ base64url publicId
  let secretHash ← hash (base64url secret)
  pure ⟨keyPrefix ++ "." ++ base64url secret, keyPrefix, secretHash, livemode⟩

/-- `[A-Za-z0-9_-]` -/
def isKeyChar (c : Char) : Bool := c.isAlphanum || c = '_' || c = '-'

/-- `[A-Za-z0-9_-]{least,most}` -/
def matchesKeyChars (least most : Nat) (text : List Char) : Bool :=
  decide (least ≤ text.length) && decide (text.length ≤ most) && text.all isKeyChar

/-- The environment of `^pk_(live|test)_[A-Za-z0-9_-]{8,32}$`. -/
def matchKeyPrefix (keyPrefix : String) : Option Bool :=
  [true, false].find? fun livemode =>
    (environmentPrefix livemode).toList.isPrefixOf keyPrefix.toList &&
      matchesKeyChars 8 32 (keyPrefix.toList.drop (environmentPrefix livemode).length)

/-- Exactly one separator. -/
def parseApiKey (presented : String) : Option ParsedApiKey :=
  match Separated.fields '.' (String.ofList (trim presented.toList)) with
  | [keyPrefix, secret] =>
    if matchesKeyChars 32 128 secret.toList then
      (matchKeyPrefix keyPrefix).map fun livemode => ⟨keyPrefix, secret, livemode⟩
    else none
  | _ => none

/-- An argument that is missing is not verified. -/
def verifyApiKeySecret (secret secretHash : String) : Process Bool :=
  if secret = "" ∨ secretHash = "" then pure false
  else (fun valid => valid.getD false) <$> verify secretHash secret

/-! ## Guards -/

/-- `header?.startsWith('Bearer ')`, and what follows. -/
def bearer (header : Option String) : Option String :=
  header.bind fun header =>
    if "Bearer ".toList.isPrefixOf header.toList then
      some (String.ofList (trim (header.toList.drop "Bearer ".length)))
    else none

/-- What a request is let through with. -/
structure MerchantContext where
  merchantId : String
  apiKeyId : String
  livemode : Bool
  scopes : List ApiKeyScope
  deriving DecidableEq, Repr

def missingHeader : Error := .app 401 "missing Authorization: Bearer <api_key> header"

def malformedApiKey : Error := .app 401 "malformed API key"

def invalidApiKey : Error := .app 401 "invalid API key"

def apiKeyRevoked : Error := .app 401 "this API key has been revoked"

def apiKeyExpired : Error := .app 401 "this API key has expired"

def gracePeriodEnded : Error := .app 401 "this API key rotation grace period has ended"

def ipNotAllowed : Error := .app 403 "source IP is not permitted for this API key"

def merchantNotActive : Error := .app 403 "merchant account is not active"

def ApiKey.context (key : ApiKey) : MerchantContext :=
  ⟨key.merchantId, key.id, key.livemode, key.scopes⟩

/-- What a key is refused for before its secret is looked at. -/
def ApiKey.refusal (key : ApiKey) (now : Int) : Option Error :=
  if key.status = .revoked then some apiKeyRevoked
  else if key.expiresAt.any (· ≤ now) then some apiKeyExpired
  else if key.status = .rotating ∧ key.graceExpiresAt.any (· ≤ now) then some gracePeriodEnded
  else none

/-- `ApiKeyGuard.canActivate`. The key's last use is recorded when the request has gone on. -/
def apiKeyGuard (header : Option String) (ip : String) : Process MerchantContext :=
  match bearer header with
  | none => throw missingHeader
  | some presented =>
    match parseApiKey presented with
    | none => throw malformedApiKey
    | some parsed => do
      match ← db (.findApiKeyByPrefix parsed.keyPrefix) with
      | none => throw invalidApiKey
      | some record =>
        let at_ ← now
        match record.refusal at_ with
        | some e => throw e
        | none =>
          let valid ← verifyApiKeySecret parsed.secret record.secretHash
          if !valid then throw invalidApiKey
          else if record.ipAllowlist ≠ [] ∧ ip ∉ record.ipAllowlist then throw ipNotAllowed
          else
            let merchant? ← db (.findMerchant record.merchantId)
            if merchant?.any (·.status = .active) then pure record.context
            else throw merchantNotActive

/-- The scopes a key does not have. -/
def missingScopes (required granted : List ApiKeyScope) : List ApiKeyScope :=
  required.filter (· ∉ granted)

def scopesMissing (missing : List ApiKeyScope) : Error :=
  .app 403 ("this API key is missing required scope(s): " ++
    ", ".intercalate (missing.map (·.name)))

/-- `ApiKeyScopeGuard.canActivate`. Nothing is missing of no required scopes. -/
def apiKeyScopeGuard (required : List ApiKeyScope) (merchant : MerchantContext) :
    Process MerchantContext :=
  match missingScopes required merchant.scopes with
  | [] => pure merchant
  | missing => throw (scopesMissing missing)

/-- A request with a key, as far as the route's handler. -/
def request (header : Option String) (ip : String) (required : List ApiKeyScope) :
    Process MerchantContext := do
  let merchant ← apiKeyGuard header ip
  apiKeyScopeGuard required merchant

/-- `MerchantRoleGuard.canActivate`, for a user who is logged in. The header may be sent more than
once. -/
def merchantRoleGuard (userId : String) (header : List String) (required : List MerchantRole) :
    Process String :=
  match header.head?.filter (· ≠ "") with
  | none => throw (.app 400 "the x-merchant-id header is required")
  | some merchantId => do
    match ← db (.findMembership merchantId userId) with
    | none => throw (.app 403 "you are not a member of this merchant")
    | some (membership, status) =>
      if status ≠ .active then throw (.app 403 "this merchant account is not active")
      else if required ≠ [] ∧ membership.role ∉ required then
        throw (.app 403 "insufficient merchant role")
      else pure merchantId

/-! ## Services -/

structure CreateApiKeyDto where
  name : String
  livemode : Option Bool
  scopes : Option (List ApiKeyScope)
  deriving DecidableEq, Repr

structure ApiKeyResponse where
  id : String
  name : String
  key_prefix : String
  livemode : Bool
  scopes : List ApiKeyScope
  status : ApiKeyStatus
  last_used_at : Option String
  created_at : String
  deriving DecidableEq, Repr

structure CreatedApiKeyResponse extends ApiKeyResponse where
  plaintext : String
  deriving DecidableEq, Repr

/-- No response has a secret or its hash. -/
def toResponse (row : ApiKey) : ApiKeyResponse :=
  ⟨row.id, row.name, row.keyPrefix, row.livemode, row.scopes, row.status,
    row.lastUsedAt.map Calendar.isoString, Calendar.isoString row.createdAt⟩

/-- The audit entry of a new key. -/
def createdEntry (userId : String) (key : Credential) (auditMeta : AuditMeta) : AuditLogEntry where
  actorUserId := some userId
  action := "api_key.created"
  resourceType := "api_key"
  resourceId := some key.id
  merchantId := some key.merchantId
  after := some [("name", .string key.name), ("key_prefix", .string key.keyPrefix),
    ("livemode", .boolean key.livemode), ("scopes", .strings (key.scopes.map (·.name)))]
  auditMeta := some auditMeta

def revokedEntry (userId merchantId apiKeyId : String) (status : ApiKeyStatus)
    (auditMeta : AuditMeta) : AuditLogEntry where
  actorUserId := some userId
  action := "api_key.revoked"
  resourceType := "api_key"
  resourceId := some apiKeyId
  merchantId := some merchantId
  before := some [("status", .string status.name)]
  after := some [("status", .string ApiKeyStatus.revoked.name)]
  auditMeta := some auditMeta

/-- `ApiKeysService.create`. -/
def createKey (merchantId userId : String) (dto : CreateApiKeyDto) (auditMeta : AuditMeta) :
    Process CreatedApiKeyResponse := do
  let generated ← generateApiKey (dto.livemode.getD false)
  let id ← newId
  let credential : Credential := {
    id := id
    merchantId := merchantId
    name := dto.name
    keyPrefix := generated.keyPrefix
    secretHash := generated.secretHash
    livemode := generated.livemode
    scopes := dto.scopes.getD allApiKeyScopes }
  let created ← db (.createApiKey credential (createdEntry userId credential auditMeta))
  pure { toResponse created with plaintext := generated.plaintext }

/-- `ApiKeysService.revoke`. -/
def revokeKey (merchantId userId apiKeyId : String) (auditMeta : AuditMeta) :
    Process ApiKeyResponse := do
  match ← db (.findApiKey apiKeyId merchantId) with
  | none => throw (.notFound "api key")
  | some existing =>
    let updated ← db (.revokeApiKey apiKeyId userId
      (revokedEntry userId merchantId apiKeyId existing.status auditMeta))
    pure (toResponse updated)

/-- `AdminMerchantsService.suspend` and `reactivate`. -/
inductive Transition
  | suspend
  | reactivate
  deriving DecidableEq, Repr

def Transition.status : Transition → MerchantStatus
  | suspend => .suspended
  | reactivate => .active

def Transition.action : Transition → String
  | suspend => "merchant.suspended"
  | reactivate => "merchant.reactivated"

def transitionEntry (t : Transition) (actorUserId merchantId : String) (existing : MerchantStatus)
    (auditMeta : AuditMeta) : AuditLogEntry where
  actorUserId := some actorUserId
  action := t.action
  resourceType := "merchant"
  resourceId := some merchantId
  merchantId := some merchantId
  before := some [("status", .string existing.name)]
  after := some [("status", .string t.status.name)]
  auditMeta := some auditMeta

/-- A merchant that has the status already is left alone. -/
def transition (t : Transition) (actorUserId merchantId : String) (auditMeta : AuditMeta) :
    Process Merchant := do
  match ← db (.findMerchant merchantId) with
  | none => throw (.notFound "merchant")
  | some existing =>
    if existing.status = t.status then
      throw (.conflict ("merchant is already " ++ toLowerCase t.status.name))
    else
      db (.updateMerchant merchantId t.status
        (transitionEntry t actorUserId merchantId existing.status auditMeta))

/-- The roles of `RequireMerchantPermission(API_KEYS_MANAGE)`. -/
def managingRoles : List MerchantRole := merchantRolesWith [.apiKeysManage]

/-- The requests of the controllers, and those behind the guards. -/
inductive Call
  | request (header : Option String) (ip : String) (required : List ApiKeyScope)
  | create (userId : String) (header : List String) (dto : CreateApiKeyDto) (auditMeta : AuditMeta)
  | revoke (userId : String) (header : List String) (apiKeyId : String) (auditMeta : AuditMeta)
  | transition (t : Transition) (actorUserId merchantId : String) (auditMeta : AuditMeta)

inductive Outcome
  | admitted (context : MerchantContext)
  | created (response : CreatedApiKeyResponse)
  | revoked (response : ApiKeyResponse)
  | transitioned (merchant : Merchant)
  deriving DecidableEq, Repr

def Call.code : Call → Process Outcome
  | .request header ip required => .admitted <$> ApiKeys.request header ip required
  | .create userId header dto auditMeta => do
    let merchantId ← merchantRoleGuard userId header managingRoles
    .created <$> createKey merchantId userId dto auditMeta
  | .revoke userId header apiKeyId auditMeta => do
    let merchantId ← merchantRoleGuard userId header managingRoles
    .revoked <$> revokeKey merchantId userId apiKeyId auditMeta
  | .transition t actorUserId merchantId auditMeta =>
    .transitioned <$> ApiKeys.transition t actorUserId merchantId auditMeta

/-! ## The database -/

/-- Argon2id, with its salt. -/
structure Argon2 where
  hash : String → String → String
  verify : String → String → Option Bool

structure Moment where
  now : Int
  newId : String
  bytes : (n : Nat) → Bytes n
  salt : String
  fate : Fate Error

def Shared.record (s : Shared) (text : TextFunctions) (call : Nat) (entry : AuditLogEntry) :
    Shared :=
  { s with auditLog := AuditLogService.record text call entry s.auditLog }

def Credential.row (now : Int) (credential : Credential) : ApiKey where
  toCredential := credential
  status := .active
  createdAt := now

def revokeAt (now : Int) (userId : String) (key : ApiKey) : ApiKey :=
  { key with status := .revoked, revokedAt := some now, revokedBy := some userId }

/-- The use of a key is recorded. -/
def touchAt (now : Int) (ip : String) (key : ApiKey) : ApiKey :=
  { key with lastUsedAt := some now, lastUsedIp := some ip }

def setStatus (status : MerchantStatus) (merchant : Merchant) : Merchant :=
  { merchant with status := status }

theorem revokeAt_id (now : Int) (userId : String) (key : ApiKey) :
    (revokeAt now userId key).rowId = key.rowId := rfl

theorem touchAt_id (now : Int) (ip : String) (key : ApiKey) :
    (touchAt now ip key).rowId = key.rowId := rfl

theorem setStatus_id (status : MerchantStatus) (merchant : Merchant) :
    (setStatus status merchant).id = merchant.id := rfl

/-- Ids and prefixes are unique, and a membership belongs to a merchant. -/
def perform (text : TextFunctions) (i : Nat) (now : Int) (s : Shared) :
    (q : Statement) → Except Error q.Answer × Shared
  | .findMembership merchantId userId =>
    (.ok ((s.members.find? fun member =>
        member.merchantId = merchantId ∧ member.userId = userId).bind fun member =>
      (s.merchants.find? merchantId).map fun merchant => (member, merchant.status)), s)
  | .createApiKey credential entry =>
    match h : s.apiKeys.find? credential.id with
    | some _ => (.error (.uniqueViolation "ApiKey"), s)
    | none =>
      if ∃ other ∈ s.apiKeys.rows, other.keyPrefix = credential.keyPrefix then
        (.error (.uniqueViolation "ApiKey"), s)
      else (.ok (credential.row now), Shared.record { s with
        apiKeys := s.apiKeys.insert (credential.row now) h } text i entry)
  | .findApiKey id merchantId => (.ok ((s.apiKeys.find? id).filter (·.merchantId = merchantId)), s)
  | .findApiKeyByPrefix keyPrefix => (.ok (s.apiKeys.rows.find? (·.keyPrefix = keyPrefix)), s)
  | .revokeApiKey id userId entry =>
    match s.apiKeys.find? id with
    | some key => (.ok (revokeAt now userId key), Shared.record { s with
        apiKeys := s.apiKeys.modify id (revokeAt now userId) (revokeAt_id now userId) } text i entry)
    | none => (.error (.recordNotFound "ApiKey"), s)
  | .findMerchant id => (.ok (s.merchants.find? id), s)
  | .updateMerchant id status entry =>
    match s.merchants.find? id with
    | some merchant => (.ok (setStatus status merchant), Shared.record { s with
        merchants := s.merchants.modify id (setStatus status) (setStatus_id status) } text i entry)
    | none => (.error (.recordNotFound "Merchant"), s)

def answer (text : TextFunctions) (o : Argon2) (i : Nat) (r : Request) (m : Moment) (s : Shared) :
    Except Error (Answer r) × Shared :=
  match r with
  | .now => (.ok m.now, s)
  | .newId => (.ok m.newId, s)
  | .randomBytes n => (.ok (m.bytes n), s)
  | .hash secret => (.ok (o.hash m.salt secret), s)
  | .verify secretHash secret => (.ok (o.verify secretHash secret), s)
  | .statement q => m.fate.answer (perform text i m.now s q) s

/-- Members come and go, and keys are touched. -/
inductive Event
  | members (members : List MerchantMember)
  | touched (id : String) (now : Int) (ip : String)

def happen : Event → Shared → Shared
  | .members members, s => { s with
      members := members
      formerMembers := members ++ s.formerMembers }
  | .touched id now ip, s => { s with
      apiKeys := s.apiKeys.modify id (touchAt now ip) (touchAt_id now ip) }

def system (text : TextFunctions) (o : Argon2) :
    Concurrent.System Request Answer Error Outcome Call Moment Event Shared where
  code := Call.code
  perform := answer text o
  enter n _ s := { s with begun := Function.update s.begun n s.auditLog.length }
  environment := happen

abbrev State := Concurrent.State Request Answer Error Outcome Call Shared

/-- No keys yet. -/
def start (merchants : Table Merchant Merchant.id) (members : List MerchantMember) : Shared :=
  ⟨.empty, merchants, members, [], fun _ => 0, members⟩

/-! ## What is handed out is read again -/

theorem isKeyChar_base64url {bytes : List UInt8} {c : Char} (h : c ∈ (base64url bytes).toList) :
    isKeyChar c = true := by
  rw [base64url, String.toList_ofList] at h
  rcases Base64.mem_encode h with halphanum | rfl | rfl
  · simp [isKeyChar, halphanum]
  · decide
  · decide

theorem matchesKeyChars_base64url {bytes : List UInt8} {least most : Nat}
    (hleast : least ≤ (8 * bytes.length + 5) / 6) (hmost : (8 * bytes.length + 5) / 6 ≤ most) :
    matchesKeyChars least most (base64url bytes).toList = true := by
  have hlength : (base64url bytes).toList.length = (8 * bytes.length + 5) / 6 := by
    rw [base64url, String.toList_ofList, Base64.length_encode]
  have hall : (base64url bytes).toList.all isKeyChar = true :=
    List.all_eq_true.2 fun c hc => isKeyChar_base64url hc
  simp [matchesKeyChars, hlength, hleast, hmost, hall]

theorem matchKeyPrefix_generated (livemode : Bool) (publicId : Bytes publicIdBytes) :
    matchKeyPrefix (environmentPrefix livemode ++ base64url publicId) = some livemode := by
  have hchars : matchesKeyChars 8 32 (base64url publicId).toList = true := by
    refine matchesKeyChars_base64url ?_ ?_ <;> rw [publicId.2] <;> decide
  have hlive : "pk_live_".length = 8 := rfl
  have htest : "pk_test_".length = 8 := rfl
  cases livemode <;> simp [matchKeyPrefix, environmentPrefix, hlive, htest, hchars]

theorem isWhiteSpace_of_isKeyChar {c : Char} (h : isKeyChar c = true) : isWhiteSpace c = false := by
  have hcode : (48 ≤ c.toNat ∧ c.toNat ≤ 57) ∨ (65 ≤ c.toNat ∧ c.toNat ≤ 90) ∨ c.toNat = 95 ∨
      c.toNat = 45 ∨ (97 ≤ c.toNat ∧ c.toNat ≤ 122) := by
    unfold isKeyChar Char.isAlphanum Char.isAlpha Char.isUpper Char.isLower Char.isDigit at h
    simp only [Bool.or_eq_true, Bool.and_eq_true, decide_eq_true_eq] at h
    rcases h with ((((⟨h1, h2⟩ | ⟨h1, h2⟩) | ⟨h1, h2⟩) | rfl) | rfl)
    · exact .inr (.inl ⟨h1, h2⟩)
    · exact .inr (.inr (.inr (.inr ⟨h1, h2⟩)))
    · exact .inl ⟨h1, h2⟩
    · exact .inr (.inr (.inl rfl))
    · exact .inr (.inr (.inr (.inl rfl)))
  unfold isWhiteSpace
  simp
  omega

section Parts

variable {keyPrefix secret : String}

theorem trim_parts {before after : List Char} (hkey : ∀ c ∈ keyPrefix.toList, isKeyChar c = true)
    (hsecret : ∀ c ∈ secret.toList, isKeyChar c = true)
    (hbefore : ∀ c ∈ before, isWhiteSpace c = true) (hafter : ∀ c ∈ after, isWhiteSpace c = true) :
    trim (before ++ (keyPrefix ++ "." ++ secret).toList ++ after) =
      (keyPrefix ++ "." ++ secret).toList := by
  refine (trim_eq_iff (by simp) fun c hc => ?_).2 ⟨before, after, hbefore, hafter, rfl⟩
  simp only [String.toList_append, List.mem_append] at hc
  rcases hc with (hc | hc) | hc
  · exact isWhiteSpace_of_isKeyChar (hkey c hc)
  · obtain rfl : c = '.' := by simpa using hc
    decide
  · exact isWhiteSpace_of_isKeyChar (hsecret c hc)

/-- White space around a credential is taken away. -/
theorem bearer_parts {before after : List Char} (hkey : ∀ c ∈ keyPrefix.toList, isKeyChar c = true)
    (hsecret : ∀ c ∈ secret.toList, isKeyChar c = true)
    (hbefore : ∀ c ∈ before, isWhiteSpace c = true) (hafter : ∀ c ∈ after, isWhiteSpace c = true) :
    bearer (some ("Bearer " ++ String.ofList (before ++ (keyPrefix ++ "." ++ secret).toList ++
      after))) = some (keyPrefix ++ "." ++ secret) := by
  generalize hpresented : before ++ (keyPrefix ++ "." ++ secret).toList ++ after = presented
  have htrim : trim presented = (keyPrefix ++ "." ++ secret).toList := by
    rw [← hpresented, trim_parts hkey hsecret hbefore hafter]
  have hstart : "Bearer ".toList.isPrefixOf ("Bearer " ++ String.ofList presented).toList = true := by
    rw [String.toList_append]
    exact List.isPrefixOf_iff_prefix.2 (List.prefix_append _ _)
  have hdrop : ("Bearer " ++ String.ofList presented).toList.drop "Bearer ".length = presented := by
    have hlength : "Bearer ".length = 7 := rfl
    rw [String.toList_append, hlength]
    exact String.toList_ofList
  rw [bearer, Option.bind_some, if_pos hstart, hdrop, htrim, String.ofList_toList]

theorem parseApiKey_parts {livemode : Bool} (hkey : ∀ c ∈ keyPrefix.toList, isKeyChar c = true)
    (hlead : matchKeyPrefix keyPrefix = some livemode)
    (hsecret : matchesKeyChars 32 128 secret.toList = true) :
    parseApiKey (keyPrefix ++ "." ++ secret) = some ⟨keyPrefix, secret, livemode⟩ := by
  have hall : ∀ c ∈ secret.toList, isKeyChar c = true := by
    simp only [matchesKeyChars, Bool.and_eq_true] at hsecret
    exact List.all_eq_true.1 hsecret.2
  have htrim : trim (keyPrefix ++ "." ++ secret).toList = (keyPrefix ++ "." ++ secret).toList := by
    have hnone : ∀ c ∈ ([] : List Char), isWhiteSpace c = true := fun c hc => by cases hc
    simpa using trim_parts hkey hall hnone hnone
  have hstop : isKeyChar '.' = false := by decide
  have hfields : Separated.fields '.' (keyPrefix ++ "." ++ secret) = [keyPrefix, secret] := by
    have hjoin : Separated.join '.' [keyPrefix, secret] = keyPrefix ++ "." ++ secret := by
      rw [Separated.join_cons_cons, Separated.join_singleton, String.append_assoc]
      rfl
    rw [← hjoin]
    refine Separated.fields_join (fun field hfield hmem => ?_) (List.cons_ne_nil _ _)
    have hchar : isKeyChar '.' = true := by
      rcases List.mem_cons.1 hfield with rfl | hfield
      · exact hkey _ hmem
      · rw [List.mem_singleton] at hfield
        subst hfield
        exact hall _ hmem
    rw [hstop] at hchar
    cases hchar
  unfold parseApiKey
  rw [htrim, String.ofList_toList, hfields]
  dsimp only
  rw [if_pos hsecret, hlead]
  rfl

end Parts

section Generated

variable (livemode : Bool) (publicId : Bytes publicIdBytes) (secret : Bytes secretBytes)

theorem isKeyChar_keyPrefix {c : Char}
    (h : c ∈ (environmentPrefix livemode ++ base64url publicId).toList) : isKeyChar c = true := by
  rw [String.toList_append, List.mem_append] at h
  rcases h with h | h
  · have hall : (environmentPrefix livemode).toList.all isKeyChar = true := by
      cases livemode <;> decide
    exact List.all_eq_true.1 hall c h
  · exact isKeyChar_base64url h

/-- A generated credential is read again. -/
theorem parseApiKey_generated :
    parseApiKey (environmentPrefix livemode ++ base64url publicId ++ "." ++ base64url secret) =
      some ⟨environmentPrefix livemode ++ base64url publicId, base64url secret, livemode⟩ := by
  refine parseApiKey_parts (fun _ hc => isKeyChar_keyPrefix livemode publicId hc)
    (matchKeyPrefix_generated livemode publicId) ?_
  refine matchesKeyChars_base64url ?_ ?_ <;> rw [secret.2] <;> decide

end Generated

end ApiKeys

end PaymentGateway
