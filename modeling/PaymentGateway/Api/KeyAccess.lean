import PaymentGateway.Api.KeyAccounts

/-!
# Who an API key lets in

**Theorem (`admitted_accounted`).** In every run, whatever fails and however the calls overlap, a
request is let through only with the secret of a key of which the audit log tells that a member with
the right to manage keys created it for an active merchant, that it had not been revoked when the
request began, and that the merchant was active at some later point of the request.

**Theorem (`keys_accounted`).** The audit log accounts for all keys and for the status of every
merchant, and nobody has created or revoked a key of a merchant of which he has never been a
managing member.

**Theorem (`presented_admitted`).** The text that `createKey` hands out, with any white space around
it, is let through exactly as long as the audit log says so, with the scopes that were asked for.

A call relies on everybody to keep the accounts, and to take nothing back of what is in the log
(`accountable`). What was read stays true of the audit log as it was then.
-/

namespace PaymentGateway

namespace ApiKeys

open Program Keyed Concurrent
open MerchantMembersService (MerchantMember)
open Redaction (plainText)

variable {text : TextFunctions} {opened : Table Merchant Merchant.id} {i : Nat}

/-! ## Calls among others -/

section Calls

variable (text) (opened) (i)

/-- Everybody keeps the accounts, and takes nothing back. -/
def accountable : Terms Request Moment Shared where
  inv := Accounted text opened
  rely s s' := Grows s s' ∧ s'.begun i = s.begun i
  guar _ s s' := Grows s s' ∧ s'.begun = s.begun
  meets _ _ _ := True

theorem accountable_frame : (accountable text opened i).Frame fun _ => True where
  refl s := ⟨.refl s, rfl⟩
  trans _ _ _ h h' := ⟨h.1.trans h'.1, h'.2.trans h.2⟩
  failure := Stable.fact True

variable {text opened i} {o : Argon2}

theorem stable_managed (userId merchantId : String) :
    Stable (accountable text opened i) (Managed opened userId merchantId) :=
  fun _ _ h _ hrely => h.grows hrely.1

/-- What is read, drawn or computed. -/
theorem triple_ask {r : Request} {P : Shared → Prop} {Q : Answer r → Shared → Prop}
    (hP : Stable (accountable text opened i) P) (hQ : ∀ a, Stable (accountable text opened i) (Q a))
    (h : ∀ m s, Accounted text opened s → P s → (answer text o i r m s).2 = s ∧
      ∀ a, (answer text o i r m s).1 = .ok a → Q a s) :
    Triple (answer text o i) (accountable text opened i) P (Program.call r) (OnSuccess Q) := by
  refine Triple.call hP (Stable.ends (Stable.fact True) hQ) fun m s hinv hs _ => ?_
  obtain ⟨hsame, hanswer⟩ := h m s hinv hs
  rw [hsame]
  refine ⟨hinv, ⟨.refl s, rfl⟩, ?_⟩
  cases hresult : (answer text o i r m s).1 with
  | ok a => exact hanswer a hresult
  | error e => trivial

theorem triple_db {q : Statement} {P : Shared → Prop} {Q : q.Answer → Shared → Prop}
    (hP : Stable (accountable text opened i) P) (hQ : ∀ a, Stable (accountable text opened i) (Q a))
    (h : ∀ now s, Accounted text opened s → P s →
      (Accounted text opened (perform text i now s q).2 ∧ Grows s (perform text i now s q).2) ∧
      (perform text i now s q).2.begun = s.begun ∧
      ∀ a, (perform text i now s q).1 = .ok a → Q a (perform text i now s q).2) :
    Triple (answer text o i) (accountable text opened i) P (db q) (OnSuccess Q) := by
  refine Triple.call hP (Stable.ends (Stable.fact True) hQ) fun m s hinv hs _ => ?_
  obtain ⟨hkept, hbegun, hanswer⟩ := h m.now s hinv hs
  have hafter : (Accounted text opened (m.fate.answer (perform text i m.now s q) s).2 ∧
      Grows s (m.fate.answer (perform text i m.now s q) s).2) ∧
      (m.fate.answer (perform text i m.now s q) s).2.begun = s.begun :=
    Fate.answer_kept (P := fun s' => (Accounted text opened s' ∧ Grows s s') ∧ s'.begun = s.begun)
      ⟨⟨hinv, .refl s⟩, rfl⟩ fun _ => ⟨hkept, hbegun⟩
  refine ⟨hafter.1.1, ⟨hafter.1.2, hafter.2⟩, ?_⟩
  show OnSuccess Q (m.fate.answer (perform text i m.now s q) s).1
    (m.fate.answer (perform text i m.now s q) s).2
  cases hresult : (m.fate.answer (perform text i m.now s q) s).1 with
  | error e => trivial
  | ok a =>
    obtain ⟨-, hsame⟩ := Fate.answer_ok hresult
    rw [hsame] at hresult ⊢
    exact hanswer a hresult

/-- A statement that only reads. -/
theorem triple_read {q : Statement} {P : Shared → Prop} {Q : q.Answer → Shared → Prop}
    (hP : Stable (accountable text opened i) P) (hQ : ∀ a, Stable (accountable text opened i) (Q a))
    (h : ∀ now s, Accounted text opened s → P s → ∃ a, perform text i now s q = (.ok a, s) ∧ Q a s) :
    Triple (answer text o i) (accountable text opened i) P (db q) (OnSuccess Q) := by
  refine triple_db hP hQ fun now s hinv hs => ?_
  obtain ⟨a, hperform, hQa⟩ := h now s hinv hs
  rw [hperform]
  exact ⟨⟨hinv, .refl s⟩, rfl, fun a' ha' => by cases ha'; exact hQa⟩

theorem triple_throw {α : Type} {P : Shared → Prop} {Q : α → Shared → Prop} (e : Error) :
    Triple (answer text o i) (accountable text opened i) P (throw e : Process α) (OnSuccess Q) :=
  Triple.throw_ends (accountable_frame text opened i) fun _ _ _ => trivial

theorem triple_pure {α : Type} {P : Shared → Prop} {Q : α → Shared → Prop} {a : α}
    (hQ : Stable (accountable text opened i) (Q a)) (h : ∀ s, P s → Q a s) :
    Triple (answer text o i) (accountable text opened i) P (pure a) (OnSuccess Q) := by
  refine fun s hinv hs => Triple.pure_ends (P := Q a) hQ (fun _ _ h => h) s hinv (h s hs)

/-! ### Members -/

/-- Behind the guard there is a managing member of an active merchant. -/
theorem triple_merchantRoleGuard (userId : String) (header : List String) :
    Triple (answer text o i) (accountable text opened i) (fun _ => True)
      (merchantRoleGuard userId header managingRoles)
      (OnSuccess fun merchantId s => Managed opened userId merchantId s ∧
        header.head? = some merchantId) := by
  have hframe := accountable_frame text opened i
  unfold merchantRoleGuard
  cases hheader : header.head?.filter (· ≠ "") with
  | none => exact triple_throw _
  | some merchantId =>
    have hfirst : header.head? = some merchantId := (Option.filter_eq_some_iff.1 hheader).1
    have hread : Triple (answer text o i) (accountable text opened i) (fun _ => True)
        (db (.findMembership merchantId userId)) (OnSuccess fun membership? s =>
          ∀ membership ∈ membership?, membership.2 = .active → membership.1.role ∈ managingRoles →
            Managed opened userId merchantId s) := by
      refine triple_read (Stable.fact True) (fun _ => ?_) fun now s hinv _ => ⟨_, rfl, ?_⟩
      · exact fun _ _ h _ hrely membership hmembership hactive hrole =>
          (h membership hmembership hactive hrole).grows hrely.1
      · intro membership hmembership hactive hrole
        obtain ⟨member, hmember, hstatus⟩ := Option.bind_eq_some_iff.1 hmembership
        obtain ⟨merchant, hmerchant, rfl⟩ := Option.map_eq_some_iff.1 hstatus
        have hfields := List.find?_some hmember
        simp only [decide_eq_true_eq] at hfields
        exact ⟨⟨member, hinv.remembered member (List.mem_of_find?_eq_some hmember), hfields.2,
          hfields.1, hrole⟩, _, List.prefix_rfl, hinv.activeAt hmerchant hactive⟩
    refine hread.bind_ends hframe fun membership? => ?_
    cases membership? with
    | none => exact triple_throw _
    | some membership =>
      obtain ⟨member, status⟩ := membership
      refine Triple.ite (fun _ => triple_throw _) fun hactive => ?_
      refine Triple.ite (fun _ => triple_throw _) fun hrole => ?_
      refine triple_pure ((stable_managed userId merchantId).and (Stable.fact _)) fun s h => ?_
      have hmanaging : managingRoles ≠ [] := by decide
      exact ⟨h _ rfl (not_not.1 hactive) (by simpa [hmanaging] using hrole), hfirst⟩

/-! ### Keys -/

/-- The credential of a key as `create` has made it, and what it handed out. -/
structure Issued (o : Argon2) (merchantId : String) (dto : CreateApiKeyDto)
    (response : CreatedApiKeyResponse) (credential : Credential) (salt : String)
    (publicId : Bytes publicIdBytes) (secret : Bytes secretBytes) : Prop where
  credential_eq : credential = {
    id := response.id
    merchantId := merchantId
    name := dto.name
    keyPrefix := environmentPrefix (dto.livemode.getD false) ++ base64url publicId
    secretHash := o.hash salt (base64url secret)
    livemode := dto.livemode.getD false
    scopes := dto.scopes.getD allApiKeyScopes }
  plaintext_eq : response.plaintext = credential.keyPrefix ++ "." ++ base64url secret

def IssuedKey (o : Argon2) (merchantId : String) (dto : CreateApiKeyDto)
    (response : CreatedApiKeyResponse) (s : Shared) : Prop :=
  ∃ key ∈ s.apiKeys, ∃ salt publicId secret,
    Issued o merchantId dto response key.toCredential salt publicId secret

theorem stable_issuedKey (merchantId : String) (dto : CreateApiKeyDto)
    (response : CreatedApiKeyResponse) :
    Stable (accountable text opened i) (IssuedKey o merchantId dto response) := by
  intro s s' h _ hrely
  obtain ⟨key, hkey, salt, publicId, secret, hissued⟩ := h
  obtain ⟨key', hkey', hsame⟩ := hrely.1.keys key hkey
  exact ⟨key', hkey', salt, publicId, secret, hsame ▸ hissued⟩

theorem triple_generateApiKey {P : Shared → Prop} (hP : Stable (accountable text opened i) P)
    (livemode : Bool) :
    Triple (answer text o i) (accountable text opened i) P (generateApiKey livemode)
      (OnSuccess fun generated s => P s ∧ ∃ salt, ∃ publicId : Bytes publicIdBytes,
        ∃ secret : Bytes secretBytes,
          generated = ⟨environmentPrefix livemode ++ base64url publicId ++ "." ++ base64url secret,
            environmentPrefix livemode ++ base64url publicId, o.hash salt (base64url secret),
            livemode⟩) := by
  have hframe := accountable_frame text opened i
  have hbytes : ∀ n, Triple (answer text o i) (accountable text opened i) P (randomBytes n)
      (OnSuccess fun _ => P) := fun n =>
    triple_ask hP (fun _ => hP) fun _ _ _ hs => ⟨rfl, fun _ _ => hs⟩
  refine (hbytes publicIdBytes).bind_ends hframe fun publicId => ?_
  refine (hbytes secretBytes).bind_ends hframe fun secret => ?_
  have hhash : Triple (answer text o i) (accountable text opened i) P (hash (base64url secret))
      (OnSuccess fun secretHash s => P s ∧ ∃ salt, secretHash = o.hash salt (base64url secret)) := by
    refine triple_ask hP (fun _ => hP.and (Stable.fact _)) fun m s _ hs => ⟨rfl, fun a ha => ?_⟩
    cases ha
    exact ⟨hs, m.salt, rfl⟩
  refine hhash.bind_ends hframe fun secretHash => ?_
  refine triple_pure (hP.and (Stable.fact _)) fun s h => ?_
  obtain ⟨hs, salt, rfl⟩ := h
  exact ⟨hs, salt, publicId, secret, rfl⟩

theorem triple_createKey (merchantId userId : String) (dto : CreateApiKeyDto)
    (auditMeta : AuditMeta) :
    Triple (answer text o i) (accountable text opened i) (Managed opened userId merchantId)
      (createKey merchantId userId dto auditMeta) (OnSuccess (IssuedKey o merchantId dto)) := by
  have hframe := accountable_frame text opened i
  have hmanaged : Stable (accountable text opened i) (Managed opened userId merchantId) :=
    stable_managed userId merchantId
  refine (triple_generateApiKey hmanaged (dto.livemode.getD false)).bind_ends hframe
    fun generated => Triple.knowing fun hgenerated => ?_
  obtain ⟨salt, publicId, secret, rfl⟩ := hgenerated
  have hid : Triple (answer text o i) (accountable text opened i) (Managed opened userId merchantId) newId
      (OnSuccess fun _ => Managed opened userId merchantId) :=
    triple_ask hmanaged (fun _ => hmanaged) fun _ _ _ hs => ⟨rfl, fun _ _ => hs⟩
  refine hid.bind_ends hframe fun id => ?_
  dsimp only
  generalize hcredential : Credential.mk id merchantId dto.name _ _ _ _ _ _ _ = credential
  have hcreate : Triple (answer text o i) (accountable text opened i) (Managed opened userId merchantId)
      (db (.createApiKey credential (createdEntry userId credential auditMeta)))
      (OnSuccess fun created s => created.toCredential = credential ∧
        ∃ key ∈ s.apiKeys, key.toCredential = credential) := by
    refine triple_db hmanaged (fun _ => (Stable.fact _).and ?_) fun now s hinv hs => ?_
    · intro s s' h _ hrely
      obtain ⟨key, hkey, rfl⟩ := h
      exact hrely.1.keys key hkey
    · rcases create_cases (createdEntry userId credential auditMeta) with
        ⟨e, he⟩ | ⟨hfree, hprefix, hdone⟩
      · rw [he]
        exact ⟨⟨hinv, .refl s⟩, rfl, fun a ha => by cases ha⟩
      · rw [hdone]
        have hby : Managed opened userId credential.merchantId s := by
          rw [← hcredential]
          exact hs
        refine ⟨hinv.create hby hfree hprefix rfl, rfl, fun a ha => ?_⟩
        cases ha
        exact ⟨rfl, _, (Table.mem_insert (h := hfree)).2 (.inr rfl), rfl⟩
  refine hcreate.bind_ends hframe fun created => ?_
  refine triple_pure (stable_issuedKey merchantId dto _) fun s h => ?_
  obtain ⟨hcreated, key, hkey, hsame⟩ := h
  refine ⟨key, hkey, salt, publicId, secret, ?_, ?_⟩
  · rw [hsame, ← hcredential]
    simp [toResponse, hcreated, ← hcredential]
  · rw [hsame, ← hcredential]

theorem triple_revokeKey (merchantId userId apiKeyId : String) (auditMeta : AuditMeta) :
    Triple (answer text o i) (accountable text opened i) (Managed opened userId merchantId)
      (revokeKey merchantId userId apiKeyId auditMeta) (OnSuccess fun _ _ => True) := by
  have hframe := accountable_frame text opened i
  have hmanaged : Stable (accountable text opened i) (Managed opened userId merchantId) :=
    stable_managed userId merchantId
  have hstored : Stable (accountable text opened i) fun s =>
      ∃ key ∈ s.apiKeys, key.id = apiKeyId ∧ key.merchantId = merchantId := by
    intro s s' h _ hrely
    obtain ⟨key, hkey, rfl, rfl⟩ := h
    obtain ⟨key', hkey', hsame⟩ := hrely.1.keys key hkey
    exact ⟨key', hkey', congrArg Credential.id hsame, congrArg Credential.merchantId hsame⟩
  have hread : Triple (answer text o i) (accountable text opened i) (Managed opened userId merchantId)
      (db (.findApiKey apiKeyId merchantId)) (OnSuccess fun existing? s =>
        Managed opened userId merchantId s ∧ (existing?.isSome = true →
          ∃ key ∈ s.apiKeys, key.id = apiKeyId ∧ key.merchantId = merchantId)) := by
    refine triple_read hmanaged (fun _ => hmanaged.and ?_) fun now s _ hs => ⟨_, rfl, hs, ?_⟩
    · exact fun s s' h hinv hrely hsome => hstored s s' (h hsome) hinv hrely
    · intro hsome
      obtain ⟨existing, hexisting⟩ := Option.isSome_iff_exists.1 hsome
      obtain ⟨hfind, hmerchant⟩ := Option.filter_eq_some_iff.1 hexisting
      obtain ⟨hmem, hid⟩ := Table.find?_eq_some.1 hfind
      exact ⟨existing, hmem, hid, by simpa using hmerchant⟩
  refine hread.bind_ends hframe fun existing? => ?_
  cases existing? with
  | none => exact triple_throw _
  | some existing =>
    have hwrite : Triple (answer text o i) (accountable text opened i)
        (fun s => Managed opened userId merchantId s ∧ (True → ∃ key ∈ s.apiKeys,
          key.id = apiKeyId ∧ key.merchantId = merchantId))
        (db (.revokeApiKey apiKeyId userId
          (revokedEntry userId merchantId apiKeyId existing.status auditMeta)))
        (OnSuccess fun _ _ => True) := by
      refine triple_db (hmanaged.and ?_) (fun _ => Stable.fact True) fun now s hinv hs => ?_
      · exact fun s s' h hinv hrely htrue => hstored s s' (h htrue) hinv hrely
      · obtain ⟨hby, hkey⟩ := hs
        obtain ⟨key, hkey, hid, hmerchant⟩ := hkey trivial
        have hfind : s.apiKeys.find? apiKeyId = some key := Table.find?_eq_some.2 ⟨hkey, hid⟩
        simp only [perform, hfind]
        exact ⟨hinv.revoke hby hfind hmerchant rfl, rfl, fun _ _ => trivial⟩
    refine Triple.bind_ends hframe (hwrite.ends_mono ?_ fun _ _ h => h) fun _ =>
      triple_pure (Stable.fact True) fun _ _ => trivial
    exact fun s _ h => ⟨h.1, fun _ => h.2 rfl⟩

theorem triple_transition (t : Transition) (actorUserId merchantId : String)
    (auditMeta : AuditMeta) :
    Triple (answer text o i) (accountable text opened i) (fun _ => True)
      (transition t actorUserId merchantId auditMeta) (OnSuccess fun _ _ => True) := by
  have hframe := accountable_frame text opened i
  have hread : Triple (answer text o i) (accountable text opened i) (fun _ => True)
      (db (.findMerchant merchantId)) (OnSuccess fun _ _ => True) :=
    triple_read (Stable.fact True) (fun _ => Stable.fact True) fun _ _ _ _ => ⟨_, rfl, trivial⟩
  refine hread.bind_ends hframe fun existing? => ?_
  cases existing? with
  | none => exact triple_throw _
  | some existing =>
    refine Triple.ite (fun _ => triple_throw _) fun _ => ?_
    refine triple_db (Stable.fact True) (fun _ => Stable.fact True) fun now s hinv _ => ?_
    cases hfind : s.merchants.find? merchantId with
    | none =>
      simp only [perform, hfind]
      exact ⟨⟨hinv, .refl s⟩, trivial, fun _ _ => trivial⟩
    | some merchant =>
      simp only [perform, hfind]
      exact ⟨hinv.transition rfl, rfl, fun _ _ => trivial⟩

/-! ### Requests -/

/-- Why a request was let through. The audit log was `found` when the key was read, and `read` when
the merchant was. -/
structure Admission (o : Argon2) (opened : Table Merchant Merchant.id) (i : Nat)
    (header : Option String) (ip : String) (required : List ApiKeyScope) (context : MerchantContext)
    (s : Shared) (key : ApiKey) (found read : List AuditLog) : Prop where
  stored : key ∈ s.apiKeys
  context_eq : context = key.context
  presented : ∃ presented ∈ bearer header, ∃ parsed ∈ parseApiKey presented,
    parsed.keyPrefix = key.keyPrefix ∧ o.verify key.secretHash parsed.secret = some true
  source : key.ipAllowlist ≠ [] → ip ∈ key.ipAllowlist
  scopes : ∀ scope ∈ required, scope ∈ key.scopes
  since : s.begun i ≤ found.length
  unrevoked : revocations key.id found = []
  before : found <+: read
  still : read <+: s.auditLog
  active : ActiveAt opened key.merchantId read

/-- A key as it was read. -/
structure Found (i : Nat) (record : ApiKey) (found : List AuditLog) (s : Shared) : Prop where
  stored : ∃ key ∈ s.apiKeys, key.toCredential = record.toCredential
  since : s.begun i ≤ found.length
  unrevoked : record.status ≠ .revoked → revocations record.id found = []
  still : found <+: s.auditLog

def FoundOnce (i : Nat) (record : ApiKey) (s : Shared) : Prop := ∃ found, Found i record found s

theorem stable_foundOnce (record : ApiKey) :
    Stable (accountable text opened i) (FoundOnce i record) := by
  intro s s' h _ hrely
  obtain ⟨found, ⟨key, hkey, hsame⟩, hsince, hunrevoked, hstill⟩ := h
  obtain ⟨key', hkey', hsame'⟩ := hrely.1.keys key hkey
  exact ⟨found, ⟨key', hkey', hsame'.trans hsame⟩, hrely.2 ▸ hsince, hunrevoked,
    hstill.trans hrely.1.log⟩

def Begun (i : Nat) (s : Shared) : Prop := s.begun i ≤ s.auditLog.length

theorem stable_begun : Stable (accountable text opened i) (Begun i) := by
  intro s s' h _ hrely
  show s'.begun i ≤ s'.auditLog.length
  rw [hrely.2]
  exact le_trans h hrely.1.log.length_le

/-- Both ends of the guard's reads, from a key that was found. -/
def Cleared (o : Argon2) (opened : Table Merchant Merchant.id) (i : Nat) (header : Option String)
    (ip : String) (required : List ApiKeyScope) (context : MerchantContext) (s : Shared) : Prop :=
  ∃ key found read, Admission o opened i header ip required context s key found read

theorem stable_cleared (header : Option String) (ip : String) (required : List ApiKeyScope)
    (context : MerchantContext) :
    Stable (accountable text opened i) (Cleared o opened i header ip required context) := by
  intro s s' h _ hrely
  obtain ⟨key, found, read, h⟩ := h
  obtain ⟨key', hkey', hsame⟩ := hrely.1.keys key h.stored
  refine ⟨key', found, read, hkey', ?_, ?_, ?_, ?_, hrely.2 ▸ h.since, ?_, h.before,
    h.still.trans hrely.1.log, ?_⟩
  · rw [h.context_eq, ApiKey.context, ApiKey.context, hsame]
  · rw [hsame]
    exact h.presented
  · rw [hsame]
    exact h.source
  · rw [hsame]
    exact h.scopes
  · rw [hsame]
    exact h.unrevoked
  · rw [hsame]
    exact h.active

theorem triple_verifyApiKeySecret {P : Shared → Prop} (hP : Stable (accountable text opened i) P)
    (secret secretHash : String) :
    Triple (answer text o i) (accountable text opened i) P (verifyApiKeySecret secret secretHash)
      (OnSuccess fun valid s => P s ∧ (valid = true → o.verify secretHash secret = some true)) := by
  have hframe := accountable_frame text opened i
  refine Triple.ite (fun _ => ?_) fun _ => ?_
  · exact triple_pure (hP.and (Stable.fact _)) fun s hs => ⟨hs, fun h => by cases h⟩
  · refine Triple.map_ends hframe ?_ fun _ => hP.and (Stable.fact _)
    refine triple_ask hP (fun _ => hP.and (Stable.fact _)) fun m s _ hs => ⟨rfl, fun a ha => ?_⟩
    cases ha
    refine ⟨hs, fun hvalid => ?_⟩
    cases hverify : o.verify secretHash secret with
    | none =>
      rw [hverify] at hvalid
      cases hvalid
    | some valid =>
      rw [hverify] at hvalid
      exact congrArg some hvalid

theorem triple_apiKeyGuard (header : Option String) (ip : String) :
    Triple (answer text o i) (accountable text opened i) (Begun i) (apiKeyGuard header ip)
      (OnSuccess fun context => Cleared o opened i header ip [] context) := by
  have hframe := accountable_frame text opened i
  unfold apiKeyGuard
  cases hbearer : bearer header with
  | none => exact triple_throw _
  | some presented =>
    dsimp only
    cases hparsed : parseApiKey presented with
    | none => exact triple_throw _
    | some parsed =>
      have hread : Triple (answer text o i) (accountable text opened i) (Begun i)
          (db (.findApiKeyByPrefix parsed.keyPrefix)) (OnSuccess fun record? s =>
            ∀ record ∈ record?, FoundOnce i record s ∧ record.keyPrefix = parsed.keyPrefix) := by
        refine triple_read stable_begun (fun record? => ?_) fun now s hinv hs => ⟨_, rfl, ?_⟩
        · exact Stable.all fun record => fun s s' h hinv hrely hrecord =>
            ⟨stable_foundOnce record s s' (h hrecord).1 hinv hrely, (h hrecord).2⟩
        · intro record hrecord
          have hmem : record ∈ s.apiKeys := List.mem_of_find?_eq_some hrecord
          refine ⟨⟨s.auditLog, ⟨record, hmem, rfl⟩, hs, fun hnot => ?_, List.prefix_rfl⟩,
            by simpa using List.find?_some hrecord⟩
          by_contra hsome
          exact hnot ((hinv.revoked record hmem).2 hsome)
      refine hread.bind_ends hframe fun record? => ?_
      cases record? with
      | none => exact triple_throw _
      | some record =>
        refine Triple.mono
          (P := fun s => FoundOnce i record s ∧ record.keyPrefix = parsed.keyPrefix) ?_
          (fun s _ h => h record rfl) fun _ _ h => h
        refine Triple.knowing fun hprefix => ?_
        have hfound : Stable (accountable text opened i) (FoundOnce i record) := stable_foundOnce record
        have hnow : Triple (answer text o i) (accountable text opened i) (FoundOnce i record) now
            (OnSuccess fun _ => FoundOnce i record) :=
          triple_ask hfound (fun _ => hfound) fun _ _ _ hs => ⟨rfl, fun _ _ => hs⟩
        refine hnow.bind_ends hframe fun at_ => ?_
        cases hrefusal : record.refusal at_ with
        | some e => exact triple_throw _
        | none =>
          have hstatus : record.status ≠ .revoked := by
            intro hrevoked
            simp [ApiKey.refusal, hrevoked] at hrefusal
          dsimp only
          refine (triple_verifyApiKeySecret hfound _ _).bind_ends hframe fun valid =>
            Triple.knowing fun hverified => ?_
          refine Triple.ite (fun _ => triple_throw _) fun hvalid => ?_
          refine Triple.ite (fun _ => triple_throw _) fun hsource => ?_
          have hmerchant : Triple (answer text o i) (accountable text opened i) (FoundOnce i record)
              (db (.findMerchant record.merchantId)) (OnSuccess fun merchant? s =>
                merchant?.any (·.status = .active) = true →
                  Cleared o opened i header ip [] record.context s) := by
            refine triple_read hfound (fun merchant? => ?_) fun now s hinv hs => ⟨_, rfl, ?_⟩
            · exact fun s s' h hinv hrely hactive =>
                stable_cleared header ip [] record.context s s' (h hactive) hinv hrely
            · intro hactive
              obtain ⟨merchant, hmerchant, hactive⟩ := (Option.any_eq_true _ _).1 hactive
              obtain ⟨found, ⟨key, hkey, hsame⟩, hsince, hunrevoked, hstill⟩ := hs
              have hat := hinv.activeAt hmerchant (by simpa using hactive)
              refine ⟨key, found, s.auditLog, hkey, ?_,
                ⟨presented, hbearer, parsed, hparsed, ?_, ?_⟩, ?_,
                (fun _ hscope => by cases hscope), hsince, ?_, hstill, List.prefix_rfl, ?_⟩
              · rw [ApiKey.context, ApiKey.context, hsame]
              · rw [hsame]
                exact hprefix.symm
              · rw [hsame]
                exact hverified (by simpa using hvalid)
              · rw [hsame]
                intro hallow
                by_contra hip
                exact hsource ⟨hallow, hip⟩
              · rw [hsame]
                exact hunrevoked hstatus
              · rw [hsame]
                exact hat
          refine hmerchant.bind_ends hframe fun merchant? => ?_
          by_cases hactive : merchant?.any (·.status = .active) = true
          · rw [if_pos hactive]
            exact triple_pure (stable_cleared header ip [] _) fun s h => h hactive
          · rw [if_neg hactive]
            exact triple_throw _

theorem missingScopes_eq_nil {required granted : List ApiKeyScope} :
    missingScopes required granted = [] ↔ ∀ scope ∈ required, scope ∈ granted := by
  simp [missingScopes]

theorem triple_request (header : Option String) (ip : String) (required : List ApiKeyScope) :
    Triple (answer text o i) (accountable text opened i) (Begun i) (request header ip required)
      (OnSuccess fun context => Cleared o opened i header ip required context) := by
  have hframe := accountable_frame text opened i
  refine (triple_apiKeyGuard header ip).bind_ends hframe fun context => ?_
  unfold apiKeyScopeGuard
  cases hmissing : missingScopes required context.scopes with
  | cons scope rest => exact triple_throw _
  | nil =>
    refine triple_pure (stable_cleared header ip required context) fun s h => ?_
    obtain ⟨key, found, read, h⟩ := h
    refine ⟨key, found, read, { h with scopes := ?_ }⟩
    have hscopes := missingScopes_eq_nil.1 hmissing
    rw [h.context_eq] at hscopes
    exact hscopes

end Calls

/-! ## Runs -/

section Runs

/-- What calls come to. -/
def Outcome.Holds (o : Argon2) (opened : Table Merchant Merchant.id) (i : Nat) :
    Call → Outcome → Shared → Prop
  | .request header ip required, .admitted context =>
    Cleared o opened i header ip required context
  | .create _ header dto _, .created response => fun s =>
    ∃ merchantId ∈ header.head?, IssuedKey o merchantId dto response s
  | _, _ => fun _ => True

variable (o : Argon2) (opened)

theorem triple_code (i : Nat) (call : Call) :
    Triple (answer text o i) (accountable text opened i) (Begun i) call.code
      (OnSuccess (Outcome.Holds o opened i call)) := by
  have hframe := accountable_frame text opened i
  have hany : ∀ s, Accounted text opened s → Begun i s → True := fun _ _ _ => trivial
  have hstable : ∀ outcome, Stable (accountable text opened i)
      (Outcome.Holds o opened i call outcome) := by
    intro outcome
    cases call with
    | request header ip required =>
      cases outcome with
      | admitted context => exact stable_cleared header ip required context
      | _ => exact Stable.fact True
    | create userId header dto auditMeta =>
      cases outcome with
      | created response =>
        intro s s' h hinv hrely
        obtain ⟨merchantId, hmerchant, hissued⟩ := h
        exact ⟨merchantId, hmerchant,
          stable_issuedKey merchantId dto response s s' hissued hinv hrely⟩
      | _ => exact Stable.fact True
    | _ => cases outcome <;> exact Stable.fact True
  cases call with
  | request header ip required =>
    exact Triple.map_ends (R := Outcome.Holds o opened i (.request header ip required)) hframe
      (triple_request header ip required) hstable
  | create userId header dto auditMeta =>
    refine ((triple_merchantRoleGuard userId header).ends_mono hany fun _ _ h => h).bind_ends hframe
      fun merchantId => Triple.knowing fun hmerchant => ?_
    refine Triple.map_ends (R := Outcome.Holds o opened i (.create userId header dto auditMeta))
      hframe ?_ hstable
    exact (triple_createKey merchantId userId dto auditMeta).ends_mono (fun _ _ h => h)
      fun _ _ h => ⟨merchantId, hmerchant, h⟩
  | revoke userId header apiKeyId auditMeta =>
    refine ((triple_merchantRoleGuard userId header).ends_mono hany fun _ _ h => h).bind_ends hframe
      fun merchantId => Triple.knowing fun _ => ?_
    exact Triple.map_ends (R := Outcome.Holds o opened i (.revoke userId header apiKeyId auditMeta))
      hframe (triple_revokeKey merchantId userId apiKeyId auditMeta) hstable
  | transition t actorUserId merchantId auditMeta =>
    exact Triple.map_ends
      (R := Outcome.Holds o opened i (.transition t actorUserId merchantId auditMeta)) hframe
      ((triple_transition t actorUserId merchantId auditMeta).ends_mono hany fun _ _ h => h) hstable

theorem accountable_compatible (members : List MerchantMember) :
    Compatible (system text o) .interleaved (start opened members) (Accounted text opened)
      (fun i s s' => Grows s s' ∧ s'.begun i = s.begun i)
      (fun _ _ _ s s' => Grows s s' ∧ s'.begun = s.begun) (fun i _ => Begun i)
      (fun i call => OnSuccess (Outcome.Holds o opened i call)) where
  lawful i _ := (accountable_frame text opened i).toLawful
  code i call := triple_code opened o i call
  live _ _ _ _ := trivial
  others _ i _ _ _ _ _ _ _ _ _ _ hguar := ⟨hguar.1, congrFun hguar.2 i⟩
  environment e s hinv _ := by
    cases e with
    | members members => exact ⟨(hinv.members members).1, fun _ => ⟨(hinv.members members).2, rfl⟩⟩
    | touched id now ip =>
      exact ⟨(hinv.touch now ip id).1, fun _ => ⟨(hinv.touch now ip id).2, rfl⟩⟩
  start l s _ hgood _ := by
    have hsame : Accounted text opened ((system text o).enter s.calls.length l s.shared) ∧
        Grows s.shared ((system text o).enter s.calls.length l s.shared) :=
      hgood.invariant.aside rfl List.prefix_rfl (fun _ h => h) hgood.invariant.remembered
        hgood.invariant.merchants (fun _ => rfl) (fun _ => rfl)
    refine ⟨hsame.1, ?_, fun i hi _ => ⟨hsame.2, ?_⟩⟩
    · show Function.update s.shared.begun s.calls.length s.shared.auditLog.length s.calls.length ≤ _
      rw [Function.update_self]
      exact le_rfl
    · exact Function.update_of_ne (Nat.ne_of_lt hi) _ _

variable {o} {members : List MerchantMember} {state : State}

theorem good_reachable (h : (system text o).Reachable .interleaved (start opened members) state) :
    Good (system text o) .interleaved (Accounted text opened)
      (fun i s s' => Grows s s' ∧ s'.begun i = s.begun i)
      (fun _ _ _ s s' => Grows s s' ∧ s'.begun = s.begun)
      (fun i call => OnSuccess (Outcome.Holds o opened i call)) state :=
  Good.of_reachable (accountable_compatible opened o members) (.start members) h

/-- **The audit log accounts for all keys and merchants.** -/
theorem keys_accounted (h : (system text o).Reachable .interleaved (start opened members) state) :
    Accounted text opened state.shared :=
  (good_reachable opened h).invariant

/-- **A request is let through with a key that was good**, as the audit log tells. -/
theorem admitted_accounted (h : (system text o).Reachable .interleaved (start opened members) state)
    {i : Nat} {header : Option String} {ip : String} {required : List ApiKeyScope}
    {context : MerchantContext} (hcall : state.calls[i]? =
      some (.request header ip required, .done (.ok (.admitted context)))) :
    ∃ key found read, Admission o opened i header ip required context state.shared key found read ∧
      ∃ j userId auditMeta,
        creations key.id state.shared.auditLog =
          [(createdEntry userId key.toCredential auditMeta).row text j] ∧
        Managed opened userId key.merchantId state.shared := by
  have hgood := good_reachable opened h
  have hadmitted : Cleared o opened i header ip required context state.shared :=
    hgood.done (accountable_compatible opened o members) hcall trivial
  obtain ⟨key, found, read, hadmission⟩ := hadmitted
  refine ⟨key, found, read, hadmission, ?_⟩
  have hfind := Table.find?_of_mem hadmission.stored
  rcases hgood.invariant.created key.id with
    ⟨hnone, -⟩ | ⟨key', j, userId, auditMeta, hkey, hrows, hby⟩
  · rw [hfind] at hnone
    cases hnone
  · obtain rfl : key = key' := Option.some.inj (hfind.symm.trans hkey)
    exact ⟨j, userId, auditMeta, hrows, hby⟩

/-! ## A key that is presented -/

instance (merchantId : String) (rows : List AuditLog) :
    Decidable (ActiveAt opened merchantId rows) :=
  inferInstanceAs (Decidable (∃ merchant ∈ opened.find? merchantId, _))

/-- What becomes of a request that presents a key with these scopes, as the audit log stands. -/
def verdict (context : MerchantContext) (required : List ApiKeyScope) (auditLog : List AuditLog) :
    Except Error MerchantContext :=
  if revocations context.apiKeyId auditLog ≠ [] then .error apiKeyRevoked
  else if ¬ActiveAt opened context.merchantId auditLog then .error merchantNotActive
  else
    match missingScopes required context.scopes with
    | [] => .ok context
    | missing => .error (scopesMissing missing)

section Presented

variable {o : Argon2} {merchantId : String} {dto : CreateApiKeyDto} {s : Shared} {key : ApiKey}
  {response : CreatedApiKeyResponse} {salt : String} {publicId : Bytes publicIdBytes}
  {secret : Bytes secretBytes}

/-- A key is found by its prefix. -/
theorem Accounted.find_keyPrefix (h : Accounted text opened s) (hkey : key ∈ s.apiKeys) :
    s.apiKeys.rows.find? (·.keyPrefix = key.keyPrefix) = some key := by
  have hsome : (s.apiKeys.rows.find? (·.keyPrefix = key.keyPrefix)).isSome = true :=
    List.find?_isSome.2 ⟨key, hkey, decide_eq_true rfl⟩
  obtain ⟨other, hother⟩ := Option.isSome_iff_exists.1 hsome
  have hsame : other.keyPrefix = key.keyPrefix := by simpa using List.find?_some hother
  rw [hother, h.prefixes other (List.mem_of_find?_eq_some hother) key hkey hsame]

theorem Accounted.any_active (h : Accounted text opened s) (merchantId : String) :
    (s.merchants.find? merchantId).any (·.status = .active) = true ↔
      ActiveAt opened merchantId s.auditLog := by
  simp [h.merchants, ActiveAt, Option.any_eq_true]

namespace Issued

variable (h : Issued o merchantId dto response key.toCredential salt publicId secret)
include h

/-- White space around the text is taken away. -/
theorem bearer_eq {before after : List Char} (hbefore : ∀ c ∈ before, isWhiteSpace c = true)
    (hafter : ∀ c ∈ after, isWhiteSpace c = true) :
    bearer (some ("Bearer " ++ String.ofList (before ++ response.plaintext.toList ++ after))) =
      some response.plaintext := by
  have hchars : ∀ c ∈ (base64url secret).toList, isKeyChar c = true :=
    fun _ hc => isKeyChar_base64url hc
  have hparts := bearer_parts
    (fun _ hc => isKeyChar_keyPrefix (dto.livemode.getD false) publicId hc) hchars hbefore hafter
  rwa [h.plaintext_eq, congrArg Credential.keyPrefix h.credential_eq]

theorem parseApiKey_eq : parseApiKey response.plaintext =
    some ⟨key.keyPrefix, base64url secret, dto.livemode.getD false⟩ := by
  rw [h.plaintext_eq, congrArg Credential.keyPrefix h.credential_eq]
  exact parseApiKey_generated (dto.livemode.getD false) publicId secret

/-- A key that was issued does not expire. -/
theorem refusal_eq (husual : key.status = .active ∨ key.status = .revoked) (at_ : Int) :
    key.refusal at_ = if key.status = .revoked then some apiKeyRevoked else none := by
  have hexpires : key.expiresAt = none := congrArg Credential.expiresAt h.credential_eq
  rcases husual with hstatus | hstatus <;> simp [ApiKey.refusal, hstatus, hexpires]

theorem ipAllowlist_eq : key.ipAllowlist = [] := congrArg Credential.ipAllowlist h.credential_eq

theorem secretHash_eq : key.secretHash = o.hash salt (base64url secret) :=
  congrArg Credential.secretHash h.credential_eq

/-- Neither the secret nor its hash is empty. -/
theorem present (hhash : ∀ salt secret, o.hash salt secret ≠ "") :
    ¬(base64url secret = "" ∨ key.secretHash = "") := by
  refine not_or.2 ⟨fun hempty => ?_, h.secretHash_eq ▸ hhash _ _⟩
  have hlength : (base64url secret).toList.length = 43 := by
    rw [base64url, String.toList_ofList, Base64.length_encode, secret.2]
    rfl
  rw [hempty] at hlength
  cases hlength

theorem context_eq : key.context =
    ⟨merchantId, response.id, dto.livemode.getD false, dto.scopes.getD allApiKeyScopes⟩ := by
  rw [ApiKey.context, congrArg Credential.id h.credential_eq,
    congrArg Credential.merchantId h.credential_eq, congrArg Credential.livemode h.credential_eq,
    congrArg Credential.scopes h.credential_eq]

end Issued

/-- What the guards make of a key that was issued, and what they find of it. -/
theorem request_issued (hinv : Accounted text opened s) (hkey : key ∈ s.apiKeys)
    (hissued : Issued o merchantId dto response key.toCredential salt publicId secret)
    (hverify : ∀ salt secret, o.verify (o.hash salt secret) secret = some true)
    (hhash : ∀ salt secret, o.hash salt secret ≠ "") {header : Option String}
    (hbearer : bearer header = some response.plaintext) (ip : String)
    (required : List ApiKeyScope) {feed : Nat → Moment}
    (hfeed : ∀ n, (feed n).fate = .answered) (i n : Nat) :
    ((request header ip required).exec (answer text o i) feed n s).1 =
      verdict opened key.context required s.auditLog := by
  have hrevoked : key.status = .revoked ↔ revocations key.context.apiKeyId s.auditLog ≠ [] :=
    hinv.revoked key hkey
  have hactive : (s.merchants.find? key.merchantId).any (·.status = .active) = true ↔
      ActiveAt opened key.context.merchantId s.auditLog := hinv.any_active opened key.merchantId
  have hverified : o.verify key.secretHash (base64url secret) = some true := by
    rw [hissued.secretHash_eq, hverify]
  unfold request apiKeyGuard
  rw [hbearer]
  dsimp only
  rw [hissued.parseApiKey_eq]
  simp only [bind, Program.bind, Program.andThen, Program.call, Program.exec, db, now, answer,
    hfeed, Fate.answer, perform, hinv.find_keyPrefix opened hkey,
    hissued.refusal_eq (hinv.usual key hkey)]
  by_cases hstatus : key.status = .revoked
  · rw [if_pos hstatus, verdict, if_pos (hrevoked.1 hstatus)]
    rfl
  · simp [hstatus, verifyApiKeySecret, hissued.present hhash, hissued.ipAllowlist_eq, verify,
      Program.call, Functor.map, Program.bind, Program.andThen, Program.exec, answer, hfeed,
      Fate.answer, perform, hverified]
    rw [verdict, if_neg fun hsome => hstatus (hrevoked.2 hsome)]
    by_cases hopen : ActiveAt opened key.context.merchantId s.auditLog
    · rw [if_pos (hactive.2 hopen), if_neg (not_not.2 hopen)]
      show ((apiKeyScopeGuard required key.context).exec _ _ _ _).1 = _
      unfold apiKeyScopeGuard
      cases missingScopes required key.context.scopes <;> rfl
    · rw [if_neg fun hat => hopen (hactive.1 hat), if_pos hopen]
      rfl

end Presented

/-- **The text that was handed out is let through** as long as the audit log says so, whatever white
space is around it. -/
theorem presented_admitted (h : (system text o).Reachable .interleaved (start opened members) state)
    (hverify : ∀ salt secret, o.verify (o.hash salt secret) secret = some true)
    (hhash : ∀ salt secret, o.hash salt secret ≠ "")
    {j : Nat} {userId : String} {header : List String} {dto : CreateApiKeyDto}
    {auditMeta : AuditMeta} {response : CreatedApiKeyResponse}
    (hcall : state.calls[j]? =
      some (.create userId header dto auditMeta, .done (.ok (.created response))))
    {before after : List Char} (hbefore : ∀ c ∈ before, isWhiteSpace c = true)
    (hafter : ∀ c ∈ after, isWhiteSpace c = true) (ip : String) (required : List ApiKeyScope)
    {feed : Nat → Moment} (hfeed : ∀ n, (feed n).fate = .answered) (i n : Nat) :
    ∃ merchantId ∈ header.head?, ((request (some ("Bearer " ++
        String.ofList (before ++ response.plaintext.toList ++ after))) ip required).exec
          (answer text o i) feed n state.shared).1 =
      verdict opened ⟨merchantId, response.id, dto.livemode.getD false,
        dto.scopes.getD allApiKeyScopes⟩ required state.shared.auditLog := by
  have hgood := good_reachable opened h
  have hcreated : ∃ merchantId ∈ header.head?, IssuedKey o merchantId dto response state.shared :=
    hgood.done (accountable_compatible opened o members) hcall trivial
  obtain ⟨merchantId, hmerchant, key, hkey, salt, publicId, secret, hissued⟩ := hcreated
  refine ⟨merchantId, hmerchant, ?_⟩
  rw [← hissued.context_eq]
  exact request_issued opened hgood.invariant hkey hissued hverify hhash
    (hissued.bearer_eq hbefore hafter) ip required hfeed i n

end Runs

/-! ## One key -/

namespace Shop

/-- Hashes are the secrets themselves, behind a sign. -/
def argon2 : Argon2 where
  hash _ secret := "$" ++ secret
  verify secretHash secret := some (secretHash = "$" ++ secret)

def merchants : Table Merchant Merchant.id := ⟨[⟨"mer_1", .active⟩], by decide⟩

def alice : MerchantMember := ⟨"mm_1", "mer_1", "usr_alice", .developer⟩

def moment : Moment :=
  ⟨0, "ak_1", fun n => ⟨List.replicate n 0, List.length_replicate⟩, "salt", .answered⟩

def steps (i n : Nat) : List (Move Call Moment Event) := List.replicate n (.step i moment)

def till : CreateApiKeyDto := ⟨"till", some true, none⟩

def creation : Call := .create "usr_alice" ["mer_1"] till ⟨"192.0.2.1", none⟩

def response : CreatedApiKeyResponse where
  id := "ak_1"
  name := "till"
  key_prefix := "pk_live_AAAAAAAAAAAA"
  livemode := true
  scopes := allApiKeyScopes
  status := .active
  last_used_at := none
  created_at := "1970-01-01T00:00:00.000Z"
  plaintext := "pk_live_AAAAAAAAAAAA.AAAAAAAAAAAAAAAAAAAAAAAAAAAAAAAAAAAAAAAAAAA"

def sale : Call :=
  .request (some ("Bearer " ++ response.plaintext)) "198.51.100.7" [.invoicesWrite]

/-- Alice creates a key. -/
def created : List (Move Call Moment Event) := .start creation :: steps 0 6

/-- The till presents it. -/
def used : List (Move Call Moment Event) := created ++ .start sale :: steps 1 4

def context : MerchantContext := ⟨"mer_1", "ak_1", true, allApiKeyScopes⟩

theorem reachable_created : (system plainText argon2).Reachable .interleaved (start merchants [alice])
    ((system plainText argon2).after created (start merchants [alice])) :=
  System.reachable_after (by decide +kernel)

theorem reachable_used : (system plainText argon2).Reachable .interleaved (start merchants [alice])
    ((system plainText argon2).after used (start merchants [alice])) :=
  System.reachable_after (by decide +kernel)

theorem keys_accounted_used : Accounted plainText merchants
    ((system plainText argon2).after used (start merchants [alice])).shared :=
  keys_accounted merchants reachable_used

theorem admitted_accounted_used : ∃ key found read, Admission argon2 merchants 1
    (some ("Bearer " ++ response.plaintext)) "198.51.100.7" [.invoicesWrite] context
    ((system plainText argon2).after used (start merchants [alice])).shared key found read := by
  have hcall : ((system plainText argon2).after used (start merchants [alice])).calls[1]? =
      some (sale, .done (.ok (.admitted context))) := rfl
  obtain ⟨key, found, read, hadmission, -⟩ := admitted_accounted merchants reachable_used hcall
  exact ⟨key, found, read, hadmission⟩

theorem presented_admitted_created :
    ((request (some ("Bearer " ++ String.ofList ([' '] ++ response.plaintext.toList ++ ['\t'])))
      "198.51.100.7" [.invoicesWrite]).exec (answer plainText argon2 1) (fun _ => moment) 0
      ((system plainText argon2).after created (start merchants [alice])).shared).1 = .ok context := by
  have hcall : ((system plainText argon2).after created (start merchants [alice])).calls[0]? =
      some (creation, .done (.ok (.created response))) := rfl
  have hspace : ∀ c ∈ [' '], isWhiteSpace c = true := List.all_eq_true.1 (by decide)
  have htab : ∀ c ∈ ['\t'], isWhiteSpace c = true := List.all_eq_true.1 (by decide)
  have hfeed : ∀ n : Nat, ((fun _ => moment : Nat → Moment) n).fate = .answered := fun _ => rfl
  obtain ⟨merchantId, hmerchant, hresult⟩ := presented_admitted merchants reachable_created
    (by simp [argon2]) (by simp [argon2]) hcall hspace htab "198.51.100.7" [.invoicesWrite] hfeed
    1 0
  cases hmerchant
  rw [hresult]
  decide +kernel

end Shop

end ApiKeys

end PaymentGateway
