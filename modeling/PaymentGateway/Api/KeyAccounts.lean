import PaymentGateway.Api.ApiKeys

/-!
# The accounts of API keys

Every write of the services of keys and of merchants puts a row into the audit log. `Accounted` says
what the rows tell of the tables: which key was created by whom, which have been revoked and by
whom, and what status each merchant has. Every write keeps it (`Accounted.create`, `Accounted.revoke`,
`Accounted.transition`), and so does what happens besides (`Accounted.touch`, `Accounted.members`).
The log only grows, and nobody changes a credential (`Grows`).
-/

namespace PaymentGateway

namespace ApiKeys

open Program Keyed
open MerchantMembersService (MerchantMember)

/-! ## The audit log tells -/

/-- The rows of an action on a resource. -/
def rowsOf (action resourceId : String) (auditLog : List AuditLog) : List AuditLog :=
  auditLog.filter fun row => row.action = action ∧ row.resourceId = some resourceId

def creations (id : String) (auditLog : List AuditLog) : List AuditLog :=
  rowsOf "api_key.created" id auditLog

def revocations (id : String) (auditLog : List AuditLog) : List AuditLog :=
  rowsOf "api_key.revoked" id auditLog

/-- The status that a row gives to a merchant. -/
def writtenStatus (merchantId : String) (row : AuditLog) : Option MerchantStatus :=
  if row.resourceId = some merchantId then
    if row.action = Transition.suspend.action then some .suspended
    else if row.action = Transition.reactivate.action then some .active
    else none
  else none

/-- The status of a merchant after rows of the audit log. -/
def statusAfter (initial : MerchantStatus) (merchantId : String) (rows : List AuditLog) :
    MerchantStatus :=
  rows.foldl (fun status row => (writtenStatus merchantId row).getD status) initial

variable (text : TextFunctions) (opened : Table Merchant Merchant.id)

/-- A merchant was active when the audit log was this. -/
def ActiveAt (merchantId : String) (rows : List AuditLog) : Prop :=
  ∃ merchant ∈ opened.find? merchantId,
    statusAfter merchant.status merchantId rows = .active

/-- A user has been a member with the right to manage keys, and the merchant active. -/
structure Managed (userId merchantId : String) (s : Shared) : Prop where
  member : ∃ member ∈ s.formerMembers, member.userId = userId ∧ member.merchantId = merchantId ∧
    member.role ∈ managingRoles
  active : ∃ rows, rows <+: s.auditLog ∧ ActiveAt opened merchantId rows

/-- The audit log accounts for the keys and for the merchants. -/
structure Accounted (s : Shared) : Prop where
  merchants : ∀ id, s.merchants.find? id =
    (opened.find? id).map fun merchant => ⟨merchant.id, statusAfter merchant.status id s.auditLog⟩
  prefixes : ∀ key ∈ s.apiKeys, ∀ other ∈ s.apiKeys, key.keyPrefix = other.keyPrefix → key = other
  usual : ∀ key ∈ s.apiKeys, key.status = .active ∨ key.status = .revoked
  created : ∀ id, (s.apiKeys.find? id = none ∧ creations id s.auditLog = []) ∨
    ∃ key i userId auditMeta, s.apiKeys.find? id = some key ∧
      creations id s.auditLog = [(createdEntry userId key.toCredential auditMeta).row text i] ∧
      Managed opened userId key.merchantId s
  revoked : ∀ key ∈ s.apiKeys, key.status = .revoked ↔ revocations key.id s.auditLog ≠ []
  revokedBy : ∀ id, ∀ row ∈ revocations id s.auditLog, ∃ key ∈ s.apiKeys, key.id = id ∧
    row.merchantId = some key.merchantId ∧
    ∃ userId, row.userId = some userId ∧ Managed opened userId key.merchantId s
  remembered : ∀ member ∈ s.members, member ∈ s.formerMembers

/-- What everybody leaves alone. -/
structure Grows (s s' : Shared) : Prop where
  log : s.auditLog <+: s'.auditLog
  members : ∀ member ∈ s.formerMembers, member ∈ s'.formerMembers
  keys : ∀ key ∈ s.apiKeys, ∃ key' ∈ s'.apiKeys, key'.toCredential = key.toCredential

variable {text opened} {s s' s'' : Shared} {i : Nat}

theorem Grows.refl (s : Shared) : Grows s s :=
  ⟨List.prefix_rfl, fun _ h => h, fun key hkey => ⟨key, hkey, rfl⟩⟩

theorem Grows.trans (h : Grows s s') (h' : Grows s' s'') : Grows s s'' where
  log := h.log.trans h'.log
  members member hmember := h'.members member (h.members member hmember)
  keys key hkey := by
    obtain ⟨key', hkey', hsame⟩ := h.keys key hkey
    obtain ⟨key'', hkey'', hsame'⟩ := h'.keys key' hkey'
    exact ⟨key'', hkey'', hsame'.trans hsame⟩

theorem Managed.grows {userId merchantId : String} (h : Managed opened userId merchantId s)
    (hs : Grows s s') : Managed opened userId merchantId s' := by
  obtain ⟨member, hmember, hfields⟩ := h.member
  obtain ⟨rows, hrows, hactive⟩ := h.active
  exact ⟨⟨member, hs.members member hmember, hfields⟩, rows, hrows.trans hs.log, hactive⟩

theorem rowsOf_record {action id : String} {entry : AuditLogEntry} {auditLog : List AuditLog} :
    rowsOf action id (AuditLogService.record text i entry auditLog) = rowsOf action id auditLog ++
      if entry.action = action ∧ entry.resourceId = some id then [entry.row text i] else [] := by
  simp only [rowsOf, AuditLogService.record, List.filter_append, List.filter_cons,
    List.filter_nil, decide_eq_true_eq]
  rfl

theorem statusAfter_record {initial : MerchantStatus} {merchantId : String} {entry : AuditLogEntry}
    {auditLog : List AuditLog} :
    statusAfter initial merchantId (AuditLogService.record text i entry auditLog) =
      (writtenStatus merchantId (entry.row text i)).getD
        (statusAfter initial merchantId auditLog) := by
  simp [statusAfter, AuditLogService.record]

/-! ## The writes -/

/-- An active merchant, in the accounts. -/
theorem Accounted.activeAt (h : Accounted text opened s) {merchant : Merchant} {merchantId : String}
    (hfind : s.merchants.find? merchantId = some merchant) (hactive : merchant.status = .active) :
    ActiveAt opened merchantId s.auditLog := by
  rw [h.merchants, Option.map_eq_some_iff] at hfind
  obtain ⟨first, hfirst, rfl⟩ := hfind
  exact ⟨first, hfirst, hactive⟩

section Create

variable {now : Int} {userId : String} {credential : Credential} {auditMeta : AuditMeta}

/-- A key is created, or nothing happens. -/
theorem create_cases (entry : AuditLogEntry) :
    (∃ e, perform text i now s (.createApiKey credential entry) = (.error e, s)) ∨
    ∃ hfree : s.apiKeys.find? credential.id = none,
      (∀ other ∈ s.apiKeys, other.keyPrefix ≠ credential.keyPrefix) ∧
      perform text i now s (.createApiKey credential entry) = (.ok (credential.row now),
        Shared.record { s with
          apiKeys := s.apiKeys.insert (credential.row now) hfree } text i entry) := by
  simp only [perform]
  split
  · exact .inl ⟨_, rfl⟩
  · next hfree =>
    by_cases htaken : ∃ other ∈ s.apiKeys.rows, other.keyPrefix = credential.keyPrefix
    · exact .inl ⟨_, if_pos htaken⟩
    · refine .inr ⟨hfree, fun other hother hsame => htaken ⟨other, hother, hsame⟩, if_neg htaken⟩

theorem Accounted.create (h : Accounted text opened s)
    (hmanaged : Managed opened userId credential.merchantId s)
    (hfree : s.apiKeys.find? credential.id = none)
    (hlead : ∀ other ∈ s.apiKeys, other.keyPrefix ≠ credential.keyPrefix)
    (hs' : s' = Shared.record { s with apiKeys := s.apiKeys.insert (credential.row now) hfree } text i
      (createdEntry userId credential auditMeta)) : Accounted text opened s' ∧ Grows s s' := by
  have hmem : ∀ key, key ∈ s'.apiKeys ↔ key ∈ s.apiKeys ∨ key = credential.row now := fun key => by
    rw [hs']
    exact Table.mem_insert (h := hfree)
  have hgrows : Grows s s' := by
    refine ⟨?_, ?_, fun key hkey => ⟨key, (hmem key).2 (.inl hkey), rfl⟩⟩
    · rw [hs']
      exact List.prefix_append _ _
    · rw [hs']
      exact fun _ hmember => hmember
  have hcreations : ∀ id, creations id s'.auditLog = creations id s.auditLog ++
      if credential.id = id then [(createdEntry userId credential auditMeta).row text i] else [] := by
    intro id
    rw [hs']
    exact rowsOf_record.trans (by simp [createdEntry, creations])
  have hrevocations : ∀ id, revocations id s'.auditLog = revocations id s.auditLog := by
    intro id
    rw [hs']
    exact rowsOf_record.trans (by simp [createdEntry, revocations])
  have hnever : revocations credential.id s.auditLog = [] := by
    by_contra hsome
    obtain ⟨row, hrow⟩ := List.exists_mem_of_ne_nil _ hsome
    obtain ⟨key, hkey, hid, -⟩ := h.revokedBy _ row hrow
    exact Table.find?_eq_none.1 hfree key hkey hid
  refine ⟨⟨fun id => ?_, ?_, ?_, fun id => ?_, ?_, ?_, ?_⟩, hgrows⟩
  · have hstatus : ∀ initial, statusAfter initial id s'.auditLog =
        statusAfter initial id s.auditLog := fun initial => by
      rw [hs']
      exact statusAfter_record.trans (by simp [writtenStatus, createdEntry, AuditLogEntry.row,
        Transition.action])
    simp only [hstatus, ← h.merchants]
    rw [hs']
    rfl
  · intro key hkey other hother hsame
    rcases (hmem key).1 hkey with hkey | rfl <;> rcases (hmem other).1 hother with hother | rfl
    · exact h.prefixes key hkey other hother hsame
    · exact absurd hsame (hlead key hkey)
    · exact absurd hsame.symm (hlead other hother)
    · rfl
  · intro key hkey
    rcases (hmem key).1 hkey with hkey | rfl
    · exact h.usual key hkey
    · exact .inl rfl
  · have hfind : s'.apiKeys.find? id =
        if credential.id = id then some (credential.row now) else s.apiKeys.find? id := by
      rw [hs']
      exact Table.find?_insert (h := hfree) id
    rw [hfind, hcreations]
    by_cases hid : credential.id = id
    · subst hid
      simp only [if_pos]
      rcases h.created credential.id with ⟨-, hnone⟩ | ⟨key, _, _, _, hkey, -⟩
      · rw [hnone]
        exact .inr ⟨_, i, userId, auditMeta, rfl, rfl, hmanaged.grows hgrows⟩
      · rw [hfree] at hkey
        cases hkey
    · simp only [if_neg hid, List.append_nil]
      rcases h.created id with hnone | ⟨key, j, userId', auditMeta', hkey, hrow, hby⟩
      · exact .inl hnone
      · exact .inr ⟨key, j, userId', auditMeta', hkey, hrow, hby.grows hgrows⟩
  · intro key hkey
    rw [hrevocations]
    rcases (hmem key).1 hkey with hkey | rfl
    · exact h.revoked key hkey
    · exact iff_of_false (by simp [Credential.row]) (not_not.2 hnever)
  · intro id row hrow
    rw [hrevocations] at hrow
    obtain ⟨key, hkey, hid, hmerchant, userId', huser, hby⟩ := h.revokedBy id row hrow
    exact ⟨key, (hmem key).2 (.inl hkey), hid, hmerchant, userId', huser, hby.grows hgrows⟩
  · rw [hs']
    exact h.remembered

end Create

section Modify

variable {f : ApiKey → ApiKey} {id : String}

/-- What a change in place leaves of a table of keys. -/
theorem mem_modified {keys : Table ApiKey ApiKey.rowId}
    (hsame : ∀ key, (f key).toCredential = key.toCredential)
    (hkeys : keys = s.apiKeys.modify id f fun key => congrArg Credential.id (hsame key)) :
    (∀ key ∈ keys, ∃ old ∈ s.apiKeys, key = (if old.id = id then f old else old) ∧
      key.toCredential = old.toCredential) ∧
    ∀ old ∈ s.apiKeys, ∃ key ∈ keys, key.toCredential = old.toCredential := by
  have hcredential : ∀ old : ApiKey, (if old.id = id then f old else old).toCredential =
      old.toCredential := fun old => by
    by_cases hid : old.id = id
    · rw [if_pos hid, hsame]
    · rw [if_neg hid]
  subst hkeys
  refine ⟨fun key hkey => ?_, fun old hold => ?_⟩
  · obtain ⟨old, hold, rfl⟩ := Table.mem_modify.1 hkey
    exact ⟨old, hold, rfl, hcredential old⟩
  · exact ⟨_, Table.mem_modify.2 ⟨old, hold, rfl⟩, hcredential old⟩

/-- A change in place that keeps the credentials, with the audit log as it stands for what becomes
of the statuses. -/
theorem Accounted.modify (h : Accounted text opened s)
    (hsame : ∀ key, (f key).toCredential = key.toCredential)
    (hkeys : s'.apiKeys = s.apiKeys.modify id f fun key => congrArg Credential.id (hsame key))
    (hmerchants : s'.merchants = s.merchants) (hlog : s.auditLog <+: s'.auditLog)
    (hmembers : s'.members = s.members ∧ s'.formerMembers = s.formerMembers)
    (hstatus : ∀ initial id, statusAfter initial id s'.auditLog = statusAfter initial id s.auditLog)
    (hcreations : ∀ id, creations id s'.auditLog = creations id s.auditLog)
    (husual : ∀ key, key.status = .active ∨ key.status = .revoked →
      (f key).status = .active ∨ (f key).status = .revoked)
    (hrevoked : ∀ key ∈ s.apiKeys, (if key.id = id then f key else key).status = .revoked ↔
      revocations key.id s'.auditLog ≠ [])
    (hrevokedBy : ∀ id', ∀ row ∈ revocations id' s'.auditLog, row ∈ revocations id' s.auditLog ∨
      ∃ key ∈ s.apiKeys, key.id = id' ∧ row.merchantId = some key.merchantId ∧
        ∃ userId, row.userId = some userId ∧ Managed opened userId key.merchantId s) :
    Accounted text opened s' ∧ Grows s s' := by
  obtain ⟨hmem, honto⟩ := mem_modified hsame hkeys
  have hgrows : Grows s s' := ⟨hlog, fun _ hmember => hmembers.2 ▸ hmember, honto⟩
  refine ⟨⟨fun id' => ?_, ?_, ?_, fun id' => ?_, ?_, ?_, ?_⟩, hgrows⟩
  · rw [hmerchants, h.merchants]
    simp only [hstatus]
  · intro key hkey other hother heq
    obtain ⟨old, hold, rfl, hcredential⟩ := hmem key hkey
    obtain ⟨old', hold', rfl, hcredential'⟩ := hmem other hother
    rw [congrArg Credential.keyPrefix hcredential,
      congrArg Credential.keyPrefix hcredential'] at heq
    rw [h.prefixes old hold old' hold' heq]
  · intro key hkey
    obtain ⟨old, hold, rfl, -⟩ := hmem key hkey
    by_cases hid : old.id = id
    · rw [if_pos hid]
      exact husual old (h.usual old hold)
    · rw [if_neg hid]
      exact h.usual old hold
  · have hfind : s'.apiKeys.find? id' =
        (s.apiKeys.find? id').map fun key => if id' = id then f key else key := by
      rw [hkeys, Table.find?_modify]
    rw [hcreations, hfind]
    rcases h.created id' with ⟨hnone, hrows⟩ | ⟨key, i, userId, auditMeta, hkey, hrows, hby⟩
    · exact .inl ⟨by rw [hnone, Option.map_none], hrows⟩
    · have hcredential : (if id' = id then f key else key).toCredential = key.toCredential := by
        by_cases hid : id' = id
        · rw [if_pos hid, hsame]
        · rw [if_neg hid]
      refine .inr ⟨_, i, userId, auditMeta, by rw [hkey, Option.map_some], ?_, ?_⟩
      · rw [hcredential]
        exact hrows
      · rw [congrArg Credential.merchantId hcredential]
        exact hby.grows hgrows
  · intro key hkey
    obtain ⟨old, hold, rfl, hcredential⟩ := hmem key hkey
    rw [congrArg Credential.id hcredential]
    exact hrevoked old hold
  · intro id' row hrow
    have hold : ∃ key ∈ s.apiKeys, key.id = id' ∧ row.merchantId = some key.merchantId ∧
        ∃ userId, row.userId = some userId ∧ Managed opened userId key.merchantId s := by
      rcases hrevokedBy id' row hrow with hbefore | hnew
      · exact h.revokedBy id' row hbefore
      · exact hnew
    obtain ⟨old, hold, hid, hmerchant, userId, huser, hby⟩ := hold
    obtain ⟨key, hkey, hcredential⟩ := honto old hold
    rw [← congrArg Credential.merchantId hcredential] at hmerchant hby
    exact ⟨key, hkey, (congrArg Credential.id hcredential).trans hid, hmerchant, userId, huser,
      hby.grows hgrows⟩
  · rw [hmembers.1, hmembers.2]
    exact h.remembered

end Modify

/-- A member who manages the keys of a merchant revokes one of them. -/
theorem Accounted.revoke (h : Accounted text opened s) {now : Int} {userId merchantId id : String}
    {status : ApiKeyStatus} {auditMeta : AuditMeta} (hmanaged : Managed opened userId merchantId s)
    {key : ApiKey} (hfind : s.apiKeys.find? id = some key) (hmerchant : key.merchantId = merchantId)
    (hs' : s' = Shared.record { s with
      apiKeys := s.apiKeys.modify id (revokeAt now userId) (revokeAt_id now userId) } text i
      (revokedEntry userId merchantId id status auditMeta)) : Accounted text opened s' ∧ Grows s s' := by
  obtain ⟨hmem, hid⟩ := Table.find?_eq_some.1 hfind
  have hrevocations : ∀ id', revocations id' s'.auditLog = revocations id' s.auditLog ++
      if id = id' then [(revokedEntry userId merchantId id status auditMeta).row text i] else [] := by
    intro id'
    rw [hs']
    exact rowsOf_record.trans (by simp [revokedEntry, revocations])
  refine h.modify (f := revokeAt now userId) (fun _ => rfl)
    (by rw [hs']; rfl) (by rw [hs']; rfl) ?_ (by rw [hs']; exact ⟨rfl, rfl⟩) ?_ ?_
    (fun _ _ => .inr rfl) ?_ ?_
  · rw [hs']
    exact List.prefix_append _ _
  · intro initial id'
    rw [hs']
    exact statusAfter_record.trans (by simp [writtenStatus, revokedEntry, AuditLogEntry.row,
      Transition.action])
  · intro id'
    rw [hs']
    exact rowsOf_record.trans (by simp [revokedEntry, creations])
  · intro old hold
    rw [hrevocations]
    by_cases hsame : old.id = id
    · rw [if_pos hsame, if_pos hsame.symm]
      exact iff_of_true rfl (by simp)
    · rw [if_neg hsame, if_neg (Ne.symm hsame), List.append_nil]
      exact h.revoked old hold
  · intro id' row hrow
    rw [hrevocations, List.mem_append] at hrow
    rcases hrow with hbefore | hnew
    · exact .inl hbefore
    · by_cases hsame : id = id'
      · rw [if_pos hsame, List.mem_singleton] at hnew
        subst hnew
        refine .inr ⟨key, hmem, hid.trans hsame, congrArg some hmerchant.symm, userId, rfl, ?_⟩
        rw [hmerchant]
        exact hmanaged
      · rw [if_neg hsame] at hnew
        cases hnew

/-- The use of a key is recorded. -/
theorem Accounted.touch (h : Accounted text opened s) (now : Int) (ip id : String) :
    Accounted text opened (happen (.touched id now ip) s) ∧ Grows s (happen (.touched id now ip) s) := by
  refine h.modify (f := touchAt now ip) (fun _ => rfl) rfl rfl
    List.prefix_rfl ⟨rfl, rfl⟩ (fun _ _ => rfl) (fun _ => rfl) (fun _ hkey => hkey) ?_
    (fun _ _ hrow => .inl hrow)
  intro key hkey
  have hstatus : (if key.id = id then touchAt now ip key else key).status = key.status := by
    by_cases hid : key.id = id
    · rw [if_pos hid]
      rfl
    · rw [if_neg hid]
  rw [hstatus]
  exact h.revoked key hkey

/-- What has nothing to do with keys. -/
theorem Accounted.aside (h : Accounted text opened s) (hkeys : s'.apiKeys = s.apiKeys)
    (hlog : s.auditLog <+: s'.auditLog)
    (hmembers : ∀ member ∈ s.formerMembers, member ∈ s'.formerMembers)
    (hremembered : ∀ member ∈ s'.members, member ∈ s'.formerMembers)
    (hmerchants : ∀ id, s'.merchants.find? id = (opened.find? id).map fun merchant =>
      ⟨merchant.id, statusAfter merchant.status id s'.auditLog⟩)
    (hcreations : ∀ id, creations id s'.auditLog = creations id s.auditLog)
    (hrevocations : ∀ id, revocations id s'.auditLog = revocations id s.auditLog) :
    Accounted text opened s' ∧ Grows s s' := by
  have hgrows : Grows s s' :=
    ⟨hlog, hmembers, fun key hkey => ⟨key, by rw [hkeys]; exact hkey, rfl⟩⟩
  refine ⟨⟨hmerchants, ?_, ?_, fun id => ?_, ?_, ?_, hremembered⟩, hgrows⟩
  · rw [hkeys]
    exact h.prefixes
  · rw [hkeys]
    exact h.usual
  · rw [hkeys, hcreations]
    rcases h.created id with hnone | ⟨key, i, userId, auditMeta, hkey, hrows, hby⟩
    · exact .inl hnone
    · exact .inr ⟨key, i, userId, auditMeta, hkey, hrows, hby.grows hgrows⟩
  · simp only [hkeys, hrevocations]
    exact h.revoked
  · intro id row hrow
    rw [hrevocations] at hrow
    obtain ⟨key, hkey, hid, hmerchant, userId, huser, hby⟩ := h.revokedBy id row hrow
    exact ⟨key, by rw [hkeys]; exact hkey, hid, hmerchant, userId, huser, hby.grows hgrows⟩

/-- Members come and go. -/
theorem Accounted.members (h : Accounted text opened s) (members : List MerchantMember) :
    Accounted text opened (happen (.members members) s) ∧ Grows s (happen (.members members) s) :=
  h.aside rfl List.prefix_rfl (fun _ hmember => List.mem_append_right _ hmember)
    (fun _ hmember => List.mem_append_left _ hmember) h.merchants (fun _ => rfl) (fun _ => rfl)

/-- The entry of a transition says what it writes. -/
theorem writtenStatus_transition (t : Transition) {actorUserId merchantId : String}
    {existing : MerchantStatus} {auditMeta : AuditMeta} (id : String) :
    writtenStatus id ((transitionEntry t actorUserId merchantId existing auditMeta).row text i) =
      if merchantId = id then some t.status else none := by
  cases t <;> simp [writtenStatus, transitionEntry, AuditLogEntry.row, Transition.action,
    Transition.status]

/-- A merchant is suspended or reactivated. -/
theorem Accounted.transition (h : Accounted text opened s) {t : Transition}
    {actorUserId merchantId : String} {existing : MerchantStatus} {auditMeta : AuditMeta}
    (hs' : s' = Shared.record { s with
      merchants := s.merchants.modify merchantId (setStatus t.status) (setStatus_id t.status) } text i
      (transitionEntry t actorUserId merchantId existing auditMeta)) :
    Accounted text opened s' ∧ Grows s s' := by
  refine h.aside (by rw [hs']; rfl) ?_ ?_ ?_ (fun id => ?_) ?_ ?_
  · rw [hs']
    exact List.prefix_append _ _
  · rw [hs']
    exact fun _ hmember => hmember
  · rw [hs']
    exact h.remembered
  · have hstatus : ∀ initial, statusAfter initial id s'.auditLog =
        (if merchantId = id then some t.status else none).getD
          (statusAfter initial id s.auditLog) := fun initial => by
      rw [hs', ← writtenStatus_transition]
      exact statusAfter_record
    have hfind : s'.merchants.find? id = (s.merchants.find? id).map fun merchant =>
        if id = merchantId then setStatus t.status merchant else merchant := by
      rw [hs']
      show (s.merchants.modify merchantId (setStatus t.status) (setStatus_id t.status)).find? id = _
      rw [Table.find?_modify]
    rw [hfind, h.merchants, Option.map_map]
    congr 1
    funext merchant
    by_cases hid : merchantId = id
    · simp [hstatus, hid, setStatus]
    · simp [hstatus, hid, Ne.symm hid]
  · intro id
    rw [hs']
    refine rowsOf_record.trans ?_
    cases t <;> simp [transitionEntry, creations, Transition.action]
  · intro id
    rw [hs']
    refine rowsOf_record.trans ?_
    cases t <;> simp [transitionEntry, revocations, Transition.action]

theorem Accounted.start (members : List MerchantMember) :
    Accounted text opened (start opened members) where
  merchants id := by
    cases h : opened.find? id with
    | none => simp [ApiKeys.start, h]
    | some merchant => simp [ApiKeys.start, h, statusAfter]
  prefixes _ hkey := absurd hkey (Table.not_mem_empty _)
  usual _ hkey := absurd hkey (Table.not_mem_empty _)
  created _ := .inl ⟨rfl, rfl⟩
  revoked _ hkey := absurd hkey (Table.not_mem_empty _)
  revokedBy _ _ hrow := absurd hrow List.not_mem_nil
  remembered _ hmember := hmember

end ApiKeys

end PaymentGateway
