import Mathlib.Logic.Function.Basic
import PaymentGateway.Lib.Base64
import PaymentGateway.Lib.Fallible
import PaymentGateway.Lib.Separated
import PaymentGateway.Lib.Utf8

/-!
# Stored secrets

`encryptSecret` prints a version, the key's id, and the output of the cipher, with full stops in
between; `decryptSecret` reads five fields and looks the key up by its id.

**Theorem (`secrets_roundTrip`).** A secret is read again after any rotation that still lists its
key, whatever else is encrypted before and after, exactly when the id has no full stop in it and the
last listing of the id is that key: an id with a full stop makes six fields or more, and a later
listing of an id takes the place of an earlier one. Whatever text is read, it is refused or gives a
secret that was encrypted under the id that the text names.

The cipher is ideal: it opens what has been sealed, and nothing else (`Aead.opened`). What is sealed
is remembered with the header, which has the id in it (`encryptAll_eq`, `decryptSecret_eq_ok`). A
provider knows the last listing of each id (`create_eq_ok`).
-/

namespace PaymentGateway

/-! ## The cipher -/

abbrev Bytes (n : Nat) := {bytes : List UInt8 // bytes.length = n}

/-- `KEY_BYTES` -/
abbrev Key := Bytes 32

/-- `IV_BYTES` -/
abbrev Iv := Bytes 12

/-- `AUTH_TAG_BYTES` -/
abbrev AuthTag := Bytes 16

/-- What the cipher is given to seal. The texts stand for their bytes in UTF-8. -/
structure Sealing where
  key : Key
  iv : Iv
  aad : String
  plaintext : String
  deriving DecidableEq

/-- AES-256-GCM. One key, nonce and header seal no two plaintexts alike. -/
structure Aead where
  encipher : Sealing → List UInt8 × AuthTag
  encipher_injective : ∀ s s', s.key = s'.key → s.iv = s'.iv → s.aad = s'.aad →
    encipher s = encipher s' → s.plaintext = s'.plaintext

/-- As an ideal cipher it opens what has been sealed, and nothing else. -/
def Aead.opened (cipher : Aead) (sealings : List Sealing) (key : Key) (iv : Iv) (aad : String)
    (ciphertext : List UInt8) (authTag : AuthTag) : Option String :=
  (sealings.find? fun s => s.key = key ∧ s.iv = iv ∧ s.aad = aad ∧
    cipher.encipher s = (ciphertext, authTag)).map (·.plaintext)

structure EncryptionError where
  message : String
  deriving DecidableEq, Repr

/-! ## Keys -/

structure Env where
  encryptionKey : Option String := none
  encryptionKeyId : Option String := none
  encryptionKeyRetired : Option String := none

structure KeyProvider where
  currentKeyId : String
  getKey : String → Except EncryptionError Key

/-- `keys` is a map from ids. -/
structure EnvKeyProvider where
  keys : String → Option Key
  activeKeyId : String

namespace EnvKeyProvider

/-- Text of base64 as a key. -/
def readKey (material : String) : Option Key :=
  let bytes := Base64.decode material.toList
  if h : bytes.length = 32 then some ⟨bytes, h⟩ else none

/-- An entry of the retired keys: an id and the key's text. -/
def readEntry (entry : String) : Option (String × String) :=
  match Separated.fields ':' entry with
  | id :: material :: _ => if id = "" ∨ material = "" then none else some (id, material)
  | _ => none

/-- The loop's body. An entry without an id or a text is passed over. -/
def retire (keys : String → Option Key) (entry : String) :
    Except EncryptionError (String → Option Key) :=
  match readEntry entry with
  | none => .ok keys
  | some (id, material) =>
    match readKey material with
    | none => .error ⟨"retired key " ++ id ++ " has the wrong length"⟩
    | some key => .ok (Function.update keys id (some key))

/-- The retired keys stay loadable. -/
def addRetired (keys : String → Option Key) (retired : Option String) :
    Except EncryptionError (String → Option Key) :=
  match retired.filter (· ≠ "") with
  | none => .ok keys
  | some retired => (Separated.fields ',' retired).foldlM retire keys

def create (env : Env) : Except EncryptionError EnvKeyProvider :=
  match env.encryptionKey.filter (· ≠ ""), env.encryptionKeyId.filter (· ≠ "") with
  | some rawKey, some keyId =>
    match readKey rawKey with
    | none => .error ⟨"ENCRYPTION_KEY must decode to 32 bytes, got " ++
        toString (Base64.decode rawKey.toList).length⟩
    | some key =>
      (addRetired (Function.update (fun _ => none) keyId (some key)) env.encryptionKeyRetired).map
        (⟨·, keyId⟩)
  | _, _ => .error ⟨"ENCRYPTION_KEY and ENCRYPTION_KEY_ID must be set"⟩

def getKey (provider : EnvKeyProvider) (keyId : String) : Except EncryptionError Key :=
  match provider.keys keyId with
  | none => .error ⟨"unknown encryption key id: " ++ keyId⟩
  | some key => .ok key

def toKeyProvider (provider : EnvKeyProvider) : KeyProvider :=
  ⟨provider.activeKeyId, provider.getKey⟩

end EnvKeyProvider

/-! ## Secrets -/

def formatVersion : String := "v1"

/-- The header that the cipher binds. -/
def associatedData (version keyId : String) : String := version ++ "." ++ keyId

def base64url (bytes : List UInt8) : String := String.ofList (Base64.encode bytes)

/-- The bytes of a text of base64, when they are as many as they should be. -/
def readBytes (n : Nat) (text : String) : Option (Bytes n) :=
  let bytes := Base64.decode text.toList
  if h : bytes.length = n then some ⟨bytes, h⟩ else none

/-- `sealings` is what has been sealed, and `iv` the random bytes. -/
def encryptSecret (cipher : Aead) (sealings : List Sealing) (plaintext : String)
    (provider : KeyProvider) (iv : Iv) : Except EncryptionError (List Sealing × String) :=
  if plaintext = "" then .error ⟨"cannot encrypt an empty value"⟩
  else
    let keyId := provider.currentKeyId
    (provider.getKey keyId).map fun key =>
      let sealing : Sealing := ⟨key, iv, associatedData formatVersion keyId, plaintext⟩
      let (ciphertext, authTag) := cipher.encipher sealing
      (sealings ++ [sealing], Separated.join '.'
        [formatVersion, keyId, base64url iv, base64url authTag, base64url ciphertext])

def decryptSecret (cipher : Aead) (sealings : List Sealing) (encoded : String)
    (provider : KeyProvider) : Except EncryptionError String :=
  match Separated.fields '.' encoded with
  | [version, keyId, ivPart, tagPart, dataPart] =>
    if version ≠ formatVersion then .error ⟨"unsupported ciphertext version: " ++ version⟩
    else
      match readBytes 12 ivPart, readBytes 16 tagPart with
      | some iv, some authTag =>
        (provider.getKey keyId).bind fun key =>
          match cipher.opened sealings key iv (associatedData version keyId)
              (Base64.decode dataPart.toList) authTag with
          | none => .error ⟨"ciphertext failed authentication"⟩
          | some plaintext => .ok plaintext
      | _, _ => .error ⟨"malformed ciphertext parameters"⟩
  | _ => .error ⟨"malformed ciphertext"⟩

/-- The id of the key that a stored secret uses. -/
def ciphertextKeyId (encoded : String) : Option String :=
  match Separated.fields '.' encoded with
  | [version, keyId, _, _, _] => if version = formatVersion then some keyId else none
  | _ => none

/-! ## Many secrets -/

/-- A call of `encryptSecret`. -/
structure Encryption where
  plaintext : String
  provider : KeyProvider
  iv : Iv

/-- What has been sealed after calls. -/
def encryptAll (cipher : Aead) : List Sealing → List Encryption → List Sealing
  | sealings, [] => sealings
  | sealings, call :: calls =>
    match encryptSecret cipher sealings call.plaintext call.provider call.iv with
    | .error _ => encryptAll cipher sealings calls
    | .ok (sealings, _) => encryptAll cipher sealings calls

/-! ## The listed keys -/

/-- The retired key of an entry. -/
def EnvKeyProvider.retired (entry : String) : Option (String × Key) :=
  (readEntry entry).bind fun (id, material) => (readKey material).map (id, ·)

/-- The ids and keys that an environment lists, in order. -/
def Env.listings (env : Env) : List (String × Key) :=
  let current := do
    let rawKey ← env.encryptionKey
    let keyId ← env.encryptionKeyId
    let key ← EnvKeyProvider.readKey rawKey
    return (keyId, key)
  current.toList ++ (env.encryptionKeyRetired.elim [] (Separated.fields ',')).filterMap
    EnvKeyProvider.retired

/-- The key of the last listing of an id. -/
def lastKey : List (String × Key) → String → Option Key
  | [], _ => none
  | (id, key) :: rest, keyId => (lastKey rest keyId).or (if id = keyId then some key else none)

open Fallible

variable {cipher : Aead} {env : Env} {provider : EnvKeyProvider} {sealings : List Sealing}

theorem lastKey_foldlM {entries : List String} {keys keys' : String → Option Key}
    (h : entries.foldlM EnvKeyProvider.retire keys = .ok keys') (keyId : String) :
    keys' keyId = (lastKey (entries.filterMap EnvKeyProvider.retired) keyId).or (keys keyId) := by
  induction entries generalizing keys with
  | nil =>
    cases h
    rfl
  | cons entry entries ih =>
    rw [List.foldlM_cons] at h
    obtain ⟨next, hnext, hrest⟩ := bind_eq_ok.1 h
    rw [ih hrest]
    unfold EnvKeyProvider.retire at hnext
    cases hentry : EnvKeyProvider.readEntry entry with
    | none =>
      rw [hentry] at hnext
      cases hnext
      simp [EnvKeyProvider.retired, hentry]
    | some listing =>
      obtain ⟨id, material⟩ := listing
      rw [hentry] at hnext
      dsimp only at hnext
      cases hkey : EnvKeyProvider.readKey material with
      | none =>
        rw [hkey] at hnext
        cases hnext
      | some key =>
        rw [hkey] at hnext
        cases hnext
        have hretired : EnvKeyProvider.retired entry = some (id, key) := by
          simp [EnvKeyProvider.retired, hentry, hkey]
        rw [List.filterMap_cons_some hretired, lastKey, Option.or_assoc]
        congr 1
        by_cases hid : keyId = id
        · simp [hid]
        · simp [hid, Ne.symm hid, Function.update_of_ne]

theorem addRetired_eq_ok {keys keys' : String → Option Key} {retired : Option String}
    (h : EnvKeyProvider.addRetired keys retired = .ok keys') (keyId : String) :
    keys' keyId = (lastKey ((retired.elim [] (Separated.fields ',')).filterMap
      EnvKeyProvider.retired) keyId).or (keys keyId) := by
  unfold EnvKeyProvider.addRetired at h
  cases retired with
  | none =>
    cases h
    rfl
  | some text =>
    by_cases hempty : text = ""
    · subst hempty
      cases h
      rfl
    · have hfilter : (some text).filter (· ≠ "") = some text := by simp [hempty]
      rw [hfilter] at h
      exact lastKey_foldlM h keyId

theorem lastKey_append (l l' : List (String × Key)) (keyId : String) :
    lastKey (l ++ l') keyId = (lastKey l' keyId).or (lastKey l keyId) := by
  induction l with
  | nil => simp [lastKey]
  | cons listing l ih =>
    obtain ⟨id, key⟩ := listing
    rw [List.cons_append, lastKey, lastKey, ih, Option.or_assoc]

theorem mem_of_lastKey {l : List (String × Key)} {keyId : String} {key : Key}
    (h : (keyId, key) ∈ l) : (lastKey l keyId).isSome = true := by
  induction l with
  | nil => cases h
  | cons listing l ih =>
    obtain ⟨id, first⟩ := listing
    rcases List.mem_cons.1 h with heq | hrest
    · obtain ⟨rfl, rfl⟩ := Prod.mk.inj heq
      simp [lastKey]
    · simp [lastKey, ih hrest]

/-- What an environment makes a provider of. -/
theorem create_eq_ok (h : EnvKeyProvider.create env = .ok provider) :
    env.encryptionKeyId = some provider.activeKeyId ∧
      ∀ keyId, provider.keys keyId = lastKey env.listings keyId := by
  unfold EnvKeyProvider.create at h
  split at h
  · next rawKey activeId hraw hid =>
    obtain ⟨hraw, -⟩ := Option.filter_eq_some_iff.1 hraw
    obtain ⟨hid, -⟩ := Option.filter_eq_some_iff.1 hid
    split at h
    · cases h
    · next key hkey =>
      cases hkeys : EnvKeyProvider.addRetired (Function.update (fun _ => none) activeId (some key))
          env.encryptionKeyRetired with
      | error e =>
        rw [hkeys] at h
        cases h
      | ok keys =>
        rw [hkeys] at h
        cases h
        refine ⟨hid, fun keyId => ?_⟩
        have hlistings : env.listings = [(activeId, key)] ++
            (env.encryptionKeyRetired.elim [] (Separated.fields ',')).filterMap
              EnvKeyProvider.retired := by
          simp [Env.listings, hraw, hid, hkey]
        show keys keyId = _
        rw [addRetired_eq_ok hkeys, hlistings, lastKey_append]
        congr 1
        by_cases heq : keyId = activeId
        · simp [lastKey, heq]
        · simp [lastKey, heq, Ne.symm heq]
  · cases h

/-! ## Printing and reading -/

/-- What `encryptSecret` prints. -/
def envelope (cipher : Aead) (keyId : String) (s : Sealing) : String :=
  Separated.join '.' [formatVersion, keyId, base64url s.iv, base64url (cipher.encipher s).2,
    base64url (cipher.encipher s).1]

theorem encryptSecret_eq_ok {plaintext : String} {provider : KeyProvider} {iv : Iv}
    {result : List Sealing × String} :
    encryptSecret cipher sealings plaintext provider iv = .ok result ↔
      plaintext ≠ "" ∧ ∃ key, provider.getKey provider.currentKeyId = .ok key ∧
        result = (sealings ++
          [⟨key, iv, associatedData formatVersion provider.currentKeyId, plaintext⟩],
          envelope cipher provider.currentKeyId
            ⟨key, iv, associatedData formatVersion provider.currentKeyId, plaintext⟩) := by
  unfold encryptSecret
  by_cases hempty : plaintext = ""
  · simp [hempty]
  · rw [if_neg hempty]
    cases hkey : provider.getKey provider.currentKeyId with
    | error e => simp [hkey, Except.map]
    | ok key => simp [hkey, Except.map, hempty, envelope, eq_comm]

theorem readBytes_base64url {n : Nat} (bytes : Bytes n) :
    readBytes n (base64url bytes) = some bytes := by
  have hdecode : Base64.decode (base64url bytes).toList = bytes := by
    rw [base64url, String.toList_ofList, Base64.decode_encode]
  unfold readBytes
  simp [hdecode, bytes.2]

theorem stop_notMem_base64url (bytes : List UInt8) : '.' ∉ (base64url bytes).toList := by
  rw [base64url, String.toList_ofList]
  exact Base64.stop_notMem_encode bytes

/-- The printed fields are read again, unless the id has a separator in it. -/
theorem fields_envelope {keyId : String} (h : '.' ∉ keyId.toList) (s : Sealing) :
    Separated.fields '.' (envelope cipher keyId s) =
      [formatVersion, keyId, base64url s.iv, base64url (cipher.encipher s).2,
        base64url (cipher.encipher s).1] := by
  have hversion : '.' ∉ formatVersion.toList := by decide
  refine Separated.fields_join ?_ (List.cons_ne_nil _ _)
  simp [hversion, h, stop_notMem_base64url]

theorem length_fields_envelope {keyId : String} (h : '.' ∈ keyId.toList) (s : Sealing) :
    5 < (Separated.fields '.' (envelope cipher keyId s)).length := by
  have hpos := List.count_pos_iff.2 h
  have hstop : String.toList (String.singleton '.') = ['.'] := rfl
  rw [Separated.length_fields]
  unfold envelope
  rw [Separated.join_cons_cons, Separated.join_cons_cons, Separated.join_cons_cons,
    Separated.join_cons_cons, Separated.join_singleton]
  simp only [String.toList_append, List.count_append, hstop, List.count_singleton_self]
  omega

/-! ## The cipher's memory -/

theorem opened_of_mem {s : Sealing} (h : s ∈ sealings) :
    cipher.opened sealings s.key s.iv s.aad (cipher.encipher s).1 (cipher.encipher s).2 =
      some s.plaintext := by
  unfold Aead.opened
  cases hfind : sealings.find? fun t => t.key = s.key ∧ t.iv = s.iv ∧ t.aad = s.aad ∧
      cipher.encipher t = ((cipher.encipher s).1, (cipher.encipher s).2) with
  | none =>
    have hno := List.find?_eq_none.1 hfind s h
    simp at hno
  | some t =>
    have ht := List.find?_some hfind
    obtain ⟨hkey, hiv, haad, hsame⟩ := of_decide_eq_true ht
    exact congrArg some (cipher.encipher_injective t s hkey hiv haad hsame)

theorem opened_eq_some {key : Key} {iv : Iv} {aad plaintext : String} {ciphertext : List UInt8}
    {authTag : AuthTag}
    (h : cipher.opened sealings key iv aad ciphertext authTag = some plaintext) :
    ∃ s ∈ sealings, s.key = key ∧ s.aad = aad ∧ s.plaintext = plaintext := by
  obtain ⟨s, hfind, rfl⟩ := Option.map_eq_some_iff.1 h
  have hs := List.find?_some hfind
  obtain ⟨hkey, -, haad, -⟩ := of_decide_eq_true hs
  exact ⟨s, List.mem_of_find?_eq_some hfind, hkey, haad, rfl⟩

/-- What a call seals. -/
def Encryption.sealing (call : Encryption) : Option Sealing :=
  if call.plaintext = "" then none
  else
    (call.provider.getKey call.provider.currentKeyId).toOption.map fun key =>
      ⟨key, call.iv, associatedData formatVersion call.provider.currentKeyId, call.plaintext⟩

theorem Encryption.sealing_eq_some {call : Encryption} {s : Sealing} :
    call.sealing = some s ↔ call.plaintext ≠ "" ∧
      ∃ key, call.provider.getKey call.provider.currentKeyId = .ok key ∧ s = ⟨key, call.iv,
        associatedData formatVersion call.provider.currentKeyId, call.plaintext⟩ := by
  unfold Encryption.sealing
  by_cases hempty : call.plaintext = ""
  · simp [hempty]
  · cases hkey : call.provider.getKey call.provider.currentKeyId with
    | error e => simp [hempty, Except.toOption]
    | ok key => simp [hempty, Except.toOption, eq_comm]

/-- The memory is what the calls have sealed. -/
theorem encryptAll_eq (calls : List Encryption) :
    encryptAll cipher sealings calls = sealings ++ calls.filterMap Encryption.sealing := by
  induction calls generalizing sealings with
  | nil => simp [encryptAll]
  | cons call calls ih =>
    rw [encryptAll]
    cases hresult : encryptSecret cipher sealings call.plaintext call.provider call.iv with
    | error e =>
      have hnone : call.sealing = none := by
        cases hsealing : call.sealing with
        | none => rfl
        | some s =>
          obtain ⟨hempty, key, hkey, -⟩ := Encryption.sealing_eq_some.1 hsealing
          rw [encryptSecret_eq_ok.2 ⟨hempty, key, hkey, rfl⟩] at hresult
          cases hresult
      rw [List.filterMap_cons_none hnone]
      exact ih
    | ok result =>
      obtain ⟨hempty, key, hkey, rfl⟩ := encryptSecret_eq_ok.1 hresult
      rw [List.filterMap_cons_some (Encryption.sealing_eq_some.2 ⟨hempty, key, hkey, rfl⟩)]
      dsimp only
      rw [ih, List.append_assoc]
      rfl

/-! ## Decryption -/

theorem associatedData_injective {keyId keyId' : String}
    (h : associatedData formatVersion keyId = associatedData formatVersion keyId') :
    keyId = keyId' := by
  have hlist := congrArg String.toList h
  simp only [associatedData, String.toList_append, List.append_assoc] at hlist
  exact String.toList_injective (List.append_cancel_left (List.append_cancel_left hlist))

/-- A printed secret is opened with the key that its id now has. -/
theorem decryptSecret_envelope {keyId : String} (h : '.' ∉ keyId.toList) (s : Sealing)
    (provider : KeyProvider) :
    decryptSecret cipher sealings (envelope cipher keyId s) provider =
      (provider.getKey keyId).bind fun key =>
        match cipher.opened sealings key s.iv (associatedData formatVersion keyId)
            (cipher.encipher s).1 (cipher.encipher s).2 with
        | none => .error ⟨"ciphertext failed authentication"⟩
        | some plaintext => .ok plaintext := by
  have hdecode : Base64.decode (base64url (cipher.encipher s).1).toList =
      (cipher.encipher s).1 := by
    rw [base64url, String.toList_ofList, Base64.decode_encode]
  unfold decryptSecret
  rw [fields_envelope h]
  simp only [ne_eq, not_true_eq_false, if_false, readBytes_base64url, hdecode]

theorem decryptSecret_of_stop {keyId : String} (h : '.' ∈ keyId.toList) (s : Sealing)
    (provider : KeyProvider) :
    decryptSecret cipher sealings (envelope cipher keyId s) provider =
      .error ⟨"malformed ciphertext"⟩ := by
  have hlength : 5 < (Separated.fields '.' (envelope cipher keyId s)).length :=
    length_fields_envelope h s
  unfold decryptSecret
  split
  · next hfields =>
    rw [hfields] at hlength
    simp at hlength
  · rfl

/-- What a text that opens stands for. -/
theorem decryptSecret_eq_ok {encoded plaintext : String} {provider : KeyProvider}
    (h : decryptSecret cipher sealings encoded provider = .ok plaintext) :
    ∃ keyId key, ciphertextKeyId encoded = some keyId ∧ provider.getKey keyId = .ok key ∧
      ∃ s ∈ sealings, s.key = key ∧ s.aad = associatedData formatVersion keyId ∧
        s.plaintext = plaintext := by
  unfold decryptSecret at h
  split at h
  · next version keyId ivPart tagPart dataPart hfields =>
    split_ifs at h with hversion
    split at h
    · next iv authTag hiv htag =>
      obtain ⟨key, hkey, h⟩ := bind_eq_ok.1 h
      split at h
      · cases h
      · next found hopened =>
        cases h
        have hversion := not_not.1 hversion
        rw [hversion] at hopened
        obtain ⟨s, hs, hskey, haad, hplaintext⟩ := opened_eq_some hopened
        refine ⟨keyId, key, ?_, hkey, s, hs, hskey, haad, hplaintext⟩
        unfold ciphertextKeyId
        rw [hfields]
        exact if_pos hversion
    · cases h
  · cases h

/-! ## Rotation -/

theorem getKey_eq_ok {keyId : String} {key : Key} :
    provider.getKey keyId = .ok key ↔ provider.keys keyId = some key := by
  unfold EnvKeyProvider.getKey
  cases provider.keys keyId <;> simp

/-- A key with another key's sealing finds nothing. -/
theorem opened_singleton {s : Sealing} {key : Key} (h : s.key ≠ key) (iv : Iv) (aad : String)
    (ciphertext : List UInt8) (authTag : AuthTag) :
    cipher.opened [s] key iv aad ciphertext authTag = none := by
  simp [Aead.opened, h]

/-- A secret is read again after any rotation exactly when its key's id has no separator in it and
the last listing of the id is the key; and nothing is ever read but what was encrypted under the id
that the text names. -/
theorem secrets_roundTrip (cipher : Aead) :
    (∀ env provider env' provider' keyId key plaintext iv,
      EnvKeyProvider.create env = .ok provider → EnvKeyProvider.create env' = .ok provider' →
      env.encryptionKeyId = some keyId → provider.getKey keyId = .ok key →
      (keyId, key) ∈ env'.listings → plaintext ≠ "" →
      ((∀ before after, ∃ sealings encoded,
          encryptSecret cipher (encryptAll cipher [] before) plaintext provider.toKeyProvider iv =
            .ok (sealings, encoded) ∧
          decryptSecret cipher (encryptAll cipher sealings after) encoded
            provider'.toKeyProvider = .ok plaintext) ↔
        '.' ∉ keyId.toList ∧ lastKey env'.listings keyId = some key)) ∧
    ∀ calls encoded provider,
      (∃ e, decryptSecret cipher (encryptAll cipher [] calls) encoded provider = .error e) ∨
      ∃ call ∈ calls, call.plaintext ≠ "" ∧
        ciphertextKeyId encoded = some call.provider.currentKeyId ∧
        decryptSecret cipher (encryptAll cipher [] calls) encoded provider =
          .ok call.plaintext := by
  constructor
  · intro env provider env' provider' keyId key plaintext iv hcreate hcreate' hid hkey hlisted hne
    obtain ⟨hactive, -⟩ := create_eq_ok hcreate
    obtain ⟨-, hkeys'⟩ := create_eq_ok hcreate'
    obtain rfl := Option.some.inj (hid.symm.trans hactive)
    let s : Sealing := ⟨key, iv, associatedData formatVersion provider.activeKeyId, plaintext⟩
    have hencrypt : ∀ sealings, encryptSecret cipher sealings plaintext provider.toKeyProvider iv =
        .ok (sealings ++ [s], envelope cipher provider.activeKeyId s) :=
      fun sealings => encryptSecret_eq_ok.2 ⟨hne, key, hkey, rfl⟩
    constructor
    · intro hevery
      obtain ⟨sealings, encoded, hencoded, hread⟩ := hevery [] []
      rw [hencrypt] at hencoded
      cases hencoded
      by_cases hstop : '.' ∈ provider.activeKeyId.toList
      · rw [decryptSecret_of_stop hstop] at hread
        cases hread
      · refine ⟨hstop, ?_⟩
        obtain ⟨last, hlast⟩ := Option.isSome_iff_exists.1 (mem_of_lastKey hlisted)
        by_cases hsame : key = last
        · rw [hlast, hsame]
        · have hgot : provider'.toKeyProvider.getKey provider.activeKeyId = .ok last :=
            getKey_eq_ok.2 ((hkeys' _).trans hlast)
          have hnone : cipher.opened [s] last s.iv (associatedData formatVersion
              provider.activeKeyId) (cipher.encipher s).1 (cipher.encipher s).2 = none :=
            opened_singleton hsame _ _ _ _
          rw [decryptSecret_envelope hstop, hgot] at hread
          dsimp only [encryptAll, List.nil_append, Except.bind] at hread
          rw [hnone] at hread
          cases hread
    · rintro ⟨hstop, hlast⟩ before after
      refine ⟨_, _, hencrypt _, ?_⟩
      have hgot : provider'.toKeyProvider.getKey provider.activeKeyId = .ok key :=
        getKey_eq_ok.2 ((hkeys' _).trans hlast)
      have hmem : s ∈ encryptAll cipher (encryptAll cipher [] before ++ [s]) after := by
        rw [encryptAll_eq]
        simp
      have hopened : cipher.opened (encryptAll cipher (encryptAll cipher [] before ++ [s]) after)
          key s.iv (associatedData formatVersion provider.activeKeyId) (cipher.encipher s).1
          (cipher.encipher s).2 = some plaintext := opened_of_mem hmem
      rw [decryptSecret_envelope hstop, hgot]
      dsimp only [Except.bind]
      rw [hopened]
  · intro calls encoded provider
    cases hresult : decryptSecret cipher (encryptAll cipher [] calls) encoded provider with
    | error e => exact .inl ⟨e, rfl⟩
    | ok plaintext =>
      obtain ⟨keyId, key, hkeyId, -, s, hs, -, haad, rfl⟩ := decryptSecret_eq_ok hresult
      rw [encryptAll_eq, List.nil_append] at hs
      obtain ⟨call, hcall, hsealing⟩ := List.mem_filterMap.1 hs
      obtain ⟨hne, key, -, rfl⟩ := Encryption.sealing_eq_some.1 hsealing
      rw [← associatedData_injective haad] at hkeyId
      exact .inr ⟨call, hcall, hne, hkeyId, rfl⟩

/-- Text of base64 for 32 zero bytes. -/
def zeroKey : String := "AAAAAAAAAAAAAAAAAAAAAAAAAAAAAAAAAAAAAAAAAAA="

/-- Text of base64 for 32 bytes of value one. -/
def oneKey : String := "AQEBAQEBAQEBAQEBAQEBAQEBAQEBAQEBAQEBAQEBAQE="

def sampleSealing : Sealing :=
  ⟨⟨List.replicate 32 0, rfl⟩, ⟨List.replicate 12 0, rfl⟩, "v1.k1", "a"⟩

def sampleTag : AuthTag :=
  ⟨[2, 175, 144, 137, 35, 119, 176, 249, 10, 232, 28, 58, 122, 170, 97, 148], rfl⟩

/-- A cipher that is right about one sealing. -/
def sampleCipher : Aead where
  encipher s :=
    if s = sampleSealing then ([175], sampleTag)
    else (Utf8.encode s.plaintext.toList, ⟨List.replicate 16 0, rfl⟩)
  encipher_injective s s' _ _ _ h := by
    have htag : sampleTag ≠ ⟨List.replicate 16 0, rfl⟩ := by decide
    by_cases hs : s = sampleSealing
    · by_cases hs' : s' = sampleSealing
      · rw [hs, hs']
      · rw [if_pos hs, if_neg hs'] at h
        exact absurd (Prod.mk.inj h).2 htag
    · by_cases hs' : s' = sampleSealing
      · rw [if_neg hs, if_pos hs'] at h
        exact absurd (Prod.mk.inj h).2.symm htag
      · rw [if_neg hs, if_neg hs'] at h
        exact String.toList_injective (Utf8.encode_injective (Prod.mk.inj h).1)

/-- A secret under `k1` is read after the rotation to `k2`. -/
theorem secrets_roundTrip_rotated :
    let env : Env := ⟨some zeroKey, some "k1", none⟩
    let env' : Env := ⟨some oneKey, some "k2", some ("k1:" ++ zeroKey)⟩
    ∃ provider provider', EnvKeyProvider.create env = .ok provider ∧
      EnvKeyProvider.create env' = .ok provider' ∧
      ∀ before after, ∃ sealings encoded,
        encryptSecret sampleCipher (encryptAll sampleCipher [] before) "a" provider.toKeyProvider
          sampleSealing.iv = .ok (sealings, encoded) ∧
        decryptSecret sampleCipher (encryptAll sampleCipher sealings after) encoded
          provider'.toKeyProvider = .ok "a" := by
  intro env env'
  have hcreate : EnvKeyProvider.create env = .ok ⟨_, _⟩ := rfl
  have hcreate' : EnvKeyProvider.create env' = .ok ⟨_, _⟩ := rfl
  have hlistings : env'.listings =
      [("k2", ⟨List.replicate 32 1, rfl⟩), ("k1", sampleSealing.key)] := rfl
  have hlast : lastKey env'.listings "k1" = some sampleSealing.key := rfl
  have hstop : '.' ∉ "k1".toList := by decide
  refine ⟨_, _, hcreate, hcreate', ?_⟩
  exact ((secrets_roundTrip sampleCipher).1 env _ env' _ "k1" sampleSealing.key "a"
    sampleSealing.iv hcreate hcreate' rfl rfl (by rw [hlistings]; simp) (by decide)).2
    ⟨hstop, hlast⟩

/-- Under an id with a full stop in it nothing that is encrypted can be read. -/
theorem secrets_stop :
    let env : Env := ⟨some zeroKey, some "2024.01", none⟩
    ∃ provider, EnvKeyProvider.create env = .ok provider ∧
      ∀ cipher : Aead, ∃ sealings encoded,
        encryptSecret cipher [] "a" provider.toKeyProvider sampleSealing.iv =
          .ok (sealings, encoded) ∧
        decryptSecret cipher sealings encoded provider.toKeyProvider =
          .error ⟨"malformed ciphertext"⟩ := by
  intro env
  have hcreate : EnvKeyProvider.create env = .ok ⟨_, _⟩ := rfl
  have hstop : '.' ∈ "2024.01".toList := by decide
  refine ⟨_, hcreate, fun cipher => ?_⟩
  exact ⟨_, _, encryptSecret_eq_ok.2 ⟨by decide, sampleSealing.key, rfl, rfl⟩,
    decryptSecret_of_stop hstop _ _⟩

end PaymentGateway
