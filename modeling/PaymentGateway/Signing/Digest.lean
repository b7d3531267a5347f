import Mathlib.Data.Rat.Defs
import Mathlib.Logic.Equiv.Basic
import PaymentGateway.Blockchain.BitcoinAdapter
import PaymentGateway.Lib.Calendar
import PaymentGateway.Lib.Json
import PaymentGateway.Lib.Separated
import PaymentGateway.Lib.Utf8
import PaymentGateway.Shared.Network
import PaymentGateway.Signing.Service

/-!
# What a signature stands for

The backend signs a digest of the request's fields, with both addresses in lower case. The hash and
`toLowerCase` are parameters.

**Theorem (`digests_bind`).** Two requests have one digest exactly when they are for the same
payment, unless they agree but for the case of an address whose case counts (`MistakenFor`). A
request that is read back from the store after any saves has the digest of the one that was saved.

The text under the hash determines its eight values, as JSON quotes them (`Json.object_inj`), and
the numeral and the time determine what they write (`Calendar.isoString_injective`); so the digest
determines all but the case of the addresses (`canonicalDigest_eq_iff`). A row is what some save put
there (`saveAll_cases`), and is read back as the entry it was made from (`toDomain_toRow`).
-/

namespace PaymentGateway

namespace Signing

open BitcoinAddress BitcoinRpcAdapter

/-! ## The digest -/

section Digest

variable (sha256 : List UInt8 → List UInt8) (toLowerCase : String → String)

def digestKeys : List String :=
  ["id", "network", "asset", "fromAddress", "toAddress", "amount", "requestedBy", "requestedAt"]

def digestValues (request : SigningRequest) : List String :=
  [request.id, request.network, request.asset, toLowerCase request.fromAddress,
    toLowerCase request.toAddress, toString (request.amount : Int), request.requestedBy,
    Calendar.isoString request.requestedAt]

def canonicalDigest (request : SigningRequest) : List UInt8 :=
  let canonical := Json.object (digestKeys.zip (digestValues toLowerCase request))
  sha256 (Utf8.encode canonical.toList)

end Digest

/-! ## The stored request -/

inductive MoneyMappingError
  /-- `expected a numeric amount, received null` -/
  | missing
  /-- `monetary column holds a non-integer value: …. Smallest units must be whole numbers.` -/
  | fractional (value : ℚ)
  deriving DecidableEq, Repr

/-- An exact decimal number in smallest units. -/
def unitsToDecimal (units : Int) : ℚ := units

def decimalToUnits (value : Option ℚ) : Except MoneyMappingError Int :=
  match value with
  | none => .error .missing
  | some value => if value.den = 1 then .ok value.num else .error (.fractional value)

/-- A row of `signing_approval_requests`. -/
structure SigningApprovalRequest where
  id : String
  merchantId : String
  network : String
  asset : String
  fromAddress : String
  toAddress : String
  amount : ℚ
  requestedBy : String
  requestedAt : Int
  status : SigningRequestStatus
  approvals : List String
  rejectedBy : Option String
  rejectionReason : Option String
  deriving DecidableEq

namespace PrismaApprovalStore

abbrev Rows := String → Option SigningApprovalRequest

def toRow (entry : PendingSigningRequest) : SigningApprovalRequest where
  id := entry.request.id
  merchantId := entry.request.merchantId
  network := entry.request.network
  asset := entry.request.asset
  fromAddress := entry.request.fromAddress
  toAddress := entry.request.toAddress
  amount := unitsToDecimal entry.request.amount
  requestedBy := entry.request.requestedBy
  requestedAt := entry.request.requestedAt
  status := entry.status
  approvals := entry.approvals
  rejectedBy := entry.rejectedBy
  rejectionReason := entry.rejectionReason

/-- The database takes a row as it is or refuses it: for an amount of too many digits, say. -/
def save (accepts : SigningApprovalRequest → Bool) (rows : Rows) (entry : PendingSigningRequest) :
    Rows :=
  if accepts (toRow entry) = true then
    Function.update rows entry.request.id (some (toRow entry))
  else rows

def toDomain (row : SigningApprovalRequest) : Except MoneyMappingError PendingSigningRequest := do
  let amount ← decimalToUnits row.amount
  return {
    request := {
      id := row.id
      merchantId := row.merchantId
      network := row.network
      asset := row.asset
      fromAddress := row.fromAddress
      toAddress := row.toAddress
      amount := amount.toNat
      requestedBy := row.requestedBy
      requestedAt := row.requestedAt }
    status := row.status
    approvals := row.approvals
    rejectedBy := row.rejectedBy
    rejectionReason := row.rejectionReason }

def get (rows : Rows) (requestId : String) :
    Except MoneyMappingError (Option PendingSigningRequest) :=
  match rows requestId with
  | none => .ok none
  | some row => (toDomain row).map some

def saveAll (accepts : SigningApprovalRequest → Bool) : Rows → List PendingSigningRequest → Rows
  | rows, [] => rows
  | rows, entry :: entries => saveAll accepts (save accepts rows entry) entries

/-- A saved entry is read back as it was. -/
theorem toDomain_toRow (entry : PendingSigningRequest) : toDomain (toRow entry) = .ok entry := by
  have hunits : decimalToUnits (some (unitsToDecimal entry.request.amount)) =
      .ok (entry.request.amount : Int) := by
    simp [decimalToUnits, unitsToDecimal]
  unfold toDomain
  dsimp only [toRow]
  rw [hunits]
  rfl

variable {accepts : SigningApprovalRequest → Bool}

/-- What every row under an id comes from. -/
theorem saveAll_cases {rows : Rows} {entries : List PendingSigningRequest} {requestId : String}
    {row : SigningApprovalRequest} (h : saveAll accepts rows entries requestId = some row) :
    rows requestId = some row ∨
      ∃ entry ∈ entries, entry.request.id = requestId ∧ row = toRow entry := by
  induction entries generalizing rows with
  | nil => exact .inl h
  | cons entry entries ih =>
    rcases ih h with hrow | ⟨later, hlater, hid, hrow⟩
    · unfold save at hrow
      by_cases haccepts : accepts (toRow entry) = true
      · rw [if_pos haccepts] at hrow
        by_cases hid : requestId = entry.request.id
        · subst hid
          rw [Function.update_self, Option.some.injEq] at hrow
          exact .inr ⟨entry, List.mem_cons_self, rfl, hrow.symm⟩
        · rw [Function.update_of_ne hid] at hrow
          exact .inl hrow
      · rw [if_neg haccepts] at hrow
        exact .inl hrow
    · exact .inr ⟨later, List.mem_cons_of_mem _ hlater, hid, hrow⟩

/-- A row is there from the first save that the database takes. -/
theorem saveAll_isSome {rows : Rows} {entries : List PendingSigningRequest} {requestId : String}
    (h : (rows requestId).isSome = true ∨ ∃ entry ∈ entries, entry.request.id = requestId ∧
      accepts (toRow entry) = true) :
    (saveAll accepts rows entries requestId).isSome = true := by
  induction entries generalizing rows with
  | nil => simpa [saveAll] using h
  | cons entry entries ih =>
    refine ih ?_
    unfold save
    rcases h with hrow | ⟨later, hlater, hid, haccepts⟩
    · left
      split_ifs with haccepts
      · by_cases hid : requestId = entry.request.id
        · simp [hid]
        · rw [Function.update_of_ne hid]
          exact hrow
      · exact hrow
    · rcases List.mem_cons.1 hlater with rfl | hlater
      · left
        rw [if_pos haccepts, hid, Function.update_self]
        rfl
      · exact .inr ⟨later, hlater, hid, haccepts⟩

end PrismaApprovalStore

/-! ## What a request names -/

section Meaning

variable (sha256 : List UInt8 → List UInt8) (toLowerCase : String → String)

/-- An address of the network whose letters count as they are written. -/
def CaseSensitive (network address : String) : Prop :=
  ∃ n ∈ networkNamed network, (getNetworkConfig n).family = .bitcoin ∧
    isValidBase58Check sha256 address (networkKind n) = true

instance : DecidableRel (CaseSensitive sha256) := fun network address => by
  unfold CaseSensitive
  infer_instance

/-- Two spellings of one place on the chain. -/
def SameAddress (network a b : String) : Prop :=
  if CaseSensitive sha256 network a ∨ CaseSensitive sha256 network b then a = b
  else toLowerCase a = toLowerCase b

/-- Two requests for the same payment. -/
structure SameRequest (r r' : SigningRequest) : Prop where
  id_eq : r.id = r'.id
  network_eq : r.network = r'.network
  asset_eq : r.asset = r'.asset
  amount_eq : r.amount = r'.amount
  requestedBy_eq : r.requestedBy = r'.requestedBy
  requestedAt_eq : r.requestedAt = r'.requestedAt
  source : SameAddress sha256 toLowerCase r.network r.fromAddress r'.fromAddress
  target : SameAddress sha256 toLowerCase r.network r.toAddress r'.toAddress

/-- Two addresses that differ on the chain and only by case. -/
def Confused (network a b : String) : Prop :=
  (CaseSensitive sha256 network a ∨ CaseSensitive sha256 network b) ∧ a ≠ b ∧
    toLowerCase a = toLowerCase b

/-- Two requests that agree but for the case of their addresses. -/
structure SameFolded (r r' : SigningRequest) : Prop where
  id_eq : r.id = r'.id
  network_eq : r.network = r'.network
  asset_eq : r.asset = r'.asset
  amount_eq : r.amount = r'.amount
  requestedBy_eq : r.requestedBy = r'.requestedBy
  requestedAt_eq : r.requestedAt = r'.requestedAt
  source : toLowerCase r.fromAddress = toLowerCase r'.fromAddress
  target : toLowerCase r.toAddress = toLowerCase r'.toAddress

/-- Requests for different payments that differ only by the case of a case-sensitive address. -/
def MistakenFor (r r' : SigningRequest) : Prop :=
  SameFolded toLowerCase r r' ∧
    (Confused sha256 toLowerCase r.network r.fromAddress r'.fromAddress ∨
      Confused sha256 toLowerCase r.network r.toAddress r'.toAddress)

end Meaning

variable {sha256 : List UInt8 → List UInt8} {toLowerCase : String → String}
  {r r' : SigningRequest}

theorem sameAddress_iff {network a b : String} : SameAddress sha256 toLowerCase network a b ↔
    toLowerCase a = toLowerCase b ∧ ¬Confused sha256 toLowerCase network a b := by
  unfold SameAddress Confused
  split_ifs with hsensitive
  · by_cases hab : a = b
    · simp [hab]
    · simp [hsensitive, hab]
  · simp [hsensitive]

theorem not_confused_evm {network a b : String} {n : Network}
    (hname : networkNamed network = some n)
    (hfamily : (getNetworkConfig n).family = .evm) :
    ¬Confused sha256 toLowerCase network a b := by
  have hnot : ∀ address, ¬CaseSensitive sha256 network address := by
    rintro address ⟨m, hm, hbitcoin, -⟩
    obtain rfl := Option.some.inj (hname.symm.trans hm)
    rw [hfamily] at hbitcoin
    cases hbitcoin
  exact fun h => h.1.elim (hnot a) (hnot b)

theorem sameRequest_iff : SameRequest sha256 toLowerCase r r' ↔
    SameFolded toLowerCase r r' ∧ ¬MistakenFor sha256 toLowerCase r r' := by
  constructor
  · intro h
    have hsource := sameAddress_iff.1 h.source
    have htarget := sameAddress_iff.1 h.target
    refine ⟨⟨h.id_eq, h.network_eq, h.asset_eq, h.amount_eq, h.requestedBy_eq, h.requestedAt_eq,
      hsource.1, htarget.1⟩, ?_⟩
    rintro ⟨-, hconfused | hconfused⟩
    · exact hsource.2 hconfused
    · exact htarget.2 hconfused
  · rintro ⟨h, hnot⟩
    refine ⟨h.id_eq, h.network_eq, h.asset_eq, h.amount_eq, h.requestedBy_eq, h.requestedAt_eq,
      sameAddress_iff.2 ⟨h.source, ?_⟩, sameAddress_iff.2 ⟨h.target, ?_⟩⟩
    · exact fun hconfused => hnot ⟨h, .inl hconfused⟩
    · exact fun hconfused => hnot ⟨h, .inr hconfused⟩

/-- A digest determines the request up to the case of its addresses. -/
theorem canonicalDigest_eq_iff (hsha : Function.Injective sha256) :
    canonicalDigest sha256 toLowerCase r = canonicalDigest sha256 toLowerCase r' ↔
      SameFolded toLowerCase r r' := by
  have hvalues : canonicalDigest sha256 toLowerCase r = canonicalDigest sha256 toLowerCase r' ↔
      digestValues toLowerCase r = digestValues toLowerCase r' := by
    constructor
    · intro h
      have hcanonical := String.toList_injective (Utf8.encode_injective (hsha h))
      have hlength : ∀ r, (digestValues toLowerCase r).length = digestKeys.length := fun _ => rfl
      exact Json.object_inj (hlength r) (hlength r') hcanonical
    · intro h
      rw [canonicalDigest, canonicalDigest, h]
  rw [hvalues]
  constructor
  · intro h
    simp only [digestValues, List.cons.injEq, and_true] at h
    obtain ⟨hid, hnetwork, hasset, hsource, htarget, hamount, hby, htime⟩ := h
    have hunits := Separated.toString_injective (congrArg String.toList hamount)
    exact ⟨hid, hnetwork, hasset, Int.ofNat.inj hunits, hby, Calendar.isoString_injective htime,
      hsource, htarget⟩
  · intro h
    rw [digestValues, digestValues, h.id_eq, h.network_eq, h.asset_eq, h.amount_eq,
      h.requestedBy_eq, h.requestedAt_eq, h.source, h.target]

/-! ## Binding -/

open PrismaApprovalStore

/-- Two digests are equal exactly when the requests are for one payment, unless the one is mistaken
for the other; and a stored request keeps its digest. -/
theorem digests_bind (sha256 : List UInt8 → List UInt8) (toLowerCase : String → String)
    (hsha : Function.Injective sha256) :
    (∀ r r', (canonicalDigest sha256 toLowerCase r = canonicalDigest sha256 toLowerCase r' ↔
        SameRequest sha256 toLowerCase r r') ↔ ¬MistakenFor sha256 toLowerCase r r') ∧
    ∀ accepts r entries, (∀ entry ∈ entries, entry.request.id = r.id → entry.request = r) →
      ∃ found, PrismaApprovalStore.get (saveAll accepts (fun _ => none) entries) r.id = .ok found ∧
        (∀ entry ∈ found, canonicalDigest sha256 toLowerCase entry.request =
          canonicalDigest sha256 toLowerCase r) ∧
        ((∃ entry ∈ entries, entry.request.id = r.id ∧ accepts (toRow entry) = true) →
          found.isSome = true) := by
  constructor
  · intro r r'
    rw [canonicalDigest_eq_iff hsha, sameRequest_iff]
    constructor
    · intro h hmistaken
      exact (h.1 hmistaken.1).2 hmistaken
    · intro hnot
      exact ⟨fun h => ⟨h, hnot⟩, fun h => h.1⟩
  · intro accepts r entries hentries
    unfold PrismaApprovalStore.get
    cases hrow : saveAll accepts (fun _ => none) entries r.id with
    | none =>
      refine ⟨none, rfl, nofun, ?_⟩
      rintro ⟨entry, hentry, hid, haccepts⟩
      have hsome : (saveAll accepts (fun _ => none) entries r.id).isSome = true :=
        saveAll_isSome (.inr ⟨entry, hentry, hid, haccepts⟩)
      rw [hrow] at hsome
      cases hsome
    | some row =>
      rcases saveAll_cases hrow with hnone | ⟨entry, hentry, hid, rfl⟩
      · cases hnone
      · refine ⟨some entry, ?_, ?_, fun _ => rfl⟩
        · dsimp only
          rw [toDomain_toRow]
          rfl
        · intro found hfound
          cases hfound
          rw [hentries entry hentry hid]

/-! ## Two requests -/

namespace Treasury

def payout : SigningRequest where
  id := "req_1"
  merchantId := "mch_1"
  network := "ETHEREUM"
  asset := "USDT"
  fromAddress := "0xHotWallet"
  toAddress := "0xallowed"
  amount := 1000000
  requestedBy := "usr_requester"
  requestedAt := 1767225600000

/-- The digest of the payout. -/
def payoutDigest : List UInt8 :=
  [92, 197, 56, 18, 246, 221, 232, 34, 34, 67, 205, 12, 113, 108, 72, 49, 199, 203, 94, 31, 176,
    198, 157, 16, 106, 103, 28, 173, 136, 153, 180, 170]

def payoutText : String :=
  Json.object (digestKeys.zip (digestValues PaymentGateway.toLowerCase payout))

/-- A hash that is right about the payout. -/
def sampleHash : List UInt8 → List UInt8 :=
  Equiv.swap (Utf8.encode payoutText.toList) payoutDigest

/-- On Ethereum the case of an address does not count. -/
theorem digests_bind_payout :
    canonicalDigest sampleHash PaymentGateway.toLowerCase payout = payoutDigest ∧
    (canonicalDigest sampleHash PaymentGateway.toLowerCase payout =
        canonicalDigest sampleHash PaymentGateway.toLowerCase
          { payout with toAddress := "0xALLOWED" } ↔
      SameRequest sampleHash PaymentGateway.toLowerCase payout
        { payout with toAddress := "0xALLOWED" }) := by
  refine ⟨Equiv.swap_apply_left _ _,
    ((digests_bind sampleHash PaymentGateway.toLowerCase (Equiv.injective _)).1 payout
      { payout with toAddress := "0xALLOWED" }).2 ?_⟩
  have hname : networkNamed payout.network = some .ethereum := by decide
  rintro ⟨-, hconfused | hconfused⟩
  · exact not_confused_evm hname rfl hconfused
  · exact not_confused_evm hname rfl hconfused

/-- The output script that a legacy address names, with its version. -/
def legacyPayload : List UInt8 :=
  [0, 98, 233, 7, 177, 92, 191, 39, 213, 66, 83, 153, 235, 246, 240, 251, 80, 235, 184, 143, 24]

def legacyPayout : SigningRequest :=
  { payout with network := "BITCOIN", asset := "BTC", fromAddress := "bc1hot",
                toAddress := "1A1zP1eP5QGefi2DMPTfTL5SLmv7DivfNa" }

/-- The same letters in another case. -/
def foldedPayout : SigningRequest :=
  { legacyPayout with toAddress := "1a1zp1ep5qgefi2dmptftl5slmv7divfna" }

/-- A hash that is right about the checksum of the legacy address. -/
def checksumHash : Equiv.Perm (List UInt8) :=
  (Equiv.swap [] [194, 155, 125, 147]).trans (Equiv.swap legacyPayload [])

/-- A signature for a payment to a legacy address is one for a payment to its lower case, whatever
hash gives the address its checksum. -/
theorem digests_confused :
    (Function.Injective checksumHash ∧
      (doubleSha256 checksumHash legacyPayload).take 4 = [194, 155, 125, 147]) ∧
    ∀ sha256 : List UInt8 → List UInt8,
      (doubleSha256 sha256 legacyPayload).take 4 = [194, 155, 125, 147] →
      canonicalDigest sha256 PaymentGateway.toLowerCase legacyPayout =
          canonicalDigest sha256 PaymentGateway.toLowerCase foldedPayout ∧
        ¬SameRequest sha256 PaymentGateway.toLowerCase legacyPayout foldedPayout := by
  refine ⟨⟨checksumHash.injective, by decide⟩, fun sha256 hchecksum => ?_⟩
  have hdecode : base58Decode legacyPayout.toAddress.toList =
      some (legacyPayload ++ [194, 155, 125, 147]) := by decide +kernel
  have hvalid : isValidBase58Check sha256 legacyPayout.toAddress .mainnet = true := by
    unfold isValidBase58Check
    rw [hdecode]
    dsimp only
    have hpayload : (legacyPayload ++ [194, 155, 125, 147]).take 21 = legacyPayload := rfl
    rw [hpayload, hchecksum]
    rfl
  have hfolded : PaymentGateway.toLowerCase legacyPayout.toAddress =
      PaymentGateway.toLowerCase foldedPayout.toAddress := by decide
  constructor
  · have hvalues : digestValues PaymentGateway.toLowerCase legacyPayout =
        digestValues PaymentGateway.toLowerCase foldedPayout := by
      rw [digestValues, digestValues, hfolded]
      rfl
    rw [canonicalDigest, canonicalDigest, hvalues]
  · intro hsame
    have hname : networkNamed legacyPayout.network = some .bitcoin := by decide
    have hkind : networkKind .bitcoin = .mainnet := rfl
    have hsensitive : CaseSensitive sha256 legacyPayout.network legacyPayout.toAddress :=
      ⟨.bitcoin, hname, rfl, by rw [hkind, hvalid]⟩
    have hne : legacyPayout.toAddress ≠ foldedPayout.toAddress := by decide
    have hconfused : Confused sha256 PaymentGateway.toLowerCase legacyPayout.network
        legacyPayout.toAddress foldedPayout.toAddress := ⟨.inl hsensitive, hne, hfolded⟩
    obtain ⟨hagree, hnot⟩ := sameRequest_iff.1 hsame
    exact hnot ⟨hagree, .inr hconfused⟩

end Treasury

end Signing

end PaymentGateway
