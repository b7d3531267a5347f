import Mathlib.Data.List.Infix
import PaymentGateway.Blockchain.Destination
import PaymentGateway.Monitor.Scanner
import PaymentGateway.System.Pool

/-!
# Deposit addresses

A merchant registers an address in some spelling. The gateway looks payments up under the form in
which the adapters report them.

**Theorem (`registered_spelling`).** The form that an accepted address is stored in is the one that
its payments are reported in and the one that the scanner compares, so that every payment is matched
to it, if and only if the address is not a Bech32 address in upper case: a Bitcoin address is stored
as it is written. Another spelling of a registered address, not in upper case either, is refused at
any later time.

A destination has one reported form, and apart from the exception the service stores that form.
-/

namespace PaymentGateway

open BitcoinAddress BitcoinRpcAdapter Keyed

namespace AddressesService

/-! ## Registration -/

structure MerchantContext where
  merchantId : String
  livemode : Bool
  deriving DecidableEq, Repr

structure RegisterAddress where
  network : String
  asset : String
  address : String
  deriving DecidableEq, Repr

section Hashes

variable (keccak256 sha256 : List UInt8 → List UInt8)

/-- An EVM address is lowercased; a Bitcoin address is kept as it is written. -/
def validateAndNormalize (family : NetworkFamily) (address : String) (network : Network) :
    Except Error String :=
  match family with
  | .evm =>
    if !isStructurallyValidEvmAddress address then
      .error (.app 400 ("\"" ++ address ++ "\" is not a well-formed address for this network"))
    else if !isValidEvmAddress keccak256 address then
      .error (.app 400 ("\"" ++ address ++ "\" has an invalid EIP-55 checksum - check for a typo"))
    else
      (normalizeEvmAddress address).mapError ParseFailure.toError
  | .bitcoin =>
    let bitcoinNetwork : BitcoinNetworkKind :=
      if "TESTNET".toList <:+: network.name.toList then .testnet else .mainnet
    if !isValidBitcoinAddress sha256 address bitcoinNetwork then
      .error (.app 400
        ("\"" ++ address ++ "\" is not a valid Bitcoin " ++ bitcoinNetwork.name ++ " address"))
    else
      .ok address

/-- What a request that passes every check registers. -/
structure Registration where
  network : Network
  asset : AssetConfig
  normalized : String
  deriving DecidableEq, Repr

/-- The checks before the insertion. -/
def accept (merchant : MerchantContext) (dto : RegisterAddress) : Except Error Registration :=
  match networkNamed (toUpperCase dto.network) with
  | none => .error (.app 400 ("unsupported network: " ++ dto.network))
  | some network => do
    let networkConfig := getNetworkConfig network
    assertNetworkMatchesLivemode merchant.livemode networkConfig
    let assetSymbol := toUpperCase dto.asset
    match ((findAsset network assetSymbol).or (findNativeAsset network)).filter
        (·.symbol = assetSymbol) with
    | none => .error (.app 400
        ("asset " ++ assetSymbol ++ " is not supported on " ++ networkConfig.displayName))
    | some asset => do
      let normalized ←
        validateAndNormalize keccak256 sha256 networkConfig.family dto.address network
      return ⟨network, asset, normalized⟩

def register (merchant : MerchantContext) (dto : RegisterAddress) (now : Int) (db : Db) :
    Except Error Db := do
  let r ← accept keccak256 sha256 merchant dto
  (Environment.registerAddress merchant.merchantId ⟨r.network, r.normalized⟩ dto.address
    (some r.asset.symbol) now db).mapError fun e =>
      if e = .uniqueViolation "PaymentAddress" then
        .conflict ("address " ++ dto.address ++ " is already registered on " ++
          (getNetworkConfig r.network).displayName)
      else e

end Hashes

variable {keccak256 sha256 : List UInt8 → List UInt8}

/-- A Bech32 address in upper case. -/
def IsUpperCaseBech32 (sha256 : List UInt8 → List UInt8) (network : Network) (address : String) :
    Prop :=
  (getNetworkConfig network).family = .bitcoin ∧
    isValidBase58Check sha256 address (networkKind network) = false ∧
    address.toList.map lowerChar ≠ address.toList

/-! ## What an accepted request stores -/

theorem accept_eq_ok {merchant : MerchantContext} {dto : RegisterAddress} {r : Registration}
    (h : accept keccak256 sha256 merchant dto = .ok r) :
    validateAndNormalize keccak256 sha256 (getNetworkConfig r.network).family dto.address
      r.network = .ok r.normalized := by
  unfold accept at h
  split at h
  · cases h
  · next network hnetwork =>
    obtain ⟨_, -, h⟩ := Fallible.bind_eq_ok.1 h
    dsimp only at h
    split at h
    · cases h
    · obtain ⟨normalized, hnormalized, h⟩ := Fallible.bind_eq_ok.1 h
      cases h
      exact hnormalized

/-- The service and the adapter agree on which of the two networks is meant. -/
theorem bitcoinNetwork_eq {network : Network}
    (hfamily : (getNetworkConfig network).family = .bitcoin) :
    (if "TESTNET".toList <:+: network.name.toList then BitcoinNetworkKind.testnet else .mainnet) =
      networkKind network := by
  cases network <;> first | decide | cases hfamily

/-- An accepted address names a destination. It is stored as the adapters report it, a Bech32
address in upper case apart, which is stored as it is. -/
theorem validateAndNormalize_eq_ok {network : Network} {address normalized : String}
    (h : validateAndNormalize keccak256 sha256 (getNetworkConfig network).family address network =
      .ok normalized) :
    (destination sha256 network address).isSome = true ∧
      (reportedForm sha256 network address = normalized ↔
        ¬IsUpperCaseBech32 sha256 network address) := by
  unfold IsUpperCaseBech32 reportedForm
  cases hfamily : (getNetworkConfig network).family with
  | evm =>
    rw [hfamily] at h
    unfold validateAndNormalize at h
    dsimp only at h
    split_ifs at h with hinvalid
    have hvalid : isStructurallyValidEvmAddress address = true := by simpa using hinvalid
    rw [normalizeEvmAddress_of_valid hvalid] at h
    cases h
    unfold destination
    simp [hfamily, hvalid]
  | bitcoin =>
    rw [hfamily] at h
    unfold validateAndNormalize at h
    simp only [bitcoinNetwork_eq hfamily] at h
    split_ifs at h with hinvalid
    cases h
    refine ⟨(isValidBitcoinAddress_iff hfamily).1 (by simpa using hinvalid), ?_⟩
    cases hbase : isValidBase58Check sha256 address (networkKind network) with
    | true => simp
    | false =>
      have hsame : String.ofList (address.toList.map lowerChar) = address ↔
          address.toList.map lowerChar = address.toList := by
        rw [← String.toList_inj, String.toList_ofList]
      simpa using hsame

/-- No Bitcoin address begins as an EVM address does. -/
theorem normalizeForTracking_bitcoin {network : Network} {address : String}
    (hfamily : (getNetworkConfig network).family = .bitcoin)
    (h : (destination sha256 network address).isSome = true) :
    normalizeForTracking address = address := by
  unfold normalizeForTracking
  refine if_neg fun hbegins => ?_
  obtain ⟨rest, hrest⟩ : ∃ rest, address.toList = '0' :: rest := by
    obtain ⟨rest, hrest⟩ := List.isPrefixOf_iff_prefix.1 hbegins
    exact ⟨_, hrest.symm⟩
  obtain ⟨x, hx⟩ := Option.isSome_iff_exists.1 h
  unfold destination at hx
  rw [hfamily] at hx
  dsimp only at hx
  split_ifs at hx
  · rw [hrest] at hx
    cases hx
  · obtain ⟨d, hd, -⟩ := Option.map_eq_some_iff.1 hx
    obtain ⟨hdecode, hhrp⟩ := Option.filter_eq_some_iff.1 hd
    obtain ⟨dataPart, hsplit, -⟩ := bech32Decode_eq_some hdecode
    rw [hrest, of_decide_eq_true hhrp] at hsplit
    cases hkind : networkKind network <;> rw [hkind] at hsplit <;> cases hsplit

/-- What is stored is compared as it is. -/
theorem normalizeForTracking_stored {network : Network} {address normalized : String}
    (h : validateAndNormalize keccak256 sha256 (getNetworkConfig network).family address network =
      .ok normalized) : normalizeForTracking normalized = normalized := by
  have hnamed := (validateAndNormalize_eq_ok h).1
  cases hfamily : (getNetworkConfig network).family with
  | evm =>
    rw [hfamily] at h
    unfold validateAndNormalize at h
    dsimp only at h
    split_ifs at h
    have hlower := (normalizeEvmAddress_eq_ok (Fallible.mapError_eq_ok.1 h)).2.2
    unfold normalizeForTracking
    rw [hlower, ite_self]
  | bitcoin =>
    rw [hfamily] at h
    unfold validateAndNormalize at h
    dsimp only at h
    split_ifs at h
    all_goals
      cases h
      exact normalizeForTracking_bitcoin hfamily hnamed

/-- What is stored is an address to the adapter. -/
theorem validateAddress_stored {network : Network} {address normalized : String}
    {chain : ChainNode} (hfamily : (getNetworkConfig network).family = chain.family)
    (h : validateAndNormalize keccak256 sha256 (getNetworkConfig network).family address network =
      .ok normalized) : (chain.adapter sha256 network).validateAddress normalized = true := by
  have hnamed := (validateAndNormalize_eq_ok h).1
  cases chain with
  | evm node =>
    rw [hfamily] at h
    unfold validateAndNormalize at h
    dsimp only [ChainNode.family] at h
    split_ifs at h
    exact (normalizeEvmAddress_eq_ok (Fallible.mapError_eq_ok.1 h)).2.1
  | bitcoin node =>
    rw [hfamily] at h
    unfold validateAndNormalize at h
    dsimp only [ChainNode.family] at h
    split_ifs at h
    all_goals
      cases h
      exact (isValidBitcoinAddress_iff hfamily).2 hnamed

/-! ## Matching -/

/-- Every payment to the destination of an address is reported under what is stored for it. -/
def AsReported (sha256 : List UInt8 → List UInt8) (network : Network) (address stored : String) :
    Prop :=
  ∀ (chain : ChainNode) (hash paid : String) (index : Int),
    (getNetworkConfig network).family = chain.family → chain.Pays hash index paid →
    destination sha256 network paid = destination sha256 network address →
    ChainNode.Reports (chain.adapter sha256 network) hash index stored

/-- The address of a transfer is looked up under its form and, once it serves or has served an
invoice, tracked under it. -/
def Found (adapter : BlockchainAdapter) (network : Network) (row : PaymentAddress) (db : Db)
    (t : ParsedTransfer) : Prop :=
  db.findAddress network t.toAddress = some row ∧
    (row.status = .assigned ∨ row.status = .retired →
      normalizeForTracking t.toAddress ∈
        ChainScanner.trackedOf adapter.validateAddress network db)

/-- The three places that normalise addresses agree on one, and every payment to it is matched to
its row. -/
structure Matched (sha256 : List UInt8 → List UInt8) (network : Network)
    (address stored : String) : Prop where
  reported : AsReported sha256 network address stored
  compared : normalizeForTracking stored = stored
  found : ∀ (chain : ChainNode) (hash paid : String) (index : Int) (db : Db)
    (row : PaymentAddress), (getNetworkConfig network).family = chain.family →
    chain.Pays hash index paid →
    destination sha256 network paid = destination sha256 network address →
    db.findAddress network stored = some row →
    ∃ transfers, (chain.adapter sha256 network).getTransfers hash = .ok transfers ∧
      ∃ t ∈ transfers, t.transferIndex = index ∧
        Found (chain.adapter sha256 network) network row db t

def payingTx (address : String) : BitcoinTx := ⟨"tx", [⟨5000000, 0, some address, []⟩], rfl⟩

/-- The chain on which one output pays an address. -/
def payingNode (address : String) : BitcoinNode where
  blocks := [⟨0, "block", [payingTx address], by decide⟩]
  mempool := []
  heights_distinct := List.nodup_singleton _
  txids_distinct := List.nodup_singleton _

theorem pays_payingNode {address : String} (h : address ≠ "") :
    (ChainNode.bitcoin (payingNode address)).Pays "tx" 0 address := by
  have hexecuted : (⟨0, "block", [payingTx address], by decide⟩, payingTx address) ∈
      (payingNode address).executed := by
    simp [BitcoinNode.executed, payingNode]
  have hrecipient : (RawVout.mk 5000000 0 (some address) []).recipient = some address := by
    simp [RawVout.recipient, h]
  exact .output hexecuted List.mem_cons_self hrecipient

theorem asReported_iff {network : Network} {address stored : String}
    (h : validateAndNormalize keccak256 sha256 (getNetworkConfig network).family address network =
      .ok stored) :
    AsReported sha256 network address stored ↔ ¬IsUpperCaseBech32 sha256 network address := by
  obtain ⟨hnamed, hform⟩ := validateAndNormalize_eq_ok h
  rw [← hform]
  constructor
  · intro hreported
    by_contra hne
    have hupper : IsUpperCaseBech32 sha256 network address :=
      not_not.1 fun hnot => hne (hform.2 hnot)
    have hnonempty : address ≠ "" := by
      rintro rfl
      exact hupper.2.2 rfl
    have hpays := pays_payingNode hnonempty
    exact hne ((hpays.reported hupper.1 hnamed).form_eq
      (hreported _ _ _ _ hupper.1 hpays rfl))
  · rintro rfl chain hash paid index hfamily hpays hsame
    obtain ⟨x, hx⟩ := Option.isSome_iff_exists.1 hnamed
    have hpaid := hsame.trans hx
    rw [reportedForm_eq_of_destination hx hpaid]
    exact hpays.reported hfamily (by rw [hpaid, Option.isSome_some])

theorem matched_iff {network : Network} {address stored : String}
    (h : validateAndNormalize keccak256 sha256 (getNetworkConfig network).family address network =
      .ok stored) :
    Matched sha256 network address stored ↔ ¬IsUpperCaseBech32 sha256 network address := by
  constructor
  · intro hmatched
    exact (asReported_iff h).1 hmatched.reported
  · intro hcase
    have hreported := (asReported_iff h).2 hcase
    have hcompared := normalizeForTracking_stored h
    refine ⟨hreported, hcompared, ?_⟩
    intro chain hash paid index db row hfamily hpays hsame hrow
    obtain ⟨transfers, hok, t, ht, hindex, rfl, -⟩ :=
      hreported chain hash paid index hfamily hpays hsame
    refine ⟨transfers, hok, t, ht, hindex, hrow, fun hstatus => ?_⟩
    have hkey : row.key = ⟨network, t.toAddress⟩ := Table.key_of_find? hrow
    have hwatched : row ∈ db.addresses.rows.filter fun a => a.key.network = network ∧
        (a.status = .assigned ∨ a.status = .retired) := by
      refine List.mem_filter.2 ⟨Table.mem_of_find? hrow, ?_⟩
      simpa [hkey] using hstatus
    unfold ChainScanner.trackedOf
    rw [List.mem_eraseDups, List.mem_filter, List.mem_map]
    refine ⟨⟨row, hwatched, by rw [hkey]⟩, ?_⟩
    rw [hcompared]
    exact validateAddress_stored hfamily h

/-! ## The second registration -/

/-- An address that is registered stays registered. -/
theorem registered_kept {key : AddressKey} {db db' : Db}
    (h : gateway.Reachable (fun _ => True) (fun _ _ => True) db db')
    (hfind : (db.addresses.find? key).isSome = true) :
    (db'.addresses.find? key).isSome = true := by
  have hany : ∀ op s, True → ∀ t, Except.ok t ∈ gateway.script op s → True :=
    fun _ _ _ _ _ => trivial
  refine h.invariant (P := fun x => (x.addresses.find? key).isSome = true) hany hfind ?_
  intro t a b _ ha _ hok
  have hrow := Transaction.addressStep hok key
  generalize a.addresses.find? key = old at ha hrow
  generalize b.addresses.find? key = new at hrow
  cases hrow with
  | same => exact ha
  | registered => rfl
  | assigned => rfl
  | retired => rfl

/-- The answer to an address that is there. -/
def alreadyRegistered (network : Network) (address : String) : Error :=
  .conflict ("address " ++ address ++ " is already registered on " ++
    (getNetworkConfig network).displayName)

theorem register_of_registered {merchant : MerchantContext} {dto : RegisterAddress}
    {r : Registration} {now : Int} {db : Db} (h : accept keccak256 sha256 merchant dto = .ok r)
    (hfind : (db.addresses.find? ⟨r.network, r.normalized⟩).isSome = true) :
    register keccak256 sha256 merchant dto now db =
      .error (alreadyRegistered r.network dto.address) := by
  obtain ⟨row, hrow⟩ := Option.isSome_iff_exists.1 hfind
  have hclash : Environment.registerAddress merchant.merchantId ⟨r.network, r.normalized⟩
      dto.address (some r.asset.symbol) now db = .error (.uniqueViolation "PaymentAddress") := by
    unfold Environment.registerAddress
    split
    · rfl
    · next hfree =>
      rw [hfree] at hrow
      cases hrow
  unfold register
  rw [h, Fallible.bind_ok, hclash]
  rfl

theorem register_registers {merchant : MerchantContext} {dto : RegisterAddress}
    {r : Registration} {now : Int} {db db' : Db} (h : accept keccak256 sha256 merchant dto = .ok r)
    (hregister : register keccak256 sha256 merchant dto now db = .ok db') :
    (db'.addresses.find? ⟨r.network, r.normalized⟩).isSome = true := by
  unfold register at hregister
  rw [h, Fallible.bind_ok, Fallible.mapError_eq_ok] at hregister
  unfold Environment.registerAddress at hregister
  split at hregister
  · cases hregister
  · cases hregister
    rw [Table.find?_insert, if_pos rfl, Option.isSome_some]

/-- **Registered addresses meet the adapters' spelling**, unless they are Bech32 addresses in upper
case. -/
theorem registered_spelling {merchant : MerchantContext} {dto : RegisterAddress} {r : Registration}
    (h : accept keccak256 sha256 merchant dto = .ok r) :
    (Matched sha256 r.network dto.address r.normalized ↔
      ¬IsUpperCaseBech32 sha256 r.network dto.address) ∧
    (¬IsUpperCaseBech32 sha256 r.network dto.address →
      ∀ (now later : Int) (db registered db' : Db) (merchant' : MerchantContext)
        (dto' : RegisterAddress) (r' : Registration),
      register keccak256 sha256 merchant dto now db = .ok registered →
      gateway.Reachable (fun _ => True) (fun _ _ => True) registered db' →
      accept keccak256 sha256 merchant' dto' = .ok r' → r'.network = r.network →
      destination sha256 r.network dto'.address = destination sha256 r.network dto.address →
      ¬IsUpperCaseBech32 sha256 r.network dto'.address →
      r'.normalized = r.normalized ∧ register keccak256 sha256 merchant' dto' later db' =
        .error (alreadyRegistered r.network dto'.address)) := by
  have hvalid := accept_eq_ok h
  refine ⟨matched_iff hvalid, ?_⟩
  intro hcase now later db registered db' merchant' dto' r' hregister hreach h' hnetwork hsame
    hcase'
  have hvalid' := accept_eq_ok h'
  rw [hnetwork] at hvalid'
  obtain ⟨hnamed, hform⟩ := validateAndNormalize_eq_ok hvalid
  obtain ⟨-, hform'⟩ := validateAndNormalize_eq_ok hvalid'
  obtain ⟨x, hx⟩ := Option.isSome_iff_exists.1 hnamed
  have hstored : r'.normalized = r.normalized := by
    rw [← hform.2 hcase, ← hform'.2 hcase']
    exact reportedForm_eq_of_destination (hsame.trans hx) hx
  refine ⟨hstored, ?_⟩
  rw [← hnetwork]
  refine register_of_registered h' ?_
  rw [hnetwork, hstored]
  exact registered_kept hreach (register_registers h hregister)

namespace Shop

/-- No hash is asked about the addresses below. -/
def noHash (_ : List UInt8) : List UInt8 := []

def merchant : MerchantContext := ⟨"shop", true⟩

def lower : String := "bc1qw508d6qejxtdg4y5r3zarvary0c5xw7kv8f3t4"

def upper : String := "BC1QW508D6QEJXTDG4Y5R3ZARVARY0C5XW7KV8F3T4"

def btc : AssetConfig := ⟨"BTC", .bitcoin, none, 8, 2, 10000, true⟩

def registerBoth : Except Error Db := do
  let db ← register noHash noHash merchant ⟨"bitcoin", "btc", upper⟩ 0 Db.empty
  register noHash noHash merchant ⟨"bitcoin", "btc", lower⟩ 1 db

end Shop

theorem registered_spelling_lower :
    accept Shop.noHash Shop.noHash Shop.merchant ⟨"bitcoin", "btc", Shop.lower⟩ =
        .ok ⟨.bitcoin, Shop.btc, Shop.lower⟩ ∧
      Matched Shop.noHash .bitcoin Shop.lower Shop.lower := by
  have haccept : accept Shop.noHash Shop.noHash Shop.merchant ⟨"bitcoin", "btc", Shop.lower⟩ =
      .ok ⟨.bitcoin, Shop.btc, Shop.lower⟩ := by decide +kernel
  exact ⟨haccept, (registered_spelling haccept).1.2 fun h => h.2.2 (by decide +kernel)⟩

/-- Both spellings of one destination are registered, and a payment to it is reported under an
address that is not the first one's. -/
theorem upper_case_unmatched :
    accept Shop.noHash Shop.noHash Shop.merchant ⟨"bitcoin", "btc", Shop.upper⟩ =
        .ok ⟨.bitcoin, Shop.btc, Shop.upper⟩ ∧
      destination Shop.noHash .bitcoin Shop.upper = destination Shop.noHash .bitcoin Shop.lower ∧
      (Shop.registerBoth.toOption.map fun db => db.addresses.rows.map (·.key.addressNormalized)) =
        some [Shop.upper, Shop.lower] ∧
      (ChainNode.bitcoin (payingNode Shop.lower)).Pays "tx" 0 Shop.lower ∧
      ((bitcoinAdapter Shop.noHash .bitcoin (payingNode Shop.lower)).getTransfers "tx").toOption =
        some [⟨0, none, none, Shop.lower, 5000000⟩] ∧
      (((register Shop.noHash Shop.noHash Shop.merchant ⟨"bitcoin", "btc", Shop.upper⟩ 0
        Db.empty).toOption.map fun db => db.findAddress .bitcoin Shop.lower)) = some none ∧
      ¬Matched Shop.noHash .bitcoin Shop.upper Shop.upper := by
  have haccept : accept Shop.noHash Shop.noHash Shop.merchant ⟨"bitcoin", "btc", Shop.upper⟩ =
      .ok ⟨.bitcoin, Shop.btc, Shop.upper⟩ := by decide +kernel
  have hcase : IsUpperCaseBech32 Shop.noHash .bitcoin Shop.upper :=
    ⟨by decide, by decide +kernel, by decide +kernel⟩
  refine ⟨haccept, by decide +kernel, by decide +kernel, pays_payingNode (by decide),
    by decide +kernel, by decide +kernel, ?_⟩
  exact fun h => (matched_iff (accept_eq_ok haccept)).1 h hcase

end AddressesService

end PaymentGateway
