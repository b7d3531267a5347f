import PaymentGateway.Blockchain.EvmAdapter
import PaymentGateway.Blockchain.Spelling
import PaymentGateway.Shared.Network

/-!
# Destinations and the form that reports them

A payment goes to a destination, which has more than one spelling. An adapter reports all of them in
one form, `reportedForm`: two spellings of a destination have the same form
(`reportedForm_eq_of_destination`), and a payment is reported under the form of the address it names
(`ChainNode.Pays.reported`).
-/

namespace PaymentGateway

open BitcoinAddress BitcoinRpcAdapter EvmJsonRpcAdapter

/-! ## The checksum of an EVM address -/

section Checksum

variable (keccak256 : List UInt8 → List UInt8)

/-- A digit of the hexadecimal form of bytes. -/
def hexDigitAt (bytes : List UInt8) (i : Nat) : Option Nat :=
  bytes[i / 2]?.map fun b => if i % 2 = 0 then b.toNat / 16 else b.toNat % 16

/-- The case of each digit encodes a bit of the hash. -/
def checksummed (lower : List Char) : List Char :=
  let hash := keccak256 (lower.map fun c => UInt8.ofNat c.toNat)
  lower.zipIdx.map fun p => if (hexDigitAt hash p.2).any (8 ≤ ·) then p.1.toUpper else p.1

def toChecksumAddress (address : String) : Except ParseFailure String :=
  if !isStructurallyValidEvmAddress address then
    .error (.plain ("not a structurally valid EVM address: " ++ address))
  else
    .ok (String.ofList
      ('0' :: 'x' :: checksummed keccak256 ((address.toList.drop 2).map Char.toLower)))

/-- In one case or correctly checksummed. -/
def isValidEvmAddress (address : String) : Bool :=
  if !isStructurallyValidEvmAddress address then false
  else
    let body := address.toList.drop 2
    if body = body.map Char.toLower ∨ body = body.map Char.toUpper then true
    else decide ((toChecksumAddress keccak256 address).toOption = some address)

end Checksum

/-! ## Destinations -/

/-- Whom a payment reaches: an account by its number, or whoever can spend an output. -/
inductive Destination
  | account (value : Nat)
  | legacy (payload : List UInt8)
  | segwit (decoded : Bech32Decoded)
  deriving DecidableEq, Repr

section Forms

variable (sha256 : List UInt8 → List UInt8) (network : Network)

/-- What an address names, if it is one. -/
def destination (address : String) : Option Destination :=
  match (getNetworkConfig network).family with
  | .evm =>
    if isStructurallyValidEvmAddress address then
      some (.account (Hex.value (address.toList.drop 2)))
    else none
  | .bitcoin =>
    if isValidBase58Check sha256 address (networkKind network) then
      (base58Decode address.toList).map .legacy
    else
      ((bech32Decode address.toList).filter fun d =>
        d.hrp = humanReadablePart (networkKind network)).map .segwit

/-- The form in which an adapter of the network reports the address. -/
def reportedForm (address : String) : String :=
  match (getNetworkConfig network).family with
  | .evm => toLowerCase address
  | .bitcoin =>
    if isValidBase58Check sha256 address (networkKind network) then address
    else String.ofList (address.toList.map lowerChar)

end Forms

variable {sha256 : List UInt8 → List UInt8} {network : Network}

/-- A Bitcoin address is valid if and only if it names a destination. -/
theorem isValidBitcoinAddress_iff {address : String}
    (hfamily : (getNetworkConfig network).family = .bitcoin) :
    isValidBitcoinAddress sha256 address (networkKind network) = true ↔
      (destination sha256 network address).isSome = true := by
  have hbase : isValidBase58Check sha256 address (networkKind network) = true →
      (base58Decode address.toList).isSome = true := by
    intro h
    unfold isValidBase58Check at h
    split at h
    · cases h
    · next decoded hdecoded => rw [hdecoded, Option.isSome_some]
  unfold isValidBitcoinAddress destination
  rw [hfamily]
  dsimp only
  by_cases hlength : address.length = 0
  · obtain rfl : address = "" := by simpa using hlength
    have hnotBase : isValidBase58Check sha256 "" (networkKind network) = false := rfl
    have hnotSegwit : bech32Decode [] = none := by decide
    simp [hnotBase, hnotSegwit]
  · by_cases hvalid : isValidBase58Check sha256 address (networkKind network) = true
    · simpa [hlength, hvalid] using hbase hvalid
    · simp [hlength, hvalid, isValidSegwit]

theorem normalizeBitcoinAddress_of_destination {address : String}
    (hfamily : (getNetworkConfig network).family = .bitcoin)
    (h : (destination sha256 network address).isSome = true) :
    normalizeBitcoinAddress sha256 address (networkKind network) =
      .ok (reportedForm sha256 network address) := by
  unfold normalizeBitcoinAddress reportedForm
  rw [(isValidBitcoinAddress_iff hfamily).2 h, hfamily]
  dsimp only
  by_cases hbase : isValidBase58Check sha256 address (networkKind network) = true
  · simp [hbase]
  · simp [hbase]

/-- **One destination has one form.** -/
theorem reportedForm_eq_of_destination {a b : String} {x : Destination}
    (ha : destination sha256 network a = some x) (hb : destination sha256 network b = some x) :
    reportedForm sha256 network a = reportedForm sha256 network b := by
  unfold destination at ha hb
  unfold reportedForm
  cases hfamily : (getNetworkConfig network).family with
  | evm =>
    simp only [hfamily, Option.ite_none_right_eq_some, Option.some.injEq] at ha hb ⊢
    obtain ⟨hvalid, rfl⟩ := ha
    obtain ⟨hvalid', hvalue⟩ := hb
    obtain ⟨body, hbody, hlength, hdigits⟩ := Hex.isWord_iff.1 hvalid
    obtain ⟨body', hbody', hlength', hdigits'⟩ := Hex.isWord_iff.1 hvalid'
    rw [hbody, hbody'] at hvalue
    have hsame := Hex.map_toLower_eq_of_value_eq (hlength.trans hlength'.symm) hdigits hdigits'
      (Destination.account.inj hvalue).symm
    unfold toLowerCase
    rw [hbody, hbody']
    simp only [List.map_cons, hsame]
  | bitcoin =>
    simp only [hfamily] at ha hb ⊢
    by_cases hbase : isValidBase58Check sha256 a (networkKind network) = true <;>
      by_cases hbase' : isValidBase58Check sha256 b (networkKind network) = true
    · simp only [hbase, hbase', if_true, Option.map_eq_some_iff] at ha hb ⊢
      obtain ⟨bytes, hbytes, rfl⟩ := ha
      obtain ⟨bytes', hbytes', hsame⟩ := hb
      cases hsame
      exact String.toList_injective (base58Decode_inj hbytes hbytes')
    · simp only [hbase, hbase', if_true, if_false, Bool.false_eq_true,
        Option.map_eq_some_iff] at ha hb
      obtain ⟨bytes, -, rfl⟩ := ha
      obtain ⟨d, -, hsame⟩ := hb
      cases hsame
    · simp only [hbase, hbase', if_true, if_false, Bool.false_eq_true,
        Option.map_eq_some_iff] at ha hb
      obtain ⟨d, -, rfl⟩ := ha
      obtain ⟨bytes, -, hsame⟩ := hb
      cases hsame
    · simp only [hbase, hbase', if_false, Bool.false_eq_true, Option.map_eq_some_iff,
        Option.filter_eq_some_iff] at ha hb ⊢
      obtain ⟨d, ⟨hd, -⟩, rfl⟩ := ha
      obtain ⟨d', ⟨hd', -⟩, hsame⟩ := hb
      cases hsame
      rw [bech32Decode_inj hd hd']

/-! ## Payments -/

/-- One moment of a chain of either family. -/
inductive ChainNode
  | evm (node : EvmNode)
  | bitcoin (node : BitcoinNode)

namespace ChainNode

def family : ChainNode → NetworkFamily
  | evm _ => .evm
  | bitcoin _ => .bitcoin

def adapter (sha256 : List UInt8 → List UInt8) (network : Network) : ChainNode → BlockchainAdapter
  | evm node => evmAdapter node
  | bitcoin node => bitcoinAdapter sha256 network node

/-- A transaction of the chain pays the address, which the chain spells so; the index tells its
payments apart. A log names its recipient in a topic, in either case. -/
inductive Pays : ChainNode → String → Int → String → Prop
  | native {node : EvmNode} {b : EvmBlock} {tx : ExecutedTx} {address : String}
      (executed : (b, tx) ∈ node.executed) (succeeded : tx.receipt.succeeded = true)
      (recipient : tx.to_ = some address) (positive : 0 < tx.value) :
      Pays (evm node) tx.hash (-1) address
  | token {node : EvmNode} {b : EvmBlock} {tx : ExecutedTx} {log : ReportedLog}
      {t : ParsedTransfer} {topic0 topic1 topic2 address : String}
      (executed : (b, tx) ∈ node.executed) (succeeded : tx.receipt.succeeded = true)
      (logged : log ∈ tx.receipt.logs) (transfer : log.transfer = some t)
      (topics : log.topics = [topic0, topic1, topic2])
      (recipient : addressToTopic address = .ok (toLowerCase topic2)) :
      Pays (evm node) tx.hash log.logIndex address
  | output {node : BitcoinNode} {b : BitcoinBlock} {tx : BitcoinTx} {vout : RawVout}
      {address : String} (executed : (b, tx) ∈ node.executed) (output : vout ∈ tx.vout)
      (recipient : vout.recipient = some address) :
      Pays (bitcoin node) tx.txid vout.n address

/-- An adapter reports a payment as the one transfer with its index, to the form. -/
def Reports (adapter : BlockchainAdapter) (hash : String) (index : Int) (form : String) : Prop :=
  ∃ transfers, adapter.getTransfers hash = .ok transfers ∧
    ∃ t ∈ transfers, t.transferIndex = index ∧ t.toAddress = form ∧
      ∀ t' ∈ transfers, t'.transferIndex = index → t' = t

theorem Reports.form_eq {adapter : BlockchainAdapter} {hash : String} {index : Int}
    {form form' : String} (h : Reports adapter hash index form)
    (h' : Reports adapter hash index form') : form = form' := by
  obtain ⟨transfers, hok, t, ht, hindex, rfl, honly⟩ := h
  obtain ⟨transfers', hok', t', ht', hindex', rfl, -⟩ := h'
  obtain rfl : transfers = transfers' := Except.ok.inj (hok.symm.trans hok')
  rw [honly t' ht' hindex']

theorem reports_of_nodup {adapter : BlockchainAdapter} {hash : String}
    {transfers : List ParsedTransfer} {t : ParsedTransfer}
    (hok : adapter.getTransfers hash = .ok transfers) (ht : t ∈ transfers)
    (hnodup : (transfers.map (·.transferIndex)).Nodup) :
    Reports adapter hash t.transferIndex t.toAddress := by
  refine ⟨transfers, hok, t, ht, rfl, rfl, fun t' ht' hindex => ?_⟩
  exact List.inj_on_of_nodup_map hnodup ht' ht hindex

/-- Addresses with one topic differ in case at most. -/
theorem toLowerCase_eq_of_topic {a b topic : String} (ha : addressToTopic a = .ok topic)
    (hb : addressToTopic b = .ok topic) : toLowerCase a = toLowerCase b := by
  have hdigits : ∀ {a : String}, addressToTopic a = .ok topic → ∃ body,
      (toLowerCase a).toList = '0' :: 'x' :: body ∧
        topic.toList = '0' :: 'x' :: addressPadding ++ body := by
    intro a ha
    unfold addressToTopic at ha
    cases hnormal : normalizeEvmAddress a with
    | error e =>
      rw [hnormal] at ha
      cases ha
    | ok lower =>
      obtain ⟨rfl, hvalid, -⟩ := normalizeEvmAddress_eq_ok hnormal
      obtain ⟨body, hbody, -⟩ := Hex.isWord_iff.1 hvalid
      rw [hnormal] at ha
      refine ⟨body, hbody, ?_⟩
      rw [← Except.ok.inj ha, String.toList_ofList, hbody]
      rfl
  obtain ⟨body, hlower, htopic⟩ := hdigits ha
  obtain ⟨body', hlower', htopic'⟩ := hdigits hb
  have hbody : body = body' := by simpa using htopic.symm.trans htopic'
  exact String.toList_injective (by rw [hlower, hlower', hbody])

theorem reports_evm {node : EvmNode} {b : EvmBlock} {tx : ExecutedTx} {t : ParsedTransfer}
    (executed : (b, tx) ∈ node.executed) (ht : t ∈ tx.transfers) :
    Reports (evmAdapter node) tx.hash t.transferIndex t.toAddress :=
  reports_of_nodup (Fallible.mapError_eq_ok.2 (getTransfers_eq executed)) ht
    ExecutedTx.transfers_nodup

/-- **A payment is reported under the form of the address it names.** -/
theorem Pays.reported {chain : ChainNode} {hash address : String} {index : Int}
    (h : chain.Pays hash index address)
    (hfamily : (getNetworkConfig network).family = chain.family)
    (hnamed : (destination sha256 network address).isSome = true) :
    Reports (chain.adapter sha256 network) hash index (reportedForm sha256 network address) := by
  have hevm : (getNetworkConfig network).family = .evm →
      reportedForm sha256 network address = toLowerCase address := by
    intro hfamily
    unfold reportedForm
    rw [hfamily]
  cases h with
  | @native _ _ tx _ executed succeeded recipient positive =>
    have hnative : tx.native = some ⟨-1, none, some (toLowerCase tx.from_), toLowerCase address,
        tx.value⟩ := by
      unfold ExecutedTx.native
      rw [recipient, Option.bind_some, if_neg positive.ne']
    have ht := List.mem_append_left (tx.receipt.logs.filterMap (·.transfer))
      (Option.mem_toList.2 hnative)
    rw [hevm hfamily]
    refine reports_evm executed (t := ⟨-1, none, some (toLowerCase tx.from_),
      toLowerCase address, tx.value⟩) ?_
    unfold ExecutedTx.transfers
    rw [if_pos succeeded]
    exact ht
  | @token _ _ tx log t topic0 topic1 topic2 _ executed succeeded logged transfer topics recipient =>
    obtain ⟨hindex, -, -, topic0', topic1', topic2', htopics, -, hto⟩ :=
      parseTransferLog_eq_some (ReportedLog.transfer_eq_some.1 transfer)
    obtain ⟨rfl, rfl, rfl⟩ : topic0 = topic0' ∧ topic1 = topic1' ∧ topic2 = topic2' := by
      simpa using topics.symm.trans htopics
    have hlower : t.toAddress = toLowerCase address := by
      have hword := log.topics_words topic2 (by rw [topics]; simp)
      rcases addressFromTopic_word hword with ⟨message, herror⟩ | ⟨lower, hok, hback⟩
      · rw [herror] at hto
        cases hto
      · obtain rfl : lower = t.toAddress := Except.ok.inj (hok.symm.trans hto)
        rw [← addressFromTopic_lower hto, toLowerCase_eq_of_topic hback recipient]
    rw [hevm hfamily, ← hlower, ← hindex]
    refine reports_evm executed ?_
    unfold ExecutedTx.transfers
    rw [if_pos succeeded]
    exact List.mem_append_right _ (List.mem_filterMap.2 ⟨log, logged, transfer⟩)
  | @output _ _ tx vout _ executed output recipient =>
    have htransfer : outputTransfer sha256 network vout =
        some ⟨vout.n, none, none, reportedForm sha256 network address, vout.value⟩ := by
      unfold outputTransfer
      rw [recipient, Option.bind_some, normalizeBitcoinAddress_of_destination hfamily hnamed]
    exact reports_of_nodup (congrArg Except.ok (BitcoinRpcAdapter.getTransfers_eq executed))
      (List.mem_filterMap.2 ⟨vout, output, htransfer⟩) (output_indices_nodup tx)

end ChainNode

end PaymentGateway
