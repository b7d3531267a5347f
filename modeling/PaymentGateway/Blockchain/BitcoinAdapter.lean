import PaymentGateway.Lib.Table
import PaymentGateway.Blockchain.BitcoinAddress

/-!
# The Bitcoin adapter

`BitcoinRpcAdapter` turns the answers of a Bitcoin Core node into transactions and transfers. Each
output that names an address the adapter recognises is a transfer of its own, whatever the amount
of the output. A node is what it knows (`BitcoinNode`): the blocks of its chain and its mempool.
Amounts count satoshis; the node writes them as decimal fractions of a coin, which
`btcToSatoshis` rounds back to the same count.
-/

namespace PaymentGateway

/-! ## The node -/

/-- An output: `address` is how newer versions of Bitcoin Core name its recipient, `addresses` how
older ones do. An output that nobody or everybody can spend has neither. -/
structure RawVout where
  value : Nat
  n : Nat
  address : Option String
  addresses : List String
  deriving DecidableEq, Repr

/-- The outputs of a transaction are numbered by their position. -/
structure BitcoinTx where
  txid : String
  vout : List RawVout
  numbered : vout.map (·.n) = List.range vout.length

structure BitcoinBlock where
  height : Nat
  hash : String
  transactions : List BitcoinTx
  hash_nonempty : hash ≠ ""

structure BitcoinNode where
  blocks : List BitcoinBlock
  mempool : List BitcoinTx
  heights_distinct : (blocks.map (·.height)).Nodup
  txids_distinct : ((blocks.flatMap (·.transactions)).map (·.txid)).Nodup

/-- The answer to `getrawtransaction`; the last two are absent in the mempool. -/
structure RawBitcoinTransaction where
  txid : String
  vout : List RawVout
  confirmations : Option Nat
  blockhash : Option String

namespace BitcoinNode

variable (node : BitcoinNode)

/-- `getblockcount`. -/
def blockCount : Nat := (node.blocks.map (·.height)).foldr max 0

/-- `getblockhash` and then `getblock`. -/
def blockAt (height : Nat) : Option BitcoinBlock := node.blocks.find? fun b => b.height = height

/-- Every transaction of the chain with its block. -/
def executed : List (BitcoinBlock × BitcoinTx) :=
  node.blocks.flatMap fun b => b.transactions.map fun tx => (b, tx)

def findExecuted (txid : String) : Option (BitcoinBlock × BitcoinTx) :=
  node.executed.find? fun p => p.2.txid = txid

/-- `getrawtransaction`. -/
def rawTransaction (txid : String) : Option RawBitcoinTransaction :=
  match node.findExecuted txid with
  | some (block, tx) =>
    some ⟨tx.txid, tx.vout, some (node.blockCount - block.height + 1), some block.hash⟩
  | none =>
    (node.mempool.find? fun tx => tx.txid = txid).map fun tx => ⟨tx.txid, tx.vout, none, none⟩

end BitcoinNode

/-- The recipient an output names; the empty string names nobody. -/
def RawVout.recipient (vout : RawVout) : Option String :=
  (vout.address.or vout.addresses.head?).filter (· ≠ "")

/-! ## The adapter -/

namespace BitcoinRpcAdapter

def networkKind (network : Network) : BitcoinNetworkKind :=
  if network = .bitcoin then .mainnet else .testnet

section Hash

variable (sha256 : List UInt8 → List UInt8) (network : Network)

/-- The transfer an output is, if its recipient is an address; an address that is not recognised
does not take the other outputs down with it. -/
def outputTransfer (vout : RawVout) : Option ParsedTransfer :=
  vout.recipient.bind fun address =>
    match normalizeBitcoinAddress sha256 address (networkKind network) with
    | .error _ => none
    | .ok normalized => some ⟨vout.n, none, none, normalized, vout.value⟩

/-- Nothing of a transaction that is not in a block yet. -/
def getTransfers (node : BitcoinNode) (hash : String) : List ParsedTransfer :=
  match node.rawTransaction hash with
  | none => []
  | some tx =>
    if tx.blockhash.any (· ≠ "") then tx.vout.filterMap (outputTransfer sha256 network) else []

end Hash

def toChainTransaction (tx : RawBitcoinTransaction) (chainTip : Nat) : ChainTransaction :=
  let confirmations := tx.confirmations.getD 0
  let blockNumber := if confirmations > 0 then some (chainTip + 1 - confirmations) else none
  { hash := tx.txid
    blockNumber
    blockHash := tx.blockhash
    status := if blockNumber ≠ none then .success else .pending
    fromAddress := none
    toAddress := tx.vout.findSome? (·.recipient)
    feeAmount := none
    confirmations }

def getTransaction (node : BitcoinNode) (hash : String) : Option ChainTransaction :=
  (node.rawTransaction hash).map fun tx => toChainTransaction tx node.blockCount

/-- The ids of a block's transactions, and nothing else of them. -/
def getBlock (node : BitcoinNode) (height : Nat) : Option BlockData :=
  (node.blockAt height).map fun b => {
    number := b.height
    hash := b.hash
    transactions := b.transactions.map fun tx => {
      hash := tx.txid
      blockNumber := some b.height
      blockHash := some b.hash
      status := .success
      fromAddress := none
      toAddress := none
      feeAmount := none
      confirmations := 0 } }

def getConfirmations (node : BitcoinNode) (hash : String) : ConfirmationInfo :=
  match (node.rawTransaction hash).bind (·.confirmations) with
  | none | some 0 => ⟨0, none, node.blockCount⟩
  | some confirmations =>
    ⟨confirmations, some (node.blockCount + 1 - confirmations), node.blockCount⟩

/-- The best block, which a node without blocks does not have. -/
def getCurrentBlock (node : BitcoinNode) : Except Error BlockRef :=
  match node.blockAt node.blockCount with
  | none => .error (.blockchainAdapter "RPC endpoint returned no best block")
  | some b => .ok ⟨b.height, b.hash⟩

/-- The adapter of a node that answers. -/
def bitcoinAdapter (sha256 : List UInt8 → List UInt8) (network : Network) (node : BitcoinNode) :
    BlockchainAdapter where
  getTransaction hash := .ok (getTransaction node hash)
  getTransfers hash := .ok (getTransfers sha256 network node hash)
  getConfirmations hash := .ok (getConfirmations node hash)
  getCurrentBlock := getCurrentBlock node
  getBlock height := .ok (getBlock node height)
  validateAddress address := isValidBitcoinAddress sha256 address (networkKind network)
  discovery := none
  getTransaction_error _ _ h := by cases h
  getTransfers_error _ _ h := by cases h
  getConfirmations_error _ _ h := by cases h

end BitcoinRpcAdapter

/-! ## The transfers of a transaction -/

open BitcoinRpcAdapter Keyed

theorem BitcoinNode.findExecuted_eq {node : BitcoinNode} {b : BitcoinBlock} {tx : BitcoinTx}
    (h : (b, tx) ∈ node.executed) : node.findExecuted tx.txid = some (b, tx) := by
  have htxids : (node.executed.map (·.2.txid)).Nodup := by
    have hsame : node.executed.map (·.2.txid) =
        (node.blocks.flatMap (·.transactions)).map (·.txid) := by
      simp [executed, List.map_flatMap, Function.comp_def]
    rw [hsame]
    exact node.txids_distinct
  exact Table.find?_of_mem (t := ⟨node.executed, htxids⟩) h

variable {sha256 : List UInt8 → List UInt8} {network : Network}

/-- The transfers of a transaction of the chain are those of its outputs that are recognised. -/
theorem BitcoinRpcAdapter.getTransfers_eq {node : BitcoinNode} {b : BitcoinBlock} {tx : BitcoinTx}
    (h : (b, tx) ∈ node.executed) : getTransfers sha256 network node tx.txid =
      tx.vout.filterMap (outputTransfer sha256 network) := by
  unfold getTransfers BitcoinNode.rawTransaction
  rw [BitcoinNode.findExecuted_eq h]
  exact if_pos (decide_eq_true b.hash_nonempty)

/-- The adapter makes a transfer of an output. -/
def RawVout.Recognised (sha256 : List UInt8 → List UInt8) (network : Network) (vout : RawVout) :
    Prop :=
  ∃ address, vout.recipient = some address ∧
    isValidBitcoinAddress sha256 address (networkKind network) = true

theorem recognised_iff {vout : RawVout} : vout.Recognised sha256 network ↔
    ∃ t, outputTransfer sha256 network vout = some t := by
  unfold RawVout.Recognised outputTransfer
  cases vout.recipient with
  | none => simp
  | some address =>
    unfold normalizeBitcoinAddress
    simp only [Option.some.injEq, exists_eq_left', Option.bind_some]
    cases isValidBitcoinAddress sha256 address (networkKind network) with
    | false => simp
    | true => cases BitcoinAddress.isValidBase58Check sha256 address (networkKind network) <;> simp

theorem outputTransfer_eq_some {vout : RawVout} {t : ParsedTransfer}
    (h : outputTransfer sha256 network vout = some t) :
    t.transferIndex = vout.n ∧ t.amount = vout.value := by
  obtain ⟨address, -, h⟩ := Option.bind_eq_some_iff.1 h
  split at h
  · cases h
  · cases h
    exact ⟨rfl, rfl⟩

/-- No two outputs share an index. -/
theorem output_indices_nodup (tx : BitcoinTx) :
    ((tx.vout.filterMap (outputTransfer sha256 network)).map (·.transferIndex)).Nodup := by
  refine indices_nodup (fun vout t h => (outputTransfer_eq_some h).1) ?_
  rw [tx.numbered]
  exact List.nodup_range

end PaymentGateway
