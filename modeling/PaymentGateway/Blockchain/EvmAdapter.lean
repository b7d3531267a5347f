import PaymentGateway.Lib.Table
import PaymentGateway.Blockchain.TransferLog

/-!
# The EVM adapter

`EvmJsonRpcAdapter` turns the answers of a JSON-RPC node into transactions, transfers and blocks.
A node is modelled by what it knows (`EvmNode`): the blocks of its chain with the receipts of
their transactions, and its mempool. Quantities stand for their hexadecimal encodings; addresses,
topics and data stay strings, because that is how the adapter compares them.

* `evmAdapter` — the adapter of a node that answers every request.
* `getTransfers_eq` — the parsed transfers of a transaction, without the parser's failures.
* `mem_getTransferLogsTo` — a transfer of a token is found by the filter on its contract and its
  recipient.
-/

namespace PaymentGateway

open Fallible Keyed

def ParseFailure.toError : ParseFailure → Error
  | .transferLog message | .plain message => .payment message

/-! ## The node -/

/-- A transaction as its sender made it; `none` as the target creates a contract. -/
structure EvmTx where
  hash : String
  from_ : String
  to_ : Option String
  value : Nat
  gasPrice : Option Nat
  from_valid : isStructurallyValidEvmAddress from_ = true
  to_valid : ∀ address ∈ to_, isStructurallyValidEvmAddress address = true

/-- A reverted transaction has no logs, and a log index names one log. -/
structure EvmReceipt where
  succeeded : Bool
  gasUsed : Nat
  effectiveGasPrice : Option Nat
  logs : List ReportedLog
  indices_distinct : (logs.map (·.logIndex)).Nodup
  reverted_silent : succeeded = false → logs = []

structure ExecutedTx extends EvmTx where
  receipt : EvmReceipt

structure EvmBlock where
  number : Nat
  hash : String
  transactions : List ExecutedTx

structure EvmNode where
  blocks : List EvmBlock
  mempool : List EvmTx
  numbers_distinct : (blocks.map (·.number)).Nodup
  hashes_distinct : ((blocks.flatMap (·.transactions)).map (·.hash)).Nodup

namespace EvmNode

variable (node : EvmNode)

/-- `eth_blockNumber`. -/
def blockNumber : Nat := (node.blocks.map (·.number)).foldr max 0

/-- `eth_getBlockByNumber`. -/
def blockByNumber (number : Nat) : Option EvmBlock :=
  node.blocks.find? fun b => b.number = number

/-- Every transaction of the chain with its block. -/
def executed : List (EvmBlock × ExecutedTx) :=
  node.blocks.flatMap fun b => b.transactions.map fun tx => (b, tx)

def findExecuted (hash : String) : Option (EvmBlock × ExecutedTx) :=
  node.executed.find? fun p => p.2.hash = hash

/-- A transaction as `eth_getTransactionByHash` reports it. -/
structure RawTx where
  tx : EvmTx
  block : Option EvmBlock

/-- `eth_getTransactionByHash`. -/
def transactionByHash (hash : String) : Option RawTx :=
  match node.findExecuted hash with
  | some (block, tx) => some ⟨tx.toEvmTx, some block⟩
  | none => (node.mempool.find? fun tx => tx.hash = hash).map fun tx => ⟨tx, none⟩

/-- `eth_getTransactionReceipt`. -/
def transactionReceipt (hash : String) : Option EvmReceipt :=
  (node.findExecuted hash).map (·.2.receipt)

/-- Whether a filter on contracts and on the third topic lets a log through; the first topic is
`Transfer` and the second is free. Addresses and topics are compared as numbers. -/
def logMatches (contracts topics : List String) (log : ReportedLog) : Bool :=
  contracts.any (fun c => toLowerCase c = toLowerCase log.address) &&
    match log.topics with
    | topic0 :: _ :: topic2 :: _ => decide (toLowerCase topic0 = transferEventTopic) &&
        topics.any fun topic => toLowerCase topic = toLowerCase topic2
    | _ => false

/-- `eth_getLogs`: the hash of the transaction of every log that matches. -/
def logHashes (fromBlock toBlock : Nat) (contracts topics : List String) : List String :=
  (node.blocks.filter fun b => fromBlock ≤ b.number ∧ b.number ≤ toBlock).flatMap fun b =>
    b.transactions.flatMap fun tx =>
      (tx.receipt.logs.filter (logMatches contracts topics)).map fun _ => tx.hash

end EvmNode

/-! ## The adapter -/

namespace EvmJsonRpcAdapter

def toChainTransaction (tx : EvmNode.RawTx) (receipt : Option EvmReceipt) (chainTip : Nat) :
    ChainTransaction where
  hash := tx.tx.hash
  blockNumber := tx.block.map (·.number)
  blockHash := tx.block.map (·.hash)
  status := match receipt with
    | none => .pending
    | some r => if r.succeeded then .success else .reverted
  fromAddress := some tx.tx.from_
  toAddress := tx.tx.to_
  feeAmount := receipt.bind fun r =>
    (r.effectiveGasPrice.or tx.tx.gasPrice).map (r.gasUsed * ·)
  confirmations := match tx.block with
    | none => 0
    | some b => if b.number ≤ chainTip then chainTip - b.number + 1 else 0

def getTransaction (node : EvmNode) (hash : String) : Option ChainTransaction :=
  (node.transactionByHash hash).map fun tx =>
    toChainTransaction tx (node.transactionReceipt hash) node.blockNumber

/-- The native transfer comes first, then the logs in order. Nothing of a reverted transaction. -/
def getTransfers (node : EvmNode) (hash : String) : Except ParseFailure (List ParsedTransfer) :=
  match node.transactionByHash hash, node.transactionReceipt hash with
  | some tx, some receipt =>
    if !receipt.succeeded then
      .ok []
    else do
      let native ← match tx.tx.to_ with
        | none => .ok none
        | some target => nativeTransfer (some tx.tx.from_) target tx.tx.value
      let tokens ← parseTransferLogs (receipt.logs.map (·.toRawEvmLog))
      return native.toList ++ tokens
  | _, _ => .ok []

def getBlock (node : EvmNode) (number : Nat) : Option BlockData :=
  (node.blockByNumber number).map fun b => {
    number := b.number
    hash := b.hash
    transactions := b.transactions.map fun tx =>
      toChainTransaction ⟨tx.toEvmTx, some b⟩ (some tx.receipt) b.number }

/-- A block without receipts, for discovery only. -/
def getLightBlock (node : EvmNode) (number : Nat) : Option EvmLightBlock :=
  (node.blockByNumber number).map fun b => {
    number := b.number
    hash := b.hash
    transactions := b.transactions.map fun tx => ⟨tx.hash, tx.to_, tx.value⟩ }

/-- The transactions of a range with a transfer of one of the contracts to one of the addresses,
found by the node's filter. -/
def getTransferLogsTo (node : EvmNode) (fromBlock toBlock : Nat)
    (contracts toAddresses : List String) : Except ParseFailure (List String) :=
  if contracts.length = 0 || toAddresses.length = 0 then
    .ok []
  else do
    let topics ← toAddresses.mapM addressToTopic
    return (node.logHashes fromBlock toBlock contracts topics).eraseDups

def getConfirmations (node : EvmNode) (hash : String) : ConfirmationInfo :=
  match (node.transactionByHash hash).bind (·.block) with
  | none => ⟨0, none, node.blockNumber⟩
  | some b =>
    ⟨if b.number ≤ node.blockNumber then node.blockNumber - b.number + 1 else 0, some b.number,
      node.blockNumber⟩

/-- The tip by its number, which a node that has no block at all cannot return. -/
def getCurrentBlock (node : EvmNode) : Except Error BlockRef :=
  match node.blockByNumber node.blockNumber with
  | none => .error (.blockchainAdapter
      "provider reported a block number it cannot return a header for")
  | some b => .ok ⟨b.number, b.hash⟩

end EvmJsonRpcAdapter

/-! ## The transfers of a transaction -/

namespace ExecutedTx

variable (tx : ExecutedTx)

/-- The native transfer, if the transaction calls an address and sends it something. -/
def native : Option ParsedTransfer :=
  tx.to_.bind fun target =>
    if tx.value = 0 then none
    else some ⟨-1, none, some (toLowerCase tx.from_), toLowerCase target, tx.value⟩

/-- Every transfer it makes, in the order the adapter lists them. -/
def transfers : List ParsedTransfer :=
  if tx.receipt.succeeded then
    tx.native.toList ++ tx.receipt.logs.filterMap (·.transfer)
  else []

variable {tx}

theorem native_eq_some {t : ParsedTransfer} (h : tx.native = some t) :
    t.transferIndex = -1 ∧ 0 < t.amount ∧ t.tokenContract = none ∧ 0 < tx.value ∧
      ∃ target, tx.to_ = some target ∧ t.toAddress = toLowerCase target := by
  obtain ⟨target, htarget, h⟩ := Option.bind_eq_some_iff.1 h
  split_ifs at h with hzero
  cases h
  have hpos : 0 < tx.value := Nat.pos_of_ne_zero hzero
  exact ⟨rfl, Int.natCast_pos.2 hpos, rfl, hpos, target, htarget, rfl⟩

theorem mem_transfers {t : ParsedTransfer} (h : t ∈ tx.transfers) :
    tx.native = some t ∨ ∃ log ∈ tx.receipt.logs, log.transfer = some t := by
  unfold transfers at h
  split_ifs at h
  · rcases List.mem_append.1 h with h | h
    · exact .inl (Option.mem_toList.1 h)
    · exact .inr (List.mem_filterMap.1 h)
  · cases h

/-- What the CHECK constraints ask for holds of every transfer of every transaction. -/
theorem transfers_valid {t : ParsedTransfer} (h : t ∈ tx.transfers) :
    0 < t.amount ∧ -1 ≤ t.transferIndex := by
  rcases mem_transfers h with h | ⟨log, -, h⟩
  · obtain ⟨hindex, hamount, -⟩ := native_eq_some h
    exact ⟨hamount, hindex.ge⟩
  · obtain ⟨hindex, hamount, -⟩ := parseTransferLog_eq_some (ReportedLog.transfer_eq_some.1 h)
    exact ⟨hamount, by omega⟩

/-- Every recipient is in lower case. -/
theorem toAddress_lower {t : ParsedTransfer} (h : t ∈ tx.transfers) :
    toLowerCase t.toAddress = t.toAddress := by
  rcases mem_transfers h with h | ⟨log, -, h⟩
  · obtain ⟨-, -, -, -, target, -, hto⟩ := native_eq_some h
    rw [hto, toLowerCase_toLowerCase]
  · obtain ⟨-, -, -, _, _, _, -, -, hto⟩ :=
      parseTransferLog_eq_some (ReportedLog.transfer_eq_some.1 h)
    exact addressFromTopic_lower hto

theorem transfer_index (log : ReportedLog) (t : ParsedTransfer) (h : log.transfer = some t) :
    t.transferIndex = log.logIndex :=
  (parseTransferLog_eq_some (ReportedLog.transfer_eq_some.1 h)).1

/-- No two transfers of a transaction share an index. -/
theorem transfers_nodup : (tx.transfers.map (·.transferIndex)).Nodup := by
  have hlogs : ((tx.receipt.logs.filterMap (·.transfer)).map (·.transferIndex)).Nodup :=
    indices_nodup transfer_index tx.receipt.indices_distinct
  unfold transfers
  split_ifs
  · cases hnative : tx.native with
    | none => exact hlogs
    | some t =>
      rw [Option.toList_some, List.singleton_append, List.map_cons, List.nodup_cons]
      refine ⟨fun hmem => ?_, hlogs⟩
      have hsub := indices_sublist transfer_index tx.receipt.logs
      obtain ⟨log, -, hlog⟩ := List.mem_map.1 (hsub.subset hmem)
      have hindex := (native_eq_some hnative).1
      omega
  · exact List.nodup_nil

end ExecutedTx

namespace EvmNode

variable {node : EvmNode}

theorem mem_executed {b : EvmBlock} {tx : ExecutedTx} :
    (b, tx) ∈ node.executed ↔ b ∈ node.blocks ∧ tx ∈ b.transactions := by
  unfold executed
  simp only [List.mem_flatMap, List.mem_map, Prod.mk.injEq]
  constructor
  · rintro ⟨b', hb', tx', htx', rfl, rfl⟩
    exact ⟨hb', htx'⟩
  · rintro ⟨hb, htx⟩
    exact ⟨b, hb, tx, htx, rfl, rfl⟩

theorem number_le_blockNumber {b : EvmBlock} (h : b ∈ node.blocks) :
    b.number ≤ node.blockNumber := by
  have hmax : ∀ (l : List Nat) (n : Nat), n ∈ l → n ≤ l.foldr max 0 := by
    intro l n hn
    induction l with
    | nil => cases hn
    | cons m l ih =>
      rw [List.foldr_cons]
      rcases List.mem_cons.1 hn with rfl | hn
      · exact le_max_left _ _
      · exact (ih hn).trans (le_max_right _ _)
  exact hmax _ _ (List.mem_map_of_mem h)

/-- A transaction of the chain is found by its hash. -/
theorem findExecuted_eq {b : EvmBlock} {tx : ExecutedTx} (h : (b, tx) ∈ node.executed) :
    node.findExecuted tx.hash = some (b, tx) := by
  have hhashes : (node.executed.map (·.2.hash)).Nodup := by
    have hsame : node.executed.map (·.2.hash) =
        (node.blocks.flatMap (·.transactions)).map (·.hash) := by
      simp [executed, List.map_flatMap, Function.comp_def]
    rw [hsame]
    exact node.hashes_distinct
  exact Table.find?_of_mem (t := ⟨node.executed, hhashes⟩) h

theorem blockByNumber_mem {number : Nat} {b : EvmBlock} (h : node.blockByNumber number = some b) :
    b ∈ node.blocks ∧ b.number = number :=
  ⟨List.mem_of_find?_eq_some h, by simpa using List.find?_some h⟩

end EvmNode

namespace EvmJsonRpcAdapter

variable {node : EvmNode} {b : EvmBlock} {tx : ExecutedTx}

theorem nativeTransfer_eq {tx : EvmTx} {target : String} (h : tx.to_ = some target) :
    nativeTransfer (some tx.from_) target tx.value =
      .ok (if tx.value = 0 then none
        else some ⟨-1, none, some (toLowerCase tx.from_), toLowerCase target, tx.value⟩) := by
  have hfrom : tx.from_ ≠ "" := by
    intro hempty
    have hvalid := tx.from_valid
    rw [hempty] at hvalid
    exact absurd hvalid (by decide)
  have hsource : normalizeSender (some tx.from_) = .ok (some (toLowerCase tx.from_)) := by
    unfold normalizeSender
    split
    · next hnone => cases hnone
    · next hempty => exact absurd (Option.some.inj hempty) hfrom
    · next hsome =>
      cases hsome
      rw [normalizeEvmAddress_of_valid tx.from_valid]
      rfl
  unfold nativeTransfer
  by_cases hzero : tx.value = 0
  · rw [if_pos (by omega), if_pos hzero]
  · rw [if_neg (by omega), if_neg hzero, hsource, bind_ok,
      normalizeEvmAddress_of_valid (tx.to_valid target h), bind_ok]
    rfl

/-- **The transfers of a transaction of the chain.** -/
theorem getTransfers_eq (h : (b, tx) ∈ node.executed) :
    getTransfers node tx.hash = .ok tx.transfers := by
  have hfind := EvmNode.findExecuted_eq h
  unfold getTransfers EvmNode.transactionByHash EvmNode.transactionReceipt
  rw [hfind]
  dsimp only [Option.map_some]
  unfold ExecutedTx.transfers
  cases hsucceeded : tx.receipt.succeeded with
  | false => rfl
  | true =>
    rw [Bool.not_true, if_neg Bool.false_ne_true, if_pos rfl, parseTransferLogs_reported]
    cases hto : tx.to_ with
    | none =>
      have hnative : tx.native = none := by
        unfold ExecutedTx.native
        rw [hto]
        rfl
      rw [hnative]
      rfl
    | some target =>
      have hnative : tx.native = if tx.value = 0 then none
          else some ⟨-1, none, some (toLowerCase tx.from_), toLowerCase target, tx.value⟩ := by
        unfold ExecutedTx.native
        rw [hto]
        rfl
      dsimp only
      rw [nativeTransfer_eq hto, hnative]
      rfl

theorem getTransfers_none {hash : String} (h : node.findExecuted hash = none) :
    getTransfers node hash = .ok [] := by
  unfold getTransfers EvmNode.transactionReceipt
  rw [h, Option.map_none]
  split
  · next hreceipt => cases hreceipt
  · rfl

theorem getTransfers_isOk (node : EvmNode) (hash : String) :
    ∃ l, getTransfers node hash = .ok l := by
  cases hfind : node.findExecuted hash with
  | none => exact ⟨[], getTransfers_none hfind⟩
  | some p =>
    have hp : p ∈ node.executed := List.mem_of_find?_eq_some hfind
    have hhash : p.2.hash = hash := by simpa using List.find?_some hfind
    exact ⟨p.2.transfers, hhash ▸ getTransfers_eq hp⟩

/-- The adapter of a node that answers. -/
def evmAdapter (node : EvmNode) : BlockchainAdapter where
  getTransaction hash := .ok (getTransaction node hash)
  getTransfers hash := (getTransfers node hash).mapError ParseFailure.toError
  getConfirmations hash := .ok (getConfirmations node hash)
  getCurrentBlock := getCurrentBlock node
  getBlock number := .ok (getBlock node number)
  validateAddress := isStructurallyValidEvmAddress
  discovery := some {
    getLightBlock := fun number => .ok (getLightBlock node number)
    getTransferLogsTo := fun fromBlock toBlock contracts toAddresses =>
      (getTransferLogsTo node fromBlock toBlock contracts toAddresses).mapError
        ParseFailure.toError }
  getTransaction_error _ _ h := by cases h
  getTransfers_error hash e h := by
    obtain ⟨l, hl⟩ := getTransfers_isOk node hash
    rw [hl] at h
    cases h
  getConfirmations_error _ _ h := by cases h

/-! ## Discovery -/

/-- The filter on a contract and a recipient lets through every log that is read as a transfer of
the one to the other. -/
theorem logMatches_of_transfer {log : ReportedLog} {t : ParsedTransfer}
    {contracts topics : List String} {contract topic : String} (h : log.transfer = some t)
    (hcontract : contract ∈ contracts) (htoken : t.tokenContract = some contract)
    (htopic : topic ∈ topics) (haddress : addressToTopic t.toAddress = .ok topic) :
    EvmNode.logMatches contracts topics log = true := by
  obtain ⟨-, -, hsame, topic0, topic1, topic2, htopics, hsignature, hto⟩ :=
    parseTransferLog_eq_some (ReportedLog.transfer_eq_some.1 h)
  obtain rfl : contract = toLowerCase log.address := Option.some.inj (htoken.symm.trans hsame)
  have hword := log.topics_words topic2 (by rw [htopics]; simp)
  obtain rfl : topic = toLowerCase topic2 := by
    rcases addressFromTopic_word hword with ⟨message, herror⟩ | ⟨address, hok, hback⟩
    · rw [herror] at hto
      cases hto
    · obtain rfl : address = t.toAddress := Except.ok.inj (hok.symm.trans hto)
      exact Except.ok.inj (haddress.symm.trans hback)
  unfold EvmNode.logMatches
  rw [htopics]
  dsimp only
  rw [Bool.and_eq_true, Bool.and_eq_true, List.any_eq_true, List.any_eq_true]
  refine ⟨⟨_, hcontract, ?_⟩, decide_eq_true hsignature, _, htopic, ?_⟩
  · exact decide_eq_true (toLowerCase_toLowerCase _)
  · exact decide_eq_true (toLowerCase_toLowerCase _)

theorem mem_logHashes {log : ReportedLog} {fromBlock toBlock : Nat}
    {contracts topics : List String} (h : (b, tx) ∈ node.executed)
    (hrange : fromBlock ≤ b.number ∧ b.number ≤ toBlock) (hlog : log ∈ tx.receipt.logs)
    (hmatch : EvmNode.logMatches contracts topics log = true) :
    tx.hash ∈ node.logHashes fromBlock toBlock contracts topics := by
  obtain ⟨hb, htx⟩ := EvmNode.mem_executed.1 h
  refine List.mem_flatMap.2 ⟨b, List.mem_filter.2 ⟨hb, decide_eq_true hrange⟩, ?_⟩
  refine List.mem_flatMap.2 ⟨tx, htx, ?_⟩
  exact List.mem_map.2 ⟨log, List.mem_filter.2 ⟨hlog, hmatch⟩, rfl⟩

/-- **The filter finds every transfer** of a listed contract to a listed address. -/
theorem mem_getTransferLogsTo {t : ParsedTransfer} {fromBlock toBlock : Nat}
    {contracts addresses hashes : List String} {contract : String}
    (h : getTransferLogsTo node fromBlock toBlock contracts addresses = .ok hashes)
    (hmem : (b, tx) ∈ node.executed) (hrange : fromBlock ≤ b.number ∧ b.number ≤ toBlock)
    (ht : t ∈ tx.transfers) (hcontract : contract ∈ contracts)
    (htoken : t.tokenContract = some contract) (haddress : t.toAddress ∈ addresses) :
    tx.hash ∈ hashes := by
  unfold getTransferLogsTo at h
  have hnonempty : (decide (contracts.length = 0) || decide (addresses.length = 0)) = false := by
    have h1 := List.length_pos_of_mem hcontract
    have h2 := List.length_pos_of_mem haddress
    simp only [Bool.or_eq_false_iff, decide_eq_false_iff_not]
    omega
  rw [hnonempty, if_neg Bool.false_ne_true] at h
  obtain ⟨topics, htopics, h⟩ := bind_eq_ok.1 h
  cases h
  obtain ⟨topic, htopic, hto⟩ := mapM_eq_ok htopics _ haddress
  rcases ExecutedTx.mem_transfers ht with hnative | ⟨log, hlog, htransfer⟩
  · rw [(ExecutedTx.native_eq_some hnative).2.2.1] at htoken
    cases htoken
  · rw [List.mem_eraseDups]
    exact mem_logHashes hmem hrange hlog
      (logMatches_of_transfer htransfer hcontract htoken htopic hto)

end EvmJsonRpcAdapter

end PaymentGateway
