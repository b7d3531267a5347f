import PaymentGateway.Monitor.Requests
import PaymentGateway.Monitor.Rescan
import PaymentGateway.System.Coverage
import PaymentGateway.System.Progress

/-!
# The two scanning paths

**Theorem (`paths_agree_iff`).** The two paths through a range of EVM blocks leave the same rows
for the tracked addresses, whatever is in the database, exactly if the discovery of the fast path
finds, among the transactions that transfer anything, those with a transfer to a tracked address.
A transaction whose only transfer to a tracked address is of a token off the allowlist is not
found, and its row is missing (`Shop.unlisted_dropped`).

Both paths hand over a list of transactions, the one in the order of discovery and the other in
the order of the chain. What a list leaves (`Rescan`) is a matter of its members: each transaction
is judged as in the state before the scan. So the paths agree on every row if their lists have
the same members among the transactions that transfer anything. For the converse, two
databases are enough: the empty one, in which a transaction found by one path only leaves a row on
that path, and one with an older row that a transaction found for nothing overwrites.
-/

namespace PaymentGateway

open Keyed Fallible Transactional Await MonitorService Scan EvmJsonRpcAdapter

variable {node : EvmNode} {b : EvmBlock} {tx : ExecutedTx} {network : Network}
  {graceSeconds : Nat} {now : Int} {db x y : Db}

/-! ## One transaction of a node -/

/-- A mined transaction as the adapter fetches it. -/
def fetched (node : EvmNode) (b : EvmBlock) (tx : ExecutedTx) : ChainTransaction :=
  toChainTransaction ⟨tx.toEvmTx, some b⟩ (some tx.receipt) node.blockNumber

theorem getTransaction_eq (h : (b, tx) ∈ node.executed) :
    getTransaction node tx.hash = some (fetched node b tx) := by
  unfold getTransaction EvmNode.transactionByHash EvmNode.transactionReceipt
  rw [EvmNode.findExecuted_eq h]
  rfl

/-- The sighting of a transfer of a mined transaction. -/
def sightingOf (node : EvmNode) (network : Network) (graceSeconds : Nat) (now : Int) (b : EvmBlock)
    (tx : ExecutedTx) (t : ParsedTransfer) : Sighting :=
  sighting network (fetched node b tx) graceSeconds now t

/-- Two mined transactions with one hash are the same. -/
theorem executed_unique {b' : EvmBlock} {tx' : ExecutedTx} (h : (b, tx) ∈ node.executed)
    (h' : (b', tx') ∈ node.executed) (hhash : tx.hash = tx'.hash) : b = b' ∧ tx = tx' := by
  have hsame : some (b, tx) = some (b', tx') := by
    rw [← EvmNode.findExecuted_eq h, ← EvmNode.findExecuted_eq h', hhash]
  exact Prod.mk.inj (Option.some.inj hsame)

/-- Two transfers of a transaction with one index are the same. -/
theorem transfer_unique {t t' : ParsedTransfer} (h : t ∈ tx.transfers) (h' : t' ∈ tx.transfers)
    (hindex : t.transferIndex = t'.transferIndex) : t = t' :=
  List.inj_on_of_nodup_map tx.transfers_nodup h h' hindex

/-! ## What a list of transactions leaves -/

/-- The state after the transactions of a list have been recorded, in terms of the one before. -/
structure Rescan (node : EvmNode) (network : Network) (graceSeconds : Nat) (now : Int) (db : Db)
    (hashes : List String) (y : Db) : Prop where
  numbered : Numbered y
  alike : Alike db y
  rowKept : ∀ k, (∀ b tx t, (b, tx) ∈ node.executed → tx.hash ∈ hashes → t ∈ tx.transfers →
      (sightingOf node network graceSeconds now b tx t).key ≠ k) ∨
    ((db.transfers.find? k).bind (·.creditedAt)).isSome = true →
      y.transfers.find? k = db.transfers.find? k
  rowLeft : ∀ b tx t, (b, tx) ∈ node.executed → tx.hash ∈ hashes → t ∈ tx.transfers →
    (db.transfers.find? (sightingOf node network graceSeconds now b tx t).key).bind
      (·.creditedAt) = none →
    ∃ row, (sightingOf node network graceSeconds now b tx t).row db = .ok row ∧
      (y.transfers.find? (sightingOf node network graceSeconds now b tx t).key).map (·.facts) =
        some row.facts
  chainKept : ∀ key, (∀ b tx, (b, tx) ∈ node.executed → tx.hash ∈ hashes → tx.transfers ≠ [] →
      key ≠ ⟨network, tx.hash⟩) → y.chainTxs.find? key = db.chainTxs.find? key
  chainLeft : ∀ b tx, (b, tx) ∈ node.executed → tx.hash ∈ hashes → tx.transfers ≠ [] →
    y.chainTxs.find? ⟨network, tx.hash⟩ =
      some (chainRow network (fetched node b tx) now (db.chainTxs.find? ⟨network, tx.hash⟩))

variable {l l' : List String}

theorem Rescan.nil (h : Numbered db) : Rescan node network graceSeconds now db [] db where
  numbered := h
  alike := Alike.refl db
  rowKept _ _ := rfl
  rowLeft _ _ _ _ h := absurd h List.not_mem_nil
  chainKept _ _ := rfl
  chainLeft _ _ _ h := absurd h List.not_mem_nil

/-- **One list after the other.** A transaction in both lists leaves what it left the first time. -/
theorem Rescan.trans (h : Rescan node network graceSeconds now db l x)
    (h' : Rescan node network graceSeconds now x l' y) :
    Rescan node network graceSeconds now db (l ++ l') y where
  numbered := h'.numbered
  alike := h.alike.trans h'.alike
  rowKept k hwhy := by
    rw [h'.rowKept k, h.rowKept k]
    · exact hwhy.imp_left fun hnone b tx t hmem hhash => hnone b tx t hmem
        (List.mem_append_left _ hhash)
    · rw [h.alike.credited k]
      exact hwhy.imp_left fun hnone b tx t hmem hhash => hnone b tx t hmem
        (List.mem_append_right _ hhash)
  rowLeft b tx t hmem hhash ht huncredited := by
    by_cases hlast : tx.hash ∈ l'
    · obtain ⟨row, hrow, hfacts⟩ := h'.rowLeft b tx t hmem hlast ht
        ((h.alike.credited _).trans huncredited)
      obtain ⟨row', hrow', hsame⟩ := h.alike.row hrow
      exact ⟨row', hrow', by rw [hfacts, hsame]⟩
    · have hfirst : tx.hash ∈ l := (List.mem_append.1 hhash).resolve_right hlast
      have hother : ∀ b' tx' t', (b', tx') ∈ node.executed → tx'.hash ∈ l' →
          t' ∈ tx'.transfers → (sightingOf node network graceSeconds now b' tx' t').key ≠
            (sightingOf node network graceSeconds now b tx t).key := by
        intro b' tx' t' _ hhash' _ hkey
        have hsame : tx'.hash = tx.hash := congrArg TransferKey.txHash hkey
        exact hlast (hsame ▸ hhash')
      rw [h'.rowKept _ (.inl hother)]
      exact h.rowLeft b tx t hmem hfirst ht huncredited
  chainKept key hnone := by
    rw [h'.chainKept key, h.chainKept key]
    · exact fun b tx hmem hhash => hnone b tx hmem (List.mem_append_left _ hhash)
    · exact fun b tx hmem hhash => hnone b tx hmem (List.mem_append_right _ hhash)
  chainLeft b tx hmem hhash hmoves := by
    have hunlisted : ∀ l : List String, tx.hash ∉ l → ∀ b' tx', (b', tx') ∈ node.executed →
        tx'.hash ∈ l → tx'.transfers ≠ [] →
          (⟨network, tx.hash⟩ : TxKey) ≠ ⟨network, tx'.hash⟩ := by
      intro l hl b' tx' _ hhash' _ hkey
      have hsame : tx.hash = tx'.hash := congrArg TxKey.txHash hkey
      exact hl (hsame ▸ hhash')
    by_cases hlast : tx.hash ∈ l'
    · rw [h'.chainLeft b tx hmem hlast hmoves]
      by_cases hfirst : tx.hash ∈ l
      · rw [h.chainLeft b tx hmem hfirst hmoves]
        exact congrArg some (chainRow_chainRow network (fetched node b tx) now _)
      · rw [h.chainKept _ (hunlisted l hfirst)]
    · have hfirst : tx.hash ∈ l := (List.mem_append.1 hhash).resolve_right hlast
      rw [h'.chainKept _ (hunlisted l' hlast), h.chainLeft b tx hmem hfirst hmoves]

/-- A transaction without transfers leaves nothing; any other is recorded. -/
theorem processTransaction_executed (hmem : (b, tx) ∈ node.executed) :
    processTransaction (evmAdapter node) network tx.hash graceSeconds now db =
      if tx.transfers = [] then Execution.unchanged
      else exec (recordTransfers network (fetched node b tx) tx.transfers graceSeconds now) db := by
  have htx : (evmAdapter node).getTransaction tx.hash = .ok (some (fetched node b tx)) :=
    congrArg Except.ok (getTransaction_eq hmem)
  have htransfers : (evmAdapter node).getTransfers tx.hash = .ok tx.transfers :=
    mapError_eq_ok.2 (getTransfers_eq hmem)
  unfold processTransaction
  rw [htx, htransfers]
  cases tx.transfers with
  | nil => rfl
  | cons t rest => exact (if_neg (List.cons_ne_nil t rest)).symm

/-- Handing over one transaction. -/
theorem Rescan.single (hdb : Numbered db) (hmem : (b, tx) ∈ node.executed) :
    (processTransaction (evmAdapter node) network tx.hash graceSeconds now db).error = none ∧
      Rescan node network graceSeconds now db [tx.hash]
        ((processTransaction (evmAdapter node) network tx.hash graceSeconds now db).final db) := by
  have honly : ∀ b' tx', (b', tx') ∈ node.executed → tx'.hash ∈ [tx.hash] → b = b' ∧ tx = tx' :=
    fun b' tx' hmem' hhash => executed_unique hmem hmem' (List.mem_singleton.1 hhash).symm
  rw [processTransaction_executed hmem]
  by_cases hlist : tx.transfers = []
  · rw [if_pos hlist]
    refine ⟨rfl, hdb, Alike.refl db, fun _ _ => rfl, fun b' tx' t hmem' hhash ht => ?_,
      fun _ _ => rfl, fun b' tx' hmem' hhash hmoves => ?_⟩
    · obtain ⟨-, rfl⟩ := honly b' tx' hmem' hhash
      rw [hlist] at ht
      cases ht
    · obtain ⟨-, rfl⟩ := honly b' tx' hmem' hhash
      exact absurd hlist hmoves
  · obtain ⟨db', hok⟩ := (recordTransfers_isOk_iff hdb network (fetched node b tx) tx.transfers
      graceSeconds now).2 fun t ht => .inr (ExecutedTx.transfers_valid ht)
    have hexec : exec (recordTransfers network (fetched node b tx) tx.transfers graceSeconds now)
        db = ⟨[db'], none⟩ := by
      unfold exec
      rw [hok]
    have heffects : Effects (Eq Right.record) db db' := recordTransfers_effects rfl hok
    rw [if_neg hlist, hexec]
    refine ⟨rfl, heffects.numbered hdb, (recordTransfers_spec hok).1, fun k hwhy => ?_,
      fun b' tx' t hmem' hhash ht huncredited => ?_, fun key hnone => ?_,
      fun b' tx' hmem' hhash hmoves => ?_⟩
    · refine (recordTransfers_left hok k).kept (hwhy.imp_left fun hnone t ht => ?_)
      exact hnone b tx t hmem List.mem_cons_self ht
    · obtain ⟨rfl, rfl⟩ := honly b' tx' hmem' hhash
      refine (recordTransfers_left hok _).left t ht rfl huncredited fun t' ht' hkey => ?_
      exact transfer_unique ht' ht (congrArg TransferKey.transferIndex hkey)
    · show db'.chainTxs.find? key = _
      rw [recordTransfers_chainTxs hok]
      exact if_neg (hnone b tx hmem List.mem_cons_self hlist)
    · obtain ⟨rfl, rfl⟩ := honly b' tx' hmem' hhash
      show db'.chainTxs.find? _ = _
      rw [recordTransfers_chainTxs hok]
      exact if_pos rfl

/-- **Lists with the same members leave the same rows.** -/
theorem Rescan.same (h : Rescan node network graceSeconds now db l x)
    (h' : Rescan node network graceSeconds now db l' y)
    (hsame : ∀ b tx, (b, tx) ∈ node.executed → tx.transfers ≠ [] →
      (tx.hash ∈ l ↔ tx.hash ∈ l')) :
    (∀ k, (x.transfers.find? k).map (·.facts) = (y.transfers.find? k).map (·.facts)) ∧
      ∀ key, x.chainTxs.find? key = y.chainTxs.find? key := by
  constructor
  · intro k
    by_cases hleft : (∃ b tx t, (b, tx) ∈ node.executed ∧ tx.hash ∈ l ∧ t ∈ tx.transfers ∧
        (sightingOf node network graceSeconds now b tx t).key = k) ∧
          (db.transfers.find? k).bind (·.creditedAt) = none
    · obtain ⟨⟨b, tx, t, hmem, hhash, ht, rfl⟩, huncredited⟩ := hleft
      have hhash' := (hsame b tx hmem (List.ne_nil_of_mem ht)).1 hhash
      obtain ⟨row, hrow, hx⟩ := h.rowLeft b tx t hmem hhash ht huncredited
      obtain ⟨row', hrow', hy⟩ := h'.rowLeft b tx t hmem hhash' ht huncredited
      obtain rfl : row = row' := Except.ok.inj (hrow.symm.trans hrow')
      rw [hx, hy]
    · have hwhy : ∀ l'' : List String, (∀ b tx, (b, tx) ∈ node.executed → tx.transfers ≠ [] →
          (tx.hash ∈ l'' → tx.hash ∈ l)) →
          (∀ b tx t, (b, tx) ∈ node.executed → tx.hash ∈ l'' → t ∈ tx.transfers →
            (sightingOf node network graceSeconds now b tx t).key ≠ k) ∨
              ((db.transfers.find? k).bind (·.creditedAt)).isSome = true := by
        intro l'' hl''
        by_cases hcredited : (db.transfers.find? k).bind (·.creditedAt) = none
        · refine .inl fun b tx t hmem hhash ht hkey => hleft ⟨⟨b, tx, t, hmem, ?_, ht, hkey⟩,
            hcredited⟩
          exact hl'' b tx hmem (List.ne_nil_of_mem ht) hhash
        · exact .inr (Option.isSome_iff_ne_none.2 hcredited)
      rw [h.rowKept k (hwhy l fun _ _ _ _ hhash => hhash),
        h'.rowKept k (hwhy l' fun b tx hmem hmoves => (hsame b tx hmem hmoves).2)]
  · intro key
    by_cases hleft : ∃ b tx, (b, tx) ∈ node.executed ∧ tx.hash ∈ l ∧ tx.transfers ≠ [] ∧
        key = ⟨network, tx.hash⟩
    · obtain ⟨b, tx, hmem, hhash, hmoves, rfl⟩ := hleft
      rw [h.chainLeft b tx hmem hhash hmoves,
        h'.chainLeft b tx hmem ((hsame b tx hmem hmoves).1 hhash) hmoves]
    · rw [h.chainKept key fun b tx hmem hhash hmoves hkey =>
          hleft ⟨b, tx, hmem, hhash, hmoves, hkey⟩,
        h'.chainKept key fun b tx hmem hhash hmoves hkey =>
          hleft ⟨b, tx, hmem, (hsame b tx hmem hmoves).2 hhash, hmoves, hkey⟩]

/-! ## The blocks of a range -/

/-- The blocks from a height on, up to the first that the node does not have. -/
def EvmNode.run (node : EvmNode) : Nat → Nat → List EvmBlock
  | 0, _ => []
  | count + 1, height =>
    match node.blockByNumber height with
    | none => []
    | some b => b :: node.run count (height + 1)

theorem EvmNode.mem_run {count height : Nat} :
    b ∈ node.run count height ↔ b ∈ node.blocks ∧ height ≤ b.number ∧
      b.number < height + (node.run count height).length := by
  induction count generalizing height with
  | zero =>
    simp only [EvmNode.run, List.not_mem_nil, List.length_nil, false_iff]
    omega
  | succ count ih =>
    unfold EvmNode.run
    cases hfind : node.blockByNumber height with
    | none =>
      simp only [List.not_mem_nil, List.length_nil, false_iff]
      omega
    | some first =>
      obtain ⟨hfirst, hheight⟩ := EvmNode.blockByNumber_mem hfind
      dsimp only
      rw [List.mem_cons, ih, List.length_cons]
      constructor
      · rintro (rfl | ⟨hb, hlow, hhigh⟩)
        · exact ⟨hfirst, by omega, by omega⟩
        · exact ⟨hb, by omega, by omega⟩
      · rintro ⟨hb, hlow, hhigh⟩
        by_cases hsame : b.number = height
        · refine .inl (List.inj_on_of_nodup_map node.numbers_distinct hb hfirst ?_)
          rw [hsame, hheight]
        · exact .inr ⟨hb, by omega, by omega⟩

theorem mem_executed_of_run {count height : Nat} (hb : b ∈ node.run count height)
    (htx : tx ∈ b.transactions) : (b, tx) ∈ node.executed :=
  EvmNode.mem_executed.2 ⟨(EvmNode.mem_run.1 hb).1, htx⟩

/-- A list of hashes of transactions of a run. -/
theorem mem_hashes_iff {blocks : List EvmBlock} {p : ExecutedTx → Bool} {count height : Nat}
    (hblocks : blocks = node.run count height) (hmem : (b, tx) ∈ node.executed) :
    tx.hash ∈ blocks.flatMap (fun b => (b.transactions.filter p).map (·.hash)) ↔
      b ∈ blocks ∧ p tx = true := by
  subst hblocks
  rw [List.mem_flatMap]
  constructor
  · rintro ⟨b', hb', htx'⟩
    obtain ⟨tx', htx', hhash⟩ := List.mem_map.1 htx'
    obtain ⟨htx', hp⟩ := List.mem_filter.1 htx'
    obtain ⟨rfl, rfl⟩ := executed_unique (mem_executed_of_run hb' htx') hmem hhash
    exact ⟨hb', hp⟩
  · rintro ⟨hb, hp⟩
    refine ⟨b, hb, List.mem_map.2 ⟨tx, List.mem_filter.2 ⟨?_, hp⟩, rfl⟩⟩
    exact (EvmNode.mem_executed.1 hmem).2

/-! ## Handing over -/

variable {scanner : ChainScanner} {tracked : List String}

/-- A transaction handed over in an undisturbed moment. -/
theorem processTransaction_does (hdb : Numbered db) (hmem : (b, tx) ∈ node.executed) :
    ∃ y, Does (.undisturbed (evmAdapter node) now) (scanner.processTransaction tx.hash) db () y ∧
      Rescan node scanner.network scanner.lateArrivalGraceSeconds now db [tx.hash] y :=
  ⟨_, Does.service (Rescan.single hdb hmem).1, (Rescan.single hdb hmem).2⟩

theorem processTransactions_does (hdb : Numbered db) {hashes : List String}
    (hmined : ∀ hash ∈ hashes, ∃ b tx, (b, tx) ∈ node.executed ∧ tx.hash = hash) :
    ∃ y, Does (.undisturbed (evmAdapter node) now) (hashes.forM scanner.processTransaction) db () y ∧
      Rescan node scanner.network scanner.lateArrivalGraceSeconds now db hashes y := by
  induction hashes generalizing db with
  | nil => exact ⟨db, Does.pure, Rescan.nil hdb⟩
  | cons hash rest ih =>
    obtain ⟨b, tx, hmem, rfl⟩ := hmined _ List.mem_cons_self
    have hfirst : ∃ x, Does (.undisturbed (evmAdapter node) now)
        (scanner.processTransaction tx.hash) db () x ∧
          Rescan node scanner.network scanner.lateArrivalGraceSeconds now db [tx.hash] x :=
      processTransaction_does hdb hmem
    obtain ⟨x, hdoes, hx⟩ := hfirst
    obtain ⟨y, hrest, hy⟩ := ih hx.numbered fun hash hhash => hmined hash
      (List.mem_cons_of_mem _ hhash)
    exact ⟨y, Does.bind hdoes hrest, hx.trans hy⟩

/-! ## The fast path -/

/-- Tracked addresses are valid, and in lower case. -/
def Normalized (tracked : List String) : Prop :=
  ∀ a ∈ tracked, isStructurallyValidEvmAddress a = true ∧ toLowerCase a = a

/-- Whether a transaction sends value to a tracked address. -/
def sendsTo (tracked : List String) (tx : ExecutedTx) : Bool :=
  tx.to_.any fun target => target ≠ "" ∧ (tx.value : Int) > 0 ∧ toLowerCase target ∈ tracked

/-- The topics of the tracked addresses. -/
def topicsOf (tracked : List String) : List String :=
  tracked.filterMap fun a => (addressToTopic a).toOption

/-- What the discovery looks for: native value to a tracked address, or a `Transfer` log of a listed
contract whose recipient is a tracked address. -/
def Discovered (network : Network) (tracked : List String) (tx : ExecutedTx) : Prop :=
  sendsTo tracked tx = true ∨
    ∃ log ∈ tx.receipt.logs, EvmNode.logMatches
      ((listAssets (some network) true).filterMap (·.contractAddress)) (topicsOf tracked) log = true

def addBlock (tracked : List String) (found : Found) (b : EvmBlock) : Found where
  candidateHashes := found.candidateHashes ++
    (b.transactions.filter (sendsTo tracked)).map (·.hash)
  scannedBlocks := found.scannedBlocks + 1
  lastBlock := some ⟨b.number, b.hash⟩

theorem nativeCandidates_eq (b : EvmBlock) :
    ChainScanner.nativeCandidates tracked ⟨b.number, b.hash,
      b.transactions.map fun tx => ⟨tx.hash, tx.to_, tx.value⟩⟩ =
        (b.transactions.filter (sendsTo tracked)).map (·.hash) := by
  unfold ChainScanner.nativeCandidates sendsTo
  simp [List.filter_map, Function.comp_def]

theorem discoverBlocks_does (count height : Nat) (found : Found) :
    Does (.undisturbed (evmAdapter node) now)
      (ChainScanner.discoverBlocks tracked count height found) db
      ((node.run count height).foldl (addBlock tracked) found) db := by
  induction count generalizing height found with
  | zero => exact Does.pure
  | succ count ih =>
    have hread : Does (.undisturbed (evmAdapter node) now)
        (ChainScanner.readLightBlock height tracked) db (getLightBlock node height) db :=
      Does.ask rfl
    refine Does.bind hread ?_
    unfold getLightBlock EvmNode.run
    cases node.blockByNumber height with
    | none => exact Does.pure
    | some b =>
      dsimp only [Option.map_some]
      rw [nativeCandidates_eq, List.foldl_cons]
      exact ih (height + 1) (addBlock tracked found b)

theorem candidateHashes_foldl (blocks : List EvmBlock) (found : Found) :
    (blocks.foldl (addBlock tracked) found).candidateHashes = found.candidateHashes ++
      blocks.flatMap fun b => (b.transactions.filter (sendsTo tracked)).map (·.hash) := by
  induction blocks generalizing found with
  | nil => simp
  | cons b rest ih => rw [List.foldl_cons, ih, List.flatMap_cons, addBlock, List.append_assoc]

theorem scannedBlocks_foldl (blocks : List EvmBlock) (found : Found) :
    (blocks.foldl (addBlock tracked) found).scannedBlocks =
      found.scannedBlocks + blocks.length := by
  induction blocks generalizing found with
  | nil => simp
  | cons b rest ih =>
    rw [List.foldl_cons, ih, List.length_cons]
    show found.scannedBlocks + 1 + rest.length = _
    omega

theorem logMatches_nil_left (topics : List String) (log : ReportedLog) :
    EvmNode.logMatches [] topics log = false := rfl

theorem logMatches_nil_right (contracts : List String) (log : ReportedLog) :
    EvmNode.logMatches contracts [] log = false := by
  unfold EvmNode.logMatches
  split <;> simp

/-- The filter on valid addresses, which nothing passes if there are none. -/
theorem getTransferLogsTo_eq (htracked : Normalized tracked) (fromBlock toBlock : Nat)
    (contracts : List String) :
    getTransferLogsTo node fromBlock toBlock contracts tracked =
      .ok (node.logHashes fromBlock toBlock contracts (topicsOf tracked)).eraseDups := by
  have hempty : (∀ log : ReportedLog, EvmNode.logMatches contracts (topicsOf tracked) log =
      false) → node.logHashes fromBlock toBlock contracts (topicsOf tracked) = [] := by
    intro hnone
    simp [EvmNode.logHashes, hnone]
  unfold getTransferLogsTo
  split_ifs with hnothing
  · rw [hempty, List.eraseDups_nil]
    intro log
    rcases Bool.or_eq_true_iff.1 hnothing with hzero | hzero
    · rw [List.length_eq_zero_iff.1 (of_decide_eq_true hzero), logMatches_nil_left]
    · rw [List.length_eq_zero_iff.1 (of_decide_eq_true hzero)]
      exact logMatches_nil_right _ _
  · have htopics : ∃ topics, tracked.mapM addressToTopic = .ok topics := by
      refine mapM_isOk fun a ha => ?_
      unfold addressToTopic
      rw [normalizeEvmAddress_of_valid (htracked a ha).1]
      exact ⟨_, rfl⟩
    obtain ⟨topics, htopics⟩ := htopics
    rw [htopics, bind_ok, mapM_eq_filterMap htopics]
    rfl

theorem mem_logHashes_iff {fromBlock toBlock : Nat} {contracts topics : List String}
    (hmem : (b, tx) ∈ node.executed) :
    tx.hash ∈ node.logHashes fromBlock toBlock contracts topics ↔
      (fromBlock ≤ b.number ∧ b.number ≤ toBlock) ∧
        ∃ log ∈ tx.receipt.logs, EvmNode.logMatches contracts topics log = true := by
  constructor
  · intro h
    obtain ⟨b', hb', h⟩ := List.mem_flatMap.1 h
    obtain ⟨tx', htx', h⟩ := List.mem_flatMap.1 h
    obtain ⟨log, hlog, hhash⟩ := List.mem_map.1 h
    obtain ⟨hb', hrange⟩ := List.mem_filter.1 hb'
    obtain ⟨hlog, hmatch⟩ := List.mem_filter.1 hlog
    obtain ⟨rfl, rfl⟩ := executed_unique (EvmNode.mem_executed.2 ⟨hb', htx'⟩) hmem hhash
    exact ⟨of_decide_eq_true hrange, log, hlog, hmatch⟩
  · rintro ⟨hrange, log, hlog, hmatch⟩
    exact mem_logHashes hmem hrange hlog hmatch

theorem mined_of_logHashes {fromBlock toBlock : Nat} {contracts topics : List String}
    {hash : String} (h : hash ∈ node.logHashes fromBlock toBlock contracts topics) :
    ∃ b tx, (b, tx) ∈ node.executed ∧ tx.hash = hash := by
  obtain ⟨b, hb, h⟩ := List.mem_flatMap.1 h
  obtain ⟨tx, htx, h⟩ := List.mem_flatMap.1 h
  obtain ⟨log, -, hhash⟩ := List.mem_map.1 h
  exact ⟨b, tx, EvmNode.mem_executed.2 ⟨(List.mem_filter.1 hb).1, htx⟩, hhash⟩

/-- The filter finds the transactions of the run that have a log it lets through. -/
theorem tokenHashes_does (node : EvmNode) (scanner : ChainScanner) (now : Int) (db : Db)
    (htracked : Normalized tracked) (count height : Nat) :
    ∃ hashes, Does (.undisturbed (evmAdapter node) now)
        (scanner.tokenHashes height (node.run count height).length tracked) db hashes db ∧
      (∀ hash ∈ hashes, ∃ b tx, (b, tx) ∈ node.executed ∧ tx.hash = hash) ∧
      ∀ b tx, (b, tx) ∈ node.executed → (tx.hash ∈ hashes ↔ b ∈ node.run count height ∧
        ∃ log ∈ tx.receipt.logs,
          EvmNode.logMatches scanner.tokenContracts (topicsOf tracked) log = true) := by
  unfold ChainScanner.tokenHashes
  by_cases hlength : (node.run count height).length > 0
  · rw [if_pos hlength]
    refine ⟨(node.logHashes height (height + (node.run count height).length - 1)
      scanner.tokenContracts (topicsOf tracked)).eraseDups, Does.ask ?_, fun hash hhash => ?_,
      fun b tx hmem => ?_⟩
    · exact mapError_eq_ok.2 (getTransferLogsTo_eq htracked _ _ _)
    · exact mined_of_logHashes (List.mem_eraseDups.1 hhash)
    · rw [List.mem_eraseDups, mem_logHashes_iff hmem, EvmNode.mem_run]
      refine and_congr_left fun _ => ?_
      constructor
      · intro hrange
        exact ⟨(EvmNode.mem_executed.1 hmem).1, by omega⟩
      · intro hrange
        omega
  · rw [if_neg hlength]
    have hnil : node.run count height = [] := List.length_eq_zero_iff.1 (by omega)
    refine ⟨[], Does.pure, fun hash hhash => absurd hhash List.not_mem_nil, fun b tx _ => ?_⟩
    rw [hnil]
    simp

/-- **The fast path** hands over the transactions of the run that the discovery finds. -/
theorem scanRangeFast_does (node : EvmNode) (scanner : ChainScanner) (now : Int)
    (htracked : Normalized tracked) (hdb : Numbered db) (from_ to_ : Nat) :
    ∃ outcome hashes y, Does (.undisturbed (evmAdapter node) now)
        (scanner.scanRangeFast from_ to_ tracked) db outcome y ∧
      Rescan node scanner.network scanner.lateArrivalGraceSeconds now db hashes y ∧
      ∀ b tx, (b, tx) ∈ node.executed → (tx.hash ∈ hashes ↔
        b ∈ node.run (to_ + 1 - from_) from_ ∧ Discovered scanner.network tracked tx) := by
  set count := to_ + 1 - from_ with hcount
  have hread : Does (.undisturbed (evmAdapter node) now)
      (ChainScanner.discoverBlocks tracked count from_ ⟨[], 0, none⟩) db
      ((node.run count from_).foldl (addBlock tracked) ⟨[], 0, none⟩) db :=
    discoverBlocks_does count from_ ⟨[], 0, none⟩
  have hscanned : ((node.run count from_).foldl (addBlock tracked) ⟨[], 0, none⟩).scannedBlocks =
      (node.run count from_).length := by
    rw [scannedBlocks_foldl, Nat.zero_add]
  have hnatives : ((node.run count from_).foldl (addBlock tracked)
      ⟨[], 0, none⟩).candidateHashes = (node.run count from_).flatMap fun b =>
        (b.transactions.filter (sendsTo tracked)).map (·.hash) := by
    rw [candidateHashes_foldl, List.nil_append]
  obtain ⟨tokens, htokens, hmined, htokens_iff⟩ :=
    tokenHashes_does node scanner now db htracked count from_
  rw [← hscanned] at htokens
  have hcandidates : ∀ hash ∈ (((node.run count from_).foldl (addBlock tracked)
      ⟨[], 0, none⟩).candidateHashes ++ tokens).eraseDups,
        ∃ b tx, (b, tx) ∈ node.executed ∧ tx.hash = hash := by
    intro hash hhash
    rw [List.mem_eraseDups, hnatives, List.mem_append] at hhash
    rcases hhash with hnative | htoken
    · obtain ⟨b, hb, h⟩ := List.mem_flatMap.1 hnative
      obtain ⟨tx, htx, hhash⟩ := List.mem_map.1 h
      exact ⟨b, tx, mem_executed_of_run hb (List.mem_filter.1 htx).1, hhash⟩
    · exact hmined hash htoken
  have hhanded : ∃ y, Does (.undisturbed (evmAdapter node) now)
      (List.forM _ scanner.processTransaction) db () y ∧
        Rescan node scanner.network scanner.lateArrivalGraceSeconds now db _ y :=
    processTransactions_does hdb hcandidates
  obtain ⟨y, hdoes, hy⟩ := hhanded
  refine ⟨_, _, y, Does.bind hread (Does.bind htokens (Does.bind hdoes Does.pure)), hy, ?_⟩
  intro b tx hmem
  rw [List.mem_eraseDups, hnatives, List.mem_append, mem_hashes_iff rfl hmem, htokens_iff b tx hmem,
    ← and_or_left]
  rfl

/-! ## The generic path -/

/-- Whether a transaction makes a transfer to a tracked address. -/
def touches (tracked : List String) (tx : ExecutedTx) : Bool :=
  tx.transfers.any fun t => t.toAddress ∈ tracked

/-- The recipients are in lower case, so they are compared as they are. -/
theorem normalizeForTracking_toAddress {t : ParsedTransfer} (ht : t ∈ tx.transfers) :
    normalizeForTracking t.toAddress = t.toAddress := by
  unfold normalizeForTracking
  rw [ExecutedTx.toAddress_lower ht, ite_self]

theorem touchesTrackedAddress_does (hmem : (b, tx) ∈ node.executed) :
    Does (.undisturbed (evmAdapter node) now) (ChainScanner.touchesTrackedAddress tracked tx.hash)
      db (touches tracked tx) db := by
  unfold ChainScanner.touchesTrackedAddress
  by_cases hnone : tracked.length = 0
  · rw [if_pos hnone]
    have htouches : touches tracked tx = false := by
      rw [List.length_eq_zero_iff.1 hnone]
      simp [touches]
    rw [htouches]
    exact Does.pure
  · rw [if_neg hnone]
    have hask : Does (.undisturbed (evmAdapter node) now)
        (ask (fun a => a.getTransfers tx.hash) fun _ => []) db tx.transfers db :=
      Does.ask (mapError_eq_ok.2 (getTransfers_eq hmem))
    have hsame : (tx.transfers.any fun t => normalizeForTracking t.toAddress ∈ tracked) =
        touches tracked tx := by
      rw [Bool.eq_iff_iff, touches, List.any_eq_true, List.any_eq_true]
      refine exists_congr fun t => and_congr_right fun ht => ?_
      rw [normalizeForTracking_toAddress ht]
    rw [← hsame]
    exact Does.bind hask Does.pure

theorem scanTransaction_does (hdb : Numbered db) (hmem : (b, tx) ∈ node.executed) :
    ∃ candidates y, Does (.undisturbed (evmAdapter node) now)
        (scanner.scanTransaction tracked tx.hash) db candidates y ∧
      Rescan node scanner.network scanner.lateArrivalGraceSeconds now db
        (([tx].filter (touches tracked)).map (·.hash)) y := by
  have htouches : Does (.undisturbed (evmAdapter node) now)
      (ChainScanner.touchesTrackedAddress tracked tx.hash) db (touches tracked tx) db :=
    touchesTrackedAddress_does hmem
  cases hfound : touches tracked tx with
  | false =>
    rw [hfound] at htouches
    rw [List.filter_singleton, hfound]
    exact ⟨0, db, Does.bind htouches Does.pure, Rescan.nil hdb⟩
  | true =>
    rw [hfound] at htouches
    rw [List.filter_singleton, hfound]
    have hhanded : ∃ y, Does (.undisturbed (evmAdapter node) now)
        (scanner.processTransaction tx.hash) db () y ∧
          Rescan node scanner.network scanner.lateArrivalGraceSeconds now db [tx.hash] y :=
      processTransaction_does hdb hmem
    obtain ⟨y, hdoes, hy⟩ := hhanded
    exact ⟨1, y, Does.bind htouches (Does.bind hdoes Does.pure), hy⟩

/-- What is handed over of the transactions of a block. -/
theorem scanTransactions_does (hdb : Numbered db) {txs : List ExecutedTx}
    (hmem : ∀ tx ∈ txs, (b, tx) ∈ node.executed) :
    ∃ candidates y, Does (.undisturbed (evmAdapter node) now)
        (scanner.scanTransactions tracked (txs.map fun tx =>
          toChainTransaction ⟨tx.toEvmTx, some b⟩ (some tx.receipt) b.number)) db candidates y ∧
      Rescan node scanner.network scanner.lateArrivalGraceSeconds now db
        ((txs.filter (touches tracked)).map (·.hash)) y := by
  induction txs generalizing db with
  | nil => exact ⟨0, db, Does.pure, Rescan.nil hdb⟩
  | cons tx rest ih =>
    have hfirst : ∃ candidates x, Does (.undisturbed (evmAdapter node) now)
        (scanner.scanTransaction tracked tx.hash) db candidates x ∧
          Rescan node scanner.network scanner.lateArrivalGraceSeconds now db
            (([tx].filter (touches tracked)).map (·.hash)) x :=
      scanTransaction_does hdb (hmem tx List.mem_cons_self)
    obtain ⟨candidate, x, hdoes, hx⟩ := hfirst
    obtain ⟨candidates, y, hrest, hy⟩ := ih hx.numbered fun tx htx => hmem tx
      (List.mem_cons_of_mem _ htx)
    refine ⟨candidate + candidates, y, Does.bind hdoes (Does.bind hrest Does.pure), ?_⟩
    have hsplit : tx :: rest = [tx] ++ rest := rfl
    rw [hsplit, List.filter_append, List.map_append]
    exact hx.trans hy

theorem scanBlocks_does (hdb : Numbered db) (count height : Nat) (outcome : ScanOutcome) :
    ∃ outcome' y, Does (.undisturbed (evmAdapter node) now)
        (scanner.scanBlocks tracked count height outcome) db outcome' y ∧
      Rescan node scanner.network scanner.lateArrivalGraceSeconds now db
        ((node.run count height).flatMap fun b =>
          (b.transactions.filter (touches tracked)).map (·.hash)) y := by
  induction count generalizing height outcome db with
  | zero => exact ⟨outcome, db, Does.pure, Rescan.nil hdb⟩
  | succ count ih =>
    have hread : Does (.undisturbed (evmAdapter node) now)
        (ChainScanner.readBlock height tracked) db (getBlock node height) db := Does.ask rfl
    unfold EvmNode.run
    cases hfind : node.blockByNumber height with
    | none =>
      refine ⟨outcome, db, Does.bind hread ?_, Rescan.nil hdb⟩
      unfold getBlock
      rw [hfind]
      exact Does.pure
    | some b =>
      have hb := (EvmNode.blockByNumber_mem hfind).1
      have hfirst : ∃ candidates x, Does (.undisturbed (evmAdapter node) now)
          (scanner.scanTransactions tracked (b.transactions.map fun tx =>
            toChainTransaction ⟨tx.toEvmTx, some b⟩ (some tx.receipt) b.number)) db candidates x ∧
          Rescan node scanner.network scanner.lateArrivalGraceSeconds now db
            ((b.transactions.filter (touches tracked)).map (·.hash)) x :=
        scanTransactions_does hdb fun tx htx => EvmNode.mem_executed.2 ⟨hb, htx⟩
      obtain ⟨candidates, x, hdoes, hx⟩ := hfirst
      obtain ⟨outcome', y, hrest, hy⟩ := ih hx.numbered (height + 1) {
        scannedBlocks := outcome.scannedBlocks + 1
        candidateTransactions := outcome.candidateTransactions + candidates
        lastBlock := some ⟨b.number, b.hash⟩ }
      refine ⟨outcome', y, Does.bind hread ?_, hx.trans hy⟩
      unfold getBlock
      rw [hfind]
      exact Does.bind hdoes hrest

/-- **The generic path** hands over the transactions of the run with a transfer to a tracked
address. -/
theorem scanRangeGeneric_does (node : EvmNode) (scanner : ChainScanner) (now : Int)
    (tracked : List String) (hdb : Numbered db) (from_ to_ : Nat) :
    ∃ outcome hashes y, Does (.undisturbed (evmAdapter node) now)
        (scanner.scanRangeGeneric from_ to_ tracked) db outcome y ∧
      Rescan node scanner.network scanner.lateArrivalGraceSeconds now db hashes y ∧
      ∀ b tx, (b, tx) ∈ node.executed → (tx.hash ∈ hashes ↔
        b ∈ node.run (to_ + 1 - from_) from_ ∧ touches tracked tx = true) := by
  have hscan : ∃ outcome y, Does (.undisturbed (evmAdapter node) now)
      (scanner.scanRangeGeneric from_ to_ tracked) db outcome y ∧ _ :=
    scanBlocks_does hdb (to_ + 1 - from_) from_ ⟨0, 0, none⟩
  obtain ⟨outcome, y, hdoes, hy⟩ := hscan
  exact ⟨outcome, _, y, hdoes, hy, fun b tx hmem => mem_hashes_iff rfl hmem⟩

/-! ## The same rows -/

/-- The rows for some addresses: the transfers to them, and the transactions that made these. Of a
transfer everything is compared but the text of its reason, which names the status an invoice had
at that moment. -/
structure SameRows (tracked : List String) (x y : Db) : Prop where
  transfers : ∀ k, ((x.transfers.find? k).map (·.facts)).filter (·.toAddress ∈ tracked) =
    ((y.transfers.find? k).map (·.facts)).filter (·.toAddress ∈ tracked)
  chainTxs : ∀ k t, x.transfers.find? k = some t → t.toAddress ∈ tracked →
    x.chainTxs.find? k.txKey = y.chainTxs.find? k.txKey

/-- The database after a scan that nothing disturbs. -/
def afterScan (node : EvmNode) (now : Int) (scan : Scan ScanOutcome) (db : Db) : Db :=
  (scan (fun _ => .undisturbed (evmAdapter node) now) 0 ⟨db, []⟩).state.db

theorem row_facts_toAddress {s : Sighting} {row : TokenTransfer} (h : s.row db = .ok row) :
    row.facts.toAddress = s.transfer.toAddress := by
  unfold Sighting.row at h
  split_ifs at h
  cases h
  rfl

/-- Nothing is left under the key of a transfer whose transaction is not in the list. -/
theorem Rescan.unlisted (h : Rescan node network graceSeconds now db l y) (b : EvmBlock)
    (hhash : tx.hash ∉ l) (t : ParsedTransfer) :
    y.transfers.find? (sightingOf node network graceSeconds now b tx t).key =
      db.transfers.find? (sightingOf node network graceSeconds now b tx t).key := by
  refine h.rowKept _ (.inl fun b' tx' t' hmem' hhash' _ hkey => hhash ?_)
  have hsame : tx'.hash = tx.hash := congrArg TransferKey.txHash hkey
  exact hsame ▸ hhash'

/-- A database in which a transaction of this hash once paid an address. -/
theorem exists_older_row (network : Network) (hash address : String) {index : Int}
    (hindex : -1 ≤ index) :
    ∃ db, gateway.Reachable (fun _ => True) (fun _ _ => True) Db.empty db ∧
      ((db.transfers.find? ⟨network, hash, index⟩).bind (·.creditedAt)) = none ∧
      ((db.transfers.find? ⟨network, hash, index⟩).map (·.facts)).map (·.toAddress) =
        some address := by
  let older : ChainTransaction := ⟨hash, none, none, .pending, none, none, none, 0⟩
  let payment : ParsedTransfer := ⟨index, none, none, address, 1⟩
  have hinit : gateway.Reachable (fun _ => True) (fun _ _ => True) Db.empty Db.empty :=
    Machine.reachable_init
  have hempty : Numbered Db.empty := numbered hinit
  obtain ⟨db, hok⟩ := (recordTransfers_isOk_iff hempty network older [payment] 0 0).2
    fun t ht => .inr (by
      rw [List.mem_singleton.1 ht]
      exact ⟨Int.one_pos, hindex⟩)
  have hstart : gateway.History (fun _ => True) (fun _ _ => True) Db.empty [Db.empty]
      [.ok (.recordTransfers network older [payment] 0 0)] := by
    have hscript : gateway.script (.processTransaction (.ofTransactions 0 [(older, [payment])])
        network hash 0 0) Db.empty = [.ok (.recordTransfers network older [payment] 0 0)] := by
      simp [gateway, Operation.script, Operation.processScript, BlockchainAdapter.ofTransactions,
        older]
    rw [← hscript]
    exact .begin .start trivial
  refine ⟨db, ⟨_, _, .commit hstart trivial hok⟩, ?_, ?_⟩
  · exact (recordTransfers_spec hok).1.credited _
  · obtain ⟨row, hrow, hfacts⟩ := (recordTransfers_left hok ⟨network, hash, index⟩).left payment
      List.mem_cons_self rfl rfl fun t ht _ => List.mem_singleton.1 ht
    rw [hfacts, Option.map_some, row_facts_toAddress hrow]
    rfl

/-- What either path leaves of a range. -/
theorem afterScan_rescan (scanner : ChainScanner) (node : EvmNode) (now : Int) (from_ to_ : Nat)
    (htracked : Normalized tracked) (hdb : Numbered db) :
    ∃ fast generic, Rescan node scanner.network scanner.lateArrivalGraceSeconds now db fast
        (afterScan node now (scanner.scanRangeFast from_ to_ tracked) db) ∧
      Rescan node scanner.network scanner.lateArrivalGraceSeconds now db generic
        (afterScan node now (scanner.scanRangeGeneric from_ to_ tracked) db) ∧
      ∀ b tx, (b, tx) ∈ node.executed →
        (tx.hash ∈ fast ↔ b ∈ node.run (to_ + 1 - from_) from_ ∧
          Discovered scanner.network tracked tx) ∧
        (tx.hash ∈ generic ↔ b ∈ node.run (to_ + 1 - from_) from_ ∧
          touches tracked tx = true) := by
  obtain ⟨_, fast, x, hfast, hx, hfast_iff⟩ :=
    scanRangeFast_does node scanner now htracked hdb from_ to_
  obtain ⟨_, generic, y, hgeneric, hy, hgeneric_iff⟩ :=
    scanRangeGeneric_does node scanner now tracked hdb from_ to_
  refine ⟨fast, generic, ?_, ?_, fun b tx hmem => ⟨hfast_iff b tx hmem, hgeneric_iff b tx hmem⟩⟩
  · unfold afterScan
    rw [hfast.state]
    exact hx
  · unfold afterScan
    rw [hgeneric.state]
    exact hy

/-- A discovery is of a tracked address. -/
theorem Discovered.nonempty {network : Network} (h : Discovered network tracked tx) :
    ∃ a, a ∈ tracked := by
  rcases h with hnative | ⟨log, -, hmatch⟩
  · unfold sendsTo at hnative
    cases hto : tx.to_ with
    | none =>
      rw [hto] at hnative
      cases hnative
    | some target =>
      rw [hto, Option.any_some] at hnative
      exact ⟨_, (of_decide_eq_true hnative).2.2⟩
  · cases tracked with
    | nil =>
      rw [topicsOf, List.filterMap_nil, logMatches_nil_right] at hmatch
      cases hmatch
    | cons a rest => exact ⟨a, List.mem_cons_self⟩

/-- **The two paths agree exactly if the discovery finds, among the transactions of the range that
transfer anything, those with a transfer to a tracked address.** -/
theorem paths_agree_iff (scanner : ChainScanner) (node : EvmNode) (now : Int) (from_ to_ : Nat)
    {tracked : List String} (htracked : Normalized tracked) :
    (∀ db, gateway.Reachable (fun _ => True) (fun _ _ => True) Db.empty db →
      SameRows tracked (afterScan node now (scanner.scanRangeFast from_ to_ tracked) db)
        (afterScan node now (scanner.scanRangeGeneric from_ to_ tracked) db)) ↔
    ∀ b ∈ node.run (to_ + 1 - from_) from_, ∀ tx ∈ b.transactions, tx.transfers ≠ [] →
      (Discovered scanner.network tracked tx ↔ touches tracked tx = true) := by
  constructor
  · intro hsame b hb tx htx hmoves
    have hmem : (b, tx) ∈ node.executed := mem_executed_of_run hb htx
    constructor
    · intro hfound
      by_contra huntouched
      -- An older row under the key of a transfer to somebody else: only the fast path replaces it.
      obtain ⟨a, ha⟩ := hfound.nonempty
      obtain ⟨t, ht⟩ := List.exists_mem_of_ne_nil _ hmoves
      obtain ⟨db, hreach, huncredited, holder⟩ := exists_older_row scanner.network tx.hash a
        (ExecutedTx.transfers_valid ht).2
      obtain ⟨fast, generic, hx, hy, hlists⟩ :=
        afterScan_rescan scanner node now from_ to_ htracked (numbered hreach)
      obtain ⟨hfast, hgeneric⟩ := hlists b tx hmem
      obtain ⟨row, hrow, hleft⟩ := hx.rowLeft b tx t hmem (hfast.2 ⟨hb, hfound⟩) ht huncredited
      have hkept := hy.unlisted b (fun h => huntouched (hgeneric.1 h).2) t
      have hrows := (hsame db hreach).transfers
        (sightingOf node scanner.network scanner.lateArrivalGraceSeconds now b tx t).key
      have hother : row.facts.toAddress ∉ tracked := by
        rw [row_facts_toAddress hrow]
        intro hin
        exact huntouched (List.any_eq_true.2 ⟨t, ht, decide_eq_true hin⟩)
      obtain ⟨old, hold, rfl⟩ := Option.map_eq_some_iff.1 holder
      have holdrow : (db.transfers.find? (sightingOf node scanner.network
        scanner.lateArrivalGraceSeconds now b tx t).key).map (·.facts) = some old := hold
      rw [hleft, hkept, holdrow, Option.filter_some, Option.filter_some,
        if_neg (fun h => hother (of_decide_eq_true h)), if_pos (decide_eq_true ha)] at hrows
      cases hrows
    · intro htouched
      by_contra hmissed
      -- In an empty database only the generic path leaves a row.
      obtain ⟨t, ht, hin⟩ := List.any_eq_true.1 htouched
      have hreach : gateway.Reachable (fun _ => True) (fun _ _ => True) Db.empty Db.empty :=
        Machine.reachable_init
      obtain ⟨fast, generic, hx, hy, hlists⟩ :=
        afterScan_rescan scanner node now from_ to_ htracked (numbered hreach)
      obtain ⟨hfast, hgeneric⟩ := hlists b tx hmem
      obtain ⟨row, hrow, hleft⟩ := hy.rowLeft b tx t hmem (hgeneric.2 ⟨hb, htouched⟩) ht rfl
      have hkept := hx.unlisted b (fun h => hmissed (hfast.1 h).2) t
      have hrows := (hsame Db.empty hreach).transfers
        (sightingOf node scanner.network scanner.lateArrivalGraceSeconds now b tx t).key
      have hours : row.facts.toAddress ∈ tracked := by
        rw [row_facts_toAddress hrow]
        exact of_decide_eq_true hin
      have hnone : (Db.empty.transfers.find? (sightingOf node scanner.network
        scanner.lateArrivalGraceSeconds now b tx t).key).map (·.facts) = none := rfl
      rw [hleft, hkept, hnone, Option.filter_none, Option.filter_some,
        if_pos (decide_eq_true hours)] at hrows
      cases hrows
  · intro hfound db hreach
    obtain ⟨fast, generic, hx, hy, hlists⟩ :=
      afterScan_rescan scanner node now from_ to_ htracked (numbered hreach)
    obtain ⟨hrows, hchain⟩ := hx.same hy fun b tx hmem hmoves => by
      obtain ⟨hfast, hgeneric⟩ := hlists b tx hmem
      rw [hfast, hgeneric]
      exact and_congr_right fun hb =>
        hfound b hb tx (EvmNode.mem_executed.1 hmem).2 hmoves
    exact ⟨fun k => by rw [hrows k], fun k _ _ _ => hchain k.txKey⟩

/-! ## A token that is not listed -/

namespace Shop

/-- A transaction that sends the wallet a token off the allowlist. -/
def airdrop : ExecutedTx where
  hash := "airdrop"
  from_ := "0x00000000000000000000000000000000000000bb"
  to_ := some "0x00000000000000000000000000000000000000cc"
  value := 0
  gasPrice := some 1
  from_valid := by decide +kernel
  to_valid := by decide +kernel
  receipt := {
    succeeded := true
    gasUsed := 50000
    effectiveGasPrice := some 1
    logs := [{
      address := "0x00000000000000000000000000000000000000cc"
      topics := [transferEventTopic,
        "0x00000000000000000000000000000000000000000000000000000000000000bb",
        "0x00000000000000000000000000000000000000000000000000000000000000aa"]
      data := "0x05"
      logIndex := 3
      address_valid := by decide +kernel
      topics_words := by decide +kernel }]
    indices_distinct := by decide
    reverted_silent := by decide }

def airdropBlocks : EvmNode where
  blocks := [⟨0, "genesis", []⟩, ⟨1, "first", [airdrop]⟩]
  mempool := []
  numbers_distinct := by decide
  hashes_distinct := by decide

/-- An invoice whose deposit address is the wallet. -/
def walletOpening : List Operation := [
  .registerMerchant merchant,
  .registerAddress "shop" ⟨.ethereum, wallet⟩ wallet none 0,
  .createInvoice ⟨"i", "shop", "o", .ethereum, "USDT", 100000000, 3600⟩ 0]

def walletOpen : Db := (gateway.log walletOpening [Db.empty]).headD Db.empty

theorem walletOpen_reachable :
    gateway.Reachable (fun _ => True) (fun _ _ => True) Db.empty walletOpen :=
  Machine.reachable_log (fun _ _ => trivial) (Machine.allMeet_true _ _)

def airdropFast : Db :=
  afterScan airdropBlocks 1000 (ethereumScanner.scanRangeFast 1 1 [wallet]) walletOpen

def airdropGeneric : Db :=
  afterScan airdropBlocks 1000 (ethereumScanner.scanRangeGeneric 1 1 [wallet]) walletOpen

end Shop

/-- The wallet is tracked, the generic path records the token as unsupported, and the fast path
records nothing. -/
theorem Shop.unlisted_dropped :
    gateway.Reachable (fun _ => True) (fun _ _ => True) Db.empty Shop.walletOpen ∧
    ChainScanner.trackedOf isStructurallyValidEvmAddress .ethereum Shop.walletOpen =
      [Shop.wallet] ∧
    (Shop.airdropGeneric.transfers.rows.map fun t => (t.toAddress, t.matchStatus)) =
      [(Shop.wallet, .unsupportedAsset)] ∧
    Shop.airdropFast.transfers.rows.length = 0 ∧
    ¬ SameRows [Shop.wallet] Shop.airdropFast Shop.airdropGeneric := by
  refine ⟨Shop.walletOpen_reachable, by decide +kernel, by decide +kernel, by decide +kernel,
    fun hsame => ?_⟩
  have hrows := hsame.transfers ⟨.ethereum, "airdrop", 3⟩
  have hgeneric : (((Shop.airdropGeneric.transfers.find? ⟨.ethereum, "airdrop", 3⟩).map
      (·.facts)).filter (·.toAddress ∈ [Shop.wallet])).isSome = true := by decide +kernel
  have hfast : (((Shop.airdropFast.transfers.find? ⟨.ethereum, "airdrop", 3⟩).map
      (·.facts)).filter (·.toAddress ∈ [Shop.wallet])).isSome = false := by decide +kernel
  rw [hrows, hgeneric] at hfast
  cases hfast

/-- Both paths find a coin for the wallet. -/
theorem paths_agree_shop :
    SameRows [Shop.wallet]
      (afterScan Shop.firstBlocks 1000 (Shop.ethereumScanner.scanRangeFast 1 1 [Shop.wallet])
        Shop.walletOpen)
      (afterScan Shop.firstBlocks 1000 (Shop.ethereumScanner.scanRangeGeneric 1 1 [Shop.wallet])
        Shop.walletOpen) := by
  have htracked : Normalized [Shop.wallet] := by
    intro a ha
    rw [List.mem_singleton.1 ha]
    decide +kernel
  refine (paths_agree_iff Shop.ethereumScanner Shop.firstBlocks 1000 1 1 htracked).2 ?_
    Shop.walletOpen Shop.walletOpen_reachable
  intro b hb tx htx _
  have hcoin : tx = Shop.coin := by
    have hblock : b = ⟨1, "first", [Shop.coin]⟩ := by
      simpa [EvmNode.run, EvmNode.blockByNumber, Shop.firstBlocks] using hb
    rw [hblock] at htx
    exact List.mem_singleton.1 htx
  rw [hcoin]
  exact ⟨fun _ => by decide +kernel, fun _ => .inl (by decide +kernel)⟩

end PaymentGateway
