import PaymentGateway.Lib.Await
import PaymentGateway.Monitor.Service

/-!
# The scanner

`ChainScanner.tick` walks the blocks since the stored cursor, hands the monitor the transactions
that touch a tracked address, and moves the cursor. It awaits many times, and anything may happen
meanwhile (`Moment`): the adapter answers from a chain that has moved on, others commit, the
process is stopped before, within or after what it was about to commit.

There are two ways through a range. The fast one collects candidates first, natives from light
blocks and tokens by one filter over the logs of the range, and hands them over at the end. The
generic one asks for the transfers of every transaction and hands over as it goes.
-/

namespace PaymentGateway

open Keyed Transactional

/-! ## Cursors -/

namespace Db

variable (db : Db)

def createCursor (cursor : ChainCursor) : Except Error Db :=
  match h : db.cursors.find? cursor.network with
  | some _ => .error (.uniqueViolation "ChainCursor")
  | none => .ok { db with cursors := db.cursors.insert cursor h }

def updateCursor (network : Network) (f : ChainCursor → ChainCursor)
    (hf : ∀ c, (f c).network = c.network) : Except Error Db :=
  match db.cursors.find? network with
  | none => .error (.recordNotFound "ChainCursor")
  | some _ => .ok { db with cursors := db.cursors.modify network f hf }

end Db

/-- Where the scanner is. -/
structure Position where
  lastProcessedBlock : Nat
  lastProcessedHash : Option String
  deriving DecidableEq, Repr

namespace ChainCursor

def rewindTo (position : Position) (now : Int) (c : ChainCursor) : ChainCursor :=
  { c with
    lastProcessedBlock := position.lastProcessedBlock
    lastProcessedHash := position.lastProcessedHash
    lastReorgAt := some now
    lastReorgDepth := some 1 }

def saveAt (position : Position) (chainTip : Nat) (c : ChainCursor) : ChainCursor :=
  { c with
    lastProcessedBlock := position.lastProcessedBlock
    lastProcessedHash := position.lastProcessedHash
    chainTipBlock := some chainTip }

end ChainCursor

/-! ## Moments and sessions -/

/-- What an await meets. Nobody else writes the cursors. -/
structure Moment where
  adapter : BlockchainAdapter
  now : Int
  /-- What others have committed since the last await. -/
  others : Db → Db
  others_cursors : ∀ db, (others db).cursors = db.cursors
  /-- The process is stopped, after so many commits of what it is about to do. -/
  stopped : Option Nat

/-- The provider answers, and nobody else is about. -/
def Moment.undisturbed (adapter : BlockchainAdapter) (now : Int) : Moment :=
  ⟨adapter, now, id, fun _ => rfl, none⟩

inductive Call
  /-- The cursor was created: everything up to this height is left out. -/
  | started (height : Nat)
  /-- A block was read while these addresses were tracked. -/
  | scanned (height : Nat) (tracked : List String)
  /-- `processTransaction` returned. -/
  | handed (txHash : String)
  deriving DecidableEq, Repr

/-- The database, and what the scanner has done so far, newest first. The calls are kept to state
what it does; nothing reads them. -/
structure ScanSession where
  db : Db
  calls : List Call

inductive Halt
  | stopped
  | failed (e : Error)
  deriving DecidableEq, Repr

abbrev Scan (α : Type) := Await Moment ScanSession Halt α

namespace Scan

variable {α : Type}

/-- Time passes, and then something is done. -/
def afterOthers (f : Moment → ScanSession → Except Halt α × ScanSession) : Scan α :=
  Await.step fun m s => f m { s with db := m.others s.db }

def ask (question : BlockchainAdapter → Except Error α) (note : α → List Call) : Scan α :=
  afterOthers fun m s =>
    if m.stopped.isSome then (.error .stopped, s)
    else
      match question m.adapter with
      | .error e => (.error (.failed e), s)
      | .ok a => (.ok a, { s with calls := note a ++ s.calls })

def read (query : Moment → Db → α) : Scan α :=
  afterOthers fun m s =>
    if m.stopped.isSome then (.error .stopped, s) else (.ok (query m s.db), s)

/-- One write, which may be the last thing the process does. -/
def write (f : Moment → Db → Except Error Db) (note : List Call) : Scan Unit :=
  afterOthers fun m s =>
    if m.stopped = some 0 then (.error .stopped, s)
    else
      match f m s.db with
      | .error e => (.error (.failed e), s)
      | .ok db =>
        (if m.stopped.isSome then .error .stopped else .ok (), ⟨db, note ++ s.calls⟩)

/-- A call of the monitor service, which commits as it goes. -/
def service (f : Moment → Db → Execution Db Error) (note : List Call) : Scan Unit :=
  afterOthers fun m s =>
    let x := f m s.db
    match m.stopped with
    | some commits =>
      (.error .stopped, { s with db := (x.committed.take commits).getLastD s.db })
    | none =>
      match x.error with
      | some e => (.error (.failed e), { s with db := x.final s.db })
      | none => (.ok (), ⟨x.final s.db, note ++ s.calls⟩)

end Scan

/-! ## The scanner -/

/-- An EVM address is lowercased; any other is compared as it is. -/
def normalizeForTracking (address : String) : String :=
  if ['0', 'x'].isPrefixOf address.toList then toLowerCase address else address

structure ScanOutcome where
  scannedBlocks : Nat
  candidateTransactions : Nat
  lastBlock : Option BlockRef
  deriving DecidableEq, Repr

structure ScanResult where
  network : Network
  scannedBlocks : Nat
  candidateTransactions : Nat
  reorgDetected : Bool
  chainTip : Nat
  lastProcessedBlock : Nat
  deriving DecidableEq, Repr

/-- What the blocks of a range have shown so far. -/
structure Found where
  candidateHashes : List String
  scannedBlocks : Nat
  lastBlock : Option BlockRef
  deriving DecidableEq, Repr

structure ChainScanner where
  network : Network
  /-- Whether the adapter offers the cheap discovery methods. -/
  discovers : Bool
  /-- Upper bound on the blocks scanned by a tick. -/
  blockBatchSize : Nat
  lateArrivalGraceSeconds : Nat

namespace ChainScanner

open Scan

variable (scanner : ChainScanner)

/-! ### Requests -/

/-- Use the cheap methods, which the adapter of a scanner that discovers has. -/
def discover {α : Type} (f : EvmDiscoveryAdapter → Except Error α) (adapter : BlockchainAdapter) :
    Except Error α :=
  match adapter.discovery with
  | none => .error (.blockchainAdapter "the adapter has no discovery methods")
  | some d => f d

/-- A found block is noted with the addresses it is searched for. -/
def noteScanned (height : Nat) (tracked : List String) : Bool → List Call
  | true => [.scanned height tracked]
  | false => []

def readLightBlock (height : Nat) (tracked : List String) : Scan (Option EvmLightBlock) :=
  ask (discover fun d => d.getLightBlock height) fun b => noteScanned height tracked b.isSome

def readBlock (height : Nat) (tracked : List String) : Scan (Option BlockData) :=
  ask (fun a => a.getBlock height) fun b => noteScanned height tracked b.isSome

def processTransaction (txHash : String) : Scan Unit :=
  service (fun m => MonitorService.processTransaction m.adapter scanner.network txHash
    scanner.lateArrivalGraceSeconds m.now) [.handed txHash]

/-! ### The fast path -/

/-- The transactions of a light block that send value to a tracked address. -/
def nativeCandidates (tracked : List String) (block : EvmLightBlock) : List String :=
  (block.transactions.filter fun tx =>
    tx.to_.any fun target =>
      target ≠ "" ∧ tx.value > 0 ∧ toLowerCase target ∈ tracked).map (·.hash)

/-- The loop over the heights; the first block the provider does not have yet ends it. -/
def discoverBlocks (tracked : List String) : Nat → Nat → Found → Scan Found
  | 0, _, found => pure found
  | count + 1, height, found =>
    readLightBlock height tracked >>= fun
      | none => pure found
      | some block => discoverBlocks tracked count (height + 1) {
          candidateHashes := found.candidateHashes ++ nativeCandidates tracked block
          scannedBlocks := found.scannedBlocks + 1
          lastBlock := some ⟨block.number, block.hash⟩ }

/-- The contracts of the tokens that are credited. -/
def tokenContracts : List String :=
  (listAssets (some scanner.network) true).filterMap (·.contractAddress)

def tokenHashes (from_ scannedBlocks : Nat) (tracked : List String) : Scan (List String) :=
  if scannedBlocks > 0 then
    ask (discover fun d => d.getTransferLogsTo from_ (from_ + scannedBlocks - 1)
      scanner.tokenContracts tracked) fun _ => []
  else pure []

def scanRangeFast (from_ to_ : Nat) (tracked : List String) : Scan ScanOutcome := do
  let found ← discoverBlocks tracked (to_ + 1 - from_) from_ ⟨[], 0, none⟩
  let hashes ← scanner.tokenHashes from_ found.scannedBlocks tracked
  let candidateHashes := (found.candidateHashes ++ hashes).eraseDups
  candidateHashes.forM scanner.processTransaction
  return ⟨found.scannedBlocks, candidateHashes.length, found.lastBlock⟩

/-! ### The generic path -/

def touchesTrackedAddress (tracked : List String) (txHash : String) : Scan Bool :=
  if tracked.length = 0 then pure false
  else do
    let transfers ← ask (fun a => a.getTransfers txHash) fun _ => []
    return transfers.any fun t => normalizeForTracking t.toAddress ∈ tracked

def scanTransaction (tracked : List String) (txHash : String) : Scan Nat := do
  if ← touchesTrackedAddress tracked txHash then
    scanner.processTransaction txHash
    return 1
  else
    return 0

/-- The transactions of a block; counts the candidates. -/
def scanTransactions (tracked : List String) : List ChainTransaction → Scan Nat
  | [] => pure 0
  | tx :: txs => do
    let candidate ← scanner.scanTransaction tracked tx.hash
    let candidates ← scanTransactions tracked txs
    return candidate + candidates

def scanBlocks (tracked : List String) : Nat → Nat → ScanOutcome → Scan ScanOutcome
  | 0, _, outcome => pure outcome
  | count + 1, height, outcome =>
    readBlock height tracked >>= fun
      | none => pure outcome
      | some block => do
        let candidates ← scanner.scanTransactions tracked block.transactions
        scanBlocks tracked count (height + 1) {
          scannedBlocks := outcome.scannedBlocks + 1
          candidateTransactions := outcome.candidateTransactions + candidates
          lastBlock := some ⟨block.number, block.hash⟩ }

def scanRangeGeneric (from_ to_ : Nat) (tracked : List String) : Scan ScanOutcome :=
  scanner.scanBlocks tracked (to_ + 1 - from_) from_ ⟨0, 0, none⟩

/-! ### Cursor and reorg bookkeeping -/

/-- The addresses of live and of closed invoices; a malformed one is skipped. -/
def trackedOf (validateAddress : String → Bool) (network : Network) (db : Db) : List String :=
  (((db.addresses.rows.filter fun a => a.key.network = network ∧
    (a.status = .assigned ∨ a.status = .retired)).map fun a =>
      normalizeForTracking a.key.addressNormalized).filter validateAddress).eraseDups

def loadTrackedAddresses : Scan (List String) :=
  read fun m db => trackedOf m.adapter.validateAddress scanner.network db

/-- The first run starts from the tip. -/
def createCursor (chainTip : Nat) : Scan Position := do
  let start := if chainTip > 0 then chainTip - 1 else 0
  write (fun _ db => db.createCursor ⟨scanner.network, start, none, some chainTip, none, none⟩)
    [.started start]
  return ⟨start, none⟩

def loadCursor (chainTip : Nat) : Scan Position :=
  read (fun _ db => db.cursors.find? scanner.network) >>= fun
    | some existing => pure ⟨existing.lastProcessedBlock, existing.lastProcessedHash⟩
    | none => scanner.createCursor chainTip

/-- A block's hash, by the cheap method where there is one. -/
def getBlockHash (number : Nat) : Scan (Option String) :=
  ask (fun a =>
    if scanner.discovers then (discover (fun d => d.getLightBlock number) a).map
      fun b => b.map (·.hash)
    else (a.getBlock number).map fun b => b.map (·.hash)) fun _ => []

/-- Whether a stored hash, which may be missing or empty, is not the hash found. -/
def hashDiffers (stored found : Option String) : Bool :=
  match found with
  | none => true
  | some hash => decide (stored.map toLowerCase ≠ some (toLowerCase hash))

def checkForReorg (position : Position) : Scan Bool :=
  if position.lastProcessedHash.getD "" = "" ∨ position.lastProcessedBlock = 0 then pure false
  else do
    let hash ← scanner.getBlockHash position.lastProcessedBlock
    return hashDiffers position.lastProcessedHash hash

/-- The hash of a block that is not the first. -/
def previousHash (number : Nat) : Scan (Option String) :=
  if number > 0 then scanner.getBlockHash number else pure none

def handleReorg (fromBlock : Nat) : Scan Unit :=
  service (fun m => MonitorService.handleReorg scanner.network fromBlock m.now) []

def rewindCursor (fromBlock : Nat) : Scan Position := do
  scanner.handleReorg fromBlock
  let rewound := if fromBlock > 0 then fromBlock - 1 else 0
  let hash ← scanner.previousHash rewound
  write (fun m db => db.updateCursor scanner.network (ChainCursor.rewindTo ⟨rewound, hash⟩ m.now)
    fun _ => rfl) []
  return ⟨rewound, hash⟩

def saveCursor (position : Position) (chainTip : Nat) : Scan Unit :=
  write (fun _ db => db.updateCursor scanner.network (ChainCursor.saveAt position chainTip)
    fun _ => rfl) []

def updateConfirmations : Scan Unit :=
  service (fun m => MonitorService.updateConfirmations m.adapter scanner.network m.now) []

/-! ### A tick -/

/-- The last height of the next range. -/
def rangeEnd (chainTip from_ : Nat) : Nat :=
  if chainTip < from_ then from_ - 1 else min chainTip (from_ + scanner.blockBatchSize - 1)

def scanRange (from_ to_ : Nat) (tracked : List String) : Scan ScanOutcome :=
  if scanner.discovers ∧ to_ ≥ from_ then scanner.scanRangeFast from_ to_ tracked
  else scanner.scanRangeGeneric from_ to_ tracked

/-- Where a scan has got to. -/
def endingPosition (position : Position) : Option BlockRef → Position
  | none => position
  | some block => ⟨block.number, some block.hash⟩

def rewindIf (reorgDetected : Bool) (position : Position) : Scan Position :=
  if reorgDetected then scanner.rewindCursor position.lastProcessedBlock else pure position

def tick : Scan ScanResult := do
  let current ← ask (·.getCurrentBlock) fun _ => []
  let loaded ← scanner.loadCursor current.number
  let reorgDetected ← scanner.checkForReorg loaded
  let cursor ← scanner.rewindIf reorgDetected loaded
  let from_ := cursor.lastProcessedBlock + 1
  let tracked ← scanner.loadTrackedAddresses
  let outcome ← scanner.scanRange from_ (scanner.rangeEnd current.number from_) tracked
  let ending := endingPosition cursor outcome.lastBlock
  scanner.saveCursor ending current.number
  scanner.updateConfirmations
  return ⟨scanner.network, outcome.scannedBlocks, outcome.candidateTransactions, reorgDetected,
    current.number, ending.lastProcessedBlock⟩

end ChainScanner

end PaymentGateway
