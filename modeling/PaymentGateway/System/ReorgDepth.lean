import PaymentGateway.Monitor.Orphaning
import PaymentGateway.Monitor.Report
import PaymentGateway.Monitor.Rescan
import PaymentGateway.Monitor.Requests
import PaymentGateway.System.Backing
import PaymentGateway.System.Coverage

/-!
# How deep a reorganisation is undone

A tick that finds another hash at the cursor orphans what was mined there or above, takes the cursor
back by one block, and stores with it the hash that the chain has there now.

**Theorem (`buried_kept`).** Let a chain have settled, whatever became of its blocks before. However
many ticks follow, stopped or failing wherever they may, a transaction that was stored below the
cursor is never orphaned, and none of its transfers is. So of a reorganisation that goes deeper than
the cursor's own block, only the transactions of that block are undone.

The stored hash is either the one that was there when the chain settled, or it has been read off the
settled chain (`Agrees`); from then on no tick finds another one.
-/

namespace PaymentGateway

open Keyed Fallible Transactional Await MonitorService Scan ChainScanner EvmJsonRpcAdapter

/-! ## A settled chain -/

/-- A provider that knows the chain up to a height `low`, and nothing above `high`. -/
structure Shows (hashAt : Nat → String) (low high : Nat) (a : BlockchainAdapter) : Prop where
  block : ∀ height b, a.getBlock height = .ok (some b) →
    b.number = height ∧ b.hash = hashAt height ∧ height ≤ high
  noBlock : ∀ height, a.getBlock height = .ok none → low < height
  lightBlock : ∀ d height b, a.discovery = some d → d.getLightBlock height = .ok (some b) →
    b.number = height ∧ b.hash = hashAt height ∧ height ≤ high
  noLightBlock : ∀ d height, a.discovery = some d → d.getLightBlock height = .ok none → low < height

/-- What the scanner alone writes, and the monitor for it. -/
structure Watched where
  cursors : Cursors
  chainTxs : Table BlockchainTransaction (·.key)
  transfers : Table TokenTransfer (·.key)

def Db.watched (db : Db) : Watched := ⟨db.cursors, db.chainTxs, db.transfers⟩

/-- The moments of a tick that leads the chain from one height to another. -/
structure SettledBelow (hashAt : Nat → String) (low : Nat) (feed : Nat → Moment) (high : Nat) : Prop where
  grows : low ≤ high
  shows : ∀ n, Shows hashAt low high (feed n).adapter
  apart : ∀ n db, ((feed n).others db).watched = db.watched

/-! ## What is kept -/

variable {network : Network} {key : TxKey} {db db' : Db} {w w' : Watched} {p : Nat}

/-- A transaction of the chain has not been orphaned, and none of its transfers has. -/
structure Unorphaned (w : Watched) (key : TxKey) : Prop where
  row : ∃ row, w.chainTxs.find? key = some row ∧ row.status ≠ .orphaned
  transfers : ∀ t ∈ w.transfers, t.key.txKey = key → t.matchStatus ≠ .orphaned

/-- It was stored below a height. -/
structure Buried (w : Watched) (key : TxKey) (p : Nat) : Prop extends Unorphaned w key where
  below : ∀ row, w.chainTxs.find? key = some row → ∀ b ∈ row.blockNumber, b < p

/-- What becomes of a transfer once it is reported. -/
theorem confirmTransfer_unorphaned {transfer : TokenTransfer} {info : ConfirmationInfo} {now : Int}
    (hk : Unorphaned db.watched key) (h : confirmTransfer transfer info now db = .ok db') :
    Unorphaned db'.watched key := by
  obtain ⟨hchain, -, -⟩ := confirmTransfer_amounts h
  obtain ⟨f, hf, htransfers, hstep⟩ := confirmTransfer_transfers h
  refine ⟨?_, fun t ht htx => ?_⟩
  · show ∃ row, db'.chainTxs.find? key = some row ∧ row.status ≠ .orphaned
    rw [hchain]
    exact hk.row
  · have ht' : t ∈ db'.transfers := ht
    rw [htransfers] at ht'
    obtain ⟨r, hr, rfl⟩ := List.mem_map.1 ht'
    have hold := hk.transfers r hr (hf r ▸ htx)
    rcases hstep r hr with hsame | ⟨hcredited, -⟩
    · rw [hsame]
      unfold reportedTransfer
      split <;> exact hold
    · rw [hcredited]
      exact TransferMatchStatus.noConfusion

/-- No sighting is of an orphaned transfer. -/
theorem decision_ne_orphaned (s : Sighting) (db : Db) : (s.decision db).status ≠ .orphaned := by
  unfold Sighting.decision evaluateTransferMatch
  split_ifs
  all_goals try exact TransferMatchStatus.noConfusion
  split
  · exact TransferMatchStatus.noConfusion
  · split <;> exact TransferMatchStatus.noConfusion

theorem recordTransfer_unorphaned {s : Sighting} (hk : Unorphaned db.watched key)
    (h : recordTransfer db s = .ok db') : Unorphaned db'.watched key := by
  have hchain := recordTransfer_chainTxs h
  refine ⟨?_, fun t ht htx => ?_⟩
  · show ∃ row, db'.chainTxs.find? key = some row ∧ row.status ≠ .orphaned
    rw [hchain]
    exact hk.row
  · rcases recordTransfer_eq_ok h with ⟨-, rfl⟩ | ⟨-, row, hrow, hcases⟩
    · exact hk.transfers t ht htx
    have htransfers : db'.transfers = (db.upsertTransfer row).transfers := by
      rcases hcases with ⟨rfl, -⟩ | ⟨_, _, _, _, _, -, -, -, -, -, rfl⟩ <;> rfl
    have hfind := Table.find?_of_mem (show t ∈ db'.transfers from ht)
    rw [htransfers, Db.find?_upsertTransfer] at hfind
    have hnew : row.matchStatus ≠ .orphaned := by
      obtain ⟨-, -, -, -, hstatus, -, -⟩ := row_eq_ok hrow
      rw [hstatus]
      exact decision_ne_orphaned s db
    split at hfind
    · cases hold : db.transfers.find? t.key with
      | none =>
        rw [hold] at hfind
        cases hfind
        exact hnew
      | some old =>
        rw [hold] at hfind
        cases hfind
        exact hnew
    · exact hk.transfers t (Table.mem_of_find? hfind) htx

theorem chainRow_status (network : Network) (chainTx : ChainTransaction) (now : Int)
    (old : Option BlockchainTransaction) :
    (chainRow network chainTx now old).status = chainTxStatus chainTx := by
  cases old <;> rfl

theorem recordTransfers_unorphaned {chainTx : ChainTransaction} {transfers : List ParsedTransfer}
    {graceSeconds : Nat} {now : Int} (hk : Unorphaned db.watched key)
    (h : recordTransfers network chainTx transfers graceSeconds now db = .ok db') :
    Unorphaned db'.watched key := by
  obtain ⟨chainTxs, hchain⟩ := recordChainTransaction_eq db network chainTx now
  have hstart : Unorphaned (recordChainTransaction db network chainTx now).watched key := by
    obtain ⟨row, hrow, hstatus⟩ := hk.row
    refine ⟨?_, ?_⟩
    · show ∃ row, (recordChainTransaction db network chainTx now).chainTxs.find? key = some row ∧ _
      rw [find?_recordChainTransaction]
      split
      · refine ⟨_, rfl, ?_⟩
        rw [chainRow_status]
        unfold chainTxStatus
        split_ifs <;> exact ChainTxStatus.noConfusion
      · exact ⟨row, hrow, hstatus⟩
    · rw [hchain]
      exact hk.transfers
  exact foldlM_invariant (fun x : Db => Unorphaned x.watched key) hstart
    (fun t _ a b ha hab => recordTransfer_unorphaned ha hab) h

/-- The orphaning of another transaction. -/
theorem orphanTransaction_unorphaned {other : TxKey} {now : Int} (hne : key ≠ other)
    (hk : Unorphaned db.watched key) (h : orphanTransaction other now db = .ok db') :
    Unorphaned db'.watched key ∧ db'.chainTxs.find? key = db.chainTxs.find? key := by
  obtain ⟨hchain, -, hrows⟩ := orphanTransaction_frame h
  have hsame : db'.chainTxs.find? key = db.chainTxs.find? key := by
    rw [hchain key, if_neg hne]
  refine ⟨⟨?_, fun t ht htx => ?_⟩, hsame⟩
  · show ∃ row, db'.chainTxs.find? key = some row ∧ row.status ≠ .orphaned
    rw [hsame]
    exact hk.row
  · have ht' : t ∈ db'.transfers.rows := ht
    rw [hrows] at ht'
    obtain ⟨r, hr, rfl⟩ := List.mem_map.1 ht'
    rw [swept_key] at htx
    have hsame : swept other [] r = r := if_neg fun hswept => hne (htx.symm.trans hswept.1)
    rw [hsame]
    exact hk.transfers r hr htx

/-! ## Rules for the watched tables -/

section Watches

variable {α β : Type} {feed : Nat → Moment} {inv pre pre' P : Watched → Prop}
  {post post' : α → Watched → Prop} {after : β → Watched → Prop}

/-- Nobody else writes the watched tables. -/
def Apart (feed : Nat → Moment) : Prop := ∀ n db, ((feed n).others db).watched = db.watched

/-- The invariant is kept in any case; a scan that succeeds establishes its postcondition. -/
def Watches (feed : Nat → Moment) (inv pre : Watched → Prop) (x : Scan α)
    (post : α → Watched → Prop) : Prop :=
  Triple feed (fun _ s => inv s.db.watched ∧ pre s.db.watched) x
    (Upto (fun s => inv s.db.watched) fun a _ s => post a s.db.watched)

theorem Watches.mono {x : Scan α} (h : Watches feed inv pre x post) (hpre : ∀ w, pre' w → pre w)
    (hpost : ∀ a w, post a w → post' a w) : Watches feed inv pre' x post' :=
  Triple.mono h (fun _ _ hs => ⟨hs.1, hpre _ hs.2⟩)
    fun _ _ _ hs => ⟨hs.1, fun a ha => hpost a _ (hs.2 a ha)⟩

theorem Watches.pure {a : α} (h : ∀ w, pre w → post a w) : Watches feed inv pre (Pure.pure a) post :=
  Triple.pure_upto fun _ _ hs => ⟨hs.1, h _ hs.2⟩

theorem Watches.bind {x : Scan α} {f : α → Scan β} {Q : α → Watched → Prop}
    (hx : Watches feed inv pre x Q) (hf : ∀ a, Watches feed inv (Q a) (f a) after) :
    Watches feed inv pre (x >>= f) after :=
  Triple.bind_upto hx hf

/-- Use what a result is known to be. -/
theorem Watches.assume {p : Prop} {x : Scan α} (h : p → Watches feed inv pre x post) :
    Watches feed inv (fun w => pre w ∧ p) x post :=
  fun n s hs => h hs.2.2 n s ⟨hs.1, hs.2.1⟩

theorem Watches.forM {ι : Type} {f : ι → Scan Unit} {l : List ι}
    (hf : ∀ i, Watches feed inv P (f i) fun _ => P) :
    Watches feed inv P (l.forM f) fun _ => P := by
  induction l with
  | nil => exact Watches.pure fun _ h => h
  | cons i l ih => exact Watches.bind (hf i) fun _ => ih

theorem Watches.ask (hapart : Apart feed) {question : BlockchainAdapter → Except Error α}
    {note : α → List Call}
    (h : ∀ n w a, pre w → question (feed n).adapter = .ok a → post a w) :
    Watches feed inv pre (ask question note) post := by
  refine Triple.step fun n s hs => ?_
  obtain ⟨hinv, hpre⟩ := hs
  rw [← hapart n s.db] at hinv hpre
  dsimp only
  split_ifs with hstopped
  · exact ⟨hinv, fun a ha => by cases ha⟩
  · cases hanswer : question (feed n).adapter with
    | error e => exact ⟨hinv, fun a ha => by cases ha⟩
    | ok a => exact ⟨hinv, fun b hb => by cases hb; exact h n _ a hpre hanswer⟩

theorem Watches.read (hapart : Apart feed) {query : Moment → Db → α}
    (h : ∀ n db, pre db.watched → post (query (feed n) db) db.watched) :
    Watches feed inv pre (read query) post := by
  refine Triple.step fun n s hs => ?_
  obtain ⟨hinv, hpre⟩ := hs
  rw [← hapart n s.db] at hinv hpre
  dsimp only
  split_ifs with hstopped
  · exact ⟨hinv, fun a ha => by cases ha⟩
  · exact ⟨hinv, fun b hb => by cases hb; exact h n _ hpre⟩

theorem Watches.write (hapart : Apart feed) {f : Moment → Db → Except Error Db} {note : List Call}
    {post : Unit → Watched → Prop}
    (h : ∀ n db db', pre db.watched → f (feed n) db = .ok db' →
      inv db'.watched ∧ post () db'.watched) :
    Watches feed inv pre (write f note) post := by
  refine Triple.step fun n s hs => ?_
  obtain ⟨hinv, hpre⟩ := hs
  rw [← hapart n s.db] at hinv hpre
  dsimp only
  by_cases hstopped : (feed n).stopped = some 0
  · rw [if_pos hstopped]
    exact ⟨hinv, fun a ha => by cases ha⟩
  · rw [if_neg hstopped]
    cases hwrite : f (feed n) ((feed n).others s.db) with
    | error e => exact ⟨hinv, fun a ha => by cases ha⟩
    | ok db' =>
      obtain ⟨hinv', hpost⟩ := h n _ db' hpre hwrite
      exact ⟨hinv', fun _ _ => hpost⟩

/-- A call that keeps something with each of its commits. -/
theorem Watches.service (hapart : Apart feed) {f : Moment → Db → Execution Db Error}
    {note : List Call} (hinv : ∀ w, P w → inv w)
    (hf : ∀ m db, P db.watched → ∀ db' ∈ (f m db).committed, P db'.watched) :
    Watches feed inv P (service f note) fun _ => P := by
  refine Triple.step fun n s hs => ?_
  obtain ⟨-, hP⟩ := hs
  rw [← hapart n s.db] at hP
  have hkept := hf (feed n) _ hP
  have htake : ∀ k, P (((f (feed n) ((feed n).others s.db)).committed.take k).getLastD
      ((feed n).others s.db)).watched := by
    intro k
    rcases List.eq_nil_or_concat ((f (feed n) ((feed n).others s.db)).committed.take k) with
      hnil | ⟨l, a, hl⟩
    · rw [hnil]
      exact hP
    · have ha : a ∈ (f (feed n) ((feed n).others s.db)).committed := by
        apply List.mem_of_mem_take (i := k)
        rw [hl]
        simp
      rw [hl]
      simpa using hkept a ha
  have hfinal : P ((f (feed n) ((feed n).others s.db)).final ((feed n).others s.db)).watched := by
    have hall := htake (f (feed n) ((feed n).others s.db)).committed.length
    rwa [List.take_length] at hall
  dsimp only
  split
  · exact ⟨hinv _ (htake _), fun a ha => by cases ha⟩
  · split
    · exact ⟨hinv _ hfinal, fun a ha => by cases ha⟩
    · exact ⟨hinv _ hfinal, fun _ _ => hfinal⟩

end Watches

/-! ## The stored hash -/

/-- A stored hash that a tick on the settled chain finds again, if it looks for one. -/
def Agrees (hashAt : Nat → String) (known : Nat) (position : Position) : Prop :=
  position.lastProcessedHash.getD "" = "" ∨ position.lastProcessedBlock = 0 ∨
    (position.lastProcessedBlock ≤ known ∧ position.lastProcessedHash.map toLowerCase =
      some (toLowerCase (hashAt position.lastProcessedBlock)))

def ChainCursor.position (c : ChainCursor) : Position := ⟨c.lastProcessedBlock, c.lastProcessedHash⟩

variable {hashAt : Nat → String} {low high known : Nat} {feed : Nat → Moment} {cursor : ChainCursor}
  {position loaded : Position}

theorem Agrees.mono (h : Agrees hashAt low position) (hle : low ≤ high) :
    Agrees hashAt high position := by
  rcases h with h | h | h
  · exact .inl h
  · exact .inr (.inl h)
  · exact .inr (.inr ⟨h.1.trans hle, h.2⟩)

/-- The cursor is still where it was when the chain settled. -/
structure Before (network : Network) (key : TxKey) (cursor : ChainCursor) (w : Watched) : Prop where
  found : w.cursors.find? network = some cursor
  buried : Buried w key cursor.lastProcessedBlock

/-- The stored hash is one of the settled chain. -/
structure After (hashAt : Nat → String) (network : Network) (key : TxKey) (known : Nat)
    (w : Watched) : Prop where
  agrees : ∀ c, w.cursors.find? network = some c → Agrees hashAt known c.position
  unorphaned : Unorphaned w key

/-- The invariant of the ticks. -/
def Either (hashAt : Nat → String) (network : Network) (key : TxKey) (cursor : ChainCursor)
    (known : Nat) (w : Watched) : Prop :=
  Before network key cursor w ∨ After hashAt network key known w

theorem Either.mono (h : Either hashAt network key cursor low w) (hle : low ≤ high) :
    Either hashAt network key cursor high w := by
  rcases h with h | h
  · exact .inl h
  · exact .inr ⟨fun c hc => (h.agrees c hc).mono hle, h.unorphaned⟩

theorem Either.unorphaned (h : Either hashAt network key cursor known w) : Unorphaned w key := by
  rcases h with h | h
  · exact h.buried.toUnorphaned
  · exact h.unorphaned

/-! ## The services -/

/-- What each transaction of an operation keeps, each of its commits keeps. -/
theorem committed_watched {Q : Db → Prop} {op : Operation}
    (hstep : ∀ t, Except.ok t ∈ op.script db → ∀ a b, Q a → t.apply a = .ok b → Q b) (h : Q db) :
    ∀ db' ∈ (op.run db).committed, Q db' := by
  refine execAll_induction h fun f hf a b ha hab => ?_
  obtain ⟨entry, hentry, rfl⟩ := List.mem_map.1 hf
  cases entry with
  | error e => cases hab
  | ok t => exact hstep t hentry a b ha hab

theorem After.commit {t : Transaction} (h : After hashAt network key known db.watched)
    (hok : t.apply db = .ok db') (hkept : Unorphaned db'.watched key) :
    After hashAt network key known db'.watched := by
  refine ⟨fun c hc => h.agrees c ?_, hkept⟩
  have hcursors := Transaction.cursors hok
  rw [← hc]
  exact (congrArg (Table.find? · network) hcursors).symm

theorem processTransaction_after {adapter : BlockchainAdapter} {txHash : String}
    {graceSeconds : Nat} {now : Int} (h : After hashAt network key known db.watched) :
    ∀ db' ∈ (MonitorService.processTransaction adapter network txHash graceSeconds now
      db).committed, After hashAt network key known db'.watched := by
  rw [← run_processTransaction]
  refine committed_watched (fun t ht a b ha hok => ha.commit hok ?_) h
  simp only [Operation.script, Operation.processScript] at ht
  split at ht
  · simp at ht
  · simp at ht
  · split at ht
    · simp at ht
    · simp at ht
    · rw [List.mem_singleton] at ht
      cases ht
      exact recordTransfers_unorphaned ha.unorphaned hok

theorem updateConfirmations_after {adapter : BlockchainAdapter} {now : Int}
    (h : After hashAt network key known db.watched) :
    ∀ db' ∈ (MonitorService.updateConfirmations adapter network now db).committed,
      After hashAt network key known db'.watched := by
  rw [← run_updateConfirmations]
  refine committed_watched (fun t ht a b ha hok => ha.commit hok ?_) h
  obtain ⟨transfer, -, hentry⟩ := List.mem_map.1 ht
  cases hinfo : adapter.getConfirmations transfer.key.txHash with
  | error e =>
    rw [hinfo] at hentry
    cases hentry
  | ok info =>
    rw [hinfo] at hentry
    cases hentry
    exact confirmTransfer_unorphaned ha.unorphaned hok

/-- Only what was stored at the cursor or above it is orphaned. -/
theorem handleReorg_before {now : Int} (h : Before network key cursor db.watched) :
    ∀ db' ∈ (MonitorService.handleReorg network cursor.lastProcessedBlock now db).committed,
      Before network key cursor db'.watched := by
  have hnot : ∀ row ∈ orphanedTxs db network cursor.lastProcessedBlock, key ≠ row.key := by
    intro row hrow hkey
    obtain ⟨hmem, hwhere⟩ := List.mem_filter.1 hrow
    obtain ⟨-, hblock, -⟩ := of_decide_eq_true hwhere
    have hfind : db.chainTxs.find? key = some row := by
      rw [hkey]
      exact Table.find?_of_mem hmem
    cases hb : row.blockNumber with
    | none =>
      rw [hb] at hblock
      cases hblock
    | some b =>
      rw [hb] at hblock
      have hlow := h.buried.below row hfind b hb
      have hhigh : cursor.lastProcessedBlock ≤ b := by simpa using hblock
      omega
  rw [← run_handleReorg]
  refine committed_watched (Q := fun x => Before network key cursor x.watched) ?_ h
  intro t ht a b ha hok
  obtain ⟨row, hrow, hentry⟩ := List.mem_map.1 ht
  cases hentry
  obtain ⟨hkept, hsame⟩ := orphanTransaction_unorphaned (hnot row hrow) ha.buried.toUnorphaned hok
  refine ⟨?_, hkept, fun r hr => ha.buried.below r ?_⟩
  · rw [← ha.found]
    exact congrArg (Table.find? · network) (Transaction.cursors hok)
  · rw [← hr]
    exact hsame.symm

/-! ## A tick -/

section Tick

variable {scanner : ChainScanner} {inv : Watched → Prop}

/-- What a hash is found to be. -/
theorem Shows.blockHash {a : BlockchainAdapter} (h : Shows hashAt low high a) {number : Nat}
    {hash : Option String} (hanswer : (if scanner.discovers then
      (discover (fun d => d.getLightBlock number) a).map fun b => b.map (·.hash)
      else (a.getBlock number).map fun b => b.map (·.hash)) = .ok hash) :
    (hash = none → low < number) ∧ ∀ found, hash = some found → found = hashAt number ∧
      number ≤ high := by
  split_ifs at hanswer
  · cases hblock : discover (fun d => d.getLightBlock number) a with
    | error e =>
      rw [hblock] at hanswer
      cases hanswer
    | ok answer =>
      rw [hblock] at hanswer
      obtain ⟨d, hd, hlight⟩ := discover_eq_ok hblock
      cases answer with
      | none =>
        cases hanswer
        exact ⟨fun _ => h.noLightBlock d number hd hlight, fun found hfound => by cases hfound⟩
      | some b =>
        cases hanswer
        obtain ⟨-, hhash, hle⟩ := h.lightBlock d number b hd hlight
        exact ⟨(fun hnone => by cases hnone), fun found hfound => by
          cases hfound
          exact ⟨hhash, hle⟩⟩
  · cases hblock : a.getBlock number with
    | error e =>
      rw [hblock] at hanswer
      cases hanswer
    | ok answer =>
      rw [hblock] at hanswer
      cases answer with
      | none =>
        cases hanswer
        exact ⟨fun _ => h.noBlock number hblock, fun found hfound => by cases hfound⟩
      | some b =>
        cases hanswer
        obtain ⟨-, hhash, hle⟩ := h.block number b hblock
        exact ⟨(fun hnone => by cases hnone), fun found hfound => by
          cases hfound
          exact ⟨hhash, hle⟩⟩

theorem getBlockHash_watches (hs : SettledBelow hashAt low feed high) {pre : Watched → Prop}
    (number : Nat) :
    Watches feed inv pre (scanner.getBlockHash number) fun hash w => pre w ∧
      (hash = none → low < number) ∧ ∀ h, hash = some h → h = hashAt number ∧ number ≤ high :=
  Watches.ask hs.apart fun n _ _ hpre hanswer => ⟨hpre, (hs.shows n).blockHash hanswer⟩

/-- Where a tick begins: at the old cursor, or at one of the settled chain. -/
def Loaded (hashAt : Nat → String) (network : Network) (key : TxKey) (cursor : ChainCursor)
    (known : Nat) (position : Position) (w : Watched) : Prop :=
  (position = cursor.position ∧ Before network key cursor w) ∨
    (Agrees hashAt known position ∧ After hashAt network key known w)

theorem loadCursor_watches (hs : SettledBelow hashAt low feed high) (chainTip : Nat) :
    Watches feed (Either hashAt scanner.network key cursor high)
      (Either hashAt scanner.network key cursor low) (scanner.loadCursor chainTip)
      (Loaded hashAt scanner.network key cursor low) := by
  have hread : Watches feed (Either hashAt scanner.network key cursor high)
      (Either hashAt scanner.network key cursor low)
      (read fun _ db => db.cursors.find? scanner.network)
      fun found w => found = w.cursors.find? scanner.network ∧
        Either hashAt scanner.network key cursor low w :=
    Watches.read hs.apart fun _ _ h => ⟨rfl, h⟩
  unfold loadCursor
  refine Watches.bind hread fun found => ?_
  cases found with
  | some existing =>
    refine Watches.pure fun w h => ?_
    obtain ⟨hfind, hbefore | hafter⟩ := h
    · rw [hbefore.found] at hfind
      cases hfind
      exact .inl ⟨rfl, hbefore⟩
    · exact .inr ⟨hafter.agrees existing hfind.symm, hafter⟩
  | none =>
    unfold createCursor
    refine Watches.bind (Q := fun _ w => After hashAt scanner.network key low w) ?_ fun _ => ?_
    · refine Watches.write hs.apart fun n db db' h hcreate => ?_
      obtain ⟨hfind, hbefore | hafter⟩ := h
      · rw [hbefore.found] at hfind
        cases hfind
      unfold Db.createCursor at hcreate
      split at hcreate
      · cases hcreate
      · next hfree =>
        cases hcreate
        have hcreated : After hashAt scanner.network key low (Db.watched { db with
            cursors := db.cursors.insert _ hfree }) := by
          refine ⟨fun c hc => .inl ?_, hafter.unorphaned.row, hafter.unorphaned.transfers⟩
          have hnew := (Table.find?_insert (h := hfree) scanner.network).symm.trans hc
          rw [if_pos rfl] at hnew
          cases hnew
          rfl
        exact ⟨(Either.mono (.inr hcreated) hs.grows), hcreated⟩
    · exact Watches.pure fun w h => .inr ⟨.inl rfl, h⟩

/-- A reorganisation is detected only before. -/
theorem checkForReorg_watches (hs : SettledBelow hashAt low feed high) (loaded : Position) :
    Watches feed inv (Loaded hashAt scanner.network key cursor low loaded)
      (scanner.checkForReorg loaded) fun detected w =>
        (detected = true → loaded = cursor.position ∧ Before scanner.network key cursor w) ∧
        (detected = false → Agrees hashAt high loaded ∧
          After hashAt scanner.network key high w) := by
  -- Without a detection the stored hash is one of the settled chain, wherever it comes from.
  have hpassed : ∀ w, Loaded hashAt scanner.network key cursor low loaded w →
      Agrees hashAt high loaded → After hashAt scanner.network key high w := by
    intro w h hagrees
    rcases h with ⟨rfl, hbefore⟩ | ⟨-, hafter⟩
    · refine ⟨fun c hc => ?_, hbefore.buried.toUnorphaned⟩
      rw [hbefore.found] at hc
      cases hc
      exact hagrees
    · exact ⟨fun c hc => (hafter.agrees c hc).mono hs.grows, hafter.unorphaned⟩
  unfold checkForReorg
  by_cases hskip : loaded.lastProcessedHash.getD "" = "" ∨ loaded.lastProcessedBlock = 0
  · rw [if_pos hskip]
    have hagrees : Agrees hashAt high loaded := hskip.imp_right .inl
    refine Watches.pure fun w h => ⟨fun hdetected => ?_, fun _ => ⟨hagrees, hpassed w h hagrees⟩⟩
    cases hdetected
  · rw [if_neg hskip]
    refine Watches.bind (getBlockHash_watches hs loaded.lastProcessedBlock) fun hash => ?_
    refine Watches.pure fun w h => ?_
    obtain ⟨hloaded, hnone, hsome⟩ := h
    refine ⟨fun hdetected => ?_, fun hsame => ?_⟩
    · rcases hloaded with hbefore | ⟨hagrees, -⟩
      · exact hbefore
      obtain ⟨hle, hhash⟩ := (hagrees.resolve_left (not_or.1 hskip).1).resolve_left
        (not_or.1 hskip).2
      cases hash with
      | none => exact absurd (hnone rfl) (not_lt.2 hle)
      | some found =>
        obtain ⟨rfl, -⟩ := hsome found rfl
        simp [hashDiffers, hhash] at hdetected
    · cases hash with
      | none => cases hsame
      | some found =>
        obtain ⟨rfl, hle⟩ := hsome found rfl
        have hagrees : Agrees hashAt high loaded := .inr (.inr ⟨hle, by simpa [hashDiffers] using hsame⟩)
        exact ⟨hagrees, hpassed w hloaded hagrees⟩

/-- The cursor's row is written with a hash of the settled chain. -/
theorem updateCursor_watches (hs : SettledBelow hashAt low feed high) {pre : Watched → Prop}
    (f : Moment → ChainCursor → ChainCursor) (hf : ∀ m r, (f m r).network = r.network)
    (hposition : ∀ m r, (f m r).position = position) (hagrees : Agrees hashAt high position)
    (hpre : ∀ w, pre w → Unorphaned w key) :
    Watches feed (Either hashAt scanner.network key cursor high) pre
      (write (fun m db => db.updateCursor scanner.network (f m) (hf m)) [])
      fun _ => After hashAt scanner.network key high := by
  refine Watches.write hs.apart fun n db db' h hupdate => ?_
  unfold Db.updateCursor at hupdate
  split at hupdate
  · cases hupdate
  · next old hold =>
    cases hupdate
    have hkept := hpre _ h
    have hafter : After hashAt scanner.network key high (Db.watched { db with
        cursors := db.cursors.modify scanner.network (f (feed n)) (hf (feed n)) }) := by
      refine ⟨fun c hc => ?_, hkept.row, hkept.transfers⟩
      have hnew : (db.cursors.modify scanner.network (f (feed n)) (hf (feed n))).find?
          scanner.network = some c := hc
      rw [Table.find?_modify_self, hold] at hnew
      cases hnew
      rw [hposition]
      exact hagrees
    exact ⟨.inr hafter, hafter⟩

theorem rewindIf_watches (hs : SettledBelow hashAt low feed high) (detected : Bool) :
    Watches feed (Either hashAt scanner.network key cursor high)
      (fun w => (detected = true → loaded = cursor.position ∧
          Before scanner.network key cursor w) ∧
        (detected = false → Agrees hashAt high loaded ∧ After hashAt scanner.network key high w))
      (scanner.rewindIf detected loaded)
      fun position w => Agrees hashAt high position ∧ After hashAt scanner.network key high w := by
  unfold rewindIf
  cases detected with
  | false => exact Watches.pure fun w h => h.2 rfl
  | true =>
    by_cases hposition : loaded = cursor.position
    · subst hposition
      have hreorg : Watches feed (Either hashAt scanner.network key cursor high)
          (Before scanner.network key cursor)
          (scanner.handleReorg cursor.position.lastProcessedBlock)
          fun _ => Before scanner.network key cursor :=
        Watches.service hs.apart (fun _ h => .inl h) fun _ _ h => handleReorg_before h
      have hprevious : ∀ number, Watches feed (Either hashAt scanner.network key cursor high)
          (Before scanner.network key cursor) (scanner.previousHash number)
          fun hash w => Before scanner.network key cursor w ∧ Agrees hashAt high ⟨number, hash⟩ := by
        intro number
        unfold previousHash
        split_ifs
        · refine (getBlockHash_watches hs number).mono (fun _ h => h) fun hash w h => ⟨h.1, ?_⟩
          cases hash with
          | none => exact .inl rfl
          | some found =>
            obtain ⟨rfl, hle⟩ := h.2.2 found rfl
            exact .inr (.inr ⟨hle, rfl⟩)
        · exact Watches.pure fun w h => ⟨h, .inl rfl⟩
      unfold rewindCursor
      rw [if_pos rfl]
      refine (Watches.bind hreorg fun _ => Watches.bind (hprevious _) fun hash => ?_).mono
        (fun w h => (h.1 rfl).2) fun _ _ h => h
      refine Watches.assume fun hagrees => ?_
      exact Watches.bind (updateCursor_watches hs (fun m => ChainCursor.rewindTo ⟨_, hash⟩ m.now)
        (fun _ _ => rfl) (fun _ _ => rfl) hagrees fun w h => h.buried.toUnorphaned)
        fun _ => Watches.pure fun w h => ⟨hagrees, h⟩
    · exact fun n s hs' => absurd (hs'.2.1 rfl).1 hposition

/-- What a scan reads last is of the settled chain. -/
def Read (hashAt : Nat → String) (high : Nat) (last : Option BlockRef) : Prop :=
  ∀ b, last = some b → b.hash = hashAt b.number ∧ b.number ≤ high

variable {tracked : List String}

theorem processTransaction_watches (hs : SettledBelow hashAt low feed high) (txHash : String) :
    Watches feed (Either hashAt scanner.network key cursor high)
      (After hashAt scanner.network key high) (scanner.processTransaction txHash)
      fun _ => After hashAt scanner.network key high :=
  Watches.service hs.apart (fun _ h => .inr h) fun _ _ h => processTransaction_after h

theorem discoverBlocks_watches (hs : SettledBelow hashAt low feed high) {count height : Nat}
    {found : Found} (hfound : Read hashAt high found.lastBlock) :
    Watches feed (Either hashAt scanner.network key cursor high)
      (After hashAt scanner.network key high) (discoverBlocks tracked count height found)
      fun found' w => After hashAt scanner.network key high w ∧
        Read hashAt high found'.lastBlock := by
  induction count generalizing height found with
  | zero => exact Watches.pure fun w h => ⟨h, hfound⟩
  | succ count ih =>
    have hread : Watches feed (Either hashAt scanner.network key cursor high)
        (After hashAt scanner.network key high) (readLightBlock height tracked)
        fun answer w => After hashAt scanner.network key high w ∧
          ∀ b, answer = some b → b.hash = hashAt b.number ∧ b.number ≤ high := by
      refine Watches.ask hs.apart fun n w answer h hanswer => ⟨h, fun b hb => ?_⟩
      obtain ⟨d, hd, hlight⟩ := discover_eq_ok hanswer
      subst hb
      obtain ⟨hnumber, hhash, hle⟩ := (hs.shows n).lightBlock d height b hd hlight
      rw [hnumber]
      exact ⟨hhash, hle⟩
    refine Watches.bind hread fun answer => Watches.assume fun hanswer => ?_
    cases answer with
    | none => exact Watches.pure fun w h => ⟨h, hfound⟩
    | some block =>
      refine ih fun b hb => ?_
      cases hb
      exact hanswer block rfl

theorem scanRangeFast_watches (hs : SettledBelow hashAt low feed high) (from_ to_ : Nat) :
    Watches feed (Either hashAt scanner.network key cursor high)
      (After hashAt scanner.network key high) (scanner.scanRangeFast from_ to_ tracked)
      fun outcome w => After hashAt scanner.network key high w ∧
        Read hashAt high outcome.lastBlock := by
  unfold scanRangeFast
  refine Watches.bind (discoverBlocks_watches hs fun b hb => by cases hb) fun found => ?_
  refine Watches.assume fun hfound => ?_
  have hhashes : Watches feed (Either hashAt scanner.network key cursor high)
      (After hashAt scanner.network key high)
      (scanner.tokenHashes from_ found.scannedBlocks tracked)
      fun _ => After hashAt scanner.network key high := by
    unfold tokenHashes
    split_ifs
    · exact Watches.ask hs.apart fun _ _ _ h _ => h
    · exact Watches.pure fun _ h => h
  refine Watches.bind hhashes fun hashes => ?_
  exact Watches.bind (Watches.forM fun txHash => processTransaction_watches hs txHash)
    fun _ => Watches.pure fun w h => ⟨h, hfound⟩

theorem scanTransactions_watches (hs : SettledBelow hashAt low feed high) (txs : List ChainTransaction) :
    Watches feed (Either hashAt scanner.network key cursor high)
      (After hashAt scanner.network key high) (scanner.scanTransactions tracked txs)
      fun _ => After hashAt scanner.network key high := by
  induction txs with
  | nil => exact Watches.pure fun _ h => h
  | cons tx txs ih =>
    have htouches : Watches feed (Either hashAt scanner.network key cursor high)
        (After hashAt scanner.network key high) (touchesTrackedAddress tracked tx.hash)
        fun _ => After hashAt scanner.network key high := by
      unfold touchesTrackedAddress
      split_ifs
      · exact Watches.pure fun _ h => h
      · exact Watches.bind (Watches.ask hs.apart fun _ _ _ h _ => h)
          fun _ => Watches.pure fun _ h => h
    have hscan : Watches feed (Either hashAt scanner.network key cursor high)
        (After hashAt scanner.network key high) (scanner.scanTransaction tracked tx.hash)
        fun _ => After hashAt scanner.network key high := by
      unfold scanTransaction
      refine Watches.bind htouches fun touches => ?_
      cases touches with
      | false => exact Watches.pure fun _ h => h
      | true =>
        exact Watches.bind (processTransaction_watches hs tx.hash)
          fun _ => Watches.pure fun _ h => h
    exact Watches.bind hscan fun _ => Watches.bind ih fun _ => Watches.pure fun _ h => h

theorem scanBlocks_watches (hs : SettledBelow hashAt low feed high) {count height : Nat}
    {outcome : ScanOutcome} (hread : Read hashAt high outcome.lastBlock) :
    Watches feed (Either hashAt scanner.network key cursor high)
      (After hashAt scanner.network key high) (scanner.scanBlocks tracked count height outcome)
      fun outcome' w => After hashAt scanner.network key high w ∧
        Read hashAt high outcome'.lastBlock := by
  induction count generalizing height outcome with
  | zero => exact Watches.pure fun w h => ⟨h, hread⟩
  | succ count ih =>
    have hblock : Watches feed (Either hashAt scanner.network key cursor high)
        (After hashAt scanner.network key high) (readBlock height tracked)
        fun answer w => After hashAt scanner.network key high w ∧
          ∀ b, answer = some b → b.hash = hashAt b.number ∧ b.number ≤ high := by
      refine Watches.ask hs.apart fun n w answer h hanswer => ⟨h, fun b hb => ?_⟩
      subst hb
      obtain ⟨hnumber, hhash, hle⟩ := (hs.shows n).block height b hanswer
      rw [hnumber]
      exact ⟨hhash, hle⟩
    refine Watches.bind hblock fun answer => Watches.assume fun hanswer => ?_
    cases answer with
    | none => exact Watches.pure fun w h => ⟨h, hread⟩
    | some block =>
      refine Watches.bind (scanTransactions_watches hs block.transactions) fun candidates => ?_
      refine ih fun b hb => ?_
      cases hb
      exact hanswer block rfl

/-- **A tick keeps what is below the cursor.** -/
theorem tick_watches (hs : SettledBelow hashAt low feed high) :
    Watches feed (Either hashAt scanner.network key cursor high)
      (Either hashAt scanner.network key cursor low) scanner.tick fun _ _ => True := by
  have hask : Watches feed (Either hashAt scanner.network key cursor high)
      (Either hashAt scanner.network key cursor low) (ask (·.getCurrentBlock) fun _ => [])
      fun _ => Either hashAt scanner.network key cursor low :=
    Watches.ask hs.apart fun _ _ _ h _ => h
  have hrange : ∀ from_ to_ tracked, Watches feed (Either hashAt scanner.network key cursor high)
      (After hashAt scanner.network key high) (scanner.scanRange from_ to_ tracked)
      fun outcome w => After hashAt scanner.network key high w ∧
        Read hashAt high outcome.lastBlock := by
    intro from_ to_ tracked
    unfold scanRange scanRangeGeneric
    split_ifs
    · exact scanRangeFast_watches hs from_ to_
    · exact scanBlocks_watches hs fun b hb => by cases hb
  have hconfirm : Watches feed (Either hashAt scanner.network key cursor high)
      (After hashAt scanner.network key high) scanner.updateConfirmations
      fun _ => After hashAt scanner.network key high :=
    Watches.service hs.apart (fun _ h => .inr h) fun _ _ h => updateConfirmations_after h
  unfold tick
  refine Watches.bind hask fun current => ?_
  refine Watches.bind (loadCursor_watches hs current.number) fun loaded => ?_
  refine Watches.bind (checkForReorg_watches hs loaded) fun detected => ?_
  refine Watches.bind (rewindIf_watches hs detected) fun position => ?_
  have htracked : Watches feed (Either hashAt scanner.network key cursor high)
      (fun w => Agrees hashAt high position ∧ After hashAt scanner.network key high w)
      scanner.loadTrackedAddresses
      fun _ w => After hashAt scanner.network key high w ∧ Agrees hashAt high position :=
    Watches.read hs.apart fun _ _ h => ⟨h.2, h.1⟩
  refine Watches.bind htracked fun tracked => Watches.assume fun hagrees => ?_
  refine Watches.bind (hrange _ _ tracked) fun outcome => Watches.assume fun hread => ?_
  have hending : Agrees hashAt high (endingPosition position outcome.lastBlock) := by
    cases hlast : outcome.lastBlock with
    | none => exact hagrees
    | some b =>
      obtain ⟨hhash, hle⟩ := hread b hlast
      refine .inr (.inr ⟨hle, ?_⟩)
      show some (toLowerCase b.hash) = some (toLowerCase (hashAt b.number))
      rw [hhash]
  refine Watches.bind (updateCursor_watches hs (fun _ => ChainCursor.saveAt _ current.number)
    (fun _ _ => rfl) (fun _ _ => rfl) hending fun w h => h.unorphaned) fun _ => ?_
  exact Watches.bind hconfirm fun _ => Watches.pure fun _ _ => trivial

end Tick

/-! ## Ticks -/

/-- **How deep a reorganisation is undone.** The chain has settled, at whatever height, and whatever
the cursor has stored. In every state that ticks on it lead to, a transaction that was stored below
the cursor is not orphaned, and neither are its transfers. -/
theorem buried_kept {hashAt : Nat → String} {scanner : ChainScanner} {low known : Nat} {db : Db}
    {s : ScanSession} {cursor : ChainCursor} {key : TxKey}
    (h : Stages (SettledBelow hashAt) scanner.tick low ⟨db, []⟩ known s)
    (hcursor : db.cursors.find? scanner.network = some cursor)
    (hburied : Buried db.watched key cursor.lastProcessedBlock) : Unorphaned s.db.watched key := by
  have htick : ∀ low feed high, SettledBelow hashAt low feed high →
      Triple feed (fun _ s => Either hashAt scanner.network key cursor low s.db.watched)
        scanner.tick fun _ _ s => Either hashAt scanner.network key cursor high s.db.watched :=
    fun low feed high hs => Triple.mono (tick_watches hs) (fun _ _ h => ⟨h.mono hs.grows, h⟩)
      fun _ _ _ h => h.1
  exact (h.invariant (.inl ⟨hcursor, hburied⟩) htick).unorphaned

/-- The hashes of a node's blocks. -/
def hashesOf (node : EvmNode) (height : Nat) : String :=
  (node.blockByNumber height).elim "" (·.hash)

/-- A node without gaps knows its chain. -/
theorem shows_self {node : EvmNode}
    (hcomplete : ∀ height ≤ node.blockNumber, (node.blockByNumber height).isSome = true) :
    Shows (hashesOf node) node.blockNumber node.blockNumber (evmAdapter node) := by
  have hknown : ∀ height b, node.blockByNumber height = some b →
      b.number = height ∧ b.hash = hashesOf node height ∧ height ≤ node.blockNumber := by
    intro height b hb
    obtain ⟨hmem, rfl⟩ := EvmNode.blockByNumber_mem hb
    refine ⟨rfl, ?_, EvmNode.number_le_blockNumber hmem⟩
    rw [hashesOf, hb]
    rfl
  have hunknown : ∀ height, node.blockByNumber height = none → node.blockNumber < height := by
    intro height hnone
    by_contra hle
    have hsome := hcomplete height (not_lt.1 hle)
    rw [hnone] at hsome
    cases hsome
  refine ⟨fun height b h => ?_, fun height h => ?_, fun d height b hd h => ?_, fun d height hd h => ?_⟩
  · obtain ⟨block, hfind, rfl⟩ := Option.map_eq_some_iff.1 (Except.ok.inj h)
    exact hknown height block hfind
  · exact hunknown height (Option.map_eq_none_iff.1 (Except.ok.inj h))
  · cases hd
    obtain ⟨block, hfind, rfl⟩ := Option.map_eq_some_iff.1 (Except.ok.inj h)
    exact hknown height block hfind
  · cases hd
    exact hunknown height (Option.map_eq_none_iff.1 (Except.ok.inj h))

namespace Shop

/-- The chain after its last two blocks have been replaced, and a payment with them. -/
def reorganisedNode : EvmNode where
  blocks := [⟨0, "genesis", []⟩, ⟨1, "first", []⟩, ⟨2, "other second", []⟩, ⟨3, "other third", []⟩]
  mempool := []
  numbers_distinct := by decide
  hashes_distinct := by decide

def lostKey : TxKey := ⟨.ethereum, "lost"⟩

/-- The payment is stored in the second block, and the cursor is at the third. -/
def beforeReorg : Db := { Db.empty with
  chainTxs := Db.empty.chainTxs.insert
    ⟨lostKey, .mined, some 2, some "second", none, none, none, 2, some 0, none⟩ rfl
  cursors := Db.empty.cursors.insert ⟨.ethereum, 3, some "third", some 3, none, none⟩ rfl }

def quietMoments (_ : Nat) : Moment := .undisturbed (evmAdapter reorganisedNode) 1000

def afterReorg : ScanSession :=
  (ethereumScanner.tick quietMoments 0
    (ethereumScanner.tick quietMoments 0 ⟨beforeReorg, []⟩).state).state

end Shop

/-- Two ticks later the cursor is on the new chain, and the lost payment is still there. -/
theorem buried_kept_shop :
    (Shop.afterReorg.db.cursors.find? .ethereum).map (·.lastProcessedHash) =
      some (some "other third") ∧
    (Shop.reorganisedNode.executed.map fun p => p.2.hash) = [] ∧
    Unorphaned Shop.afterReorg.db.watched Shop.lostKey := by
  refine ⟨by decide +kernel, by decide +kernel, ?_⟩
  have hshows : Shows (hashesOf Shop.reorganisedNode) 3 3 (evmAdapter Shop.reorganisedNode) :=
    shows_self (by decide +kernel)
  have hsettled : SettledBelow (hashesOf Shop.reorganisedNode) 3 Shop.quietMoments 3 :=
    ⟨le_rfl, fun _ => hshows, fun _ _ => rfl⟩
  have hticks : Stages (SettledBelow (hashesOf Shop.reorganisedNode)) Shop.ethereumScanner.tick 3
      ⟨Shop.beforeReorg, []⟩ 3 Shop.afterReorg := .stage (.stage .start _ hsettled) _ hsettled
  refine buried_kept hticks rfl ⟨⟨⟨_, rfl, by decide⟩, fun t ht => ?_⟩, fun row hrow b hb => ?_⟩
  · exact absurd ht (Table.not_mem_empty t)
  · cases hrow
    cases hb
    decide

end PaymentGateway
