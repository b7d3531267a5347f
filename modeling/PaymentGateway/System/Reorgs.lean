import Mathlib.Logic.Relation
import PaymentGateway.System.Paths
import PaymentGateway.System.Survey

/-!
# Which reorganisations are undone

Ticks follow one another, and between two of them the chain may become any other chain.

**Theorem (`shallow_undone`).** After a tick, every block from the first one read to the cursor is
on the chain in the version last read, and so is every block in which a transaction is recorded as
mined, exactly if the chain has kept what had been read below the cursor's own block. What it has
not kept there is not read again, however many ticks follow while it grows.

The tick of the scanner does what `Survey.Tick` says (`tick_surveyed`); the rest is about surveys.
-/

namespace PaymentGateway

open Keyed Fallible Transactional Await MonitorService Scan ChainScanner EvmJsonRpcAdapter

/-! ## The chain during a tick -/

/-- An adapter that tells what the chain is, if it answers. -/
structure Tells (chain : CanonicalChain) (a : BlockchainAdapter) : Prop
    extends Shows chain.hashAt chain.tip chain.tip a where
  transactions : ∀ height b, a.getBlock height = .ok (some b) → ∀ tx ∈ b.transactions,
    chain.heightOf tx.hash = some height
  lightTransactions : ∀ d height b, a.discovery = some d → d.getLightBlock height = .ok (some b) →
    ∀ tx ∈ b.transactions, chain.heightOf tx.hash = some height
  logs : ∀ d fromBlock toBlock contracts addresses l, a.discovery = some d →
    d.getTransferLogsTo fromBlock toBlock contracts addresses = .ok l → ∀ txHash ∈ l,
      ∃ height, chain.heightOf txHash = some height ∧ fromBlock ≤ height ∧ height ≤ toBlock
  transaction : ∀ txHash tx height, a.getTransaction txHash = .ok (some tx) →
    chain.heightOf txHash = some height →
      tx.blockNumber = some height ∧ tx.blockHash = some (chain.hashAt height)

/-- The moments of a tick on a chain. Nobody else records transactions of the chain. -/
structure OnChain (chain : CanonicalChain) (feed : Nat → Moment) : Prop where
  tells : ∀ n, Tells chain (feed n).adapter
  apart : ∀ n db, ((feed n).others db).chainTxs = db.chainTxs

/-! ## What is seen of a scanner -/

/-- The blocks in which transactions of a network are recorded as mined. -/
def minedIn (network : Network) (db : Db) : List (Option Nat × Option String) :=
  (db.chainTxs.rows.filter fun row => row.key.network = network ∧
    (row.status = .mined ∨ row.status = .confirmed)).map fun row => (row.blockNumber, row.blockHash)

/-- The database, and the blocks that have been read, in the versions they had then. -/
structure Followed where
  db : Db
  scanned : List (Nat × String)

def Followed.survey (network : Network) (w : Followed) : Survey where
  position := (w.db.cursors.find? network).map (·.position)
  scanned := w.scanned
  mined := minedIn network w.db

/-- The blocks that were read, if the chain was this. -/
def versionsRead (chain : CanonicalChain) (calls : List Call) : List (Nat × String) :=
  calls.filterMap fun
    | .scanned height _ => some (height, chain.hashAt height)
    | .started _ => none
    | .handed _ => none

/-- Where a tick has got to that found so much read. -/
def ScanSession.followed (chain : CanonicalChain) (found : List (Nat × String)) (s : ScanSession) :
    Followed :=
  ⟨s.db, versionsRead chain s.calls ++ found⟩

/-! ## Rules for scans that succeed -/

section Achieves

variable {α β : Type} {feed : Nat → Moment} {look : ScanSession → Survey} {pre pre' : Survey → Prop}
  {post post' : α → Survey → Prop} {after : β → Survey → Prop}

/-- A scan that succeeds establishes its postcondition. -/
def Achieves (feed : Nat → Moment) (look : ScanSession → Survey) (pre : Survey → Prop) (x : Scan α)
    (post : α → Survey → Prop) : Prop :=
  Triple feed (fun _ s => pre (look s)) x (Upto (fun _ => True) fun a _ s => post a (look s))

theorem Achieves.mono {x : Scan α} (h : Achieves feed look pre x post) (hpre : ∀ s, pre' s → pre s)
    (hpost : ∀ a s, post a s → post' a s) : Achieves feed look pre' x post' :=
  Triple.mono h (fun _ _ hs => hpre _ hs) fun _ _ _ hs => ⟨hs.1, fun a ha => hpost a _ (hs.2 a ha)⟩

theorem Achieves.pure {a : α} (h : ∀ s, pre s → post a s) :
    Achieves feed look pre (Pure.pure a) post :=
  Triple.pure_upto fun _ _ hs => ⟨trivial, h _ hs⟩

theorem Achieves.bind {x : Scan α} {f : α → Scan β} (hx : Achieves feed look pre x post)
    (hf : ∀ a, Achieves feed look (post a) (f a) after) : Achieves feed look pre (x >>= f) after :=
  Triple.bind_upto hx fun a => Triple.mono (hf a) (fun _ _ hs => hs.2) fun _ _ _ hs => hs

/-- Use what a result is known to be. -/
theorem Achieves.assume {p : Prop} {x : Scan α} (h : p → Achieves feed look pre x post) :
    Achieves feed look (fun s => p ∧ pre s) x post :=
  fun n s hs => h hs.1 n s hs.2

theorem Achieves.choose {ι : Type} {may : ι → Survey → Prop} {x : Scan α}
    (h : ∀ i, Achieves feed look (may i) x post) :
    Achieves feed look (fun s => ∃ i, may i s) x post :=
  fun n s ⟨i, hs⟩ => h i n s hs

theorem Achieves.forM {ι : Type} {f : ι → Scan Unit} {l : List ι}
    (hf : ∀ i ∈ l, Achieves feed look pre (f i) fun _ => pre) :
    Achieves feed look pre (l.forM f) fun _ => pre := by
  induction l with
  | nil => exact Achieves.pure fun _ h => h
  | cons i l ih =>
    exact Achieves.bind (hf i List.mem_cons_self) fun _ =>
      ih fun j hj => hf j (List.mem_cons_of_mem _ hj)

/-- Nothing of what is seen is written by others. -/
def Unmixed (feed : Nat → Moment) (look : ScanSession → Survey) : Prop :=
  ∀ n s, look { s with db := (feed n).others s.db } = look s

theorem Achieves.ask (hunmixed : Unmixed feed look) {question : BlockchainAdapter → Except Error α}
    {note : α → List Call} (h : ∀ n s a, pre (look s) → question (feed n).adapter = .ok a →
      post a (look { s with calls := note a ++ s.calls })) :
    Achieves feed look pre (ask question note) post := by
  refine Triple.step fun n s hpre => ?_
  rw [← hunmixed n s] at hpre
  dsimp only
  split_ifs with hstopped
  · exact ⟨trivial, fun a ha => by cases ha⟩
  · cases hanswer : question (feed n).adapter with
    | error e => exact ⟨trivial, fun a ha => by cases ha⟩
    | ok a => exact ⟨trivial, fun b hb => by cases hb; exact h n _ a hpre hanswer⟩

theorem Achieves.read (hunmixed : Unmixed feed look) {query : Moment → Db → α}
    (h : ∀ n s, pre (look s) → post (query (feed n) s.db) (look s)) :
    Achieves feed look pre (read query) post := by
  refine Triple.step fun n s hpre => ?_
  rw [← hunmixed n s] at hpre
  dsimp only
  split_ifs with hstopped
  · exact ⟨trivial, fun a ha => by cases ha⟩
  · exact ⟨trivial, fun b hb => by cases hb; exact h n _ hpre⟩

theorem Achieves.write (hunmixed : Unmixed feed look) {f : Moment → Db → Except Error Db}
    {note : List Call} {post : Unit → Survey → Prop}
    (h : ∀ n s db, pre (look s) → f (feed n) s.db = .ok db → post () (look ⟨db, note ++ s.calls⟩)) :
    Achieves feed look pre (write f note) post := by
  refine Triple.step fun n s hpre => ?_
  rw [← hunmixed n s] at hpre
  dsimp only
  by_cases hstopped : (feed n).stopped = some 0
  · rw [if_pos hstopped]
    exact ⟨trivial, fun a ha => by cases ha⟩
  · rw [if_neg hstopped]
    cases hwrite : f (feed n) ((feed n).others s.db) with
    | error e => exact ⟨trivial, fun a ha => by cases ha⟩
    | ok db => exact ⟨trivial, fun _ _ => h n { s with db := (feed n).others s.db } db hpre hwrite⟩

theorem Achieves.service (hunmixed : Unmixed feed look) {f : Moment → Db → Execution Db Error}
    {note : List Call} {post : Unit → Survey → Prop}
    (h : ∀ n s, pre (look s) → (f (feed n) s.db).error = none →
      post () (look ⟨(f (feed n) s.db).final s.db, note ++ s.calls⟩)) :
    Achieves feed look pre (service f note) post := by
  refine Triple.step fun n s hpre => ?_
  rw [← hunmixed n s] at hpre
  dsimp only
  split
  · exact ⟨trivial, fun a ha => by cases ha⟩
  · split
    · exact ⟨trivial, fun a ha => by cases ha⟩
    · next hnone =>
      exact ⟨trivial, fun _ _ => h n { s with db := (feed n).others s.db } hpre hnone⟩

end Achieves

/-! ## What the services record -/

variable {network : Network} {chain : CanonicalChain} {db : Db} {height : Nat}

theorem mem_minedIn {m : Option Nat × Option String} :
    m ∈ minedIn network db ↔ ∃ row ∈ db.chainTxs, row.key.network = network ∧
      (row.status = .mined ∨ row.status = .confirmed) ∧ (row.blockNumber, row.blockHash) = m := by
  simp only [minedIn, List.mem_map, List.mem_filter, decide_eq_true_eq, and_assoc]
  rfl

theorem chainRow_block (chainTx : ChainTransaction) (now : Int)
    (old : Option BlockchainTransaction) :
    ((chainRow network chainTx now old).blockNumber, (chainRow network chainTx now old).blockHash) =
      (chainTx.blockNumber, chainTx.blockHash) := by
  cases old <;> rfl

theorem recordTransfers_mined {chainTx : ChainTransaction} {transfers : List ParsedTransfer}
    {graceSeconds : Nat} {now : Int} {db' : Db}
    (h : recordTransfers network chainTx transfers graceSeconds now db = .ok db') :
    ∀ m ∈ minedIn network db', m ∈ minedIn network db ∨
      m = (chainTx.blockNumber, chainTx.blockHash) := by
  intro m hm
  obtain ⟨row, hrow, hnetwork, hstatus, rfl⟩ := mem_minedIn.1 hm
  have hfind := Table.find?_of_mem hrow
  rw [recordTransfers_chainTxs h] at hfind
  split_ifs at hfind
  · right
    rw [← Option.some.inj hfind]
    exact chainRow_block chainTx now _
  · exact .inl (mem_minedIn.2 ⟨row, Table.mem_of_find? hfind, hnetwork, hstatus, rfl⟩)

/-- A transaction of a block is recorded in it. -/
theorem processTransaction_mined {a : BlockchainAdapter} {txHash : String} {graceSeconds : Nat}
    {now : Int} (ha : Tells chain a) (hheight : chain.heightOf txHash = some height)
    (hok : (MonitorService.processTransaction a network txHash graceSeconds now db).error = none) :
    ∀ m ∈ minedIn network
        ((MonitorService.processTransaction a network txHash graceSeconds now db).final db),
      m ∈ minedIn network db ∨ m = (some height, some (chain.hashAt height)) := by
  unfold MonitorService.processTransaction at hok ⊢
  split
  · exact fun m hm => .inl hm
  · exact fun m hm => .inl hm
  · next chainTx htx =>
    obtain ⟨hnumber, hhash⟩ := ha.transaction _ _ _ htx hheight
    rw [htx] at hok
    split
    · exact fun m hm => .inl hm
    · exact fun m hm => .inl hm
    · next transfer transfers hlist =>
      rw [hlist] at hok
      cases hrecord : recordTransfers network chainTx (transfer :: transfers) graceSeconds now
        db with
      | error e => simp [exec, hrecord] at hok
      | ok db' =>
        intro m hm
        have hfinal : m ∈ minedIn network db' := by simpa [exec, hrecord, Execution.final] using hm
        rw [← hnumber, ← hhash]
        exact recordTransfers_mined hrecord m hfinal

/-- What was recorded at a height or above it is not recorded as mined any more. -/
theorem handleReorg_mined {fromBlock : Nat} {now : Int}
    (hok : (MonitorService.handleReorg network fromBlock now db).error = none) :
    ∀ m ∈ minedIn network ((MonitorService.handleReorg network fromBlock now db).final db),
      m ∈ minedIn network db ∧ ∀ height ∈ m.1, height < fromBlock := by
  unfold MonitorService.handleReorg at hok ⊢
  have hloop := foldlM_invariant_done
    (fun done x : _ => ∀ key : TxKey, (key ∈ done.map (·.key) → ∀ row,
        x.chainTxs.find? key = some row → row.status = .orphaned) ∧
      (key ∉ done.map (·.key) → x.chainTxs.find? key = db.chainTxs.find? key))
    (fun key => ⟨fun hmem => absurd hmem List.not_mem_nil, fun _ => rfl⟩)
    (fun done (i : BlockchainTransaction) x y hx hxy key => ?_) (foldlM_final hok)
  · intro m hm
    obtain ⟨row, hrow, hnetwork, hstatus, rfl⟩ := mem_minedIn.1 hm
    have hfind := Table.find?_of_mem hrow
    obtain ⟨horphaned, hsame⟩ := hloop row.key
    by_cases hmem : row.key ∈ (orphanedTxs db network fromBlock).map (·.key)
    · rw [horphaned hmem row hfind] at hstatus
      rcases hstatus with hstatus | hstatus <;> cases hstatus
    · rw [hsame hmem] at hfind
      have hold := Table.mem_of_find? hfind
      refine ⟨mem_minedIn.2 ⟨row, hold, hnetwork, hstatus, rfl⟩, fun height hheight => ?_⟩
      by_contra hle
      refine hmem (List.mem_map_of_mem (List.mem_filter.2 ⟨hold, decide_eq_true ?_⟩))
      refine ⟨hnetwork, ?_, hstatus⟩
      have hblock : row.blockNumber = some height := hheight
      rw [hblock]
      exact decide_eq_true (not_lt.1 hle)
  · obtain ⟨hframe, -, -⟩ := orphanTransaction_frame hxy
    obtain ⟨horphaned, hsame⟩ := hx key
    rw [List.map_append, List.mem_append, List.map_singleton, List.mem_singleton, hframe key]
    refine ⟨fun hmem row hrow => ?_, fun hnot => ?_⟩
    · split_ifs at hrow with hkey
      · obtain ⟨old, -, rfl⟩ := Option.map_eq_some_iff.1 hrow
        rfl
      · exact horphaned (hmem.resolve_right hkey) row hrow
    · rw [not_or] at hnot
      rw [if_neg hnot.2, hsame hnot.1]

theorem updateConfirmations_mined {a : BlockchainAdapter} {now : Int}
    (hok : (MonitorService.updateConfirmations a network now db).error = none) :
    minedIn network ((MonitorService.updateConfirmations a network now db).final db) =
      minedIn network db := by
  unfold MonitorService.updateConfirmations at hok ⊢
  have hkept := foldlM_invariant (fun x : Db => x.chainTxs = db.chainTxs) rfl
    (fun t _ x y hx hxy => ?_) (foldlM_final hok)
  · unfold minedIn
    rw [hkept]
  · obtain ⟨info, -, hconfirm⟩ := bind_eq_ok.1 hxy
    exact (confirmTransfer_amounts hconfirm).1.trans hx

/-! ## The awaits of a tick -/

section Tick

variable {scanner : ChainScanner} {found : List (Nat × String)} {feed : Nat → Moment}
  {s0 before : Survey} {p : Position} {count : Nat} {kept : List (Option Nat × Option String)}
  {tracked : List String}

/-- What is seen during a tick. -/
def seenBy (scanner : ChainScanner) (chain : CanonicalChain) (found : List (Nat × String))
    (s : ScanSession) : Survey :=
  (s.followed chain found).survey scanner.network

theorem seenBy_unmixed (h : OnChain chain feed) : Unmixed feed (seenBy scanner chain found) := by
  intro n s
  unfold seenBy ScanSession.followed Followed.survey minedIn
  dsimp only
  rw [(feed n).others_cursors, h.apart]

/-- The cursor has been loaded or created. -/
theorem loadCursor_achieves (h : OnChain chain feed) (chainTip : Nat) :
    Achieves feed (seenBy scanner chain found) (· = s0) (scanner.loadCursor chainTip)
      fun p s => s0.Loads p ∧ s = { s0 with position := some p } := by
  have hread : Achieves feed (seenBy scanner chain found) (· = s0)
      (read fun _ db => db.cursors.find? scanner.network)
      fun answer s => s0.position = answer.map (·.position) ∧ s = s0 :=
    Achieves.read (seenBy_unmixed h) fun n s hs => ⟨hs ▸ rfl, hs⟩
  unfold loadCursor
  refine Achieves.bind hread fun answer => Achieves.assume fun hanswer => ?_
  cases answer with
  | some existing =>
    refine Achieves.pure fun s hs => ⟨.inl hanswer, ?_⟩
    rw [hs, show some (⟨existing.lastProcessedBlock, existing.lastProcessedHash⟩ : Position) =
      s0.position from hanswer.symm]
  | none =>
    have hcreate : ∀ row : ChainCursor, row.network = scanner.network →
        Achieves feed (seenBy scanner chain found) (· = s0)
          (write (fun _ db => db.createCursor row) [.started row.lastProcessedBlock])
          fun _ s => s = { s0 with position := some row.position } := by
      intro row hrow
      refine Achieves.write (seenBy_unmixed h) fun n s db hs hcreate => ?_
      unfold Db.createCursor at hcreate
      split at hcreate
      · cases hcreate
      · next hfree =>
        cases hcreate
        rw [← hs]
        unfold seenBy Followed.survey
        dsimp only [ScanSession.followed]
        rw [Table.find?_insert, if_pos hrow]
        rfl
    unfold createCursor
    exact Achieves.bind (hcreate _ rfl) fun _ =>
      Achieves.pure fun s hs => ⟨.inr ⟨hanswer, rfl⟩, hs⟩

theorem getBlockHash_achieves (h : OnChain chain feed) {pre : Survey → Prop} (number : Nat) :
    Achieves feed (seenBy scanner chain found) pre (scanner.getBlockHash number)
      fun hash s => (hash = if number ≤ chain.tip then some (chain.hashAt number) else none) ∧
        pre s := by
  refine Achieves.ask (seenBy_unmixed h) fun n s hash hs hanswer => ⟨?_, hs⟩
  obtain ⟨hnone, hsome⟩ := (h.tells n).toShows.blockHash hanswer
  cases hash with
  | none => rw [if_neg (not_le.2 (hnone rfl))]
  | some found =>
    obtain ⟨rfl, hle⟩ := hsome found rfl
    rw [if_pos hle]

/-- A reorganisation is detected where the chain has another hash than the stored one. -/
theorem checkForReorg_achieves (h : OnChain chain feed) {pre : Survey → Prop} (p : Position) :
    Achieves feed (seenBy scanner chain found) pre (scanner.checkForReorg p)
      fun detected s => (detected = true ↔ ¬ Agrees chain.hashAt chain.tip p) ∧ pre s := by
  unfold checkForReorg
  split_ifs with hskip
  · refine Achieves.pure fun s hs => ⟨?_, hs⟩
    have hagrees : Agrees chain.hashAt chain.tip p := hskip.imp_right .inl
    simp [hagrees]
  · refine Achieves.bind (getBlockHash_achieves h p.lastProcessedBlock) fun hash => ?_
    refine Achieves.assume fun hhash => Achieves.pure fun s hs => ⟨?_, hs⟩
    obtain ⟨hstored, hblock⟩ := not_or.1 hskip
    unfold Agrees
    simp only [hstored, hblock, false_or]
    subst hhash
    split_ifs with hle
    · simp [hashDiffers, hle]
    · simp [hashDiffers, hle]

/-- The cursor's row is written. -/
theorem updateCursor_achieves (h : OnChain chain feed) {pre : Survey → Prop}
    (f : Moment → ChainCursor → ChainCursor) (hf : ∀ m r, (f m r).network = r.network)
    (hposition : ∀ m r, (f m r).position = p) :
    Achieves feed (seenBy scanner chain found) pre
      (write (fun m db => db.updateCursor scanner.network (f m) (hf m)) [])
      fun _ s => ∃ s', pre s' ∧ s = { s' with position := some p } := by
  refine Achieves.write (seenBy_unmixed h) fun n s db hs hupdate => ⟨_, hs, ?_⟩
  unfold Db.updateCursor at hupdate
  split at hupdate
  · cases hupdate
  · next old hold =>
    cases hupdate
    unfold seenBy Followed.survey
    dsimp only [ScanSession.followed]
    rw [Table.find?_modify_self, hold, ← hposition (feed n) old]
    rfl

/-- A service writes no cursor, and it may record transactions. -/
theorem service_achieves (h : OnChain chain feed) {f : Moment → Db → Execution Db Error}
    {note : List Call} (hnote : versionsRead chain note = [])
    (hcursors : ∀ m db, ∀ db' ∈ (f m db).committed, db'.cursors = db.cursors) {pre : Survey → Prop}
    {post : Unit → Survey → Prop}
    (hpost : ∀ n db s, pre s → s.mined = minedIn scanner.network db → (f (feed n) db).error = none →
      post () { s with mined := minedIn scanner.network ((f (feed n) db).final db) }) :
    Achieves feed (seenBy scanner chain found) pre (service f note) post := by
  refine Achieves.service (seenBy_unmixed h) fun n s hs hok => ?_
  have hseen : seenBy scanner chain found ⟨(f (feed n) s.db).final s.db, note ++ s.calls⟩ =
      { seenBy scanner chain found s with
        mined := minedIn scanner.network ((f (feed n) s.db).final s.db) } := by
    unfold seenBy ScanSession.followed Followed.survey
    dsimp only
    rw [final_cursors (hcursors _ _), versionsRead, List.filterMap_append]
    rw [versionsRead] at hnote
    rw [hnote]
    rfl
  rw [hseen]
  exact hpost n s.db _ hs rfl hok

theorem previousHash_achieves (h : OnChain chain feed) {pre : Survey → Prop} (number : Nat) :
    Achieves feed (seenBy scanner chain found) pre (scanner.previousHash number)
      fun hash s => hash = Survey.previousOn chain number ∧ pre s := by
  unfold previousHash Survey.previousOn
  by_cases hpos : number > 0
  · rw [if_pos hpos]
    simpa only [hpos, true_and] using getBlockHash_achieves h number
  · rw [if_neg hpos, if_neg fun hboth => hpos hboth.1]
    exact Achieves.pure fun s hs => ⟨rfl, hs⟩

/-- **Where a tick goes on**, and what it has left recorded by then. -/
theorem rewindIf_achieves (h : OnChain chain feed) {detected : Bool}
    (hdetected : detected = true ↔ ¬ Agrees chain.hashAt chain.tip p) (hloads : s0.Loads p) :
    Achieves feed (seenBy scanner chain found) (· = { s0 with position := some p })
      (scanner.rewindIf detected p)
      fun from_ s => ∃ kept, Survey.Resumes chain s0 from_ kept ∧
        Survey.Reads chain from_ kept 0 s0 s := by
  unfold rewindIf
  split_ifs with hback
  · have hdiffers := hdetected.1 hback
    have hfound : s0.position = some p := by
      rcases hloads with hfound | ⟨-, hnone⟩
      · exact hfound
      · exact absurd (.inl (by rw [hnone]; rfl)) hdiffers
    have hreorg : Achieves feed (seenBy scanner chain found) (· = { s0 with position := some p })
        (scanner.handleReorg p.lastProcessedBlock)
        fun _ s => s.scanned = s0.scanned ∧
          ∀ m ∈ s.mined, m ∈ s0.mined ∧ ∀ height ∈ m.1, height < p.lastProcessedBlock := by
      refine service_achieves h rfl (fun m db => ?_) fun n db s hs hmined hok => ?_
      · rw [← run_handleReorg]
        exact Operation.cursors _ db
      · subst hs
        refine ⟨rfl, fun m hm => ?_⟩
        obtain ⟨hold, hlow⟩ := handleReorg_mined hok m hm
        exact ⟨hmined ▸ hold, hlow⟩
    have hrewound : (if p.lastProcessedBlock > 0 then p.lastProcessedBlock - 1 else 0) =
        p.lastProcessedBlock - 1 := by
      split_ifs <;> omega
    unfold rewindCursor
    rw [hrewound]
    refine Achieves.bind hreorg fun _ => Achieves.bind (previousHash_achieves h _) fun hash =>
      Achieves.assume fun hhash => ?_
    subst hhash
    refine Achieves.bind (updateCursor_achieves (p := ⟨p.lastProcessedBlock - 1, _⟩) h
      (fun m => ChainCursor.rewindTo ⟨_, _⟩ m.now) (fun _ _ => rfl) fun _ _ => rfl)
      fun _ => Achieves.pure fun s hs => ?_
    obtain ⟨mid, ⟨hscanned, hkept⟩, rfl⟩ := hs
    exact ⟨mid.mined, .back hfound hdiffers hkept, hscanned, fun m hm => .inl hm, .inl rfl⟩
  · refine Achieves.pure fun s hs => ?_
    subst hs
    refine ⟨s0.mined, .onward hloads ?_, rfl, fun m hm => .inl hm, .inl rfl⟩
    by_contra hdiffers
    exact hback (hdetected.2 hdiffers)

/-! ## Reading upwards -/

/-- A transaction of one of the blocks read above the cursor. -/
def MinedAbove (chain : CanonicalChain) (p : Position) (count : Nat) (txHash : String) : Prop :=
  ∃ height, chain.heightOf txHash = some height ∧ p.lastProcessedBlock < height ∧
    height ≤ p.lastProcessedBlock + count

theorem MinedAbove.succ {txHash : String} (h : MinedAbove chain p count txHash) :
    MinedAbove chain p (count + 1) txHash := by
  obtain ⟨height, hheight, hlow, hhigh⟩ := h
  exact ⟨height, hheight, hlow, by omega⟩

/-- The block read last. -/
def lastOf (chain : CanonicalChain) (p : Position) : Nat → Option BlockRef
  | 0 => none
  | count + 1 =>
    some ⟨p.lastProcessedBlock + count + 1, chain.hashAt (p.lastProcessedBlock + count + 1)⟩

theorem endingPosition_lastOf (chain : CanonicalChain) (p : Position) (count : Nat) :
    endingPosition p (lastOf chain p count) = Survey.endOf chain p count := by
  cases count <;> rfl

/-- The next block has been read. -/
theorem Survey.Reads.succ {s : Survey} (hs : Survey.Reads chain p kept count before s)
    (htip : p.lastProcessedBlock + count + 1 ≤ chain.tip) :
    Survey.Reads chain p kept (count + 1) before { s with
      scanned := (p.lastProcessedBlock + count + 1,
        chain.hashAt (p.lastProcessedBlock + count + 1)) :: s.scanned } where
  scanned := by
    rw [hs.scanned]
    rfl
  mined m hm := by
    rcases hs.mined m hm with hold | ⟨height, hlow, hhigh, rfl⟩
    · exact .inl hold
    · exact .inr ⟨height, hlow, by omega, rfl⟩
  reached := .inr htip

theorem processTransaction_achieves (h : OnChain chain feed) {txHash : String}
    (hwithin : MinedAbove chain p count txHash) :
    Achieves feed (seenBy scanner chain found) (Survey.Reads chain p kept count before)
      (scanner.processTransaction txHash) fun _ => Survey.Reads chain p kept count before := by
  refine service_achieves h rfl (fun m db => ?_) fun n db s hs hmined hok => ?_
  · rw [← run_processTransaction]
    exact Operation.cursors _ db
  · obtain ⟨height, hheight, hlow, hhigh⟩ := hwithin
    refine ⟨hs.scanned, fun m hm => ?_, hs.reached⟩
    rcases processTransaction_mined (h.tells n) hheight hok m hm with hold | rfl
    · exact hs.mined m (hmined ▸ hold)
    · exact .inr ⟨height, hlow, hhigh, rfl⟩

/-- A block is as the chain has it at a height. -/
structure IsBlock (chain : CanonicalChain) (height number : Nat) (hash : String)
    (hashes : List String) : Prop where
  number : number = height
  hash : hash = chain.hashAt height
  transactions : ∀ txHash ∈ hashes, chain.heightOf txHash = some height

theorem readLightBlock_achieves (h : OnChain chain feed)
    (hheight : height = p.lastProcessedBlock + count + 1) :
    Achieves feed (seenBy scanner chain found) (Survey.Reads chain p kept count before)
      (readLightBlock height tracked)
      fun answer s => (answer = none → Survey.Reads chain p kept count before s) ∧
        ∀ b, answer = some b → IsBlock chain height b.number b.hash (b.transactions.map (·.hash)) ∧
          Survey.Reads chain p kept (count + 1) before s := by
  refine Achieves.ask (seenBy_unmixed h) fun n s answer hs hanswer => ?_
  obtain ⟨d, hd, hlight⟩ := discover_eq_ok hanswer
  cases answer with
  | none => exact ⟨fun _ => hs, fun b hb => by cases hb⟩
  | some b =>
    refine ⟨fun hnone => (by cases hnone), fun b' hb' => ?_⟩
    cases hb'
    obtain ⟨hnumber, hhash, hle⟩ := (h.tells n).lightBlock d height b hd hlight
    subst hheight
    refine ⟨⟨hnumber, hhash, fun txHash htx => ?_⟩, hs.succ hle⟩
    obtain ⟨tx, hmem, rfl⟩ := List.mem_map.1 htx
    exact (h.tells n).lightTransactions d _ b hd hlight tx hmem

theorem readBlock_achieves (h : OnChain chain feed)
    (hheight : height = p.lastProcessedBlock + count + 1) :
    Achieves feed (seenBy scanner chain found) (Survey.Reads chain p kept count before)
      (readBlock height tracked)
      fun answer s => (answer = none → Survey.Reads chain p kept count before s) ∧
        ∀ b, answer = some b → IsBlock chain height b.number b.hash (b.transactions.map (·.hash)) ∧
          Survey.Reads chain p kept (count + 1) before s := by
  refine Achieves.ask (seenBy_unmixed h) fun n s answer hs hanswer => ?_
  cases answer with
  | none => exact ⟨fun _ => hs, fun b hb => by cases hb⟩
  | some b =>
    refine ⟨fun hnone => (by cases hnone), fun b' hb' => ?_⟩
    cases hb'
    obtain ⟨hnumber, hhash, hle⟩ := (h.tells n).block height b hanswer
    subst hheight
    refine ⟨⟨hnumber, hhash, fun txHash htx => ?_⟩, hs.succ hle⟩
    obtain ⟨tx, hmem, rfl⟩ := List.mem_map.1 htx
    exact (h.tells n).transactions _ b hanswer tx hmem

/-- What the blocks of a range have shown, once so many have been read. -/
structure Gathered (chain : CanonicalChain) (p : Position) (count : Nat) (f : Found) : Prop where
  scannedBlocks : f.scannedBlocks = count
  lastBlock : f.lastBlock = lastOf chain p count
  candidates : ∀ txHash ∈ f.candidateHashes, MinedAbove chain p count txHash

theorem discoverBlocks_achieves (h : OnChain chain feed) {fuel height : Nat} {f : Found}
    (hheight : height = p.lastProcessedBlock + count + 1) (hf : Gathered chain p count f) :
    Achieves feed (seenBy scanner chain found) (Survey.Reads chain p kept count before)
      (discoverBlocks tracked fuel height f)
      fun f' s => ∃ count', Gathered chain p count' f' ∧
        Survey.Reads chain p kept count' before s := by
  induction fuel generalizing height f count with
  | zero => exact Achieves.pure fun s hs => ⟨count, hf, hs⟩
  | succ fuel ih =>
    refine Achieves.bind (readLightBlock_achieves h hheight) fun answer => ?_
    cases answer with
    | none => exact Achieves.pure fun s hs => ⟨count, hf, hs.1 rfl⟩
    | some b =>
      refine Achieves.mono (Achieves.assume fun hb => ih (by omega) ⟨?_, ?_, ?_⟩)
        (fun s hs => hs.2 b rfl) fun _ _ hs => hs
      · show f.scannedBlocks + 1 = count + 1
        rw [hf.scannedBlocks]
      · show some _ = lastOf chain p (count + 1)
        rw [hb.number, hb.hash, hheight]
        rfl
      · intro txHash htx
        rcases List.mem_append.1 htx with hold | hnew
        · exact (hf.candidates txHash hold).succ
        · obtain ⟨tx, hmem, rfl⟩ := List.mem_map.1 hnew
          have htx := hb.transactions _ (List.mem_map_of_mem (List.mem_filter.1 hmem).1)
          exact ⟨height, htx, by omega, by omega⟩

theorem tokenHashes_achieves (h : OnChain chain feed) {pre : Survey → Prop} (count : Nat) :
    Achieves feed (seenBy scanner chain found) pre
      (scanner.tokenHashes (p.lastProcessedBlock + 1) count tracked)
      fun hashes s => (∀ txHash ∈ hashes, MinedAbove chain p count txHash) ∧ pre s := by
  unfold tokenHashes
  split_ifs with hpos
  · refine Achieves.ask (seenBy_unmixed h) fun n s hashes hs hanswer => ⟨fun txHash htx => ?_, hs⟩
    obtain ⟨d, hd, hlogs⟩ := discover_eq_ok hanswer
    obtain ⟨height, hheight, hlow, hhigh⟩ := (h.tells n).logs d _ _ _ _ _ hd hlogs txHash htx
    exact ⟨height, hheight, by omega, by omega⟩
  · exact Achieves.pure fun s hs => ⟨fun txHash htx => absurd htx List.not_mem_nil, hs⟩

theorem scanRangeFast_achieves (h : OnChain chain feed) (toBlock : Nat) :
    Achieves feed (seenBy scanner chain found) (Survey.Reads chain p kept 0 before)
      (scanner.scanRangeFast (p.lastProcessedBlock + 1) toBlock tracked)
      fun outcome s => ∃ count, outcome.lastBlock = lastOf chain p count ∧
        Survey.Reads chain p kept count before s := by
  unfold scanRangeFast
  refine Achieves.bind (discoverBlocks_achieves h rfl ⟨rfl, rfl, fun _ htx => by cases htx⟩)
    fun f => Achieves.choose fun count => Achieves.assume fun hf => ?_
  rw [hf.scannedBlocks]
  refine Achieves.bind (tokenHashes_achieves h count) fun hashes => ?_
  refine Achieves.assume fun hhashes => ?_
  refine Achieves.bind (Achieves.forM fun txHash htx => processTransaction_achieves h ?_)
    fun _ => Achieves.pure fun s hs => ⟨count, hf.lastBlock, hs⟩
  rcases List.mem_append.1 (List.mem_eraseDups.1 htx) with htx | htx
  · exact hf.candidates txHash htx
  · exact hhashes txHash htx

theorem scanTransactions_achieves (h : OnChain chain feed) {txs : List ChainTransaction}
    (htxs : ∀ tx ∈ txs, MinedAbove chain p count tx.hash) :
    Achieves feed (seenBy scanner chain found) (Survey.Reads chain p kept count before)
      (scanner.scanTransactions tracked txs) fun _ => Survey.Reads chain p kept count before := by
  induction txs with
  | nil => exact Achieves.pure fun _ hs => hs
  | cons tx txs ih =>
    have htouches : Achieves feed (seenBy scanner chain found)
        (Survey.Reads chain p kept count before) (touchesTrackedAddress tracked tx.hash)
        fun _ => Survey.Reads chain p kept count before := by
      unfold touchesTrackedAddress
      split_ifs
      · exact Achieves.pure fun _ hs => hs
      · exact Achieves.bind (Achieves.ask (seenBy_unmixed h) fun _ _ _ hs _ => hs)
          fun _ => Achieves.pure fun _ hs => hs
    have hscan : Achieves feed (seenBy scanner chain found) (Survey.Reads chain p kept count before)
        (scanner.scanTransaction tracked tx.hash)
        fun _ => Survey.Reads chain p kept count before := by
      unfold scanTransaction
      refine Achieves.bind htouches fun touches => ?_
      cases touches with
      | false => exact Achieves.pure fun _ hs => hs
      | true =>
        exact Achieves.bind (processTransaction_achieves h (htxs tx List.mem_cons_self))
          fun _ => Achieves.pure fun _ hs => hs
    exact Achieves.bind hscan fun _ => Achieves.bind (ih fun tx' htx' =>
      htxs tx' (List.mem_cons_of_mem _ htx')) fun _ => Achieves.pure fun _ hs => hs

theorem scanBlocks_achieves (h : OnChain chain feed) {fuel height : Nat} {outcome : ScanOutcome}
    (hheight : height = p.lastProcessedBlock + count + 1)
    (hlast : outcome.lastBlock = lastOf chain p count) :
    Achieves feed (seenBy scanner chain found) (Survey.Reads chain p kept count before)
      (scanner.scanBlocks tracked fuel height outcome)
      fun outcome' s => ∃ count', outcome'.lastBlock = lastOf chain p count' ∧
        Survey.Reads chain p kept count' before s := by
  induction fuel generalizing height outcome count with
  | zero => exact Achieves.pure fun s hs => ⟨count, hlast, hs⟩
  | succ fuel ih =>
    refine Achieves.bind (readBlock_achieves h hheight) fun answer => ?_
    cases answer with
    | none => exact Achieves.pure fun s hs => ⟨count, hlast, hs.1 rfl⟩
    | some b =>
      refine Achieves.mono (Achieves.assume fun hb => ?_) (fun s hs => hs.2 b rfl) fun _ _ hs => hs
      have htxs : ∀ tx ∈ b.transactions, MinedAbove chain p (count + 1) tx.hash := fun tx htx =>
        ⟨height, hb.transactions _ (List.mem_map_of_mem htx), by omega, by omega⟩
      refine Achieves.bind (scanTransactions_achieves h htxs) fun candidates => ih (by omega) ?_
      show some _ = lastOf chain p (count + 1)
      rw [hb.number, hb.hash, hheight]
      rfl

/-- **A tick of the scanner is a tick as seen from outside.** -/
theorem tick_achieves (h : OnChain chain feed) (s0 : Survey) :
    Achieves feed (seenBy scanner chain found) (· = s0) scanner.tick
      fun _ s => Survey.Tick chain s0 s := by
  have hask : Achieves feed (seenBy scanner chain found) (· = s0)
      (ask (·.getCurrentBlock) fun _ => []) fun _ => (· = s0) :=
    Achieves.ask (seenBy_unmixed h) fun _ _ _ hs _ => hs
  unfold tick
  refine Achieves.bind hask fun current => ?_
  refine Achieves.bind (loadCursor_achieves h current.number) fun p => ?_
  refine Achieves.assume fun hloads => ?_
  refine Achieves.bind (checkForReorg_achieves h p) fun detected => ?_
  refine Achieves.assume fun hdetected => ?_
  refine Achieves.bind (rewindIf_achieves h hdetected hloads) fun from_ => ?_
  refine Achieves.choose fun kept => Achieves.assume fun hresumes => ?_
  have htracked : Achieves feed (seenBy scanner chain found) (Survey.Reads chain from_ kept 0 s0)
      scanner.loadTrackedAddresses fun _ => Survey.Reads chain from_ kept 0 s0 :=
    Achieves.read (seenBy_unmixed h) fun _ _ hs => hs
  refine Achieves.bind htracked fun tracked => ?_
  have hscan : Achieves feed (seenBy scanner chain found) (Survey.Reads chain from_ kept 0 s0)
      (scanner.scanRange (from_.lastProcessedBlock + 1)
        (scanner.rangeEnd current.number (from_.lastProcessedBlock + 1)) tracked)
      fun outcome s => ∃ count, outcome.lastBlock = lastOf chain from_ count ∧
        Survey.Reads chain from_ kept count s0 s := by
    unfold scanRange scanRangeGeneric
    split_ifs
    · exact scanRangeFast_achieves h _
    · exact scanBlocks_achieves h rfl rfl
  refine Achieves.bind hscan fun outcome => Achieves.choose fun count => ?_
  refine Achieves.assume fun hlast => ?_
  rw [hlast, endingPosition_lastOf]
  refine Achieves.bind (updateCursor_achieves (p := Survey.endOf chain from_ count) h
    (fun _ => ChainCursor.saveAt (Survey.endOf chain from_ count) current.number)
    (fun _ _ => rfl) fun _ _ => rfl) fun _ => ?_
  have hconfirm : Achieves feed (seenBy scanner chain found) (Survey.Tick chain s0)
      scanner.updateConfirmations fun _ => Survey.Tick chain s0 := by
    refine service_achieves h rfl (fun m db => ?_) fun n db s hs hmined hok => ?_
    · rw [← run_updateConfirmations]
      exact Operation.cursors _ db
    · rw [updateConfirmations_mined hok, ← hmined]
      exact hs
  refine Achieves.bind (hconfirm.mono (fun s hs => ?_) fun _ _ hs => hs)
    fun _ => Achieves.pure fun _ hs => hs
  obtain ⟨read, hreads, rfl⟩ := hs
  exact ⟨hresumes, ⟨hreads.scanned, hreads.mined, hreads.reached⟩, rfl⟩

end Tick

/-! ## Ticks on a chain that changes -/

/-- A tick that is finished on a chain. -/
def FollowsOn (scanner : ChainScanner) (chain : CanonicalChain) (w w' : Followed) : Prop :=
  ∃ feed, OnChain chain feed ∧ (scanner.tick feed 0 ⟨w.db, []⟩).result.isOk = true ∧
    w' = (scanner.tick feed 0 ⟨w.db, []⟩).state.followed chain w.scanned

variable {scanner : ChainScanner} {chain' : CanonicalChain} {w w' : Followed}

theorem tick_surveyed (h : FollowsOn scanner chain w w') :
    Survey.Tick chain (w.survey scanner.network) (w'.survey scanner.network) := by
  obtain ⟨feed, honchain, hok, rfl⟩ := h
  have htick : Achieves feed (seenBy scanner chain w.scanned) (· = w.survey scanner.network)
      scanner.tick fun _ => Survey.Tick chain (w.survey scanner.network) := tick_achieves honchain _
  obtain ⟨-, htick⟩ := htick 0 ⟨w.db, []⟩ rfl
  cases hresult : (scanner.tick feed 0 ⟨w.db, []⟩).result with
  | error e =>
    rw [hresult] at hok
    cases hok
  | ok result => exact htick result hresult

/-- The chain has become another one, and a tick is finished on it. -/
def NextTick (scanner : ChainScanner) (a b : CanonicalChain × Followed) : Prop :=
  FollowsOn scanner b.1 a.2 b.2

/-- It has kept what had been read below the cursor's own block. -/
def ShallowTick (scanner : ChainScanner) (a b : CanonicalChain × Followed) : Prop :=
  (a.2.survey scanner.network).Shallow a.1 b.1 ∧ NextTick scanner a b

/-- It has only grown. -/
def GrowthTick (scanner : ChainScanner) (a b : CanonicalChain × Followed) : Prop :=
  a.1.Grows b.1 ∧ NextTick scanner a b

/-- The invariant of the ticks that meet the condition. -/
structure InStep (s : Survey) (chain : CanonicalChain) : Prop where
  contiguous : s.Contiguous
  stored : s.Stored
  undone : s.Undone chain

theorem inStep_unread {s : Survey} (hposition : s.position = none) (hscanned : s.scanned = [])
    (hmined : s.mined = []) (chain : CanonicalChain) : InStep s chain := by
  refine ⟨Survey.contiguous_unread hposition hscanned hmined, fun p hp => ?_, fun p hp => ?_,
    fun m hm => ?_⟩
  · rw [hposition] at hp
    cases hp
  · rw [hposition] at hp
    cases hp
  · rw [hmined] at hm
    cases hm

theorem InStep.tick {s s' : Survey} (h : InStep s chain) (hs : s.Shallow chain chain')
    (htick : Survey.Tick chain' s s') : InStep s' chain' where
  contiguous := htick.contiguous h.contiguous
  stored := htick.stored h.contiguous h.stored h.undone hs
  undone := htick.undone h.contiguous h.stored h.undone hs

theorem inStep_run {a b : CanonicalChain × Followed}
    (h : Relation.ReflTransGen (ShallowTick scanner) a b)
    (ha : InStep (a.2.survey scanner.network) a.1) : InStep (b.2.survey scanner.network) b.1 := by
  induction h with
  | refl => exact ha
  | tail _ hstep ih => exact ih.tick hstep.1 (tick_surveyed hstep.2)

/-- While the chain only grows, what is left below the cursor stays as it was read. -/
theorem left_run {a b : CanonicalChain × Followed} {hash : String}
    (h : Relation.ReflTransGen (GrowthTick scanner) a b)
    (hsettled : (a.2.survey scanner.network).Settled a.1)
    (hleft : (a.2.survey scanner.network).Left height hash) :
    a.1.Grows b.1 ∧ (b.2.survey scanner.network).Left height hash := by
  have hall : a.1.Grows b.1 ∧ (b.2.survey scanner.network).Settled b.1 ∧
      (b.2.survey scanner.network).Left height hash := by
    induction h with
    | refl => exact ⟨.refl _, hsettled, hleft⟩
    | tail _ hstep ih =>
      obtain ⟨hgrows, hsettled', hleft'⟩ := ih
      have htick := tick_surveyed hstep.2
      exact ⟨hgrows.trans hstep.1, htick.settled, hleft'.tick (hsettled'.grows hstep.1) htick⟩
  exact ⟨hall.1, hall.2.2⟩

/-- **Which reorganisations are undone.** A scanner starts on a network it has not followed before.
After each tick the chain becomes any other chain, of any length, that has kept what had been read
below the cursor's own block. Then after the next tick everything is undone exactly if the chain
has kept that once more. If it has not, a version of a block that is not on the chain remains the
one last read there, below the cursor, through all ticks on which the chain grows; and it does not
come back, unless the chain was shorter and got this very block again. -/
theorem shallow_undone (scanner : ChainScanner) {start : CanonicalChain}
    (hposition : db.cursors.find? scanner.network = none)
    (hmined : minedIn scanner.network db = [])
    (h : Relation.ReflTransGen (ShallowTick scanner) (start, ⟨db, []⟩) (chain, w))
    (htick : FollowsOn scanner chain' w w') :
    ((w'.survey scanner.network).Undone chain' ↔
      (w.survey scanner.network).Shallow chain chain') ∧
    (¬ (w.survey scanner.network).Shallow chain chain' → ∃ height hash, ¬ chain'.Has height hash ∧
      ∀ later, Relation.ReflTransGen (GrowthTick scanner) (chain', w') later →
        (later.2.survey scanner.network).Left height hash ∧
          (later.1.Has height hash → chain'.tip < height)) := by
  have hstart : InStep ((⟨db, []⟩ : Followed).survey scanner.network) start :=
    inStep_unread (by rw [Followed.survey, hposition]; rfl) rfl hmined start
  have hrun := inStep_run h hstart
  have hlast := tick_surveyed htick
  refine ⟨Survey.undone_iff hlast hrun.contiguous hrun.stored hrun.undone, fun hdeep => ?_⟩
  obtain ⟨height, hash, hnot, hleft⟩ := hlast.forsaken hrun.undone hdeep
  refine ⟨height, hash, hnot, fun later hlater => ?_⟩
  obtain ⟨hgrows, hleft'⟩ := left_run hlater hlast.settled hleft
  refine ⟨hleft', fun hhas => ?_⟩
  by_contra hle
  exact hnot (hgrows.has (not_lt.1 hle) hhas)

/-! ## The chain of a node -/

/-- A node with a block at each height up to the highest. -/
structure WholeNode extends EvmNode where
  complete : ∀ height ≤ toEvmNode.blockNumber, (toEvmNode.blockByNumber height).isSome = true
  named : ∀ b ∈ blocks, b.hash ≠ ""

def WholeNode.canonical (node : WholeNode) : CanonicalChain where
  tip := node.blockNumber
  hashAt := hashesOf node.toEvmNode
  heightOf txHash := (node.findExecuted txHash).map (·.1.number)
  named height hheight := by
    obtain ⟨b, hb⟩ := Option.isSome_iff_exists.1 (node.complete height hheight)
    rw [hashesOf, hb]
    exact node.named b (EvmNode.blockByNumber_mem hb).1

theorem tells_evm (node : WholeNode) : Tells node.canonical (evmAdapter node.toEvmNode) := by
  have hmined : ∀ b tx, b ∈ node.blocks → tx ∈ b.transactions →
      node.canonical.heightOf tx.hash = some b.number := by
    intro b tx hb htx
    show (node.findExecuted tx.hash).map _ = _
    rw [EvmNode.findExecuted_eq (EvmNode.mem_executed.2 ⟨hb, htx⟩)]
    rfl
  refine ⟨shows_self node.complete, fun height b h t ht => ?_, fun d height b hd h t ht => ?_,
    fun d fromBlock toBlock contracts addresses l hd h txHash htx => ?_,
    fun txHash tx height h hheight => ?_⟩
  · obtain ⟨block, hfind, rfl⟩ := Option.map_eq_some_iff.1 (Except.ok.inj h)
    obtain ⟨hmem, rfl⟩ := EvmNode.blockByNumber_mem hfind
    obtain ⟨tx, htx, rfl⟩ := List.mem_map.1 ht
    exact hmined block tx hmem htx
  · cases hd
    obtain ⟨block, hfind, rfl⟩ := Option.map_eq_some_iff.1 (Except.ok.inj h)
    obtain ⟨hmem, rfl⟩ := EvmNode.blockByNumber_mem hfind
    obtain ⟨tx, htx, rfl⟩ := List.mem_map.1 ht
    exact hmined block tx hmem htx
  · cases hd
    have hlogs := mapError_eq_ok.1 h
    unfold getTransferLogsTo at hlogs
    split_ifs at hlogs
    · cases hlogs
      cases htx
    · obtain ⟨topics, -, hlogs⟩ := bind_eq_ok.1 hlogs
      cases hlogs
      obtain ⟨b, tx, hmem, rfl⟩ := mined_of_logHashes (List.mem_eraseDups.1 htx)
      obtain ⟨hrange, -⟩ := (mem_logHashes_iff hmem).1 (List.mem_eraseDups.1 htx)
      obtain ⟨hb, htx⟩ := EvmNode.mem_executed.1 hmem
      exact ⟨b.number, hmined b tx hb htx, hrange⟩
  · obtain ⟨⟨b, executed⟩, hfind, rfl⟩ := Option.map_eq_some_iff.1 hheight
    obtain ⟨raw, hraw, rfl⟩ := Option.map_eq_some_iff.1 (Except.ok.inj h)
    unfold EvmNode.transactionByHash at hraw
    rw [hfind] at hraw
    cases hraw
    have hmem := (EvmNode.mem_executed.1 (List.mem_of_find?_eq_some hfind)).1
    have hblock : node.blockByNumber b.number = some b :=
      Table.find?_of_mem (t := ⟨node.blocks, node.numbers_distinct⟩) hmem
    refine ⟨rfl, ?_⟩
    show some b.hash = some (hashesOf node.toEvmNode b.number)
    rw [hashesOf, hblock]
    rfl

theorem onChain_undisturbed {a : BlockchainAdapter} (h : Tells chain a) (now : Int) :
    OnChain chain fun _ => .undisturbed a now :=
  ⟨fun _ => h, fun _ _ => rfl⟩

namespace Shop

/-- The chain with the coin in its first block. -/
def coinNode : WholeNode := ⟨firstBlocks, by decide +kernel, by decide⟩

/-- A second block is added. -/
def longerNode : WholeNode where
  blocks := [⟨0, "genesis", []⟩, ⟨1, "first", [coin]⟩, ⟨2, "second", []⟩]
  mempool := []
  numbers_distinct := by decide
  hashes_distinct := by decide
  complete := by decide +kernel
  named := by decide

/-- Both blocks have been replaced, and the coin is gone. -/
def forkedNode : WholeNode where
  blocks := [⟨0, "genesis", []⟩, ⟨1, "other first", []⟩, ⟨2, "other second", []⟩]
  mempool := []
  numbers_distinct := by decide
  hashes_distinct := by decide
  complete := by decide +kernel
  named := by decide

/-- An undisturbed tick of the scanner. -/
def tickOn (node : WholeNode) (w : Followed) : Ended ScanSession Halt ScanResult :=
  ethereumScanner.tick (fun _ => .undisturbed (evmAdapter node.toEvmNode) 1000) 0 ⟨w.db, []⟩

def follow (node : WholeNode) (w : Followed) : Followed :=
  (tickOn node w).state.followed node.canonical w.scanned

theorem followsOn_follow (node : WholeNode) (w : Followed)
    (h : (tickOn node w).result.isOk = true) :
    FollowsOn ethereumScanner node.canonical w (follow node w) :=
  ⟨_, onChain_undisturbed (tells_evm node) 1000, h, rfl⟩

def unfollowed : Followed := ⟨walletAssigned, []⟩

def coinFollowed : Followed := follow coinNode unfollowed

def secondFollowed : Followed := follow longerNode coinFollowed

/-- The tick that detects the fork. -/
def forkDetected : Followed := follow forkedNode secondFollowed

def forkFollowed : Followed := follow forkedNode forkDetected

theorem coin_followed : NextTick ethereumScanner (coinNode.canonical, unfollowed)
    (coinNode.canonical, coinFollowed) := followsOn_follow coinNode unfollowed (by decide +kernel)

theorem second_followed : NextTick ethereumScanner (coinNode.canonical, coinFollowed)
    (longerNode.canonical, secondFollowed) :=
  followsOn_follow longerNode coinFollowed (by decide +kernel)

/-- **A reorganisation two blocks deep is not undone.** A tick on the new chain detects it, the next
one finds nothing and ends at the tip; the first block has not been read in its new version, and
the coin is still recorded in the old one. -/
theorem deep_reorg_missed :
    Relation.ReflTransGen (NextTick ethereumScanner) (coinNode.canonical, unfollowed)
      (forkedNode.canonical, forkFollowed) ∧
    (tickOn forkedNode forkDetected).result = .ok ⟨.ethereum, 0, 0, false, 2, 2⟩ ∧
    forkFollowed.scanned = [(2, "other second"), (2, "second"), (1, "first")] ∧
    (some 1, some "first") ∈ minedIn .ethereum forkFollowed.db ∧
    ¬ forkedNode.canonical.Has 1 "first" := by
  have hdetected : NextTick ethereumScanner (longerNode.canonical, secondFollowed)
      (forkedNode.canonical, forkDetected) :=
    followsOn_follow forkedNode secondFollowed (by decide +kernel)
  have hlast : NextTick ethereumScanner (forkedNode.canonical, forkDetected)
      (forkedNode.canonical, forkFollowed) :=
    followsOn_follow forkedNode forkDetected (by decide +kernel)
  refine ⟨?_, by decide +kernel⟩
  have hsecond : Relation.ReflTransGen (NextTick ethereumScanner) (coinNode.canonical, unfollowed)
      (longerNode.canonical, secondFollowed) :=
    (Relation.ReflTransGen.single coin_followed).tail second_followed
  exact (hsecond.tail hdetected).tail hlast

/-- The first block has been replaced, and the coin is gone. -/
def replacedNode : WholeNode where
  blocks := [⟨0, "genesis", []⟩, ⟨1, "other first", []⟩]
  mempool := []
  numbers_distinct := by decide
  hashes_distinct := by decide
  complete := by decide +kernel
  named := by decide

def replacedFollowed : Followed := follow replacedNode coinFollowed

end Shop

/-- A block that is replaced at the cursor is undone, one below it is not. -/
theorem shallow_undone_fork :
    (Shop.replacedFollowed.survey .ethereum).Undone Shop.replacedNode.canonical ∧
    ¬ (Shop.forkDetected.survey .ethereum).Undone Shop.forkedNode.canonical ∧
    Shop.replacedFollowed.scanned = [(1, "other first"), (1, "first")] ∧
    minedIn .ethereum Shop.replacedFollowed.db = [] := by
  have hcoin : Relation.ReflTransGen (ShallowTick Shop.ethereumScanner)
      (Shop.coinNode.canonical, Shop.unfollowed) (Shop.coinNode.canonical, Shop.coinFollowed) :=
    .single ⟨fun _ hp => (by cases hp), Shop.coin_followed⟩
  have hsecond : Relation.ReflTransGen (ShallowTick Shop.ethereumScanner)
      (Shop.coinNode.canonical, Shop.unfollowed)
      (Shop.longerNode.canonical, Shop.secondFollowed) :=
    hcoin.tail ⟨by decide +kernel, Shop.second_followed⟩
  have hreplaced := (shallow_undone Shop.ethereumScanner rfl rfl hcoin
    (Shop.followsOn_follow Shop.replacedNode Shop.coinFollowed (by decide +kernel))).1
  have hforked := (shallow_undone Shop.ethereumScanner rfl rfl hsecond
    (Shop.followsOn_follow Shop.forkedNode Shop.secondFollowed (by decide +kernel))).1
  refine ⟨hreplaced.2 (by decide +kernel), fun hundone => ?_, by decide +kernel⟩
  exact absurd (hforked.1 hundone) (by decide +kernel)

end PaymentGateway
