import Mathlib.Order.Monotone.Defs
import PaymentGateway.Blockchain.EvmAdapter
import PaymentGateway.Monitor.Requests
import PaymentGateway.System.Invoices

/-!
# The cursor never runs ahead of the work

**Theorem (`cursor_covered`).** Let ticks of a scanner follow one another on a chain that does not
reorganise, each stopped or failing wherever it may. At every moment, every height from the first
to the stored cursor has been read, and each of its transactions that pays an address which was
tracked at that reading has been handed to the monitor.

A tick scans the heights above the cursor and saves the cursor last, so what it does before has no
bearing on the heights below: the invariant (`CursorSound`) speaks of these alone, and every await keeps
it. What the scan of a range has to establish on the way is that its blocks are covered once its
loop is over. On the fast path that rests on two facts about a node: a payment in the native coin
shows in the light block, and a payment in a listed token is let through by the filter.

The provider may fail, and it may not have a block yet. Once it has shown a block, it knows the
block's transactions (`Answers`).
-/

namespace PaymentGateway

open Keyed Fallible Transactional Await MonitorService Scan ChainScanner EvmJsonRpcAdapter

/-! ## The chain -/

/-- What the chain of a network will have been. -/
inductive Chain
  | evm (node : EvmNode)
  | plain (adapter : BlockchainAdapter) (undiscovering : adapter.discovery = none)
      (numbered : ∀ height b, adapter.getBlock height = .ok (some b) → b.number = height)

def Chain.adapter : Chain → BlockchainAdapter
  | .evm node => evmAdapter node
  | .plain adapter _ _ => adapter

structure SameBlock (b b' : BlockData) : Prop where
  number : b'.number = b.number
  hash : b'.hash = b.hash
  transactions : b'.transactions.map (·.hash) = b.transactions.map (·.hash)

/-- What an adapter says that has seen the chain up to a height: nothing false. -/
structure Answers (chain : BlockchainAdapter) (tip : Nat) (a : BlockchainAdapter) : Prop where
  block : ∀ height b, a.getBlock height = .ok (some b) →
    height ≤ tip ∧ ∃ b', chain.getBlock height = .ok (some b') ∧ SameBlock b' b
  transfers : ∀ height b tx l, height ≤ tip → chain.getBlock height = .ok (some b) →
    tx ∈ b.transactions → a.getTransfers tx.hash = .ok l → chain.getTransfers tx.hash = .ok l
  lightBlock : ∀ d height b, a.discovery = some d → d.getLightBlock height = .ok (some b) →
    height ≤ tip ∧ ∃ d', chain.discovery = some d' ∧ d'.getLightBlock height = .ok (some b)
  logs : ∀ d fromBlock toBlock contracts addresses l, a.discovery = some d → toBlock ≤ tip →
    d.getTransferLogsTo fromBlock toBlock contracts addresses = .ok l →
    ∃ d', chain.discovery = some d' ∧
      d'.getTransferLogsTo fromBlock toBlock contracts addresses = .ok l

/-- The moments of a tick on a chain that only grows. -/
def NoReorg (chain : Chain) (feed : Nat → Moment) : Prop :=
  ∃ tip : Nat → Nat, Monotone tip ∧ ∀ n, Answers chain.adapter (tip n) (feed n).adapter

/-! ## What is covered -/

/-- A transfer of the native coin or of a listed token. -/
def IsPayment (network : Network) (t : ParsedTransfer) : Prop :=
  t.tokenContract = none ∨
    ∃ a ∈ listAssets (some network) true, a.contractAddress = t.tokenContract

def Pays (network : Network) (tracked : List String) (transfers : List ParsedTransfer) : Prop :=
  ∃ t ∈ transfers, IsPayment network t ∧ normalizeForTracking t.toAddress ∈ tracked

/-- The addresses a height was last searched for. -/
def lastVisit (height : Nat) : List Call → Option (List String)
  | [] => none
  | .scanned h tracked :: calls => if h = height then some tracked else lastVisit height calls
  | .started _ :: calls => lastVisit height calls
  | .handed _ :: calls => lastVisit height calls

/-- The height has been read, and every payment in it to an address tracked at that reading has
been handed to the monitor. -/
def Handled (chain : BlockchainAdapter) (network : Network) (calls : List Call) (height : Nat) :
    Prop :=
  ∃ tracked b, lastVisit height calls = some tracked ∧ chain.getBlock height = .ok (some b) ∧
    ∀ tx ∈ b.transactions, ∀ l, chain.getTransfers tx.hash = .ok l → Pays network tracked l →
      .handed tx.hash ∈ calls

variable {chain : BlockchainAdapter} {network : Network} {calls : List Call} {height : Nat}

theorem Handled.handed (h : Handled chain network calls height) (txHash : String) :
    Handled chain network (.handed txHash :: calls) height := by
  obtain ⟨tracked, b, hvisit, hb, hpaid⟩ := h
  refine ⟨tracked, b, hvisit, hb, fun tx htx l hl hpays => ?_⟩
  exact List.mem_cons_of_mem _ (hpaid tx htx l hl hpays)

/-- Reading another height changes nothing. -/
theorem Handled.scanned (h : Handled chain network calls height) {other : Nat} (hne : other ≠ height)
    (tracked : List String) : Handled chain network (.scanned other tracked :: calls) height := by
  obtain ⟨tracked', b, hvisit, hb, hpaid⟩ := h
  refine ⟨tracked', b, ?_, hb, fun tx htx l hl hpays => ?_⟩
  · rw [lastVisit, if_neg hne]
    exact hvisit
  · exact List.mem_cons_of_mem _ (hpaid tx htx l hl hpays)

/-! ## The invariant -/

/-- The first height is the one above the cursor that was there at the beginning, or above the
cursor that was created. -/
def StartsAt (first : Option Nat) (calls : List Call) (start : Nat) : Prop :=
  first = some start ∨ .started start ∈ calls

structure CursorSound (chain : BlockchainAdapter) (network : Network) (first : Option Nat) (c : Cursors)
    (calls : List Call) : Prop where
  fresh : c.find? network = none → ∀ start, ¬ StartsAt first calls start
  covered : ∀ cursor start, c.find? network = some cursor → StartsAt first calls start →
    ∀ height, start < height → height ≤ cursor.lastProcessedBlock →
      Handled chain network calls height

variable {first : Option Nat} {c : Cursors}

theorem startsAt_handed {txHash : String} {start : Nat} :
    StartsAt first (.handed txHash :: calls) start ↔ StartsAt first calls start := by
  simp [StartsAt]

theorem startsAt_scanned {tracked : List String} {start : Nat} :
    StartsAt first (.scanned height tracked :: calls) start ↔ StartsAt first calls start := by
  simp [StartsAt]

theorem CursorSound.handed (h : CursorSound chain network first c calls) (txHash : String) :
    CursorSound chain network first c (.handed txHash :: calls) where
  fresh hnone start hstart := h.fresh hnone start (startsAt_handed.1 hstart)
  covered cursor start hcursor hstart height hlow hhigh :=
    (h.covered cursor start hcursor (startsAt_handed.1 hstart) height hlow hhigh).handed txHash

/-- The cursor is at this height. -/
def CursorAt (network : Network) (p : Nat) (c : Cursors) : Prop :=
  ∃ cursor, c.find? network = some cursor ∧ cursor.lastProcessedBlock = p

/-- A height above the cursor is read. -/
theorem CursorSound.scanned (h : CursorSound chain network first c calls) {p : Nat}
    (hcursor : CursorAt network p c) (hheight : p < height) (tracked : List String) :
    CursorSound chain network first c (.scanned height tracked :: calls) where
  fresh hnone start hstart := h.fresh hnone start (startsAt_scanned.1 hstart)
  covered cursor start hfind hstart height' hlow hhigh := by
    obtain ⟨cursor', hfind', rfl⟩ := hcursor
    obtain rfl : cursor' = cursor := Option.some.inj (hfind'.symm.trans hfind)
    have hcovered := h.covered _ start hfind (startsAt_scanned.1 hstart) height' hlow hhigh
    exact hcovered.scanned (by omega) tracked

/-- The cursor moves to a height up to which everything is covered. -/
theorem CursorSound.moved (h : CursorSound chain network first c calls) {f : ChainCursor → ChainCursor}
    (hf : ∀ r, (f r).network = r.network) {p q : Nat} (hcursor : CursorAt network p c)
    (hq : ∀ r, (f r).lastProcessedBlock = q)
    (hcovered : ∀ height, p < height → height ≤ q → Handled chain network calls height) :
    CursorSound chain network first (c.modify network f hf) calls ∧
      CursorAt network q (c.modify network f hf) := by
  obtain ⟨cursor, hfind, rfl⟩ := hcursor
  have hfind' : (c.modify network f hf).find? network = some (f cursor) := by
    rw [Table.find?_modify_self, hfind, Option.map_some]
  refine ⟨⟨fun hnone => ?_, fun r start hr hstart height hlow hhigh => ?_⟩, f cursor, hfind', hq _⟩
  · rw [hfind'] at hnone
    cases hnone
  · obtain rfl : f cursor = r := Option.some.inj (hfind'.symm.trans hr)
    rw [hq] at hhigh
    by_cases hp : height ≤ cursor.lastProcessedBlock
    · exact h.covered cursor start hfind hstart height hlow hp
    · exact hcovered height (not_le.1 hp) hhigh

/-! ## The services and the cursors -/

theorem Effect.cursors {may : Right → Prop} {db db' : Db} (h : Effect may db db') :
    db'.cursors = db.cursors := by
  cases h with
  | record _ _ _ _ =>
    obtain ⟨transfers, hupsert⟩ := Db.upsertTransfer_eq db _
    rw [hupsert]
  | recordMove _ _ _ _ _ _ _ _ =>
    obtain ⟨transfers, hupsert⟩ := Db.upsertTransfer_eq db _
    rw [hupsert]
    rfl
  | accept _ haccept =>
    obtain ⟨now, db1, hpaid, hcredits⟩ := haccept.credits
    obtain ⟨_, _, _, _, _, _, _, _, -, -, rfl⟩ := accept_frame hpaid hcredits
    rfl
  | _ => rfl

theorem Transaction.cursors {t : Transaction} {db db' : Db} (h : t.apply db = .ok db') :
    db'.cursors = db.cursors :=
  (Transaction.effects h).invariant (fun x => x.cursors = db.cursors) rfl
    fun _ _ ha hab => hab.cursors.trans ha

/-- No commit of any service touches a cursor. -/
theorem Operation.cursors (op : Operation) (db : Db) :
    ∀ db' ∈ (op.run db).committed, db'.cursors = db.cursors := by
  refine execAll_induction rfl fun f hf a b ha hab => ?_
  obtain ⟨entry, -, rfl⟩ := List.mem_map.1 hf
  cases entry with
  | error e => cases hab
  | ok t => exact (Transaction.cursors hab).trans ha

/-! ## The bookkeeping -/

variable {scanner : ChainScanner} {feed : Nat → Moment} {p : Nat}

/-- The invariant of a scanner's tick. -/
abbrev SoundFor (chain : Chain) (scanner : ChainScanner) (first : Option Nat) :
    Cursors → List Call → Prop :=
  CursorSound chain.adapter scanner.network first

variable {chain : Chain}

theorem createCursor_keeps (chainTip : Nat) :
    Keeps feed (SoundFor chain scanner first) (fun _ c _ => c.find? scanner.network = none)
      (scanner.createCursor chainTip)
      fun position _ c _ => CursorAt scanner.network position.lastProcessedBlock c := by
  have hwrite : ∀ row : ChainCursor, row.network = scanner.network →
      Keeps feed (SoundFor chain scanner first) (fun _ c _ => c.find? scanner.network = none)
        (write (fun _ db => db.createCursor row) [.started row.lastProcessedBlock])
        fun _ _ c _ => CursorAt scanner.network row.lastProcessedBlock c := by
    intro row hrow
    refine Keeps.write fun n db db' l hsound hnone hcreate => ?_
    unfold Db.createCursor at hcreate
    split at hcreate
    · cases hcreate
    · next hfree =>
      cases hcreate
      have hfind : (db.cursors.insert row hfree).find? scanner.network = some row := by
        rw [Table.find?_insert, if_pos hrow]
      refine ⟨⟨fun h => ?_, fun cursor start hcursor hstart height hlow hhigh => ?_⟩, row, hfind,
        rfl⟩
      · rw [hfind] at h
        cases h
      · obtain rfl : row = cursor := Option.some.inj (hfind.symm.trans hcursor)
        have hnew := hsound.fresh hnone start
        have hsame : start = row.lastProcessedBlock := by
          rcases hstart with hstart | hstart
          · exact absurd (.inl hstart) hnew
          · rcases List.mem_cons.1 hstart with hstart | hstart
            · exact Call.started.inj hstart
            · exact absurd (.inr hstart) hnew
        omega
  unfold createCursor
  exact Keeps.bind (hwrite _ rfl) fun _ => Keeps.pure fun _ _ _ _ h => h

theorem loadCursor_keeps (chainTip : Nat) :
    Keeps feed (SoundFor chain scanner first) (fun _ _ _ => True) (scanner.loadCursor chainTip)
      fun position _ c _ => CursorAt scanner.network position.lastProcessedBlock c := by
  have hread : Keeps feed (SoundFor chain scanner first) (fun _ _ _ => True)
      (read fun _ db => db.cursors.find? scanner.network)
      fun found _ c _ => found = c.find? scanner.network :=
    Keeps.read fun _ _ _ _ _ => rfl
  unfold loadCursor
  refine Keeps.bind hread fun found => ?_
  cases found with
  | none => exact (createCursor_keeps chainTip).mono (fun _ _ _ _ h => h.symm) fun _ _ _ _ h => h
  | some existing => exact Keeps.pure fun _ _ _ _ h => ⟨existing, h.symm, rfl⟩

/-- A question whose answer is not noted says nothing about the cursors. -/
theorem ask_keeps {α : Type} {inv : Cursors → List Call → Prop} {P : Cursors → Prop}
    (question : BlockchainAdapter → Except Error α) :
    Keeps feed inv (fun _ c _ => P c) (ask question fun _ => []) fun _ _ c _ => P c :=
  Keeps.ask fun _ _ _ _ hinv hP _ => ⟨hinv, hP⟩

theorem checkForReorg_keeps {inv : Cursors → List Call → Prop} {P : Cursors → Prop}
    (position : Position) :
    Keeps feed inv (fun _ c _ => P c) (scanner.checkForReorg position) fun _ _ c _ => P c := by
  unfold checkForReorg
  split_ifs
  · exact Keeps.pure fun _ _ _ _ h => h
  · exact Keeps.bind (ask_keeps _) fun _ => Keeps.pure fun _ _ _ _ h => h

theorem previousHash_keeps {inv : Cursors → List Call → Prop} {P : Cursors → Prop} (number : Nat) :
    Keeps feed inv (fun _ c _ => P c) (scanner.previousHash number) fun _ _ c _ => P c := by
  unfold previousHash
  split_ifs
  · exact ask_keeps _
  · exact Keeps.pure fun _ _ _ _ h => h

theorem handleReorg_keeps {P : Cursors → Prop} (fromBlock : Nat) :
    Keeps feed (SoundFor chain scanner first) (fun _ c _ => P c) (scanner.handleReorg fromBlock)
      fun _ _ c _ => P c := by
  refine Keeps.service (fun m db => ?_) fun _ _ _ hsound hP => ⟨hsound, hP⟩
  rw [← run_handleReorg]
  exact Operation.cursors _ db

theorem updateConfirmations_keeps :
    Keeps feed (SoundFor chain scanner first) (fun _ _ _ => True) scanner.updateConfirmations
      fun _ _ _ _ => True := by
  refine Keeps.service (fun m db => ?_) fun _ _ _ hsound _ => ⟨hsound, trivial⟩
  rw [← run_updateConfirmations]
  exact Operation.cursors _ db

/-- A write of the cursor's row. -/
theorem updateCursor_keeps (f : Moment → ChainCursor → ChainCursor)
    (hf : ∀ m r, (f m r).network = r.network) {q : Nat}
    (hq : ∀ m r, (f m r).lastProcessedBlock = q) {covered : List Call → Prop}
    (hcovered : ∀ l, covered l → ∀ height, p < height → height ≤ q →
      Handled chain.adapter scanner.network l height) :
    Keeps feed (SoundFor chain scanner first)
      (fun _ c l => CursorAt scanner.network p c ∧ covered l)
      (write (fun m db => db.updateCursor scanner.network (f m) (hf m)) [])
      fun _ _ c _ => CursorAt scanner.network q c := by
  refine Keeps.write fun n db db' l hsound ⟨hcursor, hl⟩ hwrite => ?_
  unfold Db.updateCursor at hwrite
  split at hwrite
  · cases hwrite
  · cases hwrite
    exact hsound.moved (hf _) hcursor (hq _) (hcovered l hl)

theorem rewindIf_keeps (reorgDetected : Bool) (position : Position) :
    Keeps feed (SoundFor chain scanner first)
      (fun _ c _ => CursorAt scanner.network position.lastProcessedBlock c)
      (scanner.rewindIf reorgDetected position)
      fun position' _ c _ => CursorAt scanner.network position'.lastProcessedBlock c := by
  unfold rewindIf
  split_ifs
  · unfold rewindCursor
    refine Keeps.bind (handleReorg_keeps _) fun _ => ?_
    refine Keeps.bind (previousHash_keeps _) fun hash => ?_
    have hnothing : ∀ l : List Call, True → ∀ height, position.lastProcessedBlock < height →
        height ≤ (if position.lastProcessedBlock > 0 then position.lastProcessedBlock - 1 else 0) →
        Handled chain.adapter scanner.network l height := by
      intro l _ height hlow hhigh
      split_ifs at hhigh <;> omega
    refine Keeps.bind ((updateCursor_keeps (fun m => ChainCursor.rewindTo ⟨_, hash⟩ m.now)
      (fun _ _ => rfl) (fun _ _ => rfl) hnothing).mono (fun _ _ _ _ h => ⟨h, trivial⟩)
      fun _ _ _ _ h => h) fun _ => Keeps.pure fun _ _ _ _ h => h
  · exact Keeps.pure fun _ _ _ _ h => h

/-! ## Handing over -/

theorem processTransaction_keeps (txHash : String) {pre : Assertion} {post : Unit → Assertion}
    (h : ∀ n c l, pre n c l → post () (n + 1) c (.handed txHash :: l)) :
    Keeps feed (SoundFor chain scanner first) pre (scanner.processTransaction txHash) post := by
  refine Keeps.service (fun m db => ?_) fun n c l hsound hpre =>
    ⟨hsound.handed txHash, h n c l hpre⟩
  rw [← run_processTransaction]
  exact Operation.cursors _ db

/-- What neither time nor handing over undoes. -/
def Steady (P : Assertion) : Prop :=
  ∀ n c l, P n c l → P (n + 1) c l ∧ ∀ txHash, P (n + 1) c (.handed txHash :: l)

/-- A block has been shown by now. -/
def Shown (tip : Nat → Nat) (height n : Nat) : Prop := ∀ j, n ≤ j → height ≤ tip j

theorem Shown.succ {tip : Nat → Nat} {n : Nat} (h : Shown tip height n) :
    Shown tip height (n + 1) := fun j hj => h j (Nat.le_of_succ_le hj)

theorem shown_of_le {tip : Nat → Nat} (htip : Monotone tip) {n : Nat} (h : height ≤ tip n) :
    Shown tip height n := fun _ hj => h.trans (htip hj)

/-- A transaction has been handed over if it pays. -/
def PaidOver (chain : Chain) (network : Network) (tracked : List String) (calls : List Call)
    (txHash : String) : Prop :=
  ∀ l, chain.adapter.getTransfers txHash = .ok l → Pays network tracked l →
    .handed txHash ∈ calls

theorem PaidOver.cons {tracked : List String} {txHash : String}
    (h : PaidOver chain network tracked calls txHash) (call : Call) :
    PaidOver chain network tracked (call :: calls) txHash :=
  fun l hl hpays => List.mem_cons_of_mem _ (h l hl hpays)

/-- The last reading of a height, all of whose payments have been handed over. -/
theorem handled_of_paidOver {tracked : List String} {b b' : BlockData}
    (hvisit : lastVisit height calls = some tracked)
    (hb : chain.adapter.getBlock height = .ok (some b)) (hsame : SameBlock b b')
    (hpaid : ∀ tx ∈ b'.transactions, PaidOver chain network tracked calls tx.hash) :
    Handled chain.adapter network calls height := by
  refine ⟨tracked, b, hvisit, hb, fun tx htx l hl hpays => ?_⟩
  have hmem : tx.hash ∈ b'.transactions.map (·.hash) := by
    rw [hsame.transactions]
    exact List.mem_map_of_mem htx
  obtain ⟨tx', htx', hhash⟩ := List.mem_map.1 hmem
  rw [← hhash] at hl ⊢
  exact hpaid tx' htx' l hl hpays

/-! ## The generic path -/

section Generic

variable {tracked : List String} {P : Assertion}

theorem touchesTrackedAddress_keeps {inv : Cursors → List Call → Prop} {txHash : String}
    (network : Network) (hP : Steady P) (hshown : ∀ n c l, P n c l → ∀ l', (feed n).adapter.getTransfers txHash = .ok l' →
      chain.adapter.getTransfers txHash = .ok l') :
    Keeps feed inv P (touchesTrackedAddress tracked txHash) fun touches n c l => P n c l ∧
      (touches = false → ∀ l', chain.adapter.getTransfers txHash = .ok l' →
        ¬ Pays network tracked l') := by
  unfold touchesTrackedAddress
  split_ifs with hempty
  · refine Keeps.pure fun n c l _ h => ⟨h, fun _ l' _ ⟨t, _, _, htracked⟩ => ?_⟩
    rw [List.length_eq_zero_iff.1 hempty] at htracked
    exact List.not_mem_nil htracked
  · have hask : Keeps feed inv P (ask (fun a => a.getTransfers txHash) fun _ => [])
        fun transfers n c l => P n c l ∧ chain.adapter.getTransfers txHash = .ok transfers :=
      Keeps.ask fun n c l transfers hinv h hanswer =>
        ⟨hinv, (hP n c l h).1, hshown n c l h transfers hanswer⟩
    refine Keeps.bind hask fun transfers => Keeps.pure fun n c l _ ⟨h, hanswer⟩ => ⟨h, ?_⟩
    rintro hnone l' hl' ⟨t, ht, -, htracked⟩
    obtain rfl : transfers = l' := Except.ok.inj (hanswer.symm.trans hl')
    rw [List.any_eq_false] at hnone
    exact hnone t ht (decide_eq_true htracked)

theorem scanTransaction_keeps {txHash : String} (hP : Steady P)
    (hshown : ∀ n c l, P n c l → ∀ l', (feed n).adapter.getTransfers txHash = .ok l' →
      chain.adapter.getTransfers txHash = .ok l') :
    Keeps feed (SoundFor chain scanner first) P (scanner.scanTransaction tracked txHash)
      fun _ n c l => P n c l ∧ PaidOver chain scanner.network tracked l txHash := by
  unfold scanTransaction
  refine Keeps.bind (touchesTrackedAddress_keeps scanner.network hP hshown) fun touches => ?_
  cases touches with
  | false => exact Keeps.pure fun n c l _ ⟨h, hnot⟩ => ⟨h, fun l' hl' hpays =>
      absurd hpays (hnot rfl l' hl')⟩
  | true =>
    have hprocess : ∀ pre : Assertion, (∀ n c l, pre n c l → P n c l) →
        Keeps feed (SoundFor chain scanner first) pre (scanner.processTransaction txHash)
          fun _ n c l => P n c l ∧ PaidOver chain scanner.network tracked l txHash :=
      fun pre hpre => processTransaction_keeps txHash fun n c l h =>
        ⟨(hP n c l (hpre n c l h)).2 txHash, fun _ _ _ => List.mem_cons_self⟩
    exact Keeps.bind (hprocess _ fun _ _ _ h => h.1) fun _ => Keeps.pure fun _ _ _ _ h => h

theorem Steady.paidOver (hP : Steady P) (chain : Chain) (network : Network) (tracked : List String)
    (txHash : String) : Steady fun n c l => P n c l ∧ PaidOver chain network tracked l txHash :=
  fun n c l ⟨h, hpaid⟩ => ⟨⟨(hP n c l h).1, hpaid⟩,
    fun other => ⟨(hP n c l h).2 other, hpaid.cons _⟩⟩

theorem scanTransactions_keeps {txs : List ChainTransaction} (hP : Steady P)
    (hshown : ∀ tx ∈ txs, ∀ n c l, P n c l → ∀ l', (feed n).adapter.getTransfers tx.hash = .ok l' →
      chain.adapter.getTransfers tx.hash = .ok l') :
    Keeps feed (SoundFor chain scanner first) P (scanner.scanTransactions tracked txs)
      fun _ n c l => P n c l ∧ ∀ tx ∈ txs, PaidOver chain scanner.network tracked l tx.hash := by
  induction txs generalizing P with
  | nil => exact Keeps.pure fun _ _ _ _ h => ⟨h, fun tx htx => absurd htx List.not_mem_nil⟩
  | cons tx txs ih =>
    refine Keeps.bind (scanTransaction_keeps hP (hshown tx List.mem_cons_self)) fun _ => ?_
    have hrest := ih (hP.paidOver chain scanner.network tracked tx.hash) fun tx' htx' n c l h =>
      hshown tx' (List.mem_cons_of_mem _ htx') n c l h.1
    refine Keeps.bind hrest fun _ => Keeps.pure fun n c l _ ⟨⟨h, hfirst⟩, hall⟩ => ⟨h, ?_⟩
    exact List.forall_mem_cons.2 ⟨hfirst, hall⟩

end Generic

/-- Where the scan of a range has got to: everything from the cursor to there is handled. -/
def HandledUpto (chain : Chain) (scanner : ChainScanner) (p : Nat) (last : Option BlockRef)
    (c : Cursors) (l : List Call) : Prop :=
  CursorAt scanner.network p c ∧ ∀ b, last = some b → ∀ height, p < height → height ≤ b.number →
    Handled chain.adapter scanner.network l height

theorem Chain.block_number {b : BlockData} (h : chain.adapter.getBlock height = .ok (some b)) :
    b.number = height := by
  cases chain with
  | plain adapter _ numbered => exact numbered height b h
  | evm node =>
    have hb : EvmJsonRpcAdapter.getBlock node height = some b := Except.ok.inj h
    obtain ⟨b', hfind, rfl⟩ := Option.map_eq_some_iff.1 hb
    exact (EvmNode.blockByNumber_mem hfind).2

section Range

variable {tracked : List String} {tip : Nat → Nat}

/-- A block that was read: noted, shown by now, and of the chain. -/
def WasRead (chain : Chain) (tip : Nat → Nat) (tracked : List String) (height : Nat) (b : BlockData)
    (n : Nat) (l : List Call) : Prop :=
  lastVisit height l = some tracked ∧ Shown tip height n ∧
    ∃ b', chain.adapter.getBlock height = .ok (some b') ∧ SameBlock b' b

theorem readBlock_keeps (htip : Monotone tip)
    (hfeed : ∀ n, Answers chain.adapter (tip n) (feed n).adapter) (hheight : p < height)
    (below : List Call → Prop) (hbelow : ∀ l, below l → below (.scanned height tracked :: l)) :
    Keeps feed (SoundFor chain scanner first)
      (fun _ c l => CursorAt scanner.network p c ∧ below l) (readBlock height tracked)
      fun answer n c l => (CursorAt scanner.network p c ∧ below l) ∧
        ∀ b, answer = some b → WasRead chain tip tracked height b n l := by
  refine Keeps.ask fun n c l answer hsound ⟨hcursor, hl⟩ hanswer => ?_
  cases answer with
  | none => exact ⟨hsound, ⟨hcursor, hl⟩, fun b hb => by cases hb⟩
  | some b =>
    refine ⟨hsound.scanned hcursor hheight tracked, ⟨hcursor, hbelow l hl⟩, fun b' hb' => ?_⟩
    cases hb'
    obtain ⟨hle, hsame⟩ := (hfeed n).block height b hanswer
    exact ⟨if_pos rfl, (shown_of_le htip hle).succ, hsame⟩

/-- The loop has handled the heights below its own. -/
def Below (chain : Chain) (network : Network) (p height : Nat) (last : Option BlockRef)
    (l : List Call) : Prop :=
  (∀ h, p < h → h < height → Handled chain.adapter network l h) ∧
    ∀ b, last = some b → b.number < height

variable {last : Option BlockRef}

theorem Below.scanned {l : List Call} (h : Below chain network p height last l) :
    Below chain network p height last (.scanned height tracked :: l) :=
  ⟨fun h' hlow hhigh => (h.1 h' hlow hhigh).scanned (by omega) tracked, h.2⟩

theorem Below.handed {l : List Call} (h : Below chain network p height last l) (txHash : String) :
    Below chain network p height last (.handed txHash :: l) :=
  ⟨fun h' hlow hhigh => (h.1 h' hlow hhigh).handed txHash, h.2⟩

theorem steady_wasRead {b : BlockData} :
    Steady fun n c l => (CursorAt network p c ∧ Below chain network p height last l) ∧
      WasRead chain tip tracked height b n l :=
  fun _ _ _ ⟨⟨hcursor, h⟩, hvisit, hshown, hsame⟩ =>
    ⟨⟨⟨hcursor, h⟩, hvisit, hshown.succ, hsame⟩,
      fun txHash => ⟨⟨hcursor, h.handed txHash⟩, hvisit, hshown.succ, hsame⟩⟩

/-- The transactions of a block that was read are known by now. -/
theorem WasRead.transfers (hfeed : ∀ n, Answers chain.adapter (tip n) (feed n).adapter)
    {b : BlockData} {n : Nat} {l : List Call} (h : WasRead chain tip tracked height b n l)
    {tx : ChainTransaction} (htx : tx ∈ b.transactions) {l' : List ParsedTransfer}
    (hanswer : (feed n).adapter.getTransfers tx.hash = .ok l') :
    chain.adapter.getTransfers tx.hash = .ok l' := by
  obtain ⟨-, hshown, b', hb', hsame⟩ := h
  have hmem : tx.hash ∈ b'.transactions.map (·.hash) := by
    rw [← hsame.transactions]
    exact List.mem_map_of_mem htx
  obtain ⟨tx', htx', hhash⟩ := List.mem_map.1 hmem
  rw [← hhash] at hanswer ⊢
  exact (hfeed n).transfers height b' tx' l' (hshown n le_rfl) hb' htx' hanswer

/-- Once the transactions of a block have been scanned, its height is handled. -/
theorem scanBlock_keeps (hfeed : ∀ n, Answers chain.adapter (tip n) (feed n).adapter)
    (b : BlockData) (last : Option BlockRef) :
    Keeps feed (SoundFor chain scanner first)
      (fun n c l => (CursorAt scanner.network p c ∧ Below chain scanner.network p height last l) ∧
        WasRead chain tip tracked height b n l)
      (scanner.scanTransactions tracked b.transactions)
      fun _ _ c l => CursorAt scanner.network p c ∧
        Below chain scanner.network p (height + 1) (some ⟨b.number, b.hash⟩) l := by
  refine (scanTransactions_keeps steady_wasRead fun tx htx n c l h l' =>
    h.2.transfers hfeed htx).mono (fun _ _ _ _ h => h) ?_
  rintro _ n c l ⟨⟨⟨hcursor, hdone, -⟩, hvisit, -, b', hb', hsame⟩, hpaid⟩
  refine ⟨hcursor, fun h hlow hhigh => ?_, fun r hr => ?_⟩
  · rcases Nat.lt_succ_iff_lt_or_eq.1 hhigh with hlt | rfl
    · exact hdone h hlow hlt
    · exact handled_of_paidOver hvisit hb' hsame hpaid
  · cases hr
    have hnumber : b.number = height := hsame.number.trans (Chain.block_number hb')
    show b.number < height + 1
    omega

/-- The loop over the heights of a range. -/
theorem scanBlocks_keeps (htip : Monotone tip)
    (hfeed : ∀ n, Answers chain.adapter (tip n) (feed n).adapter) {count : Nat}
    (outcome : ScanOutcome) (hheight : p < height) :
    Keeps feed (SoundFor chain scanner first)
      (fun _ c l => CursorAt scanner.network p c ∧
        Below chain scanner.network p height outcome.lastBlock l)
      (scanner.scanBlocks tracked count height outcome)
      fun outcome' _ c l => HandledUpto chain scanner p outcome'.lastBlock c l := by
  induction count generalizing height outcome with
  | zero =>
    exact Keeps.pure fun n c l _ ⟨hcursor, hdone, hlast⟩ =>
      ⟨hcursor, fun b hb h hlow hhigh => hdone h hlow (hhigh.trans_lt (hlast b hb))⟩
  | succ count ih =>
    refine Keeps.bind (readBlock_keeps htip hfeed hheight _ fun l h => h.scanned) fun answer => ?_
    cases answer with
    | none =>
      exact Keeps.pure fun n c l _ ⟨⟨hcursor, hdone, hlast⟩, _⟩ =>
        ⟨hcursor, fun b hb h hlow hhigh => hdone h hlow (hhigh.trans_lt (hlast b hb))⟩
    | some b =>
      refine Keeps.bind ((scanBlock_keeps hfeed b outcome.lastBlock).mono
        (fun n c l _ h => ⟨h.1, h.2 b rfl⟩) fun _ _ _ _ h => h) fun candidates => ?_
      exact ih ⟨outcome.scannedBlocks + 1, outcome.candidateTransactions + candidates,
        some ⟨b.number, b.hash⟩⟩ (Nat.lt_succ_of_lt hheight)

theorem scanRangeGeneric_keeps (htip : Monotone tip)
    (hfeed : ∀ n, Answers chain.adapter (tip n) (feed n).adapter) (toBlock : Nat) :
    Keeps feed (SoundFor chain scanner first) (fun _ c _ => CursorAt scanner.network p c)
      (scanner.scanRangeGeneric (p + 1) toBlock tracked)
      fun outcome _ c l => HandledUpto chain scanner p outcome.lastBlock c l :=
  (scanBlocks_keeps htip hfeed ⟨0, 0, none⟩ p.lt_succ_self).mono
    (fun _ _ _ _ h => ⟨h, fun _ hlow hhigh => absurd hhigh (by omega), fun b hb => by cases hb⟩)
    fun _ _ _ _ h => h

/-! ## The fast path -/

theorem discover_eq_ok {α : Type} {f : EvmDiscoveryAdapter → Except Error α}
    {adapter : BlockchainAdapter} {a : α} (h : discover f adapter = .ok a) :
    ∃ d, adapter.discovery = some d ∧ f d = .ok a := by
  unfold discover at h
  split at h
  · cases h
  · next d hd => exact ⟨d, hd, h⟩

theorem Chain.light_number {d : EvmDiscoveryAdapter} {b : EvmLightBlock}
    (hd : chain.adapter.discovery = some d) (h : d.getLightBlock height = .ok (some b)) :
    b.number = height := by
  cases chain with
  | plain adapter undiscovering _ => cases undiscovering.symm.trans hd
  | evm node =>
    cases hd
    have hb : EvmJsonRpcAdapter.getLightBlock node height = some b := Except.ok.inj h
    obtain ⟨b', hfind, rfl⟩ := Option.map_eq_some_iff.1 hb
    exact (EvmNode.blockByNumber_mem hfind).2

theorem normalizeForTracking_of_lower {address : String} (h : toLowerCase address = address) :
    normalizeForTracking address = address := by
  unfold normalizeForTracking
  split_ifs
  · exact h
  · rfl

theorem native_mem_candidates {tx : ExecutedTx} {t : ParsedTransfer} {b : EvmLightBlock}
    (h : tx.native = some t) (htracked : t.toAddress ∈ tracked)
    (htx : ⟨tx.hash, tx.to_, tx.value⟩ ∈ b.transactions) :
    tx.hash ∈ nativeCandidates tracked b := by
  obtain ⟨-, -, -, hvalue, target, hto, haddress⟩ := ExecutedTx.native_eq_some h
  have hnonempty : target ≠ "" := by
    rintro rfl
    have hvalid := tx.to_valid "" hto
    cases hvalid
  refine List.mem_map.2 ⟨_, List.mem_filter.2 ⟨htx, ?_⟩, rfl⟩
  dsimp only
  rw [hto, Option.any_some, decide_eq_true_eq]
  exact ⟨hnonempty, Int.natCast_pos.2 hvalue, haddress ▸ htracked⟩

/-- **The two cheap methods find every payment** of a block: a native one is in the light block,
one in a token among the logs. -/
theorem discovered {d : EvmDiscoveryAdapter} {b : EvmLightBlock} {fromBlock toBlock : Nat}
    {hashes : List String} (hd : chain.adapter.discovery = some d)
    (hb : d.getLightBlock height = .ok (some b))
    (hlogs : d.getTransferLogsTo fromBlock toBlock scanner.tokenContracts tracked = .ok hashes)
    (hrange : fromBlock ≤ height ∧ height ≤ toBlock) :
    ∃ b', chain.adapter.getBlock height = .ok (some b') ∧ ∀ tx ∈ b'.transactions, ∀ l,
      chain.adapter.getTransfers tx.hash = .ok l → Pays scanner.network tracked l →
        tx.hash ∈ nativeCandidates tracked b ∨ tx.hash ∈ hashes := by
  cases chain with
  | plain adapter undiscovering _ => cases undiscovering.symm.trans hd
  | evm node =>
    cases hd
    obtain ⟨block, hfind, rfl⟩ := Option.map_eq_some_iff.1 (Except.ok.inj hb)
    obtain ⟨hblock, hnumber⟩ := EvmNode.blockByNumber_mem hfind
    have hgetBlock : (evmAdapter node).getBlock height = .ok _ :=
      congrArg Except.ok (congrArg (Option.map _) hfind)
    refine ⟨_, hgetBlock, fun tx htx l hl ⟨t, ht, hpayment, htracked⟩ => ?_⟩
    obtain ⟨etx, hetx, rfl⟩ := List.mem_map.1 htx
    have hmem : (block, etx) ∈ node.executed :=
      EvmNode.mem_executed.2 ⟨hblock, hetx⟩
    have htransfers : (evmAdapter node).getTransfers etx.hash = .ok etx.transfers :=
      mapError_eq_ok.2 (getTransfers_eq hmem)
    obtain rfl : etx.transfers = l := Except.ok.inj (htransfers.symm.trans hl)
    rw [normalizeForTracking_of_lower (ExecutedTx.toAddress_lower ht)] at htracked
    rcases ExecutedTx.mem_transfers ht with hnative | ⟨log, hlog, htransfer⟩
    · exact .inl (native_mem_candidates hnative htracked (List.mem_map_of_mem hetx))
    · obtain ⟨-, -, hcontract, -⟩ :=
        parseTransferLog_eq_some (ReportedLog.transfer_eq_some.1 htransfer)
      rcases hpayment with hnone | ⟨a, ha, hlisted⟩
      · cases hnone.symm.trans hcontract
      · refine .inr (mem_getTransferLogsTo (mapError_eq_ok.1 hlogs) hmem (hnumber ▸ hrange) ht ?_
          hcontract htracked)
        exact List.mem_filterMap.2 ⟨a, ha, hlisted.trans hcontract⟩

/-- What is found once a height was asked for. -/
def Found.note (tracked : List String) (found : Found) (answer : Option EvmLightBlock) : Found :=
  answer.elim found fun block =>
    ⟨found.candidateHashes ++ nativeCandidates tracked block, found.scannedBlocks + 1,
      some ⟨block.number, block.hash⟩⟩

/-- What the loop over the light blocks has collected so far. -/
structure Collected (chain : Chain) (tip : Nat → Nat) (tracked : List String) (p : Nat)
    (found : Found) (n : Nat) (l : List Call) : Prop where
  visited : ∀ h, p < h → h < p + 1 + found.scannedBlocks → lastVisit h l = some tracked
  shown : ∀ h, p < h → h < p + 1 + found.scannedBlocks → Shown tip h n
  candidates : ∀ h, p < h → h < p + 1 + found.scannedBlocks → ∃ d b,
    chain.adapter.discovery = some d ∧ d.getLightBlock h = .ok (some b) ∧
      ∀ x ∈ nativeCandidates tracked b, x ∈ found.candidateHashes
  last : ∀ b, found.lastBlock = some b → b.number < p + 1 + found.scannedBlocks

theorem collected_nil (n : Nat) (l : List Call) :
    Collected chain tip tracked p ⟨[], 0, none⟩ n l where
  visited h hlow hhigh := absurd hhigh (by simp; omega)
  shown h hlow hhigh := absurd hhigh (by simp; omega)
  candidates h hlow hhigh := absurd hhigh (by simp; omega)
  last b hb := by cases hb

theorem Collected.succ {found : Found} {n : Nat} {l : List Call}
    (h : Collected chain tip tracked p found n l) :
    Collected chain tip tracked p found (n + 1) l where
  visited := h.visited
  shown h' hlow hhigh := (h.shown h' hlow hhigh).succ
  candidates := h.candidates
  last := h.last

/-- One more block. -/
theorem Collected.add {found : Found} {n : Nat} {l : List Call} {d : EvmDiscoveryAdapter}
    {b : EvmLightBlock} (h : Collected chain tip tracked p found n l)
    (hheight : height = p + 1 + found.scannedBlocks) (hshown : Shown tip height n)
    (hd : chain.adapter.discovery = some d) (hb : d.getLightBlock height = .ok (some b)) :
    Collected chain tip tracked p
      ⟨found.candidateHashes ++ nativeCandidates tracked b, found.scannedBlocks + 1,
        some ⟨b.number, b.hash⟩⟩ n (.scanned height tracked :: l) := by
  have hsplit : ∀ h', h' < p + 1 + (found.scannedBlocks + 1) →
      h' < p + 1 + found.scannedBlocks ∨ h' = height := by
    intro h' hhigh
    omega
  refine ⟨fun h' hlow hhigh => ?_, fun h' hlow hhigh => ?_, fun h' hlow hhigh => ?_, fun r hr => ?_⟩
  · rw [lastVisit]
    rcases hsplit h' hhigh with hlt | rfl
    · rw [if_neg (by omega)]
      exact h.visited h' hlow hlt
    · exact if_pos rfl
  · rcases hsplit h' hhigh with hlt | rfl
    · exact h.shown h' hlow hlt
    · exact hshown
  · rcases hsplit h' hhigh with hlt | rfl
    · obtain ⟨d', b', hd', hb', hcandidates⟩ := h.candidates h' hlow hlt
      exact ⟨d', b', hd', hb', fun x hx => List.mem_append_left _ (hcandidates x hx)⟩
    · exact ⟨d, b, hd, hb, fun x hx => List.mem_append_right _ hx⟩
  · cases hr
    show b.number < p + 1 + (found.scannedBlocks + 1)
    rw [Chain.light_number hd hb]
    omega

theorem discoverBlocks_keeps (htip : Monotone tip)
    (hfeed : ∀ n, Answers chain.adapter (tip n) (feed n).adapter) {count : Nat} (found : Found)
    (hheight : height = p + 1 + found.scannedBlocks) :
    Keeps feed (SoundFor chain scanner first)
      (fun n c l => CursorAt scanner.network p c ∧ Collected chain tip tracked p found n l)
      (discoverBlocks tracked count height found)
      fun found' n c l => CursorAt scanner.network p c ∧
        Collected chain tip tracked p found' n l := by
  induction count generalizing height found with
  | zero => exact Keeps.pure fun _ _ _ _ h => h
  | succ count ih =>
    have hread : Keeps feed (SoundFor chain scanner first)
        (fun n c l => CursorAt scanner.network p c ∧ Collected chain tip tracked p found n l)
        (readLightBlock height tracked)
        fun answer n c l => CursorAt scanner.network p c ∧
          Collected chain tip tracked p (found.note tracked answer) n l := by
      refine Keeps.ask fun n c l answer hsound h hanswer => ?_
      obtain ⟨hcursor, hl⟩ := h
      cases answer with
      | none => exact ⟨hsound, hcursor, hl.succ⟩
      | some b =>
        obtain ⟨d, hd, hb⟩ := discover_eq_ok hanswer
        obtain ⟨hle, d', hd', hb'⟩ := (hfeed n).lightBlock d height b hd hb
        refine ⟨hsound.scanned hcursor (by omega) tracked, hcursor, ?_⟩
        exact hl.succ.add hheight (shown_of_le htip hle).succ hd' hb'
    refine Keeps.bind hread fun answer => ?_
    cases answer with
    | none => exact Keeps.pure fun _ _ _ _ h => h
    | some b =>
      refine ih (found.note tracked (some b)) ?_
      simp only [Found.note, Option.elim_some]
      omega

/-- The hashes of the token transfers of the range, if it has any block. -/
def TokensFound (chain : Chain) (scanner : ChainScanner) (tracked : List String) (p : Nat)
    (found : Found) (hashes : List String) : Prop :=
  found.scannedBlocks > 0 → ∃ d, chain.adapter.discovery = some d ∧
    d.getTransferLogsTo (p + 1) (p + 1 + found.scannedBlocks - 1) scanner.tokenContracts tracked =
      .ok hashes

theorem tokenHashes_keeps (hfeed : ∀ n, Answers chain.adapter (tip n) (feed n).adapter)
    (found : Found) :
    Keeps feed (SoundFor chain scanner first)
      (fun n c l => CursorAt scanner.network p c ∧ Collected chain tip tracked p found n l)
      (scanner.tokenHashes (p + 1) found.scannedBlocks tracked)
      fun hashes n c l => (CursorAt scanner.network p c ∧
        Collected chain tip tracked p found n l) ∧
          TokensFound chain scanner tracked p found hashes := by
  unfold tokenHashes
  split_ifs with hblocks
  · refine Keeps.ask fun n c l hashes hsound ⟨hcursor, hl⟩ hanswer => ?_
    refine ⟨hsound, ⟨hcursor, hl.succ⟩, fun _ => ?_⟩
    obtain ⟨d, hd, hlogs⟩ := discover_eq_ok hanswer
    refine (hfeed n).logs d _ _ _ _ _ hd (hl.shown _ ?_ ?_ n le_rfl) hlogs <;> omega
  · exact Keeps.pure fun n c l _ h => ⟨h, fun hpos => absurd hpos hblocks⟩

theorem Collected.handed {found : Found} {n : Nat} {l : List Call}
    (h : Collected chain tip tracked p found n l) (txHash : String) :
    Collected chain tip tracked p found (n + 1) (.handed txHash :: l) where
  visited := h.visited
  shown h' hlow hhigh := (h.shown h' hlow hhigh).succ
  candidates := h.candidates
  last := h.last

/-- Once the candidates have been handed over, the whole range is handled. -/
theorem Collected.handledUpto {found : Found} {hashes : List String} {n : Nat} {c : Cursors}
    {l : List Call} (h : Collected chain tip tracked p found n l)
    (hcursor : CursorAt scanner.network p c)
    (htokens : TokensFound chain scanner tracked p found hashes)
    (hhanded : ∀ x ∈ found.candidateHashes ++ hashes, .handed x ∈ l) :
    HandledUpto chain scanner p found.lastBlock c l := by
  refine ⟨hcursor, fun r hr height hlow hhigh => ?_⟩
  have hlast := h.last r hr
  have hheight : height < p + 1 + found.scannedBlocks := by omega
  obtain ⟨d, b, hd, hb, hcandidates⟩ := h.candidates height hlow hheight
  obtain ⟨d', hd', hlogs⟩ := htokens (by omega)
  obtain rfl : d = d' := Option.some.inj (hd.symm.trans hd')
  obtain ⟨b', hb', hall⟩ := discovered hd hb hlogs (by omega)
  refine ⟨tracked, b', h.visited height hlow hheight, hb', fun tx htx l' hl' hpays => ?_⟩
  rcases hall tx htx l' hl' hpays with hnative | htoken
  · exact hhanded _ (List.mem_append_left _ (hcandidates _ hnative))
  · exact hhanded _ (List.mem_append_right _ htoken)

theorem handAll_keeps {P : Assertion} (hP : Steady P) (hashes : List String) :
    Keeps feed (SoundFor chain scanner first) P (hashes.forM scanner.processTransaction)
      fun _ n c l => P n c l ∧ ∀ x ∈ hashes, .handed x ∈ l := by
  have hstep : ∀ before txHash after, hashes = before ++ txHash :: after →
      Keeps feed (SoundFor chain scanner first)
        (fun n c l => P n c l ∧ ∀ x ∈ before, .handed x ∈ l) (scanner.processTransaction txHash)
        fun _ n c l => P n c l ∧ ∀ x ∈ before ++ [txHash], .handed x ∈ l := by
    refine fun before txHash after _ => processTransaction_keeps txHash fun n c l ⟨h, hbefore⟩ => ?_
    refine ⟨(hP n c l h).2 txHash, fun x hx => ?_⟩
    rcases List.mem_append.1 hx with hx | hx
    · exact List.mem_cons_of_mem _ (hbefore x hx)
    · rw [List.mem_singleton.1 hx]
      exact List.mem_cons_self
  exact (Keeps.forM (fun before n c l => P n c l ∧ ∀ x ∈ before, .handed x ∈ l) hstep).mono
    (fun n c l _ h => ⟨h, fun x hx => absurd hx List.not_mem_nil⟩) fun _ _ _ _ h => h

theorem scanRangeFast_keeps (htip : Monotone tip)
    (hfeed : ∀ n, Answers chain.adapter (tip n) (feed n).adapter) (toBlock : Nat) :
    Keeps feed (SoundFor chain scanner first) (fun _ c _ => CursorAt scanner.network p c)
      (scanner.scanRangeFast (p + 1) toBlock tracked)
      fun outcome _ c l => HandledUpto chain scanner p outcome.lastBlock c l := by
  unfold scanRangeFast
  refine Keeps.bind ((discoverBlocks_keeps htip hfeed ⟨[], 0, none⟩ rfl).mono
    (fun n _ l _ h => ⟨h, collected_nil n l⟩) fun _ _ _ _ h => h) fun found => ?_
  refine Keeps.bind (tokenHashes_keeps hfeed found) fun hashes => ?_
  have hsteady : Steady fun n c l => (CursorAt scanner.network p c ∧
      Collected chain tip tracked p found n l) ∧
        TokensFound chain scanner tracked p found hashes :=
    fun n c l ⟨⟨hcursor, hl⟩, htokens⟩ =>
      ⟨⟨⟨hcursor, hl.succ⟩, htokens⟩, fun txHash => ⟨⟨hcursor, hl.handed txHash⟩, htokens⟩⟩
  refine Keeps.bind (handAll_keeps hsteady _) fun _ => ?_
  refine Keeps.pure fun n c l _ ⟨⟨⟨hcursor, hl⟩, htokens⟩, hhanded⟩ =>
    hl.handledUpto hcursor htokens fun x hx => hhanded x ?_
  exact List.mem_eraseDups.2 hx

theorem scanRange_keeps (htip : Monotone tip)
    (hfeed : ∀ n, Answers chain.adapter (tip n) (feed n).adapter) (toBlock : Nat) :
    Keeps feed (SoundFor chain scanner first) (fun _ c _ => CursorAt scanner.network p c)
      (scanner.scanRange (p + 1) toBlock tracked)
      fun outcome _ c l => HandledUpto chain scanner p outcome.lastBlock c l := by
  unfold scanRange
  split_ifs
  · exact scanRangeFast_keeps htip hfeed toBlock
  · exact scanRangeGeneric_keeps htip hfeed toBlock

end Range

/-! ## Ticks -/

theorem saveCursor_keeps (cursor : Position) (last : Option BlockRef) (chainTip : Nat) :
    Keeps feed (SoundFor chain scanner first)
      (fun _ c l => HandledUpto chain scanner cursor.lastProcessedBlock last c l)
      (scanner.saveCursor (endingPosition cursor last) chainTip) fun _ _ _ _ => True := by
  have hcovered : ∀ l : List Call, (∀ b, last = some b → ∀ height,
      cursor.lastProcessedBlock < height → height ≤ b.number →
        Handled chain.adapter scanner.network l height) →
      ∀ height, cursor.lastProcessedBlock < height →
        height ≤ (endingPosition cursor last).lastProcessedBlock →
          Handled chain.adapter scanner.network l height := by
    intro l hl height hlow hhigh
    cases last with
    | none => exact absurd hlow (not_lt.2 hhigh)
    | some b => exact hl b rfl height hlow hhigh
  exact (updateCursor_keeps (fun _ => ChainCursor.saveAt (endingPosition cursor last) chainTip)
    (fun _ _ => rfl) (fun _ _ => rfl) hcovered).mono (fun _ _ _ _ h => h)
    fun _ _ _ _ _ => trivial

/-- **Every await of a tick keeps the invariant.** -/
theorem tick_keeps (hfeed : NoReorg chain feed) :
    Keeps feed (SoundFor chain scanner first) (fun _ _ _ => True) scanner.tick
      fun _ _ _ _ => True := by
  obtain ⟨tip, htip, hanswers⟩ := hfeed
  have hask : Keeps feed (SoundFor chain scanner first) (fun _ _ _ => True)
      (ask (·.getCurrentBlock) fun _ => []) fun _ _ _ _ => True :=
    Keeps.ask fun _ _ _ _ hsound _ _ => ⟨hsound, trivial⟩
  unfold tick
  refine Keeps.bind hask fun current => ?_
  refine Keeps.bind (loadCursor_keeps current.number) fun loaded => ?_
  refine Keeps.bind (checkForReorg_keeps loaded) fun reorgDetected => ?_
  refine Keeps.bind (rewindIf_keeps reorgDetected loaded) fun cursor => ?_
  have htracked : Keeps feed (SoundFor chain scanner first)
      (fun _ c _ => CursorAt scanner.network cursor.lastProcessedBlock c)
      scanner.loadTrackedAddresses
      fun _ _ c _ => CursorAt scanner.network cursor.lastProcessedBlock c :=
    Keeps.read fun _ _ _ _ h => h
  refine Keeps.bind htracked fun tracked => ?_
  refine Keeps.bind (scanRange_keeps htip hanswers _) fun outcome => ?_
  refine Keeps.bind (saveCursor_keeps cursor outcome.lastBlock _) fun _ => ?_
  exact Keeps.bind updateConfirmations_keeps fun _ => Keeps.pure fun _ _ _ _ _ => trivial

/-- **The cursor never runs ahead of the work.** Ticks follow one another, each on moments of its
own: a request may fail in any of them, a block may be missing, the process may be stopped before
or after any commit, and others commit what they like. In every state, every height above the
first cursor and up to the stored one has been read, and each of its transactions that pays an
address tracked at its last reading has been handed to `processTransaction`, which returned. -/
theorem cursor_covered {chain : Chain} {scanner : ChainScanner} {db : Db} {s : ScanSession}
    (h : Rounds (NoReorg chain) scanner.tick ⟨db, []⟩ s) {cursor : ChainCursor}
    (hcursor : s.db.cursors.find? scanner.network = some cursor) {start : Nat}
    (hstart : StartsAt ((db.cursors.find? scanner.network).map (·.lastProcessedBlock)) s.calls
      start) :
    ∀ height, start < height → height ≤ cursor.lastProcessedBlock →
      Handled chain.adapter scanner.network s.calls height := by
  have h0 : SoundFor chain scanner ((db.cursors.find? scanner.network).map (·.lastProcessedBlock))
      db.cursors [] := by
    refine ⟨fun hnone start hstart => ?_, fun cursor start hfind hstart height hlow hhigh => ?_⟩
    · rw [hnone] at hstart
      rcases hstart with hstart | hstart <;> cases hstart
    · rw [hfind] at hstart
      rcases hstart with hstart | hstart
      · cases hstart
        exact absurd hhigh (not_le.2 hlow)
      · cases hstart
  have hround : ∀ feed, NoReorg chain feed → Triple feed
      (fun _ s => SoundFor chain scanner
        ((db.cursors.find? scanner.network).map (·.lastProcessedBlock)) s.db.cursors s.calls)
      scanner.tick fun _ _ s => SoundFor chain scanner
        ((db.cursors.find? scanner.network).map (·.lastProcessedBlock)) s.db.cursors s.calls :=
    fun feed hfeed => Triple.mono (tick_keeps hfeed) (fun _ _ hs => ⟨hs, trivial⟩)
      fun _ _ _ hs => hs.1
  exact (h.invariant h0 hround).covered cursor start hcursor hstart

/-- A node that answers tells no falsehood about itself. -/
theorem answers_self (node : EvmNode) :
    Answers (evmAdapter node) node.blockNumber (evmAdapter node) where
  block height b h := by
    obtain ⟨block, hfind, rfl⟩ := Option.map_eq_some_iff.1 (Except.ok.inj h)
    obtain ⟨hblock, rfl⟩ := EvmNode.blockByNumber_mem hfind
    exact ⟨EvmNode.number_le_blockNumber hblock, _, h, rfl, rfl, rfl⟩
  transfers _ _ _ _ _ _ _ h := h
  lightBlock d height b hd h := by
    cases hd
    obtain ⟨block, hfind, rfl⟩ := Option.map_eq_some_iff.1 (Except.ok.inj h)
    obtain ⟨hblock, rfl⟩ := EvmNode.blockByNumber_mem hfind
    exact ⟨EvmNode.number_le_blockNumber hblock, _, rfl, h⟩
  logs d _ _ _ _ _ hd _ h := ⟨d, hd, h⟩

/-! ## A first tick -/

namespace Shop

def wallet : String := "0x00000000000000000000000000000000000000aa"

/-- One coin for the wallet. -/
def coin : ExecutedTx where
  hash := "coin"
  from_ := "0x00000000000000000000000000000000000000Bb"
  to_ := some "0x00000000000000000000000000000000000000AA"
  value := 1000000000000000000
  gasPrice := some 1
  from_valid := by decide +kernel
  to_valid := by decide +kernel
  receipt := ⟨true, 21000, some 1, [], List.nodup_nil, fun _ => rfl⟩

def firstBlocks : EvmNode where
  blocks := [⟨0, "genesis", []⟩, ⟨1, "first", [coin]⟩]
  mempool := []
  numbers_distinct := by decide
  hashes_distinct := by decide

/-- The wallet has been handed to an invoice. -/
def walletAssigned : Db := { Db.empty with
  addresses := Db.empty.addresses.insert
    ⟨⟨.ethereum, wallet⟩, "shop", wallet, none, .assigned, some "i", some 0, none, 0⟩ rfl }

def ethereumScanner : ChainScanner := ⟨.ethereum, true, 50, 0⟩

def firstMoments (_ : Nat) : Moment := .undisturbed (evmAdapter firstBlocks) 1000

def firstTick : ScanSession := (ethereumScanner.tick firstMoments 0 ⟨walletAssigned, []⟩).state

end Shop

/-- The first tick of a scanner starts below the tip, finds the coin and hands it over. -/
theorem cursor_covered_shop :
    (Shop.firstTick.db.cursors.find? .ethereum).map (·.lastProcessedBlock) = some 1 ∧
    Handled (evmAdapter Shop.firstBlocks) .ethereum Shop.firstTick.calls 1 ∧
    .handed "coin" ∈ Shop.firstTick.calls := by
  have hfeed : NoReorg (.evm Shop.firstBlocks) Shop.firstMoments :=
    ⟨fun _ => Shop.firstBlocks.blockNumber, monotone_const, fun _ => answers_self _⟩
  have hrounds : Rounds (NoReorg (.evm Shop.firstBlocks)) Shop.ethereumScanner.tick
      ⟨Shop.walletAssigned, []⟩ Shop.firstTick := .round .start _ hfeed
  have hcalls : Shop.firstTick.calls =
      [.handed "coin", .scanned 1 [Shop.wallet], .started 0] := by decide +kernel
  have hcursor : (Shop.firstTick.db.cursors.find? .ethereum).map (·.lastProcessedBlock) =
      some 1 := by decide +kernel
  obtain ⟨cursor, hfind, hheight⟩ := Option.map_eq_some_iff.1 hcursor
  refine ⟨hcursor, ?_, by rw [hcalls]; decide⟩
  have hstart : StartsAt ((Shop.walletAssigned.cursors.find? .ethereum).map (·.lastProcessedBlock))
      Shop.firstTick.calls 0 := by
    rw [hcalls]
    exact .inr (by decide)
  exact cursor_covered hrounds hfind hstart 1 (by decide) hheight.ge

end PaymentGateway
