import PaymentGateway.Lib.Serial
import PaymentGateway.Ledger.Reconciliation

/-!
# Reconciliation next to open postings

Posting and reconciling transactions side by side under serializable isolation. A transaction
reads the snapshot of its first statement; an entry draws its sequence number from a counter that
no rollback turns back; and a transaction commits only if what has been committed stays
serializable.

**Theorem (`reconciliation_sound`).** No run of `reconcileAccount` reports a mismatch. What a
committed run has cached is the sum of the entries its watermark covers, and no such entry becomes
visible later.

The watermark is drawn before commit, so a posting with a lower number may still be open when a
higher one is absorbed. What excludes this is the row that both have read: of a posting and a
reconciliation one precedes the other in the serial order. If the posting comes first, the
reconciliation has seen its entries. If it comes second, it has read a row whose watermark is at
least the new one, and the number it drew afterwards is above every watermark it has read
(`seen_or_above`).
-/

namespace PaymentGateway

open Keyed Fallible Transactional

/-! ## Ledger transactions -/

/-- The row that `ensureAccount` asks for. -/
def lookupAccount (kind : LedgerAccountKind) (ref : AccountRef) (merchantId : Option String) :
    List String :=
  (ledgerAccountCode ⟨kind, ref.network, ref.assetSymbol,
    merchantId.filter (· ≠ "")⟩).toOption.toList

def feeLookups (ref : AccountRef) (feeAmount : Money) : List String :=
  if feeAmount.isPositive then lookupAccount .feeRevenue ref none else []

/-- The rows that a posting asks for when its key is free. -/
def lookupsOfPosting (params : PostPaymentCreditParams) : List String :=
  let ref : AccountRef := ⟨params.network, params.assetSymbol, params.assetDecimals⟩
  lookupAccount .merchantHoldings ref (some params.merchantId) ++
    lookupAccount .merchantPayable ref (some params.merchantId) ++
    match params.grossAmount.percentageBps params.feeBps .floor with
    | .ok feeAmount => feeLookups ref feeAmount
    | .error _ => []

/-- The account rows that a call looks up. -/
def LedgerCall.lookups (db : Db) : LedgerCall → List String
  | ensureAccount kind ref merchantId => lookupAccount kind ref merchantId
  | postPaymentCredit params =>
    if (db.ledgerTransactions.find? params.idempotencyKey).isSome then []
    else lookupsOfPosting params

/-- Those that the calls of a transaction look up one after the other. -/
def lookupsOf : List LedgerCall → Db → List String
  | [], _ => []
  | call :: calls, db => call.lookups db ++
      match call.apply db with
      | .ok db' => lookupsOf calls db'
      | .error _ => []

/-- A transaction of ledger calls: its snapshot, what the calls leave of it, the entries that are
still to be inserted and those that have been. -/
structure Posting where
  snapshot : Ledger
  calls : List LedgerCall
  posted : Db
  pending : List LedgerEntry
  entries : List EntryRow

def Posting.lookups (p : Posting) : List String := lookupsOf p.calls p.snapshot.db

def createdAccounts (snapshot : Ledger) (posted : Db) : List LedgerAccount :=
  posted.ledgerAccounts.rows.drop snapshot.accounts.rows.length

def createdTransactions (snapshot : Ledger) (posted : Db) : List LedgerTransaction :=
  posted.ledgerTransactions.rows.drop snapshot.transactions.rows.length

/-- A run of `reconcileAccount`: its snapshot, its result and what it writes. -/
structure Reconciliation where
  snapshot : Ledger
  code : String
  result : AccountReconciliationResult
  update : Option Cache

inductive LedgerTxn
  | posting (p : Posting)
  | reconciliation (r : Reconciliation)

/-- Add rows to a table with a unique key. -/
def insertRows {ρ κ : Type} {key : ρ → κ} [DecidableEq κ] (name : String) (t : Table ρ key)
    (rows : List ρ) : Except Error (Table ρ key) :=
  if h : ((t.rows ++ rows).map key).Nodup then .ok ⟨t.rows ++ rows, h⟩
  else .error (.uniqueViolation name)

namespace LedgerTxn

/-- A posting has read the account rows it has looked up; a reconciliation that of its account
and the account's entries. -/
def Reads (s : Ledger) : LedgerTxn → Prop
  | posting p => ∀ code ∈ p.lookups, s.account? code = p.snapshot.account? code
  | reconciliation r => s.account? r.code = r.snapshot.account? r.code ∧
      entriesOfAccount s.entries.rows r.code = entriesOfAccount r.snapshot.entries.rows r.code

instance (s : Ledger) : ∀ t, Decidable (Reads s t)
  | posting p => inferInstanceAs
      (Decidable (∀ code ∈ p.lookups, s.account? code = p.snapshot.account? code))
  | reconciliation r => inferInstanceAs (Decidable (s.account? r.code = r.snapshot.account? r.code ∧
      entriesOfAccount s.entries.rows r.code = entriesOfAccount r.snapshot.entries.rows r.code))

def write (s : Ledger) : LedgerTxn → Except Error Ledger
  | posting p => do
    let accounts ← insertRows "LedgerAccount" s.accounts (createdAccounts p.snapshot p.posted)
    let transactions ← insertRows "LedgerTransaction" s.transactions
      (createdTransactions p.snapshot p.posted)
    let entries ← insertRows "LedgerEntry" s.entries p.entries
    return ⟨accounts, transactions, entries, s.cache⟩
  | reconciliation r => .ok { s with
      cache := Function.update s.cache r.code (r.update.getD (s.cache r.code)) }

end LedgerTxn

def ledgerIsolation : Isolation Ledger Error LedgerTxn :=
  ⟨fun t s => t.Reads s, fun t s => t.write s⟩

instance (t : LedgerTxn) (s : Ledger) : Decidable (ledgerIsolation.reads t s) :=
  inferInstanceAs (Decidable (t.Reads s))

/-! ## The interleaving -/

/-- The committed transactions, newest first, and what they have left; the open ones; and the next
sequence number. -/
structure World where
  committed : List LedgerTxn
  current : Ledger
  active : List LedgerTxn
  next : Nat

def World.start : World := ⟨[], .empty, [], 1⟩

inductive Action
  /-- The first statement of a transaction of ledger calls. -/
  | beginPosting (calls : List LedgerCall)
  /-- The first statement of a reconciliation. -/
  | beginReconciliation (code : String)
  /-- An open transaction inserts its next entry. -/
  | insertEntry (i : Nat)
  /-- A number is drawn by a transaction that fails. -/
  | loseNumber
  | commit (i : Nat)
  | rollback (i : Nat)

/-- The next entry under the next number. -/
def Posting.insertEntry (p : Posting) (e : LedgerEntry) (pending : List LedgerEntry)
    (next : Nat) : Posting :=
  { p with
    pending := pending
    entries := p.entries ++ [⟨next, e.accountCode, e.direction, e.amount⟩] }

/-- A transaction with nothing left to insert. -/
def LedgerTxn.Finished : LedgerTxn → Prop
  | .posting p => p.pending = []
  | .reconciliation _ => True

instance : ∀ t : LedgerTxn, Decidable t.Finished
  | .posting p => inferInstanceAs (Decidable (p.pending = []))
  | .reconciliation _ => isTrue trivial

def World.insertEntry (w : World) (i : Nat) : World :=
  match w.active[i]? with
  | some (.posting p) =>
    match p.pending with
    | [] => w
    | e :: pending => { w with
        active := w.active.set i (.posting (p.insertEntry e pending w.next))
        next := w.next + 1 }
  | _ => w

def World.commit (w : World) (i : Nat) : Except Error World :=
  match w.active[i]? with
  | some t =>
    if t.Finished then do
      let current ← t.write w.current
      return ⟨t :: w.committed, current, w.active.eraseIdx i, w.next⟩
    else
      .ok w
  | none => .ok w

/-- An action for which there is no transaction changes nothing. -/
def Action.apply : Action → World → Except Error World
  | beginPosting calls, w => do
    let posted ← calls.foldlM (fun db call => call.apply db) w.current.db
    let entries := (createdTransactions w.current posted).flatMap (·.entries)
    return { w with active := .posting ⟨w.current, calls, posted, entries, []⟩ :: w.active }
  | beginReconciliation code, w => do
    let (result, update) ← reconcileAccount w.current code
    return { w with active := .reconciliation ⟨w.current, code, result, update⟩ :: w.active }
  | insertEntry i, w => .ok (w.insertEntry i)
  | loseNumber, w => .ok { w with next := w.next + 1 }
  | commit i, w => w.commit i
  | rollback i, w => .ok { w with active := w.active.eraseIdx i }

/-- Actions one after the other. -/
def interleaving : Machine World Error Action Action := ⟨Action.apply, fun a _ => [.ok a]⟩

/-- The isolation level: a transaction commits only if the committed ones are serializable. -/
def Isolated : Action → World → Prop
  | .commit i, w => ∀ t ∈ w.active[i]?, ledgerIsolation.Serializable .empty (t :: w.committed)
  | _, _ => True

/-! ## What the calls of a transaction insert -/

variable {db db' : Db}

theorem ensureAccount_lookup {kind : LedgerAccountKind} {ref : AccountRef}
    {merchantId : Option String} {account : LedgerAccount}
    (h : ensureAccount db kind ref merchantId = .ok (db', account)) :
    account.code ∈ lookupAccount kind ref merchantId := by
  obtain ⟨code, hcode, hmatch⟩ := bind_eq_ok.1 h
  have hlookup : lookupAccount kind ref merchantId = [code] := by
    rw [lookupAccount, hcode]
    rfl
  rw [hlookup, List.mem_singleton]
  split at hmatch
  · next found hfound =>
    cases hmatch
    exact Table.key_of_find? hfound
  · cases hmatch
    rfl

theorem feeLegs_lookups {params : PostPaymentCreditParams} {ref : AccountRef} {feeAmount : Money}
    {fees : List LedgerEntry} (h : feeLegs db params ref feeAmount = .ok (db', fees)) :
    ∀ e ∈ fees, e.accountCode ∈ feeLookups ref feeAmount := by
  intro e he
  unfold feeLegs at h
  unfold feeLookups
  split at h
  · next hpositive =>
    obtain ⟨⟨db1, revenue⟩, haccount, h⟩ := bind_eq_ok.1 h
    obtain ⟨fee, hfee, h⟩ := bind_eq_ok.1 h
    cases h
    rw [List.mem_singleton.1 he, (createEntry_account hfee).2.1, if_pos hpositive]
    exact ensureAccount_lookup haccount
  · cases h
    exact absurd he List.not_mem_nil

theorem postPaymentCredit_lookups {params : PostPaymentCreditParams} {result : PostingResult}
    (h : postPaymentCredit db params = .ok (db', result)) :
    ∃ created, db'.ledgerTransactions.rows = db.ledgerTransactions.rows ++ created ∧
      ∀ t ∈ created, ∀ e ∈ t.entries,
        e.accountCode ∈ (LedgerCall.postPaymentCredit params).lookups db := by
  unfold postPaymentCredit at h
  obtain ⟨-, -, h⟩ := bind_eq_ok.1 h
  obtain ⟨feeAmount, hfee, h⟩ := bind_eq_ok.1 h
  obtain ⟨netAmount, -, h⟩ := bind_eq_ok.1 h
  cases hfind : db.ledgerTransactions.find? params.idempotencyKey with
  | some existing =>
    rw [hfind] at h
    cases h
    exact ⟨[], by simp⟩
  | none =>
    rw [hfind] at h
    obtain ⟨⟨db1, holdings⟩, h1, h⟩ := bind_eq_ok.1 h
    obtain ⟨⟨db2, payable⟩, h2, h⟩ := bind_eq_ok.1 h
    obtain ⟨debit, hdebit, h⟩ := bind_eq_ok.1 h
    obtain ⟨credit, hcredit, h⟩ := bind_eq_ok.1 h
    obtain ⟨⟨db3, fees⟩, h3, h⟩ := bind_eq_ok.1 h
    obtain ⟨db4, h4, h⟩ := bind_eq_ok.1 h
    cases h
    obtain ⟨_, rfl⟩ := ensureAccount_eq_ok h1
    obtain ⟨_, rfl⟩ := ensureAccount_eq_ok h2
    obtain ⟨-, accounts, rfl⟩ := feeLegs_eq_ok h3
    obtain ⟨hb, hk, rfl⟩ := createPosting_eq_ok h4
    have hlookups : (LedgerCall.postPaymentCredit params).lookups db = lookupsOfPosting params := by
      simp [LedgerCall.lookups, hfind]
    rw [hlookups]
    refine ⟨[creditPosting params (debit :: credit :: fees) hb], rfl, fun t ht e he => ?_⟩
    rw [List.mem_singleton.1 ht] at he
    unfold lookupsOfPosting
    simp only [List.mem_append]
    rcases List.mem_cons.1 he with rfl | he
    · rw [(createEntry_account hdebit).2.1]
      exact .inl (.inl (ensureAccount_lookup h1))
    · rcases List.mem_cons.1 he with rfl | he
      · rw [(createEntry_account hcredit).2.1]
        exact .inl (.inr (ensureAccount_lookup h2))
      · refine .inr ?_
        rw [hfee]
        exact feeLegs_lookups h3 e he

/-- What a call inserts is on accounts that it has looked up. -/
theorem LedgerCall.apply_lookups {call : LedgerCall} (h : call.apply db = .ok db') :
    ∃ created, db'.ledgerTransactions.rows = db.ledgerTransactions.rows ++ created ∧
      ∀ t ∈ created, ∀ e ∈ t.entries, e.accountCode ∈ call.lookups db := by
  cases call with
  | ensureAccount kind ref merchantId =>
    cases hr : PaymentGateway.ensureAccount db kind ref merchantId with
    | error e => rw [LedgerCall.apply, hr] at h; cases h
    | ok r =>
      rw [LedgerCall.apply, hr] at h
      cases h
      obtain ⟨accounts, hdb⟩ := ensureAccount_eq_ok hr
      refine ⟨[], ?_, by simp⟩
      show r.1.ledgerTransactions.rows = _
      rw [hdb, List.append_nil]
  | postPaymentCredit params =>
    cases hr : PaymentGateway.postPaymentCredit db params with
    | error e => rw [LedgerCall.apply, hr] at h; cases h
    | ok r =>
      rw [LedgerCall.apply, hr] at h
      cases h
      exact postPaymentCredit_lookups hr

theorem calls_lookups {calls : List LedgerCall}
    (h : calls.foldlM (fun db call => call.apply db) db = .ok db') :
    ∃ created, db'.ledgerTransactions.rows = db.ledgerTransactions.rows ++ created ∧
      ∀ t ∈ created, ∀ e ∈ t.entries, e.accountCode ∈ lookupsOf calls db := by
  induction calls generalizing db with
  | nil =>
    rw [pure_eq_ok.1 h]
    exact ⟨[], by simp⟩
  | cons call calls ih =>
    rw [List.foldlM_cons] at h
    obtain ⟨db1, hcall, hrest⟩ := bind_eq_ok.1 h
    obtain ⟨created, hrows, hlookups⟩ := LedgerCall.apply_lookups hcall
    obtain ⟨created', hrows', hlookups'⟩ := ih hrest
    have hall : lookupsOf (call :: calls) db = call.lookups db ++ lookupsOf calls db1 := by
      rw [lookupsOf, hcall]
    rw [hall]
    refine ⟨created ++ created', by rw [hrows', hrows, List.append_assoc], fun t ht e he => ?_⟩
    rcases List.mem_append.1 ht with ht | ht
    · exact List.mem_append_left _ (hlookups t ht e he)
    · exact List.mem_append_right _ (hlookups' t ht e he)

/-- Every entry of a transaction is on an account that it has looked up. -/
theorem created_lookups {s : Ledger} {calls : List LedgerCall} {posted : Db}
    (h : calls.foldlM (fun db call => call.apply db) s.db = .ok posted) :
    ∀ e ∈ (createdTransactions s posted).flatMap (·.entries),
      e.accountCode ∈ lookupsOf calls s.db := by
  obtain ⟨created, hrows, hlookups⟩ := calls_lookups h
  have hcreated : createdTransactions s posted = created := by
    rw [createdTransactions, hrows]
    exact List.drop_left
  rw [hcreated]
  intro e he
  obtain ⟨t, ht, he⟩ := List.mem_flatMap.1 he
  exact hlookups t ht e he

/-! ## What transactions keep -/

/-- No account row and no entry is lost, and no watermark falls. -/
structure Later (s s' : Ledger) : Prop where
  accounts : ∀ a ∈ s.accounts, a ∈ s'.accounts
  entries : ∀ e ∈ s.entries, e ∈ s'.entries
  watermark : ∀ code n, Covers (s.cache code).cachedThroughSeq n →
    Covers (s'.cache code).cachedThroughSeq n

theorem Later.refl (s : Ledger) : Later s s := ⟨fun _ h => h, fun _ h => h, fun _ _ h => h⟩

theorem Later.trans {a b c : Ledger} (h : Later a b) (h' : Later b c) : Later a c :=
  ⟨fun x hx => h'.accounts x (h.accounts x hx), fun x hx => h'.entries x (h.entries x hx),
    fun code n hn => h'.watermark code n (h.watermark code n hn)⟩

theorem insertRows_eq_ok {ρ κ : Type} {key : ρ → κ} [DecidableEq κ] {name : String}
    {t t' : Table ρ key} {rows : List ρ} (h : insertRows name t rows = .ok t') :
    t'.rows = t.rows ++ rows := by
  unfold insertRows at h
  split_ifs at h
  cases h
  rfl

variable {s s' : Ledger}

theorem write_posting {p : Posting} (h : (LedgerTxn.posting p).write s = .ok s') :
    (∀ a ∈ s.accounts, a ∈ s'.accounts) ∧ s'.entries.rows = s.entries.rows ++ p.entries ∧
      s'.cache = s.cache := by
  obtain ⟨accounts, haccounts, h⟩ := bind_eq_ok.1 h
  obtain ⟨transactions, -, h⟩ := bind_eq_ok.1 h
  obtain ⟨entries, hentries, h⟩ := bind_eq_ok.1 h
  cases h
  refine ⟨fun a ha => ?_, insertRows_eq_ok hentries, rfl⟩
  show a ∈ accounts.rows
  rw [insertRows_eq_ok haccounts]
  exact List.mem_append_left _ ha

theorem write_reconciliation {r : Reconciliation}
    (h : (LedgerTxn.reconciliation r).write s = .ok s') :
    s'.accounts = s.accounts ∧ s'.entries = s.entries ∧
      ∀ code, s'.cache code = if code = r.code then r.update.getD (s.cache r.code)
        else s.cache code := by
  cases h
  exact ⟨rfl, rfl, fun code => Function.update_apply ..⟩

/-- A row that is read as in the snapshot has the cached columns of the snapshot. -/
theorem cache_of_account? {a b : Ledger} {code : String} (h : a.account? code = b.account? code)
    (hfound : (a.accounts.find? code).isSome) : a.cache code = b.cache code := by
  obtain ⟨account, haccount⟩ := Option.isSome_iff_exists.1 hfound
  unfold Ledger.account? at h
  rw [haccount] at h
  cases hb : b.accounts.find? code with
  | none => rw [hb] at h; cases h
  | some account' =>
    rw [hb] at h
    exact congrArg AccountRow.cache (Option.some.inj h)

theorem account?_isSome (s : Ledger) (code : String) :
    (s.account? code).isSome = (s.accounts.find? code).isSome := by
  simp [Ledger.account?]

/-- All sequence numbers in use are below the next one, also those of the watermarks. -/
structure Watermarked (s : Ledger) (next : Nat) : Prop where
  entries : ∀ e ∈ s.entries, e.sequence < next
  cache : ∀ code n, Covers (s.cache code).cachedThroughSeq n → n < next

theorem Watermarked.mono {next next' : Nat} (h : Watermarked s next) (hle : next ≤ next') :
    Watermarked s next' :=
  ⟨fun e he => (h.entries e he).trans_le hle, fun code n hn => (h.cache code n hn).trans_le hle⟩

/-- A transaction of ledger calls has looked up the accounts of its entries, and has drawn their
numbers after every watermark it has read. -/
structure Posting.Prepared (p : Posting) (next : Nat) : Prop where
  snapshot : Watermarked p.snapshot next
  pending : ∀ e ∈ p.pending, e.accountCode ∈ p.lookups
  looked : ∀ e ∈ p.entries, e.accountCode ∈ p.lookups
  numbered : ∀ e ∈ p.entries, e.sequence < next ∧
    ∀ code, ¬ Covers (p.snapshot.cache code).cachedThroughSeq e.sequence

/-- A reconciliation has run on its snapshot and has found a match. -/
structure Reconciliation.Prepared (r : Reconciliation) (current : Ledger) (next : Nat) : Prop where
  snapshot : Watermarked r.snapshot next
  ran : reconcileAccount r.snapshot r.code = .ok (r.result, r.update)
  matched : r.result.matched = true
  accounts : ∀ a ∈ r.snapshot.accounts, a ∈ current.accounts
  entries : ∀ e ∈ r.snapshot.entries, e ∈ current.entries

def LedgerTxn.Prepared (current : Ledger) (next : Nat) : LedgerTxn → Prop
  | posting p => p.Prepared next
  | reconciliation r => r.Prepared current next

theorem LedgerTxn.Prepared.mono {t : LedgerTxn} {next next' : Nat} (h : t.Prepared s next)
    (haccounts : ∀ a ∈ s.accounts, a ∈ s'.accounts) (hentries : ∀ e ∈ s.entries, e ∈ s'.entries)
    (hle : next ≤ next') : t.Prepared s' next' := by
  cases t with
  | posting p =>
    have hp : p.Prepared next := h
    exact ⟨hp.snapshot.mono hle, hp.pending, hp.looked,
      fun e he => ⟨(hp.numbered e he).1.trans_le hle, (hp.numbered e he).2⟩⟩
  | reconciliation r =>
    have hr : r.Prepared s next := h
    exact ⟨hr.snapshot.mono hle, hr.ran, hr.matched, fun a ha => haccounts a (hr.accounts a ha),
      fun e he => hentries e (hr.entries e he)⟩

/-- What a prepared transaction writes where it reads what it has read comes later. -/
theorem later_of_write {current : Ledger} {next : Nat} {t : LedgerTxn}
    (ht : t.Prepared current next) (hreads : t.Reads s) (hwrite : t.write s = .ok s') :
    Later s s' := by
  cases t with
  | posting p =>
    obtain ⟨haccounts, hentries, hcache⟩ := write_posting hwrite
    refine ⟨haccounts, fun e he => ?_, fun code n hn => by rw [hcache]; exact hn⟩
    rw [Table.mem_def, hentries]
    exact List.mem_append_left _ he
  | reconciliation r =>
    have hr : r.Prepared current next := ht
    obtain ⟨haccounts, hentries, hcache⟩ := write_reconciliation hwrite
    refine ⟨fun a ha => haccounts ▸ ha, fun e he => hentries ▸ he, fun code n hn => ?_⟩
    rw [hcache]
    split_ifs with hcode
    · subst hcode
      obtain ⟨account, haccount, -, -, hspec⟩ := reconcileAccount_spec hr.ran
      cases hupdate : r.update with
      | none => exact hn
      | some c =>
        have hrow := hreads.1
        have hfound : (s.accounts.find? r.code).isSome := by
          rw [← account?_isSome, hrow, account?_isSome, haccount]
          rfl
        rw [cache_of_account? hrow hfound] at hn
        exact (hspec c hupdate).2.1 n hn
    · exact hn

/-- **The reconciliation has seen the entry, or the entry is above its watermark.** -/
theorem seen_or_above {committed : List LedgerTxn} {current : Ledger} {next : Nat}
    (hserial : ledgerIsolation.Serializable .empty committed)
    (hprepared : ∀ t ∈ committed, t.Prepared current next) {p : Posting} {r : Reconciliation}
    (hp : .posting p ∈ committed) (hr : .reconciliation r ∈ committed) {c : Cache}
    (hupdate : r.update = some c) {e : EntryRow} (he : e ∈ p.entries)
    (hcode : e.accountCode = r.code) :
    e ∈ r.snapshot.entries ∨ ¬ Covers c.cachedThroughSeq e.sequence := by
  have hpp : p.Prepared next := hprepared _ hp
  have hrp : r.Prepared current next := hprepared _ hr
  have hne : LedgerTxn.posting p ≠ .reconciliation r := LedgerTxn.noConfusion
  have hlater : ∀ t ∈ committed, ∀ s s', ledgerIsolation.reads t s →
      ledgerIsolation.write t s = .ok s' → Later s s' :=
    fun t ht s s' => later_of_write (hprepared t ht)
  obtain ⟨account, haccount, -, -, -⟩ := reconcileAccount_spec hrp.ran
  rcases hserial.ordered Later.refl (fun _ _ _ => Later.trans) hlater hp hr hne with
    ⟨s, s', a, -, hwrite, hbetween, hreads⟩ | ⟨s, s', a, hrreads, hwrite, hbetween, hreads⟩
  · -- The posting comes first: the reconciliation has read its entries.
    left
    have hstored : e ∈ a.entries := by
      refine hbetween.entries e ?_
      rw [Table.mem_def, (write_posting hwrite).2.1]
      exact List.mem_append_right _ he
    have hseen := mem_entriesOfAccount.2 ⟨hstored, hcode⟩
    rw [hreads.2] at hseen
    exact (mem_entriesOfAccount.1 hseen).1
  · -- The reconciliation comes first: the posting has read its watermark, or a higher one.
    right
    intro hcovers
    obtain ⟨haccounts, -, hcache⟩ := write_reconciliation hwrite
    have hthere : account ∈ a.accounts := by
      refine hbetween.accounts account ?_
      rw [haccounts]
      have hrow := hrreads.1
      have hfound : s.accounts.find? r.code = some account := by
        have hboth := congrArg (Option.map AccountRow.account) hrow
        simp only [Ledger.account?, Option.map_map, haccount] at hboth
        simpa [Function.comp_def] using hboth
      exact Table.mem_of_find? hfound
    have hmark : Covers (a.cache e.accountCode).cachedThroughSeq e.sequence := by
      refine hbetween.watermark _ _ ?_
      rw [hcache, if_pos hcode, hupdate]
      exact hcovers
    have hrow : a.account? e.accountCode = p.snapshot.account? e.accountCode :=
      hreads _ (hpp.looked e he)
    have hfound : (a.accounts.find? e.accountCode).isSome := by
      rw [hcode, ← Table.key_of_find? haccount, Table.find?_of_mem hthere]
      rfl
    rw [cache_of_account? hrow hfound] at hmark
    exact (hpp.numbered e he).2 _ hmark

/-! ## The invariant -/

structure Sound (w : World) : Prop where
  serializable : ledgerIsolation.Serializable .empty w.committed
  watermarked : Watermarked w.current w.next
  active : ∀ t ∈ w.active, t.Prepared w.current w.next
  committed : ∀ t ∈ w.committed, t.Prepared w.current w.next
  sources : ∀ e ∈ w.current.entries, ∃ p, .posting p ∈ w.committed ∧ e ∈ p.entries
  cached : ∀ code, w.current.cache code = {} ∨ ∃ r, .reconciliation r ∈ w.committed ∧
    r.code = code ∧ r.update = some (w.current.cache code)

theorem sound_start : Sound .start where
  serializable := Isolation.serializable_of_replay rfl
  watermarked := ⟨fun e he => absurd he (Table.not_mem_empty e),
    fun _ n hn => absurd hn (not_covers_none n)⟩
  active := fun _ ht => absurd ht List.not_mem_nil
  committed := fun _ ht => absurd ht List.not_mem_nil
  sources := fun e he => absurd he (Table.not_mem_empty e)
  cached := fun _ => .inl rfl

variable {w w' : World}

/-- What the watermark of a committed reconciliation covers, it has seen. -/
theorem Sound.seen (hs : Sound w) {r : Reconciliation} (hr : .reconciliation r ∈ w.committed)
    {c : Cache} (hupdate : r.update = some c) {e : EntryRow} (he : e ∈ w.current.entries)
    (hcode : e.accountCode = r.code) (hcovers : Covers c.cachedThroughSeq e.sequence) :
    e ∈ r.snapshot.entries := by
  obtain ⟨p, hp, hep⟩ := hs.sources e he
  exact (seen_or_above hs.serializable hs.committed hp hr hupdate hep hcode).resolve_right
    (not_not_intro hcovers)

theorem Table.nodup_rows {ρ κ : Type} {key : ρ → κ} (t : Table ρ key) : t.rows.Nodup :=
  t.nodup.of_map _

/-- So what it has cached is the balance through its watermark, now and later. -/
theorem Sound.balance (hs : Sound w) {r : Reconciliation} (hr : .reconciliation r ∈ w.committed)
    {c : Cache} (hupdate : r.update = some c) :
    ∃ account, w.current.accounts.find? r.code = some account ∧
      c.cachedBalance = balanceThrough w.current.entries.rows account c.cachedThroughSeq := by
  have hrp : r.Prepared w.current w.next := hs.committed _ hr
  obtain ⟨account, haccount, -, -, hspec⟩ := reconcileAccount_spec hrp.ran
  obtain ⟨hmem, hkey⟩ := Table.find?_eq_some.1 haccount
  refine ⟨account, Table.find?_eq_some.2 ⟨hrp.accounts account hmem, hkey⟩, ?_⟩
  rw [(hspec c hupdate).1]
  refine balanceThrough_congr (Table.nodup_rows _) (Table.nodup_rows _) fun e hcode hcovers => ?_
  exact ⟨hrp.entries e, fun he => hs.seen hr hupdate he (hcode.trans hkey) hcovers⟩

/-- Every cached balance is right. -/
theorem Sound.cached_balance (hs : Sound w) {account : LedgerAccount}
    (ha : account ∈ w.current.accounts) : (w.current.cache account.code).cachedBalance =
      balanceThrough w.current.entries.rows account
        (w.current.cache account.code).cachedThroughSeq := by
  rcases hs.cached account.code with hdefault | ⟨r, hr, hcode, hupdate⟩
  · rw [hdefault, balanceThrough_none]
  · obtain ⟨found, hfound, hbalance⟩ := hs.balance hr hupdate
    rw [hcode, Table.find?_of_mem ha] at hfound
    cases hfound
    exact hbalance

/-- A reconciliation that begins finds a match. -/
theorem Sound.matched (hs : Sound w) {code : String} {result : AccountReconciliationResult}
    {update : Option Cache} (h : reconcileAccount w.current code = .ok (result, update)) :
    result.matched = true := by
  obtain ⟨account, haccount, hmatched, -, -⟩ := reconcileAccount_spec h
  obtain ⟨hmem, rfl⟩ := Table.find?_eq_some.1 haccount
  exact hmatched.2 (hs.cached_balance hmem)

theorem write_grows {t : LedgerTxn} {s s' : Ledger} (h : t.write s = .ok s') :
    (∀ a ∈ s.accounts, a ∈ s'.accounts) ∧ ∀ e ∈ s.entries, e ∈ s'.entries := by
  cases t with
  | posting p =>
    obtain ⟨haccounts, hentries, -⟩ := write_posting h
    refine ⟨haccounts, fun e he => ?_⟩
    rw [Table.mem_def, hentries]
    exact List.mem_append_left _ he
  | reconciliation r =>
    obtain ⟨haccounts, hentries, -⟩ := write_reconciliation h
    exact ⟨fun a ha => haccounts ▸ ha, fun e he => hentries ▸ he⟩

/-- What a prepared transaction writes stays below the next number. -/
theorem Watermarked.write {t : LedgerTxn} {s s' : Ledger} {next : Nat} (h : Watermarked s next)
    (ht : t.Prepared s next) (hwrite : t.write s = .ok s') : Watermarked s' next := by
  cases t with
  | posting p =>
    have hp : p.Prepared next := ht
    obtain ⟨-, hentries, hcache⟩ := write_posting hwrite
    refine ⟨fun e he => ?_, fun code n hn => h.cache code n (hcache ▸ hn)⟩
    rw [Table.mem_def, hentries] at he
    rcases List.mem_append.1 he with he | he
    · exact h.entries e he
    · exact (hp.numbered e he).1
  | reconciliation r =>
    have hr : r.Prepared s next := ht
    obtain ⟨-, hentries, hcache⟩ := write_reconciliation hwrite
    refine ⟨fun e he => h.entries e (hentries ▸ he), fun code n hn => ?_⟩
    rw [hcache] at hn
    split_ifs at hn
    · cases hupdate : r.update with
      | none =>
        rw [hupdate] at hn
        exact h.cache _ n hn
      | some c =>
        rw [hupdate] at hn
        obtain ⟨account, -, -, -, hspec⟩ := reconcileAccount_spec hr.ran
        rcases (hspec c hupdate).2.2 n hn with hold | ⟨e, he, hle⟩
        · exact hr.snapshot.cache _ n hold
        · exact hle.trans_lt (hr.snapshot.entries e he)
    · exact h.cache code n hn

/-- The next number is above every watermark of the snapshot. -/
theorem Posting.Prepared.insertEntry {p : Posting} {next : Nat} (h : p.Prepared next)
    {e : LedgerEntry} {pending : List LedgerEntry} (hpending : p.pending = e :: pending) :
    (p.insertEntry e pending next).Prepared (next + 1) := by
  refine ⟨h.snapshot.mono (Nat.le_succ _), fun x hx => ?_, fun x hx => ?_, fun x hx => ?_⟩
  · exact h.pending x (hpending ▸ List.mem_cons_of_mem _ hx)
  · rcases List.mem_append.1 hx with hx | hx
    · exact h.looked x hx
    · rw [List.mem_singleton.1 hx]
      exact h.pending e (hpending ▸ List.mem_cons_self)
  · rcases List.mem_append.1 hx with hx | hx
    · exact ⟨(h.numbered x hx).1.trans (Nat.lt_succ_self _), (h.numbered x hx).2⟩
    · rw [List.mem_singleton.1 hx]
      exact ⟨Nat.lt_succ_self _, fun code hn => absurd (h.snapshot.cache code _ hn) (Nat.lt_irrefl _)⟩

theorem Sound.insertEntry (hs : Sound w) (i : Nat) : Sound (w.insertEntry i) := by
  unfold World.insertEntry
  split
  · next p hp =>
    split
    · exact hs
    · next e pending hpending =>
      have hmono : ∀ {x : LedgerTxn}, x.Prepared w.current w.next →
          x.Prepared w.current (w.next + 1) :=
        fun hx => hx.mono (fun _ ha => ha) (fun _ he => he) (Nat.le_succ _)
      refine ⟨hs.serializable, hs.watermarked.mono (Nat.le_succ _), fun t ht => ?_,
        fun t ht => hmono (hs.committed t ht), hs.sources, hs.cached⟩
      rcases List.mem_or_eq_of_mem_set ht with ht | rfl
      · exact hmono (hs.active t ht)
      · have hprepared : p.Prepared w.next := hs.active _ (List.mem_of_getElem? hp)
        exact hprepared.insertEntry hpending
  · exact hs

theorem Sound.commit (hs : Sound w) {t : LedgerTxn} (ht : t ∈ w.active) {current : Ledger}
    (hwrite : t.write w.current = .ok current) (i : Nat)
    (hserial : ledgerIsolation.Serializable .empty (t :: w.committed)) :
    Sound ⟨t :: w.committed, current, w.active.eraseIdx i, w.next⟩ := by
  obtain ⟨haccounts, hentries⟩ := write_grows hwrite
  have hmono : ∀ {x : LedgerTxn}, x.Prepared w.current w.next → x.Prepared current w.next :=
    fun hx => hx.mono haccounts hentries le_rfl
  refine ⟨hserial, hs.watermarked.write (hs.active t ht) hwrite,
    fun x hx => hmono (hs.active x (List.mem_of_mem_eraseIdx hx)), fun x hx => ?_, ?_, ?_⟩
  · rcases List.mem_cons.1 hx with rfl | hx
    · exact hmono (hs.active x ht)
    · exact hmono (hs.committed x hx)
  · intro e he
    cases t with
    | posting p =>
      rw [Table.mem_def, (write_posting hwrite).2.1] at he
      rcases List.mem_append.1 he with he | he
      · obtain ⟨q, hq, heq⟩ := hs.sources e he
        exact ⟨q, List.mem_cons_of_mem _ hq, heq⟩
      · exact ⟨p, List.mem_cons_self, he⟩
    | reconciliation r =>
      rw [(write_reconciliation hwrite).2.1] at he
      obtain ⟨q, hq, heq⟩ := hs.sources e he
      exact ⟨q, List.mem_cons_of_mem _ hq, heq⟩
  · intro code
    have hold : current.cache code = w.current.cache code → current.cache code = {} ∨
        ∃ r, .reconciliation r ∈ t :: w.committed ∧ r.code = code ∧
          r.update = some (current.cache code) := by
      intro hsame
      rw [hsame]
      rcases hs.cached code with hdefault | ⟨r, hr, hcode, hupdate⟩
      · exact .inl hdefault
      · exact .inr ⟨r, List.mem_cons_of_mem _ hr, hcode, hupdate⟩
    cases t with
    | posting p => exact hold (congrFun (write_posting hwrite).2.2 code)
    | reconciliation r =>
      have hcache := (write_reconciliation hwrite).2.2 code
      by_cases hcode : code = r.code
      · have hr : r.Prepared w.current w.next := hs.active _ ht
        obtain ⟨account, -, -, hsome, -⟩ := reconcileAccount_spec hr.ran
        obtain ⟨c, hc⟩ := Option.isSome_iff_exists.1 (hsome hr.matched)
        rw [if_pos hcode, hc] at hcache
        exact .inr ⟨r, List.mem_cons_self, hcode.symm, by rw [hcache]; exact hc⟩
      · rw [if_neg hcode] at hcache
        exact hold hcache

/-- **Every action keeps the invariant.** -/
theorem Sound.step (hs : Sound w) {a : Action} (hisolated : Isolated a w)
    (h : a.apply w = .ok w') : Sound w' := by
  cases a with
  | beginPosting calls =>
    obtain ⟨posted, hcalls, h⟩ := bind_eq_ok.1 h
    cases h
    refine ⟨hs.serializable, hs.watermarked, fun t ht => ?_, hs.committed, hs.sources, hs.cached⟩
    rcases List.mem_cons.1 ht with rfl | ht
    · exact ⟨hs.watermarked, created_lookups hcalls, fun e he => absurd he List.not_mem_nil,
        fun e he => absurd he List.not_mem_nil⟩
    · exact hs.active t ht
  | beginReconciliation code =>
    obtain ⟨⟨result, update⟩, hran, h⟩ := bind_eq_ok.1 h
    cases h
    refine ⟨hs.serializable, hs.watermarked, fun t ht => ?_, hs.committed, hs.sources, hs.cached⟩
    rcases List.mem_cons.1 ht with rfl | ht
    · exact ⟨hs.watermarked, hran, hs.matched hran, fun a ha => ha, fun e he => he⟩
    · exact hs.active t ht
  | insertEntry i =>
    cases h
    exact hs.insertEntry i
  | loseNumber =>
    cases h
    have hmono : ∀ {x : LedgerTxn}, x.Prepared w.current w.next →
        x.Prepared w.current (w.next + 1) :=
      fun hx => hx.mono (fun _ ha => ha) (fun _ he => he) (Nat.le_succ _)
    exact ⟨hs.serializable, hs.watermarked.mono (Nat.le_succ _),
      fun t ht => hmono (hs.active t ht), fun t ht => hmono (hs.committed t ht), hs.sources,
      hs.cached⟩
  | commit i =>
    replace h : w.commit i = .ok w' := h
    unfold World.commit at h
    split at h
    · next t ht =>
      split at h
      · obtain ⟨current, hwrite, h⟩ := bind_eq_ok.1 h
        cases h
        exact hs.commit (List.mem_of_getElem? ht) hwrite i (hisolated t ht)
      · cases h
        exact hs
    · cases h
      exact hs
  | rollback i =>
    cases h
    exact ⟨hs.serializable, hs.watermarked, fun t ht => hs.active t (List.mem_of_mem_eraseIdx ht),
      hs.committed, hs.sources, hs.cached⟩

/-- **Reconciliation is sound**: see the head of this module. -/
theorem reconciliation_sound
    (h : interleaving.Reachable (fun _ => True) Isolated World.start w) :
    (∀ r, .reconciliation r ∈ w.active ∨ .reconciliation r ∈ w.committed →
      r.result.matched = true) ∧
    (∀ r, .reconciliation r ∈ w.committed → ∃ account c,
      w.current.accounts.find? r.code = some account ∧ r.update = some c ∧
      c.cachedBalance = balanceThrough w.current.entries.rows account c.cachedThroughSeq ∧
      ∀ e ∈ w.current.entries, e.accountCode = r.code → Covers c.cachedThroughSeq e.sequence →
        e ∈ r.snapshot.entries) ∧
    ∀ account ∈ w.current.accounts, (w.current.cache account.code).cachedBalance =
      balanceThrough w.current.entries.rows account
        (w.current.cache account.code).cachedThroughSeq := by
  have hkind : ∀ op (x : World), True → ∀ t, Except.ok t ∈ interleaving.script op x → True :=
    fun _ _ _ _ _ => trivial
  have hstep : ∀ t (a b : World), True → Sound a → Isolated t a →
      interleaving.apply t a = .ok b → Sound b := fun _ _ _ _ ha hisolated hok =>
    ha.step hisolated hok
  have hs : Sound w := h.invariant hkind sound_start hstep
  refine ⟨fun r hr => ?_, fun r hr => ?_, fun account ha => hs.cached_balance ha⟩
  · rcases hr with hr | hr
    · have hprepared : r.Prepared w.current w.next := hs.active _ hr
      exact hprepared.matched
    · have hprepared : r.Prepared w.current w.next := hs.committed _ hr
      exact hprepared.matched
  · have hprepared : r.Prepared w.current w.next := hs.committed _ hr
    obtain ⟨-, -, -, hsome, -⟩ := reconcileAccount_spec hprepared.ran
    obtain ⟨c, hc⟩ := Option.isSome_iff_exists.1 (hsome hprepared.matched)
    obtain ⟨account, haccount, hbalance⟩ := hs.balance hr hc
    exact ⟨account, c, haccount, hc, hbalance, fun e he hcode hcovers =>
      hs.seen hr hc he hcode hcovers⟩

/-- Commits that can be replayed in their own order. -/
def inCommitOrder : Action → World → Bool
  | .commit i, w =>
    w.active[i]?.all fun t => (ledgerIsolation.replay .empty (t :: w.committed)).isSome
  | _, _ => true

theorem isolated_of_inCommitOrder (a : Action) (w : World) (h : inCommitOrder a w = true) :
    Isolated a w := by
  cases a with
  | commit i =>
    intro t ht
    have hreplay : w.active[i]?.all (fun t =>
        (ledgerIsolation.replay .empty (t :: w.committed)).isSome) = true := h
    rw [ht] at hreplay
    exact Isolation.serializable_of_replay hreplay
  | _ => trivial

/-- A credit of a merchant in USDT, free of charge. -/
def freeCredit (key : String) (amount : Int) : List LedgerCall := [
  .postPaymentCredit ⟨"m", "i", ⟨.ethereum, key, 5⟩, .ethereum, "USDT", 6, ⟨amount, "USDT", 6⟩, 0,
    key⟩]

/-- A posting opens the accounts. Two more draw their numbers in turn and commit in the other
order; then the holdings are reconciled, while a third posting rolls back. -/
def interleavedPostings : List Action := [
  .beginPosting (freeCredit "a" 100), .insertEntry 0, .insertEntry 0, .commit 0,
  .beginPosting (freeCredit "b" 20), .beginPosting (freeCredit "c" 3),
  .insertEntry 1, .insertEntry 0, .insertEntry 0, .insertEntry 1, .commit 0, .commit 0,
  .beginPosting (freeCredit "d" 7), .insertEntry 0,
  .beginReconciliation "merchant_holdings:m:ETHEREUM:USDT", .commit 0, .rollback 0]

def interleavedWorld : World := (interleaving.log interleavedPostings [.start]).headD .start

theorem reconciliation_sound_interleaved :
    (interleavedWorld.current.cache "merchant_holdings:m:ETHEREUM:USDT") = ⟨123, some 4⟩ ∧
      ∀ r, .reconciliation r ∈ interleavedWorld.committed → r.result.matched = true := by
  have hreach : interleaving.Reachable (fun _ => True) (fun a w => inCommitOrder a w = true)
      World.start interleavedWorld :=
    Machine.reachable_log (fun _ _ => trivial) (by decide +kernel)
  refine ⟨by decide +kernel, fun r hr => ?_⟩
  exact (reconciliation_sound (hreach.mono isolated_of_inCommitOrder)).1 r (.inr hr)

end PaymentGateway
