import Mathlib.Algebra.Order.BigOperators.Group.List
import Mathlib.Algebra.Order.Group.Int
import PaymentGateway.Lib.DoubleEntry
import PaymentGateway.Lib.Execution
import PaymentGateway.Lib.Fallible
import PaymentGateway.Database.Schema

/-!
# What the storage layer admits

The guards of the migration around `ledger_transactions` and `ledger_entries`, for clients that
send any statements. Both tables are append-only; an entry has to match the asset of its account,
carry a positive amount and belong to a ledger transaction; and at commit the balance of its
ledger transaction is asserted once for each entry the client transaction has inserted.

**Theorem (`committed_balanced`).** When every client transaction adds an entry to each ledger
transaction it inserts, and its entries leave no asset symbol of a ledger transaction out of
balance on two networks at once, every committed state is balanced: each ledger transaction has a
debit and a credit, and for each asset on each network they agree.

Without the first condition the trigger never fires; and the trigger groups by symbol alone, so
without the second a debit on one network passes for a credit on another
(`ledger_unbalanced`). `commit_balanced_iff` shows that a commit keeps the balance exactly under
the condition. What is inserted is a suffix of each table (`run_eq_ok`), and entries that cancel
by symbol and are out of balance on at most one network cancel on each
(`DoubleEntry.net_eq_zero_of_total`).
-/

namespace PaymentGateway

open Keyed Fallible Transactional

namespace LedgerStorage

/-! ## The tables -/

structure LedgerTransactionRow where
  id : String
  idempotencyKey : String
  type : String
  deriving DecidableEq, Repr

/-- The columns a client sends for an entry. -/
structure EntryData where
  id : String
  ledgerTransactionId : String
  accountId : String
  direction : LedgerDirection
  amount : Int
  assetSymbol : String
  assetDecimals : Nat
  deriving DecidableEq, Repr

/-- A stored entry. -/
structure LedgerEntryRow extends EntryData where
  amount_positive : 0 < amount

structure Storage where
  transactions : Table LedgerTransactionRow (·.id)
  entries : Table LedgerEntryRow (·.id)

def Storage.empty : Storage := ⟨.empty, .empty⟩

/-- The accounts, by their id. -/
abbrev Accounts := Table LedgerAccount (·.code)

/-! ## Statements and their guards -/

/-- A statement on one of the two tables. An update or a deletion names its rows by a predicate. -/
inductive Statement
  | insertTransaction (row : LedgerTransactionRow)
  | insertEntry (row : EntryData)
  | updateTransactions (rows : LedgerTransactionRow → Bool)
      (set : LedgerTransactionRow → LedgerTransactionRow)
  | deleteTransactions (rows : LedgerTransactionRow → Bool)
  | updateEntries (rows : EntryData → Bool) (set : EntryData → EntryData)
  | deleteEntries (rows : EntryData → Bool)

/-- `gateway_deny_mutation`, a row trigger: it speaks up when a row is touched. -/
def denyMutation {ρ : Type} (table operation : String) (rows : List ρ) (touched : ρ → Bool)
    (s : Storage) : Except Error Storage :=
  if rows.any touched then
    .error (.checkViolation (table ++ " is append-only: " ++ operation ++ " is not permitted"))
  else
    .ok s

/-- `gateway_assert_entry_asset_matches_account`. -/
def assertEntryAssetMatchesAccount (accounts : Accounts) (row : EntryData) : Except Error Unit :=
  match accounts.find? row.accountId with
  | none => .error (.checkViolation "entry asset does not match account")
  | some account =>
    if account.assetSymbol ≠ row.assetSymbol ∨ account.assetDecimals ≠ row.assetDecimals then
      .error (.checkViolation "entry asset does not match account")
    else
      .ok ()

def insertTransaction (row : LedgerTransactionRow) (s : Storage) : Except Error Storage :=
  match h : s.transactions.find? row.id with
  | some _ => .error (.uniqueViolation "LedgerTransaction")
  | none =>
    if ∃ r ∈ s.transactions.rows, r.idempotencyKey = row.idempotencyKey then
      .error (.uniqueViolation "LedgerTransaction")
    else
      .ok { s with transactions := s.transactions.insert row h }

def insertEntry (accounts : Accounts) (row : EntryData) (s : Storage) : Except Error Storage := do
  assertEntryAssetMatchesAccount accounts row
  if hpos : 0 < row.amount then
    match h : s.entries.find? row.id with
    | some _ => .error (.uniqueViolation "LedgerEntry")
    | none =>
      if (s.transactions.find? row.ledgerTransactionId).isSome then
        .ok { s with entries := s.entries.insert ⟨row, hpos⟩ h }
      else
        .error (.checkViolation "ledger_entries_ledger_transaction_id_fkey")
  else
    .error (.checkViolation "ledger_entries_amount_positive")

def execute (accounts : Accounts) (s : Storage) : Statement → Except Error Storage
  | .insertTransaction row => insertTransaction row s
  | .insertEntry row => insertEntry accounts row s
  | .updateTransactions rows _ =>
    denyMutation "ledger_transactions" "UPDATE" s.transactions.rows rows s
  | .deleteTransactions rows =>
    denyMutation "ledger_transactions" "DELETE" s.transactions.rows rows s
  | .updateEntries rows _ =>
    denyMutation "ledger_entries" "UPDATE" s.entries.rows (fun e => rows e.toEntryData) s
  | .deleteEntries rows =>
    denyMutation "ledger_entries" "DELETE" s.entries.rows (fun e => rows e.toEntryData) s

/-! ## Commit -/

def entriesOf (s : Storage) (id : String) : List LedgerEntryRow :=
  s.entries.rows.filter fun e => e.ledgerTransactionId = id

/-- The sum of one side in one symbol. -/
def sideSum (entries : List LedgerEntryRow) (direction : LedgerDirection) (symbol : String) : Int :=
  ((entries.filter fun e => e.direction = direction ∧ e.assetSymbol = symbol).map (·.amount)).sum

/-- `gateway_assert_ledger_balanced`, which groups by symbol. -/
def assertLedgerBalanced (s : Storage) (id : String) : Except Error Unit :=
  if (entriesOf s id).length < 2 then
    .error (.checkViolation "a posting needs at least one debit and one credit")
  else if ∃ e ∈ entriesOf s id, sideSum (entriesOf s id) .debit e.assetSymbol ≠
      sideSum (entriesOf s id) .credit e.assetSymbol then
    .error (.checkViolation "ledger transaction is unbalanced")
  else
    .ok ()

/-- What a client transaction inserts. -/
def insertedTransactions (statements : List Statement) : List LedgerTransactionRow :=
  statements.filterMap fun
    | .insertTransaction row => some row
    | _ => none

def insertedEntries (statements : List Statement) : List EntryData :=
  statements.filterMap fun
    | .insertEntry row => some row
    | _ => none

/-- A client transaction: its statements, and at commit the deferred trigger, once for each
inserted entry. -/
def commit (accounts : Accounts) (statements : List Statement) (s : Storage) :
    Except Error Storage := do
  let s' ← statements.foldlM (execute accounts) s
  (insertedEntries statements).forM fun e => assertLedgerBalanced s' e.ledgerTransactionId
  return s'

/-- Client transactions, one after the other. -/
def clients (accounts : Accounts) : Machine Storage Error (List Statement) (List Statement) :=
  ⟨commit accounts, fun statements _ => [.ok statements]⟩

/-! ## What should hold -/

/-- The network of the account an entry is on. -/
def networkOf (accounts : Accounts) (accountId : String) : Option Network :=
  (accounts.find? accountId).bind (·.network)

/-- What one side of a ledger transaction moves of an asset on a network. -/
def sideOn (accounts : Accounts) (entries : List EntryData) (id symbol : String)
    (network : Option Network) (direction : LedgerDirection) : Int :=
  ((entries.filter fun e => e.ledgerTransactionId = id ∧ e.assetSymbol = symbol ∧
    networkOf accounts e.accountId = network ∧ e.direction = direction).map (·.amount)).sum

/-- Debits and credits of an asset on a network agree. -/
def Agrees (accounts : Accounts) (entries : List EntryData) (id symbol : String)
    (network : Option Network) : Prop :=
  sideOn accounts entries id symbol network .debit = sideOn accounts entries id symbol network .credit

instance (accounts : Accounts) (entries : List EntryData) (id symbol : String)
    (network : Option Network) : Decidable (Agrees accounts entries id symbol network) := by
  unfold Agrees
  infer_instance

def Storage.data (s : Storage) : List EntryData := s.entries.rows.map (·.toEntryData)

/-- Every ledger transaction has a debit and a credit, and agrees in every asset on every
network. -/
def Balanced (accounts : Accounts) (s : Storage) : Prop :=
  ∀ t ∈ s.transactions,
    (∃ e ∈ s.data, e.ledgerTransactionId = t.id ∧ e.direction = .debit) ∧
    (∃ e ∈ s.data, e.ledgerTransactionId = t.id ∧ e.direction = .credit) ∧
    ∀ symbol network, Agrees accounts s.data t.id symbol network

/-- The condition on a client transaction: no ledger transaction without an entry, and no symbol
of a ledger transaction out of balance on two networks at once. -/
structure WellPosted (accounts : Accounts) (statements : List Statement) : Prop where
  entered : ∀ t ∈ insertedTransactions statements,
    ∃ e ∈ insertedEntries statements, e.ledgerTransactionId = t.id
  oneNetwork : ∀ id symbol network network', network ≠ network' →
    Agrees accounts (insertedEntries statements) id symbol network ∨
      Agrees accounts (insertedEntries statements) id symbol network'

/-! ## What a client transaction leaves -/

/-- Entries belong to stored ledger transactions: the foreign key. -/
def Referenced (s : Storage) : Prop :=
  ∀ e ∈ s.data, (s.transactions.find? e.ledgerTransactionId).isSome

variable {accounts : Accounts} {s s' : Storage} {statements : List Statement}

theorem denyMutation_eq_ok {ρ : Type} {table operation : String} {rows : List ρ}
    {touched : ρ → Bool} (h : denyMutation table operation rows touched s = .ok s') : s' = s := by
  unfold denyMutation at h
  split_ifs at h
  cases h
  rfl

theorem insertTransaction_eq_ok {row : LedgerTransactionRow}
    (h : insertTransaction row s = .ok s') :
    ∃ hfree, s' = { s with transactions := s.transactions.insert row hfree } := by
  unfold insertTransaction at h
  split at h
  · cases h
  · next hfree =>
    split_ifs at h
    cases h
    exact ⟨hfree, rfl⟩

theorem insertEntry_eq_ok {row : EntryData} (h : insertEntry accounts row s = .ok s') :
    (s.transactions.find? row.ledgerTransactionId).isSome ∧
      ∃ hpos hfree, s' = { s with entries := s.entries.insert ⟨row, hpos⟩ hfree } := by
  obtain ⟨-, -, h⟩ := bind_eq_ok.1 h
  split_ifs at h with hpos hknown
  · split at h
    · cases h
    · next hfree =>
      cases h
      exact ⟨hknown, hpos, hfree, rfl⟩
  · split at h <;> cases h

theorem data_insert {e : LedgerEntryRow} (hfree : s.entries.find? e.id = none) :
    ({ s with entries := s.entries.insert e hfree } : Storage).data =
      s.data ++ [e.toEntryData] := by
  simp [Storage.data]

/-- The state after some statements: what they insert comes last. -/
structure Extends (statements : List Statement) (s s' : Storage) : Prop where
  transactions : s'.transactions.rows = s.transactions.rows ++ insertedTransactions statements
  data : s'.data = s.data ++ insertedEntries statements
  referenced : Referenced s → Referenced s'

theorem execute_eq_ok {statement : Statement} (h : execute accounts s statement = .ok s') :
    Extends [statement] s s' := by
  have hsame : s' = s → insertedTransactions [statement] = [] → insertedEntries [statement] = [] →
      Extends [statement] s s' := by
    intro hs ht he
    rw [hs]
    exact ⟨by rw [ht, List.append_nil], by rw [he, List.append_nil], id⟩
  cases statement with
  | insertTransaction row =>
    obtain ⟨hfree, rfl⟩ := insertTransaction_eq_ok h
    refine ⟨rfl, (List.append_nil _).symm, fun href e he => ?_⟩
    show ((s.transactions.insert row hfree).find? e.ledgerTransactionId).isSome
    rw [Table.find?_insert]
    split
    · rfl
    · exact href e he
  | insertEntry row =>
    obtain ⟨hknown, hpos, hfree, rfl⟩ := insertEntry_eq_ok h
    refine ⟨(List.append_nil _).symm, data_insert hfree, fun href e he => ?_⟩
    rw [data_insert hfree] at he
    rcases List.mem_append.1 he with he | he
    · exact href e he
    · rw [List.mem_singleton.1 he]
      exact hknown
  | updateTransactions rows set => exact hsame (denyMutation_eq_ok h) rfl rfl
  | deleteTransactions rows => exact hsame (denyMutation_eq_ok h) rfl rfl
  | updateEntries rows set => exact hsame (denyMutation_eq_ok h) rfl rfl
  | deleteEntries rows => exact hsame (denyMutation_eq_ok h) rfl rfl

/-- **What is inserted is a suffix of each table**, whatever else a client asks for. -/
theorem run_eq_ok (h : statements.foldlM (execute accounts) s = .ok s') :
    Extends statements s s' := by
  refine foldlM_invariant_done (fun done x => Extends done s x) ?_ ?_ h
  · exact ⟨(List.append_nil _).symm, (List.append_nil _).symm, id⟩
  · intro done statement x y hx hy
    have hlast := execute_eq_ok hy
    refine ⟨?_, ?_, fun href => hlast.referenced (hx.referenced href)⟩
    · rw [hlast.transactions, hx.transactions, List.append_assoc]
      simp [insertedTransactions]
    · rw [hlast.data, hx.data, List.append_assoc]
      simp [insertedEntries]

/-- A commit: what the statements leave, and every ledger transaction that has got an entry has
passed the trigger. -/
theorem commit_eq_ok (h : commit accounts statements s = .ok s') :
    Extends statements s s' ∧ ∀ e ∈ insertedEntries statements,
      assertLedgerBalanced s' e.ledgerTransactionId = .ok () := by
  obtain ⟨x, hrun, h⟩ := bind_eq_ok.1 h
  obtain ⟨u, hall, h⟩ := bind_eq_ok.1 h
  obtain rfl := pure_eq_ok.1 h
  exact ⟨run_eq_ok hrun, forM_eq_ok hall⟩

/-! ## Legs -/

/-- The entries of a symbol of a ledger transaction, by network. -/
def legsOf (accounts : Accounts) (entries : List EntryData) (id symbol : String) :
    List (DoubleEntry.Leg (Option Network) Int) :=
  (entries.filter fun e => e.ledgerTransactionId = id ∧ e.assetSymbol = symbol).map fun e =>
    ⟨networkOf accounts e.accountId, e.direction = .debit, e.amount⟩

theorem legsOf_append (entries entries' : List EntryData) (id symbol : String) :
    legsOf accounts (entries ++ entries') id symbol =
      legsOf accounts entries id symbol ++ legsOf accounts entries' id symbol := by
  simp [legsOf]

theorem sideOn_cons (e : EntryData) (entries : List EntryData) (id symbol : String)
    (network : Option Network) (direction : LedgerDirection) :
    sideOn accounts (e :: entries) id symbol network direction =
      (if e.ledgerTransactionId = id ∧ e.assetSymbol = symbol ∧
        networkOf accounts e.accountId = network ∧ e.direction = direction then e.amount else 0) +
      sideOn accounts entries id symbol network direction := by
  unfold sideOn
  rw [List.filter_cons]
  split_ifs <;> simp_all

/-- What the legs on a network sum to is the difference of the two sides. -/
theorem net_legsOf (entries : List EntryData) (id symbol : String) (network : Option Network) :
    DoubleEntry.net (legsOf accounts entries id symbol) network =
      sideOn accounts entries id symbol network .debit -
        sideOn accounts entries id symbol network .credit := by
  induction entries with
  | nil => rfl
  | cons e entries ih =>
    rw [← List.singleton_append, legsOf_append, DoubleEntry.net_append, ih, List.singleton_append,
      sideOn_cons, sideOn_cons]
    have hone : DoubleEntry.net (legsOf accounts [e] id symbol) network =
        (if e.ledgerTransactionId = id ∧ e.assetSymbol = symbol ∧
          networkOf accounts e.accountId = network ∧ e.direction = .debit then e.amount else 0) -
        (if e.ledgerTransactionId = id ∧ e.assetSymbol = symbol ∧
          networkOf accounts e.accountId = network ∧ e.direction = .credit then e.amount else 0) := by
      by_cases hmine : e.ledgerTransactionId = id ∧ e.assetSymbol = symbol
      · obtain ⟨hid, hsymbol⟩ := hmine
        by_cases hnet : networkOf accounts e.accountId = network
        · cases hdir : e.direction <;>
            simp [legsOf, DoubleEntry.net, DoubleEntry.netOn, DoubleEntry.Leg.signed, hid, hsymbol,
              hnet, hdir]
        · simp [legsOf, DoubleEntry.net, DoubleEntry.netOn, hid, hsymbol, hnet]
      · have hnone : legsOf accounts [e] id symbol = [] := by simp [legsOf, hmine]
        have hnot : ∀ p : Prop, ¬ (e.ledgerTransactionId = id ∧ e.assetSymbol = symbol ∧ p) :=
          fun p h => hmine ⟨h.1, h.2.1⟩
        rw [hnone, if_neg (hnot _), if_neg (hnot _)]
        rfl
    rw [hone]
    omega

theorem agrees_iff {entries : List EntryData} {id symbol : String} {network : Option Network} :
    Agrees accounts entries id symbol network ↔
      DoubleEntry.net (legsOf accounts entries id symbol) network = 0 := by
  rw [net_legsOf, Agrees, sub_eq_zero]

/-- Where there is no entry there is nothing to agree on. -/
theorem agrees_of_none {entries : List EntryData} {id symbol : String} {network : Option Network}
    (h : ∀ e ∈ entries, e.ledgerTransactionId = id → e.assetSymbol = symbol →
      networkOf accounts e.accountId ≠ network) : Agrees accounts entries id symbol network := by
  have hside : ∀ direction, sideOn accounts entries id symbol network direction = 0 := by
    intro direction
    have hnone : (entries.filter fun e => e.ledgerTransactionId = id ∧ e.assetSymbol = symbol ∧
        networkOf accounts e.accountId = network ∧ e.direction = direction) = [] := by
      refine List.filter_eq_nil_iff.2 fun e he hmine => ?_
      obtain ⟨hid, hsymbol, hnetwork, -⟩ := of_decide_eq_true hmine
      exact h e he hid hsymbol hnetwork
    rw [sideOn, hnone]
    rfl
  exact (hside .debit).trans (hside .credit).symm

/-- What agrees before agrees after when the new entries do. -/
theorem agrees_append {entries entries' : List EntryData} {id symbol : String}
    {network : Option Network} (h : Agrees accounts entries id symbol network) :
    Agrees accounts (entries ++ entries') id symbol network ↔
      Agrees accounts entries' id symbol network := by
  rw [agrees_iff, agrees_iff, legsOf_append, DoubleEntry.net_append, agrees_iff.1 h, zero_add]

/-- The condition looks at the inserted rows only. -/
theorem wellPosted_iff : WellPosted accounts statements ↔
    (∀ t ∈ insertedTransactions statements,
      ∃ e ∈ insertedEntries statements, e.ledgerTransactionId = t.id) ∧
    ∀ e ∈ insertedEntries statements, ∀ e' ∈ insertedEntries statements,
      e'.ledgerTransactionId = e.ledgerTransactionId → e'.assetSymbol = e.assetSymbol →
      networkOf accounts e.accountId ≠ networkOf accounts e'.accountId →
      Agrees accounts (insertedEntries statements) e.ledgerTransactionId e.assetSymbol
          (networkOf accounts e.accountId) ∨
        Agrees accounts (insertedEntries statements) e.ledgerTransactionId e.assetSymbol
          (networkOf accounts e'.accountId) := by
  constructor
  · intro h
    exact ⟨h.entered, fun e _ e' _ _ _ hne => h.oneNetwork _ _ _ _ hne⟩
  · rintro ⟨hentered, hpairs⟩
    refine ⟨hentered, fun id symbol network network' hne => ?_⟩
    by_contra hboth
    obtain ⟨hleft, hright⟩ := not_or.1 hboth
    -- Both networks then have an entry.
    have hentry : ∀ n, ¬ Agrees accounts (insertedEntries statements) id symbol n →
        ∃ e ∈ insertedEntries statements, e.ledgerTransactionId = id ∧ e.assetSymbol = symbol ∧
          networkOf accounts e.accountId = n := by
      intro n hn
      by_contra hnone
      exact hn (agrees_of_none fun e he hid hsymbol hnetwork =>
        hnone ⟨e, he, hid, hsymbol, hnetwork⟩)
    obtain ⟨e, he, rfl, rfl, rfl⟩ := hentry network hleft
    obtain ⟨e', he', hid, hsymbol, rfl⟩ := hentry network' hright
    exact hboth (hpairs e he e' he' hid hsymbol hne)

instance : Decidable (WellPosted accounts statements) := decidable_of_iff _ wellPosted_iff.symm

/-! ## The balance -/

theorem mem_entriesOf {id : String} {e : EntryData} :
    e ∈ (entriesOf s id).map (·.toEntryData) ↔ e ∈ s.data ∧ e.ledgerTransactionId = id := by
  constructor
  · intro h
    obtain ⟨row, hrow, rfl⟩ := List.mem_map.1 h
    obtain ⟨hmem, hid⟩ := List.mem_filter.1 hrow
    exact ⟨List.mem_map_of_mem hmem, of_decide_eq_true hid⟩
  · rintro ⟨hmem, hid⟩
    obtain ⟨row, hrow, rfl⟩ := List.mem_map.1 hmem
    exact List.mem_map_of_mem (List.mem_filter.2 ⟨hrow, decide_eq_true hid⟩)

/-- The legs of a symbol, summed over the networks, are what the trigger compares. -/
theorem sum_legsOf (id symbol : String) :
    ((legsOf accounts s.data id symbol).map DoubleEntry.Leg.signed).sum =
      sideSum (entriesOf s id) .debit symbol - sideSum (entriesOf s id) .credit symbol := by
  unfold Storage.data entriesOf
  induction s.entries.rows with
  | nil => rfl
  | cons e rows ih =>
    by_cases hid : e.ledgerTransactionId = id
    · by_cases hsymbol : e.assetSymbol = symbol
      · cases hdir : e.direction <;>
          simp_all [legsOf, sideSum, DoubleEntry.Leg.signed] <;> omega
      · simp_all [legsOf, sideSum]
    · simp_all [legsOf, sideSum]

/-- What the trigger has let through. -/
theorem assertLedgerBalanced_eq_ok {id : String} (h : assertLedgerBalanced s id = .ok ()) :
    (∃ e ∈ s.data, e.ledgerTransactionId = id) ∧
      ∀ symbol, ((legsOf accounts s.data id symbol).map DoubleEntry.Leg.signed).sum = 0 := by
  unfold assertLedgerBalanced at h
  split_ifs at h with hcount hbad
  refine ⟨?_, fun symbol => ?_⟩
  · obtain ⟨row, hrow⟩ := List.exists_mem_of_length_pos (l := entriesOf s id) (by omega)
    exact ⟨_, mem_entriesOf.1 (List.mem_map_of_mem hrow)⟩
  · by_cases hsome : ∃ e ∈ entriesOf s id, e.assetSymbol = symbol
    · obtain ⟨e, he, rfl⟩ := hsome
      have hsides := not_exists.1 hbad e
      rw [sum_legsOf]
      simp only [he, true_and, ne_eq, not_not] at hsides
      omega
    · have hnone : legsOf accounts s.data id symbol = [] := by
        rw [legsOf, List.map_eq_nil_iff, List.filter_eq_nil_iff]
        intro e he hmine
        obtain ⟨hid, hsymbol⟩ := of_decide_eq_true hmine
        obtain ⟨row, hrow, rfl⟩ := List.mem_map.1 (mem_entriesOf.2 ⟨he, hid⟩)
        exact hsome ⟨row, hrow, hsymbol⟩
      rw [hnone]
      rfl

theorem amount_pos {e : EntryData} (he : e ∈ s.data) : 0 < e.amount := by
  obtain ⟨row, -, rfl⟩ := List.mem_map.1 he
  exact row.amount_positive

/-- A side is not zero exactly when it has an entry. -/
theorem sideOn_pos_iff {id symbol : String} {network : Option Network}
    {direction : LedgerDirection} : 0 < sideOn accounts s.data id symbol network direction ↔
      ∃ e ∈ s.data, e.ledgerTransactionId = id ∧ e.assetSymbol = symbol ∧
        networkOf accounts e.accountId = network ∧ e.direction = direction := by
  constructor
  · intro h
    by_contra hnone
    have hempty : (s.data.filter fun e => e.ledgerTransactionId = id ∧ e.assetSymbol = symbol ∧
        networkOf accounts e.accountId = network ∧ e.direction = direction) = [] :=
      List.filter_eq_nil_iff.2 fun e he hmine => hnone ⟨e, he, of_decide_eq_true hmine⟩
    rw [sideOn, hempty] at h
    exact absurd h (by decide)
  · rintro ⟨e, he, hmine⟩
    have hpos : ∀ a ∈ (s.data.filter fun e => e.ledgerTransactionId = id ∧
        e.assetSymbol = symbol ∧ networkOf accounts e.accountId = network ∧
        e.direction = direction).map (·.amount), 0 < a := by
      intro a ha
      obtain ⟨x, hx, rfl⟩ := List.mem_map.1 ha
      exact amount_pos (List.mem_of_mem_filter hx)
    refine List.sum_pos _ hpos fun hnil => ?_
    exact List.filter_eq_nil_iff.1 (List.map_eq_nil_iff.1 hnil) e he (decide_eq_true hmine)

/-- An entry of a ledger transaction that agrees everywhere has a counterpart. -/
theorem both_sides {id : String} (hany : ∃ e ∈ s.data, e.ledgerTransactionId = id)
    (hagrees : ∀ symbol network, Agrees accounts s.data id symbol network)
    (direction : LedgerDirection) :
    ∃ e ∈ s.data, e.ledgerTransactionId = id ∧ e.direction = direction := by
  obtain ⟨e, he, hid⟩ := hany
  have hmine : 0 < sideOn accounts s.data id e.assetSymbol (networkOf accounts e.accountId)
      e.direction := sideOn_pos_iff.2 ⟨e, he, hid, rfl, rfl, rfl⟩
  have hside : 0 < sideOn accounts s.data id e.assetSymbol (networkOf accounts e.accountId)
      direction := by
    have hboth := hagrees e.assetSymbol (networkOf accounts e.accountId)
    unfold Agrees at hboth
    cases hdir : e.direction <;> cases direction <;> rw [hdir] at hmine <;> omega
  obtain ⟨x, hx, hxid, -, -, hxdir⟩ := sideOn_pos_iff.1 hside
  exact ⟨x, hx, hxid, hxdir⟩

variable {accounts : Accounts}

/-- A new ledger transaction has no entry from before. -/
theorem Extends.none_before (hext : Extends statements s s') (href : Referenced s)
    {t : LedgerTransactionRow} (ht : t ∈ insertedTransactions statements) :
    ∀ e ∈ s.data, e.ledgerTransactionId ≠ t.id := by
  intro e he hid
  obtain ⟨old, hold⟩ := Option.isSome_iff_exists.1 (href e he)
  obtain ⟨hmem, hkey⟩ := Table.find?_eq_some.1 hold
  have hnodup := s'.transactions.nodup
  rw [hext.transactions, List.map_append, List.nodup_append] at hnodup
  exact hnodup.2.2 old.id (List.mem_map_of_mem hmem) t.id (List.mem_map_of_mem ht)
    (hkey.trans hid)

/-- Before the commit every ledger transaction it leaves agreed, if only for want of entries. -/
theorem Extends.agreed_before (hext : Extends statements s s') (href : Referenced s)
    (hb : Balanced accounts s) {t : LedgerTransactionRow} (ht : t ∈ s'.transactions)
    (symbol : String) (network : Option Network) :
    Agrees accounts s.data t.id symbol network := by
  have hmem : t ∈ s.transactions.rows ++ insertedTransactions statements :=
    hext.transactions ▸ ht
  rcases List.mem_append.1 hmem with hold | hnew
  · exact (hb t hold).2.2 symbol network
  · exact agrees_of_none fun e he hid => absurd hid (hext.none_before href hnew e he)

/-- **A commit keeps the balance exactly under the condition.** -/
theorem commit_balanced_iff (href : Referenced s) (hb : Balanced accounts s)
    (h : commit accounts statements s = .ok s') :
    Balanced accounts s' ↔ WellPosted accounts statements := by
  obtain ⟨hext, htrigger⟩ := commit_eq_ok h
  have hagreed : ∀ t ∈ s'.transactions, ∀ symbol network,
      Agrees accounts s.data t.id symbol network :=
    fun t ht => hext.agreed_before href hb ht
  constructor
  · intro hb'
    refine ⟨fun t ht => ?_, fun id symbol network network' _ => .inl ?_⟩
    · -- The debit it has in the end is new.
      have hstored : t ∈ s'.transactions := by
        rw [Table.mem_def, hext.transactions]
        exact List.mem_append_right _ ht
      obtain ⟨e, he, hid, -⟩ := (hb' t hstored).1
      rw [hext.data] at he
      rcases List.mem_append.1 he with hold | hnew
      · exact absurd hid (hext.none_before href ht e hold)
      · exact ⟨e, hnew, hid⟩
    · cases hfind : s'.transactions.find? id with
      | none =>
        refine agrees_of_none fun e he hid => ?_
        have hstored := hext.referenced href e (hext.data ▸ List.mem_append_right _ he)
        rw [hid, hfind] at hstored
        cases hstored
      | some t =>
        obtain ⟨ht, rfl⟩ := Table.find?_eq_some.1 hfind
        have hafter := (hb' t ht).2.2 symbol network
        rw [hext.data] at hafter
        exact (agrees_append (hagreed t ht symbol network)).1 hafter
  · intro hposted t ht
    by_cases htouched : ∃ e ∈ insertedEntries statements, e.ledgerTransactionId = t.id
    · obtain ⟨e, he, hid⟩ := htouched
      obtain ⟨hany, htotal⟩ := assertLedgerBalanced_eq_ok (hid ▸ htrigger e he)
      have hagrees : ∀ symbol network, Agrees accounts s'.data t.id symbol network := by
        intro symbol network
        refine agrees_iff.2 (DoubleEntry.net_eq_zero_of_total (htotal symbol) ?_ network)
        -- The networks that are out of balance are those of the new entries.
        intro a b hab
        rw [← agrees_iff, ← agrees_iff, hext.data, agrees_append (hagreed t ht symbol a),
          agrees_append (hagreed t ht symbol b)]
        exact hposted.oneNetwork t.id symbol a b hab
      exact ⟨both_sides hany hagrees .debit, both_sides hany hagrees .credit, hagrees⟩
    · -- A ledger transaction without a new entry is an old one and stays as it was.
      have hmem : t ∈ s.transactions.rows ++ insertedTransactions statements :=
        hext.transactions ▸ ht
      have hold : t ∈ s.transactions := by
        rcases List.mem_append.1 hmem with hold | hnew
        · exact hold
        · exact absurd (hposted.entered t hnew) htouched
      obtain ⟨⟨d, hd, hdebit⟩, ⟨c, hc, hcredit⟩, -⟩ := hb t hold
      rw [hext.data]
      refine ⟨⟨d, List.mem_append_left _ hd, hdebit⟩, ⟨c, List.mem_append_left _ hc, hcredit⟩, ?_⟩
      intro symbol network
      refine (agrees_append (hagreed t ht symbol network)).2 (agrees_of_none ?_)
      exact fun e he hid => absurd ⟨e, he, hid⟩ htouched

/-- **Committed states are balanced**: see the head of this module. -/
theorem committed_balanced (accounts : Accounts)
    (h : (clients accounts).Reachable (fun _ => True)
      (fun statements _ => WellPosted accounts statements) Storage.empty s) :
    Balanced accounts s := by
  have hkind : ∀ op (a : Storage), True → ∀ t, Except.ok t ∈ (clients accounts).script op a →
      True := fun _ _ _ _ _ => trivial
  have hstep : ∀ t (a b : Storage), True → (Referenced a ∧ Balanced accounts a) →
      WellPosted accounts t → (clients accounts).apply t a = .ok b →
      Referenced b ∧ Balanced accounts b := fun t a b _ ha hposted hok =>
    ⟨(commit_eq_ok hok).1.referenced ha.1, (commit_balanced_iff ha.1 ha.2 hok).2 hposted⟩
  have hempty : Referenced Storage.empty ∧ Balanced accounts Storage.empty :=
    ⟨fun e he => absurd he List.not_mem_nil, fun t ht => absurd ht (Table.not_mem_empty t)⟩
  exact (h.invariant hkind hempty hstep).2

/-! ## A balanced and two unbalanced ledgers -/

/-- Tether holdings and payables on two networks. -/
def tetherAccounts : Accounts := ⟨[
  ⟨"hold-eth", "Holdings", .asset, some "m", "USDT", 6, some .ethereum⟩,
  ⟨"pay-eth", "Payable", .liability, some "m", "USDT", 6, some .ethereum⟩,
  ⟨"pay-pol", "Payable", .liability, some "m", "USDT", 6, some .polygon⟩], by decide⟩

/-- A ledger transaction with a debit and a credit of 5 units. -/
def transferOn (id debitAccount creditAccount : String) : List Statement := [
  .insertTransaction ⟨id, id, "payment.credit"⟩,
  .insertEntry ⟨id ++ "-d", id, debitAccount, .debit, 5, "USDT", 6⟩,
  .insertEntry ⟨id ++ "-c", id, creditAccount, .credit, 5, "USDT", 6⟩]

/-- What client transactions on these accounts leave. -/
def tetherLedger (transactions : List (List Statement)) : Storage :=
  ((clients tetherAccounts).log transactions [Storage.empty]).headD Storage.empty

theorem committed_balanced_transfer :
    Balanced tetherAccounts (tetherLedger [transferOn "t" "hold-eth" "pay-eth"]) :=
  committed_balanced tetherAccounts
    (Machine.reachable_log (fun _ _ => trivial) (by decide +kernel))

/-- **The guards alone do not keep the ledger balanced.** They admit a ledger transaction without
entries, and a debit on one network with a credit on another. -/
theorem ledger_unbalanced :
    (∃ s, (clients tetherAccounts).Reachable (fun _ => True) (fun _ _ => True) Storage.empty s ∧
      ∃ t ∈ s.transactions, ¬ ∃ e ∈ s.data, e.ledgerTransactionId = t.id) ∧
    ∃ s, (clients tetherAccounts).Reachable (fun _ => True) (fun _ _ => True) Storage.empty s ∧
      ∃ t ∈ s.transactions, ¬ Agrees tetherAccounts s.data t.id "USDT" (some .ethereum) := by
  have hreach : ∀ transactions, (clients tetherAccounts).Reachable (fun _ => True)
      (fun _ _ => True) Storage.empty (tetherLedger transactions) :=
    fun _ => Machine.reachable_log (fun _ _ => trivial) (Machine.allMeet_true _ _)
  refine ⟨⟨_, hreach [[.insertTransaction ⟨"t", "t", "payment.credit"⟩]],
      ⟨"t", "t", "payment.credit"⟩, ?_, ?_⟩,
    ⟨_, hreach [transferOn "t" "hold-eth" "pay-pol"], ⟨"t", "t", "payment.credit"⟩, ?_, ?_⟩⟩
  · exact List.mem_of_elem_eq_true (by decide +kernel)
  · decide +kernel
  · exact List.mem_of_elem_eq_true (by decide +kernel)
  · decide +kernel

end LedgerStorage

end PaymentGateway
