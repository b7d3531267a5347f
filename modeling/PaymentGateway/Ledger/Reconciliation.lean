import PaymentGateway.Ledger.Identity

/-!
# Reconciliation

The ledger tables with the cached columns of the account rows, `reconcileAccount` on them, and
what a transaction of ledger calls looks up and inserts.

`reconcileAccount` advances the cached balance by the entries its watermark does not cover and
compares that with a full recompute. Its result and its write are described by one lemma
(`reconcileAccount_spec`): it reports a match exactly when the cached balance is the sum of the
entries that the watermark covers, and what it then writes is again such a pair.
-/

namespace PaymentGateway

open Keyed Fallible

/-! ## The ledger tables -/

/-- The cached columns of an account row, with their defaults. -/
structure Cache where
  cachedBalance : Int := 0
  cachedThroughSeq : Option Nat := none
  deriving DecidableEq, Repr

structure AccountRow where
  account : LedgerAccount
  cache : Cache
  deriving DecidableEq, Repr

/-- The account, transaction and entry tables. The cached columns stand beside the account rows;
those of a row that has never been updated have their defaults. -/
structure Ledger where
  accounts : Table LedgerAccount (·.code)
  transactions : Table LedgerTransaction (·.idempotencyKey)
  entries : Table EntryRow (·.sequence)
  cache : String → Cache

namespace Ledger

def empty : Ledger := ⟨.empty, .empty, .empty, fun _ => {}⟩

/-- What a lookup of an account returns. -/
def account? (s : Ledger) (code : String) : Option AccountRow :=
  (s.accounts.find? code).map fun account => ⟨account, s.cache code⟩

/-- The database as the posting functions see it. -/
def db (s : Ledger) : Db :=
  { Db.empty with
    ledgerAccounts := s.accounts
    ledgerTransactions := s.transactions }

end Ledger

/-! ## Reconciliation of an account -/

structure AccountReconciliationResult where
  accountCode : String
  matched : Bool
  /-- What the cache says now, advanced by the entries posted since the last run. -/
  refreshedUnits : Int
  /-- A full recompute from every entry the account has ever had. -/
  computedUnits : Int
  deriving DecidableEq, Repr

/-- The result, and what is written to the cached columns: nothing on a mismatch. -/
def reconcileAccount (tx : Ledger) (code : String) :
    Except Error (AccountReconciliationResult × Option Cache) :=
  match tx.account? code with
  | none => .error (.recordNotFound "LedgerAccount")
  | some account => do
    let cachedUnits := account.cache.cachedBalance
    let (delta, throughSequence) ←
      computeBalanceDelta tx.accounts tx.entries.rows code account.cache.cachedThroughSeq
    let refreshedUnits := cachedUnits + delta
    let computed ← computeAccountBalance tx.accounts tx.entries.rows code
    let matched := decide (refreshedUnits = computed.units)
    return (⟨code, matched, refreshedUnits, computed.units⟩,
      if matched then some ⟨refreshedUnits, throughSequence⟩ else none)

/-- The balance of an account through a watermark. -/
def balanceThrough (entries : List EntryRow) (account : LedgerAccount) (through : Option Nat) :
    Int :=
  ((entries.filter fun e => e.accountCode = account.code ∧ Covers through e.sequence).map
    (signedAmount (debitIncreases account.type))).sum

/-- All entries of an account are those a watermark covers and those it does not. -/
theorem sum_covered (entries : List EntryRow) (account : LedgerAccount) (through : Option Nat) :
    ((entries.filter fun e => e.accountCode = account.code).map
      (signedAmount (debitIncreases account.type))).sum =
      balanceThrough entries account through +
      ((entries.filter fun e => e.accountCode = account.code ∧ ¬ Covers through e.sequence).map
        (signedAmount (debitIncreases account.type))).sum := by
  unfold balanceThrough
  induction entries with
  | nil => rfl
  | cons e entries ih =>
    by_cases hcode : e.accountCode = account.code
    · by_cases hcovered : Covers through e.sequence
      · simp only [List.filter_cons, hcode, hcovered, ih, and_self, not_true, and_false,
          decide_true, decide_false, if_true, Bool.false_eq_true, if_false, List.map_cons,
          List.sum_cons, add_assoc]
      · simp only [List.filter_cons, hcode, hcovered, ih, and_self, not_false_iff, and_false,
          decide_true, decide_false, if_true, Bool.false_eq_true, if_false, List.map_cons,
          List.sum_cons]
        omega
    · simp only [List.filter_cons, hcode, ih, false_and, decide_false, Bool.false_eq_true,
        if_false]

/-- Nothing is left out when the watermark covers every entry. -/
theorem balanceThrough_of_covers {entries : List EntryRow} {account : LedgerAccount}
    {through : Option Nat}
    (h : ∀ e ∈ entries, e.accountCode = account.code → Covers through e.sequence) :
    balanceThrough entries account through =
      ((entries.filter fun e => e.accountCode = account.code).map
        (signedAmount (debitIncreases account.type))).sum := by
  have hsame : (entries.filter fun e => e.accountCode = account.code ∧
      Covers through e.sequence) = entries.filter fun e => e.accountCode = account.code :=
    List.filter_congr fun e he => decide_eq_decide.2 ⟨fun h' => h'.1, fun h' => ⟨h', h e he h'⟩⟩
  rw [balanceThrough, hsame]

theorem balanceThrough_none (entries : List EntryRow) (account : LedgerAccount) :
    balanceThrough entries account none = 0 := by
  have hnone : (entries.filter fun e => e.accountCode = account.code ∧
      Covers none e.sequence) = [] := by simp [not_covers_none]
  rw [balanceThrough, hnone]
  rfl

/-- Only the entries that the watermark covers matter. -/
theorem balanceThrough_congr {entries entries' : List EntryRow} {account : LedgerAccount}
    {through : Option Nat} (hnodup : entries.Nodup) (hnodup' : entries'.Nodup)
    (h : ∀ e, e.accountCode = account.code → Covers through e.sequence →
      (e ∈ entries ↔ e ∈ entries')) :
    balanceThrough entries account through = balanceThrough entries' account through := by
  have hperm : (entries.filter fun e => e.accountCode = account.code ∧
      Covers through e.sequence).Perm (entries'.filter fun e => e.accountCode = account.code ∧
        Covers through e.sequence) := by
    refine (List.perm_ext_iff_of_nodup (hnodup.filter _) (hnodup'.filter _)).2 fun e => ?_
    simp only [List.mem_filter, decide_eq_true_eq]
    constructor
    · rintro ⟨he, hcode, hcovered⟩
      exact ⟨(h e hcode hcovered).1 he, hcode, hcovered⟩
    · rintro ⟨he, hcode, hcovered⟩
      exact ⟨(h e hcode hcovered).2 he, hcode, hcovered⟩
  exact (hperm.map _).sum_eq

/-- **What a reconciliation finds and writes.** -/
theorem reconcileAccount_spec {s : Ledger} {code : String} {result : AccountReconciliationResult}
    {update : Option Cache} (h : reconcileAccount s code = .ok (result, update)) :
    ∃ account, s.accounts.find? code = some account ∧
      (result.matched = true ↔ (s.cache code).cachedBalance =
        balanceThrough s.entries.rows account (s.cache code).cachedThroughSeq) ∧
      (result.matched = true → update.isSome) ∧
      ∀ c ∈ update,
        c.cachedBalance = balanceThrough s.entries.rows account c.cachedThroughSeq ∧
        (∀ n, Covers (s.cache code).cachedThroughSeq n → Covers c.cachedThroughSeq n) ∧
        ∀ n, Covers c.cachedThroughSeq n → Covers (s.cache code).cachedThroughSeq n ∨
          ∃ e ∈ s.entries.rows, n ≤ e.sequence := by
  unfold reconcileAccount Ledger.account? at h
  cases hfind : s.accounts.find? code with
  | none => rw [hfind] at h; cases h
  | some account =>
    rw [hfind] at h
    obtain rfl : account.code = code := Table.key_of_find? hfind
    obtain ⟨delta, through, hdelta, hsum, hold, hall, hbelow⟩ :=
      delta_eq s.entries.rows hfind (s.cache account.code).cachedThroughSeq
    obtain ⟨balance, hbalance, hunits⟩ := units_eq s.entries.rows hfind
    obtain ⟨_, hd, h⟩ := bind_eq_ok.1 h
    obtain rfl := Except.ok.inj (hdelta.symm.trans hd)
    obtain ⟨_, hc, h⟩ := bind_eq_ok.1 h
    obtain rfl := Except.ok.inj (hbalance.symm.trans hc)
    cases h
    have hsplit := sum_covered s.entries.rows account (s.cache account.code).cachedThroughSeq
    refine ⟨account, rfl, ?_, ?_, ?_⟩
    · show decide ((s.cache account.code).cachedBalance + delta = balance.units) = true ↔ _
      rw [decide_eq_true_iff]
      omega
    · intro hmatched
      rw [if_pos hmatched]
      rfl
    · intro c hmem
      split_ifs at hmem with hmatched
      · cases hmem
        refine ⟨?_, hold, hbelow⟩
        rw [balanceThrough_of_covers hall, ← hunits]
        exact of_decide_eq_true hmatched
      · cases hmem

end PaymentGateway
