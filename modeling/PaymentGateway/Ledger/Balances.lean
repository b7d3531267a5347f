import Mathlib.Data.List.Sort
import PaymentGateway.Lib.DoubleEntry
import PaymentGateway.Ledger.Posting

/-!
# Balances

The balance of an account is the sum of its entries, signed by the side on which the account
grows. `computeAccountBalance` sums all entries it can see; `computeBalanceDelta` sums those
after a sequence number. Both also report the last sequence number they have summed, for the
cache. The serial column numbers the entries in the order of their insertion (`entriesOf`).

The two sums do not depend on the order they go in: `units_eq` and `delta_eq` say what they are.
The sequence number reported with the second covers everything summed and nothing above the last
entry (`Covers`).
-/

namespace PaymentGateway

open Keyed Fallible

/-- Whether a debit increases the balance of such an account. -/
def debitIncreases (type : LedgerAccountType) : Bool :=
  decide (type = .asset) || decide (type = .expense)

/-- What the balance functions select of an entry. -/
structure EntryRow where
  sequence : Nat
  accountCode : String
  direction : LedgerDirection
  amount : Int
  deriving DecidableEq, Repr

/-- The amount as the account's balance counts it. -/
def signedAmount (normalIsDebit : Bool) (e : EntryRow) : Int :=
  if decide (e.direction = .debit) == normalIsDebit then e.amount else -e.amount

/-- The loop both functions run: the running sum, and the last sequence number. -/
def sumEntries (normalIsDebit : Bool) (entries : List EntryRow) (through : Option Nat) :
    Int × Option Nat :=
  entries.foldl (fun acc e => (acc.1 + signedAmount normalIsDebit e, some e.sequence)) (0, through)

/-- The entries of an account, in the order of their sequence numbers. -/
def entriesOfAccount (entries : List EntryRow) (code : String) : List EntryRow :=
  (entries.filter fun e => e.accountCode = code).insertionSort fun a b => a.sequence ≤ b.sequence

structure ComputedBalance where
  accountCode : String
  /-- Signed: positive means a balance on the normal side of this account type. -/
  units : Int
  assetSymbol : String
  assetDecimals : Nat
  /-- Highest sequence folded into this sum. -/
  throughSequence : Option Nat
  entryCount : Nat
  deriving DecidableEq, Repr

def computeAccountBalance (accounts : Table LedgerAccount (·.code)) (entries : List EntryRow)
    (code : String) : Except Error ComputedBalance :=
  match accounts.find? code with
  | none => .error (.recordNotFound "LedgerAccount")
  | some account =>
    let own := entriesOfAccount entries code
    let sum := sumEntries (debitIncreases account.type) own none
    .ok ⟨code, sum.1, account.assetSymbol, account.assetDecimals, sum.2, own.length⟩

/-- Only the entries strictly after a sequence number. -/
def computeBalanceDelta (accounts : Table LedgerAccount (·.code)) (entries : List EntryRow)
    (code : String) (sinceSequence : Option Nat) : Except Error (Int × Option Nat) :=
  match accounts.find? code with
  | none => .error (.recordNotFound "LedgerAccount")
  | some account =>
    .ok (sumEntries (debitIncreases account.type)
      ((entriesOfAccount entries code).filter fun e => sinceSequence.all (· < e.sequence))
      sinceSequence)

/-- The rows of `ledger_entries`. -/
def Db.ledgerEntries (db : Db) : List LedgerEntry :=
  db.ledgerTransactions.rows.flatMap (·.entries)

def Db.entryRows (db : Db) : List EntryRow :=
  db.ledgerEntries.zipIdx.map fun p => ⟨p.2 + 1, p.1.accountCode, p.1.direction, p.1.amount⟩

/-! ## What the loop sums -/

theorem sumEntries_fst (normalIsDebit : Bool) (entries : List EntryRow) (through : Option Nat) :
    (sumEntries normalIsDebit entries through).1 =
      (entries.map (signedAmount normalIsDebit)).sum := by
  have hloop : ∀ (entries : List EntryRow) (acc : Int × Option Nat),
      (entries.foldl (fun acc e => (acc.1 + signedAmount normalIsDebit e, some e.sequence))
        acc).1 = acc.1 + (entries.map (signedAmount normalIsDebit)).sum := by
    intro entries
    induction entries with
    | nil => simp
    | cons e entries ih =>
      intro acc
      rw [List.foldl_cons, ih, List.map_cons, List.sum_cons]
      omega
  rw [sumEntries, hloop, zero_add]

theorem entriesOfAccount_perm (entries : List EntryRow) (code : String) :
    (entriesOfAccount entries code).Perm (entries.filter fun e => e.accountCode = code) :=
  List.perm_insertionSort _ _

/-- The balance of an account is the signed sum of its entries. -/
theorem units_eq {accounts : Table LedgerAccount (·.code)} (entries : List EntryRow)
    {code : String} {account : LedgerAccount} (h : accounts.find? code = some account) :
    ∃ balance, computeAccountBalance accounts entries code = .ok balance ∧
      balance.units = ((entries.filter fun e => e.accountCode = code).map
        (signedAmount (debitIncreases account.type))).sum := by
  unfold computeAccountBalance
  rw [h]
  refine ⟨_, rfl, ?_⟩
  rw [sumEntries_fst]
  exact ((entriesOfAccount_perm entries code).map _).sum_eq

/-- A watermark covers the sequence numbers up to it, and none when it is not set. -/
def Covers (through : Option Nat) (n : Nat) : Prop := ∃ m ∈ through, n ≤ m

instance (through : Option Nat) (n : Nat) : Decidable (Covers through n) :=
  inferInstanceAs (Decidable (∃ m ∈ through, n ≤ m))

theorem covers_some {m n : Nat} : Covers (some m) n ↔ n ≤ m := by simp [Covers]

theorem not_covers_none (n : Nat) : ¬ Covers none n := by simp [Covers]

theorem all_lt_iff {through : Option Nat} {n : Nat} :
    through.all (· < n) = true ↔ ¬ Covers through n := by
  cases through with
  | none => simp [not_covers_none]
  | some m => simp [covers_some]

theorem sumEntries_snd (normalIsDebit : Bool) (entries : List EntryRow) (through : Option Nat) :
    (sumEntries normalIsDebit entries through).2 =
      (entries.getLast?.map (·.sequence)).or through := by
  rcases List.eq_nil_or_concat entries with rfl | ⟨front, last, rfl⟩
  · rfl
  · simp [sumEntries]

theorem entriesOfAccount_sorted (entries : List EntryRow) (code : String) :
    (entriesOfAccount entries code).Pairwise fun a b => a.sequence ≤ b.sequence := by
  have htotal : Std.Total fun a b : EntryRow => a.sequence ≤ b.sequence :=
    ⟨fun a b => Nat.le_total a.sequence b.sequence⟩
  have htrans : IsTrans EntryRow fun a b => a.sequence ≤ b.sequence :=
    ⟨fun _ _ _ => Nat.le_trans⟩
  exact List.pairwise_insertionSort _ _

theorem mem_entriesOfAccount {entries : List EntryRow} {code : String} {e : EntryRow} :
    e ∈ entriesOfAccount entries code ↔ e ∈ entries ∧ e.accountCode = code := by
  rw [(entriesOfAccount_perm entries code).mem_iff]
  simp

/-- The new watermark covers what the old one does and what is summed, and nothing above that. -/
theorem covers_sumEntries (normalIsDebit : Bool) {entries : List EntryRow} {since : Option Nat}
    (hsorted : entries.Pairwise fun a b => a.sequence ≤ b.sequence)
    (hnew : ∀ e ∈ entries, ¬ Covers since e.sequence) :
    (∀ n, Covers since n → Covers (sumEntries normalIsDebit entries since).2 n) ∧
      (∀ e ∈ entries, Covers (sumEntries normalIsDebit entries since).2 e.sequence) ∧
      ∀ n, Covers (sumEntries normalIsDebit entries since).2 n →
        Covers since n ∨ ∃ e ∈ entries, n ≤ e.sequence := by
  rw [sumEntries_snd]
  rcases List.eq_nil_or_concat entries with rfl | ⟨front, last, rfl⟩
  · exact ⟨fun n hn => hn, fun e he => absurd he List.not_mem_nil, fun n hn => .inl hn⟩
  · have hthrough : ((front.concat last).getLast?.map (·.sequence)).or since =
        some last.sequence := by simp
    simp only [List.concat_eq_append] at hsorted hnew hthrough ⊢
    have hlast : last ∈ front ++ [last] := by simp
    rw [hthrough]
    refine ⟨?_, fun e he => ?_, fun n hn => .inr ⟨last, hlast, covers_some.1 hn⟩⟩
    · rintro n ⟨m, hm, hle⟩
      refine covers_some.2 (hle.trans ?_)
      by_contra hlt
      exact hnew last hlast ⟨m, hm, Nat.le_of_not_le hlt⟩
    · rcases List.mem_append.1 he with hfront | hend
      · exact covers_some.2 ((List.pairwise_append.1 hsorted).2.2 e hfront last (by simp))
      · rw [List.mem_singleton.1 hend]
        exact covers_some.2 le_rfl

/-- What the delta sums are the entries that the watermark does not cover, and the new watermark
covers all entries of the account. -/
theorem delta_eq {accounts : Table LedgerAccount (·.code)} (entries : List EntryRow)
    {code : String} {account : LedgerAccount} (h : accounts.find? code = some account)
    (since : Option Nat) :
    ∃ delta through, computeBalanceDelta accounts entries code since = .ok (delta, through) ∧
      delta = ((entries.filter fun e => e.accountCode = code ∧ ¬ Covers since e.sequence).map
        (signedAmount (debitIncreases account.type))).sum ∧
      (∀ n, Covers since n → Covers through n) ∧
      (∀ e ∈ entries, e.accountCode = code → Covers through e.sequence) ∧
      ∀ n, Covers through n → Covers since n ∨ ∃ e ∈ entries, n ≤ e.sequence := by
  have hmem : ∀ e, e ∈ (entriesOfAccount entries code).filter
      (fun e => since.all (· < e.sequence)) ↔
      (e ∈ entries ∧ e.accountCode = code) ∧ ¬ Covers since e.sequence := by
    intro e
    rw [List.mem_filter, mem_entriesOfAccount, all_lt_iff]
  obtain ⟨hold, hnew, hbelow⟩ := covers_sumEntries (debitIncreases account.type)
    ((entriesOfAccount_sorted entries code).filter fun e => since.all (· < e.sequence))
    fun e he => ((hmem e).1 he).2
  refine ⟨(sumEntries (debitIncreases account.type) ((entriesOfAccount entries code).filter
      fun e => since.all (· < e.sequence)) since).1, _, ?_, ?_, hold, ?_, ?_⟩
  · unfold computeBalanceDelta
    rw [h]
  · rw [sumEntries_fst]
    have hperm := ((entriesOfAccount_perm entries code).filter
      fun e => since.all (· < e.sequence)).map (signedAmount (debitIncreases account.type))
    rw [hperm.sum_eq, List.filter_filter]
    congr 2
    refine List.filter_congr fun e _ => ?_
    rw [Bool.eq_iff_iff, Bool.and_eq_true, all_lt_iff, decide_eq_true_iff, decide_eq_true_iff,
      and_comm]
  · intro e he hcode
    by_cases hcovered : Covers since e.sequence
    · exact hold _ hcovered
    · exact hnew e ((hmem e).2 ⟨⟨he, hcode⟩, hcovered⟩)
  · intro n hn
    rcases hbelow n hn with hcovered | ⟨e, he, hle⟩
    · exact .inl hcovered
    · exact .inr ⟨e, ((hmem e).1 he).1.1, hle⟩

/-! ## Entries as legs -/

/-- An entry as a leg of double entry, on the account of its code. -/
def LedgerEntry.leg (e : LedgerEntry) : DoubleEntry.Leg String Int :=
  ⟨e.accountCode, decide (e.direction = .debit), e.amount⟩

def LedgerTransaction.legs (p : LedgerTransaction) : List (DoubleEntry.Leg String Int) :=
  p.entries.map LedgerEntry.leg

/-- The postings of the ledger. -/
def Db.postings (db : Db) : List (List (DoubleEntry.Leg String Int)) :=
  db.ledgerTransactions.rows.map LedgerTransaction.legs

theorem flatten_postings (db : Db) : db.postings.flatten = db.ledgerEntries.map LedgerEntry.leg := by
  rw [Db.ledgerEntries, List.map_flatMap, List.flatMap_def]
  rfl

/-- The balance `computeAccountBalance` returns, 0 for an account that does not exist. -/
def Db.balanceOf (db : Db) (code : String) : Int :=
  match computeAccountBalance db.ledgerAccounts db.entryRows code with
  | .ok balance => balance.units
  | .error _ => 0

/-- The amount of an entry as the balance of a debit account counts it. -/
theorem signedAmount_leg (normalIsDebit : Bool) (n : Nat) (e : LedgerEntry) :
    signedAmount normalIsDebit ⟨n, e.accountCode, e.direction, e.amount⟩ =
      if normalIsDebit then e.leg.signed else -e.leg.signed := by
  cases hd : e.direction <;> cases normalIsDebit <;>
    simp [signedAmount, LedgerEntry.leg, DoubleEntry.Leg.signed, hd]

/-- Numbering the entries does not change what an account's entries sum to. -/
theorem sum_entryRows (normalIsDebit : Bool) (code : String) (entries : List LedgerEntry)
    (k : Nat) :
    ((((entries.zipIdx k).map fun p => (⟨p.2 + 1, p.1.accountCode, p.1.direction, p.1.amount⟩ :
        EntryRow)).filter fun e => e.accountCode = code).map (signedAmount normalIsDebit)).sum =
      if normalIsDebit then DoubleEntry.net (entries.map LedgerEntry.leg) code
      else -DoubleEntry.net (entries.map LedgerEntry.leg) code := by
  induction entries generalizing k with
  | nil => cases normalIsDebit <;> rfl
  | cons e entries ih =>
    have hleg : e.leg.account = e.accountCode := rfl
    have hnet : DoubleEntry.net ((e :: entries).map LedgerEntry.leg) code =
        (if e.accountCode = code then e.leg.signed else 0) +
          DoubleEntry.net (entries.map LedgerEntry.leg) code :=
      DoubleEntry.netOn_cons _ _
    rw [List.zipIdx_cons, List.map_cons, hnet]
    by_cases hcode : e.accountCode = code
    · rw [List.filter_cons_of_pos (by simpa using hcode), List.map_cons, List.sum_cons, ih,
        signedAmount_leg, if_pos hcode]
      cases normalIsDebit
      · simp only [Bool.false_eq_true, if_false]
        omega
      · simp only [if_true]
    · rw [List.filter_cons_of_neg (by simpa using hcode), ih, if_neg hcode, zero_add]

/-- The balance of an account is its net, turned to its normal side. -/
theorem balanceOf_eq {db : Db} {code : String} {account : LedgerAccount}
    (h : db.ledgerAccounts.find? code = some account) :
    db.balanceOf code = if debitIncreases account.type then DoubleEntry.net db.postings.flatten code
      else -DoubleEntry.net db.postings.flatten code := by
  obtain ⟨balance, hbalance, hunits⟩ := units_eq db.entryRows h
  rw [Db.balanceOf, hbalance, flatten_postings]
  exact hunits.trans (sum_entryRows _ code db.ledgerEntries 0)

end PaymentGateway
