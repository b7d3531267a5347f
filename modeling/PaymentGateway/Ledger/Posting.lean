import PaymentGateway.Database.Client
import PaymentGateway.Shared.Money

/-!
# Double-entry posting

`postPaymentCredit` writes the credit of one transfer: gross out of the merchant's holdings, net
to what the merchant is owed, and the fee, when there is one, to revenue. The entries balance
because `gross = net + fee`; the row type asks for the proof, and the checks of the database
provide it. Under an idempotency key that is already taken nothing is written.

**Theorem (`postPaymentCredit_eq_ok`).** A call that succeeds either finds the key and leaves the
database as it is, or writes one balanced transaction under the key whose gross amount is the one
it was given.
-/

namespace PaymentGateway

open Keyed Fallible

/-! ## Chart of accounts -/

/-- The kinds of account. -/
inductive LedgerAccountKind
  | gatewayHoldings | merchantHoldings | merchantPayable | customerInflow | customerRefund
  | feeRevenue | networkFeeExpense | suspense
  deriving DecidableEq, Repr

namespace LedgerAccountKind

def name : LedgerAccountKind → String
  | gatewayHoldings => "gateway_holdings"
  | merchantHoldings => "merchant_holdings"
  | merchantPayable => "merchant_payable"
  | customerInflow => "customer_inflow"
  | customerRefund => "customer_refund"
  | feeRevenue => "fee_revenue"
  | networkFeeExpense => "network_fee_expense"
  | suspense => "suspense"

def label : LedgerAccountKind → String
  | gatewayHoldings => "Gateway holdings"
  | merchantHoldings => "Merchant wallet holdings"
  | merchantPayable => "Merchant payable"
  | customerInflow => "Customer inflow"
  | customerRefund => "Customer refund"
  | feeRevenue => "Fee revenue"
  | networkFeeExpense => "Network fee expense"
  | suspense => "Suspense (uncredited receipts)"

end LedgerAccountKind

def ledgerAccountType : LedgerAccountKind → LedgerAccountType
  | .gatewayHoldings => .asset
  | .merchantHoldings => .asset
  | .merchantPayable => .liability
  | .customerInflow => .equity
  | .customerRefund => .equity
  | .feeRevenue => .revenue
  | .networkFeeExpense => .expense
  | .suspense => .liability

/-- Whether each merchant has an account of the kind. -/
def isMerchantScoped : LedgerAccountKind → Bool
  | .merchantHoldings | .merchantPayable => true
  | _ => false

structure AccountCodeParams where
  kind : LedgerAccountKind
  network : Network
  assetSymbol : String
  merchantId : Option String
  deriving DecidableEq, Repr

/-- The code in terms of its texts. An empty merchant id counts as none. -/
def accountCode (kind : LedgerAccountKind) (merchantId : Option String)
    (network assetSymbol : String) : Except Error String :=
  if isMerchantScoped kind then
    match merchantId.filter (· ≠ "") with
    | none => .error (.payment ("ledger account kind " ++ kind.name ++ " requires a merchantId"))
    | some merchantId =>
      .ok (kind.name ++ ":" ++ merchantId ++ ":" ++ network ++ ":" ++ assetSymbol)
  else if (merchantId.filter (· ≠ "")).isSome then
    .error (.payment ("ledger account kind " ++ kind.name ++
      " is platform-wide and takes no merchantId"))
  else
    .ok (kind.name ++ ":" ++ network ++ ":" ++ assetSymbol)

/-- A merchant is named exactly where the kind is scoped to merchants. -/
def ledgerAccountCode (params : AccountCodeParams) : Except Error String :=
  accountCode params.kind params.merchantId params.network.name params.assetSymbol

def ledgerAccountName (params : AccountCodeParams) : String :=
  params.kind.label ++ (params.merchantId.elim "" fun id => " (" ++ id ++ ")") ++ " - " ++
    params.assetSymbol ++ " on " ++ params.network.name

structure AccountRef where
  network : Network
  assetSymbol : String
  assetDecimals : Nat
  deriving DecidableEq, Repr

/-- Find or create the account of a kind, scope and asset. An empty merchant id counts as none. -/
def ensureAccount (db : Db) (kind : LedgerAccountKind) (ref : AccountRef)
    (merchantId : Option String) : Except Error (Db × LedgerAccount) := do
  let merchantId := merchantId.filter (· ≠ "")
  let params : AccountCodeParams := ⟨kind, ref.network, ref.assetSymbol, merchantId⟩
  let code ← ledgerAccountCode params
  match h : db.ledgerAccounts.find? code with
  | some account => return (db, account)
  | none =>
    let account : LedgerAccount := ⟨code, ledgerAccountName params, ledgerAccountType kind,
      merchantId, ref.assetSymbol, ref.assetDecimals, some ref.network⟩
    return ({ db with ledgerAccounts := db.ledgerAccounts.insert account h }, account)

/-! ## Posting -/

/-- What is posted for a credit. -/
structure PostPaymentCreditParams where
  merchantId : String
  invoiceId : String
  tokenTransferId : TransferKey
  network : Network
  assetSymbol : String
  assetDecimals : Nat
  grossAmount : Money
  feeBps : Int
  idempotencyKey : String
  deriving DecidableEq, Repr

/-- Whether the posting was new. -/
structure PostingResult where
  ledgerTransactionId : String
  alreadyPosted : Bool
  grossAmount : Money
  feeAmount : Money
  netAmount : Money
  deriving DecidableEq, Repr

/-- One leg. The database refuses an amount that is not positive and an entry in another asset
than its account's. -/
def createEntry (params : PostPaymentCreditParams) (account : LedgerAccount)
    (direction : LedgerDirection) (amount : Int) : Except Error LedgerEntry :=
  if h : 0 < amount then
    if account.assetSymbol = params.assetSymbol ∧ account.assetDecimals = params.assetDecimals then
      .ok ⟨account.code, direction, amount, params.assetSymbol, params.assetDecimals,
        params.invoiceId, params.tokenTransferId, h⟩
    else
      .error (.checkViolation "entry asset does not match account")
  else
    .error (.checkViolation "ledger_entries_amount_positive")

/-- The ledger transaction of a credit with its legs. -/
def creditPosting (params : PostPaymentCreditParams) (entries : List LedgerEntry)
    (balanced : LedgerBalanced entries) : LedgerTransaction where
  idempotencyKey := params.idempotencyKey
  type := "payment.credit"
  description := "Payment credited for invoice " ++ params.invoiceId
  invoiceId := some params.invoiceId
  tokenTransferId := some params.tokenTransferId
  entries := entries
  balanced := balanced

/-- The balance is checked when the database transaction commits. -/
def createPosting (db : Db) (params : PostPaymentCreditParams) (entries : List LedgerEntry) :
    Except Error Db :=
  if hb : LedgerBalanced entries then
    match hk : db.ledgerTransactions.find? (creditPosting params entries hb).idempotencyKey with
    | some _ => .error (.uniqueViolation "LedgerTransaction")
    | none => .ok { db with
        ledgerTransactions := db.ledgerTransactions.insert (creditPosting params entries hb) hk }
  else
    .error (.checkViolation "ledger_entries_balanced")

/-- The amount is positive, and the fee no more than all of it. -/
def assertPostable (params : PostPaymentCreditParams) : Except Error Unit :=
  if !params.grossAmount.isPositive then
    .error (.ledgerPosting "gross amount must be positive")
  else if params.feeBps < 0 ∨ params.feeBps > 10000 then
    .error (.ledgerPosting ("feeBps must be an integer in [0, 10000], got " ++
      toString params.feeBps))
  else
    .ok ()

/-- The fee leg. A zero fee omits it: the CHECK on entries wants a positive amount. -/
def feeLegs (db : Db) (params : PostPaymentCreditParams) (ref : AccountRef) (feeAmount : Money) :
    Except Error (Db × List LedgerEntry) :=
  if feeAmount.isPositive then do
    let (db, revenue) ← ensureAccount db .feeRevenue ref none
    let fee ← createEntry params revenue .credit feeAmount.units
    return (db, [fee])
  else
    .ok (db, [])

/-- A second posting under one key returns the first. -/
def postPaymentCredit (db : Db) (params : PostPaymentCreditParams) :
    Except Error (Db × PostingResult) := do
  assertPostable params
  -- The fee rounds down, so what is left of the split favours the merchant.
  let feeAmount ← params.grossAmount.percentageBps params.feeBps .floor
  let netAmount ← params.grossAmount.subtract feeAmount
  match db.ledgerTransactions.find? params.idempotencyKey with
  | some existing =>
    return (db, ⟨existing.idempotencyKey, true, params.grossAmount, feeAmount, netAmount⟩)
  | none =>
    let ref : AccountRef := ⟨params.network, params.assetSymbol, params.assetDecimals⟩
    let (db, holdings) ← ensureAccount db .merchantHoldings ref (some params.merchantId)
    let (db, payable) ← ensureAccount db .merchantPayable ref (some params.merchantId)
    let debit ← createEntry params holdings .debit params.grossAmount.units
    let credit ← createEntry params payable .credit netAmount.units
    let (db, fees) ← feeLegs db params ref feeAmount
    let db ← createPosting db params (debit :: credit :: fees)
    return (db, ⟨params.idempotencyKey, false, params.grossAmount, feeAmount, netAmount⟩)

/-! ## What a posting writes -/

variable {db db' : Db} {params : PostPaymentCreditParams}

theorem ensureAccount_eq_ok {kind : LedgerAccountKind} {ref : AccountRef}
    {merchantId : Option String} {account : LedgerAccount}
    (h : ensureAccount db kind ref merchantId = .ok (db', account)) :
    ∃ accounts, db' = { db with ledgerAccounts := accounts } := by
  obtain ⟨code, -, hmatch⟩ := bind_eq_ok.1 h
  split at hmatch
  · cases hmatch; exact ⟨_, rfl⟩
  · cases hmatch; exact ⟨_, rfl⟩

theorem createEntry_eq_ok {account : LedgerAccount} {direction : LedgerDirection} {amount : Int}
    {e : LedgerEntry} (h : createEntry params account direction amount = .ok e) :
    e.direction = direction ∧ e.amount = amount := by
  unfold createEntry at h
  split_ifs at h
  cases h
  exact ⟨rfl, rfl⟩

theorem createPosting_eq_ok {entries : List LedgerEntry}
    (h : createPosting db params entries = .ok db') :
    ∃ hb hk, db' = { db with
      ledgerTransactions := db.ledgerTransactions.insert (creditPosting params entries hb)
        hk } := by
  unfold createPosting at h
  split at h
  · next hb =>
    split at h
    · cases h
    · next hk => cases h; exact ⟨hb, hk, rfl⟩
  · cases h

theorem feeLegs_eq_ok {ref : AccountRef} {feeAmount : Money} {fees : List LedgerEntry}
    (h : feeLegs db params ref feeAmount = .ok (db', fees)) :
    (∀ e ∈ fees, e.direction = .credit) ∧
      ∃ accounts, db' = { db with ledgerAccounts := accounts } := by
  unfold feeLegs at h
  split at h
  · obtain ⟨⟨db1, revenue⟩, haccount, h⟩ := bind_eq_ok.1 h
    obtain ⟨fee, hfee, h⟩ := bind_eq_ok.1 h
    cases h
    refine ⟨?_, ensureAccount_eq_ok haccount⟩
    intro e he
    rw [List.mem_singleton.1 he]
    exact (createEntry_eq_ok hfee).1
  · cases h
    exact ⟨by simp, _, rfl⟩

/-- Only debits count toward the gross amount. -/
theorem gross_of_entries {debit : LedgerEntry} {credits : List LedgerEntry}
    (hd : debit.direction = .debit) (hc : ∀ e ∈ credits, e.direction = .credit) :
    (((debit :: credits).filter fun e => e.direction = .debit).map (·.amount)).sum =
      debit.amount := by
  have hnil : (credits.filter fun e => e.direction = .debit) = [] := by
    rw [List.filter_eq_nil_iff]
    intro e he
    simp [hc e he]
  rw [List.filter_cons_of_pos (by simp [hd]), hnil]
  simp

/-- A successful posting finds its key taken and writes nothing, or adds one transaction under
it that moves the gross amount. -/
theorem postPaymentCredit_eq_ok {result : PostingResult}
    (h : postPaymentCredit db params = .ok (db', result)) :
    ((db.ledgerTransactions.find? params.idempotencyKey).isSome = true ∧ db' = db ∧
      result.alreadyPosted = true) ∨
    ∃ (accounts : Table LedgerAccount (·.code)) (entries : List LedgerEntry)
      (hb : LedgerBalanced entries)
      (hk : db.ledgerTransactions.find? (creditPosting params entries hb).idempotencyKey = none),
      db' = { db with
        ledgerAccounts := accounts
        ledgerTransactions :=
          db.ledgerTransactions.insert (creditPosting params entries hb) hk } ∧
      (creditPosting params entries hb).grossAmount = params.grossAmount.units ∧
      result.alreadyPosted = false := by
  unfold postPaymentCredit at h
  obtain ⟨-, -, h⟩ := bind_eq_ok.1 h
  obtain ⟨feeAmount, -, h⟩ := bind_eq_ok.1 h
  obtain ⟨netAmount, -, h⟩ := bind_eq_ok.1 h
  cases hfind : db.ledgerTransactions.find? params.idempotencyKey with
  | some existing =>
    rw [hfind] at h
    cases h
    exact .inl ⟨rfl, rfl, rfl⟩
  | none =>
    rw [hfind] at h
    obtain ⟨⟨db1, holdings⟩, h1, h⟩ := bind_eq_ok.1 h
    obtain ⟨⟨db2, payable⟩, h2, h⟩ := bind_eq_ok.1 h
    obtain ⟨debit, hdebit, h⟩ := bind_eq_ok.1 h
    obtain ⟨credit, hcredit, h⟩ := bind_eq_ok.1 h
    obtain ⟨⟨db3, fees⟩, h3, h⟩ := bind_eq_ok.1 h
    obtain ⟨db4, h4, h⟩ := bind_eq_ok.1 h
    cases h
    obtain ⟨_, rfl⟩ := ensureAccount_eq_ok h1
    obtain ⟨_, rfl⟩ := ensureAccount_eq_ok h2
    obtain ⟨hfees, accounts, rfl⟩ := feeLegs_eq_ok h3
    obtain ⟨hb, hk, rfl⟩ := createPosting_eq_ok h4
    obtain ⟨hdirection, hgross⟩ := createEntry_eq_ok hdebit
    -- Whether or not there is a fee leg, the only debit is the first entry.
    have hcredits : ∀ e ∈ credit :: fees, e.direction = .credit := by
      intro e he
      rcases List.mem_cons.1 he with rfl | he
      · exact (createEntry_eq_ok hcredit).1
      · exact hfees e he
    exact .inr ⟨accounts, _, hb, hk, rfl, (gross_of_entries hdirection hcredits).trans hgross, rfl⟩

/-! ## What a posting reads

The ledger, and none of the tables that `beside` replaces. -/

theorem ensureAccount_beside (db other : Db) (kind : LedgerAccountKind) (ref : AccountRef)
    (merchantId : Option String) : ensureAccount (db.beside other) kind ref merchantId =
      (ensureAccount db kind ref merchantId).map fun r => (r.1.beside other, r.2) := by
  have hsame : (db.beside other).ledgerAccounts = db.ledgerAccounts := rfl
  unfold ensureAccount
  dsimp only
  cases ledgerAccountCode ⟨kind, ref.network, ref.assetSymbol, merchantId.filter (· ≠ "")⟩ with
  | error e => rfl
  | ok code =>
    rw [bind_ok, bind_ok]
    split
    · next account haccount =>
      split
      · next account' haccount' =>
        rw [hsame, haccount'] at haccount
        cases haccount
        rfl
      · next hnone =>
        rw [hsame, hnone] at haccount
        cases haccount
    · next hnone =>
      split
      · next account haccount =>
        rw [hsame, haccount] at hnone
        cases hnone
      · rfl

theorem createPosting_beside (db other : Db) (params : PostPaymentCreditParams)
    (entries : List LedgerEntry) : createPosting (db.beside other) params entries =
      (createPosting db params entries).map (·.beside other) := by
  have hsame : (db.beside other).ledgerTransactions = db.ledgerTransactions := rfl
  unfold createPosting
  split
  · split
    · next row hrow =>
      split
      · rfl
      · next hnone =>
        rw [hsame, hnone] at hrow
        cases hrow
    · next hnone =>
      split
      · next row hrow =>
        rw [hsame, hrow] at hnone
        cases hnone
      · rfl
  · rfl

theorem feeLegs_beside (db other : Db) (params : PostPaymentCreditParams) (ref : AccountRef)
    (feeAmount : Money) : feeLegs (db.beside other) params ref feeAmount =
      (feeLegs db params ref feeAmount).map fun r => (r.1.beside other, r.2) := by
  unfold feeLegs
  split
  · rw [ensureAccount_beside]
    refine map_bind_map fun r _ => ?_
    obtain ⟨db1, revenue⟩ := r
    dsimp only
    cases createEntry params revenue .credit feeAmount.units <;> rfl
  · rfl

theorem postPaymentCredit_beside (db other : Db) (params : PostPaymentCreditParams) :
    postPaymentCredit (db.beside other) params =
      (postPaymentCredit db params).map fun r => (r.1.beside other, r.2) := by
  have hsame : (db.beside other).ledgerTransactions = db.ledgerTransactions := rfl
  unfold postPaymentCredit
  cases assertPostable params with
  | error e => rfl
  | ok u =>
    cases params.grossAmount.percentageBps params.feeBps .floor with
    | error e => rfl
    | ok feeAmount =>
      simp only [bind_ok]
      cases params.grossAmount.subtract feeAmount with
      | error e => rfl
      | ok netAmount =>
        simp only [bind_ok, hsame]
        cases db.ledgerTransactions.find? params.idempotencyKey with
        | some existing => rfl
        | none =>
          dsimp only
          rw [ensureAccount_beside]
          refine map_bind_map fun r _ => ?_
          obtain ⟨db1, holdings⟩ := r
          dsimp only
          rw [ensureAccount_beside]
          refine map_bind_map fun r _ => ?_
          obtain ⟨db2, payable⟩ := r
          dsimp only
          cases createEntry params holdings .debit params.grossAmount.units with
          | error e => rfl
          | ok debit =>
            cases createEntry params payable .credit netAmount.units with
            | error e => rfl
            | ok credit =>
              simp only [bind_ok]
              rw [feeLegs_beside]
              refine map_bind_map fun r _ => ?_
              obtain ⟨db3, fees⟩ := r
              dsimp only
              rw [createPosting_beside]
              exact map_bind_map fun db4 _ => rfl

/-! ## Failures -/

theorem ledgerAccountCode_plain (params : AccountCodeParams) :
    Plain (ledgerAccountCode params) := by
  unfold ledgerAccountCode accountCode
  split
  · split
    · exact avoids_error not_false
    · exact avoids_ok _
  · split
    · exact avoids_error not_false
    · exact avoids_ok _

theorem ensureAccount_plain (db : Db) (kind : LedgerAccountKind) (ref : AccountRef)
    (merchantId : Option String) : Plain (ensureAccount db kind ref merchantId) := by
  apply (ledgerAccountCode_plain _).bind
  intro code _
  split <;> exact avoids_ok _

theorem createEntry_plain (params : PostPaymentCreditParams) (account : LedgerAccount)
    (direction : LedgerDirection) (amount : Int) :
    Plain (createEntry params account direction amount) := by
  unfold createEntry
  split_ifs
  · exact avoids_ok _
  · exact avoids_error not_false
  · exact avoids_error not_false

theorem createPosting_plain (db : Db) (params : PostPaymentCreditParams)
    (entries : List LedgerEntry) : Plain (createPosting db params entries) := by
  unfold createPosting
  split
  · split
    · refine avoids_error ?_
      show ¬ "LedgerTransaction" = "WebhookEvent"
      decide
    · exact avoids_ok _
  · exact avoids_error not_false

theorem feeLegs_plain (db : Db) (params : PostPaymentCreditParams) (ref : AccountRef)
    (feeAmount : Money) : Plain (feeLegs db params ref feeAmount) := by
  unfold feeLegs
  split
  · apply (ensureAccount_plain _ _ _ _).bind
    intro r _
    exact (createEntry_plain _ _ _ _).bind fun _ _ => avoids_ok _
  · exact avoids_ok _

theorem assertPostable_plain (params : PostPaymentCreditParams) :
    Plain (assertPostable params) := by
  unfold assertPostable
  split_ifs
  · exact avoids_error not_false
  · exact avoids_error not_false
  · exact avoids_ok _

theorem postPaymentCredit_plain (db : Db) (params : PostPaymentCreditParams) :
    Plain (postPaymentCredit db params) := by
  apply (assertPostable_plain _).bind
  intro _ _
  apply (Money.percentageBps_plain _ _ _).bind
  intro feeAmount _
  apply (Money.subtract_plain _ _).bind
  intro netAmount _
  split
  · exact avoids_ok _
  · apply (ensureAccount_plain _ _ _ _).bind
    intro holdings _
    apply (ensureAccount_plain _ _ _ _).bind
    intro payable _
    apply (createEntry_plain _ _ _ _).bind
    intro debit _
    apply (createEntry_plain _ _ _ _).bind
    intro credit _
    apply (feeLegs_plain _ _ _ _).bind
    intro fees _
    exact (createPosting_plain _ _ _).bind fun _ _ => avoids_ok _

end PaymentGateway
