import PaymentGateway.Ledger.Balances
import PaymentGateway.Shared.Network

/-!
# The balances a merchant is shown

`getBalances` reads the merchant's liability accounts, then sums the entries of each. The cached
balance of the account row is not read. The two reads are two queries, so they may find the
database in two states.
-/

namespace PaymentGateway.BalanceService

structure BalanceFilters where
  network : Option String
  asset : Option String
  deriving DecidableEq, Repr

structure BalanceEntry where
  network : String
  asset : String
  available : String
  deriving DecidableEq, Repr

/-- An empty text counts as none. -/
def parseNetworkFilter (raw : Option String) : Except Error (Option Network) :=
  match raw.filter (· ≠ "") with
  | none => .ok none
  | some raw =>
    match networkNamed (toUpperCase raw) with
    | none => .error (.app 400 ("unsupported network: " ++ raw))
    | some network => .ok (some network)

/-- The rows of the first query. -/
def findAccounts (merchantId : String) (network : Option Network) (asset : Option String)
    (db : Db) : List LedgerAccount :=
  db.ledgerAccounts.rows.filter fun a =>
    decide (a.merchantId = some merchantId ∧ a.type = .liability) &&
      network.all (fun n => a.network = some n) &&
      (asset.filter (· ≠ "")).all fun symbol => a.assetSymbol = toUpperCase symbol

def toMoney (balance : ComputedBalance) : Money :=
  Money.fromUnits balance.units balance.assetSymbol balance.assetDecimals

def balanceEntry (db : Db) (account : LedgerAccount) : Except Error BalanceEntry := do
  let computed ← computeAccountBalance db.ledgerAccounts db.entryRows account.code
  let available ← (toMoney computed).toDecimalString
  return ⟨(account.network.map (·.name)).getD "UNKNOWN", account.assetSymbol, available⟩

/-- The accounts are those of one state, their entries those of another. -/
def getBalances (merchantId : String) (filters : BalanceFilters) (found read : Db) :
    Except Error (List BalanceEntry) := do
  let network ← parseNetworkFilter filters.network
  (findAccounts merchantId network filters.asset found).mapM (balanceEntry read)

end PaymentGateway.BalanceService
