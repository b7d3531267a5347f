import PaymentGateway.Ledger.Identity

/-!
# The legs of a credit

**Theorem (`credit_posted_iff`).** In every database that calls of `ensureAccount` and
`postPaymentCredit` leave, and for every positive gross amount and every fee rate that the merchants
table admits, a credit is posted with the legs that are not zero if and only if its key is taken or
the rate is below 10000 bps.

The calls keep to one number of decimals for each asset of a network (`Denominated`), so that an
account that is found has the decimals that were asked for. The fee is below the gross amount
exactly when the rate is below 10000 bps; at 10000 bps nothing is left for the merchant, the leg is
written all the same, and the CHECK on entries refuses it.
-/

namespace PaymentGateway

open Keyed Fallible Transactional

variable {decimals : Network → String → Nat} {db db' : Db} {params : PostPaymentCreditParams}

/-! ## One number of decimals -/

/-- A symbol without a colon, with the decimals of the asset. -/
structure AccountRef.Denominated (decimals : Network → String → Nat) (ref : AccountRef) :
    Prop where
  symbol : ':' ∉ ref.assetSymbol.toList
  decimals_eq : ref.assetDecimals = decimals ref.network ref.assetSymbol

def PostPaymentCreditParams.ref (params : PostPaymentCreditParams) : AccountRef :=
  ⟨params.network, params.assetSymbol, params.assetDecimals⟩

/-- A credit of a merchant. -/
structure PostPaymentCreditParams.Denominated (decimals : Network → String → Nat)
    (params : PostPaymentCreditParams) : Prop where
  merchant : params.merchantId ≠ ""
  ref : params.ref.Denominated decimals

def LedgerCall.Denominated (decimals : Network → String → Nat) : LedgerCall → Prop
  | .ensureAccount _ ref _ => ref.Denominated decimals
  | .postPaymentCredit params => params.Denominated decimals

/-- The listed assets can be called for: no symbol has a colon, and a symbol has one number of
decimals on a network. -/
theorem assetList_symbols : ∀ a ∈ assetList, ':' ∉ a.symbol.toList ∧
    (findAsset a.network a.symbol).map (·.decimals) = some a.decimals := by decide +kernel

/-- Every account is of a kind, for an asset of a network, with the decimals of the asset. -/
def DenominatedAccounts (decimals : Network → String → Nat)
    (accounts : Table LedgerAccount (·.code)) : Prop :=
  ∀ a ∈ accounts, ∃ kind network, IsAccount kind network a.assetSymbol a ∧
    AccountRef.Denominated decimals ⟨network, a.assetSymbol, a.assetDecimals⟩

/-- A code determines its last field. -/
theorem code_symbol {params params' : AccountCodeParams} {code : String}
    (h : ledgerAccountCode params = .ok code) (h' : ledgerAccountCode params' = .ok code)
    (hsymbol : ':' ∉ params.assetSymbol.toList) (hsymbol' : ':' ∉ params'.assetSymbol.toList) :
    params.assetSymbol = params'.assetSymbol := by
  obtain ⟨scope, hcode, -⟩ := toList_code h
  obtain ⟨scope', hcode', -⟩ := toList_code h'
  have hlist := hcode.symm.trans hcode'
  have hlast : ∀ kind scope network symbol : List Char,
      kind ++ ':' :: (scope ++ (network ++ ':' :: symbol)) =
        (kind ++ ':' :: (scope ++ network)) ++ ':' :: symbol := by simp
  rw [hlast, hlast] at hlist
  exact String.toList_injective (Separated.append_right hsymbol hsymbol' hlist).2

/-- An account that can be named is found or created, with the decimals that were asked for. -/
theorem ensureAccount_denominated {kind : LedgerAccountKind} {ref : AccountRef}
    {merchantId : Option String} {code : String}
    (hc : DenominatedAccounts decimals db.ledgerAccounts) (href : ref.Denominated decimals)
    (hcode : ledgerAccountCode ⟨kind, ref.network, ref.assetSymbol,
      merchantId.filter (· ≠ "")⟩ = .ok code) :
    ∃ accounts account,
      ensureAccount db kind ref merchantId = .ok ({ db with ledgerAccounts := accounts }, account) ∧
      DenominatedAccounts decimals accounts ∧ (∀ a ∈ db.ledgerAccounts, a ∈ accounts) ∧
      account ∈ accounts ∧ IsAccount kind ref.network ref.assetSymbol account ∧
      account.assetDecimals = ref.assetDecimals := by
  unfold ensureAccount
  simp only [hcode, bind_ok]
  split
  · next found hfound =>
    obtain ⟨hmem, hkey⟩ := Table.find?_eq_some.1 hfound
    obtain ⟨kind', network', his, hdenominated⟩ := hc found hmem
    have hfoundcode := his.code_eq
    rw [hkey] at hfoundcode
    have hkind : kind' = kind := code_kind hfoundcode hcode
    have hsymbol : found.assetSymbol = ref.assetSymbol :=
      code_symbol hfoundcode hcode hdenominated.symbol href.symbol
    have hnetwork : network' = ref.network := code_network hfoundcode hcode hsymbol
    have hdecimals := hdenominated.decimals_eq
    simp only [hnetwork, hsymbol, ← href.decimals_eq] at hdecimals
    rw [hkind, hnetwork, hsymbol] at his
    exact ⟨_, found, rfl, hc, fun a ha => ha, hmem, his, hdecimals⟩
  · next hfree =>
    refine ⟨_, _, rfl, fun a ha => ?_, fun a ha => Table.mem_insert.2 (.inl ha),
      Table.mem_insert.2 (.inr rfl), ⟨rfl, rfl, hcode⟩, rfl⟩
    rcases Table.mem_insert.1 ha with ha | rfl
    · exact hc a ha
    · exact ⟨kind, ref.network, ⟨rfl, rfl, hcode⟩, href⟩

/-- The codes of the three accounts of a credit. -/
theorem creditCode_isOk (kind : LedgerAccountKind) (network : Network) (symbol : String)
    {merchantId : Option String} (h : (merchantId.filter (· ≠ "")).isSome = isMerchantScoped kind) :
    ∃ code, ledgerAccountCode ⟨kind, network, symbol, merchantId.filter (· ≠ "")⟩ = .ok code := by
  have hfilter : (merchantId.filter (· ≠ "")).filter (· ≠ "") = merchantId.filter (· ≠ "") := by
    simp [Option.filter_filter]
  unfold ledgerAccountCode accountCode
  dsimp only
  rw [hfilter]
  cases hmerchant : merchantId.filter (· ≠ "") with
  | none =>
    rw [hmerchant] at h
    exact ⟨_, by rw [← h]; rfl⟩
  | some id =>
    rw [hmerchant] at h
    exact ⟨_, by rw [← h]; rfl⟩

theorem Denominated.ensureAccount {kind : LedgerAccountKind} {ref : AccountRef}
    {merchantId : Option String} {account : LedgerAccount}
    (hc : DenominatedAccounts decimals db.ledgerAccounts) (href : ref.Denominated decimals)
    (h : ensureAccount db kind ref merchantId = .ok (db', account)) :
    DenominatedAccounts decimals db'.ledgerAccounts := by
  obtain ⟨code, hcode, -⟩ := bind_eq_ok.1 h
  obtain ⟨accounts, account', hok, haccounts, -⟩ := ensureAccount_denominated hc href hcode
  rw [hok] at h
  cases h
  exact haccounts

theorem Denominated.postPaymentCredit {result : PostingResult}
    (hc : DenominatedAccounts decimals db.ledgerAccounts) (href : params.ref.Denominated decimals)
    (h : postPaymentCredit db params = .ok (db', result)) :
    DenominatedAccounts decimals db'.ledgerAccounts := by
  obtain ⟨-, -, h⟩ := bind_eq_ok.1 h
  obtain ⟨feeAmount, -, h⟩ := bind_eq_ok.1 h
  obtain ⟨netAmount, -, h⟩ := bind_eq_ok.1 h
  split at h
  · cases h
    exact hc
  · obtain ⟨⟨db1, holdings⟩, h1, h⟩ := bind_eq_ok.1 h
    obtain ⟨⟨db2, payable⟩, h2, h⟩ := bind_eq_ok.1 h
    obtain ⟨debit, -, h⟩ := bind_eq_ok.1 h
    obtain ⟨credit, -, h⟩ := bind_eq_ok.1 h
    obtain ⟨⟨db3, fees⟩, h3, h⟩ := bind_eq_ok.1 h
    obtain ⟨db4, h4, h⟩ := bind_eq_ok.1 h
    cases h
    have hc1 := Denominated.ensureAccount hc href h1
    have hc2 := Denominated.ensureAccount hc1 href h2
    have hc3 : DenominatedAccounts decimals db3.ledgerAccounts := by
      unfold feeLegs at h3
      split at h3
      · obtain ⟨⟨db5, revenue⟩, hrevenue, h3⟩ := bind_eq_ok.1 h3
        obtain ⟨fee, -, h3⟩ := bind_eq_ok.1 h3
        cases h3
        exact Denominated.ensureAccount hc2 href hrevenue
      · cases h3
        exact hc2
    obtain ⟨_, _, rfl⟩ := createPosting_eq_ok h4
    exact hc3

/-- Calls keep to the decimals. -/
theorem Denominated.step {call : LedgerCall}
    (hc : DenominatedAccounts decimals db.ledgerAccounts) (hcall : call.Denominated decimals)
    (h : call.apply db = .ok db') : DenominatedAccounts decimals db'.ledgerAccounts := by
  cases call with
  | ensureAccount kind ref merchantId =>
    cases hr : PaymentGateway.ensureAccount db kind ref merchantId with
    | error e => rw [LedgerCall.apply, hr] at h; cases h
    | ok r =>
      rw [LedgerCall.apply, hr] at h
      cases h
      exact Denominated.ensureAccount hc hcall hr
  | postPaymentCredit params =>
    cases hr : PaymentGateway.postPaymentCredit db params with
    | error e => rw [LedgerCall.apply, hr] at h; cases h
    | ok r =>
      rw [LedgerCall.apply, hr] at h
      cases h
      exact Denominated.postPaymentCredit hc hcall.ref hr

/-! ## The split -/

/-- The fee of a gross amount, rounded down. -/
def feeUnits (params : PostPaymentCreditParams) : Int :=
  params.grossAmount.units * params.feeBps / 10000

def netUnits (params : PostPaymentCreditParams) : Int := params.grossAmount.units - feeUnits params

/-- What the callers of the merchants table can ask for. -/
structure Admissible (params : PostPaymentCreditParams) : Prop where
  gross : 0 < params.grossAmount.units
  rate_nonneg : 0 ≤ params.feeBps
  rate_le : params.feeBps ≤ 10000

theorem Admissible.fee_nonneg (h : Admissible params) : 0 ≤ feeUnits params :=
  Int.ediv_nonneg (Int.mul_nonneg h.gross.le h.rate_nonneg) (by decide)

/-- Something is left for the merchant exactly below the full rate. -/
theorem Admissible.net_pos_iff (h : Admissible params) :
    0 < netUnits params ↔ params.feeBps < 10000 := by
  have hgross := h.gross
  unfold netUnits feeUnits
  constructor
  · intro hnet
    by_contra hrate
    have hfull : params.feeBps = 10000 := le_antisymm h.rate_le (not_lt.1 hrate)
    rw [hfull, Int.mul_ediv_cancel _ (by decide)] at hnet
    omega
  · intro hrate
    have hlt : params.grossAmount.units * params.feeBps < params.grossAmount.units * 10000 :=
      Int.mul_lt_mul_of_pos_left hrate hgross
    have hfee := Int.ediv_lt_of_lt_mul (by decide) hlt
    omega

/-- The legs of a credit: those of the three that are not zero. -/
def creditLegs (params : PostPaymentCreditParams) :
    List (LedgerAccountKind × LedgerDirection × Int) :=
  [(.merchantHoldings, .debit, params.grossAmount.units),
    (.merchantPayable, .credit, netUnits params),
    (.feeRevenue, .credit, feeUnits params)].filter fun leg => leg.2.2 ≠ 0

/-- An entry is this leg, on an account of its kind for the network and asset of the credit. -/
structure IsLeg (accounts : Table LedgerAccount (·.code)) (params : PostPaymentCreditParams)
    (leg : LedgerAccountKind × LedgerDirection × Int) (e : LedgerEntry) : Prop where
  direction : e.direction = leg.2.1
  amount : e.amount = leg.2.2
  positive : 0 < e.amount
  symbol : e.assetSymbol = params.assetSymbol
  decimals : e.assetDecimals = params.assetDecimals
  account : ∃ a, accounts.find? e.accountCode = some a ∧
    IsAccount leg.1 params.network params.assetSymbol a

/-- The call succeeds with the split. Unless the key was taken, a balanced posting with the legs is
stored under it. -/
def CreditPosted (db : Db) (params : PostPaymentCreditParams) : Prop :=
  ∃ db' result, postPaymentCredit db params = .ok (db', result) ∧
    result.grossAmount = params.grossAmount ∧ result.feeAmount.units = feeUnits params ∧
    result.netAmount.units = netUnits params ∧
    ((db.ledgerTransactions.find? params.idempotencyKey).isSome = true ∧ db' = db ∨
      ∃ p, db'.ledgerTransactions.find? params.idempotencyKey = some p ∧
        List.Forall₂ (IsLeg db'.ledgerAccounts params) (creditLegs params) p.entries ∧
        sideTotal p.entries .debit params.assetSymbol =
          sideTotal p.entries .credit params.assetSymbol)

/-! ## Posting -/

theorem Admissible.assertPostable (h : Admissible params) : assertPostable params = .ok () := by
  have hrate : ¬(params.feeBps < 0 ∨ params.feeBps > 10000) := by
    have hlow := h.rate_nonneg
    have hhigh := h.rate_le
    omega
  unfold PaymentGateway.assertPostable Money.isPositive
  simp [h.gross, hrate]

theorem Admissible.feeAmount (h : Admissible params) :
    params.grossAmount.percentageBps params.feeBps .floor =
      .ok ⟨feeUnits params, params.grossAmount.asset, params.grossAmount.decimals⟩ :=
  Money.percentageBps_floor _ _ _ h.gross.le h.rate_nonneg

theorem netAmount (params : PostPaymentCreditParams) :
    params.grossAmount.subtract
        ⟨feeUnits params, params.grossAmount.asset, params.grossAmount.decimals⟩ =
      .ok ⟨netUnits params, params.grossAmount.asset, params.grossAmount.decimals⟩ :=
  Money.subtract_same _ _ _ _

theorem createEntry_ok {account : LedgerAccount} {direction : LedgerDirection} {amount : Int}
    (hpositive : 0 < amount) (hsymbol : account.assetSymbol = params.assetSymbol)
    (hdecimals : account.assetDecimals = params.assetDecimals) :
    createEntry params account direction amount = .ok ⟨account.code, direction, amount,
      params.assetSymbol, params.assetDecimals, params.invoiceId, params.tokenTransferId,
      hpositive⟩ := by
  unfold createEntry
  rw [dif_pos hpositive, if_pos ⟨hsymbol, hdecimals⟩]

/-- An account found in a table that has grown. -/
theorem IsAccount.found {accounts accounts' : Table LedgerAccount (·.code)}
    {kind : LedgerAccountKind} {network : Network} {symbol : String} {a : LedgerAccount}
    (h : IsAccount kind network symbol a) (ha : a ∈ accounts)
    (hsub : ∀ a ∈ accounts, a ∈ accounts') :
    ∃ a', accounts'.find? a.code = some a' ∧ IsAccount kind network symbol a' :=
  ⟨a, Table.find?_of_mem (hsub a ha), h⟩

/-- The fee leg, if there is one, on the revenue account. -/
theorem feeLegs_ok {feeAmount : Money} (hc : DenominatedAccounts decimals db.ledgerAccounts)
    (href : params.ref.Denominated decimals) (hunits : feeAmount.units = feeUnits params)
    (hnonneg : 0 ≤ feeUnits params) :
    ∃ accounts fees, feeLegs db params params.ref feeAmount =
        .ok ({ db with ledgerAccounts := accounts }, fees) ∧
      (∀ a ∈ db.ledgerAccounts, a ∈ accounts) ∧
      List.Forall₂ (IsLeg accounts params)
        ([(.feeRevenue, .credit, feeUnits params)].filter fun leg => leg.2.2 ≠ 0) fees := by
  unfold feeLegs Money.isPositive
  rw [hunits]
  by_cases hzero : feeUnits params = 0
  · rw [hzero]
    exact ⟨db.ledgerAccounts, [], rfl, fun a ha => ha, .nil⟩
  · have hpositive : 0 < feeUnits params := by omega
    obtain ⟨code, hcode⟩ := creditCode_isOk .feeRevenue params.network params.assetSymbol
      (show (none.filter (· ≠ "")).isSome = isMerchantScoped .feeRevenue from rfl)
    obtain ⟨accounts, revenue, hok, -, hsub, hmem, his, hdecimals⟩ :=
      ensureAccount_denominated hc href hcode
    have hentry : createEntry params revenue .credit (feeUnits params) = _ :=
      createEntry_ok hpositive his.symbol_eq hdecimals
    rw [if_pos (by simpa using hpositive), hok, bind_ok]
    simp only [hentry, bind_ok]
    refine ⟨accounts, _, rfl, hsub, ?_⟩
    rw [List.filter_cons_of_pos (by simpa using hzero), List.filter_nil]
    exact .cons ⟨rfl, rfl, hpositive, rfl, rfl, his.found hmem fun a ha => ha⟩ .nil

theorem sideTotal_cons (e : LedgerEntry) (entries : List LedgerEntry)
    (direction : LedgerDirection) (symbol : String) :
    sideTotal (e :: entries) direction symbol =
      (if e.direction = direction ∧ e.assetSymbol = symbol then e.amount else 0) +
        sideTotal entries direction symbol := by
  unfold sideTotal
  by_cases h : e.direction = direction ∧ e.assetSymbol = symbol
  · simp [h]
  · rw [if_neg h, List.filter_cons_of_neg (by simpa using h), zero_add]

/-- One side of a posting is the sum of its legs on that side. -/
theorem sideTotal_of_legs {accounts : Table LedgerAccount (·.code)}
    {legs : List (LedgerAccountKind × LedgerDirection × Int)} {entries : List LedgerEntry}
    (h : List.Forall₂ (IsLeg accounts params) legs entries) (direction : LedgerDirection) :
    sideTotal entries direction params.assetSymbol =
      (legs.map fun leg => if leg.2.1 = direction then leg.2.2 else 0).sum := by
  induction h with
  | nil => rfl
  | cons hleg _ ih =>
    rw [sideTotal_cons, ih, List.map_cons, List.sum_cons, hleg.direction, hleg.amount]
    simp [hleg.symbol]

/-- Both sides of a credit are its gross amount. -/
theorem creditLegs_sides (params : PostPaymentCreditParams) (direction : LedgerDirection) :
    ((creditLegs params).map fun leg => if leg.2.1 = direction then leg.2.2 else 0).sum =
      params.grossAmount.units := by
  have hall : ∀ legs : List (LedgerAccountKind × LedgerDirection × Int),
      ((legs.filter fun leg => leg.2.2 ≠ 0).map fun leg =>
        if leg.2.1 = direction then leg.2.2 else 0).sum =
      (legs.map fun leg => if leg.2.1 = direction then leg.2.2 else 0).sum := by
    intro legs
    induction legs with
    | nil => rfl
    | cons leg legs ih =>
      by_cases hzero : leg.2.2 = 0
      · rw [List.filter_cons_of_neg (by simpa using hzero), ih, List.map_cons, List.sum_cons, hzero,
          ite_self, zero_add]
      · rw [List.filter_cons_of_pos (by simpa using hzero), List.map_cons, List.sum_cons, ih,
          List.map_cons, List.sum_cons]
  unfold creditLegs
  rw [hall]
  cases direction <;> simp [netUnits]

theorem legs_balanced {accounts : Table LedgerAccount (·.code)} {entries : List LedgerEntry}
    (hlength : 2 ≤ entries.length)
    (h : List.Forall₂ (IsLeg accounts params) (creditLegs params) entries) :
    LedgerBalanced entries := by
  have hsymbol : ∀ {legs entries}, List.Forall₂ (IsLeg accounts params) legs entries →
      ∀ e ∈ entries, e.assetSymbol = params.assetSymbol := by
    intro legs entries h
    induction h with
    | nil => simp
    | cons hleg _ ih => simpa [hleg.symbol] using ih
  refine ⟨hlength, fun e he => ?_⟩
  rw [hsymbol h e he, sideTotal_of_legs h, sideTotal_of_legs h, creditLegs_sides,
    creditLegs_sides]

theorem createPosting_ok {entries : List LedgerEntry} (hb : LedgerBalanced entries)
    (hfresh : db.ledgerTransactions.find? params.idempotencyKey = none) :
    createPosting db params entries = .ok { db with
      ledgerTransactions :=
        db.ledgerTransactions.insert (creditPosting params entries hb) hfresh } := by
  unfold createPosting
  rw [dif_pos hb]
  split
  · next existing hk => exact absurd (hfresh.symm.trans hk) (by simp)
  · rfl

/-- **A fresh credit below the full rate is posted.** -/
theorem credit_posted (hc : DenominatedAccounts decimals db.ledgerAccounts)
    (hcall : params.Denominated decimals) (h : Admissible params) (hrate : params.feeBps < 10000)
    (hfresh : db.ledgerTransactions.find? params.idempotencyKey = none) :
    CreditPosted db params := by
  have hnet := h.net_pos_iff.2 hrate
  have hmerchant : (some params.merchantId).filter (· ≠ "") = some params.merchantId := by
    simp [hcall.merchant]
  obtain ⟨_, hcode1⟩ := creditCode_isOk .merchantHoldings params.network params.assetSymbol
    (by rw [hmerchant]; rfl)
  obtain ⟨_, hcode2⟩ := creditCode_isOk .merchantPayable params.network params.assetSymbol
    (by rw [hmerchant]; rfl)
  obtain ⟨accounts1, holdings, hok1, hc1, -, hmem1, his1, hdecimals1⟩ :=
    ensureAccount_denominated hc hcall.ref hcode1
  obtain ⟨accounts2, payable, hok2, hc2, hsub2, hmem2, his2, hdecimals2⟩ :=
    ensureAccount_denominated (show DenominatedAccounts decimals
      { db with ledgerAccounts := accounts1 }.ledgerAccounts from hc1) hcall.ref hcode2
  obtain ⟨accounts3, fees, hok3, hsub3, hfees⟩ :=
    feeLegs_ok (show DenominatedAccounts decimals
      { db with ledgerAccounts := accounts2 }.ledgerAccounts from hc2) hcall.ref
      (show (Money.mk (feeUnits params) params.grossAmount.asset
        params.grossAmount.decimals).units = feeUnits params from rfl) h.fee_nonneg
  have hdebit : createEntry params holdings .debit params.grossAmount.units = _ :=
    createEntry_ok h.gross his1.symbol_eq hdecimals1
  have hcredit : createEntry params payable .credit (netUnits params) = _ :=
    createEntry_ok hnet his2.symbol_eq hdecimals2
  have hlegs : creditLegs params = (.merchantHoldings, .debit, params.grossAmount.units) ::
      (.merchantPayable, .credit, netUnits params) ::
        [(.feeRevenue, .credit, feeUnits params)].filter fun leg => leg.2.2 ≠ 0 := by
    unfold creditLegs
    rw [List.filter_cons_of_pos (by simpa using h.gross.ne'),
      List.filter_cons_of_pos (by simpa using hnet.ne')]
  have hentries : List.Forall₂ (IsLeg accounts3 params) (creditLegs params)
      (⟨holdings.code, .debit, params.grossAmount.units, params.assetSymbol, params.assetDecimals,
        params.invoiceId, params.tokenTransferId, h.gross⟩ ::
      ⟨payable.code, .credit, netUnits params, params.assetSymbol, params.assetDecimals,
        params.invoiceId, params.tokenTransferId, hnet⟩ :: fees) := by
    rw [hlegs]
    refine .cons ⟨rfl, rfl, h.gross, rfl, rfl, ?_⟩ (.cons ⟨rfl, rfl, hnet, rfl, rfl, ?_⟩ hfees)
    · exact his1.found hmem1 fun a ha => hsub3 a (hsub2 a ha)
    · exact his2.found hmem2 hsub3
  have hb := legs_balanced (by simp) hentries
  have hposting := createPosting_ok (show LedgerBalanced _ from hb)
    (show { db with ledgerAccounts := accounts3 }.ledgerTransactions.find? params.idempotencyKey =
      none from hfresh)
  have hok : postPaymentCredit db params = .ok ({ db with
        ledgerAccounts := accounts3
        ledgerTransactions := db.ledgerTransactions.insert (creditPosting params _ hb) hfresh },
      ⟨params.idempotencyKey, false, params.grossAmount,
        ⟨feeUnits params, params.grossAmount.asset, params.grossAmount.decimals⟩,
        ⟨netUnits params, params.grossAmount.asset, params.grossAmount.decimals⟩⟩) := by
    unfold postPaymentCredit
    rw [h.assertPostable, bind_ok, h.feeAmount, bind_ok, netAmount, bind_ok, hfresh]
    dsimp only
    rw [show AccountRef.mk params.network params.assetSymbol params.assetDecimals = params.ref from
      rfl, hok1, bind_ok]
    dsimp only
    rw [hok2, bind_ok]
    dsimp only
    rw [hdebit, bind_ok, hcredit, bind_ok, hok3, bind_ok]
    dsimp only
    rw [hposting, bind_ok]
    rfl
  refine ⟨_, _, hok, rfl, rfl, rfl, .inr ⟨creditPosting params _ hb, ?_, hentries, ?_⟩⟩
  · exact (Table.find?_insert (h := hfresh) params.idempotencyKey).trans (if_pos rfl)
  · exact (sideTotal_of_legs hentries .debit).trans ((creditLegs_sides params .debit).trans
      ((sideTotal_of_legs hentries .credit).trans (creditLegs_sides params .credit)).symm)

/-- A repeated credit is answered with the split and writes nothing. -/
theorem credit_repeated (h : Admissible params)
    (htaken : (db.ledgerTransactions.find? params.idempotencyKey).isSome = true) :
    CreditPosted db params := by
  obtain ⟨existing, hexisting⟩ := Option.isSome_iff_exists.1 htaken
  have hok : postPaymentCredit db params = .ok (db, ⟨existing.idempotencyKey, true,
      params.grossAmount,
      ⟨feeUnits params, params.grossAmount.asset, params.grossAmount.decimals⟩,
      ⟨netUnits params, params.grossAmount.asset, params.grossAmount.decimals⟩⟩) := by
    unfold postPaymentCredit
    rw [h.assertPostable, bind_ok, h.feeAmount, bind_ok, netAmount, bind_ok, hexisting]
    rfl
  exact ⟨_, _, hok, rfl, rfl, rfl, .inl ⟨htaken, rfl⟩⟩

/-- A credit that is posted leaves the merchant something. -/
theorem CreditPosted.rate_lt (h : Admissible params) (hposted : CreditPosted db params)
    (hfresh : db.ledgerTransactions.find? params.idempotencyKey = none) :
    params.feeBps < 10000 := by
  obtain ⟨db', result, hok, -⟩ := hposted
  unfold postPaymentCredit at hok
  rw [h.assertPostable, bind_ok, h.feeAmount, bind_ok, netAmount, bind_ok, hfresh] at hok
  dsimp only at hok
  obtain ⟨_, -, hok⟩ := bind_eq_ok.1 hok
  obtain ⟨_, -, hok⟩ := bind_eq_ok.1 hok
  obtain ⟨_, -, hok⟩ := bind_eq_ok.1 hok
  obtain ⟨credit, hcredit, -⟩ := bind_eq_ok.1 hok
  have hnet : credit.amount = netUnits params := (createEntry_eq_ok hcredit).2
  exact h.net_pos_iff.1 (hnet ▸ credit.amount_positive)

/-- **Credits are posted** below the full rate: see the head of this module. -/
theorem credit_posted_iff
    (hreach : ledgerCalls.Reachable (LedgerCall.Denominated decimals) (fun _ _ => True) Db.empty db)
    (hcall : params.Denominated decimals) (h : Admissible params) :
    CreditPosted db params ↔
      (db.ledgerTransactions.find? params.idempotencyKey).isSome = true ∨
        params.feeBps < 10000 := by
  have hkind : ∀ op s, LedgerCall.Denominated decimals op →
      ∀ t, Except.ok t ∈ ledgerCalls.script op s → LedgerCall.Denominated decimals t := by
    intro op s hop t ht
    cases List.mem_singleton.1 ht
    exact hop
  have hc : DenominatedAccounts decimals db.ledgerAccounts :=
    hreach.invariant (P := fun x => DenominatedAccounts decimals x.ledgerAccounts) hkind
      (fun a ha => absurd ha (Table.not_mem_empty a))
      fun t a b ht ha _ hok => Denominated.step ha ht hok
  constructor
  · intro hposted
    cases hfresh : db.ledgerTransactions.find? params.idempotencyKey with
    | none => exact .inr (hposted.rate_lt h hfresh)
    | some existing => exact .inl rfl
  · rintro (htaken | hrate)
    · exact credit_repeated h htaken
    · cases hfresh : db.ledgerTransactions.find? params.idempotencyKey with
      | none => exact credit_posted hc hcall h hrate hfresh
      | some existing => exact credit_repeated h (by rw [hfresh, Option.isSome_some])

/-- A credit of 100 USDT at a rate. -/
def creditAt (feeBps : Int) : PostPaymentCreditParams :=
  ⟨"m", "i", ⟨.ethereum, "c", 3⟩, .ethereum, "USDT", 6, ⟨100000000, "USDT", 6⟩, feeBps,
    "credit:ETHEREUM:c:3"⟩

theorem credit_posted_iff_below : CreditPosted creditedLedger (creditAt 9999) := by
  have hcalls : ∀ call ∈ creditCalls, LedgerCall.Denominated (fun _ _ => 6) call := by
    intro call hcall
    simp only [creditCalls, List.mem_cons, List.not_mem_nil, or_false] at hcall
    rcases hcall with rfl | rfl | rfl
    all_goals exact ⟨by decide, ⟨by decide, rfl⟩⟩
  have hreach : ledgerCalls.Reachable (LedgerCall.Denominated fun _ _ => 6) (fun _ _ => True)
      Db.empty creditedLedger := Machine.reachable_log hcalls (Machine.allMeet_true _ _)
  exact (credit_posted_iff hreach ⟨by decide, ⟨by decide, rfl⟩⟩ ⟨by decide, by decide, by decide⟩).2
    (.inr (by decide))

/-- At the full rate, which the merchants table admits, the credit is refused. -/
theorem full_rate_refused : Admissible (creditAt 10000) ∧
    (postPaymentCredit Db.empty (creditAt 10000)).map (·.2) =
      .error (.checkViolation "ledger_entries_amount_positive") ∧
    ¬CreditPosted Db.empty (creditAt 10000) := by
  have hadmissible : Admissible (creditAt 10000) := ⟨by decide, by decide, by decide⟩
  refine ⟨hadmissible, by decide +kernel, fun hposted => ?_⟩
  exact absurd (hposted.rate_lt hadmissible rfl) (by decide)

end PaymentGateway
