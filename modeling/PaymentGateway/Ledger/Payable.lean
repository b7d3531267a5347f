import PaymentGateway.Ledger.Balances
import PaymentGateway.Ledger.Credit

/-!
# What is owed to a merchant

The liability account of a merchant, an asset and a network is found through its code alone: two
rows that are payable to the same merchant for the same asset are one row (`IsPayable.unique`).
`Splits` says what `postPaymentCredit` writes, entry by entry, with the accounts they are on. From
it `Splits.net_liability` reads what the posting changes on any liability account: the net amount
on the merchant's own, and nothing on any other.
-/

namespace PaymentGateway

open Keyed Fallible

/-! ## Payable accounts -/

/-- The account holds what is owed to the merchant for this asset. -/
structure IsPayable (merchantId : String) (network : Network) (symbol : String) (decimals : Nat)
    (a : LedgerAccount) : Prop where
  type_eq : a.type = .liability
  merchant_eq : a.merchantId = some merchantId
  network_eq : a.network = some network
  symbol_eq : a.assetSymbol = symbol
  decimals_eq : a.assetDecimals = decimals

instance (merchantId : String) (network : Network) (symbol : String) (decimals : Nat)
    (a : LedgerAccount) : Decidable (IsPayable merchantId network symbol decimals a) :=
  decidable_of_iff (a.type = .liability ∧ a.merchantId = some merchantId ∧
      a.network = some network ∧ a.assetSymbol = symbol ∧ a.assetDecimals = decimals)
    ⟨fun h => ⟨h.1, h.2.1, h.2.2.1, h.2.2.2.1, h.2.2.2.2⟩,
      fun h => ⟨h.1, h.2, h.3, h.4, h.5⟩⟩

variable {accounts accounts' : Table LedgerAccount (·.code)} {merchantId symbol : String}
  {network : Network} {decimals : Nat} {bps : Int} {db db' : Db} {params : PostPaymentCreditParams}

/-- A liability account that names a merchant is a payable account. -/
theorem payableCode (hc : Charted accounts) {a : LedgerAccount} (ha : a ∈ accounts)
    (htype : a.type = .liability) (hmerchant : a.merchantId = some merchantId)
    (hnonempty : merchantId ≠ "") (hnetwork : a.network = some network) :
    ledgerAccountCode ⟨.merchantPayable, network, a.assetSymbol, some merchantId⟩ =
      .ok a.code := by
  obtain ⟨kind, network', his, hkind⟩ := hc a ha
  have hsame : network' = network := Option.some.inj (his.network_eq.symm.trans hnetwork)
  have hcode := his.code_eq
  rw [hmerchant, hsame] at hcode
  rw [htype] at hkind
  cases kind with
  | merchantPayable => exact hcode
  | suspense => simp [ledgerAccountCode, accountCode, isMerchantScoped, hnonempty] at hcode
  | _ => cases hkind

/-- There is one payable account for a merchant and an asset. -/
theorem IsPayable.unique {a b : LedgerAccount} {decimals' : Nat} (hc : Charted accounts)
    (ha : a ∈ accounts) (hb : b ∈ accounts) (hnonempty : merchantId ≠ "")
    (h : IsPayable merchantId network symbol decimals a)
    (h' : IsPayable merchantId network symbol decimals' b) : a = b := by
  have hcode := payableCode hc ha h.type_eq h.merchant_eq hnonempty h.network_eq
  have hcode' := payableCode hc hb h'.type_eq h'.merchant_eq hnonempty h'.network_eq
  rw [h.symbol_eq] at hcode
  rw [h'.symbol_eq] at hcode'
  exact Table.eq_of_key_eq ha hb (Except.ok.inj (hcode.symm.trans hcode'))

/-- The merchant of a scoped code. -/
theorem code_merchantId {kind : LedgerAccountKind} {id id' : Option String} {code : String}
    (hscoped : isMerchantScoped kind = true)
    (h : ledgerAccountCode ⟨kind, network, symbol, id⟩ = .ok code)
    (h' : ledgerAccountCode ⟨kind, network, symbol, id'⟩ = .ok code) :
    id.filter (· ≠ "") = id'.filter (· ≠ "") := by
  unfold ledgerAccountCode accountCode at h h'
  simp only [hscoped, if_true] at h h'
  cases hid : id.filter (· ≠ "") with
  | none => rw [hid] at h; cases h
  | some m =>
    cases hid' : id'.filter (· ≠ "") with
    | none => rw [hid'] at h'; cases h'
    | some m' =>
      rw [hid] at h
      rw [hid'] at h'
      have hsame := Except.ok.inj (h.trans h'.symm)
      simpa using hsame

/-- An account that was asked for in its asset has the type of its kind and the merchant that was
asked for. -/
theorem ensureAccount_row {kind : LedgerAccountKind} {ref : AccountRef} {id : Option String}
    {account : LedgerAccount} (hc : Charted db.ledgerAccounts)
    (h : ensureAccount db kind ref id = .ok (db', account))
    (hsymbol : account.assetSymbol = ref.assetSymbol) :
    account.type = ledgerAccountType kind ∧ account.network = some ref.network ∧
      (isMerchantScoped kind = true →
        account.merchantId.filter (· ≠ "") = id.filter (· ≠ "")) := by
  obtain ⟨accounts, -, hcharted, -, hmem, his⟩ := ensureAccount_spec hc h
  have haccount := his hsymbol
  obtain ⟨kind', network', his', htype⟩ := hcharted account hmem
  rw [hsymbol] at his'
  have hkind : kind' = kind := (his'.unique haccount).1
  refine ⟨hkind ▸ htype, haccount.network_eq, fun hscoped => ?_⟩
  obtain ⟨code, hcode, hmatch⟩ := bind_eq_ok.1 h
  have hkey : account.code = code := by
    split at hmatch
    · next found hfound =>
      cases hmatch
      exact Table.key_of_find? hfound
    · cases hmatch
      rfl
  rw [← hkey] at hcode
  rw [code_merchantId hscoped haccount.code_eq hcode]
  simp [Option.filter_filter]

/-! ## The entries of a credit -/

/-- The entries of a credit, with the accounts they are on. -/
structure Splits (accounts : Table LedgerAccount (·.code)) (merchantId : String)
    (network : Network) (symbol : String) (decimals : Nat) (bps : Int)
    (debit credit : LedgerEntry) (fees : List LedgerEntry) : Prop where
  holdings : debit.direction = .debit ∧
    ∃ a ∈ accounts, a.code = debit.accountCode ∧ a.type = .asset
  payable : credit.direction = .credit ∧ ∃ a ∈ accounts, a.code = credit.accountCode ∧
    IsPayable merchantId network symbol decimals a
  revenue : ∀ e ∈ fees, e.direction = .credit ∧
    ∃ a ∈ accounts, a.code = e.accountCode ∧ a.type = .revenue
  net : credit.amount = debit.amount - (fees.map (·.amount)).sum
  rate : 0 ≤ bps ∧ bps < 10000
  fee : (fees.map (·.amount)).sum = debit.amount * bps / 10000

theorem Splits.mono {debit credit : LedgerEntry} {fees : List LedgerEntry}
    (h : Splits accounts merchantId network symbol decimals bps debit credit fees)
    (hsub : ∀ a ∈ accounts, a ∈ accounts') :
    Splits accounts' merchantId network symbol decimals bps debit credit fees := by
  obtain ⟨hdirection, a, ha, hcode, htype⟩ := h.holdings
  obtain ⟨hdirection', b, hb, hcode', hpayable⟩ := h.payable
  refine ⟨⟨hdirection, a, hsub a ha, hcode, htype⟩, ⟨hdirection', b, hsub b hb, hcode', hpayable⟩,
    fun e he => ?_, h.net, h.rate, h.fee⟩
  obtain ⟨hdirection, c, hcmem, hcode, htype⟩ := h.revenue e he
  exact ⟨hdirection, c, hsub c hcmem, hcode, htype⟩

/-- A posting is the credit of a payment to the merchant, at a fee rate. -/
def Owes (accounts : Table LedgerAccount (·.code)) (merchantId : String) (network : Network)
    (symbol : String) (decimals : Nat) (bps : Int) (p : LedgerTransaction) : Prop :=
  merchantId ≠ "" ∧ ∃ debit credit fees, p.entries = debit :: credit :: fees ∧
    Splits accounts merchantId network symbol decimals bps debit credit fees

/-- What a posting books to revenue. -/
def bookedFee (accounts : Table LedgerAccount (·.code)) (p : LedgerTransaction) : Int :=
  ((p.entries.filter fun e => (accounts.find? e.accountCode).any (·.type = .revenue)).map
    (·.amount)).sum

theorem Splits.gross {debit credit : LedgerEntry} {fees : List LedgerEntry}
    (h : Splits accounts merchantId network symbol decimals bps debit credit fees)
    {p : LedgerTransaction} (hp : p.entries = debit :: credit :: fees) :
    p.grossAmount = debit.amount := by
  have hcredits : ∀ e ∈ credit :: fees, e.direction = .credit := by
    intro e he
    rcases List.mem_cons.1 he with rfl | he
    · exact h.payable.1
    · exact (h.revenue e he).1
  unfold LedgerTransaction.grossAmount
  rw [hp]
  exact gross_of_entries h.holdings.1 hcredits

/-- Only the fee legs are on revenue accounts. -/
theorem Splits.bookedFee {debit credit : LedgerEntry} {fees : List LedgerEntry}
    (h : Splits accounts merchantId network symbol decimals bps debit credit fees)
    {p : LedgerTransaction} (hp : p.entries = debit :: credit :: fees) :
    bookedFee accounts p = (fees.map (·.amount)).sum := by
  have hfind : ∀ {a : LedgerAccount} {code : String}, a ∈ accounts → a.code = code →
      accounts.find? code = some a := by
    intro a code ha hcode
    rw [← hcode]
    exact Table.find?_of_mem ha
  obtain ⟨-, a, ha, hcode, htype⟩ := h.holdings
  obtain ⟨-, b, hb, hcode', hpayable⟩ := h.payable
  have hfees : (fees.filter fun e => (accounts.find? e.accountCode).any (·.type = .revenue)) =
      fees := by
    refine List.filter_eq_self.2 fun e he => ?_
    obtain ⟨-, c, hcmem, hcode, htype⟩ := h.revenue e he
    simp [hfind hcmem hcode, htype]
  unfold PaymentGateway.bookedFee
  rw [hp, List.filter_cons_of_neg (by simp [hfind ha hcode, htype]),
    List.filter_cons_of_neg (by simp [hfind hb hcode', hpayable.type_eq]), hfees]

/-- What a credit changes on the liability accounts. -/
theorem Owes.net_liability (hc : Charted accounts) {p : LedgerTransaction}
    (h : Owes accounts merchantId network symbol decimals bps p) {a : LedgerAccount}
    (ha : a ∈ accounts) (htype : a.type = .liability) :
    DoubleEntry.net p.legs a.code =
      if IsPayable merchantId network symbol decimals a then
        -(p.grossAmount - bookedFee accounts p)
      else 0 := by
  obtain ⟨hnonempty, debit, credit, fees, hp, hs⟩ := h
  obtain ⟨hdebit, holdings, hholdings, hcode1, htype1⟩ := hs.holdings
  obtain ⟨hcredit, payable, hpayable, hcode2, his⟩ := hs.payable
  have hother : ∀ {b : LedgerAccount} {code : String}, b ∈ accounts → b.code = code →
      b.type ≠ .liability → code ≠ a.code := by
    intro b code hb hcode hne hsame
    have heq : b = a := Table.eq_of_key_eq hb ha (hcode.trans hsame)
    exact hne (heq ▸ htype)
  have hfees : DoubleEntry.netOn (· = a.code) (fees.map LedgerEntry.leg) = 0 := by
    refine DoubleEntry.netOn_false fun l hl => ?_
    obtain ⟨e, he, rfl⟩ := List.mem_map.1 hl
    obtain ⟨-, c, hcmem, hcode, htype3⟩ := hs.revenue e he
    exact hother hcmem hcode (by simp [htype3])
  have hlegs : p.legs = debit.leg :: credit.leg :: fees.map LedgerEntry.leg := by
    rw [LedgerTransaction.legs, hp]
    rfl
  have hdebitNot : ¬ debit.leg.account = a.code := hother hholdings hcode1 (by simp [htype1])
  have hsigned : credit.leg.signed = -credit.amount := by
    simp [LedgerEntry.leg, DoubleEntry.Leg.signed, hcredit]
  unfold DoubleEntry.net
  rw [hlegs, DoubleEntry.netOn_cons, DoubleEntry.netOn_cons, hfees, if_neg hdebitNot, zero_add,
    add_zero, hsigned, hs.gross hp, hs.bookedFee hp, ← hs.net]
  -- The credit leg is on `a` exactly when `a` is the payable account.
  have hiff : credit.leg.account = a.code ↔
      IsPayable merchantId network symbol decimals a := by
    constructor
    · intro hsame
      have heq : payable = a := Table.eq_of_key_eq hpayable ha (hcode2.trans hsame)
      exact heq ▸ his
    · intro hpay
      rw [hpay.unique hc ha hpayable hnonempty his]
      exact hcode2.symm
  simp only [hiff]

theorem Owes.mono {p : LedgerTransaction} (h : Owes accounts merchantId network symbol decimals bps p)
    (hsub : ∀ a ∈ accounts, a ∈ accounts') :
    Owes accounts' merchantId network symbol decimals bps p := by
  obtain ⟨hnonempty, debit, credit, fees, hp, hs⟩ := h
  exact ⟨hnonempty, debit, credit, fees, hp, hs.mono hsub⟩

/-- The fee is booked at the rate. -/
theorem Owes.bookedFee {p : LedgerTransaction}
    (h : Owes accounts merchantId network symbol decimals bps p) :
    (0 ≤ bps ∧ bps < 10000) ∧ bookedFee accounts p = p.grossAmount * bps / 10000 := by
  obtain ⟨-, debit, credit, fees, hp, hs⟩ := h
  exact ⟨hs.rate, by rw [hs.bookedFee hp, hs.gross hp, hs.fee]⟩

/-! ## Posting -/

/-- The account that is returned is the only one that can be new. -/
theorem ensureAccount_new {kind : LedgerAccountKind} {ref : AccountRef} {id : Option String}
    {account : LedgerAccount} (h : ensureAccount db kind ref id = .ok (db', account)) :
    ∀ a ∈ db'.ledgerAccounts, a ∈ db.ledgerAccounts ∨ a = account := by
  obtain ⟨code, -, hmatch⟩ := bind_eq_ok.1 h
  split at hmatch
  · cases hmatch
    exact fun a ha => .inl ha
  · next hfree =>
    cases hmatch
    exact fun a ha => (Table.mem_insert (h := hfree)).1 ha

/-- A scoped account needs a merchant. -/
theorem ensureAccount_merchant {kind : LedgerAccountKind} {ref : AccountRef}
    {account : LedgerAccount} (hscoped : isMerchantScoped kind = true)
    (h : ensureAccount db kind ref (some merchantId) = .ok (db', account)) : merchantId ≠ "" := by
  obtain ⟨code, hcode, -⟩ := bind_eq_ok.1 h
  intro hempty
  have hnone : (some merchantId).filter (· ≠ "") = none := by simp [hempty]
  rw [hnone] at hcode
  simp [ledgerAccountCode, accountCode, hscoped] at hcode

theorem assertPostable_eq_ok (h : assertPostable params = .ok ()) : Admissible params := by
  unfold assertPostable Money.isPositive at h
  split_ifs at h with hgross hrate
  rw [not_or] at hrate
  exact ⟨by simpa using hgross, by omega, by omega⟩

/-- The fee leg books the fee. -/
theorem feeLegs_amount {ref : AccountRef} {feeAmount : Money} {fees : List LedgerEntry}
    (hnonneg : 0 ≤ feeAmount.units) (h : feeLegs db params ref feeAmount = .ok (db', fees)) :
    (fees.map (·.amount)).sum = feeAmount.units := by
  unfold feeLegs Money.isPositive at h
  split at h
  · obtain ⟨⟨db1, revenue⟩, -, h⟩ := bind_eq_ok.1 h
    obtain ⟨fee, hfee, h⟩ := bind_eq_ok.1 h
    cases h
    simpa using (createEntry_eq_ok hfee).2
  · next hpositive =>
    cases h
    have hle : ¬ feeAmount.units > 0 := by simpa using hpositive
    simp
    omega

/-- **A credit that is not a repetition splits its gross amount** between the merchant's payable
account and revenue, and creates no other liability account. -/
theorem postPaymentCredit_owes {result : PostingResult} (hc : Charted db.ledgerAccounts)
    (h : postPaymentCredit db params = .ok (db', result)) :
    ((db.ledgerTransactions.find? params.idempotencyKey).isSome = true ∧ db' = db) ∨
    ∃ (accounts : Table LedgerAccount (·.code)) (entries : List LedgerEntry)
      (hb : LedgerBalanced entries)
      (hk : db.ledgerTransactions.find? (creditPosting params entries hb).idempotencyKey = none),
      db' = { db with
        ledgerAccounts := accounts
        ledgerTransactions := db.ledgerTransactions.insert (creditPosting params entries hb) hk } ∧
      Charted accounts ∧ (∀ a ∈ db.ledgerAccounts, a ∈ accounts) ∧
      (∀ a ∈ accounts, a.type = .liability → a ∈ db.ledgerAccounts ∨
        IsPayable params.merchantId params.network params.assetSymbol params.assetDecimals a) ∧
      Owes accounts params.merchantId params.network params.assetSymbol params.assetDecimals
        params.feeBps (creditPosting params entries hb) := by
  unfold postPaymentCredit at h
  obtain ⟨u, hpostable, h⟩ := bind_eq_ok.1 h
  have hadmissible : Admissible params := assertPostable_eq_ok hpostable
  rw [hadmissible.feeAmount, bind_ok, netAmount, bind_ok] at h
  cases hfind : db.ledgerTransactions.find? params.idempotencyKey with
  | some existing =>
    rw [hfind] at h
    cases h
    exact .inl ⟨rfl, rfl⟩
  | none =>
    rw [hfind] at h
    obtain ⟨⟨db1, holdings⟩, h1, h⟩ := bind_eq_ok.1 h
    obtain ⟨⟨db2, payable⟩, h2, h⟩ := bind_eq_ok.1 h
    obtain ⟨debit, hdebit, h⟩ := bind_eq_ok.1 h
    obtain ⟨credit, hcredit, h⟩ := bind_eq_ok.1 h
    obtain ⟨⟨db3, fees⟩, h3, h⟩ := bind_eq_ok.1 h
    obtain ⟨db4, h4, h⟩ := bind_eq_ok.1 h
    cases h
    obtain ⟨hsymbol1, hcode1, -, hside1⟩ := createEntry_account hdebit
    obtain ⟨hsymbol2, hcode2, -, hside2⟩ := createEntry_account hcredit
    have hdecimals2 : payable.assetDecimals = params.assetDecimals := by
      unfold createEntry at hcredit
      split_ifs at hcredit with _ hasset
      exact hasset.2
    have hnonempty : params.merchantId ≠ "" := ensureAccount_merchant rfl h2
    obtain ⟨htype1, -, -⟩ := ensureAccount_row hc h1 hsymbol1
    have hnew1 := ensureAccount_new h1
    obtain ⟨accounts1, rfl, hc1, hsub1, hmem1, -⟩ := ensureAccount_spec hc h1
    obtain ⟨htype2, hnetwork2, hmerchant2⟩ := ensureAccount_row hc1 h2 hsymbol2
    have hnew2 := ensureAccount_new h2
    obtain ⟨accounts2, rfl, hc2, hsub2, hmem2, -⟩ := ensureAccount_spec hc1 h2
    have hpayable : IsPayable params.merchantId params.network params.assetSymbol
        params.assetDecimals payable := by
      refine ⟨htype2, ?_, hnetwork2, hsymbol2, hdecimals2⟩
      have hfilter := hmerchant2 rfl
      rw [Option.filter_some_pos (by simpa using hnonempty)] at hfilter
      exact (Option.filter_eq_some_iff.1 hfilter).1
    -- The revenue account, when there is a fee.
    have hfees : ∃ accounts3, db3 = { db with ledgerAccounts := accounts3 } ∧
        Charted accounts3 ∧ (∀ a ∈ accounts2, a ∈ accounts3) ∧
        (∀ a ∈ accounts3, a.type = .liability → a ∈ accounts2) ∧
        ∀ e ∈ fees, e.direction = .credit ∧
          ∃ a ∈ accounts3, a.code = e.accountCode ∧ a.type = .revenue := by
      unfold feeLegs at h3
      split at h3
      · obtain ⟨⟨db5, revenue⟩, hrevenue, h3⟩ := bind_eq_ok.1 h3
        obtain ⟨fee, hfee, h3⟩ := bind_eq_ok.1 h3
        cases h3
        obtain ⟨hsymbol3, hcode3, -, hside3⟩ := createEntry_account hfee
        obtain ⟨htype3, -, -⟩ := ensureAccount_row hc2 hrevenue hsymbol3
        have hnew3 := ensureAccount_new hrevenue
        obtain ⟨accounts3, rfl, hc3, hsub3, hmem3, -⟩ := ensureAccount_spec hc2 hrevenue
        refine ⟨accounts3, rfl, hc3, hsub3, fun a ha htype => ?_, fun e he => ?_⟩
        · rcases hnew3 a ha with ha | rfl
          · exact ha
          · rw [htype3] at htype
            cases htype
        · rw [List.mem_singleton.1 he]
          exact ⟨hside3, revenue, hmem3, hcode3.symm, htype3⟩
      · cases h3
        exact ⟨accounts2, rfl, hc2, fun a ha => ha, fun a ha _ => ha,
          fun e he => absurd he List.not_mem_nil⟩
    have hamounts := feeLegs_amount hadmissible.fee_nonneg h3
    obtain ⟨accounts3, rfl, hc3, hsub3, hnew3, hfeeLegs⟩ := hfees
    obtain ⟨hb, hk, rfl⟩ := createPosting_eq_ok h4
    refine .inr ⟨accounts3, _, hb, hk, rfl, hc3, fun a ha => hsub3 a (hsub2 a (hsub1 a ha)),
      fun a ha htype => ?_, hnonempty, debit, credit, fees, rfl, ⟨hside1, holdings,
        hsub3 _ (hsub2 _ hmem1), hcode1.symm, htype1⟩, ⟨hside2, payable, hsub3 _ hmem2,
        hcode2.symm, hpayable⟩, hfeeLegs, ?_, ⟨hadmissible.rate_nonneg, ?_⟩, ?_⟩
    · rcases hnew2 a (hnew3 a ha htype) with ha | rfl
      · rcases hnew1 a ha with ha | rfl
        · exact .inl ha
        · rw [htype1] at htype
          cases htype
      · exact .inr hpayable
    · rw [(createEntry_eq_ok hcredit).2, (createEntry_eq_ok hdebit).2, hamounts]
      rfl
    · have hnet : credit.amount = netUnits params := (createEntry_eq_ok hcredit).2
      exact hadmissible.net_pos_iff.1 (hnet ▸ credit.amount_positive)
    · rw [(createEntry_eq_ok hdebit).2, hamounts]
      rfl

end PaymentGateway
