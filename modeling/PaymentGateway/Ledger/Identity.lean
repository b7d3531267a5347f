import PaymentGateway.Lib.Execution
import PaymentGateway.Lib.Separated
import PaymentGateway.Ledger.Balances

/-!
# The accounting identity

**Theorem (`ledger_identity`).** After any sequence of calls of `ensureAccount` and
`postPaymentCredit`: every ledger transaction moves one asset on one network and its two sides
agree; for each asset on each network what the merchants hold is what they are owed plus the fees
earned, as `computeAccountBalance` computes them; and a call under a key that is taken changes no
balance.

The invariant `Booked` reads the chart of accounts off the codes. A code begins with the kind and,
between equal symbols, determines the network (`code_kind`, `code_network`), because neither name
contains a colon. So an account that is found instead of created is of the kind that was asked
for, and the asset check on entries makes it one of the network that was asked for. Every posting
then debits holdings and credits payables and revenue of one asset on one network, and
`DoubleEntry.two_sides` sums them up.
-/

namespace PaymentGateway

open Keyed Fallible Transactional

/-! ## Codes -/

theorem LedgerAccountKind.colon_notMem_name (kind : LedgerAccountKind) :
    ':' ∉ kind.name.toList := by
  cases kind <;> decide

theorem LedgerAccountKind.name_injective {kind kind' : LedgerAccountKind}
    (h : kind.name.toList = kind'.name.toList) : kind = kind' := by
  revert h
  cases kind <;> cases kind' <;> decide

/-- The fields of a code: the kind, perhaps a merchant, the network and the symbol. -/
theorem toList_code {params : AccountCodeParams} {code : String}
    (h : ledgerAccountCode params = .ok code) : ∃ scope,
    code.toList = params.kind.name.toList ++ ':' :: (scope ++
      (params.network.name.toList ++ ':' :: params.assetSymbol.toList)) ∧
    (scope = [] ∨ ∃ merchant, scope = merchant ++ [':']) := by
  have hcolon : ":".toList = [':'] := by decide
  unfold ledgerAccountCode accountCode at h
  split at h
  · split at h
    · cases h
    · next merchantId _ =>
      cases h
      refine ⟨merchantId.toList ++ [':'], ?_, .inr ⟨_, rfl⟩⟩
      simp only [String.toList_append, hcolon, List.append_assoc, List.cons_append, List.nil_append]
  · split at h
    · cases h
    · cases h
      refine ⟨[], ?_, .inl rfl⟩
      simp only [String.toList_append, hcolon, List.append_assoc, List.cons_append, List.nil_append]

theorem code_kind {params params' : AccountCodeParams} {code : String}
    (h : ledgerAccountCode params = .ok code) (h' : ledgerAccountCode params' = .ok code) :
    params.kind = params'.kind := by
  obtain ⟨scope, hcode, -⟩ := toList_code h
  obtain ⟨scope', hcode', -⟩ := toList_code h'
  exact LedgerAccountKind.name_injective (Separated.append_left params.kind.colon_notMem_name
    params'.kind.colon_notMem_name (hcode.symm.trans hcode')).1

theorem code_network {params params' : AccountCodeParams} {code : String}
    (h : ledgerAccountCode params = .ok code) (h' : ledgerAccountCode params' = .ok code)
    (hsymbol : params.assetSymbol = params'.assetSymbol) : params.network = params'.network := by
  obtain ⟨scope, hcode, hscope⟩ := toList_code h
  obtain ⟨scope', hcode', hscope'⟩ := toList_code h'
  have hlist := hcode.symm.trans hcode'
  -- Whatever stands before the network ends with a colon.
  have hfront : ∀ (kind rest scope : List Char), (scope = [] ∨ ∃ m, scope = m ++ [':']) →
      ∃ front, kind ++ ':' :: (scope ++ rest) = front ++ ':' :: rest := by
    rintro kind rest scope (rfl | ⟨m, rfl⟩)
    · exact ⟨kind, rfl⟩
    · exact ⟨kind ++ ':' :: m, by simp⟩
  obtain ⟨front, hfront1⟩ := hfront _ _ scope hscope
  obtain ⟨front', hfront2⟩ := hfront _ _ scope' hscope'
  rw [hfront1, hfront2, hsymbol] at hlist
  have hboth : front ++ ':' :: params.network.name.toList ++ ':' :: params'.assetSymbol.toList =
      front' ++ ':' :: params'.network.name.toList ++ ':' :: params'.assetSymbol.toList := by
    simpa using hlist
  exact Network.name_injective (Separated.append_right params.network.colon_notMem_name
    params'.network.colon_notMem_name (List.append_cancel_right hboth)).2

/-! ## The chart of accounts -/

/-- An account of this kind for this asset on this network. -/
structure IsAccount (kind : LedgerAccountKind) (network : Network) (symbol : String)
    (a : LedgerAccount) : Prop where
  network_eq : a.network = some network
  symbol_eq : a.assetSymbol = symbol
  code_eq : ledgerAccountCode ⟨kind, network, symbol, a.merchantId⟩ = .ok a.code

instance (kind : LedgerAccountKind) (network : Network) (symbol : String) (a : LedgerAccount) :
    Decidable (IsAccount kind network symbol a) :=
  decidable_of_iff (a.network = some network ∧ a.assetSymbol = symbol ∧
      ledgerAccountCode ⟨kind, network, symbol, a.merchantId⟩ = .ok a.code)
    ⟨fun h => ⟨h.1, h.2.1, h.2.2⟩, fun h => ⟨h.1, h.2, h.3⟩⟩

theorem IsAccount.unique {kind kind' : LedgerAccountKind} {network network' : Network}
    {symbol symbol' : String} {a : LedgerAccount} (h : IsAccount kind network symbol a)
    (h' : IsAccount kind' network' symbol' a) :
    kind = kind' ∧ network = network' ∧ symbol = symbol' :=
  ⟨code_kind h.code_eq h'.code_eq, Option.some.inj (h.network_eq.symm.trans h'.network_eq),
    h.symbol_eq.symm.trans h'.symbol_eq⟩

/-- Every account has the type of its kind. -/
def Charted (accounts : Table LedgerAccount (·.code)) : Prop :=
  ∀ a ∈ accounts, ∃ kind network, IsAccount kind network a.assetSymbol a ∧
    a.type = ledgerAccountType kind

variable {db db' : Db}

/-- An account that was asked for is there afterwards. When it holds the asset that was asked
for, it is of the kind and on the network that were asked for. -/
theorem ensureAccount_spec {kind : LedgerAccountKind} {ref : AccountRef}
    {merchantId : Option String} {account : LedgerAccount} (hc : Charted db.ledgerAccounts)
    (h : ensureAccount db kind ref merchantId = .ok (db', account)) :
    ∃ accounts, db' = { db with ledgerAccounts := accounts } ∧ Charted accounts ∧
      (∀ a ∈ db.ledgerAccounts, a ∈ accounts) ∧ account ∈ accounts ∧
      (account.assetSymbol = ref.assetSymbol →
        IsAccount kind ref.network ref.assetSymbol account) := by
  obtain ⟨code, hcode, hmatch⟩ := bind_eq_ok.1 h
  split at hmatch
  · next found hfound =>
    cases hmatch
    obtain ⟨hmem, hkey⟩ := Table.find?_eq_some.1 hfound
    refine ⟨_, rfl, hc, fun a ha => ha, hmem, fun hsymbol => ?_⟩
    obtain ⟨kind', network', his, -⟩ := hc account hmem
    have hfoundcode := his.code_eq
    rw [hkey] at hfoundcode
    have hkind : kind' = kind := code_kind hfoundcode hcode
    have hnetwork : network' = ref.network := code_network hfoundcode hcode hsymbol
    rw [hkind, hnetwork, hsymbol] at his
    exact his
  · next hfree =>
    cases hmatch
    refine ⟨_, rfl, fun a ha => ?_, fun a ha => Table.mem_insert.2 (.inl ha),
      Table.mem_insert.2 (.inr rfl), fun _ => ⟨rfl, rfl, hcode⟩⟩
    rcases Table.mem_insert.1 ha with ha | rfl
    · exact hc a ha
    · exact ⟨kind, ref.network, ⟨rfl, rfl, hcode⟩, rfl⟩

/-! ## Postings -/

/-- A leg of a credit of this asset on this network: holdings are debited, payables and revenue
credited. -/
structure CreditLeg (accounts : Table LedgerAccount (·.code)) (network : Network)
    (symbol : String) (e : LedgerEntry) : Prop where
  symbol_eq : e.assetSymbol = symbol
  account : ∃ a ∈ accounts, a.code = e.accountCode ∧
    ((e.direction = .debit ∧ IsAccount .merchantHoldings network symbol a) ∨
      (e.direction = .credit ∧ (IsAccount .merchantPayable network symbol a ∨
        IsAccount .feeRevenue network symbol a)))

theorem CreditLeg.mono {accounts accounts' : Table LedgerAccount (·.code)} {network : Network}
    {symbol : String} {e : LedgerEntry} (h : CreditLeg accounts network symbol e)
    (hsub : ∀ a ∈ accounts, a ∈ accounts') : CreditLeg accounts' network symbol e := by
  obtain ⟨a, ha, hrest⟩ := h.account
  exact ⟨h.symbol_eq, a, hsub a ha, hrest⟩

/-- The accounts are charted, and every posting is a credit of one asset on one network. -/
structure Booked (db : Db) : Prop where
  charted : Charted db.ledgerAccounts
  credits : ∀ p ∈ db.ledgerTransactions, ∃ network symbol, ∀ e ∈ p.entries,
    CreditLeg db.ledgerAccounts network symbol e

theorem booked_empty : Booked Db.empty :=
  ⟨fun a ha => absurd ha (Table.not_mem_empty a), fun p hp => absurd hp (Table.not_mem_empty p)⟩

theorem createEntry_account {params : PostPaymentCreditParams} {account : LedgerAccount}
    {direction : LedgerDirection} {amount : Int} {e : LedgerEntry}
    (h : createEntry params account direction amount = .ok e) :
    account.assetSymbol = params.assetSymbol ∧ e.accountCode = account.code ∧
      e.assetSymbol = params.assetSymbol ∧ e.direction = direction := by
  unfold createEntry at h
  split_ifs at h with _ hasset
  cases h
  exact ⟨hasset.1, rfl, rfl, rfl⟩

/-- The legs of a posting are legs of a credit in the asset it was asked for. -/
theorem postPaymentCredit_booked {params : PostPaymentCreditParams} {result : PostingResult}
    (hb : Booked db) (h : postPaymentCredit db params = .ok (db', result)) : Booked db' := by
  obtain ⟨-, -, h⟩ := bind_eq_ok.1 h
  obtain ⟨feeAmount, -, h⟩ := bind_eq_ok.1 h
  obtain ⟨netAmount, -, h⟩ := bind_eq_ok.1 h
  cases hfind : db.ledgerTransactions.find? params.idempotencyKey with
  | some existing =>
    rw [hfind] at h
    cases h
    exact hb
  | none =>
    rw [hfind] at h
    obtain ⟨⟨db1, holdings⟩, h1, h⟩ := bind_eq_ok.1 h
    obtain ⟨⟨db2, payable⟩, h2, h⟩ := bind_eq_ok.1 h
    obtain ⟨debit, hdebit, h⟩ := bind_eq_ok.1 h
    obtain ⟨credit, hcredit, h⟩ := bind_eq_ok.1 h
    obtain ⟨⟨db3, fees⟩, h3, h⟩ := bind_eq_ok.1 h
    obtain ⟨db4, h4, h⟩ := bind_eq_ok.1 h
    cases h
    obtain ⟨accounts1, rfl, hc1, hsub1, hmem1, his1⟩ := ensureAccount_spec hb.charted h1
    obtain ⟨accounts2, rfl, hc2, hsub2, hmem2, his2⟩ := ensureAccount_spec hc1 h2
    obtain ⟨hsymbol1, hcode1, hasset1, hside1⟩ := createEntry_account hdebit
    obtain ⟨hsymbol2, hcode2, hasset2, hside2⟩ := createEntry_account hcredit
    have hdebitLeg : CreditLeg accounts2 params.network params.assetSymbol debit :=
      ⟨hasset1, holdings, hsub2 _ hmem1, hcode1.symm, .inl ⟨hside1, his1 hsymbol1⟩⟩
    have hcreditLeg : CreditLeg accounts2 params.network params.assetSymbol credit :=
      ⟨hasset2, payable, hmem2, hcode2.symm, .inr ⟨hside2, .inl (his2 hsymbol2)⟩⟩
    -- The fee leg, when there is one, on an account that may be new.
    have hfees : ∃ accounts3, db3 = { db with ledgerAccounts := accounts3 } ∧
        Charted accounts3 ∧ (∀ a ∈ accounts2, a ∈ accounts3) ∧
        ∀ e ∈ fees, CreditLeg accounts3 params.network params.assetSymbol e := by
      unfold feeLegs at h3
      split at h3
      · obtain ⟨⟨db5, revenue⟩, hrevenue, h3⟩ := bind_eq_ok.1 h3
        obtain ⟨fee, hfee, h3⟩ := bind_eq_ok.1 h3
        cases h3
        obtain ⟨accounts3, rfl, hc3, hsub3, hmem3, his3⟩ := ensureAccount_spec hc2 hrevenue
        obtain ⟨hsymbol3, hcode3, hasset3, hside3⟩ := createEntry_account hfee
        refine ⟨accounts3, rfl, hc3, hsub3, fun e he => ?_⟩
        rw [List.mem_singleton.1 he]
        exact ⟨hasset3, revenue, hmem3, hcode3.symm, .inr ⟨hside3, .inr (his3 hsymbol3)⟩⟩
      · cases h3
        exact ⟨accounts2, rfl, hc2, fun a ha => ha, fun e he => absurd he List.not_mem_nil⟩
    obtain ⟨accounts3, rfl, hc3, hsub3, hfeeLegs⟩ := hfees
    obtain ⟨hbalanced, hk, rfl⟩ := createPosting_eq_ok h4
    refine ⟨hc3, fun p hp => ?_⟩
    have hp' : p ∈ db.ledgerTransactions.insert (creditPosting params
      (debit :: credit :: fees) hbalanced) hk := hp
    rcases Table.mem_insert.1 hp' with hp | rfl
    · obtain ⟨network, symbol, hlegs⟩ := hb.credits p hp
      refine ⟨network, symbol, fun e he => (hlegs e he).mono fun a ha => ?_⟩
      exact hsub3 a (hsub2 a (hsub1 a ha))
    · refine ⟨params.network, params.assetSymbol, fun e he => ?_⟩
      rcases List.mem_cons.1 he with rfl | he
      · exact hdebitLeg.mono hsub3
      · rcases List.mem_cons.1 he with rfl | he
        · exact hcreditLeg.mono hsub3
        · exact hfeeLegs e he

/-! ## The two sides -/

/-- The two sides of a credit agree. -/
theorem CreditLeg.sides {accounts : Table LedgerAccount (·.code)} {network : Network}
    {symbol : String} {p : LedgerTransaction}
    (h : ∀ e ∈ p.entries, CreditLeg accounts network symbol e) :
    sideTotal p.entries .debit symbol = sideTotal p.entries .credit symbol := by
  obtain ⟨hlength, hbalanced⟩ := p.balanced
  obtain ⟨e, he⟩ := List.exists_mem_of_length_pos (Nat.lt_of_lt_of_le Nat.zero_lt_two hlength)
  have hside := hbalanced e he
  rwa [(h e he).symbol_eq] at hside

/-- Signed legs of one asset sum to the difference of its sides. -/
theorem sum_signed (entries : List LedgerEntry) (symbol : String)
    (h : ∀ e ∈ entries, e.assetSymbol = symbol) :
    ((entries.map LedgerEntry.leg).map DoubleEntry.Leg.signed).sum =
      sideTotal entries .debit symbol - sideTotal entries .credit symbol := by
  induction entries with
  | nil => rfl
  | cons e entries ih =>
    have hrest := ih fun x hx => h x (List.mem_cons_of_mem _ hx)
    have hsymbol := h e List.mem_cons_self
    rw [List.map_cons, List.map_cons, List.sum_cons, hrest]
    unfold sideTotal
    cases hd : e.direction
    · rw [List.filter_cons_of_pos (by simp [hd, hsymbol]),
        List.filter_cons_of_neg (by simp [hd]), List.map_cons, List.sum_cons]
      simp only [LedgerEntry.leg, DoubleEntry.Leg.signed, hd, decide_true, if_true]
      omega
    · rw [List.filter_cons_of_neg (by simp [hd]),
        List.filter_cons_of_pos (by simp [hd, hsymbol]), List.map_cons, List.sum_cons]
      simp [LedgerEntry.leg, DoubleEntry.Leg.signed, hd]
      omega

/-- The accounts of a kind for an asset on a network: one for each merchant, or one. -/
def accountsOf (db : Db) (kind : LedgerAccountKind) (network : Network) (symbol : String) :
    List LedgerAccount :=
  db.ledgerAccounts.rows.filter fun a => IsAccount kind network symbol a

/-- Their balances, summed. -/
def balanceOfKind (db : Db) (kind : LedgerAccountKind) (network : Network) (symbol : String) :
    Int :=
  ((accountsOf db kind network symbol).map fun a => db.balanceOf a.code).sum

def codesOf (db : Db) (kind : LedgerAccountKind) (network : Network) (symbol : String) :
    List String := (accountsOf db kind network symbol).map (·.code)

theorem mem_codesOf {kind : LedgerAccountKind} {network : Network} {symbol : String}
    {a : LedgerAccount} (ha : a ∈ db.ledgerAccounts) :
    a.code ∈ codesOf db kind network symbol ↔ IsAccount kind network symbol a := by
  unfold codesOf accountsOf
  constructor
  · intro h
    obtain ⟨a', ha', hcode⟩ := List.mem_map.1 h
    obtain ⟨hmem, his⟩ := List.mem_filter.1 ha'
    have hsame : a' = a := Table.eq_of_key_eq hmem ha hcode
    exact hsame ▸ of_decide_eq_true his
  · intro h
    exact List.mem_map_of_mem (List.mem_filter.2 ⟨ha, decide_eq_true h⟩)

theorem codesOf_disjoint {kind kind' : LedgerAccountKind} {network : Network} {symbol code : String}
    (h : code ∈ codesOf db kind network symbol) (h' : code ∈ codesOf db kind' network symbol) :
    kind = kind' := by
  obtain ⟨a, ha, rfl⟩ := List.mem_map.1 h
  obtain ⟨hmem, -⟩ := List.mem_filter.1 ha
  exact (((mem_codesOf hmem).1 h).unique ((mem_codesOf hmem).1 h')).1

theorem codesOf_nodup (db : Db) (kind : LedgerAccountKind) (network : Network)
    (symbol : String) : (codesOf db kind network symbol).Nodup :=
  db.ledgerAccounts.nodup.sublist (List.filter_sublist.map _)

/-- The balances of a kind are the nets of its codes, turned to the side of its type. -/
theorem Booked.balanceOfKind_eq (hb : Booked db) (kind : LedgerAccountKind) (network : Network)
    (symbol : String) :
    balanceOfKind db kind network symbol = ((codesOf db kind network symbol).map fun code =>
      if debitIncreases (ledgerAccountType kind) then DoubleEntry.net db.postings.flatten code
      else -DoubleEntry.net db.postings.flatten code).sum := by
  unfold balanceOfKind codesOf
  rw [List.map_map]
  congr 1
  refine List.map_congr_left fun a ha => ?_
  obtain ⟨hmem, his⟩ := List.mem_filter.1 ha
  obtain ⟨kind', network', his', htype⟩ := hb.charted a hmem
  have hkind : kind' = kind := (his'.unique (of_decide_eq_true his)).1
  rw [balanceOf_eq (Table.find?_of_mem hmem), htype, hkind]
  rfl

/-- What a posting has on the accounts of one asset on one network cancels. -/
theorem Booked.netOn_eq_zero (hb : Booked db) (network : Network) (symbol : String) :
    ∀ legs ∈ db.postings, DoubleEntry.netOn (· ∈ codesOf db .merchantHoldings network symbol ++
      (codesOf db .merchantPayable network symbol ++ codesOf db .feeRevenue network symbol))
      legs = 0 := by
  intro legs hlegs
  obtain ⟨p, hp, rfl⟩ := List.mem_map.1 hlegs
  obtain ⟨network', symbol', hcredit⟩ := hb.credits p hp
  by_cases hsame : network' = network ∧ symbol' = symbol
  · -- All legs are on these accounts.
    obtain ⟨rfl, rfl⟩ := hsame
    have hall : (p.legs.filter fun l => l.account ∈
        codesOf db .merchantHoldings network' symbol' ++
          (codesOf db .merchantPayable network' symbol' ++
            codesOf db .feeRevenue network' symbol')) = p.legs := by
      refine List.filter_eq_self.2 fun l hl => decide_eq_true ?_
      obtain ⟨e, he, rfl⟩ := List.mem_map.1 hl
      obtain ⟨a, ha, hcode, hside⟩ := (hcredit e he).account
      have haccount : e.leg.account = a.code := hcode.symm
      rw [haccount, List.mem_append, List.mem_append, mem_codesOf ha, mem_codesOf ha,
        mem_codesOf ha]
      rcases hside with ⟨-, h⟩ | ⟨-, h | h⟩
      · exact .inl h
      · exact .inr (.inl h)
      · exact .inr (.inr h)
    unfold DoubleEntry.netOn
    rw [hall, LedgerTransaction.legs,
      sum_signed p.entries symbol' fun e he => (hcredit e he).symbol_eq, CreditLeg.sides hcredit]
    omega
  · -- None is.
    refine DoubleEntry.netOn_false fun l hl hmem => hsame ?_
    obtain ⟨e, he, rfl⟩ := List.mem_map.1 hl
    obtain ⟨a, ha, hcode, hside⟩ := (hcredit e he).account
    have haccount : e.leg.account = a.code := hcode.symm
    rw [haccount, List.mem_append, List.mem_append, mem_codesOf ha, mem_codesOf ha,
      mem_codesOf ha] at hmem
    have hplace : ∀ {kind kind' : LedgerAccountKind}, IsAccount kind network symbol a →
        IsAccount kind' network' symbol' a → network' = network ∧ symbol' = symbol :=
      fun h h' => (h'.unique h).2
    rcases hmem with h | h | h <;> rcases hside with ⟨-, h'⟩ | ⟨-, h' | h'⟩ <;>
      exact hplace h h'

/-- **The identity.** -/
theorem Booked.identity (hb : Booked db) (network : Network) (symbol : String) :
    balanceOfKind db .merchantHoldings network symbol =
      balanceOfKind db .merchantPayable network symbol +
        balanceOfKind db .feeRevenue network symbol := by
  have hnodup : (codesOf db .merchantHoldings network symbol ++
      (codesOf db .merchantPayable network symbol ++
        codesOf db .feeRevenue network symbol)).Nodup := by
    refine List.nodup_append.2 ⟨codesOf_nodup _ _ _ _,
      List.nodup_append.2 ⟨codesOf_nodup _ _ _ _, codesOf_nodup _ _ _ _, ?_⟩, ?_⟩
    · rintro c hc c' hc' rfl
      exact LedgerAccountKind.noConfusion (codesOf_disjoint hc hc')
    · rintro c hc c' hc' rfl
      rcases List.mem_append.1 hc' with hc' | hc'
      · exact LedgerAccountKind.noConfusion (codesOf_disjoint hc hc')
      · exact LedgerAccountKind.noConfusion (codesOf_disjoint hc hc')
  have hsides := DoubleEntry.two_sides hnodup (hb.netOn_eq_zero network symbol)
  rw [hb.balanceOfKind_eq, hb.balanceOfKind_eq, hb.balanceOfKind_eq]
  rw [List.map_append, List.sum_append] at hsides
  exact hsides

/-! ## Calls -/

inductive LedgerCall
  | ensureAccount (kind : LedgerAccountKind) (ref : AccountRef) (merchantId : Option String)
  | postPaymentCredit (params : PostPaymentCreditParams)

def LedgerCall.apply : LedgerCall → Db → Except Error Db
  | ensureAccount kind ref merchantId, db =>
    (PaymentGateway.ensureAccount db kind ref merchantId).map (·.1)
  | postPaymentCredit params, db => (PaymentGateway.postPaymentCredit db params).map (·.1)

/-- Calls one after the other, each in its own transaction. -/
def ledgerCalls : Machine Db Error LedgerCall LedgerCall := ⟨LedgerCall.apply, fun c _ => [.ok c]⟩

theorem LedgerCall.booked {call : LedgerCall} (hb : Booked db) (h : call.apply db = .ok db') :
    Booked db' := by
  cases call with
  | ensureAccount kind ref merchantId =>
    cases hr : PaymentGateway.ensureAccount db kind ref merchantId with
    | error e => rw [LedgerCall.apply, hr] at h; cases h
    | ok r =>
      rw [LedgerCall.apply, hr] at h
      cases h
      obtain ⟨accounts, hdb, hcharted, hsub, -, -⟩ := ensureAccount_spec hb.charted hr
      show Booked r.1
      rw [hdb]
      refine ⟨hcharted, fun p hp => ?_⟩
      obtain ⟨network, symbol, hlegs⟩ := hb.credits p hp
      exact ⟨network, symbol, fun e he => (hlegs e he).mono hsub⟩
  | postPaymentCredit params =>
    cases hr : PaymentGateway.postPaymentCredit db params with
    | error e => rw [LedgerCall.apply, hr] at h; cases h
    | ok r =>
      rw [LedgerCall.apply, hr] at h
      cases h
      exact postPaymentCredit_booked hb hr

/-- A call under a key that is taken leaves the database as it is. -/
theorem postPaymentCredit_repeated {params : PostPaymentCreditParams}
    (htaken : (db.ledgerTransactions.find? params.idempotencyKey).isSome = true)
    (h : (LedgerCall.postPaymentCredit params).apply db = .ok db') : db' = db := by
  cases hr : postPaymentCredit db params with
  | error e => rw [LedgerCall.apply, hr] at h; cases h
  | ok r =>
    rw [LedgerCall.apply, hr] at h
    cases h
    rcases postPaymentCredit_eq_ok hr with ⟨-, hsame, -⟩ | ⟨_, _, _, hk, -⟩
    · exact hsame
    · rw [show db.ledgerTransactions.find? params.idempotencyKey = none from hk] at htaken
      cases htaken

/-- **The ledger stays balanced**: see the head of this module. -/
theorem ledger_identity
    (h : ledgerCalls.Reachable (fun _ => True) (fun _ _ => True) Db.empty db) :
    (∀ p ∈ db.ledgerTransactions, ∃ network symbol,
      (∀ e ∈ p.entries, e.assetSymbol = symbol ∧ ∃ a,
        db.ledgerAccounts.find? e.accountCode = some a ∧ a.network = some network ∧
        a.assetSymbol = symbol) ∧
      sideTotal p.entries .debit symbol = sideTotal p.entries .credit symbol) ∧
    (∀ network symbol, balanceOfKind db .merchantHoldings network symbol =
      balanceOfKind db .merchantPayable network symbol +
        balanceOfKind db .feeRevenue network symbol) ∧
    ∀ (params : PostPaymentCreditParams) (db' : Db),
      (db.ledgerTransactions.find? params.idempotencyKey).isSome = true →
      (LedgerCall.postPaymentCredit params).apply db = .ok db' →
      ∀ code, db'.balanceOf code = db.balanceOf code := by
  have hkind : ∀ op (s : Db), True → ∀ t, Except.ok t ∈ ledgerCalls.script op s → True :=
    fun _ _ _ _ _ => trivial
  have hstep : ∀ t (a b : Db), True → Booked a → True → ledgerCalls.apply t a = .ok b → Booked b :=
    fun t a b _ ha _ hok => LedgerCall.booked ha hok
  have hb : Booked db := h.invariant hkind booked_empty hstep
  refine ⟨fun p hp => ?_, hb.identity, fun params db' htaken hok code => ?_⟩
  · obtain ⟨network, symbol, hlegs⟩ := hb.credits p hp
    refine ⟨network, symbol, fun e he => ⟨(hlegs e he).symbol_eq, ?_⟩, CreditLeg.sides hlegs⟩
    obtain ⟨a, ha, hcode, hside⟩ := (hlegs e he).account
    refine ⟨a, hcode ▸ Table.find?_of_mem ha, ?_⟩
    rcases hside with ⟨-, h⟩ | ⟨-, h | h⟩ <;> exact ⟨h.network_eq, h.symbol_eq⟩
  · rw [postPaymentCredit_repeated htaken hok]

/-- A credit of 100 USDT at 1 %, asked for twice, and one of another merchant without a fee. -/
def creditCalls : List LedgerCall := [
  .postPaymentCredit ⟨"m", "i", ⟨.ethereum, "a", 5⟩, .ethereum, "USDT", 6, ⟨100000000, "USDT", 6⟩,
    100, "credit:ETHEREUM:a:5"⟩,
  .postPaymentCredit ⟨"m", "i", ⟨.ethereum, "a", 5⟩, .ethereum, "USDT", 6, ⟨100000000, "USDT", 6⟩,
    100, "credit:ETHEREUM:a:5"⟩,
  .postPaymentCredit ⟨"n", "j", ⟨.ethereum, "b", 7⟩, .ethereum, "USDT", 6, ⟨250, "USDT", 6⟩, 0,
    "credit:ETHEREUM:b:7"⟩]

/-- The database after these calls. -/
def creditedLedger : Db := (ledgerCalls.log creditCalls [Db.empty]).headD Db.empty

theorem ledger_identity_credited :
    balanceOfKind creditedLedger .merchantHoldings .ethereum "USDT" = 100000250 ∧
    balanceOfKind creditedLedger .merchantPayable .ethereum "USDT" +
      balanceOfKind creditedLedger .feeRevenue .ethereum "USDT" = 100000250 := by
  have hreach : ledgerCalls.Reachable (fun _ => True) (fun _ _ => True) Db.empty creditedLedger :=
    Machine.reachable_log (fun _ _ => trivial) (Machine.allMeet_true _ _)
  have hidentity := (ledger_identity hreach).2.1 .ethereum "USDT"
  have hholdings : balanceOfKind creditedLedger .merchantHoldings .ethereum "USDT" = 100000250 := by
    decide +kernel
  exact ⟨hholdings, hidentity.symm.trans hholdings⟩

end PaymentGateway
