import PaymentGateway.Ledger.Identity

/-!
# Reading account codes

`parseLedgerAccountCode` cuts a code at its colons and takes the fields by their number. It asks
whether the first field is a kind with `in`, which also finds the names that every object inherits,
and it does not look whether a field is empty.

**Theorem (`parseLedgerAccountCode_inverse`).** The code of every account key is read back as the
key, and two keys with one code are equal. A text is read only if it is the code of a key, unless
its first field is an inherited name and it has three fields, or it has a kind with its own number
of fields one of which is empty.

The fields of a key are free of the colon, so its code is its fields joined (`AccountKey.code_eq_ok`),
and cutting gives them back (`Separated.fields_join`). In the other direction a text is its own
fields joined (`Separated.join_fields`), so a text whose fields are those of a key is its code.
-/

namespace PaymentGateway

open Fallible

/-! ## The parser -/

namespace LedgerAccountKind

def all : List LedgerAccountKind :=
  [gatewayHoldings, merchantHoldings, merchantPayable, customerInflow, customerRefund, feeRevenue,
    networkFeeExpense, suspense]

theorem mem_all (kind : LedgerAccountKind) : kind ∈ all := by
  cases kind <;> decide

/-- The kind of this name. -/
def named (name : String) : Option LedgerAccountKind :=
  all.find? (·.name = name)

theorem named_eq_some {name : String} {kind : LedgerAccountKind} :
    named name = some kind ↔ kind.name = name := by
  constructor
  · intro h
    simpa using List.find?_some h
  · rintro rfl
    cases kind <;> decide

end LedgerAccountKind

/-- The names that every object literal inherits from `Object.prototype`. -/
def objectPrototypeNames : List String :=
  ["constructor", "__defineGetter__", "__defineSetter__", "hasOwnProperty", "__lookupGetter__",
    "__lookupSetter__", "isPrototypeOf", "propertyIsEnumerable", "toString", "valueOf", "__proto__",
    "toLocaleString"]

/-- `kind in ACCOUNT_TYPES`: a key of the table, or a name that it inherits. -/
def inAccountTypes (kind : String) : Bool :=
  (LedgerAccountKind.named kind).isSome || objectPrototypeNames.contains kind

structure ParsedAccountCode where
  kind : String
  merchantId : Option String
  network : String
  assetSymbol : String
  deriving DecidableEq, Repr

/-- Whether the parser takes the kind for one of a merchant's. -/
def ParsedAccountCode.isScoped (p : ParsedAccountCode) : Bool :=
  (LedgerAccountKind.named p.kind).any isMerchantScoped

/-- The fields of a code in their order. -/
def ParsedAccountCode.fields (p : ParsedAccountCode) : List String :=
  p.kind :: (p.merchantId.toList ++ [p.network, p.assetSymbol])

def parseLedgerAccountCode (code : String) : Except Error ParsedAccountCode :=
  let parts := Separated.fields ':' code
  let kind := parts.headD ""
  if kind = "" ∨ inAccountTypes kind = false then
    .error (.payment ("unrecognised ledger account code: " ++ code))
  else if (LedgerAccountKind.named kind).any isMerchantScoped then
    match parts with
    | [_, merchantId, network, assetSymbol] => .ok ⟨kind, some merchantId, network, assetSymbol⟩
    | _ => .error (.payment ("malformed merchant-scoped account code: " ++ code))
  else
    match parts with
    | [_, network, assetSymbol] => .ok ⟨kind, none, network, assetSymbol⟩
    | _ => .error (.payment ("malformed account code: " ++ code))

/-- What the parser accepts, and what it returns. -/
theorem parseLedgerAccountCode_eq_ok {code : String} {p : ParsedAccountCode} :
    parseLedgerAccountCode code = .ok p ↔ Separated.fields ':' code = p.fields ∧
      inAccountTypes p.kind = true ∧ p.merchantId.isSome = p.isScoped := by
  have hempty : inAccountTypes "" = false := by decide
  obtain ⟨kind, merchantId, network, assetSymbol⟩ := p
  unfold parseLedgerAccountCode
  constructor
  · intro h
    dsimp only at h
    split at h
    · cases h
    · next hkind =>
      rw [not_or, Bool.not_eq_false] at hkind
      split at h
      · next hscoped =>
        split at h
        · next hparts =>
          rw [hparts] at hkind hscoped h ⊢
          cases h
          exact ⟨rfl, hkind.2, hscoped.symm⟩
        · cases h
      · next hscoped =>
        split at h
        · next hparts =>
          rw [hparts] at hkind hscoped h ⊢
          cases h
          exact ⟨rfl, hkind.2, ((Bool.not_eq_true _).mp hscoped).symm⟩
        · cases h
  · rintro ⟨hparts, hkind, hscoped⟩
    have hne : kind ≠ "" := by
      rintro rfl
      exact Bool.noConfusion (hempty.symm.trans hkind)
    have hhead : ¬(kind = "" ∨ inAccountTypes kind = false) := by
      simp [hne, show inAccountTypes kind = true from hkind]
    cases merchantId with
    | none =>
      have hplatform : ¬(LedgerAccountKind.named kind).any isMerchantScoped = true := by
        rw [← show false = (LedgerAccountKind.named kind).any isMerchantScoped from hscoped]
        exact Bool.false_ne_true
      rw [hparts]
      exact (if_neg hhead).trans (if_neg hplatform)
    | some merchant =>
      have hmerchant : (LedgerAccountKind.named kind).any isMerchantScoped = true :=
        hscoped.symm
      rw [hparts]
      exact (if_neg hhead).trans (if_pos hmerchant)

/-! ## Account keys -/

/-- A text that can stand between two colons. -/
def IsField (text : String) : Prop :=
  text ≠ "" ∧ ':' ∉ text.toList

instance : DecidablePred IsField := fun text =>
  inferInstanceAs (Decidable (text ≠ "" ∧ ':' ∉ text.toList))

/-- What a code is made of: a merchant for the kinds that are scoped to one, and fields that are
not empty and free of the colon. The network is any such text. -/
structure AccountKey where
  kind : LedgerAccountKind
  merchantId : Option String
  network : String
  assetSymbol : String
  isSome_merchantId : merchantId.isSome = isMerchantScoped kind
  merchantId_isField : ∀ merchant, merchantId = some merchant → IsField merchant
  network_isField : IsField network
  assetSymbol_isField : IsField assetSymbol

namespace AccountKey

def code (key : AccountKey) : Except Error String :=
  accountCode key.kind key.merchantId key.network key.assetSymbol

/-- The key as the parser gives it. -/
def parsed (key : AccountKey) : ParsedAccountCode :=
  ⟨key.kind.name, key.merchantId, key.network, key.assetSymbol⟩

variable {key key' : AccountKey} {text : String}

theorem parsed_injective (h : key.parsed = key'.parsed) : key = key' := by
  cases key
  cases key'
  simp only [parsed, ParsedAccountCode.mk.injEq] at h
  have hkind := LedgerAccountKind.name_injective (congrArg String.toList h.1)
  simp_all

theorem isField_of_mem {field : String} (h : field ∈ key.parsed.fields) : IsField field := by
  rcases List.mem_cons.1 h with rfl | h
  · refine ⟨?_, key.kind.colon_notMem_name⟩
    show key.kind.name ≠ ""
    cases key.kind <;> decide
  · rcases List.mem_append.1 h with h | h
    · exact key.merchantId_isField field (Option.mem_toList.1 h)
    · rcases List.mem_cons.1 h with rfl | h
      · exact key.network_isField
      · rw [List.mem_singleton.1 h]
        exact key.assetSymbol_isField

/-- The code is the fields, joined. -/
theorem code_eq_ok (key : AccountKey) : key.code = .ok (Separated.join ':' key.parsed.fields) := by
  have hcolon : ":" = String.singleton ':' := rfl
  unfold code accountCode
  cases hmerchant : key.merchantId with
  | none =>
    have hscoped : isMerchantScoped key.kind = false := by
      simpa [hmerchant] using key.isSome_merchantId.symm
    simp [hscoped, hmerchant, parsed, ParsedAccountCode.fields, Separated.join_cons_cons,
      Separated.join_singleton, hcolon, String.append_assoc]
  | some merchant =>
    have hscoped : isMerchantScoped key.kind = true := by
      simpa [hmerchant] using key.isSome_merchantId.symm
    have hfilter : (some merchant).filter (fun id => !decide (id = "")) = some merchant := by
      simp [Option.filter, (key.merchantId_isField merchant hmerchant).1]
    simp [hscoped, hmerchant, hfilter, parsed, ParsedAccountCode.fields, Separated.join_cons_cons,
      Separated.join_singleton, hcolon, String.append_assoc]

/-- A text is the code of a key when it has the key's fields. -/
theorem code_iff : key.code = .ok text ↔ Separated.fields ':' text = key.parsed.fields := by
  have hfields : Separated.fields ':' (Separated.join ':' key.parsed.fields) = key.parsed.fields :=
    Separated.fields_join (fun field h => (isField_of_mem h).2) (by simp [ParsedAccountCode.fields])
  rw [code_eq_ok, Except.ok.injEq]
  constructor
  · intro h
    rw [← h, hfields]
  · intro h
    rw [← h, Separated.join_fields]

theorem parse_code (h : key.code = .ok text) : parseLedgerAccountCode text = .ok key.parsed := by
  have hnamed : LedgerAccountKind.named key.parsed.kind = some key.kind :=
    LedgerAccountKind.named_eq_some.2 rfl
  refine parseLedgerAccountCode_eq_ok.2 ⟨code_iff.1 h, ?_, ?_⟩
  · rw [inAccountTypes, hnamed]
    rfl
  · rw [ParsedAccountCode.isScoped, hnamed]
    exact key.isSome_merchantId

end AccountKey

/-! ## What is accepted -/

/-- A text that is read although it is no code: an inherited name with two more fields, or a kind
with its own number of fields of which one is empty. -/
def Overlooked (text : String) : Prop :=
  let parts := Separated.fields ':' text
  (parts.headD "" ∈ objectPrototypeNames ∧ parts.length = 3) ∨
    ∃ kind ∈ LedgerAccountKind.all, kind.name = parts.headD "" ∧
      parts.length = (if isMerchantScoped kind then 4 else 3) ∧ "" ∈ parts

instance : DecidablePred Overlooked := fun text => by
  unfold Overlooked
  infer_instance

/-- No account kind has the name of an inherited property. -/
theorem named_eq_none {name : String} (h : name ∈ objectPrototypeNames) :
    LedgerAccountKind.named name = none := by
  have hall : ∀ name ∈ objectPrototypeNames, LedgerAccountKind.named name = none := by decide
  exact hall name h

theorem ParsedAccountCode.length_fields (p : ParsedAccountCode) :
    p.fields.length = if p.merchantId.isSome then 4 else 3 := by
  cases h : p.merchantId <;> simp [ParsedAccountCode.fields, h]

/-- An accepted text is overlooked when its first field is no kind or a field is empty. -/
theorem overlooked_iff {text : String} {p : ParsedAccountCode}
    (h : parseLedgerAccountCode text = .ok p) :
    Overlooked text ↔ LedgerAccountKind.named p.kind = none ∨ "" ∈ p.fields := by
  obtain ⟨hfields, hkind, hscoped⟩ := parseLedgerAccountCode_eq_ok.1 h
  have hlength := p.length_fields
  rw [hscoped, ParsedAccountCode.isScoped] at hlength
  have hhead : p.fields.headD "" = p.kind := rfl
  unfold Overlooked
  dsimp only
  rw [hfields, hhead]
  cases hnamed : LedgerAccountKind.named p.kind with
  | none =>
    rw [hnamed] at hlength
    rw [inAccountTypes, hnamed, Option.isSome_none, Bool.false_or] at hkind
    have hmem : p.kind ∈ objectPrototypeNames := List.contains_iff_mem.1 hkind
    simp [hmem, hlength]
  | some kind =>
    rw [hnamed] at hlength
    have hname := LedgerAccountKind.named_eq_some.1 hnamed
    have hmem : p.kind ∉ objectPrototypeNames := by
      intro hmem
      exact Option.some_ne_none kind (hnamed.symm.trans (named_eq_none hmem))
    constructor
    · rintro (⟨hmem', -⟩ | ⟨_, -, -, -, hempty⟩)
      · exact absurd hmem' hmem
      · exact .inr hempty
    · rintro (habsurd | hempty)
      · cases habsurd
      · exact .inr ⟨kind, kind.mem_all, hname, hlength, hempty⟩

/-- A text that is read with a kind and no empty field is the code of the key it is read as. -/
theorem exists_key {text : String} {p : ParsedAccountCode} {kind : LedgerAccountKind}
    (h : parseLedgerAccountCode text = .ok p) (hnamed : LedgerAccountKind.named p.kind = some kind)
    (hempty : "" ∉ p.fields) : ∃ key : AccountKey, key.code = .ok text ∧ key.parsed = p := by
  obtain ⟨hfields, -, hscoped⟩ := parseLedgerAccountCode_eq_ok.1 h
  have hfield : ∀ field ∈ p.fields, IsField field := by
    intro field hmem
    refine ⟨fun heq => hempty (heq ▸ hmem), ?_⟩
    rw [← hfields] at hmem
    exact Separated.notMem_of_mem_fields hmem
  rw [ParsedAccountCode.isScoped, hnamed] at hscoped
  have hname := LedgerAccountKind.named_eq_some.1 hnamed
  let key : AccountKey :=
    { kind := kind
      merchantId := p.merchantId
      network := p.network
      assetSymbol := p.assetSymbol
      isSome_merchantId := hscoped
      merchantId_isField := by
        intro merchant hmerchant
        exact hfield merchant (by simp [ParsedAccountCode.fields, hmerchant])
      network_isField := hfield p.network (by simp [ParsedAccountCode.fields])
      assetSymbol_isField := hfield p.assetSymbol (by simp [ParsedAccountCode.fields]) }
  have hparsed : key.parsed = p := by
    show (⟨kind.name, p.merchantId, p.network, p.assetSymbol⟩ : ParsedAccountCode) = p
    rw [hname]
  exact ⟨key, AccountKey.code_iff.2 (by rw [hparsed, hfields]), hparsed⟩

theorem Overlooked.accepted {text : String} (h : Overlooked text) :
    ∃ p, parseLedgerAccountCode text = .ok p := by
  rcases h with ⟨hmem, hlength⟩ | ⟨kind, -, hname, hlength, -⟩
  · obtain ⟨first, network, assetSymbol, hparts⟩ := List.length_eq_three.1 hlength
    replace hmem : first ∈ objectPrototypeNames := by rwa [hparts] at hmem
    refine ⟨⟨first, none, network, assetSymbol⟩, parseLedgerAccountCode_eq_ok.2 ⟨hparts, ?_, ?_⟩⟩
    · rw [inAccountTypes, List.contains_iff_mem.2 hmem, Bool.or_true]
    · rw [ParsedAccountCode.isScoped, named_eq_none hmem]
      rfl
  · have hnamed := LedgerAccountKind.named_eq_some.2 hname
    have hknown : ∀ p : ParsedAccountCode, p.kind = (Separated.fields ':' text).headD "" →
        inAccountTypes p.kind = true ∧ p.isScoped = isMerchantScoped kind := by
      intro p hp
      rw [inAccountTypes, ParsedAccountCode.isScoped, hp, hnamed]
      exact ⟨rfl, rfl⟩
    cases hscoped : isMerchantScoped kind with
    | true =>
      rw [hscoped, if_pos rfl] at hlength
      obtain ⟨first, merchant, network, assetSymbol, hparts⟩ := List.length_eq_four.1 hlength
      let p : ParsedAccountCode := ⟨first, some merchant, network, assetSymbol⟩
      obtain ⟨hkind, hp⟩ := hknown p (by rw [hparts]; rfl)
      exact ⟨p, parseLedgerAccountCode_eq_ok.2 ⟨hparts, hkind, (hp.trans hscoped).symm⟩⟩
    | false =>
      rw [hscoped, if_neg Bool.false_ne_true] at hlength
      obtain ⟨first, network, assetSymbol, hparts⟩ := List.length_eq_three.1 hlength
      let p : ParsedAccountCode := ⟨first, none, network, assetSymbol⟩
      obtain ⟨hkind, hp⟩ := hknown p (by rw [hparts]; rfl)
      exact ⟨p, parseLedgerAccountCode_eq_ok.2 ⟨hparts, hkind, (hp.trans hscoped).symm⟩⟩

theorem Overlooked.code_ne {text : String} (h : Overlooked text) (key : AccountKey) :
    key.code ≠ .ok text := by
  intro hcode
  rcases (overlooked_iff (AccountKey.parse_code hcode)).1 h with hnone | hempty
  · have hnamed : LedgerAccountKind.named key.parsed.kind = some key.kind :=
      LedgerAccountKind.named_eq_some.2 rfl
    rw [hnamed] at hnone
    cases hnone
  · exact (AccountKey.isField_of_mem hempty).1 rfl

/-- What is read is the key of the code, exactly when the text is not overlooked. -/
theorem accepted_iff {text : String} :
    (∀ p, parseLedgerAccountCode text = .ok p →
      ∃ key : AccountKey, key.code = .ok text ∧ key.parsed = p) ↔ ¬Overlooked text := by
  constructor
  · intro h hover
    obtain ⟨p, hp⟩ := hover.accepted
    obtain ⟨key, hkey, -⟩ := h p hp
    exact hover.code_ne key hkey
  · intro hover p hp
    rw [overlooked_iff hp, not_or] at hover
    obtain ⟨kind, hnamed⟩ := Option.ne_none_iff_exists'.1 hover.1
    exact exists_key hp hnamed hover.2

/-- The parser inverts the printer on keys, the printer is injective on them, and the parser accepts
only codes, but for the overlooked texts. -/
theorem parseLedgerAccountCode_inverse (key key' : AccountKey) (text : String) :
    (∃ code, key.code = .ok code ∧ parseLedgerAccountCode code = .ok key.parsed) ∧
    (key.code = key'.code → key = key') ∧
    ((∀ p, parseLedgerAccountCode text = .ok p →
      ∃ key : AccountKey, key.code = .ok text ∧ key.parsed = p) ↔ ¬Overlooked text) := by
  refine ⟨⟨_, key.code_eq_ok, AccountKey.parse_code key.code_eq_ok⟩, fun h => ?_, accepted_iff⟩
  have hparsed := AccountKey.parse_code (h.symm.trans key.code_eq_ok)
  rw [AccountKey.parse_code key.code_eq_ok] at hparsed
  exact AccountKey.parsed_injective (Except.ok.inj hparsed)

/-- `constructor:ETHEREUM:USDT` and `merchant_payable::ETHEREUM:USDT` are read as account codes, and
they are the code of no key. -/
theorem parseLedgerAccountCode_inherited :
    parseLedgerAccountCode "constructor:ETHEREUM:USDT" =
      .ok ⟨"constructor", none, "ETHEREUM", "USDT"⟩ ∧
    (∀ key : AccountKey, key.code ≠ .ok "constructor:ETHEREUM:USDT") ∧
    parseLedgerAccountCode "merchant_payable::ETHEREUM:USDT" =
      .ok ⟨"merchant_payable", some "", "ETHEREUM", "USDT"⟩ ∧
    ∀ key : AccountKey, key.code ≠ .ok "merchant_payable::ETHEREUM:USDT" := by
  have hinherited : Overlooked "constructor:ETHEREUM:USDT" := by decide +kernel
  have hempty : Overlooked "merchant_payable::ETHEREUM:USDT" := by decide +kernel
  exact ⟨by decide +kernel, hinherited.code_ne, by decide +kernel, hempty.code_ne⟩

end PaymentGateway
