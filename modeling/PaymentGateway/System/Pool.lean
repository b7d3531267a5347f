import Mathlib.Data.List.Pairwise
import PaymentGateway.System.Interleaving

/-!
# The pool of deposit addresses

`createInvoice` picks the oldest free address and locks its row, in statements of one transaction
that commits or rolls back whole; `FOR UPDATE SKIP LOCKED` passes over the rows that other
transactions hold. `pool` is the machine in which any number of creations are between two of their
statements, and all other writers of the payment tables work at the same time.

**Theorem (`addresses_exclusive`).** In every run an address that has been assigned keeps its
invoice and never becomes AVAILABLE again; and a creation that fails, wherever it is, leaves no
invoice and leaves its address AVAILABLE.

What a row can go through is `AddressStep`. The invariant `PoolSafe` says that the creations in
flight hold different rows, each as it was picked, and that what a cancellation will retire is
assigned. The other writers keep off the held rows because these are AVAILABLE and unassigned.
-/

namespace PaymentGateway

open Keyed Fallible Transactional MonitorService InvoicesService

variable {db db' : Db}

/-! ## Steps of one address -/

/-- What one transaction can do to the address under one key. -/
inductive AddressStep : Option PaymentAddress → Option PaymentAddress → Prop
  | same (r : Option PaymentAddress) : AddressStep r r
  | registered {a : PaymentAddress} (hstatus : a.status = .available)
      (hinvoice : a.invoiceId = none) : AddressStep none (some a)
  | assigned {a : PaymentAddress} (hstatus : a.status = .available) (id : String) (now : Int) :
      AddressStep (some a) (some (assign id now a))
  | retired (a : PaymentAddress) (now : Int) : AddressStep (some a) (some (retire now a))

/-- A free address is nobody's. -/
def Unassigned (db : Db) : Prop := ∀ a ∈ db.addresses, a.status = .available → a.invoiceId = none

/-- An assigned address keeps its invoice and stays out of the pool. -/
def KeepsAssigned (db db' : Db) : Prop :=
  ∀ key a id, db.addresses.find? key = some a → a.invoiceId = some id →
    ∃ a', db'.addresses.find? key = some a' ∧ a'.invoiceId = some id ∧ a'.status ≠ .available

theorem Unassigned.step (h : Unassigned db)
    (hstep : ∀ k, AddressStep (db.addresses.find? k) (db'.addresses.find? k)) : Unassigned db' := by
  intro a ha hstatus
  have hrow := hstep a.key
  rw [Table.find?_of_mem ha] at hrow
  generalize hold : db.addresses.find? a.key = old at hrow
  generalize hnew : some a = new at hrow
  cases hrow with
  | same => exact h a (Table.mem_of_find? (hold.trans hnew.symm)) hstatus
  | registered _ hinvoice => cases hnew; exact hinvoice
  | assigned => cases hnew; cases hstatus
  | retired => cases hnew; cases hstatus

theorem KeepsAssigned.of_step (h : Unassigned db)
    (hstep : ∀ k, AddressStep (db.addresses.find? k) (db'.addresses.find? k)) :
    KeepsAssigned db db' := by
  intro key a id hfind hid
  have havailable : a.status ≠ .available := by
    intro hstatus
    rw [h a (Table.mem_of_find? hfind) hstatus] at hid
    cases hid
  have hrow := hstep key
  rw [hfind] at hrow
  generalize hold : some a = old at hrow
  generalize hnew : db'.addresses.find? key = new at hrow
  cases hrow with
  | same => exact ⟨a, hold.symm, hid, havailable⟩
  | registered => cases hold
  | assigned hstatus => cases hold; exact absurd hstatus havailable
  | retired => cases hold; exact ⟨_, rfl, hid, AddressStatus.noConfusion⟩

theorem KeepsAssigned.trans {x : Db} (h : KeepsAssigned db x) (h' : KeepsAssigned x db') :
    KeepsAssigned db db' := by
  intro key a id hfind hid
  obtain ⟨mid, hmid, hmidid, -⟩ := h key a id hfind hid
  exact h' key mid id hmid hmidid

/-- What is assigned in both is assigned to the same invoice. -/
def SameOwners (db db' : Db) : Prop :=
  ∀ key a a' id id', db.addresses.find? key = some a → db'.addresses.find? key = some a' →
    a.invoiceId = some id → a'.invoiceId = some id' → id = id'

theorem SameOwners.symm (h : SameOwners db db') : SameOwners db' db :=
  fun key a a' id id' ha ha' hid hid' => (h key a' a id' id ha' ha hid' hid).symm

theorem SameOwners.refl (db : Db) : SameOwners db db := by
  intro key a a' id id' ha ha' hid hid'
  rw [ha] at ha'
  cases ha'
  exact Option.some.inj (hid.symm.trans hid')

theorem KeepsAssigned.sameOwners (h : KeepsAssigned db db') : SameOwners db db' := by
  intro key a a' id id' ha ha' hid hid'
  obtain ⟨last, hlast, hlastid, -⟩ := h key a id ha hid
  rw [ha'] at hlast
  cases hlast
  exact Option.some.inj (hlastid.symm.trans hid')

theorem unassigned_empty : Unassigned Db.empty := fun a ha => absurd ha (Table.not_mem_empty a)

/-! ## Writers of addresses -/

theorem Effect.addresses_eq {may : Right → Prop} (h : Effect may db db')
    (hconfigure : ¬ may .configure) (hcancel : ¬ may .cancel) : db'.addresses = db.addresses := by
  cases h with
  | record _ _ _ _ =>
    obtain ⟨transfers, hupsert⟩ := Db.upsertTransfer_eq db _
    rw [hupsert]
  | recordMove _ _ _ _ _ _ _ =>
    obtain ⟨transfers, hupsert⟩ := Db.upsertTransfer_eq db _
    rw [hupsert]
    rfl
  | accept _ haccept =>
    obtain ⟨now, db1, hpaid, hcredits⟩ := haccept.credits
    obtain ⟨_, _, _, _, _, _, _, _, -, -, rfl⟩ := accept_frame hpaid hcredits
    rfl
  | create hmay => exact absurd hmay hconfigure
  | merchants hmay => exact absurd hmay hconfigure
  | address hmay => exact absurd hmay hconfigure
  | cancel hmay => exact absurd hmay hcancel
  | _ => rfl

theorem Effects.addresses_eq {may : Right → Prop} (h : Effects may db db')
    (hconfigure : ¬ may .configure) (hcancel : ¬ may .cancel) : db'.addresses = db.addresses :=
  h.invariant (fun x => x.addresses = db.addresses) rfl fun _ _ ha hab =>
    (hab.addresses_eq hconfigure hcancel).trans ha

theorem registerAddress_step {merchantId address : String} {key : AddressKey}
    {assetSymbol : Option String} {now : Int}
    (h : Environment.registerAddress merchantId key address assetSymbol now db = .ok db')
    (k : AddressKey) :
    db'.addresses.find? k = db.addresses.find? k ∨
      (db.addresses.find? k = none ∧
        AddressStep (db.addresses.find? k) (db'.addresses.find? k)) := by
  obtain ⟨row, hfree, hstatus, hunused, rfl⟩ := registerAddress_eq_ok h
  simp only [Table.find?_insert]
  by_cases hk : row.key = k
  · subst hk
    rw [if_pos rfl, hfree]
    exact .inr ⟨rfl, .registered hstatus hunused⟩
  · rw [if_neg hk]
    exact .inl rfl

/-- A cancellation retires the address it has read, and touches no other. -/
theorem cancelWrite_step {read : CancelRead} {now : Int} (h : cancelWrite read now db = .ok db')
    (k : AddressKey) :
    db'.addresses.find? k = db.addresses.find? k ∨
      ((∃ a ∈ read.paymentAddress, a.key = k) ∧
        AddressStep (db.addresses.find? k) (db'.addresses.find? k)) := by
  obtain ⟨db1, hwrite, h⟩ := bind_eq_ok.1 h
  obtain ⟨db2, hretire, hwebhook⟩ := bind_eq_ok.1 h
  obtain ⟨stored, events, -, -, rfl⟩ := Db.writeStatus_eq_ok hwrite
  obtain ⟨webhooks, -, rfl⟩ := Db.createWebhook_eq_ok hwebhook
  show db2.addresses.find? k = _ ∨ _ ∧ AddressStep _ (db2.addresses.find? k)
  unfold retireAddress at hretire
  split at hretire
  · cases hretire
    exact .inl rfl
  · next a haddress =>
    split at hretire
    · cases hretire
    · next old hold =>
      cases hretire
      have hold : db.addresses.find? a.key = some old := hold
      show (db.addresses.modify a.key (retire now) (retire_key now)).find? k = _ ∨
        _ ∧ AddressStep _ ((db.addresses.modify a.key (retire now) (retire_key now)).find? k)
      by_cases hk : k = a.key
      · subst hk
        rw [Table.find?_modify_self, hold]
        exact .inr ⟨⟨a, haddress, rfl⟩, .retired old now⟩
      · rw [Table.find?_modify_ne hk]
        exact .inl rfl

/-! ## A creation and its statements -/

/-- A creation in flight: the row it will insert, the address it holds as it was read, and how many
of its statements have run. -/
structure Creation where
  invoice : Invoice
  address : PaymentAddress
  now : Int
  done : Nat

namespace Creation

inductive Statement
  | createInvoice | assignAddress | createEvents | createWebhook
  deriving DecidableEq, Repr

/-- The statements that follow the choice of the address. -/
def statements : List Statement := [.createInvoice, .assignAddress, .createEvents, .createWebhook]

def run (c : Creation) : Statement → Db → Except Error Db
  | .createInvoice, db => db.createInvoice c.invoice
  | .assignAddress, db => .ok (InvoicesService.assignAddress db c.address c.invoice.id c.now)
  | .createEvents, db => do
    let db ← db.createEvent ⟨c.invoice.id, 1, "invoice.created", none, .created, "system", [],
      Nat.one_pos⟩
    db.createEvent ⟨c.invoice.id, 2, "payment.created", some .created, .pending, "system",
      [("address", c.address.address)], Nat.two_pos⟩
  | .createWebhook, db =>
    db.createWebhook
      (Db.webhookFor .paymentCreated c.invoice.merchantId c.invoice.id c.invoice.orderId)

/-- What the transaction sees: its own statements on top of what is committed. -/
def view (c : Creation) (n : Nat) (db : Db) : Except Error Db :=
  (statements.take n).foldlM (fun db statement => c.run statement db) db

end Creation

/-- The oldest free address whose row no other transaction holds. -/
def freeAddressSkipLocked (db : Db) (locked : List AddressKey) (merchantId : String)
    (network : Network) (symbol : String) : Option PaymentAddress :=
  ((db.addresses.rows.filter fun a => a.merchantId = merchantId ∧ a.key.network = network ∧
    a.status = .available ∧ (a.assetSymbol = none ∨ a.assetSymbol = some symbol) ∧
    a.key ∉ locked).mergeSort fun a b => decide (a.createdAt ≤ b.createdAt)).head?

theorem freeAddressSkipLocked_spec {locked : List AddressKey} {merchantId symbol : String}
    {network : Network} {a : PaymentAddress}
    (h : freeAddressSkipLocked db locked merchantId network symbol = some a) :
    db.addresses.find? a.key = some a ∧ a.status = .available ∧ a.key ∉ locked := by
  have hmem := List.mem_of_mem_head? h
  rw [List.mem_mergeSort] at hmem
  obtain ⟨hrow, hp⟩ := List.mem_filter.1 hmem
  simp only [Bool.decide_and, Bool.and_eq_true, decide_eq_true_eq] at hp
  exact ⟨Table.find?_of_mem hrow, hp.2.2.1, hp.2.2.2.2⟩

theorem freeAddressSkipLocked_nil (db : Db) (merchantId : String) (network : Network)
    (symbol : String) :
    freeAddressSkipLocked db [] merchantId network symbol =
      freeAddress db merchantId network symbol := by
  simp [freeAddressSkipLocked, freeAddress]

/-- The transaction of the service is a creation that nobody else gets between. -/
theorem createInvoiceTransaction_eq {invoice : Invoice} {now : Int} {address : PaymentAddress}
    (h : freeAddressSkipLocked db [] invoice.merchantId invoice.network invoice.paymentAsset =
      some address) :
    createInvoiceTransaction db invoice now =
      Creation.view ⟨invoice, address, now, 0⟩ Creation.statements.length db := by
  rw [freeAddressSkipLocked_nil] at h
  unfold createInvoiceTransaction
  rw [h]
  show (db.createInvoice invoice >>= _) = (db.createInvoice invoice >>= _)
  congr 1
  funext db1
  simp [Creation.run, bind_assoc]
  rfl

/-- What a whole creation leaves. -/
theorem Creation.view_eq_ok {c : Creation}
    (h : c.view Creation.statements.length db = .ok db') :
    ∃ (hfree : db.invoices.find? c.invoice.id = none),
      db'.invoices = db.invoices.insert c.invoice hfree ∧
      db'.addresses = db.addresses.modify c.address.key (assign c.invoice.id c.now)
        (assign_key c.invoice.id c.now) := by
  obtain ⟨db1, hinsert, h⟩ := bind_eq_ok.1 h
  obtain ⟨db2, hassign, h⟩ := bind_eq_ok.1 h
  obtain ⟨db3, hevents, h⟩ := bind_eq_ok.1 h
  obtain ⟨db4, hwebhook, h⟩ := bind_eq_ok.1 h
  obtain ⟨db5, hfirst, hsecond⟩ := bind_eq_ok.1 hevents
  cases pure_eq_ok.1 h
  obtain ⟨hfree, rfl⟩ := Db.createInvoice_eq_ok hinsert
  cases hassign
  obtain ⟨_, rfl⟩ := Db.createEvent_eq_ok hfirst
  obtain ⟨_, rfl⟩ := Db.createEvent_eq_ok hsecond
  obtain ⟨webhooks, -, rfl⟩ := Db.createWebhook_eq_ok hwebhook
  exact ⟨hfree, rfl, rfl⟩

theorem Creation.address_step {c : Creation}
    (hheld : db.addresses.find? c.address.key = some c.address)
    (hstatus : c.address.status = .available)
    (h : c.view Creation.statements.length db = .ok db') (k : AddressKey) :
    AddressStep (db.addresses.find? k) (db'.addresses.find? k) := by
  obtain ⟨hfree, -, haddresses⟩ := Creation.view_eq_ok h
  rw [haddresses]
  by_cases hk : k = c.address.key
  · subst hk
    rw [Table.find?_modify_self, hheld]
    exact .assigned hstatus _ _
  · rw [Table.find?_modify_ne hk]
    exact .same _

theorem createInvoice_step {request : CreateInvoice} {now : Int}
    (h : InvoicesService.createInvoice request now db = .ok db') (k : AddressKey) :
    AddressStep (db.addresses.find? k) (db'.addresses.find? k) := by
  unfold InvoicesService.createInvoice at h
  split at h
  · cases h
  obtain ⟨merchant, -, h⟩ := bind_eq_ok.1 h
  obtain ⟨required, -, h⟩ := bind_eq_ok.1 h
  obtain ⟨invoice, -, h⟩ := bind_eq_ok.1 h
  cases hpick : freeAddressSkipLocked db [] invoice.merchantId invoice.network
      invoice.paymentAsset with
  | none =>
    rw [freeAddressSkipLocked_nil] at hpick
    unfold createInvoiceTransaction at h
    rw [hpick] at h
    cases h
  | some address =>
    rw [createInvoiceTransaction_eq hpick] at h
    obtain ⟨hfind, hstatus, -⟩ := freeAddressSkipLocked_spec hpick
    exact Creation.address_step hfind hstatus h k

/-- **What a transaction can do to an address.** -/
theorem Transaction.addressStep {t : Transaction} (h : t.apply db = .ok db') (k : AddressKey) :
    AddressStep (db.addresses.find? k) (db'.addresses.find? k) := by
  have hquiet : ¬ t.rights .configure → ¬ t.rights .cancel →
      AddressStep (db.addresses.find? k) (db'.addresses.find? k) := by
    intro hconfigure hcancel
    rw [(Transaction.effects h).addresses_eq hconfigure hcancel]
    exact .same _
  cases t with
  | confirmTransfer => exact hquiet (by simp [Transaction.rights]) (by simp [Transaction.rights])
  | cancelWrite =>
    rcases cancelWrite_step h k with hsame | ⟨-, hstep⟩
    · rw [hsame]
      exact .same _
    · exact hstep
  | createInvoice => exact createInvoice_step h k
  | registerMerchant =>
    obtain ⟨hfree, rfl⟩ := registerMerchant_eq_ok h
    exact .same _
  | updateMerchant =>
    obtain rfl := updateMerchant_eq_ok h
    exact .same _
  | registerAddress =>
    rcases registerAddress_step h k with hsame | ⟨-, hstep⟩
    · rw [hsame]
      exact .same _
    · exact hstep
  | _ => exact hquiet Right.noConfusion Right.noConfusion

/-! ## The machine -/

/-- The payment tables, the cancellations between their two steps, and the creations between two
of their statements. -/
structure PoolSession extends Session where
  creations : List Creation

namespace PoolSession

def empty : PoolSession := ⟨Session.empty, []⟩

/-- The rows the creations hold. -/
def locked (s : PoolSession) : List AddressKey := s.creations.map (·.address.key)

end PoolSession

inductive PoolMove
  | other (m : Move)
  /-- A creation begins, with an invoice row prepared before: it picks and locks an address. -/
  | reserve (invoice : Invoice) (now : Int)
  /-- The creation at this position runs its next statement. -/
  | statement (position : Nat)
  | commit (position : Nat)
  /-- It fails: a statement is refused, the time is up, the connection is lost. -/
  | fail (position : Nat)

namespace PoolMove

def apply : PoolMove → PoolSession → Except Error PoolSession
  | other m, s => (m.apply s.toSession).map fun session => { session with creations := s.creations }
  | reserve invoice now, s =>
    match freeAddressSkipLocked s.db s.locked invoice.merchantId invoice.network
        invoice.paymentAsset with
    | none => .error (.app 422 ("no available deposit address for " ++ invoice.paymentAsset))
    | some address => .ok { s with creations := s.creations ++ [⟨invoice, address, now, 0⟩] }
  | statement position, s =>
    match s.creations[position]? with
    | none => .ok s
    | some c => (c.view (c.done + 1) s.db).map fun _ =>
        { s with creations := s.creations.set position { c with done := c.done + 1 } }
  | commit position, s =>
    match s.creations[position]? with
    | none => .ok s
    | some c =>
      if c.done < Creation.statements.length then
        .ok s
      else
        (c.view Creation.statements.length s.db).map fun db =>
          { s with db, creations := s.creations.eraseIdx position }
  | fail position, s => .ok { s with creations := s.creations.eraseIdx position }

/-- Cancellations and creations go through their steps. -/
def Stepwise : PoolMove → Prop
  | other (.atomic (.createInvoice _ _)) => False
  | other m => m.TwoStep
  | _ => True

instance : DecidablePred Stepwise
  | other (.atomic (.createInvoice _ _)) | other (.atomic (.cancelWrite _ _)) => isFalse not_false
  | other (.atomic (.recordTransfers _ _ _ _ _)) | other (.atomic (.confirmTransfer _ _ _))
  | other (.atomic (.orphanTransaction _ _)) | other (.atomic (.expireOne _ _))
  | other (.atomic (.loadAndMaybeExpire _ _ _)) | other (.atomic (.registerMerchant _))
  | other (.atomic (.updateMerchant _)) | other (.atomic (.registerAddress _ _ _ _ _))
  | other (.atomic (.takeEdge _ _ _)) | other (.beginCancel _ _ _) | other (.finishCancel _ _)
  | reserve _ _ | statement _ | commit _ | fail _ => isTrue trivial

/-- A creation takes a new id, or the id of one that failed. -/
def Fresh : PoolMove → PoolSession → Prop
  | reserve invoice _, s => s.db.invoices.find? invoice.id = none ∧
      ∀ c ∈ s.creations, c.invoice.id ≠ invoice.id
  | _, _ => True

instance : ∀ (m : PoolMove) (s : PoolSession), Decidable (m.Fresh s)
  | reserve invoice _, s => inferInstanceAs (Decidable
      (s.db.invoices.find? invoice.id = none ∧ ∀ c ∈ s.creations, c.invoice.id ≠ invoice.id))
  | other _, _ | statement _, _ | commit _, _ | fail _, _ => isTrue trivial

end PoolMove

/-- The writers of the pool, interleaved. -/
def pool : Machine PoolSession Error PoolMove PoolMove := ⟨PoolMove.apply, fun m _ => [.ok m]⟩

/-! ## What the creations hold -/

/-- The address under a key is not free. -/
def Taken (db : Db) (key : AddressKey) : Prop :=
  ∃ a, db.addresses.find? key = some a ∧ a.status ≠ .available

/-- No invoice has the id yet. -/
def Unborn (db : Db) (id : String) : Prop := db.invoices.find? id = none

structure PoolSafe (s : PoolSession) : Prop where
  unassigned : Unassigned s.db
  cancels : ∀ read ∈ s.cancels, ∀ a ∈ read.paymentAddress, Taken s.db a.key
  held : ∀ c ∈ s.creations, s.db.addresses.find? c.address.key = some c.address ∧
    c.address.status = .available
  apart : s.locked.Nodup
  unborn : ∀ c ∈ s.creations, Unborn s.db c.invoice.id
  ids : (s.creations.map (·.invoice.id)).Nodup

theorem poolSafe_empty : PoolSafe PoolSession.empty :=
  ⟨unassigned_empty, fun _ h => absurd h List.not_mem_nil, fun _ h => absurd h List.not_mem_nil,
    List.nodup_nil, fun _ h => absurd h List.not_mem_nil, List.nodup_nil⟩

/-- A taken address stays taken. -/
theorem Taken.step {key : AddressKey} (h : Taken db key)
    (hstep : AddressStep (db.addresses.find? key) (db'.addresses.find? key)) : Taken db' key := by
  obtain ⟨a, hfind, hstatus⟩ := h
  rw [hfind] at hstep
  generalize hold : some a = old at hstep
  generalize hnew : db'.addresses.find? key = new at hstep
  cases hstep with
  | same => exact ⟨a, hnew.trans hold.symm, hstatus⟩
  | registered => cases hold
  | assigned hfree => cases hold; exact absurd hfree hstatus
  | retired => cases hold; exact ⟨_, hnew, AddressStatus.noConfusion⟩

theorem Effects.unborn {may : Right → Prop} {id : String} (h : Effects may db db')
    (hconfigure : ¬ may .configure) (hunborn : Unborn db id) : Unborn db' id := by
  refine h.invariant (fun x => Unborn x id) hunborn fun a b ha hab => ?_
  by_contra hborn
  obtain ⟨invoice, hinvoice⟩ := Option.ne_none_iff_exists'.1 hborn
  have hstep := hab.invoiceStep id
  rw [hinvoice] at hstep
  rcases hstep.origin with ⟨old, hold, -⟩ | ⟨-, hmay, -⟩
  · rw [ha] at hold
    cases hold
  · exact hconfigure hmay

/-- A transaction that neither cancels nor creates leaves the addresses that exist, and creates no
invoice. -/
theorem Transaction.keeps_held {t : Transaction} (h : t.apply db = .ok db')
    (ht : PoolMove.Stepwise (.other (.atomic t))) :
    (∀ k a, db.addresses.find? k = some a → db'.addresses.find? k = some a) ∧
      ∀ id, Unborn db id → Unborn db' id := by
  have hquiet : ¬ t.rights .configure → ¬ t.rights .cancel →
      (∀ k a, db.addresses.find? k = some a → db'.addresses.find? k = some a) ∧
        ∀ id, Unborn db id → Unborn db' id := by
    intro hconfigure hcancel
    refine ⟨fun k a hfind => ?_, fun id => (Transaction.effects h).unborn hconfigure⟩
    rw [(Transaction.effects h).addresses_eq hconfigure hcancel]
    exact hfind
  cases t with
  | cancelWrite => exact ht.elim
  | createInvoice => exact ht.elim
  | confirmTransfer => exact hquiet (by simp [Transaction.rights]) (by simp [Transaction.rights])
  | registerMerchant =>
    obtain ⟨hfree, rfl⟩ := registerMerchant_eq_ok h
    exact ⟨fun _ _ hfind => hfind, fun _ hid => hid⟩
  | updateMerchant =>
    obtain rfl := updateMerchant_eq_ok h
    exact ⟨fun _ _ hfind => hfind, fun _ hid => hid⟩
  | registerAddress =>
    refine ⟨fun k a hfind => ?_, fun id hid => ?_⟩
    · rcases registerAddress_step h k with hsame | ⟨hnone, -⟩
      · exact hsame.trans hfind
      · rw [hfind] at hnone
        cases hnone
    · obtain ⟨row, hfree, -, -, rfl⟩ := registerAddress_eq_ok h
      exact hid
  | _ => exact hquiet Right.noConfusion Right.noConfusion

/-- A new database that keeps what the sessions rely on. -/
theorem PoolSafe.congr {s : PoolSession} (h : PoolSafe s)
    {cancels : List CancelRead}
    (hstep : ∀ k, AddressStep (s.db.addresses.find? k) (db.addresses.find? k))
    (hheld : ∀ c ∈ s.creations, db.addresses.find? c.address.key =
      s.db.addresses.find? c.address.key)
    (hunborn : ∀ c ∈ s.creations, Unborn s.db c.invoice.id → Unborn db c.invoice.id)
    (hcancels : ∀ read ∈ cancels, read ∈ s.cancels ∨
      ∀ a ∈ read.paymentAddress, Taken s.db a.key) :
    PoolSafe { s with db, cancels } := by
  refine ⟨h.unassigned.step hstep, fun read hread a ha => ?_, fun c hc => ?_, h.apart,
    fun c hc => hunborn c hc (h.unborn c hc), h.ids⟩
  · rcases hcancels read hread with hold | hnew
    · exact (h.cancels read hold a ha).step (hstep a.key)
    · exact (hnew a ha).step (hstep a.key)
  · rw [hheld c hc]
    exact h.held c hc

/-! ## One move -/

/-- The moves of the other writers. -/
theorem PoolSafe.other {m : Move} {s : PoolSession} {session : Session} (h : PoolSafe s)
    (hm : PoolMove.Stepwise (.other m)) (hok : m.apply s.toSession = .ok session) :
    PoolSafe { session with creations := s.creations } ∧
      ∀ k, AddressStep (s.db.addresses.find? k) (session.db.addresses.find? k) := by
  cases m with
  | atomic t =>
    obtain ⟨db, ht, rfl⟩ := Move.atomic_eq_ok hok
    obtain ⟨hkept, hunborn⟩ := Transaction.keeps_held ht hm
    have hstep := Transaction.addressStep ht
    refine ⟨h.congr hstep (fun c hc => ?_) (fun c _ => hunborn _) fun read => .inl, hstep⟩
    rw [(h.held c hc).1]
    exact hkept _ _ (h.held c hc).1
  | beginCancel merchantId invoiceId now =>
    obtain ⟨db, begun, hload, haddress, rfl⟩ := Move.beginCancel_eq_ok hok
    have heffects : Effects (Eq .expire) s.db db := (loadAndMaybeExpire_eq_ok rfl hload).1
    have hsame : db.addresses = s.db.addresses :=
      heffects.addresses_eq Right.noConfusion Right.noConfusion
    have hstep : ∀ k, AddressStep (s.db.addresses.find? k) (db.addresses.find? k) := by
      intro k
      rw [hsame]
      exact .same _
    refine ⟨h.congr hstep (fun c _ => by rw [hsame])
      (fun c _ => heffects.unborn Right.noConfusion) fun read hread => ?_, hstep⟩
    rcases List.mem_append.1 hread with hread | hread
    · exact .inl hread
    · -- What the cancellation has read is assigned, so it is not free.
      refine .inr fun a ha => ?_
      rw [List.mem_singleton.1 hread, haddress] at ha
      have hmem : a ∈ s.db.addresses := by
        rw [← hsame]
        exact List.mem_of_find?_eq_some ha
      have hid : a.invoiceId = some invoiceId := by simpa using List.find?_some ha
      refine ⟨a, Table.find?_of_mem hmem, fun hfree => ?_⟩
      rw [h.unassigned a hmem hfree] at hid
      cases hid
  | finishCancel position now =>
    rcases Move.finishCancel_eq_ok hok with ⟨-, rfl⟩ | ⟨read, db, hread, hwrite, rfl⟩
    · exact ⟨h, fun k => .same _⟩
    · have hmem : read ∈ s.cancels := List.mem_of_getElem? hread
      have hstep : ∀ k, AddressStep (s.db.addresses.find? k) (db.addresses.find? k) := by
        intro k
        rcases cancelWrite_step hwrite k with hsame | ⟨-, hstep⟩
        · rw [hsame]
          exact .same _
        · exact hstep
      have heffects : Effects (Eq .cancel) s.db db := cancelWrite_effects rfl hwrite
      refine ⟨h.congr hstep (fun c hc => ?_) (fun c _ => heffects.unborn Right.noConfusion)
        fun read' hread' => .inl (List.mem_of_mem_eraseIdx hread'), hstep⟩
      rcases cancelWrite_step hwrite c.address.key with hsame | ⟨⟨a, ha, hkey⟩, -⟩
      · exact hsame
      · -- The retired address is taken, a held one is free.
        obtain ⟨taken, hfind, hstatus⟩ := h.cancels read hmem a ha
        rw [hkey, (h.held c hc).1] at hfind
        cases hfind
        exact absurd (h.held c hc).2 hstatus

/-- Of the elements left, none agrees with the one taken out. -/
theorem ne_of_mem_eraseIdx {α β : Type*} {l : List α} {f : α → β} (hnodup : (l.map f).Nodup)
    {i : Nat} {a b : α} (ha : l[i]? = some a) (hb : b ∈ l.eraseIdx i) : f b ≠ f a := by
  obtain ⟨j, hne, hj⟩ := List.mem_eraseIdx_iff_getElem?.1 hb
  intro heq
  have hi : (l.map f)[i]? = some (f a) := by simp [ha]
  have hj : (l.map f)[j]? = some (f a) := by simp [hj, heq]
  have hlt : i < (l.map f).length := (List.getElem?_eq_some_iff.1 hi).1
  exact hne ((List.getElem?_inj hlt hnodup).1 (hi.trans hj.symm)).symm

/-- A creation takes a row that nobody holds, and an id that nobody has. -/
theorem PoolSafe.reserve {s : PoolSession} (h : PoolSafe s) {invoice : Invoice} {now : Int}
    {address : PaymentAddress} (hfresh : (PoolMove.reserve invoice now).Fresh s)
    (hpick : freeAddressSkipLocked s.db s.locked invoice.merchantId invoice.network
      invoice.paymentAsset = some address) :
    PoolSafe { s with creations := s.creations ++ [⟨invoice, address, now, 0⟩] } := by
  obtain ⟨hfind, hstatus, hunlocked⟩ := freeAddressSkipLocked_spec hpick
  obtain ⟨hunborn, hids⟩ := hfresh
  refine ⟨h.unassigned, h.cancels, fun c hc => ?_, ?_, fun c hc => ?_, ?_⟩
  · rcases List.mem_append.1 hc with hc | hc
    · exact h.held c hc
    · cases List.mem_singleton.1 hc
      exact ⟨hfind, hstatus⟩
  · simp only [PoolSession.locked, List.map_append, List.map_cons, List.map_nil]
    refine List.nodup_append.2 ⟨h.apart, List.nodup_singleton _, fun k hk k' hk' heq => ?_⟩
    rw [List.mem_singleton.1 hk'] at heq
    exact hunlocked (heq ▸ hk)
  · rcases List.mem_append.1 hc with hc | hc
    · exact h.unborn c hc
    · cases List.mem_singleton.1 hc
      exact hunborn
  · rw [List.map_append]
    refine List.nodup_append.2 ⟨h.ids, List.nodup_singleton _, fun id hid id' hid' heq => ?_⟩
    obtain ⟨c, hc, rfl⟩ := List.mem_map.1 hid
    rw [List.mem_singleton.1 hid'] at heq
    exact hids c hc heq

/-- A statement only counts: nobody sees what it has written. -/
theorem PoolSafe.statement {s : PoolSession} (h : PoolSafe s) {position : Nat} {c : Creation}
    (hc : s.creations[position]? = some c) :
    PoolSafe { s with creations := s.creations.set position { c with done := c.done + 1 } } := by
  have hmem : c ∈ s.creations := List.mem_of_getElem? hc
  have hmap : ∀ {β : Type} (f : Creation → β), f { c with done := c.done + 1 } = f c →
      (s.creations.set position { c with done := c.done + 1 }).map f = s.creations.map f := by
    intro β f hf
    obtain ⟨hlt, rfl⟩ := List.getElem?_eq_some_iff.1 hc
    rw [List.map_set, hf, ← List.getElem_map f, List.set_getElem_self]
    simpa using hlt
  refine ⟨h.unassigned, h.cancels, fun c' hc' => ?_, ?_, fun c' hc' => ?_, ?_⟩
  · rcases List.mem_or_eq_of_mem_set hc' with hc' | rfl
    · exact h.held c' hc'
    · exact h.held c hmem
  · show ((s.creations.set position _).map (·.address.key)).Nodup
    rw [hmap (·.address.key) rfl]
    exact h.apart
  · rcases List.mem_or_eq_of_mem_set hc' with hc' | rfl
    · exact h.unborn c' hc'
    · exact h.unborn c hmem
  · show ((s.creations.set position _).map (·.invoice.id)).Nodup
    rw [hmap (·.invoice.id) rfl]
    exact h.ids

/-- A commit hands out the row the creation holds, and leaves those of the others. -/
theorem PoolSafe.commit {s : PoolSession} (h : PoolSafe s) {position : Nat} {c : Creation}
    (hc : s.creations[position]? = some c)
    (hview : c.view Creation.statements.length s.db = .ok db) :
    PoolSafe { s with db, creations := s.creations.eraseIdx position } ∧
      ∀ k, AddressStep (s.db.addresses.find? k) (db.addresses.find? k) := by
  obtain ⟨hfind, hstatus⟩ := h.held c (List.mem_of_getElem? hc)
  have hstep := Creation.address_step hfind hstatus hview
  obtain ⟨hfree, hinvoices, haddresses⟩ := Creation.view_eq_ok hview
  refine ⟨⟨h.unassigned.step hstep, fun read hread a ha =>
    (h.cancels read hread a ha).step (hstep a.key), fun c' hc' => ?_, ?_, fun c' hc' => ?_, ?_⟩,
    hstep⟩
  · have hne := ne_of_mem_eraseIdx h.apart hc hc'
    show db.addresses.find? c'.address.key = some c'.address ∧ _
    rw [haddresses, Table.find?_modify_ne hne]
    exact h.held c' (List.mem_of_mem_eraseIdx hc')
  · exact h.apart.sublist ((List.eraseIdx_sublist _ _).map _)
  · have hne := ne_of_mem_eraseIdx h.ids hc hc'
    show db.invoices.find? c'.invoice.id = none
    rw [hinvoices, Table.find?_insert, if_neg (Ne.symm hne)]
    exact h.unborn c' (List.mem_of_mem_eraseIdx hc')
  · exact h.ids.sublist ((List.eraseIdx_sublist _ _).map _)

theorem PoolSafe.fail {s : PoolSession} (h : PoolSafe s) (position : Nat) :
    PoolSafe { s with creations := s.creations.eraseIdx position } :=
  ⟨h.unassigned, h.cancels, fun c hc => h.held c (List.mem_of_mem_eraseIdx hc),
    h.apart.sublist ((List.eraseIdx_sublist _ _).map _),
    fun c hc => h.unborn c (List.mem_of_mem_eraseIdx hc),
    h.ids.sublist ((List.eraseIdx_sublist _ _).map _)⟩

/-- **One move of any writer.** -/
theorem PoolMove.safe {m : PoolMove} {s s' : PoolSession} (hm : m.Stepwise) (hfresh : m.Fresh s)
    (h : PoolSafe s) (hok : m.apply s = .ok s') :
    PoolSafe s' ∧ ∀ k, AddressStep (s.db.addresses.find? k) (s'.db.addresses.find? k) := by
  cases m with
  | other m =>
    cases hmove : m.apply s.toSession with
    | error e => simp only [PoolMove.apply, hmove] at hok; cases hok
    | ok session =>
      simp only [PoolMove.apply, hmove] at hok
      cases hok
      exact h.other hm hmove
  | reserve invoice now =>
    cases hpick : freeAddressSkipLocked s.db s.locked invoice.merchantId invoice.network
        invoice.paymentAsset with
    | none => simp only [PoolMove.apply, hpick] at hok; cases hok
    | some address =>
      simp only [PoolMove.apply, hpick] at hok
      cases hok
      exact ⟨h.reserve hfresh hpick, fun k => .same _⟩
  | statement position =>
    cases hc : s.creations[position]? with
    | none =>
      simp only [PoolMove.apply, hc] at hok
      cases hok
      exact ⟨h, fun k => .same _⟩
    | some c =>
      cases hview : c.view (c.done + 1) s.db with
      | error e => simp only [PoolMove.apply, hc, hview] at hok; cases hok
      | ok db =>
        simp only [PoolMove.apply, hc, hview] at hok
        cases hok
        exact ⟨h.statement hc, fun k => .same _⟩
  | commit position =>
    cases hc : s.creations[position]? with
    | none =>
      simp only [PoolMove.apply, hc] at hok
      cases hok
      exact ⟨h, fun k => .same _⟩
    | some c =>
      simp only [PoolMove.apply, hc] at hok
      split_ifs at hok
      · cases hok
        exact ⟨h, fun k => .same _⟩
      cases hview : c.view Creation.statements.length s.db with
      | error e => rw [hview] at hok; cases hok
      | ok db =>
        rw [hview] at hok
        cases hok
        exact h.commit hc hview
  | fail position =>
    cases hok
    exact ⟨h.fail position, fun k => .same _⟩

/-! ## Runs -/

/-- **Addresses are exclusive**: see the head of this module. -/
theorem addresses_exclusive {states : List PoolSession} {rest : List (Except Error PoolMove)}
    (h : pool.History PoolMove.Stepwise PoolMove.Fresh PoolSession.empty states rest) :
    (∀ s ∈ states, ∀ s' ∈ states, SameOwners s.db s'.db) ∧
    states.Pairwise (fun later earlier => KeepsAssigned earlier.db later.db) ∧
    ∀ s ∈ states, ∀ position c s', s.creations[position]? = some c →
      (PoolMove.fail position).apply s = .ok s' →
      s'.db.invoices.find? c.invoice.id = none ∧
      ∃ a, s'.db.addresses.find? c.address.key = some a ∧ a.status = .available ∧
        a.invoiceId = none := by
  have hkind : ∀ op (s : PoolSession), PoolMove.Stepwise op → ∀ t,
      Except.ok t ∈ pool.script op s → PoolMove.Stepwise t := by
    intro op s hop t ht
    cases List.mem_singleton.1 ht
    exact hop
  have hinv : ∀ m (a b : PoolSession), PoolMove.Stepwise m → PoolSafe a → PoolMove.Fresh m a →
      pool.apply m a = .ok b → PoolSafe b :=
    fun m a b hm ha hfresh hok => (PoolMove.safe hm hfresh ha hok).1
  have hkeeps : states.Pairwise fun later earlier => KeepsAssigned earlier.db later.db :=
    h.pairwise PoolSafe (fun a b => KeepsAssigned a.db b.db) hkind poolSafe_empty hinv
      (fun m a b hm ha hfresh hok => .of_step ha.unassigned (PoolMove.safe hm hfresh ha hok).2)
      fun _ _ _ => KeepsAssigned.trans
  have hsymm : Std.Symm fun s s' : PoolSession => SameOwners s.db s'.db :=
    ⟨fun _ _ h => h.symm⟩
  have howners : states.Pairwise fun later earlier => SameOwners later.db earlier.db :=
    hkeeps.imp fun hk => hk.sameOwners.symm
  refine ⟨fun s hs s' hs' => ?_, hkeeps, fun s hs position c s' hc hfail => ?_⟩
  · exact List.Pairwise.forall_of_forall (fun s _ => SameOwners.refl s.db) howners hs hs'
  · have hsafe : PoolSafe s := (h.reachable hs).invariant hkind poolSafe_empty hinv
    have hmem : c ∈ s.creations := List.mem_of_getElem? hc
    obtain ⟨hfind, hstatus⟩ := hsafe.held c hmem
    cases hfail
    exact ⟨hsafe.unborn c hmem, c.address, hfind, hstatus,
      hsafe.unassigned _ (Table.mem_of_find? hfind) hstatus⟩

/-! ## A shop with two addresses -/

namespace Shop

theorem nothing_paid : (0 : Int) ≤ 0 := le_rfl

def draft (id : String) (network : Network) : Invoice where
  id := id
  merchantId := "shop"
  orderId := id
  paymentAsset := "USDT"
  paymentDecimals := 6
  network := network
  tokenContract := some usdt
  cryptoAmount := 100000000
  underpaymentPolicy := .reject
  overpaymentPolicy := .acceptFull
  underpaymentToleranceBps := 0
  overpaymentToleranceBps := 0
  requiredConfirmations := 12
  status := .pending
  receivedAmount := 0
  confirmedAmount := 0
  confirmationCount := 0
  expiresAt := 900000
  detectedAt := none
  paidAt := none
  cancelledAt := none
  expiredAt := none
  version := 0
  createdAt := 0
  crypto_amount_positive := by decide
  received_amount_non_negative := nothing_paid
  confirmed_amount_non_negative := nothing_paid
  confirmed_not_above_received := nothing_paid
  required_confirmations_positive := by decide
  expiry_after_creation := by decide
  tolerances_sane := merchant.tolerances_sane

/-- Two creations at a time; the first fails, and another one takes its address. -/
def creating : List PoolMove := [
  .other (.atomic (.registerMerchant merchant)),
  .other (.atomic (.registerAddress "shop" ⟨.ethereum, "0xpay"⟩ "0xPay" none 0)),
  .other (.atomic (.registerAddress "shop" ⟨.polygon, "0xpol"⟩ "0xPol" none 0)),
  .reserve (draft "i" .ethereum) 0,
  .reserve (draft "j" .polygon) 0,
  .statement 0, .statement 1, .statement 0, .fail 0,
  .reserve (draft "k" .ethereum) 0,
  .statement 1, .statement 1, .statement 1, .statement 1, .commit 1,
  .statement 0, .statement 0, .statement 0, .commit 0]

/-- Who has which address, in the last state of a run. -/
def owners (moves : List PoolMove) : List (String × Option String) :=
  ((pool.log moves [PoolSession.empty]).headD PoolSession.empty).db.addresses.rows.map
    fun a => (a.address, a.invoiceId)

end Shop

theorem addresses_exclusive_shop :
    Shop.owners Shop.creating = [("0xPay", some "k"), ("0xPol", some "j")] ∧
    ∀ s ∈ pool.log Shop.creating [PoolSession.empty],
      ∀ s' ∈ pool.log Shop.creating [PoolSession.empty], SameOwners s.db s'.db := by
  have hmoves : ∀ m ∈ Shop.creating, m.Stepwise := by decide
  have hmeets : pool.AllMeet PoolMove.Fresh Shop.creating PoolSession.empty := by decide +kernel
  obtain ⟨rest, hist⟩ := Machine.History.log (.start : pool.History PoolMove.Stepwise
    PoolMove.Fresh PoolSession.empty [PoolSession.empty] []) hmoves hmeets
  exact ⟨by decide +kernel, (addresses_exclusive hist).1⟩

end PaymentGateway
