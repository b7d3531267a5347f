import PaymentGateway.Blockchain.BitcoinAdapter
import PaymentGateway.Blockchain.EvmAdapter
import PaymentGateway.Monitor.Scanner
import PaymentGateway.System.Progress

/-!
# Whatever a chain admits

**Theorem (`admitted_iff`).** A mined transaction is parsed into transfers that the database takes,
and `processTransaction` commits it in every state the services reach, unless it is a Bitcoin
transaction with an output of value zero to a recognised address.

Both parsers keep the index of what they parse. The EVM one leaves out what has no value, be it a
log or the native value of a call. The Bitcoin one leaves out what has no address, and an output
of value zero with an address is something anybody can have mined: its row fails the CHECK
constraint on the amount, the transaction of the monitor is rolled back, and the tick that met it
fails before it saves its cursor (`Shop.stuck`).
-/

namespace PaymentGateway

open Fallible Transactional MonitorService EvmJsonRpcAdapter BitcoinRpcAdapter

/-- A transaction in a block of a chain. -/
inductive MinedTransaction
  | evm (node : EvmNode) (block : EvmBlock) (tx : ExecutedTx) (mined : (block, tx) ∈ node.executed)
  | bitcoin (node : BitcoinNode) (block : BitcoinBlock) (tx : BitcoinTx)
      (mined : (block, tx) ∈ node.executed)

namespace MinedTransaction

variable (sha256 : List UInt8 → List UInt8) (network : Network)

def adapter : MinedTransaction → BlockchainAdapter
  | evm node _ _ _ => evmAdapter node
  | bitcoin node _ _ _ => bitcoinAdapter sha256 network node

def hash : MinedTransaction → String
  | evm _ _ tx _ => tx.hash
  | bitcoin _ _ tx _ => tx.txid

/-- The transfers its adapter parses. -/
def transfers : MinedTransaction → List ParsedTransfer
  | evm _ _ tx _ => tx.transfers
  | bitcoin _ _ tx _ => tx.vout.filterMap (outputTransfer sha256 network)

/-- Every output that the adapter makes a transfer of has a value. -/
def NoZeroOutput : MinedTransaction → Prop
  | evm _ _ _ _ => True
  | bitcoin _ _ tx _ => ∀ vout ∈ tx.vout, vout.Recognised sha256 network → 0 < vout.value

variable {sha256 network}

theorem getTransfers (tx : MinedTransaction) :
    (tx.adapter sha256 network).getTransfers tx.hash = .ok (tx.transfers sha256 network) := by
  cases tx with
  | evm node block tx mined => exact mapError_eq_ok.2 (EvmJsonRpcAdapter.getTransfers_eq mined)
  | bitcoin node block tx mined =>
    exact congrArg Except.ok (BitcoinRpcAdapter.getTransfers_eq mined)

theorem getTransaction (tx : MinedTransaction) :
    ∃ r, (tx.adapter sha256 network).getTransaction tx.hash = .ok r := by
  cases tx <;> exact ⟨_, rfl⟩

theorem indices_nodup (tx : MinedTransaction) :
    ((tx.transfers sha256 network).map (·.transferIndex)).Nodup := by
  cases tx with
  | evm node block tx mined => exact tx.transfers_nodup
  | bitcoin node block tx mined => exact output_indices_nodup tx

theorem valid_iff (tx : MinedTransaction) :
    (∀ t ∈ tx.transfers sha256 network, ValidTransfer t) ↔ tx.NoZeroOutput sha256 network := by
  cases tx with
  | evm node block tx mined => exact ⟨fun _ => trivial, fun _ t ht => ExecutedTx.transfers_valid ht⟩
  | bitcoin node block tx mined =>
    constructor
    · intro h vout hvout hrecognised
      obtain ⟨t, ht⟩ := recognised_iff.1 hrecognised
      have hvalid := (h t (List.mem_filterMap.2 ⟨vout, hvout, ht⟩)).1
      rw [(outputTransfer_eq_some ht).2] at hvalid
      exact Int.natCast_pos.1 hvalid
    · intro h t ht
      obtain ⟨vout, hvout, ht⟩ := List.mem_filterMap.1 ht
      obtain ⟨hindex, hamount⟩ := outputTransfer_eq_some ht
      have hpos := h vout hvout (recognised_iff.2 ⟨t, ht⟩)
      exact ⟨by rw [hamount]; exact Int.natCast_pos.2 hpos, by omega⟩

end MinedTransaction

/-- The transfers an adapter parses meet the constraints of their table, and the transaction is
recorded whatever the services have done before. -/
structure Admitted (adapter : BlockchainAdapter) (network : Network) (txHash : String) : Prop where
  valid : ∃ l, adapter.getTransfers txHash = .ok l ∧ (∀ t ∈ l, ValidTransfer t) ∧
    (l.map (·.transferIndex)).Nodup
  commits : ∀ db, gateway.Reachable (fun _ => True) (fun _ _ => True) Db.empty db →
    ∀ graceSeconds now,
      (processTransaction adapter network txHash graceSeconds now db).error = none

/-- Recording valid transfers does not fail. -/
theorem processTransaction_commits {adapter : BlockchainAdapter} {network : Network}
    {txHash : String} {db : Db} {l : List ParsedTransfer} {r : Option ChainTransaction}
    (hdb : Numbered db) (htx : adapter.getTransaction txHash = .ok r)
    (htransfers : adapter.getTransfers txHash = .ok l) (hvalid : ∀ t ∈ l, ValidTransfer t)
    (graceSeconds : Nat) (now : Int) :
    (processTransaction adapter network txHash graceSeconds now db).error = none := by
  unfold processTransaction
  rw [htx, htransfers]
  cases r with
  | none => rfl
  | some chainTx =>
    cases l with
    | nil => rfl
    | cons t l =>
      obtain ⟨db', hok⟩ := (recordTransfers_isOk_iff hdb network chainTx (t :: l) graceSeconds
        now).2 fun t ht => .inr (hvalid t ht)
      show (exec _ db).error = none
      unfold exec
      rw [hok]

/-- **A mined transaction is admitted exactly if no output of it that the adapter recognises is
worth nothing.** Of EVM transactions that is all of them. -/
theorem admitted_iff (sha256 : List UInt8 → List UInt8) (network : Network)
    (tx : MinedTransaction) :
    Admitted (tx.adapter sha256 network) network tx.hash ↔ tx.NoZeroOutput sha256 network := by
  rw [← tx.valid_iff]
  constructor
  · rintro ⟨⟨l, hl, hvalid, -⟩, -⟩
    obtain rfl := Except.ok.inj (tx.getTransfers.symm.trans hl)
    exact hvalid
  · intro hvalid
    refine ⟨⟨_, tx.getTransfers, hvalid, tx.indices_nodup⟩, fun db hreach graceSeconds now => ?_⟩
    obtain ⟨r, hr⟩ := @MinedTransaction.getTransaction sha256 network tx
    exact processTransaction_commits (numbered hreach) hr tx.getTransfers hvalid graceSeconds now

/-! ## An output worth nothing -/

namespace Shop

def deposit : String := "bc1qw508d6qejxtdg4y5r3zarvary0c5xw7kv8f3t4"

/-- A payment to the deposit address, with an empty output to it thrown in. -/
def dust : BitcoinTx where
  txid := "dust"
  vout := [⟨50000, 0, some deposit, []⟩, ⟨0, 1, some deposit, []⟩]
  numbered := by decide

def dustBlocks : BitcoinNode where
  blocks := [⟨0, "genesis", [], by decide⟩, ⟨1, "first", [dust], by decide⟩]
  mempool := []
  heights_distinct := by decide
  txids_distinct := by decide

def dustMined : MinedTransaction := .bitcoin dustBlocks ⟨1, "first", [dust], by decide⟩ dust
  (by simp [BitcoinNode.executed, dustBlocks])

def depositAssigned : Db := { Db.empty with
  addresses := Db.empty.addresses.insert
    ⟨⟨.bitcoin, deposit⟩, "shop", deposit, none, .assigned, some "i", some 0, none, 0⟩ rfl }

/-- A tick that meets the block. No address here is in Base58, so no hash is asked for. -/
def stuck : Ended ScanSession Halt ScanResult :=
  ChainScanner.tick ⟨.bitcoin, false, 50, 0⟩
    (fun _ => .undisturbed (bitcoinAdapter id .bitcoin dustBlocks) 1000) 0 ⟨depositAssigned, []⟩

end Shop

/-- **An empty output halts the scan**: the database refuses its row, and the tick fails with the
cursor below the block. -/
theorem Shop.dust_not_admitted :
    ¬ Admitted (Shop.dustMined.adapter id .bitcoin) .bitcoin Shop.dustMined.hash ∧
    Shop.stuck.result = .error (.failed (.checkViolation "token_transfers_amount_positive")) ∧
    (Shop.stuck.state.db.cursors.find? .bitcoin).map (·.lastProcessedBlock) = some 0 ∧
    Shop.stuck.state.calls = [.scanned 1 [Shop.deposit], .started 0] := by
  have hzero : ∃ t ∈ Shop.dustMined.transfers id .bitcoin, ¬ ValidTransfer t := by decide +kernel
  obtain ⟨t, ht, hinvalid⟩ := hzero
  refine ⟨fun ⟨⟨l, hl, hvalid, _⟩, _⟩ => ?_, by decide +kernel, by decide +kernel,
    by decide +kernel⟩
  obtain rfl := Except.ok.inj (Shop.dustMined.getTransfers.symm.trans hl)
  exact hinvalid (hvalid t ht)

end PaymentGateway
