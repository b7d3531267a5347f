import Mathlib.Data.List.Nodup
import PaymentGateway.Shared.Asset
import PaymentGateway.Payments.Matcher

/-!
# The blockchain adapter

The interface through which the monitor and the scanner see a chain. A method fails only when the
provider does; "not found" is `none`. An adapter value is one moment of one chain: an operation is
given the adapter it asks, and a later operation may be given another.
-/

namespace PaymentGateway

structure BlockRef where
  number : Nat
  hash : String
  deriving DecidableEq, Repr

structure ChainTransaction where
  hash : String
  /-- `none` while the transaction sits in the mempool. -/
  blockNumber : Option Nat
  blockHash : Option String
  status : ChainTransactionStatus
  fromAddress : Option String
  toAddress : Option String
  feeAmount : Option Nat
  /-- Confirmations at the moment this was fetched. -/
  confirmations : Nat
  deriving DecidableEq, Repr

/-- One value movement extracted from a transaction. -/
structure ParsedTransfer where
  transferIndex : Int
  /-- `none` for a native-coin transfer. -/
  tokenContract : Option String
  fromAddress : Option String
  toAddress : String
  amount : Int
  deriving DecidableEq, Repr

structure BlockData where
  number : Nat
  hash : String
  transactions : List ChainTransaction
  deriving DecidableEq, Repr

structure ConfirmationInfo where
  confirmations : Nat
  blockNumber : Option Nat
  chainTip : Nat
  deriving DecidableEq, Repr

structure LightTransaction where
  hash : String
  to_ : Option String
  value : Int
  deriving DecidableEq, Repr

structure EvmLightBlock where
  number : Nat
  hash : String
  transactions : List LightTransaction
  deriving DecidableEq, Repr

/-- The cheap discovery methods that only some adapters offer. -/
structure EvmDiscoveryAdapter where
  getLightBlock : Nat → Except Error (Option EvmLightBlock)
  getTransferLogsTo : Nat → Nat → List String → List String → Except Error (List String)

/-- The methods know of no invoice: what they raise is the provider's. -/
structure BlockchainAdapter where
  getTransaction : String → Except Error (Option ChainTransaction)
  getTransfers : String → Except Error (List ParsedTransfer)
  getConfirmations : String → Except Error ConfirmationInfo
  getCurrentBlock : Except Error BlockRef
  getBlock : Nat → Except Error (Option BlockData)
  validateAddress : String → Bool
  discovery : Option EvmDiscoveryAdapter
  getTransaction_error : ∀ txHash e, getTransaction txHash = .error e → e.FromProvider
  getTransfers_error : ∀ txHash e, getTransfers txHash = .error e → e.FromProvider
  getConfirmations_error : ∀ txHash e, getConfirmations txHash = .error e → e.FromProvider

/-! ## Parsers that number transfers by position -/

section Parse

variable {α : Type} {index : α → Nat} {parse : α → Option ParsedTransfer}

/-- Transfers that keep the index of what they are parsed from have indices of the list, in its
order. -/
theorem indices_sublist (hparse : ∀ a t, parse a = some t → t.transferIndex = index a)
    (l : List α) : ((l.filterMap parse).map (·.transferIndex)).Sublist
      (l.map fun a => (index a : Int)) := by
  induction l with
  | nil => exact List.Sublist.refl _
  | cons a l ih =>
    rw [List.filterMap_cons, List.map_cons]
    cases h : parse a with
    | none => exact ih.cons _
    | some t =>
      rw [List.map_cons, hparse a t h]
      exact ih.cons_cons _

theorem indices_nodup (hparse : ∀ a t, parse a = some t → t.transferIndex = index a)
    {l : List α} (h : (l.map index).Nodup) :
    ((l.filterMap parse).map (·.transferIndex)).Nodup := by
  refine (indices_sublist hparse l).nodup ?_
  have hcast : l.map (fun a => (index a : Int)) = (l.map index).map (Nat.cast : Nat → Int) := by
    simp [Function.comp_def]
  rw [hcast]
  exact h.map fun _ _ hab => Int.natCast_inj.1 hab

end Parse

/-- An adapter for a chain of which only some transactions are known. -/
def BlockchainAdapter.ofTransactions (chainTip : Nat)
    (known : List (ChainTransaction × List ParsedTransfer)) : BlockchainAdapter where
  getTransaction txHash := .ok ((known.find? fun p => p.1.hash = txHash).map (·.1))
  getTransfers txHash := .ok ((known.find? fun p => p.1.hash = txHash).elim [] (·.2))
  getConfirmations txHash :=
    match (known.find? fun p => p.1.hash = txHash).bind (·.1.blockNumber) with
    | none => .ok ⟨0, none, chainTip⟩
    | some block =>
      .ok ⟨if block ≤ chainTip then chainTip - block + 1 else 0, some block, chainTip⟩
  getCurrentBlock := .ok ⟨chainTip, "tip"⟩
  getBlock _ := .ok none
  validateAddress _ := true
  discovery := none
  getTransaction_error _ _ h := by cases h
  getTransfers_error _ _ h := by cases h
  getConfirmations_error txHash e h := by split at h <;> cases h

end PaymentGateway
