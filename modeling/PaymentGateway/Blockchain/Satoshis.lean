import PaymentGateway.Blockchain.BitcoinAdapter
import PaymentGateway.Lib.Binary64

/-!
# Bitcoin amounts on the wire

A node writes amounts as decimal fractions of a coin, and `JSON.parse` makes binary fractions of
them, hardly any of which is the number that was written. `btcToSatoshis` multiplies by `10 ^ 8`,
which rounds once more, and takes the nearest integer.

**Theorem (`wire_exact`).** Below `2 ^ 51` satoshis, more than there will ever be, this is the number
that was written: each of the two roundings is off by one part in `2 ^ 53`, and the two together by
less than half a satoshi. So the transfers the adapter makes of what it is sent are the ones it would
make of the outputs themselves.
-/

namespace PaymentGateway

open Binary64

/-- What `JSON.parse` makes of an amount of coins, however it is spelled. -/
def jsonAmount (satoshis : ℕ) : ℚ := nearest (satoshis / 10 ^ 8)

/-- `BigInt(Math.round(amount * 1e8))`; of two integers that are equally near, `Math.round` takes the
greater one. -/
def btcToSatoshis (amount : ℚ) : ℤ := ⌊nearest (amount * nearest (10 ^ 8)) + 1 / 2⌋

theorem nearest_tenPow : nearest (10 ^ 8) = 10 ^ 8 := by
  have h : nearest ((10 ^ 8 : ℕ) : ℚ) = (10 ^ 8 : ℕ) := nearest_natCast (by norm_num)
  rwa [Nat.cast_pow, Nat.cast_ofNat] at h

/-- The least normal number is far below a satoshi. -/
theorem normal_of_le {q : ℚ} (h : 1 / 10 ^ 9 ≤ q) : 2 ^ (-1022 : ℤ) ≤ |q| := by
  have hsmall : (2 : ℚ) ^ (-1022 : ℤ) ≤ 2 ^ (-30 : ℤ) := zpow_le_zpow_right₀ (by norm_num) (by norm_num)
  have hthirty : (2 : ℚ) ^ (-30 : ℤ) ≤ 1 / 10 ^ 9 := by norm_num
  exact hsmall.trans (hthirty.trans (h.trans (le_abs_self q)))

/-- Parsing and multiplying are off by less than half a satoshi. -/
theorem abs_round_coins_sub_lt {satoshis : ℕ} (hpos : 0 < satoshis) (h : satoshis < 2 ^ 51) :
    |nearest (jsonAmount satoshis * 10 ^ 8) - satoshis| < 1 / 2 := by
  have hone : (1 : ℚ) ≤ satoshis := by exact_mod_cast hpos
  have hsmall : (satoshis : ℚ) + 1 ≤ 2 ^ 51 := by exact_mod_cast h
  have hcoins : (0 : ℚ) ≤ satoshis / 10 ^ 8 := by positivity
  have hparse : |jsonAmount satoshis - satoshis / 10 ^ 8| ≤ (satoshis : ℚ) / 10 ^ 8 / 2 ^ 53 := by
    have hnormal := normal_of_le (q := satoshis / 10 ^ 8) (by linarith)
    unfold jsonAmount
    simpa only [abs_of_nonneg hcoins] using abs_nearest_sub_le hnormal
  rw [abs_le] at hparse
  have hnear : (satoshis : ℚ) - satoshis / 2 ^ 53 ≤ jsonAmount satoshis * 10 ^ 8 ∧
      jsonAmount satoshis * 10 ^ 8 ≤ satoshis + satoshis / 2 ^ 53 := by
    constructor <;> linarith
  have hproduct : (0 : ℚ) ≤ jsonAmount satoshis * 10 ^ 8 := by linarith
  have hmultiply : |nearest (jsonAmount satoshis * 10 ^ 8) - jsonAmount satoshis * 10 ^ 8| ≤
      jsonAmount satoshis * 10 ^ 8 / 2 ^ 53 := by
    have hnormal := normal_of_le (q := jsonAmount satoshis * 10 ^ 8) (by linarith)
    simpa only [abs_of_nonneg hproduct] using abs_nearest_sub_le hnormal
  rw [abs_le] at hmultiply
  rw [abs_lt]
  constructor <;> linarith

/-- What is read back is what was written. -/
theorem btcToSatoshis_jsonAmount {satoshis : ℕ} (h : satoshis < 2 ^ 51) :
    btcToSatoshis (jsonAmount satoshis) = satoshis := by
  unfold btcToSatoshis
  rw [nearest_tenPow]
  rcases Nat.eq_zero_or_pos satoshis with rfl | hpos
  · have hzero : nearest 0 = 0 := by
      have h : nearest ((0 : ℕ) : ℚ) = (0 : ℕ) := nearest_natCast (by norm_num)
      simpa using h
    simp [jsonAmount, hzero]
    norm_num
  · have hnear := abs_round_coins_sub_lt hpos h
    rw [abs_lt] at hnear
    rw [Int.floor_eq_iff]
    push_cast
    constructor <;> linarith

/-- The ceiling counts: that the count is a safe integer is not enough. -/
example : btcToSatoshis (jsonAmount 3355447917539068) ≠ 3355447917539068 := by
  decide +kernel

/-! ## What a node sends -/

/-- An output as it is received. -/
structure WireVout where
  value : ℚ
  n : ℕ
  address : Option String
  addresses : List String
  value_nonneg : 0 ≤ value

/-- The answer to `getrawtransaction` as it is received. -/
structure WireTransaction where
  txid : String
  vout : List WireVout
  confirmations : Option ℕ
  blockhash : Option String

def RawVout.wire (vout : RawVout) : WireVout where
  value := jsonAmount vout.value
  n := vout.n
  address := vout.address
  addresses := vout.addresses
  value_nonneg := nearest_nonneg (by positivity)

def RawBitcoinTransaction.wire (tx : RawBitcoinTransaction) : WireTransaction where
  txid := tx.txid
  vout := tx.vout.map RawVout.wire
  confirmations := tx.confirmations
  blockhash := tx.blockhash

def WireVout.recipient (vout : WireVout) : Option String :=
  (vout.address.or vout.addresses.head?).filter (· ≠ "")

namespace BitcoinRpcAdapter

variable (sha256 : List UInt8 → List UInt8) (network : Network)

def wireTransfer (vout : WireVout) : Option ParsedTransfer :=
  vout.recipient.bind fun address =>
    match normalizeBitcoinAddress sha256 address (networkKind network) with
    | .error _ => none
    | .ok normalized => some ⟨vout.n, none, none, normalized, (btcToSatoshis vout.value).toNat⟩

/-- `getTransfers` of what the node has answered. -/
def wireTransfers : Option WireTransaction → List ParsedTransfer
  | none => []
  | some tx =>
    if tx.blockhash.any (· ≠ "") then tx.vout.filterMap (wireTransfer sha256 network) else []

/-- The `value` of `toChainTransaction`. -/
def totalOutputValue (vout : List WireVout) : ℤ :=
  vout.foldl (fun sum vout => sum + btcToSatoshis vout.value) 0

variable {sha256 network}

theorem wireTransfer_wire {vout : RawVout} (h : vout.value < 2 ^ 51) :
    wireTransfer sha256 network vout.wire = outputTransfer sha256 network vout := by
  have hrecipient : vout.wire.recipient = vout.recipient := rfl
  have hvalue : (btcToSatoshis vout.wire.value).toNat = vout.value := by
    simp [RawVout.wire, btcToSatoshis_jsonAmount h]
  unfold wireTransfer outputTransfer
  rw [hrecipient, hvalue]
  rfl

theorem totalOutputValue_wire {vout : List RawVout} (h : ∀ o ∈ vout, o.value < 2 ^ 51) :
    totalOutputValue (vout.map RawVout.wire) = (vout.map (·.value)).sum := by
  unfold totalOutputValue
  induction vout using List.reverseRecOn with
  | nil => rfl
  | append_singleton vout o ih =>
    have ho : btcToSatoshis o.wire.value = o.value := btcToSatoshis_jsonAmount (h o (by simp))
    simp only [List.map_append, List.map_cons, List.map_nil, List.foldl_append, List.foldl_cons,
      List.foldl_nil, List.sum_append, List.sum_cons, List.sum_nil]
    rw [ih fun o ho => h o (by simp [ho]), ho]
    push_cast
    ring

/-- **The transfers of what a node sends are those of the outputs**, and so is the total. -/
theorem wire_exact (node : BitcoinNode) (hash : String)
    (h : ∀ tx ∈ node.rawTransaction hash, ∀ vout ∈ tx.vout, vout.value < 2 ^ 51) :
    wireTransfers sha256 network ((node.rawTransaction hash).map RawBitcoinTransaction.wire) =
        getTransfers sha256 network node hash ∧
      ∀ tx ∈ node.rawTransaction hash,
        totalOutputValue tx.wire.vout = (tx.vout.map (·.value)).sum := by
  refine ⟨?_, fun tx htx => totalOutputValue_wire (h tx htx)⟩
  unfold getTransfers
  cases hraw : node.rawTransaction hash with
  | none => rfl
  | some tx =>
    have hvout : tx.wire.vout.filterMap (wireTransfer sha256 network) =
        tx.vout.filterMap (outputTransfer sha256 network) := by
      change (tx.vout.map RawVout.wire).filterMap _ = _
      rw [List.filterMap_map]
      exact List.filterMap_congr fun vout hvout => wireTransfer_wire (h tx hraw vout hvout)
    exact if_congr Iff.rfl hvout rfl

/-- A block that pays a tenth of a coin, and all the other coins there will ever be. -/
def hoard : BitcoinNode where
  blocks := [⟨1, "b1", [⟨"t1",
    [⟨10000000, 0, some "bc1qw508d6qejxtdg4y5r3zarvary0c5xw7kv8f3t4", []⟩,
      ⟨2099999990000000, 1, none, ["bc1qw508d6qejxtdg4y5r3zarvary0c5xw7kv8f3t4"]⟩], rfl⟩],
    by decide⟩]
  mempool := []
  heights_distinct := by decide
  txids_distinct := by decide

theorem wire_exact_hoard :
    wireTransfers (fun _ => []) .bitcoin
        ((hoard.rawTransaction "t1").map RawBitcoinTransaction.wire) =
      [⟨0, none, none, "bc1qw508d6qejxtdg4y5r3zarvary0c5xw7kv8f3t4", 10000000⟩,
        ⟨1, none, none, "bc1qw508d6qejxtdg4y5r3zarvary0c5xw7kv8f3t4", 2099999990000000⟩] := by
  have hsmall : ∀ tx ∈ hoard.rawTransaction "t1", ∀ vout ∈ tx.vout, vout.value < 2 ^ 51 := by
    intro tx htx
    obtain rfl : _ = tx := Option.some.inj htx
    decide
  rw [(wire_exact hoard "t1" hsmall).1]
  decide +kernel

end BitcoinRpcAdapter

end PaymentGateway
