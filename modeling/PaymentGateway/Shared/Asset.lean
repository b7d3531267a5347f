import Mathlib.Data.String.Basic

/-!
# Networks and the asset allowlist

The gateway credits only the assets listed here. A token is recognised by its contract address,
never by its symbol: `findAssetByContract` lowercases what it is given, and `asset` lowercases
what is listed.
-/

namespace PaymentGateway

/-- Supported blockchain networks. -/
inductive Network
  | bitcoin | bitcoinTestnet | ethereum | ethereumSepolia | polygon | polygonAmoy | bsc
  | bscTestnet
  deriving DecidableEq, Repr

def Network.name : Network → String
  | bitcoin => "BITCOIN"
  | bitcoinTestnet => "BITCOIN_TESTNET"
  | ethereum => "ETHEREUM"
  | ethereumSepolia => "ETHEREUM_SEPOLIA"
  | polygon => "POLYGON"
  | polygonAmoy => "POLYGON_AMOY"
  | bsc => "BSC"
  | bscTestnet => "BSC_TESTNET"

theorem Network.colon_notMem_name (n : Network) : ':' ∉ n.name.toList := by
  cases n <;> decide

theorem Network.name_injective {m n : Network} (h : m.name.toList = n.name.toList) : m = n := by
  revert h
  cases m <;> cases n <;> decide

structure AssetConfig where
  symbol : String
  network : Network
  /-- Lowercased token contract address, or `none` for the network's native coin. -/
  contractAddress : Option String
  decimals : Nat
  /-- Default confirmation threshold. -/
  requiredConfirmations : Nat
  /-- Deposits below this are recorded but never open an invoice on their own. -/
  minDepositUnits : Int
  enabled : Bool
  deriving DecidableEq, Repr

/-- `toLowerCase` on the ASCII strings that addresses and status names are. -/
def toLowerCase (s : String) : String := String.ofList (s.toList.map Char.toLower)

def asset (config : AssetConfig) : AssetConfig :=
  { config with contractAddress := config.contractAddress.map toLowerCase }

def assetList : List AssetConfig := [
  asset ⟨"BTC", .bitcoin, none, 8, 2, 10000, true⟩,
  asset ⟨"ETH", .ethereum, none, 18, 12, 1000000000000000, true⟩,
  asset ⟨"USDT", .ethereum, some "0xdAC17F958D2ee523a2206206994597C13D831ec7", 6, 12, 1000000,
    true⟩,
  asset ⟨"USDC", .ethereum, some "0xA0b86991c6218b36c1d19D4a2e9Eb0cE3606eB48", 6, 12, 1000000,
    true⟩,
  asset ⟨"POL", .polygon, none, 18, 128, 1000000000000000000, true⟩,
  asset ⟨"USDT", .polygon, some "0xc2132D05D31c914a87C6611C10748AEb04B58e8F", 6, 128, 1000000,
    true⟩,
  asset ⟨"USDC", .polygon, some "0x3c499c542cEF5E3811e1192ce70d8cC03d5c3359", 6, 128, 1000000,
    true⟩,
  asset ⟨"BNB", .bsc, none, 18, 15, 1000000000000000, true⟩,
  -- 18 decimals, not 6: the BSC deployment differs from Ethereum's.
  asset ⟨"USDT", .bsc, some "0x55d398326f99059fF775485246999027B3197955", 18, 15,
    1000000000000000000, true⟩,
  asset ⟨"USDC", .bsc, some "0x8AC76a51cc950d9822D68b83fE1Ad97B32Cd580d", 18, 15,
    1000000000000000000, true⟩,
  asset ⟨"ETH", .ethereumSepolia, none, 18, 3, 1000000000000, true⟩,
  asset ⟨"BTC", .bitcoinTestnet, none, 8, 1, 1000, true⟩]

/-- A found entry counts only while it is enabled. -/
def enabledOnly (found : Option AssetConfig) : Option AssetConfig := found.filter (·.enabled)

/-- Look up an allowlisted asset by symbol. -/
def findAsset (network : Network) (symbol : String) : Option AssetConfig :=
  enabledOnly (assetList.find? fun a => a.network = network ∧ a.symbol = symbol)

/-- Resolve an on-chain token contract to an allowlisted asset. -/
def findAssetByContract (network : Network) (contractAddress : String) : Option AssetConfig :=
  enabledOnly (assetList.find? fun a =>
    a.network = network ∧ a.contractAddress = some (toLowerCase contractAddress))

/-- Native coin of a network. -/
def findNativeAsset (network : Network) : Option AssetConfig :=
  enabledOnly (assetList.find? fun a => a.network = network ∧ a.contractAddress = none)

/-- Resolve a detected transfer's asset; `none` stands for a native-coin transfer. -/
def resolveTransferAsset (network : Network) (tokenContract : Option String) :
    Option AssetConfig :=
  match tokenContract with
  | none => findNativeAsset network
  | some contract => findAssetByContract network contract

/-- The listed assets, of one network or of all; the disabled ones only on demand. -/
def listAssets (network : Option Network) (enabled : Bool) : List AssetConfig :=
  assetList.filter fun a => (network = none ∨ network = some a.network) ∧ (!enabled || a.enabled)

theorem find?_of_enabledOnly {p : AssetConfig → Bool} {a : AssetConfig}
    (h : enabledOnly (assetList.find? p) = some a) : a ∈ assetList ∧ p a = true := by
  obtain ⟨hf, -⟩ := Option.filter_eq_some_iff.1 h
  exact ⟨List.mem_of_find?_eq_some hf, List.find?_some hf⟩

end PaymentGateway
