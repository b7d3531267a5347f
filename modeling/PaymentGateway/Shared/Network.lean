import PaymentGateway.Shared.Asset
import PaymentGateway.Shared.Error

/-!
# The configuration of the networks

What a request names a network by, how the network spells addresses, and which keys may touch it.
-/

namespace PaymentGateway

inductive NetworkFamily
  | bitcoin | evm
  deriving DecidableEq, Repr

structure NetworkConfig where
  displayName : String
  family : NetworkFamily
  isTestnet : Bool
  deriving DecidableEq, Repr

def getNetworkConfig : Network → NetworkConfig
  | .bitcoin => ⟨"Bitcoin", .bitcoin, false⟩
  | .bitcoinTestnet => ⟨"Bitcoin Testnet", .bitcoin, true⟩
  | .ethereum => ⟨"Ethereum", .evm, false⟩
  | .ethereumSepolia => ⟨"Ethereum Sepolia", .evm, true⟩
  | .polygon => ⟨"Polygon", .evm, false⟩
  | .polygonAmoy => ⟨"Polygon Amoy", .evm, true⟩
  | .bsc => ⟨"BNB Smart Chain", .evm, false⟩
  | .bscTestnet => ⟨"BNB Smart Chain Testnet", .evm, true⟩

def networks : List Network := [.bitcoin, .bitcoinTestnet, .ethereum, .ethereumSepolia, .polygon,
  .polygonAmoy, .bsc, .bscTestnet]

/-- The network of a name, `none` where `isNetwork` denies the name. -/
def networkNamed (value : String) : Option Network := networks.find? fun n => n.name = value

/-- The letters outside ASCII that upper case spells in ASCII. Other such letters are left as they
are here: no name has one, in either case. -/
def asciiUpperCase : List (Char × List Char) := [
  ('\u00df', ['S', 'S']), ('\u0131', ['I']), ('\u017f', ['S']), ('\ufb00', ['F', 'F']),
  ('\ufb01', ['F', 'I']), ('\ufb02', ['F', 'L']), ('\ufb03', ['F', 'F', 'I']),
  ('\ufb04', ['F', 'F', 'L']), ('\ufb05', ['S', 'T']), ('\ufb06', ['S', 'T'])]

def upperChar (c : Char) : List Char :=
  ((asciiUpperCase.find? fun entry => entry.1 = c).map (·.2)).getD [c.toUpper]

def toUpperCase (s : String) : String := String.ofList (s.toList.flatMap upperChar)

/-- A live key touches mainnets only, a test key testnets only. -/
def assertNetworkMatchesLivemode (livemode : Bool) (networkConfig : NetworkConfig) :
    Except Error Unit :=
  if livemode = networkConfig.isTestnet then
    .error (.app 403 (if livemode then
      "this is a live API key; " ++ networkConfig.displayName ++
        " is a testnet and cannot be used in live mode"
    else
      "this is a test API key; " ++ networkConfig.displayName ++
        " is a mainnet and cannot be used in test mode"))
  else
    .ok ()

/-- Every network is found by its name, in whatever case it is written. -/
example : networks.map (fun n => networkNamed (toUpperCase (toLowerCase n.name))) =
    networks.map some := by decide +kernel

end PaymentGateway
