import Mathlib.Data.Nat.Digits.Defs
import PaymentGateway.Blockchain.TransferLog

/-!
# Bitcoin addresses

Validation of the three address families: Base58Check (P2PKH and P2SH), Bech32 (SegWit version 0)
and Bech32m (version 1 and later). The hash behind the Base58 checksum is a parameter, `sha256`.

Bitwise operators work on numbers of 32 bits. Among the letters outside ASCII one has its lower
case inside it, the Kelvin sign, and `lowerChar` knows it; every other such letter is in neither
alphabet, whatever its case.
-/

namespace PaymentGateway

inductive BitcoinNetworkKind
  | mainnet | testnet
  deriving DecidableEq, Repr

def BitcoinNetworkKind.name : BitcoinNetworkKind → String
  | mainnet => "mainnet"
  | testnet => "testnet"

namespace BitcoinAddress

/-! ## Base58Check -/

/-- No zero, no capital O or I, no small l. -/
def base58Alphabet : List Char :=
  "123456789ABCDEFGHJKLMNPQRSTUVWXYZabcdefghijkmnopqrstuvwxyz".toList

/-- The number that the digits stand for. -/
def base58Value (input : List Char) : Option Nat :=
  input.foldlM (fun value c => (base58Alphabet.idxOf? c).map (value * 58 + ·)) 0

/-- The bytes of a number, most significant first. Zero is one byte: its hexadecimal form `0` has
been padded to `00` before the source compares it with `0`. -/
def valueBytes (value : Nat) : List UInt8 :=
  if value = 0 then [0] else (Nat.digits 256 value).reverse.map UInt8.ofNat

/-- Each leading `1` encodes one leading zero byte. -/
def base58Decode (input : List Char) : Option (List UInt8) :=
  if input.length = 0 then none
  else (base58Value input).map fun value =>
    List.replicate (input.takeWhile (· = '1')).length 0 ++ valueBytes value

/-- The version bytes of P2PKH and of P2SH. -/
def legacyVersions : BitcoinNetworkKind → List UInt8
  | .mainnet => [0x00, 0x05]
  | .testnet => [0x6f, 0xc4]

section Hash

variable (sha256 : List UInt8 → List UInt8)

def doubleSha256 (data : List UInt8) : List UInt8 := sha256 (sha256 data)

/-- A version byte, twenty bytes, and their checksum. -/
def isValidBase58Check (address : String) (network : BitcoinNetworkKind) : Bool :=
  match base58Decode address.toList with
  | none => false
  | some decoded =>
    if decoded.length ≠ 25 then false
    else
      let payload := decoded.take 21
      let checksum := decoded.drop 21
      if checksum ≠ (doubleSha256 sha256 payload).take 4 then false
      else payload.head?.any fun version => (legacyVersions network).contains version

end Hash

/-! ## Bech32 and Bech32m -/

def bech32Charset : List Char := "qpzry9x8gf2tvdw0s3jn54khce6mua7l".toList

def bech32Const : Nat := 1

def bech32mConst : Nat := 0x2bc830a3

def bech32Generators : List Nat := [0x3b6a57b2, 0x26508e6d, 0x1ea119fa, 0x3d4233dd, 0x2a1462b3]

/-- One round: shift a value in and add the generators of the bits that fall out. -/
def polymodStep (checksum value : Nat) : Nat :=
  bech32Generators.zipIdx.foldl
    (fun c g => if (checksum >>> 25) >>> g.2 &&& 1 ≠ 0 then c ^^^ g.1 else c)
    (((checksum &&& 0x1ffffff) <<< 5) ^^^ value)

/-- The checksum of a list of five-bit values. -/
def bech32Polymod (values : List Nat) : Nat := values.foldl polymodStep 1

/-- The human-readable part as the checksum reads it. -/
def bech32HrpExpand (hrp : List Char) : List Nat :=
  hrp.map (fun c => c.toNat >>> 5) ++ [0] ++ hrp.map fun c => c.toNat &&& 31

inductive Bech32Variant
  | bech32 | bech32m
  deriving DecidableEq, Repr

structure Bech32Decoded where
  hrp : List Char
  version : Nat
  program : List Nat
  variant : Bech32Variant
  deriving DecidableEq, Repr

def lowerChar (c : Char) : Char := if c = '\u212a' then 'k' else c.toLower

/-- The groups of `toBits` bits in `acc`, as far as the bits go; also the number of bits left. -/
def takeGroups (acc toBits : Nat) : Nat → List Nat × Nat
  | bits =>
    if h : 0 < toBits ∧ toBits ≤ bits then
      let rest := takeGroups acc toBits (bits - toBits)
      (((acc >>> (bits - toBits)) &&& ((1 <<< toBits) - 1)) :: rest.1, rest.2)
    else ([], bits)
  termination_by bits => bits

/-- The state of the regrouping: the accumulator, its number of bits, and the groups so far. -/
structure Regrouping where
  acc : Nat
  bits : Nat
  result : List Nat

def convertStep (fromBits toBits : Nat) (s : Regrouping) (value : Nat) : Option Regrouping :=
  if value >>> fromBits ≠ 0 then none
  else
    let acc := ((s.acc <<< fromBits) ||| value) % 2 ^ 32
    let groups := takeGroups acc toBits (s.bits + fromBits)
    some ⟨acc, groups.2, s.result ++ groups.1⟩

/-- Regroup bits. Without padding what is left over must be short and zero. -/
def convertBits (data : List Nat) (fromBits toBits : Nat) (pad : Bool) : Option (List Nat) :=
  (data.foldlM (convertStep fromBits toBits) ⟨0, 0, []⟩).bind fun s =>
    let last := (s.acc <<< (toBits - s.bits)) &&& ((1 <<< toBits) - 1)
    if pad then
      some (if s.bits > 0 then s.result ++ [last] else s.result)
    else if s.bits ≥ fromBits ∨ last ≠ 0 then none
    else some s.result

/-- The position of the last `1`. -/
def lastSeparator (s : List Char) : Option Nat :=
  (s.reverse.idxOf? '1').map (s.length - 1 - ·)

def bech32Values (dataPart : List Char) : Option (List Nat) :=
  dataPart.mapM fun c => bech32Charset.idxOf? c

def variantOf (checksum : Nat) : Option Bech32Variant :=
  if checksum = bech32Const then some .bech32
  else if checksum = bech32mConst then some .bech32m
  else none

/-- The length rules, and which variant goes with which version. -/
def isWellFormedProgram (d : Bech32Decoded) : Bool :=
  !(decide (d.program.length < 2 ∨ d.program.length > 40) ||
    decide (d.version = 0 ∧ d.program.length ≠ 20 ∧ d.program.length ≠ 32) ||
    decide (d.version = 0 ∧ d.variant ≠ .bech32) ||
    decide (d.version ≠ 0 ∧ d.variant ≠ .bech32m))

/-- What follows the separator: the values, their checksum, the version and the program. -/
def decodeParts (hrp dataPart : List Char) : Option Bech32Decoded := do
  let values ← bech32Values dataPart
  let variant ← variantOf (bech32Polymod (bech32HrpExpand hrp ++ values))
  match values.take (values.length - 6) with
  | [] => none
  | version :: programWords => do
    let program ← convertBits programWords 5 8 false
    let decoded : Bech32Decoded := ⟨hrp, version, program, variant⟩
    if isWellFormedProgram decoded then some decoded else none

def bech32Decode (address : List Char) : Option Bech32Decoded :=
  let lower := address.map lowerChar
  if address.length < 8 ∨ address.length > 90 then none
  else if address ≠ lower ∧ address ≠ address.map Char.toUpper then none
  else
    match lastSeparator lower with
    | none => none
    | some separator =>
      if separator < 1 ∨ separator + 7 > lower.length then none
      else decodeParts (lower.take separator) (lower.drop (separator + 1))

def humanReadablePart : BitcoinNetworkKind → List Char
  | .mainnet => ['b', 'c']
  | .testnet => ['t', 'b']

/-- A witness program of the network, under the checksum that its version calls for. -/
def isValidSegwit (address : String) (network : BitcoinNetworkKind) : Bool :=
  (bech32Decode address.toList).any fun decoded => decoded.hrp = humanReadablePart network

end BitcoinAddress

/-! ## Validity and canonical form -/

open BitcoinAddress

section Hash

variable (sha256 : List UInt8 → List UInt8)

/-- Either kind of address. -/
def isValidBitcoinAddress (address : String) (network : BitcoinNetworkKind) : Bool :=
  if address.length = 0 then false
  else isValidBase58Check sha256 address network || isValidSegwit address network

/-- Base58 is case-sensitive and kept as it is; Bech32 is lowercased. -/
def normalizeBitcoinAddress (address : String) (network : BitcoinNetworkKind) :
    Except ParseFailure String :=
  if !isValidBitcoinAddress sha256 address network then
    .error (.plain ("not a valid Bitcoin " ++ network.name ++ " address: " ++ address))
  else if isValidBase58Check sha256 address network then .ok address
  else .ok (String.ofList (address.toList.map lowerChar))

end Hash

/-- The example address of the standard, which no hash is asked about. -/
example : normalizeBitcoinAddress id "BC1QW508D6QEJXTDG4Y5R3ZARVARY0C5XW7KV8F3T4" .mainnet =
    .ok "bc1qw508d6qejxtdg4y5r3zarvary0c5xw7kv8f3t4" := by decide +kernel

end PaymentGateway
