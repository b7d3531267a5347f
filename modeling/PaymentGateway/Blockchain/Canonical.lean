import PaymentGateway.Blockchain.SegwitStandard

/-!
# The canonical form of a Bitcoin address

Two valid addresses of one network have the same canonical form exactly when they decode to the same
destination (`normalizeBitcoinAddress_eq_iff`). Within a family this is the injectivity of its
decoder. Across the families it needs that no string is read by both: the human-readable part begins
with a letter that, as the first digit of a number in base 58, leaves no room for the version bytes
of the network (`notBase58Check`).
-/

namespace PaymentGateway

namespace BitcoinAddress

/-- What an address decodes to, under either family. -/
inductive BitcoinDestination
  | legacy (version : UInt8) (payload : List UInt8)
  | witness (version : Nat) (program : List Nat)
  deriving DecidableEq, Repr

variable {sha256 : List UInt8 → List UInt8} {network : BitcoinNetworkKind}

section DecodesTo

variable (sha256 network)

inductive DecodesTo (address : String) : BitcoinDestination → Prop
  | legacy {version : UInt8} {payload checksum : List UInt8}
      (valid : isValidBase58Check sha256 address network = true)
      (decoded : base58Decode address.toList = some (version :: payload ++ checksum))
      (payload_length : payload.length = 20) (checksum_length : checksum.length = 4) :
      DecodesTo address (.legacy version payload)
  | witness {d : Bech32Decoded} (valid : isValidSegwit address network = true)
      (decoded : bech32Decode address.toList = some d) :
      DecodesTo address (.witness d.version d.program)

end DecodesTo

/-! ## No string is in both families -/

/-- The number of a string whose first digit is `d` is not that of 25 bytes that begin with `v`,
whatever the length of the string. -/
def LeavesNoRoom (d v : Nat) : Prop :=
  (d + 1) * 58 ^ 32 ≤ v * 256 ^ 24 ∧
    ((d + 1) * 58 ^ 33 ≤ v * 256 ^ 24 ∨ (v + 1) * 256 ^ 24 ≤ d * 58 ^ 33) ∧
    (v + 1) * 256 ^ 24 ≤ d * 58 ^ 34

instance (d v : Nat) : Decidable (LeavesNoRoom d v) :=
  inferInstanceAs (Decidable (_ ∧ (_ ∨ _) ∧ _))

theorem LeavesNoRoom.all_lengths {d v : Nat} (h : LeavesNoRoom d v) (n : Nat) :
    (d + 1) * 58 ^ n ≤ v * 256 ^ 24 ∨ (v + 1) * 256 ^ 24 ≤ d * 58 ^ n := by
  obtain ⟨hshort, hsame, hlong⟩ := h
  rcases lt_trichotomy n 33 with hn | rfl | hn
  · left
    calc (d + 1) * 58 ^ n ≤ (d + 1) * 58 ^ 32 :=
          Nat.mul_le_mul_left _ (Nat.pow_le_pow_right (by decide) (by omega))
      _ ≤ v * 256 ^ 24 := hshort
  · exact hsame
  · right
    calc (v + 1) * 256 ^ 24 ≤ d * 58 ^ 34 := hlong
      _ ≤ d * 58 ^ n := Nat.mul_le_mul_left _ (Nat.pow_le_pow_right (by decide) (by omega))

/-- The letters that begin a segwit address, against the version bytes other than zero. -/
theorem leavesNoRoom (network : BitcoinNetworkKind) : ∀ c ∈ base58Alphabet,
    some (lowerChar c) = (humanReadablePart network).head? →
      base58Alphabet.idxOf c ≠ 0 ∧ ∀ v ∈ legacyVersions network, v ≠ 0 →
        LeavesNoRoom (base58Alphabet.idxOf c) v.toNat := by
  cases network
  all_goals exact @of_decide_eq_true _ (List.decidableBAll _ _) (by decide +kernel)

/-- The bytes of a number do not begin with zero, except those of zero. -/
theorem valueBytes_head {value : Nat} {rest : List UInt8} (h : valueBytes value = 0 :: rest) :
    rest = [] := by
  unfold valueBytes at h
  by_cases hzero : value = 0
  · rw [if_pos hzero] at h
    exact (List.cons.inj h).2.symm
  · rw [if_neg hzero] at h
    obtain ⟨d, ds, hdigits, hd, -⟩ := List.map_eq_cons_iff.1 h
    have hlast : Nat.digits 256 value = ds.reverse ++ [d] := by
      rw [← List.reverse_cons, ← hdigits, List.reverse_reverse]
    have hlt : d < 256 := Nat.digits_lt_base (by decide) (by rw [hlast]; simp)
    have hne : d ≠ 0 := by
      have hgetLast := Nat.getLast_digit_ne_zero 256 hzero
      simpa [hlast] using hgetLast
    have hd : d % 256 = 0 := congrArg UInt8.toNat hd
    omega

/-- The parts of a Base58Check address. -/
theorem base58Check_parts {address : String}
    (h : isValidBase58Check sha256 address network = true) :
    ∃ (version : UInt8) (payload checksum : List UInt8),
      base58Decode address.toList = some (version :: payload ++ checksum) ∧
      payload.length = 20 ∧ checksum.length = 4 ∧
      checksum = (doubleSha256 sha256 (version :: payload)).take 4 ∧
      version ∈ legacyVersions network := by
  unfold isValidBase58Check at h
  split at h
  · cases h
  · next bytes hbytes =>
    dsimp only at h
    split_ifs at h with hlength hchecksum
    rw [not_not] at hlength hchecksum
    obtain ⟨version, hversion, hlegacy⟩ := (Option.any_eq_true ..).1 h
    obtain ⟨payload, hpayload⟩ := List.head?_eq_some_iff.1 hversion
    refine ⟨version, payload, bytes.drop 21, ?_, ?_, ?_, ?_, ?_⟩
    · rw [← hpayload, List.take_append_drop]
      exact hbytes
    · have hcount := congrArg List.length hpayload
      rw [List.length_take, List.length_cons] at hcount
      omega
    · rw [List.length_drop]
      omega
    · rw [← hpayload]
      exact hchecksum
    · simpa using hlegacy

/-- A string that begins like the human-readable part is no Base58Check address. -/
theorem notBase58Check {address : String} {c : Char} {rest : List Char}
    (hfirst : address.toList = c :: rest)
    (hc : some (lowerChar c) = (humanReadablePart network).head?) :
    isValidBase58Check sha256 address network = false := by
  by_contra hvalid
  rw [Bool.not_eq_false] at hvalid
  obtain ⟨v, payload, checksum, hdecode, hpayload, hsum, -, hversion⟩ := base58Check_parts hvalid
  obtain ⟨digits, hdigits, hbytes⟩ := base58Decode_digits hdecode
  obtain ⟨hletters, hpositions⟩ := Numeral.mapM_idxOf?_eq_some.1 hdigits
  have hlt := Numeral.mapM_idxOf?_lt hdigits
  rw [hfirst] at hletters hpositions
  obtain ⟨hd, hroom⟩ := leavesNoRoom network c (hletters c List.mem_cons_self) hc
  rw [List.map_cons] at hpositions
  subst hpositions
  -- Without a leading one the bytes are those of the number, and do not begin with zero.
  rw [List.takeWhile_cons_of_neg (by simpa using hd), List.length_nil, List.replicate_zero,
    List.nil_append] at hbytes
  have hv : v ≠ 0 := by
    intro hzero
    have hrest := valueBytes_head (hzero ▸ hbytes.symm)
    have hcount := congrArg List.length hrest
    simp [hpayload, hsum] at hcount
  have hvalue := congrArg (Numeral.value 256 <| List.map UInt8.toNat ·) hbytes
  simp only [value_valueBytes, List.cons_append, List.map_cons] at hvalue
  have hoctets : ∀ a ∈ (payload ++ checksum).map UInt8.toNat, a < 256 := by
    intro a ha
    obtain ⟨b, -, rfl⟩ := List.mem_map.1 ha
    exact b.toNat_lt
  obtain ⟨hlow, hhigh⟩ := Numeral.value_cons_bounds v.toNat hoctets
  obtain ⟨hlow', hhigh'⟩ := Numeral.value_cons_bounds (base58Alphabet.idxOf c)
    fun a ha => hlt a (List.mem_cons_of_mem _ ha)
  rw [List.length_map, List.length_append, hpayload, hsum, hvalue] at hlow hhigh
  have hnoRoom := (hroom v hversion hv).all_lengths (rest.map (base58Alphabet.idxOf ·)).length
  rcases hnoRoom with hless | hmore
  · exact absurd (hlow.trans_lt hhigh') (Nat.not_lt_of_le hless)
  · exact absurd (hlow'.trans_lt hhigh) (Nat.not_lt_of_le hmore)

/-! ## The canonical form -/

/-- A segwit address, and so its lower-case form, begins like the human-readable part. -/
theorem isValidSegwit_parts {address : String} (h : isValidSegwit address network = true) :
    ∃ d dataPart, bech32Decode address.toList = some d ∧ d.hrp = humanReadablePart network ∧
      address.toList.map lowerChar = humanReadablePart network ++ '1' :: dataPart ∧
      decodeParts (humanReadablePart network) dataPart = some d := by
  obtain ⟨d, hd, hhrp⟩ := (Option.any_eq_true ..).1 h
  rw [decide_eq_true_eq] at hhrp
  obtain ⟨dataPart, hsplit, hparts⟩ := bech32Decode_eq_some hd
  rw [hhrp] at hsplit hparts
  exact ⟨d, dataPart, hd, hhrp, hsplit, hparts⟩

theorem notBase58Check_of_lower {address : String} {dataPart : List Char}
    (h : address.toList.map lowerChar = humanReadablePart network ++ '1' :: dataPart) :
    isValidBase58Check sha256 address network = false := by
  cases hletters : address.toList with
  | nil =>
    rw [hletters] at h
    cases network <;> cases h
  | cons c rest =>
    refine notBase58Check hletters ?_
    have hhead := congrArg List.head? h
    rw [hletters, List.map_cons, List.head?_cons] at hhead
    rw [hhead]
    cases network <;> rfl

theorem segwit_notBase58Check {address : String} (h : isValidSegwit address network = true) :
    isValidBase58Check sha256 address network = false := by
  obtain ⟨d, dataPart, -, -, hsplit, -⟩ := isValidSegwit_parts h
  exact notBase58Check_of_lower hsplit

/-- The lower-case form of a segwit address is no Base58Check address either. -/
theorem lower_notBase58Check {address : String} (h : isValidSegwit address network = true) :
    isValidBase58Check sha256 (String.ofList (address.toList.map lowerChar)) network = false := by
  obtain ⟨d, dataPart, -, -, hsplit, -⟩ := isValidSegwit_parts h
  have hagain : (String.ofList (address.toList.map lowerChar)).toList.map lowerChar =
      humanReadablePart network ++ '1' :: dataPart.map lowerChar := by
    rw [String.toList_ofList, hsplit, List.map_append, List.map_cons]
    cases network <;> rfl
  exact notBase58Check_of_lower hagain

/-- Version and program determine everything that is decoded. -/
theorem decoded_eq {d d' : Bech32Decoded} {hrp hrp' dataPart dataPart' : List Char}
    (h : decodeParts hrp dataPart = some d) (h' : decodeParts hrp' dataPart' = some d')
    (hhrp : d.hrp = d'.hrp) (hversion : d.version = d'.version)
    (hprogram : d.program = d'.program) : d = d' := by
  obtain ⟨-, -, -, -, -, -, -, hwell⟩ := decodeParts_eq_some_iff.1 h
  obtain ⟨-, -, -, -, -, -, -, hwell'⟩ := decodeParts_eq_some_iff.1 h'
  obtain ⟨-, -, hbech32, hbech32m⟩ := isWellFormedProgram_iff.1 hwell
  obtain ⟨-, -, hbech32', hbech32m'⟩ := isWellFormedProgram_iff.1 hwell'
  have hvariant : d.variant = d'.variant := by
    by_cases hzero : d.version = 0
    · rw [hbech32 hzero, hbech32' (hversion ▸ hzero)]
    · rw [hbech32m hzero, hbech32m' (hversion ▸ hzero)]
  cases d
  cases d'
  simp_all

theorem segwit_lower_eq_iff {a b : String} {d d' : Bech32Decoded}
    (ha : isValidSegwit a network = true) (hb : isValidSegwit b network = true)
    (hd : bech32Decode a.toList = some d) (hd' : bech32Decode b.toList = some d') :
    a.toList.map lowerChar = b.toList.map lowerChar ↔
      d.version = d'.version ∧ d.program = d'.program := by
  obtain ⟨_, dataPart, hd₁, hhrp, hsplit, hparts⟩ := isValidSegwit_parts ha
  obtain ⟨_, dataPart', hd₂, hhrp', hsplit', hparts'⟩ := isValidSegwit_parts hb
  obtain rfl := Option.some.inj (hd₁.symm.trans hd)
  obtain rfl := Option.some.inj (hd₂.symm.trans hd')
  constructor
  · intro hsame
    rw [hsplit, hsplit'] at hsame
    obtain rfl := (List.cons.inj (List.append_cancel_left hsame)).2
    obtain rfl := Option.some.inj (hparts.symm.trans hparts')
    exact ⟨rfl, rfl⟩
  · intro hsame
    obtain ⟨hversion, hprogram⟩ := hsame
    have heq := decoded_eq hparts hparts' (hhrp.trans hhrp'.symm) hversion hprogram
    exact bech32Decode_inj hd (heq ▸ hd')

/-- The destinations of an address in the first family, and in the second. -/
theorem decodesTo_legacy_iff {address : String} {version : UInt8} {payload checksum : List UInt8}
    (hvalid : isValidBase58Check sha256 address network = true)
    (hdecode : base58Decode address.toList = some (version :: payload ++ checksum))
    (hpayload : payload.length = 20) (hchecksum : checksum.length = 4) {x : BitcoinDestination} :
    DecodesTo sha256 network address x ↔ x = .legacy version payload := by
  constructor
  · intro hx
    cases hx with
    | legacy _ hdecode' hpayload' _ =>
      have hsame := Option.some.inj (hdecode'.symm.trans hdecode)
      obtain ⟨rfl, hrest⟩ := List.cons.inj hsame
      rw [(List.append_inj hrest (hpayload'.trans hpayload.symm)).1]
    | witness hsegwit _ =>
      rw [segwit_notBase58Check hsegwit] at hvalid
      cases hvalid
  · intro hx
    rw [hx]
    exact .legacy hvalid hdecode hpayload hchecksum

theorem decodesTo_witness_iff {address : String} {d : Bech32Decoded}
    (hvalid : isValidSegwit address network = true)
    (hd : bech32Decode address.toList = some d) {x : BitcoinDestination} :
    DecodesTo sha256 network address x ↔ x = .witness d.version d.program := by
  constructor
  · intro hx
    cases hx with
    | legacy hbase _ _ _ =>
      rw [segwit_notBase58Check hvalid] at hbase
      cases hbase
    | witness _ hd' => rw [Option.some.inj (hd'.symm.trans hd)]
  · intro hx
    rw [hx]
    exact .witness hvalid hd

/-- A valid address is of one family, with its form and its destination. -/
theorem valid_cases {address : String}
    (h : isValidBitcoinAddress sha256 address network = true) :
    (isValidBase58Check sha256 address network = true ∧
      normalizeBitcoinAddress sha256 address network = .ok address) ∨
    (isValidSegwit address network = true ∧ normalizeBitcoinAddress sha256 address network =
      .ok (String.ofList (address.toList.map lowerChar))) := by
  have hnormal := h
  unfold isValidBitcoinAddress at h
  unfold normalizeBitcoinAddress
  rw [hnormal]
  by_cases hbase : isValidBase58Check sha256 address network = true
  · left
    simp [hbase]
  · right
    rw [Bool.not_eq_true] at hbase
    split_ifs at h
    rw [hbase, Bool.false_or] at h
    exact ⟨h, by simp [hbase]⟩

/-- Base58Check addresses with one destination are the same. -/
theorem base58_eq_iff {a b : String} (ha : isValidBase58Check sha256 a network = true)
    (hb : isValidBase58Check sha256 b network = true) :
    a = b ↔ ∃ x, DecodesTo sha256 network a x ∧ DecodesTo sha256 network b x := by
  obtain ⟨v, payload, checksum, hdecode, hpayload, hlength, hsum, -⟩ := base58Check_parts ha
  obtain ⟨v', payload', checksum', hdecode', hpayload', hlength', hsum', -⟩ :=
    base58Check_parts hb
  simp only [decodesTo_legacy_iff ha hdecode hpayload hlength,
    decodesTo_legacy_iff hb hdecode' hpayload' hlength']
  constructor
  · intro hsame
    subst hsame
    have hbytes := Option.some.inj (hdecode.symm.trans hdecode')
    obtain ⟨rfl, hrest⟩ := List.cons.inj hbytes
    rw [(List.append_inj hrest (hpayload.trans hpayload'.symm)).1]
    exact ⟨_, rfl, rfl⟩
  · intro hsame
    obtain ⟨x, rfl, hx⟩ := hsame
    obtain ⟨rfl, rfl⟩ := BitcoinDestination.legacy.inj hx
    rw [hsum, ← hsum'] at hdecode
    exact String.toList_injective (base58Decode_inj hdecode hdecode')

/-- Segwit addresses with one destination are the same up to case. -/
theorem segwit_eq_iff {a b : String} (ha : isValidSegwit a network = true)
    (hb : isValidSegwit b network = true) :
    String.ofList (a.toList.map lowerChar) = String.ofList (b.toList.map lowerChar) ↔
      ∃ x, DecodesTo sha256 network a x ∧ DecodesTo sha256 network b x := by
  obtain ⟨d, -, hd, -⟩ := isValidSegwit_parts ha
  obtain ⟨d', -, hd', -⟩ := isValidSegwit_parts hb
  simp only [decodesTo_witness_iff ha hd, decodesTo_witness_iff hb hd']
  rw [String.ofList_inj, segwit_lower_eq_iff ha hb hd hd']
  simp

/-- Addresses of different families share neither a form nor a destination. -/
theorem families_differ {a b : String} (ha : isValidBase58Check sha256 a network = true)
    (hb : isValidSegwit b network = true) :
    a ≠ String.ofList (b.toList.map lowerChar) ∧
      ¬∃ x, DecodesTo sha256 network a x ∧ DecodesTo sha256 network b x := by
  constructor
  · intro hsame
    rw [hsame, lower_notBase58Check hb] at ha
    cases ha
  · intro hshared
    obtain ⟨v, payload, checksum, hdecode, hpayload, hlength, -, -⟩ := base58Check_parts ha
    obtain ⟨d, -, hd, -⟩ := isValidSegwit_parts hb
    obtain ⟨x, hx, hx'⟩ := hshared
    rw [decodesTo_legacy_iff ha hdecode hpayload hlength] at hx
    rw [decodesTo_witness_iff hb hd, hx] at hx'
    cases hx'

/-- **Two valid addresses have one canonical form if and only if they decode to one
destination.** -/
theorem normalizeBitcoinAddress_eq_iff {a b : String}
    (ha : isValidBitcoinAddress sha256 a network = true)
    (hb : isValidBitcoinAddress sha256 b network = true) :
    normalizeBitcoinAddress sha256 a network = normalizeBitcoinAddress sha256 b network ↔
      ∃ x, DecodesTo sha256 network a x ∧ DecodesTo sha256 network b x := by
  rcases valid_cases ha with ⟨ha, hforma⟩ | ⟨ha, hforma⟩ <;>
    rcases valid_cases hb with ⟨hb, hformb⟩ | ⟨hb, hformb⟩ <;>
    rw [hforma, hformb, Except.ok.injEq]
  · exact base58_eq_iff ha hb
  · obtain ⟨hform, hshared⟩ := families_differ ha hb
    exact iff_of_false hform hshared
  · obtain ⟨hform, hshared⟩ := families_differ hb ha
    refine iff_of_false (fun h => hform h.symm) fun h => hshared ?_
    obtain ⟨x, hxa, hxb⟩ := h
    exact ⟨x, hxb, hxa⟩
  · exact segwit_eq_iff ha hb

end BitcoinAddress

/-! ## Two spellings of one program -/

namespace Shop

open BitcoinAddress

def screamedAddress : String := "BC1QW508D6QEJXTDG4Y5R3ZARVARY0C5XW7KV8F3T4"

def spokenAddress : String := "bc1qw508d6qejxtdg4y5r3zarvary0c5xw7kv8f3t4"

/-- Both have one form, so they pay to one destination. No hash is asked about them. -/
theorem screamedAddress_spoken :
    normalizeBitcoinAddress id screamedAddress .mainnet = .ok spokenAddress ∧
    normalizeBitcoinAddress id spokenAddress .mainnet = .ok spokenAddress ∧
    ∃ x, DecodesTo id .mainnet screamedAddress x ∧ DecodesTo id .mainnet spokenAddress x := by
  have hscreamed : normalizeBitcoinAddress id screamedAddress .mainnet = .ok spokenAddress := by
    decide +kernel
  have hspoken : normalizeBitcoinAddress id spokenAddress .mainnet = .ok spokenAddress := by
    decide +kernel
  have hdestination : normalizeBitcoinAddress id screamedAddress .mainnet =
        normalizeBitcoinAddress id spokenAddress .mainnet ↔
      ∃ x, DecodesTo id .mainnet screamedAddress x ∧ DecodesTo id .mainnet spokenAddress x :=
    normalizeBitcoinAddress_eq_iff (by decide +kernel) (by decide +kernel)
  exact ⟨hscreamed, hspoken, hdestination.1 (hscreamed.trans hspoken.symm)⟩

end Shop

end PaymentGateway
