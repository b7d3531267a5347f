import PaymentGateway.Blockchain.Spelling

/-!
# The standard for segwit addresses

Bech32 and Bech32m, stated apart from the code that checks them: the checksum is a remainder of
polynomials over the field of 32 elements (`remainder`), a program is a number written once in bytes
and once in words of five bits (`WitnessProgram`), and an address is the writing of a program in one
case (`Writes`).

The code agrees with it (`isValidSegwit_iff`) up to two slips. It never asks that the version be at
most 16, and it lowers the Kelvin sign to a `k` although the sign counts as a capital letter.
-/

namespace PaymentGateway

namespace BitcoinAddress

/-! ## The field of 32 elements -/

/-- Multiplication by the root of `X⁵ + X³ + 1`. The bits of an element are its coefficients. -/
def gfDouble (a : Nat) : Nat := if 2 * a < 32 then 2 * a else (2 * a) ^^^ 41

def gfMul (a b : Nat) : Nat :=
  (List.range 5).foldr (fun i product => gfDouble product ^^^ if b.testBit i then a else 0) 0

/-- The generator polynomial of the checksum, without its leading term `X⁶`. -/
def bech32Generator : List Nat := [29, 22, 20, 21, 29, 18]

/-! ## Remainders -/

/-- The remainder once a coefficient follows: all are moved up, and the generator cancels the one
that has become the leading coefficient. -/
def remainderStep (r : List Nat) (coefficient : Nat) : List Nat :=
  List.zipWith (fun a g => a ^^^ gfMul (r.headD 0) g) (r.tail ++ [coefficient]) bech32Generator

/-- The remainder of a polynomial, from its leading coefficient on. -/
def remainder (coefficients : List Nat) : List Nat :=
  coefficients.foldl remainderStep (List.replicate 6 0)

/-- The multiples of the generator are the sums of the packed generators of the code. -/
theorem generators_packed : ∀ a < 32,
    bech32Generators.zipIdx.foldl (fun c g => if a >>> g.2 &&& 1 ≠ 0 then c ^^^ g.1 else c) 0 =
      Numeral.value 32 (bech32Generator.map (gfMul a)) := by decide +kernel

theorem gfMul_generator_lt : ∀ a < 32, ∀ g ∈ bech32Generator, gfMul a g < 32 := by
  decide +kernel

theorem shifted_lt {rest : List Nat} {v : Nat} (h : ∀ a ∈ rest, a < 2 ^ 5) (hv : v < 2 ^ 5) :
    ∀ a ∈ rest ++ [v], a < 2 ^ 5 := by
  intro a ha
  rcases List.mem_append.1 ha with ha | ha
  · exact h a ha
  · rw [List.mem_singleton.1 ha]
    exact hv

theorem multiples_lt {a : Nat} (ha : a < 2 ^ 5) :
    ∀ b ∈ bech32Generator.map (gfMul a), b < 2 ^ 5 := by
  intro b hb
  obtain ⟨g, hg, rfl⟩ := List.mem_map.1 hb
  exact gfMul_generator_lt a ha g hg

theorem remainderStep_cons (a : Nat) (rest : List Nat) (v : Nat) :
    remainderStep (a :: rest) v =
      List.zipWith (· ^^^ ·) (rest ++ [v]) (bech32Generator.map (gfMul a)) := by
  rw [List.zipWith_map_right]
  rfl

/-- A round of the code is a step of the division, on the packed remainder. -/
theorem remainderStep_packed {r : List Nat} {v : Nat} (hlength : r.length = 6)
    (hr : ∀ a ∈ r, a < 2 ^ 5) (hv : v < 2 ^ 5) :
    Numeral.value 32 (remainderStep r v) = polymodStep (Numeral.value 32 r) v := by
  obtain ⟨a, rest, rfl⟩ := List.exists_cons_of_length_eq_add_one hlength
  have hrest : rest.length = 5 := by simpa using hlength
  have ha : a < 2 ^ 5 := hr a List.mem_cons_self
  have hlt : ∀ b ∈ rest, b < 2 ^ 5 := fun b hb => hr b (List.mem_cons_of_mem a hb)
  have hlow : Numeral.value 32 rest < 32 ^ rest.length := Numeral.value_lt rest hlt
  rw [hrest] at hlow
  have hvalue : Numeral.value 32 (a :: rest) = a * 2 ^ 25 + Numeral.value 32 rest := by
    rw [Numeral.value_cons, hrest]
    rfl
  have htop : Numeral.value 32 (a :: rest) >>> 25 = a := by
    rw [hvalue, Nat.shiftRight_eq_div_pow]
    omega
  have hmask : Numeral.value 32 (a :: rest) &&& 0x1ffffff = Numeral.value 32 rest := by
    have hmod := Nat.and_two_pow_sub_one_eq_mod (Numeral.value 32 (a :: rest)) 25
    rw [hvalue] at hmod ⊢
    exact hmod.trans (by omega)
  have hup : (Numeral.value 32 rest <<< 5) ^^^ v = Numeral.value 32 (rest ++ [v]) := by
    rw [← Numeral.shiftLeft_add_eq_xor _ hv, Nat.shiftLeft_eq, Numeral.value_concat]
  have hcount : (rest ++ [v]).length = (bech32Generator.map (gfMul a)).length := by
    simp [hrest, bech32Generator]
  unfold polymodStep
  rw [htop, hmask, hup, ← Nat.zero_xor (Numeral.value 32 (rest ++ [v])), foldl_generators_xor,
    generators_packed a ha, remainderStep_cons, Nat.xor_comm]
  exact Numeral.value_zipWith_xor (k := 5) hcount (shifted_lt hlt hv) (multiples_lt ha)

theorem remainderStep_digits {r : List Nat} {v : Nat} (hlength : r.length = 6)
    (hr : ∀ a ∈ r, a < 2 ^ 5) (hv : v < 2 ^ 5) :
    (remainderStep r v).length = 6 ∧ ∀ a ∈ remainderStep r v, a < 2 ^ 5 := by
  obtain ⟨a, rest, rfl⟩ := List.exists_cons_of_length_eq_add_one hlength
  have hrest : rest.length = 5 := by simpa using hlength
  have ha : a < 2 ^ 5 := hr a List.mem_cons_self
  have hlt : ∀ b ∈ rest, b < 2 ^ 5 := fun b hb => hr b (List.mem_cons_of_mem a hb)
  rw [remainderStep_cons]
  refine ⟨by simp [hrest, bech32Generator], fun b hb => ?_⟩
  obtain ⟨i, hi, rfl⟩ := List.mem_iff_getElem.1 hb
  rw [List.getElem_zipWith]
  exact Nat.xor_lt_two_pow (shifted_lt hlt hv _ (List.getElem_mem _))
    (multiples_lt ha _ (List.getElem_mem _))

theorem foldl_remainderStep {r values : List Nat} (hlength : r.length = 6)
    (hr : ∀ a ∈ r, a < 2 ^ 5) (h : ∀ v ∈ values, v < 2 ^ 5) :
    Numeral.value 32 (values.foldl remainderStep r) =
      values.foldl polymodStep (Numeral.value 32 r) := by
  induction values generalizing r with
  | nil => rfl
  | cons v values ih =>
    have hv : v < 2 ^ 5 := h v List.mem_cons_self
    obtain ⟨hlength', hr'⟩ := remainderStep_digits hlength hr hv
    rw [List.foldl_cons, List.foldl_cons, ← remainderStep_packed hlength hr hv]
    exact ih hlength' hr' fun v hv => h v (List.mem_cons_of_mem _ hv)

/-- The checksum of the code is the remainder, packed. -/
theorem remainder_packed {values : List Nat} (h : ∀ v ∈ values, v < 32) :
    Numeral.value 32 (remainder (1 :: values)) = bech32Polymod values := by
  have hstart : remainderStep (List.replicate 6 0) 1 = [0, 0, 0, 0, 0, 1] := by decide +kernel
  unfold remainder
  rw [List.foldl_cons, hstart, foldl_remainderStep rfl (by decide) h]
  rfl

/-! ## Addresses of the standard -/

/-- A witness program: the number that its bytes write and, moved up past the padding, its words of
five bits. -/
structure WitnessProgram where
  version : Nat
  bytes : List Nat
  words : List Nat
  padding : Nat
  octets : ∀ b ∈ bytes, b < 256
  quintets : ∀ w ∈ words, w < 32
  regrouped : Numeral.value 32 words = Numeral.value 256 bytes * 2 ^ padding
  length_eq : 5 * words.length = 8 * bytes.length + padding
  padding_le : padding ≤ 4
  two_le : 2 ≤ bytes.length
  le_forty : bytes.length ≤ 40
  length_zero : version = 0 → bytes.length = 20 ∨ bytes.length = 32

/-- How the human-readable part enters the checksum. -/
def expandedHrp (hrp : List Char) : List Nat :=
  hrp.map (fun c => c.toNat / 32) ++ 0 :: hrp.map fun c => c.toNat % 32

/-- The address is in one case and short, and past the human-readable part and the separator its
letters are those of the version, the words and six more, which give the checksum its constant. -/
structure Writes (hrp address : List Char) (p : WitnessProgram) : Prop where
  oneCase : (∀ c ∈ address, c.isUpper = false) ∨ ∀ c ∈ address, c.isLower = false
  short : address.length ≤ 90
  parts : ∃ dataPart checksum, address.map Char.toLower = hrp ++ '1' :: dataPart ∧
    (∀ c ∈ dataPart, c ∈ bech32Charset) ∧ checksum.length = 6 ∧
    dataPart.map (bech32Charset.idxOf ·) = p.version :: p.words ++ checksum ∧
    Numeral.value 32 (remainder (1 :: expandedHrp hrp ++ (p.version :: p.words ++ checksum))) =
      if p.version = 0 then bech32Const else bech32mConst

def IsSegwitAddress (hrp address : List Char) : Prop :=
  ∃ p : WitnessProgram, p.version ≤ 16 ∧ Writes hrp address p

/-! ## Letters -/

theorem toLower_eq_self_iff {c : Char} : c.toLower = c ↔ c.isUpper = false := by
  unfold Char.toLower Char.isUpper
  by_cases h : c.val ≥ 'A'.val ∧ c.val ≤ 'Z'.val
  · rw [dif_pos h, Char.ext_iff, decide_eq_true h]
    simp
  · rw [dif_neg h, decide_eq_false h]
    simp

theorem toUpper_eq_self_iff {c : Char} : c.toUpper = c ↔ c.isLower = false := by
  unfold Char.toUpper Char.isLower
  by_cases h : 'a'.val ≤ c.val ∧ c.val ≤ 'z'.val
  · rw [dif_pos h, Char.ext_iff, ← Bool.decide_and, decide_eq_true h]
    simp
  · rw [dif_neg h, ← Bool.decide_and, decide_eq_false h]
    simp

/-- The Kelvin sign, read as the letter that it looks like. -/
def plainLetter (c : Char) : Char := if c = '\u212a' then 'K' else c

theorem toLower_plainLetter (c : Char) : (plainLetter c).toLower = lowerChar c := by
  unfold plainLetter lowerChar
  by_cases hc : c = '\u212a'
  · rw [if_pos hc, if_pos hc]
    decide
  · rw [if_neg hc, if_neg hc]

theorem lowerChar_eq_self_iff {c : Char} : lowerChar c = c ↔ (plainLetter c).isUpper = false := by
  unfold lowerChar plainLetter
  by_cases hc : c = '\u212a'
  · subst hc
    decide
  · rw [if_neg hc, if_neg hc]
    exact toLower_eq_self_iff

theorem upper_eq_self_iff {c : Char} : c.toUpper = c ↔ (plainLetter c).isLower = false := by
  unfold plainLetter
  by_cases hc : c = '\u212a'
  · subst hc
    decide
  · rw [if_neg hc]
    exact toUpper_eq_self_iff

theorem map_eq_self_iff {f : Char → Char} {p : Char → Bool} {address : List Char}
    (h : ∀ c, f c = c ↔ p (plainLetter c) = false) :
    address = address.map f ↔ ∀ c ∈ address.map plainLetter, p c = false := by
  rw [List.forall_mem_map, eq_comm]
  induction address with
  | nil => simp
  | cons c address ih => simp [h, ih]

/-! ## What the code accepts -/

theorem bech32HrpExpand_eq (hrp : List Char) : bech32HrpExpand hrp = expandedHrp hrp := by
  have hlow : ∀ n : Nat, n &&& 31 = n % 32 := fun n => Nat.and_two_pow_sub_one_eq_mod n 5
  simp [bech32HrpExpand, expandedHrp, Nat.shiftRight_eq_div_pow, hlow]

theorem expandedHrp_lt (network : BitcoinNetworkKind) :
    ∀ v ∈ expandedHrp (humanReadablePart network), v < 32 := by
  cases network <;> decide

theorem lastSeparator_append {hrp dataPart : List Char} (h : '1' ∉ dataPart) :
    lastSeparator (hrp ++ '1' :: dataPart) = some hrp.length := by
  have hposition : (hrp ++ '1' :: dataPart).reverse.idxOf? '1' = some dataPart.length := by
    rw [Numeral.idxOf?_eq_some_iff_idxOf]
    refine ⟨by simp, ?_⟩
    rw [List.reverse_append, List.reverse_cons, List.append_assoc,
      List.idxOf_append_of_notMem (by simpa using h)]
    simp
  unfold lastSeparator
  rw [hposition, Option.map_some, Option.some.injEq, List.length_append, List.length_cons]
  omega

theorem separator_notMem {dataPart : List Char} (h : ∀ c ∈ dataPart, c ∈ bech32Charset) :
    '1' ∉ dataPart := by
  intro hmem
  exact absurd (h '1' hmem) (by decide)

theorem bech32Decode_eq_some_iff {s : List Char} {d : Bech32Decoded} :
    bech32Decode s = some d ↔ (8 ≤ s.length ∧ s.length ≤ 90) ∧
      (s = s.map lowerChar ∨ s = s.map Char.toUpper) ∧
      ∃ dataPart, s.map lowerChar = d.hrp ++ '1' :: dataPart ∧ 1 ≤ d.hrp.length ∧
        6 ≤ dataPart.length ∧ decodeParts d.hrp dataPart = some d := by
  constructor
  · intro h
    obtain ⟨dataPart, hsplit, hparts⟩ := bech32Decode_eq_some h
    obtain ⟨values, -, -, hvalues, -⟩ := decodeParts_eq_some hparts
    have hletters := (Numeral.mapM_idxOf?_eq_some.1 hvalues).1
    unfold bech32Decode at h
    simp only [hsplit, lastSeparator_append (separator_notMem hletters)] at h
    split_ifs at h with hlength hcase hshort
    rw [List.length_append, List.length_cons] at hshort
    refine ⟨by omega, ?_, dataPart, hsplit, by omega, by omega, hparts⟩
    rw [hsplit]
    tauto
  · rintro ⟨hlength, hcase, dataPart, hsplit, hhrp, hdata, hparts⟩
    obtain ⟨values, -, -, hvalues, -⟩ := decodeParts_eq_some hparts
    have hletters := (Numeral.mapM_idxOf?_eq_some.1 hvalues).1
    rw [hsplit] at hcase
    unfold bech32Decode
    simp only [hsplit, lastSeparator_append (separator_notMem hletters)]
    rw [if_neg (by omega), if_neg (by tauto), if_neg]
    · simpa using hparts
    · rw [List.length_append, List.length_cons]
      omega

theorem variantOf_iff {checksum version : Nat} :
    (∃ variant, variantOf checksum = some variant ∧ (version = 0 → variant = .bech32) ∧
      (version ≠ 0 → variant = .bech32m)) ↔
      checksum = if version = 0 then bech32Const else bech32mConst := by
  have hne : bech32mConst ≠ bech32Const := by decide
  unfold variantOf
  by_cases hversion : version = 0
  · by_cases hchecksum : checksum = bech32Const <;> simp [hversion, hchecksum]
  · by_cases hchecksum : checksum = bech32mConst <;> simp [hversion, hchecksum, hne]

theorem isWellFormedProgram_iff {d : Bech32Decoded} : isWellFormedProgram d = true ↔
    (2 ≤ d.program.length ∧ d.program.length ≤ 40) ∧
      (d.version = 0 → d.program.length = 20 ∨ d.program.length = 32) ∧
      (d.version = 0 → d.variant = .bech32) ∧ (d.version ≠ 0 → d.variant = .bech32m) := by
  simp only [isWellFormedProgram, Bool.not_eq_true', Bool.or_eq_false_iff, decide_eq_false_iff_not,
    not_or, not_and, not_not, not_lt, and_assoc]
  have hlength : (d.version = 0 → d.program.length ≠ 20 → d.program.length = 32) ↔
      (d.version = 0 → d.program.length = 20 ∨ d.program.length = 32) := by
    tauto
  rw [hlength]

theorem map_plainLetter (s : List Char) :
    (s.map plainLetter).map Char.toLower = s.map lowerChar := by
  rw [List.map_map]
  exact List.map_congr_left fun c _ => toLower_plainLetter c

theorem oneCase_iff {s : List Char} : (s = s.map lowerChar ∨ s = s.map Char.toUpper) ↔
    (∀ c ∈ s.map plainLetter, c.isUpper = false) ∨ ∀ c ∈ s.map plainLetter, c.isLower = false :=
  or_congr (map_eq_self_iff fun _ => lowerChar_eq_self_iff)
    (map_eq_self_iff fun _ => upper_eq_self_iff)

theorem remainder_expandedHrp (network : BitcoinNetworkKind) {values : List Nat}
    (h : ∀ v ∈ values, v < 32) : Numeral.value 32
      (remainder (1 :: expandedHrp (humanReadablePart network) ++ values)) =
      bech32Polymod (bech32HrpExpand (humanReadablePart network) ++ values) := by
  rw [bech32HrpExpand_eq, List.cons_append]
  refine remainder_packed fun v hv => ?_
  rcases List.mem_append.1 hv with hv | hv
  · exact expandedHrp_lt network v hv
  · exact h v hv

/-- What the code decodes is a program, and the address writes it. -/
theorem writes_of_decode {s : List Char} {d : Bech32Decoded} {network : BitcoinNetworkKind}
    (hd : bech32Decode s = some d) (hhrp : d.hrp = humanReadablePart network) :
    ∃ p, Writes (humanReadablePart network) (s.map plainLetter) p := by
  obtain ⟨⟨-, hlong⟩, hone, dataPart, hsplit, -, hdata, hparts⟩ := bech32Decode_eq_some_iff.1 hd
  obtain ⟨values, words, -, hvalues, hvariant, hwords, hprogram, hwell⟩ :=
    decodeParts_eq_some_iff.1 hparts
  obtain ⟨⟨htwo, hforty⟩, hzero, hbech32, hbech32m⟩ := isWellFormedProgram_iff.1 hwell
  have hlt : ∀ v ∈ values, v < 32 := Numeral.mapM_idxOf?_lt hvalues
  obtain ⟨hletters, hdigits⟩ := Numeral.mapM_idxOf?_eq_some.1 hvalues
  have hquintets : ∀ w ∈ words, w < 32 := by
    intro w hw
    refine hlt w (List.mem_of_mem_take (i := values.length - 6) ?_)
    rw [hwords]
    exact List.mem_cons_of_mem _ hw
  obtain ⟨hoctets, padding, hpadding, hlength, hregrouped⟩ :=
    (convertBits_eq_some_iff hquintets).1 hprogram
  have hsame : values = d.version :: words ++ values.drop (values.length - 6) := by
    rw [← hwords, List.take_append_drop]
  refine ⟨⟨d.version, d.program, words, padding, hoctets, hquintets, hregrouped, hlength,
    by omega, htwo, hforty, hzero⟩, oneCase_iff.1 hone, by simpa using hlong,
    dataPart, values.drop (values.length - 6), ?_, hletters, ?_, ?_, ?_⟩
  · rw [map_plainLetter, hsplit, hhrp]
  · rw [← hdigits]
    simp only [List.length_drop, List.length_map]
    omega
  · rw [← hsame]
    exact hdigits
  · rw [← hsame, remainder_expandedHrp network hlt, ← hhrp]
    exact variantOf_iff.1 ⟨d.variant, hvariant, hbech32, hbech32m⟩

/-- The code decodes the writing of a program. -/
theorem decode_of_writes {s : List Char} {network : BitcoinNetworkKind} {p : WitnessProgram}
    (h : Writes (humanReadablePart network) (s.map plainLetter) p) :
    ∃ d, bech32Decode s = some d ∧ d.hrp = humanReadablePart network := by
  obtain ⟨dataPart, checksum, hsplit, hletters, hsix, hdigits, hconstant⟩ := h.parts
  have hvalues := Numeral.mapM_idxOf?_eq_some.2 ⟨hletters, hdigits⟩
  have hlt : ∀ v ∈ p.version :: p.words ++ checksum, v < 32 := Numeral.mapM_idxOf?_lt hvalues
  rw [remainder_expandedHrp network hlt] at hconstant
  obtain ⟨variant, hvariant, hbech32, hbech32m⟩ := variantOf_iff.2 hconstant
  have hcount : dataPart.length = p.words.length + 7 := by
    have hcount := congrArg List.length hdigits
    simp only [List.length_map, List.length_append, List.length_cons] at hcount
    omega
  have hshort : s.length ≤ 90 := by simpa using h.short
  have hhrp : (humanReadablePart network).length = 2 := by cases network <;> rfl
  rw [map_plainLetter] at hsplit
  have hlong : s.length = dataPart.length + 3 := by
    have hlong := congrArg List.length hsplit
    simp only [List.length_map, List.length_append, List.length_cons] at hlong
    omega
  have hbytes := p.length_eq
  have htwo := p.two_le
  have hpadding := p.padding_le
  have hparts : decodeParts (humanReadablePart network) dataPart =
      some ⟨humanReadablePart network, p.version, p.bytes, variant⟩ := by
    refine decodeParts_eq_some_iff.2 ⟨_, p.words, rfl, hvalues, hvariant, ?_, ?_, ?_⟩
    · rw [List.length_append, hsix, Nat.add_sub_cancel, List.take_left]
    · exact (convertBits_eq_some_iff p.quintets).2
        ⟨p.octets, p.padding, by omega, p.length_eq, p.regrouped⟩
    · exact isWellFormedProgram_iff.2 ⟨⟨p.two_le, p.le_forty⟩, p.length_zero, hbech32, hbech32m⟩
  have hpositive : 1 ≤ (humanReadablePart network).length := by omega
  exact ⟨⟨humanReadablePart network, p.version, p.bytes, variant⟩,
    bech32Decode_eq_some_iff.2 ⟨⟨by omega, hshort⟩, oneCase_iff.2 h.oneCase, dataPart, hsplit,
      hpositive, by omega, hparts⟩, rfl⟩

/-- The code accepts the writings of programs of any version, with Kelvin signs read as letters. -/
theorem isValidSegwit_iff {address : String} {network : BitcoinNetworkKind} :
    isValidSegwit address network = true ↔
      ∃ p, Writes (humanReadablePart network) (address.toList.map plainLetter) p := by
  unfold isValidSegwit
  rw [Option.any_eq_true]
  constructor
  · intro h
    obtain ⟨d, hd, hhrp⟩ := h
    exact writes_of_decode hd (of_decide_eq_true hhrp)
  · intro h
    obtain ⟨p, hp⟩ := h
    obtain ⟨d, hd, hhrp⟩ := decode_of_writes hp
    exact ⟨d, hd, decide_eq_true hhrp⟩

/-! ## The two slips -/

/-- The letters of an address determine the version. -/
theorem Writes.version_eq {hrp address : List Char} {p p' : WitnessProgram}
    (h : Writes hrp address p) (h' : Writes hrp address p') : p.version = p'.version := by
  obtain ⟨dataPart, checksum, hsplit, -, -, hdigits, -⟩ := h.parts
  obtain ⟨dataPart', checksum', hsplit', -, -, hdigits', -⟩ := h'.parts
  have hsame : dataPart = dataPart' := by simpa using hsplit.symm.trans hsplit'
  rw [hsame, hdigits'] at hdigits
  exact (List.cons.inj hdigits).1.symm

/-- An address of the standard has no letter outside the alphabet. -/
theorem IsSegwitAddress.plain {network : BitcoinNetworkKind} {address : List Char}
    (h : IsSegwitAddress (humanReadablePart network) address) : '\u212a' ∉ address := by
  obtain ⟨p, -, hp⟩ := h
  obtain ⟨dataPart, -, hsplit, hletters, -⟩ := hp.parts
  intro hmem
  have hlower : '\u212a' ∈ address.map Char.toLower :=
    List.mem_map.2 ⟨'\u212a', hmem, by decide⟩
  rw [hsplit, List.mem_append, List.mem_cons] at hlower
  rcases hlower with hhrp | hseparator | hdata
  · cases network <;> exact absurd hhrp (by decide)
  · exact absurd hseparator (by decide)
  · exact absurd (hletters _ hdata) (by decide)

theorem map_plainLetter_eq_self {address : List Char} (h : '\u212a' ∉ address) :
    address.map plainLetter = address := by
  refine (List.map_congr_left fun c hc => ?_).trans (List.map_id _)
  have hne : c ≠ '\u212a' := fun heq => h (heq ▸ hc)
  simp [plainLetter, hne]

/-- **Acceptance is the standard's, up to the versions past 16 and the Kelvin sign.** -/
theorem isValidSegwit_standard (address : String) (network : BitcoinNetworkKind) :
    (isValidSegwit address network = true ↔
      IsSegwitAddress (humanReadablePart network) address.toList) ↔
    ¬∃ p, Writes (humanReadablePart network) (address.toList.map plainLetter) p ∧
      (16 < p.version ∨ '\u212a' ∈ address.toList) := by
  rw [isValidSegwit_iff]
  constructor
  · intro hagree hslip
    obtain ⟨p, hp, hslip⟩ := hslip
    have hstandard := hagree.1 ⟨p, hp⟩
    have hplain := hstandard.plain
    obtain ⟨p', hversion, hp'⟩ := hstandard
    rw [map_plainLetter_eq_self hplain] at hp
    rcases hslip with hlate | hkelvin
    · have hsame := hp.version_eq hp'
      omega
    · exact hplain hkelvin
  · intro hnone
    constructor
    · intro haccepted
      obtain ⟨p, hp⟩ := haccepted
      have hplain : '\u212a' ∉ address.toList := fun hmem => hnone ⟨p, hp, Or.inr hmem⟩
      have hversion : p.version ≤ 16 := by
        by_contra hlate
        exact hnone ⟨p, hp, Or.inl (by omega)⟩
      rw [map_plainLetter_eq_self hplain] at hp
      exact ⟨p, hversion, hp⟩
    · intro hstandard
      have hplain := hstandard.plain
      obtain ⟨p, -, hp⟩ := hstandard
      rw [map_plainLetter_eq_self hplain]
      exact ⟨p, hp⟩

end BitcoinAddress

/-! ## Two addresses that no wallet reads -/

namespace Shop

open BitcoinAddress

/-- Version 17, two bytes, and a correct checksum. -/
def futureAddress : String := "bc13w50qvvyv3n"

/-- The example of the standard for version 0, with the sign in place of its one `K`. -/
def kelvinAddress : String := "BC1QW508D6QEJXTDG4Y5R3ZARVARY0C5XW7\u212aV8F3T4"

theorem futureAddress_accepted :
    ¬(isValidSegwit futureAddress .mainnet = true ↔
      IsSegwitAddress (humanReadablePart .mainnet) futureAddress.toList) ∧
    ¬(isValidSegwit kelvinAddress .mainnet = true ↔
      IsSegwitAddress (humanReadablePart .mainnet) kelvinAddress.toList) := by
  constructor
  · intro h
    obtain ⟨p, hversion, hp⟩ := h.1 (by decide +kernel)
    obtain ⟨dataPart, checksum, hsplit, -, -, hdigits, -⟩ := hp.parts
    have hlower : futureAddress.toList.map Char.toLower =
        humanReadablePart .mainnet ++ '1' :: '3' :: "w50qvvyv3n".toList := by decide +kernel
    have hdata : '3' :: "w50qvvyv3n".toList = dataPart :=
      (List.cons.inj (List.append_cancel_left (hlower.symm.trans hsplit))).2
    rw [← hdata, List.map_cons] at hdigits
    have hfirst := (List.cons.inj hdigits).1
    have hvalue : bech32Charset.idxOf '3' = 17 := by decide +kernel
    omega
  · intro h
    have hstandard := h.1 (by decide +kernel)
    exact hstandard.plain (by decide +kernel)

end Shop

end PaymentGateway
