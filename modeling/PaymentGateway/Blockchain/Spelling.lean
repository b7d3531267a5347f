import Mathlib.Tactic.IntervalCases
import PaymentGateway.Blockchain.BitcoinAdapter

/-!
# What the spelling of an address determines

Base58 writes the bytes of a payload, and in one way only (`base58Decode_inj`): the bytes are the
digits of the number that the letters write, and the zeros in front are counted on both sides.
Bech32 writes a witness version and a program, and in one way up to case (`bech32Decode_inj`): the
bytes of the program determine its words of five bits (`Regrouped`), and the checksum determines the
last six of them, because six values are too few for the generators to cancel a difference
(`polymod_difference`).
-/

namespace PaymentGateway

namespace BitcoinAddress

/-! ## Base58 -/

theorem value_valueBytes (value : Nat) :
    Numeral.value 256 ((valueBytes value).map UInt8.toNat) = value := by
  unfold valueBytes
  by_cases hzero : value = 0
  · rw [if_pos hzero, hzero]
    rfl
  · rw [if_neg hzero, List.map_map]
    have hsame : (Nat.digits 256 value).reverse.map (UInt8.toNat ∘ UInt8.ofNat) =
        (Nat.digits 256 value).reverse := by
      refine (List.map_congr_left fun d hd => ?_).trans (List.map_id _)
      have hlt : d < 256 := Nat.digits_lt_base (by decide) (List.mem_reverse.1 hd)
      simp [Nat.mod_eq_of_lt hlt]
    rw [hsame, Numeral.value_eq_ofDigits, List.reverse_reverse, Nat.ofDigits_digits]

/-- The decoded bytes: zeros, one for each leading letter that writes zero, and those of the
number. -/
theorem base58Decode_digits {s : List Char} {bytes : List UInt8}
    (h : base58Decode s = some bytes) : ∃ digits,
      s.mapM (base58Alphabet.idxOf? ·) = some digits ∧
      bytes = List.replicate (digits.takeWhile (· = 0)).length 0 ++
        valueBytes (Numeral.value 58 digits) := by
  unfold base58Decode at h
  split_ifs at h
  obtain ⟨value, hvalue, rfl⟩ := Option.map_eq_some_iff.1 h
  obtain ⟨digits, hdigits, rfl⟩ := Numeral.foldlM_idxOf? hvalue
  have hzeros : (digits.takeWhile (· = 0)).length = (s.takeWhile (· = '1')).length :=
    Numeral.takeWhile_mapM_idxOf? rfl hdigits
  rw [← hzeros]
  exact ⟨digits, hdigits, rfl⟩

/-- Base58 writes each list of bytes in one way only. -/
theorem base58Decode_inj {s s' : List Char} {bytes : List UInt8}
    (h : base58Decode s = some bytes) (h' : base58Decode s' = some bytes) : s = s' := by
  obtain ⟨digits, hdigits, hbytes⟩ := base58Decode_digits h
  obtain ⟨digits', hdigits', hbytes'⟩ := base58Decode_digits h'
  have hnumber : ∀ k value, Numeral.value 256
      ((List.replicate k 0 ++ valueBytes value).map UInt8.toNat) = value := by
    intro k value
    rw [List.map_append, List.map_replicate]
    exact (Numeral.value_zeros _ _).trans (value_valueBytes _)
  have hvalue : Numeral.value 58 digits = Numeral.value 58 digits' := by
    rw [← hnumber _ (Numeral.value 58 digits), ← hbytes, hbytes', hnumber]
  have hzeros : (digits.takeWhile (· = 0)).length = (digits'.takeWhile (· = 0)).length := by
    have hlength := congrArg List.length (hbytes.symm.trans hbytes')
    simpa [hvalue] using hlength
  have hsame : digits = digits' := Numeral.value_inj_of_zeros (by decide)
    (Numeral.mapM_idxOf?_lt hdigits) (Numeral.mapM_idxOf?_lt hdigits') hzeros hvalue
  subst hsame
  exact Numeral.mapM_idxOf?_inj hdigits hdigits'

/-! ## Bech32 -/

/-- The words of five bits of a program are those of its bytes: the accumulator ends in the number
that the words write, and so do the groups and the bits left over. -/
structure Regrouped (words : List Nat) (s : Regrouping) : Prop where
  acc : s.acc = Numeral.value 32 words % 2 ^ 32
  bits : s.bits < 8
  length : 5 * words.length = 8 * s.result.length + s.bits
  value : Numeral.value 256 s.result = Numeral.value 32 words / 2 ^ s.bits

theorem takeGroups_octet {acc bits : Nat} (h : bits < 13) : takeGroups acc 8 bits =
    if bits < 8 then ([], bits) else ([acc / 2 ^ (bits - 8) % 256], bits - 8) := by
  have hnone : ∀ {bits}, bits < 8 → takeGroups acc 8 bits = ([], bits) := by
    intro bits hbits
    rw [takeGroups, dif_neg (by omega)]
  by_cases hbits : bits < 8
  · rw [if_pos hbits, hnone hbits]
  · rw [if_neg hbits, takeGroups, dif_pos (by omega), hnone (by omega)]
    have hmask : (1 <<< 8 : Nat) - 1 = 2 ^ 8 - 1 := by decide
    rw [hmask, Nat.and_two_pow_sub_one_eq_mod, Nat.shiftRight_eq_div_pow]

theorem Regrouped.step {words : List Nat} {s s' : Regrouping} {word : Nat} (h : Regrouped words s)
    (hstep : convertStep 5 8 s word = some s') : Regrouped (words ++ [word]) s' := by
  have hbits := h.bits
  unfold convertStep at hstep
  split_ifs at hstep with hword
  have hword : word < 2 ^ 5 := by
    rw [not_not, Nat.shiftRight_eq_div_pow] at hword
    omega
  have hacc : ((s.acc <<< 5) ||| word) % 2 ^ 32 = Numeral.value 32 (words ++ [word]) % 2 ^ 32 := by
    rw [← Nat.shiftLeft_add_eq_or_of_lt hword, Nat.shiftLeft_eq, h.acc, Numeral.value_concat]
    omega
  simp only [hacc, takeGroups_octet (show s.bits + 5 < 13 by omega), Option.some.injEq] at hstep
  subst hstep
  by_cases hfew : s.bits + 5 < 8
  · simp only [if_pos hfew, List.append_nil]
    refine ⟨rfl, hfew, ?_, ?_⟩
    · have := h.length
      simp only [List.length_append, List.length_singleton]
      omega
    · have hpow : 2 ^ (s.bits + 5) = 32 * 2 ^ s.bits := by rw [Nat.pow_add, Nat.mul_comm]
      rw [h.value, Numeral.value_concat, hpow, ← Nat.div_div_eq_div_mul]
      congr 1
      omega
  · simp only [if_neg hfew]
    refine ⟨rfl, show s.bits + 5 - 8 < 8 by omega, ?_, ?_⟩
    · have := h.length
      simp only [List.length_append, List.length_singleton]
      omega
    · rw [Numeral.value_concat, h.value, Numeral.value_concat]
      have hmost : 3 ≤ s.bits := by omega
      show Numeral.value 32 words / 2 ^ s.bits * 256 +
        (Numeral.value 32 words * 32 + word) % 2 ^ 32 / 2 ^ (s.bits + 5 - 8) % 256 =
        (Numeral.value 32 words * 32 + word) / 2 ^ (s.bits + 5 - 8)
      generalize s.bits = bits at hbits hmost
      interval_cases bits <;> omega

theorem Regrouped.run {words words' : List Nat} {s s' : Regrouping} (h : Regrouped words s)
    (hrun : words'.foldlM (convertStep 5 8) s = some s') : Regrouped (words ++ words') s' := by
  induction words' generalizing words s with
  | nil =>
    cases hrun
    simpa using h
  | cons word words' ih =>
    obtain ⟨s₁, hstep, hrest⟩ := Option.bind_eq_some_iff.1 hrun
    simpa using ih (h.step hstep) hrest

/-- The generators are added to whatever has been shifted up. -/
theorem foldl_generators_xor (generators : List (Nat × Nat)) (top x y : Nat) :
    generators.foldl (fun c g => if top >>> g.2 &&& 1 ≠ 0 then c ^^^ g.1 else c) (x ^^^ y) =
      generators.foldl (fun c g => if top >>> g.2 &&& 1 ≠ 0 then c ^^^ g.1 else c) x ^^^ y := by
  induction generators generalizing x with
  | nil => rfl
  | cons g generators ih =>
    simp only [List.foldl_cons]
    split_ifs
    · rw [Nat.xor_assoc, Nat.xor_comm y, ← Nat.xor_assoc, ih]
    · exact ih x

/-- One round adds a digit to the difference of two checksums, while it is below the bits that fall
out. -/
theorem polymodStep_xor {c difference value value' : Nat} (h : difference < 2 ^ 25)
    (hvalue : value < 2 ^ 5) (hvalue' : value' < 2 ^ 5) :
    polymodStep (c ^^^ difference) value' =
      polymodStep c value ^^^ (difference * 2 ^ 5 + (value ^^^ value')) := by
  have htop : (c ^^^ difference) >>> 25 = c >>> 25 := by
    rw [Nat.shiftRight_xor_distrib, Nat.shiftRight_eq_div_pow difference, Nat.div_eq_of_lt h,
      Nat.xor_zero]
  have hshift := Numeral.shiftLeft_add_eq_xor difference (Nat.xor_lt_two_pow hvalue hvalue')
  rw [Nat.shiftLeft_eq] at hshift
  have hmask : difference &&& 0x1ffffff = difference := by
    have hmod := Nat.and_two_pow_sub_one_eq_mod difference 25
    rw [Nat.mod_eq_of_lt h] at hmod
    exact hmod
  have hlow : (((c ^^^ difference) &&& 0x1ffffff) <<< 5) ^^^ value' =
      (((c &&& 0x1ffffff) <<< 5) ^^^ value) ^^^ (difference * 2 ^ 5 + (value ^^^ value')) := by
    rw [Nat.and_xor_distrib_right, hmask, Nat.shiftLeft_xor_distrib, hshift]
    refine Nat.eq_of_testBit_eq fun i => ?_
    simp only [Nat.testBit_xor, Nat.shiftLeft_eq]
    cases value.testBit i <;> simp
  unfold polymodStep
  rw [htop, hlow, foldl_generators_xor]

/-- Up to six values, the difference is the numeral of the differences. -/
theorem polymod_difference {c : Nat} {values values' : List Nat}
    (hlength : values.length = values'.length) (hshort : values.length ≤ 6)
    (h : ∀ v ∈ values, v < 2 ^ 5) (h' : ∀ v ∈ values', v < 2 ^ 5) :
    ∃ difference < 32 ^ values.length,
      values'.foldl polymodStep c = values.foldl polymodStep c ^^^ difference ∧
        (difference = 0 → values = values') := by
  induction values using List.reverseRecOn generalizing values' with
  | nil =>
    obtain rfl := List.length_eq_zero_iff.1 hlength.symm
    exact ⟨0, by simp, by simp, fun _ => rfl⟩
  | append_singleton values v ih =>
    induction values' using List.reverseRecOn with
    | nil => simp at hlength
    | append_singleton values' v' _ =>
      simp only [List.length_append, List.length_singleton, Nat.add_right_cancel_iff]
        at hlength hshort
      obtain ⟨difference, hlt, hfold, hzero⟩ := ih hlength (by omega)
        (fun v hv => h v (List.mem_append_left _ hv))
        (fun v hv => h' v (List.mem_append_left _ hv))
      have hv : v < 2 ^ 5 := h v (by simp)
      have hv' : v' < 2 ^ 5 := h' v' (by simp)
      have hxor := Nat.xor_lt_two_pow hv hv'
      have hsmall : difference < 2 ^ 25 := by
        calc difference < 32 ^ values.length := hlt
          _ ≤ 32 ^ 5 := Nat.pow_le_pow_right (by decide) (by omega)
          _ = 2 ^ 25 := by decide
      refine ⟨difference * 32 + (v ^^^ v'), ?_, ?_, ?_⟩
      · rw [List.length_append, List.length_singleton, Nat.pow_succ]
        omega
      · simp only [List.foldl_append, List.foldl_cons, List.foldl_nil, hfold]
        exact polymodStep_xor hsmall hv hv'
      · intro hnone
        have hsame : v ^^^ v' = 0 := by omega
        rw [hzero (by omega), Nat.xor_eq_zero_iff.1 hsame]

/-- Six values with the same effect on a checksum are the same. -/
theorem eq_of_foldl_polymodStep {c : Nat} {values values' : List Nat}
    (hlength : values.length = values'.length) (hshort : values.length ≤ 6)
    (h : ∀ v ∈ values, v < 2 ^ 5) (h' : ∀ v ∈ values', v < 2 ^ 5)
    (hsame : values.foldl polymodStep c = values'.foldl polymodStep c) : values = values' := by
  obtain ⟨difference, -, hfold, hzero⟩ := polymod_difference (c := c) hlength hshort h h'
  refine hzero ?_
  rw [← hsame] at hfold
  have hcancel := congrArg (values.foldl polymodStep c ^^^ ·) hfold
  simpa using hcancel.symm

theorem convertStep_octets {s s' : Regrouping} {word : Nat} (hbits : s.bits < 8)
    (h : ∀ b ∈ s.result, b < 256) (hstep : convertStep 5 8 s word = some s') :
    ∀ b ∈ s'.result, b < 256 := by
  unfold convertStep at hstep
  split_ifs at hstep
  simp only [takeGroups_octet (show s.bits + 5 < 13 by omega), Option.some.injEq] at hstep
  subst hstep
  intro b hb
  rcases List.mem_append.1 hb with hb | hb
  · exact h b hb
  · split_ifs at hb
    · simp at hb
    · rw [List.mem_singleton.1 hb]
      exact Nat.mod_lt _ (by decide)

theorem Regrouped.octets {words words' : List Nat} {s s' : Regrouping} (h : Regrouped words s)
    (hoctets : ∀ b ∈ s.result, b < 256)
    (hrun : words'.foldlM (convertStep 5 8) s = some s') : ∀ b ∈ s'.result, b < 256 := by
  induction words' generalizing words s with
  | nil =>
    cases hrun
    exact hoctets
  | cons word words' ih =>
    obtain ⟨s₁, hstep, hrest⟩ := Option.bind_eq_some_iff.1 hrun
    exact ih (h.step hstep) (convertStep_octets h.bits hoctets hstep) hrest

theorem convertStep_some {words : List Nat} (h : ∀ w ∈ words, w < 32) (s : Regrouping) :
    ∃ s', words.foldlM (convertStep 5 8) s = some s' := by
  induction words generalizing s with
  | nil => exact ⟨s, rfl⟩
  | cons word words ih =>
    have hword : word >>> 5 = 0 := by
      have hlt := h word List.mem_cons_self
      rw [Nat.shiftRight_eq_div_pow]
      omega
    have hstep : ∃ s₁, convertStep 5 8 s word = some s₁ := by
      unfold convertStep
      simp [hword]
    obtain ⟨s₁, hs₁⟩ := hstep
    obtain ⟨s', hs'⟩ := ih (fun w hw => h w (List.mem_cons_of_mem _ hw)) s₁
    exact ⟨s', by rw [List.foldlM_cons, hs₁]; exact hs'⟩

theorem regrouped_start : Regrouped [] ⟨0, 0, []⟩ := ⟨rfl, by decide, rfl, rfl⟩

/-- The bits left over are zero when the bytes write the number of the words. -/
theorem Regrouped.last_eq_zero_iff {words : List Nat} {s : Regrouping} (h : Regrouped words s)
    (hbits : s.bits < 5) : (s.acc <<< (8 - s.bits)) &&& ((1 <<< 8) - 1) = 0 ↔
      Numeral.value 32 words = Numeral.value 256 s.result * 2 ^ s.bits := by
  have hmask : (1 <<< 8 : Nat) - 1 = 2 ^ 8 - 1 := by decide
  have hmod : (s.acc <<< (8 - s.bits)) &&& ((1 <<< 8) - 1) = 0 ↔
      Numeral.value 32 words % 2 ^ s.bits = 0 := by
    rw [hmask, Nat.and_two_pow_sub_one_eq_mod, Nat.shiftLeft_eq, h.acc]
    generalize s.bits = bits at hbits
    interval_cases bits <;> omega
  rw [hmod, h.value]
  constructor
  · intro hzero
    exact (Nat.div_mul_cancel (Nat.dvd_of_mod_eq_zero hzero)).symm
  · intro hvalue
    exact Nat.mod_eq_zero_of_dvd ⟨_, hvalue.trans (Nat.mul_comm _ _)⟩

/-- Words regroup into the bytes that write the same number, up to fewer than five bits. -/
theorem convertBits_eq_some_iff {words bytes : List Nat} (h : ∀ w ∈ words, w < 32) :
    convertBits words 5 8 false = some bytes ↔ (∀ b ∈ bytes, b < 256) ∧ ∃ bits < 5,
      5 * words.length = 8 * bytes.length + bits ∧
        Numeral.value 32 words = Numeral.value 256 bytes * 2 ^ bits := by
  obtain ⟨s, hs⟩ := convertStep_some h ⟨0, 0, []⟩
  have hregrouped : Regrouped words s := regrouped_start.run hs
  have hoctets := regrouped_start.octets (by simp) hs
  have hlast := hregrouped.last_eq_zero_iff
  have hlength := hregrouped.length
  have hbits := hregrouped.bits
  simp only [convertBits, hs, Option.bind_some, Bool.false_eq_true, if_false,
    Option.ite_none_left_eq_some, not_or, not_not, ge_iff_le, not_le, Option.some.injEq]
  constructor
  · rintro ⟨⟨hfew, hzero⟩, rfl⟩
    exact ⟨hoctets, s.bits, hfew, hlength, (hlast hfew).1 hzero⟩
  · rintro ⟨hlt, bits, hfew, hlength', hvalue⟩
    obtain rfl : bits = s.bits := by omega
    have hsame : s.result = bytes := by
      refine Numeral.value_inj (by omega) hoctets hlt ?_
      rw [hregrouped.value, hvalue, Nat.mul_div_cancel _ (Nat.two_pow_pos _)]
    rw [← hsame] at hvalue
    exact ⟨⟨hfew, (hlast hfew).2 hvalue⟩, hsame⟩

/-- Bytes determine the words of five bits that they come from. -/
theorem convertBits_inj {words words' bytes : List Nat} (h : ∀ w ∈ words, w < 32)
    (h' : ∀ w ∈ words', w < 32) (hbytes : convertBits words 5 8 false = some bytes)
    (hbytes' : convertBits words' 5 8 false = some bytes) : words = words' := by
  obtain ⟨-, bits, hbits, hlength, hvalue⟩ := (convertBits_eq_some_iff h).1 hbytes
  obtain ⟨-, bits', hbits', hlength', hvalue'⟩ := (convertBits_eq_some_iff h').1 hbytes'
  have hsame : bits = bits' := by omega
  subst hsame
  exact Numeral.value_inj (by omega) h h' (hvalue.trans hvalue'.symm)

theorem eq_of_variantOf {a b : Nat} {variant : Bech32Variant} (ha : variantOf a = some variant)
    (hb : variantOf b = some variant) : a = b := by
  unfold variantOf at ha hb
  cases variant <;> split_ifs at ha hb <;> simp_all

/-- What the parts of a decoded address are. -/
theorem decodeParts_eq_some_iff {hrp dataPart : List Char} {d : Bech32Decoded} :
    decodeParts hrp dataPart = some d ↔ ∃ (values programWords : List Nat),
      hrp = d.hrp ∧ bech32Values dataPart = some values ∧
      variantOf (bech32Polymod (bech32HrpExpand hrp ++ values)) = some d.variant ∧
      values.take (values.length - 6) = d.version :: programWords ∧
      convertBits programWords 5 8 false = some d.program ∧ isWellFormedProgram d = true := by
  unfold decodeParts
  constructor
  · intro h
    obtain ⟨values, hvalues, h⟩ := Option.bind_eq_some_iff.1 h
    obtain ⟨variant, hvariant, h⟩ := Option.bind_eq_some_iff.1 h
    split at h
    · cases h
    · next version programWords hwords =>
      obtain ⟨program, hprogram, h⟩ := Option.bind_eq_some_iff.1 h
      simp only [Option.ite_none_right_eq_some, Option.some.injEq] at h
      obtain ⟨hwell, rfl⟩ := h
      exact ⟨values, programWords, rfl, hvalues, hvariant, hwords, hprogram, hwell⟩
  · rintro ⟨values, programWords, rfl, hvalues, hvariant, hwords, hprogram, hwell⟩
    simp only [hvalues, hvariant, hwords, hprogram, Option.bind_eq_bind, Option.bind_some]
    exact if_pos hwell

theorem decodeParts_eq_some {hrp dataPart : List Char} {d : Bech32Decoded}
    (h : decodeParts hrp dataPart = some d) : ∃ (values programWords : List Nat),
      hrp = d.hrp ∧ bech32Values dataPart = some values ∧
      variantOf (bech32Polymod (bech32HrpExpand hrp ++ values)) = some d.variant ∧
      values.take (values.length - 6) = d.version :: programWords ∧
      convertBits programWords 5 8 false = some d.program := by
  obtain ⟨values, programWords, hhrp, hvalues, hvariant, hwords, hprogram, -⟩ :=
    decodeParts_eq_some_iff.1 h
  exact ⟨values, programWords, hhrp, hvalues, hvariant, hwords, hprogram⟩

theorem decodeParts_inj {hrp hrp' dataPart dataPart' : List Char} {d : Bech32Decoded}
    (h : decodeParts hrp dataPart = some d) (h' : decodeParts hrp' dataPart' = some d) :
    hrp = hrp' ∧ dataPart = dataPart' := by
  obtain ⟨values, words, rfl, hvalues, hvariant, hwords, hprogram⟩ := decodeParts_eq_some h
  obtain ⟨values', words', rfl, hvalues', hvariant', hwords', hprogram'⟩ :=
    decodeParts_eq_some h'
  refine ⟨rfl, ?_⟩
  have hlt : ∀ v ∈ values, v < 32 := Numeral.mapM_idxOf?_lt hvalues
  have hlt' : ∀ v ∈ values', v < 32 := Numeral.mapM_idxOf?_lt hvalues'
  have hmem : ∀ {values words : List Nat} {version : Nat}, (∀ v ∈ values, v < 32) →
      values.take (values.length - 6) = version :: words → ∀ w ∈ words, w < 32 := by
    intro values words version hlt hwords w hw
    refine hlt w (List.mem_of_mem_take (i := values.length - 6) ?_)
    rw [hwords]
    exact List.mem_cons_of_mem _ hw
  have hsame : words = words' :=
    convertBits_inj (hmem hlt hwords) (hmem hlt' hwords') hprogram hprogram'
  subst hsame
  have hmore : ∀ {values : List Nat}, values.take (values.length - 6) = d.version :: words →
      values.length = words.length + 7 := by
    intro values hwords
    have hlength := congrArg List.length hwords
    simp only [List.length_take, List.length_cons] at hlength
    omega
  have hchecksum : bech32Polymod (bech32HrpExpand d.hrp ++ values) =
      bech32Polymod (bech32HrpExpand d.hrp ++ values') :=
    eq_of_variantOf hvariant hvariant'
  have hfirst : ∀ values : List Nat, values.take (values.length - 6) = d.version :: words →
      bech32Polymod (bech32HrpExpand d.hrp ++ values) =
        (values.drop (values.length - 6)).foldl polymodStep
          ((bech32HrpExpand d.hrp ++ d.version :: words).foldl polymodStep 1) := by
    intro values hwords
    rw [← List.foldl_append, List.append_assoc, ← hwords, List.take_append_drop]
    rfl
  have hlast : values.drop (values.length - 6) = values'.drop (values'.length - 6) := by
    rw [hfirst values hwords, hfirst values' hwords'] at hchecksum
    refine eq_of_foldl_polymodStep ?_ ?_ ?_ ?_ hchecksum
    · simp [hmore hwords, hmore hwords']
    · simp [hmore hwords]
    · exact fun v hv => hlt v (List.mem_of_mem_drop hv)
    · exact fun v hv => hlt' v (List.mem_of_mem_drop hv)
  have hvaluesEq : values = values' := by
    rw [← List.take_append_drop (values.length - 6) values, hwords, hlast, ← hwords',
      List.take_append_drop]
  subst hvaluesEq
  exact Numeral.mapM_idxOf?_inj hvalues hvalues'

theorem lastSeparator_split {s : List Char} {separator : Nat}
    (h : lastSeparator s = some separator) :
    s = s.take separator ++ '1' :: s.drop (separator + 1) := by
  obtain ⟨i, hi, rfl⟩ := Option.map_eq_some_iff.1 h
  obtain ⟨hlt, hget, -⟩ := List.idxOf?_eq_some_iff.1 hi
  rw [List.length_reverse] at hlt
  rw [List.getElem_reverse] at hget
  have hcons := List.drop_eq_getElem_cons (l := s) (i := s.length - 1 - i) (by omega)
  rw [hget] at hcons
  rw [← hcons, List.take_append_drop]

theorem bech32Decode_eq_some {s : List Char} {d : Bech32Decoded} (h : bech32Decode s = some d) :
    ∃ dataPart, s.map lowerChar = d.hrp ++ '1' :: dataPart ∧
      decodeParts d.hrp dataPart = some d := by
  unfold bech32Decode at h
  simp only at h
  split_ifs at h
  split at h
  · cases h
  · next separator hseparator =>
    split_ifs at h
    obtain ⟨_, _, hhrp, -⟩ := decodeParts_eq_some h
    rw [hhrp] at h
    exact ⟨_, hhrp ▸ lastSeparator_split hseparator, h⟩

/-- Bech32 and Bech32m write each destination in one way only, up to case. -/
theorem bech32Decode_inj {s s' : List Char} {d : Bech32Decoded} (h : bech32Decode s = some d)
    (h' : bech32Decode s' = some d) : s.map lowerChar = s'.map lowerChar := by
  obtain ⟨dataPart, hsplit, hparts⟩ := bech32Decode_eq_some h
  obtain ⟨dataPart', hsplit', hparts'⟩ := bech32Decode_eq_some h'
  obtain ⟨-, rfl⟩ := decodeParts_inj hparts hparts'
  rw [hsplit, hsplit']

end BitcoinAddress

end PaymentGateway
