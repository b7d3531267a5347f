import Mathlib.Data.Rat.Cast.Order
import Mathlib.Tactic.FieldSimp
import Mathlib.Tactic.Linarith
import Mathlib.Tactic.Positivity
import PaymentGateway.Lib.Separated
import PaymentGateway.Shared.Decimal

/-!
# Units and their decimal text

`parseUnits` reads decimal text into units, and `formatUnits` and `formatUnitsTrimmed` write units as
text. In between is what the text says: a sign, a whole part and a fraction (`DecimalNumeral`), and
the number these stand for.

**Theorem (`parseUnits_eq_ok_iff`).** A string is read exactly if it is a numeral between white
space, with no more digits in its fraction than the asset has decimals; the units are its value,
scaled. Every other string is rejected with `MoneyError` (`parseUnits_rejects`).

**Theorem (`decimal_round_trip`).** What is written is a numeral whose value is that of the units, so
it is read back as the same units. The trimmed text is another numeral of the same value.
-/

namespace PaymentGateway

/-! ## Numerals -/

/-- An optional minus, digits, and optionally a point and more digits. -/
structure DecimalNumeral where
  negative : Bool
  whole : List Char
  fraction : List Char
  whole_ne : whole ≠ []
  digits : ∀ c ∈ whole ++ fraction, c.isDigit = true

namespace DecimalNumeral

variable (n : DecimalNumeral)

/-- There is no point without a digit after it. -/
def pointed : List Char := if n.fraction = [] then [] else '.' :: n.fraction

def unsigned : List Char := n.whole ++ n.pointed

def text : List Char := (if n.negative then ['-'] else []) ++ n.unsigned

def sign : ℤ := if n.negative then -1 else 1

/-- The number it stands for. -/
def value : ℚ := n.sign * (bigInt n.whole + bigInt n.fraction / 10 ^ n.fraction.length)

theorem digit_of_mem_whole {c : Char} (h : c ∈ n.whole) : c.isDigit = true :=
  n.digits c (List.mem_append_left _ h)

theorem digit_of_mem_fraction {c : Char} (h : c ∈ n.fraction) : c.isDigit = true :=
  n.digits c (List.mem_append_right _ h)

/-- A numeral is made of digits, a point and a minus. -/
theorem mem_text {c : Char} (h : c ∈ n.text) : c.isDigit = true ∨ c = '.' ∨ c = '-' := by
  unfold text unsigned pointed at h
  rw [List.mem_append, List.mem_append] at h
  rcases h with hsign | hwhole | hpointed
  · split_ifs at hsign
    · exact .inr (.inr (List.mem_singleton.1 hsign))
    · cases hsign
  · exact .inl (n.digit_of_mem_whole hwhole)
  · split_ifs at hpointed
    · cases hpointed
    · rcases List.mem_cons.1 hpointed with hpoint | hfraction
      · exact .inr (.inl hpoint)
      · exact .inl (n.digit_of_mem_fraction hfraction)

/-- What is left after the digits of the whole part does not begin with a digit. -/
theorem takeWhile_unsigned : n.unsigned.takeWhile Char.isDigit = n.whole ∧
    n.unsigned.dropWhile Char.isDigit = n.pointed := by
  have hwhole : ∀ c ∈ n.whole, c.isDigit = true := fun c => n.digit_of_mem_whole
  have hpointed : n.pointed.takeWhile Char.isDigit = [] ∧
      n.pointed.dropWhile Char.isDigit = n.pointed := by
    unfold pointed
    split_ifs <;> simp
  unfold unsigned
  rw [List.takeWhile_append_of_pos hwhole, List.dropWhile_append_of_pos hwhole, hpointed.1,
    hpointed.2, List.append_nil]
  exact ⟨rfl, rfl⟩

theorem text_ne_nil : n.text ≠ [] := by
  unfold text unsigned
  simp [n.whole_ne]

/-- A digit is not a point. -/
theorem point_notMem {digits : List Char} (h : ∀ c ∈ digits, c.isDigit = true) :
    '.' ∉ digits := by
  intro hmem
  exact absurd (h '.' hmem) (by decide)

theorem splitOn_unsigned : n.unsigned.splitOn '.' =
    if n.fraction = [] then [n.whole] else [n.whole, n.fraction] := by
  have hwhole : '.' ∉ n.whole := point_notMem fun c => n.digit_of_mem_whole
  have hfraction : '.' ∉ n.fraction := point_notMem fun c => n.digit_of_mem_fraction
  unfold unsigned pointed
  split_ifs
  · rw [List.append_nil, List.splitOn_eq_singleton hwhole]
  · rw [List.splitOn_append_cons_self_of_not_mem hwhole, List.splitOn_eq_singleton hfraction]

theorem head?_unsigned_ne : n.unsigned.head? ≠ some '-' := by
  intro h
  unfold unsigned at h
  rw [List.head?_append_of_ne_nil _ n.whole_ne] at h
  exact absurd (n.digit_of_mem_whole (List.mem_of_head? h)) (by decide)

theorem head?_text : n.text.head? = some '-' ↔ n.negative = true := by
  unfold text
  cases n.negative with
  | true => simp
  | false => simpa using n.head?_unsigned_ne

theorem drop_text : (if n.text.head? = some '-' then n.text.drop 1 else n.text) = n.unsigned := by
  simp only [n.head?_text]
  unfold text
  cases n.negative <;> rfl

end DecimalNumeral

/-! ## The pattern -/

/-- What the pattern matches after a sign. -/
theorem matchesUnsigned_iff {text : List Char} : matchesUnsigned text = true ↔
    ∃ n : DecimalNumeral, n.negative = false ∧ text = n.text := by
  constructor
  · intro h
    unfold matchesUnsigned at h
    simp only [Bool.and_eq_true, decide_eq_true_eq] at h
    obtain ⟨hne, hfraction⟩ := h
    have hwhole : ∀ c ∈ text.takeWhile Char.isDigit, c.isDigit = true :=
      fun c hc => List.mem_takeWhile_imp hc
    have hsplit := (List.takeWhile_append_dropWhile (p := Char.isDigit) (l := text)).symm
    cases hrest : text.dropWhile Char.isDigit with
    | nil =>
      rw [hrest] at hsplit
      exact ⟨⟨false, text.takeWhile Char.isDigit, [], hne, by simpa using hwhole⟩, rfl, hsplit⟩
    | cons c digits =>
      rw [hrest] at hfraction hsplit
      unfold matchesFraction at hfraction
      split at hfraction
      · rename_i heq
        cases heq
      · rename_i digits' heq
        obtain ⟨rfl, rfl⟩ := List.cons.inj heq
        simp only [Bool.and_eq_true, decide_eq_true_eq, List.all_eq_true] at hfraction
        refine ⟨⟨false, text.takeWhile Char.isDigit, digits, hne, fun c hc => ?_⟩, rfl, ?_⟩
        · exact (List.mem_append.1 hc).elim (hwhole c) (hfraction.2 c)
        · simpa [DecimalNumeral.text, DecimalNumeral.unsigned, DecimalNumeral.pointed,
            hfraction.1] using hsplit
      · cases hfraction
  · rintro ⟨n, hsign, rfl⟩
    have htext : n.text = n.unsigned := by simp [DecimalNumeral.text, hsign]
    obtain ⟨htake, hdrop⟩ := n.takeWhile_unsigned
    unfold matchesUnsigned
    rw [htext, htake, hdrop]
    simp only [n.whole_ne, ne_eq, not_false_eq_true, decide_true, Bool.true_and]
    unfold DecimalNumeral.pointed
    split_ifs with hnil
    · rfl
    · simpa [matchesFraction, hnil] using fun c => n.digit_of_mem_fraction (c := c)

/-- The pattern matches the text of numerals, and nothing else. -/
theorem decimalPattern_iff {text : List Char} :
    decimalPattern text = true ↔ ∃ n : DecimalNumeral, text = n.text := by
  unfold decimalPattern
  split
  · rename_i text
    rw [matchesUnsigned_iff]
    constructor
    · rintro ⟨n, hsign, rfl⟩
      refine ⟨{ n with negative := true }, ?_⟩
      simp [DecimalNumeral.text, hsign, DecimalNumeral.unsigned, DecimalNumeral.pointed]
    · rintro ⟨n, htext⟩
      have hnegative : n.negative = true := n.head?_text.1 (by rw [← htext]; rfl)
      refine ⟨{ n with negative := false }, rfl, ?_⟩
      simpa [DecimalNumeral.text, hnegative, DecimalNumeral.unsigned, DecimalNumeral.pointed]
        using htext
  · rename_i hminus
    rw [matchesUnsigned_iff]
    refine ⟨fun ⟨n, _, htext⟩ => ⟨n, htext⟩, fun ⟨n, htext⟩ => ⟨n, ?_, htext⟩⟩
    by_contra hnegative
    have hhead := n.head?_text.2 (by simpa using hnegative)
    rw [← htext] at hhead
    obtain ⟨rest, rfl⟩ := List.head?_eq_some_iff.1 hhead
    exact hminus rest rfl

/-! ## White space -/

theorem isWhiteSpace_of_isDigit {c : Char} (h : c.isDigit = true) : isWhiteSpace c = false := by
  have hrange : 48 ≤ c.toNat ∧ c.toNat ≤ 57 := by
    unfold Char.isDigit at h
    simp only [Bool.and_eq_true, decide_eq_true_eq] at h
    exact h
  unfold isWhiteSpace
  simp
  omega

theorem DecimalNumeral.isWhiteSpace_eq_false (n : DecimalNumeral) {c : Char} (h : c ∈ n.text) :
    isWhiteSpace c = false := by
  rcases n.mem_text h with hdigit | rfl | rfl
  · exact isWhiteSpace_of_isDigit hdigit
  · decide
  · decide

/-- Trimming leaves what is between the white space. -/
theorem trim_eq_iff {s text : List Char} (hne : text ≠ [])
    (htext : ∀ c ∈ text, isWhiteSpace c = false) :
    trim s = text ↔ ∃ before after, (∀ c ∈ before, isWhiteSpace c = true) ∧
      (∀ c ∈ after, isWhiteSpace c = true) ∧ s = before ++ text ++ after := by
  constructor
  · intro h
    refine ⟨s.takeWhile isWhiteSpace, (s.dropWhile isWhiteSpace).rtakeWhile isWhiteSpace,
      fun c hc => List.mem_takeWhile_imp hc, fun c hc => List.mem_rtakeWhile_imp hc, ?_⟩
    rw [← h, trim, List.append_assoc, List.rdropWhile_append_rtakeWhile,
      List.takeWhile_append_dropWhile]
  · rintro ⟨before, after, hbefore, hafter, rfl⟩
    have hdrop : (before ++ text ++ after).dropWhile isWhiteSpace = text ++ after := by
      rw [List.append_assoc, List.dropWhile_append_of_pos hbefore]
      obtain ⟨c, rest, rfl⟩ := List.exists_cons_of_ne_nil hne
      exact List.dropWhile_cons_of_neg (by simp [htext c List.mem_cons_self])
    rw [trim, hdrop, List.rdropWhile, List.reverse_append,
      List.dropWhile_append_of_pos (by simpa using hafter)]
    have hreverse : text.reverse.dropWhile isWhiteSpace = text.reverse := by
      obtain ⟨c, rest, hcons⟩ := List.exists_cons_of_ne_nil (List.reverse_ne_nil_iff.2 hne)
      have hc : c ∈ text := List.mem_reverse.1 (hcons ▸ List.mem_cons_self)
      rw [hcons]
      exact List.dropWhile_cons_of_neg (by simp [htext c hc])
    rw [hreverse, List.reverse_reverse]

/-! ## Reading -/

theorem bigInt_append_zeros (digits : List Char) (k : Nat) :
    bigInt (digits ++ List.replicate k '0') = bigInt digits * 10 ^ k := by
  unfold bigInt
  rw [Nat.ofDigitChars_append, Nat.ofDigitChars_replicate_zero, mul_comm]
  push_cast
  rfl

theorem bigInt_ite (digits : List Char) :
    bigInt (if digits = [] then ['0'] else digits) = bigInt digits := by
  split_ifs with h
  · rw [h]
    rfl
  · rfl

/-- The units that a numeral stands for, where its fraction is not too long. -/
def DecimalNumeral.units (n : DecimalNumeral) (decimals : Nat) : ℤ :=
  n.sign * (bigInt n.whole * 10 ^ decimals + bigInt n.fraction * 10 ^ (decimals - n.fraction.length))

theorem DecimalNumeral.cast_units (n : DecimalNumeral) {decimals : Nat}
    (h : n.fraction.length ≤ decimals) : (n.units decimals : ℚ) = n.value * 10 ^ decimals := by
  have hpow : (10 : ℚ) ^ decimals =
      10 ^ (decimals - n.fraction.length) * 10 ^ n.fraction.length := by
    rw [← pow_add, Nat.sub_add_cancel h]
  have hne : (10 : ℚ) ^ n.fraction.length ≠ 0 := by positivity
  unfold units value
  push_cast
  rw [hpow]
  field_simp

section Reading

variable {value : String} {decimals : Int} (hdecimals : assertDecimals decimals = .ok ())

include hdecimals

theorem parseUnits_text {n : DecimalNumeral} (h : trim value.toList = n.text) :
    (n.fraction.length ≤ decimals → parseUnits value decimals = .ok (n.units decimals.toNat)) ∧
      (decimals < n.fraction.length → ∃ message, parseUnits value decimals =
        .error (.money message)) := by
  have hrange := assertDecimals_eq_ok.1 hdecimals
  have hpow : pow10 decimals = .ok (10 ^ decimals.toNat) := pow10_of_mem hrange.1 (by omega)
  have hpattern : decimalPattern n.text = true := decimalPattern_iff.2 ⟨n, rfl⟩
  have hwhole : ((n.unsigned.splitOn '.')[0]?).getD ['0'] = n.whole := by
    rw [n.splitOn_unsigned]
    split_ifs <;> rfl
  have hfraction : ((n.unsigned.splitOn '.')[1]?).getD [] = n.fraction := by
    rw [n.splitOn_unsigned]
    split_ifs with hnil
    · exact hnil.symm
    · rfl
  have hsplit := n.drop_text
  unfold parseUnits
  rw [hdecimals]
  simp only [bind, Except.bind, h, n.text_ne_nil, hpattern, not_true_eq_false, or_self, if_false,
    hsplit, hwhole, hfraction, hpow, bigInt_ite, bigInt_append_zeros, pure,
    Except.pure]
  constructor
  · intro hle
    rw [if_neg (not_lt.2 hle)]
    unfold DecimalNumeral.units DecimalNumeral.sign
    simp only [n.head?_text]
    cases n.negative <;> simp
  · intro hlt
    rw [if_pos hlt]
    exact ⟨_, rfl⟩

theorem parseUnits_not_text (h : ∀ n : DecimalNumeral, trim value.toList ≠ n.text) :
    ∃ message, parseUnits value decimals = .error (.money message) := by
  have hpattern : decimalPattern (trim value.toList) = false :=
    Bool.eq_false_iff.2 fun hmatch => (decimalPattern_iff.1 hmatch).elim h
  unfold parseUnits
  rw [hdecimals]
  simp only [bind, Except.bind, hpattern, Bool.false_eq_true, not_false_eq_true, or_true, if_true]
  exact ⟨_, rfl⟩

/-- A string that is not read is rejected with `MoneyError`. -/
theorem parseUnits_rejects : (∃ units, parseUnits value decimals = .ok units) ∨
    ∃ message, parseUnits value decimals = .error (.money message) := by
  by_cases h : ∃ n : DecimalNumeral, trim value.toList = n.text
  · obtain ⟨n, hn⟩ := h
    have hread := parseUnits_text hdecimals hn
    rcases le_or_gt (n.fraction.length : Int) decimals with hle | hlt
    · exact .inl ⟨_, hread.1 hle⟩
    · exact .inr (hread.2 hlt)
  · exact .inr (parseUnits_not_text hdecimals fun n hn => h ⟨n, hn⟩)

/-- What is read is a numeral between white space, and its value. -/
theorem parseUnits_eq_ok_iff {units : Int} : parseUnits value decimals = .ok units ↔
    ∃ (n : DecimalNumeral) (before after : List Char),
      (∀ c ∈ before, isWhiteSpace c = true) ∧ (∀ c ∈ after, isWhiteSpace c = true) ∧
      value.toList = before ++ n.text ++ after ∧ n.fraction.length ≤ decimals ∧
        (units : ℚ) = n.value * 10 ^ decimals.toNat := by
  constructor
  · intro h
    by_cases hnumeral : ∃ n : DecimalNumeral, trim value.toList = n.text
    · obtain ⟨n, hn⟩ := hnumeral
      have hread := parseUnits_text hdecimals hn
      rcases le_or_gt (n.fraction.length : Int) decimals with hle | hlt
      · obtain ⟨before, after, hbefore, hafter, hvalue⟩ :=
          (trim_eq_iff n.text_ne_nil fun c => n.isWhiteSpace_eq_false).1 hn
        obtain rfl := Except.ok.inj ((hread.1 hle).symm.trans h)
        exact ⟨n, before, after, hbefore, hafter, hvalue, hle, n.cast_units (by omega)⟩
      · obtain ⟨message, herror⟩ := hread.2 hlt
        rw [herror] at h
        cases h
    · obtain ⟨message, herror⟩ := parseUnits_not_text hdecimals fun n hn => hnumeral ⟨n, hn⟩
      rw [herror] at h
      cases h
  · rintro ⟨n, before, after, hbefore, hafter, hvalue, hle, hunits⟩
    have hn : trim value.toList = n.text :=
      (trim_eq_iff n.text_ne_nil fun c => n.isWhiteSpace_eq_false).2
        ⟨before, after, hbefore, hafter, hvalue⟩
    rw [(parseUnits_text hdecimals hn).1 hle]
    rw [← n.cast_units (by omega), Int.cast_inj] at hunits
    rw [hunits]

end Reading

/-! ## Writing -/

/-- The numeral of a number without a sign. -/
theorem toDigits_isDigit (n : Nat) : ∀ c ∈ Nat.toDigits 10 n, c.isDigit = true :=
  fun _ hc => Nat.isDigit_of_mem_toDigits (by decide) (by decide) hc

theorem bigInt_toDigits (n : Nat) : bigInt (Nat.toDigits 10 n) = n := by
  unfold bigInt
  rw [Nat.ofDigitChars_ten_toDigits]

/-- The numeral that is written: every decimal place there is. -/
def numeralOf (units : Int) (decimals : Nat) : DecimalNumeral where
  negative := decide (units < 0)
  whole := Nat.toDigits 10 (units.natAbs / 10 ^ decimals)
  fraction := if decimals = 0 then [] else
    padStart (Nat.toDigits 10 (units.natAbs % 10 ^ decimals)) decimals
  whole_ne := Nat.toDigits_ne_nil
  digits := by
    intro c hc
    rcases List.mem_append.1 hc with hc | hc
    · exact toDigits_isDigit _ c hc
    · split_ifs at hc
      · cases hc
      · rcases List.mem_append.1 hc with hc | hc
        · rw [List.eq_of_mem_replicate hc]
          rfl
        · exact toDigits_isDigit _ c hc

theorem numeralOf_length (units : Int) (decimals : Nat) :
    (numeralOf units decimals).fraction.length = decimals := by
  unfold numeralOf padStart
  dsimp only
  split_ifs with h
  · exact h.symm
  · have hlength : (Nat.toDigits 10 (units.natAbs % 10 ^ decimals)).length ≤ decimals :=
      (Nat.length_toDigits_le_iff (by decide) (Nat.pos_of_ne_zero h)).2
        (Nat.mod_lt _ (by positivity))
    rw [List.length_append, List.length_replicate, Nat.sub_add_cancel hlength]

theorem numeralOf_units (units : Int) (decimals : Nat) :
    (numeralOf units decimals).units decimals = units := by
  have hfraction : bigInt (numeralOf units decimals).fraction = (units.natAbs % 10 ^ decimals : ℕ) := by
    unfold numeralOf padStart
    dsimp only
    split_ifs with h
    · rw [h, pow_zero, Nat.mod_one]
      rfl
    · unfold bigInt
      rw [Nat.ofDigitChars_append, Nat.ofDigitChars_replicate_zero, mul_zero,
        Nat.ofDigitChars_ten_toDigits]
  unfold DecimalNumeral.units
  rw [hfraction, numeralOf_length, Nat.sub_self, pow_zero, mul_one]
  have hwhole : bigInt (numeralOf units decimals).whole = (units.natAbs / 10 ^ decimals : ℕ) :=
    bigInt_toDigits _
  have habs : ((units.natAbs / 10 ^ decimals : ℕ) : ℤ) * 10 ^ decimals +
      (units.natAbs % 10 ^ decimals : ℕ) = units.natAbs := by
    exact_mod_cast Nat.div_add_mod' units.natAbs (10 ^ decimals)
  rw [hwhole, habs]
  unfold numeralOf DecimalNumeral.sign
  simp only [decide_eq_true_eq]
  split_ifs <;> omega

theorem toList_toString (units : Int) : (toString units).toList =
    (if units < 0 then ['-'] else []) ++ Nat.toDigits 10 units.natAbs := by
  cases units with
  | ofNat n =>
    rw [Separated.toList_toString_ofNat, Nat.toList_repr]
    simp
  | negSucc n =>
    rw [Separated.toList_toString_negSucc, Nat.toList_repr]
    simp [Int.negSucc_lt_zero]

/-- What is written is the numeral with every decimal place. -/
theorem formatUnits_eq (units : Int) {decimals : Int} (hdecimals : assertDecimals decimals = .ok ()) :
    formatUnits units decimals =
      .ok (String.ofList (numeralOf units decimals.toNat).text) := by
  have hrange := assertDecimals_eq_ok.1 hdecimals
  have hpow : pow10 decimals = .ok (10 ^ decimals.toNat) := pow10_of_mem hrange.1 (by omega)
  unfold formatUnits
  rw [hdecimals]
  by_cases hzero : decimals = 0
  · simp only [hzero, bind, Except.bind, pure, Except.pure, if_true]
    congr 1
    apply String.toList_injective
    rw [toList_toString, String.toList_ofList]
    simp [numeralOf, DecimalNumeral.text, DecimalNumeral.unsigned, DecimalNumeral.pointed]
  · have habs : (if units < 0 then -units else units) = (units.natAbs : ℤ) := by
      split_ifs <;> omega
    have hdiv : (units.natAbs : ℤ).tdiv (10 ^ decimals.toNat) =
        (units.natAbs / 10 ^ decimals.toNat : ℕ) := by
      rw [Int.tdiv_eq_ediv_of_nonneg (Int.natCast_nonneg _)]
      push_cast
      rfl
    have hmod : (units.natAbs : ℤ).tmod (10 ^ decimals.toNat) =
        (units.natAbs % 10 ^ decimals.toNat : ℕ) := by
      rw [Int.tmod_eq_emod_of_nonneg (Int.natCast_nonneg _)]
      push_cast
      rfl
    have hdigits : ∀ n : Nat, (toString (n : ℤ)).toList = Nat.toDigits 10 n := by
      intro n
      rw [toList_toString, if_neg (not_lt.2 (Int.natCast_nonneg n))]
      rfl
    have hpositive : decimals.toNat ≠ 0 := by omega
    have hpadded : ∀ digits, padStart digits decimals.toNat ≠ [] := by
      intro digits hnil
      have hlength := congrArg List.length hnil
      simp only [padStart, List.length_append, List.length_replicate, List.length_nil] at hlength
      omega
    simp only [hzero, hpow, habs, hdiv, hmod, bind, Except.bind, pure, Except.pure, if_false]
    congr 1
    apply String.toList_injective
    simp only [String.toList_append, String.toList_ofList, hdigits, numeralOf,
      DecimalNumeral.text, DecimalNumeral.unsigned, DecimalNumeral.pointed, hpositive, hpadded,
      if_false]
    by_cases hneg : units < 0 <;> simp [hneg]

/-! ## Trimming zeros -/

theorem rdropWhile_append_cons {α : Type} {p : α → Bool} {x : α} (hx : p x = false) (l m : List α) :
    (l ++ x :: m).rdropWhile p = l ++ x :: m.rdropWhile p := by
  induction m using List.reverseRecOn with
  | nil => simpa using List.rdropWhile_concat_neg p l x (by simp [hx])
  | append_singleton m y ih =>
    rw [← List.cons_append, ← List.append_assoc]
    by_cases hy : p y = true
    · rw [List.rdropWhile_concat_pos _ _ _ hy, List.rdropWhile_concat_pos _ _ _ hy, ih]
    · rw [List.rdropWhile_concat_neg _ _ _ hy, List.rdropWhile_concat_neg _ _ _ hy]
      simp

/-- The numeral without the zeros at the end of its fraction. -/
def DecimalNumeral.trimmed (n : DecimalNumeral) : DecimalNumeral where
  negative := n.negative
  whole := n.whole
  fraction := n.fraction.rdropWhile (· = '0')
  whole_ne := n.whole_ne
  digits := by
    intro c hc
    rcases List.mem_append.1 hc with hc | hc
    · exact n.digit_of_mem_whole hc
    · exact n.digit_of_mem_fraction ((List.rdropWhile_prefix _ _).subset hc)

theorem dropTrailingZeros_text {n : DecimalNumeral} (hne : n.fraction ≠ []) :
    dropTrailingZeros n.text = n.trimmed.text := by
  obtain ⟨front, hfront⟩ : ∃ front, front = (if n.negative then ['-'] else []) ++ n.whole :=
    ⟨_, rfl⟩
  obtain ⟨fraction, hfraction⟩ : ∃ fraction, fraction = n.fraction.rdropWhile (· = '0') := ⟨_, rfl⟩
  have htext : n.text = front ++ '.' :: n.fraction := by
    rw [hfront, DecimalNumeral.text, DecimalNumeral.unsigned, DecimalNumeral.pointed, if_neg hne,
      List.append_assoc]
  have htrimmed : n.trimmed.text = front ++ if fraction = [] then [] else '.' :: fraction := by
    rw [hfront, hfraction, List.append_assoc]
    rfl
  have hkept : n.text.rdropWhile (· = '0') = front ++ '.' :: fraction := by
    rw [htext, rdropWhile_append_cons (by decide), hfraction]
  simp only [dropTrailingZeros, hkept, htrimmed]
  by_cases hnil : fraction = []
  · have hshorter : front ++ '.' :: fraction ≠ n.text := by
      rw [htext, hnil]
      simpa using hne.symm
    rw [if_neg hshorter, hnil]
    simp
  · have hlast : (front ++ '.' :: fraction).getLast? ≠ some '.' := by
      obtain ⟨init, last, rfl⟩ := (List.eq_nil_or_concat fraction).resolve_left hnil
      have hdigit : last.isDigit = true :=
        n.trimmed.digit_of_mem_fraction (show last ∈ n.fraction.rdropWhile (· = '0') by
          simp [← hfraction])
      have hget : (front ++ '.' :: (init.concat last)).getLast? = some last := by
        rw [List.concat_eq_append, ← List.cons_append, ← List.append_assoc, List.getLast?_concat]
      rw [hget]
      rintro ⟨⟩
      exact absurd hdigit (by decide)
    rw [if_neg hlast, if_neg hnil]
    split_ifs with hsame
    · exact hsame.symm
    · rfl

theorem DecimalNumeral.trimmed_units (n : DecimalNumeral) {decimals : Nat}
    (h : n.fraction.length ≤ decimals) : n.trimmed.units decimals = n.units decimals := by
  obtain ⟨zeros, hzeros⟩ : ∃ zeros, zeros = n.fraction.rtakeWhile (· = '0') := ⟨_, rfl⟩
  have hreplicate : zeros = List.replicate zeros.length '0' := by
    refine List.eq_replicate_of_mem fun c hc => ?_
    rw [hzeros] at hc
    simpa using List.mem_rtakeWhile_imp hc
  have hsplit : n.fraction = n.trimmed.fraction ++ List.replicate zeros.length '0' := by
    rw [← hreplicate, hzeros]
    exact List.rdropWhile_append_rtakeWhile.symm
  have hlength : n.fraction.length = n.trimmed.fraction.length + zeros.length := by
    simpa using congrArg List.length hsplit
  have hexponent : decimals - n.trimmed.fraction.length =
      zeros.length + (decimals - n.fraction.length) := by omega
  unfold units
  rw [hexponent, pow_add, hsplit, bigInt_append_zeros, List.length_append, List.length_replicate,
    ← hlength, mul_assoc]
  rfl

/-! ## There and back -/

/-- The text of a numeral is read as its units. -/
theorem parseUnits_ofList {decimals : Int} (hdecimals : assertDecimals decimals = .ok ())
    {n : DecimalNumeral} (hle : n.fraction.length ≤ decimals) :
    parseUnits (String.ofList n.text) decimals = .ok (n.units decimals.toNat) := by
  have htrim : trim (String.ofList n.text).toList = n.text := by
    rw [String.toList_ofList]
    exact (trim_eq_iff n.text_ne_nil fun c => n.isWhiteSpace_eq_false).2
      ⟨[], [], by simp, by simp, by simp⟩
  exact (parseUnits_text hdecimals htrim).1 hle

theorem point_mem_text {n : DecimalNumeral} : '.' ∈ n.text ↔ n.fraction ≠ [] := by
  have hwhole : '.' ∉ n.whole := DecimalNumeral.point_notMem fun c => n.digit_of_mem_whole
  unfold DecimalNumeral.text DecimalNumeral.unsigned DecimalNumeral.pointed
  cases n.negative <;> by_cases h : n.fraction = [] <;> simp [h, hwhole]

/-- The trimmed text is that of the trimmed numeral, if there is a fraction. -/
theorem formatUnitsTrimmed_eq (units : Int) {decimals : Int}
    (hdecimals : assertDecimals decimals = .ok ()) :
    formatUnitsTrimmed units decimals = .ok (String.ofList
      (if (numeralOf units decimals.toNat).fraction = [] then
        (numeralOf units decimals.toNat).text
      else (numeralOf units decimals.toNat).trimmed.text)) := by
  unfold formatUnitsTrimmed
  rw [formatUnits_eq units hdecimals]
  simp only [bind, Except.bind, pure, Except.pure, String.toList_ofList, point_mem_text, not_not]
  split_ifs with hnil
  · rfl
  · rw [dropTrailingZeros_text hnil]

/-- **Text and units are inverse.** Reading accepts numerals between white space and nothing else. -/
theorem decimal_round_trip (units : Int) {decimals : Int}
    (hdecimals : assertDecimals decimals = .ok ()) :
    (formatUnits units decimals >>= (parseUnits · decimals)) = .ok units ∧
    (formatUnitsTrimmed units decimals >>= (parseUnits · decimals)) = .ok units ∧
    ∀ value,
      (∀ read, parseUnits value decimals = .ok read ↔
        ∃ (n : DecimalNumeral) (before after : List Char),
          (∀ c ∈ before, isWhiteSpace c = true) ∧ (∀ c ∈ after, isWhiteSpace c = true) ∧
          value.toList = before ++ n.text ++ after ∧ n.fraction.length ≤ decimals ∧
            (read : ℚ) = n.value * 10 ^ decimals.toNat) ∧
      ((∃ read, parseUnits value decimals = .ok read) ∨
        ∃ message, parseUnits value decimals = .error (.money message)) := by
  have hrange := assertDecimals_eq_ok.1 hdecimals
  have hlength : ((numeralOf units decimals.toNat).fraction.length : Int) = decimals := by
    rw [numeralOf_length]
    omega
  have hread := parseUnits_ofList hdecimals hlength.le
  rw [numeralOf_units] at hread
  refine ⟨?_, ?_, fun value => ⟨fun read => parseUnits_eq_ok_iff hdecimals,
    parseUnits_rejects hdecimals⟩⟩
  · rw [formatUnits_eq units hdecimals]
    exact hread
  · rw [formatUnitsTrimmed_eq units hdecimals]
    show parseUnits _ decimals = _
    split_ifs with hnil
    · exact hread
    · have hshorter : (numeralOf units decimals.toNat).trimmed.fraction.length ≤
          (numeralOf units decimals.toNat).fraction.length :=
        (List.rdropWhile_prefix _ _).length_le
      rw [parseUnits_ofList hdecimals (by omega), DecimalNumeral.trimmed_units _ (by omega),
        numeralOf_units]

/-- A negative amount of less than one. -/
theorem decimal_round_trip_fraction : formatUnits (-50) 2 = .ok "-0.50" ∧
    formatUnitsTrimmed (-50) 2 = .ok "-0.5" ∧ parseUnits "-0.50" 2 = .ok (-50) ∧
      parseUnits "-0.5" 2 = .ok (-50) := by
  obtain ⟨hfull, htrimmed, -⟩ :=
    decimal_round_trip (-50) (show assertDecimals 2 = .ok () from rfl)
  have hformat : formatUnits (-50) 2 = .ok "-0.50" := by decide +kernel
  have hformat' : formatUnitsTrimmed (-50) 2 = .ok "-0.5" := by decide +kernel
  rw [hformat] at hfull
  rw [hformat'] at htrimmed
  exact ⟨hformat, hformat', hfull, htrimmed⟩

end PaymentGateway
