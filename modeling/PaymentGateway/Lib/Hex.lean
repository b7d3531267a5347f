import Mathlib.Data.String.Basic
import PaymentGateway.Lib.Numeral
import PaymentGateway.Lib.Utf16

/-!
# Hexadecimal words

Digits, words with the prefix `0x`, the number that digits write, and lower case. Lowering a word
keeps it a word of the same length, and lowering twice is lowering once. The number that a word
writes determines it up to case (`map_toLower_eq_of_value_eq`).

Bytes are printed with two digits in lower case each, and read back from them (`toBytes_ofBytes`,
`ofBytes_toBytes`).
-/

namespace Hex

def isDigit (c : Char) : Bool :=
  c.isDigit || (decide ('a' ≤ c) && decide (c ≤ 'f')) || (decide ('A' ≤ c) && decide (c ≤ 'F'))

/-- The prefix `0x` and then this many digits. -/
def isWord (digits : Nat) (s : List Char) : Bool :=
  match s with
  | '0' :: 'x' :: body => decide (body.length = digits) && body.all isDigit
  | _ => false

def digitValue (c : Char) : Nat :=
  if c.isDigit then c.toNat - '0'.toNat
  else if 'a' ≤ c then c.toNat - 'a'.toNat + 10
  else c.toNat - 'A'.toNat + 10

/-- The number written by digits. -/
def value (digits : List Char) : Nat := digits.foldl (fun n c => 16 * n + digitValue c) 0

theorem isWord_iff {digits : Nat} {s : List Char} : isWord digits s = true ↔
    ∃ body, s = '0' :: 'x' :: body ∧ body.length = digits ∧ ∀ c ∈ body, isDigit c = true := by
  unfold isWord
  split
  · next body =>
    rw [Bool.and_eq_true, decide_eq_true_eq, List.all_eq_true]
    constructor
    · intro h
      exact ⟨body, rfl, h⟩
    · rintro ⟨body', hbody, h⟩
      cases hbody
      exact h
  · next hno =>
    refine ⟨Bool.noConfusion, ?_⟩
    rintro ⟨body, hbody, -⟩
    exact absurd hbody (hno body)

/-! ## Lower case -/

theorem toLower_of_upper {c : Char} (h : 'A' ≤ c ∧ c ≤ 'Z') :
    c.toLower.toNat = c.toNat + 32 := by
  have hval : c.val ≥ 'A'.val ∧ c.val ≤ 'Z'.val := h
  have hle : c.val.toNat ≤ 90 := UInt32.le_iff_toNat_le.1 hval.2
  unfold Char.toLower
  rw [dif_pos hval]
  show (c.val + ('a'.val - 'A'.val)).toNat = _
  rw [UInt32.toNat_add]
  show (c.val.toNat + 32) % 2 ^ 32 = c.val.toNat + 32
  omega

theorem toLower_of_not_upper {c : Char} (h : ¬ ('A' ≤ c ∧ c ≤ 'Z')) : c.toLower = c := by
  unfold Char.toLower
  exact dif_neg h

@[simp] theorem toLower_toLower (c : Char) : c.toLower.toLower = c.toLower := by
  by_cases h : 'A' ≤ c ∧ c ≤ 'Z'
  · refine toLower_of_not_upper fun hlower => ?_
    have hupper : c.toLower.toNat ≤ 90 := UInt32.le_iff_toNat_le.1 hlower.2
    have hc : 65 ≤ c.toNat := UInt32.le_iff_toNat_le.1 h.1
    have hshift := toLower_of_upper h
    omega
  · rw [toLower_of_not_upper h]
    exact toLower_of_not_upper h

@[simp] theorem map_toLower_toLower (s : List Char) :
    (s.map Char.toLower).map Char.toLower = s.map Char.toLower := by
  rw [List.map_map]
  exact List.map_congr_left fun c _ => toLower_toLower c

theorem isDigit_iff (c : Char) : isDigit c = true ↔ (48 ≤ c.toNat ∧ c.toNat ≤ 57) ∨
    (97 ≤ c.toNat ∧ c.toNat ≤ 102) ∨ (65 ≤ c.toNat ∧ c.toNat ≤ 70) := by
  have hle : ∀ a b : Char, a ≤ b ↔ a.toNat ≤ b.toNat := fun a b => UInt32.le_iff_toNat_le
  unfold isDigit Char.isDigit
  simp [hle, UInt32.le_iff_toNat_le, or_assoc]

theorem utf16Length_digits {s : List Char} (h : ∀ c ∈ s, isDigit c = true) :
    Utf16.length s = s.length := by
  refine Utf16.length_eq fun c hc => ?_
  have hdigit := (isDigit_iff c).1 (h c hc)
  omega

theorem isDigit_toLower {c : Char} (h : isDigit c = true) : isDigit c.toLower = true := by
  rw [isDigit_iff] at *
  by_cases hupper : 'A' ≤ c ∧ c ≤ 'Z'
  · have hlow : 65 ≤ c.toNat := UInt32.le_iff_toNat_le.1 hupper.1
    have hhigh : c.toNat ≤ 90 := UInt32.le_iff_toNat_le.1 hupper.2
    rw [toLower_of_upper hupper]
    omega
  · rw [toLower_of_not_upper hupper]
    exact h

theorem isDigit_of_toLower {c : Char} (h : isDigit c.toLower = true) : isDigit c = true := by
  rw [isDigit_iff] at *
  by_cases hupper : 'A' ≤ c ∧ c ≤ 'Z'
  · have hlow : 65 ≤ c.toNat := UInt32.le_iff_toNat_le.1 hupper.1
    rw [toLower_of_upper hupper] at h
    omega
  · rwa [toLower_of_not_upper hupper] at h

theorem isWord_map_toLower {digits : Nat} {s : List Char} (h : isWord digits s = true) :
    isWord digits (s.map Char.toLower) = true := by
  obtain ⟨body, rfl, hlength, hdigits⟩ := isWord_iff.1 h
  refine isWord_iff.2 ⟨body.map Char.toLower, rfl, by rw [List.length_map, hlength], ?_⟩
  intro c hc
  obtain ⟨d, hd, rfl⟩ := List.mem_map.1 hc
  exact isDigit_toLower (hdigits d hd)

/-! ## The number -/

/-- The value of a digit, by its code. -/
theorem digitValue_eq {c : Char} (h : isDigit c = true) :
    digitValue c = if c.toNat ≤ 57 then c.toNat - 48
      else if 97 ≤ c.toNat then c.toNat - 87 else c.toNat - 55 := by
  have hle : ∀ a b : Char, a ≤ b ↔ a.toNat ≤ b.toNat := fun a b => UInt32.le_iff_toNat_le
  rw [isDigit_iff] at h
  unfold digitValue Char.isDigit
  simp only [Bool.and_eq_true, decide_eq_true_eq, ge_iff_le, UInt32.le_iff_toNat_le, hle]
  show (if 48 ≤ c.toNat ∧ c.toNat ≤ 57 then c.toNat - 48
    else if 97 ≤ c.toNat then c.toNat - 97 + 10 else c.toNat - 65 + 10) = _
  split_ifs <;> omega

/-- Digits of one value differ in case at most. -/
theorem toLower_eq_of_digitValue_eq {c d : Char} (hc : isDigit c = true) (hd : isDigit d = true)
    (h : digitValue c = digitValue d) : c.toLower = d.toLower := by
  have hlower : ∀ c, isDigit c = true → c.toLower.toNat =
      if digitValue c < 10 then 48 + digitValue c else 87 + digitValue c := by
    intro c hc
    have hvalue := digitValue_eq hc
    rw [isDigit_iff] at hc
    by_cases hupper : 'A' ≤ c ∧ c ≤ 'Z'
    · have hlow : 65 ≤ c.toNat := UInt32.le_iff_toNat_le.1 hupper.1
      have hhigh : c.toNat ≤ 90 := UInt32.le_iff_toNat_le.1 hupper.2
      rw [toLower_of_upper hupper]
      split_ifs at hvalue ⊢ <;> omega
    · have hnot : ¬(65 ≤ c.toNat ∧ c.toNat ≤ 90) := fun h =>
        hupper ⟨UInt32.le_iff_toNat_le.2 h.1, UInt32.le_iff_toNat_le.2 h.2⟩
      rw [toLower_of_not_upper hupper]
      split_ifs at hvalue ⊢ <;> omega
  rw [← Char.toNat_inj, hlower c hc, hlower d hd, h]

theorem digitValue_lt {c : Char} (h : isDigit c = true) : digitValue c < 16 := by
  have hvalue := digitValue_eq h
  rw [isDigit_iff] at h
  split_ifs at hvalue <;> omega

theorem digitValue_toLower {c : Char} (h : isDigit c = true) :
    digitValue c.toLower = digitValue c := by
  have hlower := digitValue_eq (isDigit_toLower h)
  have hvalue := digitValue_eq h
  rw [isDigit_iff] at h
  by_cases hupper : 'A' ≤ c ∧ c ≤ 'Z'
  · have hlow : 65 ≤ c.toNat := UInt32.le_iff_toNat_le.1 hupper.1
    have hhigh : c.toNat ≤ 90 := UInt32.le_iff_toNat_le.1 hupper.2
    rw [toLower_of_upper hupper] at hlower
    split_ifs at hlower hvalue <;> omega
  · rw [toLower_of_not_upper hupper]

/-- A digit in lower case is the one of its value. -/
theorem toLower_eq_iff {c d : Char} (hc : isDigit c = true) (hd : isDigit d = true)
    (hlower : d.toLower = d) : c.toLower = d ↔ digitValue c = digitValue d := by
  constructor
  · intro h
    rw [← digitValue_toLower hc, h]
  · intro h
    rw [toLower_eq_of_digitValue_eq hc hd h, hlower]

theorem value_eq (digits : List Char) : value digits = Numeral.value 16 (digits.map digitValue) := by
  unfold value Numeral.value
  rw [List.foldl_map]
  simp only [Nat.mul_comm 16]

theorem digitValues_lt {s : List Char} (h : ∀ c ∈ s, isDigit c = true) :
    ∀ d ∈ s.map digitValue, d < 16 := by
  intro d hd
  obtain ⟨c, hc, rfl⟩ := List.mem_map.1 hd
  exact digitValue_lt (h c hc)

theorem value_lt {s : List Char} (h : ∀ c ∈ s, isDigit c = true) : value s < 16 ^ s.length := by
  have hlt := Numeral.value_lt (s.map digitValue) (digitValues_lt h)
  rwa [List.length_map, ← value_eq] at hlt

theorem value_cons (c : Char) (s : List Char) :
    value (c :: s) = digitValue c * 16 ^ s.length + value s := by
  rw [value_eq, List.map_cons, Numeral.value_cons, List.length_map, ← value_eq]

theorem value_map_toLower {s : List Char} (h : ∀ c ∈ s, isDigit c = true) :
    value (s.map Char.toLower) = value s := by
  rw [value_eq, value_eq, List.map_map]
  congr 1
  exact List.map_congr_left fun c hc => digitValue_toLower (h c hc)

/-- Words of one value differ in case at most. -/
theorem map_toLower_eq_of_value_eq {s s' : List Char} (hlength : s.length = s'.length)
    (h : ∀ c ∈ s, isDigit c = true) (h' : ∀ c ∈ s', isDigit c = true)
    (hvalue : value s = value s') : s.map Char.toLower = s'.map Char.toLower := by
  rw [value_eq, value_eq] at hvalue
  have hdigits : s.map digitValue = s'.map digitValue :=
    Numeral.value_inj (by simpa using hlength) (digitValues_lt h) (digitValues_lt h') hvalue
  refine List.ext_getElem (by simpa using hlength) fun i hi hi' => ?_
  rw [List.length_map] at hi hi'
  rw [List.getElem_map, List.getElem_map]
  refine toLower_eq_of_digitValue_eq (h _ (List.getElem_mem hi)) (h' _ (List.getElem_mem hi')) ?_
  have hget := congrArg (·[i]?) hdigits
  simpa [hi, hi'] using hget

/-! ## Bytes -/

/-- The digit in lower case that writes a number below 16. -/
def digit (n : Nat) : Char := if n < 10 then Char.ofNat (n + 48) else Char.ofNat (n + 87)

/-- Two digits for each byte. -/
def ofBytes (bytes : List UInt8) : List Char :=
  bytes.flatMap fun byte => [digit (byte.toNat / 16), digit (byte.toNat % 16)]

/-- The bytes that pairs of digits write, up to the first pair that is none. -/
def toBytes : List Char → List UInt8
  | c :: d :: rest =>
    if isDigit c && isDigit d then UInt8.ofNat (16 * digitValue c + digitValue d) :: toBytes rest
    else []
  | _ => []

/-- A digit in lower case. -/
def isLowerDigit (c : Char) : Bool := c.isDigit || (decide ('a' ≤ c) && decide (c ≤ 'f'))

theorem isLowerDigit_digit {n : Nat} (h : n < 16) : isLowerDigit (digit n) = true := by
  have hall : ∀ n < 16, isLowerDigit (digit n) = true := by decide
  exact hall n h

theorem isDigit_of_isLowerDigit {c : Char} (h : isLowerDigit c = true) : isDigit c = true := by
  rw [isDigit, Bool.or_eq_true]
  exact .inl h

theorem isDigit_digit {n : Nat} (h : n < 16) : isDigit (digit n) = true :=
  isDigit_of_isLowerDigit (isLowerDigit_digit h)

theorem digitValue_digit {n : Nat} (h : n < 16) : digitValue (digit n) = n := by
  have hall : ∀ n < 16, digitValue (digit n) = n := by decide
  exact hall n h

theorem div_lt (byte : UInt8) : byte.toNat / 16 < 16 := by
  have := byte.toNat_lt
  omega

theorem mod_lt (byte : UInt8) : byte.toNat % 16 < 16 := Nat.mod_lt _ (by decide)

@[simp] theorem ofBytes_cons (byte : UInt8) (bytes : List UInt8) :
    ofBytes (byte :: bytes) =
      digit (byte.toNat / 16) :: digit (byte.toNat % 16) :: ofBytes bytes := rfl

theorem length_ofBytes (bytes : List UInt8) : (ofBytes bytes).length = 2 * bytes.length := by
  induction bytes with
  | nil => rfl
  | cons byte bytes ih =>
    rw [ofBytes_cons, List.length_cons, List.length_cons, ih, List.length_cons]
    omega

theorem isLowerDigit_of_mem_ofBytes {bytes : List UInt8} {c : Char} (h : c ∈ ofBytes bytes) :
    isLowerDigit c = true := by
  obtain ⟨byte, -, hc⟩ := List.mem_flatMap.1 h
  simp only [List.mem_cons, List.not_mem_nil, or_false] at hc
  rcases hc with rfl | rfl
  · exact isLowerDigit_digit (div_lt byte)
  · exact isLowerDigit_digit (mod_lt byte)

theorem toBytes_ofBytes (bytes : List UInt8) : toBytes (ofBytes bytes) = bytes := by
  induction bytes with
  | nil => rfl
  | cons byte bytes ih =>
    have hbyte : 16 * (byte.toNat / 16) + byte.toNat % 16 = byte.toNat := Nat.div_add_mod _ _
    rw [ofBytes_cons, toBytes, isDigit_digit (div_lt byte), isDigit_digit (mod_lt byte),
      digitValue_digit (div_lt byte), digitValue_digit (mod_lt byte), hbyte, ih]
    simp

theorem ofBytes_injective {bytes bytes' : List UInt8} (h : ofBytes bytes = ofBytes bytes') :
    bytes = bytes' := by
  rw [← toBytes_ofBytes bytes, h, toBytes_ofBytes]

theorem isLowerDigit_iff (c : Char) : isLowerDigit c = true ↔
    (48 ≤ c.toNat ∧ c.toNat ≤ 57) ∨ (97 ≤ c.toNat ∧ c.toNat ≤ 102) := by
  have hle : ∀ a b : Char, a ≤ b ↔ a.toNat ≤ b.toNat := fun a b => UInt32.le_iff_toNat_le
  unfold isLowerDigit Char.isDigit
  simp [hle, UInt32.le_iff_toNat_le]

theorem digit_digitValue {c : Char} (h : isLowerDigit c = true) : digit (digitValue c) = c := by
  have hvalue := digitValue_eq (isDigit_of_isLowerDigit h)
  unfold digit
  rcases (isLowerDigit_iff c).1 h with ⟨hlow, hhigh⟩ | ⟨hlow, hhigh⟩
  · rw [if_pos hhigh] at hvalue
    rw [if_pos (by omega), hvalue, Nat.sub_add_cancel hlow, Char.ofNat_toNat]
  · rw [if_neg (by omega), if_pos hlow] at hvalue
    rw [if_neg (by omega), hvalue, Nat.sub_add_cancel (by omega), Char.ofNat_toNat]

/-- Digits in lower case are printed again as they stand. -/
theorem ofBytes_toBytes {s : List Char} (h : ∀ c ∈ s, isLowerDigit c = true)
    (heven : s.length % 2 = 0) : ofBytes (toBytes s) = s := by
  induction s using toBytes.induct with
  | case1 c d rest hpair ih =>
    have hc := h c (by simp)
    have hd := h d (by simp)
    have hlength : rest.length % 2 = 0 := by
      rw [List.length_cons, List.length_cons] at heven
      omega
    have hrest := ih (fun e he => h e (by simp [he])) hlength
    have hc16 := digitValue_lt (isDigit_of_isLowerDigit hc)
    have hd16 := digitValue_lt (isDigit_of_isLowerDigit hd)
    have hbyte : (UInt8.ofNat (16 * digitValue c + digitValue d)).toNat =
        16 * digitValue c + digitValue d := UInt8.toNat_ofNat_of_lt' (by
      show _ < 256
      omega)
    have hdiv : (16 * digitValue c + digitValue d) / 16 = digitValue c := by omega
    have hmod : (16 * digitValue c + digitValue d) % 16 = digitValue d := by omega
    rw [toBytes, if_pos hpair, ofBytes_cons, hbyte, hdiv, hmod, digit_digitValue hc,
      digit_digitValue hd, hrest]
  | case2 c d rest hpair =>
    have hc := isDigit_of_isLowerDigit (h c (by simp))
    have hd := isDigit_of_isLowerDigit (h d (by simp))
    exact absurd (by rw [hc, hd]; rfl) hpair
  | case3 s hshort =>
    cases s with
    | nil => rfl
    | cons c s =>
      cases s with
      | nil => cases heven
      | cons d s => exact absurd rfl (hshort c d s)

end Hex
