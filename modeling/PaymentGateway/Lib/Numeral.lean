import Mathlib.Data.List.TakeWhile
import Mathlib.Data.Nat.Bitwise
import Mathlib.Data.Nat.Digits.Lemmas
import Mathlib.Tactic.Ring

/-!
# Positional numerals

The number that a list of digits writes in a base, the most significant digit first. Numerals of one
length differ in value (`value_inj`), and so do numerals of any length that do not begin with zero
(`value_inj_of_head`): such a numeral is the list of digits of its value (`digits_value`). With
zeros in front, their number is all that the value leaves open (`value_inj_of_zeros`).
-/

namespace Numeral

variable {base : Nat}

def value (base : Nat) (digits : List Nat) : Nat := digits.foldl (fun n d => n * base + d) 0

@[simp] theorem value_nil : value base [] = 0 := rfl

@[simp] theorem value_concat (digits : List Nat) (d : Nat) :
    value base (digits ++ [d]) = value base digits * base + d := by
  simp [value]

theorem value_cons (d : Nat) (digits : List Nat) :
    value base (d :: digits) = d * base ^ digits.length + value base digits := by
  induction digits using List.reverseRecOn with
  | nil => simp [value]
  | append_singleton digits d' ih =>
    rw [← List.cons_append, value_concat, ih, value_concat, List.length_append,
      List.length_singleton]
    ring

theorem value_eq_ofDigits (digits : List Nat) :
    value base digits = Nat.ofDigits base digits.reverse := by
  induction digits using List.reverseRecOn with
  | nil => rfl
  | append_singleton digits d ih =>
    rw [value_concat, ih, List.reverse_append, List.reverse_singleton, List.singleton_append,
      Nat.ofDigits_cons]
    ring

theorem value_lt (digits : List Nat) (h : ∀ d ∈ digits, d < base) :
    value base digits < base ^ digits.length := by
  induction digits using List.reverseRecOn with
  | nil => exact Nat.one_pos
  | append_singleton digits d ih =>
    have hlt := ih fun d hd => h d (List.mem_append_left _ hd)
    have hd : d < base := h d (by simp)
    rw [value_concat, List.length_append, List.length_singleton, pow_succ]
    calc value base digits * base + d < value base digits * base + base := by omega
      _ = (value base digits + 1) * base := by ring
      _ ≤ base ^ digits.length * base := Nat.mul_le_mul_right base hlt

/-- The first digit says between which multiples of a power the value lies. -/
theorem value_cons_bounds (d : Nat) {digits : List Nat} (h : ∀ a ∈ digits, a < base) :
    d * base ^ digits.length ≤ value base (d :: digits) ∧
      value base (d :: digits) < (d + 1) * base ^ digits.length := by
  have hlt := value_lt digits h
  rw [value_cons, Nat.add_mul, Nat.one_mul]
  omega

/-- Numerals of one length that write the same number are the same. -/
theorem value_inj {digits digits' : List Nat} (hlength : digits.length = digits'.length)
    (h : ∀ d ∈ digits, d < base) (h' : ∀ d ∈ digits', d < base)
    (hvalue : value base digits = value base digits') : digits = digits' := by
  induction digits using List.reverseRecOn generalizing digits' with
  | nil => exact (List.length_eq_zero_iff.1 hlength.symm).symm
  | append_singleton digits d ih =>
    induction digits' using List.reverseRecOn with
    | nil => simp at hlength
    | append_singleton digits' d' _ =>
      have hd : d < base := h d (by simp)
      have hd' : d' < base := h' d' (by simp)
      have hpos : 0 < base := by omega
      simp only [value_concat] at hvalue
      have hlast : d = d' := by
        have hmod := congrArg (· % base) hvalue
        simpa [Nat.mul_add_mod', Nat.mod_eq_of_lt hd, Nat.mod_eq_of_lt hd'] using hmod
      subst hlast
      have hinit : value base digits = value base digits' :=
        Nat.eq_of_mul_eq_mul_right hpos (Nat.add_right_cancel hvalue)
      rw [ih (by simpa using hlength) (fun d hd => h d (List.mem_append_left _ hd))
        (fun d hd => h' d (List.mem_append_left _ hd)) hinit]

/-- A numeral that does not begin with zero is the list of digits of its value. -/
theorem digits_value {digits : List Nat} (hbase : 1 < base) (h : ∀ d ∈ digits, d < base)
    (hhead : ∀ d ∈ digits.head?, d ≠ 0) :
    (Nat.digits base (value base digits)).reverse = digits := by
  rw [value_eq_ofDigits, Nat.digits_ofDigits base hbase]
  · exact List.reverse_reverse digits
  · simpa using h
  · intro hne
    rw [List.getLast_reverse]
    exact hhead _ (List.head?_eq_some_head _)

/-- Numerals that write the same number and do not begin with zero are the same. -/
theorem value_inj_of_head {digits digits' : List Nat} (hbase : 1 < base)
    (h : ∀ d ∈ digits, d < base) (h' : ∀ d ∈ digits', d < base)
    (hhead : ∀ d ∈ digits.head?, d ≠ 0) (hhead' : ∀ d ∈ digits'.head?, d ≠ 0)
    (hvalue : value base digits = value base digits') : digits = digits' := by
  rw [← digits_value hbase h hhead, hvalue, digits_value hbase h' hhead']

theorem value_zeros (k : Nat) (digits : List Nat) :
    value base (List.replicate k 0 ++ digits) = value base digits := by
  induction k with
  | zero => rfl
  | succ k ih => simpa [value, List.replicate_succ] using ih

/-- The zeros that a numeral begins with, apart. -/
theorem eq_zeros_append (digits : List Nat) :
    digits = List.replicate (digits.takeWhile (· = 0)).length 0 ++ digits.dropWhile (· = 0) := by
  have hzeros : digits.takeWhile (· = 0) =
      List.replicate (digits.takeWhile (· = 0)).length 0 :=
    List.eq_replicate_of_mem fun d hd => by simpa using List.mem_takeWhile_imp hd
  rw [← hzeros, List.takeWhile_append_dropWhile]

/-- Numerals that write the same number and begin with as many zeros are the same. -/
theorem value_inj_of_zeros {digits digits' : List Nat} (hbase : 1 < base)
    (h : ∀ d ∈ digits, d < base) (h' : ∀ d ∈ digits', d < base)
    (hzeros : (digits.takeWhile (· = 0)).length = (digits'.takeWhile (· = 0)).length)
    (hvalue : value base digits = value base digits') : digits = digits' := by
  have hrest : value base (digits.dropWhile (· = 0)) = value base (digits'.dropWhile (· = 0)) := by
    rw [eq_zeros_append digits, eq_zeros_append digits', value_zeros, value_zeros] at hvalue
    exact hvalue
  have hhead : ∀ digits : List Nat, ∀ d ∈ (digits.dropWhile (· = 0)).head?, d ≠ 0 := by
    intro digits d hd
    have hnot := List.head?_dropWhile_not (fun d : Nat => decide (d = 0)) digits
    rw [Option.mem_def.1 hd] at hnot
    simpa using hnot
  rw [eq_zeros_append digits, eq_zeros_append digits', hzeros,
    value_inj_of_head hbase (fun d hd => h d ((List.dropWhile_sublist _).subset hd))
      (fun d hd => h' d ((List.dropWhile_sublist _).subset hd)) (hhead digits) (hhead digits')
      hrest]

/-! ## Digits of bits -/

/-- Below the bits shifted up, adding is the exclusive or. -/
theorem shiftLeft_add_eq_xor {i b : Nat} (a : Nat) (h : b < 2 ^ i) :
    a <<< i + b = a <<< i ^^^ b := by
  rw [Nat.shiftLeft_add_eq_or_of_lt h]
  refine Nat.eq_of_testBit_eq fun j => ?_
  rw [Nat.testBit_or, Nat.testBit_xor, Nat.testBit_shiftLeft]
  by_cases hj : i ≤ j
  · have hb : b.testBit j = false :=
      Nat.testBit_lt_two_pow (Nat.lt_of_lt_of_le h (Nat.pow_le_pow_right (by decide) hj))
    simp [hb]
  · simp [hj]

/-- The exclusive or of numerals is that of their digits. -/
theorem value_zipWith_xor {k : Nat} {digits digits' : List Nat}
    (hlength : digits.length = digits'.length) (h : ∀ d ∈ digits, d < 2 ^ k)
    (h' : ∀ d ∈ digits', d < 2 ^ k) :
    value (2 ^ k) (List.zipWith (· ^^^ ·) digits digits') =
      value (2 ^ k) digits ^^^ value (2 ^ k) digits' := by
  induction digits using List.reverseRecOn generalizing digits' with
  | nil =>
    obtain rfl := List.length_eq_zero_iff.1 hlength.symm
    simp
  | append_singleton digits d ih =>
    induction digits' using List.reverseRecOn with
    | nil => simp at hlength
    | append_singleton digits' d' _ =>
      have hrest : digits.length = digits'.length := by simpa using hlength
      have hd : d < 2 ^ k := h d (by simp)
      have hd' : d' < 2 ^ k := h' d' (by simp)
      rw [List.zipWith_append hrest, List.zipWith_cons_cons, List.zipWith_nil_right, value_concat,
        value_concat, value_concat,
        ih hrest (fun d hd => h d (List.mem_append_left _ hd))
          (fun d hd => h' d (List.mem_append_left _ hd))]
      simp only [← Nat.shiftLeft_eq]
      rw [shiftLeft_add_eq_xor _ (Nat.xor_lt_two_pow hd hd'), shiftLeft_add_eq_xor _ hd,
        shiftLeft_add_eq_xor _ hd', Nat.shiftLeft_xor_distrib]
      ac_rfl

/-! ## Strings over an alphabet -/

section Alphabet

variable {α : Type} [DecidableEq α] {alphabet : List α}

theorem idxOf?_lt {a : α} {d : Nat} (h : alphabet.idxOf? a = some d) : d < alphabet.length :=
  (List.idxOf?_eq_some_iff.1 h).1

theorem idxOf?_inj {a b : α} {d : Nat} (ha : alphabet.idxOf? a = some d)
    (hb : alphabet.idxOf? b = some d) : a = b := by
  obtain ⟨_, hda, -⟩ := List.idxOf?_eq_some_iff.1 ha
  obtain ⟨_, hdb, -⟩ := List.idxOf?_eq_some_iff.1 hb
  exact hda.symm.trans hdb

/-- Strings with the same digits are the same. -/
theorem mapM_idxOf?_inj {s s' : List α} {digits : List Nat}
    (h : s.mapM (alphabet.idxOf? ·) = some digits)
    (h' : s'.mapM (alphabet.idxOf? ·) = some digits) : s = s' := by
  induction s generalizing s' digits with
  | nil =>
    cases h
    cases s' with
    | nil => rfl
    | cons b s' => simp [List.mapM_cons, Option.bind_eq_some_iff] at h'
  | cons a s ih =>
    simp only [List.mapM_cons, Option.pure_def, Option.bind_eq_bind, Option.bind_eq_some_iff,
      Option.some.injEq] at h
    obtain ⟨d, hd, ds, hds, rfl⟩ := h
    cases s' with
    | nil => cases h'
    | cons b s' =>
      simp only [List.mapM_cons, Option.pure_def, Option.bind_eq_bind, Option.bind_eq_some_iff,
        Option.some.injEq, List.cons.injEq] at h'
      obtain ⟨d', hd', ds', hds', rfl, rfl⟩ := h'
      rw [idxOf?_inj hd hd', ih hds hds']

theorem mapM_idxOf?_lt {s : List α} {digits : List Nat}
    (h : s.mapM (alphabet.idxOf? ·) = some digits) : ∀ d ∈ digits, d < alphabet.length := by
  induction s generalizing digits with
  | nil =>
    cases h
    simp
  | cons a s ih =>
    simp only [List.mapM_cons, Option.pure_def, Option.bind_eq_bind, Option.bind_eq_some_iff,
      Option.some.injEq] at h
    obtain ⟨d, hd, ds, hds, rfl⟩ := h
    intro d' hd'
    rcases List.mem_cons.1 hd' with rfl | hd'
    · exact idxOf?_lt hd
    · exact ih hds d' hd'

theorem idxOf?_eq_some_iff_idxOf {a : α} {d : Nat} :
    alphabet.idxOf? a = some d ↔ a ∈ alphabet ∧ alphabet.idxOf a = d := by
  induction alphabet generalizing d with
  | nil => simp
  | cons b alphabet ih =>
    rw [List.idxOf?_cons, List.idxOf_cons]
    by_cases hb : b = a
    · simp [hb]
    · have ha : a ≠ b := fun h => hb h.symm
      have hbeq : (b == a) = false := by simpa using hb
      cases d with
      | zero => simp [hbeq, ha]
      | succ d => simp [hbeq, ha, ih]

/-- The digits of a string are the positions of its letters. -/
theorem mapM_idxOf?_eq_some {s : List α} {digits : List Nat} :
    s.mapM (alphabet.idxOf? ·) = some digits ↔
      (∀ a ∈ s, a ∈ alphabet) ∧ s.map (alphabet.idxOf ·) = digits := by
  induction s generalizing digits with
  | nil => simp [eq_comm]
  | cons a s ih =>
    simp only [List.mapM_cons, Option.pure_def, Option.bind_eq_bind, Option.bind_eq_some_iff,
      Option.some.injEq, List.forall_mem_cons, List.map_cons, idxOf?_eq_some_iff_idxOf, ih]
    constructor
    · rintro ⟨d, ⟨ha, rfl⟩, ds, ⟨hs, rfl⟩, rfl⟩
      exact ⟨⟨ha, hs⟩, rfl⟩
    · rintro ⟨⟨ha, hs⟩, rfl⟩
      exact ⟨_, ⟨ha, rfl⟩, _, ⟨hs, rfl⟩, rfl⟩

/-- Reading a string digit by digit. -/
theorem foldlM_idxOf? {s : List α} {n v : Nat}
    (h : s.foldlM (fun n a => (alphabet.idxOf? a).map (n * base + ·)) n = some v) :
    ∃ digits, s.mapM (alphabet.idxOf? ·) = some digits ∧
      v = digits.foldl (fun n d => n * base + d) n := by
  induction s generalizing n with
  | nil =>
    cases h
    exact ⟨[], rfl, rfl⟩
  | cons a s ih =>
    simp only [List.foldlM_cons, Option.bind_eq_bind, Option.bind_eq_some_iff,
      Option.map_eq_some_iff] at h
    obtain ⟨_, ⟨d, hd, rfl⟩, hrest⟩ := h
    obtain ⟨digits, hdigits, rfl⟩ := ih hrest
    exact ⟨d :: digits, by simp [List.mapM_cons, hd, hdigits], rfl⟩

/-- The zeros that the digits of a string begin with are the letters that write zero. -/
theorem takeWhile_mapM_idxOf? {zero : α}
    (hzero : alphabet.head? = some zero) {s : List α} {digits : List Nat}
    (h : s.mapM (alphabet.idxOf? ·) = some digits) :
    (digits.takeWhile (· = 0)).length = (s.takeWhile (· = zero)).length := by
  induction s generalizing digits with
  | nil =>
    cases h
    rfl
  | cons a s ih =>
    simp only [List.mapM_cons, Option.pure_def, Option.bind_eq_bind, Option.bind_eq_some_iff,
      Option.some.injEq] at h
    obtain ⟨d, hd, ds, hds, rfl⟩ := h
    have hiff : d = 0 ↔ a = zero := by
      obtain ⟨rest, rfl⟩ := List.head?_eq_some_iff.1 hzero
      rw [List.idxOf?_cons] at hd
      by_cases ha : zero = a
      · simp_all
      · rw [if_neg (by simpa using ha)] at hd
        obtain ⟨i, -, rfl⟩ := Option.map_eq_some_iff.1 hd
        simpa using fun h => ha h.symm
    by_cases ha : a = zero
    · simp [ha, hiff.2 ha, ih hds]
    · have hd0 : d ≠ 0 := fun hd0 => ha (hiff.1 hd0)
      simp [ha, hd0]

end Alphabet

end Numeral
