import Mathlib.Data.List.TakeWhile
import Mathlib.Data.String.Basic

/-!
# Base64

Bytes as groups of six bits. Printing uses the alphabet for URLs without padding; reading takes
either alphabet, skips every other character and ends at the padding. Reading what was printed gives
the bytes again (`decode_encode`).
-/

namespace Base64

/-- The groups of six bits. The last one is filled up with zeros. -/
def sextets : List UInt8 → List Nat
  | a :: b :: c :: rest =>
    a.toNat / 4 :: (a.toNat % 4 * 16 + b.toNat / 16) :: (b.toNat % 16 * 4 + c.toNat / 64) ::
      c.toNat % 64 :: sextets rest
  | [a, b] => [a.toNat / 4, a.toNat % 4 * 16 + b.toNat / 16, b.toNat % 16 * 4]
  | [a] => [a.toNat / 4, a.toNat % 4 * 16]
  | [] => []

/-- The bytes of groups of six bits. What does not fill a byte is dropped. -/
def bytesOf : List Nat → List UInt8
  | w :: x :: y :: z :: rest =>
    UInt8.ofNat (w * 4 + x / 16) :: UInt8.ofNat (x % 16 * 16 + y / 4) ::
      UInt8.ofNat (y % 4 * 64 + z) :: bytesOf rest
  | [w, x, y] => [UInt8.ofNat (w * 4 + x / 16), UInt8.ofNat (x % 16 * 16 + y / 4)]
  | [w, x] => [UInt8.ofNat (w * 4 + x / 16)]
  | _ => []

/-- The character of a group in the alphabet for URLs. -/
def digit (n : Nat) : Char :=
  if n < 26 then Char.ofNat (n + 65)
  else if n < 52 then Char.ofNat (n + 71)
  else if n < 62 then Char.ofNat (n - 4)
  else if n = 62 then '-'
  else '_'

/-- The group of a character of either alphabet. -/
def sextet (c : Char) : Option Nat :=
  if 65 ≤ c.toNat ∧ c.toNat ≤ 90 then some (c.toNat - 65)
  else if 97 ≤ c.toNat ∧ c.toNat ≤ 122 then some (c.toNat - 71)
  else if 48 ≤ c.toNat ∧ c.toNat ≤ 57 then some (c.toNat + 4)
  else if c = '+' ∨ c = '-' then some 62
  else if c = '/' ∨ c = '_' then some 63
  else none

def encode (bytes : List UInt8) : List Char := (sextets bytes).map digit

def decode (text : List Char) : List UInt8 :=
  bytesOf ((text.takeWhile (· ≠ '=')).filterMap sextet)

theorem bytesOf_sextets (bytes : List UInt8) : bytesOf (sextets bytes) = bytes := by
  have hbyte : ∀ (a : UInt8) (n : Nat), n = a.toNat → UInt8.ofNat n = a := by
    intro a n hn
    rw [hn, UInt8.ofNat_toNat]
  induction bytes using sextets.induct with
  | case1 a b c rest ih =>
    have hb := b.toNat_lt
    have hc := c.toNat_lt
    rw [sextets, bytesOf, ih, hbyte a _ (by omega), hbyte b _ (by omega), hbyte c _ (by omega)]
  | case2 a b =>
    have hb := b.toNat_lt
    rw [sextets, bytesOf, hbyte a _ (by omega), hbyte b _ (by omega)]
  | case3 a => rw [sextets, bytesOf, hbyte a _ (by omega)]
  | case4 => rfl

theorem lt_of_mem_sextets {bytes : List UInt8} {n : Nat} (h : n ∈ sextets bytes) : n < 64 := by
  induction bytes using sextets.induct with
  | case1 a b c rest ih =>
    have ha := a.toNat_lt
    have hb := b.toNat_lt
    have hc := c.toNat_lt
    simp only [sextets, List.mem_cons] at h
    rcases h with rfl | rfl | rfl | rfl | hrest
    · omega
    · omega
    · omega
    · omega
    · exact ih hrest
  | case2 a b =>
    have ha := a.toNat_lt
    have hb := b.toNat_lt
    simp only [sextets, List.mem_cons, List.not_mem_nil, or_false] at h
    omega
  | case3 a =>
    have ha := a.toNat_lt
    simp only [sextets, List.mem_cons, List.not_mem_nil, or_false] at h
    omega
  | case4 => cases h

theorem sextet_digit {n : Nat} (h : n < 64) : sextet (digit n) = some n := by
  have hall : ∀ n < 64, sextet (digit n) = some n := by decide
  exact hall n h

theorem decode_encode (bytes : List UInt8) : decode (encode bytes) = bytes := by
  have hpadding : ∀ n < 64, digit n ≠ '=' := by decide
  have hkept : (encode bytes).takeWhile (· ≠ '=') = encode bytes := by
    refine List.takeWhile_eq_self_iff.2 fun c hc => ?_
    obtain ⟨n, hn, rfl⟩ := List.mem_map.1 hc
    exact decide_eq_true (hpadding n (lt_of_mem_sextets hn))
  have hread : (encode bytes).filterMap sextet = sextets bytes := by
    rw [encode, List.filterMap_map]
    refine (List.filterMap_congr fun n hn => ?_).trans List.filterMap_some
    exact sextet_digit (lt_of_mem_sextets hn)
  rw [decode, hkept, hread, bytesOf_sextets]

theorem length_sextets (bytes : List UInt8) :
    (sextets bytes).length = (8 * bytes.length + 5) / 6 := by
  induction bytes using sextets.induct with
  | case1 a b c rest ih =>
    simp only [sextets, List.length_cons, ih]
    omega
  | case2 | case3 | case4 => simp [sextets]

theorem length_encode (bytes : List UInt8) : (encode bytes).length = (8 * bytes.length + 5) / 6 := by
  rw [encode, List.length_map, length_sextets]

theorem mem_encode {bytes : List UInt8} {c : Char} (h : c ∈ encode bytes) :
    c.isAlphanum = true ∨ c = '-' ∨ c = '_' := by
  have hdigit : ∀ n < 64, (digit n).isAlphanum = true ∨ digit n = '-' ∨ digit n = '_' := by decide
  obtain ⟨n, hn, rfl⟩ := List.mem_map.1 h
  exact hdigit n (lt_of_mem_sextets hn)

/-- The text has only characters of the alphabet. -/
theorem stop_notMem_encode (bytes : List UInt8) : '.' ∉ encode bytes := by
  have hstop : ∀ n < 64, digit n ≠ '.' := by decide
  intro hmem
  obtain ⟨n, hn, hdigit⟩ := List.mem_map.1 hmem
  exact hstop n (lt_of_mem_sextets hn) hdigit

end Base64
