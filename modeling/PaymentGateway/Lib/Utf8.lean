import Mathlib.Data.String.Basic

/-!
# Text as bytes

The encoding of a text in UTF-8. It determines the text (`encode_injective`), and a text of ASCII
characters takes one byte for each of them (`encode_ascii`).
-/

namespace Utf8

def encode (s : List Char) : List UInt8 := s.flatMap String.utf8EncodeChar

@[simp] theorem encode_append (s t : List Char) : encode (s ++ t) = encode s ++ encode t := by
  simp [encode]

theorem encode_injective {s t : List Char} (h : encode s = encode t) : s = t := by
  have hbytes : s.utf8Encode = t.utf8Encode := congrArg List.toByteArray h
  have hdecode := congrArg ByteArray.utf8Decode? hbytes
  rw [List.utf8Decode?_utf8Encode, List.utf8Decode?_utf8Encode, Option.some.injEq] at hdecode
  exact congrArg Array.toList hdecode

theorem encode_ascii {s : List Char} (h : ∀ c ∈ s, c.toNat < 128) :
    encode s = s.map fun c => UInt8.ofNat c.toNat := by
  induction s with
  | nil => rfl
  | cons c s ih =>
    have hc := h c List.mem_cons_self
    have hsize : c.utf8Size = 1 := Char.utf8Size_eq_one_iff.2 (UInt32.le_iff_toNat_le.2 (by
      show c.toNat ≤ 127
      omega))
    have hrest := ih fun d hd => h d (List.mem_cons_of_mem _ hd)
    unfold encode at hrest ⊢
    rw [List.flatMap_cons, hrest, String.utf8EncodeChar_eq_singleton hsize]
    rfl

end Utf8
