import Mathlib.Algebra.GroupWithZero.Nat
import Mathlib.Data.String.Basic

/-!
# Texts in UTF-16

The length of a text in code units of UTF-16, where a character outside the basic plane counts
twice, and its first units. The length is the number of characters on any text of the basic plane
(`length_eq`).
-/

namespace Utf16

def length (s : List Char) : Nat := (s.map fun c => if c.toNat < 65536 then 1 else 2).sum

@[simp] theorem length_nil : length [] = 0 := rfl

@[simp] theorem length_cons (c : Char) (s : List Char) :
    length (c :: s) = (if c.toNat < 65536 then 1 else 2) + length s := by
  simp [length]

@[simp] theorem length_append (s t : List Char) : length (s ++ t) = length s + length t := by
  simp [length]

theorem length_eq {s : List Char} (h : ∀ c ∈ s, c.toNat < 65536) : length s = s.length := by
  induction s with
  | nil => rfl
  | cons c s ih =>
    rw [length_cons, if_pos (h c List.mem_cons_self), List.length_cons,
      ih fun d hd => h d (List.mem_cons_of_mem _ hd), Nat.add_comm]

/-- The first code units of a text. Half of a pair is written as U+FFFD. -/
def take : Nat → List Char → List Char
  | _, [] => []
  | n, c :: s =>
    if n = 0 then []
    else if c.toNat < 65536 then c :: take (n - 1) s
    else if n = 1 then ['\ufffd']
    else c :: take (n - 2) s

end Utf16
