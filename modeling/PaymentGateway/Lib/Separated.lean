import Mathlib.Data.String.Basic
import Mathlib.Data.List.Basic

/-!
# Separated text

Keys that join fields with a separator. A field that does not contain the separator can be read
back off either end, so a key whose first and last fields are free of it determines all its
fields, whatever the middle one contains. Decimal numerals are free of any separator that is
neither a digit nor a sign.

Cutting a text at the separator and joining the fields again are inverse to each other
(`join_fields`, `fields_join`), as long as there is a field and no field contains the separator.
-/

namespace Separated

variable {α : Type*} {c : α} {a a' b b' : List α}

/-- Reading the first field. -/
theorem append_left (ha : c ∉ a) (ha' : c ∉ a') (h : a ++ c :: b = a' ++ c :: b') :
    a = a' ∧ b = b' := by
  induction a generalizing a' with
  | nil =>
    cases a' with
    | nil => exact ⟨rfl, (List.cons.inj h).2⟩
    | cons x a' => exact absurd ((List.cons.inj h).1 ▸ List.mem_cons_self) ha'
  | cons x a ih =>
    cases a' with
    | nil => exact absurd ((List.cons.inj h).1 ▸ List.mem_cons_self) ha
    | cons y a' =>
      obtain ⟨rfl, hrest⟩ := List.cons.inj h
      obtain ⟨rfl, rfl⟩ := ih (fun hc => ha (List.mem_cons_of_mem _ hc))
        (fun hc => ha' (List.mem_cons_of_mem _ hc)) hrest
      exact ⟨rfl, rfl⟩

/-- Reading the last field. -/
theorem append_right (hb : c ∉ b) (hb' : c ∉ b') (h : a ++ c :: b = a' ++ c :: b') :
    a = a' ∧ b = b' := by
  have hrev : b.reverse ++ c :: a.reverse = b'.reverse ++ c :: a'.reverse := by
    have := congrArg List.reverse h
    simpa using this
  obtain ⟨h1, h2⟩ := append_left (by simpa using hb) (by simpa using hb') hrev
  exact ⟨List.reverse_injective h2, List.reverse_injective h1⟩

/-! ## Fields -/

section Fields

variable {sep : Char}

/-- The fields of a text, cut at every separator. -/
def fields (sep : Char) (text : String) : List String :=
  (text.toList.splitOn sep).map String.ofList

/-- The fields with a separator between any two. -/
def join (sep : Char) (l : List String) : String :=
  String.ofList ([sep].intercalate (l.map String.toList))

theorem join_singleton (field : String) : join sep [field] = field := by
  simp [join]

theorem join_cons_cons (field next : String) (rest : List String) :
    join sep (field :: next :: rest) =
      field ++ (String.singleton sep ++ join sep (next :: rest)) := by
  apply String.toList_injective
  simp [join, List.intercalate]

theorem fields_join {l : List String} (h : ∀ field ∈ l, sep ∉ field.toList) (hne : l ≠ []) :
    fields sep (join sep l) = l := by
  have hmap : ∀ piece ∈ l.map String.toList, sep ∉ piece := by simpa using h
  rw [fields, join, String.toList_ofList, List.splitOn_intercalate sep hmap (by simpa using hne)]
  simp [Function.comp_def]

theorem join_fields (text : String) : join sep (fields sep text) = text := by
  apply String.toList_injective
  rw [join, fields, List.map_map]
  simp [Function.comp_def, List.intercalate_splitOn]

theorem notMem_of_mem_splitOn {α : Type*} [DecidableEq α] {c : α} {piece l : List α}
    (h : piece ∈ l.splitOn c) : c ∉ piece := by
  induction l generalizing piece with
  | nil => simp_all
  | cons x l ih =>
    rw [List.splitOn_cons_eq_if_modifyHead] at h
    by_cases hx : x = c
    · rcases List.mem_cons.1 (by simpa [hx] using h) with rfl | hmem
      · exact List.not_mem_nil
      · exact ih hmem
    · cases hsplit : l.splitOn c with
      | nil => exact absurd hsplit (List.splitOn_ne_nil c l)
      | cons first rest =>
        rw [hsplit] at h ih
        rcases List.mem_cons.1 (by simpa [hx] using h) with rfl | hmem
        · simpa [Ne.symm hx] using ih List.mem_cons_self
        · exact ih (List.mem_cons_of_mem _ hmem)

theorem notMem_of_mem_fields {field text : String} (h : field ∈ fields sep text) :
    sep ∉ field.toList := by
  obtain ⟨piece, hpiece, rfl⟩ := List.mem_map.1 h
  rw [String.toList_ofList]
  exact notMem_of_mem_splitOn hpiece

/-- There is one field more than there are separators. -/
theorem length_fields (sep : Char) (text : String) :
    (fields sep text).length = text.toList.count sep + 1 := by
  rw [fields, List.length_map]
  induction text.toList with
  | nil => simp
  | cons c l ih =>
    rw [List.splitOn_cons_eq_if_modifyHead]
    by_cases hc : c = sep
    · simp [hc, ih]
    · simp [hc, ih]

end Fields

/-! ## Numerals -/

theorem repr_injective {m n : Nat} (h : m.repr = n.repr) : m = n := by
  have hdigits : Nat.toDigits 10 m = Nat.toDigits 10 n := by
    rw [← Nat.toList_repr, ← Nat.toList_repr, h]
  have hm : Nat.ofDigitChars 10 (Nat.toDigits 10 m) 0 = m := Nat.ofDigitChars_ten_toDigits
  have hn : Nat.ofDigitChars 10 (Nat.toDigits 10 n) 0 = n := Nat.ofDigitChars_ten_toDigits
  rw [← hm, hdigits, hn]

theorem notMem_repr {d : Char} (hd : d.isDigit = false) (n : Nat) : d ∉ n.repr.toList := by
  intro hmem
  rw [Nat.toList_repr] at hmem
  have hdigit := Nat.isDigit_of_mem_toDigits (by decide) (by decide) hmem
  rw [hd] at hdigit
  exact Bool.noConfusion hdigit

theorem toList_toString_ofNat (n : Nat) : (toString (Int.ofNat n)).toList = n.repr.toList := rfl

theorem toList_toString_negSucc (n : Nat) :
    (toString (Int.negSucc n)).toList = '-' :: n.succ.repr.toList := by
  show ("-" ++ n.succ.repr).toList = _
  rw [String.toList_append]
  rfl

/-- The numeral of an integer determines it. -/
theorem toString_injective {m n : Int} (h : (toString m).toList = (toString n).toList) :
    m = n := by
  have hminus : ∀ k : Nat, '-' ∉ k.repr.toList := notMem_repr rfl
  cases m with
  | ofNat m =>
    cases n with
    | ofNat n =>
      rw [toList_toString_ofNat, toList_toString_ofNat] at h
      rw [repr_injective (String.toList_injective h)]
    | negSucc n =>
      rw [toList_toString_ofNat, toList_toString_negSucc] at h
      exact absurd (h ▸ List.mem_cons_self) (hminus m)
  | negSucc m =>
    cases n with
    | ofNat n =>
      rw [toList_toString_negSucc, toList_toString_ofNat] at h
      exact absurd (h ▸ List.mem_cons_self) (hminus n)
    | negSucc n =>
      rw [toList_toString_negSucc, toList_toString_negSucc] at h
      have hsucc := repr_injective (String.toList_injective (List.cons.inj h).2)
      rw [Nat.succ.inj hsucc]

/-- A numeral contains neither separators nor letters. -/
theorem notMem_toString {d : Char} (hd : d.isDigit = false) (hsign : d ≠ '-') (n : Int) :
    d ∉ (toString n).toList := by
  cases n with
  | ofNat n =>
    rw [toList_toString_ofNat]
    exact notMem_repr hd n
  | negSucc n =>
    rw [toList_toString_negSucc, List.mem_cons, not_or]
    exact ⟨hsign, notMem_repr hd _⟩

end Separated
