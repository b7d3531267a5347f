import PaymentGateway.Lib.Hex

/-!
# Objects of texts in JSON

The JSON text of an object whose values are texts. The values are quoted with the escapes that JSON
needs and no others. A quoted text is read off the front of any text that begins with it
(`quote_append_inj`), so an object with given keys determines its values (`object_inj`).
-/

namespace Json

/-- A character within quotes. -/
def escape (c : Char) : List Char :=
  if c = '"' then ['\\', '"']
  else if c = '\\' then ['\\', '\\']
  else if c.toNat = 8 then ['\\', 'b']
  else if c.toNat = 9 then ['\\', 't']
  else if c.toNat = 10 then ['\\', 'n']
  else if c.toNat = 12 then ['\\', 'f']
  else if c.toNat = 13 then ['\\', 'r']
  else if c.toNat < 32 then
    ['\\', 'u', '0', '0', Hex.digit (c.toNat / 16), Hex.digit (c.toNat % 16)]
  else [c]

def quote (text : List Char) : List Char := '"' :: (text.flatMap escape ++ ['"'])

/-- The members of an object, with a comma between any two. -/
def members : List (String × String) → List Char
  | [] => []
  | [(key, value)] => quote key.toList ++ ':' :: quote value.toList
  | (key, value) :: rest =>
    quote key.toList ++ ':' :: (quote value.toList ++ ',' :: members rest)

def object (fields : List (String × String)) : String :=
  String.ofList ('\x7b' :: (members fields ++ ['\x7d']))

/-! ## Reading -/

/-- The first character within quotes, and what follows it. -/
def unescape : List Char → Option (Char × List Char)
  | '\\' :: 'u' :: '0' :: '0' :: high :: low :: rest =>
    some (Char.ofNat (16 * Hex.digitValue high + Hex.digitValue low), rest)
  | '\\' :: c :: rest =>
    if c = '"' then some ('"', rest)
    else if c = '\\' then some ('\\', rest)
    else if c = 'b' then some (Char.ofNat 8, rest)
    else if c = 't' then some (Char.ofNat 9, rest)
    else if c = 'n' then some (Char.ofNat 10, rest)
    else if c = 'f' then some (Char.ofNat 12, rest)
    else if c = 'r' then some (Char.ofNat 13, rest)
    else none
  | c :: rest => if c = '"' then none else some (c, rest)
  | [] => none

theorem unescape_escape (c : Char) (rest : List Char) :
    unescape (escape c ++ rest) = some (c, rest) := by
  have hcode : ∀ n, c.toNat = n → Char.ofNat n = c := by
    intro n hn
    rw [← hn, Char.ofNat_toNat]
  unfold escape
  split_ifs with hquote hbackslash h8 h9 h10 h12 h13 hcontrol
  · rw [hquote]
    rfl
  · rw [hbackslash]
    rfl
  · rw [← hcode 8 h8]
    rfl
  · rw [← hcode 9 h9]
    rfl
  · rw [← hcode 10 h10]
    rfl
  · rw [← hcode 12 h12]
    rfl
  · rw [← hcode 13 h13]
    rfl
  · have hvalue : 16 * (c.toNat / 16) + c.toNat % 16 = c.toNat := Nat.div_add_mod _ _
    show some (Char.ofNat (16 * Hex.digitValue (Hex.digit (c.toNat / 16)) +
      Hex.digitValue (Hex.digit (c.toNat % 16))), rest) = _
    rw [Hex.digitValue_digit (by omega), Hex.digitValue_digit (by omega), hvalue, Char.ofNat_toNat]
  · rw [List.singleton_append, unescape]
    · rw [if_neg hquote]
    · exact fun _ _ _ heq _ => absurd heq hbackslash
    · exact fun _ _ heq _ => absurd heq hbackslash

/-- Escaped text up to the closing quote is read off the front. -/
theorem flatMap_escape_inj {s t x y : List Char}
    (h : s.flatMap escape ++ '"' :: x = t.flatMap escape ++ '"' :: y) : s = t ∧ x = y := by
  induction s generalizing t with
  | nil =>
    cases t with
    | nil => exact ⟨rfl, (List.cons.inj h).2⟩
    | cons d t =>
      have hread := congrArg unescape h
      rw [List.flatMap_cons, List.append_assoc, unescape_escape] at hread
      cases hread
  | cons c s ih =>
    cases t with
    | nil =>
      have hread := congrArg unescape h
      rw [List.flatMap_cons, List.append_assoc, unescape_escape] at hread
      cases hread
    | cons d t =>
      have hread := congrArg unescape h
      rw [List.flatMap_cons, List.flatMap_cons, List.append_assoc, List.append_assoc,
        unescape_escape, unescape_escape, Option.some.injEq, Prod.mk.injEq] at hread
      obtain ⟨rfl, hrest⟩ := hread
      obtain ⟨rfl, rfl⟩ := ih hrest
      exact ⟨rfl, rfl⟩

/-- A quoted text is read off the front. -/
theorem quote_append_inj {s t x y : List Char} (h : quote s ++ x = quote t ++ y) :
    s = t ∧ x = y := by
  have htail : (s.flatMap escape ++ ['"']) ++ x = (t.flatMap escape ++ ['"']) ++ y :=
    (List.cons.inj h).2
  rw [List.append_assoc, List.append_assoc] at htail
  exact flatMap_escape_inj htail

/-! ## Objects -/

theorem members_inj {keys : List String} {values values' : List String}
    (hlength : values.length = keys.length) (hlength' : values'.length = keys.length)
    (h : members (keys.zip values) = members (keys.zip values')) : values = values' := by
  induction keys generalizing values values' with
  | nil => rw [List.length_eq_zero_iff.1 hlength, List.length_eq_zero_iff.1 hlength']
  | cons key keys ih =>
    cases values with
    | nil => cases hlength
    | cons value values =>
      cases values' with
      | nil => cases hlength'
      | cons value' values' =>
        have hl := Nat.succ.inj hlength
        have hl' := Nat.succ.inj hlength'
        rw [List.zip_cons_cons, List.zip_cons_cons] at h
        cases keys with
        | nil =>
          obtain ⟨-, htail⟩ := quote_append_inj h
          have hvalue : quote value.toList ++ [] = quote value'.toList ++ [] := by
            rw [List.append_nil, List.append_nil]
            exact (List.cons.inj htail).2
          rw [String.toList_injective (quote_append_inj hvalue).1,
            List.length_eq_zero_iff.1 hl, List.length_eq_zero_iff.1 hl']
        | cons key' keys =>
          cases values with
          | nil => cases hl
          | cons next values =>
            cases values' with
            | nil => cases hl'
            | cons next' values' =>
              obtain ⟨-, htail⟩ := quote_append_inj h
              obtain ⟨hvalue, hrest⟩ := quote_append_inj (List.cons.inj htail).2
              rw [String.toList_injective hvalue, ih hl hl' (List.cons.inj hrest).2]

/-- The text of an object with given keys determines its values. -/
theorem object_inj {keys values values' : List String} (hlength : values.length = keys.length)
    (hlength' : values'.length = keys.length)
    (h : object (keys.zip values) = object (keys.zip values')) : values = values' := by
  have hmembers := (List.cons.inj (String.ofList_injective h)).2
  exact members_inj hlength hlength' (List.append_cancel_right hmembers)

example : object [("a", "1"), ("b", "x\"\n")] =
    "\x7b\"a\":\"1\",\"b\":\"x\\\"\\n\"\x7d" := by decide

end Json
