import PaymentGateway.Lib.Hex

/-!
# Addresses of the Internet Protocol as text

The texts that stand for an address of either version, and the numbers they stand for. An address
of version 4 is written in one way. An address of version 6 is written in many: each group with
leading zeros or without, in either case, a run of zero groups as `::`, the last two groups as four
octets, and a zone after a percent sign.

A text of version 6 begins with `::` or with a group and a colon (`groups_first`). Conversely, all
groups can be written out behind any spelling of the first (`groups_written`).
-/

namespace IpText

/-! ## Version 4 -/

def decimal (s : List Char) : Nat := Numeral.value 10 (s.map fun c => c.toNat - '0'.toNat)

/-- A number below 256, without leading zeros. -/
def isOctet (s : List Char) : Bool :=
  s.all Char.isDigit && decide (0 < s.length ∧ s.length ≤ 3) &&
    decide (s.length = 1 ∨ s.head? ≠ some '0') && decide (decimal s < 256)

def octets (s : List Char) : Option (List Nat) :=
  let parts := s.splitOn '.'
  if parts.length = 4 ∧ parts.all isOctet = true then some (parts.map decimal) else none

/-! ## Version 6 -/

def isGroup (s : List Char) : Bool :=
  s.all Hex.isDigit && decide (0 < s.length ∧ s.length ≤ 4)

/-- Octets, two to a group. -/
def pairs : List Nat → List Nat
  | a :: b :: rest => (a * 256 + b) :: pairs rest
  | _ => []

/-- The groups of the pieces between colons. The last piece may be four octets, at the end of the
text. -/
def groupsOf (atEnd : Bool) : List (List Char) → Option (List Nat)
  | [] => some []
  | [piece] =>
    if isGroup piece then some [Hex.value piece]
    else if atEnd then (octets piece).map pairs else none
  | piece :: pieces =>
    if isGroup piece then (groupsOf atEnd pieces).map (Hex.value piece :: ·) else none

/-- What stands before the first `::`, and what stands behind it. -/
def elision : List Char → Option (List Char × List Char)
  | ':' :: ':' :: rest => some ([], rest)
  | c :: rest => (elision rest).map fun sides => (c :: sides.1, sides.2)
  | [] => none

/-- One side of a `::`, which may be empty. -/
def side (atEnd : Bool) (s : List Char) : Option (List Nat) :=
  if s = [] then some [] else groupsOf atEnd (s.splitOn ':')

/-- The eight groups. A `::` stands for one group at least. -/
def groups (s : List Char) : Option (List Nat) :=
  match elision s with
  | none => (groupsOf true (s.splitOn ':')).filter (·.length = 8)
  | some (left, right) => do
    let before ← side false left
    let behind ← side true right
    if before.length + behind.length ≤ 7 then
      some (before ++ List.replicate (8 - (before.length + behind.length)) 0 ++ behind)
    else none

def isZoneLetter (c : Char) : Bool := c.isAlphanum || c = '-' || c = '.' || c = ':'

/-- The groups of a text that may name a zone. -/
def zonedGroups (s : List Char) : Option (List Nat) :=
  match s.dropWhile (· ≠ '%') with
  | [] => groups s
  | _ :: zone =>
    if zone ≠ [] ∧ zone.all isZoneLetter = true then groups (s.takeWhile (· ≠ '%')) else none

/-- The version of an address, and zero for any other text. -/
def isIP (s : List Char) : Nat :=
  if (octets s).isSome then 4 else if (zonedGroups s).isSome then 6 else 0

example : zonedGroups "fe80::1.2.3.4%eth0".toList = some [0xfe80, 0, 0, 0, 0, 0, 0x102, 0x304] := by
  decide +kernel

/-! ## The first group -/

theorem isGroup_iff {s : List Char} :
    isGroup s = true ↔ (∀ c ∈ s, Hex.isDigit c = true) ∧ 0 < s.length ∧ s.length ≤ 4 := by
  simp [isGroup]

theorem colon_notMem_group {s : List Char} (h : isGroup s = true) : ':' ∉ s := by
  intro hmem
  exact absurd ((isGroup_iff.1 h).1 ':' hmem) (by decide)

theorem elision_eq_some {s left right : List Char} (h : elision s = some (left, right)) :
    s = left ++ ':' :: ':' :: right := by
  induction s using elision.induct generalizing left with
  | case1 rest =>
    rw [elision, Option.some.injEq, Prod.mk.injEq] at h
    obtain ⟨rfl, rfl⟩ := h
    rfl
  | case2 c rest hno ih =>
    rw [elision] at h
    · obtain ⟨⟨left', right'⟩, hrest, heq⟩ := Option.map_eq_some_iff.1 h
      obtain ⟨rfl, rfl⟩ := Prod.mk.inj heq
      rw [ih hrest]
      rfl
    · exact hno
  | case3 => cases h

theorem octets_eq_some {s : List Char} {os : List Nat} (h : octets s = some os) :
    (s.splitOn '.').length = 4 ∧ (∀ piece ∈ s.splitOn '.', isOctet piece = true) ∧
      os = (s.splitOn '.').map decimal := by
  unfold octets at h
  dsimp only at h
  split_ifs at h with hparts
  rw [List.all_eq_true] at hparts
  exact ⟨hparts.1, hparts.2, (Option.some.inj h).symm⟩

theorem octets_length {s : List Char} {os : List Nat} (h : octets s = some os) :
    os.length = 4 := by
  obtain ⟨hlength, -, rfl⟩ := octets_eq_some h
  rw [List.length_map, hlength]

theorem octets_lt {s : List Char} {os : List Nat} (h : octets s = some os) :
    ∀ o ∈ os, o < 256 := by
  obtain ⟨-, hall, rfl⟩ := octets_eq_some h
  intro o ho
  obtain ⟨piece, hpiece, rfl⟩ := List.mem_map.1 ho
  have hoctet := hall piece hpiece
  simp only [isOctet, Bool.and_eq_true, decide_eq_true_eq] at hoctet
  exact hoctet.2

theorem pairs_length {os : List Nat} (h : os.length = 4) : (pairs os).length = 2 := by
  match os, h with
  | [a, b, c, d], _ => rfl

/-- The pieces begin with a spelling of the first group. -/
theorem groupsOf_first {atEnd : Bool} {s : List Char} {gs : List Nat}
    (h : groupsOf atEnd (s.splitOn ':') = some gs) (hlength : atEnd = true → 2 < gs.length) :
    ∃ piece, isGroup piece = true ∧ gs.head? = some (Hex.value piece) ∧
      (s = piece ∨ ∃ rest, s = piece ++ ':' :: rest) := by
  have hjoin : [':'].intercalate (s.splitOn ':') = s := List.intercalate_splitOn ':'
  cases hpieces : s.splitOn ':' with
  | nil => exact absurd hpieces (List.splitOn_ne_nil ':' s)
  | cons piece pieces =>
    rw [hpieces] at h hjoin
    cases pieces with
    | nil =>
      unfold groupsOf at h
      split_ifs at h with hgroup hend
      · rw [← Option.some.inj h]
        exact ⟨piece, hgroup, rfl, Or.inl (by simpa using hjoin.symm)⟩
      · obtain ⟨os, hos, rfl⟩ := Option.map_eq_some_iff.1 h
        have htwo := pairs_length (octets_length hos)
        have hmore := hlength hend
        omega
    | cons next pieces =>
      rw [groupsOf] at h
      · split_ifs at h with hgroup
        obtain ⟨rest, -, rfl⟩ := Option.map_eq_some_iff.1 h
        refine ⟨piece, hgroup, rfl, Or.inr ⟨[':'].intercalate (next :: pieces), ?_⟩⟩
        rw [← hjoin]
        simp
      · simp

theorem groupsOf_single {atEnd : Bool} {piece : List Char} (h : isGroup piece = true) :
    groupsOf atEnd (piece.splitOn ':') = some [Hex.value piece] := by
  rw [List.splitOn_eq_singleton (colon_notMem_group h), groupsOf, if_pos h]

/-- What `::` makes of its two sides. -/
theorem groups_elided {s left right : List Char} {gs : List Nat}
    (hsides : elision s = some (left, right)) : groups s = some gs ↔
      ∃ before behind, side false left = some before ∧ side true right = some behind ∧
        before.length + behind.length ≤ 7 ∧
        gs = before ++ List.replicate (8 - (before.length + behind.length)) 0 ++ behind := by
  unfold groups
  rw [hsides]
  simp only [Option.bind_eq_bind, Option.bind_eq_some_iff, Option.ite_none_right_eq_some,
    Option.some.injEq]
  constructor
  · rintro ⟨before, hbefore, behind, hbehind, hfew, rfl⟩
    exact ⟨before, behind, hbefore, hbehind, hfew, rfl⟩
  · rintro ⟨before, behind, hbefore, hbehind, hfew, rfl⟩
    exact ⟨before, hbefore, behind, hbehind, hfew, rfl⟩

/-- A text begins with `::`, and the first group is zero, or with a group and a colon. -/
theorem groups_first {s : List Char} {gs : List Nat} (h : groups s = some gs) :
    (∃ rest, s = ':' :: ':' :: rest ∧ gs.head? = some 0) ∨
      ∃ piece rest, s = piece ++ ':' :: rest ∧ isGroup piece = true ∧
        gs.head? = some (Hex.value piece) := by
  cases hsides : elision s with
  | none =>
    unfold groups at h
    rw [hsides] at h
    obtain ⟨hgroups, hlength⟩ := Option.filter_eq_some_iff.1 h
    rw [decide_eq_true_eq] at hlength
    obtain ⟨piece, hpiece, hhead, hwhole⟩ := groupsOf_first hgroups fun _ => by omega
    rcases hwhole with rfl | ⟨rest, rfl⟩
    · rw [groupsOf_single hpiece, Option.some.injEq] at hgroups
      rw [← hgroups] at hlength
      cases hlength
    · exact Or.inr ⟨piece, rest, rfl, hpiece, hhead⟩
  | some sides =>
    obtain ⟨left, right⟩ := sides
    obtain ⟨before, behind, hbefore, -, hfew, rfl⟩ := (groups_elided hsides).1 h
    have htext := elision_eq_some hsides
    by_cases hleft : left = []
    · subst hleft
      obtain rfl : [] = before := by simpa [side] using hbefore
      obtain ⟨k, hk⟩ : ∃ k, 8 - (([] : List Nat).length + behind.length) = k + 1 :=
        ⟨7 - behind.length, by simp at hfew ⊢; omega⟩
      refine Or.inl ⟨right, htext, ?_⟩
      rw [hk]
      rfl
    · rw [side, if_neg hleft] at hbefore
      obtain ⟨piece, hpiece, hhead, hwhole⟩ := groupsOf_first hbefore (by simp)
      have hfirst : (before ++ List.replicate (8 - (before.length + behind.length)) 0 ++
          behind).head? = some (Hex.value piece) := by
        rw [List.append_assoc, List.head?_append, hhead]
        rfl
      rcases hwhole with rfl | ⟨rest, rfl⟩
      · exact Or.inr ⟨left, ':' :: right, htext, hpiece, hfirst⟩
      · exact Or.inr ⟨piece, rest ++ ':' :: ':' :: right, by simpa using htext, hpiece, hfirst⟩

/-! ## Well-formed values -/

/-! ## All groups written out -/

def hexDigits : List Char := "0123456789abcdef".toList

/-- The last digits of a number. -/
def hexText : Nat → Nat → List Char
  | 0, _ => []
  | k + 1, n => hexText k (n / 16) ++ [hexDigits.getD (n % 16) '0']

theorem hexDigits_value : ∀ d < 16, Hex.isDigit (hexDigits.getD d '0') = true ∧
    Hex.digitValue (hexDigits.getD d '0') = d := by decide +kernel

theorem hexText_spec (k n : Nat) : (hexText k n).length = k ∧
    (∀ c ∈ hexText k n, Hex.isDigit c = true) ∧ Hex.value (hexText k n) = n % 16 ^ k := by
  induction k generalizing n with
  | zero => simp [hexText, Hex.value, Nat.mod_one]
  | succ k ih =>
    obtain ⟨hlength, hdigits, hvalue⟩ := ih (n / 16)
    obtain ⟨hdigit, hlast⟩ := hexDigits_value (n % 16) (Nat.mod_lt _ (by decide))
    refine ⟨by simp [hexText, hlength], ?_, ?_⟩
    · intro c hc
      rcases List.mem_append.1 hc with hc | hc
      · exact hdigits c hc
      · rw [List.mem_singleton.1 hc]
        exact hdigit
    · rw [Hex.value_eq] at hvalue ⊢
      rw [hexText, List.map_append, List.map_singleton, Numeral.value_concat, hvalue, hlast,
        Nat.pow_succ, Nat.mul_comm (16 ^ k), Nat.mod_mul]
      omega

theorem isGroup_hexText {k : Nat} (hpos : 0 < k) (hk : k ≤ 4) (n : Nat) :
    isGroup (hexText k n) = true := by
  obtain ⟨hlength, hdigits, -⟩ := hexText_spec k n
  exact isGroup_iff.2 ⟨hdigits, by omega⟩

theorem value_hexText {n : Nat} (h : n < 2 ^ 16) : Hex.value (hexText 4 n) = n := by
  rw [(hexText_spec 4 n).2.2]
  exact Nat.mod_eq_of_lt h

theorem elision_of_pieces {pieces : List (List Char)} (hne : pieces ≠ [])
    (h : ∀ piece ∈ pieces, isGroup piece = true) : elision ([':'].intercalate pieces) = none := by
  by_contra hsome
  obtain ⟨⟨left, right⟩, hsides⟩ := Option.ne_none_iff_exists'.1 hsome
  have htext := elision_eq_some hsides
  have hsplit := List.splitOn_intercalate ':' (fun piece hp => colon_notMem_group (h piece hp)) hne
  rw [htext, List.splitOn_append_cons_self] at hsplit
  have hempty : [] ∈ pieces := by
    rw [← hsplit]
    simp [List.splitOn_cons_eq_if_modifyHead]
  have hpos := (isGroup_iff.1 (h [] hempty)).2.1
  simp at hpos

theorem groupsOf_groups {atEnd : Bool} {pieces : List (List Char)}
    (h : ∀ piece ∈ pieces, isGroup piece = true) :
    groupsOf atEnd pieces = some (pieces.map Hex.value) := by
  induction pieces with
  | nil => rfl
  | cons piece pieces ih =>
    have hpiece := h piece List.mem_cons_self
    have hrest := ih fun p hp => h p (List.mem_cons_of_mem _ hp)
    cases pieces with
    | nil => rw [groupsOf, if_pos hpiece]; rfl
    | cons next pieces =>
      rw [groupsOf, if_pos hpiece, hrest]
      · rfl
      · simp

/-- Eight groups between colons. -/
theorem groups_of_pieces {pieces : List (List Char)} (hlength : pieces.length = 8)
    (h : ∀ piece ∈ pieces, isGroup piece = true) :
    groups ([':'].intercalate pieces) = some (pieces.map Hex.value) := by
  have hne : pieces ≠ [] := by
    intro hnil
    rw [hnil] at hlength
    cases hlength
  unfold groups
  rw [elision_of_pieces hne h, List.splitOn_intercalate ':'
    (fun piece hp => colon_notMem_group (h piece hp)) hne, groupsOf_groups h]
  simp [hlength]

/-- The groups of a value, the first in any spelling and the others with all their zeros. -/
def written (first : List Char) (others : List Nat) : List Char :=
  [':'].intercalate (first :: others.map (hexText 4))

theorem written_pieces {first : List Char} {others : List Nat} (h : isGroup first = true) :
    ∀ piece ∈ first :: others.map (hexText 4), isGroup piece = true := by
  intro piece hp
  rcases List.mem_cons.1 hp with rfl | hp
  · exact h
  · obtain ⟨g, -, rfl⟩ := List.mem_map.1 hp
    exact isGroup_hexText (by decide) (by decide) g

theorem groups_written {first : List Char} {others : List Nat} (hfirst : isGroup first = true)
    (hlength : others.length = 7) (hothers : ∀ g ∈ others, g < 2 ^ 16) :
    groups (written first others) = some (Hex.value first :: others) := by
  unfold written
  rw [groups_of_pieces (by simp [hlength]) (written_pieces hfirst), List.map_cons, List.map_map]
  congr 2
  exact (List.map_congr_left fun g hg => value_hexText (hothers g hg)).trans (List.map_id _)

/-! ## Letters -/

theorem mem_splitOn {sep c : Char} {s : List Char} (h : c ∈ s) (hne : c ≠ sep) :
    ∃ piece ∈ s.splitOn sep, c ∈ piece := by
  induction s with
  | nil => simp at h
  | cons x s ih =>
    rw [List.splitOn_cons_eq_if_modifyHead]
    by_cases hx : x = sep
    · have hc : c ∈ s := (List.mem_cons.1 h).resolve_left fun heq => hne (heq.trans hx)
      obtain ⟨piece, hpiece, hmem⟩ := ih hc
      exact ⟨piece, by simp [hx, hpiece], hmem⟩
    · cases hsplit : s.splitOn sep with
      | nil => exact absurd hsplit (List.splitOn_ne_nil sep s)
      | cons first pieces =>
        have hbeq : (x == sep) = false := by simpa using hx
        rw [hbeq]
        rcases List.mem_cons.1 h with rfl | hc
        · exact ⟨c :: first, by simp, by simp⟩
        · obtain ⟨piece, hpiece, hmem⟩ := ih hc
          rw [hsplit] at hpiece
          rcases List.mem_cons.1 hpiece with rfl | hpiece
          · exact ⟨x :: piece, by simp, List.mem_cons_of_mem _ hmem⟩
          · exact ⟨piece, by simp [hpiece], hmem⟩

theorem octets_letters {s : List Char} {os : List Nat} (h : octets s = some os) :
    ∀ c ∈ s, c = '.' ∨ c.isDigit = true := by
  intro c hc
  by_cases hdot : c = '.'
  · exact Or.inl hdot
  · obtain ⟨piece, hpiece, hmem⟩ := mem_splitOn hc hdot
    have hoctet := (octets_eq_some h).2.1 piece hpiece
    simp only [isOctet, Bool.and_eq_true, List.all_eq_true] at hoctet
    exact Or.inr (hoctet.1.1.1 c hmem)

/-- No text is of both versions. -/
theorem octets_of_colon {s : List Char} (h : ':' ∈ s) : octets s = none := by
  by_contra hsome
  obtain ⟨os, hos⟩ := Option.ne_none_iff_exists'.1 hsome
  rcases octets_letters hos ':' h with hdot | hdigit
  · exact absurd hdot (by decide)
  · exact absurd hdigit (by decide)

/-! ## Zones -/

theorem zonedGroups_eq_some {s : List Char} {gs : List Nat} (h : zonedGroups s = some gs) :
    ∃ body zone, s = body ++ zone ∧ groups body = some gs := by
  unfold zonedGroups at h
  split at h
  · exact ⟨s, [], by simp, h⟩
  · split_ifs at h
    exact ⟨_, _, List.takeWhile_append_dropWhile.symm, h⟩

theorem zonedGroups_of_notMem {s : List Char} (h : '%' ∉ s) : zonedGroups s = groups s := by
  have hnone : s.dropWhile (· ≠ '%') = [] := by
    rw [List.dropWhile_eq_nil_iff]
    intro c hc
    have hne : c ≠ '%' := fun heq => h (heq ▸ hc)
    simpa using hne
  unfold zonedGroups
  rw [hnone]

theorem colon_mem {s : List Char} {gs : List Nat} (h : zonedGroups s = some gs) : ':' ∈ s := by
  obtain ⟨body, zone, rfl, hgroups⟩ := zonedGroups_eq_some h
  rcases groups_first hgroups with ⟨rest, rfl, -⟩ | ⟨piece, rest, rfl, -, -⟩ <;> simp

theorem isIP_of_octets {s : List Char} {os : List Nat} (h : octets s = some os) : isIP s = 4 := by
  simp [isIP, h]

theorem isIP_of_zonedGroups {s : List Char} {gs : List Nat} (h : zonedGroups s = some gs) :
    isIP s = 6 := by
  simp [isIP, h, octets_of_colon (colon_mem h)]

theorem octets_of_isIP {s : List Char} (h : isIP s = 4) : ∃ os, octets s = some os := by
  unfold isIP at h
  by_cases hsome : (octets s).isSome = true
  · exact Option.isSome_iff_exists.1 hsome
  · rw [if_neg hsome] at h
    exact absurd h (by split_ifs <;> decide)

/-! ## Octets behind a group -/

theorem dot_mem {s : List Char} {os : List Nat} (h : octets s = some os) : '.' ∈ s := by
  by_contra hdot
  have hlength := (octets_eq_some h).1
  rw [List.splitOn_eq_singleton hdot] at hlength
  cases hlength

/-- A value whose last two groups are octets, behind one other group. -/
theorem groups_mapped {group dotted : List Char} {os : List Nat} (hgroup : isGroup group = true)
    (hos : octets dotted = some os) : groups (':' :: ':' :: group ++ ':' :: dotted) =
      some (List.replicate 5 0 ++ Hex.value group :: pairs os) := by
  have hcolon : ':' ∉ dotted := by
    intro hmem
    rw [octets_of_colon hmem] at hos
    cases hos
  have hnot : isGroup dotted = false := by
    by_contra h
    rw [Bool.not_eq_false] at h
    exact absurd ((isGroup_iff.1 h).1 '.' (dot_mem hos)) (by decide)
  have hbehind : side true (group ++ ':' :: dotted) = some (Hex.value group :: pairs os) := by
    rw [side, if_neg (by simp), List.splitOn_append_cons_self_of_not_mem
      (colon_notMem_group hgroup), List.splitOn_eq_singleton hcolon, groupsOf, if_pos hgroup,
      groupsOf, hnot, hos]
    · rfl
    · simp
  have hpairs := pairs_length (octets_length hos)
  have hsides : elision (':' :: ':' :: group ++ ':' :: dotted) =
      some ([], group ++ ':' :: dotted) := rfl
  refine (groups_elided hsides).2 ⟨[], _, rfl, hbehind, ?_, ?_⟩
  · simp [hpairs]
  · simp [hpairs]

/-! ## Written values -/

theorem notMem_of_pieces {c : Char} {pieces : List (List Char)} (hne : pieces ≠ [])
    (h : ∀ piece ∈ pieces, isGroup piece = true) (hc : Hex.isDigit c = false) (hcolon : c ≠ ':') :
    c ∉ [':'].intercalate pieces := by
  intro hmem
  obtain ⟨piece, hpiece, hin⟩ := mem_splitOn hmem hcolon
  rw [List.splitOn_intercalate ':' (fun p hp => colon_notMem_group (h p hp)) hne] at hpiece
  rw [(isGroup_iff.1 (h piece hpiece)).1 c hin] at hc
  cases hc

theorem zonedGroups_written {first : List Char} {others : List Nat} (hfirst : isGroup first = true)
    (hlength : others.length = 7) (hothers : ∀ g ∈ others, g < 2 ^ 16) :
    zonedGroups (written first others) = some (Hex.value first :: others) := by
  rw [zonedGroups_of_notMem, groups_written hfirst hlength hothers]
  exact notMem_of_pieces (by simp) (written_pieces hfirst) (by decide) (by decide)

theorem written_eq_append (first : List Char) {others : List Nat} (hlength : others.length = 7) :
    ∃ rest, written first others = first ++ ':' :: rest := by
  cases others with
  | nil => cases hlength
  | cons g others =>
    refine ⟨[':'].intercalate (hexText 4 g :: others.map (hexText 4)), ?_⟩
    simp [written]

/-! ## Addresses -/

structure IPv4 where
  octets : List Nat
  length_eq : octets.length = 4
  octet_lt : ∀ o ∈ octets, o < 256

def IPv4.value (a : IPv4) : Nat := Numeral.value 256 a.octets

structure IPv6 where
  groups : List Nat
  length_eq : groups.length = 8
  group_lt : ∀ g ∈ groups, g < 2 ^ 16

def IPv6.value (a : IPv6) : Nat := Numeral.value (2 ^ 16) a.groups

/-- The groups that stand for an address of version 4 in version 6. -/
def IPv4.mapped (a : IPv4) : List Nat := List.replicate 5 0 ++ 0xffff :: pairs a.octets

inductive IpAddress
  | v4 (a : IPv4)
  | v6 (a : IPv6)

def Spells (s : List Char) : IpAddress → Prop
  | .v4 a => octets s = some a.octets
  | .v6 a => zonedGroups s = some a.groups

instance (s : List Char) : (a : IpAddress) → Decidable (Spells s a)
  | .v4 a => inferInstanceAs (Decidable (octets s = some a.octets))
  | .v6 a => inferInstanceAs (Decidable (zonedGroups s = some a.groups))

/-- The addresses that begin with the bits of a network. -/
structure Range where
  network : Nat
  length : Nat

def Range.Contains (bits : Nat) (r : Range) (value : Nat) : Prop :=
  value / 2 ^ (bits - r.length) = r.network

instance (bits : Nat) (r : Range) (value : Nat) : Decidable (r.Contains bits value) :=
  inferInstanceAs (Decidable (_ = _))

end IpText
