import PaymentGateway.Lib.IpText
import PaymentGateway.Lib.Separated
import PaymentGateway.Shared.Asset

/-!
# The guard against private webhook addresses

`isPrivateAddress` decides by the letters of an address. Its verdict is one for all spellings of the
address, and it covers the ranges that the guard names, exactly for the addresses outside `Slips`
(`isPrivateAddress_sound_iff`). The proof reads the verdict off the first group as it is spelled
(`isPrivateIPv6_first`): with all four digits the letters are those of the number, and every address
has such a spelling.
-/

namespace PaymentGateway

namespace SsrfGuard

open IpText

/-! ## The guard -/

/-- `Number` on the texts that digits alone make up; any other text is taken for no number. -/
def number (part : List Char) : Option Nat :=
  if part.all Char.isDigit = true then some (decimal part) else none

def isPrivateIPv4 (ip : List Char) : Bool :=
  match (ip.splitOn '.').map number with
  | [some a, some b, some _, some _] =>
    if a = 0 then true
    else if a = 10 then true
    else if a = 127 then true
    else if a = 169 ∧ b = 254 then true
    else if a = 172 ∧ b ≥ 16 ∧ b ≤ 31 then true
    else if a = 192 ∧ b = 168 then true
    else if a = 100 ∧ b ≥ 64 ∧ b ≤ 127 then true
    else if a ≥ 224 then true
    else false
  | _ => true

def isPrivateIPv6 (ip : List Char) : Bool :=
  let normalized := ip.map Char.toLower
  if normalized = "::1".toList ∨ normalized = "::".toList then true
  else if "fe80:".toList <+: normalized then true
  else if "fc".toList <+: normalized ∨ "fd".toList <+: normalized then true
  else if "::ffff:".toList <+: normalized ∧ isIP (normalized.drop "::ffff:".length) = 4 then
    isPrivateIPv4 (normalized.drop "::ffff:".length)
  else false

def isPrivateAddress (ip : String) : Bool :=
  let version := isIP ip.toList
  if version = 4 then isPrivateIPv4 ip.toList
  else if version = 6 then isPrivateIPv6 ip.toList
  else true

/-! ## What it is to guard -/

/-- This network, a private network, loopback, link-local, two more private networks, carrier-grade
translation, and all from 224.0.0.0 on. -/
def guardedIPv4 : List Range :=
  [⟨0, 8⟩, ⟨10, 8⟩, ⟨127, 8⟩, ⟨169 * 2 ^ 8 + 254, 16⟩, ⟨172 * 2 ^ 4 + 1, 12⟩,
    ⟨192 * 2 ^ 8 + 168, 16⟩, ⟨100 * 2 ^ 2 + 1, 10⟩, ⟨7, 3⟩]

/-- Loopback, unspecified, link-local and unique local. -/
def guardedIPv6 : List Range :=
  [⟨1, 128⟩, ⟨0, 128⟩, ⟨0xfe80 / 2 ^ 6, 10⟩, ⟨0xfc00 / 2 ^ 9, 7⟩]

def IsGuardedIPv4 (a : IPv4) : Prop := ∃ r ∈ guardedIPv4, r.Contains 32 a.value

instance (a : IPv4) : Decidable (IsGuardedIPv4 a) :=
  inferInstanceAs (Decidable (∃ r ∈ guardedIPv4, r.Contains 32 a.value))

def IsGuarded : IpAddress → Prop
  | .v4 a => IsGuardedIPv4 a
  | .v6 a => (∃ r ∈ guardedIPv6, r.Contains 128 a.value) ∨
      ∃ m : IPv4, a.groups = m.mapped ∧ IsGuardedIPv4 m

/-- The verdict is that of the address, and a guarded address is private however it is spelled. -/
structure SoundFor (a : IpAddress) : Prop where
  uniform : ∀ s s' : String, Spells s.toList a → Spells s'.toList a →
    isPrivateAddress s = isPrivateAddress s'
  guarded : IsGuarded a → ∀ s : String, Spells s.toList a → isPrivateAddress s = true

/-- A first group that begins with `fc` or `fd` only if its zeros are left out. -/
def ShortUniqueLocal (g : Nat) : Prop := (0xfc ≤ g ∧ g ≤ 0xfd) ∨ (0xfc0 ≤ g ∧ g ≤ 0xfdf)

/-- The addresses that the letters get wrong: loopback and unspecified, which only their shortest
forms give away; the link-local ones past the first group `fe80`; the guarded ones in mapped form,
when the octets are not spelled as such; and those with a short first group that looks unique
local. -/
def Slips : IpAddress → Prop
  | .v4 _ => False
  | .v6 a => a.groups = [0, 0, 0, 0, 0, 0, 0, 1] ∨ a.groups = List.replicate 8 0 ∨
      (∃ g ∈ a.groups.head?, ShortUniqueLocal g ∨ (0xfe81 ≤ g ∧ g ≤ 0xfebf)) ∨
      ∃ m : IPv4, a.groups = m.mapped ∧ IsGuardedIPv4 m

/-! ## Version 4 -/

theorem isGuardedIPv4_iff {a : IPv4} {w x y z : Nat} (h : a.octets = [w, x, y, z]) :
    IsGuardedIPv4 a ↔ w = 0 ∨ w = 10 ∨ w = 127 ∨ (w = 169 ∧ x = 254) ∨
      (w = 172 ∧ 16 ≤ x ∧ x ≤ 31) ∨ (w = 192 ∧ x = 168) ∨ (w = 100 ∧ 64 ≤ x ∧ x ≤ 127) ∨
      224 ≤ w := by
  have hvalue : a.value = ((w * 256 + x) * 256 + y) * 256 + z := by
    unfold IPv4.value
    rw [h]
    simp [Numeral.value]
  have hlt := a.octet_lt
  rw [h] at hlt
  have hw : w < 256 := hlt w (by simp)
  have hx : x < 256 := hlt x (by simp)
  have hy : y < 256 := hlt y (by simp)
  have hz : z < 256 := hlt z (by simp)
  have h24 : a.value / 2 ^ 24 = w := by omega
  have h20 : a.value / 2 ^ 20 = w * 16 + x / 16 := by omega
  have h16 : a.value / 2 ^ 16 = w * 256 + x := by omega
  have h22 : a.value / 2 ^ 22 = w * 4 + x / 64 := by omega
  have h29 : a.value / 2 ^ 29 = w / 32 := by omega
  simp only [IsGuardedIPv4, guardedIPv4, List.mem_cons, List.not_mem_nil, or_false,
    exists_eq_or_imp, exists_eq_left, Range.Contains, Nat.reduceSub, h24, h20, h16, h22, h29]
  have h172 : w * 16 + x / 16 = 172 * 2 ^ 4 + 1 ↔ w = 172 ∧ 16 ≤ x ∧ x ≤ 31 := by omega
  have h192 : w * 256 + x = 192 * 2 ^ 8 + 168 ↔ w = 192 ∧ x = 168 := by omega
  have h169 : w * 256 + x = 169 * 2 ^ 8 + 254 ↔ w = 169 ∧ x = 254 := by omega
  have h100 : w * 4 + x / 64 = 100 * 2 ^ 2 + 1 ↔ w = 100 ∧ 64 ≤ x ∧ x ≤ 127 := by omega
  have h224 : w / 32 = 7 ↔ 224 ≤ w := by omega
  rw [h172, h192, h169, h100, h224]

theorem number_of_octet {part : List Char} (h : isOctet part = true) :
    number part = some (decimal part) := by
  simp only [isOctet, Bool.and_eq_true] at h
  unfold number
  rw [if_pos h.1.1.1]

theorem isPrivateIPv4_iff {s : List Char} {a : IPv4} (h : octets s = some a.octets) :
    isPrivateIPv4 s = true ↔ IsGuardedIPv4 a := by
  obtain ⟨-, hoctets, heq⟩ := octets_eq_some h
  have hparts : (s.splitOn '.').map number = a.octets.map some := by
    rw [heq, List.map_map]
    exact List.map_congr_left fun part hpart => number_of_octet (hoctets part hpart)
  obtain ⟨w, x, y, z, hfour⟩ : ∃ w x y z, a.octets = [w, x, y, z] := by
    have hlength := a.length_eq
    match hos : a.octets, hlength with
    | [w, x, y, z], _ => exact ⟨w, x, y, z, rfl⟩
  rw [isGuardedIPv4_iff hfour]
  unfold isPrivateIPv4
  rw [hparts, hfour]
  simp only [List.map_cons, List.map_nil]
  split_ifs <;> simp <;> omega

/-! ## Version 6, by the first group -/

/-- What the letters of the first group say. -/
def PrivateFirst (piece : List Char) : Prop :=
  piece.map Char.toLower = "fe80".toList ∨ "fc".toList <+: piece.map Char.toLower ∨
    "fd".toList <+: piece.map Char.toLower

theorem toLower_ne_colon {c : Char} (h : Hex.isDigit c = true) : c.toLower ≠ ':' := by
  intro hcolon
  exact absurd (hcolon ▸ Hex.isDigit_toLower h) (by decide)

theorem colon_notMem_lower {piece : List Char} (h : isGroup piece = true) :
    ':' ∉ piece.map Char.toLower := by
  intro hmem
  obtain ⟨c, hc, hcolon⟩ := List.mem_map.1 hmem
  exact toLower_ne_colon ((isGroup_iff.1 h).1 c hc) hcolon

/-- Two letters and no colon begin a text if and only if they begin its first piece. -/
theorem pair_prefix_iff {a b : Char} {piece rest : List Char} (ha : a ≠ ':') (hb : b ≠ ':') :
    [a, b] <+: piece ++ ':' :: rest ↔ [a, b] <+: piece := by
  match piece with
  | [] => simp [List.prefix_cons_iff, ha]
  | [c] => simp [List.prefix_cons_iff, hb]
  | c :: d :: piece => simp [List.prefix_cons_iff]

/-- A word and a colon begin a text if and only if the word is its first piece. -/
theorem colon_prefix_iff {word piece rest : List Char} (hword : ':' ∉ word) (h : ':' ∉ piece) :
    word ++ [':'] <+: piece ++ ':' :: rest ↔ piece = word := by
  constructor
  · intro hprefix
    obtain ⟨rest', heq⟩ := hprefix
    rw [List.append_assoc, List.singleton_append] at heq
    exact (Separated.append_left hword h heq).1.symm
  · intro hsame
    subst hsame
    exact ⟨rest, by simp⟩

/-- The guard reads the first group and nothing behind it. -/
theorem isPrivateIPv6_first {piece rest : List Char} (h : isGroup piece = true) :
    isPrivateIPv6 (piece ++ ':' :: rest) = true ↔ PrivateFirst piece := by
  have hcolon := colon_notMem_lower h
  obtain ⟨c, cs, hpiece⟩ := List.exists_cons_of_length_pos (isGroup_iff.1 h).2.1
  have hc : c.toLower ≠ ':' := toLower_ne_colon ((isGroup_iff.1 h).1 c (by simp [hpiece]))
  have hlower : (piece ++ ':' :: rest).map Char.toLower =
      piece.map Char.toLower ++ ':' :: rest.map Char.toLower := by
    rw [List.map_append, List.map_cons]
    rfl
  have hstart : ∀ text : List Char, (':' :: text) ≠ (piece ++ ':' :: rest).map Char.toLower ∧
      ¬(':' :: text) <+: (piece ++ ':' :: rest).map Char.toLower := by
    intro text
    rw [hpiece]
    simp [List.prefix_cons_iff, hc.symm]
  have hloopback : ¬((piece ++ ':' :: rest).map Char.toLower = "::1".toList ∨
      (piece ++ ':' :: rest).map Char.toLower = "::".toList) := by
    rw [not_or]
    exact ⟨fun heq => (hstart _).1 heq.symm, fun heq => (hstart _).1 heq.symm⟩
  have hmapped : ¬("::ffff:".toList <+: (piece ++ ':' :: rest).map Char.toLower) := (hstart _).2
  have hlink : "fe80:".toList <+: (piece ++ ':' :: rest).map Char.toLower ↔
      piece.map Char.toLower = "fe80".toList := by
    rw [hlower]
    have hword : ':' ∉ "fe80".toList := by decide
    exact colon_prefix_iff hword hcolon
  have hlocal : ∀ b : Char, b ≠ ':' → (['f', b] <+: (piece ++ ':' :: rest).map Char.toLower ↔
      ['f', b] <+: piece.map Char.toLower) := by
    intro b hb
    rw [hlower]
    exact pair_prefix_iff (by decide) hb
  have hunique : ("fc".toList <+: (piece ++ ':' :: rest).map Char.toLower ∨
      "fd".toList <+: (piece ++ ':' :: rest).map Char.toLower) ↔
      "fc".toList <+: piece.map Char.toLower ∨ "fd".toList <+: piece.map Char.toLower :=
    or_congr (hlocal 'c' (by decide)) (hlocal 'd' (by decide))
  unfold isPrivateIPv6
  dsimp only
  rw [if_neg hloopback]
  by_cases hfirst : piece.map Char.toLower = "fe80".toList
  · rw [if_pos (hlink.2 hfirst)]
    exact iff_of_true rfl (Or.inl hfirst)
  · rw [if_neg fun hprefix => hfirst (hlink.1 hprefix)]
    by_cases hpair : "fc".toList <+: piece.map Char.toLower ∨ "fd".toList <+: piece.map Char.toLower
    · rw [if_pos (hunique.2 hpair)]
      exact iff_of_true rfl (Or.inr hpair)
    · rw [if_neg fun hprefix => hpair (hunique.1 hprefix), if_neg fun hboth => hmapped hboth.1]
      refine iff_of_false Bool.false_ne_true fun hprivate => ?_
      exact hprivate.elim hfirst hpair

/-! ## The first group as a number -/

theorem pair_prefix_lower_iff {a b : Char} {piece : List Char} :
    [a, b] <+: piece.map Char.toLower ↔
      ∃ c d rest, piece = c :: d :: rest ∧ c.toLower = a ∧ d.toLower = b := by
  match piece with
  | [] => simp
  | [c] => simp [List.cons_prefix_cons]
  | c :: d :: piece =>
    simp only [List.map_cons, List.cons_prefix_cons, List.nil_prefix, and_true, List.cons.injEq]
    constructor
    · intro h
      exact ⟨c, d, piece, ⟨rfl, rfl, rfl⟩, h.1.symm, h.2.symm⟩
    · rintro ⟨_, _, _, ⟨rfl, rfl, rfl⟩, ha, hb⟩
      exact ⟨ha.symm, hb.symm⟩

/-- A piece of four digits begins with the letters of its number. -/
theorem pair_prefix_iff_value {a b : Char} {piece : List Char} (h : isGroup piece = true)
    (hfour : piece.length = 4) (ha : Hex.isDigit a = true) (hb : Hex.isDigit b = true)
    (halower : a.toLower = a) (hblower : b.toLower = b) :
    [a, b] <+: piece.map Char.toLower ↔
      Hex.value piece / 256 = Hex.digitValue a * 16 + Hex.digitValue b := by
  obtain ⟨hdigits, -, -⟩ := isGroup_iff.1 h
  match piece, hfour with
  | [c, d, e, f], _ =>
    have hdigit : ∀ x ∈ [c, d, e, f], Hex.digitValue x < 16 :=
      fun x hx => Hex.digitValue_lt (hdigits x hx)
    have hc := hdigit c (by simp)
    have hd := hdigit d (by simp)
    have he := hdigit e (by simp)
    have hf := hdigit f (by simp)
    have ha16 := Hex.digitValue_lt ha
    have hb16 := Hex.digitValue_lt hb
    have hca : a = c.toLower ↔ _ :=
      eq_comm.trans (Hex.toLower_eq_iff (hdigits c (by simp)) ha halower)
    have hdb : b = d.toLower ↔ _ :=
      eq_comm.trans (Hex.toLower_eq_iff (hdigits d (by simp)) hb hblower)
    simp only [List.map_cons, List.cons_prefix_cons, List.nil_prefix, and_true, hca, hdb,
      Hex.value, List.foldl_cons, List.foldl_nil]
    omega

/-- With all four digits the letters are those of the number. -/
theorem privateFirst_of_four {piece : List Char} (h : isGroup piece = true)
    (hfour : piece.length = 4) : PrivateFirst piece ↔
      Hex.value piece = 0xfe80 ∨ (0xfc00 ≤ Hex.value piece ∧ Hex.value piece ≤ 0xfdff) := by
  obtain ⟨hdigits, -, -⟩ := isGroup_iff.1 h
  have hlink : piece.map Char.toLower = "fe80".toList ↔ Hex.value piece = 0xfe80 := by
    constructor
    · intro heq
      rw [← Hex.value_map_toLower hdigits, heq]
      decide +kernel
    · intro hvalue
      have hword : ∀ c ∈ "fe80".toList, Hex.isDigit c = true :=
        List.all_eq_true.1 (by decide)
      have hsame : Hex.value piece = Hex.value "fe80".toList := hvalue.trans (by decide +kernel)
      rw [Hex.map_toLower_eq_of_value_eq hfour hdigits hword hsame]
      decide
  have hc : "fc".toList <+: piece.map Char.toLower ↔ _ :=
    pair_prefix_iff_value (a := 'f') (b := 'c') h hfour (by decide) (by decide) (by decide)
      (by decide)
  have hd : "fd".toList <+: piece.map Char.toLower ↔ _ :=
    pair_prefix_iff_value (a := 'f') (b := 'd') h hfour (by decide) (by decide) (by decide)
      (by decide)
  have hf : Hex.digitValue 'f' = 15 := by decide
  have hc12 : Hex.digitValue 'c' = 12 := by decide
  have hd13 : Hex.digitValue 'd' = 13 := by decide
  unfold PrivateFirst
  rw [hlink, hc, hd, hf, hc12, hd13]
  omega

/-- Two or three digits that begin like a unique local address. -/
theorem shortUniqueLocal_of_pair {b : Char} {piece : List Char} (h : isGroup piece = true)
    (hshort : piece.length ≠ 4) (hb : Hex.isDigit b = true) (hlower : b.toLower = b)
    (hlocal : 12 ≤ Hex.digitValue b ∧ Hex.digitValue b ≤ 13)
    (hpair : ['f', b] <+: piece.map Char.toLower) : ShortUniqueLocal (Hex.value piece) := by
  obtain ⟨hdigits, -, hlength⟩ := isGroup_iff.1 h
  obtain ⟨c, d, rest, rfl, hc, hd⟩ := pair_prefix_lower_iff.1 hpair
  have hf : Hex.digitValue 'f' = 15 := by decide
  rw [Hex.toLower_eq_iff (hdigits c (by simp)) (by decide) (by decide), hf] at hc
  rw [Hex.toLower_eq_iff (hdigits d (by simp)) hb hlower] at hd
  have hrest : Hex.value rest < 16 ^ rest.length :=
    Hex.value_lt fun x hx => hdigits x (List.mem_cons_of_mem _ (List.mem_cons_of_mem _ hx))
  rw [List.length_cons, List.length_cons] at hshort hlength
  rw [Hex.value_cons, Hex.value_cons, hc, hd, List.length_cons]
  unfold ShortUniqueLocal
  have hfew : rest.length = 0 ∨ rest.length = 1 := by omega
  rcases hfew with hzero | hone
  · rw [hzero] at hrest ⊢
    omega
  · rw [hone] at hrest ⊢
    omega

/-- With fewer digits too, unless the number is a short one that looks unique local. -/
theorem privateFirst_iff {piece : List Char} (h : isGroup piece = true)
    (hlong : ¬ShortUniqueLocal (Hex.value piece)) : PrivateFirst piece ↔
      Hex.value piece = 0xfe80 ∨ (0xfc00 ≤ Hex.value piece ∧ Hex.value piece ≤ 0xfdff) := by
  obtain ⟨hdigits, -, hlength⟩ := isGroup_iff.1 h
  by_cases hfour : piece.length = 4
  · exact privateFirst_of_four h hfour
  · have hsmall : Hex.value piece < 16 ^ 3 :=
      (Hex.value_lt hdigits).trans_le (Nat.pow_le_pow_right (by decide) (by omega))
    refine iff_of_false (fun hprivate => ?_) (by omega)
    rcases hprivate with hword | hpair | hpair
    · have hcount := congrArg List.length hword
      rw [List.length_map] at hcount
      exact hfour hcount
    · exact hlong (shortUniqueLocal_of_pair (b := 'c') h hfour (by decide) (by decide) (by decide)
        hpair)
    · exact hlong (shortUniqueLocal_of_pair (b := 'd') h hfour (by decide) (by decide) (by decide)
        hpair)

/-! ## Behind an elision -/

theorem eq_of_toLower {c d : Char} (h : c.toLower = d) (hd : ¬('a' ≤ d ∧ d ≤ 'z')) : c = d := by
  by_cases hupper : 'A' ≤ c ∧ c ≤ 'Z'
  · have hlow : 65 ≤ c.toNat := UInt32.le_iff_toNat_le.1 hupper.1
    have hhigh : c.toNat ≤ 90 := UInt32.le_iff_toNat_le.1 hupper.2
    have hcode := Hex.toLower_of_upper hupper
    rw [h] at hcode
    have ha : 'a'.toNat ≤ d.toNat := by
      rw [hcode]
      exact Nat.add_le_add_right hlow 32
    have hz : d.toNat ≤ 'z'.toNat := by
      rw [hcode]
      exact Nat.add_le_add_right hhigh 32
    exact absurd ⟨UInt32.le_iff_toNat_le.2 ha, UInt32.le_iff_toNat_le.2 hz⟩ hd
  · rw [← h, Hex.toLower_of_not_upper hupper]

theorem eq_of_map_toLower {s t : List Char} (h : s.map Char.toLower = t)
    (ht : ∀ d ∈ t, ¬('a' ≤ d ∧ d ≤ 'z')) : s = t := by
  subst h
  refine ((List.map_congr_left fun c hc => ?_).trans (List.map_id _)).symm
  exact (eq_of_toLower rfl (ht _ (List.mem_map_of_mem hc))).symm

/-- Octets behind `::ffff:`, in whatever case. -/
theorem mapped_of_prefix {rest dotted : List Char} {os : List Nat} {a : IPv6}
    (h : zonedGroups (':' :: ':' :: rest) = some a.groups)
    (hrest : rest.map Char.toLower = "ffff".toList ++ ':' :: dotted)
    (hos : octets dotted = some os) : a.groups = List.replicate 5 0 ++ 0xffff :: pairs os := by
  have hdigit : ∀ d ∈ dotted, ¬('a' ≤ d ∧ d ≤ 'z') := by
    intro d hd hletter
    rcases octets_letters hos d hd with rfl | hnumber
    · exact absurd hletter (by decide)
    · have hlow : 97 ≤ d.toNat := UInt32.le_iff_toNat_le.1 hletter.1
      have hhigh : d.toNat ≤ 57 := by
        simp only [Char.isDigit, Bool.and_eq_true, decide_eq_true_eq] at hnumber
        exact UInt32.le_iff_toNat_le.1 hnumber.2
      omega
  obtain ⟨group, tail, rfl, hgroup, htail⟩ := List.map_eq_append_iff.1 hrest
  obtain ⟨c, dotted', rfl, hc, hdotted⟩ := List.map_eq_cons_iff.1 htail
  obtain rfl : c = ':' := eq_of_toLower hc (by decide)
  obtain rfl : dotted' = dotted := eq_of_map_toLower hdotted hdigit
  have hfour : group.length = 4 := by
    have hcount := congrArg List.length hgroup
    rwa [List.length_map] at hcount
  have hdigits : ∀ x ∈ group, Hex.isDigit x = true := by
    intro x hx
    have hword : ∀ d ∈ "ffff".toList, Hex.isDigit d = true :=
      List.all_eq_true.1 (by decide)
    exact Hex.isDigit_of_toLower (hword _ (hgroup ▸ List.mem_map_of_mem hx))
  have hisGroup : isGroup group = true := isGroup_iff.2 ⟨hdigits, by omega⟩
  have hvalue : Hex.value group = 0xffff := by
    rw [← Hex.value_map_toLower hdigits, hgroup]
    decide +kernel
  have hnoZone : '%' ∉ ':' :: ':' :: group ++ ':' :: dotted' := by
    intro hmem
    simp only [List.cons_append, List.mem_cons, List.mem_append] at hmem
    rcases hmem with hcolon | hcolon | hmem | hcolon | hmem
    · exact absurd hcolon (by decide)
    · exact absurd hcolon (by decide)
    · exact absurd (hdigits _ hmem) (by decide)
    · exact absurd hcolon (by decide)
    · rcases octets_letters hos _ hmem with hdot | hnumber
      · exact absurd hdot (by decide)
      · exact absurd hnumber (by decide)
  have hmapped := (zonedGroups_of_notMem hnoZone).trans (groups_mapped hisGroup hos)
  rw [hvalue] at hmapped
  exact Option.some.inj (h.symm.trans hmapped)

/-- A text with `::` in front is private as loopback, as unspecified, or as mapped octets. -/
theorem isPrivateIPv6_elided {rest : List Char} {a : IPv6}
    (h : zonedGroups (':' :: ':' :: rest) = some a.groups)
    (hprivate : isPrivateIPv6 (':' :: ':' :: rest) = true) : Slips (.v6 a) := by
  have hlower : (':' :: ':' :: rest).map Char.toLower = ':' :: ':' :: rest.map Char.toLower := rfl
  have hnot : ∀ c : Char, c ≠ ':' → ∀ text : List Char,
      ¬(c :: text) <+: (':' :: ':' :: rest.map Char.toLower) := by
    intro c hc text hprefix
    exact hc (List.cons_prefix_cons.1 hprefix).1
  unfold isPrivateIPv6 at hprivate
  dsimp only at hprivate
  rw [hlower] at hprivate
  by_cases hshort : ':' :: ':' :: rest.map Char.toLower = "::1".toList ∨
      ':' :: ':' :: rest.map Char.toLower = "::".toList
  · rcases hshort with hloopback | hunspecified
    · have hrest : rest = ['1'] := eq_of_map_toLower (by simpa using hloopback) (by simp)
      rw [hrest] at h
      exact Or.inl (Option.some.inj (h.symm.trans (by decide +kernel)))
    · have hrest : rest = [] := eq_of_map_toLower (by simpa using hunspecified) (by simp)
      rw [hrest] at h
      exact Or.inr (Or.inl (Option.some.inj (h.symm.trans (by decide +kernel))))
  · have hlink : ¬"fe80:".toList <+: (':' :: ':' :: rest.map Char.toLower) :=
      hnot 'f' (by decide) _
    have hunique : ¬("fc".toList <+: (':' :: ':' :: rest.map Char.toLower) ∨
        "fd".toList <+: (':' :: ':' :: rest.map Char.toLower)) :=
      not_or.2 ⟨hnot 'f' (by decide) _, hnot 'f' (by decide) _⟩
    rw [if_neg hshort, if_neg hlink, if_neg hunique] at hprivate
    split_ifs at hprivate with hmapped
    obtain ⟨⟨dotted, hdotted⟩, hversion⟩ := hmapped
    have hdrop : (':' :: ':' :: rest.map Char.toLower).drop "::ffff:".length = dotted := by
      rw [← hdotted]
      rfl
    rw [hdrop] at hversion hprivate
    obtain ⟨os, hos⟩ := octets_of_isIP hversion
    have hrest : rest.map Char.toLower = "ffff".toList ++ ':' :: dotted := by
      simpa using hdotted.symm
    refine Or.inr (Or.inr (Or.inr ⟨⟨os, octets_length hos, octets_lt hos⟩,
      mapped_of_prefix h hrest hos, ?_⟩))
    exact (isPrivateIPv4_iff hos).1 hprivate

/-! ## The verdict -/

theorem isPrivateAddress_v4 {s : String} {a : IPv4} (h : Spells s.toList (.v4 a)) :
    isPrivateAddress s = isPrivateIPv4 s.toList := by
  simp [isPrivateAddress, isIP_of_octets h]

theorem isPrivateAddress_v6 {s : String} {a : IPv6} (h : Spells s.toList (.v6 a)) :
    isPrivateAddress s = isPrivateIPv6 s.toList := by
  simp [isPrivateAddress, isIP_of_zonedGroups h]

/-- The verdict on all other addresses is that of the first group, however it is spelled. -/
theorem isPrivateAddress_iff {s : String} {a : IPv6} {g : Nat} (h : Spells s.toList (.v6 a))
    (hg : a.groups.head? = some g) (hnot : ¬Slips (.v6 a)) :
    isPrivateAddress s = true ↔ g = 0xfe80 ∨ (0xfc00 ≤ g ∧ g ≤ 0xfdff) := by
  have hplain : ¬ShortUniqueLocal g := fun hshort =>
    hnot (Or.inr (Or.inr (Or.inl ⟨g, hg, Or.inl hshort⟩)))
  rw [isPrivateAddress_v6 h]
  obtain ⟨body, zone, hbody, hgroups⟩ := zonedGroups_eq_some h
  rcases groups_first hgroups with ⟨rest, rfl, hzero⟩ | ⟨piece, rest, rfl, hpiece, hhead⟩
  · obtain rfl : 0 = g := Option.some.inj (hzero.symm.trans hg)
    refine iff_of_false (fun hprivate => hnot ?_) (by decide)
    rw [hbody] at hprivate
    have hspells : zonedGroups (':' :: ':' :: (rest ++ zone)) = some a.groups := by
      have hsame := h
      rw [hbody] at hsame
      exact hsame
    exact isPrivateIPv6_elided hspells hprivate
  · obtain rfl : Hex.value piece = g := Option.some.inj (hhead.symm.trans hg)
    rw [hbody, List.append_assoc, List.cons_append, isPrivateIPv6_first hpiece]
    exact privateFirst_iff hpiece hplain

theorem groups_eq_iff {a : IPv6} {gs : List Nat} (hlength : gs.length = 8)
    (hlt : ∀ g ∈ gs, g < 2 ^ 16) : a.groups = gs ↔ a.value = Numeral.value (2 ^ 16) gs := by
  constructor
  · intro h
    rw [IPv6.value, h]
  · exact Numeral.value_inj (a.length_eq.trans hlength.symm) a.group_lt hlt

/-- The ranges of version 6, by the first group. -/
theorem guardedIPv6_iff {a : IPv6} {g : Nat} (hg : a.groups.head? = some g) :
    (∃ r ∈ guardedIPv6, r.Contains 128 a.value) ↔ a.groups = [0, 0, 0, 0, 0, 0, 0, 1] ∨
      a.groups = List.replicate 8 0 ∨ (0xfe80 ≤ g ∧ g ≤ 0xfebf) ∨ (0xfc00 ≤ g ∧ g ≤ 0xfdff) := by
  obtain ⟨rest, hgroups⟩ := List.head?_eq_some_iff.1 hg
  have hlength : rest.length = 7 := by
    have hlength := a.length_eq
    rw [hgroups, List.length_cons] at hlength
    omega
  have hlt : ∀ d ∈ rest, d < 2 ^ 16 := fun d hd =>
    a.group_lt d (hgroups ▸ List.mem_cons_of_mem g hd)
  obtain ⟨hlow, hhigh⟩ := Numeral.value_cons_bounds g hlt
  rw [hlength, ← hgroups] at hlow hhigh
  have hone : Numeral.value (2 ^ 16) [0, 0, 0, 0, 0, 0, 0, 1] = 1 := by decide +kernel
  have hzero : Numeral.value (2 ^ 16) (List.replicate 8 0) = 0 := by decide +kernel
  rw [groups_eq_iff (by decide) (by decide), groups_eq_iff (by decide) (by decide), hone, hzero]
  change g * (2 ^ 16) ^ 7 ≤ a.value at hlow
  change a.value < (g + 1) * (2 ^ 16) ^ 7 at hhigh
  simp only [guardedIPv6, List.mem_cons, List.not_mem_nil, or_false, exists_eq_or_imp,
    exists_eq_left, Range.Contains]
  omega

/-- A spelling of an address whose first group is spelled so, and the verdict on it. -/
theorem spelled_first {a : IPv6} {piece : List Char} {others : List Nat}
    (hgroups : a.groups = Hex.value piece :: others) (h : isGroup piece = true) :
    Spells (String.ofList (written piece others)).toList (.v6 a) ∧
      (isPrivateAddress (String.ofList (written piece others)) = true ↔ PrivateFirst piece) := by
  have hlength : others.length = 7 := by
    have hlength := a.length_eq
    rw [hgroups, List.length_cons] at hlength
    omega
  have hlt : ∀ d ∈ others, d < 2 ^ 16 := fun d hd =>
    a.group_lt d (hgroups ▸ List.mem_cons_of_mem _ hd)
  have hspells : Spells (String.ofList (written piece others)).toList (.v6 a) := by
    rw [String.toList_ofList]
    show zonedGroups (written piece others) = some a.groups
    rw [zonedGroups_written h hlength hlt, hgroups]
  refine ⟨hspells, ?_⟩
  obtain ⟨rest, hrest⟩ := written_eq_append piece hlength
  rw [isPrivateAddress_v6 hspells, String.toList_ofList, hrest]
  exact isPrivateIPv6_first h

/-- Every address has a spelling in which the letters are those of the first group. -/
theorem spelled_out {a : IPv6} {g : Nat} (hg : a.groups.head? = some g) :
    ∃ s : String, Spells s.toList (.v6 a) ∧
      (isPrivateAddress s = true ↔ g = 0xfe80 ∨ (0xfc00 ≤ g ∧ g ≤ 0xfdff)) := by
  obtain ⟨others, hgroups⟩ := List.head?_eq_some_iff.1 hg
  have hvalue := value_hexText (a.group_lt g (hgroups ▸ List.mem_cons_self))
  have hpiece : isGroup (hexText 4 g) = true := isGroup_hexText (by decide) (by decide) g
  obtain ⟨hspells, hverdict⟩ := spelled_first (by rw [hvalue]; exact hgroups) hpiece
  refine ⟨_, hspells, hverdict.trans ?_⟩
  rw [privateFirst_of_four hpiece (hexText_spec 4 g).1, hvalue]

/-- A short first group that looks unique local, without its zeros. -/
theorem short_spelling {g : Nat} (h : ShortUniqueLocal g) :
    ∃ piece, isGroup piece = true ∧ Hex.value piece = g ∧ PrivateFirst piece := by
  have htwo : ∀ k < 2, isGroup (hexText 2 (0xfc + k)) = true ∧
      Hex.value (hexText 2 (0xfc + k)) = 0xfc + k ∧ PrivateFirst (hexText 2 (0xfc + k)) := by
    unfold PrivateFirst
    decide +kernel
  have hthree : ∀ k < 32, isGroup (hexText 3 (0xfc0 + k)) = true ∧
      Hex.value (hexText 3 (0xfc0 + k)) = 0xfc0 + k ∧ PrivateFirst (hexText 3 (0xfc0 + k)) := by
    unfold PrivateFirst
    decide +kernel
  rcases h with hshort | hshort
  · obtain ⟨k, rfl⟩ := Nat.exists_eq_add_of_le hshort.1
    exact ⟨_, htwo k (by omega)⟩
  · obtain ⟨k, rfl⟩ := Nat.exists_eq_add_of_le hshort.1
    exact ⟨_, hthree k (by omega)⟩

/-! ## Which addresses the guard gets right -/

theorem soundFor_v4 (a : IPv4) : SoundFor (.v4 a) where
  uniform s s' h h' := by
    have hiff := (isPrivateIPv4_iff h).trans (isPrivateIPv4_iff h').symm
    rw [isPrivateAddress_v4 h, isPrivateAddress_v4 h']
    exact Bool.eq_iff_iff.2 hiff
  guarded hguarded s h := by
    rw [isPrivateAddress_v4 h]
    exact (isPrivateIPv4_iff h).2 hguarded

theorem exists_first (a : IPv6) : ∃ g, a.groups.head? = some g := by
  have hlength := a.length_eq
  cases hgroups : a.groups with
  | nil =>
    rw [hgroups] at hlength
    cases hlength
  | cons g others => exact ⟨g, rfl⟩

/-- Of the guarded addresses, those that do not slip are known by their first group. -/
theorem first_of_isGuarded {a : IPv6} {g : Nat} (hg : a.groups.head? = some g)
    (hguarded : IsGuarded (.v6 a)) (hnot : ¬Slips (.v6 a)) :
    g = 0xfe80 ∨ (0xfc00 ≤ g ∧ g ≤ 0xfdff) := by
  rcases hguarded with hrange | hmapped
  · rcases (guardedIPv6_iff hg).1 hrange with hloopback | hunspecified | hlink | hlocal
    · exact absurd (Or.inl hloopback) hnot
    · exact absurd (Or.inr (Or.inl hunspecified)) hnot
    · by_contra hother
      exact hnot (Or.inr (Or.inr (Or.inl ⟨g, hg, Or.inr (by omega)⟩)))
    · exact Or.inr hlocal
  · exact absurd (Or.inr (Or.inr (Or.inr hmapped))) hnot

theorem soundFor_v6 {a : IPv6} (hnot : ¬Slips (.v6 a)) : SoundFor (.v6 a) := by
  obtain ⟨g, hg⟩ := exists_first a
  constructor
  · intro s s' h h'
    exact Bool.eq_iff_iff.2
      ((isPrivateAddress_iff h hg hnot).trans (isPrivateAddress_iff h' hg hnot).symm)
  · intro hguarded s h
    exact (isPrivateAddress_iff h hg hnot).2 (first_of_isGuarded hg hguarded hnot)

theorem soundFor {a : IpAddress} (hnot : ¬Slips a) : SoundFor a := by
  cases a with
  | v4 a => exact soundFor_v4 a
  | v6 a => exact soundFor_v6 hnot

/-- The addresses that slip have a spelling that shows it. -/
theorem not_soundFor {a : IPv6} (h : Slips (.v6 a)) : ¬SoundFor (.v6 a) := by
  intro hsound
  have hdiffer : ∀ s s' : String, Spells s.toList (.v6 a) → Spells s'.toList (.v6 a) →
      isPrivateAddress s = true → isPrivateAddress s' = false → False := by
    intro s s' hs hs' hprivate hpublic
    have hsame := hsound.uniform s s' hs hs'
    rw [hprivate, hpublic] at hsame
    cases hsame
  obtain ⟨g, hg⟩ := exists_first a
  obtain ⟨out, hout, hverdict⟩ := spelled_out hg
  rcases h with hloopback | hunspecified | ⟨g', hg', hshort | hlink⟩ | ⟨m, hmapped, hguarded⟩
  · refine hdiffer "::1" "0:0:0:0:0:0:0:1" ?_ ?_ (by decide +kernel) (by decide +kernel) <;>
      exact Eq.trans (by decide +kernel) (congrArg some hloopback.symm)
  · refine hdiffer "::" "0:0:0:0:0:0:0:0" ?_ ?_ (by decide +kernel) (by decide +kernel) <;>
      exact Eq.trans (by decide +kernel) (congrArg some hunspecified.symm)
  · -- With its zeros the group is public, without them it is private.
    obtain rfl : g = g' := Option.some.inj (hg.symm.trans hg')
    obtain ⟨piece, hpiece, hvalue, hprivate⟩ := short_spelling hshort
    obtain ⟨others, hgroups⟩ := List.head?_eq_some_iff.1 hg
    obtain ⟨hspells, hshortVerdict⟩ := spelled_first (by rw [hvalue]; exact hgroups) hpiece
    refine hdiffer _ out hspells hout (hshortVerdict.2 hprivate) ?_
    rw [← Bool.not_eq_true, hverdict]
    unfold ShortUniqueLocal at hshort
    omega
  · obtain rfl : g = g' := Option.some.inj (hg.symm.trans hg')
    have hguarded : IsGuarded (.v6 a) :=
      Or.inl ((guardedIPv6_iff hg).2 (Or.inr (Or.inr (Or.inl (by omega)))))
    have hprivate := hverdict.1 (hsound.guarded hguarded out hout)
    omega
  · have hprivate := hverdict.1 (hsound.guarded (Or.inr ⟨m, hmapped, hguarded⟩) out hout)
    have hzero : 0 = g := by
      rw [hmapped] at hg
      exact Option.some.inj hg
    omega

/-- **The guard decides by the address, and guards what it names, except where it slips.** -/
theorem isPrivateAddress_sound_iff (a : IpAddress) : SoundFor a ↔ ¬Slips a := by
  refine ⟨fun hsound hslips => ?_, soundFor⟩
  cases a with
  | v4 a => exact hslips
  | v6 a => exact not_soundFor hslips hsound

/-! ## Webhook URLs -/

structure WebhookUrl where
  protocol : String
  hostname : String
  deriving DecidableEq, Repr

section Url

variable (parseUrl : String → Option WebhookUrl) (resolve : String → Option (List String))

def isBlockedHostname (hostname : String) : Bool :=
  hostname = "localhost" || ".local".toList.isSuffixOf hostname.toList ||
    ".internal".toList.isSuffixOf hostname.toList

/-- The URL, or the message of a `WebhookUrlError`. The parser and the resolver are parameters. -/
def assertPublicWebhookUrl (rawUrl : String) : Except String WebhookUrl :=
  match parseUrl rawUrl with
  | none => .error ("not a valid URL: " ++ rawUrl)
  | some url =>
    if url.protocol ≠ "https:" ∧ url.protocol ≠ "http:" then
      .error ("unsupported protocol: " ++ url.protocol)
    else
      let hostname := toLowerCase url.hostname
      if isBlockedHostname hostname then .error ("refusing to deliver to " ++ hostname)
      else if isIP hostname.toList ≠ 0 then
        if isPrivateAddress hostname then
          .error ("refusing to deliver to private address " ++ hostname)
        else .ok url
      else
        match resolve hostname with
        | none => .error ("could not resolve " ++ hostname)
        | some records =>
          if records.length = 0 then .error ("could not resolve " ++ hostname)
          else if records.any isPrivateAddress then
            .error (hostname ++ " resolves to a private address")
          else .ok url

/-- The addresses that a URL is delivered to: the one it names, or those its host resolves to. -/
def deliveredTo (url : WebhookUrl) : List String :=
  let hostname := toLowerCase url.hostname
  if isIP hostname.toList ≠ 0 then [hostname] else (resolve hostname).getD []

variable {parseUrl resolve}

/-- **A URL that passes leads to no guarded address, unless the address slips.** -/
theorem assertPublicWebhookUrl_sound {rawUrl : String} {url : WebhookUrl}
    (h : assertPublicWebhookUrl parseUrl resolve rawUrl = .ok url) :
    ∀ address ∈ deliveredTo resolve url, ∀ a, Spells address.toList a → IsGuarded a → Slips a := by
  have hpublic : ∀ address ∈ deliveredTo resolve url, isPrivateAddress address = false := by
    unfold assertPublicWebhookUrl at h
    unfold deliveredTo
    split at h
    · cases h
    · next url' _ =>
      dsimp only at h
      split_ifs at h with hprotocol hblocked hliteral hprivate
      · cases h
        intro address hmem
        rw [if_pos hliteral, List.mem_singleton] at hmem
        rw [hmem]
        simpa using hprivate
      · split at h
        · cases h
        · next records hrecords =>
          split_ifs at h with hnone hany
          cases h
          intro address hmem
          rw [if_neg hliteral, hrecords, Option.getD_some] at hmem
          rw [Bool.not_eq_true, List.any_eq_false] at hany
          simpa using hany address hmem
  intro address hmem a hspells hguarded
  by_contra hnot
  have hprivate := (soundFor hnot).guarded hguarded address hspells
  rw [hpublic address hmem] at hprivate
  cases hprivate

end Url

end SsrfGuard

/-! ## Three addresses that slip -/

namespace Shop

open IpText SsrfGuard

def loopback6 : IPv6 := ⟨[0, 0, 0, 0, 0, 0, 0, 1], rfl, by decide⟩

def linkLocal : IPv6 := ⟨[0xfe90, 0, 0, 0, 0, 0, 0, 1], rfl, by decide⟩

def mappedLoopback : IPv6 := ⟨[0, 0, 0, 0, 0, 0xffff, 0x7f00, 1], rfl, by decide⟩

/-- The first is private or public by its spelling, and the others are guarded and public. -/
theorem slips_let_through : ¬SoundFor (.v6 loopback6) ∧ ¬SoundFor (.v6 linkLocal) ∧
    ¬SoundFor (.v6 mappedLoopback) := by
  refine ⟨fun h => ?_, fun h => ?_, fun h => ?_⟩
  · have hsame := h.uniform "::1" "0:0:0:0:0:0:0:1" (by decide +kernel) (by decide +kernel)
    exact absurd hsame (by decide +kernel)
  · have hguarded : IsGuarded (.v6 linkLocal) := Or.inl (by decide +kernel)
    exact absurd (h.guarded hguarded "fe90::1" (by decide +kernel)) (by decide +kernel)
  · have hguarded : IsGuarded (.v6 mappedLoopback) :=
      Or.inr ⟨⟨[127, 0, 0, 1], rfl, by decide⟩, by decide +kernel, by decide +kernel⟩
    exact absurd (h.guarded hguarded "::ffff:7f00:1" (by decide +kernel)) (by decide +kernel)

end Shop

end PaymentGateway
