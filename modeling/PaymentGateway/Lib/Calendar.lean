import Mathlib.Data.List.Basic
import Mathlib.Data.String.Basic

/-!
# Dates and times as text

The calendar date of a day, and the text of a time in milliseconds since the first of January 1970,
both in universal time. A date determines its day (`dateOf_spec`), and a text its time
(`isoString_injective`), as all the fields after the year have fixed widths.
-/

namespace Calendar

/-! ## Years -/

/-- The first day of a year that begins in March, so that the leap day is the last one: 146097 days
make 400 years, 36524 a century but for the last, and 1461 four years but for those that end with a
common century. -/
def yearStart (year : Int) : Int :=
  146097 * (year / 400) + 36524 * (year % 400 / 100) + 1461 * (year % 100 / 4) + 365 * (year % 4)

/-- The year of a day and the days since its start. -/
def yearDay (day : Int) : Int × Int :=
  let era := day / 146097
  let century := min (day % 146097 / 36524) 3
  let dayOfCentury := day % 146097 - 36524 * century
  let cycle := dayOfCentury / 1461
  let year := min (dayOfCentury % 1461 / 365) 3
  (400 * era + 100 * century + 4 * cycle + year, dayOfCentury % 1461 - 365 * year)

theorem yearDay_spec (day : Int) : (0 ≤ (yearDay day).2 ∧ (yearDay day).2 ≤ 365) ∧
    yearStart (yearDay day).1 + (yearDay day).2 = day := by
  have hera : 0 ≤ day % 146097 ∧ day % 146097 < 146097 := by omega
  have hcentury : 0 ≤ min (day % 146097 / 36524) 3 ∧ min (day % 146097 / 36524) 3 ≤ 3 := by omega
  generalize hc : min (day % 146097 / 36524) 3 = century at hcentury
  have hdays : 0 ≤ day % 146097 - 36524 * century ∧ day % 146097 - 36524 * century ≤ 36524 := by
    omega
  generalize hd : day % 146097 - 36524 * century = dayOfCentury at hdays
  have hyear : 0 ≤ min (dayOfCentury % 1461 / 365) 3 ∧ min (dayOfCentury % 1461 / 365) 3 ≤ 3 := by
    omega
  generalize hy : min (dayOfCentury % 1461 / 365) 3 = year at hyear
  have hcycle : 0 ≤ dayOfCentury / 1461 ∧ dayOfCentury / 1461 ≤ 24 := by omega
  have hresult : yearDay day = (400 * (day / 146097) + 100 * century + 4 * (dayOfCentury / 1461) +
      year, dayOfCentury % 1461 - 365 * year) := by
    unfold yearDay
    simp only [hc, hd, hy]
  rw [hresult]
  dsimp only
  refine ⟨by omega, ?_⟩
  unfold yearStart
  have h400 : (400 * (day / 146097) + 100 * century + 4 * (dayOfCentury / 1461) + year) / 400 =
      day / 146097 := by omega
  have h100 : (400 * (day / 146097) + 100 * century + 4 * (dayOfCentury / 1461) + year) % 400 /
      100 = century := by omega
  have h4 : (400 * (day / 146097) + 100 * century + 4 * (dayOfCentury / 1461) + year) % 100 / 4 =
      dayOfCentury / 1461 := by omega
  have h1 : (400 * (day / 146097) + 100 * century + 4 * (dayOfCentury / 1461) + year) % 4 =
      year := by omega
  rw [h400, h100, h4, h1]
  omega

/-! ## Dates -/

/-- A date of the Gregorian calendar. -/
@[ext]
structure Date where
  year : Int
  month : Int
  day : Int
  deriving DecidableEq, Repr

/-- Days since the first of January 1970 as a date. Months are counted from March at first. -/
def dateOf (days : Int) : Date :=
  let (year, dayOfYear) := yearDay (days + 719468)
  let month := (5 * dayOfYear + 2) / 153
  { year := if month < 10 then year else year + 1
    month := if month < 10 then month + 3 else month - 9
    day := dayOfYear - (153 * month + 2) / 5 + 1 }

/-- The day of a date. -/
def daysOf (date : Date) : Int :=
  let year := if date.month < 3 then date.year - 1 else date.year
  let month := if date.month < 3 then date.month + 9 else date.month - 3
  yearStart year + (153 * month + 2) / 5 + date.day - 1 - 719468

theorem dateOf_spec (days : Int) : (1 ≤ (dateOf days).month ∧ (dateOf days).month ≤ 12) ∧
    (1 ≤ (dateOf days).day ∧ (dateOf days).day ≤ 31) ∧ daysOf (dateOf days) = days := by
  obtain ⟨hday, hstart⟩ := yearDay_spec (days + 719468)
  unfold daysOf dateOf
  generalize yearDay (days + 719468) = position at hday hstart
  obtain ⟨year, dayOfYear⟩ := position
  dsimp only at *
  have hmonth : 0 ≤ (5 * dayOfYear + 2) / 153 ∧ (5 * dayOfYear + 2) / 153 ≤ 11 := by omega
  by_cases hlate : (5 * dayOfYear + 2) / 153 < 10
  · have hmarch : ¬(5 * dayOfYear + 2) / 153 + 3 < 3 := by omega
    simp only [if_pos hlate, if_neg hmarch, Int.add_sub_cancel]
    omega
  · have hmarch : (5 * dayOfYear + 2) / 153 - 9 < 3 := by omega
    simp only [if_neg hlate, if_pos hmarch, Int.add_sub_cancel, Int.sub_add_cancel]
    omega

/-! ## Text -/

/-- The digits of a number, with zeros before them up to a width. -/
def padded (width n : Nat) : List Char :=
  List.replicate (width - (Nat.toDigits 10 n).length) '0' ++ Nat.toDigits 10 n

theorem padded_injective {width m n : Nat} (h : padded width m = padded width n) : m = n := by
  have hvalue : ∀ n, Nat.ofDigitChars 10 (padded width n) 0 = n := by
    intro n
    unfold padded
    induction width - (Nat.toDigits 10 n).length with
    | zero => exact Nat.ofDigitChars_ten_toDigits
    | succ k ih => exact ih
  rw [← hvalue m, h, hvalue]

theorem length_padded {width n : Nat} (hwidth : 0 < width) (h : n < 10 ^ width) :
    (padded width n).length = width := by
  have hlength := (Nat.length_toDigits_le_iff (by decide) hwidth).2 h
  rw [padded, List.length_append, List.length_replicate]
  omega

/-- Four digits for a year of our era that has no more, else a sign and six. -/
def yearText (year : Int) : List Char :=
  if year < 0 then '-' :: padded 6 year.natAbs
  else if year ≤ 9999 then padded 4 year.natAbs
  else '+' :: padded 6 year.natAbs

theorem head_padded (width n : Nat) : ∃ c rest, padded width n = c :: rest ∧ c.isDigit = true := by
  have hdigit : ∀ c ∈ padded width n, c.isDigit = true := by
    intro c hc
    rcases List.mem_append.1 hc with hzero | hdigits
    · rw [List.eq_of_mem_replicate hzero]
      rfl
    · exact Nat.isDigit_of_mem_toDigits (by decide) (by decide) hdigits
  cases hpadded : padded width n with
  | nil =>
    have hempty := (List.append_eq_nil_iff.1 hpadded).2
    exact absurd hempty Nat.toDigits_ne_nil
  | cons c rest => exact ⟨c, rest, rfl, hdigit c (hpadded ▸ List.mem_cons_self)⟩

/-- The sign of a year's text, or none. -/
theorem yearText_cases (year : Int) :
    (year < 0 ∧ yearText year = '-' :: padded 6 year.natAbs) ∨
    ((0 ≤ year ∧ year ≤ 9999) ∧ yearText year = padded 4 year.natAbs) ∨
    (9999 < year ∧ yearText year = '+' :: padded 6 year.natAbs) := by
  unfold yearText
  split_ifs with hneg hfour
  · exact .inl ⟨hneg, rfl⟩
  · exact .inr (.inl ⟨⟨by omega, hfour⟩, rfl⟩)
  · exact .inr (.inr ⟨by omega, rfl⟩)

theorem padded_ne_cons {width n : Nat} {c : Char} {text : List Char} (hc : c.isDigit = false) :
    padded width n ≠ c :: text := by
  obtain ⟨d, rest, hpadded, hd⟩ := head_padded width n
  intro h
  rw [hpadded] at h
  rw [(List.cons.inj h).1, hc] at hd
  cases hd

theorem yearText_injective {y z : Int} (h : yearText y = yearText z) : y = z := by
  rcases yearText_cases y with ⟨hy, hytext⟩ | ⟨hy, hytext⟩ | ⟨hy, hytext⟩ <;>
    rcases yearText_cases z with ⟨hz, hztext⟩ | ⟨hz, hztext⟩ | ⟨hz, hztext⟩ <;>
    rw [hytext, hztext] at h
  · have := padded_injective (List.cons.inj h).2
    omega
  · exact absurd h.symm (padded_ne_cons rfl)
  · cases (List.cons.inj h).1
  · exact absurd h (padded_ne_cons rfl)
  · have := padded_injective h
    omega
  · exact absurd h (padded_ne_cons rfl)
  · cases (List.cons.inj h).1
  · exact absurd h.symm (padded_ne_cons rfl)
  · have := padded_injective (List.cons.inj h).2
    omega

/-- The text of the rest of a date and of the milliseconds of a day. -/
def restText (date : Date) (ms : Nat) : List Char :=
  '-' :: padded 2 date.month.toNat ++ ('-' :: padded 2 date.day.toNat ++
    ('T' :: padded 2 (ms / 3600000) ++ (':' :: padded 2 (ms / 60000 % 60) ++
      (':' :: padded 2 (ms / 1000 % 60) ++ ('.' :: padded 3 (ms % 1000) ++ ['Z'])))))

/-- The text of a time: `YYYY-MM-DDTHH:mm:ss.sssZ`. -/
def isoString (time : Int) : String :=
  let date := dateOf (time / 86400000)
  String.ofList (yearText date.year ++ restText date (time % 86400000).toNat)

/-- A field of fixed width is read off the front. -/
theorem field_inj {width m n : Nat} {c : Char} {x y : List Char} (hwidth : 0 < width)
    (hm : m < 10 ^ width) (hn : n < 10 ^ width)
    (h : c :: padded width m ++ x = c :: padded width n ++ y) : m = n ∧ x = y := by
  have hlength : (c :: padded width m).length = (c :: padded width n).length := by
    rw [List.length_cons, List.length_cons, length_padded hwidth hm, length_padded hwidth hn]
  obtain ⟨hfield, hrest⟩ := List.append_inj h hlength
  exact ⟨padded_injective (List.cons.inj hfield).2, hrest⟩

theorem length_restText {date : Date} {ms : Nat} (hmonth : date.month.toNat < 100)
    (hday : date.day.toNat < 100) (hms : ms < 86400000) : (restText date ms).length = 20 := by
  have hhour : ms / 3600000 < 10 ^ 2 := by omega
  have hminute : ms / 60000 % 60 < 10 ^ 2 := by omega
  have hsecond : ms / 1000 % 60 < 10 ^ 2 := by omega
  have hmilli : ms % 1000 < 10 ^ 3 := by omega
  have htwo : 0 < 2 := by decide
  have hthree : 0 < 3 := by decide
  simp only [restText, List.length_append, List.length_cons, List.length_nil,
    length_padded htwo hmonth, length_padded htwo hday, length_padded htwo hhour,
    length_padded htwo hminute, length_padded htwo hsecond, length_padded hthree hmilli]

theorem restText_inj {date date' : Date} {ms ms' : Nat} (hmonth : date.month.toNat < 100)
    (hmonth' : date'.month.toNat < 100) (hday : date.day.toNat < 100)
    (hday' : date'.day.toNat < 100) (hms : ms < 86400000) (hms' : ms' < 86400000)
    (h : restText date ms = restText date' ms') :
    date.month.toNat = date'.month.toNat ∧ date.day.toNat = date'.day.toNat ∧ ms = ms' := by
  unfold restText at h
  obtain ⟨hm, h⟩ := field_inj (by decide) hmonth hmonth' h
  obtain ⟨hd, h⟩ := field_inj (by decide) hday hday' h
  obtain ⟨hhour, h⟩ := field_inj (by decide) (by omega) (by omega) h
  obtain ⟨hminute, h⟩ := field_inj (by decide) (by omega) (by omega) h
  obtain ⟨hsecond, h⟩ := field_inj (by decide) (by omega) (by omega) h
  obtain ⟨hmilli, -⟩ := field_inj (by decide) (by omega) (by omega) h
  exact ⟨hm, hd, by omega⟩

/-- A text is the text of one time. -/
theorem isoString_injective {s t : Int} (h : isoString s = isoString t) : s = t := by
  obtain ⟨⟨hmonth, hmonth'⟩, ⟨hday, hday'⟩, hdate⟩ := dateOf_spec (s / 86400000)
  obtain ⟨⟨hmonthT, hmonthT'⟩, ⟨hdayT, hdayT'⟩, hdateT⟩ := dateOf_spec (t / 86400000)
  have hms : (s % 86400000).toNat < 86400000 := by omega
  have hmsT : (t % 86400000).toNat < 86400000 := by omega
  have hlist : yearText (dateOf (s / 86400000)).year ++ _ = _ := String.ofList_injective h
  obtain ⟨hyear, hrest⟩ := List.append_inj' hlist (by
    rw [length_restText (by omega) (by omega) hms, length_restText (by omega) (by omega) hmsT])
  obtain ⟨hm, hd, htime⟩ := restText_inj (by omega) (by omega) (by omega) (by omega) hms hmsT hrest
  have hsame : dateOf (s / 86400000) = dateOf (t / 86400000) := by
    have hmonths : (dateOf (s / 86400000)).month = (dateOf (t / 86400000)).month := by omega
    have hdays : (dateOf (s / 86400000)).day = (dateOf (t / 86400000)).day := by omega
    exact Date.ext (yearText_injective hyear) hmonths hdays
  rw [hsame, hdateT] at hdate
  omega

example : isoString 1767225600123 = "2026-01-01T00:00:00.123Z" := by decide
example : isoString (-62198755200000) = "-000001-01-01T00:00:00.000Z" := by decide

end Calendar
