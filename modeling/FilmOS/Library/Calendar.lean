import FilmOS.Library.NumeralLaws
import Mathlib.Data.List.GetD
import Mathlib.Data.Prod.Lex
import Mathlib.Order.Basic

/-!
# Calendar

The dates of the Gregorian calendar, carried back to the year 1, and the times of UTC in
microseconds since 1970, as Python's `datetime` counts and writes them. A day is found from the
number of days before it by taking away years, then months (`Ymd.ofDays`), and the number of a day
is that of the days before its year, its month and itself (`Ymd.days`); `Ymd.days_ofDays` says that
the one undoes the other.

`isoDate` and `isoTime` are `date.isoformat` and `datetime.isoformat` in the time zone UTC. Their
texts are read back as what they were written for (`dateFromIso_isoDate`, `timeFromIso_isoTime`),
for all that a `datetime` can hold: the years 1 to 9999. The readers read these texts only, where
`fromisoformat` has further forms.
-/

set_option autoImplicit false
set_option relaxedAutoImplicit false

namespace FilmOS.Calendar

open Numeral

/-! ### Days -/

/-- A leap year. -/
def IsLeap (year : ℕ) : Prop := year % 4 = 0 ∧ (year % 100 ≠ 0 ∨ year % 400 = 0)

instance (year : ℕ) : Decidable (IsLeap year) := inferInstanceAs (Decidable (_ ∧ _))

/-- The lengths of the months of a year. -/
def monthLengths (year : ℕ) : List ℕ :=
  [31, if IsLeap year then 29 else 28, 31, 30, 31, 30, 31, 31, 30, 31, 30, 31]

/-- A year, a month and a day. -/
structure Ymd where
  year : ℕ
  month : ℕ
  day : ℕ
deriving DecidableEq

/-- The three make a date. -/
def Ymd.Valid (ymd : Ymd) : Prop :=
  (1 ≤ ymd.year ∧ ymd.year ≤ 9999) ∧ (1 ≤ ymd.month ∧ ymd.month ≤ 12) ∧
    1 ≤ ymd.day ∧ ymd.day ≤ (monthLengths ymd.year).getD (ymd.month - 1) 0

instance (ymd : Ymd) : Decidable ymd.Valid := inferInstanceAs (Decidable (_ ∧ _))

/-- A date. -/
abbrev Date := { ymd : Ymd // ymd.Valid }

theorem Date.place_injective : Function.Injective fun date : Date ↦
    toLex (date.val.year, toLex (date.val.month, date.val.day)) := by
  rintro ⟨⟨year, month, day⟩, hvalid⟩ ⟨⟨year', month', day'⟩, hvalid'⟩ h
  obtain ⟨rfl, h⟩ := Prod.mk.inj (toLex.injective h)
  obtain ⟨rfl, rfl⟩ := Prod.mk.inj (toLex.injective h)
  rfl

/-- Dates in the order of time. -/
instance : LinearOrder Date := LinearOrder.lift' _ Date.place_injective

/-- The number of days before a year. -/
def daysBeforeYear (year : ℕ) : ℕ :=
  (year - 1) * 365 + (year - 1) / 4 - (year - 1) / 100 + (year - 1) / 400

/-- The number of days before a day. -/
def Ymd.days (ymd : Ymd) : ℕ :=
  daysBeforeYear ymd.year + ((monthLengths ymd.year).take (ymd.month - 1)).sum + (ymd.day - 1)

/-- The year with so many days before a day in it, and how many of them are in the year. -/
def splitYear (days : ℕ) : ℕ × ℕ :=
  let n400 := days / 146097
  let rest := days % 146097
  let n100 := min (rest / 36524) 3
  let rest := rest - n100 * 36524
  let n4 := rest / 1461
  let rest := rest % 1461
  let n1 := min (rest / 365) 3
  (n400 * 400 + n100 * 100 + n4 * 4 + n1 + 1, rest - n1 * 365)

/-- How many months are over after some days, and the days after them. -/
def splitMonth : List ℕ → ℕ → ℕ × ℕ
  | [], days => (0, days)
  | length :: lengths, days =>
    if days < length then (0, days)
    else ((splitMonth lengths (days - length)).1 + 1, (splitMonth lengths (days - length)).2)

/-- The day with so many days before it. -/
def Ymd.ofDays (days : ℕ) : Ymd :=
  let (year, rest) := splitYear days
  let (month, rest) := splitMonth (monthLengths year) rest
  ⟨year, month + 1, rest + 1⟩

theorem sum_monthLengths (year : ℕ) :
    (monthLengths year).sum = if IsLeap year then 366 else 365 := by
  unfold monthLengths
  split_ifs <;> rfl

/-- The whole spans of four hundred, a hundred, four years and one that are over, and the days of
the year: there is a last day of a leap year only in the last year of a span of four, and in that of
a span of a hundred only if it is the last of four hundred. -/
theorem splitYear_spans (days : ℕ) : ∃ n400 n100 n4 n1, n100 ≤ 3 ∧ n4 ≤ 24 ∧ n1 ≤ 3 ∧
    (splitYear days).1 = n400 * 400 + n100 * 100 + n4 * 4 + n1 + 1 ∧
    days = n400 * 146097 + n100 * 36524 + n4 * 1461 + n1 * 365 + (splitYear days).2 ∧
    ((splitYear days).2 < 365 ∨
      (splitYear days).2 = 365 ∧ n1 = 3 ∧ (n4 ≠ 24 ∨ n100 = 3)) := by
  refine ⟨_, min (days % 146097 / 36524) 3, _, _, ?_, ?_, ?_, rfl, ?_, ?_⟩
  · omega
  · omega
  · omega
  · unfold splitYear
    dsimp only
    omega
  · unfold splitYear
    dsimp only
    omega

theorem isLeap_iff {n400 n100 n4 n1 : ℕ} (h100 : n100 ≤ 3) (h4 : n4 ≤ 24) (h1 : n1 ≤ 3) :
    IsLeap (n400 * 400 + n100 * 100 + n4 * 4 + n1 + 1) ↔ n1 = 3 ∧ (n4 ≠ 24 ∨ n100 = 3) := by
  unfold IsLeap
  omega

theorem daysBeforeYear_spans {n400 n100 n4 n1 : ℕ} (h100 : n100 ≤ 3) (h4 : n4 ≤ 24)
    (h1 : n1 ≤ 3) : daysBeforeYear (n400 * 400 + n100 * 100 + n4 * 4 + n1 + 1) =
      n400 * 146097 + n100 * 36524 + n4 * 1461 + n1 * 365 := by
  unfold daysBeforeYear
  have hfour : (n400 * 400 + n100 * 100 + n4 * 4 + n1) / 4 = n400 * 100 + n100 * 25 + n4 := by
    omega
  have hhundred : (n400 * 400 + n100 * 100 + n4 * 4 + n1) / 100 = n400 * 4 + n100 := by omega
  have hfourHundred : (n400 * 400 + n100 * 100 + n4 * 4 + n1) / 400 = n400 := by omega
  rw [Nat.add_sub_cancel, hfour, hhundred, hfourHundred]
  omega

/-- The days of a year are those before it and fewer than it has. -/
theorem splitYear_days (days : ℕ) :
    1 ≤ (splitYear days).1 ∧ daysBeforeYear (splitYear days).1 + (splitYear days).2 = days ∧
      (splitYear days).2 < (monthLengths (splitYear days).1).sum := by
  obtain ⟨n400, n100, n4, n1, h100, h4, h1, hyear, hdays, hrest⟩ := splitYear_spans days
  rw [sum_monthLengths, hyear, daysBeforeYear_spans h100 h4 h1]
  refine ⟨Nat.le_add_left _ _, hdays.symm, ?_⟩
  rcases hrest with hrest | ⟨hrest, hleap⟩
  · split_ifs <;> omega
  · rw [if_pos ((isLeap_iff h100 h4 h1).mpr hleap), hrest]
    decide

theorem splitMonth_days (lengths : List ℕ) {days : ℕ} (h : days < lengths.sum) :
    (splitMonth lengths days).1 < lengths.length ∧
      (lengths.take (splitMonth lengths days).1).sum + (splitMonth lengths days).2 = days ∧
      (splitMonth lengths days).2 < lengths.getD (splitMonth lengths days).1 0 := by
  induction lengths generalizing days with
  | nil => cases h
  | cons length lengths ih =>
    unfold splitMonth
    split_ifs with hfirst
    · exact ⟨Nat.zero_lt_succ _, Nat.zero_add _, hfirst⟩
    · rw [List.sum_cons] at h
      have hbehind : days - length < lengths.sum := by omega
      obtain ⟨hindex, hsum, hrest⟩ := ih hbehind
      refine ⟨Nat.succ_lt_succ hindex, ?_, hrest⟩
      rw [List.take_succ_cons, List.sum_cons]
      omega

/-- The number of a day found from a number is that number. -/
theorem Ymd.days_ofDays (days : ℕ) : (Ymd.ofDays days).days = days := by
  obtain ⟨-, hyear, hrest⟩ := splitYear_days days
  obtain ⟨-, hmonth, -⟩ := splitMonth_days _ hrest
  unfold Ymd.days Ymd.ofDays
  dsimp only
  rw [Nat.add_sub_cancel, Nat.add_sub_cancel, Nat.add_assoc, hmonth, hyear]

/-- The days before the year 10000 are dates. -/
theorem Ymd.valid_ofDays {days : ℕ} (h : days < 3652059) : (Ymd.ofDays days).Valid := by
  obtain ⟨hfirst, hyear, hrest⟩ := splitYear_days days
  obtain ⟨hindex, -, hday⟩ := splitMonth_days _ hrest
  have hlast : (splitYear days).1 ≤ 9999 := by
    unfold splitYear
    dsimp only
    omega
  exact ⟨⟨hfirst, hlast⟩, ⟨Nat.le_add_left _ _, hindex⟩, Nat.le_add_left _ _, hday⟩

/-! ### Texts -/

/-- A number in decimal digits, with zeros in front. -/
def field (width n : ℕ) : List Char := padZeros width (Nat.toDigits 10 n)

/-- The number of so many digits at the start of a text, and the rest. -/
def readField (width : ℕ) (text : List Char) : Option (ℕ × List Char) :=
  if width ≤ text.length ∧ (text.take width).all Char.isDigit then
    some (Nat.ofDigitChars 10 (text.take width) 0, text.drop width)
  else none

/-- `date.isoformat`. -/
def isoDate (ymd : Ymd) : List Char :=
  field 4 ymd.year ++ '-' :: (field 2 ymd.month ++ '-' :: field 2 ymd.day)

/-- A time of the day, in microseconds, as `datetime.isoformat` writes it: the fraction of a second
only if there is one. -/
def isoClock (micros : ℕ) : List Char :=
  field 2 (micros / 3600000000) ++ ':' :: (field 2 (micros / 60000000 % 60) ++ ':' ::
    (field 2 (micros / 1000000 % 60) ++
      if micros % 1000000 = 0 then [] else '.' :: field 6 (micros % 1000000)))

/-- The microseconds of a day. -/
def dayMicros : ℕ := 86400000000

/-- The microseconds from the beginning of the year 1 to that of 1970. -/
def epochMicros : ℕ := 719162 * dayMicros

/-- A `datetime` can hold the time: it is in the years 1 to 9999. -/
def Representable (time : ℤ) : Prop :=
  0 ≤ time + epochMicros ∧ time + epochMicros < 3652059 * dayMicros

instance (time : ℤ) : Decidable (Representable time) := inferInstanceAs (Decidable (_ ∧ _))

/-- `datetime.isoformat` in the time zone UTC. -/
def isoTime (time : ℤ) : List Char :=
  let micros := (time + epochMicros).toNat
  isoDate (Ymd.ofDays (micros / dayMicros)) ++ 'T' ::
    (isoClock (micros % dayMicros) ++ ['+', '0', '0', ':', '0', '0'])

/-- A year, a month and a day at the start of a text, and the rest. -/
def readYmd (text : List Char) : Option (Ymd × List Char) := do
  let (year, text) ← readField 4 text
  let text ← ['-'].isPrefixOf? text
  let (month, text) ← readField 2 text
  let text ← ['-'].isPrefixOf? text
  let (day, text) ← readField 2 text
  return (⟨year, month, day⟩, text)

/-- `date.fromisoformat` of a text that `isoDate` may have written. -/
def dateFromIso (text : List Char) : Option Date := do
  let (ymd, text) ← readYmd text
  if hvalid : ymd.Valid then (if text = [] then some ⟨ymd, hvalid⟩ else none) else none

/-- The microseconds at the start of a text, if it begins with a point, and the rest. -/
def readFraction (text : List Char) : Option (ℕ × List Char) :=
  if text.head? = some '.' then readField 6 text.tail else some (0, text)

/-- A time of the day at the start of a text, and the rest. -/
def readClock (text : List Char) : Option (ℕ × List Char) := do
  let (hour, text) ← readField 2 text
  let text ← [':'].isPrefixOf? text
  let (minute, text) ← readField 2 text
  let text ← [':'].isPrefixOf? text
  let (second, text) ← readField 2 text
  let (micros, text) ← readFraction text
  if hour < 24 ∧ minute < 60 ∧ second < 60 then
    return (((hour * 60 + minute) * 60 + second) * 1000000 + micros, text)
  else none

/-- `datetime.fromisoformat` of a text that `isoTime` may have written. -/
def timeFromIso (text : List Char) : Option ℤ := do
  let (ymd, text) ← readYmd text
  let text ← ['T'].isPrefixOf? text
  let (micros, text) ← readClock text
  if ymd.Valid ∧ text = ['+', '0', '0', ':', '0', '0'] then
    return (ymd.days * dayMicros + micros : ℕ) - epochMicros
  else none

/-! ### The round trip -/

theorem readField_field {width n : ℕ} (hwidth : 0 < width) (h : n < 10 ^ width)
    (rest : List Char) : readField width (field width n ++ rest) = some (n, rest) := by
  have hlength : (field width n).length = width := by
    have hle := (Nat.length_toDigits_le_iff (b := 10) (by decide) hwidth).mpr h
    unfold field padZeros
    rw [List.length_append, List.length_replicate]
    omega
  unfold readField
  rw [List.take_left' hlength, List.drop_left' hlength, if_pos]
  · unfold field
    rw [ofDigitChars_padZeros]
  · refine ⟨by rw [List.length_append]; omega, List.all_eq_true.mpr fun c hc ↦ ?_⟩
    exact isDigit_of_mem_padZeros hc

theorem Ymd.Valid.day_lt {ymd : Ymd} (h : ymd.Valid) : ymd.day < 10 ^ 2 := by
  obtain ⟨-, ⟨-, hmonth⟩, -, hday⟩ := h
  have hindex : ymd.month - 1 < (monthLengths ymd.year).length := by
    change _ < 12
    omega
  have hlengths : ∀ length ∈ monthLengths ymd.year, length ≤ 31 := by
    unfold monthLengths
    split_ifs <;> decide
  rw [List.getD_eq_getElem _ _ hindex] at hday
  have hlength := hlengths _ (List.getElem_mem hindex)
  omega

theorem readYmd_isoDate {ymd : Ymd} (h : ymd.Valid) (rest : List Char) :
    readYmd (isoDate ymd ++ rest) = some (ymd, rest) := by
  have hyear : ∀ rest, readField 4 (field 4 ymd.year ++ rest) = some (ymd.year, rest) :=
    readField_field (by decide) (Nat.lt_of_le_of_lt h.1.2 (by decide))
  have hmonth : ∀ rest, readField 2 (field 2 ymd.month ++ rest) = some (ymd.month, rest) :=
    readField_field (by decide) (Nat.lt_of_le_of_lt h.2.1.2 (by decide))
  have hday : ∀ rest, readField 2 (field 2 ymd.day ++ rest) = some (ymd.day, rest) :=
    readField_field (by decide) h.day_lt
  have hdash : ∀ rest, ['-'].isPrefixOf? ('-' :: rest) = some rest := fun _ ↦ rfl
  unfold readYmd isoDate
  simp only [List.append_assoc, List.cons_append, hyear, hmonth, hday, hdash, Option.bind_eq_bind,
    Option.bind_some]
  rfl

/-- A date is read back from its text. -/
theorem dateFromIso_isoDate (date : Date) : dateFromIso (isoDate date.val) = some date := by
  have hread := readYmd_isoDate date.property []
  rw [List.append_nil] at hread
  unfold dateFromIso
  rw [hread, Option.bind_eq_bind, Option.bind_some]
  dsimp only
  rw [dif_pos date.property, if_pos rfl]

theorem readFraction_isoClock {micros : ℕ} (h : micros < 10 ^ 6) {rest : List Char}
    (hrest : rest.head? ≠ some '.') :
    readFraction ((if micros = 0 then [] else '.' :: field 6 micros) ++ rest) =
      some (micros, rest) := by
  unfold readFraction
  split_ifs with hzero hpoint hpoint
  · exact absurd hpoint hrest
  · rw [hzero]
    rfl
  · exact readField_field (by decide) h rest
  · exact absurd rfl hpoint

/-- A time of the day is read back from its text. -/
theorem readClock_isoClock {micros : ℕ} (h : micros < dayMicros) {rest : List Char}
    (hrest : rest.head? ≠ some '.') :
    readClock (isoClock micros ++ rest) = some (micros, rest) := by
  unfold dayMicros at h
  have hhour : ∀ rest, readField 2 (field 2 (micros / 3600000000) ++ rest) =
      some (micros / 3600000000, rest) := readField_field (by decide) (by omega)
  have hminute : ∀ rest, readField 2 (field 2 (micros / 60000000 % 60) ++ rest) =
      some (micros / 60000000 % 60, rest) := readField_field (by decide) (by omega)
  have hsecond : ∀ rest, readField 2 (field 2 (micros / 1000000 % 60) ++ rest) =
      some (micros / 1000000 % 60, rest) := readField_field (by decide) (by omega)
  have hmicros : micros % 1000000 < 10 ^ 6 := Nat.mod_lt micros (by decide)
  have hfraction := readFraction_isoClock hmicros hrest
  have hcolon : ∀ rest, [':'].isPrefixOf? (':' :: rest) = some rest := fun _ ↦ rfl
  unfold readClock isoClock
  simp only [List.append_assoc, List.cons_append, hhour, hminute, hsecond, hfraction, hcolon,
    Option.bind_eq_bind, Option.bind_some]
  rw [if_pos (by omega), show ((micros / 3600000000 * 60 + micros / 60000000 % 60) * 60 +
    micros / 1000000 % 60) * 1000000 + micros % 1000000 = micros by omega]
  rfl

/-- A time that a `datetime` can hold is read back from its text. -/
theorem timeFromIso_isoTime {time : ℤ} (h : Representable time) :
    timeFromIso (isoTime time) = some time := by
  obtain ⟨hfirst, hlast⟩ := h
  obtain ⟨micros, hmicros⟩ := Int.eq_ofNat_of_zero_le hfirst
  have hdays : micros / dayMicros < 3652059 :=
    Nat.div_lt_of_lt_mul (by rw [Nat.mul_comm]; exact_mod_cast hmicros ▸ hlast)
  have hvalid := Ymd.valid_ofDays hdays
  have hzone : ['+', '0', '0', ':', '0', '0'].head? ≠ some '.' := by decide
  have hclock := readClock_isoClock (Nat.mod_lt micros (by decide : 0 < dayMicros)) hzone
  have hletter : ∀ rest, ['T'].isPrefixOf? ('T' :: rest) = some rest := fun _ ↦ rfl
  unfold timeFromIso isoTime
  rw [hmicros, Int.toNat_natCast]
  simp only [readYmd_isoDate hvalid, hletter, hclock, Option.bind_eq_bind, Option.bind_some]
  rw [if_pos ⟨hvalid, trivial⟩, Ymd.days_ofDays, Nat.div_add_mod']
  exact congrArg some (by omega)

end FilmOS.Calendar
