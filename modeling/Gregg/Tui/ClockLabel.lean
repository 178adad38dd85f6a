import Gregg.Greggd.Calendar
import Gregg.Tui.CronRows

/-!
# The clock of a cron record

The month and the day of a record are computed from its day number in closed form. The reference is
a calendar that goes from one day to the next, from the first of January 1970 on.
-/

namespace Gregg.Tui

/-- A date of the proleptic Gregorian calendar. -/
structure CivilDate where
  year : ℤ
  month : ℕ
  day : ℕ
  deriving DecidableEq

namespace CivilDate

/-- Whether the year has a leap day. -/
def isLeapYear (year : ℤ) : Bool :=
  year % 4 == 0 && (year % 100 != 0 || year % 400 == 0)

def daysInMonth (year : ℤ) (month : ℕ) : ℕ :=
  if month = 2 then (if isLeapYear year then 29 else 28)
  else if month = 4 ∨ month = 6 ∨ month = 9 ∨ month = 11 then 30
  else 31

def epoch : CivilDate := ⟨1970, 1, 1⟩

/-- The day after. -/
def next (date : CivilDate) : CivilDate :=
  if date.day < daysInMonth date.year date.month then { date with day := date.day + 1 }
  else if date.month < 12 then ⟨date.year, date.month + 1, 1⟩
  else ⟨date.year + 1, 1, 1⟩

/-- The date so many days after the first of January 1970. -/
def afterDays : ℕ → CivilDate
  | 0 => epoch
  | days + 1 => (afterDays days).next

example : afterDays 59 = ⟨1970, 3, 1⟩ := by decide +kernel

/-- The first day of a year that begins in March, from the beginning of its era. -/
def yearStart (year : ℤ) : ℤ :=
  365 * year + year / 4 - year / 100

/-- The leap day ends a year that begins in March. -/
def yearLength (year : ℤ) : ℤ :=
  if isLeapYear (year + 1) then 366 else 365

end CivilDate

namespace CronPane

open CivilDate

/-- The year of the era by the quotients of the day of the era. -/
def yearOfEra (dayOfEra : ℤ) : ℤ :=
  (dayOfEra - dayOfEra / 1460 + dayOfEra / 36524 - dayOfEra / 146096) / 365

/-- A year of the era by its century, its group of four years and its place in it. -/
theorem exists_yearParts {year : ℤ} (yearRange : 0 ≤ year ∧ year ≤ 399) :
    ∃ century group rest : ℤ, year = 100 * century + 4 * group + rest ∧
      (0 ≤ century ∧ century ≤ 3) ∧ (0 ≤ group ∧ group ≤ 24) ∧ (0 ≤ rest ∧ rest ≤ 3) :=
  ⟨year / 100, year % 100 / 4, year % 100 % 4, by omega, by omega, by omega, by omega⟩

/-- The year before a leap year ends a group of four, and a century only where it ends the era. -/
theorem isLeapYear_succ_iff {century group rest : ℤ} (centuryRange : 0 ≤ century ∧ century ≤ 3)
    (groupRange : 0 ≤ group ∧ group ≤ 24) (restRange : 0 ≤ rest ∧ rest ≤ 3) :
    isLeapYear (100 * century + 4 * group + rest + 1) = true ↔
      rest = 3 ∧ (group = 24 → century = 3) := by
  simp only [isLeapYear, Bool.and_eq_true, Bool.or_eq_true, beq_iff_eq, bne_iff_ne]
  omega

theorem yearStart_parts {century group rest : ℤ} (groupRange : 0 ≤ group ∧ group ≤ 24)
    (restRange : 0 ≤ rest ∧ rest ≤ 3) :
    yearStart (100 * century + 4 * group + rest) =
      36524 * century + 1461 * group + 365 * rest := by
  have fourths : (100 * century + 4 * group + rest) / 4 = 25 * century + group := by omega
  have hundredths : (100 * century + 4 * group + rest) / 100 = century := by omega
  rw [yearStart, fourths, hundredths]
  omega

/-- The quotients find the year that a day of the era is in. -/
theorem yearOfEra_eq {year day : ℤ} (yearRange : 0 ≤ year ∧ year ≤ 399)
    (dayRange : 0 ≤ day ∧ day < yearLength year) : yearOfEra (yearStart year + day) = year := by
  rcases exists_yearParts yearRange with
    ⟨century, group, rest, rfl, centuryRange, groupRange, restRange⟩
  have dayLe : day ≤ 365 := by
    rw [yearLength] at dayRange
    split at dayRange <;> omega
  have leap : day = 365 → rest = 3 ∧ (group = 24 → century = 3) := by
    intro isLast
    by_contra common
    rw [yearLength, if_neg fun isLeap =>
      common ((isLeapYear_succ_iff centuryRange groupRange restRange).mp isLeap)] at dayRange
    omega
  rw [yearStart_parts groupRange restRange, yearOfEra]
  by_cases endsEra : 36524 * century + 1461 * group + 365 * rest + day = 146096
  · rw [endsEra]
    omega
  · exact NaiveDate.yearOfEra_of_parts centuryRange groupRange restRange ⟨dayRange.1, dayLe⟩
      (fun last => (leap last).1) (by omega)

/-- Every day of the era is a day of one of its years. -/
theorem exists_yearDay {dayOfEra : ℤ} (lower : 0 ≤ dayOfEra) (upper : dayOfEra < 146097) :
    ∃ year day, (0 ≤ year ∧ year ≤ 399) ∧ (0 ≤ day ∧ day < yearLength year) ∧
      dayOfEra = yearStart year + day := by
  rcases NaiveDate.exists_parts lower upper with
    ⟨century, group, rest, day, rfl, centuryRange, groupRange, restRange, dayRange, leap⟩
  refine ⟨100 * century + 4 * group + rest, day, by omega, ⟨dayRange.1, ?_⟩, ?_⟩
  · rw [yearLength]
    split
    · omega
    · rename_i common
      have notLast : day ≠ 365 := fun isLast =>
        common ((isLeapYear_succ_iff centuryRange groupRange restRange).mpr (leap isLast))
      omega
  · rw [yearStart_parts groupRange restRange]

theorem yearStart_succ {year : ℤ} (yearRange : 0 ≤ year ∧ year ≤ 398) :
    yearStart (year + 1) = yearStart year + yearLength year := by
  rw [yearLength, yearStart, yearStart]
  by_cases isLeap : isLeapYear (year + 1) = true
  · rw [if_pos isLeap]
    simp only [isLeapYear, Bool.and_eq_true, Bool.or_eq_true, beq_iff_eq, bne_iff_ne] at isLeap
    omega
  · rw [if_neg isLeap]
    simp only [isLeapYear, Bool.and_eq_true, Bool.or_eq_true, beq_iff_eq, bne_iff_ne] at isLeap
    omega

theorem yearStart_last : yearStart 399 + yearLength 399 = 146097 := by
  decide

theorem isLeapYear_era (era year : ℤ) : isLeapYear (400 * era + year) = isLeapYear year := by
  rw [Bool.eq_iff_iff]
  simp only [isLeapYear, Bool.and_eq_true, Bool.or_eq_true, beq_iff_eq, bne_iff_ne]
  omega

/-- The months since March of a day of the year. -/
def monthPrime (dayOfYear : ℤ) : ℤ :=
  (5 * dayOfYear + 2) / 153

/-- The day of the year that a month since March begins on. -/
def monthStart (monthPrime : ℤ) : ℤ :=
  (153 * monthPrime + 2) / 5

/-- The date of a day in a year of an era. -/
def dateOf (era year dayOfYear : ℤ) : CivilDate where
  year := 400 * era + year + (if monthPrime dayOfYear < 10 then 0 else 1)
  month := (if monthPrime dayOfYear < 10 then monthPrime dayOfYear + 3
    else monthPrime dayOfYear - 9).toNat
  day := (dayOfYear - monthStart (monthPrime dayOfYear) + 1).toNat

/-- The date of a day number by the closed form. -/
def civilDate (days : ℤ) : CivilDate :=
  let shifted := days + 719468
  let era := shifted / 146097
  let dayOfEra := shifted - era * 146097
  dateOf era (yearOfEra dayOfEra) (dayOfEra - yearStart (yearOfEra dayOfEra))

theorem civilFromDays_eq (days : ℤ) :
    civilFromDays days = ((civilDate days).month, (civilDate days).day) :=
  rfl

theorem civilDate_eq {era year day : ℤ} (yearRange : 0 ≤ year ∧ year ≤ 399)
    (dayRange : 0 ≤ day ∧ day < yearLength year) :
    civilDate (146097 * era + yearStart year + day - 719468) = dateOf era year day := by
  have upper : yearStart year + day < 146097 := by
    rcases lt_or_ge year 399 with within | isLast
    · have following := @yearStart_succ year (by omega)
      have bound : yearStart (year + 1) ≤ 146096 := by
        rw [yearStart]
        omega
      omega
    · have isLast : year = 399 := by omega
      subst isLast
      have whole := yearStart_last
      omega
  have lower : 0 ≤ yearStart year := by
    rw [yearStart]
    omega
  have isEra : (146097 * era + yearStart year + day - 719468 + 719468) / 146097 = era := by
    omega
  have isDay : 146097 * era + yearStart year + day - 719468 + 719468 - era * 146097 =
      yearStart year + day := by
    omega
  simp only [civilDate, isEra, isDay, yearOfEra_eq yearRange dayRange]
  congr 1
  omega

/-- The length of a month since March, of which February is the last. -/
theorem monthLength {month : ℤ} (monthRange : 0 ≤ month ∧ month ≤ 10) (year : ℤ) :
    CivilDate.daysInMonth year (if month < 10 then month + 3 else month - 9).toNat =
      monthStart (month + 1) - monthStart month := by
  rcases monthRange with ⟨lower, upper⟩
  interval_cases month <;> rfl

theorem monthPrime_range {day : ℤ} (lower : 0 ≤ day) (upper : day ≤ 365) :
    0 ≤ monthPrime day ∧ monthPrime day ≤ 11 := by
  rw [monthPrime]
  omega

/-- The next day is in the same month unless the next month begins on it. -/
theorem monthPrime_succ (day : ℤ) :
    monthPrime (day + 1) =
      if day + 1 = monthStart (monthPrime day + 1) then monthPrime day + 1 else monthPrime day := by
  rw [monthStart, monthPrime, monthPrime]
  split <;> omega

theorem monthStart_le (day : ℤ) : monthStart (monthPrime day) ≤ day := by
  rw [monthStart, monthPrime]
  omega

theorem lt_monthStart_succ (day : ℤ) : day < monthStart (monthPrime day + 1) := by
  rw [monthStart, monthPrime]
  omega

/-- The next day, in a month of which the length is known. -/
theorem next_of_length {date : CivilDate} {length : ℕ}
    (isLength : CivilDate.daysInMonth date.year date.month = length) :
    date.next =
      if date.day < length then { date with day := date.day + 1 }
      else if date.month < 12 then ⟨date.year, date.month + 1, 1⟩
      else ⟨date.year + 1, 1, 1⟩ := by
  rw [next, isLength]

theorem next_dateOf_month {era year day : ℤ} (lower : 0 ≤ day) (upper : monthPrime day ≤ 10) :
    (dateOf era year day).next = dateOf era year (day + 1) := by
  have positive : 0 ≤ monthPrime day := by
    rw [monthPrime]
    omega
  have isStart := monthStart_le day
  have isEnd := lt_monthStart_succ day
  have isSucc := monthPrime_succ day
  have isLength : CivilDate.daysInMonth (dateOf era year day).year (dateOf era year day).month =
      (monthStart (monthPrime day + 1) - monthStart (monthPrime day)).toNat := by
    rw [← monthLength ⟨positive, upper⟩ (dateOf era year day).year, Int.toNat_natCast]
    rfl
  rw [next_of_length isLength]
  by_cases ends : day + 1 = monthStart (monthPrime day + 1)
  · rw [if_pos ends] at isSucc
    rw [if_neg (by simp only [dateOf]; omega)]
    simp only [dateOf, isSucc, ← ends]
    rcases lt_trichotomy (monthPrime day) 9 with within | isDecember | isJanuary
    · simp (disch := omega) only [if_pos, CivilDate.mk.injEq, true_and]
      omega
    · simp [isDecember]
    · have isJanuary : monthPrime day = 10 := by omega
      simp [isJanuary]
  · rw [if_neg ends] at isSucc
    rw [if_pos (by simp only [dateOf]; omega)]
    simp only [dateOf, isSucc, CivilDate.mk.injEq, true_and]
    omega

/-- February is the last month of a year that begins in March. -/
theorem daysInMonth_february {era year day : ℤ} (isMonth : monthPrime day = 11) :
    (dateOf era year day).month = 2 ∧
      CivilDate.daysInMonth (dateOf era year day).year (dateOf era year day).month =
        (yearLength year - 337).toNat := by
  have isFebruary : (dateOf era year day).month = 2 := by
    simp only [dateOf, isMonth]
    rfl
  have isYear : (dateOf era year day).year = 400 * era + (year + 1) := by
    simp only [dateOf, isMonth]
    rw [if_neg (by decide), Int.add_assoc]
  refine ⟨isFebruary, ?_⟩
  rw [isFebruary, CivilDate.daysInMonth, if_pos rfl, isYear, isLeapYear_era, yearLength]
  split <;> rfl

theorem day_february {era year day : ℤ} (isMonth : monthPrime day = 11) :
    (dateOf era year day).day = (day - 336).toNat := by
  have isStart : monthStart 11 = 337 := by decide
  simp only [dateOf, isMonth, isStart]
  omega

/-- The day after a day within a year is the next one of the calendar. -/
theorem next_dateOf {era year day : ℤ} (lower : 0 ≤ day) (upper : day + 1 < yearLength year) :
    (dateOf era year day).next = dateOf era year (day + 1) := by
  have atMost : yearLength year ≤ 366 := by
    rw [yearLength]
    split <;> decide
  rcases monthPrime_range lower (by omega) with ⟨-, monthLe⟩
  rcases lt_or_ge (monthPrime day) 11 with within | isLast
  · exact next_dateOf_month lower (by omega)
  · have isMonth : monthPrime day = 11 := Int.le_antisymm monthLe isLast
    have isNext : monthPrime (day + 1) = 11 := by
      rw [monthPrime] at isMonth ⊢
      omega
    have isStart := monthStart_le day
    have isFirst : monthStart 11 = 337 := by decide
    rw [isMonth, isFirst] at isStart
    rw [next_of_length (daysInMonth_february isMonth).2, day_february isMonth, if_pos (by omega)]
    simp only [dateOf, isMonth, isNext, isFirst, CivilDate.mk.injEq, true_and]
    omega

/-- After the last day of a year in February comes the first one in March. -/
theorem next_dateOf_last (era year : ℤ) :
    (dateOf era year (yearLength year - 1)).next = ⟨400 * era + year + 1, 3, 1⟩ := by
  have isMonth : monthPrime (yearLength year - 1) = 11 := by
    rw [monthPrime, yearLength]
    split <;> decide
  rw [next_of_length (daysInMonth_february isMonth).2, day_february isMonth, if_neg (by omega),
    (daysInMonth_february isMonth).1, if_pos (by decide)]
  simp only [dateOf, isMonth]
  rw [if_neg (by decide)]

theorem next_civilDate (days : ℤ) : (civilDate days).next = civilDate (days + 1) := by
  have range : 0 ≤ (days + 719468) % 146097 ∧ (days + 719468) % 146097 < 146097 := by omega
  rcases exists_yearDay range.1 range.2 with ⟨year, day, yearRange, dayRange, isDay⟩
  obtain ⟨era, rfl⟩ : ∃ era, days = 146097 * era + yearStart year + day - 719468 :=
    ⟨(days + 719468) / 146097, by omega⟩
  rw [civilDate_eq yearRange dayRange]
  rcases lt_or_ge (day + 1) (yearLength year) with within | isLast
  · have isNext : 146097 * era + yearStart year + day - 719468 + 1 =
        146097 * era + yearStart year + (day + 1) - 719468 := by omega
    rw [next_dateOf dayRange.1 within, isNext, civilDate_eq yearRange ⟨by omega, within⟩]
  · have isEnd : day = yearLength year - 1 := by omega
    have positive : ∀ year, 0 < yearLength year := by
      intro year
      rw [yearLength]
      split <;> decide
    rw [isEnd, next_dateOf_last]
    rcases lt_or_ge year 399 with within | isLastYear
    · have isNext : 146097 * era + yearStart year + (yearLength year - 1) - 719468 + 1 =
          146097 * era + yearStart (year + 1) + 0 - 719468 := by
        rw [yearStart_succ (by omega)]
        omega
      rw [isNext, civilDate_eq (by omega) ⟨Int.le_refl 0, positive _⟩]
      simp only [dateOf, CivilDate.mk.injEq]
      exact ⟨by rw [if_pos (by decide)]; omega, rfl, rfl⟩
    · have isLastYear : year = 399 := by omega
      subst isLastYear
      have whole := yearStart_last
      have isNext : 146097 * era + yearStart 399 + (yearLength 399 - 1) - 719468 + 1 =
          146097 * (era + 1) + yearStart 0 + 0 - 719468 := by
        have isZero : yearStart 0 = 0 := by decide
        omega
      rw [isNext, civilDate_eq (by decide) ⟨Int.le_refl 0, positive _⟩]
      simp only [dateOf, CivilDate.mk.injEq]
      exact ⟨by rw [if_pos (by decide)]; omega, rfl, rfl⟩

/-- The closed form goes through the days of the reference calendar. -/
theorem civilDate_natCast (days : ℕ) : civilDate days = afterDays days := by
  induction days with
  | zero => decide
  | succ days hypothesis =>
      rw [afterDays, ← hypothesis, next_civilDate, Int.natCast_succ]

/-- A value of an `i64`, unless it overflows. -/
def checked (value : ℤ) : Option ℤ :=
  if -2 ^ 63 ≤ value ∧ value < 2 ^ 63 then some value else none

/-- A value as a `u32`, or 0 where it is none. -/
def toU32 (value : ℤ) : ℕ :=
  if 0 ≤ value ∧ value < 2 ^ 32 then value.toNat else 0

/-- The month and the day of a day number in the arithmetic of an `i64`. -/
def checkedCivilFromDays (days : ℤ) : Option (ℕ × ℕ) := do
  let shifted ← checked (days + 719468)
  let era ← checked (shifted / 146097)
  let eraStart ← checked (era * 146097)
  let dayOfEra ← checked (shifted - eraStart)
  let withoutFourths ← checked (dayOfEra - dayOfEra.tdiv 1460)
  let withCenturies ← checked (withoutFourths + dayOfEra.tdiv 36524)
  let regular ← checked (withCenturies - dayOfEra.tdiv 146096)
  let yearOfEra := regular.tdiv 365
  let years ← checked (365 * yearOfEra)
  let withLeapDays ← checked (years + yearOfEra.tdiv 4)
  let yearStart ← checked (withLeapDays - yearOfEra.tdiv 100)
  let dayOfYear ← checked (dayOfEra - yearStart)
  let fifths ← checked (5 * dayOfYear)
  let rounded ← checked (fifths + 2)
  let monthPrime := rounded.tdiv 153
  let monthFifths ← checked (153 * monthPrime)
  let roundedMonth ← checked (monthFifths + 2)
  let dayBefore ← checked (dayOfYear - roundedMonth.tdiv 5)
  let day ← checked (dayBefore + 1)
  let month ← checked (if monthPrime < 10 then monthPrime + 3 else monthPrime - 9)
  some (toU32 month, toU32 day)

/-- An instant as `MM-DD HH:MMZ`, unless the arithmetic overflows. -/
def checkedClockLabel (unixMs : ℕ) : Option String := do
  let days : ℤ := if unixMs / 86400000 < 2 ^ 63 then unixMs / 86400000 else 2 ^ 63 - 1
  let secondsOfDay := unixMs / 1000 % 86400
  let (month, day) ← checkedCivilFromDays days
  some (s!"{twoDigits month}-{twoDigits day} {twoDigits (secondsOfDay / 3600)}:" ++
    s!"{twoDigits (secondsOfDay % 3600 / 60)}Z")

/-- The date and the time so many minutes after the first of January 1970. -/
def minuteLabel (minutes : ℕ) : String :=
  let date := afterDays (minutes / 1440)
  s!"{twoDigits date.month}-{twoDigits date.day} {twoDigits (minutes % 1440 / 60)}:" ++
    s!"{twoDigits (minutes % 60)}Z"

theorem checked_bind {α : Type} {value : ℤ} (range : -2 ^ 63 ≤ value ∧ value < 2 ^ 63)
    (following : ℤ → Option α) : (checked value >>= following) = following value := by
  rw [checked, if_pos range]
  rfl

theorem toU32_of_range {value : ℤ} (range : 0 ≤ value ∧ value < 2 ^ 32) :
    toU32 value = value.toNat :=
  if_pos range

/-- No step on a day number that is not negative overflows. -/
theorem checkedCivilFromDays_eq {days : ℤ} (lower : 0 ≤ days) (upper : days < 2 ^ 62) :
    checkedCivilFromDays days = some (civilFromDays days) := by
  have range : 0 ≤ (days + 719468) % 146097 ∧ (days + 719468) % 146097 < 146097 := by omega
  rcases exists_yearDay range.1 range.2 with ⟨year, day, yearRange, dayRange, isDay⟩
  have isYear := yearOfEra_eq yearRange dayRange
  obtain ⟨dayOfEra, isDayOfEra⟩ : ∃ dayOfEra, dayOfEra =
      days + 719468 - (days + 719468) / 146097 * 146097 := ⟨_, rfl⟩
  have ofEra : dayOfEra = yearStart year + day := by omega
  have eraRange : 0 ≤ dayOfEra ∧ dayOfEra < 146097 := by omega
  have dayLe : day < 366 := by
    rw [yearLength] at dayRange
    split at dayRange <;> omega
  rw [← ofEra, yearOfEra] at isYear
  rw [yearStart] at ofEra
  have isDayOfYear : dayOfEra - (365 * year + year / 4 - year / 100) = day := by omega
  have monthRange : 0 ≤ (if (5 * day + 2) / 153 < 10 then (5 * day + 2) / 153 + 3
      else (5 * day + 2) / 153 - 9) ∧ (if (5 * day + 2) / 153 < 10 then (5 * day + 2) / 153 + 3
      else (5 * day + 2) / 153 - 9) < 2 ^ 32 := by
    split <;> omega
  simp only [checkedCivilFromDays, civilFromDays]
  rw [checked_bind (by omega), checked_bind (by omega), checked_bind (by omega), ← isDayOfEra,
    checked_bind (by omega)]
  -- The year of the era is known before the steps that start from it.
  simp (disch := omega) only [Int.tdiv_eq_ediv_of_nonneg]
  rw [checked_bind (by omega), checked_bind (by omega), checked_bind (by omega)]
  simp (disch := omega) only [Int.tdiv_eq_ediv_of_nonneg, isYear]
  rw [checked_bind (by omega), checked_bind (by omega), checked_bind (by omega), isDayOfYear,
    checked_bind (by omega), checked_bind (by omega), checked_bind (by omega)]
  simp (disch := omega) only [Int.tdiv_eq_ediv_of_nonneg]
  rw [checked_bind (by omega), checked_bind (by omega)]
  simp (disch := omega) only [Int.tdiv_eq_ediv_of_nonneg]
  rw [checked_bind (by omega), checked_bind (by omega), checked_bind (by omega),
    toU32_of_range monthRange, toU32_of_range (by omega)]

theorem civilFromDays_natCast (days : ℕ) :
    civilFromDays days = ((afterDays days).month, (afterDays days).day) := by
  rw [civilFromDays_eq, civilDate_natCast]

/-- The clock of a record is right at every instant, and nothing on the way to it overflows. -/
theorem checkedClockLabel_eq {unixMs : ℕ} (isU64 : unixMs < 2 ^ 64) :
    checkedClockLabel unixMs = some (minuteLabel (unixMs / 60000)) ∧
      clockLabel unixMs = minuteLabel (unixMs / 60000) := by
  have isDay : unixMs / 60000 / 1440 = unixMs / 86400000 := by omega
  have isHour : unixMs / 60000 % 1440 / 60 = unixMs / 1000 % 86400 / 3600 := by omega
  have isMinute : unixMs / 60000 % 60 = unixMs / 1000 % 86400 % 3600 / 60 := by omega
  have isLabel : clockLabel unixMs = minuteLabel (unixMs / 60000) := by
    have isCivil := civilFromDays_natCast (unixMs / 86400000)
    rw [Int.natCast_ediv] at isCivil
    rw [minuteLabel, isDay, isHour, isMinute]
    simp only [clockLabel]
    rw [show civilFromDays (unixMs / 86400000) = _ from isCivil]
  refine ⟨?_, isLabel⟩
  rw [← isLabel]
  simp only [checkedClockLabel, clockLabel]
  rw [if_pos (by omega), checkedCivilFromDays_eq (by omega) (by omega)]
  rfl

theorem checkedClockLabel_leapDay :
    1709164800000 < 2 ^ 64 ∧
      checkedClockLabel 1709164800000 = some (minuteLabel (1709164800000 / 60000)) ∧
      clockLabel 1709164800000 = "02-29 00:00Z" :=
  ⟨by decide, (checkedClockLabel_eq (by decide)).1, by decide +kernel⟩

end CronPane

end Gregg.Tui
