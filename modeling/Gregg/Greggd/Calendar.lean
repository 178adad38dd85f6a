import Mathlib.Tactic.IntervalCases
import Gregg.Greggd.Schedule

/-!
# The 400-year cycle of the calendar

A date's month, day and weekday depend on its day within the era alone, and each era has the same
146097 days. Every day a month can have and every weekday come round in it at least twice.
-/

namespace Gregg

/-- The number of days a month can have. -/
def daysInMonth (month : ℕ) : ℕ :=
  if month = 2 then 29 else if month = 4 ∨ month = 6 ∨ month = 9 ∨ month = 11 then 30 else 31

namespace NaiveDate

variable {date : NaiveDate}

theorem dayOfEra_range (date : NaiveDate) : 0 ≤ date.dayOfEra ∧ date.dayOfEra < 146097 := by
  unfold dayOfEra
  omega

/-- Every day of the era comes round once within 146097 days. -/
theorem exists_dayOfEra (start : NaiveDate) (room : start.days + 146097 ≤ MAX_DATE)
    {dayOfEra : ℤ} (lower : 0 ≤ dayOfEra) (upper : dayOfEra < 146097) :
    ∃ date : NaiveDate, start.days ≤ date.days ∧ date.days < start.days + 146097 ∧
      date.dayOfEra = dayOfEra := by
  have startLower := start.lower
  refine ⟨⟨start.days + (dayOfEra - start.dayOfEra) % 146097, ?_, ?_⟩, ?_, ?_, ?_⟩
  · omega
  · omega
  · simp only
    omega
  · simp only
    omega
  · simp only [NaiveDate.dayOfEra]
    omega

/-- The centuries, four-year groups, years and days of an era. A leap day is the 366th day of the
last year of its group, and the last group of a century has none unless the era ends with it. -/
theorem exists_parts {dayOfEra : ℤ} (lower : 0 ≤ dayOfEra) (upper : dayOfEra < 146097) :
    ∃ century group year day : ℤ,
      dayOfEra = 36524 * century + 1461 * group + 365 * year + day ∧
      (0 ≤ century ∧ century ≤ 3) ∧ (0 ≤ group ∧ group ≤ 24) ∧ (0 ≤ year ∧ year ≤ 3) ∧
      (0 ≤ day ∧ day ≤ 365) ∧ (day = 365 → year = 3 ∧ (group = 24 → century = 3)) := by
  have century : ∃ century rest : ℤ, dayOfEra = 36524 * century + rest ∧
      (0 ≤ century ∧ century ≤ 3) ∧ 0 ≤ rest ∧ rest ≤ 36524 ∧ (rest = 36524 → century = 3) :=
    ⟨min (dayOfEra / 36524) 3, dayOfEra - 36524 * min (dayOfEra / 36524) 3, by omega⟩
  rcases century with ⟨century, rest, isCentury, centuryRange, restLower, restUpper, last⟩
  have year : ∃ year day : ℤ, rest % 1461 = 365 * year + day ∧ (0 ≤ year ∧ year ≤ 3) ∧
      (0 ≤ day ∧ day ≤ 365) ∧ (day = 365 → year = 3) :=
    ⟨min (rest % 1461 / 365) 3, rest % 1461 - 365 * min (rest % 1461 / 365) 3, by omega⟩
  rcases year with ⟨year, day, isYear, yearRange, dayRange, leap⟩
  exact ⟨century, rest / 1461, year, day, by omega, centuryRange, by omega, yearRange, dayRange,
    by omega⟩

/-- A day of the year, less the leap day that its 1460th part counts, is within a common year. -/
theorem leapDay_range {century group year day : ℤ} (centuryRange : 0 ≤ century ∧ century ≤ 3)
    (groupRange : 0 ≤ group ∧ group ≤ 24) (yearRange : 0 ≤ year ∧ year ≤ 3)
    (dayRange : 0 ≤ day ∧ day ≤ 365) (leap : day = 365 → year = 3) :
    0 ≤ day - (24 * century + group + 365 * year + day) / 1460 ∧
      day - (24 * century + group + 365 * year + day) / 1460 < 365 := by
  omega

/-- The year of the era: the quotients count the leap days that are over. -/
theorem yearOfEra_of_parts {century group year day : ℤ} (centuryRange : 0 ≤ century ∧ century ≤ 3)
    (groupRange : 0 ≤ group ∧ group ≤ 24) (yearRange : 0 ≤ year ∧ year ≤ 3)
    (dayRange : 0 ≤ day ∧ day ≤ 365) (leap : day = 365 → year = 3)
    (short : 1461 * group + 365 * year + day < 36524) :
    (36524 * century + 1461 * group + 365 * year + day -
        (36524 * century + 1461 * group + 365 * year + day) / 1460 +
        (36524 * century + 1461 * group + 365 * year + day) / 36524 -
        (36524 * century + 1461 * group + 365 * year + day) / 146096) / 365 =
      100 * century + 4 * group + year := by
  have groups : (36524 * century + 1461 * group + 365 * year + day) / 1460 =
      25 * century + group + (24 * century + group + 365 * year + day) / 1460 := by omega
  have centuries : (36524 * century + 1461 * group + 365 * year + day) / 36524 = century := by
    omega
  have eras : (36524 * century + 1461 * group + 365 * year + day) / 146096 = 0 := by omega
  have range := leapDay_range centuryRange groupRange yearRange dayRange leap
  generalize (24 * century + group + 365 * year + day) / 1460 = leapDay at groups range
  rw [groups, centuries, eras]
  clear groups centuries eras leap short
  omega

theorem dayOfYear_of_parts {century group year day : ℤ}
    (isDay : date.dayOfEra = 36524 * century + 1461 * group + 365 * year + day)
    (centuryRange : 0 ≤ century ∧ century ≤ 3) (groupRange : 0 ≤ group ∧ group ≤ 24)
    (yearRange : 0 ≤ year ∧ year ≤ 3) (dayRange : 0 ≤ day ∧ day ≤ 365)
    (leap : day = 365 → year = 3 ∧ (group = 24 → century = 3)) : date.dayOfYear = day := by
  by_cases endsEra : date.dayOfEra = 146096
  · have isLast : day = 365 := by omega
    simp [dayOfYear, endsEra, isLast]
  · have years := yearOfEra_of_parts centuryRange groupRange yearRange dayRange
      (fun last => (leap last).1) (by omega)
    have fourths : (100 * century + 4 * group + year) / 4 = 25 * century + group := by
      clear isDay years leap
      omega
    have hundredths : (100 * century + 4 * group + year) / 100 = century := by
      clear isDay years leap
      omega
    simp only [dayOfYear, isDay, years, fourths, hundredths]
    clear leap endsEra isDay years fourths hundredths
    omega

theorem dayOfYear_range (date : NaiveDate) : 0 ≤ date.dayOfYear ∧ date.dayOfYear ≤ 365 := by
  have range := date.dayOfEra_range
  rcases exists_parts range.1 range.2 with
    ⟨_, _, _, day, isDay, centuryRange, groupRange, yearRange, dayRange, leap⟩
  rw [dayOfYear_of_parts isDay centuryRange groupRange yearRange dayRange leap]
  exact dayRange

/-- The day of the year a month begins on, counted from March. -/
def monthStart (month : ℕ) : ℤ :=
  (153 * (if 3 ≤ month then (month : ℤ) - 3 else month + 9) + 2) / 5

theorem month_range (date : NaiveDate) : 1 ≤ date.month ∧ date.month ≤ 12 := by
  have range := date.dayOfYear_range
  simp only [month, monthIndex]
  omega

theorem day_range (date : NaiveDate) : 1 ≤ date.day ∧ date.day ≤ daysInMonth date.month := by
  have range := date.dayOfYear_range
  have index : 0 ≤ date.monthIndex ∧ date.monthIndex ≤ 11 := by
    unfold monthIndex
    omega
  have isIndex : date.monthIndex = (5 * date.dayOfYear + 2) / 153 := rfl
  rcases index with ⟨lower, upper⟩
  simp only [day, month]
  interval_cases date.monthIndex <;> simp [daysInMonth] <;> omega

/-- The March-based index of a month, read off a day of it. -/
theorem monthIndex_of_monthStart {month day : ℕ} (isMonth : 1 ≤ month ∧ month ≤ 12)
    (isDay : 1 ≤ day ∧ day ≤ daysInMonth month)
    (same : date.dayOfYear = monthStart month + day - 1) :
    date.monthIndex = if 3 ≤ month then (month : ℤ) - 3 else month + 9 := by
  unfold monthIndex
  rw [same]
  rcases isMonth with ⟨lower, upper⟩
  interval_cases month <;> simp [monthStart, daysInMonth] at isDay ⊢ <;> omega

/-- The days of a month follow its first one. -/
theorem of_monthStart {month day : ℕ} (isMonth : 1 ≤ month ∧ month ≤ 12)
    (isDay : 1 ≤ day ∧ day ≤ daysInMonth month)
    (same : date.dayOfYear = monthStart month + day - 1) :
    date.month = month ∧ date.day = day := by
  have index := monthIndex_of_monthStart isMonth isDay same
  simp only [NaiveDate.month, NaiveDate.day, same, monthStart, index]
  omega

/-- Two days of the era have the property, in every era. -/
def Twice (holds : NaiveDate → Prop) : Prop :=
  ∃ first second : ℤ, (0 ≤ first ∧ first < second ∧ second < 146097) ∧
    ∀ date : NaiveDate, date.dayOfEra = first ∨ date.dayOfEra = second → holds date

theorem Twice.imp {holds weaker : NaiveDate → Prop} (twice : Twice holds)
    (implies : ∀ date, holds date → weaker date) : Twice weaker := by
  rcases twice with ⟨first, second, range, isHolding⟩
  exact ⟨first, second, range, fun date isDay => implies date (isHolding date isDay)⟩

/-- One of the two days comes round strictly later. -/
theorem Twice.exists_later {holds : NaiveDate → Prop} (twice : Twice holds) (start : NaiveDate)
    (room : start.days + 146097 ≤ MAX_DATE) :
    ∃ date : NaiveDate, start.days < date.days ∧ date.days < start.days + 146097 ∧ holds date := by
  rcases twice with ⟨first, second, range, isHolding⟩
  have another : ∃ other : ℤ, (0 ≤ other ∧ other < 146097) ∧ other ≠ start.dayOfEra ∧
      (other = first ∨ other = second) := by
    by_cases isFirst : first = start.dayOfEra
    · exact ⟨second, by omega, by omega, .inr rfl⟩
    · exact ⟨first, by omega, isFirst, .inl rfl⟩
  rcases another with ⟨other, inEra, notStart, isOther⟩
  rcases start.exists_dayOfEra room inEra.1 inEra.2 with ⟨date, notBefore, within, same⟩
  refine ⟨date, lt_of_le_of_ne notBefore fun sameDay => ?_, within, isHolding date ?_⟩
  · rw [← same] at notStart
    exact notStart (by rw [dayOfEra, dayOfEra, sameDay])
  · rwa [same]

/-- Every day a month can have, among others in the last years of the first two leap groups. -/
theorem twice_month_day {month day : ℕ} (isMonth : 1 ≤ month ∧ month ≤ 12)
    (isDay : 1 ≤ day ∧ day ≤ daysInMonth month) :
    Twice fun date => date.month = month ∧ date.day = day := by
  have dayRange : 0 ≤ monthStart month + day - 1 ∧ monthStart month + day - 1 ≤ 365 := by
    rcases isMonth with ⟨lower, upper⟩
    interval_cases month <;> simp [monthStart, daysInMonth] at isDay ⊢ <;> omega
  refine ⟨1095 + (monthStart month + day - 1), 2556 + (monthStart month + day - 1), by omega, ?_⟩
  rintro date (isFirst | isSecond)
  · have parts : date.dayOfEra = 36524 * 0 + 1461 * 0 + 365 * 3 + (monthStart month + day - 1) := by
      omega
    exact of_monthStart isMonth isDay (dayOfYear_of_parts parts
      (by omega) (by omega) (by omega) dayRange (by omega))
  · have parts : date.dayOfEra = 36524 * 0 + 1461 * 1 + 365 * 3 + (monthStart month + day - 1) := by
      omega
    exact of_monthStart isMonth isDay (dayOfYear_of_parts parts
      (by omega) (by omega) (by omega) dayRange (by omega))

/-- Every weekday, among the first fourteen days of a month. -/
theorem twice_month_weekday {month weekday : ℕ} (isMonth : 1 ≤ month ∧ month ≤ 12)
    (isWeekday : weekday ≤ 6) :
    Twice fun date => date.month = month ∧ date.weekday = weekday := by
  have startRange : 0 ≤ monthStart month ∧ monthStart month ≤ 337 := by
    unfold monthStart
    omega
  have isShort : 14 ≤ daysInMonth month := by
    unfold daysInMonth
    split
    · omega
    · split <;> omega
  -- The first day of the month with the weekday; a week later it comes again.
  have firstRange : ∃ offset : ℕ, offset < 7 ∧
      ((monthStart month + offset - 719464) % 7).toNat = weekday :=
    ⟨((weekday - (monthStart month - 719464)) % 7).toNat, by omega, by omega⟩
  rcases firstRange with ⟨offset, offsetLt, isOffset⟩
  have holds : ∀ (date : NaiveDate) (later : ℕ), later = offset ∨ later = offset + 7 →
      date.dayOfEra = monthStart month + later → date.month = month ∧ date.weekday = weekday := by
    intro date later isLater same
    constructor
    · have isDay : 1 ≤ later + 1 ∧ later + 1 ≤ daysInMonth month := by omega
      have parts : date.dayOfEra =
          36524 * 0 + 1461 * 0 + 365 * 0 + (monthStart month + (later + 1 : ℕ) - 1) := by omega
      exact (of_monthStart isMonth isDay (dayOfYear_of_parts parts
        (by omega) (by omega) (by omega) (by omega) (by omega))).1
    · simp only [dayOfEra] at same
      simp only [NaiveDate.weekday]
      omega
  refine ⟨monthStart month + offset, monthStart month + (offset + 7 : ℕ), by omega, ?_⟩
  rintro date (isFirst | isSecond)
  · exact holds date offset (.inl rfl) isFirst
  · exact holds date (offset + 7) (.inr rfl) isSecond

end NaiveDate

end Gregg
