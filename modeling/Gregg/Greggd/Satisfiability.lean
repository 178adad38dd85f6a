import Gregg.Greggd.ScheduleFields

/-!
# The satisfiability of a schedule

One search walks 400 years of dates from a fixed epoch, the other walks 400 years of minutes from
an instant and needs a strictly later one. They agree since dates and weekdays repeat every 400
years and no date that matches is the only one of its era.
-/

namespace Gregg

/-- A fixed-offset zone, the given number of seconds ahead of the Universal Time. -/
def LocalZone.fixedOffset (seconds : ℤ) : LocalZone where
  dateNaive := fun time => utcDate (time + seconds * 1000000000)
  fromLocalDatetime := fun civil =>
    .single (civil.ordinal * 60000000000 - seconds * 1000000000)

/-- The calendar covers the local date of an instant and the 400 years after it. -/
def WellInside (seconds : ℤ) (after : DateTime) : Prop :=
  MIN_DATE ≤ (after + seconds * 1000000000) / 86400000000000 ∧
    (after + seconds * 1000000000) / 86400000000000 + MAX_SEARCH_DAYS ≤ MAX_DATE

section Dates

variable {schedule : LocalSchedule} {date : NaiveDate}

/-- A date matches by its day of the month or by its weekday, whatever the other is. -/
theorem LocalSchedule.dateMatches_cases (isMatch : schedule.dateMatches date = true) :
    (∀ other : NaiveDate, other.month = date.month ∧ other.day = date.day →
      schedule.dateMatches other = true) ∨
    ∀ other : NaiveDate, other.month = date.month ∧ other.weekday = date.weekday →
      schedule.dateMatches other = true := by
  simp only [dateMatches, Bool.and_eq_true] at isMatch ⊢
  rcases isMatch with ⟨isMonth, isDay⟩
  cases monthDayWildcard : schedule.monthDayWildcard with
  | true =>
      right
      rintro other ⟨sameMonth, sameWeekday⟩
      rw [sameMonth, sameWeekday]
      refine ⟨isMonth, ?_⟩
      cases weekDayWildcard : schedule.weekDayWildcard with
      | true => rfl
      | false => simpa only [monthDayWildcard, weekDayWildcard] using isDay
  | false =>
      cases weekDayWildcard : schedule.weekDayWildcard with
      | true =>
          left
          rintro other ⟨sameMonth, sameDay⟩
          rw [sameMonth, sameDay]
          simpa [monthDayWildcard, weekDayWildcard, isMonth] using isDay
      | false =>
          simp only [monthDayWildcard, weekDayWildcard, Bool.or_eq_true] at isDay ⊢
          rcases isDay with byDay | byWeekday
          · left
            rintro other ⟨sameMonth, sameDay⟩
            rw [sameMonth, sameDay]
            exact ⟨isMonth, .inl byDay⟩
          · right
            rintro other ⟨sameMonth, sameWeekday⟩
            rw [sameMonth, sameWeekday]
            exact ⟨isMonth, .inr byWeekday⟩

/-- No date that matches is the only one of its era. -/
theorem LocalSchedule.twice_dateMatches (isMatch : schedule.dateMatches date = true) :
    NaiveDate.Twice fun other => schedule.dateMatches other = true := by
  rcases dateMatches_cases isMatch with byDay | byWeekday
  · exact (NaiveDate.twice_month_day date.month_range date.day_range).imp byDay
  · exact (NaiveDate.twice_month_weekday date.month_range date.weekday_le).imp byWeekday

theorem LocalSchedule.satisfiableFrom_iff (fuel : ℕ) (start : NaiveDate) :
    schedule.satisfiableFrom fuel start = true ↔ ∃ date : NaiveDate, start.days ≤ date.days ∧
      date.days < start.days + fuel ∧ schedule.dateMatches date = true := by
  induction fuel generalizing start with
  | zero =>
      simp only [satisfiableFrom, Bool.false_eq_true, false_iff]
      rintro ⟨date, _, _, _⟩
      omega
  | succ fuel ih =>
      simp only [satisfiableFrom]
      split
      · rename_i isMatch
        exact iff_of_true rfl ⟨start, le_rfl, by omega, isMatch⟩
      · rename_i noMatch
        have later : ∀ date : NaiveDate, start.days ≤ date.days →
            schedule.dateMatches date = true → start.days + 1 ≤ date.days := by
          intro date notBefore isMatch
          refine lt_of_le_of_ne notBefore fun sameDay => noMatch ?_
          rwa [NaiveDate.eq_iff_days.mpr sameDay]
        split
        · rename_i last
          have isLast := NaiveDate.succOpt_eq_none last
          simp only [Bool.false_eq_true, false_iff]
          rintro ⟨date, notBefore, _, isMatch⟩
          have := later date notBefore isMatch
          have := date.upper
          omega
        · rename_i next advanced
          have nextDay := NaiveDate.succOpt_eq_some advanced
          rw [ih]
          constructor
          · rintro ⟨date, notBefore, within, isMatch⟩
            exact ⟨date, by omega, by omega, isMatch⟩
          · rintro ⟨date, notBefore, within, isMatch⟩
            have := later date notBefore isMatch
            exact ⟨date, by omega, by omega, isMatch⟩

/-- The satisfiability walk finds a date whenever some date of the calendar matches. -/
theorem LocalSchedule.isSatisfiable_iff_exists :
    schedule.isSatisfiable = true ↔ ∃ date, schedule.dateMatches date = true := by
  rw [isSatisfiable, satisfiableFrom_iff]
  constructor
  · rintro ⟨date, _, _, isMatch⟩
    exact ⟨date, isMatch⟩
  · rintro ⟨date, isMatch⟩
    rcases (twice_dateMatches isMatch).exists_later .satisfiabilityEpoch (by decide) with
      ⟨later, after, within, isLater⟩
    exact ⟨later, after.le, within, isLater⟩

end Dates

section Occurrences

variable {schedule : LocalSchedule} {zone : LocalZone} {after : DateTime}

theorem LocalZone.dateNaive_of_wellInside {seconds : ℤ} (inside : WellInside seconds after) :
    ((fixedOffset seconds).dateNaive after).days =
      (after + seconds * 1000000000) / 86400000000000 := by
  have notPast : (after + seconds * 1000000000) / 86400000000000 ≤ MAX_DATE :=
    (Int.le_add_of_nonneg_right (Int.natCast_nonneg _)).trans inside.2
  change max MIN_DATE (min MAX_DATE ((after + seconds * 1000000000) / 86400000000000)) = _
  rw [min_eq_right notPast, max_eq_right inside.1]

/-- The search of a fixed-offset zone reaches every minute of a later date. -/
theorem LocalSchedule.nextAfter_of_later {seconds : ℤ} (inside : WellInside seconds after)
    {civil : NaiveDateTime} (selected : schedule.selects civil = true)
    (later : ((LocalZone.fixedOffset seconds).dateNaive after).days < civil.date.days)
    (within : civil.date.days <
      ((LocalZone.fixedOffset seconds).dateNaive after).days + MAX_SEARCH_DAYS) :
    ∃ candidate, schedule.nextAfter (.fixedOffset seconds) after = .ok candidate := by
  have toCome : after < civil.ordinal * 60000000000 - seconds * 1000000000 := by
    rw [LocalZone.dateNaive_of_wellInside inside] at later
    have := civil.hour.isLt
    have := civil.minute.isLt
    change (_ : ℤ) < _
    simp only [NaiveDateTime.ordinal]
    omega
  exact nextAfter_of_toCome later.le within selected
    ⟨_, by simp [LocalZone.fixedOffset, LocalResult.instants], toCome⟩

/-- Whatever a search finds lies on a date that matches. -/
theorem LocalSchedule.exists_dateMatches_of_nextAfter {candidate : DateTime}
    (found : schedule.nextAfter zone after = .ok candidate) :
    ∃ date, schedule.dateMatches date = true := by
  rcases isHead_of_nextAfter found with ⟨head, isHead, -⟩
  have selected := isHead.selected
  simp only [selects, Bool.and_eq_true] at selected
  exact ⟨head.date, selected.1⟩

theorem wellInside_zero : WellInside 0 0 := by
  unfold WellInside
  decide

/-- A schedule the parser accepts is satisfiable exactly where every start well inside the calendar
has a next occurrence, and otherwise no start in any zone has one. -/
theorem LocalSchedule.isSatisfiable_iff_nextAfter {expression : String}
    (parsed : LocalSchedule.parse expression = .ok schedule) :
    (schedule.isSatisfiable = true ↔ ∀ seconds after, WellInside seconds after →
      ∃ candidate, schedule.nextAfter (.fixedOffset seconds) after = .ok candidate) ∧
    (schedule.isSatisfiable = false → ∀ zone after,
      ∃ error, schedule.nextAfter zone after = .error error) := by
  refine ⟨⟨?_, ?_⟩, ?_⟩
  · intro satisfiable seconds after inside
    rcases isSatisfiable_iff_exists.mp satisfiable with ⟨date, isMatch⟩
    rcases ScheduleFields.masked_of_parse parsed with ⟨fields, -, masked⟩
    rcases masked.someHour with ⟨hour, isHour⟩
    rcases masked.someMinute with ⟨minute, isMinute⟩
    have room : ((LocalZone.fixedOffset seconds).dateNaive after).days + 146097 ≤ MAX_DATE := by
      rw [LocalZone.dateNaive_of_wellInside inside]
      exact inside.2
    rcases (twice_dateMatches isMatch).exists_later _ room with
      ⟨later, afterStart, within, isLater⟩
    have hourLt : hour < 24 := Nat.lt_succ_of_le isHour.1.2
    have minuteLt : minute < 60 := Nat.lt_succ_of_le isMinute.1.2
    have selected : schedule.selects
        { date := later, hour := ⟨hour, hourLt⟩, minute := ⟨minute, minuteLt⟩ } = true :=
      (masked.selects_iff _).mpr ⟨isLater, isHour, isMinute⟩
    exact nextAfter_of_later inside selected afterStart within
  · intro everyStart
    rcases everyStart 0 0 wellInside_zero with ⟨candidate, found⟩
    exact isSatisfiable_iff_exists.mpr (exists_dateMatches_of_nextAfter found)
  · intro unsatisfiable zone after
    cases found : schedule.nextAfter zone after with
    | error error => exact ⟨error, rfl⟩
    | ok candidate =>
        rw [isSatisfiable_iff_exists.mpr (exists_dateMatches_of_nextAfter found)] at unsatisfiable
        cases unsatisfiable

/-- A Sunday comes round after every start. -/
theorem LocalSchedule.isSatisfiable_iff_nextAfter_sundays :
    LocalSchedule.parse "0 3 * * 0" = .ok sundays ∧
      ∀ seconds after, WellInside seconds after →
        ∃ candidate, sundays.nextAfter (.fixedOffset seconds) after = .ok candidate := by
  have parsed : LocalSchedule.parse "0 3 * * 0" = .ok sundays := by decide +kernel
  refine ⟨parsed, (isSatisfiable_iff_nextAfter parsed).1.mp ?_⟩
  exact isSatisfiable_iff_exists.mpr ⟨⟨10958, by decide, by decide⟩, by decide⟩

end Occurrences

end Gregg
