import Mathlib.Algebra.Order.BigOperators.Group.Finset
import Mathlib.Data.Fintype.Card
import Mathlib.Data.Fintype.Prod
import Mathlib.Data.Fintype.Sets
import Gregg.RustStd

/-!
# Strict five-field cron schedules in local civil time

Calendar dates are day numbers within the calendar library's documented range, so that only
finitely many civil minutes exist. The local time zone is a parameter: any assignment of civil
dates to instants and of instants to civil minutes.
-/

namespace Gregg

/-- Days from 1970-01-01 to `NaiveDate::MIN`, which is `-262143-01-01`. -/
def MIN_DATE : ℤ := -96465292

/-- Days from 1970-01-01 to `NaiveDate::MAX`, which is `262142-12-31`. -/
def MAX_DATE : ℤ := 95026236

/-- A Gregorian date, as the number of days from 1970-01-01. -/
structure NaiveDate where
  days : ℤ
  lower : MIN_DATE ≤ days
  upper : days ≤ MAX_DATE
  deriving DecidableEq

namespace NaiveDate

/-- `NaiveDate::succ_opt`: the following day, unless this is the last one. -/
def succOpt (date : NaiveDate) : Option NaiveDate :=
  if inRange : date.days + 1 ≤ MAX_DATE then
    some ⟨date.days + 1, Int.le_trans date.lower (by omega), inRange⟩
  else none

/-- The day's number within its 400-year era, counted from 0000-03-01. -/
def dayOfEra (date : NaiveDate) : ℤ :=
  (date.days + 719468) % 146097

def dayOfYear (date : NaiveDate) : ℤ :=
  let doe := date.dayOfEra
  let yoe := (doe - doe / 1460 + doe / 36524 - doe / 146096) / 365
  doe - (365 * yoe + yoe / 4 - yoe / 100)

/-- The month's number, counted from March. -/
def monthIndex (date : NaiveDate) : ℤ :=
  (5 * date.dayOfYear + 2) / 153

def month (date : NaiveDate) : ℕ :=
  let mp := date.monthIndex
  (if mp < 10 then mp + 3 else mp - 9).toNat

def day (date : NaiveDate) : ℕ :=
  (date.dayOfYear - (153 * date.monthIndex + 2) / 5 + 1).toNat

/-- `weekday().num_days_from_sunday()`. The first day of 1970 was a Thursday. -/
def weekday (date : NaiveDate) : ℕ :=
  ((date.days + 4) % 7).toNat

def satisfiabilityEpoch : NaiveDate :=
  ⟨10957, by decide, by decide⟩

example : satisfiabilityEpoch.month = 1 ∧ satisfiabilityEpoch.day = 1 ∧
    satisfiabilityEpoch.weekday = 6 := by decide

end NaiveDate

structure NaiveDateTime where
  date : NaiveDate
  hour : Fin 24
  minute : Fin 60
  deriving DecidableEq

/-- `chrono::LocalResult`: how many instants a civil time names. -/
inductive LocalResult where
  | none
  | single (candidate : DateTime)
  | ambiguous (first second : DateTime)

/-- A time zone, as far as the scheduler consults one. -/
structure LocalZone where
  /-- `DateTime::date_naive`. -/
  dateNaive : DateTime → NaiveDate
  /-- `TimeZone::from_local_datetime`. -/
  fromLocalDatetime : NaiveDateTime → LocalResult

/-- The day an instant of the Universal Time falls on, within the calendar. -/
def utcDate (time : DateTime) : NaiveDate :=
  ⟨max MIN_DATE (min MAX_DATE (time / 86400000000000)), Int.le_max_left _ _,
    Int.max_le.mpr ⟨by decide, Int.min_le_left _ _⟩⟩

/-- `chrono::Utc`, in which every civil minute names one instant. -/
def LocalZone.utc : LocalZone where
  dateNaive := utcDate
  fromLocalDatetime := fun civil =>
    .single ((civil.date.days * 86400 + civil.hour.val * 3600 + civil.minute.val * 60) *
      1000000000)

def MAX_SCHEDULE_BYTES : ℕ := 128

def MAX_SEARCH_DAYS : ℕ := 146097

/-- Parsed schedule fields. Each mask uses the field's natural numeric value. -/
structure LocalSchedule where
  minutes : ℕ
  hours : ℕ
  monthDays : ℕ
  months : ℕ
  weekDays : ℕ
  monthDayWildcard : Bool
  weekDayWildcard : Bool
  deriving DecidableEq

def parseNumber (value : List Char) (minimum maximum : ℕ) : Except String ℕ :=
  match Text.parseUsize value with
  | none => .error "cron fields accept numeric values only"
  | some number =>
      if minimum ≤ number ∧ number ≤ maximum then .ok number
      else .error s!"cron value {number} is outside {minimum}..={maximum}"

/-- The step of one list item: the text after its first separator, and whether one follows. -/
def parseStep : List (List Char) → Except String ℕ
  | [] => .ok 1
  | value :: more =>
      match Text.parseUsize value with
      | none => .error "cron step must be a positive integer"
      | some 0 => .error "cron step must be a positive integer"
      | some step =>
          if more.isEmpty then .ok step
          else .error "cron field has more than one step separator"

/-- The range one list item selects and whether it is a wildcard. -/
def parseBase (base : List Char) (stepped : Bool) (minimum maximum : ℕ) :
    Except String (ℕ × ℕ × Bool) :=
  if base = ['*'] then .ok (minimum, maximum, true)
  else
    match Text.splitOnce '-' base with
    | some (start, finish) => do
        let start ← parseNumber start minimum maximum
        let finish ← parseNumber finish minimum maximum
        if start > finish then .error "cron ranges must be ascending"
        else .ok (start, finish, false)
    | none => do
        let start ← parseNumber base minimum maximum
        .ok (start, if stepped then maximum else start, false)

/-- One turn of the loop over a field's list items. -/
def parseItem (minimum maximum : ℕ) (found : ℕ × Bool) (item : List Char) :
    Except String (ℕ × Bool) :=
  if item.isEmpty then .error "empty cron list item"
  else
    match item.splitOn '/' with
    | [] => .error "empty cron list item"
    | base :: rest => do
        let step ← parseStep rest
        let (start, finish, isWildcard) ← parseBase base (!rest.isEmpty) minimum maximum
        let selected := List.range' start ((finish - start) / step + 1) step
        let mask := selected.foldl (fun mask value => mask ||| 1 <<< value) found.1
        .ok (mask, found.2 || isWildcard)

def parseField (value : List Char) (minimum maximum : ℕ) : Except String (ℕ × Bool) := do
  let (mask, wildcard) ← (value.splitOn ',').foldlM (parseItem minimum maximum) (0, false)
  if mask = 0 then .error "cron field selects no values" else .ok (mask, wildcard)

/-- The supported aliases, and every other expression as it is. -/
def normalizeExpression (trimmed : List Char) : List Char :=
  if trimmed = "@hourly".toList then "0 * * * *".toList
  else if trimmed = "@daily".toList then "0 0 * * *".toList
  else if trimmed = "@weekly".toList then "0 0 * * 0".toList
  else if trimmed = "@monthly".toList then "0 0 1 * *".toList
  else trimmed

namespace LocalSchedule

/-- Parse ordinary five-field numeric cron syntax and supported aliases. -/
def parse (expression : String) : Except String LocalSchedule :=
  if expression.isEmpty || expression.utf8ByteSize > MAX_SCHEDULE_BYTES then
    .error s!"schedule must contain 1..={MAX_SCHEDULE_BYTES} UTF-8 bytes"
  else
    match Text.splitWhitespace (normalizeExpression (Text.trim expression.toList)) with
    | [minuteField, hourField, monthDayField, monthField, weekDayField] => do
        let (minutes, _) ← parseField minuteField 0 59
        let (hours, _) ← parseField hourField 0 23
        let (monthDays, monthDayWildcard) ← parseField monthDayField 1 31
        let (months, _) ← parseField monthField 1 12
        let (weekDays, weekDayWildcard) ← parseField weekDayField 0 6
        .ok { minutes, hours, monthDays, months, weekDays, monthDayWildcard, weekDayWildcard }
    | _ => .error "schedule must use exactly five cron fields"

def dateMatches (schedule : LocalSchedule) (date : NaiveDate) : Bool :=
  let monthDayMatches := schedule.monthDays.testBit date.day
  let weekDayMatches := schedule.weekDays.testBit date.weekday
  let dayMatches :=
    match schedule.monthDayWildcard, schedule.weekDayWildcard with
    | true, true => true
    | true, false => weekDayMatches
    | false, true => monthDayMatches
    | false, false => monthDayMatches || weekDayMatches
  schedule.months.testBit date.month && dayMatches

/-- The satisfiability walk over at most the given number of days. -/
def satisfiableFrom (schedule : LocalSchedule) : ℕ → NaiveDate → Bool
  | 0, _ => false
  | fuel + 1, date =>
      if schedule.dateMatches date then true
      else
        match date.succOpt with
        | none => false
        | some next => satisfiableFrom schedule fuel next

/-- Whether some Gregorian date in a 400-year cycle satisfies the schedule. -/
def isSatisfiable (schedule : LocalSchedule) : Bool :=
  schedule.satisfiableFrom MAX_SEARCH_DAYS NaiveDate.satisfiabilityEpoch

/-- The instant of one civil minute, if it lies strictly after `after`. -/
def instantAfter (zone : LocalZone) (after : DateTime) (civil : NaiveDateTime) :
    Option DateTime :=
  match zone.fromLocalDatetime civil with
  | .single candidate => if after < candidate then some candidate else none
  | .ambiguous first second =>
      if after < first then some first
      else if after < second then some second
      else none
  | .none => none

/-- The hour and minute loops of one matching date. -/
def nextOnDate (schedule : LocalSchedule) (zone : LocalZone) (after : DateTime)
    (date : NaiveDate) : Option DateTime :=
  (List.finRange 24).findSome? fun hour =>
    if schedule.hours.testBit hour.val then
      (List.finRange 60).findSome? fun minute =>
        if schedule.minutes.testBit minute.val then
          instantAfter zone after { date, hour, minute }
        else none
    else none

/-- The date loop of `next_after` over at most the given number of days. -/
def searchFrom (schedule : LocalSchedule) (zone : LocalZone) (after : DateTime) :
    ℕ → NaiveDate → Except String DateTime
  | 0, _ => .error "cron expression has no future occurrence within 400 years"
  | fuel + 1, date =>
      let found :=
        if schedule.dateMatches date then schedule.nextOnDate zone after date else none
      match found with
      | some candidate => .ok candidate
      | none =>
          match date.succOpt with
          | none => .error "cron expression has no future occurrence"
          | some next => searchFrom schedule zone after fuel next

/-- The next matching instant strictly after `after`. -/
def nextAfter (schedule : LocalSchedule) (zone : LocalZone) (after : DateTime) :
    Except String DateTime :=
  schedule.searchFrom zone after MAX_SEARCH_DAYS (zone.dateNaive after)

end LocalSchedule

section FutureOccurrences

variable {zone : LocalZone} {after candidate : DateTime} {schedule : LocalSchedule}

def LocalResult.instants : LocalResult → Finset DateTime
  | .none => ∅
  | .single candidate => {candidate}
  | .ambiguous first second => {first, second}

theorem LocalResult.card_instants_le (result : LocalResult) : result.instants.card ≤ 2 := by
  cases result with
  | none => simp [instants]
  | single candidate => simp [instants]
  | ambiguous first second => exact Finset.card_le_two

/-- Everything the search accepts is a later instant of the civil minute it looked at. -/
theorem LocalSchedule.instantAfter_eq_some {civil : NaiveDateTime}
    (found : instantAfter zone after civil = some candidate) :
    after < candidate ∧ candidate ∈ (zone.fromLocalDatetime civil).instants := by
  unfold instantAfter at found
  cases named : zone.fromLocalDatetime civil with
  | none => simp [named] at found
  | single only =>
      simp only [named, Option.ite_none_right_eq_some, Option.some.injEq] at found
      rcases found with ⟨later, rfl⟩
      exact ⟨later, by simp [LocalResult.instants]⟩
  | ambiguous first second =>
      simp only [named] at found
      split at found
      · rename_i later
        cases found
        exact ⟨later, by simp [LocalResult.instants]⟩
      · simp only [Option.ite_none_right_eq_some, Option.some.injEq] at found
        rcases found with ⟨later, rfl⟩
        exact ⟨later, by simp [LocalResult.instants]⟩

theorem LocalSchedule.nextOnDate_eq_some {date : NaiveDate}
    (found : schedule.nextOnDate zone after date = some candidate) :
    after < candidate ∧
      ∃ civil : NaiveDateTime, candidate ∈ (zone.fromLocalDatetime civil).instants := by
  unfold nextOnDate at found
  rcases List.exists_of_findSome?_eq_some found with ⟨hour, -, inHour⟩
  rw [Option.ite_none_right_eq_some] at inHour
  rcases List.exists_of_findSome?_eq_some inHour.2 with ⟨minute, -, inMinute⟩
  rw [Option.ite_none_right_eq_some] at inMinute
  have accepted := instantAfter_eq_some inMinute.2
  exact ⟨accepted.1, _, accepted.2⟩

theorem LocalSchedule.searchFrom_eq_ok {fuel : ℕ} {date : NaiveDate}
    (found : schedule.searchFrom zone after fuel date = .ok candidate) :
    after < candidate ∧
      ∃ civil : NaiveDateTime, candidate ∈ (zone.fromLocalDatetime civil).instants := by
  induction fuel generalizing date with
  | zero => simp [searchFrom] at found
  | succ fuel ih =>
      simp only [searchFrom] at found
      split at found
      · rename_i accepted
        cases found
        rw [Option.ite_none_right_eq_some] at accepted
        exact nextOnDate_eq_some accepted.2
      · split at found
        · cases found
        · exact ih found

/-- The next occurrence is strictly later and is an instant of some civil minute. -/
theorem LocalSchedule.nextAfter_eq_ok
    (found : schedule.nextAfter zone after = .ok candidate) :
    after < candidate ∧
      ∃ civil : NaiveDateTime, candidate ∈ (zone.fromLocalDatetime civil).instants :=
  searchFrom_eq_ok found

/-- A civil minute as a day of the calendar, an hour and a minute. -/
def NaiveDateTime.index (civil : NaiveDateTime) : Fin 191491529 × Fin 24 × Fin 60 :=
  have lower := civil.date.lower
  have upper := civil.date.upper
  (⟨(civil.date.days - MIN_DATE).toNat, by simp only [MIN_DATE, MAX_DATE] at *; omega⟩,
    civil.hour, civil.minute)

theorem NaiveDateTime.index_injective : Function.Injective NaiveDateTime.index := by
  rintro ⟨⟨days, lower, _⟩, _, _⟩ ⟨⟨otherDays, otherLower, _⟩, _, _⟩ sameIndex
  simp only [index, Prod.mk.injEq, Fin.mk.injEq] at sameIndex
  rcases sameIndex with ⟨sameDay, rfl, rfl⟩
  have : days = otherDays := by omega
  subst this
  rfl

noncomputable instance : Fintype NaiveDateTime :=
  Fintype.ofInjective _ NaiveDateTime.index_injective

/-- Every instant a civil minute of the calendar can name. -/
noncomputable def LocalZone.instants (zone : LocalZone) : Finset DateTime :=
  Finset.univ.biUnion fun civil => (zone.fromLocalDatetime civil).instants

/-- Twice the number of civil minutes the calendar has. -/
def MAX_OCCURRENCES : ℕ := 551495603520

/-- The calendar is finite, so a job has finitely many occurrences in all. -/
theorem LocalZone.card_instants_le (zone : LocalZone) :
    zone.instants.card ≤ MAX_OCCURRENCES := by
  have minutes : Fintype.card NaiveDateTime ≤ 191491529 * (24 * 60) := by
    have embedded := Fintype.card_le_of_injective _ NaiveDateTime.index_injective
    simp only [Fintype.card_prod, Fintype.card_fin] at embedded
    exact embedded
  calc
    zone.instants.card ≤ Fintype.card NaiveDateTime * 2 :=
      Finset.card_biUnion_le_card_mul _ _ 2 fun _ _ => LocalResult.card_instants_le _
    _ ≤ 191491529 * (24 * 60) * 2 := Nat.mul_le_mul_right 2 minutes
    _ = MAX_OCCURRENCES := rfl

theorem LocalSchedule.nextAfter_mem_instants
    (found : schedule.nextAfter zone after = .ok candidate) : candidate ∈ zone.instants := by
  rcases (nextAfter_eq_ok found).2 with ⟨civil, named⟩
  exact Finset.mem_biUnion.mpr ⟨civil, Finset.mem_univ _, named⟩

end FutureOccurrences

end Gregg
