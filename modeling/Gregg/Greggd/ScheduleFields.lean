import Gregg.Greggd.Calendar
import Gregg.Greggd.NextOccurrence

/-!
# What the five fields of a schedule denote

A list item is read as a base and an optional step, and denotes the values of its base from the
first one on, a step apart. A field denotes what any of its items does. The parser computes
exactly these sets, as masks, and one flag for the fields that have a wildcard item.
-/

namespace Gregg

/-- The base of one list item. -/
inductive FieldBase where
  | wildcard
  | range (first last : ℕ)
  | number (value : ℕ)
  deriving DecidableEq

/-- One list item of a field: its base, and its step where it has one. -/
structure FieldItem where
  base : FieldBase
  step : Option ℕ
  deriving DecidableEq

def FieldBase.read (text : List Char) : Option FieldBase :=
  if text = ['*'] then some .wildcard
  else
    match Text.splitOnce '-' text with
    | none => (Text.parseUsize text).map .number
    | some (first, last) =>
        (Text.parseUsize first).bind fun first => (Text.parseUsize last).map (.range first)

def FieldItem.read (text : List Char) : Option FieldItem :=
  match text.splitOn '/' with
  | [base] => (FieldBase.read base).map fun base => { base, step := none }
  | [base, step] =>
      (FieldBase.read base).bind fun base =>
        (Text.parseUsize step).map fun step => { base, step := some step }
  | _ => none

/-- The first and the last value an item's base covers. A single number with a step runs to the
field's maximum. -/
def FieldItem.span (minimum maximum : ℕ) (item : FieldItem) : ℕ × ℕ :=
  match item.base with
  | .wildcard => (minimum, maximum)
  | .range first last => (first, last)
  | .number value => (value, if item.step.isSome then maximum else value)

/-- The values of an item: those its base covers, a step apart from the first one on. -/
def FieldItem.Denotes (minimum maximum : ℕ) (item : FieldItem) (value : ℕ) : Prop :=
  (item.span minimum maximum).1 ≤ value ∧ value ≤ (item.span minimum maximum).2 ∧
    (value - (item.span minimum maximum).1) % item.step.getD 1 = 0

/-- A field denotes the values of its comma-separated items within the field's range. -/
def FieldDenotes (minimum maximum : ℕ) (field : List Char) (value : ℕ) : Prop :=
  (minimum ≤ value ∧ value ≤ maximum) ∧ ∃ text ∈ field.splitOn ',', ∃ item,
    FieldItem.read text = some item ∧ item.Denotes minimum maximum value

/-- One of the field's items is a wildcard, with or without a step. -/
def HasWildcard (field : List Char) : Prop :=
  ∃ text ∈ field.splitOn ',', ∃ item, FieldItem.read text = some item ∧ item.base = .wildcard

section Items

variable {minimum maximum : ℕ} {text field : List Char}

theorem parseNumber_eq_ok {number : ℕ}
    (accepted : parseNumber text minimum maximum = .ok number) :
    Text.parseUsize text = some number ∧ minimum ≤ number ∧ number ≤ maximum := by
  unfold parseNumber at accepted
  split at accepted
  · cases accepted
  · rename_i value isValue
    split at accepted
    · rename_i inRange
      cases accepted
      exact ⟨isValue, inRange⟩
    · cases accepted

/-- An accepted step is the one the item is read with. -/
theorem parseStep_eq_ok {rest : List (List Char)} {step : ℕ}
    (accepted : parseStep rest = .ok step) :
    rest = [] ∧ step = 1 ∨ ∃ value, rest = [value] ∧ Text.parseUsize value = some step := by
  cases rest with
  | nil =>
      cases accepted
      exact .inl ⟨rfl, rfl⟩
  | cons value more =>
      simp only [parseStep] at accepted
      split at accepted
      · cases accepted
      · cases accepted
      · rename_i isStep
        split at accepted
        · rename_i isLast
          cases accepted
          refine .inr ⟨value, ?_, isStep⟩
          rw [List.isEmpty_iff.mp isLast]
        · cases accepted

/-- An accepted base covers a range within the field's own. -/
theorem parseBase_eq_ok {stepped : Bool} {start finish : ℕ} {isWildcard : Bool}
    (minimumLe : minimum ≤ maximum)
    (accepted : parseBase text stepped minimum maximum = .ok (start, finish, isWildcard)) :
    (minimum ≤ start ∧ start ≤ finish ∧ finish ≤ maximum) ∧ ∃ base,
      FieldBase.read text = some base ∧ (isWildcard = true ↔ base = .wildcard) ∧
        ∀ step : Option ℕ, step.isSome = stepped →
          FieldItem.span minimum maximum { base, step } = (start, finish) := by
  unfold parseBase at accepted
  split at accepted
  · rename_i isStar
    cases accepted
    refine ⟨⟨le_rfl, minimumLe, le_rfl⟩, .wildcard, ?_, by simp, fun _ _ => rfl⟩
    rw [FieldBase.read, if_pos isStar]
  · rename_i notStar
    split at accepted
    · rename_i first last halves
      cases firstOk : parseNumber first minimum maximum with
      | error error => simp [firstOk, bind, Except.bind] at accepted
      | ok firstValue =>
          cases lastOk : parseNumber last minimum maximum with
          | error error => simp [firstOk, lastOk, bind, Except.bind] at accepted
          | ok lastValue =>
              simp only [firstOk, lastOk, bind, Except.bind] at accepted
              split at accepted
              · cases accepted
              · rename_i ascending
                cases accepted
                rcases parseNumber_eq_ok firstOk with ⟨isFirst, lower, _⟩
                rcases parseNumber_eq_ok lastOk with ⟨isLast, _, upper⟩
                refine ⟨⟨lower, Nat.le_of_not_gt ascending, upper⟩, .range start finish, ?_,
                  by simp, fun _ _ => rfl⟩
                simp [FieldBase.read, notStar, halves, isFirst, isLast]
    · rename_i whole
      cases numberOk : parseNumber text minimum maximum with
      | error error => simp [numberOk, bind, Except.bind] at accepted
      | ok value =>
          simp only [numberOk, bind, Except.bind] at accepted
          cases accepted
          rcases parseNumber_eq_ok numberOk with ⟨isNumber, lower, upper⟩
          refine ⟨⟨lower, ?_, ?_⟩, .number start, ?_, by simp, ?_⟩
          · split
            · exact upper
            · exact le_rfl
          · split
            · exact le_rfl
            · exact upper
          · simp [FieldBase.read, notStar, whole, isNumber]
          · intro step isStepped
            simp [FieldItem.span, isStepped]

/-- The values of a stepped range are those within it whose distance from its start is a multiple
of the step. -/
theorem mem_range'_step {start finish step value : ℕ}
    (ascending : start ≤ finish) :
    value ∈ List.range' start ((finish - start) / step + 1) step ↔
      start ≤ value ∧ value ≤ finish ∧ (value - start) % step = 0 := by
  rw [List.mem_range']
  constructor
  · rintro ⟨position, within, rfl⟩
    have := Nat.mul_le_of_le_div step position (finish - start) (by omega)
    rw [Nat.mul_comm] at this
    refine ⟨Nat.le_add_right _ _, by omega, ?_⟩
    rw [Nat.add_sub_cancel_left, Nat.mul_mod_right]
  · rintro ⟨lower, upper, multiple⟩
    refine ⟨(value - start) / step, ?_, ?_⟩
    · exact Nat.lt_succ_of_le (Nat.div_le_div_right (by omega))
    · have := Nat.div_add_mod (value - start) step
      omega

theorem testBit_foldl_mask (selected : List ℕ) (mask value : ℕ) :
    (selected.foldl (fun mask value => mask ||| 1 <<< value) mask).testBit value = true ↔
      mask.testBit value = true ∨ value ∈ selected := by
  induction selected generalizing mask with
  | nil => simp
  | cons head rest ih =>
      rw [List.foldl_cons, ih]
      simp only [Nat.testBit_or, Nat.one_shiftLeft, Nat.testBit_two_pow, Bool.or_eq_true,
        decide_eq_true_eq, List.mem_cons, or_assoc, @eq_comm _ head]

/-- One turn of the loop adds the values its item denotes. -/
theorem parseItem_eq_ok {found after : ℕ × Bool} (minimumLe : minimum ≤ maximum)
    (accepted : parseItem minimum maximum found text = .ok after) :
    ∃ item, FieldItem.read text = some item ∧
      (∀ value, item.Denotes minimum maximum value → minimum ≤ value ∧ value ≤ maximum) ∧
      (∃ value, item.Denotes minimum maximum value) ∧
      (∀ value, after.1.testBit value = true ↔
        found.1.testBit value = true ∨ item.Denotes minimum maximum value) ∧
      (after.2 = true ↔ found.2 = true ∨ item.base = .wildcard) := by
  unfold parseItem at accepted
  split at accepted
  · cases accepted
  · split at accepted
    · cases accepted
    · rename_i base rest pieces
      cases stepOk : parseStep rest with
      | error error => simp [stepOk, bind, Except.bind] at accepted
      | ok step =>
          cases baseOk : parseBase base (!rest.isEmpty) minimum maximum with
          | error error => simp [stepOk, baseOk, bind, Except.bind] at accepted
          | ok range =>
              rcases range with ⟨start, finish, isWildcard⟩
              simp only [stepOk, baseOk, bind, Except.bind, Except.ok.injEq] at accepted
              subst accepted
              rcases parseBase_eq_ok minimumLe baseOk with
                ⟨⟨lower, ascending, upper⟩, readBase, isRead, wildcardIff, spans⟩
              have isItem : ∃ step',
                  FieldItem.read text = some { base := readBase, step := step' } ∧
                    step'.isSome = !rest.isEmpty ∧ step'.getD 1 = step := by
                rcases parseStep_eq_ok stepOk with ⟨rfl, rfl⟩ | ⟨value, rfl, isStep⟩
                · exact ⟨none, by simp [FieldItem.read, pieces, isRead], rfl, rfl⟩
                · exact ⟨some step, by simp [FieldItem.read, pieces, isRead, isStep], rfl, rfl⟩
              rcases isItem with ⟨step', isItem, stepped, stepIs⟩
              have denotes : ∀ value, FieldItem.Denotes minimum maximum
                  { base := readBase, step := step' } value ↔
                    start ≤ value ∧ value ≤ finish ∧ (value - start) % step = 0 := by
                intro value
                simp only [FieldItem.Denotes, spans step' stepped, stepIs]
              refine ⟨_, isItem, ?_, ⟨start, ?_⟩, ?_, ?_⟩
              · intro value isDenoted
                rw [denotes] at isDenoted
                omega
              · simp [denotes, ascending]
              · intro value
                rw [testBit_foldl_mask, mem_range'_step ascending, denotes]
              · simp [wildcardIff]

/-- A parsed field is the set it denotes, and its flag tells whether it has a wildcard item. -/
theorem parseField_eq_ok {mask : ℕ} {wildcard : Bool} (minimumLe : minimum ≤ maximum)
    (accepted : parseField field minimum maximum = .ok (mask, wildcard)) :
    (∀ value, mask.testBit value = true ↔ FieldDenotes minimum maximum field value) ∧
      (wildcard = true ↔ HasWildcard field) ∧
      ∃ value, FieldDenotes minimum maximum field value := by
  have everyItem : ∀ (texts : List (List Char)) (found after : ℕ × Bool),
      texts.foldlM (parseItem minimum maximum) found = .ok after →
      (∀ value, after.1.testBit value = true ↔ found.1.testBit value = true ∨
        (minimum ≤ value ∧ value ≤ maximum) ∧ ∃ text ∈ texts, ∃ item,
          FieldItem.read text = some item ∧ item.Denotes minimum maximum value) ∧
      (after.2 = true ↔ found.2 = true ∨ ∃ text ∈ texts, ∃ item,
        FieldItem.read text = some item ∧ item.base = .wildcard) ∧
      ∀ text ∈ texts, ∃ item value, FieldItem.read text = some item ∧
        item.Denotes minimum maximum value ∧ minimum ≤ value ∧ value ≤ maximum := by
    intro texts
    induction texts with
    | nil =>
        intro found after done
        cases done
        simp
    | cons text rest ih =>
        intro found after done
        rw [List.foldlM_cons] at done
        cases itemOk : parseItem minimum maximum found text with
        | error error => simp [itemOk, bind, Except.bind] at done
        | ok next =>
            simp only [itemOk, bind, Except.bind] at done
            rcases parseItem_eq_ok minimumLe itemOk with
              ⟨item, isRead, inRange, ⟨first, isFirst⟩, masks, wildcards⟩
            rcases ih next after done with ⟨restMasks, restWildcards, restDenote⟩
            refine ⟨?_, ?_, ?_⟩
            · intro value
              simp only [restMasks, masks, List.mem_cons, exists_eq_or_imp, isRead,
                Option.some.injEq, exists_eq_left']
              rw [or_assoc, and_or_left, and_iff_right_of_imp (inRange value)]
            · simp only [restWildcards, wildcards, List.mem_cons, exists_eq_or_imp, isRead,
                Option.some.injEq, exists_eq_left', or_assoc]
            · intro other otherMem
              rcases List.mem_cons.mp otherMem with rfl | inRest
              · exact ⟨item, first, isRead, isFirst, inRange first isFirst⟩
              · exact restDenote other inRest
  unfold parseField at accepted
  cases itemsOk : (field.splitOn ',').foldlM (parseItem minimum maximum) (0, false) with
  | error error => simp [itemsOk, bind, Except.bind] at accepted
  | ok after =>
      simp only [itemsOk, bind, Except.bind] at accepted
      split at accepted
      · cases accepted
      · cases accepted
        rcases everyItem _ _ _ itemsOk with ⟨masks, wildcards, denote⟩
        refine ⟨?_, ?_, ?_⟩
        · intro value
          simp [masks, FieldDenotes]
        · simp [wildcards, HasWildcard]
        · rcases List.exists_mem_of_ne_nil _ (List.splitOn_ne_nil ',' field) with ⟨text, isItem⟩
          rcases denote text isItem with ⟨item, value, isRead, isDenoted, inRange⟩
          exact ⟨value, inRange, text, isItem, item, isRead, isDenoted⟩

end Items

/-- The five fields of an expression. -/
structure ScheduleFields where
  minute : List Char
  hour : List Char
  monthDay : List Char
  month : List Char
  weekDay : List Char
  deriving DecidableEq

def ScheduleFields.of (expression : String) : Option ScheduleFields :=
  match Text.splitWhitespace (normalizeExpression (Text.trim expression.toList)) with
  | [minute, hour, monthDay, month, weekDay] => some { minute, hour, monthDay, month, weekDay }
  | _ => none

/-- A schedule whose masks are the sets its fields denote, and whose flags are their wildcards. -/
structure ScheduleFields.Masked (fields : ScheduleFields) (schedule : LocalSchedule) : Prop where
  minutes : ∀ value, schedule.minutes.testBit value = true ↔ FieldDenotes 0 59 fields.minute value
  hours : ∀ value, schedule.hours.testBit value = true ↔ FieldDenotes 0 23 fields.hour value
  monthDays : ∀ value,
    schedule.monthDays.testBit value = true ↔ FieldDenotes 1 31 fields.monthDay value
  months : ∀ value, schedule.months.testBit value = true ↔ FieldDenotes 1 12 fields.month value
  weekDays : ∀ value, schedule.weekDays.testBit value = true ↔ FieldDenotes 0 6 fields.weekDay value
  monthDayWildcard : schedule.monthDayWildcard = true ↔ HasWildcard fields.monthDay
  weekDayWildcard : schedule.weekDayWildcard = true ↔ HasWildcard fields.weekDay
  someMinute : ∃ value, FieldDenotes 0 59 fields.minute value
  someHour : ∃ value, FieldDenotes 0 23 fields.hour value
  someMonth : ∃ value, FieldDenotes 1 12 fields.month value

/-- The dates and times the fields select, as far as the grammar says: a day field that is a plain
wildcard leaves the choice to the other one, and two restricted ones share it. -/
structure ScheduleFields.RunsOn (fields : ScheduleFields) (schedule : LocalSchedule)
    (civil : NaiveDateTime) : Prop where
  minute : schedule.selects civil = true → FieldDenotes 0 59 fields.minute civil.minute
  hour : schedule.selects civil = true → FieldDenotes 0 23 fields.hour civil.hour
  month : schedule.selects civil = true → FieldDenotes 1 12 fields.month civil.date.month
  monthDay : fields.weekDay = ['*'] → (schedule.dateMatches civil.date = true ↔
    FieldDenotes 1 12 fields.month civil.date.month ∧
      FieldDenotes 1 31 fields.monthDay civil.date.day)
  weekDay : fields.monthDay = ['*'] → (schedule.dateMatches civil.date = true ↔
    FieldDenotes 1 12 fields.month civil.date.month ∧
      FieldDenotes 0 6 fields.weekDay civil.date.weekday)
  eitherDay : ¬HasWildcard fields.monthDay → ¬HasWildcard fields.weekDay →
    (schedule.dateMatches civil.date = true ↔
      FieldDenotes 1 12 fields.month civil.date.month ∧
        (FieldDenotes 1 31 fields.monthDay civil.date.day ∨
          FieldDenotes 0 6 fields.weekDay civil.date.weekday))

/-- A wildcard item beside a plain wildcard in the other day field leaves out no day. -/
structure ScheduleFields.StepsWhole (fields : ScheduleFields) : Prop where
  monthDays : fields.weekDay = ['*'] → HasWildcard fields.monthDay →
    ∀ month, FieldDenotes 1 12 fields.month month →
      ∀ day, 1 ≤ day ∧ day ≤ daysInMonth month → FieldDenotes 1 31 fields.monthDay day
  weekDays : fields.monthDay = ['*'] → HasWildcard fields.weekDay →
    ∀ weekday, weekday ≤ 6 → FieldDenotes 0 6 fields.weekDay weekday

section Fields

variable {expression : String} {schedule : LocalSchedule} {fields : ScheduleFields}

/-- An accepted schedule has the masks and the flags of its five fields. -/
theorem ScheduleFields.exists_of_parse (parsed : LocalSchedule.parse expression = .ok schedule) :
    ∃ fields, ScheduleFields.of expression = some fields ∧
      (∃ flag, parseField fields.minute 0 59 = .ok (schedule.minutes, flag)) ∧
      (∃ flag, parseField fields.hour 0 23 = .ok (schedule.hours, flag)) ∧
      parseField fields.monthDay 1 31 = .ok (schedule.monthDays, schedule.monthDayWildcard) ∧
      (∃ flag, parseField fields.month 1 12 = .ok (schedule.months, flag)) ∧
      parseField fields.weekDay 0 6 = .ok (schedule.weekDays, schedule.weekDayWildcard) := by
  unfold LocalSchedule.parse at parsed
  split at parsed
  · cases parsed
  · split at parsed
    · rename_i minute hour monthDay month weekDay isSplit
      rcases exists_of_bind_eq_ok parsed with ⟨⟨minutes, minuteFlag⟩, minuteOk, parsed⟩
      rcases exists_of_bind_eq_ok parsed with ⟨⟨hours, hourFlag⟩, hourOk, parsed⟩
      rcases exists_of_bind_eq_ok parsed with ⟨⟨monthDays, monthDayFlag⟩, monthDayOk, parsed⟩
      rcases exists_of_bind_eq_ok parsed with ⟨⟨months, monthFlag⟩, monthOk, parsed⟩
      rcases exists_of_bind_eq_ok parsed with ⟨⟨weekDays, weekDayFlag⟩, weekDayOk, parsed⟩
      cases parsed
      refine ⟨{ minute, hour, monthDay, month, weekDay }, ?_, ⟨_, minuteOk⟩, ⟨_, hourOk⟩,
        monthDayOk, ⟨_, monthOk⟩, weekDayOk⟩
      simp only [ScheduleFields.of, isSplit]
    · cases parsed

theorem ScheduleFields.masked_of_parse (parsed : LocalSchedule.parse expression = .ok schedule) :
    ∃ fields, ScheduleFields.of expression = some fields ∧ fields.Masked schedule := by
  rcases exists_of_parse parsed with ⟨fields, isOf, ⟨minuteFlag, minuteOk⟩, ⟨hourFlag, hourOk⟩,
    monthDayOk, ⟨monthFlag, monthOk⟩, weekDayOk⟩
  rcases parseField_eq_ok (by decide) minuteOk with ⟨minuteIff, -, someMinute⟩
  rcases parseField_eq_ok (by decide) hourOk with ⟨hourIff, -, someHour⟩
  rcases parseField_eq_ok (by decide) monthDayOk with ⟨monthDayIff, monthDayStar, -⟩
  rcases parseField_eq_ok (by decide) monthOk with ⟨monthIff, -, someMonth⟩
  rcases parseField_eq_ok (by decide) weekDayOk with ⟨weekDayIff, weekDayStar, -⟩
  exact ⟨fields, isOf, minuteIff, hourIff, monthDayIff, monthIff, weekDayIff, monthDayStar,
    weekDayStar, someMinute, someHour, someMonth⟩

theorem hasWildcard_star : HasWildcard ['*'] :=
  ⟨['*'], by decide, { base := .wildcard, step := none }, by decide, rfl⟩

namespace ScheduleFields.Masked

variable (masked : fields.Masked schedule) (date : NaiveDate)

include masked

theorem selects_iff (civil : NaiveDateTime) : schedule.selects civil = true ↔
    schedule.dateMatches civil.date = true ∧ FieldDenotes 0 23 fields.hour civil.hour ∧
      FieldDenotes 0 59 fields.minute civil.minute := by
  simp only [LocalSchedule.selects, Bool.and_eq_true, masked.hours, masked.minutes]

theorem month_of_dateMatches (isMatch : schedule.dateMatches date = true) :
    FieldDenotes 1 12 fields.month date.month := by
  rw [LocalSchedule.dateMatches, Bool.and_eq_true] at isMatch
  exact (masked.months _).mp isMatch.1

/-- Two wildcard flags: the masks of the day fields are not consulted. -/
theorem dateMatches_of_wildcards (monthDay : HasWildcard fields.monthDay)
    (weekDay : HasWildcard fields.weekDay) : schedule.dateMatches date = true ↔
      FieldDenotes 1 12 fields.month date.month := by
  simp only [LocalSchedule.dateMatches, masked.monthDayWildcard.mpr monthDay,
    masked.weekDayWildcard.mpr weekDay, Bool.and_true, masked.months]

theorem dateMatches_of_weekDay_wildcard (monthDay : ¬HasWildcard fields.monthDay)
    (weekDay : HasWildcard fields.weekDay) : schedule.dateMatches date = true ↔
      FieldDenotes 1 12 fields.month date.month ∧
        FieldDenotes 1 31 fields.monthDay date.day := by
  rw [← masked.monthDayWildcard, Bool.not_eq_true] at monthDay
  simp only [LocalSchedule.dateMatches, monthDay, masked.weekDayWildcard.mpr weekDay,
    Bool.and_eq_true, masked.months, masked.monthDays]

theorem dateMatches_of_monthDay_wildcard (monthDay : HasWildcard fields.monthDay)
    (weekDay : ¬HasWildcard fields.weekDay) : schedule.dateMatches date = true ↔
      FieldDenotes 1 12 fields.month date.month ∧
        FieldDenotes 0 6 fields.weekDay date.weekday := by
  rw [← masked.weekDayWildcard, Bool.not_eq_true] at weekDay
  simp only [LocalSchedule.dateMatches, weekDay, masked.monthDayWildcard.mpr monthDay,
    Bool.and_eq_true, masked.months, masked.weekDays]

theorem dateMatches_of_restricted (monthDay : ¬HasWildcard fields.monthDay)
    (weekDay : ¬HasWildcard fields.weekDay) : schedule.dateMatches date = true ↔
      FieldDenotes 1 12 fields.month date.month ∧
        (FieldDenotes 1 31 fields.monthDay date.day ∨
          FieldDenotes 0 6 fields.weekDay date.weekday) := by
  rw [← masked.monthDayWildcard, Bool.not_eq_true] at monthDay
  rw [← masked.weekDayWildcard, Bool.not_eq_true] at weekDay
  simp only [LocalSchedule.dateMatches, monthDay, weekDay, Bool.and_eq_true, Bool.or_eq_true,
    masked.months, masked.monthDays, masked.weekDays]

end ScheduleFields.Masked

theorem NaiveDate.weekday_le (date : NaiveDate) : date.weekday ≤ 6 := by
  unfold weekday
  omega

/-- A schedule runs on the days its fields denote where no stepped wildcard of a day field stands
beside a plain one. -/
theorem ScheduleFields.runsOn_iff (parsed : LocalSchedule.parse expression = .ok schedule) :
    ∃ fields, ScheduleFields.of expression = some fields ∧
      ((∀ civil, fields.RunsOn schedule civil) ↔ fields.StepsWhole) := by
  rcases masked_of_parse parsed with ⟨fields, isOf, masked⟩
  refine ⟨fields, isOf, ?_, ?_⟩
  · intro runsOn
    constructor
    · intro plain wildcard month isMonth day isDay
      rcases (NaiveDate.twice_month_day isMonth.1 isDay).exists_later .satisfiabilityEpoch
        (by decide) with ⟨date, -, -, rfl, rfl⟩
      have selected := (masked.dateMatches_of_wildcards date wildcard
        (plain ▸ hasWildcard_star)).mpr isMonth
      exact (((runsOn { date, hour := 0, minute := 0 }).monthDay plain).mp selected).2
    · intro plain wildcard weekday isWeekday
      rcases masked.someMonth with ⟨month, isMonth⟩
      rcases (NaiveDate.twice_month_weekday isMonth.1 isWeekday).exists_later .satisfiabilityEpoch
        (by decide) with ⟨date, -, -, rfl, rfl⟩
      have selected := (masked.dateMatches_of_wildcards date
        (plain ▸ hasWildcard_star) wildcard).mpr isMonth
      exact (((runsOn { date, hour := 0, minute := 0 }).weekDay plain).mp selected).2
  · intro whole civil
    refine ⟨?_, ?_, ?_, ?_, ?_, ?_⟩
    · exact fun selected => ((masked.selects_iff civil).mp selected).2.2
    · exact fun selected => ((masked.selects_iff civil).mp selected).2.1
    · exact fun selected =>
        masked.month_of_dateMatches _ ((masked.selects_iff civil).mp selected).1
    · intro plain
      have weekDay : HasWildcard fields.weekDay := plain ▸ hasWildcard_star
      by_cases monthDay : HasWildcard fields.monthDay
      · rw [masked.dateMatches_of_wildcards _ monthDay weekDay, iff_self_and]
        exact fun isMonth => whole.monthDays plain monthDay _ isMonth _ civil.date.day_range
      · exact masked.dateMatches_of_weekDay_wildcard _ monthDay weekDay
    · intro plain
      have monthDay : HasWildcard fields.monthDay := plain ▸ hasWildcard_star
      by_cases weekDay : HasWildcard fields.weekDay
      · rw [masked.dateMatches_of_wildcards _ monthDay weekDay, iff_self_and]
        exact fun _ => whole.weekDays plain weekDay _ civil.date.weekday_le
      · exact masked.dateMatches_of_monthDay_wildcard _ monthDay weekDay
    · exact masked.dateMatches_of_restricted _

/-- The schedule `0 3 * * 0`. -/
def LocalSchedule.sundays : LocalSchedule where
  minutes := 1
  hours := 2 ^ 3
  monthDays := 2 ^ 32 - 2
  months := 2 ^ 13 - 2
  weekDays := 1
  monthDayWildcard := true
  weekDayWildcard := false

theorem not_hasWildcard_zero : ¬HasWildcard ['0'] := by
  rintro ⟨text, isText, item, isRead, isWildcard⟩
  rw [show ['0'].splitOn ',' = [['0']] by decide, List.mem_singleton] at isText
  subst isText
  rw [show FieldItem.read ['0'] = some { base := .number 0, step := none } by decide] at isRead
  cases isRead
  cases isWildcard

theorem ScheduleFields.runsOn_sundays : ∃ fields, ScheduleFields.of "0 3 * * 0" = some fields ∧
    ∀ civil, fields.RunsOn .sundays civil := by
  have parsed : LocalSchedule.parse "0 3 * * 0" = .ok .sundays := by decide +kernel
  rcases runsOn_iff parsed with ⟨fields, isOf, exact⟩
  refine ⟨fields, isOf, exact.mpr ?_⟩
  have isFields : ScheduleFields.of "0 3 * * 0" =
      some ⟨['0'], ['3'], ['*'], ['*'], ['0']⟩ := by decide +kernel
  cases isOf.symm.trans isFields
  exact ⟨fun plain => absurd plain (by decide),
    fun _ wildcard => absurd wildcard not_hasWildcard_zero⟩

/-- The schedule `0 0 */2 * *`. -/
def LocalSchedule.everyOtherDay : LocalSchedule where
  minutes := 1
  hours := 1
  monthDays := 0xAAAAAAAA
  months := 2 ^ 13 - 2
  weekDays := 2 ^ 7 - 1
  monthDayWildcard := true
  weekDayWildcard := true

/-- Every other day is every day: the schedule selects 2000-01-02 as well. -/
theorem LocalSchedule.everyOtherDay_selects_all :
    LocalSchedule.parse "0 0 */2 * *" = .ok everyOtherDay ∧
      (∀ date, everyOtherDay.dateMatches date = true) ∧
      ∃ fields, ScheduleFields.of "0 0 */2 * *" = some fields ∧
        ¬∀ civil, fields.RunsOn everyOtherDay civil := by
  refine ⟨by decide +kernel, ?_, ⟨['0'], ['0'], ['*', '/', '2'], ['*'], ['*']⟩,
    by decide +kernel, ?_⟩
  · intro date
    have months : ∀ month : Fin 13, 1 ≤ month.val → everyOtherDay.months.testBit month.val := by
      decide
    have range := date.month_range
    simpa [dateMatches, everyOtherDay] using months ⟨date.month, by omega⟩ range.1
  · intro runsOn
    rcases (((runsOn { date := ⟨10958, by decide, by decide⟩, hour := 0, minute := 0 }).monthDay
      rfl).mp (by decide)).2 with ⟨-, text, isText, item, isRead, isDenoted⟩
    rw [show ['*', '/', '2'].splitOn ',' = [['*', '/', '2']] by decide, List.mem_singleton]
      at isText
    subst isText
    rw [show FieldItem.read ['*', '/', '2'] = some { base := .wildcard, step := some 2 } by
      decide] at isRead
    cases isRead
    exact absurd isDenoted.2.2 (by decide)

end Fields

end Gregg
