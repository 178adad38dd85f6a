import Gregg.Greggd.ScheduleFields
import Gregg.Tui.CronRows
import Gregg.Tui.InertText

/-!
# The label of a schedule

The cron pane shortens a schedule of one minute a day or a week to a clock. It reads the sanitized
text of the schedule, the daemon the text itself: where the pane finds five fields of digits and
wildcards, nothing in the text was escaped, and these are the fields that the daemon reads.
-/

namespace Gregg.Tui

section Words

variable {line text : List Char} {lines : List (List Char)}

/-- A character of a field that the label is made from. -/
def IsPlainField (field : List Char) : Prop :=
  ∀ character ∈ field, character.isDigit = true ∨ character = '*'

theorem splitWhitespace_intercalate (lines : List (List Char)) :
    Text.splitWhitespace (['\n'].intercalate lines) = lines.flatMap Text.splitWhitespace := by
  induction lines using List.reverseRecOn with
  | nil => rfl
  | append_singleton lines last ih =>
      rw [Lines.intercalate_append_singleton, List.flatMap_append, ← ih, List.flatMap_singleton]
      by_cases none : lines = []
      · subst none
        rfl
      · rw [← Lines.intercalate_append_newline none, List.append_assoc, List.singleton_append,
          Text.splitWhitespace_append (by decide)]

/-- The words of a text are those of its lines. -/
theorem splitWhitespace_split (text : List Char) :
    (Lines.split text).flatMap Text.splitWhitespace = Text.splitWhitespace text := by
  have stripped : ∀ line : List Char,
      Text.splitWhitespace (Lines.stripReturn line) = Text.splitWhitespace line := by
    intro line
    rw [Lines.stripReturn]
    split
    · rename_i isReturn
      rcases List.getLast?_eq_some_iff.mp isReturn with ⟨before, rfl⟩
      rw [List.dropLast_concat, Text.splitWhitespace_append (by decide) before []]
      exact (List.append_nil _).symm
    · rfl
  rcases Lines.exists_parts text with ⟨lines, last, single, lastSingle, rfl⟩
  rw [Lines.split_parts single lastSingle, ← Lines.intercalate_append_singleton,
    splitWhitespace_intercalate, List.flatMap_append, List.flatMap_append, List.flatMap_map,
    List.flatMap_congr fun line _ => stripped line, List.flatMap_singleton]
  split
  · rename_i isEmpty
    rw [isEmpty]
    rfl
  · rw [List.flatMap_singleton]

/-- An escape shows a character that is neither white space nor in such a field. -/
theorem exists_mark_of_escape {character : Char} {replacement : List Char}
    (escaped : escape character = some replacement) :
    ∃ mark ∈ replacement, (mark = '^' ∨ mark = '\\') ∧ Text.isWhitespace mark = false := by
  have caretMem : ∀ code, '^' ∈ caret code := fun code => List.mem_cons_self
  have backslash : ∀ code width, '\\' ∈ ['\\', 'u'] ++ Text.formatHex width code :=
    fun code width => List.mem_cons_self
  simp only [escape] at escaped
  split at escaped
  · cases escaped
  · split at escaped
    · cases escaped
      exact ⟨'^', caretMem _, .inl rfl, by decide⟩
    · split at escaped
      · cases escaped
        exact ⟨'^', by simp, .inl rfl, by decide⟩
      · split at escaped
        · cases escaped
          exact ⟨'^', by simp [caretMem], .inl rfl, by decide⟩
        · split at escaped
          · cases escaped
            exact ⟨'\\', backslash _ _, .inr rfl, by decide⟩
          · split at escaped
            · cases escaped
              exact ⟨'\\', backslash _ _, .inr rfl, by decide⟩
            · cases escaped

/-- A row without escapes has the words of its line. -/
theorem splitWhitespace_row (kept : ∀ character ∈ line, escape character = none)
    (before : List Char) :
    Text.splitWhitespace (before ++ row line) = Text.splitWhitespace (before ++ line) := by
  induction line generalizing before with
  | nil => rfl
  | cons first line ih =>
      rw [List.forall_mem_cons] at kept
      rw [row_cons, cell]
      split
      · rename_i isTab
        subst isTab
        have spaces : Text.splitWhitespace (before ++ (TAB_CELLS ++ row line)) =
            Text.splitWhitespace before ++ Text.splitWhitespace (row line) := by
          rw [TAB_CELLS, List.cons_append, Text.splitWhitespace_append (by decide)]
          simp only [List.cons_append, List.nil_append]
          rw [Text.splitWhitespace_space (by decide), Text.splitWhitespace_space (by decide),
            Text.splitWhitespace_space (by decide)]
        rw [spaces, Text.splitWhitespace_append (by decide)]
        exact congrArg _ (ih kept.2 [])
      · rw [kept.1, Option.getD_none, ← List.append_assoc, ih kept.2, List.append_assoc]
        rfl

/-- A sanitized text of plain fields has the words of the text. -/
theorem splitWhitespace_of_sanitized
    (plain : ∀ field ∈ Text.splitWhitespace (sanitize text none).text, IsPlainField field) :
    Text.splitWhitespace text = Text.splitWhitespace (sanitize text none).text := by
  have isText : (sanitize text none).text = ['\n'].intercalate ((Lines.split text).map row) := by
    rw [sanitize_eq]
    rfl
  rw [isText, splitWhitespace_intercalate, List.flatMap_map] at plain ⊢
  rw [← splitWhitespace_split text]
  refine List.flatMap_congr fun line isLine => ?_
  refine (splitWhitespace_row ?_ []).symm
  intro character isMember
  by_contra isEscaped
  rcases Option.ne_none_iff_exists'.mp isEscaped with ⟨replacement, escaped⟩
  rcases exists_mark_of_escape escaped with ⟨mark, inReplacement, isMark, solid⟩
  have shown : mark ∈ row line := by
    refine mem_row_iff.mpr ⟨character, isMember, ?_⟩
    rw [cell, if_neg, escaped]
    · exact inReplacement
    · rintro rfl
      cases escaped
  rcases Text.exists_word_of_mem shown solid with ⟨word, isWord, inWord⟩
  have isPlain := plain word (List.mem_flatMap.mpr ⟨line, isLine, isWord⟩) mark inWord
  rcases isMark with rfl | rfl
  · exact absurd isPlain (by decide)
  · exact absurd isPlain (by decide)

end Words

section Fields

variable {minimum maximum value : ℕ} {field : List Char}

/-- A field of digits is one number. -/
structure IsNumber (field : List Char) (value : ℕ) : Prop where
  digits : ∀ character ∈ field, character.isDigit = true
  read : Text.parseUsize field = some value

theorem IsNumber.item (number : IsNumber field value) : field.splitOn ',' = [field] ∧
    FieldItem.read field = some { base := .number value, step := none } := by
  have without : ∀ character, character.isDigit = false → character ∉ field := by
    intro character noDigit isMember
    rw [number.digits character isMember] at noDigit
    cases noDigit
  have notStar : field ≠ ['*'] := by
    rintro rfl
    exact without '*' (by decide) List.mem_cons_self
  have undivided : Text.splitOnce '-' field = none := by
    have absent := without '-' (by decide)
    generalize field = text at absent
    induction text with
    | nil => rfl
    | cons first text ih =>
        rw [List.mem_cons, not_or] at absent
        rw [Text.splitOnce, if_neg (Ne.symm absent.1), ih absent.2]
        rfl
  refine ⟨List.splitOn_eq_singleton (without ',' (by decide)), ?_⟩
  rw [FieldItem.read, List.splitOn_eq_singleton (without '/' (by decide))]
  simp only [FieldBase.read, if_neg notStar, undivided, number.read, Option.map_some]

theorem IsNumber.denotes_iff (number : IsNumber field value) (other : ℕ) :
    FieldDenotes minimum maximum field other ↔
      (minimum ≤ other ∧ other ≤ maximum) ∧ other = value := by
  rw [FieldDenotes, number.item.1]
  refine and_congr_right fun _ => ⟨?_, ?_⟩
  · rintro ⟨text, isText, item, isRead, isDenoted⟩
    rw [List.mem_singleton.mp isText, number.item.2] at isRead
    cases isRead
    exact Nat.le_antisymm isDenoted.2.1 isDenoted.1
  · rintro rfl
    exact ⟨field, List.mem_singleton_self _, _, number.item.2, Nat.le_refl _, Nat.le_refl _,
      Nat.mod_one _⟩

theorem IsNumber.not_hasWildcard (number : IsNumber field value) : ¬HasWildcard field := by
  rintro ⟨text, isText, item, isRead, isWildcard⟩
  rw [number.item.1] at isText
  rw [List.mem_singleton.mp isText, number.item.2] at isRead
  cases isRead
  cases isWildcard

/-- A number that a field accepts is one of its values, and the only one. -/
theorem IsNumber.bounds (number : IsNumber field value) {mask : ℕ} {flag : Bool}
    (minimumLe : minimum ≤ maximum)
    (accepted : parseField field minimum maximum = .ok (mask, flag)) :
    minimum ≤ value ∧ value ≤ maximum := by
  rcases (parseField_eq_ok minimumLe accepted).2.2 with ⟨other, isDenoted⟩
  rcases (number.denotes_iff other).mp isDenoted with ⟨range, rfl⟩
  exact range

theorem fieldDenotes_star (other : ℕ) :
    FieldDenotes minimum maximum ['*'] other ↔ minimum ≤ other ∧ other ≤ maximum := by
  refine ⟨fun isDenoted => isDenoted.1, fun range => ⟨range, ['*'], by decide,
    { base := .wildcard, step := none }, by decide, range.1, range.2,
    Nat.mod_one _⟩⟩

end Fields

/-- A minute of every day, or of one day of the week. -/
inductive LabelledTime where
  | daily (hour : Fin 24) (minute : Fin 60)
  | weekly (weekday : Fin 7) (hour : Fin 24) (minute : Fin 60)

namespace LabelledTime

def clock (hour : Fin 24) (minute : Fin 60) : String :=
  s!"{CronPane.twoDigits hour}:{CronPane.twoDigits minute}"

def weekdays : List String :=
  ["Sun", "Mon", "Tue", "Wed", "Thu", "Fri", "Sat"]

def text : LabelledTime → String
  | daily hour minute => clock hour minute
  | weekly weekday hour minute => s!"weekly {weekdays.get weekday} {clock hour minute}"

/-- The civil minutes that the label names. -/
def Names : LabelledTime → NaiveDateTime → Prop
  | daily hour minute, civil => civil.hour = hour ∧ civil.minute = minute
  | weekly weekday hour minute, civil =>
      civil.date.weekday = weekday ∧ civil.hour = hour ∧ civil.minute = minute

end LabelledTime

namespace CronPane

theorem isNumber_of_parseField {field : List Char} {value : ℕ}
    (parsed : parseField field = some value) : IsNumber field value := by
  rw [parseField] at parsed
  split at parsed
  · rename_i digits
    exact ⟨List.all_eq_true.mp digits, (Option.filter_eq_some_iff.mp parsed).1⟩
  · cases parsed

/-- A label that is not the schedule's own text was made from five fields of its sanitized text. -/
theorem scheduleLabel_cases (expression : String) :
    scheduleLabel expression = inert expression ∨
    ∃ minuteField hourField dayOfWeek hour minute,
      Text.splitWhitespace (inert expression).toList =
        [minuteField, hourField, ['*'], ['*'], dayOfWeek] ∧
      parseField hourField = some hour ∧ parseField minuteField = some minute ∧
      (dayOfWeek = ['*'] ∧
          scheduleLabel expression = s!"{twoDigits hour}:{twoDigits minute}" ∨
        ∃ digit value, dayOfWeek = [digit] ∧ Text.digitValue digit = some value ∧
          scheduleLabel expression =
            "weekly " ++ LabelledTime.weekdays.getD (min value 6) "" ++ " " ++
              s!"{twoDigits hour}:{twoDigits minute}") := by
  simp only [scheduleLabel]
  split
  · rename_i minuteField hourField dayOfMonth month dayOfWeek isSplit
    split
    · rename_i hour minute isHour isMinute
      split
      · rename_i everyDay
        rcases everyDay with ⟨rfl, rfl⟩
        split
        · exact .inr ⟨_, _, _, hour, minute, isSplit, isHour, isMinute, .inl ⟨rfl, rfl⟩⟩
        · rename_i digit notStar
          split
          · rename_i value isValue
            exact .inr ⟨_, _, _, hour, minute, isSplit, isHour, isMinute,
              .inr ⟨digit, value, rfl, isValue, rfl⟩⟩
          · exact .inl rfl
        · exact .inl rfl
      · exact .inl rfl
    · exact .inl rfl
  · exact .inl rfl

theorem isDigit_of_digitValue {digit : Char} {value : ℕ}
    (isValue : Text.digitValue digit = some value) : digit.isDigit = true := by
  rw [Text.digitValue, Option.ite_none_right_eq_some] at isValue
  simp only [Char.isDigit, Bool.and_eq_true, decide_eq_true_eq]
  exact isValue.1

theorem isNumber_digit {digit : Char} {value : ℕ}
    (isValue : Text.digitValue digit = some value) : IsNumber [digit] value := by
  have isDigit := isDigit_of_digitValue isValue
  refine ⟨fun character isMember => List.mem_singleton.mp isMember ▸ isDigit, ?_⟩
  have notPlus : digit ≠ '+' := by
    rintro rfl
    cases isDigit
  have single : Text.parseUsize [digit] = Text.parseDigits 0 [digit] := by
    rw [Text.parseUsize]
    · exact List.cons_ne_nil _ _
    · rintro ⟨⟩
      exact notPlus rfl
    · rintro rest ⟨⟩
      exact notPlus rfl
  have fits : value ≤ u64Max := by
    rw [Text.digitValue, Option.ite_none_right_eq_some, Option.some_inj] at isValue
    have upper : digit.toNat ≤ '9'.toNat := isValue.1.2
    have small : '9'.toNat ≤ u64Max := by decide
    omega
  simp only [single, Text.parseDigits, isValue, Nat.zero_mul, Nat.zero_add]
  exact if_pos fits

/-- Five words are the five fields. -/
theorem fields_of_words {expression : String} {minute hour monthDay month weekDay : List Char}
    (isSplit : Text.splitWhitespace expression.toList = [minute, hour, monthDay, month, weekDay]) :
    ScheduleFields.of expression = some { minute, hour, monthDay, month, weekDay } := by
  have isTrimmed : Text.splitWhitespace (Text.trim expression.toList) =
      [minute, hour, monthDay, month, weekDay] := by
    rw [Text.splitWhitespace_trim, isSplit]
  have noAlias : ∀ word : List Char, (Text.splitWhitespace word).length ≤ 1 →
      Text.trim expression.toList ≠ word := by
    rintro word short rfl
    rw [isTrimmed] at short
    exact absurd short (by simp)
  have isText : normalizeExpression (Text.trim expression.toList) =
      Text.trim expression.toList := by
    rw [normalizeExpression, if_neg (noAlias _ (by decide)), if_neg (noAlias _ (by decide)),
      if_neg (noAlias _ (by decide)), if_neg (noAlias _ (by decide))]
  rw [ScheduleFields.of, isText, isTrimmed]

/-- The label of a schedule is its text, or names the minutes that the daemon runs it in. -/
theorem scheduleLabel_denotes {expression : String} {schedule : LocalSchedule}
    (parsed : LocalSchedule.parse expression = .ok schedule) :
    scheduleLabel expression = inert expression ∨
      ∃ time : LabelledTime, scheduleLabel expression = time.text ∧
        ∀ civil, schedule.selects civil = true ↔ time.Names civil := by
  rcases scheduleLabel_cases expression with isText | ⟨minuteField, hourField, dayOfWeek, hour,
    minute, isSplit, isHour, isMinute, isLabel⟩
  · exact .inl isText
  have hourNumber := isNumber_of_parseField isHour
  have minuteNumber := isNumber_of_parseField isMinute
  have plainStar : IsPlainField ['*'] := by
    rintro character isMember
    exact .inr (List.mem_singleton.mp isMember)
  have plainDay : IsPlainField dayOfWeek := by
    rcases isLabel with ⟨rfl, -⟩ | ⟨digit, value, rfl, isValue, -⟩
    · exact plainStar
    · rintro character isMember
      rw [List.mem_singleton.mp isMember]
      exact .inl (isDigit_of_digitValue isValue)
  -- The daemon finds the same words, so that no character between them was escaped.
  have words : Text.splitWhitespace expression.toList =
      [minuteField, hourField, ['*'], ['*'], dayOfWeek] := by
    rw [inert, String.toList_ofList] at isSplit
    rw [splitWhitespace_of_sanitized, isSplit]
    rw [isSplit]
    simp only [List.forall_mem_cons]
    exact ⟨fun character isMember => .inl (minuteNumber.digits character isMember),
      fun character isMember => .inl (hourNumber.digits character isMember), plainStar, plainStar,
      plainDay, by simp⟩
  rcases ScheduleFields.exists_of_parse parsed with ⟨fields, isOf, ⟨_, minuteOk⟩, ⟨_, hourOk⟩, -, -,
    weekDayOk⟩
  rcases ScheduleFields.masked_of_parse parsed with ⟨_, isSame, masked⟩
  cases isOf.symm.trans isSame
  cases isOf.symm.trans (fields_of_words words)
  have hourRange := hourNumber.bounds (by decide) hourOk
  have minuteRange := minuteNumber.bounds (by decide) minuteOk
  have everyMonth : ∀ date : NaiveDate, FieldDenotes 1 12 ['*'] date.month :=
    fun date => (fieldDenotes_star _).mpr date.month_range
  have isHourIff : ∀ civil : NaiveDateTime, FieldDenotes 0 23 hourField civil.hour ↔
      civil.hour = ⟨hour, by omega⟩ := by
    intro civil
    rw [hourNumber.denotes_iff, Fin.ext_iff]
    exact and_iff_right ⟨Nat.zero_le _, by omega⟩
  have isMinuteIff : ∀ civil : NaiveDateTime, FieldDenotes 0 59 minuteField civil.minute ↔
      civil.minute = ⟨minute, by omega⟩ := by
    intro civil
    rw [minuteNumber.denotes_iff, Fin.ext_iff]
    exact and_iff_right ⟨Nat.zero_le _, by omega⟩
  right
  rcases isLabel with ⟨rfl, isLabel⟩ | ⟨digit, value, rfl, isValue, isLabel⟩
  · refine ⟨.daily ⟨hour, by omega⟩ ⟨minute, by omega⟩, isLabel, fun civil => ?_⟩
    rw [masked.selects_iff, masked.dateMatches_of_wildcards _ hasWildcard_star hasWildcard_star,
      and_iff_right (everyMonth _), isHourIff, isMinuteIff]
    rfl
  · have weekDayNumber := isNumber_digit isValue
    have weekDayRange := weekDayNumber.bounds (by decide) weekDayOk
    refine ⟨.weekly ⟨value, by omega⟩ ⟨hour, by omega⟩ ⟨minute, by omega⟩, ?_, fun civil => ?_⟩
    · have short : value < LabelledTime.weekdays.length := Nat.lt_succ_of_le weekDayRange.2
      have isName : LabelledTime.weekdays.getD (min value 6) "" =
          LabelledTime.weekdays.get ⟨value, short⟩ := by
        rw [Nat.min_eq_left weekDayRange.2, List.getD_eq_getElem?_getD,
          List.getElem?_eq_getElem short]
        rfl
      rw [isLabel, isName]
      simp only [LabelledTime.text, LabelledTime.clock, String.append_assoc]
      rfl
    · have isDay : FieldDenotes 0 6 [digit] civil.date.weekday ↔ civil.date.weekday = value := by
        rw [weekDayNumber.denotes_iff]
        exact and_iff_right ⟨Nat.zero_le _, civil.date.weekday_le⟩
      rw [masked.selects_iff, masked.dateMatches_of_monthDay_wildcard _ hasWildcard_star
        weekDayNumber.not_hasWildcard, and_iff_right (everyMonth _), isDay, isHourIff, isMinuteIff]
      rfl

/-- The weekly schedule `0 3 * * 0` is labelled with its day. -/
theorem scheduleLabel_sundays : LocalSchedule.parse "0 3 * * 0" = .ok .sundays ∧
    scheduleLabel "0 3 * * 0" = "weekly Sun 03:00" ∧
    (scheduleLabel "0 3 * * 0" = inert "0 3 * * 0" ∨
      ∃ time : LabelledTime, scheduleLabel "0 3 * * 0" = time.text ∧
        ∀ civil, LocalSchedule.sundays.selects civil = true ↔ time.Names civil) :=
  have parsed : LocalSchedule.parse "0 3 * * 0" = .ok .sundays := by decide +kernel
  ⟨parsed, by decide +kernel, scheduleLabel_denotes parsed⟩

end CronPane

end Gregg.Tui
