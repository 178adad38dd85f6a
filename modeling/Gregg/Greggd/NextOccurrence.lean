import Gregg.Greggd.Schedule
import Gregg.Lib.Loop

/-!
# The next occurrence of a schedule

The three nested loops of the search visit the civil minutes of 400 years in civil order. They
return the first instant still to come of the first selected minute that has one. Where civil
order is not the order of the instants, a selected minute may be passed over.
-/

namespace Gregg

/-- The position of a civil minute in civil order. -/
def NaiveDateTime.ordinal (civil : NaiveDateTime) : ℤ :=
  civil.date.days * 1440 + civil.hour.val * 60 + civil.minute.val

/-- The civil minutes of one date, in the order of the hour and minute loops. -/
def minutesOf (date : NaiveDate) : List NaiveDateTime :=
  (List.finRange 24).flatMap fun hour =>
    (List.finRange 60).map fun minute => { date, hour, minute }

/-- The civil minutes of the given number of days. -/
def minutesFrom : ℕ → NaiveDate → List NaiveDateTime
  | 0, _ => []
  | fuel + 1, date =>
      minutesOf date ++
        match date.succOpt with
        | none => []
        | some next => minutesFrom fuel next

/-- The minute, hour and date masks all admit a civil minute. -/
def LocalSchedule.selects (schedule : LocalSchedule) (civil : NaiveDateTime) : Bool :=
  schedule.dateMatches civil.date &&
    (schedule.hours.testBit civil.hour.val && schedule.minutes.testBit civil.minute.val)

/-- What the body of the loops makes of one civil minute. -/
def LocalSchedule.occurrenceAfter (schedule : LocalSchedule) (zone : LocalZone)
    (after : DateTime) (civil : NaiveDateTime) : Option DateTime :=
  if schedule.selects civil then instantAfter zone after civil else none

section Minutes

variable {date : NaiveDate} {civil : NaiveDateTime} {fuel : ℕ}

theorem NaiveDate.eq_iff_days {left right : NaiveDate} : left = right ↔ left.days = right.days := by
  cases left
  cases right
  simp

theorem NaiveDate.succOpt_eq_some {next : NaiveDate} (advanced : date.succOpt = some next) :
    next.days = date.days + 1 := by
  unfold succOpt at advanced
  split at advanced
  · cases advanced
    rfl
  · cases advanced

theorem NaiveDate.succOpt_eq_none (last : date.succOpt = none) : date.days = MAX_DATE := by
  unfold succOpt at last
  split at last
  · cases last
  · have := date.upper
    omega

@[simp]
theorem mem_minutesOf : civil ∈ minutesOf date ↔ civil.date = date := by
  constructor
  · intro isMinute
    simp only [minutesOf, List.mem_flatMap, List.mem_map] at isMinute
    rcases isMinute with ⟨hour, _, minute, _, rfl⟩
    rfl
  · rintro rfl
    simp only [minutesOf, List.mem_flatMap, List.mem_map]
    exact ⟨civil.hour, List.mem_finRange _, civil.minute, List.mem_finRange _, rfl⟩

theorem mem_minutesFrom : civil ∈ minutesFrom fuel date ↔
    date.days ≤ civil.date.days ∧ civil.date.days < date.days + fuel := by
  induction fuel generalizing date with
  | zero =>
      simp only [minutesFrom, List.not_mem_nil, false_iff]
      omega
  | succ fuel ih =>
      simp only [minutesFrom, List.mem_append, mem_minutesOf, NaiveDate.eq_iff_days]
      cases advanced : date.succOpt with
      | none =>
          have := NaiveDate.succOpt_eq_none advanced
          have := civil.date.upper
          simp only [List.not_mem_nil, or_false]
          omega
      | some next =>
          have := NaiveDate.succOpt_eq_some advanced
          simp only [ih]
          omega

theorem NaiveDateTime.ordinal_lt (civil : NaiveDateTime) :
    civil.ordinal < (civil.date.days + 1) * 1440 := by
  have hours := civil.hour.isLt
  have minutes := civil.minute.isLt
  simp only [ordinal]
  omega

theorem NaiveDateTime.ordinal_injective : Function.Injective NaiveDateTime.ordinal := by
  rintro ⟨⟨days, _, _⟩, hour, minute⟩ ⟨⟨otherDays, _, _⟩, otherHour, otherMinute⟩ same
  simp only [ordinal] at same
  have sameDay : days = otherDays := by omega
  have sameHour : hour = otherHour := Fin.ext (by omega)
  have sameMinute : minute = otherMinute := Fin.ext (by omega)
  simp only [sameDay, sameHour, sameMinute]

theorem pairwise_minutesOf (date : NaiveDate) :
    (minutesOf date).Pairwise fun earlier later => earlier.ordinal < later.ordinal := by
  simp only [minutesOf, List.pairwise_flatMap, List.pairwise_map, NaiveDateTime.ordinal,
    List.mem_map]
  constructor
  · intro hour _
    apply (List.pairwise_lt_finRange 60).imp
    intro earlier later lt
    omega
  · apply (List.pairwise_lt_finRange 24).imp
    rintro earlier later lt _ ⟨minute, _, rfl⟩ _ ⟨laterMinute, _, rfl⟩
    simp only
    omega

/-- The loops visit the minutes in civil order. -/
theorem pairwise_minutesFrom (fuel : ℕ) (date : NaiveDate) :
    (minutesFrom fuel date).Pairwise fun earlier later => earlier.ordinal < later.ordinal := by
  induction fuel generalizing date with
  | zero => exact .nil
  | succ fuel ih =>
      simp only [minutesFrom, List.pairwise_append]
      refine ⟨pairwise_minutesOf date, ?_, ?_⟩
      · split
        · exact .nil
        · exact ih _
      · intro earlier ofDate later ofRest
        rw [mem_minutesOf] at ofDate
        split at ofRest
        · cases ofRest
        · rename_i next advanced
          have nextDay := NaiveDate.succOpt_eq_some advanced
          have laterDay := (mem_minutesFrom.mp ofRest).1
          have hours := earlier.hour.isLt
          have minutes := earlier.minute.isLt
          simp only [NaiveDateTime.ordinal, ofDate]
          omega

end Minutes

section Search

variable {schedule : LocalSchedule} {zone : LocalZone} {after candidate : DateTime}

theorem LocalSchedule.nextOnDate_eq_findSome (date : NaiveDate) :
    (if schedule.dateMatches date then schedule.nextOnDate zone after date else none) =
      (minutesOf date).findSome? (schedule.occurrenceAfter zone after) := by
  have everyMinute : ∀ hour minute,
      schedule.occurrenceAfter zone after { date, hour, minute } =
        if schedule.dateMatches date then
          if schedule.hours.testBit hour.val then
            if schedule.minutes.testBit minute.val then
              instantAfter zone after { date, hour, minute }
            else none
          else none
        else none := by
    intro hour minute
    simp only [occurrenceAfter, selects, Bool.and_eq_true, ite_and]
  simp only [minutesOf, Loop.findSome?_flatMap, List.findSome?_map, Function.comp_def,
    everyMinute]
  by_cases dateOk : schedule.dateMatches date
  · simp only [dateOk, ↓reduceIte, nextOnDate]
    congr 1
    funext hour
    by_cases hourOk : schedule.hours.testBit hour.val
    · simp only [hourOk, ↓reduceIte]
    · rw [if_neg hourOk]
      exact (List.findSome?_eq_none_iff.mpr fun _ _ => if_neg hourOk).symm
  · rw [if_neg dateOk]
    refine (List.findSome?_eq_none_iff.mpr fun _ _ => ?_).symm
    exact List.findSome?_eq_none_iff.mpr fun _ _ => if_neg dateOk

/-- The three loops are one search through the civil minutes. -/
theorem LocalSchedule.searchFrom_toOption (fuel : ℕ) (date : NaiveDate) :
    (schedule.searchFrom zone after fuel date).toOption =
      (minutesFrom fuel date).findSome? (schedule.occurrenceAfter zone after) := by
  induction fuel generalizing date with
  | zero => rfl
  | succ fuel ih =>
      simp only [searchFrom, minutesFrom, List.findSome?_append, nextOnDate_eq_findSome]
      cases (minutesOf date).findSome? (schedule.occurrenceAfter zone after) with
      | some candidate => rfl
      | none =>
          cases date.succOpt with
          | none => rfl
          | some next => exact ih next

end Search

/-- The two instants of a repeated minute come in the order they are named. -/
def LocalResult.Ordered : LocalResult → Prop
  | .ambiguous first second => first < second
  | _ => True

def LocalZone.Ordered (zone : LocalZone) : Prop :=
  ∀ civil, (zone.fromLocalDatetime civil).Ordered

/-- An instant at which the clock shows a selected minute. -/
def LocalSchedule.Occurs (schedule : LocalSchedule) (zone : LocalZone) (instant : DateTime) :
    Prop :=
  ∃ civil, schedule.selects civil = true ∧ instant ∈ (zone.fromLocalDatetime civil).instants

/-- The exact next occurrence after an instant. -/
structure LocalSchedule.IsNext (schedule : LocalSchedule) (zone : LocalZone)
    (after candidate : DateTime) : Prop where
  later : after < candidate
  occurs : schedule.Occurs zone candidate
  nothingBetween : ∀ instant, schedule.Occurs zone instant →
    ¬(after < instant ∧ instant < candidate)

/-- The first selected minute, in civil order from the date of `after` and within 400 years, that
has an instant to come. -/
structure LocalSchedule.IsHead (schedule : LocalSchedule) (zone : LocalZone) (after : DateTime)
    (civil : NaiveDateTime) : Prop where
  fromToday : (zone.dateNaive after).days ≤ civil.date.days
  within : civil.date.days < (zone.dateNaive after).days + MAX_SEARCH_DAYS
  selected : schedule.selects civil = true
  toCome : ∃ instant ∈ (zone.fromLocalDatetime civil).instants, after < instant
  passed : ∀ earlier : NaiveDateTime, (zone.dateNaive after).days ≤ earlier.date.days →
    earlier.ordinal < civil.ordinal → schedule.selects earlier = true →
    ∀ instant ∈ (zone.fromLocalDatetime earlier).instants, instant ≤ after

/-- No selected minute comes round before the first one in civil order does. -/
def LocalSchedule.InOrder (schedule : LocalSchedule) (zone : LocalZone) (after : DateTime) :
    Prop :=
  ∀ head, schedule.IsHead zone after head →
    ∀ civil, schedule.selects civil = true →
      ∀ instant ∈ (zone.fromLocalDatetime civil).instants, after < instant →
        ∃ own ∈ (zone.fromLocalDatetime head).instants, after < own ∧ own ≤ instant

section Exactness

variable {schedule : LocalSchedule} {zone : LocalZone} {after candidate : DateTime}
  {civil : NaiveDateTime}

theorem LocalSchedule.instantAfter_eq_none :
    instantAfter zone after civil = none ↔
      ∀ instant ∈ (zone.fromLocalDatetime civil).instants, instant ≤ after := by
  unfold instantAfter
  cases zone.fromLocalDatetime civil with
  | none => simp [LocalResult.instants]
  | single only => simp [LocalResult.instants]
  | ambiguous first second =>
      simp only [LocalResult.instants, Finset.mem_insert, Finset.mem_singleton, forall_eq_or_imp,
        forall_eq]
      split
      · rename_i toCome
        simp only [reduceCtorEq, false_iff]
        exact fun both => both.1.not_gt toCome
      · rename_i passed
        simp only [ite_eq_right_iff, reduceCtorEq, imp_false, not_lt]
        exact ⟨fun le => ⟨not_lt.mp passed, le⟩, And.right⟩

/-- The instant accepted is the first one of its minute that is still to come. -/
theorem LocalSchedule.le_of_instantAfter (ordered : zone.Ordered)
    (found : instantAfter zone after civil = some candidate) {own : DateTime}
    (isOwn : own ∈ (zone.fromLocalDatetime civil).instants) (toCome : after < own) :
    candidate ≤ own := by
  have inOrder := ordered civil
  unfold instantAfter at found
  cases named : zone.fromLocalDatetime civil with
  | none => simp [named] at found
  | single only =>
      simp only [named, Option.ite_none_right_eq_some, Option.some.injEq] at found
      simp only [named, LocalResult.instants, Finset.mem_singleton] at isOwn
      rw [isOwn, found.2]
  | ambiguous first second =>
      simp only [named, LocalResult.Ordered] at inOrder
      simp only [named, LocalResult.instants, Finset.mem_insert, Finset.mem_singleton] at isOwn
      simp only [named] at found
      split at found
      · cases found
        rcases isOwn with rfl | rfl
        · exact le_rfl
        · exact inOrder.le
      · rename_i passed
        simp only [Option.ite_none_right_eq_some, Option.some.injEq] at found
        rcases isOwn with rfl | rfl
        · exact absurd toCome passed
        · exact found.2.ge

theorem LocalSchedule.isSome_occurrenceAfter :
    (schedule.occurrenceAfter zone after civil).isSome = true ↔ schedule.selects civil = true ∧
      ∃ instant ∈ (zone.fromLocalDatetime civil).instants, after < instant := by
  unfold occurrenceAfter
  split
  · rename_i selected
    rw [← Option.ne_none_iff_isSome, ne_eq, instantAfter_eq_none]
    push Not
    simp [selected]
  · rename_i notSelected
    simp [notSelected]

theorem LocalSchedule.nextAfter_toOption :
    (schedule.nextAfter zone after).toOption =
      (minutesFrom MAX_SEARCH_DAYS (zone.dateNaive after)).findSome?
        (schedule.occurrenceAfter zone after) :=
  searchFrom_toOption _ _

/-- What the search returns belongs to the first minute with an instant to come. -/
theorem LocalSchedule.isHead_of_nextAfter
    (found : schedule.nextAfter zone after = .ok candidate) :
    ∃ head, schedule.IsHead zone after head ∧ instantAfter zone after head = some candidate := by
  have hit := (found ▸ nextAfter_toOption : (Except.ok candidate).toOption = _)
  rcases Loop.first_of_findSome? (pairwise_minutesFrom _ _) hit.symm with
    ⟨head, isSearched, isHit, first⟩
  rw [mem_minutesFrom] at isSearched
  have hasHit : (schedule.occurrenceAfter zone after head).isSome = true := by rw [isHit]; rfl
  rcases isSome_occurrenceAfter.mp hasHit with ⟨selected, toCome⟩
  refine ⟨head, ⟨isSearched.1, isSearched.2, selected, toCome, ?_⟩, ?_⟩
  · intro earlier fromToday before earlierSelected instant isInstant
    by_contra remains
    have dayBefore : earlier.date.days ≤ head.date.days := by
      have := earlier.minute.isLt
      have := earlier.hour.isLt
      simp only [NaiveDateTime.ordinal] at before
      omega
    have earlierHit := isSome_occurrenceAfter.mpr
      ⟨earlierSelected, instant, isInstant, Int.lt_of_not_ge remains⟩
    rcases first earlier (mem_minutesFrom.mpr ⟨fromToday, by omega⟩) earlierHit with rfl | lt
    · exact lt_irrefl _ before
    · omega
  · rwa [occurrenceAfter, if_pos selected] at isHit

/-- A searched minute with an instant to come is enough for the search to succeed. -/
theorem LocalSchedule.nextAfter_of_toCome
    (fromToday : (zone.dateNaive after).days ≤ civil.date.days)
    (within : civil.date.days < (zone.dateNaive after).days + MAX_SEARCH_DAYS)
    (selected : schedule.selects civil = true)
    (toCome : ∃ instant ∈ (zone.fromLocalDatetime civil).instants, after < instant) :
    ∃ candidate, schedule.nextAfter zone after = .ok candidate := by
  have hits : ((minutesFrom MAX_SEARCH_DAYS (zone.dateNaive after)).findSome?
      (schedule.occurrenceAfter zone after)).isSome = true :=
    List.findSome?_isSome_iff.mpr ⟨civil, mem_minutesFrom.mpr ⟨fromToday, within⟩,
      isSome_occurrenceAfter.mpr ⟨selected, toCome⟩⟩
  rw [← nextAfter_toOption] at hits
  cases found : schedule.nextAfter zone after with
  | error error => simp [found, Except.toOption] at hits
  | ok candidate => exact ⟨candidate, rfl⟩

theorem LocalSchedule.nextAfter_of_isHead (isHead : schedule.IsHead zone after civil) :
    ∃ candidate, schedule.nextAfter zone after = .ok candidate ∧
      instantAfter zone after civil = some candidate := by
  rcases nextAfter_of_toCome isHead.fromToday isHead.within isHead.selected isHead.toCome with
    ⟨candidate, found⟩
  refine ⟨candidate, found, ?_⟩
  rcases isHead_of_nextAfter found with ⟨head, isFirst, isHit⟩
  rcases lt_trichotomy head.ordinal civil.ordinal with before | same | behind
  · rcases isFirst.toCome with ⟨instant, isInstant, toCome⟩
    exact absurd toCome
      (isHead.passed head isFirst.fromToday before isFirst.selected instant isInstant).not_gt
  · rwa [← NaiveDateTime.ordinal_injective same]
  · rcases isHead.toCome with ⟨instant, isInstant, toCome⟩
    exact absurd toCome
      (isFirst.passed civil isHead.fromToday behind isHead.selected instant isInstant).not_gt

/-- The search is exact where the first selected minute in civil order is not overtaken. -/
theorem LocalSchedule.nextAfter_isNext_iff (schedule : LocalSchedule) (zone : LocalZone)
    (ordered : zone.Ordered) (after : DateTime) :
    (∀ candidate, schedule.nextAfter zone after = .ok candidate →
      schedule.IsNext zone after candidate) ↔ schedule.InOrder zone after := by
  constructor
  · intro exact head isHead civil selected instant isInstant toCome
    rcases nextAfter_of_isHead isHead with ⟨candidate, found, isFirst⟩
    rcases instantAfter_eq_some isFirst with ⟨later, isOwn⟩
    refine ⟨candidate, isOwn, later, ?_⟩
    by_contra overtaken
    exact (exact candidate found).nothingBetween instant ⟨civil, selected, isInstant⟩
      ⟨toCome, Int.lt_of_not_ge overtaken⟩
  · intro inOrder candidate found
    rcases isHead_of_nextAfter found with ⟨head, isHead, isFirst⟩
    rcases instantAfter_eq_some isFirst with ⟨later, isOwn⟩
    refine ⟨later, ⟨head, isHead.selected, isOwn⟩, ?_⟩
    rintro instant ⟨civil, selected, isInstant⟩ ⟨toCome, before⟩
    rcases inOrder head isHead civil selected instant isInstant toCome with
      ⟨own, isOwn, ownToCome, ownLe⟩
    exact absurd before ((le_of_instantAfter ordered isFirst isOwn ownToCome).trans ownLe).not_gt

/-- New York around 2026-11-01: at 06:00 UTC, on day 20758, its clocks go back from 2:00 to 1:00. A
repeated minute has its two instants in the order that `chrono` documents, earliest first; this is
not the answer of `chrono::Local`, which names the later one first. -/
def LocalZone.newYorkFall : LocalZone where
  dateNaive := fun time =>
    utcDate (time - (if time < (20758 * 24 + 6) * 3600000000000 then 4 else 5) * 3600000000000)
  fromLocalDatetime := fun civil =>
    let daylight := civil.ordinal * 60000000000 + 4 * 3600000000000
    let standard := civil.ordinal * 60000000000 + 5 * 3600000000000
    if civil.ordinal < (20758 * 24 + 1) * 60 then .single daylight
    else if civil.ordinal < (20758 * 24 + 2) * 60 then .ambiguous daylight standard
    else .single standard

theorem LocalZone.newYorkFall_ordered : LocalZone.newYorkFall.Ordered := by
  intro civil
  simp only [newYorkFall]
  split
  · trivial
  · split
    · change (_ : ℤ) < _
      omega
    · trivial

/-- The schedule `0,30 1 * * *`. -/
def LocalSchedule.twiceAtOne : LocalSchedule where
  minutes := 1 + 2 ^ 30
  hours := 2
  monthDays := 2 ^ 32 - 2
  months := 2 ^ 13 - 2
  weekDays := 2 ^ 7 - 1
  monthDayWildcard := true
  weekDayWildcard := true

/-- At the first 1:00 of the day the next occurrence is the first 1:30. The search returns the
second 1:00. -/
theorem LocalSchedule.nextAfter_skips_first_pass :
    LocalSchedule.parse "0,30 1 * * *" = .ok twiceAtOne ∧ LocalZone.newYorkFall.Ordered ∧
      twiceAtOne.nextAfter .newYorkFall ((20758 * 24 + 5) * 3600000000000) =
        .ok ((20758 * 24 + 6) * 3600000000000) ∧
      twiceAtOne.Occurs .newYorkFall ((20758 * 48 + 11) * 1800000000000) ∧
      ¬twiceAtOne.IsNext .newYorkFall ((20758 * 24 + 5) * 3600000000000)
        ((20758 * 24 + 6) * 3600000000000) := by
  have firstHalfPast : twiceAtOne.Occurs .newYorkFall ((20758 * 48 + 11) * 1800000000000) :=
    ⟨{ date := ⟨20758, by decide, by decide⟩, hour := 1, minute := 30 }, by decide, by decide⟩
  refine ⟨by decide +kernel, LocalZone.newYorkFall_ordered, by decide +kernel, firstHalfPast, ?_⟩
  intro isNext
  exact isNext.nothingBetween _ firstHalfPast (by decide)

/-- A zone in which the first pass of every minute comes in civil order. -/
structure LocalZone.KeepsOrder (zone : LocalZone) : Prop where
  ordered : zone.Ordered
  firstPass : ∀ earlier later : NaiveDateTime, earlier.ordinal < later.ordinal →
    (zone.fromLocalDatetime earlier).instants.Nonempty →
    ∀ instant ∈ (zone.fromLocalDatetime later).instants,
      ∃ first ∈ (zone.fromLocalDatetime earlier).instants, first < instant
  datePassed : ∀ time, ∀ civil : NaiveDateTime, civil.date.days < (zone.dateNaive time).days →
    (zone.fromLocalDatetime civil).instants.Nonempty →
    ∃ first ∈ (zone.fromLocalDatetime civil).instants, first ≤ time

/-- In such a zone only a repeated minute between its two instants can be overtaken. -/
theorem LocalSchedule.inOrder_of_not_repeated (keeps : zone.KeepsOrder)
    (notRepeated : ∀ civil, schedule.selects civil = true → ∀ first second,
      zone.fromLocalDatetime civil = .ambiguous first second → ¬(first ≤ after ∧ after < second)) :
    schedule.InOrder zone after := by
  have wholly : ∀ civil, schedule.selects civil = true →
      ∀ passed ∈ (zone.fromLocalDatetime civil).instants,
      ∀ instant ∈ (zone.fromLocalDatetime civil).instants, passed ≤ after → instant ≤ after := by
    intro civil selected passed isPassed instant isInstant le
    have inOrder := keeps.ordered civil
    have apart := notRepeated civil selected
    cases named : zone.fromLocalDatetime civil with
    | none => simp [named, LocalResult.instants] at isInstant
    | single only =>
        simp only [named, LocalResult.instants, Finset.mem_singleton] at isPassed isInstant
        rwa [isInstant, ← isPassed]
    | ambiguous first second =>
        simp only [named, LocalResult.instants, Finset.mem_insert, Finset.mem_singleton,
          LocalResult.Ordered] at isPassed isInstant inOrder
        have firstPassed : first ≤ after := by
          rcases isPassed with rfl | rfl
          · exact le
          · exact inOrder.le.trans le
        have secondPassed : second ≤ after :=
          not_lt.mp fun toCome => apart first second named ⟨firstPassed, toCome⟩
        rcases isInstant with rfl | rfl
        · exact firstPassed
        · exact secondPassed
  intro head isHead civil selected instant isInstant toCome
  rcases lt_trichotomy civil.ordinal head.ordinal with before | same | behind
  · rcases lt_or_ge civil.date.days (zone.dateNaive after).days with yesterday | fromToday
    · rcases keeps.datePassed after civil yesterday ⟨instant, isInstant⟩ with
        ⟨first, isFirst, passed⟩
      exact absurd toCome (wholly civil selected first isFirst instant isInstant passed).not_gt
    · exact absurd toCome
        (isHead.passed civil fromToday before selected instant isInstant).not_gt
  · rw [NaiveDateTime.ordinal_injective same] at isInstant
    exact ⟨instant, isInstant, toCome, le_rfl⟩
  · rcases isHead.toCome with ⟨remaining, isRemaining, remains⟩
    rcases keeps.firstPass head civil behind ⟨remaining, isRemaining⟩ instant isInstant with
      ⟨own, isOwn, before⟩
    refine ⟨own, isOwn, not_le.mp fun passed => ?_, before.le⟩
    exact absurd remains
      (wholly head isHead.selected own isOwn remaining isRemaining passed).not_gt

/-- A civil date that is over in the Universal Time ended by this instant. -/
theorem endOfDay_le_of_utcDate {time : ℤ} (date : NaiveDate)
    (isOver : date.days < (utcDate time).days) : (date.days + 1) * 86400000000000 ≤ time := by
  have fromLower := date.lower
  simp only [utcDate] at isOver
  have dayBefore : date.days + 1 ≤ time / 86400000000000 := by omega
  omega

/-- The first instant that a civil minute names there. -/
def newYorkFallFirst (civil : NaiveDateTime) : ℤ :=
  civil.ordinal * 60000000000 +
    (if civil.ordinal < (20758 * 24 + 2) * 60 then 4 else 5) * 3600000000000

theorem newYorkFallFirst_mem (civil : NaiveDateTime) :
    newYorkFallFirst civil ∈ (LocalZone.newYorkFall.fromLocalDatetime civil).instants := by
  simp only [LocalZone.newYorkFall, newYorkFallFirst]
  split
  · rw [if_pos (by omega)]
    exact Finset.mem_singleton_self _
  · split
    · exact Finset.mem_insert_self _ _
    · exact Finset.mem_singleton_self _

theorem newYorkFallFirst_le {civil : NaiveDateTime} {instant : ℤ}
    (isInstant : instant ∈ (LocalZone.newYorkFall.fromLocalDatetime civil).instants) :
    newYorkFallFirst civil ≤ instant := by
  simp only [LocalZone.newYorkFall] at isInstant
  rw [newYorkFallFirst]
  split at isInstant
  · rw [if_pos (by omega), Finset.mem_singleton.mp isInstant]
  · split at isInstant
    · rw [if_pos (by assumption)]
      rcases Finset.mem_insert.mp isInstant with rfl | isSecond
      · exact le_rfl
      · rw [Finset.mem_singleton.mp isSecond]
        omega
    · rw [if_neg (by assumption), Finset.mem_singleton.mp isInstant]

theorem newYorkFallFirst_lt {earlier later : NaiveDateTime}
    (before : earlier.ordinal < later.ordinal) :
    newYorkFallFirst earlier < newYorkFallFirst later := by
  simp only [newYorkFallFirst]
  split
  · split
    · omega
    · omega
  · rw [if_neg (by omega)]
    omega

theorem newYorkFallFirst_le_of_dateNaive {time : ℤ} {civil : NaiveDateTime}
    (isOver : civil.date.days < (LocalZone.newYorkFall.dateNaive time).days) :
    newYorkFallFirst civil ≤ time := by
  have withinDay := civil.ordinal_lt
  have ended := endOfDay_le_of_utcDate civil.date isOver
  rw [newYorkFallFirst]
  by_cases fallBack : time < (20758 * 24 + 6) * 3600000000000
  · -- Before the clocks go back only a day before the change can be over.
    rw [if_pos fallBack] at ended
    rw [if_pos (by omega)]
    omega
  · rw [if_neg fallBack] at ended
    split
    · omega
    · omega

theorem LocalZone.newYorkFall_keepsOrder : LocalZone.newYorkFall.KeepsOrder where
  ordered := newYorkFall_ordered
  firstPass := by
    intro earlier later before _ instant isInstant
    exact ⟨_, newYorkFallFirst_mem earlier,
      (newYorkFallFirst_lt before).trans_le (newYorkFallFirst_le isInstant)⟩
  datePassed := by
    intro time civil isOver _
    exact ⟨_, newYorkFallFirst_mem civil, newYorkFallFirst_le_of_dateNaive isOver⟩

/-- Before both passes of a repeated minute the next occurrence is its first instant. -/
theorem LocalSchedule.nextAfter_isNext_midnight :
    LocalZone.newYorkFall.Ordered ∧
      twiceAtOne.nextAfter .newYorkFall ((20758 * 24 + 4) * 3600000000000) =
        .ok ((20758 * 24 + 5) * 3600000000000) ∧
      twiceAtOne.IsNext .newYorkFall ((20758 * 24 + 4) * 3600000000000)
        ((20758 * 24 + 5) * 3600000000000) := by
  have found : twiceAtOne.nextAfter .newYorkFall ((20758 * 24 + 4) * 3600000000000) =
      .ok ((20758 * 24 + 5) * 3600000000000) := by
    decide +kernel
  have inOrder : twiceAtOne.InOrder .newYorkFall ((20758 * 24 + 4) * 3600000000000) := by
    apply inOrder_of_not_repeated LocalZone.newYorkFall_keepsOrder
    rintro civil - first second named ⟨passed, -⟩
    simp only [LocalZone.newYorkFall] at named
    split at named
    · cases named
    · split at named
      · rename_i afterOne _
        cases named
        have isPassed : (civil.ordinal * 60000000000 + 4 * 3600000000000 : ℤ) ≤
            (20758 * 24 + 4) * 3600000000000 := passed
        omega
      · cases named
  exact ⟨LocalZone.newYorkFall_ordered, found,
    (nextAfter_isNext_iff twiceAtOne .newYorkFall LocalZone.newYorkFall_ordered _).mpr inOrder _
      found⟩

end Exactness

end Gregg
