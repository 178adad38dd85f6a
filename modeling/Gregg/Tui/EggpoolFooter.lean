import Gregg.Clientd.Engine
import Gregg.Tui.CronPane

/-!
# The footer of the EggPool pane

One line below the summary: what the worker does, the age of the summary where a refresh failed, or
the counts of the providers. Instants are in nanoseconds. The age is a duration of the cron pane,
which rounds down to the smaller of the units it shows.
-/

namespace Gregg.Tui.EggpoolPane

open CronPane (Display durationLabel twoDigits truncateWidth)
open Eggpool (EggpoolFetchOutcome)

inductive EggpoolProviderHealth where
  | ready
  | degraded
  | unavailable
  | disabled
  | unknown
  deriving DecidableEq

/-- A health read, as far as the footer shows it: the status of every provider. -/
structure EggpoolHealthSnapshot where
  providers : List EggpoolProviderHealth

/-- How many providers report each health. -/
def EggpoolHealthSnapshot.providerCounts (snapshot : EggpoolHealthSnapshot) : List ℕ :=
  [.ready, .degraded, .unavailable, .disabled, .unknown].map fun status =>
    snapshot.providers.count status

section Footer

variable {Entry Summary : Type}

def outcomeText : EggpoolFetchOutcome Summary → String
  | .missingApiKeyEnv name => s!"API key environment variable {name} is not set"
  | .unauthorized => "authentication required or key rejected"
  | .forbidden => "access forbidden"
  | .statsUnavailable => "stats unavailable — enable EggPool dashboard/statistics routes"
  | .timeout => "request timed out"
  | .connectionRefused => "connection refused"
  | .dnsFailure => "DNS lookup failed"
  | .networkError => "network error"
  | .httpStatus code => s!"HTTP {code}"
  | .bodyTooLarge => "response too large"
  | .decodeError => "invalid JSON response"
  | .invalidSummary => "invalid summary response"
  | .cancelled => "refresh cancelled"
  | .invalidEndpoint => "invalid endpoint"
  | .online _ => ""

def providerCountsText (eggpool : Clientd.EggpoolState Entry Summary EggpoolHealthSnapshot) :
    String :=
  match eggpool.health with
  | none => ""
  | some snapshot =>
      let counts := snapshot.providerCounts
      if counts.all (· == 0) then "Providers: none reported"
      else
        let words := ["ready", "degraded", "unavailable", "disabled", "unknown"]
        let parts := ((counts.zip words).filter fun (count, _) => 0 < count).map
          fun (count, word) => s!"{count} {word}"
        "Providers: " ++ String.intercalate " · " parts

/-- The milliseconds of `saturating_duration_since` from `earlier` to `later`. -/
def millisSince (later earlier : ℕ) : ℕ :=
  toU64 ((later - earlier) / 1000000)

/-- The time between a success and the instant of the rendering. -/
def clockLabel (success now : ℕ) : String :=
  -- The source calls `saturating_duration_since` on the success.
  durationLabel (millisSince success now)

def clockText (success now : ℕ) : String :=
  s!"for {clockLabel success now}"

/-- The footer before it is truncated, rendered at the instant `now`. -/
def footerText (eggpool : Clientd.EggpoolState Entry Summary EggpoolHealthSnapshot) (now : ℕ) :
    String :=
  match eggpool.workerState with
  | .workerUnavailable => "worker unavailable"
  | .refreshing => "refreshing"
  | .idle =>
      match eggpool.lastError with
      | some error =>
          let updated := eggpool.lastSuccessAt.elim "never updated" fun success =>
            s!"Updated {clockText success now}"
          s!"{updated} — refresh failed: {outcomeText error}"
      | none => providerCountsText eggpool

/-- The footer after a failed refresh, with the age that it shows. -/
def failedText (age : String) (error : EggpoolFetchOutcome Summary) : String :=
  s!"Updated for {age} — refresh failed: {outcomeText error}"

def footerLine (display : Display)
    (eggpool : Clientd.EggpoolState Entry Summary EggpoolHealthSnapshot) (width now : ℕ) :
    Option (List Char) :=
  let text := footerText eggpool now
  if text.isEmpty then none else some (truncateWidth display text.toList width)

end Footer

section Ladder

/-- A duration rounded down to the smaller unit of its label, and that unit. -/
def durationFloor (millis : ℕ) : ℕ × ℕ :=
  if millis < 1000 then (millis, 1)
  else if millis < 60000 then (millis / 100 * 100, 100)
  else if millis < 3600000 then (millis / 1000 * 1000, 1000)
  else if millis < 86400000 then (millis / 60000 * 60000, 60000)
  else (millis / 3600000 * 3600000, 3600000)

def number (digits : List Char) : ℕ :=
  Nat.ofDigitChars 10 digits 0

/-- What a number and the rest of a label say. -/
def readUnits (first : ℕ) : List Char → Option (ℕ × ℕ)
  | ['m', 's'] => some (first, 1)
  | ['.', tenth, 's'] => some (first * 1000 + number [tenth] * 100, 100)
  | ['m', tens, ones, 's'] => some (first * 60000 + number [tens, ones] * 1000, 1000)
  | ['h', tens, ones, 'm'] => some (first * 3600000 + number [tens, ones] * 60000, 60000)
  | ['d', tens, ones, 'h'] => some (first * 86400000 + number [tens, ones] * 3600000, 3600000)
  | _ => none

/-- The milliseconds that a label says, and those of its smaller unit. -/
def readDuration (label : List Char) : Option (ℕ × ℕ) :=
  readUnits (number (label.takeWhile Char.isDigit)) (label.dropWhile Char.isDigit)

theorem durationFloor_le (millis : ℕ) : (durationFloor millis).1 ≤ millis ∧
    millis < (durationFloor millis).1 + (durationFloor millis).2 := by
  simp only [durationFloor]
  split_ifs <;> simp only <;> omega

/-- A longer duration is not shown as a shorter one. -/
theorem durationFloor_mono {shorter longer : ℕ} (le : shorter ≤ longer) :
    (durationFloor shorter).1 ≤ (durationFloor longer).1 := by
  simp only [durationFloor]
  split_ifs <;> simp only <;> omega

/-- A number below a hundred has two digits. -/
theorem toList_twoDigits {value : ℕ} (small : value < 100) :
    (twoDigits value).toList = [(value / 10).digitChar, (value % 10).digitChar] := by
  rw [twoDigits]
  split
  · rename_i single
    have isZero : value / 10 = 0 := by omega
    have isRest : value % 10 = value := by omega
    rw [isZero, isRest]
    refine String.toList_append.trans (congrArg ('0' :: ·) ?_)
    exact Nat.toList_repr.trans (Nat.toDigits_of_lt_base single)
  · rename_i notSingle
    have short : value / 10 < 10 := by omega
    refine Nat.toList_repr.trans ?_
    rw [Nat.toDigits_of_base_le (by decide) (by omega), Nat.toDigits_of_lt_base short]
    rfl

theorem number_pair {value : ℕ} (small : value < 100) :
    number [(value / 10).digitChar, (value % 10).digitChar] = value := by
  rw [number, Nat.ofDigitChars_cons_digitChar_of_lt_ten (by omega),
    Nat.ofDigitChars_cons_digitChar_of_lt_ten (by omega), Nat.ofDigitChars_nil]
  omega

/-- The number at the front of a label is read up to its unit. -/
theorem readDuration_append (value : ℕ) {unit : Char} (notDigit : unit.isDigit = false)
    (rest : List Char) :
    readDuration (Nat.toDigits 10 value ++ unit :: rest) = readUnits value (unit :: rest) := by
  have digits : ∀ character ∈ Nat.toDigits 10 value, character.isDigit = true :=
    fun character isDigit => Nat.isDigit_of_mem_toDigits (by decide) (by decide) isDigit
  rw [readDuration, List.takeWhile_append_of_pos digits, List.dropWhile_append_of_pos digits,
    List.takeWhile_cons_of_neg (by simp [notDigit]),
    List.dropWhile_cons_of_neg (by simp [notDigit]), List.append_nil, number,
    Nat.ofDigitChars_ten_toDigits]

/-- A number, a unit, two digits and a smaller unit. -/
theorem toList_pair (first second : ℕ) (small : second < 100) (unit lesser : String) :
    (s!"{first}{unit}{twoDigits second}{lesser}").toList = Nat.toDigits 10 first ++
      (unit.toList ++ [(second / 10).digitChar, (second % 10).digitChar] ++ lesser.toList) := by
  rw [← toList_twoDigits small, ← Nat.toList_repr, ← String.toList_append, ← String.toList_append,
    ← String.toList_append, ← String.append_assoc, ← String.append_assoc]
  rfl

theorem readDuration_millis (millis : ℕ) :
    readDuration (s!"{millis}ms").toList = some (millis, 1) := by
  have isLabel : (s!"{millis}ms").toList = Nat.toDigits 10 millis ++ 'm' :: ['s'] := by
    rw [← Nat.toList_repr]
    exact String.toList_append
  rw [isLabel, readDuration_append _ (by decide), readUnits]

theorem readDuration_tenths (tenths : ℕ) :
    readDuration (s!"{tenths / 10}.{tenths % 10}s").toList = some (tenths * 100, 100) := by
  have short : tenths % 10 < 10 := Nat.mod_lt _ (by decide)
  have isLabel : (s!"{tenths / 10}.{tenths % 10}s").toList =
      Nat.toDigits 10 (tenths / 10) ++ '.' :: ([(tenths % 10).digitChar] ++ ['s']) := by
    rw [← Nat.toDigits_of_lt_base short, ← Nat.toList_repr, ← Nat.toList_repr]
    simp only [String.toList_append, List.append_assoc]
    rfl
  rw [isLabel, readDuration_append _ (by decide)]
  simp only [List.singleton_append, readUnits, number,
    Nat.ofDigitChars_cons_digitChar_of_lt_ten short, Nat.ofDigitChars_nil]
  congr 2
  omega

/-- The label of a duration is read as the duration, rounded down to its smaller unit. -/
theorem readDuration_durationLabel (millis : ℕ) :
    readDuration (durationLabel millis).toList = some (durationFloor millis) := by
  rw [durationLabel, durationFloor]
  split
  · exact readDuration_millis millis
  split
  · refine (readDuration_tenths (millis * 10 / 1000)).trans ?_
    congr 2
    omega
  split
  · have below : millis % 60000 / 1000 < 100 := by omega
    have isFloor : millis / 60000 * 60000 + millis % 60000 / 1000 * 1000 =
        millis / 1000 * 1000 := by omega
    have isLabel : (s!"{millis / 60000}m{twoDigits (millis % 60000 / 1000)}s").toList =
        Nat.toDigits 10 (millis / 60000) ++ 'm' :: [(millis % 60000 / 1000 / 10).digitChar,
          (millis % 60000 / 1000 % 10).digitChar, 's'] :=
      toList_pair _ _ below "m" "s"
    rw [isLabel, readDuration_append _ (by decide), readUnits, number_pair below, isFloor]
  split
  · have below : millis % 3600000 / 60000 < 100 := by omega
    have isFloor : millis / 3600000 * 3600000 + millis % 3600000 / 60000 * 60000 =
        millis / 60000 * 60000 := by omega
    have isLabel : (s!"{millis / 3600000}h{twoDigits (millis % 3600000 / 60000)}m").toList =
        Nat.toDigits 10 (millis / 3600000) ++ 'h' :: [(millis % 3600000 / 60000 / 10).digitChar,
          (millis % 3600000 / 60000 % 10).digitChar, 'm'] :=
      toList_pair _ _ below "h" "m"
    rw [isLabel, readDuration_append _ (by decide), readUnits, number_pair below, isFloor]
  · have below : millis % 86400000 / 3600000 < 100 := by omega
    have isFloor : millis / 86400000 * 86400000 + millis % 86400000 / 3600000 * 3600000 =
        millis / 3600000 * 3600000 := by omega
    have isLabel : (s!"{millis / 86400000}d{twoDigits (millis % 86400000 / 3600000)}h").toList =
        Nat.toDigits 10 (millis / 86400000) ++ 'd' :: [(millis % 86400000 / 3600000 / 10).digitChar,
          (millis % 86400000 / 3600000 % 10).digitChar, 'h'] :=
      toList_pair _ _ below "d" "h"
    rw [isLabel, readDuration_append _ (by decide), readUnits, number_pair below, isFloor]

end Ladder

/-- The ages that a footer shows are the times since the success, up to the instant `now`. -/
structure TrueAge (shown : ℕ → String) (success now : ℕ) : Prop where
  label : shown now = durationLabel ((now - success) / 1000000)
  reads : ∃ value unit, readDuration (shown now).toList = some (value, unit) ∧
    value * 1000000 ≤ now - success ∧ now - success < (value + unit) * 1000000
  grows : ∀ earlier, success ≤ earlier → earlier ≤ now → ∀ before after,
    readDuration (shown earlier).toList = some before →
      readDuration (shown now).toList = some after → before.1 ≤ after.1

/-- The labels of the times since the success would be right at every instant. -/
theorem trueAge_durationLabel {success now : ℕ} :
    TrueAge (fun instant => durationLabel ((instant - success) / 1000000)) success now := by
  have bounds := durationFloor_le ((now - success) / 1000000)
  refine ⟨rfl, ⟨(durationFloor ((now - success) / 1000000)).1,
    (durationFloor ((now - success) / 1000000)).2, readDuration_durationLabel _, ?_, ?_⟩, ?_⟩
  · exact Nat.mul_le_of_le_div _ _ _ bounds.1
  · exact (Nat.div_lt_iff_lt_mul (by decide)).mp bounds.2
  intro earlier after le first second isFirst isSecond
  rw [readDuration_durationLabel, Option.some_inj] at isFirst isSecond
  rw [← isFirst, ← isSecond]
  exact durationFloor_mono (by omega)

/-- Only the labels since the success count. -/
theorem TrueAge.congr {shown other : ℕ → String} {success now : ℕ}
    (age : TrueAge shown success now) (later : success ≤ now)
    (same : ∀ instant, success ≤ instant → instant ≤ now → shown instant = other instant) :
    TrueAge other success now := by
  have atEnd := same now later (Nat.le_refl now)
  refine ⟨atEnd ▸ age.label, atEnd ▸ age.reads, ?_⟩
  intro earlier after le before
  rw [← same earlier after le, ← atEnd]
  exact age.grows earlier after le before

section Age

variable {Entry Summary : Type} {display : Display} {success now : ℕ}
  {eggpool : Clientd.EggpoolState Entry Summary EggpoolHealthSnapshot}
  {error : EggpoolFetchOutcome Summary}

/-- At every instant after the success, the time back to it saturates. -/
theorem clockLabel_of_le (later : success ≤ now) : clockLabel success now = "0ms" := by
  rw [clockLabel, millisSince, Nat.sub_eq_zero_of_le later]
  rfl

theorem readDuration_zero : readDuration "0ms".toList = some (0, 1) := by
  decide

theorem trueAge_iff (later : success ≤ now) :
    TrueAge (clockLabel success) success now ↔ now - success < 1000000 := by
  constructor
  · intro age
    rcases age.reads with ⟨value, unit, isRead, -, upper⟩
    rw [clockLabel_of_le later, readDuration_zero] at isRead
    cases isRead
    exact upper
  · intro young
    apply trueAge_durationLabel.congr later
    intro instant after le
    have noMillis : (instant - success) / 1000000 = 0 := Nat.div_eq_of_lt (by omega)
    rw [clockLabel_of_le after, noMillis]
    rfl

/-- The age in the footer is true in the first millisecond after the success only. -/
theorem footerLine_trueAge_iff (idle : eggpool.workerState = .idle)
    (failed : eggpool.lastError = some error) (succeeded : eggpool.lastSuccessAt = some success)
    (later : success ≤ now) : ∃ shown : ℕ → String,
      (∀ instant, footerText eggpool instant =
        failedText (shown instant) error) ∧
      (∀ width, footerLine display eggpool width now =
        some (truncateWidth display (footerText eggpool now).toList width)) ∧
      (TrueAge shown success now ↔ now - success < 1000000) := by
  have isText : ∀ instant, footerText eggpool instant =
      failedText (clockLabel success instant) error := by
    intro instant
    have isUpdated : s!"Updated {clockText success instant}" =
        s!"Updated for {clockLabel success instant}" :=
      (@String.append_assoc "Updated " "for " (clockLabel success instant)).symm
    simp only [footerText, idle, failed, succeeded, Option.elim_some]
    exact congrArg (fun updated => s!"{updated} — refresh failed: {outcomeText error}") isUpdated
  refine ⟨clockLabel success, isText, ?_, trueAge_iff later⟩
  intro width
  have nonempty : (footerText eggpool now).isEmpty = false := by
    have isHead : toString "Updated for " ≠ "" := by decide
    rw [isText, failedText]
    simp [isHead]
  simp only [footerLine, nonempty, Bool.false_eq_true, if_false]

end Age

/-- A pool that was read once, at the instant 0, and not since. -/
def failedPool : Clientd.EggpoolState Unit Unit EggpoolHealthSnapshot :=
  { Clientd.EggpoolState.new () with lastSuccessAt := some 0, lastError := some .timeout }

/-- Three minutes after the success, the footer says that it was just now. -/
theorem not_trueAge_failedPool :
    footerText failedPool 180000000000 = "Updated for 0ms — refresh failed: request timed out" ∧
      ¬∃ shown : ℕ → String, (∀ instant, footerText failedPool instant =
          failedText (shown instant) (.timeout : EggpoolFetchOutcome Unit)) ∧
        TrueAge shown 0 180000000000 := by
  refine ⟨by decide, ?_⟩
  rintro ⟨shown, isText, age⟩
  have isFooter := isText 180000000000
  rw [age.label] at isFooter
  exact absurd isFooter (by decide +kernel)

/-- In the first millisecond after the success, the footer is right. -/
theorem footerLine_failedPool : ∃ shown : ℕ → String,
    (∀ instant, footerText failedPool instant =
      failedText (shown instant) (.timeout : EggpoolFetchOutcome Unit)) ∧
    (∀ width, footerLine CronPane.narrow failedPool width 999999 =
      some (truncateWidth CronPane.narrow (footerText failedPool 999999).toList width)) ∧
    (TrueAge shown 0 999999 ↔ 999999 - 0 < 1000000) :=
  footerLine_trueAge_iff rfl rfl rfl (by decide)

end Gregg.Tui.EggpoolPane
