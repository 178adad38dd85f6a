import Gregg.Lib.Json
import Gregg.Protocol.Scheduler

/-!
# The bodies of the scheduler routes

The JSON text of the two scheduler documents, and how many bytes each part of them takes. How a
float is printed is a parameter: of the finitely many floats one has the longest text.
-/

namespace Gregg

open Json (byteLen fieldSize optionalField)

/-- Maximum response body of the history a client accepts. -/
def MAX_SCHEDULER_HISTORY_BODY_BYTES : ℕ := 1024 * 1024

/-- Maximum response body of the summary a client accepts. -/
def MAX_SCHEDULER_SUMMARY_BODY_BYTES : ℕ := 64 * 1024

/-- The decimal text of an `f32`, of which none is longer than the one of `widest`. -/
structure FloatText where
  text : F32 → List Char
  widest : F32
  isFinite : widest.isFinite = true
  longest : ∀ value, value.isFinite = true → byteLen (text value) ≤ byteLen (text widest)
  notShort : 4 ≤ byteLen (text widest)

namespace FloatText

variable (floats : FloatText) {value : F32}

/-- A value that is not finite has no number and is written as `null`. -/
def json (value : F32) : Json :=
  if value.isFinite then .number (floats.text value) else .null

def width : ℕ :=
  byteLen (floats.text floats.widest)

theorem size_json_le : (floats.json value).size ≤ floats.width := by
  rw [json]
  split
  · rename_i finite
    rw [Json.size_number]
    exact floats.longest value finite
  · exact floats.notShort

end FloatText

def SchedulerEpochV2.toJson (epoch : SchedulerEpochV2) : Json :=
  .object [("started_at_unix_ms", .nat epoch.startedAtUnixMs), ("nonce", .nat epoch.nonce)]

def SchedulerJobStateV2.name : SchedulerJobStateV2 → List Char
  | .idle => "idle".toList
  | .waitingForSlot => "waiting_for_slot".toList
  | .loadHigh => "load_high".toList
  | .loadUnavailable => "load_unavailable".toList
  | .running => "running".toList

def SchedulerOutcomeV2.name : SchedulerOutcomeV2 → List Char
  | .success => "success".toList
  | .failed => "failed".toList
  | .spawnFailed => "spawn_failed".toList
  | .waitFailed => "wait_failed".toList
  | .loadExpired => "load_expired".toList
  | .cancelled => "cancelled".toList

def SchedulerLoadGateV2.toJson (floats : FloatText) (gate : SchedulerLoadGateV2) : Json :=
  .object (("window", .string gate.window.toList) :: ("threshold", floats.json gate.threshold) ::
    optionalField "observed" (gate.observed.map floats.json))

def SchedulerRunSummaryV2.toJson (last : SchedulerRunSummaryV2) : Json :=
  .object (("sequence", .nat last.sequence) ::
    ("scheduled_unix_ms", .nat last.scheduledUnixMs) ::
    ("finished_unix_ms", .nat last.finishedUnixMs) ::
    ("outcome", .string last.outcome.name) ::
    (optionalField "exit_code" (last.exitCode.map .int) ++
      optionalField "signal" (last.signal.map .nat) ++
      optionalField "duration_ms" (last.durationMs.map .nat) ++
      [("delay_ms", .nat last.delayMs), ("coalesced", .bool last.coalesced)]))

def SchedulerJobV2.toJson (floats : FloatText) (job : SchedulerJobV2) : Json :=
  .object (("name", .string job.name.toList) :: ("schedule", .string job.schedule.toList) ::
    ("next_due_unix_ms", .nat job.nextDueUnixMs) :: ("state", .string job.state.name) ::
    (optionalField "load" (job.load.map (·.toJson floats)) ++
      optionalField "pending_since_unix_ms" (job.pendingSinceUnixMs.map .nat) ++
      optionalField "next_retry_unix_ms" (job.nextRetryUnixMs.map .nat) ++
      optionalField "running_since_unix_ms" (job.runningSinceUnixMs.map .nat) ++
      optionalField "last" (job.last.map (·.toJson))))

def SchedulerSummaryV2.toJson (floats : FloatText) (summary : SchedulerSummaryV2) : Json :=
  .object [("schema_version", .nat summary.schemaVersion),
    ("generated_at_unix_ms", .nat summary.generatedAtUnixMs), ("epoch", summary.epoch.toJson),
    ("history_revision", .nat summary.historyRevision),
    ("jobs", .array (summary.jobs.map (·.toJson floats)))]

def SchedulerOutputV2.toJson (output : SchedulerOutputV2) : Json :=
  .object [("text", .string output.text), ("truncated", .bool output.truncated)]

def SchedulerRunRecordV2.toJson (record : SchedulerRunRecordV2) : Json :=
  .object (("sequence", .nat record.sequence) ::
    ("scheduled_unix_ms", .nat record.scheduledUnixMs) ::
    (optionalField "started_unix_ms" (record.startedUnixMs.map .nat) ++
      ("finished_unix_ms", .nat record.finishedUnixMs) ::
      ("outcome", .string record.outcome.name) ::
      (optionalField "exit_code" (record.exitCode.map .int) ++
        optionalField "signal" (record.signal.map .nat) ++
        optionalField "duration_ms" (record.durationMs.map .nat) ++
        [("delay_ms", .nat record.delayMs), ("coalesced", .bool record.coalesced),
          ("stdout", record.stdout.toJson), ("stderr", record.stderr.toJson)])))

def SchedulerJobHistoryV2.toJson (history : SchedulerJobHistoryV2) : Json :=
  .object [("name", .string history.name.toList),
    ("records", .array (history.records.map (·.toJson)))]

def SchedulerHistoryV2.toJson (history : SchedulerHistoryV2) : Json :=
  .object [("schema_version", .nat history.schemaVersion),
    ("generated_at_unix_ms", .nat history.generatedAtUnixMs), ("epoch", history.epoch.toJson),
    ("history_revision", .nat history.historyRevision),
    ("jobs", .array (history.jobs.map (·.toJson)))]

/-- The bytes `json_escaped_len` counts are the bytes the serializer writes. -/
theorem byteLen_escape (character : Char) :
    byteLen (Json.escape character) = jsonEscapedLen character := by
  have hexDigit : ∀ value < 16, (Json.hexDigit value).utf8Size = 1 := by decide
  simp only [Json.escape, jsonEscapedLen, List.mem_cons, List.not_mem_nil, or_false]
  by_cases short : character.toNat = 0x22 ∨ character.toNat = 0x5c ∨ character.toNat = 0x8 ∨
      character.toNat = 0xc ∨ character.toNat = 0xa ∨ character.toNat = 0xd ∨
      character.toNat = 0x9
  · rw [if_pos short]
    rcases short with same | same | same | same | same | same | same <;> rw [same] <;> rfl
  · rw [if_neg short]
    simp only [not_or] at short
    rcases short with ⟨quote, backslash, backspace, formFeed, newline, carriageReturn, tab⟩
    rw [if_neg quote, if_neg backslash, if_neg backspace, if_neg formFeed, if_neg newline,
      if_neg carriageReturn, if_neg tab]
    split
    · have high := hexDigit (character.toNat / 16) (by omega)
      have low := hexDigit (character.toNat % 16) (by omega)
      have start : byteLen ['\\', 'u', '0', '0'] = 4 := by decide
      simp only [Json.byteLen_cons, Json.byteLen_nil, high, low] at start ⊢
      omega
    · rfl

theorem size_string (text : List Char) : (Json.string text).size = 2 + textEscapedLen text := by
  rw [Json.size_string, textEscapedLen]
  congr 2
  exact List.map_congr_left fun character _ => byteLen_escape character

section Sizes

open Json (keySize optionalSize sum_optionalField)

theorem keySizes : keySize "sequence" = 10 ∧ keySize "scheduled_unix_ms" = 19 ∧
    keySize "started_unix_ms" = 17 ∧ keySize "finished_unix_ms" = 18 ∧ keySize "outcome" = 9 ∧
    keySize "exit_code" = 11 ∧ keySize "signal" = 8 ∧ keySize "duration_ms" = 13 ∧
    keySize "delay_ms" = 10 ∧ keySize "coalesced" = 11 ∧ keySize "stdout" = 8 ∧
    keySize "stderr" = 8 ∧ keySize "text" = 6 ∧ keySize "truncated" = 11 ∧ keySize "name" = 6 ∧
    keySize "schedule" = 10 ∧ keySize "next_due_unix_ms" = 18 ∧ keySize "state" = 7 ∧
    keySize "load" = 6 ∧ keySize "pending_since_unix_ms" = 23 ∧
    keySize "next_retry_unix_ms" = 20 ∧ keySize "running_since_unix_ms" = 23 ∧
    keySize "last" = 6 ∧ keySize "window" = 8 ∧ keySize "threshold" = 11 ∧
    keySize "observed" = 10 ∧ keySize "schema_version" = 16 ∧
    keySize "generated_at_unix_ms" = 22 ∧ keySize "epoch" = 7 ∧ keySize "nonce" = 7 ∧
    keySize "started_at_unix_ms" = 20 ∧ keySize "history_revision" = 18 ∧ keySize "jobs" = 6 ∧
    keySize "records" = 9 := by
  decide

theorem SchedulerRunSummaryV2.size_toJson (last : SchedulerRunSummaryV2) :
    last.toJson.size = 90 + (Json.nat last.sequence).size + (Json.nat last.scheduledUnixMs).size +
      (Json.nat last.finishedUnixMs).size + (Json.string last.outcome.name).size +
      optionalSize "exit_code" (last.exitCode.map .int) +
      optionalSize "signal" (last.signal.map .nat) +
      optionalSize "duration_ms" (last.durationMs.map .nat) + (Json.nat last.delayMs).size +
      (Json.bool last.coalesced).size := by
  rw [toJson, Json.size_object (List.cons_ne_nil _ _)]
  simp only [List.map_cons, List.map_append, List.map_nil, List.sum_cons, List.sum_append,
    List.sum_nil, sum_optionalField, fieldSize, keySizes]
  omega

theorem SchedulerLoadGateV2.size_toJson (floats : FloatText) (gate : SchedulerLoadGateV2) :
    (gate.toJson floats).size = 24 + (Json.string gate.window.toList).size +
      (floats.json gate.threshold).size +
      optionalSize "observed" (gate.observed.map floats.json) := by
  rw [toJson, Json.size_object (List.cons_ne_nil _ _)]
  simp only [List.map_cons, List.sum_cons, sum_optionalField, fieldSize, keySizes]
  omega

theorem SchedulerJobV2.size_toJson (floats : FloatText) (job : SchedulerJobV2) :
    (job.toJson floats).size = 50 + (Json.string job.name.toList).size +
      (Json.string job.schedule.toList).size + (Json.nat job.nextDueUnixMs).size +
      (Json.string job.state.name).size + optionalSize "load" (job.load.map (·.toJson floats)) +
      optionalSize "pending_since_unix_ms" (job.pendingSinceUnixMs.map .nat) +
      optionalSize "next_retry_unix_ms" (job.nextRetryUnixMs.map .nat) +
      optionalSize "running_since_unix_ms" (job.runningSinceUnixMs.map .nat) +
      optionalSize "last" (job.last.map (·.toJson)) := by
  rw [toJson, Json.size_object (List.cons_ne_nil _ _)]
  simp only [List.map_cons, List.map_append, List.sum_cons, List.sum_append, sum_optionalField,
    fieldSize, keySizes]
  omega

theorem SchedulerEpochV2.size_toJson (epoch : SchedulerEpochV2) :
    epoch.toJson.size =
      32 + (Json.nat epoch.startedAtUnixMs).size + (Json.nat epoch.nonce).size := by
  rw [toJson, Json.size_object (List.cons_ne_nil _ _)]
  simp only [List.map_cons, List.map_nil, List.sum_cons, List.sum_nil, fieldSize, keySizes]
  omega

theorem SchedulerSummaryV2.size_toJson (floats : FloatText) (summary : SchedulerSummaryV2) :
    (summary.toJson floats).size = 80 + (Json.nat summary.schemaVersion).size +
      (Json.nat summary.generatedAtUnixMs).size + summary.epoch.toJson.size +
      (Json.nat summary.historyRevision).size +
      (Json.array (summary.jobs.map (·.toJson floats))).size := by
  rw [toJson, Json.size_object (List.cons_ne_nil _ _)]
  simp only [List.map_cons, List.map_nil, List.sum_cons, List.sum_nil, fieldSize, keySizes]
  omega

theorem SchedulerOutputV2.size_toJson (output : SchedulerOutputV2) :
    output.toJson.size =
      22 + (Json.string output.text).size + (Json.bool output.truncated).size := by
  rw [toJson, Json.size_object (List.cons_ne_nil _ _)]
  simp only [List.map_cons, List.map_nil, List.sum_cons, List.sum_nil, fieldSize, keySizes]
  omega

theorem SchedulerRunRecordV2.size_toJson (record : SchedulerRunRecordV2) :
    record.toJson.size = 110 + (Json.nat record.sequence).size +
      (Json.nat record.scheduledUnixMs).size +
      optionalSize "started_unix_ms" (record.startedUnixMs.map .nat) +
      (Json.nat record.finishedUnixMs).size + (Json.string record.outcome.name).size +
      optionalSize "exit_code" (record.exitCode.map .int) +
      optionalSize "signal" (record.signal.map .nat) +
      optionalSize "duration_ms" (record.durationMs.map .nat) + (Json.nat record.delayMs).size +
      (Json.bool record.coalesced).size + record.stdout.toJson.size +
      record.stderr.toJson.size := by
  rw [toJson, Json.size_object (List.cons_ne_nil _ _)]
  simp only [List.map_cons, List.map_append, List.map_nil, List.sum_cons, List.sum_append,
    List.sum_nil, sum_optionalField, fieldSize, keySizes]
  omega

theorem SchedulerJobHistoryV2.size_toJson (history : SchedulerJobHistoryV2) :
    history.toJson.size = 20 + (Json.string history.name.toList).size +
      (Json.array (history.records.map (·.toJson))).size := by
  rw [toJson, Json.size_object (List.cons_ne_nil _ _)]
  simp only [List.map_cons, List.map_nil, List.sum_cons, List.sum_nil, fieldSize, keySizes]
  omega

theorem SchedulerHistoryV2.size_toJson (history : SchedulerHistoryV2) :
    history.toJson.size = 80 + (Json.nat history.schemaVersion).size +
      (Json.nat history.generatedAtUnixMs).size + history.epoch.toJson.size +
      (Json.nat history.historyRevision).size +
      (Json.array (history.jobs.map (·.toJson))).size := by
  rw [toJson, Json.size_object (List.cons_ne_nil _ _)]
  simp only [List.map_cons, List.map_nil, List.sum_cons, List.sum_nil, fieldSize, keySizes]
  omega

end Sizes

section Typed

/-- A `u64` takes at most twenty digits. -/
theorem size_nat_le_of_u64 {value : ℕ} (typed : value ≤ u64Max) : (Json.nat value).size ≤ 20 := by
  apply Json.size_nat_le (by decide)
  exact Nat.lt_of_le_of_lt typed (by decide)

/-- An `i32`. -/
def IsI32 (value : ℤ) : Prop :=
  value.natAbs ≤ 2 ^ 31

theorem size_int_le_of_i32 {value : ℤ} (typed : IsI32 value) : (Json.int value).size ≤ 11 := by
  apply Json.size_int_le (by decide)
  exact Nat.lt_of_le_of_lt typed (by decide)

theorem size_nat_le_of_u32 {value : ℕ} (typed : value < 2 ^ 32) : (Json.nat value).size ≤ 10 := by
  apply Json.size_nat_le (by decide)
  exact Nat.lt_trans typed (by decide)

theorem size_outcome_le (outcome : SchedulerOutcomeV2) :
    (Json.string outcome.name).size ≤ 14 := by
  cases outcome <;> decide

theorem size_state_le (state : SchedulerJobStateV2) : (Json.string state.name).size ≤ 18 := by
  cases state <;> decide

/-- The numbers of a record are within the types of their fields, and an exit status, which is a
code or a signal, comes with one of the outcomes of a child that was waited for. -/
structure SchedulerRunSummaryV2.Typed (last : SchedulerRunSummaryV2) : Prop where
  sequence : last.sequence ≤ u64Max
  scheduled : last.scheduledUnixMs ≤ u64Max
  finished : last.finishedUnixMs ≤ u64Max
  exitCode : ∀ code ∈ last.exitCode, IsI32 code
  signal : ∀ signal ∈ last.signal, signal < 2 ^ 32
  duration : ∀ duration ∈ last.durationMs, duration ≤ u64Max
  delay : last.delayMs ≤ u64Max
  oneStatus : last.exitCode = none ∨ last.signal = none
  exited : last.exitCode.isSome ∨ last.signal.isSome →
    last.outcome = .success ∨ last.outcome = .failed

theorem forall_size_map_le {Value : Type} {value : Option Value} {toJson : Value → Json}
    {bound : ℕ} (bounded : ∀ present ∈ value, (toJson present).size ≤ bound) :
    ∀ document ∈ value.map toJson, document.size ≤ bound := by
  intro document isMapped
  rcases Option.map_eq_some_iff.mp isMapped with ⟨present, isPresent, rfl⟩
  exact bounded present isPresent

theorem optionalSize_map_le (key : String) {Value : Type} {value : Option Value}
    (toJson : Value → Json) {bound : ℕ}
    (bounded : ∀ present ∈ value, (toJson present).size ≤ bound) :
    Json.optionalSize key (value.map toJson) ≤ Json.keySize key + 2 + bound :=
  Json.optionalSize_le (forall_size_map_le bounded)

/-- An exit code takes more room than a signal, and more than the longest outcome without one. -/
theorem size_status_le {last : SchedulerRunSummaryV2} (typed : last.Typed) :
    (Json.string last.outcome.name).size + Json.optionalSize "exit_code" (last.exitCode.map .int) +
      Json.optionalSize "signal" (last.signal.map .nat) ≤ 33 := by
  have exitCode := optionalSize_map_le "exit_code" .int
    fun code isCode => size_int_le_of_i32 (typed.exitCode code isCode)
  have signal := optionalSize_map_le "signal" .nat
    fun signal isSignal => size_nat_le_of_u32 (typed.signal signal isSignal)
  have outcome := size_outcome_le last.outcome
  simp only [keySizes] at exitCode signal
  by_cases exited : last.exitCode.isSome ∨ last.signal.isSome
  · have waited : (Json.string last.outcome.name).size ≤ 9 := by
      rcases typed.exited exited with succeeded | failed
      · rw [succeeded]
        decide
      · rw [failed]
        decide
    rcases typed.oneStatus with noCode | noSignal
    · rw [noCode, Option.map_none, Json.optionalSize_none]
      omega
    · rw [noSignal, Option.map_none, Json.optionalSize_none]
      omega
  · rw [not_or, Option.not_isSome_iff_eq_none, Option.not_isSome_iff_eq_none] at exited
    rw [exited.1, exited.2, Option.map_none, Option.map_none, Json.optionalSize_none,
      Json.optionalSize_none]
    omega

theorem SchedulerRunSummaryV2.size_toJson_le {last : SchedulerRunSummaryV2} (typed : last.Typed) :
    last.toJson.size ≤ 243 := by
  have sequence := size_nat_le_of_u64 typed.sequence
  have scheduled := size_nat_le_of_u64 typed.scheduled
  have finished := size_nat_le_of_u64 typed.finished
  have status := size_status_le typed
  have duration := optionalSize_map_le "duration_ms" .nat
    fun duration isDuration => size_nat_le_of_u64 (typed.duration duration isDuration)
  have delay := size_nat_le_of_u64 typed.delay
  have coalesced := Json.size_bool_le last.coalesced
  simp only [keySizes] at duration
  rw [size_toJson]
  omega

/-- The numbers of a record and its outputs are within the types and the budget of their fields. -/
structure SchedulerRunRecordV2.Typed (record : SchedulerRunRecordV2) : Prop where
  summary : record.summary.Typed
  started : ∀ started ∈ record.startedUnixMs, started ≤ u64Max
  stdout : textEscapedLen record.stdout.text ≤ MAX_SCHEDULER_OUTPUT_TEXT_BYTES
  stderr : textEscapedLen record.stderr.text ≤ MAX_SCHEDULER_OUTPUT_TEXT_BYTES

theorem SchedulerOutputV2.size_toJson_le {output : SchedulerOutputV2}
    (within : textEscapedLen output.text ≤ MAX_SCHEDULER_OUTPUT_TEXT_BYTES) :
    output.toJson.size ≤ 541 := by
  have budget : MAX_SCHEDULER_OUTPUT_TEXT_BYTES = 512 := rfl
  have truncated := Json.size_bool_le output.truncated
  rw [size_toJson, size_string]
  omega

theorem SchedulerRunRecordV2.size_toJson_le {record : SchedulerRunRecordV2}
    (typed : record.Typed) : record.toJson.size ≤ 1384 := by
  have summary := SchedulerRunSummaryV2.size_toJson_le typed.summary
  have started := optionalSize_map_le "started_unix_ms" .nat
    fun started isStarted => size_nat_le_of_u64 (typed.started started isStarted)
  have stdout := SchedulerOutputV2.size_toJson_le typed.stdout
  have stderr := SchedulerOutputV2.size_toJson_le typed.stderr
  simp only [keySizes] at started
  -- A record is its summary with a start and two outputs.
  rw [SchedulerRunSummaryV2.size_toJson] at summary
  simp only [SchedulerRunRecordV2.summary] at summary
  rw [size_toJson]
  omega

theorem SchedulerEpochV2.size_toJson_le {epoch : SchedulerEpochV2}
    (started : epoch.startedAtUnixMs ≤ u64Max) (nonce : epoch.nonce ≤ u64Max) :
    epoch.toJson.size ≤ 72 := by
  have startedSize := size_nat_le_of_u64 started
  have nonceSize := size_nat_le_of_u64 nonce
  rw [size_toJson]
  omega

end Typed

end Gregg
