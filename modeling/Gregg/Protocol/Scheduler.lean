import Gregg.RustStd

/-!
# The scheduler-observability wire documents

The summary and history documents served on `/v2/scheduler` and `/v2/scheduler/history`, and the
escaped-length budget that bounds published command output. The budget is a function of the
character sequence, so `textEscapedLen_truncateToEscapedBudget_le` bounds every published text by
construction.
-/

namespace Gregg

def MAX_SCHEDULER_JOBS : ℕ := 64

def DEFAULT_SCHEDULER_HISTORY_LIMIT : ℕ := 5

def MAX_SCHEDULER_HISTORY_LIMIT : ℕ := 10

def MAX_SCHEDULER_OUTPUT_BYTES : ℕ := 1024

/-- Maximum published output text per stream, in JSON-escaped bytes. -/
def MAX_SCHEDULER_OUTPUT_TEXT_BYTES : ℕ := 512

def MAX_SCHEDULER_JOB_NAME_BYTES : ℕ := 128

def MAX_SCHEDULER_SCHEDULE_BYTES : ℕ := 128

def SCHEMA_VERSION_V2 : ℕ := 2

structure SchedulerEpochV2 where
  startedAtUnixMs : ℕ
  nonce : ℕ
  deriving DecidableEq

inductive SchedulerJobStateV2 where
  | idle
  | waitingForSlot
  | loadHigh
  | loadUnavailable
  | running
  deriving DecidableEq

inductive SchedulerOutcomeV2 where
  | success
  | failed
  | spawnFailed
  | waitFailed
  | loadExpired
  | cancelled
  deriving DecidableEq

structure SchedulerLoadGateV2 where
  window : String
  threshold : F32
  observed : Option F32
  deriving BEq

/-- Compact description of a job's most recent terminal occurrence. -/
structure SchedulerRunSummaryV2 where
  sequence : ℕ
  scheduledUnixMs : ℕ
  finishedUnixMs : ℕ
  outcome : SchedulerOutcomeV2
  exitCode : Option ℤ
  signal : Option ℕ
  durationMs : Option ℕ
  delayMs : ℕ
  coalesced : Bool
  deriving DecidableEq

structure SchedulerOutputV2 where
  text : List Char
  truncated : Bool
  deriving DecidableEq

/-- One job's current state as published by the summary document. -/
structure SchedulerJobV2 where
  name : String
  schedule : String
  nextDueUnixMs : ℕ
  state : SchedulerJobStateV2
  load : Option SchedulerLoadGateV2
  pendingSinceUnixMs : Option ℕ
  nextRetryUnixMs : Option ℕ
  runningSinceUnixMs : Option ℕ
  last : Option SchedulerRunSummaryV2
  deriving BEq

/-- Response body of `/v2/scheduler`. -/
structure SchedulerSummaryV2 where
  schemaVersion : ℕ
  generatedAtUnixMs : ℕ
  epoch : SchedulerEpochV2
  historyRevision : ℕ
  jobs : List SchedulerJobV2

/-- One terminal record of one scheduled occurrence. -/
structure SchedulerRunRecordV2 where
  sequence : ℕ
  scheduledUnixMs : ℕ
  startedUnixMs : Option ℕ
  finishedUnixMs : ℕ
  outcome : SchedulerOutcomeV2
  exitCode : Option ℤ
  signal : Option ℕ
  durationMs : Option ℕ
  delayMs : ℕ
  coalesced : Bool
  stdout : SchedulerOutputV2
  stderr : SchedulerOutputV2
  deriving DecidableEq

/-- What a summary row says of a retained record. -/
def SchedulerRunRecordV2.summary (record : SchedulerRunRecordV2) : SchedulerRunSummaryV2 where
  sequence := record.sequence
  scheduledUnixMs := record.scheduledUnixMs
  finishedUnixMs := record.finishedUnixMs
  outcome := record.outcome
  exitCode := record.exitCode
  signal := record.signal
  durationMs := record.durationMs
  delayMs := record.delayMs
  coalesced := record.coalesced

structure SchedulerJobHistoryV2 where
  name : String
  records : List SchedulerRunRecordV2
  deriving DecidableEq

/-- Response body of `/v2/scheduler/history`. -/
structure SchedulerHistoryV2 where
  schemaVersion : ℕ
  generatedAtUnixMs : ℕ
  epoch : SchedulerEpochV2
  historyRevision : ℕ
  jobs : List SchedulerJobHistoryV2

/-- Number of bytes `serde_json` emits for one character inside a JSON string. -/
def jsonEscapedLen (character : Char) : ℕ :=
  if character.toNat ∈ [0x22, 0x5c, 0x8, 0xc, 0xa, 0xd, 0x9] then 2
  else if character.toNat < 0x20 then 6
  else character.utf8Size

/-- JSON-escaped length of an entire string, excluding its surrounding quotes. -/
def textEscapedLen (text : List Char) : ℕ :=
  (text.map jsonEscapedLen).sum

/-- The loop of `truncate_to_escaped_budget`: the kept prefix, given the bytes already used and
whether a character was kept before. -/
def truncateFrom (budget : ℕ) : ℕ → Bool → List Char → List Char × Bool
  | _, _, [] => ([], false)
  | used, keptBefore, character :: rest =>
      let cost := jsonEscapedLen character
      if used + cost > budget then
        -- A non-empty stream keeps its first character even past the budget.
        if keptBefore then ([], true) else ([character], true)
      else
        let (kept, truncated) := truncateFrom budget (used + cost) true rest
        (character :: kept, truncated)

/-- `truncate_to_escaped_budget`: the retained prefix and whether anything was dropped. -/
def truncateToEscapedBudget (text : List Char) (budget : ℕ) : List Char × Bool :=
  truncateFrom budget 0 false text

/-- `output_text_from_bytes`: captured bytes as bounded published text. -/
def outputTextFromBytes (rawTail : List UInt8) (alreadyRawTruncated : Bool) : List Char × Bool :=
  let (text, textTruncated) :=
    truncateToEscapedBudget (Utf8.fromUtf8Lossy rawTail) MAX_SCHEDULER_OUTPUT_TEXT_BYTES
  (text, alreadyRawTruncated || textTruncated)

@[simp]
theorem textEscapedLen_nil : textEscapedLen [] = 0 := rfl

@[simp]
theorem textEscapedLen_cons (character : Char) (text : List Char) :
    textEscapedLen (character :: text) = jsonEscapedLen character + textEscapedLen text := by
  simp [textEscapedLen]

/-- One character costs at most the six bytes of a `\u00XX` escape. -/
theorem jsonEscapedLen_le (character : Char) : jsonEscapedLen character ≤ 6 := by
  unfold jsonEscapedLen
  have size := Char.utf8Size_le_four character
  split
  · omega
  · split <;> omega

/-- Past the first character the loop never exceeds what is left of the budget. -/
theorem textEscapedLen_truncateFrom_le {budget used : ℕ} (text : List Char)
    (within : used ≤ budget) :
    used + textEscapedLen (truncateFrom budget used true text).1 ≤ budget := by
  induction text generalizing used with
  | nil => simpa [truncateFrom] using within
  | cons character rest ih =>
      simp only [truncateFrom]
      split
      · simpa using within
      · have kept : used + jsonEscapedLen character + textEscapedLen (truncateFrom budget
            (used + jsonEscapedLen character) true rest).1 ≤ budget := ih (by omega)
        simp only [textEscapedLen_cons]
        omega

/-- The published text never exceeds a budget that can hold one maximal escape. -/
theorem textEscapedLen_truncateToEscapedBudget_le {budget : ℕ} (text : List Char)
    (roomForOne : 6 ≤ budget) :
    textEscapedLen (truncateToEscapedBudget text budget).1 ≤ budget := by
  unfold truncateToEscapedBudget
  cases text with
  | nil => simp [truncateFrom]
  | cons character rest =>
      have costBound := jsonEscapedLen_le character
      simp only [truncateFrom, Nat.zero_add]
      split
      · simp only [Bool.false_eq_true, ↓reduceIte, textEscapedLen_cons, textEscapedLen_nil]
        omega
      · have kept : jsonEscapedLen character + textEscapedLen (truncateFrom budget
            (jsonEscapedLen character) true rest).1 ≤ budget :=
          textEscapedLen_truncateFrom_le rest (by omega)
        simpa using kept

theorem textEscapedLen_outputTextFromBytes_le (rawTail : List UInt8) (truncated : Bool) :
    textEscapedLen (outputTextFromBytes rawTail truncated).1 ≤ MAX_SCHEDULER_OUTPUT_TEXT_BYTES :=
  textEscapedLen_truncateToEscapedBudget_le _ (by decide)

end Gregg
