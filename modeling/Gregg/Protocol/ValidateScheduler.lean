import Gregg.Protocol.Scheduler

/-!
# Validation of the scheduler-observability wire documents

Each check returns the violations it pushes, in the order of the source. The lemmas state, check
by check, exactly which values pass.
-/

namespace Gregg

/-- The kind of a single scheduler protocol-invariant violation. -/
inductive ViolationKindScheduler where
  | unsupportedSchemaVersion (found : ℕ)
  | tooManyJobs (found max : ℕ)
  | tooManyRecords (found max : ℕ)
  | fieldTooLong (len max : ℕ)
  | emptyJobName
  | nonFiniteLoad
  | inconsistentLoadDecision
  | statusWithoutChild (outcome : SchedulerOutcomeV2)
  | durationWithoutChild (outcome : SchedulerOutcomeV2)
  | nonMonotonicSequence (found previous : ℕ)
  | duplicateJobName (name : String)
  | timestampOutOfRange (found : ℕ)
  | unknownLoadWindow (found : String)
  deriving DecidableEq

structure ValidationViolationScheduler where
  kind : ViolationKindScheduler
  field : String
  deriving DecidableEq

abbrev Violations := List ValidationViolationScheduler

/-- 2100-01-01T00:00:00Z in milliseconds. -/
def MAX_TIMESTAMP_UNIX_MS : ℕ := 4102444800000

def checkText (field value : String) (max : ℕ) : Violations :=
  if value.utf8ByteSize > max then [⟨.fieldTooLong value.utf8ByteSize max, field⟩] else []

def checkTimestamp (field : String) (value : ℕ) : Violations :=
  if value > MAX_TIMESTAMP_UNIX_MS then [⟨.timestampOutOfRange value, field⟩] else []

def checkEpoch (field : String) (epoch : SchedulerEpochV2) : Violations :=
  checkTimestamp (field ++ ".started_at_unix_ms") epoch.startedAtUnixMs

def checkOptionalTimestamp (field : String) : Option ℕ → Violations
  | some value => checkTimestamp field value
  | none => []

/-- Whether an outcome can carry the status of a child. -/
def childCapable : SchedulerOutcomeV2 → Bool
  | .success | .failed | .waitFailed | .cancelled => true
  | .spawnFailed | .loadExpired => false

def checkOptionalChildFields (field : String) (outcome : SchedulerOutcomeV2)
    (exitCode : Option ℤ) (signal durationMs : Option ℕ) : Violations :=
  (if !childCapable outcome && (exitCode.isSome || signal.isSome) then
    [⟨.statusWithoutChild outcome, field ++ ".exit_code"⟩] else []) ++
  (if !childCapable outcome && durationMs.isSome then
    [⟨.durationWithoutChild outcome, field ++ ".duration_ms"⟩] else [])

def checkOutput (field : String) (output : SchedulerOutputV2) : Violations :=
  let escaped := textEscapedLen output.text
  if escaped > MAX_SCHEDULER_OUTPUT_TEXT_BYTES then
    [⟨.fieldTooLong escaped MAX_SCHEDULER_OUTPUT_TEXT_BYTES, field ++ ".text"⟩]
  else []

/-- The loop of `check_duplicate_names`, given the names seen before. -/
def checkDuplicateNamesFrom (seen : List String) : List String → Violations
  | [] => []
  | name :: rest =>
      if seen.contains name then
        ⟨.duplicateJobName name, "jobs"⟩ :: checkDuplicateNamesFrom seen rest
      else checkDuplicateNamesFrom (seen ++ [name]) rest

def checkDuplicateNames (names : List String) : Violations :=
  checkDuplicateNamesFrom [] names

def isLoadWindow (window : String) : Bool :=
  window == "1m" || window == "5m" || window == "15m"

def checkLoadGate (field : String) (gate : SchedulerLoadGateV2) : Violations :=
  (if !isLoadWindow gate.window then
    [⟨.unknownLoadWindow gate.window, field ++ ".window"⟩] else []) ++
  (if !gate.threshold.isFinite then [⟨.nonFiniteLoad, field ++ ".threshold"⟩] else []) ++
  (if gate.observed.any fun value => !value.isFinite then
    [⟨.nonFiniteLoad, field ++ ".observed"⟩] else [])

def checkRunSummary (field : String) (summary : SchedulerRunSummaryV2) : Violations :=
  checkTimestamp (field ++ ".scheduled_unix_ms") summary.scheduledUnixMs ++
  checkTimestamp (field ++ ".finished_unix_ms") summary.finishedUnixMs ++
  checkOptionalChildFields field summary.outcome summary.exitCode summary.signal
    summary.durationMs

/-- The two states in which a load gate holds an occurrence back. -/
def isDeferred : SchedulerJobStateV2 → Bool
  | .loadHigh | .loadUnavailable => true
  | _ => false

/-- The cross-field rules of a job row. -/
def checkJobDecision (field : String) (job : SchedulerJobV2) : Violations :=
  (if isDeferred job.state then
    (if job.runningSinceUnixMs.isSome then
      [⟨.inconsistentLoadDecision, field ++ ".running_since_unix_ms"⟩] else []) ++
    (if job.load.isNone then [⟨.inconsistentLoadDecision, field ++ ".load"⟩] else [])
  else []) ++
  (if job.state = .loadUnavailable && job.load.any fun gate => gate.observed.isSome then
    [⟨.inconsistentLoadDecision, field ++ ".load.observed"⟩] else []) ++
  (if !isDeferred job.state && job.nextRetryUnixMs.isSome then
    [⟨.inconsistentLoadDecision, field ++ ".next_retry_unix_ms"⟩] else [])

def checkJob (index : ℕ) (job : SchedulerJobV2) : Violations :=
  let field := "jobs." ++ toString index
  checkText (field ++ ".name") job.name MAX_SCHEDULER_JOB_NAME_BYTES ++
  (if job.name.isEmpty then [⟨.emptyJobName, field ++ ".name"⟩] else []) ++
  checkText (field ++ ".schedule") job.schedule MAX_SCHEDULER_SCHEDULE_BYTES ++
  checkTimestamp (field ++ ".next_due_unix_ms") job.nextDueUnixMs ++
  checkOptionalTimestamp (field ++ ".pending_since_unix_ms") job.pendingSinceUnixMs ++
  checkOptionalTimestamp (field ++ ".next_retry_unix_ms") job.nextRetryUnixMs ++
  checkOptionalTimestamp (field ++ ".running_since_unix_ms") job.runningSinceUnixMs ++
  (match job.load with
    | some gate => checkLoadGate (field ++ ".load") gate
    | none => []) ++
  checkJobDecision field job ++
  (match job.last with
    | some last => checkRunSummary (field ++ ".last") last
    | none => [])

def checkRecord (field : String) (record : SchedulerRunRecordV2) : Violations :=
  checkTimestamp (field ++ ".scheduled_unix_ms") record.scheduledUnixMs ++
  checkOptionalTimestamp (field ++ ".started_unix_ms") record.startedUnixMs ++
  checkTimestamp (field ++ ".finished_unix_ms") record.finishedUnixMs ++
  checkOptionalChildFields field record.outcome record.exitCode record.signal
    record.durationMs ++
  (if record.startedUnixMs.isSome && !childCapable record.outcome then
    [⟨.statusWithoutChild record.outcome, field ++ ".started_unix_ms"⟩] else []) ++
  checkOutput (field ++ ".stdout") record.stdout ++
  checkOutput (field ++ ".stderr") record.stderr

/-- The loop over one job's records, given the position and the preceding sequence. -/
def checkRecordsFrom (field : String) :
    ℕ → Option ℕ → List SchedulerRunRecordV2 → Violations
  | _, _, [] => []
  | position, previous, record :: rest =>
      let path := field ++ ".records." ++ toString position
      checkRecord path record ++
      (match previous with
        | some previous =>
            if record.sequence ≤ previous then
              [⟨.nonMonotonicSequence record.sequence previous, path ++ ".sequence"⟩]
            else []
        | none => []) ++
      checkRecordsFrom field (position + 1) (some record.sequence) rest

def checkJobHistory (index : ℕ) (history : SchedulerJobHistoryV2) : Violations :=
  let field := "jobs." ++ toString index
  checkText (field ++ ".name") history.name MAX_SCHEDULER_JOB_NAME_BYTES ++
  (if history.name.isEmpty then [⟨.emptyJobName, field ++ ".name"⟩] else []) ++
  (if history.records.length > MAX_SCHEDULER_HISTORY_LIMIT then
    [⟨.tooManyRecords history.records.length MAX_SCHEDULER_HISTORY_LIMIT, field ++ ".records"⟩]
  else []) ++
  checkRecordsFrom field 0 none history.records

/-- The checks both documents share: version, generation time, epoch and job count. -/
def checkHeader (schemaVersion generatedAtUnixMs : ℕ) (epoch : SchedulerEpochV2)
    (jobCount : ℕ) : Violations :=
  (if schemaVersion ≠ SCHEMA_VERSION_V2 then
    [⟨.unsupportedSchemaVersion schemaVersion, "schema_version"⟩] else []) ++
  checkTimestamp "generated_at_unix_ms" generatedAtUnixMs ++
  checkEpoch "epoch" epoch ++
  (if jobCount > MAX_SCHEDULER_JOBS then
    [⟨.tooManyJobs jobCount MAX_SCHEDULER_JOBS, "jobs"⟩] else [])

/-- `validate_summary`, as the list of every violation found. -/
def validateSummary (summary : SchedulerSummaryV2) : Violations :=
  checkHeader summary.schemaVersion summary.generatedAtUnixMs summary.epoch
    summary.jobs.length ++
  (summary.jobs.mapIdx checkJob).flatten ++
  checkDuplicateNames (summary.jobs.map (·.name))

/-- `validate_history`, as the list of every violation found. -/
def validateHistory (history : SchedulerHistoryV2) : Violations :=
  checkHeader history.schemaVersion history.generatedAtUnixMs history.epoch
    history.jobs.length ++
  (history.jobs.mapIdx checkJobHistory).flatten ++
  checkDuplicateNames (history.jobs.map (·.name))

section Passing

variable {field : String}

@[simp]
theorem checkText_eq_nil_iff {value : String} {max : ℕ} :
    checkText field value max = [] ↔ value.utf8ByteSize ≤ max := by
  simp [checkText]

@[simp]
theorem checkTimestamp_eq_nil_iff {value : ℕ} :
    checkTimestamp field value = [] ↔ value ≤ MAX_TIMESTAMP_UNIX_MS := by
  simp [checkTimestamp]

@[simp]
theorem checkEpoch_eq_nil_iff {epoch : SchedulerEpochV2} :
    checkEpoch field epoch = [] ↔ epoch.startedAtUnixMs ≤ MAX_TIMESTAMP_UNIX_MS := by
  simp [checkEpoch]

@[simp]
theorem checkOptionalTimestamp_eq_nil_iff {value : Option ℕ} :
    checkOptionalTimestamp field value = [] ↔
      ∀ found ∈ value, found ≤ MAX_TIMESTAMP_UNIX_MS := by
  cases value <;> simp [checkOptionalTimestamp]

@[simp]
theorem checkOptionalChildFields_eq_nil_iff {outcome : SchedulerOutcomeV2}
    {exitCode : Option ℤ} {signal durationMs : Option ℕ} :
    checkOptionalChildFields field outcome exitCode signal durationMs = [] ↔
      (childCapable outcome = false →
        exitCode = none ∧ signal = none ∧ durationMs = none) := by
  cases capable : childCapable outcome <;>
    simp [checkOptionalChildFields, capable, and_assoc]

@[simp]
theorem checkOutput_eq_nil_iff {output : SchedulerOutputV2} :
    checkOutput field output = [] ↔
      textEscapedLen output.text ≤ MAX_SCHEDULER_OUTPUT_TEXT_BYTES := by
  simp [checkOutput]

@[simp]
theorem checkLoadGate_eq_nil_iff {gate : SchedulerLoadGateV2} :
    checkLoadGate field gate = [] ↔
      isLoadWindow gate.window = true ∧ gate.threshold.isFinite = true ∧
        ∀ value ∈ gate.observed, value.isFinite = true := by
  cases observed : gate.observed <;> simp [checkLoadGate, observed]

@[simp]
theorem checkRunSummary_eq_nil_iff {summary : SchedulerRunSummaryV2} :
    checkRunSummary field summary = [] ↔
      summary.scheduledUnixMs ≤ MAX_TIMESTAMP_UNIX_MS ∧
        summary.finishedUnixMs ≤ MAX_TIMESTAMP_UNIX_MS ∧
        (childCapable summary.outcome = false →
          summary.exitCode = none ∧ summary.signal = none ∧ summary.durationMs = none) := by
  simp [checkRunSummary]

/-- The record rules hold of every record whose outcome, times and outputs agree. -/
theorem checkRecord_eq_nil_iff {record : SchedulerRunRecordV2} :
    checkRecord field record = [] ↔
      record.scheduledUnixMs ≤ MAX_TIMESTAMP_UNIX_MS ∧
        (∀ started ∈ record.startedUnixMs, started ≤ MAX_TIMESTAMP_UNIX_MS) ∧
        record.finishedUnixMs ≤ MAX_TIMESTAMP_UNIX_MS ∧
        (childCapable record.outcome = false →
          record.exitCode = none ∧ record.signal = none ∧ record.durationMs = none) ∧
        (childCapable record.outcome = false → record.startedUnixMs = none) ∧
        textEscapedLen record.stdout.text ≤ MAX_SCHEDULER_OUTPUT_TEXT_BYTES ∧
        textEscapedLen record.stderr.text ≤ MAX_SCHEDULER_OUTPUT_TEXT_BYTES := by
  cases started : record.startedUnixMs <;> simp [checkRecord, started]

theorem checkDuplicateNamesFrom_eq_nil_iff {seen names : List String} :
    checkDuplicateNamesFrom seen names = [] ↔ names.Nodup ∧ ∀ name ∈ names, name ∉ seen := by
  induction names generalizing seen with
  | nil => simp [checkDuplicateNamesFrom]
  | cons name rest ih =>
      simp only [checkDuplicateNamesFrom, List.contains_eq_mem, decide_eq_true_eq,
        List.nodup_cons, List.mem_cons, forall_eq_or_imp]
      split
      · rename_i seenBefore
        simp [seenBefore]
      · rename_i fresh
        rw [ih]
        constructor
        · rintro ⟨restNodup, restFresh⟩
          refine ⟨⟨fun nameInRest => ?_, restNodup⟩, fresh, fun other otherMem => ?_⟩
          · exact restFresh name nameInRest (by simp)
          · exact fun otherSeen => restFresh other otherMem (by simp [otherSeen])
        · rintro ⟨⟨nameNotInRest, restNodup⟩, -, restFresh⟩
          refine ⟨restNodup, fun other otherMem otherSeen => ?_⟩
          rcases List.mem_append.mp otherSeen with wasSeen | isName
          · exact restFresh other otherMem wasSeen
          · rw [List.mem_singleton.mp isName] at otherMem
            exact nameNotInRest otherMem

@[simp]
theorem checkDuplicateNames_eq_nil_iff {names : List String} :
    checkDuplicateNames names = [] ↔ names.Nodup := by
  simp [checkDuplicateNames, checkDuplicateNamesFrom_eq_nil_iff]

/-- The record loop passes when every record passes and the sequences increase strictly, also
past the preceding one. -/
theorem checkRecordsFrom_eq_nil {records : List SchedulerRunRecordV2} {position : ℕ}
    {previous : Option ℕ}
    (passing : ∀ record ∈ records, ∀ path, checkRecord path record = [])
    (increasing : records.Pairwise fun earlier later => earlier.sequence < later.sequence)
    (afterPrevious : ∀ sequence ∈ previous, ∀ record ∈ records, sequence < record.sequence) :
    checkRecordsFrom field position previous records = [] := by
  induction records generalizing position previous with
  | nil => rfl
  | cons record rest ih =>
      rw [List.pairwise_cons] at increasing
      have restPasses : checkRecordsFrom field (position + 1) (some record.sequence) rest = [] := by
        refine ih (fun other otherMem => passing other (by simp [otherMem])) increasing.2 ?_
        rintro sequence ⟨⟩ other otherMem
        exact increasing.1 other otherMem
      have recordPasses := passing record (by simp)
      cases previous with
      | none => simp [checkRecordsFrom, recordPasses, restPasses]
      | some sequence =>
          have later := afterPrevious sequence rfl record (by simp)
          simp [checkRecordsFrom, recordPasses, restPasses, later]

end Passing

section Documents

@[simp]
theorem checkHeader_eq_nil_iff {schemaVersion generatedAtUnixMs jobCount : ℕ}
    {epoch : SchedulerEpochV2} :
    checkHeader schemaVersion generatedAtUnixMs epoch jobCount = [] ↔
      schemaVersion = SCHEMA_VERSION_V2 ∧ generatedAtUnixMs ≤ MAX_TIMESTAMP_UNIX_MS ∧
        epoch.startedAtUnixMs ≤ MAX_TIMESTAMP_UNIX_MS ∧ jobCount ≤ MAX_SCHEDULER_JOBS := by
  simp [checkHeader]

theorem flatten_mapIdx_eq_nil_iff {Row : Type} {rows : List Row} {check : ℕ → Row → Violations} :
    (rows.mapIdx check).flatten = [] ↔
      ∀ index (inRange : index < rows.length), check index rows[index] = [] := by
  rw [List.flatten_eq_nil_iff]
  constructor
  · intro passing index inRange
    exact passing _ (List.mem_mapIdx.mpr ⟨index, inRange, rfl⟩)
  · rintro passing found foundMem
    rcases List.mem_mapIdx.mp foundMem with ⟨index, inRange, rfl⟩
    exact passing index inRange

theorem validateSummary_eq_nil_iff {summary : SchedulerSummaryV2} :
    validateSummary summary = [] ↔
      checkHeader summary.schemaVersion summary.generatedAtUnixMs summary.epoch
          summary.jobs.length = [] ∧
        (∀ index (inRange : index < summary.jobs.length),
          checkJob index summary.jobs[index] = []) ∧
        (summary.jobs.map (·.name)).Nodup := by
  simp only [validateSummary, List.append_eq_nil_iff, flatten_mapIdx_eq_nil_iff,
    checkDuplicateNames_eq_nil_iff, and_assoc]

theorem validateHistory_eq_nil_iff {history : SchedulerHistoryV2} :
    validateHistory history = [] ↔
      checkHeader history.schemaVersion history.generatedAtUnixMs history.epoch
          history.jobs.length = [] ∧
        (∀ index (inRange : index < history.jobs.length),
          checkJobHistory index history.jobs[index] = []) ∧
        (history.jobs.map (·.name)).Nodup := by
  simp only [validateHistory, List.append_eq_nil_iff, flatten_mapIdx_eq_nil_iff,
    checkDuplicateNames_eq_nil_iff, and_assoc]

end Documents

end Gregg
