import Gregg.Protocol.Scheduler
import Gregg.Greggd.Schedule

/-!
# Daemon configuration and its validation

The fields and checks of `Config::validate`, in the order of the source. The bind address and the
privileged-job opt-in are not read by any check and are left out.
-/

namespace Gregg

def MIN_SAMPLE_INTERVAL_MS : ℕ := 250
def MAX_SAMPLE_INTERVAL_MS : ℕ := 60000

/-- Maximum length for the display name after trimming. -/
def MAX_NAME_LEN : ℕ := 128

def MAX_JOBS : ℕ := 64

def MAX_JOB_NAME_CHARS : ℕ := 96

def MAX_COMMAND_ARGS : ℕ := 64

def MAX_COMMAND_ARG_BYTES : ℕ := 4096

def MIN_RETRY_INTERVAL_MS : ℕ := 10000
def MAX_RETRY_INTERVAL_MS : ℕ := 3600000
def DEFAULT_RETRY_INTERVAL_MS : ℕ := 300000
def DEFAULT_MAX_WAIT_MS : ℕ := 86400000
def MAX_MAX_WAIT_MS : ℕ := 604800000

/-- A `PathBuf`, through its `to_str`: a path that is not valid UTF-8 has none. -/
structure PathBuf where
  toStr : Option String
  deriving DecidableEq

/-- One local maintenance command and its optional cached-load gate. -/
structure ScheduledJobConfig where
  name : String
  schedule : String
  command : List String
  workingDir : Option PathBuf
  maxLoad : Option F32
  loadWindow : Option String
  retryIntervalMs : Option ℕ
  maxWaitMs : Option ℕ
  deriving DecidableEq

/-- A time-only job that is due every minute. -/
def ScheduledJobConfig.minutely (name : String) : ScheduledJobConfig where
  name := name
  schedule := "* * * * *"
  command := ["true"]
  workingDir := none
  maxLoad := none
  loadWindow := none
  retryIntervalMs := none
  maxWaitMs := none

/-- A job that is due every hour and waits for a load of at most one. -/
def ScheduledJobConfig.hourlyWhenIdle (name : String) : ScheduledJobConfig where
  name := name
  schedule := "@hourly"
  command := ["true"]
  workingDir := none
  maxLoad := some (.finite 1)
  loadWindow := none
  retryIntervalMs := none
  maxWaitMs := none

structure Config where
  name : String
  port : ℕ
  sampleIntervalMs : ℕ
  staleAfterMs : ℕ
  jobs : List ScheduledJobConfig
  schedulerHistoryLimit : Option ℕ

inductive JobPlatform where
  | unix
  | windows
  deriving DecidableEq

/-- The text of an `InvalidJobs` violation. A repeated name is kept as data, since its text quotes
the name in debug form. -/
inductive InvalidJobs where
  | message (text : String)
  | nameDuplicates (index : ℕ) (name : String)
  deriving DecidableEq

inductive ConfigViolation where
  | emptyName
  | nameContainsControlCharacters
  | nameTooLong (length max : ℕ)
  | invalidPort (port : ℕ)
  | invalidSampleInterval (sampleIntervalMs : ℕ)
  | stalenessBelowInterval (staleAfterMs sampleIntervalMs : ℕ)
  | invalidJobs (jobs : InvalidJobs)
  | invalidSchedulerHistoryLimit (found max : ℕ)
  deriving DecidableEq

/-- `chars().any(char::is_control)`. -/
def hasControl (text : String) : Bool :=
  text.toList.any Text.isControl

namespace ScheduledJobConfig

def effectiveLoadWindow (job : ScheduledJobConfig) : String :=
  let window := job.loadWindow.getD "15m"
  if window = "1m" then "1m" else if window = "5m" then "5m" else "15m"

def effectiveRetryIntervalMs (job : ScheduledJobConfig) : ℕ :=
  job.retryIntervalMs.getD DEFAULT_RETRY_INTERVAL_MS

def effectiveMaxWaitMs (job : ScheduledJobConfig) : ℕ :=
  job.maxWaitMs.getD DEFAULT_MAX_WAIT_MS

def nameErrors (job : ScheduledJobConfig) : List String :=
  (if (Text.trim job.name.toList).isEmpty then ["name must be non-empty"] else []) ++
  (if job.name.length > MAX_JOB_NAME_CHARS then
    [s!"name exceeds {MAX_JOB_NAME_CHARS} characters"] else []) ++
  (if hasControl job.name then ["name contains control characters"] else [])

def scheduleErrors (job : ScheduledJobConfig) : List String :=
  if job.schedule.utf8ByteSize > MAX_SCHEDULE_BYTES then
    [s!"schedule exceeds {MAX_SCHEDULE_BYTES} UTF-8 bytes"]
  else
    match LocalSchedule.parse job.schedule with
    | .ok schedule =>
        if schedule.isSatisfiable then []
        else ["schedule: no calendar date can satisfy this expression"]
    | .error error => [s!"schedule: {error}"]

def argumentErrors (index : ℕ) (value : String) : List String :=
  (if value.utf8ByteSize > MAX_COMMAND_ARG_BYTES then
    [s!"command[{index}] exceeds {MAX_COMMAND_ARG_BYTES} UTF-8 bytes"] else []) ++
  (if hasControl value then [s!"command[{index}] contains control characters"] else [])

def commandErrors (job : ScheduledJobConfig) : List String :=
  (if job.command.head?.all String.isEmpty then
    ["command must contain a non-empty executable"] else []) ++
  (if job.command.length > MAX_COMMAND_ARGS then
    [s!"command exceeds {MAX_COMMAND_ARGS} argv entries"] else []) ++
  (job.command.mapIdx argumentErrors).flatten

def workingDirErrors (job : ScheduledJobConfig) : List String :=
  match job.workingDir with
  | none => []
  | some path =>
      match path.toStr with
      | some value =>
          if !value.isEmpty && !hasControl value then []
          else ["working_dir must be non-empty and control-free"]
      | none => ["working_dir is not valid UTF-8"]

/-- The gate's fields without a threshold, and the threshold itself. -/
def maxLoadErrors (job : ScheduledJobConfig) : List String :=
  match job.maxLoad with
  | some load =>
      if !load.isFinite || load.lt (.finite 0) then
        ["max_load must be finite and non-negative"] else []
  | none =>
      (if job.loadWindow.isSome then ["load_window requires max_load"] else []) ++
      (if job.retryIntervalMs.isSome then ["retry_interval_ms requires max_load"] else []) ++
      (if job.maxWaitMs.isSome then ["max_wait_ms requires max_load"] else [])

def loadGateErrors (job : ScheduledJobConfig) (platform : JobPlatform) : List String :=
  if job.maxLoad.isSome then
    let retry := job.retryIntervalMs.getD DEFAULT_RETRY_INTERVAL_MS
    let maxWait := job.maxWaitMs.getD DEFAULT_MAX_WAIT_MS
    (if job.loadWindow.any fun window => window ≠ "1m" ∧ window ≠ "5m" ∧ window ≠ "15m" then
      ["load_window must be one of 1m, 5m, or 15m"] else []) ++
    (if !(MIN_RETRY_INTERVAL_MS ≤ retry && retry ≤ MAX_RETRY_INTERVAL_MS) then
      [s!"retry_interval_ms must be {MIN_RETRY_INTERVAL_MS}..={MAX_RETRY_INTERVAL_MS}"]
    else []) ++
    (if maxWait = 0 ∨ maxWait > MAX_MAX_WAIT_MS then
      [s!"max_wait_ms must be 1..={MAX_MAX_WAIT_MS}"] else []) ++
    (if retry > maxWait then ["retry_interval_ms must not exceed max_wait_ms"] else []) ++
    (if platform = .windows then ["max_load is unsupported on Windows"] else [])
  else []

/-- `ScheduledJobConfig::validate`. -/
def validate (job : ScheduledJobConfig) (platform : JobPlatform) : List String :=
  job.nameErrors ++ job.scheduleErrors ++ job.commandErrors ++ job.workingDirErrors ++
    job.maxLoadErrors ++ job.loadGateErrors platform

end ScheduledJobConfig

namespace Config

def nameViolations (config : Config) : List ConfigViolation :=
  let trimmed := Text.trim config.name.toList
  if trimmed.isEmpty then [.emptyName]
  else if trimmed.any Text.isControl then [.nameContainsControlCharacters]
  else if trimmed.length > MAX_NAME_LEN then [.nameTooLong trimmed.length MAX_NAME_LEN]
  else []

/-- The loop over the configured jobs, given the index and the names seen before. -/
def jobViolationsFrom (platform : JobPlatform) :
    ℕ → List String → List ScheduledJobConfig → List ConfigViolation
  | _, _, [] => []
  | index, names, job :: rest =>
      (job.validate platform).map
        (fun error => .invalidJobs (.message s!"jobs[{index}].{error}")) ++
      (if names.contains job.name then [.invalidJobs (.nameDuplicates index job.name)]
        else []) ++
      jobViolationsFrom platform (index + 1) (job.name :: names) rest

/-- `Config::validate_for`. -/
def validateFor (config : Config) (platform : JobPlatform) : List ConfigViolation :=
  config.nameViolations ++
  (if config.port = 0 then [.invalidPort config.port] else []) ++
  (if config.sampleIntervalMs < MIN_SAMPLE_INTERVAL_MS ∨
      config.sampleIntervalMs > MAX_SAMPLE_INTERVAL_MS then
    [.invalidSampleInterval config.sampleIntervalMs] else []) ++
  (if config.staleAfterMs > 0 ∧ config.staleAfterMs ≤ config.sampleIntervalMs then
    [.stalenessBelowInterval config.staleAfterMs config.sampleIntervalMs] else []) ++
  (if config.jobs.length > MAX_JOBS then
    [.invalidJobs
      (.message s!"jobs has {config.jobs.length} entries; maximum is {MAX_JOBS}")]
  else []) ++
  (match config.schedulerHistoryLimit with
    | some limit =>
        if limit > MAX_SCHEDULER_HISTORY_LIMIT then
          [.invalidSchedulerHistoryLimit limit MAX_SCHEDULER_HISTORY_LIMIT] else []
    | none => []) ++
  jobViolationsFrom platform 0 [] config.jobs

/-- `Config::scheduler_history_limit`: the effective per-job history depth. -/
def effectiveSchedulerHistoryLimit (config : Config) : ℕ :=
  config.schedulerHistoryLimit.getD DEFAULT_SCHEDULER_HISTORY_LIMIT

end Config

section Accepted

variable {platform : JobPlatform} {job : ScheduledJobConfig} {config : Config}

/-- What an accepted job promises the scheduler. -/
structure ScheduledJobConfig.Accepted (job : ScheduledJobConfig) : Prop where
  nameNonempty : job.name ≠ ""
  nameChars : job.name.length ≤ MAX_JOB_NAME_CHARS
  scheduleBytes : job.schedule.utf8ByteSize ≤ MAX_SCHEDULE_BYTES
  thresholdFinite : ∀ threshold ∈ job.maxLoad, threshold.isFinite = true
  retryPositive : job.maxLoad.isSome → 0 < job.effectiveRetryIntervalMs

theorem ScheduledJobConfig.accepted_of_validate (accepted : job.validate platform = []) :
    job.Accepted := by
  simp only [validate, List.append_eq_nil_iff] at accepted
  rcases accepted with ⟨⟨⟨⟨⟨nameOk, scheduleOk⟩, -⟩, -⟩, maxLoadOk⟩, gateOk⟩
  simp only [nameErrors, List.append_eq_nil_iff, ite_singleton_eq_nil_iff] at nameOk
  refine ⟨?_, by omega, ?_, ?_, ?_⟩
  · intro empty
    simp [empty, Text.trim] at nameOk
  · by_contra tooLong
    simp [scheduleErrors, Nat.lt_of_not_ge tooLong] at scheduleOk
  · intro threshold configured
    rw [Option.mem_def] at configured
    simp only [maxLoadErrors, configured, ite_singleton_eq_nil_iff] at maxLoadOk
    simp only [Bool.or_eq_true, not_or, Bool.not_eq_true', Bool.not_eq_false] at maxLoadOk
    exact maxLoadOk.1
  · intro gated
    simp only [loadGateErrors, gated, ↓reduceIte, List.append_eq_nil_iff,
      ite_singleton_eq_nil_iff] at gateOk
    have inRange := gateOk.1.1.1.2
    simp only [Bool.not_eq_true', Bool.not_eq_false, Bool.and_eq_true,
      decide_eq_true_eq] at inRange
    exact Nat.lt_of_lt_of_le (by decide) inRange.1

theorem Config.jobViolationsFrom_eq_nil_iff {index : ℕ} {names : List String}
    {jobs : List ScheduledJobConfig} :
    jobViolationsFrom platform index names jobs = [] ↔
      (∀ job ∈ jobs, job.validate platform = []) ∧ (jobs.map (·.name)).Nodup ∧
        ∀ job ∈ jobs, job.name ∉ names := by
  induction jobs generalizing index names with
  | nil => simp [jobViolationsFrom]
  | cons job rest ih =>
      simp only [jobViolationsFrom, List.append_eq_nil_iff, List.map_eq_nil_iff, ih,
        List.contains_eq_mem, decide_eq_true_eq, ite_eq_right_iff, List.cons_ne_nil, imp_false,
        List.mem_cons, forall_eq_or_imp, List.map_cons, List.nodup_cons, List.mem_map, not_exists,
        not_and, not_or]
      constructor
      · rintro ⟨⟨jobOk, fresh⟩, restOk, restNodup, restFresh⟩
        exact ⟨⟨jobOk, restOk⟩, ⟨fun other otherMem => (restFresh other otherMem).1, restNodup⟩,
          fresh, fun other otherMem => (restFresh other otherMem).2⟩
      · rintro ⟨⟨jobOk, restOk⟩, ⟨notRepeated, restNodup⟩, fresh, restFresh⟩
        exact ⟨⟨jobOk, fresh⟩, restOk, restNodup,
          fun other otherMem => ⟨notRepeated other otherMem, restFresh other otherMem⟩⟩

/-- What an accepted configuration promises the scheduler. -/
structure Config.Accepted (config : Config) : Prop where
  jobCount : config.jobs.length ≤ MAX_JOBS
  historyLimit : config.effectiveSchedulerHistoryLimit ≤ MAX_SCHEDULER_HISTORY_LIMIT
  namesNodup : (config.jobs.map (·.name)).Nodup
  jobs : ∀ job ∈ config.jobs, job.Accepted

theorem Config.accepted_of_validateFor (accepted : config.validateFor platform = []) :
    config.Accepted := by
  simp only [validateFor, List.append_eq_nil_iff] at accepted
  rcases accepted with ⟨⟨⟨-, countOk⟩, limitOk⟩, jobsOk⟩
  rcases jobViolationsFrom_eq_nil_iff.mp jobsOk with ⟨everyJob, namesNodup, -⟩
  refine ⟨?_, ?_, namesNodup, fun job jobMem => ScheduledJobConfig.accepted_of_validate
    (everyJob job jobMem)⟩
  · simpa using countOk
  · unfold effectiveSchedulerHistoryLimit
    cases configured : config.schedulerHistoryLimit with
    | none => decide
    | some limit => simpa [configured] using limitOk

end Accepted

end Gregg
