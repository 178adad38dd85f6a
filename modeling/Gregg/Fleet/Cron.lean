import Mathlib.Data.String.Basic
import Gregg.Lib.SortedMap
import Gregg.Protocol.Scheduler

/-!
# The client's cron history cache

What the client daemon retains of the fleet's scheduler documents: per system the latest summary
and the outcome of the last read, per job a ring of terminal records, and over all of them one
ceiling. The two limits come from configuration and are clamped when the cache is made.
-/

namespace Gregg

/-- Default per-job cache depth. -/
def DEFAULT_CACHE_HISTORY : ℕ := 25

/-- Hard maximum for the per-job cache depth. -/
def MAX_CACHE_HISTORY : ℕ := 50

/-- Hard global ceiling on retained terminal records. -/
def MAX_TOTAL_CRON_RECORDS : ℕ := 4096

/-- Hard maximum on retained job histories per system. -/
def MAX_CRON_JOBS_PER_SYSTEM : ℕ := 64

/-- `value.clamp(low, high)`. -/
def clamp (value low high : ℕ) : ℕ :=
  max low (min value high)

/-- Whether a remote daemon serves the scheduler routes. -/
inductive CronCapability where
  | unknown
  | unsupported
  | supported
  deriving DecidableEq

/-- Why the most recent scheduler read did not produce data. -/
inductive CronFetchError where
  | transport (message : String)
  | bodyTooLarge
  | invalid (message : String)
  | incoherent (message : String)
  deriving DecidableEq

/-- One retained terminal record, tagged with the epoch it was observed under. -/
structure CronRecord where
  epoch : SchedulerEpochV2
  record : SchedulerRunRecordV2
  deriving DecidableEq

/-- A record's `(epoch, sequence)` identity. -/
structure RecordId where
  startedAtUnixMs : ℕ
  nonce : ℕ
  sequence : ℕ
  deriving DecidableEq

def CronRecord.identity (record : CronRecord) : RecordId where
  startedAtUnixMs := record.epoch.startedAtUnixMs
  nonce := record.epoch.nonce
  sequence := record.record.sequence

/-- Cached history for one job, oldest first. -/
structure CronJobCache where
  records : List CronRecord
  deriving DecidableEq

namespace CronJobCache

def empty : CronJobCache where
  records := []

/-- Whether a record with this identity is already retained. -/
def contains (cache : CronJobCache) (id : RecordId) : Bool :=
  cache.records.any fun record => record.identity = id

/-- One turn of the record loop: the cache, and whether anything was added so far. -/
def mergeRecord (epoch : SchedulerEpochV2) (merged : CronJobCache × Bool)
    (record : SchedulerRunRecordV2) : CronJobCache × Bool :=
  let candidate : CronRecord := { epoch, record }
  if merged.1.contains candidate.identity then merged
  else ({ records := merged.1.records ++ [candidate] }, true)

def merge (cache : CronJobCache) (epoch : SchedulerEpochV2)
    (records : List SchedulerRunRecordV2) : CronJobCache × Bool :=
  records.foldl (mergeRecord epoch) (cache, false)

/-- Depth eviction drops from the front. -/
def truncate (cache : CronJobCache) (perJob : ℕ) : CronJobCache where
  records := cache.records.drop (cache.records.length - perJob)

end CronJobCache

/-- The operator-visible scheduler state of one system. -/
structure CronRenderedState where
  capability : CronCapability
  identity : Option (SchedulerEpochV2 × ℕ)
  jobs : Option (List SchedulerJobV2)
  lastError : Option CronFetchError
  deriving BEq

/-- Everything the client daemon knows about one system's scheduler. -/
structure CronSystemState where
  capability : CronCapability
  summary : Option SchedulerSummaryV2
  /-- Remote lifetime of the most recently applied history document. -/
  epoch : Option SchedulerEpochV2
  historyRevision : Option ℕ
  lastAttemptAtUnixMs : Option ℕ
  lastSuccessAtUnixMs : Option ℕ
  lastError : Option CronFetchError
  jobs : SortedMap String CronJobCache

namespace CronSystemState

/-- A system that has never been asked about. -/
def unknown : CronSystemState where
  capability := .unknown
  summary := none
  epoch := none
  historyRevision := none
  lastAttemptAtUnixMs := none
  lastSuccessAtUnixMs := none
  lastError := none
  jobs := .empty

def applySummary (state : CronSystemState) (summary : SchedulerSummaryV2) (nowUnixMs : ℕ) :
    CronSystemState :=
  { state with
    capability := .supported
    lastAttemptAtUnixMs := some nowUnixMs
    lastSuccessAtUnixMs := some nowUnixMs
    lastError := none
    summary := some summary }

def renderedState (state : CronSystemState) : CronRenderedState where
  capability := state.capability
  identity := state.summary.map fun summary => (summary.epoch, summary.historyRevision)
  jobs := state.summary.map (·.jobs)
  lastError := state.lastError

def markUnsupported (state : CronSystemState) : CronSystemState :=
  { state with capability := .unsupported, lastError := none, summary := none }

def markFailed (state : CronSystemState) (error : CronFetchError) (nowUnixMs : ℕ) :
    CronSystemState :=
  { state with lastError := some error, lastAttemptAtUnixMs := some nowUnixMs }

/-- One turn of the job loop of `apply_history`. -/
def mergeJob (epoch : SchedulerEpochV2) (perJob : ℕ)
    (merged : SortedMap String CronJobCache × Bool) (job : SchedulerJobHistoryV2) :
    SortedMap String CronJobCache × Bool :=
  if job.name.isEmpty || job.name.utf8ByteSize > MAX_SCHEDULER_JOB_NAME_BYTES then merged
  else
    let entry := ((merged.1.find? job.name).getD .empty).merge epoch job.records
    (merged.1.upsert job.name fun _ => entry.1.truncate perJob, merged.2 || entry.2)

/-- Drop job histories for names the remote no longer serves, and the first ones past the
ceiling. -/
def evictStaleJobs (state : CronSystemState) : CronSystemState :=
  match state.summary with
  | none => state
  | some summary =>
      let live := summary.jobs.map (·.name)
      let kept :=
        if state.jobs.keys.all (live.contains ·) then state.jobs
        else state.jobs.retain (live.contains ·)
      { state with jobs := kept.keepLast MAX_CRON_JOBS_PER_SYSTEM }

/-- Merge a history document into the cache: the state, and whether anything was added. -/
def applyHistory (state : CronSystemState) (history : SchedulerHistoryV2) (perJob : ℕ) :
    CronSystemState × Bool :=
  let merged := history.jobs.foldl (mergeJob history.epoch perJob) (state.jobs, false)
  (evictStaleJobs
    { state with
      epoch := some history.epoch
      historyRevision := some history.historyRevision
      jobs := merged.1 }, merged.2)

/-- Records retained for one job, oldest first. -/
def jobRecords (state : CronSystemState) (name : String) : List CronRecord :=
  ((state.jobs.find? name).map (·.records)).getD []

def recordCount (state : CronSystemState) : ℕ :=
  state.jobs.sum (·.records.length)

end CronSystemState

/-- The fleet-wide, memory-only cron history cache. -/
structure CronCache where
  perJob : ℕ
  totalCap : ℕ
  /-- Current total of retained records. -/
  total : ℕ
  /-- Per-system scheduler state, keyed by the stable system id. -/
  systems : SortedMap String CronSystemState

/-- Identity of the next record eviction would drop. -/
structure OldestRecord where
  finishedUnixMs : ℕ
  system : String
  job : String
  deriving DecidableEq

/-- The derived order: oldest timestamp first, ties broken by `(system id, job name)`. -/
def OldestRecord.le (left right : OldestRecord) : Bool :=
  left.finishedUnixMs < right.finishedUnixMs ||
    (left.finishedUnixMs == right.finishedUnixMs &&
      (left.system < right.system || (left.system == right.system && left.job ≤ right.job)))

namespace CronCache

def new (perJob totalCap : ℕ) : CronCache where
  perJob := clamp perJob 1 MAX_CACHE_HISTORY
  totalCap := clamp totalCap 1 MAX_TOTAL_CRON_RECORDS
  total := 0
  systems := .empty

def system (cache : CronCache) (systemId : String) : Option CronSystemState :=
  cache.systems.find? systemId

/-- Change a system's state, created on first use. -/
def systemMut (cache : CronCache) (systemId : String)
    (change : CronSystemState → CronSystemState) : CronCache :=
  { cache with systems := cache.systems.upsert systemId fun state => change (state.getD .unknown) }

/-- Recount retained records from scratch. -/
def recount (cache : CronCache) : CronCache :=
  { cache with total := cache.systems.sum (·.recordCount) }

/-- Forget everything known about one system, and whether anything was. -/
def resetSystem (cache : CronCache) (systemId : String) : CronCache × Bool :=
  if (cache.system systemId).isSome then
    (recount { cache with systems := cache.systems.retain (· ≠ systemId) }, true)
  else (cache, false)

/-- Drop every system that is no longer in the fleet. -/
def retainSystems (cache : CronCache) (live : List String) : CronCache :=
  recount { cache with systems := cache.systems.retain (live.contains ·) }

def applySummary (cache : CronCache) (systemId : String) (summary : SchedulerSummaryV2)
    (nowUnixMs : ℕ) : CronCache :=
  cache.systemMut systemId (·.applySummary summary nowUnixMs)

/-- The heads of all rings, in the order the scan meets them. -/
def heads (cache : CronCache) : List OldestRecord :=
  cache.systems.entries.flatMap fun system =>
    system.2.jobs.entries.filterMap fun job =>
      job.2.records.head?.map fun head =>
        { finishedUnixMs := head.record.finishedUnixMs, system := system.1, job := job.1 }

def older (best : Option OldestRecord) (candidate : OldestRecord) : Option OldestRecord :=
  match best with
  | some current => if current.le candidate then some current else some candidate
  | none => some candidate

/-- The retained record that eviction would drop next. -/
def oldestRecord (cache : CronCache) : Option OldestRecord :=
  cache.heads.foldl older none

/-- `job.records.remove(0)` for the victim's ring, and the counter one less. -/
def evict (cache : CronCache) (victim : OldestRecord) : CronCache :=
  { cache with
    systems := cache.systems.modify victim.system fun system =>
      { system with
        jobs := system.jobs.modify victim.job fun job => { records := job.records.tail } }
    total := cache.total - 1 }

/-- The loop of `enforce_total`, for at most `turns` turns. -/
def enforceWithin : ℕ → CronCache → CronCache
  | 0, cache => cache
  | turns + 1, cache =>
      if cache.total > cache.totalCap then
        match cache.oldestRecord with
        | none => cache.recount
        | some victim => enforceWithin turns (cache.evict victim)
      else cache

/-- Drop oldest-first until the global ceiling is satisfied. Each turn lowers the counter by one. -/
def enforceTotal (cache : CronCache) : CronCache :=
  enforceWithin (cache.total - cache.totalCap) cache

/-- Apply a history document for one system, then enforce the global bound: the cache, and whether
anything was added. -/
def applyHistory (cache : CronCache) (systemId : String) (history : SchedulerHistoryV2) :
    CronCache × Bool :=
  let merged :=
    cache.systemMut systemId fun state => (state.applyHistory history cache.perJob).1
  let state := (cache.system systemId).getD .unknown
  (enforceTotal (recount merged), (state.applyHistory history cache.perJob).2)

end CronCache

end Gregg
