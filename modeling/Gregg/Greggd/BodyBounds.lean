import Gregg.Protocol.SchedulerJson
import Gregg.Greggd.Publication
import Gregg.Greggd.Revisions
import Mathlib.Algebra.Group.Action.Defs
import Mathlib.Algebra.Order.BigOperators.Group.List

/-!
# The scheduler bodies and the client's caps

Every number, name and output of a history is bounded, so that a history fits its cap whatever ran.
A summary shows the name and the schedule of every job, and escaping makes them longer:
`summaryBytes` bounds what the summaries of a configuration grow to, and `idleBytes` is what all of
them take at least.
-/

namespace Gregg

open Json (byteLen)

/-- The bytes a gate adds to a row. -/
def ScheduledJobConfig.gateBytes (job : ScheduledJobConfig) (floats : FloatText) : ℕ :=
  job.maxLoad.elim 0 fun threshold =>
    46 + textEscapedLen job.effectiveLoadWindow.toList + (floats.json threshold).size +
      floats.width

/-- The bytes of the longest row of a job that is not running. Only a gated job shows a retry. -/
def ScheduledJobConfig.rowBytes (job : ScheduledJobConfig) (floats : FloatText)
    (limit : ℕ) : ℕ :=
  137 + textEscapedLen job.name.toList + textEscapedLen job.schedule.toList +
    (if job.maxLoad.isSome then 42 else 0) + job.gateBytes floats + if limit = 0 then 0 else 251

/-- What a row grows by at most when the job runs, which one job does at a time. -/
def RUNNING_BYTES : ℕ := 36

/-- The bytes of the longest summary of a configuration. -/
def Config.summaryBytes (config : Config) (floats : FloatText) : ℕ :=
  193 + RUNNING_BYTES + max 2 (1 + (config.jobs.map fun job =>
    job.rowBytes floats config.effectiveSchedulerHistoryLimit + 1).sum)

/-- A row that shows a configured job, whatever the state of the job. -/
structure SchedulerJobV2.RowOf (job : ScheduledJobConfig) (row : SchedulerJobV2) : Prop where
  name : row.name = job.name
  schedule : row.schedule = job.schedule
  nextDue : row.nextDueUnixMs ≤ u64Max
  load : ∀ gate ∈ row.load, gate.window = job.effectiveLoadWindow ∧
    job.maxLoad = some gate.threshold
  pendingSince : ∀ since ∈ row.pendingSinceUnixMs, since ≤ u64Max
  nextRetry : ∀ retry ∈ row.nextRetryUnixMs, retry ≤ u64Max
  runningSince : ∀ since ∈ row.runningSinceUnixMs, since ≤ u64Max
  gated : row.nextRetryUnixMs.isSome → job.maxLoad.isSome
  running : row.runningSinceUnixMs.isSome → row.nextRetryUnixMs = none ∧ row.state = .running

/-- The numbers of a terminal record are within the types of their fields, and a child that exited
left a code or a signal. -/
structure TerminalRecord.Typed (record : TerminalRecord) : Prop where
  scheduled : record.scheduledUnixMs ≤ u64Max
  started : ∀ started ∈ record.startedUnixMs, started ≤ u64Max
  finished : record.finishedUnixMs ≤ u64Max
  delay : record.delayMs ≤ u64Max
  exitCode : ∀ code ∈ record.exitCode, IsI32 code
  signal : ∀ signal ∈ record.signal, signal < 2 ^ 32
  duration : ∀ duration ∈ record.durationMs, duration ≤ u64Max
  oneStatus : record.exitCode = none ∨ record.signal = none

/-- A record that the daemon makes: of a child that was waited for, or of an occurrence that expired
or could not be started. -/
inductive Recorded : TerminalRecord → SchedulerOutcomeV2 → Prop where
  | finished {jobCount : ℕ} (child : RunningChild jobCount) (completion : ChildCompletion) :
      Recorded (finishedRecord child completion) (waitOutcome completion.status).1
  | withoutChild (occurrence scheduledUnixMs finishedUnixMs delayMs : ℕ) (coalesced : Bool)
      {outcome : SchedulerOutcomeV2} (childless : childCapable outcome = false) :
      Recorded (.withoutChild occurrence scheduledUnixMs finishedUnixMs delayMs coalesced) outcome

/-- The states of an engine show numbers within their types, and gate decisions of their own
jobs. -/
structure Engine.Typed {configs : List ScheduledJobConfig} (engine : Engine configs)
    (running : Option (Fin configs.length × ℕ)) : Prop where
  nextDue : ∀ index, unixMillis (engine.states index).nextDue ≤ u64Max
  gate : ∀ index, ∀ gate ∈ (engine.states index).lastGate,
    gate.window = (configs.get index).effectiveLoadWindow ∧
      (configs.get index).maxLoad = some gate.threshold
  pending : ∀ index, ∀ pending ∈ (engine.states index).pending,
    pending.sinceUnixMs ≤ u64Max ∧ pending.retryAtUnixMs ≤ u64Max
  running : ∀ active ∈ running, active.2 ≤ u64Max

/-- What the daemon asks of its observer: records of any child and any output, and the rows of an
engine whose jobs are in any states, of which at most one runs. -/
def ObserverEvent.Typed {jobs : List ScheduledJobConfig} : ObserverEvent jobs.length → Prop
  | .record _ terminal outcome => terminal.Typed ∧ Recorded terminal outcome
  | .publish rows generatedAtUnixMs _ => generatedAtUnixMs ≤ u64Max ∧
      ∃ (engine : Engine jobs) (running : Option (Fin jobs.length × ℕ)),
        engine.Typed running ∧ rows = engine.publishedJob running

structure SchedulerEpochV2.Typed (epoch : SchedulerEpochV2) : Prop where
  started : epoch.startedAtUnixMs ≤ u64Max
  nonce : epoch.nonce ≤ u64Max

section Sizes

variable {floats : FloatText} {job : ScheduledJobConfig} {row : SchedulerJobV2} {limit : ℕ}

theorem size_loadGate_le {gate : SchedulerLoadGateV2} (window : gate.window =
      job.effectiveLoadWindow) (threshold : job.maxLoad = some gate.threshold) :
    (gate.toJson floats).size + 8 ≤ job.gateBytes floats := by
  have observed := optionalSize_map_le "observed" floats.json
    fun value (_ : value ∈ gate.observed) => floats.size_json_le
  simp only [keySizes] at observed
  rw [SchedulerLoadGateV2.size_toJson, size_string, window, ScheduledJobConfig.gateBytes,
    threshold, Option.elim_some]
  omega

/-- The state of a row with its retry and its start, of which no row has both. -/
theorem size_stateFields_le (rowOf : row.RowOf job) :
    (Json.string row.state.name).size +
      Json.optionalSize "next_retry_unix_ms" (row.nextRetryUnixMs.map .nat) +
      Json.optionalSize "running_since_unix_ms" (row.runningSinceUnixMs.map .nat) ≤
    18 + (if job.maxLoad.isSome then 42 else 0) +
      if row.runningSinceUnixMs.isSome then RUNNING_BYTES else 0 := by
  have extra : RUNNING_BYTES = 36 := rfl
  have nextRetry := optionalSize_map_le "next_retry_unix_ms" .nat
    fun retry isRetry => size_nat_le_of_u64 (rowOf.nextRetry retry isRetry)
  have runningSince := optionalSize_map_le "running_since_unix_ms" .nat
    fun since isSince => size_nat_le_of_u64 (rowOf.runningSince since isSince)
  simp only [keySizes] at nextRetry runningSince
  by_cases isRunning : row.runningSinceUnixMs.isSome
  · rcases rowOf.running isRunning with ⟨noRetry, isState⟩
    have state : (Json.string SchedulerJobStateV2.running.name).size = 9 := by decide
    rw [if_pos isRunning, noRetry, isState, Option.map_none, Json.optionalSize_none, state]
    omega
  · have state := size_state_le row.state
    rw [if_neg isRunning, Option.not_isSome_iff_eq_none.mp isRunning, Option.map_none,
      Json.optionalSize_none]
    by_cases isDeferred : row.nextRetryUnixMs.isSome
    · rw [if_pos (rowOf.gated isDeferred)]
      omega
    · rw [Option.not_isSome_iff_eq_none.mp isDeferred, Option.map_none, Json.optionalSize_none]
      omega

/-- The rows of an engine are rows of its jobs. -/
theorem rowOf_publishedJob {configs : List ScheduledJobConfig} {engine : Engine configs}
    {running : Option (Fin configs.length × ℕ)} (typed : engine.Typed running)
    (index : Fin configs.length) :
    (engine.publishedJob running index).RowOf (configs.get index) where
  name := rfl
  schedule := rfl
  nextDue := typed.nextDue index
  load := typed.gate index
  pendingSince := by
    intro since isSince
    rcases Option.map_eq_some_iff.mp isSince with ⟨pending, waiting, rfl⟩
    exact (typed.pending index pending waiting).1
  nextRetry := by
    intro retry isRetry
    simp only [Engine.publishedJob, Option.mem_def, Option.ite_none_right_eq_some,
      Option.map_eq_some_iff] at isRetry
    rcases isRetry with ⟨-, pending, waiting, rfl⟩
    exact (typed.pending index pending waiting).2
  runningSince := by
    intro since isSince
    rcases Option.map_eq_some_iff.mp isSince with ⟨active, isActive, rfl⟩
    exact typed.running active (Option.filter_eq_some_iff.mp isActive).1
  gated := by
    intro isRetry
    rcases Option.isSome_iff_exists.mp isRetry with ⟨retry, isRetry⟩
    simp only [Engine.publishedJob, Option.ite_none_right_eq_some, Bool.and_eq_true] at isRetry
    rcases Option.isSome_iff_exists.mp isRetry.1.1.1 with ⟨gate, decided⟩
    rw [(typed.gate index gate decided).2]
    rfl
  running := by
    intro isRunning
    simp only [Engine.publishedJob, Option.isSome_map] at isRunning ⊢
    simp [isRunning, jobState, Option.isNone_eq_false_iff.mpr isRunning]

/-- A row is as long as its job allows, and somewhat longer when the job runs. -/
theorem size_row_le (rowOf : row.RowOf job) (disabled : limit = 0 → row.last = none)
    (last : ∀ last ∈ row.last, last.Typed) :
    (row.toJson floats).size ≤ job.rowBytes floats limit +
      if row.runningSinceUnixMs.isSome then RUNNING_BYTES else 0 := by
  have nextDue := size_nat_le_of_u64 rowOf.nextDue
  have load : Json.optionalSize "load" (row.load.map (·.toJson floats)) ≤
      job.gateBytes floats := by
    cases gate : row.load with
    | none => exact Nat.zero_le _
    | some decided =>
        rcases rowOf.load decided gate with ⟨window, threshold⟩
        have bound : (decided.toJson floats).size + 8 ≤ job.gateBytes floats :=
          size_loadGate_le window threshold
        rw [Option.map_some, Json.optionalSize_some]
        simp only [keySizes]
        omega
  have pendingSince := optionalSize_map_le "pending_since_unix_ms" .nat
    fun since isSince => size_nat_le_of_u64 (rowOf.pendingSince since isSince)
  have lastRun : Json.optionalSize "last" (row.last.map (·.toJson)) ≤
      if limit = 0 then 0 else 251 := by
    split
    · rename_i isDisabled
      rw [disabled isDisabled, Option.map_none, Json.optionalSize_none]
    · have shown := optionalSize_map_le "last" (fun last : SchedulerRunSummaryV2 => last.toJson)
        fun shown isShown => SchedulerRunSummaryV2.size_toJson_le (last shown isShown)
      simpa only [keySizes] using shown
  have state := size_stateFields_le rowOf
  simp only [keySizes] at pendingSince
  rw [SchedulerJobV2.size_toJson, size_string, size_string, rowOf.name, rowOf.schedule,
    ScheduledJobConfig.rowBytes]
  omega

theorem sum_map_le {Item : Type} {items : List Item} {size : Item → ℕ} {bound : ℕ}
    (each : ∀ item ∈ items, size item ≤ bound) : (items.map size).sum ≤ items.length * bound := by
  have total := List.sum_le_card_nsmul (items.map size) bound (by
    intro cost isCost
    rcases List.mem_map.mp isCost with ⟨item, isItem, rfl⟩
    exact each item isItem)
  rwa [List.length_map, smul_eq_mul] at total

theorem sum_map_ofFn {Item : Type} {count : ℕ} (items : Fin count → Item) (size : Item → ℕ) :
    ((List.ofFn items).map size).sum = ((List.finRange count).map fun index =>
      size (items index)).sum := by
  rw [List.ofFn_eq_map, List.map_map]
  rfl

/-- One job runs at a time. -/
theorem sum_running_le {configs : List ScheduledJobConfig} (engine : Engine configs)
    (running : Option (Fin configs.length × ℕ)) :
    ((List.finRange configs.length).map fun index =>
      if (engine.publishedJob running index).runningSinceUnixMs.isSome then RUNNING_BYTES
      else 0).sum ≤ RUNNING_BYTES := by
  cases running with
  | none => simp [Engine.publishedJob]
  | some active =>
      rw [List.sum_map_eq_nsmul_single active.1,
        List.count_eq_one_of_mem (List.nodup_finRange _) (List.mem_finRange _), one_nsmul]
      · split
        · exact Nat.le_refl _
        · exact Nat.zero_le _
      · intro other isOther _
        simp [Engine.publishedJob, isOther.symm]

theorem sum_jobs {jobs : List ScheduledJobConfig} (size : ScheduledJobConfig → ℕ) :
    (jobs.map size).sum = ((List.finRange jobs.length).map fun index =>
      size (jobs.get index)).sum := by
  rw [← sum_map_ofFn, List.ofFn_get]

/-- A history of at most the retained number of records. -/
theorem size_history_le {history : SchedulerJobHistoryV2}
    (name : history.name = job.name) (nameChars : job.name.length ≤ MAX_JOB_NAME_CHARS)
    (retained : history.records.length ≤ MAX_SCHEDULER_HISTORY_LIMIT)
    (records : ∀ record ∈ history.records, record.Typed) :
    history.toJson.size ≤ 14450 := by
  have limit : MAX_SCHEDULER_HISTORY_LIMIT = 10 := rfl
  have chars : MAX_JOB_NAME_CHARS = 96 := rfl
  have nameSize : textEscapedLen job.name.toList ≤ job.name.toList.length * 6 :=
    sum_map_le fun character _ => jsonEscapedLen_le character
  have recordSizes : ((history.records.map (·.toJson)).map fun item => item.size + 1).sum ≤
      history.records.length * 1385 := by
    rw [List.map_map]
    apply sum_map_le
    intro record isRecord
    exact Nat.succ_le_succ (SchedulerRunRecordV2.size_toJson_le (records record isRecord))
  rw [String.length_toList] at nameSize
  rw [SchedulerJobHistoryV2.size_toJson, size_string, name, Json.size_array]
  omega

end Sizes

/-- An exit status comes from a child that was waited for. -/
theorem Recorded.exited {record : TerminalRecord} {outcome : SchedulerOutcomeV2}
    (recorded : Recorded record outcome)
    (exited : record.exitCode.isSome ∨ record.signal.isSome) :
    outcome = .success ∨ outcome = .failed := by
  cases recorded with
  | finished child completion =>
      cases status : completion.status with
      | ok status =>
          simp only [waitOutcome]
          split
          · exact .inl rfl
          · exact .inr rfl
      | error error => simp [finishedRecord, waitOutcome, status] at exited
  | withoutChild => simp [TerminalRecord.withoutChild] at exited

/-- The record of an occurrence, whatever sequence it is assigned. -/
theorem TerminalRecord.Typed.wire {record : TerminalRecord} {outcome : SchedulerOutcomeV2}
    (typed : record.Typed) (recorded : Recorded record outcome) {sequence : ℕ}
    (bounded : sequence ≤ u64Max) :
    (SchedulerObserver.wireRecord sequence record outcome).Typed where
  summary :=
    { sequence := bounded
      scheduled := typed.scheduled
      finished := typed.finished
      exitCode := typed.exitCode
      signal := typed.signal
      duration := typed.duration
      delay := typed.delay
      oneStatus := typed.oneStatus
      exited := recorded.exited }
  started := typed.started
  stdout := record.stdout.textEscapedLen_intoWire_le
  stderr := record.stderr.textEscapedLen_intoWire_le

namespace ObservedScheduler

variable {jobCount : ℕ} {floats : FloatText} {config : Config}
  {state : ObservedScheduler config.jobs.length} {event : ObserverEvent config.jobs.length}

/-- What the observer of a configuration maintains for its two bodies. -/
structure Bounded (floats : FloatText) (config : Config)
    (state : ObservedScheduler config.jobs.length) : Prop where
  epoch : state.observer.epoch.Typed
  limit : state.observer.limit = config.effectiveSchedulerHistoryLimit
  nextSequence : state.observer.nextSequence ≤ u64Max
  historyRevision : state.observer.historyRevision ≤ u64Max
  names : ∀ index, (state.observer.histories index).name = (config.jobs.get index).name
  retained : ∀ index, (state.observer.histories index).records.length ≤ state.observer.limit
  records : ∀ index, ∀ record ∈ (state.observer.histories index).records, record.Typed
  published : ∀ publication ∈ state.published,
    (publication.summary.toJson floats).size ≤ config.summaryBytes floats ∧
      publication.history.toJson.size ≤ MAX_SCHEDULER_HISTORY_BODY_BYTES

/-- The last run a row shows is a retained record, and none is retained under a limit of zero. -/
theorem Bounded.lastSummary (bounded : state.Bounded floats config)
    (index : Fin config.jobs.length) :
    (state.observer.limit = 0 → state.observer.lastSummary index = none) ∧
      ∀ last ∈ state.observer.lastSummary index, last.Typed := by
  constructor
  · intro isDisabled
    have empty := bounded.retained index
    rw [isDisabled, Nat.le_zero, List.length_eq_zero_iff] at empty
    rw [SchedulerObserver.lastSummary, empty, List.getLast?_nil, Option.map_none]
  · intro last isLast
    rcases Option.map_eq_some_iff.mp isLast with ⟨record, isRecord, rfl⟩
    exact (bounded.records index record (List.mem_of_getLast? isRecord)).summary

theorem Bounded.size_row_le (bounded : state.Bounded floats config)
    {engine : Engine config.jobs} {running : Option (Fin config.jobs.length × ℕ)}
    (typed : engine.Typed running) (index : Fin config.jobs.length) :
    (SchedulerJobV2.toJson floats { engine.publishedJob running index with
        last := state.observer.lastSummary index }).size ≤
      (config.jobs.get index).rowBytes floats config.effectiveSchedulerHistoryLimit +
        if (engine.publishedJob running index).runningSinceUnixMs.isSome then RUNNING_BYTES
        else 0 := by
  have last := bounded.lastSummary index
  rw [bounded.limit] at last
  have shown := rowOf_publishedJob typed index
  exact Gregg.size_row_le ⟨shown.name, shown.schedule, shown.nextDue, shown.load,
    shown.pendingSince, shown.nextRetry, shown.runningSince, shown.gated, shown.running⟩
    last.1 last.2

theorem Bounded.summary_le (bounded : state.Bounded floats config)
    {engine : Engine config.jobs} {running : Option (Fin config.jobs.length × ℕ)}
    (typed : engine.Typed running) {generatedAtUnixMs : ℕ}
    (generated : generatedAtUnixMs ≤ u64Max) :
    (SchedulerSummaryV2.toJson floats
      { schemaVersion := 2
        generatedAtUnixMs
        epoch := state.observer.epoch
        historyRevision := state.observer.historyRevision
        jobs := state.rowsOf (engine.publishedJob running) }).size ≤
      config.summaryBytes floats := by
  have generatedSize := size_nat_le_of_u64 generated
  have epoch := SchedulerEpochV2.size_toJson_le bounded.epoch.started bounded.epoch.nonce
  have revision := size_nat_le_of_u64 bounded.historyRevision
  have version : (Json.nat 2).size = 1 := by decide
  have rowSizes : (((state.rowsOf (engine.publishedJob running)).map (·.toJson floats)).map
      fun item => item.size + 1).sum ≤ (config.jobs.map fun job =>
        job.rowBytes floats config.effectiveSchedulerHistoryLimit + 1).sum + RUNNING_BYTES := by
    rw [List.map_map, rowsOf, sum_map_ofFn, sum_jobs]
    calc
      _ ≤ ((List.finRange config.jobs.length).map fun index =>
          ((config.jobs.get index).rowBytes floats config.effectiveSchedulerHistoryLimit + 1) +
            if (engine.publishedJob running index).runningSinceUnixMs.isSome then RUNNING_BYTES
            else 0).sum := by
        apply List.sum_le_sum
        intro index _
        rw [Nat.add_right_comm]
        exact Nat.succ_le_succ (bounded.size_row_le typed index)
      _ = _ := List.sum_map_add
      _ ≤ _ := Nat.add_le_add_left (sum_running_le engine running) _
  rw [SchedulerSummaryV2.size_toJson, Json.size_array, Config.summaryBytes]
  dsimp only
  omega

theorem Bounded.wireHistory_le (bounded : state.Bounded floats config)
    (accepted : config.Accepted) (index : Fin config.jobs.length) :
    (state.observer.wireHistory index).toJson.size ≤ 14450 := by
  have retained := Nat.le_trans (bounded.retained index)
    (bounded.limit.trans_le accepted.historyLimit)
  apply size_history_le (bounded.names index)
    (accepted.jobs _ (List.get_mem config.jobs index)).nameChars
  · simp only [SchedulerObserver.wireHistory]
    split
    · exact Nat.zero_le _
    · exact retained
  · simp only [SchedulerObserver.wireHistory]
    split
    · simp
    · exact bounded.records index

theorem Bounded.history_le (bounded : state.Bounded floats config) (accepted : config.Accepted)
    {generatedAtUnixMs : ℕ} (generated : generatedAtUnixMs ≤ u64Max) :
    (SchedulerHistoryV2.toJson
      { schemaVersion := 2
        generatedAtUnixMs
        epoch := state.observer.epoch
        historyRevision := state.observer.historyRevision
        jobs := List.ofFn state.observer.wireHistory }).size ≤
      MAX_SCHEDULER_HISTORY_BODY_BYTES := by
  have generatedSize := size_nat_le_of_u64 generated
  have epoch := SchedulerEpochV2.size_toJson_le bounded.epoch.started bounded.epoch.nonce
  have revision := size_nat_le_of_u64 bounded.historyRevision
  have version : (Json.nat 2).size = 1 := by decide
  have historySizes : (((List.ofFn state.observer.wireHistory).map (·.toJson)).map fun item =>
      item.size + 1).sum ≤ config.jobs.length * 14451 := by
    have each : ∀ history ∈ List.ofFn state.observer.wireHistory,
        history.toJson.size + 1 ≤ 14451 := by
      intro history isHistory
      rcases List.mem_ofFn.mp isHistory with ⟨index, rfl⟩
      exact Nat.succ_le_succ (bounded.wireHistory_le accepted index)
    have total := sum_map_le each
    rw [List.length_ofFn] at total
    rwa [List.map_map]
  have jobCount := accepted.jobCount
  have jobs : MAX_JOBS = 64 := rfl
  have cap : MAX_SCHEDULER_HISTORY_BODY_BYTES = 1048576 := rfl
  rw [SchedulerHistoryV2.size_toJson, Json.size_array]
  dsimp only
  omega

theorem Bounded.observe (bounded : state.Bounded floats config) (accepted : config.Accepted)
    (typed : event.Typed) : (state.observe event).Bounded floats config := by
  cases event with
  | record index record outcome =>
      have moved := satAdd_le state.observer.historyRevision 1
      refine ⟨?_, ?_, ?_, ?_, ?_, ?_, ?_, bounded.published⟩
      · exact SchedulerObserver.recordTerminal_epoch.symm ▸ bounded.epoch
      · exact SchedulerObserver.recordTerminal_limit.trans bounded.limit
      · exact SchedulerObserver.recordTerminal_nextSequence.trans_le (Nat.min_le_right _ _)
      · exact recordTerminal_historyRevision.trans_le (Nat.min_le_right _ _)
      · intro other
        exact (SchedulerObserver.recordTerminal_histories_name other).trans (bounded.names other)
      · intro other
        exact (SchedulerObserver.recordTerminal_records_length_le bounded.retained other).trans_eq
          SchedulerObserver.recordTerminal_limit.symm
      · exact SchedulerObserver.recordTerminal_records_forall bounded.records
          (typed.1.wire typed.2 bounded.nextSequence)
  | publish rows generatedAtUnixMs serializes =>
      rcases typed with ⟨generated, engine, running, engineTyped, rfl⟩
      rcases observe_publish state _ generatedAtUnixMs serializes with
        ⟨lastPublished, added, observed, isAdded⟩
      rw [observed]
      refine ⟨bounded.epoch, bounded.limit, bounded.nextSequence, bounded.historyRevision,
        bounded.names, bounded.retained, bounded.records, ?_⟩
      intro publication published
      rcases List.mem_append.mp published with earlier | new
      · exact bounded.published publication earlier
      · rcases isAdded with rfl | rfl
        · cases new
        · rw [List.mem_singleton.mp new]
          exact ⟨bounded.summary_le engineTyped generated, bounded.history_le accepted generated⟩

theorem Bounded.after (bounded : state.Bounded floats config) (accepted : config.Accepted)
    {events : List (ObserverEvent config.jobs.length)} (typed : ∀ event ∈ events, event.Typed) :
    (state.after events).Bounded floats config := by
  induction events generalizing state with
  | nil => exact bounded
  | cons event rest ih =>
      rw [List.forall_mem_cons] at typed
      exact ih (bounded.observe accepted typed.1) typed.2

section Idle

/-- The row of a job that never ran and is not due. -/
def idleRow (job : ScheduledJobConfig) : SchedulerJobV2 where
  name := job.name
  schedule := job.schedule
  nextDueUnixMs := 60000
  state := .idle
  load := none
  pendingSinceUnixMs := none
  nextRetryUnixMs := none
  runningSinceUnixMs := none
  last := none

/-- An engine whose jobs are due in a minute and never ran. -/
def idleEngine (jobs : List ScheduledJobConfig) : Engine jobs where
  states := fun _ =>
    { schedule := ⟨1, 1, 2, 2, 1, true, true⟩, nextDue := 60000000000, pending := none
      lastGate := none, made := 0 }
  observer := .new (fun index => (jobs.get index).name) 0 ⟨0, 0⟩

theorem publishedJob_idleEngine {jobs : List ScheduledJobConfig} (index : Fin jobs.length) :
    (idleEngine jobs).publishedJob none index = idleRow (jobs.get index) := rfl

theorem typed_idleEngine (jobs : List ScheduledJobConfig) : (idleEngine jobs).Typed none where
  nextDue := by
    intro index
    change unixMillis 60000000000 ≤ u64Max
    decide
  gate := by simp [idleEngine]
  pending := by simp [idleEngine]
  running := by simp

/-- The first publication of an observer hands out the pair of its rows. -/
theorem published_first {state : ObservedScheduler jobCount}
    (unpublished : state.observer.lastPublished = none) (rows : Fin jobCount → SchedulerJobV2)
    (generatedAtUnixMs : ℕ) :
    SchedulerPublication.of generatedAtUnixMs state.observer.epoch
      state.observer.historyRevision (state.rowsOf rows) (List.ofFn state.observer.wireHistory) ∈
      (state.observe (.publish rows generatedAtUnixMs true)).published := by
  simp [observe, SchedulerObserver.publish, unpublished]

/-- The rows of a pair are a part of its summary. -/
theorem sum_rows_le (floats : FloatText) (state : ObservedScheduler jobCount)
    (rows : Fin jobCount → SchedulerJobV2)
    (shown : ∀ index, state.observer.lastSummary index = (rows index).last)
    (generatedAtUnixMs : ℕ) :
    ((List.finRange jobCount).map fun index => ((rows index).toJson floats).size + 1).sum ≤
      (SchedulerSummaryV2.toJson floats (SchedulerPublication.of generatedAtUnixMs
        state.observer.epoch state.observer.historyRevision (state.rowsOf rows)
        (List.ofFn state.observer.wireHistory)).summary).size := by
  have sameRows : state.rowsOf rows = List.ofFn rows := by
    rw [rowsOf]
    refine congrArg List.ofFn (funext fun index => ?_)
    rw [shown index]
  rw [SchedulerPublication.of, sameRows, SchedulerSummaryV2.size_toJson, Json.size_array]
  dsimp only
  rw [List.map_map, ← sum_map_ofFn rows fun row => (row.toJson floats).size + 1]
  simp only [Function.comp_def]
  omega

/-- A client reads both bodies of a pair. -/
def Fits (floats : FloatText) (publication : SchedulerPublication) : Prop :=
  (publication.summary.toJson floats).size ≤ MAX_SCHEDULER_SUMMARY_BODY_BYTES ∧
    publication.history.toJson.size ≤ MAX_SCHEDULER_HISTORY_BODY_BYTES

/-- The bytes of the rows of a configuration whose jobs are all idle. -/
def idleBytes (config : Config) (floats : FloatText) : ℕ :=
  (config.jobs.map fun job => ((idleRow job).toJson floats).size + 1).sum

/-- Where the idle rows are too long, the very first publication does not fit. -/
theorem exceeds_of_idleBytes (floats : FloatText) (config : Config)
    (tooLong : MAX_SCHEDULER_SUMMARY_BODY_BYTES < idleBytes config floats) :
    ∃ (epoch : SchedulerEpochV2) (events : List (ObserverEvent config.jobs.length)),
      epoch.Typed ∧ (∀ event ∈ events, event.Typed) ∧
        ∃ publication ∈ ((start (fun index => (config.jobs.get index).name)
          config.effectiveSchedulerHistoryLimit epoch).after events).published,
          ¬Fits floats publication := by
  refine ⟨⟨0, 0⟩, [.publish ((idleEngine config.jobs).publishedJob none) 0 true], ?_, ?_, ?_⟩
  · exact ⟨Nat.zero_le _, Nat.zero_le _⟩
  · intro event isEvent
    rw [List.mem_singleton.mp isEvent]
    exact ⟨Nat.zero_le _, idleEngine config.jobs, none, typed_idleEngine config.jobs, rfl⟩
  · refine ⟨_, published_first rfl _ _, fun fits => ?_⟩
    have rows := sum_rows_le floats
      (start (fun index => (config.jobs.get index).name)
        config.effectiveSchedulerHistoryLimit ⟨0, 0⟩)
      ((idleEngine config.jobs).publishedJob none) (fun _ => rfl) 0
    simp only [publishedJob_idleEngine] at rows
    rw [idleBytes, sum_jobs] at tooLong
    exact absurd (Nat.lt_of_lt_of_le tooLong (Nat.le_trans rows fits.1)) (Nat.lt_irrefl _)

end Idle

theorem bounded_start (floats : FloatText) {epoch : SchedulerEpochV2} (typed : epoch.Typed) :
    (start (fun index => (config.jobs.get index).name) config.effectiveSchedulerHistoryLimit
      epoch).Bounded floats config := by
  refine ⟨typed, rfl, Nat.le_add_left 1 _, Nat.zero_le _, fun _ => rfl, fun _ => Nat.zero_le _,
    ?_, ?_⟩
  · simp [start, SchedulerObserver.new]
  · simp [start]

/-- A client reads every pair of an accepted configuration, whatever ran and whatever it printed,
where the longest summary of the configuration is within the cap. Every history is within its own,
and where the idle rows alone are past the cap the first summary is. -/
theorem bodies_fit_of_summaryBytes (floats : FloatText) {platform : JobPlatform}
    (accepted : config.validateFor platform = []) :
    (config.summaryBytes floats ≤ MAX_SCHEDULER_SUMMARY_BODY_BYTES →
      ∀ (epoch : SchedulerEpochV2) (events : List (ObserverEvent config.jobs.length)),
        epoch.Typed → (∀ event ∈ events, event.Typed) →
          ∀ publication ∈ ((start (fun index => (config.jobs.get index).name)
            config.effectiveSchedulerHistoryLimit epoch).after events).published,
            Fits floats publication) ∧
    (∀ (epoch : SchedulerEpochV2) (events : List (ObserverEvent config.jobs.length)),
      epoch.Typed → (∀ event ∈ events, event.Typed) →
        ∀ publication ∈ ((start (fun index => (config.jobs.get index).name)
          config.effectiveSchedulerHistoryLimit epoch).after events).published,
          publication.history.toJson.size ≤ MAX_SCHEDULER_HISTORY_BODY_BYTES) ∧
    (MAX_SCHEDULER_SUMMARY_BODY_BYTES < idleBytes config floats →
      ∃ (epoch : SchedulerEpochV2) (events : List (ObserverEvent config.jobs.length)),
        epoch.Typed ∧ (∀ event ∈ events, event.Typed) ∧
          ∃ publication ∈ ((start (fun index => (config.jobs.get index).name)
            config.effectiveSchedulerHistoryLimit epoch).after events).published,
            ¬Fits floats publication) := by
  have accepted := Config.accepted_of_validateFor accepted
  refine ⟨?_, ?_, exceeds_of_idleBytes floats config⟩
  · intro within epoch events epochTyped typed publication published
    have bounded := ((bounded_start floats epochTyped).after accepted typed).published
      publication published
    exact ⟨Nat.le_trans bounded.1 within, bounded.2⟩
  · intro epoch events epochTyped typed publication published
    exact (((bounded_start floats epochTyped).after accepted typed).published publication
      published).2

section Examples

def smallestNormal : F32 :=
  .finite (-11754944 / 10 ^ 45)

/-- Two texts of floats, of which no job here shows one. -/
def someFloats : FloatText where
  text := fun value => if value = smallestNormal then "-1.1754944e-38".toList else "1.0".toList
  widest := smallestNormal
  isFinite := rfl
  longest := by
    intro value _
    rw [if_pos rfl]
    split <;> decide
  notShort := by
    rw [if_pos rfl]
    decide

/-- The summaries of one short job fit. -/
theorem bodies_fit_backup :
    (Scheduler.minutelyConfig "backup").validateFor .unix = [] ∧
      ∀ (epoch : SchedulerEpochV2)
        (events : List (ObserverEvent (Scheduler.minutelyConfig "backup").jobs.length)),
        epoch.Typed → (∀ event ∈ events, event.Typed) →
          ∀ publication ∈ ((start
            (fun index => ((Scheduler.minutelyConfig "backup").jobs.get index).name)
            (Scheduler.minutelyConfig "backup").effectiveSchedulerHistoryLimit epoch).after
              events).published, Fits someFloats publication := by
  have accepted : (Scheduler.minutelyConfig "backup").validateFor .unix = [] := by decide
  exact ⟨accepted, (bodies_fit_of_summaryBytes someFloats accepted).1 (by decide +kernel)⟩

def crowdedName (index : ℕ) : List Char :=
  Char.ofNat (0x10000 + index) :: List.replicate 95 (Char.ofNat 0x10348)

def crowdedSchedule : List Char :=
  List.replicate 119 (Char.ofNat 0xb) ++ "* * * * *".toList

def crowdedJob (index : ℕ) : ScheduledJobConfig :=
  { ScheduledJobConfig.minutely (String.ofList (crowdedName index)) with
    schedule := String.ofList crowdedSchedule }

/-- Sixty-four jobs with names of four-byte letters, and schedules with vertical tabs between
their fields. -/
def crowdedConfig : Config :=
  { Scheduler.minutelyConfig "backup" with jobs := (List.range 64).map crowdedJob }

theorem crowdedConfig_jobs : crowdedConfig.jobs = (List.range 64).map crowdedJob := rfl

theorem crowdedJob_accepted {index : ℕ} (inRange : index < 64) :
    (crowdedJob index).validate .unix = [] := by
  have letters : ∀ index < 64, Text.trim (crowdedName index) ≠ [] ∧
      (crowdedName index).any Text.isControl = false := by decide +kernel
  have nameErrors : (crowdedJob index).nameErrors = [] := by
    rcases letters index inRange with ⟨nonempty, plain⟩
    have name : (crowdedJob index).name.toList = crowdedName index := String.toList_ofList
    have chars : (crowdedName index).length = 96 := rfl
    rw [ScheduledJobConfig.nameErrors, hasControl, ← String.length_toList, name, plain, chars]
    simp [nonempty, MAX_JOB_NAME_CHARS]
  have scheduleErrors : (crowdedJob index).scheduleErrors = [] := by
    have first : (crowdedJob 0).scheduleErrors = [] := by decide +kernel
    have same : (crowdedJob index).schedule = (crowdedJob 0).schedule := rfl
    rw [ScheduledJobConfig.scheduleErrors] at first ⊢
    rw [same, first]
  have command : (crowdedJob index).commandErrors = [] := by
    have argument : ScheduledJobConfig.argumentErrors 0 "true" = [] := by decide +kernel
    simp [ScheduledJobConfig.commandErrors, crowdedJob, ScheduledJobConfig.minutely, argument,
      MAX_COMMAND_ARGS]
  have workingDir : (crowdedJob index).workingDirErrors = [] := by
    simp only [ScheduledJobConfig.workingDirErrors, crowdedJob, ScheduledJobConfig.minutely]
  have maxLoad : (crowdedJob index).maxLoadErrors = [] := by
    simp [ScheduledJobConfig.maxLoadErrors, crowdedJob, ScheduledJobConfig.minutely]
  have loadGate : (crowdedJob index).loadGateErrors .unix = [] := by
    simp [ScheduledJobConfig.loadGateErrors, crowdedJob, ScheduledJobConfig.minutely]
  simp only [ScheduledJobConfig.validate, List.append_eq_nil_iff]
  exact ⟨⟨⟨⟨⟨nameErrors, scheduleErrors⟩, command⟩, workingDir⟩, maxLoad⟩, loadGate⟩

theorem crowdedConfig_accepted : crowdedConfig.validateFor .unix = [] := by
  have head : { crowdedConfig with jobs := [] }.validateFor .unix = [] := by decide +kernel
  have jobs : Config.jobViolationsFrom .unix 0 [] crowdedConfig.jobs = [] := by
    refine Config.jobViolationsFrom_eq_nil_iff.mpr ⟨?_, ?_, by simp⟩
    · intro job isJob
      rcases List.mem_map.mp (crowdedConfig_jobs ▸ isJob) with ⟨index, inRange, rfl⟩
      exact crowdedJob_accepted (List.mem_range.mp inRange)
    · have distinct : ((List.range 64).map crowdedName).Nodup := by decide +kernel
      have names : crowdedConfig.jobs.map (·.name) =
          ((List.range 64).map crowdedName).map String.ofList := by
        rw [crowdedConfig_jobs, List.map_map, List.map_map]
        rfl
      rw [names]
      exact distinct.map fun _ _ => String.ofList_inj.mp
  have count : ¬crowdedConfig.jobs.length > MAX_JOBS := by
    rw [crowdedConfig_jobs, List.length_map, List.length_range]
    decide
  simp only [Config.validateFor, jobs, if_neg count, List.append_nil]
  simp only [Config.validateFor, Config.jobViolationsFrom, List.length_nil, List.append_nil,
    Nat.not_lt_zero, gt_iff_lt, if_false] at head
  exact head

/-- The names and schedules of the crowded configuration alone are past the cap. -/
theorem crowdedRows_le (floats : FloatText) : 64 * 1107 ≤ idleBytes crowdedConfig floats := by
  have escapedName : ∀ index < 64, textEscapedLen (crowdedName index) = 384 := by decide +kernel
  have escapedSchedule : textEscapedLen crowdedSchedule = 723 := by decide +kernel
  have each : ∀ size ∈ crowdedConfig.jobs.map fun job =>
      (SchedulerJobV2.toJson floats (idleRow job)).size + 1, 1107 ≤ size := by
    intro size isSize
    rcases List.mem_map.mp isSize with ⟨job, isJob, rfl⟩
    rcases List.mem_map.mp (crowdedConfig_jobs ▸ isJob) with ⟨index, inRange, rfl⟩
    have name : (idleRow (crowdedJob index)).name.toList = crowdedName index :=
      String.toList_ofList
    have schedule : (idleRow (crowdedJob index)).schedule.toList = crowdedSchedule :=
      String.toList_ofList
    rw [SchedulerJobV2.size_toJson, size_string, size_string, name, schedule, escapedSchedule,
      escapedName index (List.mem_range.mp inRange)]
    omega
  have total := List.card_nsmul_le_sum _ 1107 each
  rwa [List.length_map, crowdedConfig_jobs, List.length_map, List.length_range, smul_eq_mul,
    ← crowdedConfig_jobs] at total

/-- The very first summary of the crowded configuration is past the cap. -/
theorem bodies_exceed_crowded :
    crowdedConfig.validateFor .unix = [] ∧
      ∃ (epoch : SchedulerEpochV2) (events : List (ObserverEvent crowdedConfig.jobs.length)),
        epoch.Typed ∧ (∀ event ∈ events, event.Typed) ∧
          ∃ publication ∈ ((start (fun index => (crowdedConfig.jobs.get index).name)
            crowdedConfig.effectiveSchedulerHistoryLimit epoch).after events).published,
            ¬Fits someFloats publication := by
  refine ⟨crowdedConfig_accepted, exceeds_of_idleBytes someFloats crowdedConfig ?_⟩
  exact Nat.lt_of_lt_of_le (by decide) (crowdedRows_le someFloats)

end Examples

end ObservedScheduler

end Gregg
