import Gregg.Protocol.ValidateScheduler
import Gregg.Greggd.Conservation

/-!
# Published documents and the client's validator

Configuration validation and the engine's derivations are one rule set, the wire validator is
another. What the engine maintains is stated job by job and observer by observer; every document
published from such a state passes every check of the validator, except that the configuration
bounds a job name in characters where the wire bounds it in bytes.
-/

namespace Gregg

def InEra (time : DateTime) : Prop :=
  0 ≤ time ∧ unixMillis time ≤ MAX_TIMESTAMP_UNIX_MS

abbrev MillisInEra (unixMs : ℕ) : Prop :=
  unixMs ≤ MAX_TIMESTAMP_UNIX_MS

def FiniteLoad (state : LoadGateState) : Prop :=
  ∀ values ∈ state.load,
    values.one.isFinite = true ∧ values.five.isFinite = true ∧ values.fifteen.isFinite = true

/-- The start clock of a child that was spawned. -/
def SpawnResult.InEra : SpawnResult → Prop
  | .spawned _ startedUnixMs => MillisInEra startedUnixMs
  | .failed _ => True

theorem unixMillis_mono {earlier later : DateTime} (le : earlier ≤ later) :
    unixMillis earlier ≤ unixMillis later :=
  Int.toNat_le_toNat (Int.ediv_le_ediv (by decide) le)

def PublishableGate (gate : SchedulerLoadGateV2) : Prop :=
  isLoadWindow gate.window = true ∧ gate.threshold.isFinite = true ∧
    ∀ value ∈ gate.observed, value.isFinite = true

theorem isLoadWindow_effectiveLoadWindow (config : ScheduledJobConfig) :
    isLoadWindow config.effectiveLoadWindow = true := by
  simp only [ScheduledJobConfig.effectiveLoadWindow]
  split
  · rfl
  · split <;> rfl

theorem observedLoad_isFinite {config : ScheduledJobConfig} {load : LoadGateState} {value : F32}
    (finite : FiniteLoad load) (observed : observedLoad config load = some value) :
    value.isFinite = true := by
  unfold observedLoad at observed
  split at observed
  · rename_i values _ cached
    rcases finite values cached with ⟨one, five, fifteen⟩
    simp only at observed
    split at observed
    · cases observed
      exact one
    · split at observed
      · cases observed
        exact five
      · cases observed
        exact fifteen
  · cases observed

/-- Every decision taken with an accepted threshold and a finite reading can be published. -/
theorem publishable_loadGate {config : ScheduledJobConfig} {load : LoadGateState}
    (accepted : config.Accepted) (finite : FiniteLoad load) :
    ∀ gate ∈ (loadGate config load).map LoadDecision.published, PublishableGate gate := by
  intro gate gateMem
  unfold loadGate at gateMem
  split at gateMem
  · cases gateMem
  · rename_i threshold configured
    cases gateMem
    exact ⟨isLoadWindow_effectiveLoadWindow config, accepted.thresholdFinite threshold configured,
      fun value observed => observedLoad_isFinite finite observed⟩

/-- What a job's state maintains for the documents it appears in. -/
structure JobState.Publishable (state : JobState) : Prop where
  pending : ∀ pending ∈ state.pending, MillisInEra pending.sinceUnixMs ∧
    MillisInEra pending.retryAtUnixMs ∧ MillisInEra (unixMillis pending.scheduled)
  gate : ∀ gate ∈ state.lastGate, PublishableGate gate

theorem JobState.Publishable.emptied {state : JobState} (publishable : state.Publishable) :
    ({ state with pending := none } : JobState).Publishable :=
  ⟨by simp, publishable.gate⟩

def PublishableRecord (record : SchedulerRunRecordV2) : Prop :=
  ∀ field, checkRecord field record = []

/-- What the observer maintains for the documents it publishes. -/
structure SchedulerObserver.Publishable {configs : List ScheduledJobConfig}
    (observer : SchedulerObserver configs.length) : Prop where
  epoch : MillisInEra observer.epoch.startedAtUnixMs
  limit : observer.limit ≤ MAX_SCHEDULER_HISTORY_LIMIT
  names : ∀ index, (observer.histories index).name = (configs.get index).name
  bounded : ∀ index, (observer.histories index).records.length ≤ observer.limit
  records : ∀ index, ∀ record ∈ (observer.histories index).records, PublishableRecord record

/-- The clocks of the running child. -/
def RunningChild.Publishable {jobCount : ℕ} (child : RunningChild jobCount) : Prop :=
  MillisInEra child.startedUnixMs ∧ MillisInEra child.scheduledUnixMs

/-- A terminal record whose wire form passes, whatever sequence it is assigned. -/
structure TerminalRecord.Publishable (record : TerminalRecord) (outcome : SchedulerOutcomeV2) :
    Prop where
  scheduled : MillisInEra record.scheduledUnixMs
  started : ∀ started ∈ record.startedUnixMs, MillisInEra started
  finished : MillisInEra record.finishedUnixMs
  childless : childCapable outcome = false → record.startedUnixMs = none ∧
    record.exitCode = none ∧ record.signal = none ∧ record.durationMs = none

theorem TerminalRecord.Publishable.wire {record : TerminalRecord} {outcome : SchedulerOutcomeV2}
    (publishable : record.Publishable outcome) (sequence : ℕ) :
    PublishableRecord (SchedulerObserver.wireRecord sequence record outcome) := by
  intro field
  rw [checkRecord_eq_nil_iff]
  exact ⟨publishable.scheduled, publishable.started, publishable.finished,
    fun childless => (publishable.childless childless).2,
    fun childless => (publishable.childless childless).1,
    OutputTail.textEscapedLen_intoWire_le _, OutputTail.textEscapedLen_intoWire_le _⟩

theorem TerminalRecord.publishable_withoutChild {outcome : SchedulerOutcomeV2}
    {occurrence scheduledUnixMs finishedUnixMs delayMs : ℕ} {coalesced : Bool}
    (scheduled : MillisInEra scheduledUnixMs) (finished : MillisInEra finishedUnixMs) :
    (TerminalRecord.withoutChild occurrence scheduledUnixMs finishedUnixMs delayMs
      coalesced).Publishable outcome where
  scheduled := scheduled
  started := by simp [withoutChild]
  finished := finished
  childless := fun _ => ⟨rfl, rfl, rfl, rfl⟩

theorem childCapable_waitOutcome (status : Except String ExitStatus) :
    childCapable (waitOutcome status).1 = true := by
  cases status with
  | error error => rfl
  | ok status =>
      simp only [waitOutcome]
      split <;> rfl

theorem TerminalRecord.publishable_finished {jobCount : ℕ} {child : RunningChild jobCount}
    {exit : ChildExit} {stdout stderr : OutputTail} (publishable : child.Publishable)
    (finished : MillisInEra exit.finishedUnixMs) :
    (finishedRecord child (child.completion exit stdout stderr)).Publishable
      (waitOutcome exit.status).1 where
  scheduled := publishable.2
  started := by
    rintro started ⟨⟩
    exact publishable.1
  finished := finished
  childless := by simp [childCapable_waitOutcome]

theorem SchedulerObserver.Publishable.recordTerminal {configs : List ScheduledJobConfig}
    {observer : SchedulerObserver configs.length} {index : Fin configs.length}
    {record : TerminalRecord} {outcome : SchedulerOutcomeV2}
    (publishable : SchedulerObserver.Publishable observer)
    (recorded : record.Publishable outcome) :
    SchedulerObserver.Publishable (observer.recordTerminal index record outcome).2 where
  epoch := by
    rw [recordTerminal_epoch]
    exact publishable.epoch
  limit := by
    rw [recordTerminal_limit]
    exact publishable.limit
  names := fun other => by
    rw [recordTerminal_histories_name]
    exact publishable.names other
  bounded := fun other => by
    rw [recordTerminal_limit]
    exact recordTerminal_records_length_le publishable.bounded other
  records := recordTerminal_records_forall publishable.records (recorded.wire _)

namespace Scheduler

variable {configs : List ScheduledJobConfig} {zone : LocalZone}
  {scheduler origin current after next : Scheduler configs}
  {event : SchedulerEvent configs.length} {index : Fin configs.length}

/-- What the scheduler maintains for the documents it publishes. -/
structure Publishable (scheduler : Scheduler configs) : Prop where
  states : ∀ index, (scheduler.engine.states index).Publishable
  observer : SchedulerObserver.Publishable scheduler.engine.observer
  active : ∀ child ∈ scheduler.active, child.Publishable

/-- Every computed due time lies between 1970 and 2100. -/
def DueInEra (scheduler : Scheduler configs) : Prop :=
  ∀ index, InEra (scheduler.engine.states index).nextDue

/-- An event whose clocks lie between 1970 and 2100, whose load readings are missing or finite,
and after which every due time lies between 1970 and 2100. -/
def EventInEra (zone : LocalZone) (scheduler : Scheduler configs)
    (event : SchedulerEvent configs.length) : Prop :=
  (match event with
    | .tick input expiredUnixMs spawn spawnFailedUnixMs =>
        InEra input.wallNow ∧ FiniteLoad input.load ∧ (∀ index, MillisInEra (expiredUnixMs index)) ∧
          spawn.InEra ∧ MillisInEra spawnFailedUnixMs
    | .complete exit _ _ => MillisInEra exit.finishedUnixMs
    | .publish wallNow _ => InEra wallNow) ∧
  ∀ next, step zone scheduler event = some next → next.DueInEra

/-- An event that defers no load-gated occurrence to a retry past 2100. -/
def RetriesInEra (zone : LocalZone) (scheduler : Scheduler configs) :
    SchedulerEvent configs.length → Prop
  | .tick input expiredUnixMs _ _ => ∀ index,
      scheduler.defers zone input expiredUnixMs index = true →
        MillisInEra (input.unixNow + (configs.get index).effectiveRetryIntervalMs)
  | .complete _ _ _ => True
  | .publish _ _ => True

/-- The steps the validator's agreement is claimed for. -/
def InRange (zone : LocalZone) (scheduler : Scheduler configs)
    (event : SchedulerEvent configs.length) : Prop :=
  EventInEra zone scheduler event ∧ RetriesInEra zone scheduler event

section Moves

theorem Publishable.setState {state : JobState} (publishable : scheduler.Publishable)
    (replaced : state.Publishable) : (scheduler.setState index state).Publishable where
  states := by
    intro other
    apply forall_setState (fun _ => JobState.Publishable) publishable.states replaced
  observer := publishable.observer
  active := publishable.active

theorem Publishable.record {record : TerminalRecord} {outcome : SchedulerOutcomeV2}
    (publishable : scheduler.Publishable) (recorded : record.Publishable outcome) :
    (scheduler.record index record outcome).Publishable where
  states := publishable.states
  observer := publishable.observer.recordTerminal recorded
  active := publishable.active

/-- The due loop stamps a new occurrence with the wall clock and with a due time it has passed. -/
theorem publishable_of_marked {input : TickInput} {state marked : JobState}
    (wallInEra : InEra input.wallNow) (publishable : state.Publishable)
    (due : state.Marked zone input marked) : marked.Publishable := by
  cases due with
  | notDue _ => exact publishable
  | @coalesced pending nextDue _ waiting _ =>
      refine ⟨?_, publishable.gate⟩
      rintro found ⟨⟩
      exact publishable.pending pending waiting
  | made due _ _ =>
      refine ⟨?_, by simp⟩
      rintro found ⟨⟩
      exact ⟨wallInEra.2, wallInEra.2, Nat.le_trans (unixMillis_mono due) wallInEra.2⟩

/-- A deferral publishes the retry it computed and the decision behind it. -/
theorem publishable_deferredState {input : TickInput} {config : ScheduledJobConfig}
    {state : JobState} (accepted : config.Accepted) (finite : FiniteLoad input.load)
    (retryInEra : MillisInEra (input.unixNow + config.effectiveRetryIntervalMs))
    (publishable : state.Publishable) :
    (Engine.deferredState input config state).Publishable := by
  refine ⟨?_, publishable_loadGate accepted finite⟩
  intro found foundMem
  simp only [Engine.deferredState, Option.mem_map] at foundMem
  rcases foundMem with ⟨pending, waiting, rfl⟩
  have before := publishable.pending pending waiting
  exact ⟨before.1, Nat.le_trans (satAdd_le _ _) retryInEra, before.2.2⟩

theorem publishable_launchedState {input : TickInput} {config : ScheduledJobConfig}
    {state : JobState} (accepted : config.Accepted) (finite : FiniteLoad input.load) :
    (Engine.launchedState input config state).Publishable :=
  ⟨by simp [Engine.launchedState], publishable_loadGate accepted finite⟩

theorem Publishable.move (accepted : ∀ index, (configs.get index).Accepted)
    (inRange : InRange zone origin event) (publishable : current.Publishable)
    (moved : Move zone origin event current after) : after.Publishable := by
  rcases inRange with ⟨⟨clocks, -⟩, retries⟩
  cases moved with
  | mark due =>
      exact publishable.setState (publishable_of_marked clocks.1 (publishable.states _)
        (JobState.marked_of_markDue due))
  | @expire _ _ _ _ _ index pending waiting _ =>
      have stamped := (publishable.states index).pending pending waiting
      exact (publishable.setState (publishable.states index).emptied).record
        (TerminalRecord.publishable_withoutChild stamped.2.2 (clocks.2.2.1 index))
  | @defer _ _ _ _ _ index blocked =>
      exact publishable.setState (publishable_deferredState (accepted index) clocks.2.1
        (retries index blocked) (publishable.states index))
  | @spawn input _ spawn _ _ index pending child _ waiting created =>
      have stamped := (publishable.states index).pending pending waiting
      have launched : (Engine.launchedState input (configs.get index)
          (current.engine.states index)).Publishable :=
        publishable_launchedState (accepted index) clocks.2.1
      have replaced : (current.setState index _).Publishable := publishable.setState launched
      refine ⟨replaced.states, replaced.observer, ?_⟩
      rintro running ⟨⟩
      refine ⟨?_, stamped.2.2⟩
      unfold startChild at created
      split at created
      · cases created
      · split at created
        · cases created
        · cases created
          exact clocks.2.2.2.1
  | @refuse _ _ _ _ _ index pending _ waiting _ =>
      have stamped := (publishable.states index).pending pending waiting
      exact (publishable.setState (publishable_launchedState (accepted index)
        clocks.2.1)).record
        (TerminalRecord.publishable_withoutChild stamped.2.2 clocks.2.2.2.2)
  | finish running =>
      have reaped : Publishable { current with active := none } :=
        ⟨publishable.states, publishable.observer, by simp⟩
      exact reaped.record
        (TerminalRecord.publishable_finished (publishable.active _ running) clocks)
  | publish =>
      rcases current.publish_observer _ _ with ⟨lastPublished, observer⟩
      refine ⟨publishable.states, ?_, publishable.active⟩
      rw [observer]
      exact ⟨publishable.observer.epoch, publishable.observer.limit, publishable.observer.names,
        publishable.observer.bounded, publishable.observer.records⟩

end Moves

section Documents

/-- The cross-field rules hold of every row the engine derives. -/
theorem checkJobDecision_publishedJob {field : String} {engine : Engine configs}
    {running : Option (Fin configs.length × ℕ)} :
    checkJobDecision field (engine.publishedJob running index) = [] := by
  cases runningHere : running.filter fun active => active.1 == index with
  | some active => simp [checkJobDecision, Engine.publishedJob, runningHere, jobState, isDeferred]
  | none =>
      cases pending : (engine.states index).pending with
      | none =>
          simp [checkJobDecision, Engine.publishedJob, runningHere, pending, jobState, isDeferred]
      | some occurrence =>
          cases gate : (engine.states index).lastGate with
          | none =>
              simp [checkJobDecision, Engine.publishedJob, runningHere, pending, gate, jobState,
                isDeferred]
          | some decision =>
              cases observed : decision.observed <;>
                simp [checkJobDecision, Engine.publishedJob, runningHere, pending, gate, jobState,
                  isDeferred, observed]

theorem checkRunSummary_lastSummary {field : String}
    {observer : SchedulerObserver configs.length} {last : SchedulerRunSummaryV2}
    (publishable : SchedulerObserver.Publishable observer)
    (summarized : observer.lastSummary index = some last) : checkRunSummary field last = [] := by
  simp only [SchedulerObserver.lastSummary, Option.map_eq_some_iff] at summarized
  rcases summarized with ⟨record, isLast, rfl⟩
  have passing := publishable.records index record (List.mem_of_getLast? isLast) field
  rw [checkRecord_eq_nil_iff] at passing
  exact checkRunSummary_eq_nil_iff.mpr ⟨passing.1, passing.2.2.1, passing.2.2.2.1⟩

/-- A row passes exactly when its name fits the wire's byte bound. -/
theorem checkJob_publishedJob_iff (accepted : (configs.get index).Accepted)
    (publishable : scheduler.Publishable) (due : scheduler.DueInEra) {position : ℕ} :
    checkJob position (scheduler.engine.publishedJob scheduler.running index) = [] ↔
      (configs.get index).name.utf8ByteSize ≤ MAX_SCHEDULER_JOB_NAME_BYTES := by
  simp only [checkJob, List.append_eq_nil_iff, checkText_eq_nil_iff, ite_singleton_eq_nil_iff,
    checkTimestamp_eq_nil_iff, checkOptionalTimestamp_eq_nil_iff, checkJobDecision_publishedJob,
    and_true]
  constructor
  · rintro ⟨⟨⟨⟨⟨⟨⟨⟨fits, -⟩, -⟩, -⟩, -⟩, -⟩, -⟩, -⟩, -⟩
    exact fits
  · intro fits
    have stamped := (publishable.states index).pending
    refine ⟨⟨⟨⟨⟨⟨⟨⟨fits, ?_⟩, accepted.scheduleBytes⟩, (due index).2⟩, ?_⟩, ?_⟩, ?_⟩, ?_⟩, ?_⟩
    · simpa [Engine.publishedJob, String.isEmpty_iff] using accepted.nameNonempty
    · intro since published
      rcases Option.map_eq_some_iff.mp published with ⟨pending, waiting, rfl⟩
      exact (stamped pending waiting).1
    · intro retry published
      simp only [Engine.publishedJob, Option.mem_def, Option.ite_none_right_eq_some,
        Option.map_eq_some_iff] at published
      rcases published.2 with ⟨pending, waiting, rfl⟩
      exact (stamped pending waiting).2.1
    · intro since published
      simp only [Engine.publishedJob, Option.mem_def, Option.map_eq_some_iff,
        Option.filter_eq_some_iff] at published
      rcases published with ⟨⟨other, started⟩, ⟨running, -⟩, rfl⟩
      rcases Option.map_eq_some_iff.mp running with ⟨child, active, same⟩
      cases same
      exact (publishable.active child active).1
    · split
      · rename_i gate published
        exact checkLoadGate_eq_nil_iff.mpr ((publishable.states index).gate gate published)
      · rfl
    · split
      · rename_i last summarized
        exact checkRunSummary_lastSummary publishable.observer summarized
      · rfl

theorem retained_increasing (consistent : scheduler.Consistent zone)
    (fewJobs : configs.length ≤ MAX_JOBS) (index : Fin configs.length) :
    (scheduler.engine.observer.histories index).records.Pairwise
      fun earlier later => earlier.sequence < later.sequence := by
  have unsaturated := Nat.le_of_lt (length_issued_lt consistent fewJobs)
  have increasing := consistent.numbered.increasing unsaturated
  have asNumbers :
      ((scheduler.engine.observer.issued.filter fun issued => issued.index = index).map
        (·.sequence)).Pairwise (· < ·) :=
    List.pairwise_map.mpr (increasing.sublist List.filter_sublist)
  exact List.pairwise_map.mp (asNumbers.sublist (consistent.retained.recent index).sublist)

/-- A history row passes exactly when its name fits the wire's byte bound. -/
theorem checkJobHistory_wireHistory_iff (accepted : (configs.get index).Accepted)
    (publishable : scheduler.Publishable) (consistent : scheduler.Consistent zone)
    (fewJobs : configs.length ≤ MAX_JOBS) {position : ℕ} :
    checkJobHistory position (scheduler.engine.observer.wireHistory index) = [] ↔
      (configs.get index).name.utf8ByteSize ≤ MAX_SCHEDULER_JOB_NAME_BYTES := by
  have observer := publishable.observer
  simp only [checkJobHistory, List.append_eq_nil_iff, checkText_eq_nil_iff,
    ite_singleton_eq_nil_iff, SchedulerObserver.wireHistory, observer.names index]
  constructor
  · rintro ⟨⟨⟨fits, -⟩, -⟩, -⟩
    exact fits
  · intro fits
    refine ⟨⟨⟨fits, ?_⟩, ?_⟩, ?_⟩
    · simpa [String.isEmpty_iff] using accepted.nameNonempty
    · split
      · simp
      · exact Nat.not_lt.mpr (Nat.le_trans (observer.bounded index) observer.limit)
    · split
      · rfl
      · exact checkRecordsFrom_eq_nil (observer.records index)
          (retained_increasing consistent fewJobs index) (by simp)

theorem publish_handed {wallNow : DateTime} {serializes : Bool}
    {publication : SchedulerPublication}
    (handed : publication ∈ (scheduler.publish wallNow serializes).handed) :
    publication ∈ scheduler.handed ∨
      publication = .of (unixMillis wallNow) scheduler.engine.observer.epoch
        scheduler.engine.observer.historyRevision
        (List.ofFn (scheduler.engine.publishedJob scheduler.running))
        (List.ofFn scheduler.engine.observer.wireHistory) := by
  simp only [publish, Engine.publish, SchedulerObserver.publish] at handed
  split at handed
  · exact .inl (by simpa using handed)
  · rcases List.mem_append.mp handed with earlier | new
    · exact .inl earlier
    · exact .inr (by simpa using new)

def Valid (publication : SchedulerPublication) : Prop :=
  validateSummary publication.summary = [] ∧ validateHistory publication.history = []

/-- A publication from a maintained state is valid exactly when every job name fits the wire's
byte bound. -/
theorem valid_publication_iff {wallNow : DateTime} (accepted : ∀ index,
      (configs.get index).Accepted) (fewJobs : configs.length ≤ MAX_JOBS)
    (namesNodup : (configs.map (·.name)).Nodup) (publishable : scheduler.Publishable)
    (consistent : scheduler.Consistent zone) (due : scheduler.DueInEra)
    (wallInEra : InEra wallNow) {historyRevision : ℕ} :
    Valid (.of (unixMillis wallNow) scheduler.engine.observer.epoch historyRevision
        (List.ofFn (scheduler.engine.publishedJob scheduler.running))
        (List.ofFn scheduler.engine.observer.wireHistory)) ↔
      ∀ index, (configs.get index).name.utf8ByteSize ≤ MAX_SCHEDULER_JOB_NAME_BYTES := by
  have header : ∀ {jobCount : ℕ}, jobCount = configs.length →
      checkHeader 2 (unixMillis wallNow) scheduler.engine.observer.epoch jobCount = [] := by
    rintro _ rfl
    exact checkHeader_eq_nil_iff.mpr ⟨rfl, wallInEra.2, publishable.observer.epoch, fewJobs⟩
  have sameNames : ∀ {names : Fin configs.length → String},
      (∀ index, names index = (configs.get index).name) → (List.ofFn names).Nodup := by
    intro names same
    rw [funext same]
    simpa [List.ofFn_getElem_eq_map] using namesNodup
  rw [Valid, validateSummary_eq_nil_iff, validateHistory_eq_nil_iff]
  constructor
  · rintro ⟨⟨-, rows, -⟩, -⟩ index
    have row := rows index.val (by simp [SchedulerPublication.of])
    simp only [SchedulerPublication.of, List.getElem_ofFn] at row
    exact (checkJob_publishedJob_iff (accepted index) publishable due).mp row
  · intro fits
    refine ⟨⟨header List.length_ofFn, fun position inRange => ?_, ?_⟩,
      ⟨header List.length_ofFn, fun position inRange => ?_, ?_⟩⟩
    · simp only [SchedulerPublication.of, List.getElem_ofFn]
      exact (checkJob_publishedJob_iff (accepted _) publishable due).mpr (fits _)
    · simp only [SchedulerPublication.of, List.map_ofFn]
      exact sameNames fun index => rfl
    · simp only [SchedulerPublication.of, List.getElem_ofFn]
      exact (checkJobHistory_wireHistory_iff (accepted _) publishable consistent fewJobs).mpr
        (fits _)
    · simp only [SchedulerPublication.of, List.map_ofFn]
      exact sameNames fun index => publishable.observer.names index

end Documents

section Runs

variable {input : StartInput} {initial : Scheduler configs}

@[simp]
theorem afterTick_handed {launch : Option (Launch configs.length)} {spawn : SpawnResult}
    {spawnFailedUnixMs : ℕ} :
    (scheduler.afterTick launch spawn spawnFailedUnixMs).handed = scheduler.handed := by
  cases launch with
  | none => rfl
  | some launch =>
      simp only [afterTick, startLaunch]
      split <;> rfl

theorem handed_of_step (stepped : step zone scheduler event = some next) :
    next.handed = scheduler.handed ∨
      ∃ wallNow serializes, event = .publish wallNow serializes ∧
        next = scheduler.publish wallNow serializes := by
  cases event with
  | tick input expiredUnixMs spawn spawnFailedUnixMs =>
      left
      simp only [step] at stepped
      split at stepped
      · cases stepped
      · cases stepped
        simp
  | complete exit stdout stderr =>
      left
      simp only [step] at stepped
      split at stepped
      · cases stepped
      · cases stepped
        rfl
  | publish wallNow serializes =>
      cases stepped
      exact .inr ⟨_, _, rfl, rfl⟩

theorem publishable_of_new {engine : Engine configs} {historyLimit : ℕ}
    {epoch : SchedulerEpochV2} (epochInEra : MillisInEra epoch.startedAtUnixMs)
    (limit : historyLimit ≤ MAX_SCHEDULER_HISTORY_LIMIT)
    (observer : engine.observer =
      .new (fun index => (configs.get index).name) historyLimit epoch)
    (states : ∀ index, Engine.initialState zone input.wallNow (configs.get index) =
      .ok (engine.states index)) :
    Publishable { engine, active := none, handed := [] } where
  states := fun index => by
    rcases initialState_eq_ok (states index) with ⟨idle, undecided, -⟩
    exact ⟨by simp [idle], by simp [undecided]⟩
  observer := by
    rw [observer]
    exact ⟨epochInEra, limit, fun _ => rfl, by simp [SchedulerObserver.new],
      by simp [SchedulerObserver.new]⟩
  active := by simp

theorem publish_handed_of_new {engine : Engine configs} {names : Fin configs.length → String}
    {historyLimit : ℕ} {epoch : SchedulerEpochV2} {wallNow : DateTime} {serializes : Bool}
    (observer : engine.observer = .new names historyLimit epoch) :
    (publish { engine, active := none, handed := [] } wallNow serializes).handed =
      [.of (unixMillis wallNow) engine.observer.epoch engine.observer.historyRevision
        (List.ofFn (engine.publishedJob none)) (List.ofFn engine.observer.wireHistory)] := by
  simp [publish, Engine.publish, SchedulerObserver.publish, observer, SchedulerObserver.new,
    running]

/-- What every state of a run in range maintains. -/
structure Maintained (zone : LocalZone) (scheduler : Scheduler configs) : Prop where
  publishable : scheduler.Publishable
  consistent : scheduler.Consistent zone
  due : scheduler.DueInEra

theorem Maintained.step (accepted : ∀ index, (configs.get index).Accepted)
    (maintained : scheduler.Maintained zone) (inRange : InRange zone scheduler event)
    (stepped : step zone scheduler event = some next) : next.Maintained zone where
  publishable := step_invariant Publishable
    (fun _ _ publishable => publishable.move accepted inRange) maintained.publishable stepped
  consistent := step_invariant (Consistent zone) (fun _ _ => Consistent.move)
    maintained.consistent stepped
  due := inRange.1.2 next stepped

section Accepted

variable {config : Config} {platform : JobPlatform} {initial : Scheduler config.jobs}

/-- What a scheduler started from an accepted configuration maintains, and what it first hands
over. -/
theorem maintained_start (accepted : config.validateFor platform = [])
    (depth : input.historyLimit = config.effectiveSchedulerHistoryLimit)
    (started : start zone config.jobs input = .ok initial)
    (epochInEra : MillisInEra input.startedAtUnixMs) (wallInEra : InEra input.publishWall)
    (dueInEra : initial.DueInEra) :
    initial.Maintained zone ∧ ((∀ publication ∈ initial.handed, Valid publication) ↔
      ∀ job ∈ config.jobs, job.name.utf8ByteSize ≤ MAX_SCHEDULER_JOB_NAME_BYTES) := by
  have promises := Config.accepted_of_validateFor accepted
  have jobAccepted : ∀ index, (config.jobs.get index).Accepted :=
    fun index => promises.jobs _ (List.get_mem _ _)
  rcases start_eq_ok started with ⟨fewJobs, -, engine, observer, states, rfl⟩
  have new : Maintained zone { engine, active := none, handed := [] } :=
    ⟨publishable_of_new epochInEra (depth ▸ promises.historyLimit) observer states,
      consistent_of_new observer states, dueInEra⟩
  have inRange : InRange zone { engine, active := none, handed := [] }
      (.publish input.publishWall input.serializes) := by
    refine ⟨⟨wallInEra, ?_⟩, trivial⟩
    rintro _ ⟨⟩
    exact dueInEra
  refine ⟨new.step jobAccepted inRange rfl, ?_⟩
  rw [publish_handed_of_new observer, List.forall_mem_singleton]
  apply (valid_publication_iff jobAccepted fewJobs promises.namesNodup new.publishable
    new.consistent new.due wallInEra).trans
  constructor
  · intro fits job jobMem
    rcases List.mem_iff_get.mp jobMem with ⟨index, rfl⟩
    exact fits index
  · exact fun fits index => fits _ (List.get_mem _ _)

/-- For a job list that configuration validation accepts, and over every run whose clocks and due
times lie between 1970 and 2100 and which defers no retry past 2100, every document handed to
`try_publish` passes the client's validator if and only if every job name has at most 128 bytes. -/
theorem documents_valid_iff (accepted : config.validateFor platform = [])
    (depth : input.historyLimit = config.effectiveSchedulerHistoryLimit)
    (started : start zone config.jobs input = .ok initial)
    (epochInEra : MillisInEra input.startedAtUnixMs) (wallInEra : InEra input.publishWall)
    (dueInEra : initial.DueInEra) :
    (∀ scheduler, Machine.RunsTo (step zone) (InRange zone) initial scheduler →
      ∀ publication ∈ scheduler.handed, Valid publication) ↔
    ∀ job ∈ config.jobs, job.name.utf8ByteSize ≤ MAX_SCHEDULER_JOB_NAME_BYTES := by
  have promises := Config.accepted_of_validateFor accepted
  have jobAccepted : ∀ index, (config.jobs.get index).Accepted :=
    fun index => promises.jobs _ (List.get_mem _ _)
  have fewJobs := (start_eq_ok started).1
  have first := maintained_start accepted depth started epochInEra wallInEra dueInEra
  constructor
  · exact fun everyRun => first.2.mp (everyRun initial .refl)
  · intro fits scheduler runs
    have named : ∀ index, (config.jobs.get index).name.utf8ByteSize ≤
        MAX_SCHEDULER_JOB_NAME_BYTES := fun index => fits _ (List.get_mem _ _)
    have maintainedAndValid := runs.invariant (fun scheduler =>
      scheduler.Maintained zone ∧ ∀ publication ∈ scheduler.handed, Valid publication)
      ⟨first.1, first.2.mpr fits⟩ ?_
    · exact maintainedAndValid.2
    · rintro state event next ⟨maintained, handedValid⟩ inRange stepped
      refine ⟨maintained.step jobAccepted inRange stepped, ?_⟩
      rcases handed_of_step stepped with same | ⟨wallNow, serializes, rfl, rfl⟩
      · rwa [same]
      · intro publication publicationMem
        rcases publish_handed publicationMem with earlier | rfl
        · exact handedValid publication earlier
        · exact (valid_publication_iff jobAccepted fewJobs promises.namesNodup
            maintained.publishable maintained.consistent maintained.due inRange.1.1).mpr named

end Accepted

/-- A configuration with one job that is due every minute. -/
def minutelyConfig (name : String) : Config where
  name := "greggd"
  port := 11310
  sampleIntervalMs := 1000
  staleAfterMs := 10000
  jobs := [ScheduledJobConfig.minutely name]
  schedulerHistoryLimit := none

/-- A scheduler started at the Unix epoch with the default history depth. -/
def epochStart : StartInput where
  wallNow := 0
  historyLimit := DEFAULT_SCHEDULER_HISTORY_LIMIT
  processId := 1
  epochCounter := 0
  startedAtUnixMs := 0
  publishWall := 0
  serializes := true

/-- Sixty-five accented letters, which are 130 bytes. -/
def accentedName : String :=
  String.ofList (List.replicate 65 'é')

/-- A short ASCII name keeps every document of every run in range valid. -/
theorem documents_valid_backup :
    ∃ initial, start .utc (minutelyConfig "backup").jobs epochStart = .ok initial ∧
      ∀ scheduler, Machine.RunsTo (step .utc) (InRange .utc) initial scheduler →
        ∀ publication ∈ scheduler.handed, Valid publication := by
  have started : ∃ initial, start .utc (minutelyConfig "backup").jobs epochStart =
      .ok initial ∧ initial.DueInEra := by
    refine ⟨_, rfl, fun index => ?_⟩
    rw [Fin.fin_one_eq_zero index]
    exact ⟨by decide, by decide⟩
  rcases started with ⟨initial, started, dueInEra⟩
  have accepted : (minutelyConfig "backup").validateFor .unix = [] := by decide
  exact ⟨initial, started, (documents_valid_iff accepted rfl started (by decide)
    ⟨by decide, by decide⟩ dueInEra).mpr (by decide)⟩

/-- Sixty-five two-byte letters are a job name the configuration accepts and the validator of the
very first document does not. -/
theorem documents_invalid_accented :
    ∃ config : Config, config.validateFor .unix = [] ∧
      ∃ initial, start .utc config.jobs epochStart = .ok initial ∧ initial.DueInEra ∧
        ∃ publication ∈ initial.handed, ¬Valid publication := by
  have accepted : (minutelyConfig accentedName).validateFor .unix = [] := by decide +kernel
  have started : ∃ initial, start .utc (minutelyConfig accentedName).jobs epochStart =
      .ok initial ∧ initial.DueInEra := by
    refine ⟨_, rfl, fun index => ?_⟩
    rw [Fin.fin_one_eq_zero index]
    exact ⟨by decide, by decide⟩
  rcases started with ⟨initial, started, dueInEra⟩
  refine ⟨_, accepted, initial, started, dueInEra, ?_⟩
  by_contra everyValid
  have fits := (maintained_start accepted rfl started (by decide) ⟨by decide, by decide⟩
    dueInEra).2.mp (by simpa using everyValid)
  have tooLong : ¬accentedName.utf8ByteSize ≤ MAX_SCHEDULER_JOB_NAME_BYTES := by
    decide +kernel
  exact tooLong (fits (ScheduledJobConfig.minutely accentedName) (List.mem_singleton.mpr rfl))

end Runs

end Scheduler

end Gregg
