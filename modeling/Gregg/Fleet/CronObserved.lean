import Gregg.Fleet.Reload

/-!
# What an observation changes

An observation is drawn at its own system only, and a history shows in no row. When applying one
reports no change, every row is as it was, and so is every record of a job that the summary lists.
-/

namespace Gregg

section Comparison

/-- What compares equal is equal. Comparing a value with itself may fail, as for a load that is not
a number. -/
def ComparesSoundly (Value : Type) [BEq Value] : Prop :=
  ∀ left right : Value, (left == right) = true → left = right

theorem comparesSoundly_f32 : ComparesSoundly F32 := by
  intro left right same
  have both : left.le right = true ∧ right.le left = true := by
    simpa only [BEq.beq, Bool.and_eq_true] using same
  rcases both with ⟨le, ge⟩
  rcases left with left | (_ | _) | _ <;> rcases right with right | (_ | _) | _ <;>
    simp_all [F32.le]
  exact Rat.le_antisymm le ge

theorem comparesSoundly_option {Value : Type} [BEq Value] (sound : ComparesSoundly Value) :
    ComparesSoundly (Option Value) := by
  rintro (_ | left) (_ | right) same
  · rfl
  · cases same
  · cases same
  · exact congrArg some (sound left right same)

theorem comparesSoundly_list {Value : Type} [BEq Value] (sound : ComparesSoundly Value) :
    ComparesSoundly (List Value) := by
  intro left
  induction left with
  | nil =>
      rintro (_ | ⟨right, rest⟩) same
      · rfl
      · cases same
  | cons first left ih =>
      rintro (_ | ⟨right, rest⟩) same
      · cases same
      · have both : (first == right) = true ∧ (left == rest) = true := by
          simpa only [List.cons_beq_cons, Bool.and_eq_true] using same
        rw [sound first right both.1, ih rest both.2]

theorem comparesSoundly_loadGate : ComparesSoundly SchedulerLoadGateV2 := by
  rintro ⟨window, threshold, observed⟩ ⟨otherWindow, otherThreshold, otherObserved⟩ same
  have fields : (window == otherWindow) = true ∧ (threshold == otherThreshold) = true ∧
      (observed == otherObserved) = true := by
    simpa only [BEq.beq, instBEqSchedulerLoadGateV2.beq, Bool.and_eq_true] using same
  rcases fields with ⟨sameWindow, sameThreshold, sameObserved⟩
  rw [eq_of_beq sameWindow, comparesSoundly_f32 _ _ sameThreshold,
    comparesSoundly_option comparesSoundly_f32 _ _ sameObserved]

theorem comparesSoundly_job : ComparesSoundly SchedulerJobV2 := by
  rintro ⟨name, schedule, due, jobState, load, pending, retry, running, last⟩
    ⟨otherName, otherSchedule, otherDue, otherState, otherLoad, otherPending, otherRetry,
      otherRunning, otherLast⟩ same
  have fields : (name == otherName) = true ∧ (schedule == otherSchedule) = true ∧
      (due == otherDue) = true ∧ (jobState == otherState) = true ∧ (load == otherLoad) = true ∧
      (pending == otherPending) = true ∧ (retry == otherRetry) = true ∧
      (running == otherRunning) = true ∧ (last == otherLast) = true := by
    simpa only [BEq.beq, instBEqSchedulerJobV2.beq, Bool.and_eq_true] using same
  rcases fields with ⟨sameName, sameSchedule, sameDue, sameState, sameLoad, samePending, sameRetry,
    sameRunning, sameLast⟩
  rw [eq_of_beq sameName, eq_of_beq sameSchedule, eq_of_beq sameDue, eq_of_beq sameState,
    comparesSoundly_option comparesSoundly_loadGate _ _ sameLoad, eq_of_beq samePending,
    eq_of_beq sameRetry, eq_of_beq sameRunning, eq_of_beq sameLast]

theorem comparesSoundly_rendered : ComparesSoundly CronRenderedState := by
  rintro ⟨capability, identity, jobs, lastError⟩
    ⟨otherCapability, otherIdentity, otherJobs, otherError⟩ same
  have fields : (capability == otherCapability) = true ∧ (identity == otherIdentity) = true ∧
      (jobs == otherJobs) = true ∧ (lastError == otherError) = true := by
    simpa only [BEq.beq, instBEqCronRenderedState.beq, Bool.and_eq_true] using same
  rcases fields with ⟨sameCapability, sameIdentity, sameJobs, sameError⟩
  rw [eq_of_beq sameCapability, eq_of_beq sameIdentity,
    comparesSoundly_option (comparesSoundly_list comparesSoundly_job) _ _ sameJobs,
    eq_of_beq sameError]

end Comparison

section NothingAdded

namespace CronJobCache

variable {cache : CronJobCache} {epoch : SchedulerEpochV2} {perJob : ℕ}

/-- Once something was added it stays said. -/
theorem foldl_mergeRecord_of_nothingAdded {records : List SchedulerRunRecordV2}
    {merged : CronJobCache × Bool}
    (nothing : (records.foldl (mergeRecord epoch) merged).2 = false) :
    records.foldl (mergeRecord epoch) merged = merged := by
  induction records generalizing merged with
  | nil => rfl
  | cons record rest ih =>
      have stepSame := ih nothing
      rw [List.foldl_cons, stepSame] at nothing ⊢
      simp only [mergeRecord] at nothing ⊢
      split
      · rfl
      · rename_i fresh
        rw [if_neg fresh] at nothing
        cases nothing

theorem merge_of_nothingAdded {records : List SchedulerRunRecordV2}
    (nothing : (cache.merge epoch records).2 = false) : (cache.merge epoch records).1 = cache := by
  rw [merge, foldl_mergeRecord_of_nothingAdded nothing]

theorem truncate_of_le (within : cache.records.length ≤ perJob) :
    cache.truncate perJob = cache := by
  rw [truncate, Nat.sub_eq_zero_of_le within, List.drop_zero]

end CronJobCache

namespace CronSystemState

variable {state : CronSystemState} {perJob : ℕ}

/-- The records of a ring, none when there is no ring. -/
def recordsIn (jobs : SortedMap String CronJobCache) (name : String) : List CronRecord :=
  ((jobs.find? name).map (·.records)).getD []

/-- A job that adds nothing changes no record; it may bring in an empty ring. -/
theorem mergeJob_of_nothingAdded {epoch : SchedulerEpochV2} {job : SchedulerJobHistoryV2}
    {merged : SortedMap String CronJobCache × Bool} (rings : RingsIn perJob merged.1)
    (nothing : (mergeJob epoch perJob merged job).2 = false) :
    merged.2 = false ∧
      (∀ name, recordsIn (mergeJob epoch perJob merged job).1 name = recordsIn merged.1 name) ∧
      (mergeJob epoch perJob merged job).1.sum (·.records.length) =
        merged.1.sum (·.records.length) := by
  simp only [mergeJob] at nothing ⊢
  split at nothing
  · rename_i skipped
    rw [if_pos skipped]
    exact ⟨nothing, fun _ => rfl, rfl⟩
  · rename_i notSkipped
    rw [if_neg notSkipped]
    rcases (Bool.or_eq_false_iff.mp nothing) with ⟨before, here⟩
    have unchanged : ((((merged.1.find? job.name).getD .empty).merge epoch job.records).1.truncate
        perJob) = (merged.1.find? job.name).getD .empty := by
      rw [CronJobCache.merge_of_nothingAdded here]
      apply CronJobCache.truncate_of_le
      cases found : merged.1.find? job.name with
      | none => exact Nat.zero_le _
      | some ring => exact (rings job.name ring found).depth
    rw [unchanged]
    refine ⟨before, ?_, ?_⟩
    · intro name
      rw [recordsIn, SortedMap.find?_upsert]
      split
      · rename_i isJob
        rw [recordsIn, isJob]
        cases merged.1.find? job.name <;> rfl
      · rfl
    · have summed : (merged.1.upsert job.name fun _ =>
          (merged.1.find? job.name).getD .empty).sum (·.records.length) +
            (merged.1.find? job.name).elim 0 (·.records.length) =
          merged.1.sum (·.records.length) +
            ((merged.1.find? job.name).getD .empty).records.length := SortedMap.sum_upsert
      cases found : merged.1.find? job.name with
      | none =>
          simp only [found, Option.elim_none, Option.getD_none] at summed
          exact summed
      | some ring =>
          simp only [found, Option.elim_some, Option.getD_some] at summed
          exact Nat.add_right_cancel summed

theorem foldl_mergeJob_of_nothingAdded {epoch : SchedulerEpochV2}
    {jobs : List SchedulerJobHistoryV2} {merged : SortedMap String CronJobCache × Bool}
    (rings : RingsIn perJob merged.1)
    (nothing : (jobs.foldl (mergeJob epoch perJob) merged).2 = false) :
    merged.2 = false ∧
      (∀ name, recordsIn (jobs.foldl (mergeJob epoch perJob) merged).1 name =
        recordsIn merged.1 name) ∧
      (jobs.foldl (mergeJob epoch perJob) merged).1.sum (·.records.length) =
        merged.1.sum (·.records.length) := by
  induction jobs generalizing merged with
  | nil => exact ⟨nothing, fun _ => rfl, rfl⟩
  | cons job rest ih =>
      rcases ih (ringsIn_mergeJob rings) nothing with ⟨nothingHere, sameRecords, sameSum⟩
      rcases mergeJob_of_nothingAdded rings nothingHere with ⟨before, recordsHere, sumHere⟩
      exact ⟨before, fun name => (sameRecords name).trans (recordsHere name),
        sameSum.trans sumHere⟩

/-- Stale eviction keeps the records of the jobs that the summary lists, within the ceiling on
jobs. -/
theorem recordsIn_evictStaleJobs {summary : SchedulerSummaryV2} {name : String}
    (isSummary : state.summary = some summary)
    (few : summary.jobs.length ≤ MAX_CRON_JOBS_PER_SYSTEM) :
    recordsIn state.evictStaleJobs.jobs name =
      if name ∈ summary.jobs.map (·.name) then recordsIn state.jobs name else [] := by
  let live := summary.jobs.map (·.name)
  have fits : ∀ kept : SortedMap String CronJobCache, kept.keys ⊆ live →
      kept.keepLast MAX_CRON_JOBS_PER_SYSTEM = kept := by
    intro kept within
    apply SortedMap.keepLast_eq_self
    calc
      kept.keys.length ≤ live.length := 
          (List.subperm_of_subset (SortedMap.nodup_keys kept) within).length_le
      _ = summary.jobs.length := List.length_map _
      _ ≤ MAX_CRON_JOBS_PER_SYSTEM := few
  simp only [evictStaleJobs, isSummary]
  split
  · rename_i allLive
    have within : state.jobs.keys ⊆ live := by
      intro key keyMem
      simpa [live] using List.all_eq_true.mp allLive key keyMem
    rw [fits _ within]
    split
    · rfl
    · rename_i notLive
      have absent : state.jobs.find? name = none :=
        SortedMap.find?_eq_none_iff.mpr fun member => notLive (within member)
      rw [recordsIn, absent]
      rfl
  · have within : (state.jobs.retain (live.contains ·)).keys ⊆ live := by
      intro key keyMem
      rcases SortedMap.mem_keys_iff.mp keyMem with ⟨ring, found⟩
      rw [SortedMap.find?_retain] at found
      split at found
      · rename_i isLive
        simpa using isLive
      · cases found
    have isKept : state.jobs.retain (fun name => (summary.jobs.map (·.name)).contains name) =
        state.jobs.retain (live.contains ·) := rfl
    rw [isKept, fits _ within, recordsIn, SortedMap.find?_retain]
    by_cases isLive : name ∈ live
    · rw [if_pos (by simpa using isLive), if_pos isLive]
      rfl
    · rw [if_neg (by simpa using isLive), if_neg isLive]
      rfl

theorem sum_evictStaleJobs_le :
    state.evictStaleJobs.jobs.sum (·.records.length) ≤ state.jobs.sum (·.records.length) := by
  unfold evictStaleJobs
  split
  · exact Nat.le_refl _
  · apply Nat.le_trans SortedMap.sum_keepLast_le
    split
    · exact Nat.le_refl _
    · exact SortedMap.sum_retain_le

end CronSystemState

namespace CronCache

variable {cache : CronCache} {systemId other : String}

theorem enforceTotal_of_le (within : cache.total ≤ cache.totalCap) :
    cache.enforceTotal = cache := by
  rw [enforceTotal, Nat.sub_eq_zero_of_le within]
  rfl

/-- A merge that adds nothing drops the rings of unlisted jobs and nothing else. -/
theorem applyHistory_of_nothingAdded {history : SchedulerHistoryV2} {state : CronSystemState}
    {summary : SchedulerSummaryV2} {name : String} (maintained : cache.Maintained)
    (capped : cache.total ≤ cache.totalCap) (held : cache.system systemId = some state)
    (isSummary : state.summary = some summary)
    (few : summary.jobs.length ≤ MAX_CRON_JOBS_PER_SYSTEM)
    (nothing : (cache.applyHistory systemId history).2 = false) :
    (((cache.applyHistory systemId history).1.system other).getD .unknown).jobRecords name =
      if other = systemId ∧ name ∉ summary.jobs.map (·.name) then []
      else ((cache.system other).getD .unknown).jobRecords name := by
  let mergedJobs := history.jobs.foldl
    (CronSystemState.mergeJob history.epoch cache.perJob) (state.jobs, false)
  let mergedState : CronSystemState :=
    { state with
      epoch := some history.epoch
      historyRevision := some history.historyRevision
      jobs := mergedJobs.1 }
  have isMerged : (state.applyHistory history cache.perJob).1 = mergedState.evictStaleJobs := rfl
  have noneAdded : mergedJobs.2 = false := by
    have isFlag : (cache.applyHistory systemId history).2 =
        (((cache.system systemId).getD .unknown).applyHistory history cache.perJob).2 := rfl
    rw [isFlag, held] at nothing
    exact nothing
  rcases CronSystemState.foldl_mergeJob_of_nothingAdded
    (maintained.rings systemId state held) noneAdded with ⟨-, sameRecords, sameSum⟩
  have fewer : mergedState.evictStaleJobs.recordCount ≤ state.recordCount := calc
    mergedState.evictStaleJobs.recordCount ≤ mergedJobs.1.sum (·.records.length) :=
      CronSystemState.sum_evictStaleJobs_le
    _ = state.recordCount := sameSum
  have within : (cache.merged systemId history).total ≤ cache.totalCap := by
    have summed : (cache.systemMut systemId fun state =>
        (state.applyHistory history cache.perJob).1).systems.sum (·.recordCount) +
          (cache.system systemId).elim 0 (·.recordCount) =
        cache.systems.sum (·.recordCount) +
          (((cache.system systemId).getD .unknown).applyHistory history
            cache.perJob).1.recordCount := SortedMap.sum_upsert
    rw [held, Option.elim_some, Option.getD_some, isMerged] at summed
    have counted : cache.total = cache.systems.sum (·.recordCount) := maintained.counted
    have isTotal : (cache.merged systemId history).total = (cache.systemMut systemId fun state =>
        (state.applyHistory history cache.perJob).1).systems.sum (·.recordCount) := rfl
    omega
  have isSystem : (cache.applyHistory systemId history).1.system other =
      if other = systemId then some mergedState.evictStaleJobs else cache.system other := by
    rw [applyHistory_eq, enforceTotal_of_le within, system_merged, held, Option.getD_some, isMerged]
  rw [isSystem]
  by_cases isOwn : other = systemId
  · rw [if_pos isOwn, isOwn, held, Option.getD_some, Option.getD_some]
    have evicted : mergedState.evictStaleJobs.jobRecords name =
        if name ∈ summary.jobs.map (·.name) then CronSystemState.recordsIn mergedJobs.1 name
        else [] := CronSystemState.recordsIn_evictStaleJobs isSummary few
    rw [evicted, sameRecords name]
    by_cases listed : name ∈ summary.jobs.map (·.name)
    · rw [if_pos listed, if_neg fun both => both.2 listed]
      rfl
    · rw [if_neg listed, if_pos ⟨rfl, listed⟩]
  · rw [if_neg isOwn, if_neg fun both => isOwn both.1]

end CronCache

end NothingAdded

theorem CronSystemState.renderedState_applyHistory {state : CronSystemState}
    {history : SchedulerHistoryV2} {perJob : ℕ} :
    (state.applyHistory history perJob).1.renderedState = state.renderedState := by
  simp only [CronSystemState.applyHistory, CronSystemState.evictStaleJobs]
  split <;> rfl

/-- A merge shows in no row: what is drawn of the jobs comes from the summary. -/
theorem CronCache.rendered_applyHistory {cache : CronCache} {systemId other : String}
    {history : SchedulerHistoryV2} :
    ((cache.applyHistory systemId history).1.system other).map (·.renderedState) =
      if other = systemId then some ((cache.system systemId).getD .unknown).renderedState
      else (cache.system other).map (·.renderedState) := by
  rw [applyHistory_eq]
  apply enforceTotal_of_kept fun evicting =>
    (evicting.system other).map (·.renderedState) =
      if other = systemId then some ((cache.system systemId).getD .unknown).renderedState
      else (cache.system other).map (·.renderedState)
  · rw [system_merged]
    split
    · exact congrArg some CronSystemState.renderedState_applyHistory
    · rfl
  · exact fun _ held => held
  · intro evicting victim held
    rw [← held, system_evict]
    split
    · rename_i isVictim
      rw [Option.map_map, ← isVictim]
      rfl
    · rfl

namespace Fleet

open Clientd (Endpoint)

namespace CronObservation

variable {observation : CronObservation} {cache : CronCache} {other : String}

/-- What is drawn of a system after an observation of it. -/
def shows (observation : CronObservation) (before : CronRenderedState) : CronRenderedState :=
  match observation.summary with
  | .supported document =>
      { capability := .supported
        identity := some (document.epoch, document.historyRevision)
        jobs := some document.jobs
        lastError := observation.historyError }
  | .unsupported =>
      { capability := .unsupported, identity := none, jobs := none, lastError := none }
  | .failed error => { before with lastError := some error }

theorem rendered_systemMut {systemId : String} {change : CronSystemState → CronSystemState} :
    ((cache.systemMut systemId change).system other).map (·.renderedState) =
      if other = systemId then
        some (change ((cache.system systemId).getD .unknown)).renderedState
      else (cache.system other).map (·.renderedState) := by
  rw [CronCache.system_systemMut]
  split <;> rfl

theorem rendered_recordHistory {state : CronSystemState}
    (held : cache.system observation.systemId = some state) :
    ((observation.recordHistory cache).1.system other).map (·.renderedState) =
      (cache.system other).map (·.renderedState) := by
  simp only [recordHistory]
  split
  · rw [CronCache.rendered_applyHistory, held]
    split
    · rename_i isOwn
      rw [isOwn, held]
      rfl
    · rfl
  · rfl

theorem rendered_recordError {shown : CronRenderedState}
    (held : (cache.system observation.systemId).map (·.renderedState) = some shown) :
    ((observation.recordError cache).system other).map (·.renderedState) =
      if other = observation.systemId then
        some { shown with lastError := observation.historyError.or shown.lastError }
      else (cache.system other).map (·.renderedState) := by
  rcases Option.map_eq_some_iff.mp held with ⟨state, isHeld, rfl⟩
  simp only [recordError]
  split
  · rename_i error isError
    rw [rendered_systemMut, isHeld, isError]
    rfl
  · rename_i noError
    split
    · rename_i isOwn
      rw [isOwn, isHeld, noError]
      rfl
    · rfl

/-- An observation is drawn at its own system and nowhere else. -/
theorem rendered_record :
    ((observation.record cache).1.system other).map (·.renderedState) =
      if other = observation.systemId then
        some (observation.shows ((cache.system observation.systemId).getD .unknown).renderedState)
      else (cache.system other).map (·.renderedState) := by
  cases isSummary : observation.summary with
  | supported document =>
      simp only [record, shows, isSummary]
      have summarized : ∀ other, ((cache.applySummary observation.systemId document
          observation.nowUnixMs).system other).map (·.renderedState) =
            if other = observation.systemId then
              some { capability := .supported
                     identity := some (document.epoch, document.historyRevision)
                     jobs := some document.jobs
                     lastError := none }
            else (cache.system other).map (·.renderedState) := fun other => rendered_systemMut
      have own := summarized observation.systemId
      rw [if_pos rfl] at own
      rcases Option.map_eq_some_iff.mp own with ⟨state, held, -⟩
      rw [rendered_recordError ((rendered_recordHistory held).trans own),
        rendered_recordHistory held, summarized other]
      split
      · simp
      · rfl
  | unsupported =>
      simp only [record, shows, isSummary]
      exact rendered_systemMut
  | failed error =>
      simp only [record, shows, isSummary]
      exact rendered_systemMut

theorem jobs_systemMut {systemId : String} {change : CronSystemState → CronSystemState}
    (sameJobs : ∀ state, (change state).jobs = state.jobs) :
    (((cache.systemMut systemId change).system other).getD .unknown).jobs =
      ((cache.system other).getD .unknown).jobs := by
  rw [CronCache.system_systemMut]
  split
  · rename_i isOwn
    rw [isOwn, Option.getD_some, sameJobs]
  · rfl

/-- Without a history to merge no ring changes. -/
theorem jobs_record (noHistory : ∀ document, observation.summary = .supported document →
    observation.history = none) :
    (((observation.record cache).1.system other).getD .unknown).jobs =
      ((cache.system other).getD .unknown).jobs := by
  have sameRings : ∀ (change : CronSystemState → CronSystemState) (cache : CronCache),
      (∀ state, (change state).jobs = state.jobs) →
      (((cache.systemMut observation.systemId change).system other).getD .unknown).jobs =
        ((cache.system other).getD .unknown).jobs := fun _ _ => jobs_systemMut
  simp only [record]
  split
  · rename_i document isSummary
    have summarized := sameRings (·.applySummary document observation.nowUnixMs) cache
      fun _ => rfl
    simp only [recordHistory, noHistory document isSummary, recordError]
    split
    · rename_i error _
      exact (sameRings (·.markFailed error observation.nowUnixMs) _ fun _ => rfl).trans summarized
    · exact summarized
  · exact sameRings (fun state =>
      { state.markUnsupported with lastAttemptAtUnixMs := some observation.nowUnixMs }) cache
      fun _ => rfl
  · rename_i error _
    exact sameRings (·.markFailed error observation.nowUnixMs) cache fun _ => rfl

theorem bounded_record {perJob totalCap : ℕ} (bounded : cache.Bounded perJob totalCap) :
    (observation.record cache).1.Bounded perJob totalCap := by
  have failed : ∀ {before : CronCache} {error : CronFetchError}, before.Bounded perJob totalCap →
      (before.systemMut observation.systemId (·.markFailed error
        observation.nowUnixMs)).Bounded perJob totalCap :=
    fun {_ error} before => before.step (rfl : CronCache.step _ (.markFailed observation.systemId
      error observation.nowUnixMs) = _)
  simp only [record]
  split
  · rename_i document _
    have summarized : (cache.applySummary observation.systemId document
        observation.nowUnixMs).Bounded perJob totalCap :=
      bounded.step (rfl : CronCache.step _ (.applySummary _ _ _) = _)
    have merged : (observation.recordHistory (cache.applySummary observation.systemId document
        observation.nowUnixMs)).1.Bounded perJob totalCap := by
      simp only [recordHistory]
      split
      · rename_i history _
        exact summarized.step (rfl : CronCache.step _ (.applyHistory observation.systemId history) =
          _)
      · exact summarized
    simp only [recordError]
    split
    · exact failed merged
    · exact merged
  · exact bounded.step (rfl : CronCache.step _ (.markUnsupported observation.systemId
      observation.nowUnixMs) = _)
  · exact failed bounded

/-- Where an observation adds no record, none of a job its summary lists goes. -/
theorem records_record {name : String} (maintained : cache.Maintained)
    (capped : cache.total ≤ cache.totalCap)
    (few : ∀ document, observation.summary = .supported document →
      document.jobs.length ≤ MAX_CRON_JOBS_PER_SYSTEM)
    (nothing : (observation.record cache).2 = false) :
    (((observation.record cache).1.system other).getD .unknown).jobRecords name =
        ((cache.system other).getD .unknown).jobRecords name ∨
      ((((observation.record cache).1.system other).getD .unknown).jobRecords name = [] ∧
        other = observation.systemId ∧ ∃ document, observation.summary = .supported document ∧
          name ∉ document.jobs.map (·.name)) := by
  by_cases noHistory : ∀ document, observation.summary = .supported document →
      observation.history = none
  · left
    rw [CronSystemState.jobRecords, jobs_record noHistory]
    rfl
  · push Not at noHistory
    rcases noHistory with ⟨document, isSummary, hasHistory⟩
    rcases Option.ne_none_iff_exists'.mp hasHistory with ⟨history, isHistory⟩
    let summarized := cache.applySummary observation.systemId document observation.nowUnixMs
    have isRecord : observation.record cache =
        (observation.recordError (summarized.applyHistory observation.systemId history).1,
          (summarized.applyHistory observation.systemId history).2) := by
      simp only [record, isSummary, recordHistory, isHistory]
      rfl
    have summarizedMaintained : summarized.Maintained := maintained.systemMut fun _ => rfl
    have own : summarized.system observation.systemId =
        some (((cache.system observation.systemId).getD .unknown).applySummary document
          observation.nowUnixMs) := SortedMap.find?_upsert_self
    have merged : (((summarized.applyHistory observation.systemId history).1.system other).getD
        .unknown).jobRecords name =
          if other = observation.systemId ∧ name ∉ document.jobs.map (·.name) then []
          else ((summarized.system other).getD .unknown).jobRecords name :=
      CronCache.applyHistory_of_nothingAdded summarizedMaintained capped own rfl
        (few document isSummary) (by rw [isRecord] at nothing; exact nothing)
    have sameRings : ∀ before : CronCache,
        (((observation.recordError before).system other).getD .unknown).jobs =
          ((before.system other).getD .unknown).jobs := by
      intro before
      simp only [recordError]
      split
      · exact jobs_systemMut fun _ => rfl
      · rfl
    have summarizedRings : ((summarized.system other).getD .unknown).jobs =
        ((cache.system other).getD .unknown).jobs := jobs_systemMut fun _ => rfl
    rw [isRecord, CronSystemState.jobRecords, sameRings]
    rw [CronSystemState.jobRecords] at merged
    rw [merged]
    split
    · rename_i dropped
      exact .inr ⟨rfl, dropped.1, document, isSummary, dropped.2⟩
    · left
      rw [CronSystemState.jobRecords, summarizedRings]
      rfl

/-- What was drawn of every system still is, when applying an observation reports no change. -/
theorem rendered_of_unchanged (unchanged : (observation.apply cache).2 = false) :
    (observation.record cache).2 = false ∧ ∀ other,
      ((observation.apply cache).1.system other).map (·.renderedState) =
        (cache.system other).map (·.renderedState) := by
  rw [apply_fst]
  simp only [apply] at unchanged
  split at unchanged
  · cases unchanged
  · rename_i notMerged
    have same : ((observation.record cache).1.system observation.systemId).map (·.renderedState) =
        (cache.system observation.systemId).map (·.renderedState) :=
      comparesSoundly_option comparesSoundly_rendered _ _ (Bool.not_inj unchanged)
    refine ⟨Bool.eq_false_iff.mpr notMerged, ?_⟩
    intro other
    by_cases isOwn : other = observation.systemId
    · rw [isOwn, same]
    · rw [rendered_record, if_neg isOwn]

end CronObservation

end Fleet

end Gregg
