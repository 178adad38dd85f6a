import Gregg.Greggd.Conservation

/-!
# The history revision

A client downloads a history only when its revision has moved, so a revision has to stand for one
content. Every record moves the revision, up to the point where the counter saturates, and nothing
else changes a history. A scheduler's calendar is too small for its counter ever to get there.
-/

namespace Gregg

/-- A pair whose documents name one epoch and one revision, and whose rows show the newest record
of their histories. -/
structure SchedulerPublication.Coherent (publication : SchedulerPublication) : Prop where
  epoch : publication.summary.epoch = publication.history.epoch
  revision : publication.summary.historyRevision = publication.history.historyRevision
  newest : publication.summary.jobs.map (·.last) =
    publication.history.jobs.map fun history => history.records.getLast?.map (·.summary)

/-- What the scheduler asks of its observer. The rows of a publication are given without their
last run, which the caller takes from the observer. -/
inductive ObserverEvent (jobCount : ℕ) where
  | record (index : Fin jobCount) (record : TerminalRecord) (outcome : SchedulerOutcomeV2)
  | publish (rows : Fin jobCount → SchedulerJobV2) (generatedAtUnixMs : ℕ) (serializes : Bool)

/-- An observer with the pairs its publisher was given so far, oldest first. -/
structure ObservedScheduler (jobCount : ℕ) where
  observer : SchedulerObserver jobCount
  published : List SchedulerPublication

namespace ObservedScheduler

variable {jobCount : ℕ} {state : ObservedScheduler jobCount} {event : ObserverEvent jobCount}

def start (names : Fin jobCount → String) (limit : ℕ) (epoch : SchedulerEpochV2) :
    ObservedScheduler jobCount :=
  { observer := .new names limit epoch, published := [] }

def rowsOf (state : ObservedScheduler jobCount) (rows : Fin jobCount → SchedulerJobV2) :
    List SchedulerJobV2 :=
  List.ofFn fun index => { rows index with last := state.observer.lastSummary index }

def observe (state : ObservedScheduler jobCount) : ObserverEvent jobCount →
    ObservedScheduler jobCount
  | .record index record outcome =>
      { state with observer := (state.observer.recordTerminal index record outcome).2 }
  | .publish rows generatedAtUnixMs serializes =>
      let (publication, observer) :=
        state.observer.publish (state.rowsOf rows) generatedAtUnixMs serializes
      { observer
        published := state.published ++ if serializes then publication.toList else [] }

def after (state : ObservedScheduler jobCount) (events : List (ObserverEvent jobCount)) :
    ObservedScheduler jobCount :=
  events.foldl observe state

theorem after_append (events later : List (ObserverEvent jobCount)) :
    state.after (events ++ later) = (state.after events).after later :=
  List.foldl_append

/-- A publication leaves the histories and their revision alone and adds at most the pair of the
current ones. -/
theorem observe_publish (state : ObservedScheduler jobCount)
    (rows : Fin jobCount → SchedulerJobV2) (generatedAtUnixMs : ℕ) (serializes : Bool) :
    ∃ lastPublished added,
      state.observe (.publish rows generatedAtUnixMs serializes) =
        { observer := { state.observer with lastPublished }
          published := state.published ++ added } ∧
      (added = [] ∨ added = [.of generatedAtUnixMs state.observer.epoch
        state.observer.historyRevision (state.rowsOf rows)
        (List.ofFn state.observer.wireHistory)]) := by
  simp only [observe, SchedulerObserver.publish]
  split
  · refine ⟨state.observer.lastPublished, [], ?_, .inl rfl⟩
    cases serializes <;> rfl
  · cases serializes with
    | false => exact ⟨state.observer.lastPublished, [], rfl, .inl rfl⟩
    | true => exact ⟨_, _, rfl, .inr rfl⟩

/-- The rows of a pair of the current histories show their newest records. -/
theorem coherent_of_current (disabled : state.observer.limit = 0 →
      ∀ index, (state.observer.histories index).records = [])
    (rows : Fin jobCount → SchedulerJobV2) (generatedAtUnixMs : ℕ) :
    (SchedulerPublication.of generatedAtUnixMs state.observer.epoch
      state.observer.historyRevision (state.rowsOf rows)
      (List.ofFn state.observer.wireHistory)).Coherent where
  epoch := rfl
  revision := rfl
  newest := by
    simp only [SchedulerPublication.of, rowsOf, List.map_ofFn]
    congr 1
    funext index
    simp only [Function.comp_apply, SchedulerObserver.lastSummary, SchedulerObserver.wireHistory]
    split
    · rename_i isDisabled
      simp [disabled isDisabled index]
    · rfl

/-- A revision that has not saturated stands for one content. -/
def SameContent (one other : SchedulerPublication) : Prop :=
  one.history.historyRevision = other.history.historyRevision →
    other.history.historyRevision < u64Max → one.history.jobs = other.history.jobs

theorem SameContent.symm {one other : SchedulerPublication} (same : SameContent one other) :
    SameContent other one := by
  intro sameRevision unsaturated
  rw [← sameRevision] at unsaturated
  exact (same sameRevision.symm unsaturated).symm

/-- Every published pair is coherent and stands for what the observer holds at its revision. -/
structure Identified (state : ObservedScheduler jobCount) : Prop where
  bounded : state.observer.historyRevision ≤ u64Max
  disabled : state.observer.limit = 0 → ∀ index, (state.observer.histories index).records = []
  coherent : ∀ publication ∈ state.published, publication.Coherent
  current : ∀ publication ∈ state.published,
    publication.history.historyRevision ≤ state.observer.historyRevision ∧
      (publication.history.historyRevision = state.observer.historyRevision →
        state.observer.historyRevision < u64Max →
          publication.history.jobs = List.ofFn state.observer.wireHistory)
  ordered : state.published.Pairwise fun earlier later =>
    earlier.history.historyRevision ≤ later.history.historyRevision ∧ SameContent earlier later

theorem recordTerminal_historyRevision {observer : SchedulerObserver jobCount}
    {index : Fin jobCount} {record : TerminalRecord} {outcome : SchedulerOutcomeV2} :
    (observer.recordTerminal index record outcome).2.historyRevision =
      satAdd observer.historyRevision 1 := by
  unfold SchedulerObserver.recordTerminal
  split <;> rfl

theorem recordTerminal_lastPublished {observer : SchedulerObserver jobCount}
    {index : Fin jobCount} {record : TerminalRecord} {outcome : SchedulerOutcomeV2} :
    (observer.recordTerminal index record outcome).2.lastPublished = observer.lastPublished := by
  unfold SchedulerObserver.recordTerminal
  split <;> rfl

theorem Identified.observe (identified : state.Identified) : (state.observe event).Identified := by
  cases event with
  | record index record outcome =>
      have bounded := identified.bounded
      have moved : (state.observe (.record index record outcome)).observer.historyRevision =
          min (state.observer.historyRevision + 1) u64Max := recordTerminal_historyRevision
      refine ⟨by omega, ?_, identified.coherent, ?_, identified.ordered⟩
      · intro isDisabled other
        have isDisabled : state.observer.limit = 0 := by
          simpa [ObservedScheduler.observe] using isDisabled
        simp only [ObservedScheduler.observe]
        rw [SchedulerObserver.recordTerminal_histories_of_disabled isDisabled]
        exact identified.disabled isDisabled other
      · intro publication published
        have earlier := (identified.current publication published).1
        rw [moved]
        -- The new revision is past every published one, unless it is the last number.
        refine ⟨by omega, ?_⟩
        intro same unsaturated
        omega
  | publish rows generatedAtUnixMs serializes =>
      rcases observe_publish state rows generatedAtUnixMs serializes with
        ⟨lastPublished, added, observed, rfl | rfl⟩
      · rw [observed, List.append_nil]
        exact ⟨identified.bounded, identified.disabled, identified.coherent, identified.current,
          identified.ordered⟩
      · rw [observed]
        refine ⟨identified.bounded, identified.disabled, ?_, ?_, ?_⟩
        · intro publication published
          rcases List.mem_append.mp published with earlier | new
          · exact identified.coherent publication earlier
          · rw [List.mem_singleton.mp new]
            exact coherent_of_current identified.disabled rows generatedAtUnixMs
        · intro publication published
          rcases List.mem_append.mp published with earlier | new
          · exact identified.current publication earlier
          · rw [List.mem_singleton.mp new]
            exact ⟨Nat.le_refl _, fun _ _ => rfl⟩
        · rw [List.pairwise_append]
          refine ⟨identified.ordered, List.pairwise_singleton _ _, ?_⟩
          intro earlier isEarlier later isLater
          rw [List.mem_singleton.mp isLater]
          exact identified.current earlier isEarlier

theorem Identified.after (identified : state.Identified)
    (events : List (ObserverEvent jobCount)) : (state.after events).Identified := by
  induction events generalizing state with
  | nil => exact identified
  | cons event rest ih => exact ih identified.observe

theorem identified_start (names : Fin jobCount → String) (limit : ℕ) (epoch : SchedulerEpochV2) :
    (start names limit epoch).Identified := by
  refine ⟨Nat.zero_le _, fun _ _ => rfl, ?_, ?_, .nil⟩
  · simp [start]
  · simp [start]

theorem historyRevision_le_issued (names : Fin jobCount → String) (limit : ℕ)
    (epoch : SchedulerEpochV2) (events : List (ObserverEvent jobCount)) :
    ((start names limit epoch).after events).observer.historyRevision ≤
      ((start names limit epoch).after events).observer.issued.length := by
  induction events using List.reverseRecOn with
  | nil => exact Nat.le_refl _
  | append_singleton events event ih =>
      rw [after_append]
      generalize (start names limit epoch).after events = state at ih
      cases event with
      | record index record outcome =>
          have counted := satAdd_le state.observer.historyRevision 1
          have moved : (state.after [.record index record outcome]).observer.historyRevision =
              satAdd state.observer.historyRevision 1 := recordTerminal_historyRevision
          have issued : (state.after [.record index record outcome]).observer.issued =
              state.observer.issued ++ [⟨index, record.occurrence, _, outcome⟩] :=
            SchedulerObserver.recordTerminal_issued
          rw [moved, issued, List.length_append, List.length_singleton]
          omega
      | publish rows generatedAtUnixMs serializes =>
          rcases observe_publish state rows generatedAtUnixMs serializes with
            ⟨lastPublished, added, observed, -⟩
          rw [after, List.foldl_cons, List.foldl_nil, observed]
          exact ih

/-- Whatever the observer is asked for and in whichever order, its pairs are coherent, their
revisions never decrease, and below the last number one revision stands for one content. -/
theorem revision_identifies_history (names : Fin jobCount → String) (limit : ℕ)
    (epoch : SchedulerEpochV2) (events : List (ObserverEvent jobCount)) :
    (∀ publication ∈ ((start names limit epoch).after events).published,
      publication.Coherent) ∧
    ((start names limit epoch).after events).published.Pairwise (fun earlier later =>
      earlier.history.historyRevision ≤ later.history.historyRevision) ∧
    ∀ one ∈ ((start names limit epoch).after events).published,
      ∀ other ∈ ((start names limit epoch).after events).published,
        one.history.epoch = other.history.epoch →
        one.history.historyRevision = other.history.historyRevision →
        one.history.historyRevision < u64Max → one.history.jobs = other.history.jobs := by
  have identified := (identified_start names limit epoch).after events
  refine ⟨identified.coherent, identified.ordered.imp And.left, ?_⟩
  have agree := identified.ordered.imp And.right
  have agreeBoth : ∀ ⦃one⦄, one ∈ ((start names limit epoch).after events).published →
      ∀ ⦃other⦄, other ∈ ((start names limit epoch).after events).published →
        SameContent one other :=
    List.Pairwise.forall_of_forall_of_flip (fun _ _ _ _ => rfl) agree
      (agree.imp SameContent.symm)
  intro one isOne other isOther _ same unsaturated
  rw [same] at unsaturated
  exact agreeBoth isOne isOther same unsaturated

/-- A run of nothing but one record moves both counters until they saturate. -/
theorem after_replicate (names : Fin jobCount → String) (limit : ℕ) (epoch : SchedulerEpochV2)
    (index : Fin jobCount) (record : TerminalRecord) (outcome : SchedulerOutcomeV2) (count : ℕ) :
    ∃ observer : SchedulerObserver jobCount,
      (start names limit epoch).after (List.replicate count (.record index record outcome)) =
        { observer, published := [] } ∧
      observer.epoch = epoch ∧ observer.limit = limit ∧ observer.lastPublished = none ∧
      observer.nextSequence = min (count + 1) u64Max ∧
      observer.historyRevision = min count u64Max := by
  induction count with
  | zero => exact ⟨_, rfl, rfl, rfl, rfl, rfl, rfl⟩
  | succ count ih =>
      rcases ih with ⟨observer, before, sameEpoch, sameLimit, unpublished, sequence, revision⟩
      rw [List.replicate_succ', after_append, before]
      refine ⟨_, rfl, ?_, ?_, ?_, ?_, ?_⟩
      · rw [SchedulerObserver.recordTerminal_epoch, sameEpoch]
      · rw [SchedulerObserver.recordTerminal_limit, sameLimit]
      · rw [recordTerminal_lastPublished, unpublished]
      · rw [SchedulerObserver.recordTerminal_nextSequence, sequence, satAdd]
        omega
      · rw [recordTerminal_historyRevision, revision, satAdd]
        omega

section Saturation

/-- A row of a job that never ran. -/
def unrunRow (name : String) : SchedulerJobV2 where
  name := name
  schedule := "* * * * *"
  nextDueUnixMs := 0
  state := .idle
  load := none
  pendingSinceUnixMs := none
  nextRetryUnixMs := none
  runningSinceUnixMs := none
  last := none

/-- A record of one of two kinds, of the only job. -/
def lastRecord (outcome : SchedulerOutcomeV2) : ObserverEvent 1 :=
  .record 0 (.withoutChild 0 0 0 0 false) outcome

def publishRow : ObserverEvent 1 :=
  .publish (fun _ => unrunRow "backup") 0 true

theorem SchedulerJobV2.last_eq_of_beq {left right : SchedulerJobV2}
    (same : (left == right) = true) : left.last = right.last := by
  rcases left with ⟨_, _, _, _, _, _, _, _, left⟩
  rcases right with ⟨_, _, _, _, _, _, _, _, right⟩
  simp only [BEq.beq, instBEqSchedulerJobV2.beq, Bool.and_eq_true] at same
  exact eq_of_beq same.2.2.2.2.2.2.2.2

theorem PublishedComparable.jobs_beq {left right : PublishedComparable}
    (same : (left == right) = true) : (left.jobs == right.jobs) = true := by
  rcases left with ⟨_, _, left⟩
  rcases right with ⟨_, _, right⟩
  simp only [BEq.beq, instBEqPublishedComparable.beq, Bool.and_eq_true] at same
  exact same.2.2

theorem map_last_eq_of_beq {left right : List SchedulerJobV2} (same : (left == right) = true) :
    left.map (·.last) = right.map (·.last) := by
  induction left generalizing right with
  | nil =>
      cases right with
      | nil => rfl
      | cons row rows => cases same
  | cons row rows ih =>
      cases right with
      | nil => cases same
      | cons other others =>
          simp only [List.cons_beq_cons, Bool.and_eq_true] at same
          rw [List.map_cons, List.map_cons, SchedulerJobV2.last_eq_of_beq same.1, ih same.2]

/-- The pair of the current history of the only job. -/
def currentPair (observer : SchedulerObserver 1) : SchedulerPublication :=
  .of 0 observer.epoch observer.historyRevision
    (rowsOf { observer, published := [] } fun _ => unrunRow "backup")
    (List.ofFn observer.wireHistory)

/-- A row whose last run is not the one published before is published. -/
theorem observe_publishRow (observer : SchedulerObserver 1)
    (published : List SchedulerPublication)
    (isNew : ∀ previous ∈ observer.lastPublished,
      previous.jobs.map (·.last) ≠ [observer.lastSummary 0]) :
    ∃ comparable : PublishedComparable,
      comparable.jobs.map (·.last) = [observer.lastSummary 0] ∧
      observe { observer, published } publishRow =
        { observer := { observer with lastPublished := some comparable }
          published := published ++ [currentPair observer] } := by
  let comparable : PublishedComparable :=
    { epoch := observer.epoch
      historyRevision := observer.historyRevision
      jobs := rowsOf { observer, published } fun _ => unrunRow "backup" }
  have differs : ¬(observer.lastPublished.any fun previous => previous == comparable) = true := by
    rw [Option.any_eq_true]
    rintro ⟨previous, isPrevious, same⟩
    exact isNew previous isPrevious (map_last_eq_of_beq (PublishedComparable.jobs_beq same))
  refine ⟨comparable, rfl, ?_⟩
  simp only [comparable] at differs
  simp only [observe, publishRow, SchedulerObserver.publish, if_neg differs]
  rfl

/-- The only history holds the last record it was given. -/
theorem observe_lastRecord (observer : SchedulerObserver 1)
    (published : List SchedulerPublication) (limit : observer.limit = 1)
    (outcome : SchedulerOutcomeV2) :
    ∃ recorded : SchedulerObserver 1,
      observe { observer, published } (lastRecord outcome) = { observer := recorded, published } ∧
      recorded.limit = 1 ∧ recorded.lastPublished = observer.lastPublished ∧
      recorded.epoch = observer.epoch ∧
      recorded.historyRevision = satAdd observer.historyRevision 1 ∧
      (recorded.lastSummary 0).map (·.outcome) = some outcome ∧
      (recorded.wireHistory 0).records.map (·.outcome) = [outcome] := by
  refine ⟨_, rfl, ?_⟩
  simp [SchedulerObserver.recordTerminal, limit, SchedulerObserver.wireHistory,
    SchedulerObserver.lastSummary, JobHistory.pushBounded, SchedulerObserver.wireRecord]

theorem after_records (count : ℕ) :
    ∃ observer : SchedulerObserver 1,
      (start (fun _ => "backup") 1 ⟨0, 0⟩).after (List.replicate count (lastRecord .success)) =
        { observer, published := [] } ∧
      observer.limit = 1 ∧ observer.lastPublished = none ∧
      observer.historyRevision = min count u64Max := by
  rcases after_replicate (fun _ : Fin 1 => "backup") 1 ⟨0, 0⟩ 0
    (.withoutChild 0 0 0 0 false) .success count with
    ⟨observer, recorded, -, limit, unpublished, -, revision⟩
  exact ⟨observer, recorded, limit, unpublished, revision⟩

/-- Once the counter has saturated, two histories that differ are published under one revision. -/
theorem revision_shared_at_saturation :
    ∃ events : List (ObserverEvent 1),
      ∃ one ∈ ((start (fun _ => "backup") 1 ⟨0, 0⟩).after events).published,
        ∃ other ∈ ((start (fun _ => "backup") 1 ⟨0, 0⟩).after events).published,
          one.history.epoch = other.history.epoch ∧
          one.history.historyRevision = other.history.historyRevision ∧
          one.history.jobs ≠ other.history.jobs := by
  rcases after_records u64Max with ⟨first, ran, limit, unpublished, revision⟩
  rcases observe_lastRecord first [] limit .success with
    ⟨second, recorded, limit, secondPublished, -, secondRevision, succeeded, successes⟩
  rcases observe_publishRow second [] (by simp [secondPublished, unpublished]) with
    ⟨comparable, lasts, published⟩
  rcases observe_lastRecord { second with lastPublished := some comparable }
      ([] ++ [currentPair second]) limit .failed with
    ⟨third, failed, -, thirdPublished, sameEpoch, thirdRevision, hasFailed, failures⟩
  have isNew : ∀ previous ∈ third.lastPublished,
      previous.jobs.map (·.last) ≠ [third.lastSummary 0] := by
    rw [thirdPublished]
    rintro previous ⟨⟩ same
    rw [lasts, List.singleton_inj] at same
    rw [same, hasFailed] at succeeded
    cases succeeded
  rcases observe_publishRow third ([] ++ [currentPair second]) isNew with ⟨_, -, publishedAgain⟩
  have finish : ((start (fun _ => "backup") 1 ⟨0, 0⟩).after
      (List.replicate u64Max (lastRecord .success) ++
        [lastRecord .success, publishRow, lastRecord .failed, publishRow])).published =
      [currentPair second, currentPair third] := by
    rw [after_append, ran]
    simp only [after, List.foldl_cons, List.foldl_nil, recorded, published, failed,
      publishedAgain]
    rfl
  refine ⟨_, currentPair second, by rw [finish]; simp, currentPair third,
    by rw [finish]; simp, ?_, ?_, ?_⟩
  · exact sameEpoch.symm
  · have secondIs : second.historyRevision = u64Max := by
      rw [secondRevision, revision, satAdd]
      omega
    have thirdIs : third.historyRevision = satAdd second.historyRevision 1 := thirdRevision
    change second.historyRevision = third.historyRevision
    rw [thirdIs, secondIs, satAdd]
    omega
  · intro same
    have sameHistory : second.wireHistory 0 = third.wireHistory 0 :=
      congrFun (List.ofFn_injective same) 0
    rw [sameHistory, failures] at successes
    cases successes

end Saturation

end ObservedScheduler

namespace Scheduler

variable {configs : List ScheduledJobConfig} {zone : LocalZone}
  {origin current moved initial scheduler : Scheduler configs}
  {event : SchedulerEvent configs.length}

/-- A move of the scheduler asks at most one thing of its observer. -/
theorem observed_of_move (move : Move zone origin event current moved)
    (published : List SchedulerPublication) :
    ∃ events : List (ObserverEvent configs.length), ∃ after,
      ObservedScheduler.after { observer := current.engine.observer, published } events =
        { observer := moved.engine.observer, published := after } := by
  cases move with
  | mark _ => exact ⟨[], published, rfl⟩
  | expire _ _ => exact ⟨[.record _ _ _], published, rfl⟩
  | defer _ => exact ⟨[], published, rfl⟩
  | spawn _ _ _ => exact ⟨[], published, rfl⟩
  | refuse _ _ => exact ⟨[.record _ _ _], published, rfl⟩
  | finish _ => exact ⟨[.record _ _ _], published, rfl⟩
  | @publish wallNow serializes _ =>
      exact ⟨[.publish (current.engine.publishedJob current.running) (unixMillis wallNow)
        serializes], _, rfl⟩

/-- The observer of a scheduler that took some steps was asked for records and publications only. -/
theorem observed_of_runs {admissible : Scheduler configs → SchedulerEvent configs.length → Prop}
    {input : StartInput} (started : start zone configs input = .ok initial)
    (runs : Machine.RunsTo (step zone) admissible initial scheduler) :
    ∃ events published,
      (ObservedScheduler.start (fun index => (configs.get index).name) input.historyLimit
        (makeEpoch input.processId input.epochCounter input.startedAtUnixMs)).after events =
        { observer := scheduler.engine.observer, published } := by
  apply runs.invariant (fun state : Scheduler configs => ∃ events published,
    (ObservedScheduler.start (fun index => (configs.get index).name) input.historyLimit
      (makeEpoch input.processId input.epochCounter input.startedAtUnixMs)).after events =
        { observer := state.engine.observer, published })
  · rcases start_eq_ok started with ⟨-, -, engine, observer, -, rfl⟩
    have published : Move zone { engine, active := none, handed := [] }
        (.publish input.publishWall input.serializes) { engine, active := none, handed := [] } _ :=
      .publish
    rcases observed_of_move published [] with ⟨events, after, observed⟩
    rw [observer] at observed
    exact ⟨events, after, observed⟩
  · intro state event next observed _ stepped
    refine step_invariant (fun state : Scheduler configs => ∃ events published,
      (ObservedScheduler.start (fun index => (configs.get index).name) input.historyLimit
        (makeEpoch input.processId input.epochCounter input.startedAtUnixMs)).after events =
          { observer := state.engine.observer, published }) ?_ observed stepped
    rintro current moved ⟨events, published, observed⟩ move
    rcases observed_of_move move published with ⟨more, after, observedMore⟩
    refine ⟨events ++ more, after, ?_⟩
    rw [ObservedScheduler.after_append, observed, observedMore]

/-- In the daemon the revision never saturates. -/
theorem historyRevision_lt {admissible : Scheduler configs → SchedulerEvent configs.length → Prop}
    {input : StartInput} (started : start zone configs input = .ok initial)
    (runs : Machine.RunsTo (step zone) admissible initial scheduler) :
    scheduler.engine.observer.historyRevision < u64Max := by
  have counted : scheduler.engine.observer.historyRevision ≤ scheduler.issued.length := by
    rcases observed_of_runs started runs with ⟨events, published, observed⟩
    have counts := ObservedScheduler.historyRevision_le_issued
      (fun index => (configs.get index).name) input.historyLimit
      (makeEpoch input.processId input.epochCounter input.startedAtUnixMs) events
    rwa [observed] at counts
  have fewJobs := (start_eq_ok started).1
  exact Nat.lt_of_le_of_lt counted (length_issued_lt (consistent_of_runs started runs) fewJobs)

end Scheduler

end Gregg
