import Gregg.Lib.Ledger
import Gregg.Greggd.SchedulerRun

/-!
# Occurrence conservation

The scheduler refines the token ledger: an occurrence is a token, a pending slot is a waiting
place, the child slot is the active place, and a terminal record settles its occurrence. Since the
calendar is finite, a job set has fewer occurrences than there are sequence numbers, so the
saturating sequence counter never saturates.
-/

namespace Gregg

/-- What the due loop did with one job. -/
inductive JobState.Marked (zone : LocalZone) (input : TickInput) (state : JobState) :
    JobState → Prop where
  | notDue (later : input.wallNow < state.nextDue) : Marked zone input state state
  | coalesced {pending : PendingOccurrence} {nextDue : DateTime}
      (due : state.nextDue ≤ input.wallNow) (waiting : state.pending = some pending)
      (next : state.schedule.nextAfter zone input.wallNow = .ok nextDue) :
      Marked zone input state
        { state with pending := some { pending with coalesced := true }, nextDue }
  | made {nextDue : DateTime} (due : state.nextDue ≤ input.wallNow)
      (idle : state.pending = none)
      (next : state.schedule.nextAfter zone input.wallNow = .ok nextDue) :
      Marked zone input state
        { state with
          pending := some
            { occurrence := state.made
              since := input.now
              sinceUnixMs := input.unixNow
              scheduled := state.nextDue
              retryAt := input.now
              retryAtUnixMs := input.unixNow
              coalesced := false
              waitingLogged := false }
          lastGate := none
          made := state.made + 1
          nextDue }

theorem JobState.marked_of_markDue {zone : LocalZone} {input : TickInput}
    {config : ScheduledJobConfig} {state marked : JobState}
    (completed : state.markDue zone input config = .ok marked) :
    state.Marked zone input marked := by
  unfold markDue at completed
  split at completed
  · rename_i due
    cases next : state.schedule.nextAfter zone input.wallNow with
    | error error => simp [next] at completed
    | ok nextDue =>
        cases waiting : state.pending with
        | none =>
            simp only [next, waiting, Except.ok.injEq] at completed
            subst completed
            exact .made due waiting next
        | some pending =>
            simp only [next, waiting, Except.ok.injEq] at completed
            subst completed
            exact .coalesced due waiting next
  · rename_i notDue
    cases completed
    exact .notDue (Int.lt_of_not_ge notDue)

/-- Whatever the due loop did, the due time lies after the wall clock it read. -/
theorem JobState.Marked.wallNow_lt {zone : LocalZone} {input : TickInput}
    {state marked : JobState} (due : state.Marked zone input marked) :
    input.wallNow < marked.nextDue := by
  cases due with
  | notDue later => exact later
  | coalesced _ _ next => exact (LocalSchedule.nextAfter_eq_ok next).1
  | made _ _ next => exact (LocalSchedule.nextAfter_eq_ok next).1

namespace Scheduler

variable {configs : List ScheduledJobConfig} {scheduler : Scheduler configs}
  {index : Fin configs.length} {state : JobState}

/-- An occurrence: its job, and its ordinal among the job's occurrences. -/
abbrev Token (configs : List ScheduledJobConfig) := Fin configs.length × ℕ

def pendingOrdinal (scheduler : Scheduler configs) (index : Fin configs.length) : Option ℕ :=
  (scheduler.engine.states index).pending.map (·.occurrence)

def issued (scheduler : Scheduler configs) : List (IssuedRecord configs.length) :=
  scheduler.engine.observer.issued

def activeToken (scheduler : Scheduler configs) : Option (Token configs) :=
  scheduler.active.map fun child => (child.index, child.occurrence)

def ledger (scheduler : Scheduler configs) : Ledger (Token configs) where
  made := {token | token.2 < (scheduler.engine.states token.1).made}
  waiting := {token | scheduler.pendingOrdinal token.1 = some token.2}
  active := scheduler.activeToken
  settled := scheduler.issued.map fun record => (record.index, record.occurrence)

section Frame

@[simp]
theorem setState_states : (scheduler.setState index state).engine.states =
    Function.update scheduler.engine.states index state := rfl

@[simp]
theorem setState_observer :
    (scheduler.setState index state).engine.observer = scheduler.engine.observer := rfl

@[simp]
theorem setState_active : (scheduler.setState index state).active = scheduler.active := rfl

@[simp]
theorem setState_issued : (scheduler.setState index state).issued = scheduler.issued := rfl

@[simp]
theorem setState_activeToken :
    (scheduler.setState index state).activeToken = scheduler.activeToken := rfl

variable {record : TerminalRecord} {outcome : SchedulerOutcomeV2}

@[simp]
theorem record_states :
    (scheduler.record index record outcome).engine.states = scheduler.engine.states := rfl

@[simp]
theorem record_active :
    (scheduler.record index record outcome).active = scheduler.active := rfl

@[simp]
theorem record_issued : (scheduler.record index record outcome).issued =
    scheduler.issued ++
      [⟨index, record.occurrence, scheduler.engine.observer.nextSequence, outcome⟩] :=
  SchedulerObserver.recordTerminal_issued

@[simp]
theorem publish_states {wallNow : DateTime} {serializes : Bool} :
    (scheduler.publish wallNow serializes).engine.states = scheduler.engine.states := rfl

@[simp]
theorem publish_active {wallNow : DateTime} {serializes : Bool} :
    (scheduler.publish wallNow serializes).active = scheduler.active := rfl

theorem publish_observer (scheduler : Scheduler configs) (wallNow : DateTime)
    (serializes : Bool) :
    ∃ lastPublished, (scheduler.publish wallNow serializes).engine.observer =
      { scheduler.engine.observer with lastPublished } := by
  simp only [publish, Engine.publish, SchedulerObserver.publish]
  split
  · exact ⟨_, rfl⟩
  · cases serializes
    · exact ⟨_, rfl⟩
    · exact ⟨_, rfl⟩

@[simp]
theorem publish_issued {wallNow : DateTime} {serializes : Bool} :
    (scheduler.publish wallNow serializes).issued = scheduler.issued := by
  rcases scheduler.publish_observer wallNow serializes with ⟨lastPublished, observer⟩
  simp [issued, observer]

end Frame

section Refinement

theorem pendingOrdinal_setState (other : Fin configs.length) :
    (scheduler.setState index state).pendingOrdinal other =
      if other = index then state.pending.map (·.occurrence)
      else scheduler.pendingOrdinal other := by
  by_cases here : other = index
  · subst here
    simp [pendingOrdinal]
  · simp [pendingOrdinal, here]

theorem made_setState (other : Fin configs.length) :
    ((scheduler.setState index state).engine.states other).made =
      if other = index then state.made else (scheduler.engine.states other).made := by
  by_cases here : other = index
  · subst here
    simp
  · simp [here]

theorem ledger_setState_of_same (sameMade : state.made = (scheduler.engine.states index).made)
    (samePending : state.pending.map (·.occurrence) = scheduler.pendingOrdinal index) :
    (scheduler.setState index state).ledger = scheduler.ledger := by
  refine Ledger.ext (Set.ext fun ⟨other, ordinal⟩ => ?_) (Set.ext fun ⟨other, ordinal⟩ => ?_)
    rfl rfl
  · by_cases here : other = index
    · simp only [ledger, Set.mem_ofPred_eq, made_setState, here, ↓reduceIte, sameMade]
    · simp only [ledger, Set.mem_ofPred_eq, made_setState, here, ↓reduceIte]
  · by_cases here : other = index
    · simp only [ledger, Set.mem_ofPred_eq, pendingOrdinal_setState, here, ↓reduceIte, samePending]
    · simp only [ledger, Set.mem_ofPred_eq, pendingOrdinal_setState, here, ↓reduceIte]

theorem ledger_setState_of_made (idle : (scheduler.engine.states index).pending = none)
    (oneMore : state.made = (scheduler.engine.states index).made + 1)
    (pending : state.pending.map (·.occurrence) = some (scheduler.engine.states index).made) :
    (scheduler.setState index state).ledger =
      { scheduler.ledger with
        made := insert (index, (scheduler.engine.states index).made) scheduler.ledger.made
        waiting :=
          insert (index, (scheduler.engine.states index).made) scheduler.ledger.waiting } := by
  refine Ledger.ext (Set.ext fun ⟨other, ordinal⟩ => ?_) (Set.ext fun ⟨other, ordinal⟩ => ?_)
    rfl rfl
  · by_cases here : other = index
    · subst here
      have lastOrEarlier : ordinal < (scheduler.engine.states other).made + 1 ↔
          ordinal = (scheduler.engine.states other).made ∨
            ordinal < (scheduler.engine.states other).made := by
        rw [Nat.lt_succ_iff_lt_or_eq, or_comm]
      simp only [ledger, setState_states, Function.update_self, oneMore, lastOrEarlier,
        Set.mem_ofPred_eq, Set.mem_insert_iff, Prod.mk.injEq, true_and]
    · simp [ledger, here]
  · by_cases here : other = index
    · subst here
      simp only [ledger, Set.mem_ofPred_eq, pendingOrdinal_setState, ↓reduceIte, pending]
      simp [pendingOrdinal, idle, eq_comm]
    · simp [ledger, pendingOrdinal_setState, here]

theorem ledger_setState_of_taken {pending : PendingOccurrence}
    (waiting : (scheduler.engine.states index).pending = some pending)
    (sameMade : state.made = (scheduler.engine.states index).made)
    (emptied : state.pending = none) :
    (scheduler.setState index state).ledger =
      { scheduler.ledger with
        waiting := scheduler.ledger.waiting \ {(index, pending.occurrence)} } := by
  refine Ledger.ext (Set.ext fun ⟨other, ordinal⟩ => ?_) (Set.ext fun ⟨other, ordinal⟩ => ?_)
    rfl rfl
  · by_cases here : other = index
    · simp only [ledger, Set.mem_ofPred_eq, made_setState, here, ↓reduceIte, sameMade]
    · simp only [ledger, Set.mem_ofPred_eq, made_setState, here, ↓reduceIte]
  · by_cases here : other = index
    · subst here
      simp [ledger, pendingOrdinal, emptied, waiting, eq_comm]
    · simp [ledger, pendingOrdinal_setState, here]

theorem ledger_record {record : TerminalRecord} {outcome : SchedulerOutcomeV2} :
    (scheduler.record index record outcome).ledger =
      { scheduler.ledger with
        settled := scheduler.ledger.settled ++ [(index, record.occurrence)] } := by
  simp only [ledger, pendingOrdinal, record_states, record_issued, activeToken, record_active,
    List.map_append, List.map_cons, List.map_nil]

theorem ledger_activate {child : RunningChild configs.length} :
    ({ scheduler with active := some child } : Scheduler configs).ledger =
      { scheduler.ledger with active := some (child.index, child.occurrence) } := rfl

theorem ledger_deactivate :
    ({ scheduler with active := none } : Scheduler configs).ledger =
      { scheduler.ledger with active := none } := rfl

theorem ledger_publish {wallNow : DateTime} {serializes : Bool} :
    (scheduler.publish wallNow serializes).ledger = scheduler.ledger := by
  simp only [ledger, pendingOrdinal, publish_states, publish_issued, activeToken, publish_active]

theorem mem_waiting {pending : PendingOccurrence}
    (waiting : (scheduler.engine.states index).pending = some pending) :
    (index, pending.occurrence) ∈ scheduler.ledger.waiting := by
  simp [ledger, pendingOrdinal, waiting]

theorem startChild_index {job : ScheduledJobConfig} {spawn : SpawnResult}
    {child : RunningChild configs.length} (created : startChild job index spawn = .ok child) :
    child.index = index := by
  unfold startChild at created
  split at created
  · cases created
  · split at created
    · cases created
    · cases created
      rfl

/-- Every elementary move is at most one move of the ledger. -/
theorem ledger_move {zone : LocalZone} {origin current after : Scheduler configs}
    {event : SchedulerEvent configs.length} (moved : Move zone origin event current after) :
    Relation.ReflGen Ledger.Step current.ledger after.ledger := by
  cases moved with
  | @mark _ _ _ _ _ index _ due =>
      cases JobState.marked_of_markDue due with
      | notDue _ =>
          rw [ledger_setState_of_same]
          · rfl
          · rfl
      | coalesced _ waiting _ =>
          rw [ledger_setState_of_same]
          · rfl
          · simp [pendingOrdinal, waiting]
      | made _ idle _ =>
          rw [ledger_setState_of_made idle]
          · exact .single (.make (by simp [ledger]))
          · rfl
          · rfl
  | expire waiting _ =>
      rw [ledger_record, ledger_setState_of_taken waiting]
      · exact .single (.settle (mem_waiting waiting))
      · rfl
      · rfl
  | defer _ =>
      rw [ledger_setState_of_same]
      · rfl
      · simp [Engine.deferredState, pendingOrdinal, Function.comp_def]
  | spawn slotFree waiting created =>
      rw [ledger_activate, ledger_setState_of_taken waiting]
      · simp only [attachLaunch, startChild_index created, Engine.launchOf]
        exact .single (.start (mem_waiting waiting) (by simp [ledger, activeToken, slotFree]))
      · rfl
      · rfl
  | refuse waiting _ =>
      rw [ledger_record, ledger_setState_of_taken waiting]
      · exact .single (.settle (mem_waiting waiting))
      · rfl
      · rfl
  | finish running =>
      rw [ledger_record, ledger_deactivate]
      exact .single (.finish (by simp [ledger, activeToken, running, finishedRecord]))
  | publish =>
      rw [ledger_publish]

end Refinement

section Start

variable {zone : LocalZone} {input : StartInput} {initial : Scheduler configs}

theorem start_eq_ok
    (started : start zone configs input = .ok initial) :
    configs.length ≤ MAX_JOBS ∧ configs ≠ [] ∧ ∃ engine : Engine configs,
      engine.observer = .new (fun index => (configs.get index).name) input.historyLimit
        (makeEpoch input.processId input.epochCounter input.startedAtUnixMs) ∧
      (∀ index, Engine.initialState zone input.wallNow (configs.get index) =
        .ok (engine.states index)) ∧
      initial = publish { engine, active := none, handed := [] } input.publishWall
        input.serializes := by
  simp only [start, Engine.new] at started
  split at started
  · cases started
  · rename_i engine created
    split at created
    · cases created
    · rename_i fewJobs
      split at created
      · cases created
      · rename_i someJobs
        split at created
        · cases created
        · rename_i states statesOk
          cases created
          cases started
          exact ⟨Nat.le_of_not_lt fewJobs, by simpa using someJobs, _, rfl,
            fun index => Loop.eq_ok_of_collect statesOk index, rfl⟩

theorem initialState_eq_ok {config : ScheduledJobConfig}
    (computed : Engine.initialState zone input.wallNow config = .ok state) :
    state.pending = none ∧ state.lastGate = none ∧ state.made = 0 := by
  unfold Engine.initialState at computed
  split at computed
  · cases computed
  · split at computed
    · cases computed
    · cases computed
      exact ⟨rfl, rfl, rfl⟩

end Start

section Invariants

variable {zone : LocalZone} {origin current after next : Scheduler configs}
  {event : SchedulerEvent configs.length}

theorem forall_setState (holds : Fin configs.length → JobState → Prop)
    (everyJob : ∀ other, holds other (scheduler.engine.states other))
    (replaced : holds index state) (other : Fin configs.length) :
    holds other ((scheduler.setState index state).engine.states other) := by
  by_cases here : other = index
  · subst here
    simpa using replaced
  · simpa [here] using everyJob other

/-- The occurrences a job made so far are at most the instants up to its next due time. -/
def Dated (zone : LocalZone) (state : JobState) : Prop :=
  state.made ≤ (zone.instants.filter (· ≤ state.nextDue)).card

/-- Each occurrence moves the due time past one more instant. -/
theorem dated_of_marked {input : TickInput} {marked : JobState} (dated : Dated zone state)
    (due : state.Marked zone input marked) : Dated zone marked := by
  cases due with
  | notDue _ => exact dated
  | @coalesced pending nextDue due _ computed =>
      have later := (LocalSchedule.nextAfter_eq_ok computed).1
      refine Nat.le_trans dated (Finset.card_le_card ?_)
      exact Finset.monotone_filter_right _ fun instant _ before =>
        Int.le_trans before (Int.le_of_lt (Int.lt_of_le_of_lt due later))
  | @made nextDue due _ computed =>
      have later := (LocalSchedule.nextAfter_eq_ok computed).1
      have advanced : state.nextDue < nextDue := Int.lt_of_le_of_lt due later
      have notEarlier : nextDue ∉ zone.instants.filter (· ≤ state.nextDue) := by
        simp [advanced]
      have oneMore : insert nextDue (zone.instants.filter (· ≤ state.nextDue)) ⊆
          zone.instants.filter (· ≤ nextDue) := by
        intro instant member
        rcases Finset.mem_insert.mp member with rfl | earlier
        · simp [LocalSchedule.nextAfter_mem_instants computed]
        · simp only [Finset.mem_filter] at earlier ⊢
          exact ⟨earlier.1, Int.le_trans earlier.2 (Int.le_of_lt advanced)⟩
      have grown := Finset.card_le_card oneMore
      rw [Finset.card_insert_of_notMem notEarlier] at grown
      exact Nat.le_trans (Nat.succ_le_succ dated) grown

/-- What holds in every state of the scheduler: the ledger accounts for every occurrence, the due
times advance, and the observer numbers and retains its records. -/
structure Consistent (zone : LocalZone) (scheduler : Scheduler configs) : Prop where
  accounted : scheduler.ledger.Accounted
  dated : ∀ index, Dated zone (scheduler.engine.states index)
  numbered : scheduler.engine.observer.Numbered
  retained : scheduler.engine.observer.Retained

theorem dated_move (dated : ∀ index, Dated zone (current.engine.states index))
    (moved : Move zone origin event current after) :
    ∀ index, Dated zone (after.engine.states index) := by
  cases moved with
  | mark due =>
      exact forall_setState (fun _ => Dated zone) dated
        (dated_of_marked (dated _) (JobState.marked_of_markDue due))
  | expire _ _ => exact forall_setState (fun _ => Dated zone) dated (dated _)
  | defer _ => exact forall_setState (fun _ => Dated zone) dated (dated _)
  | spawn _ _ _ => exact forall_setState (fun _ => Dated zone) dated (dated _)
  | refuse _ _ => exact forall_setState (fun _ => Dated zone) dated (dated _)
  | finish _ => exact dated
  | publish => exact dated

theorem observer_move {holds : SchedulerObserver configs.length → Prop}
    (recorded : ∀ observer index record outcome, holds observer →
      holds (observer.recordTerminal index record outcome).2)
    (published : ∀ observer lastPublished, holds observer →
      holds { observer with lastPublished })
    (initially : holds current.engine.observer) (moved : Move zone origin event current after) :
    holds after.engine.observer := by
  cases moved with
  | mark _ => exact initially
  | expire _ _ => exact recorded _ _ _ _ initially
  | defer _ => exact initially
  | spawn _ _ _ => exact initially
  | refuse _ _ => exact recorded _ _ _ _ initially
  | finish _ => exact recorded _ _ _ _ initially
  | publish =>
      rcases current.publish_observer _ _ with ⟨lastPublished, observer⟩
      rw [observer]
      exact published _ _ initially

theorem Consistent.move (consistent : current.Consistent zone)
    (moved : Move zone origin event current after) : after.Consistent zone where
  accounted := consistent.accounted.of_reflGen (ledger_move moved)
  dated := dated_move consistent.dated moved
  numbered := observer_move (fun _ _ _ _ numbered => numbered.recordTerminal)
    (fun _ _ numbered => ⟨numbered.next, numbered.issued⟩) consistent.numbered moved
  retained := observer_move (fun _ _ _ _ retained => retained.recordTerminal)
    (fun _ _ retained => ⟨retained.recent, retained.disabled⟩) consistent.retained moved

end Invariants

section Runs

variable {zone : LocalZone} {input : StartInput} {initial : Scheduler configs}
  {admissible : Scheduler configs → SchedulerEvent configs.length → Prop}

theorem consistent_of_new {engine : Engine configs} {names : Fin configs.length → String}
    {historyLimit : ℕ} {epoch : SchedulerEpochV2}
    (observer : engine.observer = .new names historyLimit epoch)
    (states : ∀ index, Engine.initialState zone input.wallNow (configs.get index) =
      .ok (engine.states index)) :
    Consistent zone { engine, active := none, handed := [] } := by
  have empty : ledger { engine, active := none, handed := [] } = Ledger.empty := by
    refine Ledger.ext (Set.ext fun ⟨index, ordinal⟩ => ?_)
      (Set.ext fun ⟨index, ordinal⟩ => ?_) rfl ?_
    · simp [ledger, Ledger.empty, (initialState_eq_ok (states index)).2.2]
    · simp [ledger, Ledger.empty, pendingOrdinal, (initialState_eq_ok (states index)).1]
    · simp [ledger, Ledger.empty, issued, observer, SchedulerObserver.new]
  refine ⟨empty ▸ Ledger.accounted_empty, fun index => ?_, ?_, ?_⟩
  · simp [Dated, (initialState_eq_ok (states index)).2.2]
  · rw [observer]
    exact ⟨rfl, rfl⟩
  · rw [observer]
    exact ⟨fun index => by simp [SchedulerObserver.new], fun _ index => rfl⟩

theorem consistent_start (started : start zone configs input = .ok initial) :
    initial.Consistent zone := by
  rcases start_eq_ok started with ⟨-, -, engine, observer, states, rfl⟩
  have unpublished := consistent_of_new observer states
  have published : Move zone { engine, active := none, handed := [] }
      (.publish input.publishWall input.serializes) { engine, active := none, handed := [] } _ :=
    .publish
  exact unpublished.move published

theorem consistent_of_runs
    (started : start zone configs input = .ok initial)
    (runs : Machine.RunsTo (step zone) admissible initial scheduler) :
    scheduler.Consistent zone := by
  apply runs.invariant (Consistent zone) (consistent_start started)
  intro _ _ _ consistent _ stepped
  exact step_invariant (Consistent zone) (fun _ _ => Consistent.move) consistent stepped

/-- A job set never reaches the last sequence number: its occurrences are instants of a finite
calendar. -/
theorem length_issued_lt (consistent : scheduler.Consistent zone)
    (fewJobs : configs.length ≤ MAX_JOBS) : scheduler.issued.length < u64Max := by
  have within : ∀ token ∈ scheduler.ledger.made, token ∈
      (Finset.univ : Finset (Fin configs.length)) ×ˢ Finset.range MAX_OCCURRENCES := by
    rintro ⟨index, ordinal⟩ made
    rw [Finset.mem_product, Finset.mem_range]
    refine ⟨Finset.mem_univ _, ?_⟩
    calc
      ordinal < (scheduler.engine.states index).made := made
      _ ≤ (zone.instants.filter (· ≤ (scheduler.engine.states index).nextDue)).card :=
        consistent.dated index
      _ ≤ zone.instants.card := Finset.card_filter_le _ _
      _ ≤ MAX_OCCURRENCES := zone.card_instants_le
  have counted := consistent.accounted.length_settled_le within
  rw [Finset.card_product, Finset.card_univ, Fintype.card_fin, Finset.card_range] at counted
  have issuedCount : scheduler.issued.length = scheduler.ledger.settled.length := by
    simp [ledger]
  calc
    scheduler.issued.length ≤ configs.length * MAX_OCCURRENCES := issuedCount ▸ counted
    _ ≤ MAX_JOBS * MAX_OCCURRENCES := Nat.mul_le_mul_right _ fewJobs
    _ < u64Max := by decide

/-- Whether the job's pending slot holds the occurrence, as a count. -/
def waits (scheduler : Scheduler configs) (index : Fin configs.length) (ordinal : ℕ) : ℕ :=
  if scheduler.pendingOrdinal index = some ordinal then 1 else 0

/-- Whether the single active child runs the occurrence, as a count. -/
def runs (scheduler : Scheduler configs) (index : Fin configs.length) (ordinal : ℕ) : ℕ :=
  if scheduler.activeToken = some (index, ordinal) then 1 else 0

def records (scheduler : Scheduler configs) (index : Fin configs.length) (ordinal : ℕ) : ℕ :=
  (scheduler.issued.map fun record => (record.index, record.occurrence)).count (index, ordinal)

/-- In a balanced ledger each occurrence made so far is counted once, any other never. -/
theorem counts_of_accounted (accounted : scheduler.ledger.Accounted)
    (index : Fin configs.length) (ordinal : ℕ) :
    scheduler.waits index ordinal + scheduler.runs index ordinal +
        scheduler.records index ordinal =
      if ordinal < (scheduler.engine.states index).made then 1 else 0 := by
  have complete := accounted.complete (index, ordinal)
  have waitingOnly := accounted.waitingOnly (index, ordinal)
  have activeOnly := accounted.activeOnly (index, ordinal)
  have once := List.nodup_iff_count_le_one.mp accounted.settledOnce (index, ordinal)
  have settledIff : (index, ordinal) ∈ scheduler.ledger.settled ↔
      0 < scheduler.records index ordinal := List.count_pos_iff.symm
  simp only [settledIff] at complete waitingOnly activeOnly
  simp only [ledger, Set.mem_ofPred_eq] at complete waitingOnly activeOnly
  change scheduler.records index ordinal ≤ 1 at once
  simp only [waits, runs]
  split_ifs at * <;> grind

theorem waitOutcome_ne_cancelled (status : Except String ExitStatus) :
    (waitOutcome status).1 ≠ .cancelled := by
  cases status with
  | error error => simp [waitOutcome]
  | ok status =>
      simp only [waitOutcome]
      split <;> simp

theorem issued_move {origin current after : Scheduler configs}
    {event : SchedulerEvent configs.length} (moved : Move zone origin event current after) :
    after.issued = current.issued ∨
      ∃ record, after.issued = current.issued ++ [record] ∧ record.outcome ≠ .cancelled := by
  cases moved with
  | mark _ => exact .inl rfl
  | expire _ _ => exact .inr ⟨_, record_issued, by simp⟩
  | defer _ => exact .inl rfl
  | spawn _ _ _ => exact .inl rfl
  | refuse _ _ => exact .inr ⟨_, record_issued, by simp⟩
  | finish _ => exact .inr ⟨_, record_issued, waitOutcome_ne_cancelled _⟩
  | publish => exact .inl publish_issued

theorem never_cancelled (reachable : scheduler.Reachable zone) :
    ∀ record ∈ scheduler.issued, record.outcome ≠ .cancelled := by
  rcases reachable with ⟨_, initial, started, runs⟩
  apply runs.invariant fun state => ∀ record ∈ state.issued, record.outcome ≠ .cancelled
  · rcases start_eq_ok started with ⟨-, -, engine, observer, -, rfl⟩
    rw [publish_issued]
    simp [issued, observer, SchedulerObserver.new]
  · intro state event next never _ stepped
    apply step_invariant (fun state => ∀ record ∈ state.issued, record.outcome ≠ .cancelled)
      (fun current after never moved => ?_) never stepped
    rcases issued_move moved with same | ⟨record, appended, outcome⟩
    · rwa [same]
    · rw [appended]
      intro other otherMem
      rcases List.mem_append.mp otherMem with earlier | new
      · exact never other earlier
      · rwa [List.mem_singleton.mp new]

/-- In every state the scheduler loop reaches, each occurrence that was ever made pending is
either still pending, or run by the single active child, or the subject of exactly one terminal
record, and no other occurrence appears anywhere. Terminal records are never cancellations, each
job's sequence numbers increase strictly, and the records a job retains are its latest ones. -/
theorem occurrences_conserved (reachable : scheduler.Reachable zone) :
    (∀ index ordinal,
      scheduler.waits index ordinal + scheduler.runs index ordinal +
          scheduler.records index ordinal =
        if ordinal < (scheduler.engine.states index).made then 1 else 0) ∧
      (∀ record ∈ scheduler.issued, record.outcome ≠ .cancelled) ∧
      (∀ index, (scheduler.issued.filter fun record => record.index = index).Pairwise
        fun earlier later => earlier.sequence < later.sequence) ∧
      (∀ index, (scheduler.engine.observer.histories index).records.map (·.sequence) <:+
        (scheduler.issued.filter fun record => record.index = index).map (·.sequence)) := by
  have neverCancelled := never_cancelled reachable
  rcases reachable with ⟨_, initial, started, runs⟩
  have consistent := consistent_of_runs started runs
  have unsaturated := length_issued_lt consistent (start_eq_ok started).1
  have increasing := consistent.numbered.increasing (Nat.le_of_lt unsaturated)
  exact ⟨counts_of_accounted consistent.accounted, neverCancelled,
    fun index => increasing.sublist List.filter_sublist, consistent.retained.recent⟩

/-- A job that is due every minute, with its second occurrence pending behind the child of its
first one. -/
theorem occurrences_conserved_minutely :
    ∃ scheduler : Scheduler [ScheduledJobConfig.minutely "backup"],
      scheduler.active.isSome ∧ scheduler.pendingOrdinal 0 = some 1 ∧
      ∀ index ordinal,
        scheduler.waits index ordinal + scheduler.runs index ordinal +
            scheduler.records index ordinal =
          if ordinal < (scheduler.engine.states index).made then 1 else 0 := by
  have reached : ∃ scheduler : Scheduler [ScheduledJobConfig.minutely "backup"],
      scheduler.Reachable .utc ∧ scheduler.active.isSome ∧
        scheduler.pendingOrdinal 0 = some 1 :=
    ⟨_, ⟨⟨0, 5, 1, 0, 0, 0, true⟩, _, rfl,
      (Machine.RunsTo.refl.snoc
        (.tick ⟨60000000000, 1, ⟨.warming, none⟩⟩ (fun _ => 0) (.spawned 1 60000) 0)
        trivial rfl).snoc
        (.tick ⟨120000000000, 2, ⟨.warming, none⟩⟩ (fun _ => 0) (.failed "busy") 0)
        trivial rfl⟩, rfl, rfl⟩
  rcases reached with ⟨scheduler, reachable, running, waiting⟩
  exact ⟨scheduler, running, waiting, (occurrences_conserved reachable).1⟩

end Runs

end Scheduler

end Gregg
