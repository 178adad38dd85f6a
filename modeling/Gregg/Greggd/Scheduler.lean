import Gregg.Lib.Loop
import Gregg.Greggd.Config
import Gregg.Greggd.Observation

/-!
# The bounded, local-only maintenance scheduler

The engine of one configured job set. The job set is fixed for the engine's lifetime, so per-job
state is a function on the job indices. A pending occurrence carries its ordinal among its job's
occurrences, which the code never reads.
-/

namespace Gregg

/-- Fixed reconciliation interval, in nanoseconds. -/
def MAX_CIVIL_RECHECK : ℕ := fromMillis 60000

/-- Cap a semantic monotonic deadline at one reconciliation interval. -/
def boundedWakeDeadline (semanticDeadline now : Instant) : Instant :=
  min semanticDeadline (now + MAX_CIVIL_RECHECK)

/-- `u64::try_from(duration.as_millis()).unwrap_or(u64::MAX)`. -/
def durationMillis (duration : ℕ) : ℕ :=
  toU64 (duration / 1000000)

inductive ReadinessState where
  | ready
  | warming
  | failed
  deriving DecidableEq

structure LoadAverage where
  one : F32
  five : F32
  fifteen : F32
  deriving DecidableEq

structure LoadGateState where
  readiness : ReadinessState
  load : Option LoadAverage
  deriving DecidableEq

structure PendingOccurrence where
  /-- Which of the job's occurrences this is. -/
  occurrence : ℕ
  since : Instant
  sinceUnixMs : ℕ
  scheduled : DateTime
  retryAt : Instant
  retryAtUnixMs : ℕ
  coalesced : Bool
  waitingLogged : Bool
  deriving DecidableEq

structure JobState where
  schedule : LocalSchedule
  nextDue : DateTime
  pending : Option PendingOccurrence
  /-- The most recent load-gate decision for the current occurrence. -/
  lastGate : Option SchedulerLoadGateV2
  /-- How many occurrences were ever made pending. -/
  made : ℕ

/-- The engine's fatal errors. A failed job is named, as its text quotes the name. -/
inductive EngineError where
  | message (text : String)
  | job (name error : String)
  deriving DecidableEq

structure LoadDecision where
  allowed : Bool
  window : String
  observed : Option F32
  threshold : F32
  deriving DecidableEq

def LoadDecision.published (decision : LoadDecision) : SchedulerLoadGateV2 :=
  { window := decision.window, threshold := decision.threshold, observed := decision.observed }

/-- The load reading of the job's window, if the sampler has one. -/
def observedLoad (config : ScheduledJobConfig) (load : LoadGateState) : Option F32 :=
  match load.readiness, load.load with
  | .ready, some values =>
      let window := config.effectiveLoadWindow
      if window = "1m" then some values.one
      else if window = "5m" then some values.five
      else some values.fifteen
  | _, _ => none

/-- Cached-load gate evaluation. A time-only job has no gate, and missing load fails closed. -/
def loadGate (config : ScheduledJobConfig) (load : LoadGateState) : Option LoadDecision :=
  match config.maxLoad with
  | none => none
  | some threshold =>
      let observed := observedLoad config load
      some
        { allowed := observed.any fun value => value.isFinite && value.le threshold
          window := config.effectiveLoadWindow
          observed
          threshold }

def loadBlocked (config : ScheduledJobConfig) (load : LoadGateState) : Bool :=
  (loadGate config load).any fun decision => !decision.allowed

structure Launch (jobCount : ℕ) where
  index : Fin jobCount
  occurrence : ℕ
  pendingAge : ℕ
  scheduled : DateTime
  coalesced : Bool
  deriving DecidableEq

/-- The scheduler engine of one configured job set. -/
structure Engine (configs : List ScheduledJobConfig) where
  states : Fin configs.length → JobState
  observer : SchedulerObserver configs.length

/-- The wall and monotonic clocks of one wake, with the cached load it read. -/
structure TickInput where
  wallNow : DateTime
  now : Instant
  load : LoadGateState

def TickInput.unixNow (input : TickInput) : ℕ :=
  unixMillis input.wallNow

namespace JobState

/-- The first loop of `tick` for one job: a due occurrence becomes pending, or is folded into the
one that already waits, and the next due time is computed. -/
def markDue (zone : LocalZone) (input : TickInput) (config : ScheduledJobConfig)
    (state : JobState) : Except EngineError JobState :=
  if state.nextDue ≤ input.wallNow then
    let marked :=
      match state.pending with
      | some pending => { state with pending := some { pending with coalesced := true } }
      | none =>
          { state with
            pending := some
              { occurrence := state.made
                since := input.now
                sinceUnixMs := input.unixNow
                scheduled := state.nextDue
                retryAt := input.now
                retryAtUnixMs := input.unixNow
                coalesced := false
                waitingLogged := false }
            lastGate := none
            made := state.made + 1 }
    match state.schedule.nextAfter zone input.wallNow with
    | .ok nextDue => .ok { marked with nextDue }
    | .error error => .error (.job config.name error)
  else .ok state

/-- Whether `take_expired` drops the pending occurrence. -/
def isExpired (input : TickInput) (config : ScheduledJobConfig) (state : JobState) : Bool :=
  loadBlocked config input.load &&
    state.pending.any fun pending =>
      fromMillis config.effectiveMaxWaitMs ≤ input.now - pending.since

def isEligible (input : TickInput) (config : ScheduledJobConfig) (state : JobState) : Bool :=
  state.pending.any fun pending =>
    !(pending.retryAt > input.now || loadBlocked config input.load)

end JobState

namespace Engine

variable {configs : List ScheduledJobConfig}

abbrev Key (configs : List ScheduledJobConfig) := Instant × Fin configs.length

def keyLt (left right : Key configs) : Bool :=
  left.1 < right.1 || (left.1 == right.1 && left.2 < right.2)

def setState (engine : Engine configs) (index : Fin configs.length) (state : JobState) :
    Engine configs :=
  { engine with states := Function.update engine.states index state }

def initialState (zone : LocalZone) (wallNow : DateTime) (config : ScheduledJobConfig) :
    Except EngineError JobState :=
  match LocalSchedule.parse config.schedule with
  | .error error => .error (.message error)
  | .ok schedule =>
      match schedule.nextAfter zone wallNow with
      | .error error => .error (.job config.name error)
      | .ok nextDue => .ok { schedule, nextDue, pending := none, lastGate := none, made := 0 }

/-- `Engine::new`. -/
def new (zone : LocalZone) (configs : List ScheduledJobConfig) (wallNow : DateTime)
    (historyLimit : ℕ) (epoch : SchedulerEpochV2) : Except EngineError (Engine configs) :=
  if configs.length > MAX_JOBS then
    .error (.message s!"scheduler has more than {MAX_JOBS} jobs")
  else if configs.isEmpty then
    .error (.message "scheduler requires at least one job")
  else
    match Loop.collect fun index => initialState zone wallNow (configs.get index) with
    | .error error => .error error
    | .ok states =>
        .ok { states, observer := .new (fun index => (configs.get index).name) historyLimit epoch }

/-- One row of the summary document. -/
def publishedJob (engine : Engine configs) (running : Option (Fin configs.length × ℕ))
    (index : Fin configs.length) : SchedulerJobV2 :=
  let config := configs.get index
  let state := engine.states index
  let runningHere := running.filter fun active => active.1 == index
  let deferred := state.lastGate.isSome && runningHere.isNone && state.pending.isSome
  { name := config.name
    schedule := config.schedule
    nextDueUnixMs := unixMillis state.nextDue
    state := jobState runningHere.isSome state.pending.isSome
      (if deferred then state.lastGate else none)
    load := state.lastGate
    pendingSinceUnixMs := state.pending.map (·.sinceUnixMs)
    nextRetryUnixMs := if deferred then state.pending.map (·.retryAtUnixMs) else none
    runningSinceUnixMs := runningHere.map (·.2)
    last := engine.observer.lastSummary index }

/-- `Engine::publish`: the pair handed to `try_publish`, if any, and the engine after it. -/
def publish (engine : Engine configs) (wallNow : DateTime)
    (running : Option (Fin configs.length × ℕ)) (serializes : Bool) :
    Option SchedulerPublication × Engine configs :=
  let (publication, observer) :=
    engine.observer.publish (List.ofFn (engine.publishedJob running)) (unixMillis wallNow)
      serializes
  (publication, { engine with observer })

/-- The candidates `defer_blocked_before` reschedules: elapsed, ordered before the winner, and
refused by their load gate. -/
def isBlockedBefore (engine : Engine configs) (winner : Option (Key configs)) (input : TickInput)
    (index : Fin configs.length) : Bool :=
  (engine.states index).pending.any fun pending =>
    !(pending.retryAt > input.now ||
      winner.any fun winner => !keyLt (pending.since, index) winner) &&
    loadBlocked (configs.get index) input.load

/-- One job's part of `defer_blocked_before`. -/
def deferredState (input : TickInput) (config : ScheduledJobConfig) (state : JobState) :
    JobState :=
  { state with
    pending := state.pending.map fun pending =>
      { pending with
        waitingLogged := true
        retryAt := input.now + fromMillis config.effectiveRetryIntervalMs
        retryAtUnixMs := satAdd input.unixNow config.effectiveRetryIntervalMs }
    lastGate := (loadGate config input.load).map LoadDecision.published }

/-- Push the retry deadline out for every load-blocked candidate that lost the free slot. -/
def deferBlockedBefore (engine : Engine configs) (winner : Option (Key configs))
    (input : TickInput) : Engine configs :=
  { engine with
    states := fun index =>
      if engine.isBlockedBefore winner input index then
        deferredState input (configs.get index) (engine.states index)
      else engine.states index }

/-- Expire a load-deferred occurrence once it has waited its full `max_wait`. `finishedUnixMs` is
the clock reading its terminal record takes. -/
def takeExpired (input : TickInput) (finishedUnixMs : Fin configs.length → ℕ)
    (engine : Engine configs) (index : Fin configs.length) : Engine configs :=
  let state := engine.states index
  match state.pending with
  | none => engine
  | some pending =>
      if state.isExpired input (configs.get index) then
        let record := TerminalRecord.withoutChild pending.occurrence
          (unixMillis pending.scheduled) (finishedUnixMs index)
          (durationMillis (input.now - pending.since)) pending.coalesced
        let recorded := engine.observer.recordTerminal index record .loadExpired
        { engine.setState index { state with pending := none } with observer := recorded.2 }
      else engine

/-- One turn of the selection loop: the oldest eligible candidate so far. -/
def selectTurn (engine : Engine configs) (input : TickInput) (selected : Option (Key configs))
    (index : Fin configs.length) : Option (Key configs) :=
  let state := engine.states index
  match state.pending with
  | none => selected
  | some pending =>
      if state.isEligible input (configs.get index) then
        let key := (pending.since, index)
        if selected.all fun current => keyLt key current then some key else selected
      else selected

def select (engine : Engine configs) (input : TickInput) : Option (Key configs) :=
  (List.finRange configs.length).foldl (engine.selectTurn input) none

def collectDue (zone : LocalZone) (engine : Engine configs) (input : TickInput)
    (finishedUnixMs : Fin configs.length → ℕ) : Except EngineError (Engine configs) :=
  match Loop.collect fun index =>
      (engine.states index).markDue zone input (configs.get index) with
  | .error error => .error error
  | .ok states =>
      .ok ((List.finRange configs.length).foldl (takeExpired input finishedUnixMs)
        { engine with states })

/-- The job state a launched occurrence leaves behind, with the decision that let it through. -/
def launchedState (input : TickInput) (config : ScheduledJobConfig) (state : JobState) :
    JobState :=
  { state with
    pending := none
    lastGate := (loadGate config input.load).map LoadDecision.published }

def launchOf (input : TickInput) (index : Fin configs.length) (pending : PendingOccurrence) :
    Launch configs.length :=
  { index
    occurrence := pending.occurrence
    pendingAge := input.now - pending.since
    scheduled := pending.scheduled
    coalesced := pending.coalesced }

def launch (engine : Engine configs) (input : TickInput) (index : Fin configs.length) :
    Option (Launch configs.length) × Engine configs :=
  let state := engine.states index
  match state.pending with
  | none => (none, engine)
  | some pending =>
      (some (launchOf input index pending),
        engine.setState index (launchedState input (configs.get index) state))

/-- The slot-dependent part of `tick`. -/
def takeSlot (engine : Engine configs) (input : TickInput) :
    Option (Launch configs.length) × Engine configs :=
  match engine.select input with
  | none => (none, engine.deferBlockedBefore none input)
  | some winner => (engine.deferBlockedBefore (some winner) input).launch input winner.2

/-- `Engine::tick`. -/
def tick (zone : LocalZone) (engine : Engine configs) (input : TickInput)
    (finishedUnixMs : Fin configs.length → ℕ) (slotAvailable : Bool) :
    Except EngineError (Option (Launch configs.length) × Engine configs) :=
  match engine.collectDue zone input finishedUnixMs with
  | .error error => .error error
  | .ok collected =>
      .ok (if slotAvailable then collected.takeSlot input else (none, collected))

/-- The instants one job contributes to the wake deadline. -/
def deadlineCandidates (engine : Engine configs) (wallNow : DateTime) (now : Instant)
    (slotAvailable : Bool) (index : Fin configs.length) : List Instant :=
  let config := configs.get index
  let state := engine.states index
  let untilDue := (state.nextDue - wallNow).toNat
  (now + untilDue) ::
    match state.pending with
    | none => []
    | some pending =>
        let expiry := pending.since + fromMillis config.effectiveMaxWaitMs
        (if slotAvailable && pending.retryAt > now then [pending.retryAt] else []) ++
        (if config.maxLoad.isSome && expiry > now then [expiry] else [])

def earliest (deadline : Option Instant) (candidate : Instant) : Option Instant :=
  some (deadline.elim candidate fun current => min current candidate)

/-- `Engine::next_deadline`, `none` only for an engine without jobs. -/
def nextDeadline (engine : Engine configs) (wallNow : DateTime) (now : Instant)
    (slotAvailable : Bool) : Option Instant :=
  ((List.finRange configs.length).flatMap
    (engine.deadlineCandidates wallNow now slotAvailable)).foldl earliest none

end Engine

/-- `ExitStatus`: the exit code, and the terminating signal where the platform has one. -/
structure ExitStatus where
  code : Option ℤ
  signal : Option ℤ
  deriving DecidableEq

def exitSignal (status : ExitStatus) : Option ℕ :=
  status.signal.map Int.natAbs

/-- The direct child's terminal execution event. -/
structure ChildExit where
  /-- The wait result, or the error that kept it from being observed. -/
  status : Except String ExitStatus
  finished : Instant
  finishedUnixMs : ℕ

structure RunningChild (jobCount : ℕ) where
  index : Fin jobCount
  /-- Which of the job's occurrences the child runs. -/
  occurrence : ℕ
  started : Instant
  startedUnixMs : ℕ
  scheduledUnixMs : ℕ
  delayMs : ℕ
  coalesced : Bool

structure ChildCompletion where
  status : Except String ExitStatus
  finishedUnixMs : ℕ
  durationMs : ℕ
  stdout : OutputTail
  stderr : OutputTail

/-- What `await_child_completion` returns for a frozen exit event. -/
def RunningChild.completion {jobCount : ℕ} (child : RunningChild jobCount) (exit : ChildExit)
    (stdout stderr : OutputTail) : ChildCompletion :=
  { status := exit.status
    finishedUnixMs := exit.finishedUnixMs
    durationMs := durationMillis (exit.finished - child.started)
    stdout
    stderr }

/-- The outcome, exit code and signal a wait result stands for. -/
def waitOutcome : Except String ExitStatus → SchedulerOutcomeV2 × Option ℤ × Option ℕ
  | .ok status =>
      (if status.code = some 0 then .success else .failed, status.code, exitSignal status)
  | .error _ => (.waitFailed, none, none)

def finishedRecord {jobCount : ℕ} (child : RunningChild jobCount)
    (completion : ChildCompletion) : TerminalRecord where
  occurrence := child.occurrence
  scheduledUnixMs := child.scheduledUnixMs
  startedUnixMs := some child.startedUnixMs
  finishedUnixMs := completion.finishedUnixMs
  delayMs := child.delayMs
  coalesced := child.coalesced
  exitCode := (waitOutcome completion.status).2.1
  signal := (waitOutcome completion.status).2.2
  durationMs := some completion.durationMs
  stdout := completion.stdout
  stderr := completion.stderr

/-- `finish_child`: record one completed direct child under the index it carries. -/
def finishChild {configs : List ScheduledJobConfig} (engine : Engine configs)
    (child : RunningChild configs.length) (completion : ChildCompletion) :
    ℕ × Engine configs :=
  let (sequence, observer) :=
    engine.observer.recordTerminal child.index (finishedRecord child completion)
      (waitOutcome completion.status).1
  (sequence, { engine with observer })

inductive SpawnResult where
  | spawned (started : Instant) (startedUnixMs : ℕ)
  | failed (error : String)

/-- `start_child`: a running child, or why none could be created. -/
def startChild {jobCount : ℕ} (job : ScheduledJobConfig) (index : Fin jobCount)
    (spawn : SpawnResult) : Except String (RunningChild jobCount) :=
  if job.command.isEmpty then .error "validated command has no executable"
  else
    match spawn with
    | .failed error => .error error
    | .spawned started startedUnixMs =>
        .ok
          { index
            occurrence := 0
            started
            startedUnixMs
            scheduledUnixMs := 0
            delayMs := 0
            coalesced := false }

end Gregg
