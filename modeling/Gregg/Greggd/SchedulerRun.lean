import Gregg.Lib.Machine
import Gregg.Greggd.Scheduler

/-!
# Runs of the scheduler loop

The scheduler is the engine, the single child slot and the documents handed to `try_publish` so
far. One event is one thing the loop does: a tick together with the spawn it leads to, the
completion of the running child, or a publication. Each event is a chain of elementary moves, and
every invariant is shown move by move.
-/

namespace Gregg

/-- The state of the loop in `run`. -/
structure Scheduler (configs : List ScheduledJobConfig) where
  engine : Engine configs
  active : Option (RunningChild configs.length)
  /-- Every pair handed to `try_publish`, oldest first. -/
  handed : List SchedulerPublication

/-- What the loop does next, with every clock reading and outcome it meets on the way. -/
inductive SchedulerEvent (jobCount : ℕ) where
  | tick (input : TickInput) (expiredUnixMs : Fin jobCount → ℕ) (spawn : SpawnResult)
      (spawnFailedUnixMs : ℕ)
  | complete (exit : ChildExit) (stdout stderr : OutputTail)
  | publish (wallNow : DateTime) (serializes : Bool)

namespace Scheduler

variable {configs : List ScheduledJobConfig}

def setState (scheduler : Scheduler configs) (index : Fin configs.length) (state : JobState) :
    Scheduler configs :=
  { scheduler with engine := scheduler.engine.setState index state }

def record (scheduler : Scheduler configs) (index : Fin configs.length)
    (record : TerminalRecord) (outcome : SchedulerOutcomeV2) : Scheduler configs :=
  { scheduler with
    engine :=
      { scheduler.engine with
        observer := (scheduler.engine.observer.recordTerminal index record outcome).2 } }

/-- The pair the publication names as running. -/
def running (scheduler : Scheduler configs) : Option (Fin configs.length × ℕ) :=
  scheduler.active.map fun child => (child.index, child.startedUnixMs)

/-- `engine.publish(..)` with the active child. -/
def publish (scheduler : Scheduler configs) (wallNow : DateTime) (serializes : Bool) :
    Scheduler configs :=
  let (publication, engine) :=
    scheduler.engine.publish wallNow scheduler.running serializes
  { scheduler with engine, handed := scheduler.handed ++ publication.toList }

/-- What `run` starts from: the clock readings, the configured history depth, and the two values
mixed into the epoch nonce. -/
structure StartInput where
  wallNow : DateTime
  historyLimit : ℕ
  processId : ℕ
  epochCounter : ℕ
  startedAtUnixMs : ℕ
  publishWall : DateTime
  serializes : Bool

def start (zone : LocalZone) (configs : List ScheduledJobConfig) (input : StartInput) :
    Except EngineError (Scheduler configs) :=
  let epoch := makeEpoch input.processId input.epochCounter input.startedAtUnixMs
  match Engine.new zone configs input.wallNow input.historyLimit epoch with
  | .error error => .error error
  | .ok engine =>
      .ok (publish { engine, active := none, handed := [] } input.publishWall input.serializes)

/-- The child `run` makes of a spawned one, with the launch it was selected by. -/
def attachLaunch (child : RunningChild configs.length) (launch : Launch configs.length) :
    RunningChild configs.length :=
  { child with
    occurrence := launch.occurrence
    scheduledUnixMs := unixMillis launch.scheduled
    delayMs := durationMillis launch.pendingAge
    coalesced := launch.coalesced }

/-- The terminal record of a launch whose child could not be created. -/
def spawnFailedRecord (launch : Launch configs.length) (finishedUnixMs : ℕ) : TerminalRecord :=
  .withoutChild launch.occurrence (unixMillis launch.scheduled) finishedUnixMs
    (durationMillis launch.pendingAge) launch.coalesced

/-- The launch branch of `run`. -/
def startLaunch (scheduler : Scheduler configs) (launch : Launch configs.length)
    (spawn : SpawnResult) (spawnFailedUnixMs : ℕ) : Scheduler configs :=
  match startChild (configs.get launch.index) launch.index spawn with
  | .ok child => { scheduler with active := some (attachLaunch child launch) }
  | .error _ =>
      scheduler.record launch.index (spawnFailedRecord launch spawnFailedUnixMs) .spawnFailed

/-- The loop's state once a tick has returned. -/
def afterTick (scheduler : Scheduler configs) (launch : Option (Launch configs.length))
    (spawn : SpawnResult) (spawnFailedUnixMs : ℕ) : Scheduler configs :=
  match launch with
  | none => scheduler
  | some launch => startLaunch scheduler launch spawn spawnFailedUnixMs

/-- One event of the loop. `none` means that the loop ends with an error, or that the event
cannot happen. -/
def step (zone : LocalZone) (scheduler : Scheduler configs) :
    SchedulerEvent configs.length → Option (Scheduler configs)
  | .tick input expiredUnixMs spawn spawnFailedUnixMs =>
      match scheduler.engine.tick zone input expiredUnixMs scheduler.active.isNone with
      | .error _ => none
      | .ok (launch, engine) =>
          some (afterTick { scheduler with engine } launch spawn spawnFailedUnixMs)
  | .complete exit stdout stderr =>
      match scheduler.active with
      | none => none
      | some child =>
          let (_, engine) :=
            finishChild scheduler.engine child (child.completion exit stdout stderr)
          some { scheduler with engine, active := none }
  | .publish wallNow serializes => some (scheduler.publish wallNow serializes)

/-- The states of the loop, whatever its clocks, load readings and children do. -/
def Reachable (zone : LocalZone) (scheduler : Scheduler configs) : Prop :=
  ∃ input initial, start zone configs input = .ok initial ∧
    Machine.RunsTo (step zone) Machine.anyEvent initial scheduler

/-- Whether a tick from this state reschedules the job's load-blocked occurrence. -/
def defers (zone : LocalZone) (scheduler : Scheduler configs) (input : TickInput)
    (expiredUnixMs : Fin configs.length → ℕ) (index : Fin configs.length) : Bool :=
  match scheduler.engine.collectDue zone input expiredUnixMs with
  | .error _ => false
  | .ok collected =>
      scheduler.active.isNone &&
        collected.isBlockedBefore (collected.select input) input index

/-- The elementary moves an event in state `origin` is made of. -/
inductive Move (zone : LocalZone) (origin : Scheduler configs) :
    SchedulerEvent configs.length → Scheduler configs → Scheduler configs → Prop where
  | mark {input expiredUnixMs spawn spawnFailedUnixMs} {current : Scheduler configs}
      {index : Fin configs.length} {marked : JobState}
      (due : (current.engine.states index).markDue zone input (configs.get index) = .ok marked) :
      Move zone origin (.tick input expiredUnixMs spawn spawnFailedUnixMs) current
        (current.setState index marked)
  | expire {input expiredUnixMs spawn spawnFailedUnixMs} {current : Scheduler configs}
      {index : Fin configs.length} {pending : PendingOccurrence}
      (waiting : (current.engine.states index).pending = some pending)
      (expired : (current.engine.states index).isExpired input (configs.get index) = true) :
      Move zone origin (.tick input expiredUnixMs spawn spawnFailedUnixMs) current
        ((current.setState index { current.engine.states index with pending := none }).record
          index
          (.withoutChild pending.occurrence (unixMillis pending.scheduled) (expiredUnixMs index)
            (durationMillis (input.now - pending.since)) pending.coalesced) .loadExpired)
  | defer {input expiredUnixMs spawn spawnFailedUnixMs} {current : Scheduler configs}
      {index : Fin configs.length}
      (blocked : defers zone origin input expiredUnixMs index = true) :
      Move zone origin (.tick input expiredUnixMs spawn spawnFailedUnixMs) current
        (current.setState index
          (Engine.deferredState input (configs.get index) (current.engine.states index)))
  | spawn {input expiredUnixMs spawn spawnFailedUnixMs} {current : Scheduler configs}
      {index : Fin configs.length} {pending : PendingOccurrence}
      {child : RunningChild configs.length} (slotFree : current.active = none)
      (waiting : (current.engine.states index).pending = some pending)
      (created : startChild (configs.get index) index spawn = .ok child) :
      Move zone origin (.tick input expiredUnixMs spawn spawnFailedUnixMs) current
        { current.setState index
            (Engine.launchedState input (configs.get index) (current.engine.states index)) with
          active := some (attachLaunch child (Engine.launchOf input index pending)) }
  | refuse {input expiredUnixMs spawn spawnFailedUnixMs} {current : Scheduler configs}
      {index : Fin configs.length} {pending : PendingOccurrence} {error : String}
      (waiting : (current.engine.states index).pending = some pending)
      (refused : startChild (configs.get index) index spawn = .error error) :
      Move zone origin (.tick input expiredUnixMs spawn spawnFailedUnixMs) current
        ((current.setState index
            (Engine.launchedState input (configs.get index) (current.engine.states index))).record
          index (spawnFailedRecord (Engine.launchOf input index pending) spawnFailedUnixMs)
          .spawnFailed)
  | finish {exit stdout stderr} {current : Scheduler configs}
      {child : RunningChild configs.length} (running : current.active = some child) :
      Move zone origin (.complete exit stdout stderr) current
        (record { current with active := none } child.index
          (finishedRecord child (child.completion exit stdout stderr))
          (waitOutcome exit.status).1)
  | publish {wallNow serializes} {current : Scheduler configs} :
      Move zone origin (.publish wallNow serializes) current
        (current.publish wallNow serializes)

/-- Chains of moves of one event. -/
abbrev Moves (zone : LocalZone) (origin : Scheduler configs)
    (event : SchedulerEvent configs.length) :
    Scheduler configs → Scheduler configs → Prop :=
  Relation.ReflTransGen (Move zone origin event)

section StepMoves

variable {zone : LocalZone} {origin scheduler next : Scheduler configs}
  {event : SchedulerEvent configs.length} {input : TickInput}
  {expiredUnixMs : Fin configs.length → ℕ} {spawn : SpawnResult} {spawnFailedUnixMs : ℕ}

theorem moves_of_markDue {states : Fin configs.length → JobState}
    (marked : ∀ index, (scheduler.engine.states index).markDue zone input (configs.get index) =
      .ok (states index)) :
    Moves zone origin (.tick input expiredUnixMs spawn spawnFailedUnixMs) scheduler
      { scheduler with engine := { scheduler.engine with states } } := by
  refine Loop.moves_of_updates
    (fun states => { scheduler with engine := { scheduler.engine with states } })
    scheduler.engine.states ?_
  intro current index unchanged
  have due : (current index).markDue zone input (configs.get index) = .ok (states index) := by
    rw [unchanged]
    exact marked index
  have moved : Move zone origin (.tick input expiredUnixMs spawn spawnFailedUnixMs)
      { scheduler with engine := { scheduler.engine with states := current } } _ := .mark due
  exact .single moved

theorem moves_of_takeExpired (engine : Engine configs) :
    Moves zone origin (.tick input expiredUnixMs spawn spawnFailedUnixMs)
      { scheduler with engine }
      { scheduler with
        engine := (List.finRange configs.length).foldl
          (Engine.takeExpired input expiredUnixMs) engine } := by
  have chain := Loop.moves_of_foldl_finRange
    (fun before after =>
      Move zone origin (.tick input expiredUnixMs spawn spawnFailedUnixMs)
        { scheduler with engine := before } { scheduler with engine := after })
    (Engine.takeExpired input expiredUnixMs) ?_ engine
  · exact chain.lift _ fun _ _ => id
  intro engine index
  simp only [Engine.takeExpired]
  cases waiting : (engine.states index).pending with
  | none => exact .refl
  | some pending =>
      simp only
      split
      · rename_i expired
        have moved : Move zone origin (.tick input expiredUnixMs spawn spawnFailedUnixMs)
            { scheduler with engine } _ := .expire waiting expired
        exact .single moved
      · exact .refl

theorem moves_of_collectDue {collected : Engine configs}
    (completed : scheduler.engine.collectDue zone input expiredUnixMs = .ok collected) :
    Moves zone origin (.tick input expiredUnixMs spawn spawnFailedUnixMs) scheduler
      { scheduler with engine := collected } := by
  unfold Engine.collectDue at completed
  split at completed
  · cases completed
  · rename_i states statesOk
    cases completed
    exact (moves_of_markDue fun index => Loop.eq_ok_of_collect statesOk index).trans
      (moves_of_takeExpired { scheduler.engine with states })

theorem moves_of_deferBlockedBefore {engine : Engine configs}
    {winner : Option (Engine.Key configs)}
    (deferred : ∀ index, engine.isBlockedBefore winner input index = true →
      origin.defers zone input expiredUnixMs index = true) :
    Moves zone origin (.tick input expiredUnixMs spawn spawnFailedUnixMs)
      { scheduler with engine }
      { scheduler with engine := engine.deferBlockedBefore winner input } := by
  refine Loop.moves_of_updates (fun states => { scheduler with engine := { engine with states } })
    engine.states ?_
  intro current index unchanged
  split
  · rename_i blocked
    have moved : Move zone origin (.tick input expiredUnixMs spawn spawnFailedUnixMs)
        { scheduler with engine := { engine with states := current } } _ :=
      .defer (deferred index blocked)
    simp only [unchanged] at moved
    exact .single moved
  · rw [← unchanged, Function.update_eq_self]

theorem move_of_startLaunch {engine : Engine configs} {index : Fin configs.length}
    {pending : PendingOccurrence} (slotFree : scheduler.active = none)
    (waiting : (engine.states index).pending = some pending) :
    Move zone origin (.tick input expiredUnixMs spawn spawnFailedUnixMs)
      { scheduler with engine }
      (startLaunch
        { scheduler with
          engine := engine.setState index
            (Engine.launchedState input (configs.get index) (engine.states index)) }
        (Engine.launchOf input index pending) spawn spawnFailedUnixMs) := by
  unfold startLaunch
  split
  · rename_i child created
    have moved : Move zone origin (.tick input expiredUnixMs spawn spawnFailedUnixMs)
        { scheduler with engine } _ := .spawn slotFree waiting created
    exact moved
  · rename_i error refused
    have moved : Move zone origin (.tick input expiredUnixMs spawn spawnFailedUnixMs)
        { scheduler with engine } _ := .refuse waiting refused
    exact moved

/-- A completed tick, with the spawn it leads to, is a chain of moves. -/
theorem moves_of_tick {launch : Option (Launch configs.length)} {engine : Engine configs}
    (completed : scheduler.engine.tick zone input expiredUnixMs scheduler.active.isNone =
      .ok (launch, engine)) :
    Moves zone scheduler (.tick input expiredUnixMs spawn spawnFailedUnixMs) scheduler
      (afterTick { scheduler with engine } launch spawn spawnFailedUnixMs) := by
  unfold Engine.tick at completed
  split at completed
  · cases completed
  · rename_i collected collectedOk
    have collectMoves : Moves zone scheduler
        (.tick input expiredUnixMs spawn spawnFailedUnixMs) scheduler
        { scheduler with engine := collected } := moves_of_collectDue collectedOk
    cases slotFree : scheduler.active with
    | some child =>
        simp only [slotFree, Option.isNone_some, Bool.false_eq_true, ↓reduceIte,
          Except.ok.injEq, Prod.mk.injEq] at completed
        rcases completed with ⟨rfl, rfl⟩
        simpa only [slotFree, afterTick] using collectMoves
    | none =>
        have deferMoves : ∀ winner, collected.select input = winner →
            Moves zone scheduler (.tick input expiredUnixMs spawn spawnFailedUnixMs)
              { scheduler with engine := collected }
              { scheduler with engine := collected.deferBlockedBefore winner input } := by
          intro winner isWinner
          apply moves_of_deferBlockedBefore
          intro index blocked
          simp [defers, collectedOk, slotFree, isWinner, blocked]
        simp only [slotFree, Option.isNone_none, ↓reduceIte, Except.ok.injEq,
          Engine.takeSlot] at completed
        cases selected : collected.select input with
        | none =>
            simp only [selected, Prod.mk.injEq] at completed
            rcases completed with ⟨rfl, rfl⟩
            simpa only [slotFree, afterTick] using collectMoves.trans (deferMoves none selected)
        | some winner =>
            simp only [selected, Engine.launch] at completed
            have moved := collectMoves.trans (deferMoves (some winner) selected)
            split at completed
            · cases completed
              simpa only [slotFree, afterTick] using moved
            · rename_i pending waiting
              cases completed
              simpa only [slotFree, afterTick] using
                moved.tail (move_of_startLaunch slotFree waiting)

/-- Every event of the loop is a chain of moves. -/
theorem moves_of_step (stepped : step zone scheduler event = some next) :
    Moves zone scheduler event scheduler next := by
  cases event with
  | tick input expiredUnixMs spawn spawnFailedUnixMs =>
      simp only [step] at stepped
      split at stepped
      · cases stepped
      · rename_i completed
        cases stepped
        exact moves_of_tick completed
  | complete exit stdout stderr =>
      simp only [step] at stepped
      split at stepped
      · cases stepped
      · rename_i child running
        cases stepped
        exact .single (.finish running)
  | publish wallNow serializes =>
      cases stepped
      exact .single .publish

theorem step_invariant (holds : Scheduler configs → Prop)
    (preserved : ∀ current after, holds current → Move zone scheduler event current after →
      holds after)
    (initially : holds scheduler) (stepped : step zone scheduler event = some next) :
    holds next := by
  have moves := moves_of_step stepped
  clear stepped
  induction moves with
  | refl => exact initially
  | tail _ moved ih => exact preserved _ _ ih moved

end StepMoves

end Scheduler

end Gregg
