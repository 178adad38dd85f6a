import Gregg.Eggpool.Worker
import Gregg.Clientd.Intents

/-!
# The engine and its EggPool worker

The engine owns the fleet and drives one worker for the configured EggPool entry. What the worker
should do is reduced from the intents of all attached frontends; a request, the reduce tick, a
result and a reload each move a part of it.

Of the fleet this keeps the EggPool entry, and of a reload what it does to that entry.
-/

namespace Gregg.Clientd

open Eggpool (EggpoolDesiredState EggpoolFetchOutcome EggpoolHealthFetchOutcome EggpoolResult)

/-- The order of the periods' lengths. -/
def EggpoolPeriod.rank : EggpoolPeriod → ℕ
  | hour => 0
  | day => 1
  | week => 2
  | month => 3

instance : Min EggpoolPeriod :=
  ⟨fun left right => if left.rank ≤ right.rank then left else right⟩

namespace EggpoolIntents

def values (intents : EggpoolIntents) : List EggpoolIntent :=
  intents.entries.entries.map fun entry => entry.2

/-- Whether any frontend currently has the pane open. -/
def anyActive (intents : EggpoolIntents) : Bool :=
  intents.values.any fun intent => intent.active

/-- The period the daemon should actually fetch. -/
def convergedPeriod (intents : EggpoolIntents) (fallback : EggpoolPeriod) : EggpoolPeriod :=
  ((intents.values.filter fun intent => intent.active).map fun intent => intent.period).min?.getD
    fallback

end EggpoolIntents

/-- Whether the local worker is idle, working, or gone. -/
inductive EggpoolWorkerState where
  | idle
  | refreshing
  | workerUnavailable
  deriving DecidableEq

/-- Reducer-owned transient state for the optional pane. -/
structure EggpoolState (Entry Summary Health : Type) where
  endpoint : Entry
  period : EggpoolPeriod
  requestGeneration : ℕ
  workerState : EggpoolWorkerState
  summary : Option Summary
  lastSuccessAt : Option ℕ
  lastAttemptAt : Option ℕ
  lastError : Option (EggpoolFetchOutcome Summary)
  health : Option Health
  lastHealthSuccessAt : Option ℕ
  lastHealthAttemptAt : Option ℕ
  lastHealthError : Option (EggpoolHealthFetchOutcome Health)

namespace EggpoolState

variable {Entry Summary Health : Type}

def new (endpoint : Entry) : EggpoolState Entry Summary Health where
  endpoint
  period := .hour
  requestGeneration := 0
  workerState := .idle
  summary := none
  lastSuccessAt := none
  lastAttemptAt := none
  lastError := none
  health := none
  lastHealthSuccessAt := none
  lastHealthAttemptAt := none
  lastHealthError := none

/-- What the worker should do for the intents. -/
def desiredState (eggpool : EggpoolState Entry Summary Health) (intents : EggpoolIntents) :
    EggpoolDesiredState where
  active := intents.anyActive
  period := intents.convergedPeriod eggpool.period
  generation := eggpool.requestGeneration

variable [DecidableEq Summary] [DecidableEq Health]

/-- The summary plane of a result, and whether it changed anything. -/
def applySummary (eggpool : EggpoolState Entry Summary Health)
    (result : EggpoolResult Summary Health) : EggpoolState Entry Summary Health × Bool :=
  let attempted := { eggpool with lastAttemptAt := some result.completedAt }
  let changed : Bool := eggpool.lastAttemptAt ≠ some result.completedAt
  match result.summary with
  | .online summary =>
      ({ attempted with
        summary := some summary, lastSuccessAt := some result.completedAt, lastError := none },
        changed || decide (eggpool.summary ≠ some summary) || eggpool.lastError.isSome)
  | error =>
      ({ attempted with lastError := some error },
        changed || decide (eggpool.lastError ≠ some error))

/-- The health plane of a result, and whether it changed anything. -/
def applyHealth (eggpool : EggpoolState Entry Summary Health)
    (result : EggpoolResult Summary Health) : EggpoolState Entry Summary Health × Bool :=
  let attempted := { eggpool with lastHealthAttemptAt := some result.completedAt }
  let changed : Bool := eggpool.lastHealthAttemptAt ≠ some result.completedAt
  match result.health with
  | .online snapshot =>
      ({ attempted with
        health := some snapshot, lastHealthSuccessAt := some result.completedAt
        lastHealthError := none },
        changed || decide (eggpool.health ≠ some snapshot) || eggpool.lastHealthError.isSome)
  | error =>
      ({ attempted with lastHealthError := some error },
        changed || decide (eggpool.lastHealthError ≠ some error))

end EggpoolState

structure FleetState (Entry Summary Health : Type) where
  eggpool : Option (EggpoolState Entry Summary Health)

namespace FleetState

variable {Entry Summary Health : Type}

def fromConfig (eggpool : Option Entry) : FleetState Entry Summary Health where
  eggpool := eggpool.map .new

/-- Apply one result if it belongs to the current request and period. -/
def applyEggpoolResultChanged [DecidableEq Summary] [DecidableEq Health]
    (fleet : FleetState Entry Summary Health) (result : EggpoolResult Summary Health) :
    FleetState Entry Summary Health × Bool :=
  match fleet.eggpool with
  | none => (fleet, false)
  | some eggpool =>
      if result.generation ≠ eggpool.requestGeneration ∨ result.period ≠ eggpool.period then
        (fleet, false)
      else
        let idle := { eggpool with workerState := .idle }
        let changed : Bool := eggpool.workerState ≠ .idle
        if result.summary = .cancelled then (⟨some idle⟩, changed)
        else
          let (summarized, summaryChanged) := idle.applySummary result
          let (checked, healthChanged) := summarized.applyHealth result
          (⟨some checked⟩, changed || summaryChanged || healthChanged)

/-- Adopt a reconfigured endpoint, preserving observed state. -/
def adoptEggpoolEndpoint (fleet : FleetState Entry Summary Health) (entry : Entry) :
    FleetState Entry Summary Health :=
  match fleet.eggpool with
  | some eggpool => ⟨some { eggpool with endpoint := entry }⟩
  | none => ⟨some (.new entry)⟩

/-- Drop the entry when a reload removes it. -/
def clearEggpool (_fleet : FleetState Entry Summary Health) : FleetState Entry Summary Health where
  eggpool := none

/-- Switch the summary period, invalidating the old window. -/
def setEggpoolPeriod (fleet : FleetState Entry Summary Health) (period : EggpoolPeriod) :
    FleetState Entry Summary Health × Bool :=
  match fleet.eggpool with
  | none => (fleet, false)
  | some eggpool =>
      if eggpool.period = period then (fleet, false)
      else (⟨some { eggpool with period, summary := none, lastError := none }⟩, true)

/-- Mark an activation or manual refresh as a new request. -/
def beginEggpoolRequest (fleet : FleetState Entry Summary Health) (active : Bool) :
    FleetState Entry Summary Health where
  eggpool := fleet.eggpool.map fun eggpool =>
    { eggpool with
      requestGeneration := satAdd eggpool.requestGeneration 1
      workerState := if active then .refreshing else .idle }

/-- Mark the local worker as unavailable without exposing a channel error. -/
def markEggpoolWorkerUnavailable (fleet : FleetState Entry Summary Health) :
    FleetState Entry Summary Health where
  eggpool := fleet.eggpool.map fun eggpool => { eggpool with workerState := .workerUnavailable }

/-- The converged worker state the daemon should hold. -/
def eggpoolDesiredState (fleet : FleetState Entry Summary Health) (intents : EggpoolIntents) :
    Option EggpoolDesiredState :=
  fleet.eggpool.map fun eggpool => eggpool.desiredState intents

end FleetState

/-- The worker's control channel with the entry it was spawned for: the state last published in it,
and whether the worker still receives. -/
structure EggpoolWorkerHandle (Entry : Type) where
  endpoint : Entry
  published : EggpoolDesiredState
  live : Bool

structure Engine (Entry Summary Health : Type) where
  fleet : FleetState Entry Summary Health
  intents : EggpoolIntents
  converged : Option EggpoolDesiredState
  eggpoolWorker : Option (EggpoolWorkerHandle Entry)

/-- What reaches the engine. A frontend that attaches is entered with its pane closed; a reload
carries the EggPool entry of the new configuration, or nothing when the file was rejected. -/
inductive EngineEvent (Entry Summary Health : Type) where
  | attach (subscriber : ℕ)
  | setEggpoolIntent (subscriber : ℕ) (active : Bool) (period : EggpoolPeriod) (refresh : Bool)
  | disconnect (subscriber : ℕ)
  | tick
  | result (result : EggpoolResult Summary Health)
  | reloadConfig (config : Option (Option Entry))
  | otherRequest
  | workerEnds

namespace Engine

variable {Entry Summary Health : Type} [DecidableEq Entry] [DecidableEq Summary]
  [DecidableEq Health]

/-- Recompute the converged worker state from every attached frontend's intent. -/
def reduceIntents (engine : Engine Entry Summary Health) : Engine Entry Summary Health × Bool :=
  match engine.eggpoolWorker, engine.fleet.eggpoolDesiredState engine.intents with
  | some worker, some desired =>
      if engine.converged = some desired then (engine, false)
      else
        let (moved, windowChanged) := engine.fleet.setEggpoolPeriod desired.period
        let fleet := if windowChanged then moved.beginEggpoolRequest desired.active else moved
        -- Derived again after the fleet moved, with the generation the reducer will accept.
        let desired := (fleet.eggpoolDesiredState engine.intents).getD desired
        if worker.live then
          ({ engine with
            fleet
            converged := some desired
            eggpoolWorker := some { worker with published := desired } }, windowChanged)
        else
          ({ engine with
            fleet := fleet.markEggpoolWorkerUnavailable
            converged := some desired }, true)
  | _, _ => (engine, false)

/-- Wire or drop the worker to match the current configuration. -/
def syncEggpoolWorker (engine : Engine Entry Summary Health) : Engine Entry Summary Health :=
  let wanted := engine.fleet.eggpool.map fun eggpool => eggpool.endpoint
  if (engine.eggpoolWorker.map fun worker => worker.endpoint) = wanted then engine
  else
    { engine with
      converged := none
      eggpoolWorker := wanted.map fun endpoint => ⟨endpoint, .INACTIVE, true⟩ }

def start (eggpool : Option Entry) : Engine Entry Summary Health :=
  let fleet := FleetState.fromConfig eggpool
  syncEggpoolWorker
    { fleet
      intents := .empty
      converged := fleet.eggpoolDesiredState .empty
      eggpoolWorker := none }

/-- `handle_request` on `SetEggpoolIntent`. -/
def setEggpoolIntent (engine : Engine Entry Summary Health) (subscriber : ℕ) (active : Bool)
    (period : EggpoolPeriod) (refresh : Bool) : Engine Entry Summary Health :=
  let (intents, previous) := engine.intents.set subscriber active period
  let changed : Bool := previous ≠ some ⟨active, period⟩
  let converged := engine.fleet.eggpoolDesiredState intents
  let (moved, windowChanged) :=
    match converged with
    | some desired => engine.fleet.setEggpoolPeriod desired.period
    | none => (engine.fleet, false)
  let fleet :=
    if windowChanged || changed || refresh then
      moved.beginEggpoolRequest (converged.any fun desired => desired.active)
    else moved
  { engine with fleet, intents }

/-- `reload_config`, as far as the EggPool entry goes. -/
def reloadConfig (engine : Engine Entry Summary Health) (config : Option (Option Entry)) :
    Engine Entry Summary Health :=
  match config with
  | some (some entry) => { engine with fleet := engine.fleet.adoptEggpoolEndpoint entry }
  | some none => { engine with fleet := engine.fleet.clearEggpool }
  | none => engine

def step (engine : Engine Entry Summary Health) (event : EngineEvent Entry Summary Health) :
    Option (Engine Entry Summary Health) :=
  match event with
  | .attach subscriber =>
      if engine.intents.get subscriber = none then
        some { engine with intents := (engine.intents.set subscriber false .hour).1 }
      else none
  | .setEggpoolIntent subscriber active period refresh =>
      some (engine.setEggpoolIntent subscriber active period refresh).syncEggpoolWorker
  | .disconnect subscriber => some { engine with intents := engine.intents.remove subscriber }
  | .tick => some engine.reduceIntents.1
  | .result result =>
      if engine.eggpoolWorker.isSome then
        some { engine with fleet := (engine.fleet.applyEggpoolResultChanged result).1 }
      else none
  | .reloadConfig config => some (engine.reloadConfig config).syncEggpoolWorker
  | .otherRequest => some engine.syncEggpoolWorker
  | .workerEnds =>
      engine.eggpoolWorker.map fun worker =>
        { engine with eggpoolWorker := some { worker with live := false } }

end Engine

end Gregg.Clientd
