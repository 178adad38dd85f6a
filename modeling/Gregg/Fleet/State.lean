import Gregg.Clientd.Engine
import Gregg.Clientd.Snapshot
import Gregg.Fleet.Config
import Gregg.Fleet.CronBounds

/-!
# The fleet the daemon holds

Everything in the client that is derived from the network: the monitored systems with their last
telemetry, the EggPool entry and the cron cache. Poll batches and scheduler observations change it
between reloads of the configuration; either is dropped when the target it polled is no longer the
configured one.
-/

namespace Gregg.Fleet

open Clientd (SystemEntry Endpoint Reachability EggpoolState)

/-- `str::eq_ignore_ascii_case`. -/
def eqIgnoreAsciiCase (left right : List Char) : Bool :=
  toAsciiLowercase left == toAsciiLowercase right

def equivalentEndpointHost (ip : IpSyntax) (left right : String) : Bool :=
  match normalizeHost ip left.toList, normalizeHost ip right.toList with
  | some left, some right => eqIgnoreAsciiCase left right
  | _, _ => eqIgnoreAsciiCase left.toList right.toList

/-- Whether two endpoints are the same target under equivalent spellings. -/
def sameTarget (ip : IpSyntax) (left right : Endpoint) : Bool :=
  equivalentEndpointHost ip left.host right.host && left.port == right.port

/-- What one summary read told the worker. -/
inductive SummaryOutcome where
  | supported (summary : SchedulerSummaryV2)
  | unsupported
  | failed (error : CronFetchError)

/-- One finished round of scheduler observation for a single endpoint. -/
structure CronObservation where
  systemId : String
  /-- The endpoint this read actually polled. -/
  host : String
  port : UInt16
  summary : SummaryOutcome
  /-- The history body, fetched only when the gate said it was needed. -/
  history : Option SchedulerHistoryV2
  /-- A problem with the history route while the summary was fine. -/
  historyError : Option CronFetchError
  nowUnixMs : ℕ

namespace CronObservation

variable (observation : CronObservation) (cache : CronCache)

/-- Merge the history that came with a summary, and whether it retained a record. -/
def recordHistory : CronCache × Bool :=
  match observation.history with
  | some history => cache.applyHistory observation.systemId history
  | none => (cache, false)

/-- A history problem is recorded on top of the summary. -/
def recordError : CronCache :=
  match observation.historyError with
  | some error =>
      cache.systemMut observation.systemId (·.markFailed error observation.nowUnixMs)
  | none => cache

/-- What an observation writes, and whether a history merge retained a record. -/
def record : CronCache × Bool :=
  match observation.summary with
  | .supported summary =>
      let summarized := cache.applySummary observation.systemId summary observation.nowUnixMs
      let (merged, added) := observation.recordHistory summarized
      (observation.recordError merged, added)
  | .unsupported =>
      (cache.systemMut observation.systemId fun state =>
        { state.markUnsupported with lastAttemptAtUnixMs := some observation.nowUnixMs }, false)
  | .failed error =>
      (cache.systemMut observation.systemId (·.markFailed error observation.nowUnixMs), false)

/-- Apply an observation to the cache, and whether the operator-visible state changed. -/
def apply : CronCache × Bool :=
  let before := (cache.system observation.systemId).map (·.renderedState)
  let (applied, merged) := observation.record cache
  if merged then (applied, true)
  else (applied, (applied.system observation.systemId).map (·.renderedState) != before)

end CronObservation

/-- Per-system mutable state. -/
structure SystemState (Snapshot Reason : Type) where
  id : String
  endpoint : Endpoint
  configuredName : Option String
  reachability : Reachability
  /-- Most recent successful snapshot. -/
  latest : Option Snapshot
  lastSuccessAt : Option ℕ
  lastAttemptAt : Option ℕ
  latency : Option ℕ
  offlineReason : Option Reason

inductive PollOutcome (Snapshot Reason : Type) where
  | online (snapshot : Snapshot)
  | offline (reason : Option Reason)

structure PollResult (Snapshot Reason : Type) where
  systemId : String
  endpoint : Endpoint
  latency : ℕ
  outcome : PollOutcome Snapshot Reason

structure PollBatch (Snapshot Reason : Type) where
  generation : ℕ
  completedAt : ℕ
  results : List (PollResult Snapshot Reason)

section Systems

variable {Snapshot Reason : Type}

def systemFromEntry (entry : SystemEntry) : SystemState Snapshot Reason where
  id := entry.id
  endpoint := entry.toEndpoint
  configuredName := entry.name
  reachability := .pending
  latest := none
  lastSuccessAt := none
  lastAttemptAt := none
  latency := none
  offlineReason := none

/-- Take a poll result, unless it is of a superseded target. -/
def SystemState.applyResult (ip : IpSyntax) (completedAt : ℕ)
    (result : PollResult Snapshot Reason) (system : SystemState Snapshot Reason) :
    SystemState Snapshot Reason :=
  if sameTarget ip system.endpoint result.endpoint then
    match result.outcome with
    | .online snapshot =>
        { system with
          reachability := .online
          latest := some snapshot
          lastSuccessAt := some completedAt
          lastAttemptAt := some completedAt
          latency := some result.latency
          offlineReason := none }
    | .offline reason =>
        { system with
          reachability := .offline
          lastAttemptAt := some completedAt
          offlineReason := reason }
  else system

/-- The position of a result's system: its own index, or else the last one with its id. -/
def resolveResultIndex (systems : List (SystemState Snapshot Reason)) (resultIndex : ℕ)
    (systemId : String) : Option ℕ :=
  if systems[resultIndex]?.any (·.id == systemId) then some resultIndex
  else (List.range systems.length).reverse.find? fun index =>
    systems[index]?.any (·.id == systemId)

def applyResults (ip : IpSyntax) (completedAt : ℕ) (systems : List (SystemState Snapshot Reason)) :
    ℕ → List (PollResult Snapshot Reason) → List (SystemState Snapshot Reason)
  | _, [] => systems
  | index, result :: rest =>
      let applied :=
        match resolveResultIndex systems index result.systemId with
        | some position => systems.modify position (·.applyResult ip completedAt result)
        | none => systems
      applyResults ip completedAt applied (index + 1) rest

/-- One configured entry: a retained system under the entry's endpoint and name, or a new one; with
the old systems that are left, and whether the id was repointed. -/
def reconcileEntry (ip : IpSyntax) (oldById : SortedMap String (SystemState Snapshot Reason))
    (entry : SystemEntry) :
    SystemState Snapshot Reason × SortedMap String (SystemState Snapshot Reason) × Bool :=
  match oldById.find? entry.id with
  | none => (systemFromEntry entry, oldById, false)
  | some old =>
      let rest := oldById.retain (· ≠ entry.id)
      let endpoint := entry.toEndpoint
      if sameTarget ip old.endpoint endpoint then
        ({ old with endpoint, configuredName := entry.name }, rest, false)
      else (systemFromEntry entry, rest, true)

/-- The reconciled systems, and the ids that were repointed. -/
def reconcileEntries (ip : IpSyntax) (oldById : SortedMap String (SystemState Snapshot Reason)) :
    List SystemEntry → List (SystemState Snapshot Reason) × List String
  | [] => ([], [])
  | entry :: entries =>
      let (system, rest, wasRepointed) := reconcileEntry ip oldById entry
      let (systems, repointed) := reconcileEntries ip rest entries
      (system :: systems, if wasRepointed then entry.id :: repointed else repointed)

end Systems

structure FleetState (Snapshot Reason Entry Summary Health : Type) where
  systems : List (SystemState Snapshot Reason)
  lastAppliedGeneration : ℕ
  configReloadError : Option String
  /-- How many cron records a pane should display, from the configuration. -/
  cronDisplayHistory : ℕ
  eggpool : Option (EggpoolState Entry Summary Health)
  cron : CronCache

namespace FleetState

variable {Snapshot Reason Entry Summary Health : Type}

def fromConfig (config : Config Entry) : FleetState Snapshot Reason Entry Summary Health where
  systems := config.systems.map systemFromEntry
  lastAppliedGeneration := 0
  configReloadError := none
  cronDisplayHistory := config.cron.display
  eggpool := config.eggpool.map .new
  cron := CronCache.new config.cron.cache MAX_TOTAL_CRON_RECORDS

variable (fleet : FleetState Snapshot Reason Entry Summary Health)

def acceptBatchGeneration (generation : ℕ) : Bool :=
  generation > fleet.lastAppliedGeneration ||
    (fleet.lastAppliedGeneration == u64Max && generation == 1)

def applyBatch (ip : IpSyntax) (batch : PollBatch Snapshot Reason) :
    FleetState Snapshot Reason Entry Summary Health :=
  if fleet.acceptBatchGeneration batch.generation then
    { fleet with
      systems := applyResults ip batch.completedAt fleet.systems 0 batch.results
      lastAppliedGeneration := batch.generation }
  else fleet

/-- Whether a scheduler observation still describes a configured endpoint. -/
def acceptsCronObservation (ip : IpSyntax) (observation : CronObservation) : Bool :=
  fleet.systems.any fun system =>
    system.id == observation.systemId && system.endpoint.port == observation.port &&
      equivalentEndpointHost ip system.endpoint.host observation.host

/-- The engine's turn on a finished observation, and whether anything visible changed. -/
def takeCronObservation (ip : IpSyntax) (observation : CronObservation) :
    FleetState Snapshot Reason Entry Summary Health × Bool :=
  if fleet.acceptsCronObservation ip observation then
    let (cron, changed) := observation.apply fleet.cron
    ({ fleet with cron }, changed)
  else (fleet, false)

/-- Reconcile the configured endpoint list while retaining safe state for unchanged ids. -/
def reconcileSystems (ip : IpSyntax) (config : Config Entry) :
    FleetState Snapshot Reason Entry Summary Health :=
  let oldById := fleet.systems.foldl (fun map system => map.upsert system.id fun _ => system) .empty
  let (systems, repointed) := reconcileEntries ip oldById config.systems
  { fleet with
    systems
    cron := repointed.foldl (fun cron id => (cron.resetSystem id).1) fleet.cron }

/-- `adopt_eggpool_endpoint` or `clear_eggpool`. -/
def adoptEggpool (entry : Option Entry) : FleetState Snapshot Reason Entry Summary Health :=
  let held : Clientd.FleetState Entry Summary Health := ⟨fleet.eggpool⟩
  match entry with
  | some entry => { fleet with eggpool := (held.adoptEggpoolEndpoint entry).eggpool }
  | none => { fleet with eggpool := held.clearEggpool.eggpool }

/-- Re-read the config and reconcile, or keep the last-known-good fleet: the fleet, whether the
configuration was accepted, and the message of a rejection. -/
def reloadConfig (ip : IpSyntax) (loaded : Except String (Config Entry)) :
    FleetState Snapshot Reason Entry Summary Health × Bool × Option String :=
  match loaded with
  | .ok config =>
      let reconciled := (fleet.reconcileSystems ip config).adoptEggpool config.eggpool
      let cleared := { reconciled with configReloadError := none }
      let live := cleared.systems.map (·.id)
      ({ cleared with cron := cleared.cron.retainSystems live }, true, none)
  | .error error =>
      let message := "config reload failed: " ++ error
      ({ fleet with configReloadError := some message }, false, some message)

end FleetState

end Gregg.Fleet
