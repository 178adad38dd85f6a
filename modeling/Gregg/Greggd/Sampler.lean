import Gregg.Greggd.Scheduler
import Gregg.Greggd.Server
import Gregg.Protocol.ValidateStatus

/-!
# The sampling loop

The sampler runs one collection cycle after the other on the blocking pool, waits for each no longer
than a timeout, and keeps what the cycles found. A cycle cannot be cancelled: one that outlives its
wait is waited for again. After every wait the loop hands its state on, to the server and to the
load gate of the scheduler.
-/

namespace Gregg.Sampling

open Protocol

/-- Category of a collection failure. -/
inductive CollectErrorKind where
  | warming
  | sourceUnavailable
  | parse
  | counterReset
  | numeric
  | identityFallback
  deriving DecidableEq

structure CollectError where
  kind : CollectErrorKind
  message : String
  deriving DecidableEq

/-- What a cycle collects. -/
structure CollectedMetrics where
  logicalCores : ℕ
  cpuUsagePct : Option F32
  cpuIowaitPct : Option F32
  load : Protocol.LoadAverage
  memory : MemoryMetrics
  swap : SwapMetrics
  commit : Option V2.CommitMetrics
  drives : Option (List DriveMetrics)
  cpuFrequencyHz : Option ℕ
  diskIo : Option DiskIoPayload
  network : Option NetworkPayload

/-- What a conversion reads from the collector, under its lock. -/
structure CollectorView where
  identity : Except CollectError SystemIdentity
  capabilities : MetricCapabilities
  capabilitiesV2 : MetricCapabilitiesV2
  supportsV1Snapshot : Bool

/-- What the sampler reads when it applies a result. A clock before the epoch gives no time. -/
structure Moment where
  collector : CollectorView
  nowUnixMs : Option ℕ

def MIN_INTERVAL_MS : ℕ := 250

def MAX_INTERVAL_MS : ℕ := 60000

section Conversion

/-- The check of a percentage that was computed and narrowed. -/
def finalizePercentage (asF32 : F32) : Option F32 :=
  if !asF32.isFinite || !((F32.finite 0).le asF32 && asF32.le (.finite 100)) then none
  else some asF32

variable (narrowed : ℕ → ℕ → F32)

/-- The percentage of a part, whose quotient in floating point is `narrowed`. -/
def clampedUsagePct (usedBytes totalBytes : ℕ) : F32 :=
  if totalBytes = 0 then .finite 0
  else if totalBytes ≤ usedBytes then .finite 100
  else (finalizePercentage (narrowed usedBytes totalBytes)).getD (.finite 0)

def validateCpuValues (cpuUsagePct cpuIowaitPct : Option F32) (cpuIowaitSupported : Bool) :
    Except CollectError (F32 × Option F32) :=
  match cpuUsagePct.filter F32.isFinite with
  | none => .error ⟨.numeric, "cpu usage percentage is missing or non-finite"⟩
  | some usagePct =>
      if cpuIowaitSupported then
        match cpuIowaitPct.filter F32.isFinite with
        | none => .error ⟨.numeric, "cpu iowait percentage is missing or non-finite"⟩
        | some iowaitPct => .ok (usagePct, some iowaitPct)
      else .ok (usagePct, none)

/-- The snapshots of one sample, where the percentages of its processor are known. -/
def CollectedMetrics.snapshotV1 (metrics : CollectedMetrics) (observedAtUnixMs sampleIntervalMs : ℕ)
    (view : CollectorView) (system : SystemIdentity) (usagePct : F32) (iowaitPct : Option F32) :
    StatusSnapshot where
  schemaVersion := SCHEMA_VERSION_V1
  observedAtUnixMs
  sampleIntervalMs
  capabilities := view.capabilities
  system
  cpu := { logicalCores := metrics.logicalCores, usagePct, iowaitPct }
  load := metrics.load
  memory := metrics.memory
  swap := metrics.swap

def CollectedMetrics.payloadV2 (metrics : CollectedMetrics) (observedAtUnixMs sampleIntervalMs : ℕ)
    (view : CollectorView) (system : SystemIdentity) (usagePct : F32) (iowaitPct : Option F32) :
    StatusPayloadV2 where
  snapshot :=
    { schemaVersion := SCHEMA_VERSION_V2
      observedAtUnixMs
      sampleIntervalMs
      capabilities := view.capabilitiesV2
      system
      cpu := { logicalCores := metrics.logicalCores, usagePct, iowaitPct }
      load := if view.capabilitiesV2.loadAverage then some metrics.load else none
      memory := metrics.memory
      swap :=
        if view.capabilitiesV2.swap then
          some
            { usedBytes := metrics.swap.usedBytes
              totalBytes := metrics.swap.totalBytes
              usagePct :=
                clampedUsagePct narrowed metrics.swap.usedBytes metrics.swap.totalBytes }
        else none
      commit := metrics.commit }
  drives := metrics.drives
  cpuFrequencyHz := metrics.cpuFrequencyHz
  diskIo := metrics.diskIo
  network := metrics.network

/-- The optional snapshot of version one and the payload of version two, in one pass. -/
def intoSnapshotPair (metrics : CollectedMetrics) (observedAtUnixMs sampleIntervalMs : ℕ)
    (view : CollectorView) (system : SystemIdentity) :
    Except CollectError (Option StatusSnapshot × StatusPayloadV2) := do
  let cpu ← validateCpuValues metrics.cpuUsagePct metrics.cpuIowaitPct view.capabilitiesV2.cpuIowait
  let v1 := metrics.snapshotV1 observedAtUnixMs sampleIntervalMs view system cpu.1 cpu.2
  let v2 := metrics.payloadV2 narrowed observedAtUnixMs sampleIntervalMs view system cpu.1 cpu.2
  return (if view.supportsV1Snapshot then some v1 else none, v2)

def validateV2Payload (payload : StatusPayloadV2) : Except CollectError StatusPayloadV2 :=
  match validatePayloadV2 payload with
  | [] => .ok payload
  | violations =>
      .error ⟨.numeric, s!"v2 payload validation failed ({violations.length} violations)"⟩

/-- Convert one sample into what is published. -/
def convertSample (intervalMs : ℕ) (view : CollectorView) (metrics : CollectedMetrics)
    (nowMs : ℕ) : Except CollectError (Option StatusSnapshot × StatusPayloadV2) := do
  let identity ← view.identity
  let pair ← intoSnapshotPair narrowed metrics nowMs intervalMs view identity
  let payload ← validateV2Payload pair.2
  return (pair.1, payload)

end Conversion

structure Sampler where
  intervalMs : ℕ
  readiness : Protocol.ReadinessState
  snapshot : Option StatusSnapshot
  snapshotV2 : Option StatusPayloadV2
  consecutiveFailures : ℕ
  /-- The cycle that may be in flight, by its number. -/
  inFlight : Option ℕ

namespace Sampler

/-- A sampler, where the interval is within its bounds. -/
def withInterval (intervalMs : ℕ) : Option Sampler :=
  if MIN_INTERVAL_MS ≤ intervalMs ∧ intervalMs ≤ MAX_INTERVAL_MS then
    some
      { intervalMs
        readiness := .warming
        snapshot := none
        snapshotV2 := none
        consecutiveFailures := 0
        inFlight := none }
  else none

def transitionToFailed (sampler : Sampler) : Sampler :=
  { sampler with
    readiness := .failed
    consecutiveFailures := min (sampler.consecutiveFailures + 1) Server.u32Max }

/-- Apply one sample or failure. -/
def applySampleResult (narrowed : ℕ → ℕ → F32) (sampler : Sampler) (moment : Moment)
    (result : Except CollectError CollectedMetrics) : Sampler :=
  match result with
  | .ok metrics =>
      if metrics.cpuUsagePct.isNone then sampler.transitionToFailed
      else
        match moment.nowUnixMs with
        | none => sampler.transitionToFailed
        | some nowMs =>
            match convertSample narrowed sampler.intervalMs moment.collector metrics nowMs with
            | .error _ => sampler.transitionToFailed
            | .ok converted =>
                { sampler with
                  readiness := .ready
                  consecutiveFailures := 0
                  snapshot := converted.1
                  snapshotV2 := some converted.2 }
  | .error error =>
      match error.kind with
      | .warming => sampler
      | .counterReset => sampler
      | _ => sampler.transitionToFailed

end Sampler

/-- How a cycle on the blocking pool ends. -/
inductive JoinResult where
  | returned (result : Except CollectError CollectedMetrics)
  | panicked
  | cancelled

def JoinResult.result : JoinResult → Except CollectError CollectedMetrics
  | .returned result => result
  | .panicked => .error ⟨.sourceUnavailable, "collection task panicked"⟩
  | .cancelled => .error ⟨.sourceUnavailable, "collection task cancelled"⟩

/-- What a wait that runs out is taken for. -/
def timedOut : CollectError where
  kind := .sourceUnavailable
  message := "collection timed out"

/-- What the loop has applied. -/
inductive Reading where
  | collected (cycle : ℕ) (moment : Moment) (result : Except CollectError CollectedMetrics)
  | timedOut

/-- Where the loop is. -/
inductive Phase where
  | collecting
  | publishing
  | sleeping
  | stopped
  deriving DecidableEq

/-- The loop, with the blocking pool it uses: the cycles that run there, and how the others ended.
The readings are a history variable. -/
structure SamplerLoop where
  sampler : Sampler
  phase : Phase
  spawned : ℕ
  running : List ℕ
  ended : ℕ → Option JoinResult
  readings : List Reading

inductive LoopEvent where
  | cycleEnds (cycle : ℕ) (result : JoinResult)
  | collect (moment : Moment)
  | timeout (moment : Moment)
  | publish
  | wake
  | shutdown

namespace SamplerLoop

/-- A cycle is spawned where none is in flight, and is then waited for. -/
def sampleOnBlockingPool (loop : SamplerLoop) : SamplerLoop :=
  match loop.sampler.inFlight with
  | some _ => { loop with phase := .collecting }
  | none =>
      { loop with
        sampler := { loop.sampler with inFlight := some loop.spawned }
        phase := .collecting
        spawned := loop.spawned + 1
        running := loop.running ++ [loop.spawned] }

/-- The first cycle is taken at once. -/
def start (sampler : Sampler) : SamplerLoop :=
  sampleOnBlockingPool
    { sampler
      phase := .sleeping
      spawned := 0
      running := []
      ended := fun _ => none
      readings := [] }

/-- How the cycle in flight ended, if it did. -/
def result (loop : SamplerLoop) : Option JoinResult :=
  loop.sampler.inFlight.bind loop.ended

variable (narrowed : ℕ → ℕ → F32)

def step (loop : SamplerLoop) : LoopEvent → Option SamplerLoop
  | .cycleEnds cycle result =>
      if cycle ∈ loop.running then
        some
          { loop with
            running := loop.running.erase cycle
            ended := fun other => if other = cycle then some result else loop.ended other }
      else none
  | .collect moment =>
      match loop.phase, loop.sampler.inFlight, loop.result with
      | .collecting, some cycle, some joined =>
          some
            { loop with
              sampler := { loop.sampler with inFlight := none }.applySampleResult narrowed moment
                joined.result
              phase := .publishing
              readings := loop.readings ++ [.collected cycle moment joined.result] }
      | _, _, _ => none
  | .timeout moment =>
      -- The cycle keeps running, and its handle is kept. One that has ended is preferred.
      if loop.phase = .collecting ∧ loop.result.isNone then
        some
          { loop with
            sampler := loop.sampler.applySampleResult narrowed moment (.error timedOut)
            phase := .publishing
            readings := loop.readings ++ [.timedOut] }
      else none
  | .publish =>
      if loop.phase = .publishing then some { loop with phase := .sleeping } else none
  | .wake =>
      if loop.phase = .sleeping then some loop.sampleOnBlockingPool else none
  | .shutdown =>
      -- A cycle that has ended is collected first.
      if loop.phase = .sleeping ∨ loop.phase = .collecting ∧ loop.result.isNone then
        some
          { loop with
            sampler := { loop.sampler with inFlight := none }
            phase := .stopped }
      else none

end SamplerLoop

/-- What the server is told after a wait. -/
def syncSamplerState (sampler : Sampler) : Option Server.Update :=
  match sampler.readiness with
  | .ready =>
      match sampler.snapshot, sampler.snapshotV2 with
      | some snap, some snapV2 => some (.snapshot snap snapV2)
      | none, some snapV2 => some (.snapshotV2Only snapV2)
      | some snap, none => some (.snapshotV1Only snap)
      | none, none => none
  | .warming => some .warming
  | .failed => some (.failed "collector failure".toList)

section LoadGate

/-- The state in the words of the scheduler. -/
def gateReadiness : Protocol.ReadinessState → Gregg.ReadinessState
  | .ready => .ready
  | .warming => .warming
  | .failed => .failed

def gateLoad (load : Protocol.LoadAverage) : Gregg.LoadAverage where
  one := load.one
  five := load.five
  fifteen := load.fifteen

/-- What the load gate is told after a wait. -/
def loadGateState (sampler : Sampler) : LoadGateState where
  readiness := gateReadiness sampler.readiness
  load := sampler.snapshotV2.bind fun payload => payload.snapshot.load.map gateLoad

end LoadGate

end Gregg.Sampling
