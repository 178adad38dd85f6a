import Gregg.Fleet.Reload

/-!
# The scheduler plane

One task polls the scheduler routes of every configured endpoint in rounds, a few at a time, and
hands each finished observation to the engine over a bounded channel. It keeps a gate of the
history documents it has handed over and fetches a history only when the summary names another
one. The engine takes the observations in order, and reloads the configuration in between.
-/

namespace Gregg.Fleet

open Clientd (Endpoint)

/-- The identity one scheduler read was bound to. -/
def targetKey (ip : IpSyntax) (systemId host : String) (port : UInt16) : String :=
  let normalized :=
    match normalizeHost ip host.toList with
    | some normalized => toAsciiLowercase normalized
    | none => host.toList
  String.ofList (systemId.toList ++ '\x1f' :: normalized ++ '\x1f' :: (toString port).toList)

def endpointKey (ip : IpSyntax) (endpoint : Endpoint) : String :=
  targetKey ip endpoint.id endpoint.host endpoint.port

def CronObservation.key (ip : IpSyntax) (observation : CronObservation) : String :=
  targetKey ip observation.systemId observation.host observation.port

/-- A gate update that is not yet valid. -/
structure PendingGateCommit where
  key : String
  epoch : SchedulerEpochV2
  revision : ℕ
  deriving DecidableEq

/-- The history documents the worker has handed over, by target. -/
structure HistoryGate where
  entries : SortedMap String (SchedulerEpochV2 × ℕ)

namespace HistoryGate

def empty : HistoryGate where
  entries := .empty

/-- Whether a history fetch is needed for this target and summary. -/
def needs (gate : HistoryGate) (key : String) (summary : SchedulerSummaryV2) : Bool :=
  match gate.entries.find? key with
  | none => true
  | some (epoch, revision) => epoch ≠ summary.epoch || revision ≠ summary.historyRevision

def commit (gate : HistoryGate) (commit : PendingGateCommit) : HistoryGate where
  entries := gate.entries.upsert commit.key fun _ => (commit.epoch, commit.revision)

/-- Forget targets that are no longer polled. -/
def forgetAbsent (gate : HistoryGate) (live : List String) : HistoryGate where
  entries := gate.entries.retain (live.contains ·)

end HistoryGate

/-- What became of the history request for one endpoint. -/
inductive HistoryAttempt where
  | suppressed
  /-- A fetch was made; no document is a remote without the history route. -/
  | fetched (answer : Except CronFetchError (Option SchedulerHistoryV2))

structure EndpointFetch where
  endpoint : Endpoint
  summary : SummaryOutcome
  history : HistoryAttempt

/-- Turn one finished fetch into an observation and a pending gate commit. -/
def settle (ip : IpSyntax) (finished : EndpointFetch) (nowUnixMs : ℕ) :
    CronObservation × Option PendingGateCommit :=
  let endpoint := finished.endpoint
  let observation : CronObservation :=
    { systemId := endpoint.id
      host := endpoint.host
      port := endpoint.port
      summary := finished.summary
      history := none
      historyError := none
      nowUnixMs }
  match finished.summary, finished.history with
  | .supported document, .fetched (.ok (some found)) =>
      if found.epoch = document.epoch ∧ found.historyRevision = document.historyRevision then
        ({ observation with history := some found },
          some ⟨endpointKey ip endpoint, found.epoch, found.historyRevision⟩)
      else
        ({ observation with
            historyError := some (.incoherent
              (s!"summary is epoch ({document.epoch.startedAtUnixMs}, {document.epoch.nonce}) " ++
                s!"revision {document.historyRevision} but history is epoch " ++
                s!"({found.epoch.startedAtUnixMs}, {found.epoch.nonce}) revision " ++
                s!"{found.historyRevision}")) }, none)
  | .supported _, .fetched (.ok none) =>
      ({ observation with
        historyError := some (.transport
          "the scheduler summary is served but the history route is not") }, none)
  | .supported _, .fetched (.error error) =>
      ({ observation with historyError := some error }, none)
  | _, _ => (observation, none)

/-- How far one endpoint's fetch has come. -/
inductive FetchStage where
  | readingSummary
  | readingHistory (summary : SchedulerSummaryV2)
  | finished (fetch : EndpointFetch)

structure InFlight where
  endpoint : Endpoint
  stage : FetchStage

/-- `fetch` once the summary has been read: the history is read only when the gate asks. -/
def InFlight.afterSummary (ip : IpSyntax) (fetch : InFlight) (gate : HistoryGate)
    (outcome : SummaryOutcome) : InFlight :=
  let finished : EndpointFetch :=
    { endpoint := fetch.endpoint, summary := outcome, history := .suppressed }
  match outcome with
  | .supported document =>
      if gate.needs (endpointKey ip fetch.endpoint) document then
        { fetch with stage := .readingHistory document }
      else { fetch with stage := .finished finished }
  | _ => { fetch with stage := .finished finished }

/-- Maximum number of endpoint scheduler reads in flight at once. -/
def CRON_MAX_IN_FLIGHT : ℕ := 4

/-- Capacity of the channel from the worker to the engine. -/
def CRON_CHANNEL_CAPACITY : ℕ := 64

/-- One round over the endpoints: the gate as it was at the start, those not yet begun, and the
fetches in flight. -/
structure CronRound where
  snapshot : HistoryGate
  pending : List Endpoint
  inFlight : List InFlight

/-- The worker, the channel and the engine's fleet. -/
structure CronPlane (Snapshot Reason Entry Summary Health : Type) where
  fleet : FleetState Snapshot Reason Entry Summary Health
  /-- The shared endpoint list. -/
  endpoints : List Endpoint
  /-- A reload the worker has not been woken for. -/
  notified : Bool
  gate : HistoryGate
  round : Option CronRound
  channel : List CronObservation
  /-- Everything the channel ever accepted. Read by no step. -/
  delivered : List CronObservation

inductive CronEvent (Snapshot Reason Entry Summary Health : Type) where
  | beginRound
  | summaryRead (index : ℕ) (outcome : SummaryOutcome)
  | historyRead (index : ℕ) (answer : Except CronFetchError (Option SchedulerHistoryV2))
  | deliver (index : ℕ) (nowUnixMs : ℕ)
  | complete
  | interrupt
  | take
  | engine (event : FleetEvent Snapshot Reason Entry Summary Health)

namespace CronPlane

variable {Snapshot Reason Entry Summary Health : Type}

def start (config : Config Entry) : CronPlane Snapshot Reason Entry Summary Health where
  fleet := .fromConfig config
  endpoints := config.systems.map (·.toEndpoint)
  notified := false
  gate := .empty
  round := none
  channel := []
  delivered := []

variable (ip : IpSyntax) (plane : CronPlane Snapshot Reason Entry Summary Health)

/-- Read the shared list, forget the targets it lacks and begin with the first few. -/
def beginRound : Option (CronPlane Snapshot Reason Entry Summary Health) :=
  match plane.round with
  | some _ => none
  | none =>
      let gate := plane.gate.forgetAbsent (plane.endpoints.map (endpointKey ip))
      some
        { plane with
          gate
          round := some
            { snapshot := gate
              pending := plane.endpoints.drop CRON_MAX_IN_FLIGHT
              inFlight := (plane.endpoints.take CRON_MAX_IN_FLIGHT).map
                fun endpoint => ⟨endpoint, .readingSummary⟩ } }

def summaryRead (index : ℕ) (outcome : SummaryOutcome) :
    Option (CronPlane Snapshot Reason Entry Summary Health) :=
  plane.round.bind fun round =>
    match round.inFlight[index]? with
    | some ⟨endpoint, .readingSummary⟩ =>
        let read := InFlight.afterSummary ip ⟨endpoint, .readingSummary⟩ round.snapshot outcome
        some { plane with round := some { round with inFlight := round.inFlight.set index read } }
    | _ => none

def historyRead (index : ℕ) (answer : Except CronFetchError (Option SchedulerHistoryV2)) :
    Option (CronPlane Snapshot Reason Entry Summary Health) :=
  plane.round.bind fun round =>
    match round.inFlight[index]? with
    | some ⟨endpoint, .readingHistory summary⟩ =>
        let fetch : EndpointFetch :=
          { endpoint, summary := .supported summary, history := .fetched answer }
        some
          { plane with
            round := some
              { round with inFlight := round.inFlight.set index ⟨endpoint, .finished fetch⟩ } }
    | _ => none

/-- Settle a finished fetch and hand the observation over; only then the gate moves, and the next
endpoint is begun. A fetch that finds no room waits. -/
def deliver (index : ℕ) (nowUnixMs : ℕ) :
    Option (CronPlane Snapshot Reason Entry Summary Health) :=
  plane.round.bind fun round =>
    match round.inFlight[index]? with
    | some ⟨_, .finished fetch⟩ =>
        if plane.channel.length < CRON_CHANNEL_CAPACITY then
          let (observation, commit) := settle ip fetch nowUnixMs
          some
            { plane with
              gate := (commit.map plane.gate.commit).getD plane.gate
              channel := plane.channel ++ [observation]
              delivered := plane.delivered ++ [observation]
              round := some
                { round with
                  pending := round.pending.tail
                  inFlight := round.inFlight.eraseIdx index ++
                    (round.pending.head?.map (⟨·, .readingSummary⟩)).toList } }
        else none
    | _ => none

def complete : Option (CronPlane Snapshot Reason Entry Summary Health) :=
  plane.round.bind fun round =>
    if round.inFlight.isEmpty then some { plane with round := none } else none

/-- The notice of a reload wakes a parked worker and ends a round, whose reads are dropped. -/
def interrupt : Option (CronPlane Snapshot Reason Entry Summary Health) :=
  if plane.notified then some { plane with notified := false, round := none } else none

/-- The engine takes the next observation. -/
def take : Option (CronPlane Snapshot Reason Entry Summary Health) :=
  match plane.channel with
  | [] => none
  | observation :: channel =>
      some { plane with fleet := (plane.fleet.takeCronObservation ip observation).1, channel }

/-- Another turn of the engine. An accepted reload replaces the shared list and notifies the
worker. -/
def engine (event : FleetEvent Snapshot Reason Entry Summary Health) :
    Option (CronPlane Snapshot Reason Entry Summary Health) :=
  match event with
  | .observation _ => none
  | .reload (.ok config) =>
      (plane.fleet.step ip event).map fun fleet =>
        { plane with fleet, endpoints := config.systems.map (·.toEndpoint), notified := true }
  | event => (plane.fleet.step ip event).map fun fleet => { plane with fleet }

def step (event : CronEvent Snapshot Reason Entry Summary Health) :
    Option (CronPlane Snapshot Reason Entry Summary Health) :=
  match event with
  | .beginRound => plane.beginRound ip
  | .summaryRead index outcome => plane.summaryRead ip index outcome
  | .historyRead index answer => plane.historyRead index answer
  | .deliver index nowUnixMs => plane.deliver ip index nowUnixMs
  | .complete => plane.complete
  | .interrupt => plane.interrupt
  | .take => plane.take ip
  | .engine event => plane.engine ip event

end CronPlane

end Gregg.Fleet
