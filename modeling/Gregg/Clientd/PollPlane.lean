import Gregg.RustStd
import Gregg.Lib.Mailbox

/-!
# The poll plane

The engine re-reads the configuration when a frontend asks for it and tells the poll scheduler over
a bounded channel. The scheduler reads that channel only between generations, and a generation
lasts as long as its slowest endpoint and the engine's draining of its batches.

The plane is followed from startup until the daemon cancels its tasks, which it does only after the
engine loop has ended. What the configuration holds besides its systems, and what a reload does to
the displayed fleet and to the cron plane, is left to the other planes.
-/

namespace Gregg.Clientd

/-- A parsed and normalized remote endpoint. -/
structure Endpoint where
  id : String
  host : String
  port : UInt16
  name : Option String
  deriving DecidableEq

structure SystemEntry where
  id : String
  host : String
  port : UInt16
  name : Option String
  deriving DecidableEq

def SystemEntry.toEndpoint (entry : SystemEntry) : Endpoint where
  id := entry.id
  host := entry.host
  port := entry.port
  name := entry.name

structure Config where
  systems : List SystemEntry
  deriving DecidableEq

def Config.endpoints (config : Config) : List Endpoint :=
  config.systems.map SystemEntry.toEndpoint

inductive SchedulerCommand where
  | refresh
  | replaceEndpoints (endpoints : List Endpoint)
  deriving DecidableEq

def SchedulerCommand.replacement : SchedulerCommand → Option (List Endpoint)
  | refresh => none
  | replaceEndpoints endpoints => some endpoints

/-- An endpoint with its status URLs, or with the errors their construction ended in. -/
structure PreparedTarget (Url : Type) where
  endpoint : Endpoint
  v1Url : Url
  v2Url : Url
  deriving DecidableEq

/-- How the two status URLs of a host and a port are spelled. -/
structure StatusUrls (Url : Type) where
  statusUrl : String → UInt16 → Url
  v2StatusUrl : String → UInt16 → Url

/-- One finished generation, by the endpoints it has a result for. -/
structure PollBatch where
  generation : ℕ
  polled : List Endpoint
  deriving DecidableEq

inductive PollPhase where
  | waiting
  | polling
  | delivering (batch : PollBatch)
  deriving DecidableEq

structure PollPlane (Url : Type) where
  endpoints : List Endpoint
  prepared : List (PreparedTarget Url)
  generation : ℕ
  phase : PollPhase
  commands : List SchedulerCommand
  batches : List PollBatch
  deriving DecidableEq

inductive PollEvent where
  /-- The engine handles a reload request, for which the configuration file reads like this. -/
  | reload (loaded : Except String Config)
  | receive
  | tick
  | polled
  | delivered
  /-- The engine takes a batch. -/
  | applied

def advanceGeneration (generation : ℕ) : ℕ :=
  if generation < u64Max then generation + 1 else 1

namespace PollPlane

/-- Capacity of the command channel. -/
def COMMAND_CAPACITY : ℕ := 4

/-- Capacity of the batch channel, whose sender waits. -/
def BATCH_CAPACITY : ℕ := 4

variable {Url : Type}

def prepareTargets (urls : StatusUrls Url) (endpoints : List Endpoint) :
    List (PreparedTarget Url) :=
  endpoints.map fun endpoint =>
    { endpoint
      v1Url := urls.statusUrl endpoint.host endpoint.port
      v2Url := urls.v2StatusUrl endpoint.host endpoint.port }

/-- The endpoints a generation covers. -/
def polls (plane : PollPlane Url) : List Endpoint :=
  plane.prepared.map PreparedTarget.endpoint

/-- An empty list keeps the scheduler waiting; otherwise a generation begins. -/
def beginGeneration (plane : PollPlane Url) : PollPlane Url :=
  if plane.endpoints.isEmpty then { plane with phase := .waiting }
  else
    { plane with
      generation := advanceGeneration plane.generation
      phase := .polling }

/-- The scheduler as the daemon starts it. -/
def start (urls : StatusUrls Url) (config : Config) : PollPlane Url :=
  beginGeneration
    { endpoints := config.endpoints
      prepared := prepareTargets urls config.endpoints
      generation := 0
      phase := .waiting
      commands := []
      batches := [] }

def requestSchedulerPoll (plane : PollPlane Url) (command : SchedulerCommand) : PollPlane Url :=
  { plane with commands := Mailbox.offer COMMAND_CAPACITY plane.commands command }

/-- The plane after a reload request, with the answer to the frontend. -/
def reloadConfig (plane : PollPlane Url) (loaded : Except String Config) :
    PollPlane Url × Bool × Option String :=
  match loaded with
  | .ok config =>
      (plane.requestSchedulerPoll (.replaceEndpoints config.endpoints), true, none)
  | .error error =>
      (plane.requestSchedulerPoll .refresh, false, some s!"config reload failed: {error}")

/-- A command the poll loop received. -/
def apply (urls : StatusUrls Url) (plane : PollPlane Url) (command : SchedulerCommand) :
    PollPlane Url :=
  match command with
  | .replaceEndpoints replacement =>
      { plane with
        endpoints := replacement
        prepared := prepareTargets urls replacement }
  | .refresh => plane

def step (urls : StatusUrls Url) (plane : PollPlane Url) (event : PollEvent) :
    Option (PollPlane Url) :=
  match event with
  | .reload loaded => some (plane.reloadConfig loaded).1
  | .receive =>
      match plane.phase, plane.commands with
      | .waiting, command :: commands =>
          some (({ plane with commands }).apply urls command).beginGeneration
      | _, _ => none
  | .tick =>
      -- The wait is biased: a tick is taken only when no command is there.
      if plane.phase = .waiting ∧ plane.commands = [] then some plane.beginGeneration else none
  | .polled =>
      if plane.phase = .polling then
        some { plane with phase := .delivering ⟨plane.generation, plane.polls⟩ }
      else none
  | .delivered =>
      match plane.phase with
      | .delivering batch =>
          if plane.batches.length < BATCH_CAPACITY then
            some { plane with phase := .waiting, batches := plane.batches ++ [batch] }
          else none
      | _ => none
  | .applied =>
      match plane.batches with
      | _ :: batches => some { plane with batches }
      | [] => none

end PollPlane

end Gregg.Clientd
