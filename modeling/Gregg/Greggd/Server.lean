import Gregg.Lib.Machine
import Gregg.Protocol.Health

/-!
# The status and health routes

The sampler publishes, for each version of the schema, a snapshot or a reason why there is none. A
ready health body is serialized once for a publication, outside of the lock: a request takes the
snapshot and the memo cell, fills the cell, and then looks whether the cell is still the published
one. Any number of requests and updates interleave between these steps.
-/

namespace Gregg.Server

open Protocol

/-- A version of the schema. -/
inductive MemoVersion where
  | v1
  | v2
  deriving DecidableEq

namespace MemoVersion

/-- What the sampler publishes. -/
def Published : MemoVersion → Type
  | .v1 => StatusSnapshot
  | .v2 => StatusPayloadV2

/-- What a ready health response has of it. -/
def Shown : MemoVersion → Type
  | .v1 => StatusSnapshot
  | .v2 => StatusSnapshotV2

def shown : (version : MemoVersion) → version.Published → version.Shown
  | .v1, snapshot => snapshot
  | .v2, payload => payload.snapshot

def schemaVersion : MemoVersion → ℕ
  | .v1 => SCHEMA_VERSION_V1
  | .v2 => SCHEMA_VERSION_V2

end MemoVersion

/-- What the server needs of the serializer, which may fail. -/
structure Serializers (Body : Type) where
  codec : (version : MemoVersion) → SnapshotCodec version.Shown
  status : (version : MemoVersion) → version.Published → Option Body
  health : (version : MemoVersion) → HealthDocument version.Shown → Option Body

/-- The body of a ready health response around a publication. -/
def Serializers.readyHealth {Body : Type} (serializers : Serializers Body) (version : MemoVersion)
    (snapshot : version.Published) : Option Body :=
  serializers.health version (.ready version.schemaVersion (version.shown snapshot))

structure HealthMetadata where
  state : Protocol.ReadinessState
  category : Option HealthCategory
  message : Option (List Char)

namespace HealthMetadata

def warming : HealthMetadata where
  state := .warming
  category := some .warming
  message := some "collector warming up".toList

def ready : HealthMetadata where
  state := .ready
  category := none
  message := none

def failed (category : HealthCategory) (message : List Char) : HealthMetadata where
  state := .failed
  category := some category
  message := some message

variable (version : MemoVersion) (codec : SnapshotCodec version.Shown) (metadata : HealthMetadata)

def response (snapshot : Option version.Shown) : HealthDocument version.Shown :=
  match metadata.state with
  | .ready =>
      match snapshot with
      | some snapshot =>
          (HealthDocument.tryReady version.schemaVersion codec snapshot).getD
            (.failed version.schemaVersion .collectorFailure
              "cached snapshot failed protocol validation".toList)
      | none =>
          .failed version.schemaVersion .collectorFailure "snapshot unavailable".toList
  | .warming =>
      .warmingWithMessage version.schemaVersion
        (metadata.message.getD "collector warming up".toList)
  | .failed =>
      .failed version.schemaVersion (metadata.category.getD .collectorFailure)
        (metadata.message.getD "collector failure".toList)

def staleResponse : HealthDocument version.Shown :=
  if metadata.state = .ready then
    .failed version.schemaVersion .collectorFailure "cached snapshot is stale".toList
  else metadata.response version codec none

end HealthMetadata

/-- The published state of one version. A memo cell is known by its number. -/
structure Plane (Body : Type) (version : MemoVersion) where
  snapshot : Option version.Published
  statusBytes : Option Body
  healthCell : ℕ
  health : HealthMetadata

structure PublishedState (Body : Type) where
  plane : (version : MemoVersion) → Plane Body version
  lastObservedAtUnixMs : Option ℕ
  consecutiveFailures : ℕ

/-- When a snapshot is too old to be served. The age is in nanoseconds. -/
structure StalePolicy where
  maxConsecutiveFailures : ℕ
  maxSnapshotAge : ℕ

def u32Max : ℕ := 2 ^ 32 - 1

section Update

/-- What the sampler calls. -/
inductive Update where
  | snapshot (snapshot : StatusSnapshot) (payload : StatusPayloadV2)
  | snapshotV2Only (payload : StatusPayloadV2)
  | snapshotV1Only (snapshot : StatusSnapshot)
  | warming
  | failed (message : List Char)

variable {Body : Type} (serializers : Serializers Body) (cell : ℕ)

def published (version : MemoVersion) (snapshot : version.Published) : Plane Body version where
  snapshot := some snapshot
  statusBytes := serializers.status version snapshot
  healthCell := cell
  health := .ready

def withoutSnapshot (version : MemoVersion) (health : HealthMetadata) : Plane Body version where
  snapshot := none
  statusBytes := none
  healthCell := cell
  health

/-- A failure leaves the snapshot, and the health of a version that is not served. -/
def failedPlane (message : List Char) {version : MemoVersion} (plane : Plane Body version) :
    Plane Body version :=
  { plane with
    healthCell := cell
    health :=
      if plane.health.category = some .notServing then plane.health
      else .failed .collectorFailure message }

/-- An update, which installs fresh cells. -/
def PublishedState.update (state : PublishedState Body) : Update → PublishedState Body
  | .snapshot snapshot payload =>
      { plane := fun
          | .v1 => published serializers cell .v1 snapshot
          | .v2 => published serializers cell .v2 payload
        lastObservedAtUnixMs :=
          some (max snapshot.observedAtUnixMs payload.snapshot.observedAtUnixMs)
        consecutiveFailures := 0 }
  | .snapshotV2Only payload =>
      { plane := fun
          | .v1 => withoutSnapshot cell .v1 (.failed .notServing
              "schema v1 status is unavailable on this platform".toList)
          | .v2 => published serializers cell .v2 payload
        lastObservedAtUnixMs := some payload.snapshot.observedAtUnixMs
        consecutiveFailures := 0 }
  | .snapshotV1Only snapshot =>
      { plane := fun
          | .v1 => published serializers cell .v1 snapshot
          | .v2 => withoutSnapshot cell .v2 (.failed .notServing
              "schema v2 status is unavailable from this sampler".toList)
        lastObservedAtUnixMs := some snapshot.observedAtUnixMs
        consecutiveFailures := 0 }
  | .warming =>
      { plane := fun version => withoutSnapshot cell version .warming
        lastObservedAtUnixMs := none
        consecutiveFailures := 0 }
  | .failed message =>
      { state with
        plane := fun version => failedPlane cell message (state.plane version)
        consecutiveFailures := min (state.consecutiveFailures + 1) u32Max }

end Update

section Routes

variable {Body : Type} (serializers : Serializers Body) (policy : StalePolicy)

/-- A clock before the epoch gives no time. -/
def isStale (state : PublishedState Body) (nowUnixMs : Option ℕ) : Bool :=
  if 0 < policy.maxConsecutiveFailures ∧
      policy.maxConsecutiveFailures ≤ state.consecutiveFailures then true
  else if policy.maxSnapshotAge = 0 then false
  else
    match nowUnixMs, state.lastObservedAtUnixMs with
    | none, _ => true
    | some _, none => false
    -- A snapshot from the future is stale as well.
    | some now, some observed => now < observed || policy.maxSnapshotAge / 1000000 ≤ now - observed

inductive Route where
  | status (version : MemoVersion)
  | health (version : MemoVersion)

/-- A response has a status code and a body. An internal error has neither. -/
inductive Answer (Body : Type) where
  | response (route : Route) (status : ℕ) (body : Body)
  | internalError

def answerWith (route : Route) (status : ℕ) (body : Option Body) : Answer Body :=
  body.elim .internalError (.response route status)

/-- The status route, under one read guard. -/
def statusResponse (state : PublishedState Body) (version : MemoVersion) (nowUnixMs : Option ℕ) :
    Answer Body :=
  let plane := state.plane version
  match plane.snapshot with
  | some snapshot =>
      if isStale policy state nowUnixMs then
        answerWith (.status version) 503 (serializers.health version
          (plane.health.staleResponse version (serializers.codec version)))
      else
        match plane.statusBytes with
        | some body => .response (.status version) 200 body
        | none => answerWith (.status version) 200 (serializers.status version snapshot)
  | none =>
      answerWith (.status version) 503 (serializers.health version
        (plane.health.response version (serializers.codec version) none))

inductive ReadyHealthMemo (Body : Type) (version : MemoVersion) where
  | immediate (answer : Answer Body)
  | serialize (snapshot : version.Published) (cell : ℕ)

/-- The decision about a health request, under one read guard. -/
def healthNow (state : PublishedState Body) (version : MemoVersion) (nowUnixMs : Option ℕ) :
    ReadyHealthMemo Body version :=
  let plane := state.plane version
  let stale := isStale policy state nowUnixMs
  if plane.health.state = .ready then
    if stale then
      .immediate (answerWith (.health version) 503 (serializers.health version
        (.failed version.schemaVersion .collectorFailure "cached snapshot is stale".toList)))
    else
      match plane.snapshot with
      | some snapshot => .serialize snapshot plane.healthCell
      | none =>
          .immediate (answerWith (.health version) 503 (serializers.health version
            (plane.health.response version (serializers.codec version) none)))
  else
    let health := plane.health.response version (serializers.codec version)
      (plane.snapshot.map version.shown)
    let status := if health.state = .ready && !stale then 200 else 503
    .immediate (answerWith (.health version) status (serializers.health version health))

/-- Whether the memo that was filled is still the published one. -/
def memoIsCurrent (state : PublishedState Body) (version : MemoVersion) (cell : ℕ) : Bool :=
  (state.plane version).health.state = .ready && (state.plane version).healthCell = cell

end Routes

/-- Where a health request is between two of its steps. -/
inductive Request (Body : Type) where
  | idle
  | asking (version : MemoVersion) (attempt : ℕ)
  | holding (version : MemoVersion) (attempt : ℕ) (snapshot : version.Published) (cell : ℕ)
  | filled (version : MemoVersion) (attempt : ℕ) (cell : ℕ) (body : Body)

structure World (Body : Type) where
  published : PublishedState Body
  cells : MemoVersion → ℕ → Option Body
  nextCell : ℕ
  requests : ℕ → Request Body

inductive Event where
  | update (update : Update)
  | ask (who : ℕ) (version : MemoVersion)
  | look (who : ℕ) (nowUnixMs : Option ℕ)
  | fill (who : ℕ)
  | check (who : ℕ)
  | status (version : MemoVersion) (nowUnixMs : Option ℕ)

namespace World

variable {Body : Type} (serializers : Serializers Body) (policy : StalePolicy)

def setRequest (world : World Body) (who : ℕ) (request : Request Body) : World Body :=
  { world with
    requests := fun other => if other = who then request else world.requests other }

def setCell (world : World Body) (version : MemoVersion) (cell : ℕ) (body : Body) : World Body :=
  { world with
    cells := fun other number =>
      if other = version ∧ number = cell then some body else world.cells other number }

/-- One step, and the answer that it gives, if any. The serializer of a memo cell does not wait, and
only one request at a time runs it, so that filling a cell is one step. -/
def respond (world : World Body) : Event → Option (World Body × Option (Answer Body))
  | .update update =>
      some
        ({  world with
            published := world.published.update serializers world.nextCell update
            nextCell := world.nextCell + 1 }, none)
  | .ask who version =>
      match world.requests who with
      | .idle => some (world.setRequest who (.asking version 1), none)
      | _ => none
  | .look who nowUnixMs =>
      match world.requests who with
      | .asking version attempt =>
          match healthNow serializers policy world.published version nowUnixMs with
          | .immediate answer => some (world.setRequest who .idle, some answer)
          | .serialize snapshot cell =>
              some (world.setRequest who (.holding version attempt snapshot cell), none)
      | _ => none
  | .fill who =>
      match world.requests who with
      | .holding version attempt snapshot cell =>
          match world.cells version cell with
          | some body => some (world.setRequest who (.filled version attempt cell body), none)
          | none =>
              -- A failure leaves the cell empty.
              match serializers.readyHealth version snapshot with
              | none => some (world.setRequest who .idle, some .internalError)
              | some body =>
                  some ((world.setCell version cell body).setRequest who
                    (.filled version attempt cell body), none)
      | _ => none
  | .check who =>
      match world.requests who with
      | .filled version attempt cell body =>
          if memoIsCurrent world.published version cell then
            some (world.setRequest who .idle, some (.response (.health version) 200 body))
          else if attempt = 2 then
            some (world.setRequest who .idle,
              some (answerWith (.health version) 503 (serializers.health version
                (.failed version.schemaVersion .collectorFailure
                  "snapshot publication is changing".toList))))
          else some (world.setRequest who (.asking version (attempt + 1)), none)
      | _ => none
  | .status version nowUnixMs =>
      some (world, some (statusResponse serializers policy world.published version nowUnixMs))

def step (world : World Body) (event : Event) : Option (World Body) :=
  (world.respond serializers policy event).map Prod.fst

/-- The server before its first sample. -/
def start : World Body where
  published :=
    { plane := fun version => withoutSnapshot 0 version .warming
      lastObservedAtUnixMs := none
      consecutiveFailures := 0 }
  cells _ _ := none
  nextCell := 1
  requests _ := .idle

end World

end Gregg.Server
