import Gregg.Clientd.Protocol
import Gregg.Lib.Machine

/-!
# The EggPool worker

The worker converges onto the newest desired state it finds in its control channel. It has at most
one request in flight and arms a deadline for the next passive refresh once a result is handed over;
while the result channel is full it waits inside the hand-over, where newer intent still reaches it.
-/

namespace Gregg.Eggpool

open Clientd (EggpoolPeriod)

def REFRESH_INTERVAL : ℕ := 60000

def RESULT_CHANNEL_CAPACITY : ℕ := 4

structure EggpoolDesiredState where
  active : Bool
  period : EggpoolPeriod
  generation : ℕ
  deriving DecidableEq

/-- The desired state published before any activation. -/
def EggpoolDesiredState.INACTIVE : EggpoolDesiredState where
  active := false
  period := .hour
  generation := 0

inductive EggpoolFetchOutcome (Summary : Type) where
  | online (summary : Summary)
  | missingApiKeyEnv (name : String)
  | unauthorized
  | forbidden
  | statsUnavailable
  | timeout
  | connectionRefused
  | dnsFailure
  | networkError
  | httpStatus (code : UInt16)
  | bodyTooLarge
  | decodeError
  | invalidSummary
  | cancelled
  | invalidEndpoint
  deriving DecidableEq

inductive EggpoolHealthFetchOutcome (Health : Type) where
  | online (snapshot : Health)
  | authenticationRequired
  | forbidden
  | unsupported
  | invalidApiKey
  | timeout
  | connectionRefused
  | dnsFailure
  | networkError
  | httpStatus (code : UInt16)
  | bodyTooLarge
  | decodeError
  | unsupportedSchema
  | invalidStatus
  | invalidEndpoint
  deriving DecidableEq

structure EggpoolResult (Summary Health : Type) where
  generation : ℕ
  period : EggpoolPeriod
  startedAt : ℕ
  completedAt : ℕ
  summary : EggpoolFetchOutcome Summary
  health : EggpoolHealthFetchOutcome Health
  deriving DecidableEq

/-- What a request task in flight was started for. -/
structure Request where
  period : EggpoolPeriod
  generation : ℕ
  deriving DecidableEq

/-- What a request task that did not panic returns, besides what it was started for. -/
structure Fetched (Summary Health : Type) where
  startedAt : ℕ
  summary : EggpoolFetchOutcome Summary
  health : EggpoolHealthFetchOutcome Health

/-- Worker-side convergence onto the latest desired state. -/
structure EggpoolWorkerState where
  desired : EggpoolDesiredState
  request : Option Request
  nextRefreshAt : Option ℕ
  deriving DecidableEq

namespace EggpoolWorkerState

def new : EggpoolWorkerState where
  desired := .INACTIVE
  request := none
  nextRefreshAt := none

/-- Converge onto `desired`, and whether a request for it must start immediately. -/
def converge (worker : EggpoolWorkerState) (desired : EggpoolDesiredState) :
    EggpoolWorkerState × Bool :=
  let supersedes := desired.active &&
    (!worker.desired.active || worker.desired.period ≠ desired.period ||
      worker.desired.generation ≠ desired.generation)
  if !desired.active then ({ desired, request := none, nextRefreshAt := none }, false)
  else if supersedes then ({ desired, request := none, nextRefreshAt := none }, true)
  else ({ worker with desired }, false)

def startRequest (worker : EggpoolWorkerState) : EggpoolWorkerState :=
  { worker with request := some ⟨worker.desired.period, worker.desired.generation⟩ }

def abortRequest (worker : EggpoolWorkerState) : EggpoolWorkerState :=
  { worker with request := none }

/-- `if worker.converge(desired) { worker.start_request(..) }`. -/
def adopt (worker : EggpoolWorkerState) (desired : EggpoolDesiredState) : EggpoolWorkerState :=
  let (converged, starts) := worker.converge desired
  if starts then converged.startRequest else converged

/-- The passive deadline: the newest published state is adopted first. -/
def refresh (worker : EggpoolWorkerState) (desired : EggpoolDesiredState) : EggpoolWorkerState :=
  let (converged, superseded) := { worker with nextRefreshAt := none }.converge desired
  if superseded || (desired.active && converged.request.isNone) then converged.startRequest
  else converged

/-- The result of the request that ended; that of a task that panicked is a network error for the
newest desired state. -/
def resultOf {Summary Health : Type} (worker : EggpoolWorkerState) (request : Request)
    (fetched : Option (Fetched Summary Health)) (now : ℕ) : EggpoolResult Summary Health :=
  match fetched with
  | some done =>
      { generation := request.generation, period := request.period, startedAt := done.startedAt
        completedAt := now, summary := done.summary, health := done.health }
  | none =>
      { generation := worker.desired.generation, period := worker.desired.period, startedAt := now
        completedAt := now, summary := .networkError, health := .networkError }

end EggpoolWorkerState

variable {Summary Health : Type}

/-- Whether a newly published desired state makes a completed result obsolete. -/
def supersedesResult (result : EggpoolResult Summary Health) (desired : EggpoolDesiredState) :
    Bool :=
  !desired.active || desired.period ≠ result.period || desired.generation ≠ result.generation

/-- Where the worker's task is: at its select, waiting to hand a result over, or ended. -/
inductive Phase (Summary Health : Type) where
  | selecting
  | delivering (result : EggpoolResult Summary Health)
  | ended

/-- The worker's task with both of its channels; `changed` is whether the published state is one
the worker has not seen. -/
structure WorkerLoop (Summary Health : Type) where
  worker : EggpoolWorkerState
  phase : Phase Summary Health
  published : EggpoolDesiredState
  changed : Bool
  publisherGone : Bool
  cancelled : Bool
  results : List (EggpoolResult Summary Health)
  receiverGone : Bool

/-- What the daemon does to the channels, and the branches of the two selects. -/
inductive WorkerEvent (Summary Health : Type) where
  | publish (desired : EggpoolDesiredState)
  | dropPublisher
  | cancel
  | receive
  | dropReceiver
  | cancelled
  | observe
  | deadline (now : ℕ)
  | completed (fetched : Option (Fetched Summary Health)) (now : ℕ)
  | reserve (now : ℕ)

namespace WorkerLoop

def start : WorkerLoop Summary Health where
  worker := .new
  phase := .selecting
  published := .INACTIVE
  changed := false
  publisherGone := false
  cancelled := false
  results := []
  receiverGone := false

/-- The task unwinds: whatever is in flight is aborted. -/
def unwind (loop : WorkerLoop Summary Health) : WorkerLoop Summary Health :=
  { loop with worker := loop.worker.abortRequest, phase := .ended }

/-- Back at the select with the newest published state adopted. -/
def adoptPublished (loop : WorkerLoop Summary Health) : WorkerLoop Summary Health :=
  { loop with worker := loop.worker.adopt loop.published, changed := false, phase := .selecting }

/-- The `control_rx.changed()` branch of the select, and of the hand-over. -/
def observe (loop : WorkerLoop Summary Health) : Option (WorkerLoop Summary Health) :=
  match loop.phase with
  | .ended => none
  | .selecting =>
      if loop.changed then some loop.adoptPublished
      else if loop.publisherGone then some loop.unwind
      else none
  | .delivering result =>
      if loop.changed then
        if supersedesResult result loop.published then some loop.adoptPublished
        -- An equivalent publication is consumed and the wait continues.
        else some { loop with changed := false }
      else if loop.publisherGone then some loop.unwind
      else none

/-- The `sender.reserve()` branch of the hand-over. -/
def reserve (loop : WorkerLoop Summary Health) (now : ℕ) : Option (WorkerLoop Summary Health) :=
  match loop.phase with
  | .delivering result =>
      if loop.receiverGone then some loop.unwind
      else if loop.results.length < RESULT_CHANNEL_CAPACITY then
        some { loop with
          phase := .selecting
          results := loop.results ++ [result]
          worker :=
            if loop.worker.desired.active then
              { loop.worker with nextRefreshAt := some (now + REFRESH_INTERVAL) }
            else loop.worker }
      else none
  | _ => none

def step (loop : WorkerLoop Summary Health) (event : WorkerEvent Summary Health) :
    Option (WorkerLoop Summary Health) :=
  match event with
  | .publish desired =>
      match loop.phase with
      | .ended => none
      | _ =>
          if loop.publisherGone then none
          else some { loop with published := desired, changed := true }
  | .dropPublisher => some { loop with publisherGone := true }
  | .cancel => some { loop with cancelled := true }
  | .receive =>
      match loop.results with
      | [] => none
      | _ :: results => some { loop with results }
  | .dropReceiver => some { loop with receiverGone := true }
  | .cancelled =>
      match loop.phase with
      | .ended => none
      | _ => if loop.cancelled then some loop.unwind else none
  | .observe => loop.observe
  | .deadline now =>
      match loop.phase, loop.worker.nextRefreshAt with
      | .selecting, some deadline =>
          if deadline ≤ now then
            some { loop with worker := loop.worker.refresh loop.published, changed := false }
          else none
      | _, _ => none
  | .completed fetched now =>
      match loop.phase, loop.worker.request with
      | .selecting, some request =>
          some { loop with
            worker := { loop.worker with request := none }
            phase := .delivering (loop.worker.resultOf request fetched now) }
      | _, _ => none
  | .reserve now => loop.reserve now

end WorkerLoop

end Gregg.Eggpool
