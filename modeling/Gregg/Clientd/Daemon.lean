import Mathlib.Logic.Function.Basic
import Gregg.Clientd.Serve
import Gregg.Clientd.Intents

/-!
# The connections of a daemon and its engine

Every accepted connection is served by a task of its own. The tasks hand requests to the engine
through one bounded channel, in which they keep their order, and each gets its acknowledgements back
through a bounded channel of its own. A task puts its frontend into both intent sets when it answers
the handshake and takes it out when its loop has ended.

A turn of a connection is taken in two halves, between which the engine and other tasks may act.
What the engine knows of the fleet shows here only in its answer to a reload. Subscriber ids are
not followed to the point where their counter wraps around.
-/

namespace Gregg.Clientd

/-- Acknowledgements held for one frontend that has stopped reading. -/
def ACK_CHANNEL_CAPACITY : ℕ := 8

def REQUEST_CHANNEL_CAPACITY : ℕ := 64

/-- Where the task of a connection stands. -/
inductive Stage where
  | taking
  | waiting
  | ended
  | leaving
  | gone
  deriving DecidableEq

/-- Whether the loop of the task is still running, and its acknowledgements are received. -/
def Stage.isServing : Stage → Bool
  | taking | waiting => true
  | _ => false

/-- A connection with the bytes its frontend sends over its lifetime. -/
structure ConnectionTask (Snapshot : Type) where
  inbound : List UInt8
  serving : Serving Snapshot
  stage : Stage
  acks : List (FrontendFrame Snapshot)

structure Daemon (Snapshot : Type) where
  tasks : ℕ → Option (ConnectionTask Snapshot)
  nextSubscriber : ℕ
  requests : List Inbound
  intents : EggpoolIntents
  cronIntents : CronIntents
  stopped : Bool

inductive DaemonEvent where
  | accept (inbound : List UInt8)
  | take (subscriber : ℕ) (turn : Turn)
  | wait (subscriber : ℕ) (branch : Branch) (farewell : List WriteOutcome)
  | removeIntent (subscriber : ℕ)
  | removeCronIntent (subscriber : ℕ)
  | handle (reloaded : Bool) (detail : Option String)
  | cancel

/-- The hub as one connection sees it. -/
def Hub.forSubscriber {Snapshot : Type} (hub : Hub Snapshot) (subscriber : ℕ) : Hub Snapshot :=
  { hub with subscriber }

namespace ConnectionTask

variable {Snapshot : Type}

def new (inbound : List UInt8) : ConnectionTask Snapshot where
  inbound
  serving := .new inbound
  stage := .taking
  acks := []

/-- The task after half a turn, with the farewell of `serve` when the loop ended in it. -/
def proceed (hub : Hub Snapshot) (task : ConnectionTask Snapshot) (serving : Serving Snapshot)
    (farewell : List WriteOutcome) (stage : Stage) : Option (ConnectionTask Snapshot) :=
  if serving.result.isSome then
    (serving.sayFarewell hub farewell).map fun told =>
      { task with serving := told, stage := .ended }
  else some { task with serving, stage }

/-- Take an acknowledgement off the channel, when that is the branch. -/
def receiveAck (task : ConnectionTask Snapshot) (branch : Branch) :
    Option (ConnectionTask Snapshot) :=
  match branch with
  | .ack generation accepted detail _ =>
      match task.acks with
      | .controlAck queued queuedAccepted queuedDetail :: acks =>
          if queued = generation ∧ queuedAccepted = accepted ∧ queuedDetail = detail then
            some { task with acks }
          else none
      | _ => none
  | _ => some task

/-- `acks.try_send`: nothing arrives in a full channel, or once its receiver is dropped. -/
def sendAck (task : ConnectionTask Snapshot) (frame : FrontendFrame Snapshot) :
    ConnectionTask Snapshot :=
  if task.stage.isServing ∧ task.acks.length < ACK_CHANNEL_CAPACITY then
    { task with acks := task.acks ++ [frame] }
  else task

end ConnectionTask

/-- What an action hands to the engine. -/
def ServeAction.inbound {Snapshot : Type} : ServeAction Snapshot → Option Inbound
  | forwarded inbound => some inbound
  | _ => none

namespace Daemon

variable {Snapshot : Type}

def new : Daemon Snapshot where
  tasks := fun _ => none
  nextSubscriber := 1
  requests := []
  intents := .empty
  cronIntents := .empty
  stopped := false

/-- Whether the engine's channel takes a request: it is not full, and the engine receives. -/
def hasRoom (daemon : Daemon Snapshot) : Bool :=
  daemon.requests.length < REQUEST_CHANNEL_CAPACITY && !daemon.stopped

def setTask (daemon : Daemon Snapshot) (subscriber : ℕ) (task : ConnectionTask Snapshot) :
    Daemon Snapshot :=
  { daemon with tasks := Function.update daemon.tasks subscriber (some task) }

/-- The entries of a new window: its panes are closed. -/
def enlist (daemon : Daemon Snapshot) (subscriber : ℕ) : Daemon Snapshot :=
  { daemon with
    intents := (daemon.intents.set subscriber false .hour).1
    cronIntents := (daemon.cronIntents.set subscriber ⟨none, none, 0⟩).1 }

/-- The daemon after the first half of a turn: what was forwarded is queued, and a frontend whose
handshake was answered is enlisted. -/
def afterTake (daemon : Daemon Snapshot) (subscriber : ℕ) (before taken : Serving Snapshot) :
    Daemon Snapshot :=
  let queued :=
    { daemon with
      requests := daemon.requests ++
        (taken.log.drop before.log.length).filterMap ServeAction.inbound }
  if !before.handshakeDone && taken.handshakeDone && taken.result.isNone then
    queued.enlist subscriber
  else queued

def sendAck (daemon : Daemon Snapshot) (subscriber : ℕ) (frame : FrontendFrame Snapshot) :
    Daemon Snapshot :=
  match daemon.tasks subscriber with
  | some task => daemon.setTask subscriber (task.sendAck frame)
  | none => daemon

def handleRequest (daemon : Daemon Snapshot) (inbound : Inbound) (reloaded : Bool)
    (detail : Option String) : Daemon Snapshot :=
  match inbound.request with
  -- Handled by the connection before it ever reaches the engine.
  | .handshake _ _ _ => daemon
  | .reloadConfig generation =>
      daemon.sendAck inbound.subscriber (.controlAck generation reloaded detail)
  | .setEggpoolIntent active period _ generation =>
      { daemon with
        intents := (daemon.intents.set inbound.subscriber active period).1 }.sendAck
          inbound.subscriber (.controlAck generation true none)
  | .setCronIntent systemId job displayHistory generation =>
      { daemon with
        cronIntents :=
          (daemon.cronIntents.set inbound.subscriber ⟨systemId, job, displayHistory⟩).1 }.sendAck
            inbound.subscriber (.controlAck generation true none)
  | .shutdown generation =>
      { daemon with stopped := true }.sendAck inbound.subscriber (.controlAck generation true none)

def step (hub : Hub Snapshot) (daemon : Daemon Snapshot) (event : DaemonEvent) :
    Option (Daemon Snapshot) :=
  match event with
  | .accept inbound =>
      some { daemon.setTask daemon.nextSubscriber (.new inbound) with
        nextSubscriber := daemon.nextSubscriber + 1 }
  | .take subscriber turn =>
      (daemon.tasks subscriber).bind fun task =>
        if task.stage = .taking ∧ turn.room = daemon.hasRoom then
          (task.serving.takeRequest (hub.forSubscriber subscriber) turn).bind fun taken =>
            (task.proceed (hub.forSubscriber subscriber) taken turn.farewell .waiting).map
              fun next => (daemon.afterTake subscriber task.serving taken).setTask subscriber next
        else none
  | .wait subscriber branch farewell =>
      (daemon.tasks subscriber).bind fun task =>
        if task.stage = .waiting then
          (task.receiveAck branch).bind fun task =>
            (task.serving.select (hub.forSubscriber subscriber) branch).bind fun selected =>
              (task.proceed (hub.forSubscriber subscriber) selected farewell .taking).map
                fun next => daemon.setTask subscriber next
        else none
  | .removeIntent subscriber =>
      (daemon.tasks subscriber).bind fun task =>
        if task.stage = .ended then
          some { daemon.setTask subscriber { task with stage := .leaving } with
            intents := daemon.intents.remove subscriber }
        else none
  | .removeCronIntent subscriber =>
      (daemon.tasks subscriber).bind fun task =>
        if task.stage = .leaving then
          some { daemon.setTask subscriber { task with stage := .gone } with
            cronIntents := daemon.cronIntents.remove subscriber }
        else none
  | .handle reloaded detail =>
      match daemon.stopped, daemon.requests with
      | false, inbound :: requests =>
          some ({ daemon with requests }.handleRequest inbound reloaded detail)
      | _, _ => none
  | .cancel => some { daemon with stopped := true }

section Fields

variable {daemon : Daemon Snapshot} {subscriber other : ℕ} {task : ConnectionTask Snapshot}
  {frame : FrontendFrame Snapshot} {before taken : Serving Snapshot}

@[simp]
theorem setTask_self : (daemon.setTask subscriber task).tasks subscriber = some task :=
  Function.update_self _ _ _

theorem setTask_ne (distinct : other ≠ subscriber) :
    (daemon.setTask subscriber task).tasks other = daemon.tasks other :=
  Function.update_of_ne distinct _ _

@[simp]
theorem requests_setTask : (daemon.setTask subscriber task).requests = daemon.requests :=
  rfl

@[simp]
theorem intents_setTask : (daemon.setTask subscriber task).intents = daemon.intents :=
  rfl

@[simp]
theorem cronIntents_setTask : (daemon.setTask subscriber task).cronIntents = daemon.cronIntents :=
  rfl

@[simp]
theorem requests_sendAck : (daemon.sendAck subscriber frame).requests = daemon.requests := by
  unfold sendAck
  split <;> rfl

@[simp]
theorem intents_sendAck : (daemon.sendAck subscriber frame).intents = daemon.intents := by
  unfold sendAck
  split <;> rfl

@[simp]
theorem cronIntents_sendAck :
    (daemon.sendAck subscriber frame).cronIntents = daemon.cronIntents := by
  unfold sendAck
  split <;> rfl

@[simp]
theorem tasks_afterTake : (daemon.afterTake subscriber before taken).tasks = daemon.tasks := by
  unfold afterTake
  simp only
  split <;> rfl

@[simp]
theorem nextSubscriber_afterTake :
    (daemon.afterTake subscriber before taken).nextSubscriber = daemon.nextSubscriber := by
  unfold afterTake
  simp only
  split <;> rfl

@[simp]
theorem requests_afterTake :
    (daemon.afterTake subscriber before taken).requests = daemon.requests ++
      (taken.log.drop before.log.length).filterMap ServeAction.inbound := by
  unfold afterTake
  simp only
  split <;> rfl

end Fields

section Steps

variable {hub : Hub Snapshot} {daemon next : Daemon Snapshot} {event : DaemonEvent}

/-- What a step of the daemon comes to. -/
inductive Moves (hub : Hub Snapshot) (daemon next : Daemon Snapshot) : DaemonEvent → Prop where
  | accept (inbound : List UInt8)
      (isNext : next =
        { daemon.setTask daemon.nextSubscriber (.new inbound) with
          nextSubscriber := daemon.nextSubscriber + 1 }) : Moves hub daemon next (.accept inbound)
  | take (subscriber : ℕ) (turn : Turn) (task updated : ConnectionTask Snapshot)
      (taken : Serving Snapshot) (known : daemon.tasks subscriber = some task)
      (taking : task.stage = .taking) (room : turn.room = daemon.hasRoom)
      (took : task.serving.takeRequest (hub.forSubscriber subscriber) turn = some taken)
      (proceeded : task.proceed (hub.forSubscriber subscriber) taken turn.farewell .waiting =
        some updated)
      (isNext : next =
        (daemon.afterTake subscriber task.serving taken).setTask subscriber updated) :
      Moves hub daemon next (.take subscriber turn)
  | wait (subscriber : ℕ) (branch : Branch) (farewell : List WriteOutcome)
      (task ready updated : ConnectionTask Snapshot) (selected : Serving Snapshot)
      (known : daemon.tasks subscriber = some task) (waiting : task.stage = .waiting)
      (received : task.receiveAck branch = some ready)
      (branchTaken : ready.serving.select (hub.forSubscriber subscriber) branch = some selected)
      (proceeded : ready.proceed (hub.forSubscriber subscriber) selected farewell .taking =
        some updated)
      (isNext : next = daemon.setTask subscriber updated) :
      Moves hub daemon next (.wait subscriber branch farewell)
  | removeIntent (subscriber : ℕ) (task : ConnectionTask Snapshot)
      (known : daemon.tasks subscriber = some task) (ended : task.stage = .ended)
      (isNext : next =
        { daemon.setTask subscriber { task with stage := .leaving } with
          intents := daemon.intents.remove subscriber }) :
      Moves hub daemon next (.removeIntent subscriber)
  | removeCronIntent (subscriber : ℕ) (task : ConnectionTask Snapshot)
      (known : daemon.tasks subscriber = some task) (leaving : task.stage = .leaving)
      (isNext : next =
        { daemon.setTask subscriber { task with stage := .gone } with
          cronIntents := daemon.cronIntents.remove subscriber }) :
      Moves hub daemon next (.removeCronIntent subscriber)
  | handle (reloaded : Bool) (detail : Option String) (inbound : Inbound)
      (requests : List Inbound) (queue : daemon.requests = inbound :: requests)
      (isNext : next = { daemon with requests }.handleRequest inbound reloaded detail) :
      Moves hub daemon next (.handle reloaded detail)
  | cancel (isNext : next = { daemon with stopped := true }) : Moves hub daemon next .cancel

theorem moves_of_step (stepped : step hub daemon event = some next) :
    Moves hub daemon next event := by
  cases event with
  | accept inbound =>
      cases stepped
      exact .accept inbound rfl
  | take subscriber turn =>
      rcases Option.bind_eq_some_iff.mp stepped with ⟨task, known, stepped⟩
      split at stepped
      · rename_i taking
        rcases Option.bind_eq_some_iff.mp stepped with ⟨taken, took, stepped⟩
        rcases Option.map_eq_some_iff.mp stepped with ⟨updated, proceeded, rfl⟩
        exact .take subscriber turn task updated taken known taking.1 taking.2 took proceeded rfl
      · cases stepped
  | wait subscriber branch farewell =>
      rcases Option.bind_eq_some_iff.mp stepped with ⟨task, known, stepped⟩
      split at stepped
      · rename_i waiting
        rcases Option.bind_eq_some_iff.mp stepped with ⟨ready, received, stepped⟩
        rcases Option.bind_eq_some_iff.mp stepped with ⟨selected, branchTaken, stepped⟩
        rcases Option.map_eq_some_iff.mp stepped with ⟨updated, proceeded, rfl⟩
        exact .wait subscriber branch farewell task ready updated selected known waiting received
          branchTaken proceeded rfl
      · cases stepped
  | removeIntent subscriber =>
      rcases Option.bind_eq_some_iff.mp stepped with ⟨task, known, stepped⟩
      split at stepped
      · rename_i ended
        cases stepped
        exact .removeIntent subscriber task known ended rfl
      · cases stepped
  | removeCronIntent subscriber =>
      rcases Option.bind_eq_some_iff.mp stepped with ⟨task, known, stepped⟩
      split at stepped
      · rename_i leaving
        cases stepped
        exact .removeCronIntent subscriber task known leaving rfl
      · cases stepped
  | handle reloaded detail =>
      simp only [step] at stepped
      split at stepped
      · rename_i inbound requests _ queue
        cases stepped
        exact .handle reloaded detail inbound requests queue rfl
      · cases stepped
  | cancel =>
      cases stepped
      exact .cancel rfl

end Steps

end Daemon

end Gregg.Clientd
