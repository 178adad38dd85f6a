import Gregg.Clientd.PollPlane
import Gregg.Lib.Machine

/-!
# Reloads and the poll plane

What the scheduler will poll once it has read every command is the list on its way: the installed
endpoints followed by the replacements that wait. Only a reload changes it, and only when its
command finds room. The last accepted reload therefore decides what is polled in the end.
-/

namespace Gregg.Clientd

namespace PollEvent

/-- The endpoint list of a reload the engine accepts. -/
def accepted : PollEvent → Option (List Endpoint)
  | reload (.ok config) => some config.endpoints
  | _ => none

def isAccepted (event : PollEvent) : Bool :=
  event.accepted.isSome

def isReload : PollEvent → Bool
  | reload _ => true
  | _ => false

end PollEvent

namespace PollPlane

variable {Url : Type} {urls : StatusUrls Url} {plane next : PollPlane Url} {event : PollEvent}
  {events : List PollEvent} {config : Config}

/-- The list that is polled when every waiting command has been received. -/
def onItsWay (plane : PollPlane Url) : List Endpoint :=
  Mailbox.settle SchedulerCommand.replacement plane.endpoints plane.commands

/-- The endpoint list of the last reload the engine accepted, or the one it started with. -/
def lastAccepted (config : Config) (events : List PollEvent) : List Endpoint :=
  Mailbox.settle PollEvent.accepted config.endpoints events

/-- The list of an accepted reload finds room, or is what would be polled anyway. -/
def Forwards (plane : PollPlane Url) (event : PollEvent) : Prop :=
  ∀ endpoints, event.accepted = some endpoints →
    plane.commands.length < COMMAND_CAPACITY ∨ plane.onItsWay = endpoints

@[simp]
theorem beginGeneration_endpoints : plane.beginGeneration.endpoints = plane.endpoints := by
  unfold beginGeneration
  split <;> rfl

@[simp]
theorem beginGeneration_prepared : plane.beginGeneration.prepared = plane.prepared := by
  unfold beginGeneration
  split <;> rfl

@[simp]
theorem beginGeneration_commands : plane.beginGeneration.commands = plane.commands := by
  unfold beginGeneration
  split <;> rfl

@[simp]
theorem beginGeneration_batches : plane.beginGeneration.batches = plane.batches := by
  unfold beginGeneration
  split <;> rfl

@[simp]
theorem apply_commands {command : SchedulerCommand} :
    (plane.apply urls command).commands = plane.commands := by
  cases command <;> rfl

theorem apply_endpoints {command : SchedulerCommand} :
    (plane.apply urls command).endpoints = command.replacement.getD plane.endpoints := by
  cases command <;> rfl

/-- What a step does to the endpoints, their targets and the commands. -/
inductive Moves (urls : StatusUrls Url) (plane next : PollPlane Url) : PollEvent → Prop where
  | reload (loaded : Except String Config) (reloaded : next = (plane.reloadConfig loaded).1) :
      Moves urls plane next (.reload loaded)
  | receive (command : SchedulerCommand) (waiting : plane.commands = command :: next.commands)
      (endpoints : next.endpoints = (plane.apply urls command).endpoints)
      (prepared : next.prepared = (plane.apply urls command).prepared) :
      Moves urls plane next .receive
  | other (event : PollEvent) (notReload : event.isReload = false)
      (commands : next.commands = plane.commands) (endpoints : next.endpoints = plane.endpoints)
      (prepared : next.prepared = plane.prepared) : Moves urls plane next event

theorem moves_of_step (stepped : step urls plane event = some next) :
    Moves urls plane next event := by
  cases event with
  | reload loaded =>
      cases stepped
      exact .reload loaded rfl
  | receive =>
      simp only [step] at stepped
      split at stepped
      · rename_i command commands _ waiting
        cases stepped
        apply Moves.receive command
        · simp [waiting]
        · rw [beginGeneration_endpoints]
          cases command <;> rfl
        · rw [beginGeneration_prepared]
          cases command <;> rfl
      · cases stepped
  | tick =>
      simp only [step] at stepped
      split at stepped
      · cases stepped
        exact .other _ rfl (by simp) (by simp) (by simp)
      · cases stepped
  | polled =>
      simp only [step] at stepped
      split at stepped
      · cases stepped
        exact .other _ rfl rfl rfl rfl
      · cases stepped
  | delivered =>
      simp only [step] at stepped
      split at stepped
      · split at stepped
        · cases stepped
          exact .other _ rfl rfl rfl rfl
        · cases stepped
      · cases stepped
  | applied =>
      simp only [step] at stepped
      split at stepped
      · cases stepped
        exact .other _ rfl rfl rfl rfl
      · cases stepped

theorem prepared_of_step (stepped : step urls plane event = some next)
    (prepared : plane.prepared = prepareTargets urls plane.endpoints) :
    next.prepared = prepareTargets urls next.endpoints := by
  cases moves_of_step stepped with
  | reload loaded reloaded =>
      rw [reloaded]
      cases loaded <;> exact prepared
  | receive command _ endpoints targets =>
      rw [targets, endpoints]
      cases command with
      | refresh => exact prepared
      | replaceEndpoints replacement => rfl
  | other _ _ _ endpoints targets => rw [targets, endpoints, prepared]

theorem map_endpoint_prepareTargets {endpoints : List Endpoint} :
    (prepareTargets urls endpoints).map PreparedTarget.endpoint = endpoints := by
  simp [prepareTargets, Function.comp_def]

theorem polls_eq_endpoints
    (ran : Machine.run (step urls) (start urls config) events = some plane) :
    plane.polls = plane.endpoints := by
  have prepared : plane.prepared = prepareTargets urls plane.endpoints := by
    apply Machine.run_induction
      (fun _ (plane : PollPlane Url) => plane.prepared = prepareTargets urls plane.endpoints) ran
    · simp [start]
    · intro _ _ _ _ _ prepared stepped
      exact prepared_of_step stepped prepared
  rw [polls, prepared, map_endpoint_prepareTargets]

theorem commands_bounded
    (ran : Machine.run (step urls) (start urls config) events = some plane) :
    plane.commands.length ≤ COMMAND_CAPACITY := by
  apply Machine.run_induction
    (fun _ (plane : PollPlane Url) => plane.commands.length ≤ COMMAND_CAPACITY) ran
  · simp [start]
  · intro _ before _ after _ bounded stepped
    cases moves_of_step stepped with
    | reload loaded reloaded =>
        rw [reloaded]
        cases loaded <;> exact Mailbox.length_offer bounded
    | receive _ waiting =>
        rw [waiting, List.length_cons] at bounded
        omega
    | other _ _ commands => rwa [commands]

theorem onItsWay_of_step (stepped : step urls plane event = some next)
    (notAccepted : event.accepted = none) : next.onItsWay = plane.onItsWay := by
  cases moves_of_step stepped with
  | reload loaded reloaded =>
      rw [reloaded]
      cases loaded with
      | error error => exact Mailbox.settle_offer_of_none rfl
      | ok config => cases notAccepted
  | receive command waiting endpoints =>
      rw [onItsWay, onItsWay, waiting, Mailbox.settle_cons, endpoints, apply_endpoints]
  | other _ _ commands endpoints => rw [onItsWay, onItsWay, commands, endpoints]

theorem onItsWay_of_accepted {endpoints : List Endpoint}
    (stepped : step urls plane event = some next) (isAccepted : event.accepted = some endpoints) :
    next.onItsWay = endpoints ↔ Forwards plane event := by
  have replaces : next.onItsWay = endpoints ↔
      plane.commands.length < COMMAND_CAPACITY ∨ plane.onItsWay = endpoints := by
    cases event with
    | reload loaded =>
        cases loaded with
        | error error => cases isAccepted
        | ok config =>
            cases isAccepted
            cases stepped
            exact Mailbox.settle_offer_eq_iff rfl
    | receive => cases isAccepted
    | tick => cases isAccepted
    | polled => cases isAccepted
    | delivered => cases isAccepted
    | applied => cases isAccepted
  rw [replaces]
  constructor
  · intro forwarded other same
    cases isAccepted.symm.trans same
    exact forwarded
  · intro forwards
    exact forwards endpoints isAccepted

/-- The list on its way is the accepted one as far as the last accepted reload was forwarded. -/
theorem onItsWay_eq_lastAccepted_iff
    (ran : Machine.run (step urls) (start urls config) events = some plane) :
    plane.onItsWay = lastAccepted config events ↔
      Machine.LastStep (step urls) (start urls config) events PollEvent.isAccepted Forwards := by
  apply Machine.run_induction
    (fun events (plane : PollPlane Url) => plane.onItsWay = lastAccepted config events ↔
      Machine.LastStep (step urls) (start urls config) events PollEvent.isAccepted Forwards) ran
  · have atStart : (start urls config).onItsWay = lastAccepted config [] := by
      simp [onItsWay, lastAccepted, start]
    exact iff_of_true atStart Machine.lastStep_nil
  · intro events before event after ranBefore ih stepped
    rw [lastAccepted, Mailbox.settle_append_singleton]
    cases isAccepted : event.accepted with
    | none =>
        rw [onItsWay_of_step stepped isAccepted, Option.getD_none,
          Machine.lastStep_append_of_other (by rw [PollEvent.isAccepted, isAccepted]; rfl)]
        exact ih
    | some endpoints =>
        rw [Option.getD_some,
          Machine.lastStep_append_of_kind ranBefore (by rw [PollEvent.isAccepted, isAccepted]; rfl)]
        exact onItsWay_of_accepted stepped isAccepted

/-- Once the channel is drained, the scheduler polls the list of the last accepted reload if and
only if that reload found fewer than four commands waiting, or asked for the list that was on its
way already. -/
theorem polls_eq_lastAccepted_iff
    (ran : Machine.run (step urls) (start urls config) events = some plane)
    (drained : plane.commands = []) :
    plane.polls = lastAccepted config events ↔
      Machine.LastStep (step urls) (start urls config) events PollEvent.isAccepted Forwards := by
  have settled : plane.onItsWay = plane.endpoints := by
    rw [onItsWay, drained, Mailbox.settle_nil]
  rw [polls_eq_endpoints ran, ← settled]
  exact onItsWay_eq_lastAccepted_iff ran

/-- A configuration with one system, and the URLs left out. -/
def oneSystem : Config where
  systems := [{ id := "a", host := "10.0.0.1", port := 11310, name := none }]

def noUrls : StatusUrls Unit where
  statusUrl := fun _ _ => ()
  v2StatusUrl := fun _ _ => ()

/-- A generation ends and its batch is taken. -/
def generationEnds : List PollEvent :=
  [.polled, .delivered, .applied]

/-- A system is removed during the first generation and the command waits for its end. -/
theorem polls_removed_during_generation : ∃ plane : PollPlane Unit,
    Machine.run (step noUrls) (start noUrls oneSystem)
        (.reload (.ok ⟨[]⟩) :: generationEnds ++ [.receive]) = some plane ∧
      plane.polls = [] ∧
      Machine.LastStep (step noUrls) (start noUrls oneSystem)
        (.reload (.ok ⟨[]⟩) :: generationEnds ++ [.receive]) PollEvent.isAccepted Forwards := by
  refine ⟨_, rfl, rfl, ?_⟩
  apply (polls_eq_lastAccepted_iff rfl rfl).mp
  rfl

/-- Four reloads of a file that does not parse fill the channel during the first generation. The
file is repaired without the system, the reload is accepted, and the system is polled ever after. -/
theorem polls_removed_system : ∃ (events : List PollEvent) (plane : PollPlane Unit),
    Machine.run (step noUrls) (start noUrls oneSystem) events = some plane ∧
      plane.commands = [] ∧ plane.polls ≠ lastAccepted oneSystem events := by
  let refused : PollEvent := .reload (.error "expected `=`")
  let received : List PollEvent := .receive :: generationEnds
  refine ⟨[refused, refused, refused, refused, .reload (.ok ⟨[]⟩)] ++ generationEnds ++
    received ++ received ++ received ++ received, _, rfl, rfl, ?_⟩
  intro same
  cases same

/-- The requests have stopped. -/
def Quiet : PollPlane Url → PollEvent → Prop :=
  fun _ event => event.isReload = false

/-- A batch is delivered as soon as the engine has taken those before it. -/
theorem runsTo_delivered {batch : PollBatch} (delivering : plane.phase = .delivering batch) :
    ∃ next, Machine.RunsTo (step urls) Quiet plane next ∧ next.phase = .waiting ∧
      next.commands = plane.commands := by
  induction waiting : plane.batches generalizing plane with
  | nil =>
      let delivered : PollPlane Url := { plane with phase := .waiting, batches := [batch] }
      have stepped : step urls plane .delivered = some delivered := by
        simp [step, delivering, waiting, BATCH_CAPACITY, delivered]
      exact ⟨delivered, .single .delivered rfl stepped, rfl, rfl⟩
  | cons first batches ih =>
      let applied : PollPlane Url := { plane with batches }
      have stepped : step urls plane .applied = some applied := by
        simp [step, waiting, applied]
      have stillDelivering : applied.phase = .delivering batch := delivering
      rcases ih stillDelivering rfl with ⟨next, runs, phase, commands⟩
      have first : Machine.RunsTo (step urls) Quiet plane applied := .single .applied rfl stepped
      exact ⟨next, first.trans runs, phase, commands⟩

/-- Whatever the scheduler is busy with, it gets back to its commands without further requests. -/
theorem runsTo_waiting (urls : StatusUrls Url) (plane : PollPlane Url) :
    ∃ next, Machine.RunsTo (step urls) Quiet plane next ∧ next.phase = .waiting ∧
      next.commands = plane.commands := by
  cases phase : plane.phase with
  | waiting => exact ⟨plane, .refl, phase, rfl⟩
  | polling =>
      let polled : PollPlane Url :=
        { plane with phase := .delivering ⟨plane.generation, plane.polls⟩ }
      have stepped : step urls plane .polled = some polled := by
        simp [step, phase, polled]
      have delivering : polled.phase = .delivering ⟨plane.generation, plane.polls⟩ := rfl
      rcases runsTo_delivered delivering with ⟨next, runs, waits, commands⟩
      have first : Machine.RunsTo (step urls) Quiet plane polled := .single .polled rfl stepped
      exact ⟨next, first.trans runs, waits, commands⟩
  | delivering batch => exact runsTo_delivered phase

/-- Once the requests stop, the channel can be drained from any state. -/
theorem runsTo_drained (urls : StatusUrls Url) (plane : PollPlane Url) :
    ∃ next, Machine.RunsTo (step urls) Quiet plane next ∧ next.commands = [] := by
  induction waiting : plane.commands generalizing plane with
  | nil => exact ⟨plane, .refl, waiting⟩
  | cons command commands ih =>
      rcases runsTo_waiting urls plane with ⟨idle, runs, phase, same⟩
      let read : PollPlane Url := (({ idle with commands }).apply urls command).beginGeneration
      have received : step urls idle .receive = some read := by
        simp only [step, phase, same.trans waiting, read]
      have left : read.commands = commands := by
        simp [read]
      rcases ih read left with ⟨next, runsAfter, drained⟩
      exact ⟨next, (runs.snoc .receive rfl received).trans runsAfter, drained⟩

end PollPlane

end Gregg.Clientd
