import Gregg.Clientd.Reload
import Gregg.Fleet.PollGeneration

/-!
# The metrics plane

The scheduler with the tasks of its generation, the batches on their way to the engine, and the
fleet that the engine applies them to. Reloads change the fleet at once and the polled list later,
so that a generation may still be under way for a list that is no longer the configured one. What
is said of the poll plane, and what is said of the fleet, holds of the two together.
-/

namespace Gregg.Metrics

open Fleet (IpSyntax FleetState FleetEvent NormalizedSnapshot)
open Clientd (PollPlane PollEvent EggpoolState)
open Poller (PreparedUrl Generation GenerationEvent Decoders OfflineReason statusUrls)

abbrev PolledFleet (Entry Summary Health : Type) :=
  FleetState NormalizedSnapshot OfflineReason Entry Summary Health

structure MetricsPlane (Entry Summary Health : Type) where
  plane : PollPlane PreparedUrl
  /-- The tasks of the generation that was begun last. -/
  generation : Generation
  /-- The batch that the scheduler is sending. -/
  outgoing : Option Poller.PollBatch
  /-- The batches that the engine has not taken yet. -/
  incoming : List Poller.PollBatch
  fleet : PolledFleet Entry Summary Health

inductive MetricsEvent (Body Entry Summary Health : Type) where
  /-- Something happens to a task of the generation. -/
  | poll (event : GenerationEvent Body)
  /-- The generation has joined its last task. -/
  | completed (now : ℕ)
  | delivered
  /-- The engine takes a batch. -/
  | applied
  | receive
  | tick
  | reload (loaded : Except String (Fleet.Config Entry))
  | observation (observation : Fleet.CronObservation)
  | eggpool (next : Option (EggpoolState Entry Summary Health))

/-- What the poll plane has of a configuration. -/
def pollConfig {Entry : Type} (config : Fleet.Config Entry) : Clientd.Config where
  systems := config.systems

/-- What the poll plane sees of an event. -/
def MetricsEvent.planeEvent? {Body Entry Summary Health : Type} :
    MetricsEvent Body Entry Summary Health → Option PollEvent
  | .completed _ => some .polled
  | .delivered => some .delivered
  | .applied => some .applied
  | .receive => some .receive
  | .tick => some .tick
  | .reload (.ok config) => some (.reload (.ok (pollConfig config)))
  | .reload (.error error) => some (.reload (.error error))
  | .poll _ | .observation _ | .eggpool _ => none

namespace MetricsPlane

variable {Body Entry Summary Health : Type}

def start (ip : IpSyntax) (maxConcurrent : ℕ) (config : Fleet.Config Entry) :
    MetricsPlane Entry Summary Health :=
  let plane := PollPlane.start (statusUrls ip) (pollConfig config)
  { plane
    generation := .start plane.prepared maxConcurrent
    outgoing := none
    incoming := []
    fleet := .fromConfig config }

/-- The batch of a generation whose tasks were all joined. -/
def batch (state : MetricsPlane Entry Summary Health) (now : ℕ) : Poller.PollBatch where
  generation := state.plane.generation
  completedAt := now
  results := state.generation.pool.joined

section Step

variable (decoders : Decoders Body) (ip : IpSyntax) (maxConcurrent : ℕ)

/-- The scheduler leaves its wait, and begins a generation if there is anything to poll. Once it is
cancelled it does not. -/
def wake (state : MetricsPlane Entry Summary Health) (event : PollEvent) :
    Option (MetricsPlane Entry Summary Health) :=
  if state.generation.cancelled then none
  else
    (state.plane.step (statusUrls ip) event).map fun plane =>
      if plane.phase = .polling then
        { state with plane, generation := .start plane.prepared maxConcurrent }
      else { state with plane }

def step (state : MetricsPlane Entry Summary Health) :
    MetricsEvent Body Entry Summary Health → Option (MetricsPlane Entry Summary Health)
  | .poll event =>
      if state.plane.phase = .polling then
        (state.generation.step decoders event).map fun generation => { state with generation }
      else none
  | .completed now =>
      if state.generation.pool.joined.length = state.plane.prepared.length then
        (state.plane.step (statusUrls ip) .polled).map fun plane =>
          { state with plane, outgoing := some (state.batch now) }
      else none
  | .delivered =>
      if state.generation.cancelled then none
      else
        (state.plane.step (statusUrls ip) .delivered).map fun plane =>
          { state with
            plane
            outgoing := none
            incoming := state.incoming ++ state.outgoing.toList }
  | .applied =>
      match state.incoming with
      | [] => none
      | batch :: incoming =>
          (state.plane.step (statusUrls ip) .applied).map fun plane =>
            { state with
              plane
              incoming
              fleet := (state.fleet.applyBatchOwnedChanged ip batch).1 }
  | .receive => state.wake ip maxConcurrent .receive
  | .tick => state.wake ip maxConcurrent .tick
  | .reload (.ok config) =>
      (state.fleet.step ip (.reload (.ok config))).bind fun fleet =>
        (state.plane.step (statusUrls ip) (.reload (.ok (pollConfig config)))).map fun plane =>
          { state with plane, fleet }
  | .reload (.error error) =>
      (state.fleet.step ip (.reload (.error error))).bind fun fleet =>
        (state.plane.step (statusUrls ip) (.reload (.error error))).map fun plane =>
          { state with plane, fleet }
  | .observation observation =>
      (state.fleet.step ip (.observation observation)).map fun fleet => { state with fleet }
  | .eggpool next => (state.fleet.step ip (.eggpool next)).map fun fleet => { state with fleet }

end Step

/-- What the fleet sees of an event: of a batch that the engine takes, its results. -/
def fleetEvents (state : MetricsPlane Entry Summary Health) :
    MetricsEvent Body Entry Summary Health →
      List (FleetEvent NormalizedSnapshot OfflineReason Entry Summary Health)
  | .applied => (state.incoming.take 1).map fun batch => .batch (Fleet.reduceBatch batch)
  | .reload loaded => [.reload loaded]
  | .observation observation => [.observation observation]
  | .eggpool next => [.eggpool next]
  | .poll _ | .completed _ | .delivered | .receive | .tick => []

section Moves

variable {decoders : Decoders Body} {ip : IpSyntax} {maxConcurrent : ℕ}
  {state next : MetricsPlane Entry Summary Health}
  {event : MetricsEvent Body Entry Summary Health}

/-- What each step is made of. -/
inductive Moves (decoders : Decoders Body) (ip : IpSyntax) (maxConcurrent : ℕ)
    (state : MetricsPlane Entry Summary Health) :
    MetricsEvent Body Entry Summary Health → MetricsPlane Entry Summary Health → Prop where
  | poll (event : GenerationEvent Body) (generation : Generation)
      (polling : state.plane.phase = .polling)
      (stepped : state.generation.step decoders event = some generation) :
      Moves decoders ip maxConcurrent state (.poll event) { state with generation }
  | completed (now : ℕ) (plane : PollPlane PreparedUrl)
      (complete : state.generation.pool.joined.length = state.plane.prepared.length)
      (stepped : state.plane.step (statusUrls ip) .polled = some plane) :
      Moves decoders ip maxConcurrent state (.completed now)
        { state with plane, outgoing := some (state.batch now) }
  | delivered (plane : PollPlane PreparedUrl) (running : state.generation.cancelled = false)
      (stepped : state.plane.step (statusUrls ip) .delivered = some plane) :
      Moves decoders ip maxConcurrent state .delivered
        { state with
          plane
          outgoing := none
          incoming := state.incoming ++ state.outgoing.toList }
  | applied (batch : Poller.PollBatch) (incoming : List Poller.PollBatch)
      (plane : PollPlane PreparedUrl) (waiting : state.incoming = batch :: incoming)
      (stepped : state.plane.step (statusUrls ip) .applied = some plane) :
      Moves decoders ip maxConcurrent state .applied
        { state with
          plane
          incoming
          fleet := (state.fleet.applyBatchOwnedChanged ip batch).1 }
  | woken (event : MetricsEvent Body Entry Summary Health) (planeEvent : PollEvent)
      (plane : PollPlane PreparedUrl) (generation : Generation)
      (isWake : planeEvent = .receive ∨ planeEvent = .tick)
      (seen : event.planeEvent? = some planeEvent)
      (stepped : state.plane.step (statusUrls ip) planeEvent = some plane)
      (begins : plane.phase = .polling → generation = .start plane.prepared maxConcurrent)
      (unseen : state.fleetEvents event = []) :
      Moves decoders ip maxConcurrent state event { state with plane, generation }
  | reload (loaded : Except String (Fleet.Config Entry)) (planeEvent : PollEvent)
      (plane : PollPlane PreparedUrl) (fleet : PolledFleet Entry Summary Health)
      (seen : (MetricsEvent.reload loaded : MetricsEvent Body Entry Summary Health).planeEvent? =
        some planeEvent)
      (fleetStepped : state.fleet.step ip (.reload loaded) = some fleet)
      (stepped : state.plane.step (statusUrls ip) planeEvent = some plane) :
      Moves decoders ip maxConcurrent state (.reload loaded) { state with plane, fleet }
  | other (event : MetricsEvent Body Entry Summary Health)
      (fleetEvent : FleetEvent NormalizedSnapshot OfflineReason Entry Summary Health)
      (fleet : PolledFleet Entry Summary Health) (seen : event.planeEvent? = none)
      (stepped : state.fleet.step ip fleetEvent = some fleet)
      (systems : fleet.systems = state.fleet.systems)
      (applied : fleet.lastAppliedGeneration = state.fleet.lastAppliedGeneration)
      (isSeen : state.fleetEvents event = [fleetEvent]) :
      Moves decoders ip maxConcurrent state event { state with fleet }

theorem moves_of_wake {planeEvent : PollEvent} (isWake : planeEvent = .receive ∨ planeEvent = .tick)
    (seen : event.planeEvent? = some planeEvent) (unseen : state.fleetEvents event = [])
    (woken : state.wake ip maxConcurrent planeEvent = some next) :
    Moves decoders ip maxConcurrent state event next := by
  rw [wake] at woken
  split at woken
  · cases woken
  · rcases Option.map_eq_some_iff.mp woken with ⟨plane, planeStepped, rfl⟩
    split
    · exact .woken event planeEvent plane _ isWake seen planeStepped (fun _ => rfl) unseen
    · rename_i notPolling
      refine .woken event planeEvent plane state.generation isWake seen planeStepped ?_ unseen
      intro polling
      exact absurd polling notPolling

theorem moves_of_step (stepped : state.step decoders ip maxConcurrent event = some next) :
    Moves decoders ip maxConcurrent state event next := by
  cases event with
  | poll event =>
      rw [step] at stepped
      split at stepped
      · rename_i polling
        rcases Option.map_eq_some_iff.mp stepped with ⟨generation, taskStepped, rfl⟩
        exact .poll event generation polling taskStepped
      · cases stepped
  | completed now =>
      rw [step] at stepped
      split at stepped
      · rename_i complete
        rcases Option.map_eq_some_iff.mp stepped with ⟨plane, planeStepped, rfl⟩
        exact .completed now plane complete planeStepped
      · cases stepped
  | delivered =>
      rw [step] at stepped
      split at stepped
      · cases stepped
      · rename_i running
        rcases Option.map_eq_some_iff.mp stepped with ⟨plane, planeStepped, rfl⟩
        exact .delivered plane (Bool.eq_false_of_not_eq_true running) planeStepped
  | applied =>
      rw [step] at stepped
      split at stepped
      · cases stepped
      · rename_i batch incoming waiting
        rcases Option.map_eq_some_iff.mp stepped with ⟨plane, planeStepped, rfl⟩
        exact .applied batch incoming plane waiting planeStepped
  | receive => exact moves_of_wake (.inl rfl) rfl rfl stepped
  | tick => exact moves_of_wake (.inr rfl) rfl rfl stepped
  | reload loaded =>
      cases loaded with
      | ok config =>
          rw [step] at stepped
          rcases Option.bind_eq_some_iff.mp stepped with ⟨fleet, fleetStepped, rest⟩
          rcases Option.map_eq_some_iff.mp rest with ⟨plane, planeStepped, rfl⟩
          exact .reload _ _ plane fleet rfl fleetStepped planeStepped
      | error error =>
          rw [step] at stepped
          rcases Option.bind_eq_some_iff.mp stepped with ⟨fleet, fleetStepped, rest⟩
          rcases Option.map_eq_some_iff.mp rest with ⟨plane, planeStepped, rfl⟩
          exact .reload _ _ plane fleet rfl fleetStepped planeStepped
  | observation observation =>
      rw [step] at stepped
      rcases Option.map_eq_some_iff.mp stepped with ⟨fleet, fleetStepped, rfl⟩
      refine .other _ _ fleet rfl fleetStepped ?_ ?_ rfl
      all_goals
        cases fleetStepped
        rw [FleetState.takeCronObservation]
        split <;> rfl
  | eggpool next =>
      rw [step] at stepped
      rcases Option.map_eq_some_iff.mp stepped with ⟨fleet, fleetStepped, rfl⟩
      refine .other _ _ fleet rfl fleetStepped ?_ ?_ rfl
      all_goals
        cases fleetStepped
        rfl

/-- What a step is to the poll plane. -/
theorem Moves.plane (moves : Moves decoders ip maxConcurrent state event next) :
    (event.planeEvent? = none ∧ next.plane = state.plane) ∨
      ∃ planeEvent, event.planeEvent? = some planeEvent ∧
        state.plane.step (statusUrls ip) planeEvent = some next.plane := by
  cases moves with
  | poll => exact .inl ⟨rfl, rfl⟩
  | completed now plane complete stepped => exact .inr ⟨_, rfl, stepped⟩
  | delivered plane running stepped => exact .inr ⟨_, rfl, stepped⟩
  | applied batch incoming plane waiting stepped => exact .inr ⟨_, rfl, stepped⟩
  | woken event planeEvent plane generation isWake seen stepped => exact .inr ⟨_, seen, stepped⟩
  | reload loaded planeEvent plane fleet seen fleetStepped stepped => exact .inr ⟨_, seen, stepped⟩
  | other event fleetEvent fleet seen => exact .inl ⟨seen, rfl⟩

/-- What a step is to the fleet. -/
theorem Moves.fleet (moves : Moves decoders ip maxConcurrent state event next)
    (unique : (state.fleet.systems.map (·.id)).Nodup) :
    Machine.run (FleetState.step ip) state.fleet (state.fleetEvents event) = some next.fleet := by
  cases moves with
  | applied batch incoming plane waiting stepped =>
      rw [fleetEvents, waiting]
      simp only [FleetState.fst_applyBatchOwnedChanged unique]
      rfl
  | reload loaded planeEvent plane fleet seen fleetStepped stepped =>
      rw [fleetEvents, Machine.run, fleetStepped]
      rfl
  | other event fleetEvent fleet seen stepped systems applied isSeen =>
      rw [isSeen, Machine.run, stepped]
      rfl
  | woken event planeEvent plane generation isWake seen stepped begins unseen =>
      rw [unseen]
      rfl
  | _ => rfl

end Moves

section Refinement

variable {decoders : Decoders Body} {ip : IpSyntax} {maxConcurrent : ℕ}
  {config : Fleet.Config Entry} {state next : MetricsPlane Entry Summary Health}
  {event : MetricsEvent Body Entry Summary Health}
  {events : List (MetricsEvent Body Entry Summary Health)}

/-- What the poll plane knows of a batch. -/
def outline (batch : Poller.PollBatch) : Clientd.PollBatch where
  generation := batch.generation
  polled := batch.results.map (·.endpoint)

/-- The batch that the poll plane is sending. -/
def sending : Clientd.PollPhase → Option Clientd.PollBatch
  | .delivering batch => some batch
  | _ => none

/-- The tasks of a generation that is under way are those of its targets, and ran as the events
say. -/
def Runs (decoders : Decoders Body) (maxConcurrent : ℕ)
    (events : List (MetricsEvent Body Entry Summary Health))
    (state : MetricsPlane Entry Summary Health) : Prop :=
  state.plane.phase = .polling → ∃ since,
    Machine.run (Generation.step decoders) (.start state.plane.prepared maxConcurrent) since =
        some state.generation ∧
      ∀ event ∈ since, .poll event ∈ events

/-- The parts of the plane go together. -/
structure Coupled (decoders : Decoders Body) (ip : IpSyntax) (maxConcurrent : ℕ)
    (config : Fleet.Config Entry) (events : List (MetricsEvent Body Entry Summary Health))
    (state : MetricsPlane Entry Summary Health) : Prop where
  plane : Machine.run (PollPlane.step (statusUrls ip))
    (.start (statusUrls ip) (pollConfig config))
    (events.filterMap MetricsEvent.planeEvent?) = some state.plane
  fleet : Machine.run (FleetState.step ip) (.fromConfig config)
    (Machine.outputs (MetricsPlane.step decoders ip maxConcurrent) fleetEvents
      (start ip maxConcurrent config) events) = some state.fleet
  generation : Runs decoders maxConcurrent events state
  outgoing : state.outgoing.map outline = sending state.plane.phase
  incoming : state.incoming.map outline = state.plane.batches

section PlaneSteps

variable {urls : Clientd.StatusUrls PreparedUrl} {plane after : PollPlane PreparedUrl}

theorem of_polled (stepped : plane.step urls .polled = some after) :
    plane.phase = .polling ∧
      after = { plane with phase := .delivering ⟨plane.generation, plane.polls⟩ } := by
  rw [PollPlane.step] at stepped
  split at stepped
  · rename_i polling
    cases stepped
    exact ⟨polling, rfl⟩
  · cases stepped

theorem of_delivered (stepped : plane.step urls .delivered = some after) :
    ∃ batch, plane.phase = .delivering batch ∧
      after = { plane with phase := .waiting, batches := plane.batches ++ [batch] } := by
  rw [PollPlane.step] at stepped
  split at stepped
  · rename_i batch delivering
    split at stepped
    · cases stepped
      exact ⟨batch, delivering, rfl⟩
    · cases stepped
  · cases stepped

theorem of_applied (stepped : plane.step urls .applied = some after) :
    ∃ batch batches, plane.batches = batch :: batches ∧ after = { plane with batches } := by
  rw [PollPlane.step] at stepped
  split at stepped
  · rename_i batch batches waiting
    cases stepped
    exact ⟨batch, batches, waiting, rfl⟩
  · cases stepped

theorem sending_beginGeneration : sending plane.beginGeneration.phase = none := by
  rw [PollPlane.beginGeneration]
  split <;> rfl

theorem of_wake {planeEvent : PollEvent} (isWake : planeEvent = .receive ∨ planeEvent = .tick)
    (stepped : plane.step urls planeEvent = some after) :
    plane.phase = .waiting ∧ sending after.phase = none ∧ after.batches = plane.batches := by
  rcases isWake with rfl | rfl
  · rw [PollPlane.step] at stepped
    split at stepped
    · rename_i command commands waiting _
      cases stepped
      refine ⟨waiting, sending_beginGeneration, ?_⟩
      rw [PollPlane.beginGeneration_batches]
      cases command <;> rfl
    · cases stepped
  · rw [PollPlane.step] at stepped
    split at stepped
    · rename_i waiting
      cases stepped
      exact ⟨waiting.1, sending_beginGeneration, PollPlane.beginGeneration_batches⟩
    · cases stepped

theorem of_reload {loaded : Except String Clientd.Config}
    (stepped : plane.step urls (.reload loaded) = some after) :
    after = { plane with commands := after.commands } := by
  rw [PollPlane.step] at stepped
  cases stepped
  cases loaded <;> rfl

/-- The targets are always those of the installed endpoints. -/
theorem prepared_of_run {config : Clientd.Config} {planeEvents : List PollEvent}
    (ran : Machine.run (PollPlane.step urls) (.start urls config) planeEvents = some plane) :
    plane.prepared = PollPlane.prepareTargets urls plane.endpoints := by
  apply Machine.run_induction (fun _ (plane : PollPlane PreparedUrl) =>
    plane.prepared = PollPlane.prepareTargets urls plane.endpoints) ran
  · simp [PollPlane.start]
  · intro _ _ _ _ _ prepared stepped
    exact PollPlane.prepared_of_step stepped prepared

end PlaneSteps

/-- A complete generation has a result of every endpoint, in order. -/
theorem endpoints_of_complete {endpoints : List Clientd.Endpoint} {generation : Generation}
    {since : List (GenerationEvent Body)}
    (ran : Machine.run (Generation.step decoders)
      (.start (PollPlane.prepareTargets (statusUrls ip) endpoints) maxConcurrent) since =
        some generation)
    (complete : generation.pool.joined.length = endpoints.length) :
    generation.pool.joined.map (·.endpoint) = endpoints := by
  apply List.ext_getElem?
  intro index
  rw [List.getElem?_map]
  cases joined : generation.pool.joined[index]? with
  | none =>
      rw [List.getElem?_eq_none_iff, complete] at joined
      rw [List.getElem?_eq_none joined]
      rfl
  | some result =>
      rcases Poller.isResult_of_run ran joined with ⟨endpoint, isEndpoint, isResult⟩
      rw [isEndpoint, Option.map_some, isResult.endpoint]

theorem Runs.later (runs : Runs decoders maxConcurrent events state) :
    Runs decoders maxConcurrent (events ++ [event]) state := by
  intro polling
  rcases runs polling with ⟨since, ran, happened⟩
  refine ⟨since, ran, ?_⟩
  intro earlier member
  exact List.mem_append_left _ (happened earlier member)

theorem coupled_start : Coupled decoders ip maxConcurrent config []
    (start ip maxConcurrent config : MetricsPlane Entry Summary Health) where
  plane := rfl
  fleet := rfl
  generation := by
    intro _
    refine ⟨[], rfl, ?_⟩
    intro event member
    cases member
  outgoing := sending_beginGeneration.symm
  incoming := by
    rw [start, PollPlane.start, PollPlane.beginGeneration_batches]
    rfl

/-- The tasks go on as the plane does. -/
theorem Runs.step (runs : Runs decoders maxConcurrent events state)
    (moves : Moves decoders ip maxConcurrent state event next) :
    Runs decoders maxConcurrent (events ++ [event]) next := by
  cases moves with
  | poll event generation polling stepped =>
      intro _
      rcases runs polling with ⟨since, ran, happened⟩
      refine ⟨since ++ [event], ?_, ?_⟩
      · rw [Machine.run_append_singleton ran]
        exact stepped
      · intro taken member
        rcases List.mem_append.mp member with earlier | last
        · exact List.mem_append_left _ (happened taken earlier)
        · rw [List.mem_singleton.mp last]
          exact List.mem_append_right _ (List.mem_singleton.mpr rfl)
  | completed now plane complete stepped =>
      rcases of_polled stepped with ⟨-, rfl⟩
      exact Clientd.PollPhase.noConfusion
  | delivered plane running stepped =>
      rcases of_delivered stepped with ⟨batch, -, rfl⟩
      exact Clientd.PollPhase.noConfusion
  | applied batch incoming plane waiting stepped =>
      rcases of_applied stepped with ⟨_, batches, -, rfl⟩
      exact runs.later
  | woken event planeEvent plane generation isWake seen stepped begins =>
      intro polling
      refine ⟨[], ?_, ?_⟩
      · rw [begins polling]
        rfl
      · intro event member
        cases member
  | reload loaded planeEvent plane fleet seen fleetStepped stepped =>
      cases loaded with
      | ok config =>
          cases seen
          rw [of_reload stepped]
          exact runs.later
      | error error =>
          cases seen
          rw [of_reload stepped]
          exact runs.later
  | other event fleetEvent fleet seen stepped => exact runs.later

/-- Batches come out in the order in which they were made. -/
theorem batches_of_moves (prepared : state.plane.prepared =
      PollPlane.prepareTargets (statusUrls ip) state.plane.endpoints)
    (runs : Runs decoders maxConcurrent events state)
    (outgoing : state.outgoing.map outline = sending state.plane.phase)
    (inOrder : state.incoming.map outline = state.plane.batches)
    (moves : Moves decoders ip maxConcurrent state event next) :
    next.outgoing.map outline = sending next.plane.phase ∧
      next.incoming.map outline = next.plane.batches := by
  cases moves with
  | poll => exact ⟨outgoing, inOrder⟩
  | completed now plane complete stepped =>
      rcases of_polled stepped with ⟨polling, rfl⟩
      refine ⟨?_, inOrder⟩
      rcases runs polling with ⟨since, ran, -⟩
      rw [prepared] at ran complete
      rw [PollPlane.prepareTargets, List.length_map] at complete
      have polled := endpoints_of_complete ran complete
      simp only [Option.map_some, sending, outline, batch, PollPlane.polls, prepared, polled,
        PollPlane.map_endpoint_prepareTargets]
  | delivered plane running stepped =>
      rcases of_delivered stepped with ⟨batch, delivering, rfl⟩
      rw [delivering] at outgoing
      refine ⟨rfl, ?_⟩
      rcases Option.map_eq_some_iff.mp outgoing with ⟨sent, isSent, rfl⟩
      rw [List.map_append, inOrder, isSent]
      rfl
  | applied batch incoming plane waiting stepped =>
      rcases of_applied stepped with ⟨first, batches, isFirst, rfl⟩
      refine ⟨outgoing, ?_⟩
      rw [waiting, isFirst, List.map_cons] at inOrder
      exact (List.cons.inj inOrder).2
  | woken event planeEvent plane generation isWake seen stepped begins =>
      rcases of_wake isWake stepped with ⟨waiting, silent, batches⟩
      rw [waiting] at outgoing
      exact ⟨outgoing.trans silent.symm, inOrder.trans batches.symm⟩
  | reload loaded planeEvent plane fleet seen fleetStepped stepped =>
      cases loaded with
      | ok config =>
          cases seen
          rw [of_reload stepped]
          exact ⟨outgoing, inOrder⟩
      | error error =>
          cases seen
          rw [of_reload stepped]
          exact ⟨outgoing, inOrder⟩
  | other event fleetEvent fleet seen stepped => exact ⟨outgoing, inOrder⟩

theorem Coupled.step (accepted : config.validate ip = [])
    (ran : Machine.run (MetricsPlane.step decoders ip maxConcurrent)
      (start ip maxConcurrent config) events = some state)
    (coupled : Coupled decoders ip maxConcurrent config events state)
    (moves : Moves decoders ip maxConcurrent state event next) :
    Coupled decoders ip maxConcurrent config (events ++ [event]) next := by
  have unique := (FleetState.wellFormed_of_run accepted coupled.fleet).idsNodup
  rcases batches_of_moves (prepared_of_run coupled.plane) coupled.generation coupled.outgoing
    coupled.incoming moves with ⟨outgoing, incoming⟩
  refine ⟨?_, ?_, coupled.generation.step moves, outgoing, incoming⟩
  · rw [List.filterMap_append]
    rcases moves.plane with ⟨isNone, same⟩ | ⟨planeEvent, isEvent, stepped⟩
    · simp only [List.filterMap_cons, isNone, List.filterMap_nil, List.append_nil]
      rw [coupled.plane, same]
    · simp only [List.filterMap_cons, isEvent, List.filterMap_nil]
      rw [Machine.run_append_singleton coupled.plane]
      exact stepped
  · rw [Machine.outputs_append_singleton ran, Machine.run_append, coupled.fleet]
    exact moves.fleet unique

theorem coupled_of_run (accepted : config.validate ip = [])
    (ran : Machine.run (MetricsPlane.step decoders ip maxConcurrent)
      (start ip maxConcurrent config) events = some state) :
    Coupled decoders ip maxConcurrent config events state := by
  apply Machine.run_induction (fun events (state : MetricsPlane Entry Summary Health) =>
    Coupled decoders ip maxConcurrent config events state) ran coupled_start
  intro _ _ _ _ ranBefore coupled stepped
  exact coupled.step accepted ranBefore (moves_of_step stepped)

end Refinement

section Order

variable {decoders : Decoders Body} {ip : IpSyntax} {maxConcurrent : ℕ}
  {config : Fleet.Config Entry} {state next : MetricsPlane Entry Summary Health}
  {event : MetricsEvent Body Entry Summary Health}
  {events : List (MetricsEvent Body Entry Summary Health)}

/-- Numbers that count on from one to another. -/
def Consecutive : ℕ → List ℕ → ℕ → Prop
  | before, [], final => before = final
  | before, number :: rest, final =>
      number = Clientd.advanceGeneration before ∧ Consecutive number rest final

/-- The generations that the engine has not seen yet. -/
def pending (state : MetricsPlane Entry Summary Health) : List ℕ :=
  (state.incoming ++ state.outgoing.toList).map (·.generation) ++
    if state.plane.phase = .polling then [state.plane.generation] else []

theorem Consecutive.append {before final : ℕ} {numbers : List ℕ}
    (consecutive : Consecutive before numbers final) :
    Consecutive before (numbers ++ [Clientd.advanceGeneration final])
      (Clientd.advanceGeneration final) := by
  induction numbers generalizing before with
  | nil =>
      cases consecutive
      exact ⟨rfl, rfl⟩
  | cons number rest ih => exact ⟨consecutive.1, ih consecutive.2⟩

theorem advanceGeneration_le (generation : ℕ) : Clientd.advanceGeneration generation ≤ u64Max := by
  rw [Clientd.advanceGeneration]
  split
  · assumption
  · decide

/-- The next generation is newer, also where the counter wraps. -/
theorem acceptBatchGeneration_advance {fleet : PolledFleet Entry Summary Health}
    (bounded : fleet.lastAppliedGeneration ≤ u64Max) :
    fleet.acceptBatchGeneration (Clientd.advanceGeneration fleet.lastAppliedGeneration) = true := by
  rw [FleetState.acceptBatchGeneration, Clientd.advanceGeneration]
  split
  · simp
  · rename_i atEnd
    have isLast : fleet.lastAppliedGeneration = u64Max :=
      Nat.le_antisymm bounded (Nat.not_lt.mp atEnd)
    simp [isLast]

/-- The batches that the engine will see are the generations after the one it saw last. -/
structure Ordered (state : MetricsPlane Entry Summary Health) : Prop where
  bounded : state.fleet.lastAppliedGeneration ≤ u64Max
  consecutive : Consecutive state.fleet.lastAppliedGeneration state.pending state.plane.generation

/-- The numbers of a plane that begins a generation, or that finds nothing to poll. -/
theorem consecutive_beginGeneration {plane : PollPlane PreparedUrl} {before : ℕ}
    {numbers : List ℕ} (consecutive : Consecutive before numbers plane.generation) :
    Consecutive before
      (numbers ++ if plane.beginGeneration.phase = .polling then [plane.beginGeneration.generation]
        else [])
      plane.beginGeneration.generation := by
  rw [PollPlane.beginGeneration]
  split
  · rw [if_neg Clientd.PollPhase.noConfusion, List.append_nil]
    exact consecutive
  · rw [if_pos rfl]
    exact consecutive.append

theorem ordered_start : Ordered
    (start ip maxConcurrent config : MetricsPlane Entry Summary Health) where
  bounded := Nat.zero_le u64Max
  consecutive := by
    rw [pending]
    apply consecutive_beginGeneration
    rfl

theorem consecutive_of_wake {urls : Clientd.StatusUrls PreparedUrl}
    {plane after : PollPlane PreparedUrl} {planeEvent : PollEvent} {before : ℕ} {numbers : List ℕ}
    (isWake : planeEvent = .receive ∨ planeEvent = .tick)
    (stepped : plane.step urls planeEvent = some after)
    (consecutive : Consecutive before numbers plane.generation) :
    Consecutive before (numbers ++ if after.phase = .polling then [after.generation] else [])
      after.generation := by
  rcases isWake with rfl | rfl
  · rw [PollPlane.step] at stepped
    split at stepped
    · rename_i command commands _ _
      cases stepped
      apply consecutive_beginGeneration
      cases command <;> exact consecutive
    · cases stepped
  · rw [PollPlane.step] at stepped
    split at stepped
    · cases stepped
      exact consecutive_beginGeneration consecutive
    · cases stepped

theorem toList_eq_nil_of_sending (outgoing : state.outgoing.map outline = sending state.plane.phase)
    (silent : sending state.plane.phase = none) : state.outgoing = none := by
  rw [silent] at outgoing
  exact Option.map_eq_none_iff.mp outgoing

theorem lastAppliedGeneration_applyBatchOwnedChanged {fleet : PolledFleet Entry Summary Health}
    {batch : Poller.PollBatch} (accepts : fleet.acceptBatchGeneration batch.generation = true) :
    (fleet.applyBatchOwnedChanged ip batch).1.lastAppliedGeneration = batch.generation := by
  rw [FleetState.applyBatchOwnedChanged, accepts]
  rfl

theorem Ordered.accepts (ordered : Ordered state) {batch : Poller.PollBatch}
    {incoming : List Poller.PollBatch} (waiting : state.incoming = batch :: incoming) :
    state.fleet.acceptBatchGeneration batch.generation = true := by
  have consecutive := ordered.consecutive
  rw [pending, waiting] at consecutive
  have isNext : batch.generation =
    Clientd.advanceGeneration state.fleet.lastAppliedGeneration := consecutive.1
  rw [isNext]
  exact acceptBatchGeneration_advance ordered.bounded

theorem Ordered.step (coupled : Coupled decoders ip maxConcurrent config events state)
    (ordered : Ordered state) (moves : Moves decoders ip maxConcurrent state event next) :
    Ordered next := by
  have consecutive := ordered.consecutive
  rw [pending] at consecutive
  cases moves with
  | poll => exact ⟨ordered.bounded, ordered.consecutive⟩
  | completed now plane complete stepped =>
      rcases of_polled stepped with ⟨polling, rfl⟩
      refine ⟨ordered.bounded, ?_⟩
      have silent := toList_eq_nil_of_sending coupled.outgoing (polling ▸ rfl)
      rw [if_pos polling, silent, Option.toList_none, List.append_nil] at consecutive
      rw [pending, if_neg Clientd.PollPhase.noConfusion, List.append_nil, List.map_append]
      exact consecutive
  | delivered plane running stepped =>
      rcases of_delivered stepped with ⟨batch, delivering, rfl⟩
      refine ⟨ordered.bounded, ?_⟩
      rw [delivering, if_neg Clientd.PollPhase.noConfusion, List.append_nil] at consecutive
      rw [pending, if_neg Clientd.PollPhase.noConfusion, List.append_nil, Option.toList_none,
        List.append_nil]
      exact consecutive
  | applied batch incoming plane waiting stepped =>
      rcases of_applied stepped with ⟨first, batches, isFirst, rfl⟩
      have last := @lastAppliedGeneration_applyBatchOwnedChanged _ _ _ ip _ _
        (ordered.accepts waiting)
      rw [waiting] at consecutive
      have isNext : batch.generation =
        Clientd.advanceGeneration state.fleet.lastAppliedGeneration := consecutive.1
      refine ⟨?_, ?_⟩
      · rw [last, isNext]
        exact advanceGeneration_le _
      · rw [last]
        exact consecutive.2
  | woken event planeEvent plane generation isWake seen stepped begins =>
      rcases of_wake isWake stepped with ⟨waiting, -, -⟩
      refine ⟨ordered.bounded, ?_⟩
      rw [waiting, if_neg Clientd.PollPhase.noConfusion, List.append_nil] at consecutive
      exact consecutive_of_wake isWake stepped consecutive
  | reload loaded planeEvent plane fleet seen fleetStepped stepped =>
      have sameFleet : fleet.lastAppliedGeneration = state.fleet.lastAppliedGeneration := by
        cases loaded with
        | ok config =>
            rw [FleetState.step] at fleetStepped
            split at fleetStepped
            · cases fleetStepped
              rw [FleetState.reloadConfig]
              cases config.eggpool <;> rfl
            · cases fleetStepped
        | error error =>
            cases fleetStepped
            rfl
      have samePlane : plane = { state.plane with commands := plane.commands } := by
        cases loaded with
        | ok config =>
            cases seen
            exact of_reload stepped
        | error error =>
            cases seen
            exact of_reload stepped
      rw [samePlane]
      refine ⟨?_, ?_⟩
      · rw [sameFleet]
        exact ordered.bounded
      · rw [sameFleet]
        exact consecutive
  | other event fleetEvent fleet seen stepped systems applied =>
      refine ⟨?_, ?_⟩
      · rw [applied]
        exact ordered.bounded
      · rw [applied]
        exact consecutive

theorem ordered_of_run (accepted : config.validate ip = [])
    (ran : Machine.run (MetricsPlane.step decoders ip maxConcurrent)
      (start ip maxConcurrent config) events = some state) : Ordered state := by
  have both : Coupled decoders ip maxConcurrent config events state ∧ Ordered state := by
    apply Machine.run_induction (fun events (state : MetricsPlane Entry Summary Health) =>
      Coupled decoders ip maxConcurrent config events state ∧ Ordered state) ran
    · exact ⟨coupled_start, ordered_start⟩
    · intro _ _ _ _ ranBefore known stepped
      have moves := moves_of_step stepped
      exact ⟨known.1.step accepted ranBefore moves, known.2.step known.1 moves⟩
  exact both.2

/-- Every run is a run of the poll plane and of the fleet, each under the events that it sees, with
the tasks and the batches that the poll plane leaves out; and no batch comes too late to be
applied. -/
theorem refines_of_run (accepted : config.validate ip = [])
    (ran : Machine.run (MetricsPlane.step decoders ip maxConcurrent)
      (start ip maxConcurrent config) events = some state) :
    Coupled decoders ip maxConcurrent config events state ∧
      ∀ batch incoming, state.incoming = batch :: incoming →
        state.fleet.acceptBatchGeneration batch.generation = true := by
  refine ⟨coupled_of_run accepted ran, ?_⟩
  intro batch incoming waiting
  exact (ordered_of_run accepted ran).accepts waiting

end Order

section OneBox

/-- A machine that is idle, as its daemon tells. -/
def idlePayload : Protocol.StatusPayloadV2 where
  snapshot :=
    { schemaVersion := 2
      observedAtUnixMs := 1000
      sampleIntervalMs := 1000
      capabilities :=
        { cpuIowait := false, loadAverage := false, swap := false, memoryCommit := false }
      system :=
        { name := "box", hostname := "box", osName := "Linux", osVersion := "1"
          kernelName := "Linux", kernelRelease := "6.1", architecture := "x86_64" }
      cpu := { logicalCores := 1, usagePct := .finite 0, iowaitPct := none }
      load := none
      memory := { usedBytes := 0, totalBytes := 0, usagePct := .finite 0 }
      swap := none
      commit := none }
  drives := none
  cpuFrequencyHz := none
  diskIo := none
  network := none

/-- Every body is the idle machine. -/
def idleDecoders : Decoders Unit where
  statusSnapshot _ := none
  statusPayloadV2 _ := some idlePayload

/-- The only system is polled, and its batch is on the way. -/
def firstGeneration : List (MetricsEvent Unit Unit Unit Unit) :=
  [.poll (.acquired 0 ⟨0, 0⟩),
    .poll (.answered 0 ⟨"http://box:11310/v2/status".toList, .answered 200 (.ok ()), 5⟩),
    .poll .joined, .completed 6, .delivered]

theorem refines_of_run_firstGeneration :
    ∃ state : MetricsPlane Unit Unit Unit, ∃ batch,
      state.incoming = [batch] ∧
        Coupled idleDecoders FleetState.dnsNames 1 FleetState.oneBox firstGeneration state ∧
        state.fleet.acceptBatchGeneration batch.generation = true := by
  obtain ⟨state, batch, ran, waiting⟩ : ∃ (state : MetricsPlane Unit Unit Unit) (batch : _),
      Machine.run (MetricsPlane.step idleDecoders FleetState.dnsNames 1)
          (start FleetState.dnsNames 1 FleetState.oneBox) firstGeneration = some state ∧
        state.incoming = [batch] := ⟨_, _, rfl, rfl⟩
  rcases refines_of_run (by decide) ran with ⟨coupled, accepts⟩
  exact ⟨state, batch, waiting, coupled, accepts batch [] waiting⟩

end OneBox

end MetricsPlane

end Gregg.Metrics
