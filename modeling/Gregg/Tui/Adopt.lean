import Gregg.Tui.State

/-!
# Adopting a published document

The one writer of fleet data in a frontend. A document replaces the fleet as a whole; what the
operator was looking at is then repaired against the new one: the selection, the cron job and the
top of the window, in this order. Whether anything visible changed is a question for the draw gate
and not followed here.
-/

namespace Gregg.Tui

open Gregg.Clientd

/-- `str::eq_ignore_ascii_case`. -/
def eqIgnoreAsciiCase (left right : String) : Bool :=
  left.toList.map Char.toLower = right.toList.map Char.toLower

def equivalentEndpointHost (env : Surroundings) (left right : String) : Bool :=
  match env.normalizeHost left, env.normalizeHost right with
  | some left, some right => eqIgnoreAsciiCase left right
  | _, _ => eqIgnoreAsciiCase left right

section Clean

variable (clean : String → String)

def cleanDrive (drive : NormalizedDrive) : NormalizedDrive :=
  { drive with name := clean drive.name }

def cleanDevice (device : NormalizedDiskIoDevice) : NormalizedDiskIoDevice where
  id := clean device.id
  name := clean device.name
  driveName := device.driveName.map clean

def cleanInterface (interface : NormalizedNetworkInterface) : NormalizedNetworkInterface where
  id := clean interface.id
  name := clean interface.name

def cleanSnapshot (snapshot : NormalizedSnapshot) : NormalizedSnapshot where
  drives := snapshot.drives.map fun drives => drives.map (cleanDrive clean)
  diskIo := snapshot.diskIo.map fun diskIo => ⟨diskIo.devices.map (cleanDevice clean)⟩
  network := snapshot.network.map fun network => ⟨network.interfaces.map (cleanInterface clean)⟩

def cleanEndpoint (endpoint : Endpoint) : Endpoint :=
  { endpoint with
    host := clean endpoint.host
    name := endpoint.name.map clean }

/-- The system a document describes, with every remote string escaped. -/
def cleanSystem (dto : SystemSnapshotDto) : SystemState where
  id := dto.id
  endpoint := cleanEndpoint clean dto.endpoint
  configuredName := dto.configuredName.map clean
  reachability := dto.reachability
  latest := dto.latest.map (cleanSnapshot clean)

def cleanJob (job : SchedulerJobV2) : SchedulerJobV2 :=
  { job with
    name := clean job.name
    schedule := clean job.schedule }

def cleanOutput (output : SchedulerOutputV2) : SchedulerOutputV2 :=
  { output with text := (clean (String.ofList output.text)).toList }

def cleanRecord (record : Clientd.CronRecord) : Clientd.CronRecord :=
  { record with
    record :=
      { record.record with
        stdout := cleanOutput clean record.record.stdout
        stderr := cleanOutput clean record.record.stderr } }

def cleanHistory (history : CronJobHistoryDto) : CronJobHistoryDto where
  job := clean history.job
  records := history.records.map (cleanRecord clean)

def cleanCron (entry : SystemCronDto) : SystemCronDto :=
  { entry with
    summary := entry.summary.map fun summary =>
      { summary with jobs := summary.jobs.map (cleanJob clean) }
    history := entry.history.map (cleanHistory clean) }

end Clean

namespace AppState

/-- Where a system stands in the current display order. -/
def placementOf (state : AppState) (id : String) : Option SystemPlacement :=
  (state.positionOf state.displayOrder id).bind fun position =>
    (state.displayOrder[position]?.bind fun index => state.systems[index]?).map fun system =>
      { id
        reachability := system.reachability
        position
        host := system.endpoint.host
        port := system.endpoint.port }

/-- Whether a placement was live and its system has failed at the same target since. -/
def hasFailed (env : Surroundings) (state : AppState) (placement : SystemPlacement) : Bool :=
  match state.systems.find? fun system => system.id = placement.id with
  | none => false
  | some system =>
      placement.reachability = .online && system.reachability = .offline &&
        system.endpoint.port = placement.port &&
        equivalentEndpointHost env system.endpoint.host placement.host

/-- Whether a live system stands at a position of the display order. -/
def isLiveAt (state : AppState) (position : ℕ) : Bool :=
  match state.displayOrder[position]?.bind fun index => state.systems[index]? with
  | some system => system.reachability = .online
  | none => false

/-- The live host that took a failed host's place in the display order. -/
def liveReplacement (env : Surroundings) (state : AppState) (placement : SystemPlacement) :
    Option String :=
  let order := state.displayOrder
  if state.hasFailed env placement = true ∧ order ≠ [] then
    let limit := min placement.position (order.length - 1)
    let above := (List.range (limit + 1)).reverse.find? state.isLiveAt
    let below := (List.range' limit (order.length - limit)).find? state.isLiveAt
    order[(above.or below).getD limit]?.bind state.idAt
  else none

def repairViewportAnchor (env : Surroundings) (state : AppState)
    (anchorBefore : Option SystemPlacement) : AppState :=
  match anchorBefore.bind (state.liveReplacement env) with
  | some replacement => { state with viewportTopId := some replacement }
  | none => state

def repairSelection (env : Surroundings) (state : AppState)
    (selectionBefore : Option SystemPlacement) : AppState :=
  match selectionBefore.bind (state.liveReplacement env) with
  | some replacement => { state with selectedId := some replacement }
  | none => state

/-- A pending period request is satisfied by a document that carries the requested window. -/
def requestAfter (state : AppState) (snapshot : FrontendSnapshot) : Option EggpoolPeriod :=
  match snapshot.eggpool with
  | some dto =>
      if state.eggpoolPeriodRequest = some dto.period then none else state.eggpoolPeriodRequest
  | none => state.eggpoolPeriodRequest

def replaceFleet (env : Surroundings) (state : AppState) (snapshot : FrontendSnapshot) :
    AppState :=
  { state with
    systems := snapshot.systems.map (cleanSystem env.clean)
    eggpool := snapshot.eggpool.map fun dto => ⟨dto.period⟩
    cron := snapshot.cron.map (cleanCron env.clean)
    cronDisplayHistory := snapshot.cronDisplayHistory
    eggpoolPeriodRequest := state.requestAfter snapshot
    sawReachability := state.sawReachability || snapshot.pollInitialized
    lastSnapshotGeneration := snapshot.generation }

def firstId (state : AppState) : Option String :=
  state.systems.head?.map SystemState.id

/-- The placement of the first document: an EggPool-only fleet opens its pane. -/
def placeFirst (state : AppState) : AppState :=
  { state with
    activePane := if state.systems.isEmpty && state.eggpool.isSome then .eggpool else .systems
    selectedId := state.firstId
    viewportTopId := state.firstId }

/-- The logical ids of a later document, repaired against the new list. -/
def repairIds (state : AppState) : AppState :=
  let selectedId := (state.selectedId.filter state.hasSystem).or state.firstId
  if state.systems.isEmpty then { state with selectedId := none, viewportTopId := none }
  else
    { state with
      selectedId
      viewportTopId := (state.viewportTopId.filter state.hasSystem).or selectedId }

/-- The first document that carries polled reachability starts at the top of the display order. -/
def placeAtTop (state : AppState) : AppState :=
  match state.displayOrder.head?.bind state.idAt with
  | some id => { state with selectedId := some id, viewportTopId := some id }
  | none => state

def adoptSnapshotInner (env : Surroundings) (state : AppState) (snapshot : FrontendSnapshot) :
    AppState :=
  let replaced := state.replaceFleet env snapshot
  let placed := if state.lastSnapshotGeneration = 0 then replaced.placeFirst else replaced.repairIds
  let selected := placed.repairSelection env (state.selectedId.bind state.placementOf)
  let anchored := selected.repairCronSelection.repairViewportAnchor env
    (state.viewportTopId.bind state.placementOf)
  let topped :=
    if !state.sawReachability && snapshot.pollInitialized then anchored.placeAtTop else anchored
  topped.ensureSelectedVisible env

/-- A document that is not newer than the last applied one is dropped. -/
def adoptSnapshot (env : Surroundings) (state : AppState) (snapshot : FrontendSnapshot) :
    AppState :=
  if snapshot.isNewerThan state.lastSnapshotGeneration then state.adoptSnapshotInner env snapshot
  else state

/-- Which pane is open, and the window it shows and asks for. -/
structure SameEggpool (before after : AppState) : Prop where
  activePane : after.activePane = before.activePane
  eggpool : after.eggpool = before.eggpool
  eggpoolPeriodRequest : after.eggpoolPeriodRequest = before.eggpoolPeriodRequest

theorem SameEggpool.trans {first second third : AppState} (left : SameEggpool first second)
    (right : SameEggpool second third) : SameEggpool first third where
  activePane := right.activePane.trans left.activePane
  eggpool := right.eggpool.trans left.eggpool
  eggpoolPeriodRequest := right.eggpoolPeriodRequest.trans left.eggpoolPeriodRequest

variable {env : Surroundings} {state : AppState} {snapshot : FrontendSnapshot}

/-- Adjusting the window moves its top and nothing else. -/
theorem exists_top_ensureSelectedVisibleWithOrder {order : List ℕ} :
    ∃ top, state.ensureSelectedVisibleWithOrder env order =
      { state with viewportTopId := top } := by
  unfold ensureSelectedVisibleWithOrder
  split
  · exact ⟨_, rfl⟩
  · simp only
    split
    · exact ⟨_, rfl⟩
    · split
      · exact ⟨_, rfl⟩
      · split <;> exact ⟨_, rfl⟩

theorem sameEggpool_ensureSelectedVisibleWithOrder {order : List ℕ} :
    SameEggpool state (state.ensureSelectedVisibleWithOrder env order) := by
  rcases @exists_top_ensureSelectedVisibleWithOrder env state order with ⟨top, isTop⟩
  rw [isTop]
  exact ⟨rfl, rfl, rfl⟩

theorem sameEggpool_ensureSelectedVisible :
    SameEggpool state (state.ensureSelectedVisible env) :=
  sameEggpool_ensureSelectedVisibleWithOrder

theorem sameEggpool_placeAtTop : SameEggpool state state.placeAtTop := by
  unfold placeAtTop
  split <;> exact ⟨rfl, rfl, rfl⟩

theorem sameEggpool_repairViewportAnchor {anchor : Option SystemPlacement} :
    SameEggpool state (state.repairViewportAnchor env anchor) := by
  unfold repairViewportAnchor
  split <;> exact ⟨rfl, rfl, rfl⟩

theorem sameEggpool_repairSelection {selection : Option SystemPlacement} :
    SameEggpool state (state.repairSelection env selection) := by
  unfold repairSelection
  split <;> exact ⟨rfl, rfl, rfl⟩

theorem sameEggpool_repairCronSelection : SameEggpool state state.repairCronSelection :=
  ⟨rfl, rfl, rfl⟩

theorem sameEggpool_repairIds : SameEggpool state state.repairIds := by
  unfold repairIds
  simp only
  split <;> exact ⟨rfl, rfl, rfl⟩

/-- The pane a document leaves open: only a first document chooses one. -/
def paneAfter (state : AppState) (snapshot : FrontendSnapshot) : Pane :=
  if state.lastSnapshotGeneration = 0 then
    if snapshot.systems.isEmpty && snapshot.eggpool.isSome then .eggpool else .systems
  else state.activePane

/-- What is left of the pane after the repairs is what the document and the first placement say. -/
structure Adopted (state : AppState) (snapshot : FrontendSnapshot) (adopted : AppState) : Prop where
  activePane : adopted.activePane = state.paneAfter snapshot
  eggpool : adopted.eggpool = snapshot.eggpool.map fun dto => ⟨dto.period⟩
  eggpoolPeriodRequest : adopted.eggpoolPeriodRequest = state.requestAfter snapshot

theorem request_of_requestAfter {request : EggpoolPeriod}
    (pending : state.requestAfter snapshot = some request) :
    state.eggpoolPeriodRequest = some request := by
  unfold requestAfter at pending
  split at pending
  · split at pending
    · cases pending
    · exact pending
  · exact pending

theorem Adopted.of_sameEggpool {first second : AppState} (adopted : Adopted state snapshot first)
    (same : SameEggpool first second) : Adopted state snapshot second where
  activePane := same.activePane.trans adopted.activePane
  eggpool := same.eggpool.trans adopted.eggpool
  eggpoolPeriodRequest := same.eggpoolPeriodRequest.trans adopted.eggpoolPeriodRequest

theorem adopted_placed :
    Adopted state snapshot
      (if state.lastSnapshotGeneration = 0 then (state.replaceFleet env snapshot).placeFirst
        else (state.replaceFleet env snapshot).repairIds) := by
  split
  · rename_i first
    refine ⟨?_, rfl, rfl⟩
    simp [placeFirst, replaceFleet, paneAfter, first]
  · rename_i later
    have replaced : Adopted state snapshot (state.replaceFleet env snapshot) := by
      refine ⟨?_, rfl, rfl⟩
      simp [replaceFleet, paneAfter, later]
    exact replaced.of_sameEggpool sameEggpool_repairIds

theorem adopted_adoptSnapshot (newer : snapshot.isNewerThan state.lastSnapshotGeneration = true) :
    Adopted state snapshot (state.adoptSnapshot env snapshot) := by
  rw [adoptSnapshot, if_pos newer]
  unfold adoptSnapshotInner
  apply Adopted.of_sameEggpool _ sameEggpool_ensureSelectedVisible
  split
  · apply Adopted.of_sameEggpool _ sameEggpool_placeAtTop
    apply Adopted.of_sameEggpool _ sameEggpool_repairViewportAnchor
    apply Adopted.of_sameEggpool _ sameEggpool_repairCronSelection
    exact adopted_placed.of_sameEggpool sameEggpool_repairSelection
  · apply Adopted.of_sameEggpool _ sameEggpool_repairViewportAnchor
    apply Adopted.of_sameEggpool _ sameEggpool_repairCronSelection
    exact adopted_placed.of_sameEggpool sameEggpool_repairSelection

end AppState

end Gregg.Tui
