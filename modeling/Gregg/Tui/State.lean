import Gregg.Clientd.Snapshot

/-!
# The frontend's render model

Published fleet data on one side, the presentation of one frontend on the other. The rows a system
takes depend on both, and through them on how far a page goes and which system is at the top of the
window.

Three parts are inputs: the sanitizer every remote string goes through, the normal form of a host
name, and the number of rows the cron block asks for.
-/

namespace Gregg.Tui

open Gregg.Clientd

inductive Pane where
  | systems
  | eggpool
  deriving DecidableEq

inductive SystemViewMode where
  | normal
  | condensed
  deriving DecidableEq

structure SystemState where
  id : String
  endpoint : Endpoint
  configuredName : Option String
  reachability : Reachability
  latest : Option NormalizedSnapshot
  deriving DecidableEq

structure EggpoolState where
  period : EggpoolPeriod
  deriving DecidableEq

/-- Where a system stood in the fleet that a document replaced. -/
structure SystemPlacement where
  id : String
  reachability : Reachability
  position : ℕ
  host : String
  port : UInt16
  deriving DecidableEq

structure AppState where
  systems : List SystemState
  eggpool : Option EggpoolState
  cron : List SystemCronDto
  cronDisplayHistory : ℕ
  lastSnapshotGeneration : ℕ
  selectedId : Option String
  viewportTopId : Option String
  terminalSize : Option (ℕ × ℕ)
  activePane : Pane
  systemViewMode : SystemViewMode
  drivesExpanded : Bool
  networkExpanded : Bool
  cronExpanded : Bool
  cronJob : Option String
  selectionHighlightActive : Bool
  eggpoolPeriodRequest : Option EggpoolPeriod
  sawReachability : Bool

/-- The parts of the program the state relies on. -/
structure Surroundings where
  clean : String → String
  normalizeHost : String → Option String
  desiredRows : AppState → ℕ

/-- Records a cron pane displays unless the document says otherwise. -/
def DEFAULT_DISPLAY_HISTORY : ℕ := 5

def u16Max : ℕ := 65535

/-- `u16::saturating_add`. -/
def satAdd16 (left right : ℕ) : ℕ :=
  min (left + right) u16Max

/-- `u16::try_from(count).unwrap_or(u16::MAX)`. -/
def toU16 (count : ℕ) : ℕ :=
  min count u16Max

/-- The addition of two `u16` in a release build. -/
def wrapAdd16 (left right : ℕ) : ℕ :=
  (left + right) % (u16Max + 1)

/-- Online systems first, then offline and pending ones, each in configured order. -/
def displayOrderOf (systems : List SystemState) : List ℕ :=
  let isOnline (index : ℕ) : Bool :=
    match systems[index]? with
    | some system => system.reachability = .online
    | none => false
  (List.range systems.length).filter isOnline ++
    (List.range systems.length).filter fun index => !isOnline index

namespace AppState

def blank : AppState where
  systems := []
  eggpool := none
  cron := []
  cronDisplayHistory := DEFAULT_DISPLAY_HISTORY
  lastSnapshotGeneration := 0
  selectedId := none
  viewportTopId := none
  terminalSize := none
  activePane := .systems
  systemViewMode := .normal
  drivesExpanded := false
  networkExpanded := false
  cronExpanded := false
  cronJob := none
  selectionHighlightActive := false
  eggpoolPeriodRequest := none
  sawReachability := false

def displayOrder (state : AppState) : List ℕ :=
  displayOrderOf state.systems

def idAt (state : AppState) (index : ℕ) : Option String :=
  (state.systems[index]?).map SystemState.id

def positionOf (state : AppState) (order : List ℕ) (id : String) : Option ℕ :=
  order.findIdx? fun index => state.idAt index = some id

def hasSystem (state : AppState) (id : String) : Bool :=
  state.systems.any fun system => system.id = id

def cronFor (state : AppState) (systemId : String) : Option SystemCronDto :=
  state.cron.find? fun entry => entry.systemId = systemId

def selectedCron (state : AppState) : Option SystemCronDto :=
  state.selectedId.bind state.cronFor

/-- Job names the selected system's scheduler reports, in the remote's own order. -/
def cronJobNames (state : AppState) : List String :=
  match state.selectedCron.bind SystemCronDto.summary with
  | some summary => summary.jobs.map SchedulerJobV2.name
  | none => []

def selectedCronJob (state : AppState) : Option String :=
  match state.cronJob with
  | some current => if current ∈ state.cronJobNames then some current else state.cronJobNames.head?
  | none => state.cronJobNames.head?

def stepCronJob (state : AppState) (delta : ℤ) : AppState :=
  let names := state.cronJobNames
  match names with
  | [] => { state with cronJob := none }
  | _ :: _ =>
      let current := (state.selectedCronJob.bind fun name => names.idxOf? name).getD 0
      let last := names.length - 1
      let next := max 0 (min ((current : ℤ) + delta) last)
      { state with cronJob := names[next.toNat]? }

/-- The retained job name becomes the one the pane shows. -/
def repairCronSelection (state : AppState) : AppState :=
  { state with cronJob := state.selectedCronJob }

end AppState

namespace SystemState

def validDriveCount (system : SystemState) : ℕ :=
  match system.latest.bind NormalizedSnapshot.drives with
  | some drives =>
      toU16 (drives.countP fun drive => 0 < drive.totalBytes && drive.usedBytes ≤ drive.totalBytes)
  | none => 0

def validDriveDetailCount (system : SystemState) : ℕ :=
  if (system.latest.bind NormalizedSnapshot.diskIo).isSome then satAdd16 system.validDriveCount 2
  else system.validDriveCount

def validNetworkDetailCount (system : SystemState) : ℕ :=
  match system.latest.bind NormalizedSnapshot.network with
  | some network => satAdd16 1 (toU16 network.interfaces.length)
  | none => 0

/-- Rows of an online block before optional details. -/
def normalBaseHeight (system : SystemState) : ℕ :=
  if (system.latest.bind NormalizedSnapshot.network).isSome then 6 else 5

end SystemState

namespace AppState

/-- Cron rows a system contributes, which only the selected one does. -/
def cronDetailCount (env : Surroundings) (state : AppState) (system : SystemState) : ℕ :=
  if state.cronExpanded && state.selectedId = some system.id then toU16 (env.desiredRows state)
  else 0

/-- Detail rows of the three expansions. -/
def detailRows (env : Surroundings) (state : AppState) (system : SystemState) : ℕ :=
  if (state.drivesExpanded || state.networkExpanded || state.cronExpanded) &&
      state.selectedId = some system.id then
    let drives := if state.drivesExpanded then system.validDriveDetailCount else 0
    let network := if state.networkExpanded then system.validNetworkDetailCount else 0
    satAdd16 (satAdd16 drives network) (state.cronDetailCount env system)
  else 0

def entryHeight (env : Surroundings) (state : AppState) (index : ℕ) : ℕ :=
  match state.systems[index]? with
  | none => 1
  | some system =>
      match state.systemViewMode, system.reachability with
      | .condensed, .online => satAdd16 1 (state.detailRows env system)
      | .condensed, _ => 1
      | .normal, .online => satAdd16 system.normalBaseHeight (state.detailRows env system)
      | .normal, _ => 1

def minimumRenderHeight (state : AppState) (index : ℕ) : ℕ :=
  match state.systems[index]? with
  | none => 0
  | some system =>
      match state.systemViewMode, system.reachability with
      | .normal, .online => system.normalBaseHeight
      | _, _ => 1

/-- Rows reserved above the entries by a view. -/
def viewHeaderHeight : SystemViewMode → ℕ
  | .normal => 0
  | .condensed => 2

/-- The loop of `visible_range`: how many of these entries are visible, after some used `rows`. -/
def visibleFrom (env : Surroundings) (state : AppState) (height : ℕ) :
    ℕ → ℕ → List ℕ → Option ℕ
  | _, count, [] => some count
  | rows, count, index :: rest =>
      if state.systems.length ≤ index then some count
      else if count = 0 ∧ height < state.minimumRenderHeight index then none
      else
        let total := wrapAdd16 rows (state.entryHeight env index)
        if height < total ∧ 0 < count then some count
        else visibleFrom env state height total (count + 1) rest

/-- The positions of an order that are visible from `top` on, as a half-open interval. -/
def visibleRange (env : Surroundings) (state : AppState) (order : List ℕ) (top height : ℕ) :
    ℕ × ℕ :=
  if height = 0 then (0, 0)
  else (top, top + (visibleFrom env state height 0 0 (order.drop top)).getD 0)

def inRange (range : ℕ × ℕ) (position : ℕ) : Bool :=
  range.1 ≤ position && position < range.2

/-- The walk that moves the top only as far up as necessary. -/
def scrollUp (env : Surroundings) (state : AppState) (order : List ℕ) (height top selected : ℕ) :
    ℕ → ℕ
  | 0 => 0
  | candidate + 1 =>
      if top < candidate + 1 ∧
          inRange (visibleRange env state order candidate height) selected = true then
        scrollUp env state order height top selected candidate
      else candidate + 1

/-- Adjust the top of the window so that the selected system is visible. -/
def ensureSelectedVisibleWithOrder (env : Surroundings) (state : AppState) (order : List ℕ) :
    AppState :=
  if order = [] then state
  else
    let height := (state.terminalSize.getD (80, 24)).2
    let top := (state.viewportTopId.bind (state.positionOf order)).getD 0
    match state.selectedId.bind (state.positionOf order) with
    | none => state
    | some selected =>
        let usable := height - viewHeaderHeight state.systemViewMode
        if inRange (visibleRange env state order top usable) selected then state
        else if selected < top then
          { state with viewportTopId := order[selected]?.bind state.idAt }
        else
          let candidate := scrollUp env state order usable top selected selected
          { state with viewportTopId := order[candidate]?.bind state.idAt }

def ensureSelectedVisible (env : Surroundings) (state : AppState) : AppState :=
  state.ensureSelectedVisibleWithOrder env state.displayOrder

end AppState

/-- Texts without control characters, hosts in normal form, and cron blocks without records. -/
def Surroundings.plain : Surroundings where
  clean := id
  normalizeHost := some
  desiredRows := fun state =>
    if state.cronExpanded && state.selectedId.isSome then
      match state.cronJobNames with
      | [] => 1
      | names => 2 + names.length
    else 0

end Gregg.Tui
