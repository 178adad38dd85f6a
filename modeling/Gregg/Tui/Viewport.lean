import Gregg.Tui.CronPane
import Gregg.Tui.MetricBars
import Gregg.Tui.Selection
import Mathlib.Data.List.Chain

/-!
# The cards of the viewport

The systems that are visible from the top of the window get a card each, below each other. The
heights come from the state; the rows that a card has for drives, network and scheduler are what its
height leaves below the base block. The renderers of the details draw that many of their lines.
-/

namespace Gregg.Tui.Viewport

open AppState
open CronPane (Rect paneRows truncateWidth)
open DriveTable (formatRate renderDriveDetailLines)
open MetricBars (MetricDisplay)

/-- Bound on the drives of a status document. -/
def MAX_DRIVE_ENTRIES : ℕ := 32

/-- Bound on the interfaces of a status document. -/
def MAX_NETWORK_INTERFACE_ENTRIES : ℕ := 32

structure ViewportEntry where
  index : ℕ
  rect : Rect
  isSelected : Bool
  isVisuallySelected : Bool
  driveRowsVisible : ℕ
  networkRowsVisible : ℕ
  cronRowsVisible : ℕ

theorem satAdd16_le (left right : ℕ) : satAdd16 left right ≤ u16Max :=
  Nat.min_le_right _ _

section Layout

variable (env : Surroundings) (state : AppState)

def isSelected (system : SystemState) : Bool :=
  state.selectedId = some system.id

/-- Rows of a block before its details, whether or not the system is online. -/
def baseHeight (system : SystemState) : ℕ :=
  match state.systemViewMode with
  | .normal => system.normalBaseHeight
  | .condensed => 1

def driveRowsVisible (system : SystemState) (height : ℕ) : ℕ :=
  if isSelected state system && state.drivesExpanded then
    min system.validDriveDetailCount (height - baseHeight state system)
  else 0

def networkRowsVisible (system : SystemState) (height : ℕ) : ℕ :=
  if isSelected state system && state.networkExpanded then
    min system.validNetworkDetailCount
      (height - baseHeight state system - toU16 (driveRowsVisible state system height))
  else 0

/-- Cron takes what is left, and no row where nothing is. -/
def cronRowsVisible (system : SystemState) (height : ℕ) : ℕ :=
  if isSelected state system && state.cronExpanded then
    let remaining := height - baseHeight state system -
      toU16 (driveRowsVisible state system height) - toU16 (networkRowsVisible state system height)
    if remaining = 0 then 0 else min (max (env.desiredRows state) 1) remaining
  else 0

def entryFor (area : Rect) (y : ℕ) (y_le : y ≤ u16Max) (index : ℕ) (system : SystemState)
    (height : ℕ) (height_le : height ≤ u16Max) : ViewportEntry where
  index
  rect := { x := area.x, y, width := area.width, height, y_le, height_le }
  isSelected := isSelected state system
  isVisuallySelected := isSelected state system && state.selectionHighlightActive
  driveRowsVisible := driveRowsVisible state system height
  networkRowsVisible := networkRowsVisible state system height
  cronRowsVisible := cronRowsVisible env state system height

/-- The loop over the visible systems, from a row on down to the bottom of the area. -/
def placeEntries (area : Rect) (bottom : ℕ) (bottom_le : bottom ≤ u16Max) (y : ℕ)
    (y_le : y ≤ u16Max) : List ℕ → List ViewportEntry
  | [] => []
  | index :: rest =>
      match state.systems[index]? with
      -- The positions of a display order are those of listed systems.
      | none => []
      | some system =>
          let height := min (state.entryHeight env index) (bottom - y)
          have height_le : height ≤ u16Max :=
            (Nat.min_le_right _ _).trans ((Nat.sub_le _ _).trans bottom_le)
          entryFor env state area y y_le index system height height_le ::
            placeEntries area bottom bottom_le (satAdd16 y height) (satAdd16_le _ _) rest

/-- Which systems are visible and where their cards are. -/
def computeViewport (area : Rect) (order : List ℕ) : List ViewportEntry :=
  let header := viewHeaderHeight state.systemViewMode
  let contentY := satAdd16 area.y header
  let contentHeight := area.height - header
  let visible := visibleRange env state order (state.topPosition order) contentHeight
  placeEntries env state area (satAdd16 contentY contentHeight) (satAdd16_le _ _) contentY
    (satAdd16_le _ _) ((order.drop visible.1).take (visible.2 - visible.1))

end Layout

section Renderers

/-- How a number of bits per second is written. -/
structure NetworkDisplay extends MetricDisplay where
  formatBits : ℕ → String

variable (display : NetworkDisplay)

def formatCapacity (bitsPerSec : Option ℕ) : String :=
  bitsPerSec.elim "—" display.formatBits

/-- A link capacity, which may be known in one direction only. -/
def formatDirectionalCapacity : Option ℕ → Option ℕ → String
  | some rx, some tx =>
      if rx = tx then formatCapacity display (some rx)
      else s!"{formatCapacity display (some rx)}/{formatCapacity display (some tx)}"
  | some value, none => s!"{formatCapacity display (some value)} rx"
  | none, some value => s!"{formatCapacity display (some value)} tx"
  | none, none => formatCapacity display none

def renderNetworkDetailLines (network : Fleet.NormalizedNetwork) (width : ℕ) : List (List Char) :=
  let utilization := (display.utilization network).elim "—" display.formatPct
  let capacity := formatDirectionalCapacity display network.aggregateRxCapacityBps
    network.aggregateTxCapacityBps
  truncateWidth display.toDisplay
      (s!"  NETWORK TOTAL  RX {formatRate network.aggregateRxBytesPerSec}  " ++
        s!"TX {formatRate network.aggregateTxBytesPerSec}  CAP {capacity}  {utilization}").toList
      width ::
    network.interfaces.map fun interface =>
      truncateWidth display.toDisplay
        (s!"  {interface.name}  RX {formatRate interface.rxBytesPerSec}  " ++
          s!"TX {formatRate interface.txBytesPerSec}  LINK " ++
          formatDirectionalCapacity display interface.rxCapacityBps
            interface.txCapacityBps).toList width

/-- What the state keeps of a snapshot. -/
def keptOf (snap : Fleet.NormalizedSnapshot) : Clientd.NormalizedSnapshot where
  drives := snap.drives.map fun drives => drives.map fun drive =>
    { name := drive.name, usedBytes := drive.usedBytes, totalBytes := drive.totalBytes }
  diskIo := snap.diskIo.map fun diskIo =>
    ⟨diskIo.devices.map fun device =>
      { id := device.id, name := device.name, driveName := device.driveName }⟩
  network := snap.network.map fun network =>
    ⟨network.interfaces.map fun interface => { id := interface.id, name := interface.name }⟩

variable (state : AppState) (snapshots : SystemState → Fleet.NormalizedSnapshot) (width : ℕ)

/-- Whether the renderers of details are asked about a system at all. -/
def showsDetails (system : SystemState) : Bool :=
  isSelected state system && system.reachability = .online

/-- The lines of the drive table of a system, where it is open. -/
def driveLines (system : SystemState) : List (List Char) :=
  if showsDetails state system && state.drivesExpanded then
    renderDriveDetailLines display.toTableDisplay ((snapshots system).drives.getD [])
      (snapshots system).diskIo width
  else []

def networkLines (system : SystemState) : List (List Char) :=
  if showsDetails state system && state.networkExpanded then
    ((snapshots system).network.map fun network =>
      renderNetworkDetailLines display network width).getD []
  else []

/-- The rows of the scheduler block within a number of rows. Within none nothing is drawn. -/
def cronLines (system : SystemState) (rowsVisible : ℕ) : List CronPane.CronRow :=
  if showsDetails state system && state.cronExpanded && 0 < rowsVisible then
    paneRows state rowsVisible
  else []

end Renderers

/-- What is known of a system that a poll found online: the snapshot it is shown with, within the
bounds that a validated document has. -/
structure Accepted (snapshots : SystemState → Fleet.NormalizedSnapshot) (system : SystemState) :
    Prop where
  latest : system.latest = some (keptOf (snapshots system))
  drives : ((snapshots system).drives.getD []).length ≤ MAX_DRIVE_ENTRIES
  interfaces : ∀ network, (snapshots system).network = some network →
    network.interfaces.length ≤ MAX_NETWORK_INTERFACE_ENTRIES

section Counts

variable {env : Surroundings} {state : AppState} {system : SystemState} {height index : ℕ}
  {snapshots : SystemState → Fleet.NormalizedSnapshot}

/-- Rows that the drive table of a system takes, where it is open. -/
def driveCount (state : AppState) (system : SystemState) : ℕ :=
  if isSelected state system && state.drivesExpanded then system.validDriveDetailCount else 0

def networkCount (state : AppState) (system : SystemState) : ℕ :=
  if isSelected state system && state.networkExpanded then system.validNetworkDetailCount else 0

def cronCount (env : Surroundings) (state : AppState) (system : SystemState) : ℕ :=
  if isSelected state system && state.cronExpanded then max (env.desiredRows state) 1 else 0

theorem driveRowsVisible_eq :
    driveRowsVisible state system height =
      min (driveCount state system) (height - baseHeight state system) := by
  rw [driveRowsVisible, driveCount]
  split
  · rfl
  · rw [Nat.zero_min]

theorem networkRowsVisible_eq (height_le : height ≤ u16Max) :
    networkRowsVisible state system height =
      min (networkCount state system)
        (height - baseHeight state system - driveRowsVisible state system height) := by
  have notCut : toU16 (driveRowsVisible state system height) =
      driveRowsVisible state system height := by
    rw [driveRowsVisible_eq, toU16]
    omega
  rw [networkRowsVisible, networkCount, notCut]
  split
  · rfl
  · rw [Nat.zero_min]

theorem cronRowsVisible_eq (height_le : height ≤ u16Max) :
    cronRowsVisible env state system height =
      min (cronCount env state system)
        (height - baseHeight state system - driveRowsVisible state system height -
          networkRowsVisible state system height) := by
  have drives : toU16 (driveRowsVisible state system height) =
      driveRowsVisible state system height := by
    rw [driveRowsVisible_eq, toU16]
    omega
  have network : toU16 (networkRowsVisible state system height) =
      networkRowsVisible state system height := by
    rw [networkRowsVisible_eq height_le, toU16]
    omega
  rw [cronRowsVisible, cronCount, drives, network]
  split
  · simp only
    split
    · rename_i nothing
      rw [nothing, Nat.min_zero]
    · rfl
  · rw [Nat.zero_min]

/-- The details take no row of the base block, and none below the card. -/
theorem rows_le (height_le : height ≤ u16Max) :
    driveRowsVisible state system height + networkRowsVisible state system height +
        cronRowsVisible env state system height ≤ height - baseHeight state system := by
  rw [cronRowsVisible_eq height_le, networkRowsVisible_eq height_le, driveRowsVisible_eq]
  omega

/-- In a card of the full height every detail has all its rows. -/
theorem rows_of_full (height_le : height ≤ u16Max)
    (isFull : height = baseHeight state system +
      (driveCount state system + networkCount state system + cronCount env state system)) :
    driveRowsVisible state system height = driveCount state system ∧
      networkRowsVisible state system height = networkCount state system ∧
      cronRowsVisible env state system height = cronCount env state system := by
  rw [cronRowsVisible_eq height_le, networkRowsVisible_eq height_le, driveRowsVisible_eq]
  omega

theorem validDriveDetailCount_eq (accepted : Accepted snapshots system) :
    system.validDriveDetailCount =
      (((snapshots system).drives.getD []).filter fun drive =>
        0 < drive.totalBytes && drive.usedBytes ≤ drive.totalBytes).length +
      if (snapshots system).diskIo.isSome then 2 else 0 := by
  have counted : system.validDriveCount =
      (((snapshots system).drives.getD []).filter fun drive =>
        0 < drive.totalBytes && drive.usedBytes ≤ drive.totalBytes).length := by
    have atMost := accepted.drives
    rw [SystemState.validDriveCount, accepted.latest, Option.bind_some, keptOf]
    cases isDrives : (snapshots system).drives with
    | none => rfl
    | some drives =>
        rw [isDrives, Option.getD_some, MAX_DRIVE_ENTRIES] at atMost
        have fewer := List.length_filter_le
          (fun drive : Fleet.NormalizedDrive =>
            decide (0 < drive.totalBytes) && decide (drive.usedBytes ≤ drive.totalBytes)) drives
        simp only [Option.map_some, Option.getD_some, List.countP_map,
          ← List.countP_eq_length_filter] at fewer ⊢
        rw [toU16]
        change min (List.countP _ drives) u16Max = _
        exact Nat.min_eq_left (fewer.trans (atMost.trans (by decide)))
  have fewer := List.length_filter_le
    (fun drive : Fleet.NormalizedDrive =>
      decide (0 < drive.totalBytes) && decide (drive.usedBytes ≤ drive.totalBytes))
    ((snapshots system).drives.getD [])
  have atMost := accepted.drives
  rw [SystemState.validDriveDetailCount, counted, accepted.latest, Option.bind_some, keptOf,
    Option.isSome_map]
  rw [MAX_DRIVE_ENTRIES] at atMost
  split
  · rw [satAdd16, u16Max]
    omega
  · rfl

theorem validNetworkDetailCount_eq (accepted : Accepted snapshots system) :
    system.validNetworkDetailCount =
      ((snapshots system).network.map fun network => 1 + network.interfaces.length).getD 0 := by
  rw [SystemState.validNetworkDetailCount, accepted.latest, Option.bind_some, keptOf]
  cases isNetwork : (snapshots system).network with
  | none => rfl
  | some network =>
      have atMost := accepted.interfaces network isNetwork
      rw [MAX_NETWORK_INTERFACE_ENTRIES] at atMost
      simp only [Option.map_some, Option.getD_some, List.length_map, satAdd16, toU16, u16Max]
      omega

theorem driveCount_le (accepted : Accepted snapshots system) :
    driveCount state system ≤ MAX_DRIVE_ENTRIES + 2 := by
  have fewer := List.length_filter_le
    (fun drive : Fleet.NormalizedDrive =>
      decide (0 < drive.totalBytes) && decide (drive.usedBytes ≤ drive.totalBytes))
    ((snapshots system).drives.getD [])
  have atMost := accepted.drives
  rw [driveCount, validDriveDetailCount_eq accepted]
  split
  · split <;> omega
  · exact Nat.zero_le _

theorem networkCount_le (accepted : Accepted snapshots system) :
    networkCount state system ≤ 1 + MAX_NETWORK_INTERFACE_ENTRIES := by
  rw [networkCount, validNetworkDetailCount_eq accepted]
  split
  · cases isNetwork : (snapshots system).network with
    | none => exact Nat.zero_le _
    | some network =>
        have atMost := accepted.interfaces network isNetwork
        rw [Option.map_some, Option.getD_some]
        omega
  · exact Nat.zero_le _

end Counts

section Heights

variable {state : AppState} {system : SystemState} {index : ℕ}
  {snapshots : SystemState → Fleet.NormalizedSnapshot} {clean : String → String}
  {normalizeHost : String → Option String}

/-- The surroundings with the scheduler block as it is rendered. -/
def rendered (clean : String → String) (normalizeHost : String → Option String) : Surroundings :=
  .rendered CronPane.streamRows clean normalizeHost

/-- Rows of the whole scheduler block. -/
def blockLength (state : AppState) : ℕ :=
  (CronPane.blockRows state MAX_JOB_ROWS).length

/-- A block has a row at least. -/
theorem blockLength_pos : 0 < blockLength state := by
  rw [blockLength, CronPane.length_blockRows, blockRows]
  split
  · exact Nat.one_pos
  · simp only
    split <;> split <;> omega

theorem desiredRows_eq (isOpen : (isSelected state system && state.cronExpanded) = true) :
    (rendered clean normalizeHost).desiredRows state =
      min (blockLength state) MAX_DESIRED_ROWS := by
  rw [Bool.and_eq_true, isSelected, decide_eq_true_eq] at isOpen
  rw [blockLength, CronPane.length_blockRows]
  change desiredRows CronPane.streamRows state = _
  rw [desiredRows, isOpen.1, isOpen.2]
  rfl

theorem cronCount_eq :
    cronCount (rendered clean normalizeHost) state system =
      if isSelected state system && state.cronExpanded then min (blockLength state) MAX_DESIRED_ROWS
      else 0 := by
  have positive := @blockLength_pos state
  rw [cronCount]
  split
  · rename_i isOpen
    rw [desiredRows_eq isOpen, MAX_DESIRED_ROWS, MAX_JOB_ROWS]
    omega
  · rfl

theorem cronCount_le :
    cronCount (rendered clean normalizeHost) state system ≤ MAX_DESIRED_ROWS := by
  rw [cronCount_eq]
  split
  · exact Nat.min_le_right _ _
  · exact Nat.zero_le _

theorem cronDetailCount_eq :
    state.cronDetailCount (rendered clean normalizeHost) system =
      cronCount (rendered clean normalizeHost) state system := by
  rw [cronCount_eq, cronDetailCount, Bool.and_comm]
  change (if (isSelected state system && state.cronExpanded) = true then _ else _) = _
  split
  · rename_i isOpen
    have isBounded : MAX_DESIRED_ROWS ≤ u16Max := by decide
    rw [desiredRows_eq isOpen, toU16]
    omega
  · rfl

/-- 34 rows of drives, 33 of interfaces and the ceiling of the scheduler block. -/
theorem details_le (accepted : Accepted snapshots system) :
    driveCount state system + networkCount state system +
      cronCount (rendered clean normalizeHost) state system ≤ 102 := by
  have drives := @driveCount_le state system snapshots accepted
  have network := @networkCount_le state system snapshots accepted
  have cron := @cronCount_le state system clean normalizeHost
  rw [MAX_DRIVE_ENTRIES] at drives
  rw [MAX_NETWORK_INTERFACE_ENTRIES] at network
  rw [MAX_DESIRED_ROWS, MAX_JOB_ROWS, SELECTED_JOB_ROWS, JOB_WINDOW_MARKERS] at cron
  omega

theorem detailRows_eq (accepted : Accepted snapshots system) :
    state.detailRows (rendered clean normalizeHost) system =
      driveCount state system + networkCount state system +
        cronCount (rendered clean normalizeHost) state system := by
  change (if ((state.drivesExpanded || state.networkExpanded || state.cronExpanded) &&
    isSelected state system) = true then _ else _) = _
  cases chosen : isSelected state system with
  | false => simp [driveCount, networkCount, cronCount, chosen]
  | true =>
      have drives : driveCount state system =
          if state.drivesExpanded then system.validDriveDetailCount else 0 := by
        rw [driveCount, chosen, Bool.true_and]
      have network : networkCount state system =
          if state.networkExpanded then system.validNetworkDetailCount else 0 := by
        rw [networkCount, chosen, Bool.true_and]
      have isBounded := @details_le state system snapshots clean normalizeHost accepted
      simp only [← drives, ← network, cronDetailCount_eq]
      split
      · rw [satAdd16, satAdd16, u16Max]
        omega
      · rename_i closed
        simp only [Bool.and_true, Bool.or_eq_true, not_or, Bool.not_eq_true] at closed
        rw [drives, network, cronCount, closed.1.1, closed.1.2, closed.2, Bool.and_false]
        rfl

theorem minimumRenderHeight_eq (isSystem : state.systems[index]? = some system) :
    state.minimumRenderHeight index =
      if system.reachability = .online then baseHeight state system else 1 := by
  simp only [minimumRenderHeight, isSystem, baseHeight]
  cases state.systemViewMode <;> cases system.reachability <;> rfl

theorem baseHeight_le : baseHeight state system ≤ 6 := by
  rw [baseHeight]
  split
  · rw [SystemState.normalBaseHeight]
    split <;> omega
  · omega

theorem baseHeight_pos : 0 < baseHeight state system := by
  rw [baseHeight]
  split
  · rw [SystemState.normalBaseHeight]
    split <;> omega
  · omega

/-- A card has the base block and the rows of every open detail. -/
theorem entryHeight_eq (isSystem : state.systems[index]? = some system)
    (accepted : system.reachability = .online → Accepted snapshots system) :
    entryHeight (rendered clean normalizeHost) state index =
      if system.reachability = .online then
        baseHeight state system + (driveCount state system + networkCount state system +
          cronCount (rendered clean normalizeHost) state system)
      else 1 := by
  by_cases online : system.reachability = .online
  · have base_le := @baseHeight_le state system
    have isBounded := @details_le state system snapshots clean normalizeHost (accepted online)
    rw [if_pos online]
    rw [← detailRows_eq (accepted online)] at isBounded ⊢
    rw [baseHeight] at base_le ⊢
    cases view : state.systemViewMode with
    | normal =>
        simp only [view] at base_le
        simp only [entryHeight, isSystem, view, online, satAdd16, u16Max]
        omega
    | condensed =>
        simp only [entryHeight, isSystem, view, online, satAdd16, u16Max]
        omega
  · rw [if_neg online]
    simp only [entryHeight, isSystem]
    split
    · rename_i isOnline
      exact absurd isOnline online
    · rfl
    · rename_i isOnline
      exact absurd isOnline online
    · rfl

/-- Six rows of the base block, and those of the details. -/
theorem entryHeight_le (isSystem : state.systems[index]? = some system)
    (accepted : system.reachability = .online → Accepted snapshots system) :
    entryHeight (rendered clean normalizeHost) state index ≤ 108 := by
  rw [entryHeight_eq isSystem accepted]
  split
  · rename_i online
    have base_le := @baseHeight_le state system
    have isBounded := @details_le state system snapshots clean normalizeHost (accepted online)
    omega
  · omega

theorem minimumRenderHeight_le_entryHeight (isSystem : state.systems[index]? = some system)
    (accepted : system.reachability = .online → Accepted snapshots system) :
    state.minimumRenderHeight index ≤ entryHeight (rendered clean normalizeHost) state index := by
  rw [minimumRenderHeight_eq isSystem, entryHeight_eq isSystem accepted]
  split <;> omega

end Heights

section Range

variable {env : Surroundings} {state : AppState} {height : ℕ}

/-- Rows that the cards of these systems take. -/
def rowsOf (env : Surroundings) (state : AppState) (order : List ℕ) : ℕ :=
  (order.map (entryHeight env state)).sum

/-- Every system of an order is listed, and its card is not higher than a card can be. -/
def Bounded (env : Surroundings) (state : AppState) (order : List ℕ) : Prop :=
  ∀ index ∈ order, index < state.systems.length ∧ entryHeight env state index ≤ 108

/-- After the first card, only whole cards are counted. -/
theorem rowsOf_visibleFrom {order : List ℕ} {rows count visible : ℕ}
    (bounded : Bounded env state order) (height_le : height ≤ 32767) (rows_le : rows ≤ 32767)
    (counted : 0 < count)
    (isVisible : visibleFrom env state height rows count order = some visible) :
    ∃ further, visible = count + further ∧
      (further ≠ 0 → rows + rowsOf env state (order.take further) ≤ height) := by
  induction order generalizing rows count with
  | nil => exact ⟨0, (Option.some.inj isVisible).symm, fun isMore => absurd rfl isMore⟩
  | cons index rest ih =>
      rcases List.forall_mem_cons.mp bounded with ⟨⟨isListed, isLow⟩, restBounded⟩
      have isTotal : wrapAdd16 rows (entryHeight env state index) =
          rows + entryHeight env state index := by
        rw [wrapAdd16, u16Max]
        omega
      simp only [visibleFrom, isTotal] at isVisible
      rw [if_neg (by omega), if_neg (by omega)] at isVisible
      split at isVisible
      · exact ⟨0, (Option.some.inj isVisible).symm, fun isMore => absurd rfl isMore⟩
      · rename_i fits
        rcases ih restBounded (by omega) (Nat.succ_pos _) isVisible with
          ⟨further, isCount, within⟩
        refine ⟨further + 1, by omega, fun _ => ?_⟩
        rw [List.take_succ_cons, rowsOf, List.map_cons, List.sum_cons]
        by_cases isLast : further = 0
        · rw [isLast, List.take_zero, List.map_nil, List.sum_nil]
          omega
        · have isWithin := within isLast
          rw [rowsOf] at isWithin
          omega

/-- The systems whose cards are visible from a position of an order on. -/
def shown (env : Surroundings) (state : AppState) (order : List ℕ) (top height : ℕ) : List ℕ :=
  let visible := visibleRange env state order top height
  (order.drop visible.1).take (visible.2 - visible.1)

variable {order : List ℕ} {top : ℕ}

theorem isPrefix_shown : shown env state order top height <+: order.drop top := by
  simp only [shown, visibleRange]
  split
  · rw [Nat.sub_self, List.take_zero]
    exact List.nil_prefix
  · exact List.take_prefix _ _

theorem mem_shown {position index : ℕ} (isIndex : order[position]? = some index)
    (isVisible : inRange (visibleRange env state order top height) position = true) :
    index ∈ shown env state order top height := by
  simp only [inRange, Bool.and_eq_true, decide_eq_true_eq] at isVisible
  apply List.mem_of_getElem? (i := position - (visibleRange env state order top height).1)
  rw [shown, List.getElem?_take_of_lt (by omega), List.getElem?_drop,
    Nat.add_sub_of_le isVisible.1, isIndex]

/-- The base block of the first card fits, and where there are more cards they fit as a whole. -/
theorem rowsOf_shown (bounded : Bounded env state order) (height_le : height ≤ 32767) {first : ℕ}
    {rest : List ℕ} (isShown : shown env state order top height = first :: rest) :
    state.minimumRenderHeight first ≤ height ∧
      (rest ≠ [] → rowsOf env state (first :: rest) ≤ height) := by
  have dropBounded : Bounded env state (order.drop top) :=
    fun index isIndex => bounded index (List.mem_of_mem_drop isIndex)
  simp only [shown, visibleRange] at isShown
  split at isShown
  · cases isShown
  · simp only [Nat.add_sub_cancel_left] at isShown
    generalize order.drop top = below at isShown dropBounded
    cases below with
    | nil => cases isShown
    | cons index others =>
        rcases List.forall_mem_cons.mp dropBounded with ⟨⟨isListed, isLow⟩, othersBounded⟩
        have isTotal : wrapAdd16 0 (entryHeight env state index) = entryHeight env state index := by
          rw [wrapAdd16, u16Max]
          omega
        simp only [visibleFrom, isTotal, true_and] at isShown
        rw [if_neg (by omega)] at isShown
        split at isShown
        · cases isShown
        · rename_i fits
          rw [if_neg (by omega)] at isShown
          rcases @le_of_visibleFrom env state others height (entryHeight env state index) 1
            Nat.one_pos with ⟨visible, isVisible, -⟩
          rcases rowsOf_visibleFrom othersBounded height_le (by omega) Nat.one_pos isVisible with
            ⟨further, isCount, within⟩
          rw [isVisible, Option.getD_some, isCount, Nat.add_comm, List.take_succ_cons,
            List.cons.injEq] at isShown
          rcases isShown with ⟨rfl, rfl⟩
          refine ⟨Nat.le_of_not_lt fits, fun isMore => ?_⟩
          rw [rowsOf, List.map_cons, List.sum_cons]
          apply within
          rintro rfl
          exact isMore List.take_zero

end Range

section Place

variable {env : Surroundings} {state : AppState} {area : Rect} {bottom : ℕ}
  {bottom_le : bottom ≤ u16Max}

theorem placeEntries_cons {index y : ℕ} {y_le : y ≤ u16Max} {rest : List ℕ}
    {system : SystemState} (isSystem : state.systems[index]? = some system) :
    ∃ height_le,
      placeEntries env state area bottom bottom_le y y_le (index :: rest) =
        entryFor env state area y y_le index system
            (min (entryHeight env state index) (bottom - y)) height_le ::
          placeEntries env state area bottom bottom_le
            (satAdd16 y (min (entryHeight env state index) (bottom - y))) (satAdd16_le _ _)
            rest := by
  refine ⟨by omega, ?_⟩
  simp only [placeEntries]
  split
  · rename_i unlisted
    rw [isSystem] at unlisted
    cases unlisted
  · rename_i listed isListed
    cases isSystem.symm.trans isListed
    rfl

variable {order : List ℕ} {y : ℕ} {y_le : y ≤ u16Max}

theorem index_placeEntries (listed : ∀ index ∈ order, index < state.systems.length) :
    (placeEntries env state area bottom bottom_le y y_le order).map ViewportEntry.index =
      order := by
  induction order generalizing y with
  | nil => rfl
  | cons index rest ih =>
      rcases List.forall_mem_cons.mp listed with ⟨isListed, restListed⟩
      rcases placeEntries_cons (List.getElem?_eq_getElem isListed) with ⟨height_le, isPlaced⟩
      rw [isPlaced, List.map_cons, ih restListed]
      rfl

theorem rect_of_head_placeEntries {entry : ViewportEntry}
    (isFirst : (placeEntries env state area bottom bottom_le y y_le order).head? = some entry) :
    entry.rect.y = y ∧
      entry.rect.height = min (entryHeight env state entry.index) (bottom - y) := by
  cases order with
  | nil => cases isFirst
  | cons index rest =>
      cases isSystem : state.systems[index]? with
      | none =>
          simp only [placeEntries, isSystem] at isFirst
          cases isFirst
      | some system =>
          rcases placeEntries_cons isSystem with ⟨height_le, isPlaced⟩
          rw [isPlaced] at isFirst
          cases isFirst
          exact ⟨rfl, rfl⟩

/-- Cards lie below each other without a gap. -/
def Stacked (entries : List ViewportEntry) : Prop :=
  entries.IsChain fun upper lower => lower.rect.y = upper.rect.y + upper.rect.height

theorem stacked_placeEntries (listed : ∀ index ∈ order, index < state.systems.length)
    (aboveBottom : y ≤ bottom) :
    Stacked (placeEntries env state area bottom bottom_le y y_le order) := by
  induction order generalizing y with
  | nil => exact .nil
  | cons index rest ih =>
      rcases List.forall_mem_cons.mp listed with ⟨isListed, restListed⟩
      rcases placeEntries_cons (List.getElem?_eq_getElem isListed) with ⟨height_le, isPlaced⟩
      have isNext : satAdd16 y (min (entryHeight env state index) (bottom - y)) =
          y + min (entryHeight env state index) (bottom - y) := by
        rw [satAdd16]
        omega
      rw [isPlaced]
      apply List.isChain_cons.mpr
      refine ⟨?_, ih restListed (by omega)⟩
      intro lower isFirst
      rw [(rect_of_head_placeEntries isFirst).1, isNext]
      rfl

/-- An entry is what its system, its top and its height make of it. -/
def IsEntryFor (env : Surroundings) (state : AppState) (area : Rect) (entry : ViewportEntry)
    (system : SystemState) : Prop :=
  ∃ y_le height_le, entry =
    entryFor env state area entry.rect.y y_le entry.index system entry.rect.height height_le

theorem mem_placeEntries (listed : ∀ index ∈ order, index < state.systems.length)
    (aboveBottom : y ≤ bottom) {entry : ViewportEntry}
    (isEntry : entry ∈ placeEntries env state area bottom bottom_le y y_le order) :
    (∃ system, state.systems[entry.index]? = some system ∧
        IsEntryFor env state area entry system) ∧
      y ≤ entry.rect.y ∧ entry.rect.y + entry.rect.height ≤ bottom ∧
      entry.rect.height ≤ entryHeight env state entry.index := by
  induction order generalizing y with
  | nil => cases isEntry
  | cons index rest ih =>
      rcases List.forall_mem_cons.mp listed with ⟨isListed, restListed⟩
      have isSystem := List.getElem?_eq_getElem isListed
      rcases placeEntries_cons isSystem with ⟨height_le, isPlaced⟩
      rw [isPlaced] at isEntry
      rcases List.mem_cons.mp isEntry with rfl | isBelow
      · refine ⟨⟨_, isSystem, y_le, height_le, rfl⟩, Nat.le_refl _, ?_, Nat.min_le_left _ _⟩
        change y + min _ _ ≤ bottom
        omega
      · have isNext : satAdd16 y (min (entryHeight env state index) (bottom - y)) =
            y + min (entryHeight env state index) (bottom - y) := by
          rw [satAdd16]
          omega
        rcases ih restListed (by omega) isBelow with ⟨isFor, isLower, isWithin, notHigher⟩
        exact ⟨isFor, by omega, isWithin, notHigher⟩

/-- Where the cards fit as a whole, each has its full height. -/
theorem height_placeEntries (listed : ∀ index ∈ order, index < state.systems.length)
    (fits : y + rowsOf env state order ≤ bottom) {entry : ViewportEntry}
    (isEntry : entry ∈ placeEntries env state area bottom bottom_le y y_le order) :
    entry.rect.height = entryHeight env state entry.index := by
  induction order generalizing y with
  | nil => cases isEntry
  | cons index rest ih =>
      rcases List.forall_mem_cons.mp listed with ⟨isListed, restListed⟩
      rcases placeEntries_cons (List.getElem?_eq_getElem isListed) with ⟨height_le, isPlaced⟩
      rw [rowsOf, List.map_cons, List.sum_cons, ← rowsOf] at fits
      rw [isPlaced] at isEntry
      rcases List.mem_cons.mp isEntry with rfl | isBelow
      · exact Nat.min_eq_left (by omega)
      · refine ih restListed ?_ isBelow
        rw [satAdd16]
        omega

end Place

section Card

variable {state : AppState} {area : Rect} {entry : ViewportEntry} {system : SystemState}
  {snapshots : SystemState → Fleet.NormalizedSnapshot} {clean : String → String}
  {normalizeHost : String → Option String} {display : NetworkDisplay}

/-- The rows of the details lie below the base block and inside the card. -/
theorem rows_of_isEntryFor (isSystem : state.systems[entry.index]? = some system)
    (isFor : IsEntryFor (rendered clean normalizeHost) state area entry system)
    (notShorter : state.minimumRenderHeight entry.index ≤ entry.rect.height)
    (notHigher : entry.rect.height ≤ entryHeight (rendered clean normalizeHost) state entry.index)
    (accepted : system.reachability = .online → Accepted snapshots system) :
    entry.driveRowsVisible + entry.networkRowsVisible + entry.cronRowsVisible +
      state.minimumRenderHeight entry.index ≤ entry.rect.height := by
  rcases isFor with ⟨y_le, height_le, isEntry⟩
  have rows : entry.driveRowsVisible + entry.networkRowsVisible + entry.cronRowsVisible ≤
      entry.rect.height - baseHeight state system := by
    rw [isEntry]
    exact rows_le height_le
  rw [minimumRenderHeight_eq isSystem] at notShorter ⊢
  rw [entryHeight_eq isSystem accepted] at notHigher
  have positive := @baseHeight_pos state system
  split at notHigher
  · rename_i online
    rw [if_pos online] at notShorter ⊢
    omega
  · rename_i offline
    rw [if_neg offline] at notShorter ⊢
    omega

theorem showsDetails_online (online : system.reachability = .online) :
    showsDetails state system = isSelected state system := by
  rw [showsDetails, decide_eq_true online, Bool.and_true]

theorem length_driveLines {width : ℕ} (accepted : Accepted snapshots system)
    (online : system.reachability = .online) :
    (driveLines display state snapshots width system).length = driveCount state system := by
  rw [driveLines, driveCount, showsDetails_online online, validDriveDetailCount_eq accepted]
  split
  · rw [renderDriveDetailLines]
    cases (snapshots system).diskIo <;> simp [DriveTable.driveRows]
  · rfl

theorem length_networkLines {width : ℕ} (accepted : Accepted snapshots system)
    (online : system.reachability = .online) :
    (networkLines display state snapshots width system).length = networkCount state system := by
  rw [networkLines, networkCount, showsDetails_online online, validNetworkDetailCount_eq accepted]
  split
  · cases (snapshots system).network with
    | none => rfl
    | some network =>
        rw [Option.map_some, Option.getD_some, Option.map_some, Option.getD_some,
          renderNetworkDetailLines, List.length_cons, List.length_map, Nat.add_comm]
  · rfl

theorem length_cronLines {height : ℕ} (online : system.reachability = .online)
    (isHeight : height = cronCount (rendered clean normalizeHost) state system) :
    (cronLines state system height).length ≤ height ∧
      (blockLength state ≤ MAX_DESIRED_ROWS →
        height = (cronLines state system height).length) := by
  rw [cronCount_eq] at isHeight
  rw [cronLines, showsDetails_online online]
  split at isHeight
  · rename_i isOpen
    have positive : 0 < height := by
      rw [isHeight]
      exact Nat.lt_min.mpr ⟨blockLength_pos, by decide⟩
    rw [if_pos (by rw [isOpen, decide_eq_true positive]; rfl)]
    refine ⟨CronPane.length_paneRows positive, fun fits => ?_⟩
    rw [Nat.min_eq_left fits] at isHeight
    rw [CronPane.paneRows_full (Nat.le_of_eq isHeight.symm), CronPane.BlockRows.length_rows,
      isHeight, blockLength]
  · rename_i closed
    rw [if_neg, isHeight]
    · exact ⟨Nat.le_refl _, fun _ => rfl⟩
    · rw [Bool.and_eq_true]
      exact fun isOpen => closed isOpen.1

/-- What the renderers emit for a card of the full height. A scheduler block above its ceiling is
cut to it. -/
structure Accounted (display : NetworkDisplay) (snapshots : SystemState → Fleet.NormalizedSnapshot)
    (state : AppState) (area : Rect) (entry : ViewportEntry) (system : SystemState) : Prop where
  drives : entry.driveRowsVisible =
    (driveLines display state snapshots area.width system).length
  network : entry.networkRowsVisible =
    (networkLines display state snapshots area.width system).length
  cron : entry.cronRowsVisible =
    if showsDetails state system && state.cronExpanded then min (blockLength state) MAX_DESIRED_ROWS
    else 0
  pane : blockLength state ≤ MAX_DESIRED_ROWS →
    entry.cronRowsVisible = (cronLines state system entry.cronRowsVisible).length
  pane_le : (cronLines state system entry.cronRowsVisible).length ≤ entry.cronRowsVisible

theorem accounted_of_isEntryFor (isSystem : state.systems[entry.index]? = some system)
    (isFor : IsEntryFor (rendered clean normalizeHost) state area entry system)
    (isFull : entry.rect.height = entryHeight (rendered clean normalizeHost) state entry.index)
    (accepted : system.reachability = .online → Accepted snapshots system) :
    Accounted display snapshots state area entry system := by
  rcases isFor with ⟨y_le, height_le, isEntry⟩
  have isDrives : entry.driveRowsVisible = driveRowsVisible state system entry.rect.height := by
    rw [isEntry]
    rfl
  have isNetwork : entry.networkRowsVisible =
      networkRowsVisible state system entry.rect.height := by
    rw [isEntry]
    rfl
  have isCron : entry.cronRowsVisible =
      cronRowsVisible (rendered clean normalizeHost) state system entry.rect.height := by
    rw [isEntry]
    rfl
  rw [entryHeight_eq isSystem accepted] at isFull
  by_cases online : system.reachability = .online
  · rw [if_pos online] at isFull
    rcases rows_of_full height_le isFull with ⟨allDrives, allNetwork, allCron⟩
    rw [allDrives] at isDrives
    rw [allNetwork] at isNetwork
    rw [allCron] at isCron
    rcases length_cronLines online isCron with ⟨atMost, isAll⟩
    refine ⟨isDrives.trans (length_driveLines (accepted online) online).symm,
      isNetwork.trans (length_networkLines (accepted online) online).symm, ?_, isAll, atMost⟩
    rw [isCron, cronCount_eq, showsDetails_online online]
  · have positive := @baseHeight_pos state system
    have nothing := @rows_le (rendered clean normalizeHost) state system entry.rect.height height_le
    have hides : showsDetails state system = false := by
      rw [showsDetails, decide_eq_false online, Bool.and_false]
    rw [if_neg online] at isFull
    rw [← isDrives, ← isNetwork, ← isCron] at nothing
    have noCron : entry.cronRowsVisible = 0 := by omega
    have noLines : cronLines state system entry.cronRowsVisible = [] := by
      rw [cronLines, hides]
      rfl
    refine ⟨?_, ?_, ?_, fun _ => ?_, ?_⟩
    · rw [driveLines, hides]
      change _ = 0
      omega
    · rw [networkLines, hides]
      change _ = 0
      omega
    · rw [hides]
      exact noCron
    · rw [noLines]
      exact noCron
    · rw [noLines]
      exact Nat.zero_le _

end Card

/-- The cards of a viewport: which systems they are of, where they lie and what they have room
for. -/
structure Placed (display : NetworkDisplay) (snapshots : SystemState → Fleet.NormalizedSnapshot)
    (env : Surroundings) (state : AppState) (area : Rect) (entries : List ViewportEntry) :
    Prop where
  /-- The entries stand in the display order, from the top of the window on. -/
  ordered : entries.map ViewportEntry.index <+:
    state.displayOrder.drop (state.topPosition state.displayOrder)
  first : ∀ entry, entries.head? = some entry →
    entry.rect.y = area.y + viewHeaderHeight state.systemViewMode
  stacked : Stacked entries
  inside : ∀ entry ∈ entries, entry.rect.x = area.x ∧ entry.rect.width = area.width ∧
    area.y + viewHeaderHeight state.systemViewMode ≤ entry.rect.y ∧
    entry.rect.y + entry.rect.height ≤ area.y + area.height
  rows : ∀ entry ∈ entries,
    entry.driveRowsVisible + entry.networkRowsVisible + entry.cronRowsVisible +
      state.minimumRenderHeight entry.index ≤ entry.rect.height
  accounted : ∀ entry ∈ entries, ∀ system, state.systems[entry.index]? = some system →
    entry.rect.height = entryHeight env state entry.index →
      Accounted display snapshots state area entry system
  notHigher : ∀ entry ∈ entries, entry.rect.height ≤ entryHeight env state entry.index
  /-- Only the first card may be cut, and then it is the only one. -/
  whole : ∀ entry ∈ entries,
    entry.rect.height = entryHeight env state entry.index ∨ entries = [entry]

section Viewport

variable {state : AppState} {area : Rect} {snapshots : SystemState → Fleet.NormalizedSnapshot}
  {clean : String → String} {normalizeHost : String → Option String} {display : NetworkDisplay}
  (accepted : ∀ system ∈ state.systems, system.reachability = .online → Accepted snapshots system)
include accepted

theorem bounded_displayOrder : Bounded (rendered clean normalizeHost) state state.displayOrder := by
  intro index isIndex
  have isListed := mem_displayOrderOf.mp isIndex
  exact ⟨isListed, entryHeight_le (List.getElem?_eq_getElem isListed)
    (accepted _ (List.getElem_mem isListed))⟩

/-- Cards that begin below the header, where the base block of the first one fits. -/
theorem placed_placeEntries {first : ℕ} {rest : List ℕ} {y bottom : ℕ} {y_le : y ≤ u16Max}
    {bottom_le : bottom ≤ u16Max} (isTop : y = area.y + viewHeaderHeight state.systemViewMode)
    (isBottom : bottom = area.y + area.height)
    (isPrefix : first :: rest <+: state.displayOrder.drop (state.topPosition state.displayOrder))
    (fits : y + state.minimumRenderHeight first ≤ bottom)
    (restFits : rest ≠ [] →
      y + rowsOf (rendered clean normalizeHost) state (first :: rest) ≤ bottom) :
    Placed display snapshots (rendered clean normalizeHost) state area
      (placeEntries (rendered clean normalizeHost) state area bottom bottom_le y y_le
        (first :: rest)) := by
  have listed : ∀ index ∈ first :: rest, index < state.systems.length := by
    intro index isIndex
    exact mem_displayOrderOf.mp (List.mem_of_mem_drop (isPrefix.mem isIndex))
  have isIndex := @index_placeEntries (rendered clean normalizeHost) state area bottom bottom_le
    (first :: rest) y y_le listed
  have isHead := @rect_of_head_placeEntries (rendered clean normalizeHost) state area bottom
    bottom_le (first :: rest) y y_le
  have isMember := @mem_placeEntries (rendered clean normalizeHost) state area bottom bottom_le
    (first :: rest) y y_le listed (by omega)
  have isStacked := @stacked_placeEntries (rendered clean normalizeHost) state area bottom bottom_le
    (first :: rest) y y_le listed (by omega)
  have isFull : rest ≠ [] → ∀ entry ∈ placeEntries (rendered clean normalizeHost) state area bottom
      bottom_le y y_le (first :: rest),
      entry.rect.height = entryHeight (rendered clean normalizeHost) state entry.index :=
    fun isMore _ isEntry => height_placeEntries listed (restFits isMore) isEntry
  generalize placeEntries (rendered clean normalizeHost) state area bottom bottom_le y y_le
    (first :: rest) = entries at *
  have whole : ∀ entry ∈ entries,
      entry.rect.height = entryHeight (rendered clean normalizeHost) state entry.index ∨
        entries = [entry] := by
    intro entry isEntry
    by_cases isMore : rest = []
    · rw [isMore] at isIndex
      rcases List.map_eq_singleton_iff.mp isIndex with ⟨only, rfl, -⟩
      rw [List.mem_singleton.mp isEntry]
      exact .inr rfl
    · exact .inl (isFull isMore entry isEntry)
  have notShorter : ∀ entry ∈ entries,
      state.minimumRenderHeight entry.index ≤ entry.rect.height := by
    intro entry isEntry
    rcases (isMember isEntry).1 with ⟨system, isSystem, -⟩
    have isAccepted := accepted system (List.mem_of_getElem? isSystem)
    have isLess := @minimumRenderHeight_le_entryHeight state system entry.index snapshots clean
      normalizeHost isSystem isAccepted
    rcases whole entry isEntry with isWhole | rfl
    · rwa [isWhole]
    · rw [List.map_singleton, List.cons.injEq] at isIndex
      rw [(isHead rfl).2]
      rw [← isIndex.1] at fits
      omega
  refine ⟨?_, ?_, isStacked, ?_, ?_, ?_, ?_, whole⟩
  · rwa [isIndex]
  · intro entry isFirst
    rw [(isHead isFirst).1, isTop]
  · intro entry isEntry
    rcases isMember isEntry with ⟨⟨system, -, y_le, height_le, isFor⟩, isBelow, isAbove, -⟩
    refine ⟨?_, ?_, isTop ▸ isBelow, isBottom ▸ isAbove⟩
    · rw [isFor]
      rfl
    · rw [isFor]
      rfl
  · intro entry isEntry
    rcases isMember isEntry with ⟨⟨system, isSystem, isFor⟩, -, -, notHigher⟩
    exact rows_of_isEntryFor isSystem isFor (notShorter entry isEntry) notHigher
      (accepted system (List.mem_of_getElem? isSystem))
  · intro entry isEntry system isSystem isWhole
    rcases isMember isEntry with ⟨⟨listed, isListed, isFor⟩, -, -, -⟩
    cases isSystem.symm.trans isListed
    exact accounted_of_isEntryFor isSystem isFor isWhole
      (accepted system (List.mem_of_getElem? isSystem))
  · intro entry isEntry
    exact (isMember isEntry).2.2.2

theorem computeViewport_placed (onTerminal : area.y + area.height ≤ u16Max)
    (height_le : area.height ≤ 32767) :
    Placed display snapshots (rendered clean normalizeHost) state area
      (computeViewport (rendered clean normalizeHost) state area state.displayOrder) := by
  have isBounded := @bounded_displayOrder state snapshots clean normalizeHost accepted
  have isPrefix := @isPrefix_shown (rendered clean normalizeHost) state
    (area.height - viewHeaderHeight state.systemViewMode) state.displayOrder
    (state.topPosition state.displayOrder)
  change Placed display snapshots (rendered clean normalizeHost) state area
    (placeEntries (rendered clean normalizeHost) state area _ _ _ _
      (shown (rendered clean normalizeHost) state state.displayOrder
        (state.topPosition state.displayOrder)
        (area.height - viewHeaderHeight state.systemViewMode)))
  cases isShown : shown (rendered clean normalizeHost) state state.displayOrder
      (state.topPosition state.displayOrder)
      (area.height - viewHeaderHeight state.systemViewMode) with
  | nil =>
      exact ⟨List.nil_prefix, fun _ isFirst => absurd isFirst.symm (Option.some_ne_none _), .nil,
        List.forall_mem_nil _, List.forall_mem_nil _, List.forall_mem_nil _, List.forall_mem_nil _,
        List.forall_mem_nil _⟩
  | cons first rest =>
      rw [isShown] at isPrefix
      rcases rowsOf_shown isBounded (by omega) isShown with ⟨fits, restFits⟩
      have isListed : first < state.systems.length :=
        mem_displayOrderOf.mp (List.mem_of_mem_drop (isPrefix.mem List.mem_cons_self))
      have positive := minimumRenderHeight_pos isListed
      have isTop : satAdd16 area.y (viewHeaderHeight state.systemViewMode) =
          area.y + viewHeaderHeight state.systemViewMode := by
        rw [satAdd16]
        omega
      have isBottom : satAdd16 (satAdd16 area.y (viewHeaderHeight state.systemViewMode))
          (area.height - viewHeaderHeight state.systemViewMode) = area.y + area.height := by
        rw [isTop, satAdd16]
        omega
      refine placed_placeEntries accepted isTop isBottom isPrefix ?_ fun isMore => ?_
      · rw [isBottom, isTop]
        omega
      · have isWithin := restFits isMore
        rw [isBottom, isTop]
        omega

omit accepted in
/-- A system that is visible from the top of the window has a card. -/
theorem exists_mem_computeViewport {env : Surroundings} {position index : ℕ}
    (isIndex : state.displayOrder[position]? = some index)
    (isVisible : inRange (visibleRange env state state.displayOrder
      (state.topPosition state.displayOrder)
      (area.height - viewHeaderHeight state.systemViewMode)) position = true) :
    ∃ entry ∈ computeViewport env state area state.displayOrder, entry.index = index ∧
      (state.selectedId = state.idAt index → entry.isSelected = true) := by
  have isShown := mem_shown isIndex isVisible
  have listed : ∀ index ∈ shown env state state.displayOrder (state.topPosition state.displayOrder)
      (area.height - viewHeaderHeight state.systemViewMode), index < state.systems.length := by
    intro index isMember
    exact mem_displayOrderOf.mp (List.mem_of_mem_drop (isPrefix_shown.mem isMember))
  have isPlaced : (computeViewport env state area state.displayOrder).map ViewportEntry.index =
      shown env state state.displayOrder (state.topPosition state.displayOrder)
        (area.height - viewHeaderHeight state.systemViewMode) := index_placeEntries listed
  rw [← isPlaced] at isShown
  rcases List.mem_map.mp isShown with ⟨entry, isEntry, rfl⟩
  refine ⟨entry, isEntry, rfl, fun isSelected => ?_⟩
  rcases (mem_placeEntries listed (Nat.le_min.mpr ⟨Nat.le_add_right _ _, satAdd16_le _ _⟩)
    isEntry).1 with ⟨system, isSystem, _, _, isFor⟩
  rw [idAt, isSystem] at isSelected
  rw [isFor]
  exact decide_eq_true isSelected

omit accepted in
/-- After the window was adjusted, the selected system has a card. -/
theorem exists_selected_computeViewport (distinct : (state.systems.map (·.id)).Nodup)
    (isTerminal : state.terminalSize = some (area.width, area.height)) {index : ℕ}
    (isListed : index < state.systems.length) (isSelected : state.selectedId = state.idAt index)
    (fits : viewHeaderHeight state.systemViewMode + state.minimumRenderHeight index ≤ area.height) :
    ∃ entry ∈ computeViewport (rendered clean normalizeHost)
        (state.ensureSelectedVisible (rendered clean normalizeHost)) area state.displayOrder,
      entry.index = index ∧ entry.isSelected = true := by
  have seen := @selectedVisible_ensureSelectedVisible (rendered clean normalizeHost) state
    (desiredRows_window CronPane.streamRows) distinct
  rcases @exists_top_ensureSelectedVisibleWithOrder (rendered clean normalizeHost) state
    state.displayOrder with ⟨top, isMoved⟩
  rw [ensureSelectedVisible, isMoved] at seen ⊢
  rcases idAt_eq_some isListed with ⟨id, isId, -⟩
  rcases List.getElem?_of_mem (mem_displayOrderOf.mpr isListed) with ⟨position, isIndex⟩
  have isPosition : state.selectedPosition state.displayOrder = some position := by
    rw [selectedPosition, isSelected, isId]
    exact positionOf_idAt distinct isIndex isId
  have isUsable : state.usableHeight = area.height - viewHeaderHeight state.systemViewMode := by
    rw [usableHeight, isTerminal, Option.getD_some]
  have isVisible := seen position index isPosition isIndex
    (show state.minimumRenderHeight index ≤ state.usableHeight by omega)
  change inRange (visibleRange _ _ _ _ state.usableHeight) position = true at isVisible
  rw [isUsable] at isVisible
  rcases @exists_mem_computeViewport { state with viewportTopId := top } area _ _ _ isIndex
    isVisible with ⟨entry, isEntry, isAt, selects⟩
  exact ⟨entry, isEntry, isAt, selects isSelected⟩

/-- The cards of a viewport never overlap, and their rows are accounted for. -/
theorem cards_of_computeViewport (onTerminal : area.y + area.height ≤ u16Max)
    (height_le : area.height ≤ 32767) :
    Placed display snapshots (rendered clean normalizeHost) state area
        (computeViewport (rendered clean normalizeHost) state area state.displayOrder) ∧
      ((state.systems.map (·.id)).Nodup → state.terminalSize = some (area.width, area.height) →
        ∀ index < state.systems.length, state.selectedId = state.idAt index →
          viewHeaderHeight state.systemViewMode + state.minimumRenderHeight index ≤ area.height →
            ∃ entry ∈ computeViewport (rendered clean normalizeHost)
                (state.ensureSelectedVisible (rendered clean normalizeHost)) area
                state.displayOrder,
              entry.index = index ∧ entry.isSelected = true) := by
  refine ⟨computeViewport_placed accepted onTerminal height_le, ?_⟩
  intro distinct isTerminal index isListed isSelected fits
  exact exists_selected_computeViewport distinct isTerminal isListed isSelected fits

end Viewport

section Fleet

def display : NetworkDisplay where
  toMetricDisplay := MetricBars.idleDisplay
  formatBits := toString

/-- A snapshot with one drive and two interfaces. -/
def busySnapshot : Fleet.NormalizedSnapshot :=
  { MetricBars.idleSnapshot with
    drives := some [{ name := "/", usedBytes := 1, totalBytes := 2, availableBytes := none }]
    network := some
      { aggregateRxBytesPerSec := 0, aggregateTxBytesPerSec := 0
        aggregateRxCapacityBps := none, aggregateTxCapacityBps := none
        interfaces := ["eth0", "eth1"].map fun name =>
          { id := name, name, rxBytesPerSec := 0, txBytesPerSec := 0, rxCapacityBps := none
            txCapacityBps := none, isLoopback := false, aggregateMember := true } } }

/-- An online system with all its details open, and an offline one. -/
def twoSystems : AppState :=
  { CronPane.oneJob with
    systems :=
      [{  id := "b", endpoint := ⟨"b", "b", 9100, none⟩, configuredName := none
          reachability := .offline, latest := none },
        { id := "a", endpoint := ⟨"a", "a", 9100, none⟩, configuredName := none
          reachability := .online, latest := some (keptOf busySnapshot) }]
    terminalSize := some (80, 24)
    drivesExpanded := true
    networkExpanded := true }

theorem accepted_twoSystems : ∀ system ∈ twoSystems.systems, system.reachability = .online →
    Accepted (fun _ => busySnapshot) system := by
  intro system isSystem online
  rcases List.mem_pair.mp isSystem with rfl | rfl
  · cases online
  · refine ⟨rfl, by decide, ?_⟩
    intro network isNetwork
    cases isNetwork
    decide

/-- The first card takes the base block, a drive, the network with its two interfaces and three rows
of the scheduler. -/
theorem cards_of_computeViewport_twoSystems :
    Placed display (fun _ => busySnapshot) (rendered id some) twoSystems
        ⟨0, 0, 80, 24, by decide, by decide⟩
        (computeViewport (rendered id some) twoSystems ⟨0, 0, 80, 24, by decide, by decide⟩
          twoSystems.displayOrder) ∧
      (∃ entry ∈ computeViewport (rendered id some)
          (twoSystems.ensureSelectedVisible (rendered id some))
          ⟨0, 0, 80, 24, by decide, by decide⟩ twoSystems.displayOrder,
        entry.index = 1 ∧ entry.isSelected = true) ∧
      (computeViewport (rendered id some) twoSystems ⟨0, 0, 80, 24, by decide, by decide⟩
          twoSystems.displayOrder).map (fun entry => (entry.index, entry.rect.y, entry.rect.height,
            entry.driveRowsVisible, entry.networkRowsVisible, entry.cronRowsVisible)) =
        [(1, 0, 13, 1, 3, 3), (0, 13, 1, 0, 0, 0)] := by
  have cards := @cards_of_computeViewport twoSystems ⟨0, 0, 80, 24, by decide, by decide⟩
    (fun _ => busySnapshot) id some display accepted_twoSystems (by decide) (by decide)
  refine ⟨cards.1, cards.2 (by decide) rfl 1 (by decide) (by decide) (by decide), ?_⟩
  decide +kernel

/-- A system with 25 jobs, of which the first printed eight lines. -/
def printing : AppState :=
  { AppState.blank with
    systems :=
      [{  id := "a", endpoint := ⟨"a", "a", 9100, none⟩, configuredName := none
          reachability := .online, latest := some (keptOf MetricBars.idleSnapshot) }]
    cron :=
      [{  systemId := "a"
          summary := some
            { schemaVersion := 2, generatedAtUnixMs := 0, epoch := ⟨0, 0⟩, historyRevision := 0
              jobs := (List.range 25).map fun index =>
                { name := toString index, schedule := "0 3 * * *", nextDueUnixMs := 0
                  state := .idle, load := none, pendingSinceUnixMs := none
                  nextRetryUnixMs := none, runningSinceUnixMs := none, last := none } }
          lastError := none
          history :=
            [{  job := "0"
                records :=
                  [⟨⟨0, 0⟩,
                    { sequence := 0, scheduledUnixMs := 0, startedUnixMs := some 0
                      finishedUnixMs := 0, outcome := .success, exitCode := some 0, signal := none
                      durationMs := some 0, delayMs := 0, coalesced := false
                      stdout := ⟨(List.replicate 8 'x').intersperse '\n', false⟩
                      stderr := ⟨[], false⟩ }⟩] }] }]
    cronDisplayHistory := 8
    selectedId := some "a"
    terminalSize := some (80, 50)
    cronExpanded := true }

/-- The block has one row more than its ceiling. The card is given as many rows as that is, but the
window of the table that shrinks for it leaves two of them empty. -/
theorem not_accounted_printing :
    (∀ system ∈ printing.systems, Accepted (fun _ => MetricBars.idleSnapshot) system) ∧
      blockLength printing = 36 ∧
      (computeViewport (rendered id some) printing ⟨0, 0, 80, 50, by decide, by decide⟩
          printing.displayOrder).map (fun entry =>
            (entry.rect.height, entry.cronRowsVisible)) = [(40, 35)] ∧
      entryHeight (rendered id some) printing 0 = 40 ∧
      printing.systems.map (fun system => (cronLines printing system 35).length) = [33] ∧
      ¬∀ entry ∈ computeViewport (rendered id some) printing ⟨0, 0, 80, 50, by decide, by decide⟩
          printing.displayOrder, ∀ system ∈ printing.systems,
        entry.rect.height = entryHeight (rendered id some) printing entry.index →
          entry.cronRowsVisible = (cronLines printing system entry.cronRowsVisible).length := by
  refine ⟨?_, by decide +kernel, by decide +kernel, by decide +kernel, by decide +kernel,
    by decide +kernel⟩
  intro system isSystem
  rw [List.mem_singleton.mp isSystem]
  exact ⟨rfl, by decide, fun _ isNetwork => absurd isNetwork.symm (Option.some_ne_none _)⟩

end Fleet

end Gregg.Tui.Viewport
