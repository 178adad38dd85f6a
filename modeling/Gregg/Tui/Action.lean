import Gregg.Tui.Adopt

/-!
# Key actions

What an action does to the presentation. The EggPool window is owned by the daemon, so on its pane
the arrow keys only record a request.
-/

namespace Gregg.Tui

open Gregg.Clientd

inductive Action where
  | moveDown
  | moveUp
  | pageDown
  | pageUp
  | selectFirst
  | selectLast
  | previousPane
  | nextPane
  | toggleSystemView
  | toggleDrives
  | toggleNetwork
  | toggleCron
  | cronJobNext
  | cronJobPrevious
  | refreshNow
  | clearSelectionHighlight
  | resize (width height : ℕ)
  | quit
  deriving DecidableEq

namespace AppState

/-- Record the window the operator asked for. -/
def requestEggpoolPeriod (state : AppState) (wantsLonger : Bool) : AppState :=
  match state.eggpool with
  | none => state
  | some eggpool =>
      let next := if wantsLonger then eggpool.period.longer else eggpool.period.shorter
      if next = eggpool.period ∨ state.eggpoolPeriodRequest = some next then state
      else { state with eggpoolPeriodRequest := some next }

def cyclePane (state : AppState) : AppState :=
  let pane :=
    match state.activePane, state.systems.isEmpty, state.eggpool.isSome with
    | .systems, false, true => .eggpool
    | .eggpool, false, true => .systems
    | pane, _, _ => pane
  { state with
    activePane := pane
    selectionHighlightActive :=
      if state.activePane = .systems ∧ pane ≠ .systems then false
      else state.selectionHighlightActive }

/-- Move the selection by an offset in display order, clamped to its ends. -/
def moveSelection (state : AppState) (order : List ℕ) (offset : ℤ) : AppState :=
  if order = [] then { state with selectedId := none }
  else
    let current := (state.selectedId.bind (state.positionOf order)).getD 0
    let moved := if 0 ≤ offset then current + offset.natAbs else current - offset.natAbs
    { state with selectedId := order[min moved (order.length - 1)]?.bind state.idAt }

/-- The loop of `page_size`: how many of these entries fit, after some used `rows`. -/
def pageFrom (env : Surroundings) (state : AppState) (height : ℕ) : ℕ → ℕ → List ℕ → ℕ
  | _, count, [] => max count 1
  | rows, count, index :: rest =>
      let total := wrapAdd16 rows (state.entryHeight env index)
      if height < total then count
      else pageFrom env state height total (count + 1) rest

/-- How many systems a page skips: none when not even the top one fits. -/
def pageSize (env : Surroundings) (state : AppState) (order : List ℕ) : ℤ :=
  let height :=
    (state.terminalSize.map Prod.snd).getD 24 - viewHeaderHeight state.systemViewMode
  let top := (state.viewportTopId.bind (state.positionOf order)).getD 0
  (pageFrom env state height 0 0 (order.drop top) : ℕ)

/-- A selection-changing action on the Systems pane. -/
def select (env : Surroundings) (state : AppState) (selected : List ℕ → AppState) : AppState :=
  let order := state.displayOrder
  { selected order with selectionHighlightActive := true }.ensureSelectedVisibleWithOrder env order

/-- Whether the selected system is online and reports its network. -/
def hasNetwork (state : AppState) : Bool :=
  match state.selectedId.bind fun id => state.systems.find? fun system => system.id = id with
  | some system =>
      system.reachability = .online &&
        (system.latest.bind NormalizedSnapshot.network).isSome
  | none => false

def toggleCron (state : AppState) : AppState :=
  let toggled := { state with cronExpanded := !state.cronExpanded }
  if toggled.cronExpanded then toggled.repairCronSelection else toggled

/-- Actions that only the Systems pane knows; on the other one nothing happens at all. -/
def onSystems (state : AppState) (changed : AppState) : AppState :=
  match state.activePane with
  | .systems => changed
  | .eggpool => state

def applyAction (env : Surroundings) (state : AppState) (action : Action) : AppState :=
  match action with
  | .moveDown =>
      match state.activePane with
      | .eggpool => (state.requestEggpoolPeriod true).ensureSelectedVisible env
      | .systems => state.select env fun order => state.moveSelection order 1
  | .moveUp =>
      match state.activePane with
      | .eggpool => (state.requestEggpoolPeriod false).ensureSelectedVisible env
      | .systems => state.select env fun order => state.moveSelection order (-1)
  | .pageDown =>
      state.onSystems (state.select env fun order =>
        state.moveSelection order (state.pageSize env order))
  | .pageUp =>
      state.onSystems (state.select env fun order =>
        state.moveSelection order (-state.pageSize env order))
  | .selectFirst =>
      state.onSystems (state.select env fun order =>
        { state with selectedId := order.head?.bind state.idAt })
  | .selectLast =>
      state.onSystems (state.select env fun order =>
        { state with selectedId := order.getLast?.bind state.idAt })
  | .previousPane | .nextPane => state.cyclePane.ensureSelectedVisible env
  | .clearSelectionHighlight =>
      { state with selectionHighlightActive := false }.ensureSelectedVisible env
  | .toggleSystemView =>
      let mode := match state.systemViewMode with
        | .normal => .condensed
        | .condensed => .normal
      state.onSystems ({ state with systemViewMode := mode }.ensureSelectedVisible env)
  | .toggleDrives =>
      state.onSystems
        ({ state with drivesExpanded := !state.drivesExpanded }.ensureSelectedVisible env)
  | .toggleNetwork =>
      let expanded := if state.hasNetwork then !state.networkExpanded else state.networkExpanded
      state.onSystems ({ state with networkExpanded := expanded }.ensureSelectedVisible env)
  | .toggleCron => state.onSystems (state.toggleCron.ensureSelectedVisible env)
  | .cronJobNext => state.onSystems ((state.stepCronJob 1).ensureSelectedVisible env)
  | .cronJobPrevious => state.onSystems ((state.stepCronJob (-1)).ensureSelectedVisible env)
  | .resize width height =>
      { state with terminalSize := some (width, height) }.ensureSelectedVisible env
  | .refreshNow | .quit => state

variable {env : Surroundings} {state : AppState} {action : Action}

/-- Without an EggPool entry, an action neither moves the pane nor asks for a window. -/
structure KeepsEggpool (before after : AppState) : Prop where
  eggpool : after.eggpool = before.eggpool
  withoutEntry : before.eggpool = none → SameEggpool before after

theorem SameEggpool.keeps {before after : AppState} (same : SameEggpool before after) :
    KeepsEggpool before after where
  eggpool := same.eggpool
  withoutEntry := fun _ => same

theorem KeepsEggpool.visible {after : AppState} (keeps : KeepsEggpool state after) :
    KeepsEggpool state (after.ensureSelectedVisible env) where
  eggpool := sameEggpool_ensureSelectedVisible.eggpool.trans keeps.eggpool
  withoutEntry := fun none => (keeps.withoutEntry none).trans sameEggpool_ensureSelectedVisible

theorem keepsEggpool_requestEggpoolPeriod {wantsLonger : Bool} :
    KeepsEggpool state (state.requestEggpoolPeriod wantsLonger) := by
  unfold requestEggpoolPeriod
  split
  · exact ⟨rfl, fun _ => ⟨rfl, rfl, rfl⟩⟩
  · rename_i entry
    constructor
    · simp only [apply_ite AppState.eggpool, ite_self]
    · intro none
      rw [none] at entry
      cases entry

theorem keepsEggpool_cyclePane : KeepsEggpool state state.cyclePane := by
  refine ⟨rfl, ?_⟩
  intro none
  refine ⟨?_, rfl, rfl⟩
  simp [cyclePane, none]

theorem sameEggpool_moveSelection {order : List ℕ} {offset : ℤ} :
    SameEggpool state (state.moveSelection order offset) := by
  unfold moveSelection
  split <;> exact ⟨rfl, rfl, rfl⟩

theorem sameEggpool_select {selected : List ℕ → AppState}
    (same : ∀ order, SameEggpool state (selected order)) :
    SameEggpool state (state.select env selected) := by
  have highlighted : SameEggpool (selected state.displayOrder)
      { selected state.displayOrder with selectionHighlightActive := true } := ⟨rfl, rfl, rfl⟩
  exact ((same state.displayOrder).trans highlighted).trans
    sameEggpool_ensureSelectedVisibleWithOrder

theorem keepsEggpool_onSystems {changed : AppState} (keeps : KeepsEggpool state changed) :
    KeepsEggpool state (state.onSystems changed) := by
  unfold onSystems
  split
  · exact keeps
  · exact ⟨rfl, fun _ => ⟨rfl, rfl, rfl⟩⟩

theorem sameEggpool_clearSelectionHighlight :
    SameEggpool state (state.applyAction env .clearSelectionHighlight) := by
  have highlighted : SameEggpool state { state with selectionHighlightActive := false } :=
    ⟨rfl, rfl, rfl⟩
  exact highlighted.trans sameEggpool_ensureSelectedVisible

theorem sameEggpool_toggleCron : SameEggpool state state.toggleCron := by
  unfold toggleCron
  simp only
  split <;> exact ⟨rfl, rfl, rfl⟩

theorem sameEggpool_stepCronJob {delta : ℤ} : SameEggpool state (state.stepCronJob delta) := by
  unfold stepCronJob
  simp only
  split <;> exact ⟨rfl, rfl, rfl⟩

theorem keepsEggpool_applyAction : KeepsEggpool state (state.applyAction env action) := by
  have same : SameEggpool state state := ⟨rfl, rfl, rfl⟩
  cases action with
  | moveDown =>
      simp only [applyAction]
      split
      · exact keepsEggpool_requestEggpoolPeriod.visible
      · exact (sameEggpool_select fun _ => sameEggpool_moveSelection).keeps
  | moveUp =>
      simp only [applyAction]
      split
      · exact keepsEggpool_requestEggpoolPeriod.visible
      · exact (sameEggpool_select fun _ => sameEggpool_moveSelection).keeps
  | pageDown =>
      exact keepsEggpool_onSystems (sameEggpool_select fun _ => sameEggpool_moveSelection).keeps
  | pageUp =>
      exact keepsEggpool_onSystems (sameEggpool_select fun _ => sameEggpool_moveSelection).keeps
  | selectFirst =>
      apply keepsEggpool_onSystems
      apply SameEggpool.keeps
      apply sameEggpool_select
      intro order
      exact ⟨rfl, rfl, rfl⟩
  | selectLast =>
      apply keepsEggpool_onSystems
      apply SameEggpool.keeps
      apply sameEggpool_select
      intro order
      exact ⟨rfl, rfl, rfl⟩
  | previousPane => exact keepsEggpool_cyclePane.visible
  | nextPane => exact keepsEggpool_cyclePane.visible
  | toggleCron => exact keepsEggpool_onSystems sameEggpool_toggleCron.keeps.visible
  | cronJobNext => exact keepsEggpool_onSystems sameEggpool_stepCronJob.keeps.visible
  | cronJobPrevious => exact keepsEggpool_onSystems sameEggpool_stepCronJob.keeps.visible
  | toggleSystemView =>
      apply keepsEggpool_onSystems
      exact KeepsEggpool.visible ⟨rfl, fun _ => ⟨rfl, rfl, rfl⟩⟩
  | toggleDrives =>
      apply keepsEggpool_onSystems
      exact KeepsEggpool.visible ⟨rfl, fun _ => ⟨rfl, rfl, rfl⟩⟩
  | toggleNetwork =>
      apply keepsEggpool_onSystems
      exact KeepsEggpool.visible ⟨rfl, fun _ => ⟨rfl, rfl, rfl⟩⟩
  | clearSelectionHighlight => exact sameEggpool_clearSelectionHighlight.keeps
  | resize width height => exact KeepsEggpool.visible ⟨rfl, fun _ => ⟨rfl, rfl, rfl⟩⟩
  | refreshNow => exact same.keeps
  | quit => exact same.keeps

end AppState

end Gregg.Tui
