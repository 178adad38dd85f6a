import Gregg.Tui.Selection

/-!
# The presentation of a frontend

A key action changes what one frontend owns and no published data, and a document is laid under what
the frontend owned before. So whatever an action or a repair does to the render model, it comes down
to another presentation of the same fleet.
-/

namespace Gregg.Tui

open Gregg.Clientd

/-- Presentation-only state a frontend owns. -/
structure PresentationState where
  selectedId : Option String
  viewportTopId : Option String
  activePane : Pane
  systemViewMode : SystemViewMode
  drivesExpanded : Bool
  networkExpanded : Bool
  cronExpanded : Bool
  cronJob : Option String
  selectionHighlightActive : Bool

namespace AppState

/-- The same data under another presentation, on a terminal of another size, with another period
asked for. -/
def present (state : AppState) (presentation : PresentationState) (size : Option (ℕ × ℕ))
    (request : Option EggpoolPeriod) : AppState :=
  { state with
    selectedId := presentation.selectedId
    viewportTopId := presentation.viewportTopId
    terminalSize := size
    activePane := presentation.activePane
    systemViewMode := presentation.systemViewMode
    drivesExpanded := presentation.drivesExpanded
    networkExpanded := presentation.networkExpanded
    cronExpanded := presentation.cronExpanded
    cronJob := presentation.cronJob
    selectionHighlightActive := presentation.selectionHighlightActive
    eggpoolPeriodRequest := request }

def presentation (state : AppState) : PresentationState where
  selectedId := state.selectedId
  viewportTopId := state.viewportTopId
  activePane := state.activePane
  systemViewMode := state.systemViewMode
  drivesExpanded := state.drivesExpanded
  networkExpanded := state.networkExpanded
  cronExpanded := state.cronExpanded
  cronJob := state.cronJob
  selectionHighlightActive := state.selectionHighlightActive

/-- Only the presentation differs. -/
def Presents (before after : AppState) : Prop :=
  after = before.present after.presentation after.terminalSize after.eggpoolPeriodRequest

variable {env : Surroundings} {state before after : AppState}

theorem Presents.refl : Presents state state :=
  rfl

theorem Presents.trans {first second third : AppState} (left : Presents first second)
    (right : Presents second third) : Presents first third := by
  rw [Presents] at left right ⊢
  rw [left] at right
  exact right

theorem presents_ensureSelectedVisibleWithOrder {order : List ℕ} :
    Presents state (state.ensureSelectedVisibleWithOrder env order) := by
  rcases @exists_top_ensureSelectedVisibleWithOrder env state order with ⟨top, isTop⟩
  rw [isTop]
  rfl

theorem Presents.visible (presents : Presents before after) :
    Presents before (after.ensureSelectedVisible env) :=
  presents.trans presents_ensureSelectedVisibleWithOrder

section Actions

theorem presents_onSystems (presents : Presents state after) :
    Presents state (state.onSystems after) := by
  rw [onSystems]
  split
  · exact presents
  · exact .refl

theorem presents_moveSelection {order : List ℕ} {offset : ℤ} :
    Presents state (state.moveSelection order offset) := by
  rw [moveSelection]
  split <;> rfl

theorem presents_select {selected : List ℕ → AppState}
    (presents : ∀ order, Presents state (selected order)) :
    Presents state (state.select env selected) := by
  have highlighted : Presents (selected state.displayOrder)
      { selected state.displayOrder with selectionHighlightActive := true } := rfl
  exact ((presents state.displayOrder).trans highlighted).trans
    presents_ensureSelectedVisibleWithOrder

theorem presents_requestEggpoolPeriod {wantsLonger : Bool} :
    Presents state (state.requestEggpoolPeriod wantsLonger) := by
  rcases @requestEggpoolPeriod_eq state wantsLonger with ⟨request, isRequest⟩
  rw [isRequest]
  rfl

theorem presents_toggleCron : Presents state state.toggleCron := by
  rw [toggleCron]
  split <;> rfl

theorem presents_stepCronJob {delta : ℤ} : Presents state (state.stepCronJob delta) := by
  rw [stepCronJob]
  split <;> rfl

/-- No action changes published data. -/
theorem presents_applyAction {action : Action} :
    Presents state (state.applyAction env action) := by
  have moved : ∀ offset, Presents state
      (state.select env fun order => state.moveSelection order offset) := fun offset =>
    presents_select fun _ => presents_moveSelection
  cases action with
  | moveDown | moveUp =>
      rw [applyAction]
      split
      · exact presents_requestEggpoolPeriod.visible
      · exact moved _
  | pageDown | pageUp =>
      exact presents_onSystems (presents_select fun _ => presents_moveSelection)
  | selectFirst | selectLast =>
      apply presents_onSystems
      apply presents_select
      intro order
      rfl
  | toggleCron => exact presents_onSystems presents_toggleCron.visible
  | cronJobNext | cronJobPrevious => exact presents_onSystems presents_stepCronJob.visible
  | refreshNow | quit => exact .refl
  | previousPane | nextPane | clearSelectionHighlight | resize _ _ =>
      apply Presents.visible
      rfl
  | toggleSystemView | toggleDrives | toggleNetwork =>
      apply presents_onSystems
      apply Presents.visible
      rfl

end Actions

section Repairs

theorem presents_placeAtTop : Presents state state.placeAtTop := by
  rw [placeAtTop]
  split <;> rfl

theorem presents_repairIds : Presents state state.repairIds := by
  rw [repairIds]
  split <;> rfl

theorem presents_repairSelection {selectionBefore : Option SystemPlacement} :
    Presents state (state.repairSelection env selectionBefore) := by
  rw [repairSelection]
  split <;> rfl

theorem presents_repairCronSelection : Presents state state.repairCronSelection :=
  rfl

theorem presents_repairViewportAnchor {anchorBefore : Option SystemPlacement} :
    Presents state (state.repairViewportAnchor env anchorBefore) := by
  rw [repairViewportAnchor]
  split <;> rfl

/-- The repairs of an adopted document leave its fleet alone. -/
theorem presents_adoptSnapshotInner {document : FrontendSnapshot} :
    Presents (state.replaceFleet env document) (state.adoptSnapshotInner env document) := by
  have placed : Presents (state.replaceFleet env document)
      (if state.lastSnapshotGeneration = 0 then (state.replaceFleet env document).placeFirst
        else (state.replaceFleet env document).repairIds) := by
    split
    · rfl
    · exact presents_repairIds
  have repaired : ∀ selected anchor, Presents (state.replaceFleet env document)
      (((if state.lastSnapshotGeneration = 0 then (state.replaceFleet env document).placeFirst
        else (state.replaceFleet env document).repairIds).repairSelection env
          selected).repairCronSelection.repairViewportAnchor env anchor) := by
    intro selected anchor
    exact ((placed.trans presents_repairSelection).trans presents_repairCronSelection).trans
      presents_repairViewportAnchor
  rw [adoptSnapshotInner]
  apply Presents.visible
  split
  · exact (repaired _ _).trans presents_placeAtTop
  · exact repaired _ _

end Repairs

end AppState

end Gregg.Tui
