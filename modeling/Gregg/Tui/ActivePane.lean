import Gregg.Tui.EventLoop

/-!
# The open pane

A first document chooses the pane; after it only the pane keys do, and they move only while both
panes have content. Every later document may take the content of the open pane away.
-/

namespace Gregg.Tui

open Gregg.Clientd

/-- The keys that switch the pane. -/
def Action.SwitchesPane (action : Action) : Prop :=
  action = .previousPane ∨ action = .nextPane

namespace AppState

variable {env : Surroundings} {state : AppState} {action : Action} {snapshot : FrontendSnapshot}

/-- Whether a pane has something to show. -/
def paneHasContent (state : AppState) : Pane → Bool
  | .systems => !state.systems.isEmpty
  | .eggpool => state.eggpool.isSome

/-- The EggPool pane is open only with an entry, and some pane with content can be switched to
whenever there is one. -/
structure PaneExists (env : Surroundings) (state : AppState) : Prop where
  eggpoolOpen : state.activePane = .eggpool → state.eggpool.isSome = true
  reachable : (∃ pane, state.paneHasContent pane = true) →
    ∃ keys : List Action, (∀ key ∈ keys, Action.SwitchesPane key) ∧
      (keys.foldl (applyAction env) state).paneHasContent
        (keys.foldl (applyAction env) state).activePane = true

/-- The open pane has content, unless no pane has any and the Systems pane is open. -/
structure PaneFilled (state : AppState) : Prop where
  eggpoolOpen : state.activePane = .eggpool → state.eggpool.isSome = true
  systemsOpen : state.activePane = .systems → state.systems = [] → state.eggpool = none

section Frame

/-- What the panes show, and which one is open. -/
structure SamePanes (before after : AppState) : Prop where
  systems : after.systems = before.systems
  eggpool : after.eggpool = before.eggpool
  activePane : after.activePane = before.activePane

theorem SamePanes.trans {first second third : AppState} (left : SamePanes first second)
    (right : SamePanes second third) : SamePanes first third where
  systems := right.systems.trans left.systems
  eggpool := right.eggpool.trans left.eggpool
  activePane := right.activePane.trans left.activePane

theorem samePanes_ensureSelectedVisibleWithOrder {order : List ℕ} :
    SamePanes state (state.ensureSelectedVisibleWithOrder env order) := by
  have same : SameEggpool state (state.ensureSelectedVisibleWithOrder env order) :=
    sameEggpool_ensureSelectedVisibleWithOrder
  refine ⟨?_, same.eggpool, same.activePane⟩
  unfold ensureSelectedVisibleWithOrder
  split
  · rfl
  · simp only
    split
    · rfl
    · split
      · rfl
      · split <;> rfl

theorem samePanes_ensureSelectedVisible :
    SamePanes state (state.ensureSelectedVisible env) :=
  samePanes_ensureSelectedVisibleWithOrder

theorem SamePanes.visible {after : AppState} (same : SamePanes state after) :
    SamePanes state (after.ensureSelectedVisible env) :=
  same.trans samePanes_ensureSelectedVisible

theorem samePanes_placeAtTop : SamePanes state state.placeAtTop := by
  unfold placeAtTop
  split <;> exact ⟨rfl, rfl, rfl⟩

theorem samePanes_repairViewportAnchor {anchor : Option SystemPlacement} :
    SamePanes state (state.repairViewportAnchor env anchor) := by
  unfold repairViewportAnchor
  split <;> exact ⟨rfl, rfl, rfl⟩

theorem samePanes_repairSelection {selection : Option SystemPlacement} :
    SamePanes state (state.repairSelection env selection) := by
  unfold repairSelection
  split <;> exact ⟨rfl, rfl, rfl⟩

theorem systems_repairIds : state.repairIds.systems = state.systems := by
  unfold repairIds
  simp only
  split <;> rfl

theorem systems_adoptSnapshot (newer : snapshot.isNewerThan state.lastSnapshotGeneration = true) :
    (state.adoptSnapshot env snapshot).systems = snapshot.systems.map (cleanSystem env.clean) := by
  rw [adoptSnapshot, if_pos newer]
  unfold adoptSnapshotInner
  simp only
  rw [samePanes_ensureSelectedVisible.systems]
  have placed : (if state.lastSnapshotGeneration = 0 then
      (state.replaceFleet env snapshot).placeFirst
      else (state.replaceFleet env snapshot).repairIds).systems =
        snapshot.systems.map (cleanSystem env.clean) := by
    split
    · rfl
    · rw [systems_repairIds]
      rfl
  split
  · rw [samePanes_placeAtTop.systems, samePanes_repairViewportAnchor.systems]
    apply Eq.trans samePanes_repairSelection.systems placed
  · rw [samePanes_repairViewportAnchor.systems]
    apply Eq.trans samePanes_repairSelection.systems placed

theorem samePanes_moveSelection {order : List ℕ} {offset : ℤ} :
    SamePanes state (state.moveSelection order offset) := by
  unfold moveSelection
  split <;> exact ⟨rfl, rfl, rfl⟩

theorem samePanes_requestEggpoolPeriod {wantsLonger : Bool} :
    SamePanes state (state.requestEggpoolPeriod wantsLonger) := by
  unfold requestEggpoolPeriod
  split
  · exact ⟨rfl, rfl, rfl⟩
  · simp only
    generalize (if wantsLonger = true then _ else _ : EggpoolPeriod) = next
    split <;> exact ⟨rfl, rfl, rfl⟩

theorem samePanes_stepCronJob {delta : ℤ} : SamePanes state (state.stepCronJob delta) := by
  unfold stepCronJob
  simp only
  split <;> exact ⟨rfl, rfl, rfl⟩

theorem samePanes_toggleCron : SamePanes state state.toggleCron := by
  unfold toggleCron
  simp only
  split <;> exact ⟨rfl, rfl, rfl⟩

theorem samePanes_select {selected : List ℕ → AppState}
    (same : ∀ order, SamePanes state (selected order)) :
    SamePanes state (state.select env selected) := by
  have highlighted : SamePanes (selected state.displayOrder)
      { selected state.displayOrder with selectionHighlightActive := true } := ⟨rfl, rfl, rfl⟩
  exact ((same state.displayOrder).trans highlighted).trans
    samePanes_ensureSelectedVisibleWithOrder

theorem samePanes_onSystems {changed : AppState} (same : SamePanes state changed) :
    SamePanes state (state.onSystems changed) := by
  unfold onSystems
  split
  · exact same
  · exact ⟨rfl, rfl, rfl⟩

theorem samePanes_applyAction (other : ¬action.SwitchesPane) :
    SamePanes state (state.applyAction env action) := by
  cases action with
  | moveDown =>
      simp only [applyAction]
      split
      · exact samePanes_requestEggpoolPeriod.visible
      · exact samePanes_select fun _ => samePanes_moveSelection
  | moveUp =>
      simp only [applyAction]
      split
      · exact samePanes_requestEggpoolPeriod.visible
      · exact samePanes_select fun _ => samePanes_moveSelection
  | pageDown => exact samePanes_onSystems (samePanes_select fun _ => samePanes_moveSelection)
  | pageUp => exact samePanes_onSystems (samePanes_select fun _ => samePanes_moveSelection)
  | selectFirst => exact samePanes_onSystems (samePanes_select fun _ => ⟨rfl, rfl, rfl⟩)
  | selectLast => exact samePanes_onSystems (samePanes_select fun _ => ⟨rfl, rfl, rfl⟩)
  | previousPane => exact absurd (.inl rfl) other
  | nextPane => exact absurd (.inr rfl) other
  | toggleSystemView => exact samePanes_onSystems (SamePanes.visible ⟨rfl, rfl, rfl⟩)
  | toggleDrives => exact samePanes_onSystems (SamePanes.visible ⟨rfl, rfl, rfl⟩)
  | toggleNetwork => exact samePanes_onSystems (SamePanes.visible ⟨rfl, rfl, rfl⟩)
  | toggleCron => exact samePanes_onSystems samePanes_toggleCron.visible
  | cronJobNext => exact samePanes_onSystems samePanes_stepCronJob.visible
  | cronJobPrevious => exact samePanes_onSystems samePanes_stepCronJob.visible
  | clearSelectionHighlight => exact SamePanes.visible ⟨rfl, rfl, rfl⟩
  | resize width height => exact SamePanes.visible ⟨rfl, rfl, rfl⟩
  | refreshNow => exact ⟨rfl, rfl, rfl⟩
  | quit => exact ⟨rfl, rfl, rfl⟩

theorem samePanes_switchesPane (switches : action.SwitchesPane) :
    SamePanes state.cyclePane (state.applyAction env action) := by
  rcases switches with rfl | rfl
  · exact SamePanes.visible ⟨rfl, rfl, rfl⟩
  · exact SamePanes.visible ⟨rfl, rfl, rfl⟩

end Frame

/-- What a document has to bring for the open pane to stay filled; a first one chooses the pane. -/
structure KeepsOpenPane (state : AppState) (snapshot : FrontendSnapshot) : Prop where
  eggpoolOpen : state.activePane = .eggpool → snapshot.eggpool.isSome = true
  systemsOpen : state.activePane = .systems → snapshot.systems = [] → snapshot.eggpool = none

theorem PaneFilled.of_same {after : AppState} (filled : PaneFilled state)
    (same : SamePanes state after) : PaneFilled after := by
  rcases same with ⟨systems, eggpool, activePane⟩
  rcases filled with ⟨eggpoolOpen, systemsOpen⟩
  constructor
  · rw [activePane, eggpool]
    exact eggpoolOpen
  · rw [activePane, systems, eggpool]
    exact systemsOpen

theorem PaneFilled.cyclePane (filled : PaneFilled state) : PaneFilled state.cyclePane := by
  rcases filled with ⟨eggpoolOpen, systemsOpen⟩
  cases pane : state.activePane with
  | systems =>
      cases entry : state.eggpool with
      | none =>
          constructor <;> simp [AppState.cyclePane, pane, entry]
      | some eggpool =>
          have present : state.systems ≠ [] := by
            intro empty
            simpa [entry] using systemsOpen pane empty
          constructor <;> simp [AppState.cyclePane, pane, entry, present]
  | eggpool =>
      have entry := eggpoolOpen pane
      by_cases empty : state.systems = []
      · constructor <;> simp [AppState.cyclePane, pane, entry, empty]
      · constructor <;> simp [AppState.cyclePane, pane, entry, empty]

theorem PaneFilled.applyAction (filled : PaneFilled state) :
    PaneFilled (state.applyAction env action) := by
  by_cases switches : action.SwitchesPane
  · exact filled.cyclePane.of_same (samePanes_switchesPane switches)
  · exact filled.of_same (samePanes_applyAction switches)

/-- Without systems the pane keys do nothing. -/
theorem samePanes_keys {keys : List Action} (empty : state.systems = [])
    (switching : ∀ key ∈ keys, key.SwitchesPane) :
    SamePanes state (keys.foldl (AppState.applyAction env) state) := by
  induction keys generalizing state with
  | nil => exact ⟨rfl, rfl, rfl⟩
  | cons key keys ih =>
      have stays : SamePanes state state.cyclePane := by
        refine ⟨rfl, rfl, ?_⟩
        cases pane : state.activePane <;> simp [AppState.cyclePane, pane, empty]
      have first : SamePanes state (state.applyAction env key) :=
        stays.trans (samePanes_switchesPane (switching key (by simp)))
      apply first.trans
      apply ih
      · rw [first.systems, empty]
      · intro later member
        exact switching later (by simp [member])

theorem paneExists_iff_filled : PaneExists env state ↔ PaneFilled state := by
  constructor
  · rintro ⟨eggpoolOpen, reachable⟩
    refine ⟨eggpoolOpen, ?_⟩
    intro pane empty
    cases entry : state.eggpool with
    | none => rfl
    | some eggpool =>
        rcases reachable ⟨.eggpool, by simp [paneHasContent, entry]⟩ with ⟨keys, switching, content⟩
        have same : SamePanes state (keys.foldl (AppState.applyAction env) state) :=
          samePanes_keys empty switching
        rw [same.activePane, pane, paneHasContent, same.systems, empty] at content
        cases content
  · rintro ⟨eggpoolOpen, systemsOpen⟩
    refine ⟨eggpoolOpen, ?_⟩
    rintro ⟨pane, content⟩
    refine ⟨[], by simp, ?_⟩
    rw [List.foldl_nil]
    cases opened : state.activePane with
    | eggpool => exact eggpoolOpen opened
    | systems =>
        by_cases empty : state.systems = []
        · have entry := systemsOpen opened empty
          cases pane <;> simp [paneHasContent, empty, entry] at content
        · simpa [paneHasContent] using empty

/-- A document leaves the open pane filled exactly when it is the first one or keeps its content. -/
theorem filled_adoptSnapshot_iff
    (newer : snapshot.isNewerThan state.lastSnapshotGeneration = true) :
    PaneFilled (state.adoptSnapshot env snapshot) ↔
      state.lastSnapshotGeneration = 0 ∨ KeepsOpenPane state snapshot := by
  have adopted : Adopted state snapshot (state.adoptSnapshot env snapshot) :=
    adopted_adoptSnapshot newer
  have systems : (state.adoptSnapshot env snapshot).systems = _ := systems_adoptSnapshot newer
  by_cases first : state.lastSnapshotGeneration = 0
  · refine iff_of_true ?_ (.inl first)
    constructor
    · rw [adopted.activePane, adopted.eggpool]
      simp only [paneAfter, first, if_true]
      cases snapshot.eggpool <;> simp
    · rw [adopted.activePane, adopted.eggpool, systems]
      simp only [paneAfter, first, if_true]
      simp
  · rw [or_iff_right first]
    constructor
    · rintro ⟨eggpoolOpen, systemsOpen⟩
      rw [adopted.activePane, adopted.eggpool] at eggpoolOpen systemsOpen
      rw [systems] at systemsOpen
      simp only [paneAfter, first, if_false] at eggpoolOpen systemsOpen
      exact ⟨by simpa using eggpoolOpen, by simpa using systemsOpen⟩
    · rintro ⟨eggpoolOpen, systemsOpen⟩
      constructor
      · rw [adopted.activePane, adopted.eggpool]
        simpa [paneAfter, first] using eggpoolOpen
      · rw [adopted.activePane, adopted.eggpool, systems]
        simpa [paneAfter, first] using systemsOpen

end AppState

/-- A document that is adopted is the first one or keeps what the open pane shows. -/
def FrontendEvent.KeepsOpenPane (before : Frontend) : FrontendEvent → Prop
  | .document published _ =>
      published.isNewerThan before.app.lastSnapshotGeneration = true →
        before.app.lastSnapshotGeneration = 0 ∨ before.app.KeepsOpenPane published
  | _ => True

namespace Frontend

variable {env : Surroundings} {frontend next : Frontend} {event : FrontendEvent}

theorem start_filled {terminalSize : Option (ℕ × ℕ)} :
    (start env terminalSize).app.PaneFilled := by
  have blank : AppState.blank.PaneFilled := by
    constructor <;> simp [AppState.blank]
  cases terminalSize with
  | none => exact blank
  | some size =>
      have resized : (AppState.blank.applyAction env (.resize size.1 size.2)).PaneFilled :=
        blank.applyAction
      exact resized

theorem filled_iff_of_step (filled : frontend.app.PaneFilled)
    (stepped : step env frontend event = some next) :
    next.app.PaneFilled ↔ event.KeepsOpenPane frontend := by
  cases turns_of_step stepped with
  | action action sink armed dispatched =>
      refine iff_of_true ?_ trivial
      rw [dispatched]
      simp only [dispatchAction_app]
      exact filled.applyAction
  | highlightExpired expired =>
      refine iff_of_true ?_ trivial
      rw [expired]
      have cleared : (frontend.app.applyAction env .clearSelectionHighlight).PaneFilled :=
        filled.applyAction
      exact cleared
  | document document sink applied =>
      rw [applied, applyDocument, retry_app]
      by_cases newer : document.isNewerThan frontend.app.lastSnapshotGeneration = true
      · rw [AppState.filled_adoptSnapshot_iff newer, FrontendEvent.KeepsOpenPane]
        simp [newer]
      · rw [AppState.adoptSnapshot, if_neg newer]
        refine iff_of_true filled ?_
        intro isNewer
        exact absurd isNewer newer

/-- In every run the open pane exists throughout if and only if every adopted document is the first
one or keeps the content of the pane that is open when it comes. -/
theorem everyState_paneExists_iff (env : Surroundings) (terminalSize : Option (ℕ × ℕ))
    (events : List FrontendEvent) :
    Machine.EveryState (step env) (start env terminalSize) events
        (fun frontend => frontend.app.PaneExists env) ↔
      Machine.EveryStep (step env) (start env terminalSize) events
        (fun before event => event.KeepsOpenPane before) := by
  apply Machine.everyState_iff_everyStep
  · exact AppState.paneExists_iff_filled.mpr start_filled
  · intro frontend event next exists_ stepped
    rw [AppState.paneExists_iff_filled] at exists_ ⊢
    exact filled_iff_of_step exists_ stepped
  · intro frontend event refused
    cases event with
    | action _ _ => exact trivial
    | highlightExpired => exact trivial
    | document _ _ => cases refused

section Example

/-- A document of a fleet with these systems, and maybe an EggPool entry. -/
def fleetDocument (generation : ℕ) (systems : List SystemSnapshotDto)
    (eggpool : Option EggpoolSnapshotDto) : FrontendSnapshot where
  generation
  pollInitialized := true
  systems
  cronDisplayHistory := 5
  cron := []
  eggpool

def listedHost : SystemSnapshotDto where
  id := "a"
  endpoint := { id := "a", host := "10.0.0.1", port := 11310, name := none }
  configuredName := none
  reachability := .online
  latest := none

theorem not_everyState_of_unfilled {events : List FrontendEvent} {last : Frontend}
    (ran : Machine.run (step env) (start env none) events = some last)
    (unfilled : ¬last.app.PaneFilled) :
    ¬Machine.EveryState (step env) (start env none) events
      (fun frontend => frontend.app.PaneExists env) := by
  intro everyState
  apply unfilled
  apply AppState.paneExists_iff_filled.mp
  exact everyState events [] last (by simp) ran

/-- A reload that drops the entry of an open EggPool pane leaves that pane open, and one that drops
all systems leaves the operator on the Systems pane although there is an entry. -/
theorem not_paneExists_afterReload :
    ¬Machine.EveryState (step .plain) (start .plain none)
        [.document (fleetDocument 1 [listedHost] (some ⟨.day⟩)) .ready, .action .nextPane .ready,
          .document (fleetDocument 2 [listedHost] none) .ready]
        (fun frontend => frontend.app.PaneExists .plain) ∧
      ¬Machine.EveryState (step .plain) (start .plain none)
        [.document (fleetDocument 1 [listedHost] none) .ready,
          .document (fleetDocument 2 [] (some ⟨.day⟩)) .ready]
        (fun frontend => frontend.app.PaneExists .plain) := by
  constructor
  · apply not_everyState_of_unfilled rfl
    rintro ⟨eggpoolOpen, -⟩
    cases eggpoolOpen rfl
  · apply not_everyState_of_unfilled rfl
    rintro ⟨-, systemsOpen⟩
    cases systemsOpen rfl rfl

end Example

end Frontend

end Gregg.Tui
