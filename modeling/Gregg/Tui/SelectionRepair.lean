import Gregg.Tui.CronIntent
import Gregg.Tui.Selection

/-!
# What the operator is looking at in another fleet

A document repairs the selection, the retained cron job and the window in this order, and the first
one that carries polled reachability selects the top of the display order after that. So the window
and the selection are right in every state of the loop, while the retained job is right exactly
where every system the selection lands on reports it.
-/

namespace Gregg.Tui

open Gregg.Clientd

namespace AppState

variable {env : Surroundings} {state before after : AppState} {id : String}
  {document : FrontendSnapshot}

theorem hasSystem_of_liveReplacement {placement : SystemPlacement}
    (replaced : state.liveReplacement env placement = some id) : state.hasSystem id = true := by
  unfold liveReplacement at replaced
  simp only at replaced
  split at replaced
  · rcases Option.bind_eq_some_iff.mp replaced with ⟨index, -, isId⟩
    exact hasSystem_of_idAt isId
  · cases replaced

theorem Anchored.repairSelection {selectionBefore : Option SystemPlacement}
    (anchored : Anchored state) : Anchored (state.repairSelection env selectionBefore) := by
  unfold AppState.repairSelection
  split
  · rename_i replacement isReplacement
    rcases Option.bind_eq_some_iff.mp isReplacement with ⟨placement, -, replaced⟩
    have listed := listed_of_hasSystem (hasSystem_of_liveReplacement replaced)
    exact ⟨listed.of_systems rfl, anchored.top.of_systems rfl⟩
  · exact anchored

theorem Anchored.repairViewportAnchor {anchorBefore : Option SystemPlacement}
    (anchored : Anchored state) : Anchored (state.repairViewportAnchor env anchorBefore) := by
  unfold AppState.repairViewportAnchor
  split
  · rename_i replacement isReplacement
    rcases Option.bind_eq_some_iff.mp isReplacement with ⟨placement, -, replaced⟩
    have listed := listed_of_hasSystem (hasSystem_of_liveReplacement replaced)
    exact ⟨anchored.selected.of_systems rfl, listed.of_systems rfl⟩
  · exact anchored

theorem Anchored.repairCronSelection (anchored : Anchored state) :
    Anchored state.repairCronSelection :=
  ⟨anchored.selected.of_systems rfl, anchored.top.of_systems rfl⟩

theorem Anchored.placeAtTop (anchored : Anchored state) : Anchored state.placeAtTop := by
  unfold AppState.placeAtTop
  split
  · rename_i id isTop
    rcases Option.bind_eq_some_iff.mp isTop with ⟨index, -, isId⟩
    have listed := listed_of_hasSystem (hasSystem_of_idAt isId)
    exact ⟨listed.of_systems rfl, listed.of_systems rfl⟩
  · exact anchored

theorem anchored_placeFirst : Anchored state.placeFirst :=
  ⟨listed_firstId.of_systems rfl, listed_firstId.of_systems rfl⟩

theorem listed_filter_or {kept other : Option String} (listed : state.Listed other) :
    state.Listed ((kept.filter state.hasSystem).or other) := by
  cases isKept : kept.filter state.hasSystem with
  | none => exact listed
  | some id =>
      apply listed_of_hasSystem
      exact (Option.filter_eq_some_iff.mp isKept).2

theorem anchored_repairIds : Anchored state.repairIds := by
  unfold repairIds
  simp only
  split
  · rename_i isEmpty
    have noSystem := List.isEmpty_iff.mp isEmpty
    exact ⟨(listed_none noSystem).of_systems rfl, (listed_none noSystem).of_systems rfl⟩
  · have selected : state.Listed ((state.selectedId.filter state.hasSystem).or state.firstId) :=
      listed_filter_or listed_firstId
    exact ⟨selected.of_systems rfl, (listed_filter_or selected).of_systems rfl⟩

/-- The system a document leaves selected: the first one for a first document, and otherwise the
selected one while it is listed, with a live host in place of one that has failed. -/
def carriedId (env : Surroundings) (state : AppState) (document : FrontendSnapshot) :
    Option String :=
  let fleet := state.replaceFleet env document
  let kept :=
    if state.lastSnapshotGeneration = 0 then fleet.firstId
    else (state.selectedId.filter fleet.hasSystem).or fleet.firstId
  ((state.selectedId.bind state.placementOf).bind (fleet.liveReplacement env)).or kept

/-- The system at the top of the display order. -/
def topId (state : AppState) : Option String :=
  state.displayOrder.head?.bind state.idAt

/-- The fleet of a document with the selection, the job and the window repaired. -/
def repaired (env : Surroundings) (state : AppState) (document : FrontendSnapshot) : AppState :=
  let replaced := state.replaceFleet env document
  let placed := if state.lastSnapshotGeneration = 0 then replaced.placeFirst else replaced.repairIds
  (placed.repairSelection env (state.selectedId.bind state.placementOf)).repairCronSelection
    |>.repairViewportAnchor env (state.viewportTopId.bind state.placementOf)

theorem adoptSnapshotInner_eq : state.adoptSnapshotInner env document =
    (if !state.sawReachability && document.pollInitialized
      then (state.repaired env document).placeAtTop
      else state.repaired env document).ensureSelectedVisible env :=
  rfl

theorem anchored_repaired : Anchored (state.repaired env document) := by
  unfold repaired
  simp only
  apply Anchored.repairViewportAnchor
  apply Anchored.repairCronSelection
  apply Anchored.repairSelection
  split
  · exact anchored_placeFirst
  · exact anchored_repairIds

/-- The repairs take the systems and their jobs from the document. -/
structure Repaired (env : Surroundings) (state : AppState) (document : FrontendSnapshot)
    (after : AppState) : Prop where
  systems : after.systems = (state.replaceFleet env document).systems
  cron : after.cron = (state.replaceFleet env document).cron
  selectedId : after.selectedId = state.carriedId env document
  cronJob : after.cronJob =
    jobShown ((state.replaceFleet env document).jobNamesOf (state.carriedId env document))
      state.cronJob

theorem liveReplacement_of_systems {placement : SystemPlacement}
    (same : after.systems = before.systems) :
    after.liveReplacement env placement = before.liveReplacement env placement := by
  have sameOrder : after.displayOrder = before.displayOrder := by
    rw [displayOrder, displayOrder, same]
  have sameLive : after.isLiveAt = before.isLiveAt := by
    funext position
    rw [isLiveAt, isLiveAt, sameOrder, same]
  have sameIds : after.idAt = before.idAt := by
    funext index
    rw [idAt, idAt, same]
  rw [liveReplacement, liveReplacement, hasFailed, hasFailed, same, sameOrder, sameLive, sameIds]

theorem selectedId_repairIds :
    state.repairIds.selectedId = (state.selectedId.filter state.hasSystem).or state.firstId := by
  unfold repairIds
  simp only
  split
  · rename_i isEmpty
    have noSystem := List.isEmpty_iff.mp isEmpty
    have nothing : state.Listed ((state.selectedId.filter state.hasSystem).or state.firstId) :=
      listed_filter_or listed_firstId
    exact (nothing.none_iff.mpr noSystem).symm
  · rfl

theorem selectedId_repairSelection {selectionBefore : Option SystemPlacement} :
    (state.repairSelection env selectionBefore).selectedId =
      (selectionBefore.bind (state.liveReplacement env)).or state.selectedId := by
  unfold AppState.repairSelection
  split
  · rename_i replacement isReplacement
    rw [isReplacement]
    rfl
  · rename_i noReplacement
    rw [noReplacement]
    rfl

/-- The fleet and the retained job. -/
structure SameFleet (before after : AppState) : Prop where
  systems : after.systems = before.systems
  cron : after.cron = before.cron
  cronJob : after.cronJob = before.cronJob

theorem sameFleet_repairIds : SameFleet state state.repairIds := by
  unfold repairIds
  simp only
  split <;> exact ⟨rfl, rfl, rfl⟩

theorem sameFleet_repairSelection {selectionBefore : Option SystemPlacement} :
    SameFleet state (state.repairSelection env selectionBefore) := by
  unfold AppState.repairSelection
  split <;> exact ⟨rfl, rfl, rfl⟩

theorem sameSelection_repairViewportAnchor {anchorBefore : Option SystemPlacement} :
    SameSelection state (state.repairViewportAnchor env anchorBefore) := by
  unfold AppState.repairViewportAnchor
  split <;> exact ⟨rfl, rfl, rfl, rfl⟩

theorem jobNamesOf_of_cron {id : Option String} (same : after.cron = before.cron) :
    after.jobNamesOf id = before.jobNamesOf id := by
  rw [jobNamesOf, jobNamesOf]
  unfold cronFor
  rw [same]

theorem repaired_repaired : Repaired env state document (state.repaired env document) := by
  unfold repaired
  simp only
  generalize isPlaced : (if state.lastSnapshotGeneration = 0 then
    (state.replaceFleet env document).placeFirst else (state.replaceFleet env document).repairIds) =
      placed
  have sameFleet : SameFleet (state.replaceFleet env document) placed := by
    rw [← isPlaced]
    split
    · exact ⟨rfl, rfl, rfl⟩
    · exact sameFleet_repairIds
  have isKept : placed.selectedId =
      if state.lastSnapshotGeneration = 0 then (state.replaceFleet env document).firstId
      else (state.selectedId.filter (state.replaceFleet env document).hasSystem).or
        (state.replaceFleet env document).firstId := by
    rw [← isPlaced]
    split
    · rfl
    · exact selectedId_repairIds
  have sameReplacement : placed.liveReplacement env =
      (state.replaceFleet env document).liveReplacement env := by
    funext placement
    exact liveReplacement_of_systems sameFleet.systems
  generalize isSelected : placed.repairSelection env (state.selectedId.bind state.placementOf) =
    selected
  have sameSelected : SameFleet placed selected := by
    rw [← isSelected]
    exact sameFleet_repairSelection
  have isCarried : selected.selectedId = state.carriedId env document := by
    rw [← isSelected, selectedId_repairSelection, isKept, sameReplacement]
    rfl
  have same : SameSelection selected.repairCronSelection
      (selected.repairCronSelection.repairViewportAnchor env
        (state.viewportTopId.bind state.placementOf)) := sameSelection_repairViewportAnchor
  refine ⟨?_, ?_, ?_, ?_⟩
  · exact same.systems.trans (sameSelected.systems.trans sameFleet.systems)
  · exact same.cron.trans (sameSelected.cron.trans sameFleet.cron)
  · exact same.selectedId.trans isCarried
  · rw [same.cronJob, ← isCarried,
      ← jobNamesOf_of_cron (sameSelected.cron.trans sameFleet.cron)]
    have sameJob : selected.cronJob = state.cronJob :=
      sameSelected.cronJob.trans sameFleet.cronJob
    rw [← sameJob]
    rfl

theorem topId_of_systems (same : after.systems = before.systems) : after.topId = before.topId := by
  have sameIds : after.idAt = before.idAt := by
    funext index
    rw [idAt, idAt, same]
  rw [topId, topId, displayOrder, displayOrder, same, sameIds]

theorem cron_placeAtTop : state.placeAtTop.cron = state.cron := by
  unfold placeAtTop
  split <;> rfl

theorem cronJob_placeAtTop : state.placeAtTop.cronJob = state.cronJob := by
  unfold placeAtTop
  split <;> rfl

theorem systems_placeAtTop : state.placeAtTop.systems = state.systems := by
  unfold placeAtTop
  split <;> rfl

theorem selectedId_placeAtTop (anchored : Anchored state) :
    state.placeAtTop.selectedId = state.topId := by
  unfold placeAtTop topId
  split
  · rename_i id isTop
    exact isTop.symm
  · rename_i noTop
    rw [noTop]
    apply anchored.selected.none_iff.mpr
    by_contra nonempty
    have isListed : 0 < state.displayOrder.length := by
      apply List.length_pos_iff.mpr
      intro isEmpty
      exact nonempty (displayOrder_eq_nil.mp isEmpty)
    rcases idAt_displayOrder isListed with ⟨index, id, isIndex, -, isId, -⟩
    rw [List.head?_eq_getElem?, isIndex, Option.bind_some, isId] at noTop
    cases noTop

/-- A first document with polled reachability puts a system on top that reports the job shown for
the system the document leaves selected. -/
def TopReportsJob (env : Surroundings) (state : AppState) (document : FrontendSnapshot) : Prop :=
  state.sawReachability = false → document.pollInitialized = true →
    Reported
      ((state.replaceFleet env document).jobNamesOf (state.replaceFleet env document).topId)
      (jobShown ((state.replaceFleet env document).jobNamesOf (state.carriedId env document))
        state.cronJob)

theorem anchored_adoptSnapshotInner : Anchored (state.adoptSnapshotInner env document) := by
  rw [adoptSnapshotInner_eq]
  apply Anchored.visible
  split
  · exact anchored_repaired.placeAtTop
  · exact anchored_repaired

theorem cronAgrees_adoptSnapshotInner :
    (state.adoptSnapshotInner env document).CronAgrees ↔ state.TopReportsJob env document := by
  rw [adoptSnapshotInner_eq, sameSelection_ensureSelectedVisible.cronAgrees]
  have after : Repaired env state document (state.repaired env document) := repaired_repaired
  have anchored : Anchored (state.repaired env document) := anchored_repaired
  have sameTop : (state.repaired env document).topId =
      (state.replaceFleet env document).topId := topId_of_systems after.systems
  cases isFirst : !state.sawReachability && document.pollInitialized with
  | false =>
      rw [if_neg Bool.false_ne_true]
      apply iff_of_true
      · apply cronAgrees_iff.mpr
        rw [after.selectedId, after.cronJob, jobNamesOf_of_cron after.cron]
        exact reported_jobShown
      · intro unseen initialized
        rw [unseen, initialized] at isFirst
        cases isFirst
  | true =>
      rw [Bool.and_eq_true, Bool.not_eq_true'] at isFirst
      have settles : (state.repaired env document).placeAtTop.CronAgrees ↔
          Reported ((state.replaceFleet env document).jobNamesOf
              (state.replaceFleet env document).topId)
            (jobShown ((state.replaceFleet env document).jobNamesOf
              (state.carriedId env document)) state.cronJob) := by
        rw [cronAgrees_iff, cronJob_placeAtTop, selectedId_placeAtTop anchored, after.cronJob,
          sameTop, jobNamesOf_of_cron cron_placeAtTop, jobNamesOf_of_cron after.cron]
      rw [if_pos rfl, settles]
      constructor
      · intro reported _ _
        exact reported
      · intro reports
        exact reports isFirst.1 isFirst.2

theorem systems_adoptSnapshotInner : (state.adoptSnapshotInner env document).systems =
    document.systems.map (cleanSystem env.clean) := by
  have repaired : (state.repaired env document).systems =
      (state.replaceFleet env document).systems := repaired_repaired.systems
  rw [adoptSnapshotInner_eq, sameSelection_ensureSelectedVisible.systems]
  split
  · exact systems_placeAtTop.trans repaired
  · exact repaired

/-- The ids of a document are taken as they are. -/
theorem ids_adoptSnapshotInner : (state.adoptSnapshotInner env document).systems.map (·.id) =
    document.systems.map (·.id) := by
  rw [systems_adoptSnapshotInner, List.map_map]
  rfl

end AppState

namespace Frontend

variable {env : Surroundings} {frontend next : Frontend} {event : FrontendEvent}
  {events : List FrontendEvent} {terminalSize : Option (ℕ × ℕ)}

/-- What a step does to the render model. -/
inductive Shows (env : Surroundings) (state : AppState) : FrontendEvent → AppState → Prop where
  | action (action : Action) (sink : Sink) :
      Shows env state (.action action sink) (state.applyAction env action)
  | stale (document : FrontendSnapshot) (sink : Sink)
      (isStale : document.isNewerThan state.lastSnapshotGeneration = false) :
      Shows env state (.document document sink) state
  | document (document : FrontendSnapshot) (sink : Sink)
      (isNewer : document.isNewerThan state.lastSnapshotGeneration = true) :
      Shows env state (.document document sink) (state.adoptSnapshotInner env document)
  | highlightExpired :
      Shows env state .highlightExpired (state.applyAction env .clearSelectionHighlight)

theorem shows_of_step (stepped : step env frontend event = some next) :
    Shows env frontend.app event next.app := by
  cases turns_of_step stepped with
  | action action sink armed dispatched =>
      rw [dispatched]
      simp only [dispatchAction_app]
      exact .action action sink
  | document document sink applied =>
      rw [applied, applyDocument, retry_app]
      cases isNewer : document.isNewerThan frontend.app.lastSnapshotGeneration with
      | false =>
          rw [AppState.adoptSnapshot, if_neg (Bool.eq_false_iff.mp isNewer)]
          exact .stale document sink isNewer
      | true =>
          rw [AppState.adoptSnapshot, if_pos isNewer]
          exact .document document sink isNewer
  | highlightExpired expired =>
      rw [expired]
      exact .highlightExpired

/-- Wherever the step moves the selection after the retained job was last repaired, that job is one
the system reports. -/
def KeepsCronJob (env : Surroundings) (frontend : Frontend) : FrontendEvent → Prop
  | .action action _ => frontend.app.LandsOnJob env action
  | .document document _ =>
      document.isNewerThan frontend.app.lastSnapshotGeneration = true →
        frontend.app.TopReportsJob env document
  | .highlightExpired => True

/-- A document names every system once. -/
def DistinctIds : FrontendEvent → Prop
  | .document document _ => (document.systems.map (·.id)).Nodup
  | _ => True

theorem anchored_of_shows {state after : AppState} (shown : Shows env state event after)
    (anchored : state.Anchored) : after.Anchored := by
  cases shown with
  | action action sink => exact AppState.acts_applyAction.anchored anchored
  | stale document sink isStale => exact anchored
  | document document sink isNewer => exact AppState.anchored_adoptSnapshotInner
  | highlightExpired => exact AppState.acts_applyAction.anchored anchored

theorem cronAgrees_of_step (stepped : step env frontend event = some next)
    (agrees : frontend.app.CronAgrees) :
    next.app.CronAgrees ↔ KeepsCronJob env frontend event := by
  have shown := shows_of_step stepped
  generalize next.app = after at shown
  cases shown with
  | action action sink => exact AppState.acts_applyAction.cronAgrees agrees
  | stale document sink isStale =>
      apply iff_of_true agrees
      intro isNewer
      rw [isStale] at isNewer
      cases isNewer
  | document document sink isNewer =>
      rw [AppState.cronAgrees_adoptSnapshotInner]
      constructor
      · intro reports _
        exact reports
      · intro reports
        exact reports isNewer
  | highlightExpired =>
      rw [AppState.acts_applyAction.cronAgrees agrees]
      apply iff_of_true _ trivial
      apply AppState.landsOnJob_of_stays
      cases pane : frontend.app.activePane <;> simp only [AppState.landing, pane]

theorem start_cronAgrees : (start env terminalSize).app.CronAgrees := by
  cases terminalSize <;> rfl

/-- The selection, the retained job and the window are right. -/
structure Selected (env : Surroundings) (state : AppState) : Prop where
  anchored : state.Anchored
  cronAgrees : state.CronAgrees
  visible : state.SelectedVisible env

section Runs

variable (blind : ∀ (state : AppState) (top : Option String),
  env.desiredRows { state with viewportTopId := top } = env.desiredRows state)
include blind

/-- The window, and the distinct ids it is adjusted for. -/
structure Windowed (env : Surroundings) (state : AppState) : Prop where
  distinct : (state.systems.map (·.id)).Nodup
  anchored : state.Anchored
  visible : state.SelectedVisible env

theorem windowed_of_shows {state after : AppState} (shown : Shows env state event after)
    (distinct : DistinctIds event) (windowed : Windowed env state) : Windowed env after := by
  have anchored := anchored_of_shows shown windowed.anchored
  cases shown with
  | action action sink =>
      have acts : AppState.Acts env state action (state.applyAction env action) :=
        AppState.acts_applyAction
      refine ⟨?_, anchored, acts.selectedVisible blind windowed.distinct windowed.visible⟩
      rw [acts.systems]
      exact windowed.distinct
  | stale document sink isStale => exact windowed
  | document document sink isNewer =>
      have distinctAfter : ((state.adoptSnapshotInner env document).systems.map (·.id)).Nodup := by
        rw [AppState.ids_adoptSnapshotInner]
        exact distinct
      refine ⟨distinctAfter, anchored, ?_⟩
      apply AppState.selectedVisible_ensureSelectedVisible blind
      rw [AppState.adoptSnapshotInner_eq,
        AppState.sameSelection_ensureSelectedVisible.systems] at distinctAfter
      exact distinctAfter
  | highlightExpired =>
      have acts : AppState.Acts env state .clearSelectionHighlight
          (state.applyAction env .clearSelectionHighlight) := AppState.acts_applyAction
      refine ⟨?_, anchored, acts.selectedVisible blind windowed.distinct windowed.visible⟩
      rw [acts.systems]
      exact windowed.distinct

theorem windowed_start : Windowed env (start env terminalSize).app := by
  have blank : Windowed env .blank := by
    refine ⟨List.nodup_nil, ⟨AppState.listed_none rfl, AppState.listed_none rfl⟩, ?_⟩
    rintro position index ⟨⟩
  cases terminalSize with
  | none => exact blank
  | some size =>
      have shown : Shows env .blank (.action (.resize size.1 size.2) .ready)
          (start env (some size)).app := .action _ _
      exact windowed_of_shows blind shown trivial blank

/-- The selection and the window are right throughout, whatever the events. -/
theorem windowed_of_run (distinct : ∀ event ∈ events, DistinctIds event) :
    Machine.EveryState (step env) (start env terminalSize) events fun frontend =>
      Windowed env frontend.app := by
  have everyStep : Machine.EveryStep (step env) (start env terminalSize) events
      fun _ event => DistinctIds event := by
    intro before event after state split _
    apply distinct
    rw [split]
    simp
  refine everyStep.invariant (windowed_start blind) ?_
  intro before event after windowed distinctHere stepped
  exact windowed_of_shows blind (shows_of_step stepped) distinctHere windowed

end Runs

variable {streamRows : SchedulerOutputV2 → ℕ → ℕ} {clean : String → String}
  {normalizeHost : String → Option String}

/-- Whatever documents come and whatever is pressed, the selection, the retained job and the window
are right in every state if and only if every move and every placement at the top lands on a system
that reports the retained job. -/
theorem selected_iff_keepsCronJob
    (ran : Machine.run (step (.rendered streamRows clean normalizeHost))
      (start (.rendered streamRows clean normalizeHost) terminalSize) events = some frontend)
    (distinct : ∀ event ∈ events, DistinctIds event) :
    Machine.EveryState (step (.rendered streamRows clean normalizeHost))
        (start (.rendered streamRows clean normalizeHost) terminalSize) events
        (fun frontend => Selected (.rendered streamRows clean normalizeHost) frontend.app) ↔
      Machine.EveryStep (step (.rendered streamRows clean normalizeHost))
        (start (.rendered streamRows clean normalizeHost) terminalSize) events
        (KeepsCronJob (.rendered streamRows clean normalizeHost)) := by
  have windowed : Machine.EveryState (step (.rendered streamRows clean normalizeHost))
      (start (.rendered streamRows clean normalizeHost) terminalSize) events fun frontend =>
        Windowed (.rendered streamRows clean normalizeHost) frontend.app :=
    windowed_of_run (desiredRows_window streamRows) distinct
  have agrees := Machine.everyState_iff_everyStep_of_run ran start_cronAgrees
    fun _ _ _ _ _ _ held stepped => cronAgrees_of_step stepped held
  rw [← agrees]
  constructor
  · intro everyState before after state split ranBefore
    exact (everyState before after state split ranBefore).cronAgrees
  · intro everyState before after state split ranBefore
    have held := windowed before after state split ranBefore
    exact ⟨held.anchored, everyState before after state split ranBefore, held.visible⟩

section Example

/-- Two live systems, which report one job each. -/
def twoHostDocument (firstJob secondJob : String) : FrontendSnapshot where
  generation := 1
  pollInitialized := true
  systems :=
    [("a", "10.0.0.1"), ("b", "10.0.0.2")].map fun (id, host) =>
      { id
        endpoint := { id, host, port := 11310, name := none }
        configuredName := none
        reachability := .online
        latest := none }
  cronDisplayHistory := 5
  cron :=
    [("a", firstJob), ("b", secondJob)].map fun (systemId, name) =>
      { systemId
        summary := some
          { schemaVersion := 2
            generatedAtUnixMs := 0
            epoch := { startedAtUnixMs := 1, nonce := 1 }
            historyRevision := 0
            jobs := [{ backupJob with name }] }
        lastError := none
        history := [] }
  eggpool := none

/-- The program without records to show. -/
def noRecords : Surroundings :=
  .rendered (fun _ _ => 0) id some

/-- The second system is selected while the first one's job is retained. -/
def movedDown (firstJob secondJob : String) : List FrontendEvent :=
  [.document (twoHostDocument firstJob secondJob) .ready, .action .moveDown .ready]

theorem distinctIds_movedDown {firstJob secondJob : String} :
    ∀ event ∈ movedDown firstJob secondJob, DistinctIds event := by
  intro event member
  simp only [movedDown, List.mem_cons, List.not_mem_nil, or_false] at member
  have distinct : ["a", "b"].Nodup := by decide
  rcases member with rfl | rfl
  · exact distinct
  · trivial

theorem keepsCronJob_movedDown : Machine.EveryStep (step noRecords)
    (start noRecords (some (80, 24))) (movedDown "backup" "backup") (KeepsCronJob noRecords) := by
  have ran : Machine.run (step noRecords) (start noRecords (some (80, 24)))
      [.document (twoHostDocument "backup" "backup") .ready] =
        some ((start noRecords (some (80, 24))).applyDocument noRecords
          (twoHostDocument "backup" "backup") .ready) := rfl
  have ranNothing : Machine.run (step noRecords) (start noRecords (some (80, 24))) [] =
      some (start noRecords (some (80, 24))) := rfl
  have first : Machine.EveryStep (step noRecords) (start noRecords (some (80, 24)))
      [.document (twoHostDocument "backup" "backup") .ready] (KeepsCronJob noRecords) := by
    refine (Machine.everyStep_append_singleton ranNothing).mpr ⟨Machine.everyStep_nil, ?_⟩
    intro _ _ _
    decide +kernel
  refine (Machine.everyStep_append_singleton ran).mpr ⟨first, ?_⟩
  intro position isLanding
  have second : ((start noRecords (some (80, 24))).applyDocument noRecords
      (twoHostDocument "backup" "backup") .ready).app.landing noRecords .moveDown = some 1 := by
    decide +kernel
  cases second.symm.trans isLanding
  decide +kernel

/-- The other system has a job of the same name. -/
theorem selected_movedDown : ∃ frontend,
    Machine.run (step noRecords) (start noRecords (some (80, 24)))
        (movedDown "backup" "backup") = some frontend ∧
      frontend.app.selectedId = some "b" ∧ Selected noRecords frontend.app := by
  have facts : (Machine.run (step noRecords) (start noRecords (some (80, 24)))
      (movedDown "backup" "backup")).map (fun frontend => frontend.app.selectedId) =
      some (some "b") := by
    decide +kernel
  rcases Option.map_eq_some_iff.mp facts with ⟨frontend, ran, isSelected⟩
  refine ⟨frontend, ran, isSelected, ?_⟩
  have everyState := (selected_iff_keepsCronJob ran distinctIds_movedDown).mpr
    keepsCronJob_movedDown
  exact everyState _ [] frontend (List.append_nil _).symm ran

theorem not_selected_movedDown : ∃ frontend,
    Machine.run (step noRecords) (start noRecords (some (80, 24)))
        (movedDown "backup" "clean") = some frontend ∧
      (∀ event ∈ movedDown "backup" "clean", DistinctIds event) ∧
      frontend.app.selectedId = some "b" ∧ frontend.app.cronJob = some "backup" ∧
      frontend.app.selectedCronJob = some "clean" ∧ ¬Selected noRecords frontend.app := by
  have facts : (Machine.run (step noRecords) (start noRecords (some (80, 24)))
      (movedDown "backup" "clean")).map (fun frontend =>
        (frontend.app.selectedId, frontend.app.cronJob, frontend.app.selectedCronJob)) =
      some (some "b", some "backup", some "clean") := by
    decide +kernel
  rcases Option.map_eq_some_iff.mp facts with ⟨frontend, ran, values⟩
  rcases Prod.mk.inj values with ⟨isSelected, jobs⟩
  rcases Prod.mk.inj jobs with ⟨isRetained, isShown⟩
  refine ⟨frontend, ran, distinctIds_movedDown, isSelected, isRetained, isShown, ?_⟩
  intro selected
  have agrees : frontend.app.cronJob = frontend.app.selectedCronJob := selected.cronAgrees
  rw [isRetained, isShown] at agrees
  revert agrees
  decide

end Example

end Frontend

end Gregg.Tui
