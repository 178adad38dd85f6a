import Gregg.Tui.Window

/-!
# What the operator is looking at

The selection and the top of the window name listed systems, and the selected system is in view,
after every action. The retained cron job is repaired by the cron actions only: a move to another
system keeps the name, whether or not that system reports it.
-/

namespace Gregg.Tui

open Gregg.Clientd

namespace AppState

variable {env : Surroundings} {state before after : AppState} {id : String}
  {document : FrontendSnapshot} {action : Action}

/-- An id that is missing when there is no system, and names a listed one otherwise. -/
structure Listed (state : AppState) (id : Option String) : Prop where
  none_iff : id = none ↔ state.systems = []
  listed : ∀ name, id = some name → state.hasSystem name = true

structure Anchored (state : AppState) : Prop where
  selected : state.Listed state.selectedId
  top : state.Listed state.viewportTopId

theorem Listed.of_systems {id : Option String} (listed : before.Listed id)
    (same : after.systems = before.systems) : after.Listed id := by
  refine ⟨?_, ?_⟩
  · rw [same]
    exact listed.none_iff
  · intro name isName
    rw [hasSystem, same]
    exact listed.listed name isName

theorem listed_none (isEmpty : state.systems = []) : state.Listed none := by
  refine ⟨⟨fun _ => isEmpty, fun _ => rfl⟩, ?_⟩
  rintro name ⟨⟩

theorem listed_of_hasSystem (has : state.hasSystem id = true) : state.Listed (some id) := by
  refine ⟨?_, ?_⟩
  · constructor
    · rintro ⟨⟩
    · intro isEmpty
      rw [hasSystem, isEmpty] at has
      cases has
  · rintro name ⟨⟩
    exact has

theorem hasSystem_of_idAt {index : ℕ} (isId : state.idAt index = some id) :
    state.hasSystem id = true := by
  rcases Option.map_eq_some_iff.mp isId with ⟨system, isSystem, rfl⟩
  simp only [hasSystem, List.any_eq_true, decide_eq_true_eq]
  exact ⟨system, List.mem_of_getElem? isSystem, rfl⟩

theorem displayOrder_eq_nil : state.displayOrder = [] ↔ state.systems = [] := by
  rw [← List.length_eq_zero_iff, ← List.length_eq_zero_iff, displayOrder,
    displayOrderOf_perm.length_eq, List.length_range]

/-- The system at a position that exists as soon as there is a system. -/
theorem listed_position {position : ℕ}
    (isListed : state.displayOrder ≠ [] → position < state.displayOrder.length) :
    state.Listed (state.displayOrder[position]?.bind state.idAt) := by
  by_cases isEmpty : state.displayOrder = []
  · rw [isEmpty]
    exact listed_none (displayOrder_eq_nil.mp isEmpty)
  · rcases idAt_displayOrder (isListed isEmpty) with ⟨index, id, isIndex, -, isId, has⟩
    rw [isIndex, Option.bind_some, isId]
    exact listed_of_hasSystem has

theorem listed_firstId : state.Listed state.firstId := by
  rw [firstId]
  cases systems : state.systems with
  | nil => exact listed_none systems
  | cons system rest =>
      apply listed_of_hasSystem
      rw [hasSystem, systems]
      simp

/-- The fleet, the selection and the retained job. -/
structure SameSelection (before after : AppState) : Prop where
  systems : after.systems = before.systems
  cron : after.cron = before.cron
  selectedId : after.selectedId = before.selectedId
  cronJob : after.cronJob = before.cronJob

theorem sameSelection_ensureSelectedVisible :
    SameSelection state (state.ensureSelectedVisible env) := by
  rcases @exists_top_ensureSelectedVisibleWithOrder env state state.displayOrder with ⟨top, isTop⟩
  rw [ensureSelectedVisible, isTop]
  exact ⟨rfl, rfl, rfl, rfl⟩

theorem listed_viewportTop_ensureSelectedVisible (top : state.Listed state.viewportTopId) :
    state.Listed (state.ensureSelectedVisible env).viewportTopId := by
  unfold ensureSelectedVisible ensureSelectedVisibleWithOrder
  split
  · exact top
  · simp only
    split
    · exact top
    · rename_i selected isSelected
      rcases Option.bind_eq_some_iff.mp isSelected with ⟨id, -, placed⟩
      rcases positionOf_eq_some placed with ⟨index, isIndex, -⟩
      rcases List.getElem?_eq_some_iff.mp isIndex with ⟨isListed, -⟩
      split
      · exact top
      · split
        · apply listed_position
          intro _
          exact isListed
        · apply listed_position
          intro _
          exact Nat.lt_of_le_of_lt scrollUp_spec.1 isListed

/-- Adjusting the window keeps what is anchored. -/
theorem Anchored.visible (anchored : Anchored state) :
    Anchored (state.ensureSelectedVisible env) := by
  have same : SameSelection state (state.ensureSelectedVisible env) :=
    sameSelection_ensureSelectedVisible
  refine ⟨?_, ?_⟩
  · rw [same.selectedId]
    exact anchored.selected.of_systems same.systems
  · exact (listed_viewportTop_ensureSelectedVisible anchored.top).of_systems same.systems

section CronJob

/-- Job names the scheduler of a system reports. -/
def jobNamesOf (state : AppState) (id : Option String) : List String :=
  match (id.bind state.cronFor).bind SystemCronDto.summary with
  | some summary => summary.jobs.map SchedulerJobV2.name
  | none => []

/-- The job shown for the retained one: itself while it is reported, and the first one otherwise. -/
def jobShown (names : List String) (retained : Option String) : Option String :=
  match retained with
  | some current => if current ∈ names then some current else names.head?
  | none => names.head?

/-- The retained job is one of the reported ones, or none is reported. -/
def Reported (names : List String) : Option String → Prop
  | some retained => retained ∈ names
  | none => names = []

instance decidableReported {names : List String} :
    (retained : Option String) → Decidable (Reported names retained)
  | some retained => inferInstanceAs (Decidable (retained ∈ names))
  | none => inferInstanceAs (Decidable (names = []))

theorem eq_jobShown {names : List String} {retained : Option String} :
    retained = jobShown names retained ↔ Reported names retained := by
  cases retained with
  | none =>
      simp only [jobShown, Reported]
      cases names <;> simp
  | some current =>
      simp only [jobShown, Reported]
      split
      · rename_i member
        simp [member]
      · rename_i absent
        constructor
        · intro isFirst
          exact List.mem_of_mem_head? isFirst.symm
        · intro member
          exact absurd member absent

theorem reported_jobShown {names : List String} {retained : Option String} :
    Reported names (jobShown names retained) := by
  have first : Reported names names.head? := by
    cases names with
    | nil => rfl
    | cons name rest => exact List.mem_cons_self
  unfold jobShown
  split
  · split
    · rename_i member
      exact member
    · exact first
  · exact first

/-- The retained job is the one the pane shows. -/
def CronAgrees (state : AppState) : Prop :=
  state.cronJob = state.selectedCronJob

theorem cronAgrees_iff :
    state.CronAgrees ↔ Reported (state.jobNamesOf state.selectedId) state.cronJob :=
  eq_jobShown

theorem SameSelection.cronAgrees (same : SameSelection before after) :
    after.CronAgrees ↔ before.CronAgrees := by
  rw [cronAgrees_iff, cronAgrees_iff, same.selectedId, same.cronJob, jobNamesOf, jobNamesOf]
  unfold cronFor
  rw [same.cron]

theorem cronAgrees_repairCronSelection : state.repairCronSelection.CronAgrees := by
  apply cronAgrees_iff.mpr
  exact reported_jobShown

theorem cronAgrees_stepCronJob {delta : ℤ} : (state.stepCronJob delta).CronAgrees := by
  apply cronAgrees_iff.mpr
  unfold stepCronJob
  simp only
  split
  · rename_i isEmpty
    exact isEmpty
  · rename_i names first rest isNames
    generalize (state.selectedCronJob.bind fun name => state.cronJobNames.idxOf? name).getD 0 =
      current
    have positive : 0 < state.cronJobNames.length := by
      rw [isNames, List.length_cons]
      exact Nat.succ_pos _
    have inRange : (max 0 (min ((current : ℤ) + delta) (state.cronJobNames.length - 1 : ℕ))).toNat <
        state.cronJobNames.length := by
      omega
    rw [List.getElem?_eq_getElem inRange]
    exact List.getElem_mem inRange

end CronJob

section Actions

/-- Where a selecting action lands in the display order, on the pane that knows it. -/
def landing (env : Surroundings) (state : AppState) (action : Action) : Option ℕ :=
  let last := state.displayOrder.length - 1
  let current := (state.selectedPosition state.displayOrder).getD 0
  let page := (state.pageSize env state.displayOrder).natAbs
  match state.activePane, action with
  | .systems, .moveDown => some (min (current + 1) last)
  | .systems, .moveUp => some (min (current - 1) last)
  | .systems, .pageDown => some (min (current + page) last)
  | .systems, .pageUp => some (min (current - page) last)
  | .systems, .selectFirst => some 0
  | .systems, .selectLast => some last
  | _, _ => none

/-- The state with the system at a position selected and highlighted. -/
def selectAt (state : AppState) (position : ℕ) : AppState :=
  { state with
    selectedId := state.displayOrder[position]?.bind state.idAt
    selectionHighlightActive := true }

/-- What an action does to the selection, the window and the retained job. -/
inductive Acts (env : Surroundings) (state : AppState) (action : Action) : AppState → Prop where
  | nothing (stays : state.landing env action = none) : Acts env state action state
  | shows (changed : AppState) (stays : state.landing env action = none)
      (same : SameSelection state changed) (sameTop : changed.viewportTopId = state.viewportTopId) :
      Acts env state action (changed.ensureSelectedVisible env)
  | repairs (changed : AppState) (stays : state.landing env action = none)
      (systems : changed.systems = state.systems)
      (selectedId : changed.selectedId = state.selectedId)
      (sameTop : changed.viewportTopId = state.viewportTopId) (agrees : changed.CronAgrees) :
      Acts env state action (changed.ensureSelectedVisible env)
  | lands (position : ℕ) (isLanding : state.landing env action = some position)
      (isListed : state.displayOrder ≠ [] → position < state.displayOrder.length) :
      Acts env state action ((state.selectAt position).ensureSelectedVisible env)

theorem onSystems_eq {changed : AppState} (onPane : state.activePane = .systems) :
    state.onSystems changed = changed := by
  rw [AppState.onSystems, onPane]

theorem pageSize_nonneg {order : List ℕ} : 0 ≤ state.pageSize env order :=
  Int.natCast_nonneg _

theorem moveSelection_selectAt {offset : ℤ} :
    { state.moveSelection state.displayOrder offset with selectionHighlightActive := true } =
      state.selectAt (min
        (if 0 ≤ offset then (state.selectedPosition state.displayOrder).getD 0 + offset.natAbs
          else (state.selectedPosition state.displayOrder).getD 0 - offset.natAbs)
        (state.displayOrder.length - 1)) := by
  unfold moveSelection selectAt
  split
  · rename_i isEmpty
    rw [isEmpty]
    rfl
  · rfl

/-- A clamped position is one of the order's, unless there is none. -/
theorem min_lt_length {position : ℕ} (nonempty : state.displayOrder ≠ []) :
    min position (state.displayOrder.length - 1) < state.displayOrder.length := by
  have positive := List.length_pos_iff.mpr nonempty
  omega

theorem acts_moveSelection {offset : ℤ} {position : ℕ}
    (isLanding : state.landing env action =
      some (min position (state.displayOrder.length - 1)))
    (isPosition : position =
      if 0 ≤ offset then (state.selectedPosition state.displayOrder).getD 0 + offset.natAbs
      else (state.selectedPosition state.displayOrder).getD 0 - offset.natAbs) :
    Acts env state action (state.select env fun order => state.moveSelection order offset) := by
  have isSelected : (state.select env fun order => state.moveSelection order offset) =
      (state.selectAt
        (min position (state.displayOrder.length - 1))).ensureSelectedVisible env := by
    unfold select
    simp only
    rw [moveSelection_selectAt, ← isPosition]
    rfl
  rw [isSelected]
  exact .lands _ isLanding min_lt_length

theorem requestEggpoolPeriod_eq {wantsLonger : Bool} : ∃ request,
    state.requestEggpoolPeriod wantsLonger = { state with eggpoolPeriodRequest := request } := by
  unfold requestEggpoolPeriod
  split
  · exact ⟨state.eggpoolPeriodRequest, rfl⟩
  · simp only
    generalize (if wantsLonger = true then _ else _) = next
    split
    · exact ⟨state.eggpoolPeriodRequest, rfl⟩
    · exact ⟨some next, rfl⟩

theorem acts_requestEggpoolPeriod {wantsLonger : Bool}
    (stays : state.landing env action = none) :
    Acts env state action ((state.requestEggpoolPeriod wantsLonger).ensureSelectedVisible env) := by
  have isRequest : ∃ request, state.requestEggpoolPeriod wantsLonger =
      { state with eggpoolPeriodRequest := request } := requestEggpoolPeriod_eq
  rcases isRequest with ⟨request, isRequest⟩
  rw [isRequest]
  exact .shows _ stays ⟨rfl, rfl, rfl, rfl⟩ rfl

theorem acts_toggleCron (stays : state.landing env action = none) :
    Acts env state action (state.toggleCron.ensureSelectedVisible env) := by
  unfold toggleCron
  simp only
  split
  · exact .repairs _ stays rfl rfl rfl cronAgrees_repairCronSelection
  · exact .shows _ stays ⟨rfl, rfl, rfl, rfl⟩ rfl

theorem acts_stepCronJob {delta : ℤ} (stays : state.landing env action = none) :
    Acts env state action ((state.stepCronJob delta).ensureSelectedVisible env) := by
  refine .repairs _ stays ?_ ?_ ?_ cronAgrees_stepCronJob
  all_goals
    unfold stepCronJob
    simp only
    split <;> rfl

theorem acts_applyAction : Acts env state action (state.applyAction env action) := by
  cases pane : state.activePane with
  | eggpool =>
      have stays : state.landing env action = none := by
        simp only [landing, pane]
      cases action with
      | moveDown =>
          simp only [applyAction, pane]
          exact acts_requestEggpoolPeriod stays
      | moveUp =>
          simp only [applyAction, pane]
          exact acts_requestEggpoolPeriod stays
      | previousPane | nextPane | clearSelectionHighlight | resize _ _ =>
          exact .shows _ stays ⟨rfl, rfl, rfl, rfl⟩ rfl
      | refreshNow | quit => exact .nothing stays
      | _ =>
          simp only [applyAction, onSystems, pane]
          exact .nothing stays
  | systems =>
      cases action with
      | moveDown =>
          have isLanding : state.landing env .moveDown = some
              (min ((state.selectedPosition state.displayOrder).getD 0 + 1)
                (state.displayOrder.length - 1)) := by
            simp only [landing, pane]
          simp only [applyAction, pane]
          exact acts_moveSelection isLanding rfl
      | moveUp =>
          have isLanding : state.landing env .moveUp = some
              (min ((state.selectedPosition state.displayOrder).getD 0 - 1)
                (state.displayOrder.length - 1)) := by
            simp only [landing, pane]
          simp only [applyAction, pane]
          exact acts_moveSelection isLanding rfl
      | pageDown =>
          have isLanding : state.landing env .pageDown = some
              (min ((state.selectedPosition state.displayOrder).getD 0 +
                  (state.pageSize env state.displayOrder).natAbs)
                (state.displayOrder.length - 1)) := by
            simp only [landing, pane]
          rw [applyAction, onSystems_eq pane]
          apply acts_moveSelection isLanding
          rw [if_pos pageSize_nonneg]
      | pageUp =>
          have isLanding : state.landing env .pageUp = some
              (min ((state.selectedPosition state.displayOrder).getD 0 -
                  (state.pageSize env state.displayOrder).natAbs)
                (state.displayOrder.length - 1)) := by
            simp only [landing, pane]
          rw [applyAction, onSystems_eq pane]
          apply acts_moveSelection isLanding
          have notNegative : 0 ≤ state.pageSize env state.displayOrder := pageSize_nonneg
          rw [Int.natAbs_neg]
          split
          · omega
          · rfl
      | selectFirst =>
          have isLanding : state.landing env .selectFirst = some 0 := by
            simp only [landing, pane]
          have isSelected : state.applyAction env .selectFirst =
              (state.selectAt 0).ensureSelectedVisible env := by
            rw [applyAction, onSystems_eq pane, select, List.head?_eq_getElem?]
            rfl
          rw [isSelected]
          exact .lands 0 isLanding List.length_pos_iff.mpr
      | selectLast =>
          have isLanding : state.landing env .selectLast =
              some (state.displayOrder.length - 1) := by
            simp only [landing, pane]
          have isSelected : state.applyAction env .selectLast =
              (state.selectAt (state.displayOrder.length - 1)).ensureSelectedVisible env := by
            rw [applyAction, onSystems_eq pane, select, List.getLast?_eq_getElem?]
            rfl
          rw [isSelected]
          refine .lands _ isLanding ?_
          intro nonempty
          have positive := List.length_pos_iff.mpr nonempty
          omega
      | toggleCron =>
          rw [applyAction, onSystems_eq pane]
          apply acts_toggleCron
          simp only [landing, pane]
      | cronJobNext | cronJobPrevious =>
          rw [applyAction, onSystems_eq pane]
          apply acts_stepCronJob
          simp only [landing, pane]
      | refreshNow | quit =>
          apply Acts.nothing
          simp only [landing, pane]
      | previousPane | nextPane | clearSelectionHighlight | resize _ _ =>
          refine .shows _ ?_ ⟨rfl, rfl, rfl, rfl⟩ rfl
          simp only [landing, pane]
      | _ =>
          rw [applyAction, onSystems_eq pane]
          refine .shows _ ?_ ⟨rfl, rfl, rfl, rfl⟩ rfl
          simp only [landing, pane]

theorem Acts.systems (acts : Acts env state action after) : after.systems = state.systems := by
  cases acts with
  | nothing stays => rfl
  | shows changed stays same sameTop =>
      exact sameSelection_ensureSelectedVisible.systems.trans same.systems
  | repairs changed stays systems selectedId sameTop agrees =>
      exact sameSelection_ensureSelectedVisible.systems.trans systems
  | lands position isLanding isListed => exact sameSelection_ensureSelectedVisible.systems

theorem Acts.anchored (acts : Acts env state action after) (anchored : Anchored state) :
    Anchored after := by
  cases acts with
  | nothing stays => exact anchored
  | shows changed stays same sameTop =>
      apply Anchored.visible
      refine ⟨?_, ?_⟩
      · rw [same.selectedId]
        exact anchored.selected.of_systems same.systems
      · rw [sameTop]
        exact anchored.top.of_systems same.systems
  | repairs changed stays systems selectedId sameTop agrees =>
      apply Anchored.visible
      refine ⟨?_, ?_⟩
      · rw [selectedId]
        exact anchored.selected.of_systems systems
      · rw [sameTop]
        exact anchored.top.of_systems systems
  | lands position isLanding isListed =>
      apply Anchored.visible
      exact ⟨(listed_position isListed).of_systems rfl, anchored.top.of_systems rfl⟩

/-- Wherever an action lands, the retained job is one that system reports, or it reports none and
none is retained. -/
def LandsOnJob (env : Surroundings) (state : AppState) (action : Action) : Prop :=
  ∀ position, state.landing env action = some position →
    Reported (state.jobNamesOf (state.displayOrder[position]?.bind state.idAt)) state.cronJob

theorem landsOnJob_of_stays (stays : state.landing env action = none) :
    state.LandsOnJob env action := by
  intro position isLanding
  rw [stays] at isLanding
  cases isLanding

theorem Acts.cronAgrees (acts : Acts env state action after) (agrees : state.CronAgrees) :
    after.CronAgrees ↔ state.LandsOnJob env action := by
  cases acts with
  | nothing stays => exact iff_of_true agrees (landsOnJob_of_stays stays)
  | shows changed stays same sameTop =>
      apply iff_of_true _ (landsOnJob_of_stays stays)
      exact sameSelection_ensureSelectedVisible.cronAgrees.mpr (same.cronAgrees.mpr agrees)
  | repairs changed stays systems selectedId sameTop changedAgrees =>
      apply iff_of_true _ (landsOnJob_of_stays stays)
      exact sameSelection_ensureSelectedVisible.cronAgrees.mpr changedAgrees
  | lands position isLanding isListed =>
      rw [sameSelection_ensureSelectedVisible.cronAgrees, cronAgrees_iff]
      constructor
      · intro reported other isOther
        cases isLanding.symm.trans isOther
        exact reported
      · intro lands
        exact lands position isLanding

theorem Acts.selectedVisible
    (blind : ∀ (state : AppState) (top : Option String),
      env.desiredRows { state with viewportTopId := top } = env.desiredRows state)
    (acts : Acts env state action after) (distinct : (state.systems.map (·.id)).Nodup)
    (visible : state.SelectedVisible env) : after.SelectedVisible env := by
  cases acts with
  | nothing stays => exact visible
  | shows changed stays same sameTop =>
      rw [← same.systems] at distinct
      exact selectedVisible_ensureSelectedVisible blind distinct
  | repairs changed stays systems selectedId sameTop agrees =>
      rw [← systems] at distinct
      exact selectedVisible_ensureSelectedVisible blind distinct
  | lands position isLanding isListed =>
      exact selectedVisible_ensureSelectedVisible blind distinct

end Actions

end AppState

end Gregg.Tui
