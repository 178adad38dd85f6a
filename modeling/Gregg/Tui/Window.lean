import Gregg.Tui.EventLoop

/-!
# The window over the fleet

What is visible from the top of the window depends on the fleet, the expansions and the selection,
not on where the window was before. The walk that adjusts the top therefore ends with the selected
system in view, whenever the terminal has room for its base block.
-/

namespace Gregg.Tui

open Gregg.Clientd

section CronBlock

/-- Maximum job rows the table shows. -/
def MAX_JOB_ROWS : ℕ := 24

/-- Rows the selected-job section costs before any record. -/
def SELECTED_JOB_ROWS : ℕ := 1

/-- Rows a truncated job table may spend on its markers. -/
def JOB_WINDOW_MARKERS : ℕ := 2

/-- Ceiling on the height the cron block asks for. -/
def MAX_DESIRED_ROWS : ℕ := MAX_JOB_ROWS + SELECTED_JOB_ROWS + JOB_WINDOW_MARKERS + 8

/-- Which job rows the table shows: so many from `above` on, with `below` hidden after them. -/
structure JobWindow where
  shown : ℕ
  above : ℕ
  below : ℕ

/-- A bounded job window around the selected job, clamped at both ends of the list. -/
def jobWindow (names : List String) (selected : Option String) (limit : ℕ) : JobWindow :=
  let max := min limit names.length
  if max = 0 then { shown := 0, above := 0, below := names.length }
  else
    let index := selected.bind fun name => names.idxOf? name
    let start := min ((index.map (· - max / 2)).getD 0) (names.length - max)
    { shown := max, above := start, below := names.length - (start + max) }

/-- Records retained for one job in a document. -/
def jobRecords (cron : SystemCronDto) (job : String) : List Clientd.CronRecord :=
  ((cron.history.find? fun entry => entry.job = job).map (·.records)).getD []

variable (streamRows : SchedulerOutputV2 → ℕ → ℕ)

/-- Rows one record costs: its headline and the lines of its two streams. -/
def recordRows (record : Clientd.CronRecord) (depth : ℕ) : ℕ :=
  1 + streamRows record.record.stdout depth + streamRows record.record.stderr depth

/-- The number of rows of the block, without a limit. -/
def blockRows (state : AppState) (tableMax : ℕ) : ℕ :=
  match state.selectedCron with
  | none => 1
  | some cron =>
      let head := if cron.lastError.isSome then 2 else 1
      let window := jobWindow state.cronJobNames state.selectedCronJob tableMax
      let table := window.shown + (if 0 < window.above then 1 else 0) +
        (if 0 < window.below then 1 else 0)
      match state.selectedCronJob with
      | none => head + table
      | some job =>
          let depth := max state.cronDisplayHistory 1
          head + table + SELECTED_JOB_ROWS +
            ((jobRecords cron job).map (recordRows streamRows · depth)).sum

/-- How many rows the cron block wants, before the viewport clamps it. -/
def desiredRows (state : AppState) : ℕ :=
  if state.cronExpanded && state.selectedId.isSome then
    min (blockRows streamRows state MAX_JOB_ROWS) MAX_DESIRED_ROWS
  else 0

/-- The surroundings with the cron block as it is rendered. How many lines a stream takes is up to
the sanitizer. -/
def Surroundings.rendered (clean : String → String) (normalizeHost : String → Option String) :
    Surroundings where
  clean
  normalizeHost
  desiredRows := Tui.desiredRows streamRows

/-- The cron block does not ask where the window is. -/
theorem desiredRows_window {clean : String → String} {normalizeHost : String → Option String}
    (state : AppState) (top : Option String) :
    (Surroundings.rendered streamRows clean normalizeHost).desiredRows
        { state with viewportTopId := top } =
      (Surroundings.rendered streamRows clean normalizeHost).desiredRows state :=
  rfl

end CronBlock

section Order

variable {systems : List SystemState}

/-- The display order is a rearrangement of the configured one. -/
theorem displayOrderOf_perm : (displayOrderOf systems).Perm (List.range systems.length) :=
  List.filter_append_perm _ _

theorem nodup_displayOrderOf : (displayOrderOf systems).Nodup :=
  displayOrderOf_perm.nodup_iff.mpr List.nodup_range

theorem mem_displayOrderOf {index : ℕ} :
    index ∈ displayOrderOf systems ↔ index < systems.length := by
  rw [displayOrderOf_perm.mem_iff, List.mem_range]

end Order

namespace AppState

variable {env : Surroundings} {state : AppState} {order : List ℕ} {id : String}

/-- The terminal rows there are for entries. -/
def usableHeight (state : AppState) : ℕ :=
  (state.terminalSize.getD (80, 24)).2 - viewHeaderHeight state.systemViewMode

/-- Where the window begins. -/
def topPosition (state : AppState) (order : List ℕ) : ℕ :=
  (state.viewportTopId.bind (state.positionOf order)).getD 0

def selectedPosition (state : AppState) (order : List ℕ) : Option ℕ :=
  state.selectedId.bind (state.positionOf order)

/-- The selected system is visible from the top of the window, on a terminal that has room for its
base block. -/
def SelectedVisible (env : Surroundings) (state : AppState) : Prop :=
  ∀ position index, state.selectedPosition state.displayOrder = some position →
    state.displayOrder[position]? = some index →
    state.minimumRenderHeight index ≤ state.usableHeight →
      inRange (visibleRange env state state.displayOrder (state.topPosition state.displayOrder)
        state.usableHeight) position = true

theorem idAt_eq_some {index : ℕ} (inRange : index < state.systems.length) :
    ∃ id, state.idAt index = some id ∧ state.hasSystem id = true := by
  refine ⟨state.systems[index].id, ?_, ?_⟩
  · simp [idAt, inRange]
  · simp only [hasSystem, List.any_eq_true, decide_eq_true_eq]
    exact ⟨state.systems[index], List.getElem_mem inRange, rfl⟩

/-- The system at a position of the display order. -/
theorem idAt_displayOrder {position : ℕ} (inRange : position < state.displayOrder.length) :
    ∃ index id, state.displayOrder[position]? = some index ∧ index < state.systems.length ∧
      state.idAt index = some id ∧ state.hasSystem id = true := by
  have isListed := mem_displayOrderOf.mp (List.getElem_mem inRange)
  rcases idAt_eq_some isListed with ⟨id, isId, listed⟩
  exact ⟨state.displayOrder[position], id, List.getElem?_eq_getElem inRange, isListed, isId, listed⟩

theorem positionOf_eq_some {position : ℕ} (found : state.positionOf order id = some position) :
    ∃ index, order[position]? = some index ∧ state.idAt index = some id := by
  rcases List.findIdx?_eq_some_iff_getElem.mp found with ⟨inRange, isId, -⟩
  exact ⟨order[position], List.getElem?_eq_getElem inRange, by simpa using isId⟩

/-- Where the ids are distinct, a system stands at one position only. -/
theorem positionOf_idAt {position index : ℕ} (distinct : (state.systems.map (·.id)).Nodup)
    (isIndex : state.displayOrder[position]? = some index) (isId : state.idAt index = some id) :
    state.positionOf state.displayOrder id = some position := by
  rcases List.getElem?_eq_some_iff.mp isIndex with ⟨inRange, rfl⟩
  apply List.findIdx?_eq_some_iff_getElem.mpr
  refine ⟨inRange, by simpa using isId, ?_⟩
  intro earlier before sameId
  have sameId : state.idAt state.displayOrder[earlier] = some id := by simpa using sameId
  have idOf : ∀ index, state.idAt index = (state.systems.map (·.id))[index]? := by
    intro index
    rw [List.getElem?_map]
    rfl
  rw [idOf] at isId sameId
  have isListed : state.displayOrder[earlier] < (state.systems.map (·.id)).length := by
    rw [List.length_map]
    exact mem_displayOrderOf.mp (List.getElem_mem _)
  have sameIndex : state.displayOrder[earlier] = state.displayOrder[position] :=
    (List.getElem?_inj isListed distinct).mp (sameId.trans isId.symm)
  have isEarlier : earlier < state.displayOrder.length := Nat.lt_trans before inRange
  have samePosition : earlier = position := by
    apply (List.getElem?_inj isEarlier nodup_displayOrderOf).mp
    rw [List.getElem?_eq_getElem isEarlier, List.getElem?_eq_getElem inRange]
    exact congrArg some sameIndex
  exact absurd samePosition (Nat.ne_of_lt before)

section Visible

variable {height position : ℕ}

/-- Once an entry is counted the walk over the entries does not fail. -/
theorem le_of_visibleFrom {rows count : ℕ} (counted : 0 < count) :
    ∃ visible, visibleFrom env state height rows count order = some visible ∧ count ≤ visible := by
  induction order generalizing rows count with
  | nil => exact ⟨count, rfl, Nat.le_refl _⟩
  | cons index rest ih =>
      simp only [visibleFrom]
      split
      · exact ⟨count, rfl, Nat.le_refl _⟩
      · split
        · omega
        · split
          · exact ⟨count, rfl, Nat.le_refl _⟩
          · rcases ih (Nat.succ_pos count) with ⟨visible, isVisible, counts⟩
            exact ⟨visible, isVisible, by omega⟩

/-- The entry at the top of the window is visible when its base block fits. -/
theorem inRange_top {index : ℕ} (isIndex : order[position]? = some index)
    (isListed : index < state.systems.length) (positive : 0 < height)
    (fits : state.minimumRenderHeight index ≤ height) :
    inRange (visibleRange env state order position height) position = true := by
  have isDrop : order.drop position = index :: order.drop (position + 1) := by
    rcases List.getElem?_eq_some_iff.mp isIndex with ⟨inRange, rfl⟩
    exact List.drop_eq_getElem_cons inRange
  have isFirst : ∃ visible, visibleFrom env state height 0 0 (order.drop position) = some visible ∧
      1 ≤ visible := by
    rw [isDrop]
    simp only [visibleFrom]
    rw [if_neg (by omega), if_neg (by omega), if_neg (by omega)]
    exact le_of_visibleFrom Nat.one_pos
  rcases isFirst with ⟨visible, isVisible, counts⟩
  simp only [visibleRange, if_neg (Nat.ne_of_gt positive), isVisible, Option.getD_some, inRange,
    Bool.and_eq_true, decide_eq_true_eq]
  omega

/-- The walk ends at the selected entry, or at one it can be seen from. -/
theorem scrollUp_spec {top selected candidate : ℕ} :
    scrollUp env state order height top selected candidate ≤ candidate ∧
      (scrollUp env state order height top selected candidate = candidate ∨
        inRange (visibleRange env state order
          (scrollUp env state order height top selected candidate) height) selected = true) := by
  induction candidate with
  | zero => exact ⟨Nat.le_refl _, .inl rfl⟩
  | succ candidate ih =>
      simp only [scrollUp]
      split
      · rename_i further
        refine ⟨Nat.le_succ_of_le ih.1, .inr ?_⟩
        rcases ih.2 with atCandidate | visible
        · rw [atCandidate]
          exact further.2
        · exact visible
      · exact ⟨Nat.le_refl _, .inl rfl⟩

theorem minimumRenderHeight_pos {index : ℕ} (isListed : index < state.systems.length) :
    0 < state.minimumRenderHeight index := by
  simp only [minimumRenderHeight, List.getElem?_eq_getElem isListed]
  split
  · rw [SystemState.normalBaseHeight]
    split <;> omega
  · omega

section Blind

variable {top : Option String}
  (blind : ∀ (state : AppState) (top : Option String),
    env.desiredRows { state with viewportTopId := top } = env.desiredRows state)
include blind

theorem entryHeight_window {index : ℕ} :
    entryHeight env { state with viewportTopId := top } index = entryHeight env state index := by
  simp only [entryHeight, detailRows, cronDetailCount, blind]

theorem visibleFrom_window {rows count : ℕ} :
    visibleFrom env { state with viewportTopId := top } height rows count order =
      visibleFrom env state height rows count order := by
  induction order generalizing rows count with
  | nil => rfl
  | cons index rest ih =>
      simp only [visibleFrom, entryHeight_window blind, ih]
      rfl

theorem visibleRange_window {first : ℕ} :
    visibleRange env { state with viewportTopId := top } order first height =
      visibleRange env state order first height := by
  simp only [visibleRange, visibleFrom_window blind]

variable (distinct : (state.systems.map (·.id)).Nodup)
include distinct

/-- The selected system is in view once the top is put at a position it is visible from. -/
theorem selectedVisible_window {first selected : ℕ}
    (isSelected : state.selectedPosition state.displayOrder = some selected)
    (isListed : first < state.displayOrder.length)
    (visible : ∀ index, state.displayOrder[selected]? = some index →
      state.minimumRenderHeight index ≤ state.usableHeight →
        inRange (visibleRange env state state.displayOrder first state.usableHeight) selected =
          true) :
    SelectedVisible env
      { state with viewportTopId := state.displayOrder[first]?.bind state.idAt } := by
  rcases idAt_displayOrder isListed with ⟨atFirst, id, isFirst, -, isId, -⟩
  have isTop : topPosition { state with viewportTopId := some id } state.displayOrder = first := by
    have found : positionOf { state with viewportTopId := some id } state.displayOrder id =
        some first := positionOf_idAt distinct isFirst isId
    simp only [topPosition, Option.bind_some, found, Option.getD_some]
  rw [isFirst, Option.bind_some, isId]
  intro position index isPosition isIndex fits
  cases isSelected.symm.trans isPosition
  have seen := visible index isIndex fits
  rw [← visibleRange_window blind, ← isTop] at seen
  exact seen

/-- Adjusting the window leaves the selected system in view. -/
theorem selectedVisible_ensureSelectedVisible :
    (state.ensureSelectedVisible env).SelectedVisible env := by
  unfold ensureSelectedVisible ensureSelectedVisibleWithOrder
  split
  · rename_i isEmpty
    intro position index _ isIndex
    rw [isEmpty] at isIndex
    cases isIndex
  · simp only
    split
    · rename_i unplaced
      intro position index isPosition
      rw [selectedPosition, unplaced] at isPosition
      cases isPosition
    · rename_i selected isSelected
      rcases Option.bind_eq_some_iff.mp isSelected with ⟨id, -, placed⟩
      rcases positionOf_eq_some placed with ⟨atSelected, isIndex, -⟩
      rcases List.getElem?_eq_some_iff.mp isIndex with ⟨isListed, rfl⟩
      have fromItself : ∀ index, state.displayOrder[selected]? = some index →
          state.minimumRenderHeight index ≤ state.usableHeight →
            inRange (visibleRange env state state.displayOrder selected state.usableHeight)
              selected = true := by
        intro index isIndex fits
        have known := mem_displayOrderOf.mp (List.mem_of_getElem? isIndex)
        have positive := minimumRenderHeight_pos known
        exact inRange_top isIndex known (by omega) fits
      split
      · rename_i alreadyVisible
        intro position index isPosition _ _
        cases isSelected.symm.trans isPosition
        exact alreadyVisible
      · split
        · exact selectedVisible_window blind distinct isSelected isListed fromItself
        · refine selectedVisible_window blind distinct isSelected
            (Nat.lt_of_le_of_lt scrollUp_spec.1 isListed) ?_
          intro index isIndex fits
          refine scrollUp_spec.2.elim ?_ fun visible => visible
          intro atSelected
          rw [atSelected]
          exact fromItself index isIndex fits

end Blind

end Visible

end AppState

end Gregg.Tui
