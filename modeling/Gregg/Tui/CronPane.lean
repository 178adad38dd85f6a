import Gregg.Tui.CronRows

/-!
# Drawing the cron pane

The rows of the block within the height that the layout left for it. Where they do not fit, the
window of the job table shrinks around the selected job, and a marker stands for the rows that are
still cut.
-/

namespace Gregg.Tui.CronPane

/-- An area of the terminal. -/
structure Rect where
  x : ℕ
  y : ℕ
  width : ℕ
  height : ℕ
  y_le : y ≤ u16Max
  height_le : height ≤ u16Max

/-- A line of text on the terminal, in an area of this width. -/
structure DrawnLine where
  x : ℕ
  y : ℕ
  width : ℕ
  text : List Char
  deriving DecidableEq

section Draw

variable (display : Display)

/-- The characters at the front that fit into so many columns, and the columns they take. -/
def fitWidth (maxWidth : ℕ) : List Char → List Char × ℕ
  | [] => ([], 0)
  | character :: rest =>
      if maxWidth < display.charWidth character then ([], 0)
      else
        let (kept, width) := fitWidth (maxWidth - display.charWidth character) rest
        (character :: kept, display.charWidth character + width)

/-- Makes a line break visible and truncates a text to so many columns. -/
def truncateWidth (text : List Char) (maxWidth : ℕ) : List Char :=
  if maxWidth = 0 then []
  else
    let text :=
      if '\n' ∈ text ∨ '\r' ∈ text then (sanitizeSingleLine text).text else text
    let (kept, width) := fitWidth display maxWidth text
    if kept.length = text.length then text
    else if width < maxWidth then kept ++ ['…']
    else kept

variable (area : Rect)

/-- One row, clipped to the terminal width and to the last line of the area. -/
def drawRow (y : ℕ) (row : CronRow) : List DrawnLine :=
  if satAdd16 area.y area.height ≤ y ∨ area.width = 0 then []
  else
    [{  x := area.x
        y
        width := area.width
        text := truncateWidth display (row.text display area.width).toList area.width }]

/-- Rows below each other. The index of a row is below the height, hence a `u16`. -/
def drawRows (index : ℕ) : List CronRow → List DrawnLine
  | [] => []
  | row :: rest => drawRow display area (satAdd16 area.y index) row ++ drawRows (index + 1) rest

/-- The block for so many rows, and whether it is longer than that. -/
def fitBlock (state : AppState) (height : ℕ) : BlockRows × Bool :=
  let full := blockRows state MAX_JOB_ROWS
  if height < full.length then
    -- The marker row and those of the window are left out of the budget for the job rows.
    let tableMax := max (height - (full.fixed + 1 + JOB_WINDOW_MARKERS)) 1
    let shrunk := blockRows state tableMax
    (shrunk, decide (height < shrunk.length))
  else (full, false)

def render (state : AppState) (rowsVisible : ℕ) : List DrawnLine :=
  if rowsVisible = 0 ∨ area.width = 0 ∨ area.height = 0 then []
  else
    let height := min area.height rowsVisible
    let (block, truncated) := fitBlock state height
    let content := if truncated then height - 1 else height
    drawRows display area 0 (block.rows.take content) ++
      if truncated ∧ content < height then
        drawRow display area (satAdd16 area.y content) .truncation
      else []

end Draw

def isVisible (state : AppState) : Bool :=
  state.cronExpanded && state.selectedId.isSome

/-- The rows that are drawn within a height. -/
def paneRows (state : AppState) (height : ℕ) : List CronRow :=
  let (block, truncated) := fitBlock state height
  if truncated then block.rows.take (height - 1) ++ [.truncation]
  else block.rows.take height

/-- The jobs that rows stand for. -/
def jobsSaid (rows : List CronRow) : ℕ :=
  (rows.map CronRow.jobs).sum

/-- A line is drawn inside the area. -/
def DrawnLine.Within (line : DrawnLine) (display : Display) (area : Rect) : Prop :=
  line.x = area.x ∧ line.width = area.width ∧ area.y ≤ line.y ∧ line.y < area.y + area.height ∧
    (line.text.map display.charWidth).sum ≤ area.width

section Lines

variable {display : Display} {area : Rect}

theorem fitWidth_spec (text : List Char) (maxWidth : ℕ) :
    ((fitWidth display maxWidth text).1.map display.charWidth).sum =
        (fitWidth display maxWidth text).2 ∧
      (fitWidth display maxWidth text).2 ≤ maxWidth ∧
      (fitWidth display maxWidth text).1 <+: text := by
  induction text generalizing maxWidth with
  | nil => exact ⟨rfl, Nat.zero_le _, List.prefix_rfl⟩
  | cons character rest ih =>
      simp only [fitWidth]
      split
      · exact ⟨rfl, Nat.zero_le _, List.nil_prefix⟩
      · rcases ih (maxWidth - display.charWidth character) with ⟨isSum, fits, isFront⟩
        refine ⟨?_, ?_, (List.prefix_cons_inj character).mpr isFront⟩
        · rw [List.map_cons, List.sum_cons, isSum]
        · simp only
          omega

/-- A truncated text takes no more columns than it may. -/
theorem width_truncateWidth (text : List Char) (maxWidth : ℕ) :
    ((truncateWidth display text maxWidth).map display.charWidth).sum ≤ maxWidth := by
  unfold truncateWidth
  split
  · exact Nat.zero_le _
  · generalize (if '\n' ∈ text ∨ '\r' ∈ text then (sanitizeSingleLine text).text else text) = line
    rcases @fitWidth_spec display line maxWidth with ⟨isSum, fits, isFront⟩
    simp only
    split
    · rename_i isAll
      rw [← isFront.eq_of_length isAll, isSum]
      exact fits
    · split
      · rw [List.map_append, List.sum_append, isSum, List.map_singleton, List.sum_singleton,
          display.charWidth_ellipsis]
        omega
      · rw [isSum]
        exact fits

theorem within_drawRow {line : DrawnLine} {y : ℕ} {row : CronRow} (fromTop : area.y ≤ y)
    (isLine : line ∈ drawRow display area y row) : line.Within display area := by
  unfold drawRow at isLine
  split at isLine
  · cases isLine
  · rename_i unclipped
    rw [List.mem_singleton.mp isLine]
    refine ⟨rfl, rfl, fromTop, ?_, width_truncateWidth _ _⟩
    have clip : satAdd16 area.y area.height ≤ area.y + area.height := Nat.min_le_left _ _
    simp only
    omega

theorem le_satAdd16 (offset : ℕ) : area.y ≤ satAdd16 area.y offset :=
  Nat.le_min.mpr ⟨Nat.le_add_right _ _, area.y_le⟩

theorem within_drawRows {line : DrawnLine} {rows : List CronRow} {index : ℕ}
    (isLine : line ∈ drawRows display area index rows) : line.Within display area := by
  induction rows generalizing index with
  | nil => cases isLine
  | cons row rest ih =>
      rcases List.mem_append.mp isLine with isFirst | isRest
      · exact within_drawRow (le_satAdd16 index) isFirst
      · exact ih isRest

/-- Nothing is drawn outside the area. -/
theorem within_render {line : DrawnLine} {state : AppState} {rowsVisible : ℕ}
    (isLine : line ∈ render display area state rowsVisible) : line.Within display area := by
  simp only [render] at isLine
  split at isLine
  · cases isLine
  · rcases List.mem_append.mp isLine with isRow | isMarker
    · exact within_drawRows isRow
    · exact within_drawRow (le_satAdd16 _) (List.mem_ite_nil_right.mp isMarker).2

/-- The line of a row on an area that has it. -/
def lineAt (display : Display) (area : Rect) (row : CronRow) (index : ℕ) : DrawnLine where
  x := area.x
  y := area.y + index
  width := area.width
  text := truncateWidth display (row.text display area.width).toList area.width

variable (wide : 0 < area.width)
include wide

theorem drawRow_eq {row : CronRow} {index : ℕ} (inArea : index < area.height)
    (onTerminal : area.y + index < u16Max) :
    drawRow display area (satAdd16 area.y index) row = [lineAt display area row index] := by
  have isLine : satAdd16 area.y index = area.y + index :=
    Nat.min_eq_left (Nat.le_of_lt onTerminal)
  rw [drawRow, isLine, if_neg]
  · rfl
  · rw [satAdd16]
    omega

theorem drawRows_eq {rows : List CronRow} {index : ℕ} (inArea : index + rows.length ≤ area.height)
    (onTerminal : area.y + (index + rows.length) ≤ u16Max) :
    drawRows display area index rows =
      (rows.zipIdx index).map fun entry => lineAt display area entry.1 entry.2 := by
  induction rows generalizing index with
  | nil => rfl
  | cons row rest ih =>
      rw [List.length_cons] at inArea onTerminal
      rw [drawRows, drawRow_eq wide (by omega) (by omega), ih (by omega) (by omega),
        List.zipIdx_cons, List.map_cons, List.singleton_append]

end Lines

section Rows

variable {state : AppState} {height : ℕ}

/-- How many job rows the window has within a height. -/
def tableLimit (state : AppState) (height : ℕ) : ℕ :=
  if height < (blockRows state MAX_JOB_ROWS).length then
    max (height - ((blockRows state MAX_JOB_ROWS).fixed + 1 + JOB_WINDOW_MARKERS)) 1
  else MAX_JOB_ROWS

theorem tableLimit_pos : 0 < tableLimit state height := by
  unfold tableLimit
  split
  · omega
  · decide

theorem fitBlock_eq :
    fitBlock state height =
      (blockRows state (tableLimit state height),
        decide (height < (blockRows state (tableLimit state height)).length)) := by
  by_cases short : height < (blockRows state MAX_JOB_ROWS).length
  · simp only [fitBlock, tableLimit, if_pos short]
  · simp only [fitBlock, tableLimit, if_neg short, decide_eq_false short]

theorem fixed_blockRows (limit other : ℕ) :
    (blockRows state limit).fixed = (blockRows state other).fixed := by
  rw [@blockRows_table state other limit]
  rfl

@[simp]
theorem BlockRows.length_rows (block : BlockRows) : block.rows.length = block.length := by
  simp only [BlockRows.rows, BlockRows.length, List.length_append]

theorem paneRows_of_le
    (fits : (blockRows state (tableLimit state height)).length ≤ height) :
    paneRows state height = (blockRows state (tableLimit state height)).rows := by
  simp only [paneRows, fitBlock_eq]
  rw [if_neg, List.take_of_length_le]
  · rwa [BlockRows.length_rows]
  · rw [decide_eq_true_eq]
    omega

theorem paneRows_of_lt
    (short : height < (blockRows state (tableLimit state height)).length) :
    paneRows state height =
      (blockRows state (tableLimit state height)).rows.take (height - 1) ++ [.truncation] := by
  simp only [paneRows, fitBlock_eq]
  rw [if_pos (decide_eq_true short)]

/-- A block that fits is drawn as it is. -/
theorem paneRows_full (fits : (blockRows state MAX_JOB_ROWS).length ≤ height) :
    paneRows state height = (blockRows state MAX_JOB_ROWS).rows := by
  have isLimit : tableLimit state height = MAX_JOB_ROWS := if_neg (by omega)
  rw [paneRows_of_le, isLimit]
  rwa [isLimit]

theorem truncation_not_mem_rows {tableMax : ℕ} :
    CronRow.truncation ∉ (blockRows state tableMax).rows := by
  intro isRow
  simp only [BlockRows.rows, List.mem_append] at isRow
  have notPlain : ¬CronRow.truncation.IsPlain := fun plain => Bool.noConfusion plain.2
  rcases isRow with (isFixed | isTable) | isRest
  · exact notPlain (isPlain_blockRows (List.mem_append_left _ (List.mem_append.mpr isFixed)))
  · exact Nat.lt_irrefl _ (jobs_pos_of_mem_table isTable)
  · exact notPlain (isPlain_blockRows (List.mem_append_right _ isRest))

/-- The marker is drawn exactly where the block is longer than the height. -/
theorem truncation_mem_paneRows :
    CronRow.truncation ∈ paneRows state height ↔
      height < (blockRows state (tableLimit state height)).length := by
  constructor
  · intro isRow
    by_contra fits
    rw [paneRows_of_le (Nat.le_of_not_lt fits)] at isRow
    exact truncation_not_mem_rows isRow
  · intro short
    rw [paneRows_of_lt short]
    exact List.mem_append_right _ (List.mem_singleton_self _)

/-- With room for the fixed rows and four more, no row of the table is cut. -/
theorem length_table_le (room : (blockRows state MAX_JOB_ROWS).fixed + 4 ≤ height)
    (short : height < (blockRows state (tableLimit state height)).length) :
    (blockRows state (tableLimit state height)).table.length ≤
      height - ((blockRows state MAX_JOB_ROWS).fixed + 1) := by
  have fullShort : height < (blockRows state MAX_JOB_ROWS).length := by
    by_contra fits
    rw [tableLimit, if_neg fits] at short
    exact fits short
  have isBounded := @length_table_blockRows state (tableLimit state height)
  have isLimit : tableLimit state height =
      max (height - ((blockRows state MAX_JOB_ROWS).fixed + 1 + JOB_WINDOW_MARKERS)) 1 :=
    if_pos fullShort
  rw [JOB_WINDOW_MARKERS] at isBounded isLimit
  omega

section Counts

variable {rows : List CronRow}

theorem jobsSaid_append (front rows : List CronRow) :
    jobsSaid (front ++ rows) = jobsSaid front + jobsSaid rows := by
  rw [jobsSaid, List.map_append, List.sum_append]
  rfl

theorem jobsSaid_plain (plain : ∀ row ∈ rows, row.IsPlain) : jobsSaid rows = 0 := by
  apply List.sum_eq_zero
  intro count isCount
  rcases List.mem_map.mp isCount with ⟨row, isRow, rfl⟩
  exact (plain row isRow).1

/-- Rows that each stand for a job are counted in full only when none is cut. -/
theorem jobsSaid_take_eq_iff (stands : ∀ row ∈ rows, 0 < row.jobs) (count : ℕ) :
    jobsSaid (rows.take count) = jobsSaid rows ↔ rows.length ≤ count := by
  constructor
  · intro isAll
    have isSum := jobsSaid_append (rows.take count) (rows.drop count)
    rw [List.take_append_drop] at isSum
    by_contra cut
    have isDropped : rows.drop count ≠ [] := fun isEmpty => cut (List.drop_eq_nil_iff.mp isEmpty)
    rcases List.exists_mem_of_ne_nil _ isDropped with ⟨row, isRow⟩
    have counts : row.jobs ≤ jobsSaid (rows.drop count) :=
      List.single_le_sum (fun _ _ => Nat.zero_le _) _ (List.mem_map_of_mem isRow)
    have positive := stands row (List.mem_of_mem_drop isRow)
    omega
  · intro fits
    rw [List.take_of_length_le fits]

/-- What is drawn at the front of a block stands for the jobs in its part of the table. -/
theorem jobsSaid_take_rows {tableMax : ℕ} (count : ℕ) :
    jobsSaid ((blockRows state tableMax).rows.take count) =
      jobsSaid ((blockRows state tableMax).table.take
        (count - (blockRows state tableMax).fixed)) := by
  have plainFront : jobsSaid (((blockRows state tableMax).head ++
      (blockRows state tableMax).reserved).take count) = 0 :=
    jobsSaid_plain fun row isRow =>
      isPlain_blockRows (List.mem_append_left _ (List.mem_of_mem_take isRow))
  have plainRest : ∀ count, jobsSaid ((blockRows state tableMax).rest.take count) = 0 :=
    fun count => jobsSaid_plain fun row isRow =>
      isPlain_blockRows (List.mem_append_right _ (List.mem_of_mem_take isRow))
  rw [BlockRows.rows, List.take_append, List.take_append, jobsSaid_append, jobsSaid_append,
    plainFront, plainRest, List.length_append, Nat.zero_add, Nat.add_zero]
  rfl

theorem jobsSaid_rows {tableMax : ℕ} :
    jobsSaid (blockRows state tableMax).rows = state.cronJobNames.length := by
  have isAll := @jobsSaid_take_rows state tableMax (blockRows state tableMax).length
  rw [List.take_of_length_le (BlockRows.length_rows _).le, List.take_of_length_le] at isAll
  · exact isAll.trans sum_blockRows_table
  · rw [BlockRows.length, BlockRows.fixed]
    omega

end Counts

/-- The counts of the markers and the drawn job rows are all the jobs, unless the marker of cut rows
stands for a part of the table. -/
theorem jobsSaid_paneRows :
    jobsSaid (paneRows state height) = state.cronJobNames.length ↔
      .truncation ∉ paneRows state height ∨
        (blockRows state (tableLimit state height)).table.length ≤
          height - ((blockRows state MAX_JOB_ROWS).fixed + 1) := by
  rw [truncation_mem_paneRows]
  by_cases short : height < (blockRows state (tableLimit state height)).length
  · have isMarker : jobsSaid [.truncation] = 0 := rfl
    rw [paneRows_of_lt short, jobsSaid_append, isMarker, Nat.add_zero, jobsSaid_take_rows,
      fixed_blockRows (tableLimit state height) MAX_JOB_ROWS, ← sum_blockRows_table,
      ← jobsSaid, jobsSaid_take_eq_iff fun row => jobs_pos_of_mem_table]
    omega
  · rw [paneRows_of_le (Nat.le_of_not_lt short), jobsSaid_rows]
    exact iff_of_true rfl (.inl short)

/-- Where rows are cut the pane says so. -/
theorem exists_saysHidden_paneRows
    (short : height < (blockRows state MAX_JOB_ROWS).length) :
    ∃ row ∈ paneRows state height, row.saysHidden = true := by
  by_cases cut : height < (blockRows state (tableLimit state height)).length
  · exact ⟨.truncation, truncation_mem_paneRows.mpr cut, rfl⟩
  · -- The whole block is drawn, hence its table is shorter than the full one.
    have fits := Nat.le_of_not_lt cut
    have sameRest := @blockRows_table state MAX_JOB_ROWS (tableLimit state height)
    have shorter : (blockRows state (tableLimit state height)).table.length <
        (blockRows state MAX_JOB_ROWS).table.length := by
      rw [sameRest] at fits
      simp only [BlockRows.length] at fits short
      omega
    rcases exists_saysHidden_table shorter with ⟨row, isRow, hidden⟩
    refine ⟨row, ?_, hidden⟩
    rw [paneRows_of_le fits, BlockRows.rows]
    exact List.mem_append_left _ (List.mem_append_right _ isRow)

/-- The table is drawn where it fits beside the fixed rows and the marker. -/
theorem mem_paneRows_of_mem_table {row : CronRow}
    (fits : height < (blockRows state (tableLimit state height)).length →
      (blockRows state (tableLimit state height)).table.length ≤
        height - ((blockRows state MAX_JOB_ROWS).fixed + 1))
    (isRow : row ∈ (blockRows state (tableLimit state height)).table) :
    row ∈ paneRows state height := by
  have inRows : row ∈ (blockRows state (tableLimit state height)).head ++
      (blockRows state (tableLimit state height)).reserved ++
      (blockRows state (tableLimit state height)).table := List.mem_append_right _ isRow
  by_cases short : height < (blockRows state (tableLimit state height)).length
  · have isLength := fits short
    have isSome := List.length_pos_of_mem isRow
    have isFixed := @fixed_blockRows state (tableLimit state height) MAX_JOB_ROWS
    rw [BlockRows.fixed] at isFixed
    rw [paneRows_of_lt short, BlockRows.rows]
    apply List.mem_append_left
    rw [List.take_append, List.take_of_length_le]
    · exact List.mem_append_left _ inRows
    · rw [List.length_append, List.length_append]
      omega
  · rw [paneRows_of_le (Nat.le_of_not_lt short), BlockRows.rows]
    exact List.mem_append_left _ inRows

/-- The header and the section of the selected job are drawn before anything else. -/
theorem fixed_first_paneRows :
    ((blockRows state MAX_JOB_ROWS).head ++ (blockRows state MAX_JOB_ROWS).reserved) <+:
        paneRows state height ∨
      ∀ row ∈ paneRows state height, row = .truncation ∨
        row ∈ (blockRows state MAX_JOB_ROWS).head ++ (blockRows state MAX_JOB_ROWS).reserved := by
  have sameRest := @blockRows_table state MAX_JOB_ROWS (tableLimit state height)
  have isFront : ((blockRows state MAX_JOB_ROWS).head ++
      (blockRows state MAX_JOB_ROWS).reserved) <+:
        (blockRows state (tableLimit state height)).rows := by
    rw [sameRest, BlockRows.rows, List.append_assoc _ _ (blockRows state MAX_JOB_ROWS).rest]
    exact List.prefix_append _ _
  by_cases short : height < (blockRows state (tableLimit state height)).length
  · rw [paneRows_of_lt short]
    rcases Nat.le_total ((blockRows state MAX_JOB_ROWS).head ++
        (blockRows state MAX_JOB_ROWS).reserved).length (height - 1) with fits | cut
    · exact .inl ((List.prefix_take_iff.mpr ⟨isFront, fits⟩).trans (List.prefix_append _ _))
    · refine .inr fun row isRow => ?_
      rcases List.mem_append.mp isRow with isTaken | isMarker
      · rcases isFront with ⟨rest, isRows⟩
        rw [← isRows, List.take_append_of_le_length cut] at isTaken
        exact .inr (List.mem_of_mem_take isTaken)
      · exact .inl (List.mem_singleton.mp isMarker)
  · rw [paneRows_of_le (Nat.le_of_not_lt short)]
    exact .inl isFront

theorem length_paneRows (positive : 0 < height) : (paneRows state height).length ≤ height := by
  by_cases short : height < (blockRows state (tableLimit state height)).length
  · rw [paneRows_of_lt short, List.length_append, List.length_take, List.length_singleton]
    omega
  · rw [paneRows_of_le (Nat.le_of_not_lt short), BlockRows.length_rows]
    omega

end Rows

/-- What the drawn rows tell of the block and of the jobs. -/
structure Truthful (state : AppState) (height : ℕ) : Prop where
  /-- A row that is not drawn is announced by one that is. -/
  marked : paneRows state height = (blockRows state MAX_JOB_ROWS).rows ∨
    ∃ row ∈ paneRows state height, row.saysHidden = true
  /-- The counts of the markers and the job rows are all the jobs, unless the marker of cut rows
  stands for a part of the table. -/
  counted : jobsSaid (paneRows state height) = state.cronJobNames.length ↔
    .truncation ∉ paneRows state height ∨
      (blockRows state (tableLimit state height)).table.length ≤
        height - ((blockRows state MAX_JOB_ROWS).fixed + 1)
  countedWithRoom : (blockRows state MAX_JOB_ROWS).fixed + 4 ≤ height →
    jobsSaid (paneRows state height) = state.cronJobNames.length
  selected : (blockRows state MAX_JOB_ROWS).fixed + 4 ≤ height →
    ∀ job, state.selectedCronJob = some job →
      ∃ row, row.name = job ∧ CronRow.job row true ∈ paneRows state height
  /-- The section of the selected job comes before the table and the older records. -/
  ordered : ((blockRows state MAX_JOB_ROWS).head ++ (blockRows state MAX_JOB_ROWS).reserved) <+:
      paneRows state height ∨
    ∀ row ∈ paneRows state height, row = .truncation ∨
      row ∈ (blockRows state MAX_JOB_ROWS).head ++ (blockRows state MAX_JOB_ROWS).reserved
  complete : isVisible state = true → desiredRows streamRows state ≤ height →
    (blockRows state MAX_JOB_ROWS).length ≤ MAX_DESIRED_ROWS →
      paneRows state height = (blockRows state MAX_JOB_ROWS).rows ∧
        .truncation ∉ paneRows state height

theorem truthful (state : AppState) (height : ℕ) : Truthful state height where
  marked := by
    rcases Nat.lt_or_ge height (blockRows state MAX_JOB_ROWS).length with short | fits
    · exact .inr (exists_saysHidden_paneRows short)
    · exact .inl (paneRows_full fits)
  counted := jobsSaid_paneRows
  countedWithRoom := by
    intro room
    refine jobsSaid_paneRows.mpr ?_
    rw [truncation_mem_paneRows]
    exact or_iff_not_imp_left.mpr fun cut => length_table_le room (not_not.mp cut)
  selected := by
    intro room job isSelected
    rcases selected_mem_table tableLimit_pos isSelected with ⟨row, isName, isRow⟩
    exact ⟨row, isName, mem_paneRows_of_mem_table (length_table_le room) isRow⟩
  ordered := fixed_first_paneRows
  complete := by
    intro visible wanted underCeiling
    have isWanted : desiredRows streamRows state = (blockRows state MAX_JOB_ROWS).length := by
      rw [isVisible] at visible
      rw [desiredRows, if_pos visible, ← length_blockRows, Nat.min_eq_left underCeiling]
    rw [isWanted] at wanted
    rw [paneRows_full wanted]
    exact ⟨rfl, truncation_not_mem_rows⟩

/-- The lines that are drawn are those of the rows. -/
theorem render_eq {display : Display} {area : Rect} {state : AppState} {rowsVisible : ℕ}
    (wide : 0 < area.width) (positive : 0 < min area.height rowsVisible)
    (onTerminal : area.y + min area.height rowsVisible ≤ u16Max) :
    render display area state rowsVisible =
      (paneRows state (min area.height rowsVisible)).zipIdx.map fun entry =>
        lineAt display area entry.1 entry.2 := by
  have inArea : min area.height rowsVisible ≤ area.height := Nat.min_le_left _ _
  have isBounded := @length_paneRows state _ positive
  rw [render, if_neg (by omega)]
  generalize min area.height rowsVisible = height at *
  simp only [fitBlock_eq, decide_eq_true_eq]
  by_cases short : height < (blockRows state (tableLimit state height)).length
  · have isTaken : ((blockRows state (tableLimit state height)).rows.take (height - 1)).length =
        height - 1 := by
      rw [List.length_take, BlockRows.length_rows]
      omega
    rw [if_pos short, if_pos ⟨short, by omega⟩, drawRows_eq wide (by omega) (by omega),
      drawRow_eq wide (by omega) (by omega), paneRows_of_lt short, List.zipIdx_append,
      List.map_append, isTaken, Nat.zero_add]
    rfl
  · have isAll := paneRows_of_le (Nat.le_of_not_lt short)
    rw [isAll] at isBounded
    rw [if_neg short, if_neg fun cut => short cut.1, List.append_nil, isAll,
      List.take_of_length_le isBounded, drawRows_eq wide (by omega) (by omega)]

/-- The cron pane degrades truthfully. -/
theorem render_truthful (display : Display) (area : Rect) (state : AppState) (rowsVisible : ℕ) :
    (∀ line ∈ render display area state rowsVisible, line.Within display area) ∧
      (0 < area.width → 0 < min area.height rowsVisible →
        area.y + min area.height rowsVisible ≤ u16Max →
          render display area state rowsVisible =
              (paneRows state (min area.height rowsVisible)).zipIdx.map (fun entry =>
                lineAt display area entry.1 entry.2) ∧
            Truthful state (min area.height rowsVisible)) :=
  ⟨fun _ isLine => within_render isLine, fun wide positive onTerminal =>
    ⟨render_eq wide positive onTerminal, truthful state _⟩⟩

section Samples

/-- A terminal whose characters are one column wide. -/
def narrow : Display where
  charWidth _ := 1
  textWidth := List.length
  fixed _ := "0.00"
  nowUnixMs := 0
  capability _ := .supported
  charWidth_ellipsis := rfl

/-- The pane is open on a system with one job, which has not run yet. -/
def oneJob : AppState :=
  { AppState.blank with
    cron :=
      [{  systemId := "a"
          summary := some
            { schemaVersion := 2, generatedAtUnixMs := 0, epoch := ⟨0, 0⟩, historyRevision := 0
              jobs :=
                [{  name := "backup", schedule := "0 3 * * *", nextDueUnixMs := 0, state := .idle
                    load := none, pendingSinceUnixMs := none, nextRetryUnixMs := none
                    runningSinceUnixMs := none, last := none }] }
          lastError := none
          history := [] }]
    selectedId := some "a"
    cronExpanded := true }

/-- A system with thirty jobs, of which the first has nine records. -/
def thirtyJobs : AppState :=
  { AppState.blank with
    cron :=
      [{  systemId := "a"
          summary := some
            { schemaVersion := 2, generatedAtUnixMs := 0, epoch := ⟨0, 0⟩, historyRevision := 0
              jobs := (List.range 30).map fun index =>
                { name := toString index, schedule := "0 3 * * *", nextDueUnixMs := 0
                  state := .idle, load := none, pendingSinceUnixMs := none
                  nextRetryUnixMs := none, runningSinceUnixMs := none, last := none } }
          lastError := none
          history :=
            [{  job := "0"
                records := (List.range 9).map fun index =>
                  ⟨⟨0, 0⟩,
                    { sequence := index, scheduledUnixMs := 0, startedUnixMs := some 0
                      finishedUnixMs := 0, outcome := .success, exitCode := some 0, signal := none
                      durationMs := some 0, delayMs := 0, coalesced := false
                      stdout := ⟨[], false⟩, stderr := ⟨[], false⟩ }⟩ }] }]
    cronDisplayHistory := 9
    selectedId := some "a"
    cronExpanded := true }

/-- In the most lines the pane asks for, the block of thirty jobs is cut. -/
theorem render_truthful_thirtyJobs :
    35 < (blockRows thirtyJobs MAX_JOB_ROWS).length ∧ .truncation ∈ paneRows thirtyJobs 35 ∧
      (render narrow ⟨0, 0, 80, 35, by decide, by decide⟩ thirtyJobs 35).length = 35 ∧
      Truthful thirtyJobs 35 := by
  have isTruthful := render_truthful narrow ⟨0, 0, 80, 35, by decide, by decide⟩ thirtyJobs 35
  rcases isTruthful.2 (by decide) (by decide) (by decide) with ⟨isDrawn, truthful⟩
  refine ⟨by decide +kernel, truncation_mem_paneRows.mpr (by decide +kernel), ?_, truthful⟩
  rw [isDrawn, List.length_map, List.length_zipIdx]
  decide +kernel

/-- In two lines the marker takes the place of the only job row, which nothing counts. Below the
last coordinate of a terminal nothing is drawn. -/
theorem twoLines_oneJob :
    isVisible oneJob = true ∧ oneJob.cronJobNames.length = 1 ∧
      paneRows oneJob 2 = (blockRows oneJob 24).head ++ [.truncation] ∧
      jobsSaid (paneRows oneJob 2) = 0 ∧
      (render narrow ⟨0, 0, 80, 2, by decide, by decide⟩ oneJob 2).map (·.text) =
        ["CRON  1 jobs".toList, "  … more cron rows not shown".toList] ∧
      render narrow ⟨0, 65535, 80, 1, by decide, by decide⟩ oneJob 1 = [] :=
  ⟨by decide, by decide, rfl, rfl, by decide +kernel, by decide⟩

end Samples

end Gregg.Tui.CronPane
