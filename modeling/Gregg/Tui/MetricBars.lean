import Gregg.Tui.DriveTable

/-!
# The metric bars of the fleet

Every online system has a row for each of its metrics: a label, a bar between brackets, and a suffix
with the percentage and a detail. The layout is computed once for all systems, so that the brackets
of all rows stand in the same cells; each system then fits its own suffixes behind its bars.
-/

namespace Gregg.Tui.MetricBars

open CronPane (truncateWidth)
open DriveTable (cells cells_append cells_of_visible cells_spaces foldr_max_le_iff formatBytes
  formatRate spaces)
open Fleet (NormalizedDrive NormalizedNetwork NormalizedSnapshot)

/-- What the texts of the rows depend on: percentages and frequencies as texts, shares as
percentages, and the part of a bar that a percentage fills. -/
structure MetricDisplay extends DriveTable.TableDisplay where
  formatPct : F32 → String
  formatFrequency : ℕ → String
  share : ℕ → ℕ → F32
  utilization : NormalizedNetwork → Option F32
  filled : F32 → ℕ → ℕ

inductive MetricLabel where
  | cpu
  | mem
  | swp
  | commit
  | disk
  | net

def MetricLabel.text : MetricLabel → List Char
  | .cpu => ['C', 'P', 'U']
  | .mem => ['M', 'E', 'M']
  | .swp => ['S', 'W', 'P']
  | .commit => ['C', 'O', 'M', 'M', 'I', 'T']
  | .disk => ['D', 'I', 'S', 'K']
  | .net => ['N', 'E', 'T']

structure MetricRow where
  label : MetricLabel
  /-- `none` for a metric that is not available. -/
  pct : Option F32
  detail : Option String

structure DriveAggregate where
  usedBytes : ℕ
  totalBytes : ℕ
  availableBytes : ℕ

/-- The geometry that the rows of all systems share. -/
structure MetricFleetLayout where
  labelWidth : ℕ
  barWidth : ℕ
  showSuffix : Bool

/-- One turn of the sum over drives, which leaves out those that make no sense or overflow it. -/
def accumulate (sum : Option DriveAggregate) (drive : NormalizedDrive) : Option DriveAggregate :=
  let before := sum.getD ⟨0, 0, 0⟩
  let available := drive.availableBytes.getD (drive.totalBytes - drive.usedBytes)
  if drive.totalBytes = 0 ∨ drive.totalBytes < drive.usedBytes ∨ drive.totalBytes < available ∨
      u64Max < before.usedBytes + drive.usedBytes ∨
      u64Max < before.totalBytes + drive.totalBytes ∨
      u64Max < before.availableBytes + available then sum
  else
    some
      { usedBytes := before.usedBytes + drive.usedBytes
        totalBytes := before.totalBytes + drive.totalBytes
        availableBytes := before.availableBytes + available }

def aggregateDrives (drives : List NormalizedDrive) : Option DriveAggregate :=
  (drives.foldl accumulate none).filter fun sum => sum.totalBytes ≠ 0

section Rows

variable (display : MetricDisplay)

def defaultSuffix (row : MetricRow) : List Char :=
  match row.pct, row.detail with
  | none, detail => (detail.getD "—").toList
  | some pct, none => (display.formatPct pct).toList
  | some pct, some detail =>
      if detail.isEmpty then (display.formatPct pct).toList
      else (s!"{display.formatPct pct} {detail}").toList

def percentageOnlySuffix (row : MetricRow) : List Char :=
  (row.pct.elim "—" display.formatPct).toList

def usedOf (used total : ℕ) : String :=
  s!"{formatBytes used}/{formatBytes total}"

/-- The rows of a system, without one for the network where it has no telemetry of it. -/
def buildMetricRows (snap : NormalizedSnapshot) : List MetricRow :=
  let frequency := snap.cpuFrequencyHz.elim "" fun hz => s!" {display.formatFrequency hz}"
  let cpu : MetricRow :=
    { label := .cpu
      pct := some snap.usagePct
      detail := some s!"{snap.logicalCores} cores{frequency}" }
  let mem : MetricRow :=
    { label := .mem
      pct := some snap.memory.usagePct
      detail := some (usedOf snap.memory.usedBytes snap.memory.totalBytes) }
  let third : MetricRow :=
    match snap.swap, snap.commit with
    | some swap, _ =>
        if swap.totalBytes = 0 then { label := .swp, pct := none, detail := none }
        else
          { label := .swp
            pct := some swap.usagePct
            detail := some (usedOf swap.usedBytes swap.totalBytes) }
    | none, some commit =>
        { label := .commit
          pct := some commit.usagePct
          detail := some (usedOf commit.usedBytes commit.limitBytes) }
    | none, none => { label := .swp, pct := none, detail := none }
  let disk : MetricRow :=
    match snap.drives.bind aggregateDrives with
    | some sum =>
        { label := .disk
          pct := some (display.share sum.usedBytes sum.totalBytes)
          detail := some s!"{formatBytes sum.usedBytes} / {formatBytes sum.totalBytes}" }
    | none => { label := .disk, pct := none, detail := none }
  let network : List MetricRow :=
    snap.network.toList.map fun network =>
      { label := .net
        pct := display.utilization network
        detail := some <|
          s!"{formatRate network.aggregateRxBytesPerSec} rx " ++
            s!"{formatRate network.aggregateTxBytesPerSec} tx" }
  [cpu, mem, third, disk] ++ network

def labelWidth (row : MetricRow) : ℕ :=
  toU16 (cells display.toTableDisplay row.label.text)

def METRIC_ROW_INDENT : ℕ := 4

def METRIC_SUFFIX_GAP_CELLS : ℕ := 2

def metricPrefixWidth (labelWidth : ℕ) : ℕ :=
  satAdd16 (satAdd16 METRIC_ROW_INDENT labelWidth) 2

def metricCompactPrefixWidth (labelWidth : ℕ) : ℕ :=
  satAdd16 (metricPrefixWidth labelWidth) 1

/-- The width of the widest of some texts. -/
def maxDisplay (texts : List (List Char)) : ℕ :=
  (texts.map (cells display.toTableDisplay)).foldr max 0

/-- The suffixes of a system within a budget: in their natural form, without details, or cut. -/
def resolveMetricSuffixes (rows : List MetricRow) (budget : ℕ) : List (List Char) :=
  if budget = 0 then rows.map fun _ => []
  else if maxDisplay display (rows.map (defaultSuffix display)) ≤ budget then
    rows.map (defaultSuffix display)
  else if maxDisplay display (rows.map (percentageOnlySuffix display)) ≤ budget then
    rows.map (percentageOnlySuffix display)
  else
    rows.map fun row =>
      truncateWidth display.toDisplay (percentageOnlySuffix display row) budget

def shouldSuppressSuffix (width longestSuffixWidth : ℕ) : Bool :=
  width < longestSuffixWidth * 4

/-- The widest label of the fleet. -/
def widestLabel (systems : List (List MetricRow)) : ℕ :=
  ((systems.flatten.map (labelWidth display)).foldr max 0)

/-- The widest natural suffix of the fleet. -/
def widestNatural (systems : List (List MetricRow)) : ℕ :=
  (systems.map fun rows => maxDisplay display (rows.map (defaultSuffix display))).foldr max 0

/-- The widest suffix of the fleet within a budget. -/
def widestSuffix (systems : List (List MetricRow)) (budget : ℕ) : ℕ :=
  (systems.map fun rows => maxDisplay display (resolveMetricSuffixes display rows budget)).foldr
    max 0

def computeFleetMetricLayout (systems : List (List MetricRow)) (width : ℕ) : MetricFleetLayout :=
  let labelWidth := widestLabel display systems
  if shouldSuppressSuffix width (widestNatural display systems) then
    { labelWidth, barWidth := width - metricCompactPrefixWidth labelWidth, showSuffix := false }
  else
    let budget := width - (metricPrefixWidth labelWidth + METRIC_SUFFIX_GAP_CELLS)
    { labelWidth
      barWidth := budget - toU16 (widestSuffix display systems budget)
      showSuffix := true }

def resolveSystemSuffixes (rows : List MetricRow) (width : ℕ) (layout : MetricFleetLayout) :
    List (List Char) :=
  if !layout.showSuffix then rows.map fun _ => []
  else
    resolveMetricSuffixes display rows
      (width - (metricPrefixWidth layout.labelWidth + METRIC_SUFFIX_GAP_CELLS) - layout.barWidth)

def makeBarString (pct : Option F32) (barWidth : ℕ) : List Char :=
  match pct with
  | some pct =>
      let filled := min (display.filled pct barWidth) barWidth
      List.replicate filled '|' ++ spaces (barWidth - filled)
  | none => spaces barWidth

/-- A label behind its indent, padded by the number of its characters. -/
def paddedLabel (row : MetricRow) (layout : MetricFleetLayout) : List Char :=
  spaces METRIC_ROW_INDENT ++ row.label.text ++
    spaces (layout.labelWidth - row.label.text.length)

def renderMetricRow (row : MetricRow) (layout : MetricFleetLayout) (suffix : List Char) :
    List Char :=
  let label := paddedLabel row layout
  let bar := makeBarString display row.pct layout.barWidth
  if layout.barWidth = 0 then
    if suffix.isEmpty then label else label ++ spaces 2 ++ suffix
  else if !layout.showSuffix then label ++ [' ', '['] ++ bar ++ [']']
  else label ++ [' ', '['] ++ bar ++ [']', ' '] ++ suffix

/-- The rows of a system with their suffixes. -/
def systemRows (rows : List MetricRow) (width : ℕ) (layout : MetricFleetLayout) :
    List (MetricRow × List Char) :=
  rows.zip (resolveSystemSuffixes display rows width layout)

end Rows

section Widths

variable {display : MetricDisplay} {rows : List MetricRow} {row : MetricRow}
  {systems : List (List MetricRow)} {layout : MetricFleetLayout} {width budget : ℕ}

theorem maxDisplay_le_iff {texts : List (List Char)} {bound : ℕ} :
    maxDisplay display texts ≤ bound ↔
      ∀ text ∈ texts, cells display.toTableDisplay text ≤ bound := by
  rw [maxDisplay, foldr_max_le_iff, List.forall_mem_map]

/-- Every suffix fits the budget. -/
theorem maxDisplay_resolveMetricSuffixes_le (rows : List MetricRow) (budget : ℕ) :
    maxDisplay display (resolveMetricSuffixes display rows budget) ≤ budget := by
  rw [resolveMetricSuffixes]
  split
  · rw [maxDisplay_le_iff, List.forall_mem_map]
    exact fun _ _ => Nat.zero_le _
  · split
    · assumption
    · split
      · assumption
      · rw [maxDisplay_le_iff, List.forall_mem_map]
        exact fun _ _ => CronPane.width_truncateWidth _ _

theorem widestSuffix_le (systems : List (List MetricRow)) (budget : ℕ) :
    widestSuffix display systems budget ≤ budget := by
  rw [widestSuffix, foldr_max_le_iff, List.forall_mem_map]
  exact fun rows _ => maxDisplay_resolveMetricSuffixes_le rows budget

theorem cells_label (label : MetricLabel) :
    cells display.toTableDisplay label.text = label.text.length := by
  refine cells_of_visible ?_
  cases label <;> exact List.all_iff_forall_prop.mp (by decide)

theorem labelWidth_eq (row : MetricRow) : labelWidth display row = row.label.text.length := by
  rw [labelWidth, cells_label]
  cases row.label <;> rfl

theorem length_le_widestLabel (isSystem : rows ∈ systems) (isRow : row ∈ rows) :
    row.label.text.length ≤ widestLabel display systems := by
  rw [← @labelWidth_eq display]
  exact foldr_max_le_iff.mp (Nat.le_refl _) _
    (List.mem_map_of_mem (List.mem_flatten.mpr ⟨rows, isSystem, isRow⟩))

theorem cells_paddedLabel (fits : row.label.text.length ≤ layout.labelWidth) :
    cells display.toTableDisplay (paddedLabel row layout) =
      METRIC_ROW_INDENT + layout.labelWidth := by
  rw [paddedLabel, cells_append, cells_append, cells_spaces, cells_spaces, cells_label]
  omega

theorem cells_makeBarString (pct : Option F32) (barWidth : ℕ) :
    cells display.toTableDisplay (makeBarString display pct barWidth) = barWidth := by
  cases pct with
  | none => exact cells_spaces barWidth
  | some pct =>
      have filled : cells display.toTableDisplay
          (List.replicate (min (display.filled pct barWidth) barWidth) '|') =
            min (display.filled pct barWidth) barWidth := by
        rw [cells_of_visible, List.length_replicate]
        intro character isMember
        rw [List.eq_of_mem_replicate isMember]
        decide
      rw [makeBarString, cells_append, filled, cells_spaces]
      omega

/-- The second budget of a system is the widest suffix within the first one. -/
theorem budget_eq (isU16 : width ≤ u16Max) :
    let budget := width -
      (metricPrefixWidth (widestLabel display systems) + METRIC_SUFFIX_GAP_CELLS)
    budget - (budget - toU16 (widestSuffix display systems budget)) =
      widestSuffix display systems budget := by
  intro budget
  have atMost : widestSuffix display systems budget ≤ budget := widestSuffix_le systems budget
  have notCut : toU16 (widestSuffix display systems budget) =
      widestSuffix display systems budget := by
    rw [toU16]
    omega
  omega

end Widths

section Lines

variable (display : MetricDisplay)

/-- The brackets of a line stand at these cells. -/
def Bracketed (line : List Char) (opening closing : ℕ) : Prop :=
  ∃ front bar back, line = front ++ ['['] ++ bar ++ [']'] ++ back ∧
    cells display.toTableDisplay front = opening ∧
    cells display.toTableDisplay (front ++ ['['] ++ bar) = closing

/-- The row has no brackets. -/
def Unbracketed (row : MetricRow) (layout : MetricFleetLayout) (suffix line : List Char) : Prop :=
  line = paddedLabel row layout ∨ line = paddedLabel row layout ++ spaces 2 ++ suffix

/-- The row ends with its bar. -/
def BarOnly (row : MetricRow) (layout : MetricFleetLayout) (line : List Char) : Prop :=
  ∃ bar, line = paddedLabel row layout ++ [' ', '['] ++ bar ++ [']']

/-- A suffix is the percentage, as far as there is room. -/
def ShowsNoDetail (row : MetricRow) (suffix : List Char) : Prop :=
  suffix = percentageOnlySuffix display row ∨
    ∃ room, suffix = truncateWidth display.toDisplay (percentageOnlySuffix display row) room

/-- The rows of all systems with a layout: their brackets, their widths and their suffixes. -/
structure LinesUp (systems : List (List MetricRow)) (width : ℕ) (layout : MetricFleetLayout) :
    Prop where
  brackets :
    (∀ rows ∈ systems, ∀ shown ∈ systemRows display rows width layout,
      Unbracketed shown.1 layout shown.2 (renderMetricRow display shown.1 layout shown.2)) ∨
    ∃ opening closing, ∀ rows ∈ systems, ∀ shown ∈ systemRows display rows width layout,
      Bracketed display (renderMetricRow display shown.1 layout shown.2) opening closing
  fits : ∀ rows ∈ systems, ∀ shown ∈ systemRows display rows width layout,
    cells display.toTableDisplay (renderMetricRow display shown.1 layout shown.2) ≤ width
  details : ∀ rows ∈ systems,
    resolveSystemSuffixes display rows width layout = rows.map (defaultSuffix display) ∨
      ∀ shown ∈ systemRows display rows width layout, ShowsNoDetail display shown.1 shown.2
  isShown : layout.showSuffix = true ↔ 4 * widestNatural display systems ≤ width
  isHidden : layout.showSuffix = false →
    ∀ rows ∈ systems, ∀ shown ∈ systemRows display rows width layout,
      BarOnly shown.1 layout (renderMetricRow display shown.1 layout shown.2)

variable {display} {rows : List MetricRow} {shown : MetricRow × List Char}
  {systems : List (List MetricRow)} {layout : MetricFleetLayout} {width : ℕ}

theorem showSuffix_iff (systems : List (List MetricRow)) (width : ℕ) :
    (computeFleetMetricLayout display systems width).showSuffix = true ↔
      4 * widestNatural display systems ≤ width := by
  rw [computeFleetMetricLayout, shouldSuppressSuffix]
  split
  · rename_i suppressed
    rw [decide_eq_true_eq] at suppressed
    exact iff_of_false Bool.false_ne_true (by omega)
  · rename_i fits
    rw [decide_eq_true_eq] at fits
    exact iff_of_true rfl (by omega)

theorem labelWidth_computeFleetMetricLayout (systems : List (List MetricRow)) (width : ℕ) :
    (computeFleetMetricLayout display systems width).labelWidth = widestLabel display systems := by
  rw [computeFleetMetricLayout]
  split <;> rfl

/-- The suffixes of a system are in one form. -/
theorem resolveMetricSuffixes_cases (rows : List MetricRow) (budget : ℕ) :
    resolveMetricSuffixes display rows budget = rows.map (defaultSuffix display) ∨
      ∃ suffixOf : MetricRow → List Char,
        resolveMetricSuffixes display rows budget = rows.map suffixOf ∧
          ∀ row, ShowsNoDetail display row (suffixOf row) := by
  rw [resolveMetricSuffixes]
  split
  · exact .inr ⟨_, rfl, fun row => .inr ⟨0, rfl⟩⟩
  · split
    · exact .inl rfl
    · split
      · exact .inr ⟨_, rfl, fun row => .inl rfl⟩
      · exact .inr ⟨_, rfl, fun row => .inr ⟨_, rfl⟩⟩

theorem resolveSystemSuffixes_cases (rows : List MetricRow) (width : ℕ)
    (layout : MetricFleetLayout) :
    resolveSystemSuffixes display rows width layout = rows.map (defaultSuffix display) ∨
      ∀ shown ∈ systemRows display rows width layout, ShowsNoDetail display shown.1 shown.2 := by
  have fromForm : ∀ suffixOf : MetricRow → List Char,
      (∀ row, ShowsNoDetail display row (suffixOf row)) →
        ∀ shown ∈ rows.zip (rows.map suffixOf), ShowsNoDetail display shown.1 shown.2 := by
    intro suffixOf noDetail shown isShown
    rw [← List.map_prod_left_eq_zip, List.mem_map] at isShown
    rcases isShown with ⟨row, -, rfl⟩
    exact noDetail row
  rw [systemRows, resolveSystemSuffixes]
  split
  · exact .inr (fromForm _ fun row => .inr ⟨0, rfl⟩)
  · rcases @resolveMetricSuffixes_cases display rows (width -
      (metricPrefixWidth layout.labelWidth + METRIC_SUFFIX_GAP_CELLS) - layout.barWidth) with
      natural | ⟨suffixOf, isForm, noDetail⟩
    · exact .inl natural
    · rw [isForm]
      exact .inr (fromForm suffixOf noDetail)

theorem cells_pair : cells display.toTableDisplay [' ', '['] = 2 ∧
    cells display.toTableDisplay [']', ' '] = 2 ∧ cells display.toTableDisplay ['['] = 1 ∧
    cells display.toTableDisplay [']'] = 1 ∧ cells display.toTableDisplay [' '] = 1 := by
  refine ⟨?_, ?_, ?_, ?_, ?_⟩ <;>
    exact cells_of_visible (List.all_iff_forall_prop.mp (by decide))

/-- The brackets of a row with a bar stand where the layout says. -/
theorem bracketed_renderMetricRow (row : MetricRow) (suffix : List Char)
    (fits : row.label.text.length ≤ layout.labelWidth) (hasBar : layout.barWidth ≠ 0) :
    Bracketed display (renderMetricRow display row layout suffix)
      (METRIC_ROW_INDENT + layout.labelWidth + 1)
      (METRIC_ROW_INDENT + layout.labelWidth + 1 + 1 + layout.barWidth) := by
  have front : cells display.toTableDisplay (paddedLabel row layout ++ [' ']) =
      METRIC_ROW_INDENT + layout.labelWidth + 1 := by
    rw [cells_append, cells_paddedLabel fits, cells_pair.2.2.2.2]
  have whole : cells display.toTableDisplay (paddedLabel row layout ++ [' '] ++ ['['] ++
      makeBarString display row.pct layout.barWidth) =
        METRIC_ROW_INDENT + layout.labelWidth + 1 + 1 + layout.barWidth := by
    rw [cells_append, cells_append, front, cells_makeBarString, cells_pair.2.2.1]
  rw [renderMetricRow, if_neg hasBar]
  split
  · exact ⟨_, _, [], by simp, front, whole⟩
  · exact ⟨_, _, [' '] ++ suffix, by simp, front, whole⟩

/-- The cells of a row. -/
theorem cells_renderMetricRow_le (row : MetricRow) (suffix : List Char)
    (fits : row.label.text.length ≤ layout.labelWidth)
    (room : METRIC_ROW_INDENT + layout.labelWidth + 2 + layout.barWidth +
      (if layout.showSuffix then METRIC_SUFFIX_GAP_CELLS + cells display.toTableDisplay suffix
        else 1) ≤ width)
    (isEmpty : layout.showSuffix = false → suffix = []) :
    cells display.toTableDisplay (renderMetricRow display row layout suffix) ≤ width := by
  have label := @cells_paddedLabel display row layout fits
  have bar := @cells_makeBarString display row.pct layout.barWidth
  simp only [METRIC_SUFFIX_GAP_CELLS] at room
  rw [renderMetricRow]
  split
  · split
    · omega
    · rename_i nonempty
      have isShown : layout.showSuffix = true := by
        by_contra isHidden
        exact nonempty (List.isEmpty_iff.mpr (isEmpty (Bool.not_eq_true _ ▸ isHidden)))
      rw [if_pos isShown] at room
      rw [cells_append, cells_append, label, cells_spaces]
      omega
  · split
    · rename_i isHidden
      rw [if_neg (by simpa using isHidden)] at room
      rw [cells_append, cells_append, cells_append, label, bar, cells_pair.1,
        cells_pair.2.2.2.1]
      omega
    · rename_i isShown
      rw [if_pos (by simpa using isShown)] at room
      rw [cells_append, cells_append, cells_append, cells_append, label, bar, cells_pair.1,
        cells_pair.2.1]
      omega

/-- The prefix of the rows, which does not saturate on a terminal that has room for it. -/
theorem metricPrefixWidth_eq {labelWidth : ℕ} (isU16 : width ≤ u16Max)
    (wide : metricPrefixWidth labelWidth + METRIC_SUFFIX_GAP_CELLS ≤ width) :
    metricPrefixWidth labelWidth = METRIC_ROW_INDENT + labelWidth + 2 ∧
      metricCompactPrefixWidth labelWidth = METRIC_ROW_INDENT + labelWidth + 3 := by
  simp only [metricCompactPrefixWidth, metricPrefixWidth, METRIC_SUFFIX_GAP_CELLS,
    METRIC_ROW_INDENT, satAdd16, u16Max] at *
  omega

theorem barWidth_of_shown
    (isShown : (computeFleetMetricLayout display systems width).showSuffix = true) :
    (computeFleetMetricLayout display systems width).barWidth =
      width - (metricPrefixWidth (widestLabel display systems) + METRIC_SUFFIX_GAP_CELLS) -
        toU16 (widestSuffix display systems
          (width - (metricPrefixWidth (widestLabel display systems) +
            METRIC_SUFFIX_GAP_CELLS))) := by
  rw [computeFleetMetricLayout] at isShown ⊢
  split at isShown
  · cases isShown
  · rename_i fits
    rw [if_neg fits]

/-- The room of the suffixes, once the bars have theirs. -/
theorem room_of_shown (isU16 : width ≤ u16Max)
    (wide : metricPrefixWidth (widestLabel display systems) + METRIC_SUFFIX_GAP_CELLS ≤ width)
    (isShown : (computeFleetMetricLayout display systems width).showSuffix = true)
    (isRow : shown ∈ systemRows display rows width
      (computeFleetMetricLayout display systems width)) :
    METRIC_ROW_INDENT + widestLabel display systems + 2 +
        (computeFleetMetricLayout display systems width).barWidth +
      (METRIC_SUFFIX_GAP_CELLS + cells display.toTableDisplay shown.2) ≤ width := by
  have isPrefix := (metricPrefixWidth_eq isU16 wide).1
  have isLabel := @labelWidth_computeFleetMetricLayout display systems width
  have suffixMem := (List.of_mem_zip isRow).2
  rw [resolveSystemSuffixes, isShown, Bool.not_true, if_neg Bool.false_ne_true,
    isLabel] at suffixMem
  have atMost := maxDisplay_le_iff.mp
    (@maxDisplay_resolveMetricSuffixes_le display rows _) shown.2 suffixMem
  have isBar := barWidth_of_shown isShown
  omega

theorem barWidth_of_hidden (isU16 : width ≤ u16Max)
    (wide : metricPrefixWidth (widestLabel display systems) + METRIC_SUFFIX_GAP_CELLS ≤ width)
    (isHidden : (computeFleetMetricLayout display systems width).showSuffix = false) :
    (computeFleetMetricLayout display systems width).barWidth =
      width - (METRIC_ROW_INDENT + widestLabel display systems + 3) := by
  have isPrefix := (metricPrefixWidth_eq isU16 wide).2
  rw [computeFleetMetricLayout] at isHidden ⊢
  split at isHidden
  · rename_i suppressed
    rw [if_pos suppressed, ← isPrefix]
  · cases isHidden

/-- The rows of a fleet line up on every terminal with room for the labels. -/
theorem linesUp_computeFleetMetricLayout (isU16 : width ≤ u16Max)
    (wide : metricPrefixWidth (widestLabel display systems) + METRIC_SUFFIX_GAP_CELLS ≤ width) :
    LinesUp display systems width (computeFleetMetricLayout display systems width) := by
  have isLabel := @labelWidth_computeFleetMetricLayout display systems width
  have isPrefix := metricPrefixWidth_eq isU16 wide
  have labelFits : ∀ rows ∈ systems, ∀ shown ∈ systemRows display rows width
      (computeFleetMetricLayout display systems width), shown.1.label.text.length ≤
        (computeFleetMetricLayout display systems width).labelWidth := by
    intro rows isSystem shown isRow
    rw [isLabel]
    exact length_le_widestLabel isSystem (List.of_mem_zip isRow).1
  have isEmpty : (computeFleetMetricLayout display systems width).showSuffix = false →
      ∀ rows ∈ systems, ∀ shown ∈ systemRows display rows width
        (computeFleetMetricLayout display systems width), shown.2 = [] := by
    intro isHidden rows isSystem shown isRow
    have suffixMem := (List.of_mem_zip isRow).2
    rw [resolveSystemSuffixes, isHidden, Bool.not_false, if_pos rfl, List.mem_map] at suffixMem
    rcases suffixMem with ⟨_, -, same⟩
    exact same.symm
  refine ⟨?_, ?_, fun rows _ => resolveSystemSuffixes_cases rows width _, showSuffix_iff _ _, ?_⟩
  · by_cases noBar : (computeFleetMetricLayout display systems width).barWidth = 0
    · left
      intro rows isSystem shown isRow
      rw [Unbracketed, renderMetricRow, if_pos noBar]
      split
      · exact .inl rfl
      · exact .inr rfl
    · right
      exact ⟨_, _, fun rows isSystem shown isRow =>
        bracketed_renderMetricRow shown.1 shown.2 (labelFits rows isSystem shown isRow) noBar⟩
  · intro rows isSystem shown isRow
    refine cells_renderMetricRow_le shown.1 shown.2 (labelFits rows isSystem shown isRow) ?_
      fun isHidden => isEmpty isHidden rows isSystem shown isRow
    rw [isLabel]
    split
    · rename_i isShown
      exact room_of_shown isU16 wide isShown isRow
    · rename_i isHidden
      rw [barWidth_of_hidden isU16 wide (by simpa using isHidden)]
      simp only [METRIC_SUFFIX_GAP_CELLS] at wide
      omega
  · intro isHidden rows isSystem shown isRow
    have hasBar : (computeFleetMetricLayout display systems width).barWidth ≠ 0 := by
      rw [barWidth_of_hidden isU16 wide isHidden]
      simp only [METRIC_SUFFIX_GAP_CELLS] at wide
      omega
    rw [BarOnly, renderMetricRow, if_neg hasBar, isHidden, Bool.not_false, if_pos rfl]
    exact ⟨_, rfl⟩

/-- The natural suffix of the processor says its cores. -/
theorem six_le_buildMetricRows (snap : NormalizedSnapshot) :
    6 ≤ maxDisplay display ((buildMetricRows display snap).map (defaultSuffix display)) := by
  have isText : ∀ pct cores frequency : String,
      (pct ++ " " ++ (cores ++ " cores" ++ frequency)).toList =
        (pct ++ " " ++ cores).toList ++ " cores".toList ++ frequency.toList := by
    intro pct cores frequency
    simp only [← String.toList_append, String.append_assoc]
  have isCpu : ∃ row ∈ buildMetricRows display snap, ∃ front back,
      defaultSuffix display row = front ++ " cores".toList ++ back := by
    refine ⟨_, List.mem_append_left _ List.mem_cons_self, ?_⟩
    simp only [defaultSuffix]
    split
    · rename_i isEmpty
      simp at isEmpty
    · exact ⟨_, _, isText (display.formatPct snap.usagePct) (toString snap.logicalCores) _⟩
  rcases isCpu with ⟨row, isRow, front, back, isSuffix⟩
  have cores : cells display.toTableDisplay " cores".toList = 6 :=
    cells_of_visible (List.all_iff_forall_prop.mp (by decide))
  have atMost := maxDisplay_le_iff.mp (Nat.le_refl (maxDisplay display
    ((buildMetricRows display snap).map (defaultSuffix display)))) _ (List.mem_map_of_mem isRow)
  rw [isSuffix, cells_append, cells_append, cores] at atMost
  omega

theorem length_label_le (label : MetricLabel) : label.text.length ≤ 6 := by
  cases label <;> decide

theorem widestLabel_le (systems : List (List MetricRow)) : widestLabel display systems ≤ 6 := by
  rw [widestLabel, foldr_max_le_iff, List.forall_mem_map]
  intro row _
  rw [labelWidth_eq]
  exact length_label_le row.label

/-- Where the natural suffixes of systems are shown, there is room for all of them. -/
theorem natural_of_shown (isU16 : width ≤ u16Max)
    (wide : metricPrefixWidth (widestLabel display systems) + METRIC_SUFFIX_GAP_CELLS ≤ width)
    {snapshots : List NormalizedSnapshot}
    (areSystems : systems = snapshots.map (buildMetricRows display))
    (isShown : 4 * widestNatural display systems ≤ width) (isSystem : rows ∈ systems) :
    resolveSystemSuffixes display rows width (computeFleetMetricLayout display systems width) =
        rows.map (defaultSuffix display) ∧
      (computeFleetMetricLayout display systems width).barWidth ≠ 0 := by
  have isPrefix := (metricPrefixWidth_eq isU16 wide).1
  have isLabel := @labelWidth_computeFleetMetricLayout display systems width
  have shortLabel := @widestLabel_le display systems
  have natural : ∀ rows ∈ systems, maxDisplay display (rows.map (defaultSuffix display)) ≤
      widestNatural display systems := fun rows isSystem =>
    foldr_max_le_iff.mp (Nat.le_refl _) _ (List.mem_map_of_mem isSystem)
  have six : 6 ≤ widestNatural display systems := by
    have inSystems := isSystem
    rw [areSystems] at inSystems
    rcases List.mem_map.mp inSystems with ⟨snap, -, rfl⟩
    exact (six_le_buildMetricRows snap).trans (natural _ isSystem)
  have room : widestNatural display systems ≤
      width - (metricPrefixWidth (widestLabel display systems) + METRIC_SUFFIX_GAP_CELLS) := by
    simp only [isPrefix, METRIC_ROW_INDENT, METRIC_SUFFIX_GAP_CELLS]
    omega
  have resolved : ∀ rows ∈ systems, ∀ budget, widestNatural display systems ≤ budget →
      resolveMetricSuffixes display rows budget = rows.map (defaultSuffix display) := by
    intro rows isSystem budget enough
    rw [resolveMetricSuffixes, if_neg (by omega), if_pos ((natural rows isSystem).trans enough)]
  have isWidest : widestSuffix display systems
      (width - (metricPrefixWidth (widestLabel display systems) + METRIC_SUFFIX_GAP_CELLS)) =
        widestNatural display systems := by
    rw [widestSuffix, widestNatural]
    refine congrArg _ (List.map_congr_left fun rows isSystem => ?_)
    rw [resolved rows isSystem _ room]
  have isBudget := @budget_eq display systems width isU16
  have flag := (showSuffix_iff systems width).mpr isShown
  have isBar : (computeFleetMetricLayout display systems width).barWidth =
      width - (metricPrefixWidth (widestLabel display systems) + METRIC_SUFFIX_GAP_CELLS) -
        toU16 (widestNatural display systems) := by
    rw [barWidth_of_shown flag, isWidest]
  have notCut : toU16 (widestNatural display systems) = widestNatural display systems := by
    rw [toU16]
    omega
  constructor
  · rw [resolveSystemSuffixes, flag, Bool.not_true, if_neg Bool.false_ne_true, isLabel, isBar]
    exact resolved rows isSystem _ (by omega)
  · rw [isBar, notCut, isPrefix]
    simp only [METRIC_ROW_INDENT, METRIC_SUFFIX_GAP_CELLS]
    omega

/-- The bars of a fleet line up, and the suffixes of its systems are shown where there is room. -/
theorem metricBars_lineUp (isU16 : width ≤ u16Max)
    (wide : metricPrefixWidth (widestLabel display systems) + METRIC_SUFFIX_GAP_CELLS ≤ width) :
    LinesUp display systems width (computeFleetMetricLayout display systems width) ∧
      ∀ snapshots : List NormalizedSnapshot, systems = snapshots.map (buildMetricRows display) →
        4 * widestNatural display systems ≤ width → ∀ rows ∈ systems,
          resolveSystemSuffixes display rows width
              (computeFleetMetricLayout display systems width) =
            rows.map (defaultSuffix display) ∧
          ∀ shown ∈ systemRows display rows width
              (computeFleetMetricLayout display systems width),
            renderMetricRow display shown.1 (computeFleetMetricLayout display systems width)
                shown.2 =
              paddedLabel shown.1 (computeFleetMetricLayout display systems width) ++ [' ', '['] ++
                makeBarString display shown.1.pct
                  (computeFleetMetricLayout display systems width).barWidth ++
                [']', ' '] ++ shown.2 := by
  refine ⟨linesUp_computeFleetMetricLayout isU16 wide, ?_⟩
  intro snapshots areSystems isShown rows isSystem
  rcases natural_of_shown isU16 wide areSystems isShown isSystem with ⟨isNatural, hasBar⟩
  refine ⟨isNatural, fun shown _ => ?_⟩
  rw [renderMetricRow, if_neg hasBar, (showSuffix_iff systems width).mpr isShown, Bool.not_true,
    if_neg Bool.false_ne_true]

end Lines

section IdleSystem

/-- A terminal for systems on which nothing is in use. -/
def idleDisplay : MetricDisplay where
  toTableDisplay := DriveTable.terminal
  formatPct _ := "0.0%"
  formatFrequency _ := ""
  share _ _ := .finite 0
  utilization _ := none
  filled _ _ := 0

def idleSnapshot : NormalizedSnapshot where
  wireVersion := 2
  observedAtUnixMs := 0
  sampleIntervalMs := 1000
  cpuIowaitSupported := false
  loadSupported := false
  swapSupported := false
  commitSupported := false
  system :=
    { name := "idle", hostname := "idle", osName := "Linux", osVersion := "1"
      kernelName := "Linux", kernelRelease := "6.1", architecture := "x86_64" }
  logicalCores := 8
  usagePct := .finite 0
  iowaitPct := none
  cpuFrequencyHz := none
  load := none
  memory := { totalBytes := 1024, usedBytes := 0, usagePct := .finite 0 }
  swap := none
  commit := none
  drives := none
  diskIo := none
  network := none

/-- A system with more cores and memory, which reports a commit charge in place of swap. -/
def windowsSnapshot : NormalizedSnapshot :=
  { idleSnapshot with
    logicalCores := 128
    commitSupported := true
    commit := some { usedBytes := 1536, limitBytes := 3072, usagePct := .finite 50 } }

theorem metricBars_lineUp_idle :
    let idle := buildMetricRows idleDisplay idleSnapshot
    let windows := buildMetricRows idleDisplay windowsSnapshot
    let layout := computeFleetMetricLayout idleDisplay [idle, windows] 120
    widestLabel idleDisplay [idle] < widestLabel idleDisplay [windows] ∧
      widestNatural idleDisplay [idle] < widestNatural idleDisplay [windows] ∧
      LinesUp idleDisplay [idle, windows] 120 layout ∧
      resolveSystemSuffixes idleDisplay idle 120 layout = idle.map (defaultSuffix idleDisplay) ∧
      resolveSystemSuffixes idleDisplay windows 120 layout =
        windows.map (defaultSuffix idleDisplay) := by
  intro idle windows layout
  have linesUp := @metricBars_lineUp idleDisplay [idle, windows] 120 (by decide)
    (by decide +kernel)
  have isShown := linesUp.2 [idleSnapshot, windowsSnapshot] rfl (by decide +kernel)
  refine ⟨by decide +kernel, by decide +kernel, linesUp.1, ?_, ?_⟩
  · exact (isShown idle (by simp)).1
  · exact (isShown windows (by simp)).1

end IdleSystem

end Gregg.Tui.MetricBars
