import Gregg.Fleet.Normalized
import Gregg.Tui.CronPane
import Gregg.Tui.InertText

/-!
# The table of the drives

One row for each drive below the card of the selected system, with a heading and a sum where the
snapshot has disk throughput. The columns are as wide as their widest field, and the width of the
terminal decides which of them are shown.
-/

namespace Gregg.Tui.DriveTable

open CronPane (truncateWidth)
open Fleet (NormalizedDiskIo NormalizedDiskIoDevice NormalizedDrive)

/-- What the texts of the table depend on: the columns that characters take, and the share of bytes
in a total as a percentage with one decimal. -/
structure TableDisplay extends CronPane.Display where
  percent : ℕ → ℕ → String
  charWidth_visible : ∀ character, Visible character → charWidth character = 1

def KIB : ℕ := 1024

def MIB : ℕ := KIB * 1024

def GIB : ℕ := MIB * 1024

def TIB : ℕ := GIB * 1024

/-- A number of tenths and a unit. -/
def tenthsLabel (tenths : ℕ) (label : String) : String :=
  s!"{tenths / 10}.{tenths % 10} {label}"

/-- Bytes in tenths of a unit, rounded. -/
def tenthsOf (bytes unit : ℕ) : ℕ :=
  (bytes * 10 + unit / 2) / unit

/-- Bytes in a unit, or in the next one where they are rounded up to it. -/
def bytesIn (bytes unit : ℕ) (label : String) (next : Option (ℕ × String)) : String :=
  match next.filter fun _ => 10240 ≤ tenthsOf bytes unit with
  | some (nextUnit, nextLabel) => tenthsLabel (tenthsOf bytes nextUnit) nextLabel
  | none => tenthsLabel (tenthsOf bytes unit) label

def formatBytes (bytes : ℕ) : String :=
  if bytes = 0 then "0 B"
  else if TIB ≤ bytes then bytesIn bytes TIB "TiB" none
  else if GIB ≤ bytes then bytesIn bytes GIB "GiB" (some (TIB, "TiB"))
  else if MIB ≤ bytes then bytesIn bytes MIB "MiB" (some (GIB, "GiB"))
  else if KIB ≤ bytes then bytesIn bytes KIB "KiB" (some (MIB, "MiB"))
  else s!"{bytes} B"

example : formatBytes (TIB - 1) = "1.0 TiB" := by decide +kernel

def formatRate (bytesPerSec : ℕ) : String :=
  s!"{formatBytes bytesPerSec}/s"

/-- The fields of a drive before they are put into columns. -/
structure DriveDetailRow where
  name : List Char
  used : List Char
  total : List Char
  remaining : List Char
  percent : List Char
  readRate : List Char
  writeRate : List Char

/-- The columns of the table. -/
inductive Column where
  | name
  | used
  | total
  | remaining
  | percent
  | read
  | write
  deriving DecidableEq

def DriveDetailRow.field (row : DriveDetailRow) : Column → List Char
  | .name => row.name
  | .used => row.used
  | .total => row.total
  | .remaining => row.remaining
  | .percent => row.percent
  | .read => row.readRate
  | .write => row.writeRate

inductive DriveDetailMode where
  | full
  | compact
  | throughput
  | minimal
  deriving DecidableEq

structure DriveTableLayout where
  nameWidth : ℕ
  usedWidth : ℕ
  totalWidth : ℕ
  remainingWidth : ℕ
  percentWidth : ℕ
  readWidth : ℕ
  writeWidth : ℕ
  showThroughput : Bool
  mode : DriveDetailMode

def DRIVE_INDENT_CELLS : ℕ := 2

def DRIVE_GAP_CELLS : ℕ := 2

def DRIVE_SLASH_CELLS : ℕ := 3

section Table

variable (display : TableDisplay)

/-- The columns that a text takes. -/
def cells (text : List Char) : ℕ :=
  (text.map display.charWidth).sum

/-- The device that names a drive, unless there are several. -/
def matchingDevice (drive : NormalizedDrive) (diskIo : Option NormalizedDiskIo) :
    Option NormalizedDiskIoDevice :=
  diskIo.bind fun io =>
    match io.devices.filter (·.driveName == some drive.name) with
    | [device] => some device
    | _ => none

def buildDriveDetailRow (diskIo : Option NormalizedDiskIo) (drive : NormalizedDrive) :
    DriveDetailRow :=
  let remainingBytes := drive.availableBytes.getD (drive.totalBytes - drive.usedBytes)
  let device := matchingDevice drive diskIo
  { name := (sanitizeSingleLine drive.name.toList).text
    used := (formatBytes drive.usedBytes).toList
    total := (formatBytes drive.totalBytes).toList
    remaining := (s!"({formatBytes remainingBytes})").toList
    percent := (display.percent drive.usedBytes drive.totalBytes).toList
    readRate := (device.elim "—" fun device => formatRate device.readBytesPerSec).toList
    writeRate := (device.elim "—" fun device => formatRate device.writeBytesPerSec).toList }

/-- The width of the widest field of the rows in a column. -/
def widest (rows : List DriveDetailRow) (column : Column) : ℕ :=
  (rows.map fun row => cells display (row.field column)).foldr max 0

/-- The cells of the full table besides the names. -/
def fullFixed (rows : List DriveDetailRow) : ℕ :=
  DRIVE_INDENT_CELLS + DRIVE_GAP_CELLS + widest display rows .used + DRIVE_SLASH_CELLS +
    widest display rows .total + DRIVE_GAP_CELLS + widest display rows .remaining +
    DRIVE_GAP_CELLS + widest display rows .percent

/-- The cells of the throughput columns of the full table. -/
def ioFixed (rows : List DriveDetailRow) (showIo : Bool) : ℕ :=
  if showIo then
    DRIVE_GAP_CELLS + widest display rows .read + DRIVE_GAP_CELLS +
      widest display rows .write
  else 0

def throughputFixed (rows : List DriveDetailRow) : ℕ :=
  DRIVE_INDENT_CELLS + DRIVE_GAP_CELLS + widest display rows .read + DRIVE_GAP_CELLS +
    widest display rows .write

def compactFixed (rows : List DriveDetailRow) : ℕ :=
  DRIVE_INDENT_CELLS + DRIVE_GAP_CELLS + widest display rows .remaining + DRIVE_GAP_CELLS +
    widest display rows .percent

def minimalFixed (rows : List DriveDetailRow) : ℕ :=
  DRIVE_INDENT_CELLS + DRIVE_GAP_CELLS + widest display rows .percent

/-- The full table with names of this width. -/
def fullLayout (rows : List DriveDetailRow) (nameWidth : ℕ) : DriveTableLayout where
  nameWidth
  usedWidth := widest display rows .used
  totalWidth := widest display rows .total
  remainingWidth := widest display rows .remaining
  percentWidth := widest display rows .percent
  readWidth := 0
  writeWidth := 0
  showThroughput := false
  mode := .full

/-- The layouts are tried from the widest to the narrowest. -/
def computeDriveTableLayout (rows : List DriveDetailRow) (width : ℕ) (showIo : Bool) :
    DriveTableLayout :=
  let maxName := widest display rows .name
  let fullNameBudget := width - fullFixed display rows
  let fullIoNameBudget := fullNameBudget - ioFixed display rows showIo
  let throughputNameBudget := width - throughputFixed display rows
  let compactNameBudget := width - compactFixed display rows
  if maxName ≤ fullIoNameBudget then
    { fullLayout display rows maxName with
      readWidth := widest display rows .read
      writeWidth := widest display rows .write
      showThroughput := showIo }
  else if maxName ≤ fullNameBudget then fullLayout display rows maxName
  else if 1 ≤ fullNameBudget then fullLayout display rows fullNameBudget
  else if showIo ∧ 1 ≤ throughputNameBudget then
    { nameWidth := min maxName throughputNameBudget
      usedWidth := 0
      totalWidth := 0
      remainingWidth := 0
      percentWidth := 0
      readWidth := widest display rows .read
      writeWidth := widest display rows .write
      showThroughput := true
      mode := .throughput }
  else if 1 ≤ compactNameBudget then
    { nameWidth := min maxName compactNameBudget
      usedWidth := 0
      totalWidth := 0
      remainingWidth := widest display rows .remaining
      percentWidth := widest display rows .percent
      readWidth := 0
      writeWidth := 0
      showThroughput := false
      mode := .compact }
  else
    { nameWidth := min maxName (width - minimalFixed display rows)
      usedWidth := 0
      totalWidth := 0
      remainingWidth := 0
      percentWidth := widest display rows .percent
      readWidth := 0
      writeWidth := 0
      showThroughput := false
      mode := .minimal }

def spaces (count : ℕ) : List Char :=
  List.replicate count ' '

def padLeft (value : List Char) (width : ℕ) : List Char :=
  spaces (width - cells display value) ++ value

def padRight (value : List Char) (width : ℕ) : List Char :=
  value ++ spaces (width - cells display value)

def slash : List Char :=
  [' ', '/', ' ']

/-- One row of the table. -/
def renderDriveDetailRow (row : DriveDetailRow) (layout : DriveTableLayout) : List Char :=
  let indent := spaces 2
  let gap := spaces 2
  let name := padRight display (truncateWidth display.toDisplay row.name layout.nameWidth)
    layout.nameWidth
  let used := padLeft display row.used layout.usedWidth
  let total := padLeft display row.total layout.totalWidth
  let remaining := padLeft display row.remaining layout.remainingWidth
  let percent := padLeft display row.percent layout.percentWidth
  let readRate := padLeft display row.readRate layout.readWidth
  let writeRate := padLeft display row.writeRate layout.writeWidth
  match layout.mode with
  | .full =>
      let base := indent ++ name ++ gap ++ used ++ slash ++ total ++ gap ++ remaining ++ gap ++
        percent
      if layout.showThroughput then base ++ gap ++ readRate ++ gap ++ writeRate else base
  | .compact => indent ++ name ++ gap ++ remaining ++ gap ++ percent
  | .throughput => indent ++ name ++ gap ++ readRate ++ gap ++ writeRate
  | .minimal => indent ++ name ++ gap ++ percent

/-- The heading before it is truncated. -/
def headingText (layout : DriveTableLayout) : List Char :=
  let line := spaces 2 ++ padRight display "DRIVE/MOUNT".toList layout.nameWidth ++ spaces 2 ++
    padLeft display "USED".toList layout.usedWidth ++ slash ++
    padLeft display "TOTAL".toList layout.totalWidth ++ spaces 2 ++
    padLeft display "REMAIN".toList layout.remainingWidth ++ spaces 2 ++
    padLeft display "PERCENT".toList layout.percentWidth
  if layout.showThroughput then
    line ++ spaces 2 ++ padLeft display "R/s".toList layout.readWidth ++ spaces 2 ++
      padLeft display "W/s".toList layout.writeWidth
  else line

def renderDriveDetailHeader (layout : DriveTableLayout) (width : ℕ) : List Char :=
  truncateWidth display.toDisplay (headingText display layout) width

def renderDiskIoTotalLine (io : NormalizedDiskIo) (width : ℕ) : List Char :=
  truncateWidth display.toDisplay
    (s!"  I/O TOTAL  R/s {formatRate io.aggregateReadBytesPerSec}  " ++
      s!"W/s {formatRate io.aggregateWriteBytesPerSec}").toList width

/-- The rows of the drives whose sizes make sense. -/
def driveRows (drives : List NormalizedDrive) (diskIo : Option NormalizedDiskIo) :
    List DriveDetailRow :=
  (drives.filter fun drive => 0 < drive.totalBytes && drive.usedBytes ≤ drive.totalBytes).map
    (buildDriveDetailRow display diskIo)

/-- The layout of the table of these drives. -/
def driveLayout (drives : List NormalizedDrive) (diskIo : Option NormalizedDiskIo) (width : ℕ) :
    DriveTableLayout :=
  computeDriveTableLayout display (driveRows display drives diskIo) width diskIo.isSome

def renderDriveDetailLines (drives : List NormalizedDrive) (diskIo : Option NormalizedDiskIo)
    (width : ℕ) : List (List Char) :=
  let layout := driveLayout display drives diskIo width
  (if diskIo.isSome then [renderDriveDetailHeader display layout width] else []) ++
    (driveRows display drives diskIo).map (renderDriveDetailRow display · layout) ++
    diskIo.toList.map (renderDiskIoTotalLine display · width)

/-- The columns of a layout, from the left to the right. -/
def DriveTableLayout.columns (layout : DriveTableLayout) : List Column :=
  match layout.mode with
  | .full =>
      [.name, .used, .total, .remaining, .percent] ++
        if layout.showThroughput then [.read, .write] else []
  | .compact => [.name, .remaining, .percent]
  | .throughput => [.name, .read, .write]
  | .minimal => [.name, .percent]

def DriveTableLayout.width (layout : DriveTableLayout) : Column → ℕ
  | .name => layout.nameWidth
  | .used => layout.usedWidth
  | .total => layout.totalWidth
  | .remaining => layout.remainingWidth
  | .percent => layout.percentWidth
  | .read => layout.readWidth
  | .write => layout.writeWidth

/-- What stands in front of a column. -/
def separator : Column → List Char
  | .total => slash
  | _ => spaces 2

/-- A field of a row, padded to its column. -/
def padded (row : DriveDetailRow) (layout : DriveTableLayout) : Column → List Char
  | .name =>
      padRight display (truncateWidth display.toDisplay row.name layout.nameWidth)
        layout.nameWidth
  | column => padLeft display (row.field column) (layout.width column)

/-- Columns next to each other, each behind its separator. -/
def sideBySide (shown : Column → List Char) (columns : List Column) : List Char :=
  columns.flatMap fun column => separator column ++ shown column

/-- The cells in front of a column, where the columns before it are `before`. -/
def offset (width : Column → ℕ) (before : List Column) (column : Column) : ℕ :=
  (before.map fun earlier => (separator earlier).length + width earlier).sum +
    (separator column).length

end Table

section Rows

variable {display : TableDisplay} {row : DriveDetailRow} {layout : DriveTableLayout}

theorem cells_append (front back : List Char) :
    cells display (front ++ back) = cells display front + cells display back := by
  rw [cells, List.map_append, List.sum_append]
  rfl

theorem cells_of_visible {text : List Char} (visible : ∀ character ∈ text, Visible character) :
    cells display text = text.length := by
  rw [cells, List.map_congr_left fun character isMember =>
    display.charWidth_visible character (visible character isMember)]
  simp

theorem cells_spaces (count : ℕ) : cells display (spaces count) = count := by
  rw [cells_of_visible, spaces, List.length_replicate]
  intro character isMember
  rw [List.eq_of_mem_replicate isMember]
  decide

theorem cells_separator (column : Column) :
    cells display (separator column) = (separator column).length := by
  refine cells_of_visible ?_
  cases column <;> exact List.all_iff_forall_prop.mp (by decide)

theorem cells_padLeft (value : List Char) (width : ℕ) :
    cells display (padLeft display value width) = max (cells display value) width := by
  rw [padLeft, cells_append, cells_spaces]
  omega

theorem cells_padRight (value : List Char) (width : ℕ) :
    cells display (padRight display value width) = max (cells display value) width := by
  rw [padRight, cells_append, cells_spaces]
  omega

/-- The columns of a row stand next to each other. -/
theorem renderDriveDetailRow_eq (row : DriveDetailRow) (layout : DriveTableLayout) :
    renderDriveDetailRow display row layout =
      sideBySide (padded display row layout) layout.columns := by
  rw [renderDriveDetailRow, DriveTableLayout.columns]
  cases layout.mode with
  | full =>
      cases layout.showThroughput <;>
        simp [sideBySide, padded, separator, DriveDetailRow.field, DriveTableLayout.width]
  | compact => simp [sideBySide, padded, separator, DriveDetailRow.field, DriveTableLayout.width]
  | throughput => simp [sideBySide, padded, separator, DriveDetailRow.field, DriveTableLayout.width]
  | minimal => simp [sideBySide, padded, separator, DriveDetailRow.field, DriveTableLayout.width]

theorem foldr_max_le_iff {values : List ℕ} {bound : ℕ} :
    values.foldr max 0 ≤ bound ↔ ∀ value ∈ values, value ≤ bound := by
  induction values with
  | nil => simp
  | cons first values ih => rw [List.foldr_cons, Nat.max_le, ih, List.forall_mem_cons]

theorem le_widest {rows : List DriveDetailRow} (isRow : row ∈ rows) (column : Column) :
    cells display (row.field column) ≤ widest display rows column :=
  foldr_max_le_iff.mp (Nat.le_refl _) _ (List.mem_map_of_mem isRow)

/-- A column of numbers is as wide as its widest field, in every layout that shows it. -/
theorem width_computeDriveTableLayout {rows : List DriveDetailRow} {width : ℕ} {showIo : Bool}
    {column : Column} (isNumeric : column ≠ .name)
    (isShown : column ∈ (computeDriveTableLayout display rows width showIo).columns) :
    (computeDriveTableLayout display rows width showIo).width column =
      widest display rows column := by
  revert isShown
  simp only [computeDriveTableLayout]
  split_ifs <;> intro isShown <;> cases column <;>
    first
    | rfl
    | exact absurd rfl isNumeric
    | simp [DriveTableLayout.columns, fullLayout] at isShown

theorem cells_padded {rows : List DriveDetailRow} {width : ℕ} {showIo : Bool}
    (isRow : row ∈ rows) {column : Column}
    (isShown : column ∈ (computeDriveTableLayout display rows width showIo).columns) :
    cells display
        (padded display row (computeDriveTableLayout display rows width showIo) column) =
      (computeDriveTableLayout display rows width showIo).width column := by
  by_cases isName : column = .name
  · subst isName
    rw [padded, cells_padRight]
    exact Nat.max_eq_right (CronPane.width_truncateWidth _ _)
  · have isWidth := width_computeDriveTableLayout isName isShown
    have isPadded : padded display row (computeDriveTableLayout display rows width showIo) column =
        padLeft display (row.field column) (widest display rows column) := by
      rw [← isWidth]
      cases column with
      | name => exact absurd rfl isName
      | _ => rfl
    rw [isPadded, cells_padLeft, isWidth]
    exact Nat.max_eq_right (le_widest isRow column)

theorem cells_sideBySide {shown : Column → List Char} {width : Column → ℕ}
    {columns : List Column}
    (isWidth : ∀ column ∈ columns, cells display (shown column) = width column) :
    cells display (sideBySide shown columns) =
      (columns.map fun column => (separator column).length + width column).sum := by
  induction columns with
  | nil => rfl
  | cons first columns ih =>
      rw [List.forall_mem_cons] at isWidth
      rw [sideBySide, List.flatMap_cons, cells_append, cells_append, cells_separator, isWidth.1,
        List.map_cons, List.sum_cons]
      exact congrArg _ (ih isWidth.2)

/-- A line of columns up to one of them. -/
theorem sideBySide_split (shown : Column → List Char) (before after : List Column)
    (column : Column) : sideBySide shown (before ++ column :: after) =
      (sideBySide shown before ++ separator column) ++ shown column ++ sideBySide shown after := by
  simp [sideBySide, List.append_assoc]

theorem cells_before {shown : Column → List Char} {width : Column → ℕ} {before : List Column}
    (isWidth : ∀ column ∈ before, cells display (shown column) = width column) (column : Column) :
    cells display (sideBySide shown before ++ separator column) = offset width before column := by
  rw [cells_append, cells_separator, cells_sideBySide isWidth, offset]

/-- The cell that a column begins at. -/
def DriveTableLayout.start (layout : DriveTableLayout) (column : Column) : ℕ :=
  offset layout.width (layout.columns.takeWhile (· ≠ column)) column

/-- The cells of a row. -/
def DriveTableLayout.lineWidth (layout : DriveTableLayout) : ℕ :=
  (layout.columns.map fun column => (separator column).length + layout.width column).sum

theorem cells_renderDriveDetailRow {rows : List DriveDetailRow} {width : ℕ} {showIo : Bool}
    (isRow : row ∈ rows) :
    cells display
        (renderDriveDetailRow display row (computeDriveTableLayout display rows width showIo)) =
      (computeDriveTableLayout display rows width showIo).lineWidth := by
  rw [renderDriveDetailRow_eq]
  exact cells_sideBySide fun column isShown => cells_padded isRow isShown

theorem lineWidth_fullLayout (rows : List DriveDetailRow) (nameWidth : ℕ) :
    (fullLayout display rows nameWidth).lineWidth = fullFixed display rows + nameWidth := by
  simp [DriveTableLayout.lineWidth, DriveTableLayout.columns, DriveTableLayout.width, fullLayout,
    separator, spaces, slash, fullFixed, DRIVE_INDENT_CELLS, DRIVE_GAP_CELLS, DRIVE_SLASH_CELLS]
  omega

theorem lineWidth_natural (rows : List DriveDetailRow) (nameWidth : ℕ) (showIo : Bool) :
    { fullLayout display rows nameWidth with
      readWidth := widest display rows .read
      writeWidth := widest display rows .write
      showThroughput := showIo : DriveTableLayout }.lineWidth =
      fullFixed display rows + nameWidth + ioFixed display rows showIo := by
  cases showIo <;>
    simp [DriveTableLayout.lineWidth, DriveTableLayout.columns, DriveTableLayout.width, fullLayout,
      separator, spaces, slash, fullFixed, ioFixed, DRIVE_INDENT_CELLS, DRIVE_GAP_CELLS,
      DRIVE_SLASH_CELLS] <;>
    omega

/-- The rows fit but for names without any width, for which the full table is always chosen. -/
theorem lineWidth_le_iff {rows : List DriveDetailRow} {width : ℕ} {showIo : Bool}
    (minimal : minimalFixed display rows ≤ width) :
    (computeDriveTableLayout display rows width showIo).lineWidth ≤ width ↔
      1 ≤ widest display rows .name ∨
        fullFixed display rows + ioFixed display rows showIo ≤ width := by
  simp only [computeDriveTableLayout]
  split_ifs with natural full truncated throughput compact
  · rw [lineWidth_natural]
    omega
  · rw [lineWidth_fullLayout]
    omega
  · rw [lineWidth_fullLayout]
    omega
  · simp [DriveTableLayout.lineWidth, DriveTableLayout.columns, DriveTableLayout.width, separator,
      spaces]
    simp only [throughputFixed, DRIVE_INDENT_CELLS, DRIVE_GAP_CELLS] at throughput ⊢
    omega
  · simp [DriveTableLayout.lineWidth, DriveTableLayout.columns, DriveTableLayout.width, separator,
      spaces]
    simp only [compactFixed, DRIVE_INDENT_CELLS, DRIVE_GAP_CELLS] at compact ⊢
    omega
  · simp [DriveTableLayout.lineWidth, DriveTableLayout.columns, DriveTableLayout.width, separator,
      spaces]
    simp only [minimalFixed, DRIVE_INDENT_CELLS, DRIVE_GAP_CELLS] at minimal ⊢
    omega

/-- One of several columns next to each other, between what is in front of it and what follows. -/
theorem exists_sideBySide {shown : Column → List Char} {width : Column → ℕ} {columns : List Column}
    {column : Column} (isWidth : ∀ column ∈ columns, cells display (shown column) = width column)
    (isShown : column ∈ columns) : ∃ front back,
      sideBySide shown columns = front ++ shown column ++ back ∧
        cells display front = offset width (columns.takeWhile (· ≠ column)) column := by
  rcases List.eq_append_cons_of_mem isShown with ⟨before, after, isSplit, isFirst⟩
  have isBefore : columns.takeWhile (· ≠ column) = before := by
    rw [isSplit, List.takeWhile_append_of_pos, List.takeWhile_cons_of_neg, List.append_nil]
    · simp
    · intro earlier isEarlier
      simp only [decide_eq_true_eq]
      rintro rfl
      exact isFirst isEarlier
  refine ⟨sideBySide shown before ++ separator column, sideBySide shown after, ?_, ?_⟩
  · rw [isSplit, sideBySide_split]
  · rw [isBefore]
    refine cells_before (fun earlier isEarlier => isWidth earlier ?_) column
    exact isSplit ▸ List.mem_append_left _ isEarlier

theorem exists_column {rows : List DriveDetailRow} {width : ℕ} {showIo : Bool}
    (isRow : row ∈ rows) {column : Column}
    (isShown : column ∈ (computeDriveTableLayout display rows width showIo).columns) :
    ∃ front back,
      renderDriveDetailRow display row (computeDriveTableLayout display rows width showIo) =
        front ++
          padded display row (computeDriveTableLayout display rows width showIo) column ++ back ∧
      cells display front =
        (computeDriveTableLayout display rows width showIo).start column := by
  rw [renderDriveDetailRow_eq]
  exact exists_sideBySide (fun column isShown => cells_padded isRow isShown) isShown

theorem padded_of_numeric (row : DriveDetailRow) (layout : DriveTableLayout) {column : Column}
    (isNumeric : column ≠ .name) : padded display row layout column =
      padLeft display (row.field column) (layout.width column) := by
  cases column with
  | name => exact absurd rfl isNumeric
  | _ => rfl

end Rows

/-- Every row has its columns at the same cells and as wide, with the numbers whole at the end of
theirs, and no line is wider than the terminal where the narrowest table fits. -/
structure LinesUp (display : TableDisplay) (drives : List NormalizedDrive)
    (diskIo : Option NormalizedDiskIo) (width : ℕ) : Prop where
  columns : ∀ column ∈ (driveLayout display drives diskIo width).columns, ∃ start size,
    ∀ row ∈ driveRows display drives diskIo, ∃ front shown back,
      renderDriveDetailRow display row (driveLayout display drives diskIo width) =
        front ++ shown ++ back ∧
      cells display front = start ∧ cells display shown = size ∧
      (column ≠ .name → ∃ count, shown = spaces count ++ row.field column)
  fits : minimalFixed display (driveRows display drives diskIo) ≤ width →
    ∀ line ∈ renderDriveDetailLines display drives diskIo width, cells display line ≤ width

section Alignment

variable {display : TableDisplay} {drives : List NormalizedDrive}
  {diskIo : Option NormalizedDiskIo} {width : ℕ}

/-- The table lines up unless its names have no width and the full table does not fit. -/
theorem linesUp_iff : LinesUp display drives diskIo width ↔
    (minimalFixed display (driveRows display drives diskIo) ≤ width →
      driveRows display drives diskIo = [] ∨
        1 ≤ widest display (driveRows display drives diskIo) .name ∨
        fullFixed display (driveRows display drives diskIo) +
          ioFixed display (driveRows display drives diskIo) diskIo.isSome ≤ width) := by
  have isLine : ∀ row ∈ driveRows display drives diskIo,
      renderDriveDetailRow display row (driveLayout display drives diskIo width) ∈
        renderDriveDetailLines display drives diskIo width := by
    intro row isRow
    exact List.mem_append_left _ (List.mem_append_right _ (List.mem_map_of_mem isRow))
  constructor
  · rintro ⟨-, fits⟩ minimal
    rcases List.eq_nil_or_concat (driveRows display drives diskIo) with none | ⟨rows, row, isRows⟩
    · exact .inl none
    · right
      have isRow : row ∈ driveRows display drives diskIo := by simp [isRows]
      have lineFits := fits minimal _ (isLine row isRow)
      rw [driveLayout, cells_renderDriveDetailRow isRow] at lineFits
      exact (lineWidth_le_iff minimal).mp lineFits
  · intro condition
    refine ⟨?_, ?_⟩
    · intro column isShown
      refine ⟨(driveLayout display drives diskIo width).start column,
        (driveLayout display drives diskIo width).width column, fun row isRow => ?_⟩
      rcases exists_column isRow isShown with ⟨front, back, isText, isStart⟩
      refine ⟨front, _, back, isText, isStart, cells_padded isRow isShown, fun isNumeric => ?_⟩
      rw [padded_of_numeric row _ isNumeric]
      exact ⟨_, rfl⟩
    · intro minimal line lineMem
      simp only [renderDriveDetailLines, List.mem_append, List.mem_map] at lineMem
      rcases lineMem with (isHeading | ⟨row, isRow, rfl⟩) | ⟨io, -, rfl⟩
      · rw [List.mem_ite_nil_right, List.mem_singleton] at isHeading
        rw [isHeading.2]
        exact CronPane.width_truncateWidth _ _
      · rw [driveLayout, cells_renderDriveDetailRow isRow]
        rcases condition minimal with none | fits
        · rw [none] at isRow
          cases isRow
        · exact (lineWidth_le_iff minimal).mpr fits
      · exact CronPane.width_truncateWidth _ _

end Alignment

section ZeroWidthSpace

def zeroWidthSpace : Char :=
  Char.ofNat 0x200b

/-- A terminal on which a zero-width space takes no column. -/
def terminal : TableDisplay where
  charWidth character := if character = zeroWidthSpace then 0 else 1
  textWidth text := text.countP (· ≠ zeroWidthSpace)
  fixed _ := "0.00"
  nowUnixMs := 0
  capability _ := .supported
  charWidth_ellipsis := by decide
  percent used total := if used = total then "100%" else "0.0%"
  charWidth_visible := by
    rintro character ⟨-, upper⟩
    rw [if_neg]
    rintro rfl
    exact absurd upper (by decide)

def blankDrive : NormalizedDrive where
  name := String.ofList [zeroWidthSpace]
  usedBytes := 0
  totalBytes := 1
  availableBytes := none

/-- A drive without a visible name has a row of 26 cells on a terminal of 20. -/
theorem not_linesUp_blankDrive : ¬LinesUp terminal [blankDrive] none 20 := by
  rintro ⟨-, fits⟩
  exact absurd (fits (by decide +kernel)) (by decide +kernel)

end ZeroWidthSpace

end Gregg.Tui.DriveTable
