import Gregg.Tui.DriveTable

/-!
# The heading of the drive table

The heading is one template for all layouts. It names the columns of the full table only, and a
column that is narrower than its name moves the names after it to the right.
-/

namespace Gregg.Tui.DriveTable

open Fleet (NormalizedDiskIo NormalizedDrive)

/-- The name of a column. -/
def headingWord : Column → List Char
  | .name => "DRIVE/MOUNT".toList
  | .used => "USED".toList
  | .total => "TOTAL".toList
  | .remaining => "REMAIN".toList
  | .percent => "PERCENT".toList
  | .read => "R/s".toList
  | .write => "W/s".toList

/-- The columns of the full table. -/
def fullColumns (showThroughput : Bool) : List Column :=
  [.name, .used, .total, .remaining, .percent] ++ if showThroughput then [.read, .write] else []

/-- The cell that a column ends at, where the columns have these widths. -/
def endOf (width : Column → ℕ) (columns : List Column) (column : Column) : ℕ :=
  offset width (columns.takeWhile (· ≠ column)) column + width column

/-- The width of a name in the heading of columns of these widths. -/
def headingWidth (width : Column → ℕ) (column : Column) : ℕ :=
  max (headingWord column).length (width column)

section Heading

variable (display : TableDisplay)

/-- The name of a column, padded to the column. -/
def headed (layout : DriveTableLayout) : Column → List Char
  | .name => padRight display (headingWord .name) layout.nameWidth
  | column => padLeft display (headingWord column) (layout.width column)

/-- The full table is chosen. -/
def IsFull (rows : List DriveDetailRow) (width : ℕ) : Prop :=
  fullFixed display rows < width ∨ widest display rows .name = 0

/-- The widths of the columns of the full table. -/
def fullWidth (rows : List DriveDetailRow) (width : ℕ) : Column → ℕ
  | .name => min (widest display rows .name) (width - fullFixed display rows)
  | column => widest display rows column

/-- Whether the full table has room for the throughput columns. -/
def fullThroughput (rows : List DriveDetailRow) (width : ℕ) : Bool :=
  widest display rows .name ≤ width - fullFixed display rows - ioFixed display rows true

/-- A text of a line ends at a cell. -/
def EndsAt (line text : List Char) (finish : ℕ) : Prop :=
  ∃ front back, line = (front ++ text) ++ back ∧ cells display (front ++ text) = finish

end Heading

section Lines

variable {display : TableDisplay} {layout : DriveTableLayout}

theorem visible_headingWord (column : Column) :
    ∀ character ∈ headingWord column, Visible character := by
  cases column <;> exact List.all_iff_forall_prop.mp (by decide)

theorem cells_headingWord (column : Column) :
    cells display (headingWord column) = (headingWord column).length :=
  cells_of_visible (visible_headingWord column)

theorem cells_headed (layout : DriveTableLayout) (column : Column) :
    cells display (headed display layout column) = headingWidth layout.width column := by
  rw [headingWidth, ← @cells_headingWord display]
  cases column with
  | name => exact cells_padRight _ _
  | _ => exact cells_padLeft _ _

theorem headingText_eq (layout : DriveTableLayout) : headingText display layout =
    sideBySide (headed display layout) (fullColumns layout.showThroughput) := by
  have isText : headingText display layout =
      let line := spaces 2 ++ padRight display (headingWord .name) layout.nameWidth ++ spaces 2 ++
        padLeft display (headingWord .used) layout.usedWidth ++ slash ++
        padLeft display (headingWord .total) layout.totalWidth ++ spaces 2 ++
        padLeft display (headingWord .remaining) layout.remainingWidth ++ spaces 2 ++
        padLeft display (headingWord .percent) layout.percentWidth
      if layout.showThroughput then
        line ++ spaces 2 ++ padLeft display (headingWord .read) layout.readWidth ++ spaces 2 ++
          padLeft display (headingWord .write) layout.writeWidth
      else line := rfl
  rw [isText]
  cases layout.showThroughput <;>
    simp [sideBySide, headed, separator, fullColumns, DriveTableLayout.width]

/-- The characters of the heading are visible. -/
theorem visible_headingText (layout : DriveTableLayout) :
    ∀ character ∈ headingText display layout, Visible character := by
  have visibleSpaces : ∀ count, ∀ character ∈ spaces count, Visible character := by
    intro count character isMember
    rw [List.eq_of_mem_replicate isMember]
    decide
  intro character isMember
  rw [headingText_eq, sideBySide, List.mem_flatMap] at isMember
  rcases isMember with ⟨column, -, isMember⟩
  rcases List.mem_append.mp isMember with inSeparator | inWord
  · cases column with
    | total => exact List.all_iff_forall_prop.mp (by decide) character inSeparator
    | _ => exact visibleSpaces _ character inSeparator
  · have inPieces : character ∈ headingWord column ∨ ∃ count, character ∈ spaces count := by
      cases column with
      | name => exact (List.mem_append.mp inWord).imp_right fun inSpaces => ⟨_, inSpaces⟩
      | _ => exact (List.mem_append.mp inWord).symm.imp_right fun inSpaces => ⟨_, inSpaces⟩
    rcases inPieces with inWord | ⟨count, inSpaces⟩
    · exact visible_headingWord column character inWord
    · exact visibleSpaces count character inSpaces

/-- What fits at the front of a text stays. -/
theorem prefix_fitWidth {front back : List Char} {width : ℕ} (fits : cells display front ≤ width) :
    front <+: (CronPane.fitWidth display.toDisplay width (front ++ back)).1 := by
  induction front generalizing width with
  | nil => exact List.nil_prefix
  | cons first front ih =>
      rw [cells, List.map_cons, List.sum_cons] at fits
      rw [List.cons_append, CronPane.fitWidth, if_neg (by omega)]
      exact (List.prefix_cons_inj first).mpr (ih (by rw [cells]; omega))

theorem prefix_truncateWidth {front back : List Char} {width : ℕ} (positive : 0 < width)
    (visible : ∀ character ∈ front ++ back, Visible character)
    (fits : cells display front ≤ width) :
    front <+: CronPane.truncateWidth display.toDisplay (front ++ back) width := by
  have unbroken : ¬('\n' ∈ front ++ back ∨ '\r' ∈ front ++ back) := by
    rintro (isFeed | isReturn)
    · exact absurd (visible _ isFeed) (by decide)
    · exact absurd (visible _ isReturn) (by decide)
  have stays := @prefix_fitWidth display front back width fits
  rw [CronPane.truncateWidth, if_neg (Nat.pos_iff_ne_zero.mp positive), if_neg unbroken]
  simp only
  split
  · exact List.prefix_append _ _
  · split
    · exact stays.trans (List.prefix_append _ _)
    · exact stays

/-- The heading has every name that ends within the terminal, padded to its column. -/
theorem exists_heading {width : ℕ} {column : Column}
    (isNamed : column ∈ fullColumns layout.showThroughput)
    (fits : endOf (headingWidth layout.width) (fullColumns layout.showThroughput) column ≤ width) :
    EndsAt display (renderDriveDetailHeader display layout width) (headed display layout column)
      (endOf (headingWidth layout.width) (fullColumns layout.showThroughput) column) := by
  rcases @exists_sideBySide display _ _ _ column (fun column _ => cells_headed layout column)
    isNamed with ⟨front, back, isText, isStart⟩
  have isEnd : cells display (front ++ headed display layout column) =
      endOf (headingWidth layout.width) (fullColumns layout.showThroughput) column := by
    rw [cells_append, isStart, cells_headed, endOf]
  have wordFits : 0 < (headingWord column).length := by cases column <;> decide
  have positive : 0 < width := by
    rw [endOf, headingWidth] at fits
    omega
  have visible := @visible_headingText display layout
  rw [headingText_eq, isText] at visible
  rcases prefix_truncateWidth positive visible (isEnd.trans_le fits) with ⟨rest, isLine⟩
  refine ⟨front, rest, ?_, isEnd⟩
  rw [renderDriveDetailHeader, headingText_eq, isText, ← isLine]

end Lines

section Full

variable {display : TableDisplay} {rows : List DriveDetailRow} {width : ℕ} {showIo : Bool}

theorem mode_eq_full_iff :
    (computeDriveTableLayout display rows width showIo).mode = .full ↔
      IsFull display rows width := by
  rw [IsFull]
  simp only [computeDriveTableLayout]
  split_ifs with natural full truncated throughput compact
  · refine iff_of_true rfl ?_
    omega
  · refine iff_of_true rfl ?_
    omega
  · refine iff_of_true rfl ?_
    omega
  all_goals
    refine iff_of_false (by simp) ?_
    omega

/-- The widths of the full table without the throughput. -/
theorem width_fullLayout {nameWidth : ℕ}
    (isName : nameWidth = min (widest display rows .name) (width - fullFixed display rows))
    {column : Column} (isShown : column ∈ fullColumns false) :
    (fullLayout display rows nameWidth).width column = fullWidth display rows width column := by
  cases column with
  | name => exact isName
  | read => exact absurd isShown (by decide)
  | write => exact absurd isShown (by decide)
  | _ => rfl

/-- The columns of the full table and their widths. -/
theorem full_columns (isFull : IsFull display rows width) :
    (computeDriveTableLayout display rows width true).showThroughput =
        fullThroughput display rows width ∧
      (computeDriveTableLayout display rows width true).columns =
        fullColumns (fullThroughput display rows width) ∧
      ∀ column ∈ fullColumns (fullThroughput display rows width),
        (computeDriveTableLayout display rows width true).width column =
          fullWidth display rows width column := by
  rw [IsFull] at isFull
  simp only [computeDriveTableLayout, fullThroughput]
  split_ifs with natural full truncated throughput compact
  · rw [decide_eq_true natural]
    refine ⟨rfl, rfl, fun column _ => ?_⟩
    have isName : widest display rows .name =
        min (widest display rows .name) (width - fullFixed display rows) := by omega
    cases column with
    | name => exact isName
    | _ => rfl
  · rw [decide_eq_false natural]
    exact ⟨rfl, rfl, fun column isShown => width_fullLayout (by omega) isShown⟩
  · rw [decide_eq_false natural]
    exact ⟨rfl, rfl, fun column isShown => width_fullLayout (by omega) isShown⟩
  all_goals
    omega

/-- Names that are no wider than their columns end where the columns end. -/
theorem endOf_heading_iff (width : Column → ℕ) (columns : List Column) {column : Column}
    (fits : (headingWord column).length ≤ width column) :
    endOf (headingWidth width) columns column = endOf width columns column ↔
      ∀ earlier ∈ columns.takeWhile (· ≠ column), (headingWord earlier).length ≤ width earlier := by
  have sums : ∀ before : List Column,
      (before.map fun earlier => (separator earlier).length + width earlier).sum ≤
          (before.map fun earlier => (separator earlier).length + headingWidth width earlier).sum ∧
        ((before.map fun earlier => (separator earlier).length + headingWidth width earlier).sum =
            (before.map fun earlier => (separator earlier).length + width earlier).sum ↔
          ∀ earlier ∈ before, (headingWord earlier).length ≤ width earlier) := by
    intro before
    induction before with
    | nil => simp
    | cons first before ih =>
        have wider : width first ≤ headingWidth width first := Nat.le_max_right _ _
        have isFirst : headingWidth width first = width first ↔
            (headingWord first).length ≤ width first := max_eq_right_iff
        rw [List.forall_mem_cons, ← isFirst, ← ih.2]
        simp only [List.map_cons, List.sum_cons]
        omega
  have isOwn : headingWidth width column = width column := Nat.max_eq_right fits
  rw [← (sums (columns.takeWhile (· ≠ column))).2, endOf, endOf, offset, offset, isOwn]
  omega

end Full

/-- The heading names the columns of the rows, and each name that is no wider than its column ends
where the column ends, as far as both are on the terminal. -/
structure HeadingLabels (layout : DriveTableLayout) (width : ℕ) : Prop where
  names : fullColumns layout.showThroughput = layout.columns
  ends : ∀ column ∈ layout.columns, column ≠ .name →
    (headingWord column).length ≤ layout.width column →
    endOf (headingWidth layout.width) (fullColumns layout.showThroughput) column ≤ width →
    endOf layout.width layout.columns column ≤ width →
    endOf (headingWidth layout.width) (fullColumns layout.showThroughput) column =
      endOf layout.width layout.columns column

/-- No column whose name fits is behind one whose name does not, in the full table as far as it is
on the terminal. -/
def WideEnough (display : TableDisplay) (rows : List DriveDetailRow) (width : ℕ) : Prop :=
  ∀ column ∈ fullColumns (fullThroughput display rows width), column ≠ .name →
    (headingWord column).length ≤ fullWidth display rows width column →
    endOf (headingWidth (fullWidth display rows width))
      (fullColumns (fullThroughput display rows width)) column ≤ width →
    ∀ earlier ∈ (fullColumns (fullThroughput display rows width)).takeWhile (· ≠ column),
      (headingWord earlier).length ≤ fullWidth display rows width earlier

section Labels

variable {display : TableDisplay} {rows : List DriveDetailRow} {width : ℕ}

theorem columns_of_full (layout : DriveTableLayout)
    (names : fullColumns layout.showThroughput = layout.columns) : layout.mode = .full := by
  have hasUsed : .used ∈ layout.columns := by
    rw [← names]
    exact List.mem_append_left _ (by decide)
  rw [DriveTableLayout.columns] at hasUsed
  cases isMode : layout.mode with
  | full => rfl
  | _ => simp [isMode] at hasUsed

theorem endOf_congr {first second : Column → ℕ} {columns : List Column} {column : Column}
    (same : ∀ column ∈ columns, first column = second column) (isShown : column ∈ columns) :
    endOf first columns column = endOf second columns column := by
  rw [endOf, endOf, offset, offset, same column isShown]
  congr 2
  refine congrArg List.sum (List.map_congr_left fun earlier isEarlier => ?_)
  rw [same earlier ((List.takeWhile_sublist _).subset isEarlier)]

theorem endOf_le_heading (width : Column → ℕ) (columns : List Column) (column : Column) :
    endOf width columns column ≤ endOf (headingWidth width) columns column := by
  refine Nat.add_le_add (Nat.add_le_add_right (List.sum_le_sum fun earlier _ => ?_) _)
    (Nat.le_max_right _ _)
  exact Nat.add_le_add_left (Nat.le_max_right _ _) _

/-- The heading labels the columns of the full table, where its names fit. -/
theorem headingLabels_iff :
    HeadingLabels (computeDriveTableLayout display rows width true) width ↔
      IsFull display rows width ∧ WideEnough display rows width := by
  have labels : IsFull display rows width →
      (HeadingLabels (computeDriveTableLayout display rows width true) width ↔
        WideEnough display rows width) := by
    intro isFull
    rcases full_columns isFull with ⟨isThroughput, isColumns, isWidth⟩
    have isHeading : ∀ column ∈ fullColumns (fullThroughput display rows width),
        headingWidth (computeDriveTableLayout display rows width true).width column =
          headingWidth (fullWidth display rows width) column := by
      intro column isShown
      rw [headingWidth, headingWidth, isWidth column isShown]
    constructor
    · rintro ⟨-, ends⟩ column isShown notName fits onTerminal
      have isEnd := ends column (isColumns ▸ isShown) notName
      rw [isThroughput, isColumns, isWidth column isShown, endOf_congr isHeading isShown,
        endOf_congr isWidth isShown] at isEnd
      exact (endOf_heading_iff _ _ fits).mp
        (isEnd fits onTerminal ((endOf_le_heading _ _ _).trans onTerminal))
    · intro wide
      refine ⟨by rw [isThroughput, isColumns], ?_⟩
      rw [isThroughput, isColumns]
      intro column isShown notName
      rw [isWidth column isShown, endOf_congr isHeading isShown, endOf_congr isWidth isShown]
      intro fits onTerminal _
      exact (endOf_heading_iff _ _ fits).mpr (wide column isShown notName fits onTerminal)
  constructor
  · intro isLabelled
    have isFull := mode_eq_full_iff.mp (columns_of_full _ isLabelled.names)
    exact ⟨isFull, (labels isFull).mp isLabelled⟩
  · rintro ⟨isFull, wide⟩
    exact (labels isFull).mpr wide

/-- The heading and the rows of a table have their columns where the widths say, and when the
heading is right. -/
theorem renderDriveDetailHeader_labels_iff (drives : List NormalizedDrive) (io : NormalizedDiskIo)
    (width : ℕ) :
    (∀ column ∈ fullColumns (driveLayout display drives (some io) width).showThroughput,
      endOf (headingWidth (driveLayout display drives (some io) width).width)
        (fullColumns (driveLayout display drives (some io) width).showThroughput) column ≤ width →
      EndsAt display
        (renderDriveDetailHeader display (driveLayout display drives (some io) width) width)
        (headed display (driveLayout display drives (some io) width) column)
        (endOf (headingWidth (driveLayout display drives (some io) width).width)
          (fullColumns (driveLayout display drives (some io) width).showThroughput) column)) ∧
    (∀ row ∈ driveRows display drives (some io),
      ∀ column ∈ (driveLayout display drives (some io) width).columns,
        EndsAt display
          (renderDriveDetailRow display row (driveLayout display drives (some io) width))
          (padded display row (driveLayout display drives (some io) width) column)
          (endOf (driveLayout display drives (some io) width).width
            (driveLayout display drives (some io) width).columns column)) ∧
    (HeadingLabels (driveLayout display drives (some io) width) width ↔
      IsFull display (driveRows display drives (some io)) width ∧
        WideEnough display (driveRows display drives (some io)) width) := by
  refine ⟨fun _ isNamed fits => exists_heading isNamed fits, fun row isRow column isShown => ?_,
    headingLabels_iff⟩
  rcases exists_column isRow isShown with ⟨front, back, isText, isStart⟩
  refine ⟨front, back, isText, ?_⟩
  rw [cells_append, isStart, driveLayout, cells_padded isRow isShown]
  rfl

end Labels

section ShortName

/-- A drive whose name is shorter than the name of its column. -/
def halfFullDrive : NormalizedDrive where
  name := "sda"
  usedBytes := 512 * GIB
  totalBytes := 1024 * GIB
  availableBytes := none

def idleIo : NormalizedDiskIo where
  aggregateReadBytesPerSec := 0
  aggregateWriteBytesPerSec := 0
  devices := []

/-- The name of the second column ends eight cells behind the column. -/
theorem not_headingLabels_halfFullDrive :
    ¬HeadingLabels (driveLayout terminal [halfFullDrive] (some idleIo) 80) 80 := by
  rintro ⟨-, ends⟩
  have isEnd := ends .used (by decide +kernel) (by decide) (by decide +kernel) (by decide +kernel)
    (by decide +kernel)
  exact absurd isEnd (by decide +kernel)

end ShortName

end Gregg.Tui.DriveTable
