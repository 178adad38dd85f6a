import Gregg.Tui.CronPane

/-!
# The job rows of the cron pane

How many jobs the pane draws. The window of a block that does not fit is derived from the height
that is left, which the cap of the table does not bound.
-/

namespace Gregg.Tui.CronPane

def CronRow.isJob : CronRow → Bool
  | .job _ _ => true
  | _ => false

/-- The job rows among drawn rows. -/
def jobRowCount (rows : List CronRow) : ℕ :=
  rows.countP CronRow.isJob

/-- The table stays within its cap, and a block that does not fit has no more job rows than the full
one. -/
def TableCapped (state : AppState) (height : ℕ) : Prop :=
  jobRowCount (paneRows state height) ≤ MAX_JOB_ROWS ∧
    (height < (blockRows state MAX_JOB_ROWS).length →
      jobRowCount (paneRows state height) ≤ jobRowCount (blockRows state MAX_JOB_ROWS).rows)

section Count

variable {state : AppState} {height tableMax : ℕ}

theorem jobRowCount_append (front rows : List CronRow) :
    jobRowCount (front ++ rows) = jobRowCount front + jobRowCount rows :=
  List.countP_append

theorem jobRowCount_plain {rows : List CronRow} (plain : ∀ row ∈ rows, row.IsPlain) :
    jobRowCount rows = 0 := by
  rw [jobRowCount, List.countP_eq_zero]
  intro row isRow isJob
  have isPlain := (plain row isRow).1
  cases row <;> simp_all [CronRow.isJob, CronRow.jobs]

theorem jobRowCount_tableRows {jobs : List SchedulerJobV2} {selected : Option String} :
    jobRowCount (tableRows jobs selected tableMax) = min tableMax jobs.length := by
  have isSum := @sum_jobWindow (jobs.map (·.name)) selected tableMax
  have isShown := @shown_jobWindow (jobs.map (·.name)) selected tableMax
  rw [List.length_map] at isSum isShown
  have markerRow : ∀ (row : CronRow) (count : ℕ), row.isJob = false →
      jobRowCount (if 0 < count then [row] else []) = 0 := by
    intro row count isMarker
    split
    · rw [jobRowCount, List.countP_singleton, isMarker, if_neg Bool.false_ne_true]
    · rfl
  have shownRows : ∀ shown : List SchedulerJobV2, jobRowCount
      (shown.map fun job => CronRow.job job (decide (some job.name = selected))) =
        shown.length := by
    intro shown
    rw [jobRowCount, List.countP_map]
    exact List.countP_eq_length.mpr fun _ _ => rfl
  rw [tableRows, jobRowCount_append, jobRowCount_append, shownRows, markerRow _ _ rfl,
    markerRow _ _ rfl, List.length_take, List.length_drop]
  omega

theorem jobRowCount_table :
    jobRowCount (blockRows state tableMax).table = min tableMax state.cronJobNames.length := by
  rw [table_blockRows]
  cases isCron : state.selectedCron with
  | none =>
      rw [AppState.cronJobNames, isCron]
      exact (Nat.min_zero _).symm
  | some cron =>
      rw [Option.map_some, Option.getD_some, jobRowCount_tableRows, ← names_jobRows isCron,
        List.length_map]

theorem jobRowCount_rows :
    jobRowCount (blockRows state tableMax).rows = min tableMax state.cronJobNames.length := by
  have plainFront : jobRowCount ((blockRows state tableMax).head ++
      (blockRows state tableMax).reserved) = 0 :=
    jobRowCount_plain fun row isRow => isPlain_blockRows (List.mem_append_left _ isRow)
  have plainRest : jobRowCount (blockRows state tableMax).rest = 0 :=
    jobRowCount_plain fun row isRow => isPlain_blockRows (List.mem_append_right _ isRow)
  rw [BlockRows.rows, jobRowCount_append, jobRowCount_append, plainFront, plainRest,
    jobRowCount_table, Nat.zero_add, Nat.add_zero]

/-- No more job rows are drawn than the window has. -/
theorem jobRowCount_paneRows_le :
    jobRowCount (paneRows state height) ≤
      min (tableLimit state height) state.cronJobNames.length := by
  by_cases short : height < (blockRows state (tableLimit state height)).length
  · have isMarker : jobRowCount [.truncation] = 0 := rfl
    rw [paneRows_of_lt short, jobRowCount_append, isMarker, Nat.add_zero, ← jobRowCount_rows]
    exact (List.take_sublist _ _).countP_le
  · rw [paneRows_of_le (Nat.le_of_not_lt short), jobRowCount_rows]

/-- With room for the fixed rows and four more, every job row of the window is drawn. -/
theorem jobRowCount_paneRows (room : (blockRows state MAX_JOB_ROWS).fixed + 4 ≤ height) :
    jobRowCount (paneRows state height) =
      min (tableLimit state height) state.cronJobNames.length := by
  by_cases short : height < (blockRows state (tableLimit state height)).length
  · have isMost := @jobRowCount_paneRows_le state height
    have isTable := length_table_le room short
    have isFixed := @fixed_blockRows state (tableLimit state height) MAX_JOB_ROWS
    rw [BlockRows.fixed] at isFixed
    apply Nat.le_antisymm isMost
    rw [← jobRowCount_table]
    apply List.Sublist.countP_le
    rw [paneRows_of_lt short, BlockRows.rows, List.take_append, List.take_of_length_le]
    · rw [List.append_assoc]
      exact (List.sublist_append_right _ _).trans (List.sublist_append_left _ _)
    · rw [List.length_append, List.length_append]
      omega
  · rw [paneRows_of_le (Nat.le_of_not_lt short), jobRowCount_rows]

/-- When the table stays within its cap: no more jobs than the cap, a block that fits, or so few
lines that the window is smaller than the cap. -/
theorem tableCapped_iff_room :
    TableCapped state height ↔
      (blockRows state MAX_JOB_ROWS).length ≤ height ∨
        state.cronJobNames.length ≤ MAX_JOB_ROWS ∨
          height ≤ (blockRows state MAX_JOB_ROWS).fixed + 1 + JOB_WINDOW_MARKERS +
            MAX_JOB_ROWS := by
  have isFull := @jobRowCount_rows state MAX_JOB_ROWS
  have isMost := @jobRowCount_paneRows_le state height
  constructor
  · rintro ⟨capped, -⟩
    by_contra exceeds
    simp only [not_or, Nat.not_le] at exceeds
    rcases exceeds with ⟨short, many, tall⟩
    have isLimit : tableLimit state height = max (height -
      ((blockRows state MAX_JOB_ROWS).fixed + 1 + JOB_WINDOW_MARKERS)) 1 := if_pos short
    rw [MAX_JOB_ROWS] at capped many
    rw [JOB_WINDOW_MARKERS, MAX_JOB_ROWS] at tall
    rw [JOB_WINDOW_MARKERS, MAX_JOB_ROWS] at isLimit
    rw [jobRowCount_paneRows (by rw [MAX_JOB_ROWS]; omega)] at capped
    omega
  · intro condition
    have isLimit : (blockRows state MAX_JOB_ROWS).length ≤ height ∨
        state.cronJobNames.length ≤ MAX_JOB_ROWS ∨ tableLimit state height ≤ MAX_JOB_ROWS := by
      refine condition.imp_right (Or.imp_right fun small => ?_)
      rw [tableLimit]
      split
      · rw [JOB_WINDOW_MARKERS, MAX_JOB_ROWS] at *
        omega
      · exact Nat.le_refl _
    rcases isLimit with fits | few | small
    · rw [TableCapped, paneRows_full fits, isFull]
      exact ⟨Nat.min_le_left _ _, fun short => absurd short (Nat.not_lt.mpr fits)⟩
    · rw [TableCapped, isFull]
      omega
    · rw [TableCapped, isFull]
      omega

/-- When the rows drawn in an area keep the table within its cap. -/
theorem tableCapped_iff {display : Display} {area : Rect} {rowsVisible : ℕ}
    (wide : 0 < area.width) (positive : 0 < min area.height rowsVisible)
    (onTerminal : area.y + min area.height rowsVisible ≤ u16Max) :
    render display area state rowsVisible =
        (paneRows state (min area.height rowsVisible)).zipIdx.map (fun entry =>
          lineAt display area entry.1 entry.2) ∧
      (TableCapped state (min area.height rowsVisible) ↔
        (blockRows state MAX_JOB_ROWS).length ≤ min area.height rowsVisible ∨
          state.cronJobNames.length ≤ MAX_JOB_ROWS ∨
            min area.height rowsVisible ≤
              (blockRows state MAX_JOB_ROWS).fixed + 1 + JOB_WINDOW_MARKERS + MAX_JOB_ROWS) :=
  ⟨render_eq wide positive onTerminal, tableCapped_iff_room⟩

/-- In thirty lines the block of thirty jobs does not fit, and as many jobs as the cap are drawn. -/
theorem tableCapped_thirtyJobs :
    thirtyJobs.cronJobNames.length = 30 ∧ 30 < (blockRows thirtyJobs MAX_JOB_ROWS).length ∧
      jobRowCount (paneRows thirtyJobs 30) = MAX_JOB_ROWS ∧ TableCapped thirtyJobs 30 := by
  refine ⟨by decide +kernel, by decide +kernel, by decide +kernel, ?_⟩
  exact (@tableCapped_iff thirtyJobs narrow ⟨0, 0, 80, 30, by decide, by decide⟩ 35 (by decide)
    (by decide) (by decide)).2.mpr (.inr (.inr (by decide +kernel)))

/-- In the most lines the pane asks for, a block of one row more has five job rows beyond the cap,
and six of eight older records are cut for them. -/
theorem not_tableCapped_thirtyJobs :
    isVisible thirtyJobs = true ∧ desiredRows streamRows thirtyJobs = 35 ∧
      (blockRows thirtyJobs MAX_JOB_ROWS).length = 36 ∧
      jobRowCount (blockRows thirtyJobs MAX_JOB_ROWS).rows = 24 ∧
      jobRowCount (paneRows thirtyJobs 35) = 29 ∧ ¬TableCapped thirtyJobs 35 := by
  have drawn : jobRowCount (paneRows thirtyJobs 35) = 29 := by decide +kernel
  refine ⟨by decide, by decide +kernel, by decide +kernel, by decide +kernel, drawn, ?_⟩
  intro capped
  have atMost := capped.1
  rw [drawn] at atMost
  exact absurd atMost (by decide)

end Count

end Gregg.Tui.CronPane
