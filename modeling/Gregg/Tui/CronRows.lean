import Gregg.Fleet.Cron
import Gregg.Tui.LoadGate
import Gregg.Tui.Sanitize
import Gregg.Tui.Window

/-!
# The rows of the cron pane

The block that opens inside the card of the selected system: a header, the section of the selected
job with its newest record, a window of the job table, and the older records. A row is what it says;
its text depends on the width of the terminal and on the clock.
-/

namespace Gregg.Tui.CronPane

open Clientd (SystemCronDto)

/-- What the texts of rows depend on besides the document: the columns that characters and texts
take, floats with two decimals, the clock, and the capability that the document has of a
scheduler. -/
structure Display where
  charWidth : Char → ℕ
  textWidth : List Char → ℕ
  fixed : F32 → String
  nowUnixMs : ℕ
  capability : SystemCronDto → CronCapability
  charWidth_ellipsis : charWidth '…' = 1

inductive Stream where
  | stdout
  | stderr

def Stream.name : Stream → String
  | .stdout => "stdout"
  | .stderr => "stderr"

def Stream.output (record : Clientd.CronRecord) : Stream → SchedulerOutputV2
  | .stdout => record.record.stdout
  | .stderr => record.record.stderr

/-- A row of the block, by what it says. -/
inductive CronRow where
  /-- The pane is open on a system that has no scheduler entry. -/
  | noState
  | header (cron : SystemCronDto)
  | staleNotice (error : String)
  | jobsAbove (count : ℕ)
  | job (job : SchedulerJobV2) (selected : Bool)
  | jobsBelow (count : ℕ)
  | selectedJob (job : String) (records : ℕ)
  | headline (record : Clientd.CronRecord)
  | output (label : String) (line : List Char)
  | moreLines
  /-- The marker of rows that were not drawn. -/
  | truncation

namespace CronRow

/-- How many jobs a row stands for. -/
def jobs : CronRow → ℕ
  | .jobsAbove count => count
  | .job _ _ => 1
  | .jobsBelow count => count
  | _ => 0

/-- The row says that jobs or rows are not drawn. -/
def saysHidden : CronRow → Bool
  | .jobsAbove _ => true
  | .jobsBelow _ => true
  | .truncation => true
  | _ => false

/-- The row is neither part of the job table nor a marker. -/
def IsPlain (row : CronRow) : Prop :=
  row.jobs = 0 ∧ row.saysHidden = false

end CronRow

section Texts

variable (display : Display)

def inert (text : String) : String :=
  String.ofList (sanitize text.toList none).text

/-- `cells`: the columns of a text, whose line breaks take none. -/
def cells (text : String) : ℕ :=
  ((Lines.split text.toList).map display.textWidth).sum

def plain (label value : String) : String :=
  s!"{label}  {value}"

/-- `{value:02}`. -/
def twoDigits (value : ℕ) : String :=
  if value < 10 then s!"0{value}" else toString value

/-- A duration in the units of its size. -/
def durationLabel (millis : ℕ) : String :=
  if millis < 1000 then s!"{millis}ms"
  else if millis < 60000 then
    let tenths := millis * 10 / 1000
    s!"{tenths / 10}.{tenths % 10}s"
  else if millis < 3600000 then s!"{millis / 60000}m{twoDigits (millis % 60000 / 1000)}s"
  else if millis < 86400000 then s!"{millis / 3600000}h{twoDigits (millis % 3600000 / 60000)}m"
  else s!"{millis / 86400000}d{twoDigits (millis % 86400000 / 3600000)}h"

def elapsedSince (unixMs : ℕ) : String :=
  durationLabel (display.nowUnixMs - unixMs)

/-- How long until an instant, which may have passed. -/
def countdownTo (unixMs : ℕ) : String :=
  if unixMs ≤ display.nowUnixMs then "due" else durationLabel (unixMs - display.nowUnixMs)

/-- The month and the day of a number of days since the Unix epoch. -/
def civilFromDays (days : ℤ) : ℕ × ℕ :=
  let shifted := days + 719468
  let era := shifted / 146097
  let dayOfEra := shifted - era * 146097
  let yearOfEra := (dayOfEra - dayOfEra / 1460 + dayOfEra / 36524 - dayOfEra / 146096) / 365
  let dayOfYear := dayOfEra - (365 * yearOfEra + yearOfEra / 4 - yearOfEra / 100)
  let monthPrime := (5 * dayOfYear + 2) / 153
  let day := dayOfYear - (153 * monthPrime + 2) / 5 + 1
  let month := if monthPrime < 10 then monthPrime + 3 else monthPrime - 9
  (month.toNat, day.toNat)

/-- An instant as `MM-DD HH:MMZ`. -/
def clockLabel (unixMs : ℕ) : String :=
  let secondsOfDay := unixMs / 1000 % 86400
  let (month, day) := civilFromDays (unixMs / 86400000)
  s!"{twoDigits month}-{twoDigits day} {twoDigits (secondsOfDay / 3600)}:" ++
    s!"{twoDigits (secondsOfDay % 3600 / 60)}Z"

example : clockLabel 1700000000000 = "11-14 22:13Z" := by decide +kernel

def composeFrom (budget : ℕ) (out : String) : List String → String
  | [] => out
  | part :: rest =>
      if budget < cells display out + 1 + cells display part then out
      else composeFrom budget (out ++ " " ++ part) rest

/-- Parts with spaces between them, without those at the end that do not fit. The first one is
always kept. -/
def compose (parts : List String) (width : ℕ) : String :=
  let out :=
    match parts with
    | [] => ""
    | first :: rest => composeFrom display (width - 2) first rest
  String.ofList (List.replicate (2 - out.length) ' ') ++ out

/-- A field of a schedule as a `u32`, where it is nothing but digits. -/
def parseField (field : List Char) : Option ℕ :=
  if field.all Char.isDigit then (Text.parseUsize field).filter (· < 2 ^ 32) else none

/-- A schedule, shortened where it is a time of the day or of the week. -/
def scheduleLabel (schedule : String) : String :=
  let clean := inert schedule
  match Text.splitWhitespace clean.toList with
  | [minute, hour, dayOfMonth, month, dayOfWeek] =>
      match parseField hour, parseField minute with
      | some hour, some minute =>
          let clock := s!"{twoDigits hour}:{twoDigits minute}"
          if dayOfMonth = ['*'] ∧ month = ['*'] then
            match dayOfWeek with
            | ['*'] => clock
            | [digit] =>
                match Text.digitValue digit with
                | some value =>
                    let name :=
                      ["Sun", "Mon", "Tue", "Wed", "Thu", "Fri", "Sat"].getD (min value 6) ""
                    s!"weekly {name} {clock}"
                | none => clean
            | _ => clean
          else clean
      | _, _ => clean
  | _ => clean

def stateLabel : SchedulerJobStateV2 → String
  | .idle => "idle"
  | .waitingForSlot => "waiting for slot"
  | .loadHigh => "load delayed"
  | .loadUnavailable => "load unavailable"
  | .running => "running"

/-- When the job runs next, or since when it is in its state. -/
def stateDetail (job : SchedulerJobV2) : Option String :=
  match job.state with
  | .idle => some s!"next {countdownTo display job.nextDueUnixMs}"
  | .running => job.runningSinceUnixMs.map fun since => s!"for {elapsedSince display since}"
  | .loadHigh => job.pendingSinceUnixMs.map fun since => s!"pending {elapsedSince display since}"
  | .loadUnavailable =>
      job.pendingSinceUnixMs.map fun since => s!"pending {elapsedSince display since}"
  | .waitingForSlot =>
      job.pendingSinceUnixMs.map fun since => s!"queued {elapsedSince display since}"

def outcomeLabel : SchedulerOutcomeV2 → String
  | .success => "ok"
  | .failed => "failed"
  | .spawnFailed => "spawn failed"
  | .waitFailed => "wait failed"
  | .loadExpired => "load expired"
  | .cancelled => "cancelled"

def cronHeader (cron : SystemCronDto) : String :=
  match display.capability cron with
  | .unknown => plain "CRON" "not asked yet"
  | .unsupported => plain "CRON" "unsupported by this greggd (no scheduler routes)"
  | .supported =>
      let jobs := (cron.summary.map (·.jobs.length)).getD 0
      if jobs = 0 then plain "CRON" "0 jobs configured" else s!"CRON  {jobs} jobs"

def staleNotice (error : String) : String :=
  s!"  ! scheduler read failed ({inert error}); showing last known data"

def jobRow (job : SchedulerJobV2) (selected : Bool) (width : ℕ) : String :=
  let marker := if selected then ">" else " "
  let gate := (loadGateLabel inert job).map (·.text display.fixed (countdownTo display))
  compose display
    ([s!"{marker} {inert job.name}", scheduleLabel job.schedule, stateLabel job.state] ++
      (stateDetail display job).toList ++ gate.toList ++
      (job.last.map fun last => s!"last {outcomeLabel last.outcome}").toList) width

def selectedJobHeader (job : String) (records : ℕ) : String :=
  if records = 0 then s!"  — {inert job}: no terminal records yet"
  else s!"  {inert job}: {records} most recent"

/-- When a record finished and how. -/
def recordHeadline (record : Clientd.CronRecord) (width : ℕ) : String :=
  let inner := record.record
  let duration := (inner.durationMs.map durationLabel).getD "—"
  let ending : Option String :=
    match inner.exitCode, inner.signal with
    | some code, _ => some s!"exit {code}"
    | none, some signal => some s!"signal {signal}"
    | none, none => none
  "  " ++ compose display
    ([clockLabel inner.finishedUnixMs, outcomeLabel inner.outcome, s!"ran {duration}"] ++
      (if 0 < inner.delayMs then [s!"delay {durationLabel inner.delayMs}"] else []) ++
      ending.toList ++ (if inner.coalesced then ["coalesced"] else [])) (width - 2)

/-- The text of a row on a terminal of this width. -/
def CronRow.text (width : ℕ) : CronRow → String
  | .noState => plain "CRON" "no scheduler state for this system"
  | .header cron => cronHeader display cron
  | .staleNotice error => CronPane.staleNotice error
  | .jobsAbove count => s!"  … {count} more jobs above"
  | .job listed selected => jobRow display listed selected width
  | .jobsBelow count => s!"  … {count} more jobs below"
  | .selectedJob name records => selectedJobHeader name records
  | .headline record => recordHeadline display record width
  | .output label line => s!"    {label}: {String.ofList line}"
  | .moreLines => "    more lines not shown"
  | .truncation => "  … more cron rows not shown"

end Texts

/-- The rows of one stream of a record, as many lines of it as the depth allows. -/
def streamLines (record : Clientd.CronRecord) (stream : Stream) (depth : ℕ) : List CronRow :=
  let output := stream.output record
  if output.text.isEmpty then []
  else
    let cleaned := sanitize output.text (some depth)
    -- The plus sign is the remote's own truncation, the last row is the one of this pane.
    let label := if output.truncated then stream.name ++ "+" else stream.name
    (cleaned.lines.filter fun line => !(Text.trim line).isEmpty).map (.output label ·) ++
      if cleaned.droppedLines then [.moreLines] else []

/-- The rows of a record: its headline and its output. -/
def recordLines (record : Clientd.CronRecord) (depth : ℕ) : List CronRow :=
  .headline record :: streamLines record .stdout depth ++ streamLines record .stderr depth

/-- The rows of the block, in the groups the budget is spent in. -/
structure BlockRows where
  head : List CronRow
  /-- The header of the selected job and its newest record. -/
  reserved : List CronRow
  table : List CronRow
  rest : List CronRow

namespace BlockRows

variable (block : BlockRows)

def length : ℕ :=
  block.head.length + block.reserved.length + block.table.length + block.rest.length

/-- Rows that are spent before any job row. -/
def fixed : ℕ :=
  block.head.length + block.reserved.length

def rows : List CronRow :=
  block.head ++ block.reserved ++ block.table ++ block.rest

end BlockRows

def jobRows (cron : SystemCronDto) : List SchedulerJobV2 :=
  (cron.summary.map (·.jobs)).getD []

/-- The window of the job table, with a row for the jobs hidden on either side. -/
def tableRows (jobs : List SchedulerJobV2) (selected : Option String) (tableMax : ℕ) :
    List CronRow :=
  let window := jobWindow (jobs.map (·.name)) selected tableMax
  (if 0 < window.above then [.jobsAbove window.above] else []) ++
    ((jobs.drop window.above).take window.shown).map (fun job =>
      .job job (decide (some job.name = selected))) ++
    (if 0 < window.below then [.jobsBelow window.below] else [])

/-- The rows of the block, with at most so many job rows. -/
def blockRows (state : AppState) (tableMax : ℕ) : BlockRows :=
  match state.selectedCron with
  | none => ⟨[.noState], [], [], []⟩
  | some cron =>
      let head := .header cron :: (cron.lastError.map .staleNotice).toList
      let selected := state.selectedCronJob
      let table := tableRows (jobRows cron) selected tableMax
      match selected with
      | none => ⟨head, [], table, []⟩
      | some job =>
          let records := jobRecords cron job
          let depth := max state.cronDisplayHistory 1
          let header := CronRow.selectedJob job records.length
          match records.reverse with
          | [] => ⟨head, [header], table, []⟩
          | newest :: older =>
              ⟨head, header :: recordLines newest depth, table,
                older.flatMap (recordLines · depth)⟩

/-- How many rows an output takes. -/
def streamRows (output : SchedulerOutputV2) (depth : ℕ) : ℕ :=
  if output.text.isEmpty then 0
  else
    let cleaned := sanitize output.text (some depth)
    (cleaned.lines.filter fun line => !(Text.trim line).isEmpty).length +
      if cleaned.droppedLines then 1 else 0

section Length

variable (record : Clientd.CronRecord) (depth : ℕ)

theorem length_streamLines (stream : Stream) :
    (streamLines record stream depth).length = streamRows (stream.output record) depth := by
  simp only [streamLines, streamRows]
  split
  · rfl
  · rw [List.length_append, List.length_map]
    split <;> rfl

theorem length_recordLines :
    (recordLines record depth).length = recordRows streamRows record depth := by
  rw [recordLines, recordRows, List.length_append, List.length_cons, length_streamLines,
    length_streamLines, Stream.output, Stream.output]
  omega

/-- The rows of a record are neither part of the job table nor markers. -/
theorem isPlain_recordLines {row : CronRow} (isRow : row ∈ recordLines record depth) :
    row.IsPlain := by
  have isPlainStream : ∀ stream, row ∈ streamLines record stream depth → row.IsPlain := by
    intro stream isLine
    simp only [streamLines] at isLine
    split at isLine
    · cases isLine
    · rcases List.mem_append.mp isLine with isOutput | isMore
      · rcases List.mem_map.mp isOutput with ⟨line, -, rfl⟩
        exact ⟨rfl, rfl⟩
      · split at isMore
        · rw [List.mem_singleton.mp isMore]
          exact ⟨rfl, rfl⟩
        · cases isMore
  rcases List.mem_append.mp isRow with isFirst | isStderr
  · rcases List.mem_cons.mp isFirst with rfl | isStdout
    · exact ⟨rfl, rfl⟩
    · exact isPlainStream _ isStdout
  · exact isPlainStream _ isStderr

end Length

section Window

variable {names : List String} {selected : Option String} {tableMax : ℕ}

theorem shown_jobWindow :
    (jobWindow names selected tableMax).shown = min tableMax names.length := by
  simp only [jobWindow]
  split
  · rename_i isEmpty
    exact isEmpty.symm
  · rfl

/-- The jobs of the window and those it hides on either side are all the jobs. -/
theorem sum_jobWindow :
    (jobWindow names selected tableMax).above + (jobWindow names selected tableMax).shown +
      (jobWindow names selected tableMax).below = names.length := by
  simp only [jobWindow]
  split
  · simp only
    omega
  · simp only
    omega

/-- The window is chosen around the selected job. -/
theorem selected_jobWindow {name : String} {index : ℕ} (positive : 0 < tableMax)
    (isIndex : names.idxOf? name = some index) (isListed : index < names.length) :
    (jobWindow names (some name) tableMax).above ≤ index ∧
      index < (jobWindow names (some name) tableMax).above +
        (jobWindow names (some name) tableMax).shown := by
  simp only [jobWindow, Option.bind_some, isIndex, Option.map_some, Option.getD_some]
  split
  · omega
  · simp only
    omega

end Window

section Table

variable {jobs : List SchedulerJobV2} {selected : Option String} {tableMax : ℕ}

theorem length_tableRows :
    (tableRows jobs selected tableMax).length =
      (jobWindow (jobs.map (·.name)) selected tableMax).shown +
        (if 0 < (jobWindow (jobs.map (·.name)) selected tableMax).above then 1 else 0) +
        (if 0 < (jobWindow (jobs.map (·.name)) selected tableMax).below then 1 else 0) := by
  have inWindow : (jobWindow (jobs.map (·.name)) selected tableMax).above +
      (jobWindow (jobs.map (·.name)) selected tableMax).shown ≤ jobs.length := by
    have isSum := @sum_jobWindow (jobs.map (·.name)) selected tableMax
    rw [List.length_map] at isSum
    omega
  simp only [tableRows, List.length_append, List.length_map, List.length_take, List.length_drop]
  split <;> split <;> simp only [List.length_cons, List.length_nil] <;> omega

/-- The window always has room for its own markers beside the job rows. -/
theorem length_tableRows_le :
    (tableRows jobs selected tableMax).length ≤ tableMax + JOB_WINDOW_MARKERS := by
  rw [length_tableRows, shown_jobWindow, JOB_WINDOW_MARKERS]
  split <;> split <;> omega

/-- A marker stands for at least one job. -/
theorem length_tableRows_le_jobs : (tableRows jobs selected tableMax).length ≤ jobs.length := by
  have isSum := @sum_jobWindow (jobs.map (·.name)) selected tableMax
  rw [List.length_map] at isSum
  rw [length_tableRows]
  split <;> split <;> omega

/-- A window of all the jobs has a row for each. -/
theorem jobs_le_length_tableRows (fits : jobs.length ≤ tableMax) :
    jobs.length ≤ (tableRows jobs selected tableMax).length := by
  rw [length_tableRows, shown_jobWindow, List.length_map]
  omega

/-- Every job is drawn in the table or counted by one of its markers. -/
theorem sum_tableRows :
    ((tableRows jobs selected tableMax).map CronRow.jobs).sum = jobs.length := by
  have isSum := @sum_jobWindow (jobs.map (·.name)) selected tableMax
  rw [List.length_map] at isSum
  have shownRows : ∀ shown : List SchedulerJobV2,
      ((shown.map fun job => CronRow.job job (decide (some job.name = selected))).map
        CronRow.jobs).sum = shown.length := by
    intro shown
    induction shown with
    | nil => rfl
    | cons job rest ih =>
        rw [List.map_cons, List.map_cons, List.sum_cons, ih, List.length_cons, CronRow.jobs]
        omega
  have markerRow : ∀ marker : ℕ → CronRow, (∀ count, (marker count).jobs = count) →
      ∀ count, ((if 0 < count then [marker count] else []).map CronRow.jobs).sum = count := by
    intro marker isCount count
    split
    · rw [List.map_singleton, List.sum_singleton, isCount]
    · simp only [List.map_nil, List.sum_nil]
      omega
  rw [tableRows, List.map_append, List.map_append, List.sum_append, List.sum_append, shownRows,
    markerRow .jobsAbove fun _ => rfl, markerRow .jobsBelow fun _ => rfl, List.length_take,
    List.length_drop]
  omega

theorem jobs_pos_of_mem_tableRows {row : CronRow}
    (isRow : row ∈ tableRows jobs selected tableMax) : 0 < row.jobs := by
  simp only [tableRows, List.mem_append] at isRow
  rcases isRow with (isAbove | isJob) | isBelow
  · split at isAbove
    · rw [List.mem_singleton.mp isAbove]
      assumption
    · cases isAbove
  · rcases List.mem_map.mp isJob with ⟨job, -, rfl⟩
    exact Nat.one_pos
  · split at isBelow
    · rw [List.mem_singleton.mp isBelow]
      assumption
    · cases isBelow

/-- A table that hides a job says so. -/
theorem exists_saysHidden_tableRows (hides : tableMax < jobs.length) :
    ∃ row ∈ tableRows jobs selected tableMax, row.saysHidden = true := by
  have isSum := @sum_jobWindow (jobs.map (·.name)) selected tableMax
  rw [List.length_map, shown_jobWindow, List.length_map] at isSum
  by_cases above : 0 < (jobWindow (jobs.map (·.name)) selected tableMax).above
  · refine ⟨.jobsAbove (jobWindow (jobs.map (·.name)) selected tableMax).above, ?_, rfl⟩
    simp only [tableRows, if_pos above, List.mem_append, List.mem_singleton, true_or]
  · have below : 0 < (jobWindow (jobs.map (·.name)) selected tableMax).below := by
      omega
    refine ⟨.jobsBelow (jobWindow (jobs.map (·.name)) selected tableMax).below, ?_, rfl⟩
    simp only [tableRows, if_pos below, List.mem_append, List.mem_singleton, or_true]

/-- The row of the selected job is in the table. -/
theorem selected_mem_tableRows {name : String} (positive : 0 < tableMax)
    (isJob : name ∈ jobs.map (·.name)) :
    ∃ job ∈ jobs, job.name = name ∧
      CronRow.job job true ∈ tableRows jobs (some name) tableMax := by
  rcases Option.isSome_iff_exists.mp (List.isSome_idxOf?.mpr isJob) with ⟨index, isIndex⟩
  rcases List.idxOf?_eq_some_iff.mp isIndex with ⟨isListed, isName, -⟩
  rcases selected_jobWindow positive isIndex isListed with ⟨fromAbove, toBelow⟩
  rw [List.getElem_map] at isName
  rw [List.length_map] at isListed
  refine ⟨jobs[index], List.getElem_mem isListed, isName, ?_⟩
  simp only [tableRows, List.mem_append, List.mem_map]
  refine .inl (.inr ⟨jobs[index], ?_, ?_⟩)
  · apply List.mem_of_getElem?
    · rw [List.getElem?_take_of_lt (Nat.sub_lt_left_of_lt_add fromAbove toBelow),
        List.getElem?_drop, Nat.add_sub_cancel' fromAbove]
      exact List.getElem?_eq_getElem isListed
  · rw [decide_eq_true (congrArg some isName)]

end Table

section Block

variable {state : AppState} {tableMax : ℕ}

theorem names_jobRows {cron : SystemCronDto} (isCron : state.selectedCron = some cron) :
    (jobRows cron).map (·.name) = state.cronJobNames := by
  rw [AppState.cronJobNames, isCron, Option.bind_some, jobRows]
  cases cron.summary <;> rfl

theorem sum_records (records : List Clientd.CronRecord) (depth : ℕ) :
    (records.map (recordRows streamRows · depth)).sum =
      (records.reverse.flatMap (recordLines · depth)).length := by
  rw [List.length_flatMap, List.map_reverse, List.sum_reverse]
  apply congrArg List.sum
  apply List.map_congr_left
  intro record _
  exact (length_recordLines record depth).symm

/-- The height that the layout accounts for is the height of the rows that are drawn. -/
theorem length_blockRows :
    (blockRows state tableMax).length = Tui.blockRows streamRows state tableMax := by
  unfold blockRows Tui.blockRows
  cases isCron : state.selectedCron with
  | none => rfl
  | some cron =>
      have isTable := @length_tableRows (jobRows cron) state.selectedCronJob tableMax
      rw [names_jobRows isCron] at isTable
      have isHead : (CronRow.header cron :: (cron.lastError.map .staleNotice).toList).length =
          if cron.lastError.isSome then 2 else 1 := by
        cases cron.lastError <;> rfl
      simp only
      cases isJob : state.selectedCronJob with
      | none =>
          rw [isJob] at isTable
          simp only [BlockRows.length, isHead, isTable, List.length_nil]
          omega
      | some job =>
          rw [isJob] at isTable
          simp only [sum_records, SELECTED_JOB_ROWS]
          cases (jobRecords cron job).reverse with
          | nil =>
              simp only [BlockRows.length, isHead, isTable, List.length_nil, List.length_cons,
                List.flatMap_nil]
              omega
          | cons newest older =>
              simp only [BlockRows.length, isHead, isTable, List.length_cons, List.flatMap_cons,
                List.length_append]
              omega

/-- Only the job table depends on the limit of the window. -/
theorem blockRows_table (limit : ℕ) :
    blockRows state limit =
      { blockRows state tableMax with table := (blockRows state limit).table } := by
  unfold blockRows
  cases state.selectedCron with
  | none => rfl
  | some cron =>
      simp only
      cases state.selectedCronJob with
      | none => rfl
      | some job =>
          simp only
          cases (jobRecords cron job).reverse <;> rfl

/-- The rows of the table, of a system that has a scheduler entry. -/
theorem table_blockRows :
    (blockRows state tableMax).table =
      ((state.selectedCron.map fun cron =>
        tableRows (jobRows cron) state.selectedCronJob tableMax).getD []) := by
  unfold blockRows
  cases state.selectedCron with
  | none => rfl
  | some cron =>
      simp only [Option.map_some, Option.getD_some]
      cases state.selectedCronJob with
      | none => rfl
      | some job =>
          simp only
          cases (jobRecords cron job).reverse <;> rfl

/-- What stands around the job table is neither part of it nor a marker. -/
theorem isPlain_blockRows {row : CronRow}
    (isRow : row ∈ (blockRows state tableMax).head ++ (blockRows state tableMax).reserved ++
      (blockRows state tableMax).rest) :
    row.IsPlain := by
  unfold blockRows at isRow
  cases isCron : state.selectedCron with
  | none =>
      rw [isCron] at isRow
      rw [List.mem_singleton.mp isRow]
      exact ⟨rfl, rfl⟩
  | some cron =>
      have isPlainHead : ∀ row ∈ CronRow.header cron :: (cron.lastError.map .staleNotice).toList,
          row.IsPlain := by
        intro row isRow
        rcases List.mem_cons.mp isRow with rfl | isNotice
        · exact ⟨rfl, rfl⟩
        · rcases Option.map_eq_some_iff.mp (Option.mem_toList.mp isNotice) with ⟨error, -, rfl⟩
          exact ⟨rfl, rfl⟩
      simp only [isCron] at isRow
      cases isJob : state.selectedCronJob with
      | none =>
          simp only [isJob, List.append_nil] at isRow
          exact isPlainHead row isRow
      | some job =>
          simp only [isJob] at isRow
          cases isRecords : (jobRecords cron job).reverse with
          | nil =>
              simp only [isRecords, List.append_nil] at isRow
              rcases List.mem_append.mp isRow with isHead | isHeader
              · exact isPlainHead row isHead
              · rw [List.mem_singleton.mp isHeader]
                exact ⟨rfl, rfl⟩
          | cons newest older =>
              simp only [isRecords] at isRow
              rcases List.mem_append.mp isRow with isFixed | isRest
              · rcases List.mem_append.mp isFixed with isHead | isReserved
                · exact isPlainHead row isHead
                · rcases List.mem_cons.mp isReserved with rfl | isNewest
                  · exact ⟨rfl, rfl⟩
                  · exact isPlain_recordLines _ _ isNewest
              · rcases List.mem_flatMap.mp isRest with ⟨record, -, isOlder⟩
                exact isPlain_recordLines _ _ isOlder

theorem length_table_blockRows :
    (blockRows state tableMax).table.length ≤ tableMax + JOB_WINDOW_MARKERS := by
  rw [table_blockRows]
  cases state.selectedCron with
  | none => exact Nat.zero_le _
  | some cron => exact length_tableRows_le

/-- A table that is shorter than under another limit hides jobs, and says so. -/
theorem exists_saysHidden_table {limit : ℕ}
    (shorter : (blockRows state tableMax).table.length < (blockRows state limit).table.length) :
    ∃ row ∈ (blockRows state tableMax).table, row.saysHidden = true := by
  rw [table_blockRows, table_blockRows] at shorter
  rw [table_blockRows]
  cases isCron : state.selectedCron with
  | none =>
      rw [isCron] at shorter
      exact absurd shorter (Nat.lt_irrefl _)
  | some cron =>
      simp only [isCron, Option.map_some, Option.getD_some] at shorter ⊢
      apply exists_saysHidden_tableRows
      by_contra fits
      have isAll := @jobs_le_length_tableRows (jobRows cron) state.selectedCronJob tableMax
        (Nat.le_of_not_lt fits)
      have isMost := @length_tableRows_le_jobs (jobRows cron) state.selectedCronJob limit
      omega

theorem jobs_pos_of_mem_table {row : CronRow} (isRow : row ∈ (blockRows state tableMax).table) :
    0 < row.jobs := by
  rw [table_blockRows] at isRow
  cases isCron : state.selectedCron with
  | none =>
      rw [isCron] at isRow
      cases isRow
  | some cron =>
      rw [isCron] at isRow
      exact jobs_pos_of_mem_tableRows isRow

/-- The selected job has a row in the table. -/
theorem selected_mem_table {job : String} (positive : 0 < tableMax)
    (isSelected : state.selectedCronJob = some job) :
    ∃ row, row.name = job ∧ CronRow.job row true ∈ (blockRows state tableMax).table := by
  have isListed : job ∈ state.cronJobNames := by
    unfold AppState.selectedCronJob at isSelected
    split at isSelected
    · split at isSelected
      · cases isSelected
        assumption
      · exact List.mem_of_head? isSelected
    · exact List.mem_of_head? isSelected
  cases isCron : state.selectedCron with
  | none =>
      rw [AppState.cronJobNames, isCron] at isListed
      cases isListed
  | some cron =>
      rw [← names_jobRows isCron] at isListed
      rcases selected_mem_tableRows positive isListed with ⟨row, -, isName, isRow⟩
      rw [table_blockRows, isCron, isSelected]
      exact ⟨row, isName, isRow⟩

/-- The table stands for all the jobs of the selected system. -/
theorem sum_blockRows_table :
    ((blockRows state tableMax).table.map CronRow.jobs).sum = state.cronJobNames.length := by
  rw [table_blockRows]
  cases isCron : state.selectedCron with
  | none =>
      rw [AppState.cronJobNames, isCron]
      rfl
  | some cron =>
      rw [Option.map_some, Option.getD_some, sum_tableRows, ← names_jobRows isCron,
        List.length_map]

end Block

end Gregg.Tui.CronPane
