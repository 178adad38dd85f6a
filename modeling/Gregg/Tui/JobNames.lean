import Mathlib.Data.List.Find
import Gregg.Fleet.CronCoherence
import Gregg.Fleet.CronObserved
import Gregg.Fleet.CronPublication
import Gregg.Protocol.ValidateScheduler
import Gregg.Tui.EventLoop
import Gregg.Tui.InertText
import Gregg.Tui.SelectionRepair
import Gregg.Tui.Window

/-!
# The name of a job on its way through the pane

A frontend cleans the names of the jobs it is shown, and asks the daemon for the history of the job
by the name that is left. The daemon keeps the histories by the names that the remote uses.
-/

namespace Gregg

/-- The text of an error. -/
def CronFetchError.message : CronFetchError → String
  | .transport message => message
  | .bodyTooLarge => "response exceeded the scheduler body cap"
  | .invalid message => "invalid scheduler document: " ++ message
  | .incoherent message => "scheduler history does not match the summary: " ++ message

namespace Fleet

/-- A history as a frontend reads it. -/
def CronJobHistoryDto.toSnapshot (entry : CronJobHistoryDto) : Clientd.CronJobHistoryDto where
  job := entry.job
  records := entry.records.map fun record => ⟨record.epoch, record.record⟩

/-- A scheduler document as a frontend reads it. -/
def SystemCronDto.toSnapshot (dto : SystemCronDto) : Clientd.SystemCronDto where
  systemId := dto.systemId
  summary := dto.summary
  lastError := dto.lastError.map (·.message)
  history := dto.history.map (·.toSnapshot)

end Fleet

namespace Tui

open Clientd (CronIntent CronIntents)
open Fleet (FleetState IntentCall)
open Fleet.CronPlane (firstSummary)

/-- `clean`: a remote text without terminal controls. -/
def clean (text : String) : String :=
  String.ofList (sanitize text.toList none).text

/-- The request as the daemon records it. -/
def CronIntentRequest.toIntent (request : CronIntentRequest) : CronIntent where
  systemId := request.systemId
  job := request.job
  displayHistory := request.displayHistory

/-- `selected_job_view`: the records under the selected job. -/
def AppState.selectedRecords (state : AppState) : List Clientd.CronRecord :=
  match state.selectedCron, state.selectedCronJob with
  | some cron, some job => jobRecords cron job
  | _, _ => []

section Clean

variable {line : List Char} {character : Char}

/-- A character that is shown as itself. -/
def Kept (character : Char) : Prop :=
  character ≠ '\t' ∧ escape character = none

instance (character : Char) : Decidable (Kept character) :=
  inferInstanceAs (Decidable (_ ∧ _))

theorem cell_eq_self_iff : cell character = [character] ↔ Kept character := by
  constructor
  · intro itself
    have kept := @cell_of_mem_cell character character (by rw [itself]; exact List.mem_cons_self)
    refine ⟨?_, kept.2⟩
    rintro rfl
    exact absurd itself (by decide)
  · rintro ⟨notTab, kept⟩
    rw [cell, if_neg notTab, kept]
    rfl

theorem row_eq_self_iff : row line = line ↔ ∀ character ∈ line, Kept character := by
  constructor
  · intro same character isCharacter
    rw [← same] at isCharacter
    rcases mem_row_iff.mp isCharacter with ⟨original, -, inCell⟩
    exact cell_eq_self_iff.mp (cell_of_mem_cell inCell).1
  · intro kept
    rw [row, List.flatMap_congr fun character isCharacter =>
      cell_eq_self_iff.mpr (kept character isCharacter)]
    exact List.flatMap_singleton' line

theorem row_stripReturn_eq_self_iff (single : '\n' ∉ line) :
    row (Lines.stripReturn line) = line ↔ ∀ character ∈ line, Kept character := by
  have strips : '\r' ∉ line → Lines.stripReturn line = line := by
    intro noReturn
    rw [Lines.stripReturn, if_neg fun isReturn => noReturn (List.mem_of_getLast? isReturn)]
  constructor
  · intro same
    have noReturn : '\r' ∉ line := by
      rw [← same]
      exact (unbroken_row fun isFeed => single (Lines.stripReturn_subset line isFeed)).2
    rw [strips noReturn] at same
    exact row_eq_self_iff.mp same
  · intro kept
    rw [strips, row_eq_self_iff.mpr kept]
    intro isReturn
    exact Option.some_ne_none _ (escape_return.symm.trans (kept '\r' isReturn).2)

end Clean

section Names

variable {text last : List Char} {lines : List (List Char)}

/-- A text that cleaning leaves alone: it has no tab and nothing to escape, and does not end with a
line feed. -/
def NameKept (name : List Char) : Prop :=
  (∀ character ∈ name, Kept character) ∧ name.getLast? ≠ some '\n'

instance (name : List Char) : Decidable (NameKept name) :=
  inferInstanceAs (Decidable (_ ∧ _))

theorem sanitize_text (text : List Char) :
    (sanitize text none).text = ['\n'].intercalate ((Lines.split text).map row) := by
  rw [sanitize_eq]
  rfl

theorem single_rows (single : ∀ line ∈ lines, '\n' ∉ line) :
    ∀ shown ∈ (lines.map Lines.stripReturn).map row, '\n' ∉ shown := by
  rw [List.map_map, List.forall_mem_map]
  intro line isLine
  exact (unbroken_row fun isFeed => single line isLine (Lines.stripReturn_subset line isFeed)).1

/-- A text has one reading as lines and what comes after the last one. -/
theorem join_append_inj {shown : List (List Char)} {shownLast : List Char}
    (single : ∀ line ∈ lines, '\n' ∉ line) (lastSingle : '\n' ∉ last)
    (shownSingle : ∀ line ∈ shown, '\n' ∉ line) (shownLastSingle : '\n' ∉ shownLast) :
    Lines.join shown ++ shownLast = Lines.join lines ++ last ↔
      shown = lines ∧ shownLast = last := by
  constructor
  · intro same
    have ended : Lines.join (shown ++ [shownLast]) = Lines.join (lines ++ [last]) := by
      have longer := congrArg (· ++ ['\n']) same
      simpa [Lines.join_append] using longer
    have parts := Lines.join_injective
      (List.forall_mem_append.mpr ⟨shownSingle, List.forall_mem_singleton.mpr shownLastSingle⟩)
      (List.forall_mem_append.mpr ⟨single, List.forall_mem_singleton.mpr lastSingle⟩) ended
    rcases List.append_inj' parts rfl with ⟨sameLines, sameLast⟩
    exact ⟨sameLines, List.head_eq_of_cons_eq sameLast⟩
  · rintro ⟨rfl, rfl⟩
    rfl

/-- Lines that all end with a line feed lose the last one. -/
theorem not_kept_of_ended (nonempty : lines ≠ []) (single : ∀ line ∈ lines, '\n' ∉ line) :
    ['\n'].intercalate ((lines.map Lines.stripReturn).map row) ≠ Lines.join lines ∧
      (Lines.join lines).getLast? = some '\n' := by
  constructor
  · intro same
    have someRows : (lines.map Lines.stripReturn).map row ≠ [] := by simpa using nonempty
    have joined := Lines.intercalate_append_newline someRows
    rw [same] at joined
    have longer : Lines.join lines ++ ['\n'] = Lines.join (lines ++ [[]]) := by
      rw [Lines.join_append]
      rfl
    have blankSingle : ∀ line ∈ lines ++ [[]], '\n' ∉ line :=
      List.forall_mem_append.mpr ⟨single, by simp⟩
    have length := congrArg List.length
      (Lines.join_injective blankSingle (single_rows single) (longer.symm.trans joined))
    rw [List.length_append, List.length_map, List.length_map, List.length_singleton] at length
    omega
  · rcases List.eq_nil_or_concat lines with rfl | ⟨before, line, rfl⟩
    · exact absurd rfl nonempty
    · rw [List.concat_eq_append, Lines.join_append, Lines.join_cons, Lines.join_nil,
        ← List.append_assoc, List.getLast?_concat]

theorem sanitize_text_eq_self_iff : (sanitize text none).text = text ↔ NameKept text := by
  rcases Lines.exists_parts text with ⟨lines, last, single, lastSingle, rfl⟩
  rw [sanitize_text, Lines.split_parts single lastSingle, NameKept]
  by_cases isEnded : last = []
  · subst isEnded
    rw [if_pos rfl, List.append_nil, List.append_nil]
    by_cases none : lines = []
    · subst none
      refine iff_of_true rfl ⟨?_, ?_⟩ <;> simp
    · rcases not_kept_of_ended none single with ⟨differs, ends⟩
      exact iff_of_false differs fun kept => kept.2 ends
  · have feedKept : Kept '\n' := ⟨by decide, rfl⟩
    have notEnded : (Lines.join lines ++ last).getLast? ≠ some '\n' := by
      rw [List.getLast?_append_of_ne_nil _ isEnded]
      exact fun isFeed => lastSingle (List.mem_of_getLast? isFeed)
    have sameLines : (lines.map Lines.stripReturn).map row = lines ↔
        ∀ line ∈ lines, ∀ character ∈ line, Kept character := by
      conv_lhs => rw [List.map_map, ← List.map_id lines, List.map_map]
      rw [List.map_inj_left]
      exact forall₂_congr fun line isLine => row_stripReturn_eq_self_iff (single line isLine)
    have everyKept : (∀ character ∈ Lines.join lines, Kept character) ↔
        ∀ line ∈ lines, ∀ character ∈ line, Kept character := by
      simp only [Lines.join, List.mem_flatMap, List.mem_append, List.mem_singleton]
      constructor
      · intro kept line isLine character isCharacter
        exact kept character ⟨line, isLine, .inl isCharacter⟩
      · rintro kept character ⟨line, isLine, isCharacter | rfl⟩
        · exact kept line isLine character isCharacter
        · exact feedKept
    rw [if_neg isEnded, List.map_append, List.map_singleton, Lines.intercalate_append_singleton,
      join_append_inj single lastSingle (single_rows single) (unbroken_row lastSingle).1, sameLines,
      row_eq_self_iff, List.forall_mem_append, everyKept, and_iff_left notEnded]

theorem clean_eq_self_iff {name : String} : clean name = name ↔ NameKept name.toList := by
  rw [← sanitize_text_eq_self_iff, clean]
  constructor
  · intro same
    have sameText := congrArg String.toList same
    rwa [String.toList_ofList] at sameText
  · intro same
    rw [same, String.ofList_toList]

end Names

section Pane

variable {Snapshot Reason Entry Summary Health : Type}

/-- The scheduler documents of a frontend that adopted what is published. -/
def shownCron (fleet : FleetState Snapshot Reason Entry Summary Health) (intents : CronIntents) :
    List Clientd.SystemCronDto :=
  (fleet.cronToDto intents).map fun dto => cleanCron clean dto.toSnapshot

/-- The pane is open on a row of the job table of a system. -/
structure OnRow (state : AppState) (systemId : String) (row : ℕ) : Prop where
  cronExpanded : state.cronExpanded = true
  selectedId : state.selectedId = some systemId
  selectedCronJob : state.selectedCronJob = state.cronJobNames[row]?

/-- An intent of a frontend that shows what is published. -/
def Sends (fleet : FleetState Snapshot Reason Entry Summary Health) (intent : CronIntent) : Prop :=
  ∃ state intents, AppState.cron state = shownCron fleet intents ∧
    intent = state.cronIntent.toIntent

/-- From every job row of a system the records of its job are reached: a frontend on the row sends
an intent, the daemon publishes for it and for what other frontends look at, and under the row the
frontend finds the newest records of that job, at least as many as it displays. No two rows have one
name. -/
structure RowsReached (fleet : FleetState Snapshot Reason Entry Summary Health)
    (systemId : String) (held : CronSystemState) (summary : SchedulerSummaryV2) : Prop where
  found : ∀ (calls : List IntentCall) (subscriber : ℕ) (intents : CronIntents)
    (before after : AppState) (row : ℕ) (job : SchedulerJobV2),
    (∀ id intent, IntentCall.current calls id = some intent → Sends fleet intent) →
      summary.jobs[row]? = some job →
        before.cron = shownCron fleet intents → OnRow before systemId row →
          after.cron = shownCron fleet
              (IntentCall.after (calls ++ [.set subscriber before.cronIntent.toIntent])) →
            OnRow after systemId row →
              ∃ depth, Clientd.CronIntents.clampedDepth before.cronIntent.toIntent ≤ depth ∧
                after.selectedRecords = (held.recent job.name depth).map fun record =>
                  cleanRecord clean ⟨record.epoch, record.record⟩
  distinct : ∀ (intents : CronIntents) (state : AppState), state.cron = shownCron fleet intents →
    state.selectedId = some systemId → state.cronJobNames.Nodup

/-- A document that the validators accept. -/
def Accepted : CronCache.CronOp → Prop
  | .applySummary _ summary _ => validateSummary summary = []
  | .applyHistory _ history => validateHistory history = []
  | _ => True

variable (Snapshot Reason Entry Summary Health) in
/-- Whatever accepted documents a daemon applied, from every job row of a system with this summary
the records of the job are reached. -/
def EveryRowReached (summary : SchedulerSummaryV2) : Prop :=
  ∀ (fleet : FleetState Snapshot Reason Entry Summary Health) (perJob totalCap : ℕ)
    (ops : List CronCache.CronOp) (systemId : String) (held : CronSystemState),
    Machine.run CronCache.step (.new perJob totalCap) ops = some fleet.cron →
      (∀ op ∈ ops, Accepted op) → (∃ system ∈ fleet.systems, system.id = systemId) →
        fleet.cron.system systemId = some held → held.summary = some summary →
          RowsReached fleet systemId held summary

variable {fleet : FleetState Snapshot Reason Entry Summary Health} {intents : CronIntents}
  {systemId : String} {held : CronSystemState} {summary : SchedulerSummaryV2} {state : AppState}
  {calls : List IntentCall} {row : ℕ}

/-- A frontend that adopts a published document shows it. -/
theorem cron_adoptSnapshotInner {env : Surroundings} {document : Clientd.FrontendSnapshot}
    (cleans : env.clean = clean)
    (published : document.cron = (fleet.cronToDto intents).map (·.toSnapshot)) :
    (state.adoptSnapshotInner env document).cron = shownCron fleet intents := by
  have replaced : (state.replaceFleet env document).cron = shownCron fleet intents := by
    rw [shownCron, AppState.replaceFleet, cleans]
    dsimp only
    rw [published, List.map_map]
    rfl
  rw [AppState.adoptSnapshotInner_eq, AppState.sameSelection_ensureSelectedVisible.cron]
  split
  · rw [AppState.cron_placeAtTop, AppState.repaired_repaired.cron, replaced]
  · rw [AppState.repaired_repaired.cron, replaced]

theorem exists_cronFor (isSystem : ∃ system ∈ fleet.systems, system.id = systemId)
    (shows : state.cron = shownCron fleet intents) :
    ∃ dto ∈ fleet.cronToDto intents, dto.systemId = systemId ∧
      state.cronFor systemId = some (cleanCron clean dto.toSnapshot) := by
  rcases isSystem with ⟨system, isMember, rfl⟩
  rw [AppState.cronFor, shows]
  cases found : (shownCron fleet intents).find? fun entry => entry.systemId = system.id with
  | none =>
      rw [List.find?_eq_none] at found
      refine absurd ?_ (found _ (List.mem_map_of_mem (List.mem_map_of_mem isMember)))
      exact decide_eq_true rfl
  | some entry =>
      have isId : entry.systemId = system.id := by simpa using List.find?_some found
      rcases List.mem_map.mp (List.mem_of_find?_eq_some found) with ⟨dto, isDto, rfl⟩
      exact ⟨dto, isDto, isId, rfl⟩

theorem summary_of_mem_cronToDto {dto : Fleet.SystemCronDto}
    (isDto : dto ∈ fleet.cronToDto intents) :
    dto.summary = (fleet.cron.system dto.systemId).bind (·.summary) := by
  rcases List.mem_map.mp isDto with ⟨system, -, rfl⟩
  rfl

/-- The names of the rows are the cleaned names of the jobs. -/
theorem cronJobNames_of_shows (isSystem : ∃ system ∈ fleet.systems, system.id = systemId)
    (known : fleet.cron.system systemId = some held) (isSummary : held.summary = some summary)
    (shows : state.cron = shownCron fleet intents) (selected : state.selectedId = some systemId) :
    state.cronJobNames = summary.jobs.map fun job => clean job.name := by
  rcases exists_cronFor isSystem shows with ⟨dto, isDto, rfl, isCron⟩
  have hasSummary := summary_of_mem_cronToDto isDto
  rw [known, Option.bind_some, isSummary] at hasSummary
  rw [AppState.cronJobNames, AppState.selectedCron, selected, Option.bind_some, isCron,
    Option.bind_some, cleanCron, Fleet.SystemCronDto.toSnapshot]
  dsimp only
  rw [hasSummary, Option.map_some]
  dsimp only
  rw [List.map_map]
  rfl

theorem cronIntent_of_onRow {name : String} (onRow : OnRow state systemId row)
    (isRow : state.cronJobNames[row]? = some name) :
    state.cronIntent.toIntent = ⟨some systemId, some name, state.cronDisplayHistory⟩ := by
  rw [AppState.cronIntent, if_pos onRow.cronExpanded, onRow.selectedId, onRow.selectedCronJob,
    isRow]
  rfl

/-- What is found under a name when no other name of the document is cleaned to it. -/
theorem jobRecords_cleanCron {dto : Fleet.SystemCronDto} {name : String}
    (kept : ∀ entry ∈ dto.history, clean entry.job = entry.job) :
    jobRecords (cleanCron clean dto.toSnapshot) name = (dto.recordsOf name).map fun record =>
      cleanRecord clean ⟨record.epoch, record.record⟩ := by
  rw [jobRecords, Fleet.SystemCronDto.recordsOf, cleanCron, Fleet.SystemCronDto.toSnapshot]
  dsimp only
  rw [List.map_map, List.find?_map]
  have same : ((fun entry : Clientd.CronJobHistoryDto => decide (entry.job = name)) ∘
      (cleanHistory clean ∘ Fleet.CronJobHistoryDto.toSnapshot)) =
        fun entry : Fleet.CronJobHistoryDto => decide (clean entry.job = name) := rfl
  have sameFound : (dto.history.find? fun entry => clean entry.job = name) =
      dto.history.find? fun entry => entry.job = name := by
    apply List.find?_congr
    intro entry isEntry
    rw [kept entry isEntry]
  rw [same, sameFound]
  cases dto.history.find? fun entry => entry.job = name with
  | none => rfl
  | some entry =>
      rw [Option.map_some, Option.map_some, Option.map_some, Option.getD_some, Option.getD_some]
      exact List.map_map

theorem mem_cronJobNames {job : String} (selected : state.selectedCronJob = some job) :
    job ∈ state.cronJobNames := by
  rw [AppState.selectedCronJob] at selected
  split at selected
  · split at selected
    · rename_i current isListed
      cases selected
      exact isListed
    · exact List.mem_of_mem_head? selected
  · exact List.mem_of_mem_head? selected

/-- A frontend asks for jobs by their cleaned names. -/
theorem exists_of_sends {intent : CronIntent} {name : String}
    (isSystem : ∃ system ∈ fleet.systems, system.id = systemId)
    (known : fleet.cron.system systemId = some held) (isSummary : held.summary = some summary)
    (sends : Sends fleet intent) (names : Clientd.CronIntents.Names systemId name intent) :
    ∃ job ∈ summary.jobs, clean job.name = name := by
  rcases sends with ⟨state, intents, shows, rfl⟩
  rcases names with ⟨isId, isJob⟩
  rw [CronIntentRequest.toIntent, AppState.cronIntent] at isId isJob
  dsimp only at isId isJob
  by_cases expanded : state.cronExpanded = true
  · rw [if_pos expanded] at isId isJob
    cases selected : state.selectedId with
    | none =>
        rw [selected] at isId
        cases isId
    | some id =>
        cases selectedJob : state.selectedCronJob with
        | none =>
            rw [selected, selectedJob] at isId
            cases isId
        | some job =>
            rw [selected, selectedJob] at isId isJob
            cases isId
            cases isJob
            have isListed := mem_cronJobNames selectedJob
            rw [cronJobNames_of_shows isSystem known isSummary shows selected] at isListed
            exact List.mem_map.mp isListed
  · rw [if_neg expanded] at isId
    cases isId

/-- The names that the validators accept. -/
theorem name_of_accepted (accepted : validateSummary summary = []) {job : SchedulerJobV2}
    (isMember : job ∈ summary.jobs) :
    job.name ≠ "" ∧ job.name.utf8ByteSize ≤ MAX_SCHEDULER_JOB_NAME_BYTES := by
  rcases List.mem_iff_getElem.mp isMember with ⟨index, inRange, rfl⟩
  have passes := (validateSummary_eq_nil_iff.mp accepted).2.1 index inRange
  simp only [checkJob, List.append_eq_nil_iff, checkText_eq_nil_iff, ite_eq_right_iff,
    List.cons_ne_nil, imp_false] at passes
  exact ⟨fun isEmpty => passes.1.1.1.1.1.1.1.1.2 (String.isEmpty_iff.mpr isEmpty),
    passes.1.1.1.1.1.1.1.1.1⟩

/-- The records of a job that is looked at are published, as deep as it is looked at. -/
theorem exists_recordsOf_eq {perJob totalCap : ℕ} {ops : List CronCache.CronOp} {subscriber : ℕ}
    {intent : CronIntent} {name : String} {dto : Fleet.SystemCronDto}
    (ran : Machine.run CronCache.step (.new perJob totalCap) ops = some fleet.cron)
    (known : fleet.cron.system systemId = some held)
    (isCurrent : IntentCall.current calls subscriber = some intent)
    (names : Clientd.CronIntents.Names systemId name intent) (hasName : name ≠ "")
    (isDto : dto ∈ fleet.cronToDto (IntentCall.after calls)) (isId : dto.systemId = systemId) :
    ∃ depth, Clientd.CronIntents.clampedDepth intent ≤ depth ∧
      dto.recordsOf name = held.recent name depth := by
  rcases @Clientd.CronIntents.find?_reduce systemId name (IntentCall.after calls).values hasName
    with ⟨isGreatest, isNothing⟩
  have isAsked : intent ∈ (IntentCall.after calls).values :=
    IntentCall.mem_values_after.mpr ⟨subscriber, isCurrent⟩
  cases asked : (Clientd.CronIntents.perSystem
      (Clientd.CronIntents.reduce (IntentCall.after calls).values) systemId).find? name with
  | none => exact absurd names (isNothing asked intent isAsked)
  | some depth =>
      have deepest := isGreatest depth asked
      refine ⟨depth, deepest.2 ⟨intent, isAsked, names, rfl⟩, ?_⟩
      rw [Fleet.depths_after, ← isId] at deepest
      rw [(Fleet.publishesUnion_after ran).records dto isDto name depth deepest,
        CronSystemState.recent_eq_newest, Fleet.retained, isId, known]
      rfl

section Reached

variable (isSystem : ∃ system ∈ fleet.systems, system.id = systemId)
  (known : fleet.cron.system systemId = some held) (isSummary : held.summary = some summary)
  (kept : ∀ job ∈ summary.jobs, clean job.name = job.name)

include isSystem known isSummary kept

/-- Where cleaning leaves the names alone, so does it those that are published. -/
theorem clean_of_mem_history {perJob totalCap subscriber : ℕ} {ops : List CronCache.CronOp}
    {intent : CronIntent} {job : SchedulerJobV2} {dto : Fleet.SystemCronDto}
    {entry : Fleet.CronJobHistoryDto}
    (ran : Machine.run CronCache.step (.new perJob totalCap) ops = some fleet.cron)
    (senders : ∀ id intent, IntentCall.current calls id = some intent → Sends fleet intent)
    (isMember : job ∈ summary.jobs) (isJob : intent.job = some job.name)
    (isDto : dto ∈ fleet.cronToDto (IntentCall.after (calls ++ [.set subscriber intent])))
    (isId : dto.systemId = systemId) (isEntry : entry ∈ dto.history) :
    clean entry.job = entry.job := by
  rcases (Fleet.publishesUnion_after ran).nothing dto isDto entry isEntry with
    ⟨id, sent, isCurrent, names⟩
  rw [IntentCall.current_append_singleton] at isCurrent
  rw [isId] at names
  split at isCurrent
  · cases isCurrent
    rw [names.job, Option.some_inj] at isJob
    rw [isJob]
    exact kept job isMember
  · rcases exists_of_sends isSystem known isSummary (senders id sent isCurrent) names with
      ⟨other, isOther, isName⟩
    rw [← isName, kept other isOther]
    exact kept other isOther

theorem rowsReached_of_kept {perJob totalCap : ℕ} {ops : List CronCache.CronOp}
    (ran : Machine.run CronCache.step (.new perJob totalCap) ops = some fleet.cron)
    (accepted : validateSummary summary = []) : RowsReached fleet systemId held summary := by
  refine ⟨?_, ?_⟩
  · intro calls subscriber intents before after row job senders isJob showsBefore onBefore
      showsAfter onAfter
    have isMember : job ∈ summary.jobs := List.mem_of_getElem? isJob
    have isRow : ∀ {state intents}, AppState.cron state = shownCron fleet intents →
        state.selectedId = some systemId → state.cronJobNames[row]? = some job.name := by
      intro state intents shows selected
      rw [cronJobNames_of_shows isSystem known isSummary shows selected, List.getElem?_map, isJob,
        Option.map_some, kept job isMember]
    have isIntent := cronIntent_of_onRow onBefore (isRow showsBefore onBefore.selectedId)
    have isCurrent : IntentCall.current
        (calls ++ [.set subscriber before.cronIntent.toIntent]) subscriber =
          some before.cronIntent.toIntent := by
      rw [IntentCall.current_append_singleton]
      exact if_pos rfl
    have names : Clientd.CronIntents.Names systemId job.name before.cronIntent.toIntent := by
      rw [isIntent]
      exact ⟨rfl, rfl⟩
    rcases exists_cronFor isSystem showsAfter with ⟨dto, isDto, isId, isCron⟩
    rcases exists_recordsOf_eq ran known isCurrent names (name_of_accepted accepted isMember).1
      isDto isId with ⟨depth, deep, isRecords⟩
    refine ⟨depth, deep, ?_⟩
    rw [AppState.selectedRecords, AppState.selectedCron, onAfter.selectedId, Option.bind_some,
      isCron, onAfter.selectedCronJob, isRow showsAfter onAfter.selectedId, ← isRecords]
    exact jobRecords_cleanCron fun entry isEntry => clean_of_mem_history isSystem known isSummary
      kept ran senders isMember names.job isDto isId isEntry
  · intro intents state shows selected
    rw [cronJobNames_of_shows isSystem known isSummary shows selected,
      List.map_congr_left kept]
    exact (validateSummary_eq_nil_iff.mp accepted).2.2

end Reached

/-- Nothing is published for a system of which no recorded job is looked at. -/
theorem history_eq_nil {perJob totalCap : ℕ} {ops : List CronCache.CronOp}
    {dto : Fleet.SystemCronDto}
    (ran : Machine.run CronCache.step (.new perJob totalCap) ops = some fleet.cron)
    (known : fleet.cron.system systemId = some held)
    (unrecorded : ∀ id intent name, IntentCall.current calls id = some intent →
      intent.job = some name → held.jobRecords name = [])
    (isDto : dto ∈ fleet.cronToDto (IntentCall.after calls)) (isId : dto.systemId = systemId) :
    dto.history = [] := by
  rcases Fleet.history_cases isDto with ⟨state, isState, isHistory⟩ | ⟨-, isEmpty⟩
  · rw [isId, known] at isState
    cases isState
    rw [List.eq_nil_iff_forall_not_mem]
    intro entry isEntry
    rcases (Fleet.publishesUnion_after ran).nothing dto isDto entry isEntry with
      ⟨id, intent, isCurrent, names⟩
    rw [isHistory] at isEntry
    rcases Fleet.mem_historyFor.mp isEntry with ⟨depth, -, isRecent, notEmpty⟩
    rw [isRecent, CronSystemState.recent, unrecorded id intent _ isCurrent names.job] at notEmpty
    exact notEmpty rfl
  · exact isEmpty

section Unreached

/-- A history of one job with one record. -/
def oneRun (name : String) : SchedulerHistoryV2 where
  schemaVersion := 2
  generatedAtUnixMs := 0
  epoch := ⟨1, 1⟩
  historyRevision := 1
  jobs := [{ name, records := [CronCache.finishedRun 1 9] }]

/-- The cache of a daemon that applied a summary. -/
def summaryCache (summary : SchedulerSummaryV2) : CronCache :=
  (CronCache.new 10 10).applySummary "sys-a" summary 0

/-- The cache after the history of one of the jobs. -/
def oneRunCache (summary : SchedulerSummaryV2) (name : String) : CronCache :=
  ((summaryCache summary).applyHistory "sys-a" (oneRun name)).1

/-- A fleet of one system. -/
def oneRunFleet (summary : SchedulerSummaryV2) (name : String) :
    FleetState Snapshot Reason Entry Summary Health :=
  { FleetState.fromConfig
      { systems := [⟨"sys-a", "box", 11310, none⟩], eggpool := none, cron := .default } with
    cron := oneRunCache summary name }

/-- A frontend with its pane on a job. -/
def panedState (cron : List Clientd.SystemCronDto) (name : String) : AppState :=
  { AppState.blank with
    cron
    cronExpanded := true
    selectedId := some "sys-a"
    cronJob := some name }

theorem validateHistory_oneRun {name : String} (hasName : name ≠ "")
    (short : name.utf8ByteSize ≤ MAX_SCHEDULER_JOB_NAME_BYTES) :
    validateHistory (oneRun name) = [] := by
  have filled : name.isEmpty = false := by
    rw [Bool.eq_false_iff]
    exact fun isEmpty => hasName (String.isEmpty_iff.mp isEmpty)
  have recordPasses : ∀ path, checkRecord path (CronCache.finishedRun 1 9) = [] :=
    fun _ => checkRecord_eq_nil_iff.mpr (by decide)
  rw [validateHistory_eq_nil_iff]
  refine ⟨rfl, ?_, by simp [oneRun]⟩
  intro index inRange
  have isFirst : index = 0 := Nat.lt_one_iff.mp inRange
  subst isFirst
  simp [oneRun, checkJobHistory, checkRecordsFrom, recordPasses, filled, short,
    MAX_SCHEDULER_HISTORY_LIMIT]

theorem onRow_panedState {cron : List Clientd.SystemCronDto} {name : String}
    (isRow : (panedState cron name).cronJobNames[row]? = some name) :
    OnRow (panedState cron name) "sys-a" row := by
  refine ⟨rfl, rfl, ?_⟩
  have isListed : name ∈ (panedState cron name).cronJobNames := List.mem_of_getElem? isRow
  have isJob : (panedState cron name).cronJob = some name := rfl
  rw [AppState.selectedCronJob, isJob, isRow]
  exact if_pos isListed

variable {name : String} (hasName : name ≠ "")
  (short : name.utf8ByteSize ≤ MAX_SCHEDULER_JOB_NAME_BYTES)
  (isListed : name ∈ summary.jobs.map (·.name))
  (few : summary.jobs.length ≤ MAX_CRON_JOBS_PER_SYSTEM)

include hasName short isListed few

theorem exists_held : ∃ held, (oneRunCache summary name).system "sys-a" = some held ∧
    held.summary = some summary ∧ ∀ other, held.jobRecords other =
      if other = name then [⟨⟨1, 1⟩, CronCache.finishedRun 1 9⟩] else [] := by
  let fresh := CronSystemState.unknown.applySummary summary 0
  let ring : CronJobCache := ⟨[⟨⟨1, 1⟩, CronCache.finishedRun 1 9⟩]⟩
  let mergedState : CronSystemState :=
    { fresh with
      epoch := some ⟨1, 1⟩
      historyRevision := some 1
      jobs := SortedMap.empty.upsert name fun _ => ring }
  have filled : (name.isEmpty || decide (name.utf8ByteSize > MAX_SCHEDULER_JOB_NAME_BYTES)) =
      false := by
    rw [Bool.or_eq_false_iff, Bool.eq_false_iff, decide_eq_false_iff_not]
    exact ⟨fun isEmpty => hasName (String.isEmpty_iff.mp isEmpty), Nat.not_lt.mpr short⟩
  have isMerged : (fresh.applyHistory (oneRun name) 10).1 = mergedState.evictStaleJobs := by
    have merges : CronSystemState.mergeJob ⟨1, 1⟩ 10 (.empty, false)
        ⟨name, [CronCache.finishedRun 1 9]⟩ =
          (SortedMap.empty.upsert name fun _ => ring, true) := by
      rw [CronSystemState.mergeJob, filled]
      rfl
    have applied : (fresh.applyHistory (oneRun name) 10).1 = CronSystemState.evictStaleJobs
        { fresh with
          epoch := some ⟨1, 1⟩
          historyRevision := some 1
          jobs := (CronSystemState.mergeJob ⟨1, 1⟩ 10 (.empty, false)
            ⟨name, [CronCache.finishedRun 1 9]⟩).1 } := rfl
    rw [applied, merges]
  have isFresh : (summaryCache summary).system "sys-a" = some fresh := SortedMap.find?_upsert_self
  have within : ((summaryCache summary).merged "sys-a" (oneRun name)).total ≤
      (summaryCache summary).totalCap := by
    have summed := @SortedMap.sum_upsert _ _ _ (summaryCache summary).systems "sys-a"
      (fun state => ((state.getD .unknown).applyHistory (oneRun name) 10).1) (·.recordCount)
    have isSystem : (summaryCache summary).systems.find? "sys-a" = some fresh := isFresh
    have noneBefore : (summaryCache summary).systems.sum (·.recordCount) = 0 := rfl
    have fewer : mergedState.evictStaleJobs.recordCount ≤ 1 := by
      have one := @SortedMap.sum_upsert _ _ _ (.empty : SortedMap String CronJobCache) name
        (fun _ => ring) (·.records.length)
      exact CronSystemState.sum_evictStaleJobs_le.trans (Nat.le_of_eq one)
    have isTotal : ((summaryCache summary).merged "sys-a" (oneRun name)).total =
        ((summaryCache summary).systems.upsert "sys-a" fun state =>
          ((state.getD .unknown).applyHistory (oneRun name) 10).1).sum (·.recordCount) := rfl
    have isCap : (summaryCache summary).totalCap = 10 := rfl
    rw [isSystem, Option.getD_some, isMerged, noneBefore] at summed
    omega
  have isHeld : (oneRunCache summary name).system "sys-a" = some mergedState.evictStaleJobs := by
    rw [oneRunCache, CronCache.applyHistory_eq, CronCache.enforceTotal_of_le within,
      CronCache.system_merged, if_pos rfl, isFresh, Option.getD_some]
    exact congrArg some isMerged
  refine ⟨_, isHeld, rfl, ?_⟩
  intro other
  have isSummary : mergedState.summary = some summary := rfl
  have evicted := @CronSystemState.recordsIn_evictStaleJobs mergedState summary other isSummary few
  have isRing : CronSystemState.recordsIn mergedState.jobs other =
      if other = name then ring.records else [] := by
    rw [CronSystemState.recordsIn, SortedMap.find?_upsert]
    split <;> rfl
  refine evicted.trans ?_
  rw [isRing]
  split
  · rfl
  · rename_i unlisted
    rw [if_neg]
    rintro rfl
    exact unlisted isListed

omit hasName short isListed few in
/-- A job whose name is changed is asked for by a name that the daemon does not know. -/
theorem not_everyRowReached (accepted : validateSummary summary = []) {job : SchedulerJobV2}
    (isMember : job ∈ summary.jobs) (changed : clean job.name ≠ job.name) :
    ¬EveryRowReached Snapshot Reason Entry Summary Health summary := by
  intro reached
  rcases name_of_accepted accepted isMember with ⟨hasName, short⟩
  have few : summary.jobs.length ≤ MAX_CRON_JOBS_PER_SYSTEM :=
    (checkHeader_eq_nil_iff.mp (validateSummary_eq_nil_iff.mp accepted).1).2.2.2
  rcases exists_held hasName short (List.mem_map_of_mem isMember) few with
    ⟨held, isHeld, isSummary, records⟩
  let fleet : FleetState Snapshot Reason Entry Summary Health := oneRunFleet summary job.name
  have isSystem : ∃ system ∈ fleet.systems, system.id = "sys-a" := ⟨_, List.mem_cons_self, rfl⟩
  have ran : Machine.run CronCache.step (.new 10 10)
      [.applySummary "sys-a" summary 0, .applyHistory "sys-a" (oneRun job.name)] =
        some fleet.cron := rfl
  have everyAccepted : ∀ op ∈ [CronCache.CronOp.applySummary "sys-a" summary 0,
      .applyHistory "sys-a" (oneRun job.name)], Accepted op := by
    simp [Accepted, accepted, validateHistory_oneRun hasName short]
  have rows := reached fleet 10 10 _ "sys-a" held ran everyAccepted isSystem isHeld isSummary
  rcases List.mem_iff_getElem?.mp isMember with ⟨row, isRow⟩
  have atRow : ∀ intents,
      (panedState (shownCron fleet intents) (clean job.name)).cronJobNames[row]? =
        some (clean job.name) := by
    intro intents
    rw [cronJobNames_of_shows isSystem isHeld isSummary rfl rfl, List.getElem?_map, isRow]
    rfl
  have onRow : ∀ intents,
      OnRow (panedState (shownCron fleet intents) (clean job.name)) "sys-a" row :=
    fun intents => onRow_panedState (atRow intents)
  let before := panedState (shownCron fleet .empty) (clean job.name)
  let after := panedState
    (shownCron fleet (IntentCall.after ([] ++ [.set 0 before.cronIntent.toIntent])))
    (clean job.name)
  rcases rows.found [] 0 .empty before after row job (by rintro id intent ⟨⟩) isRow rfl (onRow _)
    rfl (onRow _) with ⟨depth, deep, found⟩
  have showsAfter : after.cron = shownCron fleet
      (IntentCall.after ([] ++ [.set 0 before.cronIntent.toIntent])) := rfl
  rcases exists_cronFor isSystem showsAfter with ⟨dto, isDto, isId, isCron⟩
  have noHistory : dto.history = [] := by
    refine history_eq_nil ran isHeld ?_ isDto isId
    intro id intent name isCurrent isJob
    rw [IntentCall.current_append_singleton] at isCurrent
    split at isCurrent
    · have isIntent : before.cronIntent.toIntent = intent := Option.some_inj.mp isCurrent
      rw [← isIntent, cronIntent_of_onRow (onRow .empty) (atRow .empty), Option.some_inj] at isJob
      rw [← isJob, records, if_neg changed]
    · cases isCurrent
  have noRecords : after.selectedRecords = [] := by
    have isSelected : after.selectedCron = some (cleanCron clean dto.toSnapshot) := isCron
    rw [AppState.selectedRecords, isSelected, (onRow _).selectedCronJob, atRow]
    dsimp only
    rw [jobRecords_cleanCron, Fleet.SystemCronDto.recordsOf, noHistory]
    · rfl
    · rw [noHistory]
      exact fun _ isEntry => absurd isEntry List.not_mem_nil
  have oneRecord : (held.recent job.name depth).length = 1 := by
    have atLeast : 1 ≤ depth := (le_max_left _ _).trans deep
    rw [CronSystemState.recent, records, if_pos rfl]
    exact congrArg List.length (if_pos atLeast)
  have length := congrArg List.length found
  rw [noRecords, List.length_map, oneRecord] at length
  cases length

end Unreached

/-- For the summaries that the validators accept: every job row leads to the records of its job
exactly when cleaning leaves the names of the jobs alone. -/
theorem everyRowReached_iff (accepted : validateSummary summary = []) :
    EveryRowReached Snapshot Reason Entry Summary Health summary ↔
      ∀ job ∈ summary.jobs, NameKept job.name.toList := by
  constructor
  · intro reached job isMember
    by_contra unkept
    exact not_everyRowReached accepted isMember
      (fun same => unkept (clean_eq_self_iff.mp same)) reached
  · intro kept fleet perJob totalCap ops systemId held ran _ isSystem known isSummary
    exact rowsReached_of_kept isSystem known isSummary
      (fun job isMember => clean_eq_self_iff.mpr (kept job isMember)) ran accepted

theorem everyRowReached_backup : validateSummary (firstSummary ["backup"]) = [] ∧
    EveryRowReached Unit Unit Unit Unit Unit (firstSummary ["backup"]) := by
  have accepted : validateSummary (firstSummary ["backup"]) = [] := by
    decide
  refine ⟨accepted, (everyRowReached_iff accepted).mpr ?_⟩
  rw [firstSummary, List.map_singleton, List.forall_mem_singleton]
  exact ⟨List.all_iff_forall_prop.mp (by decide), by decide⟩

/-- A tab in the name of a job. -/
theorem not_everyRowReached_tab : validateSummary (firstSummary ["a\tb"]) = [] ∧
    ¬EveryRowReached Unit Unit Unit Unit Unit (firstSummary ["a\tb"]) := by
  have accepted : validateSummary (firstSummary ["a\tb"]) = [] := by
    decide
  have changed : clean "a\tb" ≠ "a\tb" := by
    decide
  exact ⟨accepted, not_everyRowReached accepted List.mem_cons_self changed⟩

end Pane

end Tui

end Gregg
