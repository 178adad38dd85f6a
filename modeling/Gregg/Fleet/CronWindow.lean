import Gregg.Fleet.CronBounds
import Gregg.Lib.Window

/-!
# Overlapping history windows

A remote serves, for each job, a window of one stream of records whose sequences increase. The
client merges each window into its ring, by identity and against what the ring holds at that
time, and then drops from the front. So a window that reaches back beyond the ring brings old
records to its end.
-/

namespace Gregg

open Window

/-- One lifetime of a remote scheduler: the records each job ever gets, and the summary the client
holds of it, if it has read one. -/
structure SchedulerLifetime where
  epoch : SchedulerEpochV2
  records : String → List SchedulerRunRecordV2
  increasing : ∀ name, Increasing SchedulerRunRecordV2.sequence (records name)
  summary : Option SchedulerSummaryV2
  summaryValid : ∀ held ∈ summary, validateSummary held = []

namespace SchedulerLifetime

variable {lifetime : SchedulerLifetime} {name : String}

/-- A record as the client retains it. -/
def tag (lifetime : SchedulerLifetime) (record : SchedulerRunRecordV2) : CronRecord :=
  { epoch := lifetime.epoch, record }

/-- A validated history document of this lifetime: each job is configured, and its records are a
window of the job's stream. -/
def Serves (lifetime : SchedulerLifetime) (history : SchedulerHistoryV2) : Prop :=
  validateHistory history = [] ∧ history.epoch = lifetime.epoch ∧
    (∀ job ∈ history.jobs, job.records <:+: lifetime.records job.name) ∧
    ∀ held ∈ lifetime.summary, ∀ job ∈ history.jobs, job.name ∈ held.jobs.map (·.name)

instance (history : SchedulerHistoryV2) : Decidable (lifetime.Serves history) :=
  inferInstanceAs (Decidable (_ ∧ _ ∧ _ ∧ _))

/-- The records a document reports for a job. -/
def reported (history : SchedulerHistoryV2) (name : String) : List SchedulerRunRecordV2 :=
  ((history.jobs.find? fun job => job.name = name).map (·.records)).getD []

/-- The job's records that any of the documents reported, oldest first. -/
def observed (lifetime : SchedulerLifetime) (histories : List SchedulerHistoryV2)
    (name : String) : List SchedulerRunRecordV2 :=
  (lifetime.records name).filter fun record => histories.any fun history =>
    record ∈ reported history name

end SchedulerLifetime

namespace CronJobCache

variable {lifetime : SchedulerLifetime} {window ring : List SchedulerRunRecordV2} {perJob : ℕ}

theorem contains_tag_iff {record : SchedulerRunRecordV2} :
    (CronJobCache.mk (ring.map lifetime.tag)).contains (lifetime.tag record).identity = true ↔
      record.sequence ∈ ring.map (·.sequence) := by
  simp only [contains, List.any_map, List.any_eq_true, Function.comp_apply, decide_eq_true_eq,
    List.mem_map]
  constructor
  · rintro ⟨kept, keptMem, same⟩
    exact ⟨kept, keptMem, congrArg RecordId.sequence same⟩
  · rintro ⟨kept, keptMem, same⟩
    refine ⟨kept, keptMem, ?_⟩
    simp [CronRecord.identity, SchedulerLifetime.tag, same]

/-- Records of one stream are told apart by their sequence numbers. -/
theorem mergeRecord_tag {record : SchedulerRunRecordV2} {added : Bool}
    (sameRecord : ∀ kept ∈ ring, kept.sequence = record.sequence → kept = record) :
    (mergeRecord lifetime.epoch (⟨ring.map lifetime.tag⟩, added) record).1 =
      ⟨(if record ∈ ring then ring else ring ++ [record]).map lifetime.tag⟩ := by
  have tagged : (⟨lifetime.epoch, record⟩ : CronRecord) = lifetime.tag record := rfl
  simp only [mergeRecord, tagged]
  by_cases held : record ∈ ring
  · have contained : (CronJobCache.mk (ring.map lifetime.tag)).contains
        (lifetime.tag record).identity = true := contains_tag_iff.mpr (List.mem_map_of_mem held)
    rw [if_pos contained, if_pos held]
  · have missing : ¬(CronJobCache.mk (ring.map lifetime.tag)).contains
        (lifetime.tag record).identity = true := by
      intro contained
      rcases List.mem_map.mp (contains_tag_iff.mp contained) with ⟨kept, keptMem, same⟩
      exact held (sameRecord kept keptMem same ▸ keptMem)
    rw [if_neg missing, if_neg held, List.map_append, List.map_singleton]

/-- Merging records of one lifetime appends those the ring does not hold. -/
theorem merge_eq_appendMissing
    (increasing : Increasing SchedulerRunRecordV2.sequence window)
    (sameRecord : ∀ kept ∈ ring, ∀ record ∈ window, kept.sequence = record.sequence →
      kept = record) :
    ((CronJobCache.mk (ring.map lifetime.tag)).merge lifetime.epoch window).1 =
      ⟨(appendMissing ring window).map lifetime.tag⟩ := by
  have everyStart : ∀ merged : CronJobCache × Bool, merged.1 = ⟨ring.map lifetime.tag⟩ →
      (window.foldl (mergeRecord lifetime.epoch) merged).1 =
        ⟨(appendMissing ring window).map lifetime.tag⟩ := by
    induction window generalizing ring with
    | nil =>
        intro merged start
        simpa [appendMissing] using start
    | cons record rest ih =>
        rintro ⟨cache, added⟩ rfl
        rcases List.pairwise_cons.mp increasing with ⟨least, restIncreasing⟩
        have first : (mergeRecord lifetime.epoch (⟨ring.map lifetime.tag⟩, added) record).1 =
            ⟨(if record ∈ ring then ring else ring ++ [record]).map lifetime.tag⟩ :=
          mergeRecord_tag fun kept keptMem => sameRecord kept keptMem record List.mem_cons_self
        have once : record ∉ rest := fun later => Nat.lt_irrefl _ (least record later)
        rw [List.foldl_cons, ih restIncreasing _ _ first, appendMissing_cons once]
        intro kept keptMem later laterMem same
        split at keptMem
        · exact sameRecord kept keptMem later (List.mem_cons_of_mem _ laterMem) same
        · rcases List.mem_append.mp keptMem with held | new
          · exact sameRecord kept held later (List.mem_cons_of_mem _ laterMem) same
          · rw [List.mem_singleton.mp new] at same
            exact absurd (least later laterMem) (same ▸ Nat.lt_irrefl _)
  exact everyStart (⟨ring.map lifetime.tag⟩, false) rfl

/-- From the newest of what was seen, a merge leaves the newest of what has now been seen exactly
when the window advances. -/
theorem truncate_merge_eq_iff {stream : List SchedulerRunRecordV2}
    {seen : SchedulerRunRecordV2 → Bool}
    (increasing : Increasing SchedulerRunRecordV2.sequence stream) (positive : 0 < perJob)
    (isWindow : window <:+: stream) (isRing : ring = newest perJob (stream.filter seen)) :
    (((CronJobCache.mk (ring.map lifetime.tag)).merge lifetime.epoch window).1.truncate
        perJob).records =
          (newest perJob (stream.filter fun record => seen record || record ∈ window)).map
            lifetime.tag ↔
      resurrected SchedulerRunRecordV2.sequence ring window = [] ∨
        perJob ≤ (fresh SchedulerRunRecordV2.sequence ring window).length := by
  have windowIncreasing : Increasing SchedulerRunRecordV2.sequence window :=
    increasing.sublist isWindow.sublist
  have sameRecord : ∀ kept ∈ ring, ∀ record ∈ window, kept.sequence = record.sequence →
      kept = record := by
    intro kept keptMem record recordMem same
    rw [isRing] at keptMem
    have keptSeen := (newest_suffix perJob (stream.filter seen)).subset keptMem
    exact increasing.key_injective (List.mem_filter.mp keptSeen).1 (isWindow.subset recordMem) same
  have injective : Function.Injective lifetime.tag := by
    intro first second same
    exact congrArg CronRecord.record same
  rw [merge_eq_appendMissing windowIncreasing sameRecord, truncate, List.length_map,
    ← List.map_drop, ← newest, (List.map_injective_iff.mpr injective).eq_iff, isRing]
  exact newest_appendMissing_iff increasing positive isWindow.sublist

end CronJobCache

namespace CronSystemState

variable {state : CronSystemState} {perJob : ℕ} {name : String}

/-- What the job loop leaves for a job: its ring merged with its records, if they are reported. -/
theorem find?_foldl_mergeJob {epoch : SchedulerEpochV2} {jobs : List SchedulerJobHistoryV2}
    {merged : SortedMap String CronJobCache × Bool} (nodup : (jobs.map (·.name)).Nodup)
    (named : ∀ job ∈ jobs, job.name.isEmpty = false ∧
      job.name.utf8ByteSize ≤ MAX_SCHEDULER_JOB_NAME_BYTES) :
    (jobs.foldl (mergeJob epoch perJob) merged).1.find? name =
      match jobs.find? fun job => job.name = name with
      | some job =>
          some ((((merged.1.find? name).getD .empty).merge epoch job.records).1.truncate perJob)
      | none => merged.1.find? name := by
  induction jobs generalizing merged with
  | nil => rfl
  | cons job rest ih =>
      rw [List.map_cons, List.nodup_cons] at nodup
      rcases named job List.mem_cons_self with ⟨notEmpty, short⟩
      have restNamed : ∀ other ∈ rest, other.name.isEmpty = false ∧
          other.name.utf8ByteSize ≤ MAX_SCHEDULER_JOB_NAME_BYTES :=
        fun other otherMem => named other (List.mem_cons_of_mem _ otherMem)
      have firstFound : (mergeJob epoch perJob merged job).1.find? name =
          if name = job.name then
            some ((((merged.1.find? name).getD .empty).merge epoch job.records).1.truncate perJob)
          else merged.1.find? name := by
        have accepted : ¬(job.name.isEmpty || decide (job.name.utf8ByteSize >
            MAX_SCHEDULER_JOB_NAME_BYTES)) = true := by
          simpa [notEmpty] using short
        rw [mergeJob, if_neg accepted, SortedMap.find?_upsert]
        split
        · rename_i isJob
          rw [isJob]
        · rfl
      rw [List.foldl_cons, ih nodup.2 restNamed, firstFound]
      by_cases isJob : job.name = name
      · have notLater : (rest.find? fun other => other.name = name) = none := by
          rw [List.find?_eq_none]
          intro other otherMem same
          rw [decide_eq_true_eq] at same
          exact nodup.1 (isJob.trans same.symm ▸ List.mem_map_of_mem otherMem)
        simp [isJob, notLater]
      · rw [List.find?_cons_of_neg (by simpa using isJob)]
        simp [Ne.symm isJob]

/-- Every retained job is listed by the held summary. -/
def Listed (state : CronSystemState) : Prop :=
  ∀ held ∈ state.summary, ∀ job ∈ state.jobs.keys, job ∈ held.jobs.map (·.name)

/-- With every job listed by a summary of at most 64 jobs there is nothing stale. -/
theorem evictStaleJobs_eq_self (listed : state.Listed)
    (bounded : ∀ held ∈ state.summary, held.jobs.length ≤ MAX_SCHEDULER_JOBS) :
    state.evictStaleJobs = state := by
  unfold evictStaleJobs
  split
  · rfl
  · rename_i held isHeld
    have allLive : state.jobs.keys.all ((held.jobs.map (·.name)).contains ·) = true := by
      simpa using listed held isHeld
    have few : state.jobs.keys.length ≤ MAX_CRON_JOBS_PER_SYSTEM := calc
      state.jobs.keys.length ≤ (held.jobs.map (·.name)).length :=
        (List.subperm_of_subset state.jobs.nodup_keys (listed held isHeld)).length_le
      _ = held.jobs.length := List.length_map _
      _ ≤ MAX_CRON_JOBS_PER_SYSTEM := bounded held isHeld
    simp only [allLive, ↓reduceIte, SortedMap.keepLast_eq_self few]

theorem getD_find?_jobs : (state.jobs.find? name).getD .empty = ⟨state.jobRecords name⟩ := by
  rw [jobRecords]
  cases state.jobs.find? name <;> rfl

/-- The job entries of a validated history are named, once each. -/
theorem named_of_validateHistory {history : SchedulerHistoryV2}
    (valid : validateHistory history = []) :
    (history.jobs.map (·.name)).Nodup ∧ ∀ job ∈ history.jobs, job.name.isEmpty = false ∧
      job.name.utf8ByteSize ≤ MAX_SCHEDULER_JOB_NAME_BYTES := by
  rcases validateHistory_eq_nil_iff.mp valid with ⟨-, jobsPass, nodup⟩
  refine ⟨nodup, ?_⟩
  intro job jobMem
  rcases List.mem_iff_getElem.mp jobMem with ⟨index, inRange, rfl⟩
  have passes := jobsPass index inRange
  simp only [checkJobHistory, List.append_eq_nil_iff, checkText_eq_nil_iff] at passes
  rcases passes with ⟨⟨⟨short, notEmpty⟩, -⟩, -⟩
  refine ⟨?_, short⟩
  by_contra isEmpty
  rw [if_pos (Bool.eq_true_of_not_eq_false isEmpty)] at notEmpty
  cases notEmpty

/-- A document of the lifetime merges into the rings of the jobs it reports; no job is stale. -/
theorem applyHistory_of_serves {lifetime : SchedulerLifetime} {history : SchedulerHistoryV2}
    (serves : lifetime.Serves history) (sameSummary : state.summary = lifetime.summary)
    (listed : state.Listed) :
    (state.applyHistory history perJob).1.summary = lifetime.summary ∧
      (state.applyHistory history perJob).1.Listed ∧
      ∀ name, (state.applyHistory history perJob).1.jobRecords name =
        match history.jobs.find? fun job => job.name = name with
        | some job => (((CronJobCache.mk (state.jobRecords name)).merge lifetime.epoch
            job.records).1.truncate perJob).records
        | none => state.jobRecords name := by
  rcases serves with ⟨valid, sameEpoch, -, reportedListed⟩
  rcases named_of_validateHistory valid with ⟨nodup, named⟩
  let jobs := (history.jobs.foldl (mergeJob history.epoch perJob) (state.jobs, false)).1
  let merged : CronSystemState :=
    { state with
      epoch := some history.epoch
      historyRevision := some history.historyRevision
      jobs := jobs }
  have found : ∀ name, jobs.find? name =
      match history.jobs.find? fun job => job.name = name with
      | some job => some ((((state.jobs.find? name).getD .empty).merge history.epoch
          job.records).1.truncate perJob)
      | none => state.jobs.find? name := fun name => find?_foldl_mergeJob nodup named
  have mergedListed : merged.Listed := by
    intro held isHeld name inKeys
    rcases SortedMap.mem_keys_iff.mp inKeys with ⟨ring, foundRing⟩
    rw [found name] at foundRing
    split at foundRing
    · rename_i job isReported
      have isJob : job.name = name := by simpa using List.find?_some isReported
      rw [← isJob]
      exact reportedListed held (sameSummary ▸ isHeld) job (List.mem_of_find?_eq_some isReported)
    · exact listed held isHeld name (SortedMap.mem_keys_iff.mpr ⟨ring, foundRing⟩)
  have notStale : (state.applyHistory history perJob).1 = merged := by
    apply evictStaleJobs_eq_self mergedListed
    intro held isHeld
    have isHeld : held ∈ lifetime.summary := sameSummary ▸ isHeld
    have header := (validateSummary_eq_nil_iff.mp (lifetime.summaryValid held isHeld)).1
    exact (checkHeader_eq_nil_iff.mp header).2.2.2
  rw [notStale]
  refine ⟨sameSummary, mergedListed, ?_⟩
  intro name
  have mergedRecords : merged.jobRecords name = ((jobs.find? name).map (·.records)).getD [] := rfl
  rw [mergedRecords, found name]
  split
  · rw [getD_find?_jobs, sameEpoch]
    rfl
  · rfl

end CronSystemState

/-- The cache of a client that reads one scheduler, with the documents it has applied. -/
structure CronWatch where
  cache : CronCache
  seen : List SchedulerHistoryV2

namespace CronWatch

variable {lifetime : SchedulerLifetime} {systemId name : String} {watch next : CronWatch}
  {history : SchedulerHistoryV2}

/-- A new cache, with the summary if one has been read. -/
def start (lifetime : SchedulerLifetime) (systemId : String) (perJob totalCap nowUnixMs : ℕ) :
    CronWatch where
  cache :=
    match lifetime.summary with
    | some summary => (CronCache.new perJob totalCap).applySummary systemId summary nowUnixMs
    | none => CronCache.new perJob totalCap
  seen := []

/-- One document of the lifetime is applied, and the ceiling is not exceeded by it. -/
def step (lifetime : SchedulerLifetime) (systemId : String) (watch : CronWatch)
    (history : SchedulerHistoryV2) : Option CronWatch :=
  if lifetime.Serves history ∧
      (watch.cache.merged systemId history).total ≤ watch.cache.totalCap then
    some
      { cache := (watch.cache.applyHistory systemId history).1
        seen := watch.seen ++ [history] }
  else none

/-- The state of the watched system. -/
def state (systemId : String) (watch : CronWatch) : CronSystemState :=
  (watch.cache.system systemId).getD .unknown

/-- Every job's retained records are the newest of those observed, oldest first. -/
def Exact (lifetime : SchedulerLifetime) (systemId : String) (watch : CronWatch) : Prop :=
  ∀ name, (watch.state systemId).jobRecords name =
    (newest watch.cache.perJob (lifetime.observed watch.seen name)).map lifetime.tag

/-- The record is newer than everything retained for its job. -/
def isNewer (ring : List CronRecord) (record : SchedulerRunRecordV2) : Bool :=
  ring.all fun kept => kept.record.sequence < record.sequence

/-- The document brings back no record that the ring has passed by, or brings enough newer ones to
fill the ring. -/
def Advances (lifetime : SchedulerLifetime) (systemId : String) (watch : CronWatch)
    (history : SchedulerHistoryV2) : Prop :=
  ∀ job ∈ history.jobs, let ring := (watch.state systemId).jobRecords job.name
    (∀ record ∈ job.records, lifetime.tag record ∈ ring ∨ isNewer ring record = true) ∨
      watch.cache.perJob ≤ (job.records.filter (isNewer ring)).length

instance : Decidable (watch.Advances lifetime systemId history) :=
  inferInstanceAs (Decidable (∀ job ∈ history.jobs, _ ∨ _))

/-- What a run keeps besides. -/
structure Following (lifetime : SchedulerLifetime) (systemId : String) (watch : CronWatch) :
    Prop where
  positive : 0 < watch.cache.perJob
  summary : (watch.state systemId).summary = lifetime.summary
  listed : (watch.state systemId).Listed

theorem state_start {perJob totalCap nowUnixMs : ℕ} :
    (start lifetime systemId perJob totalCap nowUnixMs).state systemId =
      match lifetime.summary with
      | some summary => CronSystemState.unknown.applySummary summary nowUnixMs
      | none => .unknown := by
  cases held : lifetime.summary with
  | none =>
      simp only [start, held]
      rfl
  | some summary =>
      simp only [start, held, state, CronCache.system, CronCache.applySummary, CronCache.systemMut,
        SortedMap.find?_upsert_self, CronCache.new, SortedMap.find?_empty, Option.getD_none,
        Option.getD_some]

theorem jobs_start {perJob totalCap nowUnixMs : ℕ} :
    ((start lifetime systemId perJob totalCap nowUnixMs).state systemId).jobs = .empty := by
  rw [state_start]
  split <;> rfl

theorem following_start {perJob totalCap nowUnixMs : ℕ} :
    (start lifetime systemId perJob totalCap nowUnixMs).Following lifetime systemId where
  positive := by
    have positive : 0 < clamp perJob 1 MAX_CACHE_HISTORY := Nat.le_max_left _ _
    rw [start]
    split <;> exact positive
  summary := by
    rw [state_start]
    split
    · rename_i summary held
      exact held.symm
    · rename_i held
      exact held.symm
  listed := by
    intro held _ job member
    rw [jobs_start] at member
    cases member

/-- What a step does, taken apart: each reported job's ring is merged and cut to depth, and nothing
else changes. -/
theorem step_eq_some (following : watch.Following lifetime systemId)
    (stepped : watch.step lifetime systemId history = some next) :
    lifetime.Serves history ∧ next.Following lifetime systemId ∧
      next.cache.perJob = watch.cache.perJob ∧ next.seen = watch.seen ++ [history] ∧
      ∀ name, (next.state systemId).jobRecords name =
        match history.jobs.find? fun job => job.name = name with
        | some job => (((CronJobCache.mk ((watch.state systemId).jobRecords name)).merge
            lifetime.epoch job.records).1.truncate watch.cache.perJob).records
        | none => (watch.state systemId).jobRecords name := by
  simp only [step] at stepped
  split at stepped
  · rename_i admitted
    rcases admitted with ⟨serves, within⟩
    cases stepped
    have unchanged : (watch.cache.applyHistory systemId history).1 =
        watch.cache.merged systemId history := by
      have noTurns : (watch.cache.merged systemId history).total -
          (watch.cache.merged systemId history).totalCap = 0 := Nat.sub_eq_zero_of_le within
      rw [CronCache.applyHistory_eq, CronCache.enforceTotal, noTurns]
      rfl
    have nextState : CronWatch.state systemId
        { cache := (watch.cache.applyHistory systemId history).1
          seen := watch.seen ++ [history] } =
        ((watch.state systemId).applyHistory history watch.cache.perJob).1 := by
      simp only [state, unchanged, CronCache.merged, CronCache.recount, CronCache.system,
        CronCache.systemMut, SortedMap.find?_upsert_self, Option.getD_some]
    rcases CronSystemState.applyHistory_of_serves serves following.summary following.listed with
      ⟨sameSummary, listed, records⟩
    have sameDepth : (watch.cache.applyHistory systemId history).1.perJob = watch.cache.perJob := by
      rw [unchanged]
      rfl
    refine ⟨serves, ⟨?_, ?_, ?_⟩, sameDepth, rfl, ?_⟩
    · rw [sameDepth]
      exact following.positive
    · rw [nextState]
      exact sameSummary
    · rw [nextState]
      exact listed
    · rw [nextState]
      exact records
  · cases stepped

theorem find?_name_of_mem {jobs : List SchedulerJobHistoryV2} {job : SchedulerJobHistoryV2}
    (nodup : (jobs.map (·.name)).Nodup) (member : job ∈ jobs) :
    jobs.find? (fun other => other.name = job.name) = some job := by
  cases found : jobs.find? fun other => other.name = job.name with
  | none =>
      rw [List.find?_eq_none] at found
      exact absurd (decide_eq_true rfl) (found job member)
  | some other =>
      have sameName : other.name = job.name := by simpa using List.find?_some found
      have otherMem := List.mem_of_find?_eq_some found
      rw [List.inj_on_of_nodup_map nodup otherMem member sameName]

/-- What has been observed after one more document. -/
theorem observed_append (histories : List SchedulerHistoryV2) :
    lifetime.observed (histories ++ [history]) name = (lifetime.records name).filter fun record =>
      (histories.any fun history => record ∈ SchedulerLifetime.reported history name) ||
        record ∈ SchedulerLifetime.reported history name := by
  simp only [SchedulerLifetime.observed, List.any_append, List.any_cons, List.any_nil,
    Bool.or_false]

theorem mem_map_tag {ring : List SchedulerRunRecordV2} {record : SchedulerRunRecordV2} :
    lifetime.tag record ∈ ring.map lifetime.tag ↔ record ∈ ring :=
  List.mem_map_of_injective fun _ _ same => congrArg CronRecord.record same

theorem isNewer_map_tag {ring : List SchedulerRunRecordV2} :
    isNewer (ring.map lifetime.tag) = newerThan SchedulerRunRecordV2.sequence ring := by
  funext record
  rw [isNewer, List.all_map]
  rfl

/-- One step keeps the rings exact if and only if its document advances every reported job. -/
theorem exact_iff_advances (following : watch.Following lifetime systemId)
    (exact : watch.Exact lifetime systemId)
    (stepped : watch.step lifetime systemId history = some next) :
    next.Exact lifetime systemId ↔ watch.Advances lifetime systemId history := by
  rcases step_eq_some following stepped with ⟨serves, -, sameDepth, appended, records⟩
  rcases serves with ⟨valid, -, windows, -⟩
  have nodup := (CronSystemState.named_of_validateHistory valid).1
  have unreported : ∀ name, (history.jobs.find? fun job => job.name = name) = none →
      (next.state systemId).jobRecords name = (newest next.cache.perJob
        (lifetime.observed next.seen name)).map lifetime.tag := by
    intro name isNone
    have nothing : SchedulerLifetime.reported history name = [] := by
      rw [SchedulerLifetime.reported, isNone]
      rfl
    rw [records name, isNone, sameDepth, appended, observed_append, nothing]
    simpa [SchedulerLifetime.observed] using exact name
  have reported : ∀ job ∈ history.jobs, ((next.state systemId).jobRecords job.name =
      (newest next.cache.perJob (lifetime.observed next.seen job.name)).map lifetime.tag ↔
        let ring := (watch.state systemId).jobRecords job.name
        (∀ record ∈ job.records, lifetime.tag record ∈ ring ∨ isNewer ring record = true) ∨
          watch.cache.perJob ≤ (job.records.filter (isNewer ring)).length) := by
    intro job jobMem
    have isReported := find?_name_of_mem nodup jobMem
    have window : SchedulerLifetime.reported history job.name = job.records := by
      rw [SchedulerLifetime.reported, isReported]
      rfl
    rw [records job.name, isReported, sameDepth, appended, observed_append, window, exact job.name]
    simp only [mem_map_tag, isNewer_map_tag]
    rw [← resurrected_eq_nil_iff]
    exact CronJobCache.truncate_merge_eq_iff (lifetime.increasing job.name) following.positive
      (windows job jobMem) rfl
  constructor
  · intro nextExact job jobMem
    exact (reported job jobMem).mp (nextExact job.name)
  · intro advances name
    cases found : history.jobs.find? fun job => job.name = name with
    | none => exact unreported name found
    | some job =>
        have isJob : job.name = name := by simpa using List.find?_some found
        have jobMem := List.mem_of_find?_eq_some found
        rw [← isJob]
        exact (reported job jobMem).mpr (advances job jobMem)

theorem following_of_run {perJob totalCap nowUnixMs : ℕ} {histories : List SchedulerHistoryV2}
    (ran : Machine.run (step lifetime systemId)
      (start lifetime systemId perJob totalCap nowUnixMs) histories = some watch) :
    watch.Following lifetime systemId := by
  apply Machine.run_induction (fun _ watch => watch.Following lifetime systemId) ran
  · exact following_start
  · exact fun _ _ _ _ _ before stepped => (step_eq_some before stepped).2.1

/-- Over every run of documents of one lifetime within the ceiling, every job's ring is the newest
of the observed records after each document exactly when every document advances its jobs. -/
theorem exact_iff_everyStep {perJob totalCap nowUnixMs : ℕ} {histories : List SchedulerHistoryV2}
    (ran : Machine.run (step lifetime systemId)
      (start lifetime systemId perJob totalCap nowUnixMs) histories = some watch) :
    Machine.EveryState (step lifetime systemId)
        (start lifetime systemId perJob totalCap nowUnixMs) histories (Exact lifetime systemId) ↔
      Machine.EveryStep (step lifetime systemId)
        (start lifetime systemId perJob totalCap nowUnixMs) histories
        (Advances lifetime systemId) := by
  apply Machine.everyState_iff_everyStep_of_run ran
  · intro name
    have noRecords : ((start lifetime systemId perJob totalCap nowUnixMs).state
        systemId).jobRecords name = [] := by
      rw [CronSystemState.jobRecords, jobs_start]
      rfl
    rw [noRecords]
    simp [start, SchedulerLifetime.observed, newest]
  · intro before state history next _ ranBefore exact stepped
    exact exact_iff_advances (following_of_run ranBefore) exact stepped

/-- The runs of one job, by their sequence numbers. -/
def backupRuns (sequences : List ℕ) : List SchedulerRunRecordV2 :=
  sequences.map fun sequence => CronCache.finishedRun sequence sequence

/-- A lifetime in which one job finishes five times. -/
def fiveBackups : SchedulerLifetime where
  epoch := ⟨1, 1⟩
  records name := if name = "backup" then backupRuns [1, 2, 3, 4, 5] else []
  increasing := by
    intro name
    split
    · decide
    · exact .nil
  summary := none
  summaryValid := by
    rintro held ⟨⟩

/-- The documents that report the given windows. -/
def backupWindows (windows : List (List ℕ)) : List SchedulerHistoryV2 :=
  windows.mapIdx fun revision sequences =>
    CronCache.backupHistory ⟨1, 1⟩ (revision + 1)
      (sequences.map fun sequence => (sequence, sequence))

/-- A window that reaches back one record keeps the ring of three exact. -/
theorem exact_iff_everyStep_overlap :
    ∃ watch, Machine.run (step fiveBackups "sys")
        (start fiveBackups "sys" 3 MAX_TOTAL_CRON_RECORDS 0) (backupWindows [[1, 2, 3], [3, 4]]) =
          some watch ∧
      ((watch.state "sys").jobRecords "backup").map (·.record.sequence) = [2, 3, 4] ∧
      Machine.EveryState (step fiveBackups "sys")
        (start fiveBackups "sys" 3 MAX_TOTAL_CRON_RECORDS 0) (backupWindows [[1, 2, 3], [3, 4]])
        (Exact fiveBackups "sys") := by
  have first : (Machine.run (step fiveBackups "sys")
      (start fiveBackups "sys" 3 MAX_TOTAL_CRON_RECORDS 0) (backupWindows [[1, 2, 3]])).map
        (fun watch => decide (watch.Advances fiveBackups "sys"
          (CronCache.backupHistory ⟨1, 1⟩ 2 [(3, 3), (4, 4)]))) = some true := by
    decide +kernel
  have second : (Machine.run (step fiveBackups "sys")
      (start fiveBackups "sys" 3 MAX_TOTAL_CRON_RECORDS 0) (backupWindows [[1, 2, 3], [3, 4]])).map
        (fun watch => ((watch.state "sys").jobRecords "backup").map (·.record.sequence)) =
          some [2, 3, 4] := by
    decide +kernel
  rcases Option.map_eq_some_iff.mp first with ⟨between, ranFirst, advances⟩
  rcases Option.map_eq_some_iff.mp second with ⟨watch, ran, kept⟩
  have firstDocument : Machine.EveryStep (step fiveBackups "sys")
      (start fiveBackups "sys" 3 MAX_TOTAL_CRON_RECORDS 0)
      ([] ++ [CronCache.backupHistory ⟨1, 1⟩ 1 [(1, 1), (2, 2), (3, 3)]])
      (Advances fiveBackups "sys") :=
    (Machine.everyStep_append_singleton rfl).mpr ⟨Machine.everyStep_nil, by decide +kernel⟩
  have bothDocuments : Machine.EveryStep (step fiveBackups "sys")
      (start fiveBackups "sys" 3 MAX_TOTAL_CRON_RECORDS 0)
      (backupWindows [[1, 2, 3]] ++ [CronCache.backupHistory ⟨1, 1⟩ 2 [(3, 3), (4, 4)]])
      (Advances fiveBackups "sys") :=
    (Machine.everyStep_append_singleton ranFirst).mpr ⟨firstDocument, of_decide_eq_true advances⟩
  exact ⟨watch, ran, kept, (exact_iff_everyStep ran).mpr bothDocuments⟩

/-- A window that slides forward by one record, read by a client that keeps two: the first record
returns, and the third is dropped for it. -/
theorem not_exact_slidingWindow :
    ∃ watch, Machine.run (step fiveBackups "sys")
        (start fiveBackups "sys" 2 MAX_TOTAL_CRON_RECORDS 0)
        (backupWindows [[1, 2, 3], [1, 2, 3, 4]]) = some watch ∧
      ((watch.state "sys").jobRecords "backup").map (·.record.sequence) = [1, 4] ∧
      ¬watch.Exact fiveBackups "sys" := by
  have run : (Machine.run (step fiveBackups "sys")
      (start fiveBackups "sys" 2 MAX_TOTAL_CRON_RECORDS 0)
        (backupWindows [[1, 2, 3], [1, 2, 3, 4]])).map
        (fun watch => (((watch.state "sys").jobRecords "backup").map (·.record.sequence),
          (newest watch.cache.perJob (fiveBackups.observed watch.seen "backup")).map
            (·.sequence))) = some ([1, 4], [3, 4]) := by
    decide +kernel
  rcases Option.map_eq_some_iff.mp run with ⟨watch, ran, facts⟩
  simp only [Prod.mk.injEq] at facts
  refine ⟨watch, ran, facts.1, ?_⟩
  intro exact
  have sameSequences := congrArg (List.map (·.record.sequence)) (exact "backup")
  rw [facts.1, List.map_map] at sameSequences
  have expected := facts.2
  simp only [Function.comp_def, SchedulerLifetime.tag] at sameSequences
  rw [expected] at sameSequences
  cases sameSequences

end CronWatch

end Gregg
