import Mathlib.Data.List.TakeWhile
import Gregg.Fleet.CronWindow
import Gregg.Lib.Eviction

/-!
# Applying a history document again

A repeated document adds nothing as long as the first application left every record it reports.
That depends on the depth of the rings, on what the held summary lists, and on how many records of
the fleet the eviction loop would take later.
-/

namespace Gregg

open Window
open scoped BigOperators

/-- The order in which eviction compares heads. -/
instance : LinearOrder OldestRecord where
  le left right := left.le right = true
  le_refl := OldestRecord.le_refl
  le_trans := fun _ _ _ => OldestRecord.le_trans
  le_antisymm := by
    intro left right before after
    have same := le_antisymm (OldestRecord.le_iff.mp before) (OldestRecord.le_iff.mp after)
    simp only [toLex_inj, Prod.mk.injEq] at same
    rcases left with ⟨finished, system, job⟩
    rcases same with ⟨rfl, rfl, rfl⟩
    rfl
  le_total := OldestRecord.le_total
  toDecidableLE := fun left right => inferInstanceAs (Decidable (left.le right = true))

section Suffixes

variable {Item : Type*} {items older newer : List Item} {count : ℕ}

theorem suffix_newest_iff (suffix : newer <:+ items) :
    newer <:+ newest count items ↔ newer.length ≤ count := by
  constructor
  · intro inNewest
    have bound := inNewest.length_le
    rw [newest, List.length_drop] at bound
    omega
  · intro few
    apply List.suffix_of_suffix_length_le suffix (newest_suffix count items)
    have whole := suffix.length_le
    rw [newest, List.length_drop]
    omega

theorem stops_of_dropWhile {stop : Item → Bool} {first : Item} {later : List Item}
    (since : items.dropWhile (fun item => !stop item) = first :: later) : stop first = true := by
  have stopped := List.head?_dropWhile_not (fun item => !stop item) items
  simpa [since] using stopped

end Suffixes

namespace CronJobCache

variable {cache : CronJobCache} {epoch : SchedulerEpochV2} {records : List SchedulerRunRecordV2}

/-- The reported records that are not retained, as they would be. -/
def missing (cache : CronJobCache) (epoch : SchedulerEpochV2)
    (records : List SchedulerRunRecordV2) : List CronRecord :=
  (records.map (CronRecord.mk epoch)).filter fun candidate => !cache.contains candidate.identity

/-- Whether a report has a record of this identity. -/
def isReported (epoch : SchedulerEpochV2) (records : List SchedulerRunRecordV2)
    (retained : CronRecord) : Bool :=
  records.any fun record => (CronRecord.mk epoch record).identity = retained.identity

theorem foldl_mergeRecord_eq (once : (records.map (·.sequence)).Nodup) (added : Bool) :
    records.foldl (mergeRecord epoch) (cache, added) =
      (⟨cache.records ++ cache.missing epoch records⟩,
        added || !(cache.missing epoch records).isEmpty) := by
  induction records generalizing cache added with
  | nil => simp [missing]
  | cons record rest ih =>
      rw [List.map_cons, List.nodup_cons] at once
      rw [List.foldl_cons, mergeRecord]
      split
      · rename_i held
        rw [ih once.2]
        simp [missing, held]
      · rename_i new
        have sameMissing : CronJobCache.missing ⟨cache.records ++ [⟨epoch, record⟩]⟩ epoch rest =
            cache.missing epoch rest := by
          apply List.filter_congr
          intro candidate candidateMem
          rcases List.mem_map.mp candidateMem with ⟨later, laterMem, rfl⟩
          have different : ¬(CronRecord.mk epoch record).identity =
              (CronRecord.mk epoch later).identity := by
            intro same
            have sameSequence : record.sequence = later.sequence :=
              congrArg RecordId.sequence same
            exact once.1 (sameSequence ▸ List.mem_map_of_mem laterMem)
          simp [contains, different]
        rw [ih once.2, sameMissing]
        simp [missing, new]

theorem merge_eq (once : (records.map (·.sequence)).Nodup) :
    cache.merge epoch records = (⟨cache.records ++ cache.missing epoch records⟩,
      !(cache.missing epoch records).isEmpty) := by
  rw [merge, foldl_mergeRecord_eq once, Bool.false_or]

/-- A ring with nothing missing holds every reported record. -/
theorem missing_eq_nil_iff : cache.missing epoch records = [] ↔
    ∀ record ∈ records, cache.contains (CronRecord.mk epoch record).identity = true := by
  simp [missing]

/-- Every reported record is in the ring or missing in it. -/
theorem exists_of_reported {record : SchedulerRunRecordV2} (reported : record ∈ records) :
    ∃ retained ∈ cache.records ++ cache.missing epoch records,
      retained.identity = (CronRecord.mk epoch record).identity := by
  cases held : cache.contains (CronRecord.mk epoch record).identity with
  | false =>
      refine ⟨⟨epoch, record⟩, List.mem_append_right _ ?_, rfl⟩
      rw [missing, List.mem_filter]
      exact ⟨List.mem_map_of_mem reported, by simp [held]⟩
  | true =>
      rw [contains, List.any_eq_true] at held
      rcases held with ⟨retained, retainedMem, same⟩
      exact ⟨retained, List.mem_append_left _ retainedMem, of_decide_eq_true same⟩

theorem distinct_joined (distinct : cache.Distinct) (once : (records.map (·.sequence)).Nodup) :
    Distinct ⟨cache.records ++ cache.missing epoch records⟩ := by
  have merged := @distinct_merge cache epoch records distinct
  rwa [merge_eq once] at merged

/-- What is left of a ring holds every reported record exactly when it reaches back to the first
of them. -/
theorem missing_suffix_eq_nil_iff {whole left : List CronRecord} (distinct : Distinct ⟨whole⟩)
    (joined : ∀ record ∈ records, ∃ retained ∈ whole,
      retained.identity = (CronRecord.mk epoch record).identity) (suffix : left <:+ whole) :
    CronJobCache.missing ⟨left⟩ epoch records = [] ↔
      whole.dropWhile (fun retained => !isReported epoch records retained) <:+ left := by
  rw [missing_eq_nil_iff]
  constructor
  · intro held
    cases since : whole.dropWhile (fun retained => !isReported epoch records retained) with
    | nil => exact List.nil_suffix
    | cons first later =>
        have sinceSuffix : first :: later <:+ whole := since ▸ List.dropWhile_suffix _
        have firstReported : isReported epoch records first = true := stops_of_dropWhile since
        rw [isReported, List.any_eq_true] at firstReported
        rcases firstReported with ⟨record, recordMem, sameIdentity⟩
        have inLeft := held record recordMem
        simp only [contains, List.any_eq_true, decide_eq_true_eq] at inLeft sameIdentity
        rcases inLeft with ⟨found, foundMem, same⟩
        have isFirst : found = first :=
          List.inj_on_of_nodup_map distinct (suffix.subset foundMem)
            (sinceSuffix.subset List.mem_cons_self) (same.trans sameIdentity)
        subst isFirst
        rcases List.suffix_or_suffix_of_suffix sinceSuffix suffix with inside | outside
        · exact inside
        · rcases List.suffix_cons_iff.mp outside with whole | later
          · rw [whole]
          · have onceOnly := (sinceSuffix.sublist.map CronRecord.identity).nodup distinct
            rw [List.map_cons, List.nodup_cons] at onceOnly
            exact absurd (List.mem_map_of_mem (later.subset foundMem)) onceOnly.1
  · intro reaches record recordMem
    rcases joined record recordMem with ⟨retained, retainedMem, same⟩
    have reported : isReported epoch records retained = true := by
      rw [isReported, List.any_eq_true]
      exact ⟨record, recordMem, by simp [same]⟩
    rw [← List.takeWhile_append_dropWhile (p := fun retained =>
      !isReported epoch records retained) (l := whole)] at retainedMem
    rcases List.mem_append.mp retainedMem with before | since
    · have unreported := List.all_eq_true.mp List.all_takeWhile retained before
      simp [reported] at unreported
    · rw [contains, List.any_eq_true]
      exact ⟨retained, reaches.subset since, by simp [same]⟩

end CronJobCache

namespace CronSystemState

variable {state : CronSystemState} {history : SchedulerHistoryV2} {perJob : ℕ} {name : String}

/-- Whether the held summary, if there is one, lists a job of this name. -/
def lists (state : CronSystemState) (name : String) : Bool :=
  state.summary.all fun held => (held.jobs.map (·.name)).contains name

/-- What is known of the system besides its records. -/
def ringless (state : CronSystemState) : CronSystemState :=
  { state with jobs := .empty }

/-- The summary came from a document that passed the validator. -/
def SummaryValid (state : CronSystemState) : Prop :=
  ∀ held ∈ state.summary, validateSummary held = []

theorem summaryValid_of_none (unread : state.summary = none) : state.SummaryValid := by
  intro held isHeld
  rw [unread] at isHeld
  cases isHeld

theorem find?_evictStaleJobs_eq (valid : state.SummaryValid) :
    state.evictStaleJobs.jobs.find? name =
      if state.lists name then state.jobs.find? name else none := by
  rw [evictStaleJobs, lists]
  cases summary : state.summary with
  | none => simp
  | some held =>
      let live := held.jobs.map (·.name)
      let kept := if state.jobs.keys.all (live.contains ·) then state.jobs
        else state.jobs.retain (live.contains ·)
      have found : ∀ name, kept.find? name =
          if live.contains name then state.jobs.find? name else none := by
        intro name
        simp only [kept]
        split
        · rename_i allLive
          split
          · rfl
          · rename_i gone
            rw [SortedMap.find?_eq_none_iff]
            intro inKeys
            exact gone (List.all_eq_true.mp allLive name inKeys)
        · exact SortedMap.find?_retain
      have few : kept.keys.length ≤ MAX_CRON_JOBS_PER_SYSTEM := by
        have fromLive : ∀ name ∈ kept.keys, name ∈ live := by
          intro name inKeys
          rcases SortedMap.mem_keys_iff.mp inKeys with ⟨ring, foundRing⟩
          rw [found name] at foundRing
          split at foundRing
          · rename_i isLive
            exact List.contains_iff_mem.mp isLive
          · cases foundRing
        have header := (validateSummary_eq_nil_iff.mp (valid held summary)).1
        calc
          kept.keys.length ≤ live.length :=
            (List.subperm_of_subset kept.nodup_keys fromLive).length_le
          _ = held.jobs.length := List.length_map _
          _ ≤ MAX_CRON_JOBS_PER_SYSTEM := (checkHeader_eq_nil_iff.mp header).2.2.2
      change (kept.keepLast MAX_CRON_JOBS_PER_SYSTEM).find? name = _
      rw [SortedMap.keepLast_eq_self few, found name, Option.all_some]

/-- The job entries of a validated history are told apart by name, and their records by
sequence. -/
structure Reports (history : SchedulerHistoryV2) : Prop where
  nodup : (history.jobs.map (·.name)).Nodup
  named : ∀ job ∈ history.jobs, job.name.isEmpty = false ∧
    job.name.utf8ByteSize ≤ MAX_SCHEDULER_JOB_NAME_BYTES
  once : ∀ job ∈ history.jobs, (job.records.map (·.sequence)).Nodup

theorem increasing_of_checkRecordsFrom {field : String} {records : List SchedulerRunRecordV2}
    {position : ℕ} {previous : Option ℕ}
    (passes : checkRecordsFrom field position previous records = []) :
    Increasing SchedulerRunRecordV2.sequence records ∧
      ∀ last ∈ previous, ∀ record ∈ records, last < record.sequence := by
  induction records generalizing position previous with
  | nil => exact ⟨.nil, by simp⟩
  | cons record rest ih =>
      simp only [checkRecordsFrom, List.append_eq_nil_iff] at passes
      rcases passes with ⟨⟨-, isLater⟩, restPasses⟩
      rcases ih restPasses with ⟨increasing, later⟩
      refine ⟨List.pairwise_cons.mpr ⟨later record.sequence rfl, increasing⟩, ?_⟩
      rintro last ⟨⟩
      have before : last < record.sequence := by
        by_contra notBefore
        simp [Nat.le_of_not_lt notBefore] at isLater
      intro other otherMem
      rcases List.mem_cons.mp otherMem with rfl | inRest
      · exact before
      · exact before.trans (later record.sequence rfl other inRest)

theorem reports_of_validateHistory (valid : validateHistory history = []) : Reports history where
  nodup := (named_of_validateHistory valid).1
  named := (named_of_validateHistory valid).2
  once := by
    intro job jobMem
    rcases List.mem_iff_getElem.mp jobMem with ⟨index, inRange, rfl⟩
    have passes := (validateHistory_eq_nil_iff.mp valid).2.1 index inRange
    simp only [checkJobHistory, List.append_eq_nil_iff] at passes
    have increasing := (increasing_of_checkRecordsFrom passes.2).1
    rw [List.nodup_iff_pairwise_ne, List.pairwise_map]
    exact increasing.imp Nat.ne_of_lt

theorem find?_applyHistory (reports : Reports history) (valid : state.SummaryValid) :
    (state.applyHistory history perJob).1.jobs.find? name =
      if state.lists name then
        match history.jobs.find? fun job => job.name = name with
        | some job => some ((((state.jobs.find? name).getD .empty).merge history.epoch
            job.records).1.truncate perJob)
        | none => state.jobs.find? name
      else none := by
  let merged : CronSystemState :=
    { state with
      epoch := some history.epoch
      historyRevision := some history.historyRevision
      jobs := (history.jobs.foldl (mergeJob history.epoch perJob) (state.jobs, false)).1 }
  refine (@find?_evictStaleJobs_eq merged name valid).trans ?_
  change (if state.lists name then
    (history.jobs.foldl (mergeJob history.epoch perJob) (state.jobs, false)).1.find? name
    else none) = _
  exact congrArg (fun found => if state.lists name then found else none)
    (find?_foldl_mergeJob reports.nodup reports.named)

theorem ringless_applyHistory : (state.applyHistory history perJob).1.ringless =
    { state.ringless with
      epoch := some history.epoch
      historyRevision := some history.historyRevision } := by
  rw [applyHistory, evictStaleJobs]
  split <;> rfl

theorem ext_of_ringless {other : CronSystemState} (same : state.ringless = other.ringless)
    (sameRings : ∀ name, state.jobs.find? name = other.jobs.find? name) : state = other := by
  have sameJobs := SortedMap.ext_find? sameRings
  simp only [ringless, CronSystemState.mk.injEq] at same
  cases state
  cases other
  simp_all

/-- Nothing is added exactly when every reported record is retained already. -/
theorem applyHistory_added (reports : Reports history) :
    (state.applyHistory history perJob).2 = false ↔ ∀ job ∈ history.jobs,
      CronJobCache.missing ⟨state.jobRecords job.name⟩ history.epoch job.records = [] := by
  have everyStart : ∀ (jobs : List SchedulerJobHistoryV2) (rings : SortedMap String CronJobCache)
      (added : Bool), (jobs.map (·.name)).Nodup → (∀ job ∈ jobs, job ∈ history.jobs) →
      (∀ job ∈ jobs, rings.find? job.name = state.jobs.find? job.name) →
      ((jobs.foldl (mergeJob history.epoch perJob) (rings, added)).2 = false ↔
        added = false ∧ ∀ job ∈ jobs,
          CronJobCache.missing ⟨state.jobRecords job.name⟩ history.epoch job.records = []) := by
    intro jobs
    induction jobs with
    | nil => simp
    | cons job rest ih =>
        intro rings added nodup reported same
        rw [List.map_cons, List.nodup_cons] at nodup
        have jobMem := reported job List.mem_cons_self
        have accepted : ¬(job.name.isEmpty || decide (job.name.utf8ByteSize >
            MAX_SCHEDULER_JOB_NAME_BYTES)) = true := by
          simpa [(reports.named job jobMem).1] using (reports.named job jobMem).2
        have entry : (rings.find? job.name).getD .empty = ⟨state.jobRecords job.name⟩ := by
          rw [same job List.mem_cons_self, getD_find?_jobs]
        rw [List.foldl_cons, mergeJob, if_neg accepted, entry,
          CronJobCache.merge_eq (reports.once job jobMem),
          ih _ _ nodup.2 fun other otherMem => reported other (List.mem_cons_of_mem _ otherMem)]
        · simp [and_assoc]
        · intro other otherMem
          rw [SortedMap.find?_upsert_of_ne]
          · exact same other (List.mem_cons_of_mem _ otherMem)
          · intro sameName
            exact nodup.1 (sameName ▸ List.mem_map_of_mem otherMem)
  refine (everyStart history.jobs state.jobs false reports.nodup (fun _ jobMem => jobMem)
    fun _ _ => rfl).trans ?_
  simp

end CronSystemState

namespace CronCache

variable {cache next : CronCache} {systemId : String} {history : SchedulerHistoryV2}

/-- The records retained for a job of a system, oldest first. -/
def ring (cache : CronCache) (id : String × String) : List CronRecord :=
  ((cache.system id.1).map (·.jobRecords id.2)).getD []

/-- How eviction sees a record at the head of a ring. -/
def evictionKey (id : String × String) (record : CronRecord) : OldestRecord where
  finishedUnixMs := record.record.finishedUnixMs
  system := id.1
  job := id.2

/-- The rings there are. -/
def ringIds (cache : CronCache) : Finset (String × String) :=
  (cache.systems.entries.flatMap fun system =>
    system.2.jobs.keys.map fun name => (system.1, name)).toFinset

theorem ring_eq {id : String × String} {state : CronSystemState}
    (found : cache.systems.find? id.1 = some state) : cache.ring id = state.jobRecords id.2 := by
  rw [ring, system, found]
  rfl

theorem jobRecords_getD {name : String} :
    ((cache.system systemId).getD .unknown).jobRecords name = cache.ring (systemId, name) := by
  rw [ring]
  cases cache.system systemId <;> rfl

theorem mem_ringIds_iff {id : String × String} : id ∈ cache.ringIds ↔
    ∃ state ring, cache.systems.find? id.1 = some state ∧ state.jobs.find? id.2 = some ring := by
  simp only [ringIds, List.mem_toFinset, List.mem_flatMap, List.mem_map, SortedMap.mem_keys_iff,
    SortedMap.find?_eq_some_iff]
  constructor
  · rintro ⟨⟨systemId, state⟩, stateMem, name, ⟨ring, ringMem⟩, rfl⟩
    exact ⟨state, ring, stateMem, ringMem⟩
  · rintro ⟨state, ring, stateMem, ringMem⟩
    exact ⟨_, stateMem, _, ⟨ring, ringMem⟩, rfl⟩

theorem ring_eq_nil {id : String × String} (notMem : id ∉ cache.ringIds) : cache.ring id = [] := by
  rw [ring, system]
  cases found : cache.systems.find? id.1 with
  | none => rfl
  | some state =>
      rw [Option.map_some, Option.getD_some, CronSystemState.jobRecords]
      cases foundRing : state.jobs.find? id.2 with
      | none => rfl
      | some ring => exact absurd (mem_ringIds_iff.mpr ⟨state, ring, found, foundRing⟩) notMem

theorem Maintained.ring (maintained : cache.Maintained) (id : String × String) :
    CronJobCache.Ring cache.perJob ⟨cache.ring id⟩ := by
  by_cases member : id ∈ cache.ringIds
  · rcases mem_ringIds_iff.mp member with ⟨state, ring, foundState, foundRing⟩
    rw [ring_eq foundState, CronSystemState.jobRecords, foundRing]
    exact maintained.rings _ state foundState _ ring foundRing
  · rw [ring_eq_nil member]
    exact ⟨Nat.zero_le _, CronJobCache.distinct_empty⟩

theorem nodup_ringIds : (cache.systems.entries.flatMap fun system =>
    system.2.jobs.keys.map fun name => (system.1, name)).Nodup := by
  rw [List.nodup_flatMap]
  constructor
  · intro system systemMem
    exact system.2.jobs.nodup_keys.map fun _ _ same => congrArg Prod.snd same
  · apply cache.systems.sorted.imp
    intro earlier later before id inEarlier inLater
    rcases List.mem_map.mp inEarlier with ⟨_, -, rfl⟩
    rcases List.mem_map.mp inLater with ⟨_, -, same⟩
    exact absurd (congrArg Prod.fst same) (ne_of_gt before)

/-- The counter of a truthful cache is the size of its rings. -/
theorem size_ring {ids : Finset (String × String)} (counted : cache.Counted)
    (covered : cache.ringIds ⊆ ids) : Eviction.size ids cache.ring = cache.total := by
  rw [counted, Eviction.size, ← Finset.sum_subset covered fun id _ notMem => by
    rw [ring_eq_nil notMem, List.length_nil], ringIds, List.sum_toFinset _ nodup_ringIds,
    SortedMap.sum, List.map_flatMap, List.flatMap_def, List.sum_flatten, List.map_map]
  congr 1
  apply List.map_congr_left
  rintro ⟨systemId, state⟩ stateMem
  have foundState : cache.systems.find? systemId = some state :=
    SortedMap.find?_eq_some_iff.mpr stateMem
  simp only [Function.comp_apply, CronSystemState.recordCount, SortedMap.sum, SortedMap.keys,
    List.map_map]
  congr 1
  apply List.map_congr_left
  rintro ⟨name, ring⟩ ringMem
  have foundRing : state.jobs.find? name = some ring := SortedMap.find?_eq_some_iff.mpr ringMem
  simp only [Function.comp_apply]
  rw [@ring_eq _ (systemId, name) _ foundState, CronSystemState.jobRecords, foundRing]
  rfl

section Evictions

variable {ids : Finset (String × String)} {victim : OldestRecord}

theorem ring_evict : (cache.evict victim).ring = Function.update cache.ring
    (victim.system, victim.job) (cache.ring (victim.system, victim.job)).tail := by
  funext id
  rcases id with ⟨systemId, name⟩
  rw [Function.update_apply, ring, system, evict, SortedMap.find?_modify]
  by_cases sameSystem : systemId = victim.system
  · subst sameSystem
    rw [if_pos rfl, ring, ring, system]
    cases cache.systems.find? victim.system with
    | none => simp
    | some state =>
        simp only [Option.map_some, Option.getD_some, CronSystemState.jobRecords,
          SortedMap.find?_modify, Prod.mk.injEq, true_and]
        by_cases sameJob : name = victim.job
        · subst sameJob
          cases state.jobs.find? victim.job <;> simp
        · simp [sameJob]
  · rw [if_neg sameSystem, if_neg (by simp [sameSystem])]
    rfl

theorem Evicts.ring (counted : cache.Counted) (covered : cache.ringIds ⊆ ids)
    (evicts : cache.Evicts next) :
    Eviction.Evicts evictionKey ids cache.totalCap cache.ring next.ring := by
  cases evicts with
  | @oldest victim tooMany isHead least =>
      refine ⟨by rwa [size_ring counted covered], ?_⟩
      rcases mem_heads_iff.mp isHead with
        ⟨state, ring, head, foundState, foundRing, first, finished⟩
      have records : cache.ring (victim.system, victim.job) = head :: ring.records.tail := by
        rw [ring_eq foundState, CronSystemState.jobRecords, foundRing]
        exact List.eq_cons_of_mem_head? first
      rw [ring_evict, records, List.tail_cons]
      apply Eviction.Takes.head records
      intro other found isFirst
      have otherHead : evictionKey other found ∈ cache.heads := by
        rw [mem_heads_iff]
        have otherMem : other ∈ cache.ringIds := by
          by_contra notMem
          rw [ring_eq_nil notMem] at isFirst
          cases isFirst
        rcases mem_ringIds_iff.mp otherMem with ⟨otherState, otherRing, foundState, foundRing⟩
        rw [ring_eq foundState, CronSystemState.jobRecords, foundRing] at isFirst
        exact ⟨otherState, otherRing, found, foundState, foundRing, isFirst, rfl⟩
      have isVictim : evictionKey (victim.system, victim.job) head = victim := by
        rw [evictionKey, ← finished]
      rw [isVictim]
      exact least _ otherHead

theorem ringIds_evict : (cache.evict victim).ringIds = cache.ringIds := by
  ext id
  rw [mem_ringIds_iff, mem_ringIds_iff]
  simp only [evict, SortedMap.find?_modify]
  by_cases sameSystem : id.1 = victim.system
  · rw [if_pos sameSystem, sameSystem]
    cases cache.systems.find? victim.system with
    | none => simp
    | some state =>
        simp only [Option.map_some, Option.some.injEq, exists_and_left, exists_eq_left',
          SortedMap.find?_modify]
        by_cases sameJob : id.2 = victim.job
        · simp [sameJob]
        · simp [sameJob]
  · rw [if_neg sameSystem]

theorem evictions_ring (maintained : cache.Maintained) (covered : cache.ringIds ⊆ ids)
    (evictions : Relation.ReflTransGen Evicts cache next) :
    next.ringIds = cache.ringIds ∧
      Relation.ReflTransGen (Eviction.Evicts evictionKey ids cache.totalCap) cache.ring
        next.ring := by
  induction evictions with
  | refl => exact ⟨rfl, .refl⟩
  | @tail state last run evicted ih =>
      rcases ih with ⟨sameIds, ran⟩
      rcases maintained.evictions run with ⟨stateMaintained, sameCap, -⟩
      have stateCovered : state.ringIds ⊆ ids := sameIds ▸ covered
      have step := evicted.ring stateMaintained.counted stateCovered
      rw [sameCap] at step
      refine ⟨?_, ran.tail step⟩
      rw [← sameIds]
      cases evicted
      exact ringIds_evict

/-- Evictions take records only. -/
theorem evictions_system (evictions : Relation.ReflTransGen Evicts cache next) :
    (next.system systemId).map (·.ringless) = (cache.system systemId).map (·.ringless) := by
  induction evictions with
  | refl => rfl
  | tail _ evicted ih =>
      rw [← ih]
      cases evicted with
      | @oldest victim _ _ _ =>
          rw [system, evict, SortedMap.find?_modify]
          split
          · rename_i isVictim
            rw [← isVictim, Option.map_map]
            rfl
          · rfl

end Evictions

/-- A job's ring with the records that a document adds to it. -/
def joined (cache : CronCache) (systemId : String) (history : SchedulerHistoryV2)
    (job : SchedulerJobHistoryV2) : List CronRecord :=
  cache.ring (systemId, job.name) ++
    CronJobCache.missing ⟨cache.ring (systemId, job.name)⟩ history.epoch job.records

/-- The rings that a document leaves where there is no ceiling. A job that the held summary does
not list keeps none. -/
def ringWith (cache : CronCache) (systemId : String) (history : SchedulerHistoryV2)
    (id : String × String) : List CronRecord :=
  if id.1 = systemId then
    if (cache.system systemId).all (·.lists id.2) then
      match history.jobs.find? fun job => job.name = id.2 with
      | some job => newest cache.perJob (cache.joined systemId history job)
      | none => cache.ring id
    else []
  else cache.ring id

def idsWith (cache : CronCache) (systemId : String) (history : SchedulerHistoryV2) :
    Finset (String × String) :=
  cache.ringIds ∪ (history.jobs.map fun job => (systemId, job.name)).toFinset

/-- A job's records from the first one on that the document reports. -/
def sinceReported (cache : CronCache) (systemId : String) (history : SchedulerHistoryV2)
    (job : SchedulerJobHistoryV2) : List CronRecord :=
  (cache.joined systemId history job).dropWhile fun retained =>
    !CronJobCache.isReported history.epoch job.records retained

/-- The records of the fleet that eviction takes no earlier than the first one of a job that the
document reports. -/
def outlasting (cache : CronCache) (systemId : String) (history : SchedulerHistoryV2)
    (job : SchedulerJobHistoryV2) : ℕ :=
  let ring := cache.ringWith systemId history (systemId, job.name)
  let first := ring.findIdx (CronJobCache.isReported history.epoch job.records)
  (cache.sinceReported systemId history job).length +
    ∑ other ∈ (cache.idsWith systemId history).erase (systemId, job.name),
      (Eviction.later evictionKey (systemId, job.name) (ring.take (first + 1)) other
        (cache.ringWith systemId history other)).length

/-- A document's records all stay: the held summary lists their jobs, each job's since the first
reported one are within the depth, and what outlasts that one is within the ceiling. -/
def KeepsReported (cache : CronCache) (systemId : String) (history : SchedulerHistoryV2) : Prop :=
  ∀ job ∈ history.jobs, job.records ≠ [] →
    (cache.system systemId).all (·.lists job.name) = true ∧
      (cache.sinceReported systemId history job).length ≤ cache.perJob ∧
      cache.outlasting systemId history job ≤ cache.totalCap

theorem summaryValid_system
    (summaryValid : ∀ state ∈ cache.system systemId, state.SummaryValid) :
    ((cache.system systemId).getD .unknown).SummaryValid := by
  cases found : cache.system systemId with
  | none => exact CronSystemState.summaryValid_of_none rfl
  | some state => exact summaryValid state found

section Merging

variable (valid : validateHistory history = [])
  (summaryValid : ∀ state ∈ cache.system systemId, state.SummaryValid)
include valid summaryValid

theorem jobRecords_applyHistory {state : CronSystemState} (isState : state =
    (cache.system systemId).getD .unknown) (name : String) :
    (state.applyHistory history cache.perJob).1.jobRecords name =
      cache.ringWith systemId history (systemId, name) := by
  have stateValid : state.SummaryValid := isState ▸ summaryValid_system summaryValid
  have sameLists : state.lists name = (cache.system systemId).all (·.lists name) := by
    rw [isState]
    cases cache.system systemId <;> rfl
  have sameRing : state.jobRecords name = cache.ring (systemId, name) := by
    rw [isState, jobRecords_getD]
  rw [CronSystemState.jobRecords, CronSystemState.find?_applyHistory
    (CronSystemState.reports_of_validateHistory valid) stateValid, sameLists, ringWith,
    if_pos rfl]
  split
  · dsimp only
    cases reported : history.jobs.find? fun job => job.name = name with
    | none => exact sameRing
    | some job =>
        have isJob : job.name = name := by simpa using List.find?_some reported
        have jobMem := List.mem_of_find?_eq_some reported
        have once := (CronSystemState.reports_of_validateHistory valid).once job jobMem
        dsimp only
        rw [CronSystemState.getD_find?_jobs, CronJobCache.merge_eq once, sameRing, joined, isJob]
        rfl
  · rfl

theorem ring_merged :
    (cache.merged systemId history).ring = cache.ringWith systemId history := by
  funext id
  rcases id with ⟨other, name⟩
  rw [ring, system, merged, recount, systemMut, SortedMap.find?_upsert]
  by_cases same : other = systemId
  · subst same
    rw [if_pos rfl, Option.map_some, Option.getD_some]
    exact jobRecords_applyHistory valid summaryValid rfl name
  · rw [if_neg same, ringWith, if_neg same]
    rfl

theorem ringIds_merged :
    (cache.merged systemId history).ringIds ⊆ cache.idsWith systemId history := by
  rintro ⟨other, name⟩ inMerged
  rcases mem_ringIds_iff.mp inMerged with ⟨after, ring, foundAfter, foundRing⟩
  rw [idsWith, Finset.mem_union]
  simp only [merged, recount, systemMut, SortedMap.find?_upsert] at foundAfter
  split at foundAfter
  · rename_i same
    subst same
    cases foundAfter
    have stateValid : ((cache.system other).getD .unknown).SummaryValid :=
      summaryValid_system summaryValid
    rw [← system, CronSystemState.find?_applyHistory
      (CronSystemState.reports_of_validateHistory valid) stateValid] at foundRing
    split at foundRing
    · split at foundRing
      · rename_i job reported
        right
        have isJob : job.name = name := by simpa using List.find?_some reported
        rw [List.mem_toFinset, ← isJob]
        exact List.mem_map_of_mem (f := fun job : SchedulerJobHistoryV2 => (other, job.name))
          (List.mem_of_find?_eq_some reported)
      · left
        cases found : cache.system other with
        | none =>
            rw [found] at foundRing
            cases foundRing
        | some state =>
            rw [found] at foundRing
            exact mem_ringIds_iff.mpr ⟨state, ring, found, foundRing⟩
    · cases foundRing
  · exact .inl (mem_ringIds_iff.mpr ⟨after, ring, foundAfter, foundRing⟩)

end Merging

theorem evictionKey_separate (id other : String × String) (record second : CronRecord)
    (same : evictionKey id record = evictionKey other second) : id = other := by
  simp only [evictionKey, OldestRecord.mk.injEq] at same
  exact Prod.ext same.2.1 same.2.2

section Keeping

variable {job : SchedulerJobHistoryV2} {left : String × String → List CronRecord}

theorem ringWith_of_listed (nodup : (history.jobs.map (·.name)).Nodup) (jobMem : job ∈ history.jobs)
    (listed : (cache.system systemId).all (·.lists job.name) = true) :
    cache.ringWith systemId history (systemId, job.name) =
      newest cache.perJob (cache.joined systemId history job) := by
  rw [ringWith, if_pos rfl, if_pos listed]
  dsimp only
  rw [CronWatch.find?_name_of_mem nodup jobMem]

/-- Within the depth of the ring, evictions leave the records since the first reported one exactly
when what outlasts it fits under the ceiling. -/
theorem since_suffix_iff (ran : Relation.ReflTransGen (Eviction.Evicts evictionKey
      (cache.idsWith systemId history) cache.totalCap) (cache.ringWith systemId history) left)
    (within : Eviction.size (cache.idsWith systemId history) left ≤ cache.totalCap)
    (jobMem : job ∈ history.jobs)
    (isNewest : cache.ringWith systemId history (systemId, job.name) =
      newest cache.perJob (cache.joined systemId history job))
    (depth : (cache.sinceReported systemId history job).length ≤ cache.perJob)
    (someSince : cache.sinceReported systemId history job ≠ []) :
    cache.sinceReported systemId history job <:+ left (systemId, job.name) ↔
      cache.outlasting systemId history job ≤ cache.totalCap := by
  let stop : CronRecord → Bool := CronJobCache.isReported history.epoch job.records
  have whole : (cache.joined systemId history job).takeWhile (fun retained => !stop retained) ++
      cache.sinceReported systemId history job = cache.joined systemId history job :=
    List.takeWhile_append_dropWhile
  rcases List.exists_cons_of_ne_nil someSince with ⟨item, after, since⟩
  have reported : stop item = true := stops_of_dropWhile since
  have inNewest : cache.sinceReported systemId history job <:+
      newest cache.perJob (cache.joined systemId history job) :=
    (suffix_newest_iff (List.dropWhile_suffix _)).mpr depth
  rcases inNewest with ⟨before, queue⟩
  rw [since, ← isNewest] at queue
  have unreported : ∀ retained ∈ before, stop retained = false := by
    intro retained retainedMem
    have beforeSuffix : before <:+
        (cache.joined systemId history job).takeWhile fun retained => !stop retained := by
      rcases newest_suffix cache.perJob (cache.joined systemId history job) with ⟨dropped, joined⟩
      rw [← isNewest, ← queue, ← List.append_assoc, ← whole, since] at joined
      exact ⟨dropped, List.append_cancel_right joined⟩
    simpa using List.all_eq_true.mp List.all_takeWhile retained (beforeSuffix.subset retainedMem)
  have position : (cache.ringWith systemId history (systemId, job.name)).findIdx stop =
      before.length := by
    rw [← queue, List.findIdx_append, if_neg]
    · simp [List.findIdx_cons, reported]
    · intro inBefore
      rcases List.findIdx_lt_length.mp inBefore with ⟨retained, retainedMem, isReported⟩
      rw [unreported retained retainedMem] at isReported
      cases isReported
  have idMem : (systemId, job.name) ∈ cache.idsWith systemId history := by
    rw [idsWith, Finset.mem_union, List.mem_toFinset]
    exact .inr (List.mem_map_of_mem (f := fun job : SchedulerJobHistoryV2 =>
      (systemId, job.name)) jobMem)
  have reached : (cache.ringWith systemId history (systemId, job.name)).take
      (before.length + 1) = before ++ [item] := by
    rw [← queue, List.append_cons]
    exact List.take_left' (by simp)
  have measured : cache.outlasting systemId history job = Eviction.outlasting evictionKey
      (cache.idsWith systemId history) (cache.ringWith systemId history) (systemId, job.name)
        before item after := by
    simp only [outlasting, Eviction.outlasting, since]
    rw [position, reached]
  rw [since, measured]
  exact Eviction.kept_iff evictionKey_separate ran within idMem queue.symm

end Keeping

/-- The evictions leave every record a job reports exactly when the rings, the summary and the
ceiling allow for it. -/
theorem missing_eq_nil_iff_keeps (maintained : cache.Maintained)
    (valid : validateHistory history = [])
    (summaryValid : ∀ state ∈ cache.system systemId, state.SummaryValid)
    {job : SchedulerJobHistoryV2} (jobMem : job ∈ history.jobs) :
    CronJobCache.missing ⟨(cache.applyHistory systemId history).1.ring (systemId, job.name)⟩
        history.epoch job.records = [] ↔
      (job.records ≠ [] → (cache.system systemId).all (·.lists job.name) = true ∧
        (cache.sinceReported systemId history job).length ≤ cache.perJob ∧
        cache.outlasting systemId history job ≤ cache.totalCap) := by
  have reports := CronSystemState.reports_of_validateHistory valid
  have once := reports.once job jobMem
  have mergedMaintained : (cache.merged systemId history).Maintained := maintained.merged history
  rcases enforceTotal_evicts mergedMaintained.counted with ⟨evictions, within⟩
  rcases evictions_ring mergedMaintained (ringIds_merged valid summaryValid) evictions with
    ⟨sameIds, ran⟩
  have counted := (mergedMaintained.evictions evictions).1.counted
  have covered : (cache.merged systemId history).enforceTotal.ringIds ⊆
      cache.idsWith systemId history := sameIds ▸ ringIds_merged valid summaryValid
  rw [← size_ring counted covered] at within
  rw [← applyHistory_eq] at within ran
  rw [ring_merged valid summaryValid] at ran
  have suffix : (cache.applyHistory systemId history).1.ring (systemId, job.name) <:+
      cache.ringWith systemId history (systemId, job.name) :=
    Eviction.suffix_of_run evictionKey_separate ran
  rcases eq_or_ne job.records [] with noRecords | someRecords
  · simp [noRecords, CronJobCache.missing]
  · rcases List.exists_mem_of_ne_nil _ someRecords with ⟨record, recordMem⟩
    cases listed : (cache.system systemId).all (·.lists job.name) with
    | false =>
        rw [ringWith, if_pos rfl, listed, if_neg Bool.false_ne_true] at suffix
        rw [List.suffix_nil.mp suffix, CronJobCache.missing_eq_nil_iff]
        constructor
        · intro held
          cases held record recordMem
        · intro keeps
          cases (keeps someRecords).1
    | true =>
        have isNewest := ringWith_of_listed reports.nodup jobMem listed
        have distinct : CronJobCache.Distinct ⟨cache.joined systemId history job⟩ := by
          exact CronJobCache.distinct_joined (maintained.ring _).distinct once
        have joins : ∀ record ∈ job.records, ∃ retained ∈ cache.joined systemId history job,
            retained.identity = (CronRecord.mk history.epoch record).identity :=
          fun record recordMem => CronJobCache.exists_of_reported recordMem
        rw [CronJobCache.missing_suffix_eq_nil_iff distinct joins
          (suffix.trans (isNewest ▸ newest_suffix _ _))]
        change cache.sinceReported systemId history job <:+ _ ↔ _
        have someSince : cache.sinceReported systemId history job ≠ [] := by
          rcases joins record recordMem with ⟨retained, retainedMem, same⟩
          intro none
          have unreported := List.dropWhile_eq_nil_iff.mp none retained retainedMem
          have reported : CronJobCache.isReported history.epoch job.records retained = true := by
            rw [CronJobCache.isReported, List.any_eq_true]
            exact ⟨record, recordMem, by simp [same]⟩
          simp [reported] at unreported
        constructor
        · intro reaches _
          have depth := (suffix_newest_iff (List.dropWhile_suffix _)).mp
            (reaches.trans (isNewest ▸ suffix))
          exact ⟨rfl, depth,
            (since_suffix_iff ran within jobMem isNewest depth someSince).mp reaches⟩
        · intro keeps
          rcases keeps someRecords with ⟨-, depth, fits⟩
          exact (since_suffix_iff ran within jobMem isNewest depth someSince).mpr fits

/-- A document whose records are all retained changes nothing in a system that it was just applied
to. -/
theorem applyHistory_eq_self {state : CronSystemState} {perJob : ℕ}
    (valid : validateHistory history = []) (summaryValid : state.SummaryValid)
    (sameEpoch : state.epoch = some history.epoch)
    (sameRevision : state.historyRevision = some history.historyRevision)
    (deep : ∀ name, (state.jobRecords name).length ≤ perJob)
    (listed : ∀ name ring, state.jobs.find? name = some ring → state.lists name = true)
    (present : ∀ job ∈ history.jobs, state.lists job.name = true →
      ∃ ring, state.jobs.find? job.name = some ring)
    (retained : ∀ job ∈ history.jobs,
      CronJobCache.missing ⟨state.jobRecords job.name⟩ history.epoch job.records = []) :
    state.applyHistory history perJob = (state, false) := by
  have reports := CronSystemState.reports_of_validateHistory valid
  refine Prod.ext ?_ ((CronSystemState.applyHistory_added reports).mpr retained)
  apply CronSystemState.ext_of_ringless
  · rw [CronSystemState.ringless_applyHistory, ← sameEpoch, ← sameRevision]
    rfl
  · intro name
    rw [CronSystemState.find?_applyHistory reports summaryValid]
    split
    · rename_i isListed
      split
      · rename_i job reported
        have isJob : job.name = name := by simpa using List.find?_some reported
        have jobMem := List.mem_of_find?_eq_some reported
        rw [← isJob] at isListed ⊢
        rcases present job jobMem isListed with ⟨ring, found⟩
        have records : state.jobRecords job.name = ring.records := by
          rw [CronSystemState.jobRecords, found]
          rfl
        have nothing := retained job jobMem
        rw [records] at nothing
        have short : ring.records.length ≤ perJob := records ▸ deep job.name
        rw [found, Option.getD_some, CronJobCache.merge_eq (reports.once job jobMem), nothing,
          CronJobCache.truncate, List.append_nil, Nat.sub_eq_zero_of_le short, List.drop_zero]
      · rfl
    · rename_i notListed
      cases found : state.jobs.find? name with
      | none => rfl
      | some ring =>
          exact absurd (listed name ring found) notListed

/-- A document whose records are all retained changes nothing when it is applied again. -/
theorem applyHistory_applyHistory (maintained : cache.Maintained)
    (valid : validateHistory history = [])
    (summaryValid : ∀ state ∈ cache.system systemId, state.SummaryValid)
    (retained : ∀ job ∈ history.jobs,
      CronJobCache.missing ⟨(cache.applyHistory systemId history).1.ring (systemId, job.name)⟩
        history.epoch job.records = []) :
    (cache.applyHistory systemId history).1.applyHistory systemId history =
      ((cache.applyHistory systemId history).1, false) := by
  have reports := CronSystemState.reports_of_validateHistory valid
  have mergedMaintained : (cache.merged systemId history).Maintained := maintained.merged history
  rcases enforceTotal_evicts mergedMaintained.counted with ⟨evictions, within⟩
  rcases mergedMaintained.evictions evictions with ⟨firstMaintained, sameCap, sameDepth⟩
  have sameIds := (evictions_ring mergedMaintained subset_rfl evictions).1
  have sameRest := @evictions_system _ _ systemId evictions
  rw [← applyHistory_eq] at firstMaintained sameCap sameDepth within sameIds sameRest
  generalize (cache.applyHistory systemId history).1 = first at *
  let start := (cache.system systemId).getD .unknown
  have startValid : start.SummaryValid := summaryValid_system summaryValid
  have mergedFound : (cache.merged systemId history).system systemId =
      some (start.applyHistory history cache.perJob).1 := by
    rw [merged, recount, systemMut, system, SortedMap.find?_upsert_self]
    rfl
  rw [mergedFound, Option.map_some] at sameRest
  rcases Option.map_eq_some_iff.mp sameRest with ⟨state, found, sameRingless⟩
  rw [CronSystemState.ringless_applyHistory] at sameRingless
  have sameSummary : state.ringless.summary = start.ringless.summary := by rw [sameRingless]
  have sameLists : ∀ name, state.lists name = start.lists name := by
    intro name
    change state.summary = start.summary at sameSummary
    rw [CronSystemState.lists, CronSystemState.lists, sameSummary]
  have mergedRings : ∀ name, (∃ ring, state.jobs.find? name = some ring) ↔
      ∃ ring, (start.applyHistory history cache.perJob).1.jobs.find? name = some ring := by
    intro name
    have sameMem : (systemId, name) ∈ first.ringIds ↔
        (systemId, name) ∈ (cache.merged systemId history).ringIds := by rw [sameIds]
    rw [mem_ringIds_iff, mem_ringIds_iff] at sameMem
    simp only [system] at found mergedFound
    simpa [found, mergedFound] using sameMem
  have fixed : state.applyHistory history first.perJob = (state, false) := by
    apply applyHistory_eq_self valid
    · exact fun held isHeld => startValid held (sameSummary ▸ isHeld)
    · have sameEpoch : state.ringless.epoch = some history.epoch := by rw [sameRingless]
      exact sameEpoch
    · have sameRevision : state.ringless.historyRevision = some history.historyRevision := by
        rw [sameRingless]
      exact sameRevision
    · intro name
      have ring := firstMaintained.ring (systemId, name)
      rw [@ring_eq _ (systemId, name) _ found] at ring
      exact ring.depth
    · intro name ring foundRing
      rcases (mergedRings name).mp ⟨ring, foundRing⟩ with ⟨merged, foundMerged⟩
      rw [CronSystemState.find?_applyHistory reports startValid] at foundMerged
      rw [sameLists]
      split at foundMerged
      · assumption
      · cases foundMerged
    · intro job jobMem listed
      rw [mergedRings, CronSystemState.find?_applyHistory reports startValid,
        if_pos (sameLists job.name ▸ listed), CronWatch.find?_name_of_mem reports.nodup jobMem]
      exact ⟨_, rfl⟩
    · intro job jobMem
      have nothing := retained job jobMem
      rwa [@ring_eq _ (systemId, job.name) _ found] at nothing
  have sameSystems : first.systemMut systemId
      (fun state => (state.applyHistory history first.perJob).1) = first := by
    rw [systemMut, SortedMap.upsert_eq_self found]
    rw [Option.getD_some, fixed]
  have recounted : first.recount = first := by
    rw [recount, ← firstMaintained.counted]
  have enforced : first.enforceTotal = first := by
    rw [enforceTotal, Nat.sub_eq_zero_of_le (sameCap ▸ within)]
    rfl
  rw [applyHistory, sameSystems, recounted, enforced, found, Option.getD_some, fixed]

/-- The operation's documents passed the validator. -/
def CronOp.Validated : CronOp → Prop
  | .applySummary _ summary _ => validateSummary summary = []
  | .applyHistory _ history => validateHistory history = []
  | _ => True

/-- Every held summary came from a validated document. -/
def Fed (cache : CronCache) : Prop :=
  ∀ systemId, ∀ state ∈ cache.system systemId, state.SummaryValid

theorem Fed.systemMut {change : CronSystemState → CronSystemState} (fed : cache.Fed)
    (keeps : ∀ state : CronSystemState, state.SummaryValid → (change state).SummaryValid) :
    (cache.systemMut systemId change).Fed := by
  intro other state found
  rw [Option.mem_def, system, CronCache.systemMut, SortedMap.find?_upsert] at found
  split at found
  · cases found
    apply keeps
    exact summaryValid_system (fed systemId)
  · exact fed other state found

theorem Fed.retain {keep : String → Bool} (fed : cache.Fed) :
    (recount { cache with systems := cache.systems.retain keep }).Fed := by
  intro other state found
  rw [Option.mem_def, system, recount, SortedMap.find?_retain] at found
  split at found
  · exact fed other state found
  · cases found

theorem Fed.of_ringless (fed : cache.Fed) (same : ∀ systemId,
    (next.system systemId).map (·.ringless) = (cache.system systemId).map (·.ringless)) :
    next.Fed := by
  intro systemId state found held isHeld
  have sameRingless := same systemId
  rw [Option.mem_def.mp found, Option.map_some, eq_comm] at sameRingless
  rcases Option.map_eq_some_iff.mp sameRingless with ⟨before, foundBefore, same⟩
  have sameSummary : before.ringless.summary = state.ringless.summary := by rw [same]
  exact fed systemId before foundBefore held (sameSummary.trans isHeld)

theorem Fed.step {op : CronOp} (fed : cache.Fed) (maintained : cache.Maintained)
    (validated : op.Validated) (stepped : cache.step op = some next) : next.Fed := by
  cases op with
  | applySummary systemId summary nowUnixMs =>
      cases stepped
      apply fed.systemMut
      rintro state - held ⟨⟩
      exact validated
  | applyHistory systemId history =>
      cases stepped
      rw [applyHistory_eq]
      have mergedFed : (cache.merged systemId history).Fed := by
        change (cache.systemMut systemId fun state =>
          (state.applyHistory history cache.perJob).1).Fed
        apply fed.systemMut
        intro state valid held isHeld
        have sameSummary : (state.applyHistory history cache.perJob).1.ringless.summary =
            state.ringless.summary := by rw [CronSystemState.ringless_applyHistory]
        exact valid held (sameSummary ▸ isHeld)
      apply mergedFed.of_ringless
      intro other
      exact evictions_system (enforceTotal_evicts (maintained.merged history).counted).1
  | resetSystem systemId =>
      cases stepped
      rw [resetSystem]
      split
      · exact fed.retain
      · exact fed
  | retainSystems live =>
      cases stepped
      exact fed.retain
  | markFailed systemId error nowUnixMs =>
      cases stepped
      exact fed.systemMut fun _ valid => valid
  | markUnsupported systemId nowUnixMs =>
      cases stepped
      exact fed.systemMut fun _ _ => CronSystemState.summaryValid_of_none rfl

theorem fed_of_run {perJob totalCap : ℕ} {ops : List CronOp}
    (ran : Machine.run step (new perJob totalCap) ops = some cache)
    (validated : ∀ op ∈ ops, op.Validated) : cache.Bounded perJob totalCap ∧ cache.Fed := by
  apply Machine.run_induction (fun ops cache => (∀ op ∈ ops, op.Validated) →
    cache.Bounded perJob totalCap ∧ cache.Fed) ran _ _ validated
  · intro _
    refine ⟨bounded_new perJob totalCap, ?_⟩
    intro systemId state found
    cases found
  · intro ops state op next _ ih stepped validated
    rcases ih fun earlier member => validated earlier (List.mem_append_left _ member) with
      ⟨bounded, fed⟩
    exact ⟨bounded.step stepped,
      fed.step bounded.maintained (validated op (by simp)) stepped⟩

/-- In every cache a run reaches: a validated document applied again directly after the first time
adds nothing and leaves every ring, the counter and the applied revision, exactly when the first
time keeps all it reports. -/
theorem reapply_iff {perJob totalCap : ℕ} {ops : List CronOp}
    (ran : Machine.run step (new perJob totalCap) ops = some cache)
    (validated : ∀ op ∈ ops, op.Validated) (valid : validateHistory history = []) :
    (((cache.applyHistory systemId history).1.applyHistory systemId history).2 = false ∧
      (∀ id, ((cache.applyHistory systemId history).1.applyHistory systemId history).1.ring id =
        (cache.applyHistory systemId history).1.ring id) ∧
      ((cache.applyHistory systemId history).1.applyHistory systemId history).1.total =
        (cache.applyHistory systemId history).1.total ∧
      (((cache.applyHistory systemId history).1.applyHistory systemId history).1.system
          systemId).map (·.historyRevision) =
        ((cache.applyHistory systemId history).1.system systemId).map (·.historyRevision)) ↔
      cache.KeepsReported systemId history := by
  rcases fed_of_run ran validated with ⟨bounded, fed⟩
  have maintained := bounded.maintained
  have keeps : cache.KeepsReported systemId history ↔ ∀ job ∈ history.jobs,
      CronJobCache.missing ⟨(cache.applyHistory systemId history).1.ring (systemId, job.name)⟩
        history.epoch job.records = [] :=
    forall₂_congr fun job jobMem =>
      (missing_eq_nil_iff_keeps maintained valid (fed systemId) jobMem).symm
  rw [keeps]
  constructor
  · rintro ⟨nothingAdded, -⟩
    have reports := CronSystemState.reports_of_validateHistory valid
    rw [applyHistory, CronSystemState.applyHistory_added reports] at nothingAdded
    intro job jobMem
    have nothing := nothingAdded job jobMem
    rwa [jobRecords_getD] at nothing
  · intro retained
    rw [applyHistory_applyHistory maintained valid (fed systemId) retained]
    exact ⟨rfl, fun _ => rfl, rfl, rfl⟩

instance : Decidable (cache.KeepsReported systemId history) :=
  inferInstanceAs (Decidable (∀ job ∈ history.jobs, _))

/-- A window of three records, for rings of two. -/
theorem reapply_threeInTwo :
    validateHistory (backupHistory ⟨1000, 1⟩ 3 [(1, 10), (2, 20), (3, 30)]) = [] ∧
      ((new 2 100).applyHistory "sys"
        (backupHistory ⟨1000, 1⟩ 3 [(1, 10), (2, 20), (3, 30)])).1.ring ("sys", "backup") =
          [⟨⟨1000, 1⟩, finishedRun 2 20⟩, ⟨⟨1000, 1⟩, finishedRun 3 30⟩] ∧
      (((new 2 100).applyHistory "sys"
        (backupHistory ⟨1000, 1⟩ 3 [(1, 10), (2, 20), (3, 30)])).1.applyHistory "sys"
          (backupHistory ⟨1000, 1⟩ 3 [(1, 10), (2, 20), (3, 30)])).2 = true ∧
      (((new 2 100).applyHistory "sys"
        (backupHistory ⟨1000, 1⟩ 3 [(1, 10), (2, 20), (3, 30)])).1.applyHistory "sys"
          (backupHistory ⟨1000, 1⟩ 3 [(1, 10), (2, 20), (3, 30)])).1.ring ("sys", "backup") =
          [⟨⟨1000, 1⟩, finishedRun 3 30⟩, ⟨⟨1000, 1⟩, finishedRun 1 10⟩] := by
  decide +kernel

/-- A fourth system's record is kept under the ceiling of two when it finished last. -/
theorem reapply_iff_threeSystems : ∃ cache,
    Machine.run step (new 10 2) threeSystems = some cache ∧
      cache.KeepsReported "mike" (backupHistory ⟨2, 2⟩ 1 [(1, 10)]) ∧
      ((cache.applyHistory "mike" (backupHistory ⟨2, 2⟩ 1 [(1, 10)])).1.applyHistory "mike"
        (backupHistory ⟨2, 2⟩ 1 [(1, 10)])).2 = false := by
  have ran : ((Machine.run step (new 10 2) threeSystems).map fun cache =>
      decide (cache.KeepsReported "mike" (backupHistory ⟨2, 2⟩ 1 [(1, 10)]))) = some true := by
    decide +kernel
  rcases Option.map_eq_some_iff.mp ran with ⟨cache, ran, keeps⟩
  have keeps := of_decide_eq_true keeps
  have validated : ∀ op ∈ threeSystems, op.Validated := by
    intro op member
    simp only [threeSystems, List.mem_cons, List.not_mem_nil, or_false] at member
    rcases member with rfl | rfl | rfl <;> (simp only [CronOp.Validated]; decide)
  exact ⟨cache, ran, keeps, ((reapply_iff ran validated (by decide)).mpr keeps).1⟩

end CronCache

end Gregg
