import Mathlib.Data.Prod.Lex
import Gregg.Fleet.Cron
import Gregg.Lib.Machine
import Gregg.Protocol.ValidateScheduler

/-!
# The bounds of the cron cache

Each operation keeps every ring within the per-job depth and free of repeated records, and the
counter equal to the number of retained records. The eviction loop therefore always finds a
victim, and ends below the ceiling.
-/

namespace Gregg

namespace CronJobCache

variable {cache : CronJobCache} {epoch : SchedulerEpochV2} {perJob : ℕ}

/-- No two records of the ring have the same identity. -/
def Distinct (cache : CronJobCache) : Prop :=
  (cache.records.map CronRecord.identity).Nodup

theorem distinct_mergeRecord {merged : CronJobCache × Bool} {record : SchedulerRunRecordV2}
    (distinct : merged.1.Distinct) : (mergeRecord epoch merged record).1.Distinct := by
  simp only [mergeRecord]
  split
  · exact distinct
  · rename_i fresh
    simp only [contains, List.any_eq_true, decide_eq_true_eq, not_exists, not_and] at fresh
    rw [Distinct, List.map_append, List.nodup_append]
    refine ⟨distinct, by simp, ?_⟩
    rintro id idMem found foundMem same
    rcases List.mem_map.mp idMem with ⟨retained, retainedMem, rfl⟩
    rw [List.map_singleton, List.mem_singleton] at foundMem
    exact fresh retained retainedMem (same.trans foundMem)

theorem distinct_merge {records : List SchedulerRunRecordV2} (distinct : cache.Distinct) :
    (cache.merge epoch records).1.Distinct := by
  have everyStart : ∀ merged : CronJobCache × Bool, merged.1.Distinct →
      (records.foldl (mergeRecord epoch) merged).1.Distinct := by
    induction records with
    | nil => exact fun _ distinct => distinct
    | cons record rest ih => exact fun _ distinct => ih _ (distinct_mergeRecord distinct)
  exact everyStart (cache, false) distinct

/-- What every ring of the cache satisfies. -/
structure Ring (perJob : ℕ) (cache : CronJobCache) : Prop where
  depth : cache.records.length ≤ perJob
  distinct : cache.Distinct

theorem distinct_empty : empty.Distinct := List.nodup_nil

theorem ring_truncate (distinct : cache.Distinct) : Ring perJob (cache.truncate perJob) where
  depth := by
    simp only [truncate, List.length_drop]
    omega
  distinct := distinct.sublist ((List.drop_sublist _ _).map _)

theorem Ring.tail (ring : Ring perJob cache) : Ring perJob { records := cache.records.tail } where
  depth := by
    have depth := ring.depth
    simp only [List.length_tail]
    omega
  distinct := ring.distinct.sublist ((List.tail_sublist _).map _)

end CronJobCache

namespace CronSystemState

variable {state : CronSystemState} {perJob : ℕ}

/-- Every ring of the map is within the bounds. -/
def RingsIn (perJob : ℕ) (jobs : SortedMap String CronJobCache) : Prop :=
  ∀ name ring, jobs.find? name = some ring → ring.Ring perJob

theorem ringsIn_empty : RingsIn perJob .empty := by
  intro name ring found
  cases found

theorem ringsIn_mergeJob {epoch : SchedulerEpochV2} {job : SchedulerJobHistoryV2}
    {merged : SortedMap String CronJobCache × Bool} (rings : RingsIn perJob merged.1) :
    RingsIn perJob (mergeJob epoch perJob merged job).1 := by
  simp only [mergeJob]
  split
  · exact rings
  · intro name ring found
    rw [SortedMap.find?_upsert] at found
    split at found
    · cases found
      apply CronJobCache.ring_truncate
      apply CronJobCache.distinct_merge
      cases retained : merged.1.find? job.name with
      | none => exact CronJobCache.distinct_empty
      | some ring => exact (rings job.name ring retained).distinct
    · exact rings name ring found

theorem ringsIn_foldl_mergeJob {epoch : SchedulerEpochV2} {jobs : List SchedulerJobHistoryV2}
    {merged : SortedMap String CronJobCache × Bool} (rings : RingsIn perJob merged.1) :
    RingsIn perJob (jobs.foldl (mergeJob epoch perJob) merged).1 := by
  induction jobs generalizing merged with
  | nil => exact rings
  | cons job rest ih => exact ih (ringsIn_mergeJob rings)

/-- What stale eviction leaves was retained before. -/
theorem find?_evictStaleJobs {name : String} {ring : CronJobCache}
    (found : state.evictStaleJobs.jobs.find? name = some ring) :
    state.jobs.find? name = some ring := by
  unfold evictStaleJobs at found
  split at found
  · exact found
  · have kept := SortedMap.find?_keepLast found
    split at kept
    · exact kept
    · rw [SortedMap.find?_retain] at kept
      split at kept
      · exact kept
      · cases kept

theorem ringsIn_applyHistory {history : SchedulerHistoryV2} (rings : RingsIn perJob state.jobs) :
    RingsIn perJob (state.applyHistory history perJob).1.jobs := by
  have mergedRings : RingsIn perJob
      (history.jobs.foldl (mergeJob history.epoch perJob) (state.jobs, false)).1 :=
    ringsIn_foldl_mergeJob rings
  intro name ring found
  exact mergedRings name ring (find?_evictStaleJobs found)

end CronSystemState

namespace OldestRecord

variable {left middle right : OldestRecord}

/-- The eviction order is the lexicographic one. -/
theorem le_iff : left.le right = true ↔
    toLex (left.finishedUnixMs, toLex (left.system, left.job)) ≤
      toLex (right.finishedUnixMs, toLex (right.system, right.job)) := by
  simp [le, Prod.Lex.toLex_le_toLex]

theorem finished_le_of_le (before : left.le right = true) :
    left.finishedUnixMs ≤ right.finishedUnixMs := by
  simp only [le, Bool.or_eq_true, decide_eq_true_eq, Bool.and_eq_true, beq_iff_eq] at before
  omega

theorem le_trans (first : left.le middle = true) (second : middle.le right = true) :
    left.le right = true :=
  le_iff.mpr ((le_iff.mp first).trans (le_iff.mp second))

theorem le_total (left right : OldestRecord) : left.le right = true ∨ right.le left = true := by
  rw [le_iff, le_iff]
  exact LinearOrder.le_total _ _

theorem le_refl (record : OldestRecord) : record.le record = true :=
  (le_total record record).elim id id

end OldestRecord

namespace CronCache

variable {cache next : CronCache} {systemId : String}

/-- All rings of all systems. -/
def rings (cache : CronCache) : List CronJobCache :=
  cache.systems.entries.flatMap fun system => system.2.jobs.entries.map Prod.snd

/-- All retained records. -/
def retained (cache : CronCache) : List CronRecord :=
  cache.rings.flatMap (·.records)

/-- A fold of `older` ends in the least candidate. -/
theorem foldl_older {candidates : List OldestRecord} {first : Option OldestRecord}
    {victim : OldestRecord} (folded : candidates.foldl older first = some victim) :
    (first = some victim ∨ victim ∈ candidates) ∧ (∀ head ∈ first, victim.le head = true) ∧
      ∀ head ∈ candidates, victim.le head = true := by
  induction candidates generalizing first with
  | nil =>
      cases folded
      refine ⟨.inl rfl, ?_, by simp⟩
      rintro head ⟨⟩
      exact OldestRecord.le_refl _
  | cons candidate rest ih =>
      rcases ih folded with ⟨found, leOlder, leRest⟩
      have step : ∃ best, older first candidate = some best ∧
          (first = some best ∨ best = candidate) ∧ (∀ head ∈ first, best.le head = true) ∧
            best.le candidate = true := by
        cases first with
        | none => exact ⟨candidate, rfl, .inr rfl, by simp, OldestRecord.le_refl _⟩
        | some current =>
            simp only [older]
            split
            · rename_i before
              refine ⟨current, rfl, .inl rfl, ?_, before⟩
              rintro head ⟨⟩
              exact OldestRecord.le_refl _
            · rename_i notBefore
              refine ⟨candidate, rfl, .inr rfl, ?_, OldestRecord.le_refl _⟩
              rintro head ⟨⟩
              exact (OldestRecord.le_total _ _).resolve_right notBefore
      rcases step with ⟨best, isBest, origin, leFirst, leCandidate⟩
      have victimLe : victim.le best = true := leOlder best isBest
      refine ⟨?_, fun head isFirst => OldestRecord.le_trans victimLe (leFirst head isFirst), ?_⟩
      · rcases found with isOlder | inRest
        · rw [isBest] at isOlder
          cases isOlder
          rcases origin with isFirst | rfl
          · exact .inl isFirst
          · exact .inr List.mem_cons_self
        · exact .inr (List.mem_cons_of_mem _ inRest)
      · intro head member
        rcases List.mem_cons.mp member with rfl | inRest
        · exact OldestRecord.le_trans victimLe leCandidate
        · exact leRest head inRest

theorem oldestRecord_eq_some {victim : OldestRecord} (found : cache.oldestRecord = some victim) :
    victim ∈ cache.heads ∧ ∀ head ∈ cache.heads, victim.le head = true := by
  rcases foldl_older found with ⟨impossible | member, -, least⟩
  · cases impossible
  · exact ⟨member, least⟩

theorem oldestRecord_eq_none (none : cache.oldestRecord = none) : cache.heads = [] := by
  cases heads : cache.heads with
  | nil => rfl
  | cons head rest =>
      have neverEmptied : ∀ (candidates : List OldestRecord) (current : OldestRecord),
          candidates.foldl older (some current) ≠ Option.none := by
        intro candidates
        induction candidates with
        | nil => simp
        | cons candidate rest ih =>
            intro current
            simp only [List.foldl_cons, older]
            split
            · exact ih current
            · exact ih candidate
      rw [oldestRecord, heads] at none
      exact absurd none (neverEmptied rest head)

/-- A head belongs to a nonempty ring of its system and job. -/
theorem mem_heads_iff {victim : OldestRecord} :
    victim ∈ cache.heads ↔ ∃ state ring head, cache.systems.find? victim.system = some state ∧
      state.jobs.find? victim.job = some ring ∧ ring.records.head? = some head ∧
        victim.finishedUnixMs = head.record.finishedUnixMs := by
  simp only [heads, List.mem_flatMap, List.mem_filterMap, Option.map_eq_some_iff,
    SortedMap.find?_eq_some_iff]
  constructor
  · rintro ⟨⟨systemId, state⟩, stateMem, ⟨name, ring⟩, ringMem, head, isHead, rfl⟩
    exact ⟨state, ring, head, stateMem, ringMem, isHead, rfl⟩
  · rintro ⟨state, ring, head, stateMem, ringMem, isHead, finished⟩
    refine ⟨_, stateMem, _, ringMem, head, isHead, ?_⟩
    rw [← finished]

theorem mem_rings_iff {ring : CronJobCache} :
    ring ∈ cache.rings ↔ ∃ systemId state name, cache.systems.find? systemId = some state ∧
      state.jobs.find? name = some ring := by
  simp only [rings, List.mem_flatMap, List.mem_map, SortedMap.find?_eq_some_iff]
  constructor
  · rintro ⟨⟨systemId, state⟩, stateMem, ⟨name, ring⟩, ringMem, rfl⟩
    exact ⟨systemId, state, name, stateMem, ringMem⟩
  · rintro ⟨systemId, state, name, stateMem, ringMem⟩
    exact ⟨_, stateMem, _, ringMem, rfl⟩

/-- A retained record is behind the head of its ring. -/
theorem head_of_mem_ring {ring : CronJobCache} {record : CronRecord} (ringMem : ring ∈ cache.rings)
    (recordMem : record ∈ ring.records) :
    ∃ head, ring.records.head? = some head ∧
      ∃ victim ∈ cache.heads, victim.finishedUnixMs = head.record.finishedUnixMs := by
  rcases mem_rings_iff.mp ringMem with ⟨systemId, state, name, foundState, foundRing⟩
  cases records : ring.records with
  | nil =>
      rw [records] at recordMem
      cases recordMem
  | cons head rest =>
      refine ⟨head, rfl, ⟨head.record.finishedUnixMs, systemId, name⟩, ?_, rfl⟩
      exact mem_heads_iff.mpr ⟨state, ring, head, foundState, foundRing, by simp [records], rfl⟩

/-- The counter is truthful. -/
def Counted (cache : CronCache) : Prop :=
  cache.total = cache.systems.sum (·.recordCount)

theorem counted_recount : cache.recount.Counted := rfl

theorem length_retained : cache.retained.length = cache.systems.sum (·.recordCount) := by
  simp only [retained, rings, List.length_flatMap, SortedMap.sum, CronSystemState.recordCount,
    List.flatMap_assoc, List.flatMap_map]

/-- Evicting a head removes one record. -/
theorem counted_evict {victim : OldestRecord} (counted : cache.Counted)
    (isHead : victim ∈ cache.heads) : (cache.evict victim).Counted ∧ 0 < cache.total := by
  rcases mem_heads_iff.mp isHead with ⟨state, ring, head, foundState, foundRing, nonempty, -⟩
  have ringLength : ring.records.length = ring.records.tail.length + 1 := by
    cases records : ring.records with
    | nil => simp [records] at nonempty
    | cons _ _ => simp
  let evictedJobs := state.jobs.modify victim.job fun job => { records := job.records.tail }
  have fromJobs : evictedJobs.sum (·.records.length) + ring.records.length =
      state.jobs.sum (·.records.length) + ring.records.tail.length :=
    SortedMap.sum_modify foundRing
  have fromSystems : (cache.evict victim).systems.sum (·.recordCount) + state.recordCount =
      cache.systems.sum (·.recordCount) + evictedJobs.sum (·.records.length) :=
    SortedMap.sum_modify foundState
  have stateCount : state.recordCount = state.jobs.sum (·.records.length) := rfl
  have total : (cache.evict victim).total = cache.total - 1 := rfl
  unfold Counted at counted ⊢
  omega

theorem count_retained (record : CronRecord) : cache.retained.count record =
    cache.systems.sum fun state => state.jobs.sum fun ring => ring.records.count record := by
  simp only [retained, rings, SortedMap.sum, List.flatMap_assoc, List.flatMap_map,
    List.count_flatMap, Function.comp_def]

/-- An eviction takes the first record out of the ring of its victim, and nothing else. -/
theorem perm_evict {victim : OldestRecord} (isHead : victim ∈ cache.heads) :
    ∃ removed, removed.record.finishedUnixMs = victim.finishedUnixMs ∧
      cache.retained.Perm (removed :: (cache.evict victim).retained) := by
  rcases mem_heads_iff.mp isHead with
    ⟨state, ring, removed, foundState, foundRing, isFirst, sameFinish⟩
  refine ⟨removed, sameFinish.symm, ?_⟩
  rw [List.perm_iff_count]
  intro record
  have fromRing : ring.records.count record =
      ring.records.tail.count record + if removed == record then 1 else 0 := by
    rcases List.head?_eq_some_iff.mp isFirst with ⟨rest, records⟩
    rw [records, List.count_cons, List.tail_cons]
  let evictedJobs := state.jobs.modify victim.job fun job => { records := job.records.tail }
  have fromJobs : evictedJobs.sum (·.records.count record) + ring.records.count record =
      state.jobs.sum (·.records.count record) + ring.records.tail.count record :=
    SortedMap.sum_modify foundRing
  have fromSystems : (cache.evict victim).retained.count record +
      state.jobs.sum (·.records.count record) =
      cache.retained.count record + evictedJobs.sum (·.records.count record) := by
    rw [count_retained, count_retained]
    exact @SortedMap.sum_modify _ _ _ _ _ _
      (fun state : CronSystemState => state.jobs.sum (·.records.count record)) _ foundState
  rw [List.count_cons]
  omega

/-- With every ring empty there is nothing to count. -/
theorem counted_zero (counted : cache.Counted) (noHeads : cache.heads = []) : cache.total = 0 := by
  have emptyRetained : cache.retained = [] := by
    rw [List.eq_nil_iff_forall_not_mem]
    intro record recordMem
    rcases List.mem_flatMap.mp recordMem with ⟨ring, ringMem, inRing⟩
    rcases head_of_mem_ring ringMem inRing with ⟨-, -, victim, isHead, -⟩
    rw [noHeads] at isHead
    cases isHead
  rw [counted, ← length_retained, emptyRetained, List.length_nil]

/-- One eviction: the cache is over its ceiling and loses the first record of the ring whose head
finished first, ties broken by system id and job name. -/
inductive Evicts : CronCache → CronCache → Prop where
  | oldest {cache : CronCache} {victim : OldestRecord} (tooMany : cache.totalCap < cache.total)
      (isHead : victim ∈ cache.heads) (least : ∀ head ∈ cache.heads, victim.le head = true) :
      Evicts cache (cache.evict victim)

/-- With enough turns the loop ends at or below the ceiling, by evictions only. -/
theorem enforceWithin_evicts {turns : ℕ} (counted : cache.Counted)
    (enough : cache.total ≤ cache.totalCap + turns) :
    Relation.ReflTransGen Evicts cache (enforceWithin turns cache) ∧
      (enforceWithin turns cache).total ≤ cache.totalCap := by
  induction turns generalizing cache with
  | zero => exact ⟨.refl, enough⟩
  | succ turns ih =>
      simp only [enforceWithin]
      split
      · rename_i tooMany
        cases oldest : cache.oldestRecord with
        | none =>
            have nothing := counted_zero counted (oldestRecord_eq_none oldest)
            omega
        | some victim =>
            rcases oldestRecord_eq_some oldest with ⟨isHead, least⟩
            rcases counted_evict counted isHead with ⟨evictedCounted, positive⟩
            have enoughLeft : (cache.evict victim).total ≤
                (cache.evict victim).totalCap + turns := by
              simp only [evict]
              omega
            rcases ih evictedCounted enoughLeft with ⟨evictions, within⟩
            exact ⟨.head (.oldest tooMany isHead least) evictions, within⟩
      · rename_i notOver
        exact ⟨.refl, Nat.le_of_not_lt notOver⟩

theorem enforceTotal_evicts (counted : cache.Counted) :
    Relation.ReflTransGen Evicts cache cache.enforceTotal ∧
      cache.enforceTotal.total ≤ cache.totalCap := by
  apply enforceWithin_evicts counted
  omega

/-- What every operation keeps. -/
structure Maintained (cache : CronCache) : Prop where
  counted : cache.Counted
  rings : ∀ systemId state, cache.systems.find? systemId = some state →
    CronSystemState.RingsIn cache.perJob state.jobs

theorem Maintained.evicts (maintained : cache.Maintained) (evicted : cache.Evicts next) :
    next.Maintained ∧ next.totalCap = cache.totalCap ∧ next.perJob = cache.perJob := by
  cases evicted with
  | @oldest victim tooMany isHead least =>
      refine ⟨⟨(counted_evict maintained.counted isHead).1, ?_⟩, rfl, rfl⟩
      intro systemId after found
      simp only [evict, SortedMap.find?_modify] at found
      split at found
      · rcases Option.map_eq_some_iff.mp found with ⟨state, foundState, rfl⟩
        intro name ring foundRing
        simp only [SortedMap.find?_modify] at foundRing
        split at foundRing
        · rcases Option.map_eq_some_iff.mp foundRing with ⟨before, foundBefore, rfl⟩
          exact (maintained.rings _ state foundState _ before foundBefore).tail
        · exact maintained.rings _ state foundState name ring foundRing
      · exact maintained.rings systemId after found

theorem Maintained.evictions (maintained : cache.Maintained)
    (evictions : Relation.ReflTransGen Evicts cache next) :
    next.Maintained ∧ next.totalCap = cache.totalCap ∧ next.perJob = cache.perJob := by
  induction evictions with
  | refl => exact ⟨maintained, rfl, rfl⟩
  | tail _ evicted ih =>
      rcases ih with ⟨before, sameCap, sameDepth⟩
      rcases before.evicts evicted with ⟨after, cap, depth⟩
      exact ⟨after, cap.trans sameCap, depth.trans sameDepth⟩

/-- Changing a system's state within the bounds, and recounting. -/
theorem Maintained.recount_systemMut {change : CronSystemState → CronSystemState}
    (maintained : cache.Maintained)
    (kept : ∀ state, CronSystemState.RingsIn cache.perJob state.jobs →
      CronSystemState.RingsIn cache.perJob (change state).jobs) :
    (cache.systemMut systemId change).recount.Maintained where
  counted := counted_recount
  rings := by
    intro other after found
    simp only [recount, systemMut, SortedMap.find?_upsert] at found
    split at found
    · cases found
      apply kept
      cases before : cache.systems.find? systemId with
      | none => exact CronSystemState.ringsIn_empty
      | some state => exact maintained.rings systemId state before
    · exact maintained.rings other after found

/-- A change that leaves a system's rings alone leaves the counter right. -/
theorem Maintained.systemMut {change : CronSystemState → CronSystemState}
    (maintained : cache.Maintained) (sameJobs : ∀ state, (change state).jobs = state.jobs) :
    (cache.systemMut systemId change).Maintained where
  counted := by
    have sameCount : ∀ state, (change state).recordCount = state.recordCount := by
      intro state
      rw [CronSystemState.recordCount, sameJobs]
      rfl
    have summed : (cache.systemMut systemId change).systems.sum (·.recordCount) +
        (cache.systems.find? systemId).elim 0 (·.recordCount) =
          cache.systems.sum (·.recordCount) +
            (change ((cache.systems.find? systemId).getD .unknown)).recordCount :=
      SortedMap.sum_upsert
    have counted := maintained.counted
    have total : (cache.systemMut systemId change).total = cache.total := rfl
    rw [sameCount] at summed
    unfold Counted at counted ⊢
    cases before : cache.systems.find? systemId with
    | none =>
        have noRecords : CronSystemState.unknown.recordCount = 0 := rfl
        simp only [before, Option.elim_none, Option.getD_none] at summed
        omega
    | some state =>
        simp only [before, Option.elim_some, Option.getD_some] at summed
        omega
  rings := by
    have recounted : (cache.systemMut systemId change).recount.Maintained := by
      apply maintained.recount_systemMut
      intro state rings
      rw [sameJobs]
      exact rings
    exact recounted.rings

theorem Maintained.retain {keep : String → Bool} (maintained : cache.Maintained) :
    (recount { cache with systems := cache.systems.retain keep }).Maintained where
  counted := counted_recount
  rings := by
    intro systemId state found
    simp only [recount, SortedMap.find?_retain] at found
    split at found
    · exact maintained.rings systemId state found
    · cases found

theorem total_retain_le {keep : String → Bool} (maintained : cache.Maintained) :
    (recount { cache with systems := cache.systems.retain keep }).total ≤ cache.total := by
  rw [maintained.counted]
  exact SortedMap.sum_retain_le

/-- A history document merged, before the ceiling is enforced. -/
def merged (cache : CronCache) (systemId : String) (history : SchedulerHistoryV2) : CronCache :=
  recount (cache.systemMut systemId fun state => (state.applyHistory history cache.perJob).1)

theorem applyHistory_eq (cache : CronCache) (systemId : String) (history : SchedulerHistoryV2) :
    (cache.applyHistory systemId history).1 = (cache.merged systemId history).enforceTotal := rfl

theorem Maintained.merged (maintained : cache.Maintained) (history : SchedulerHistoryV2) :
    (cache.merged systemId history).Maintained :=
  maintained.recount_systemMut fun _ rings => CronSystemState.ringsIn_applyHistory rings

/-- The operations the daemon performs on its cache. -/
inductive CronOp where
  | applySummary (systemId : String) (summary : SchedulerSummaryV2) (nowUnixMs : ℕ)
  | applyHistory (systemId : String) (history : SchedulerHistoryV2)
  | resetSystem (systemId : String)
  | retainSystems (live : List String)
  | markFailed (systemId : String) (error : CronFetchError) (nowUnixMs : ℕ)
  | markUnsupported (systemId : String) (nowUnixMs : ℕ)

def step (cache : CronCache) : CronOp → Option CronCache
  | .applySummary systemId summary nowUnixMs => some (cache.applySummary systemId summary nowUnixMs)
  | .applyHistory systemId history => some (cache.applyHistory systemId history).1
  | .resetSystem systemId => some (cache.resetSystem systemId).1
  | .retainSystems live => some (cache.retainSystems live)
  | .markFailed systemId error nowUnixMs =>
      some (cache.systemMut systemId (·.markFailed error nowUnixMs))
  | .markUnsupported systemId nowUnixMs =>
      some (cache.systemMut systemId fun state =>
        { state.markUnsupported with lastAttemptAtUnixMs := some nowUnixMs })

/-- The cache keeps its bounds and its configured limits. -/
structure Bounded (perJob totalCap : ℕ) (cache : CronCache) : Prop where
  maintained : cache.Maintained
  capped : cache.total ≤ cache.totalCap
  depth : cache.perJob = clamp perJob 1 MAX_CACHE_HISTORY
  ceiling : cache.totalCap = clamp totalCap 1 MAX_TOTAL_CRON_RECORDS

theorem bounded_new (perJob totalCap : ℕ) : (new perJob totalCap).Bounded perJob totalCap where
  maintained := ⟨rfl, by
    intro systemId state found
    cases found⟩
  capped := Nat.zero_le _
  depth := rfl
  ceiling := rfl

theorem Bounded.step {perJob totalCap : ℕ} {op : CronOp} (bounded : cache.Bounded perJob totalCap)
    (stepped : cache.step op = some next) : next.Bounded perJob totalCap := by
  have maintained := bounded.maintained
  cases op with
  | applySummary systemId summary nowUnixMs =>
      cases stepped
      exact ⟨maintained.systemMut fun _ => rfl, bounded.capped, bounded.depth, bounded.ceiling⟩
  | applyHistory systemId history =>
      cases stepped
      have mergedMaintained : (cache.merged systemId history).Maintained :=
        maintained.merged history
      rcases enforceTotal_evicts mergedMaintained.counted with ⟨evictions, within⟩
      rcases mergedMaintained.evictions evictions with ⟨after, sameCap, sameDepth⟩
      rw [applyHistory_eq]
      refine ⟨after, ?_, ?_, ?_⟩
      · rw [sameCap]
        exact within
      · rw [sameDepth]
        exact bounded.depth
      · rw [sameCap]
        exact bounded.ceiling
  | resetSystem systemId =>
      cases stepped
      simp only [resetSystem]
      split
      · exact ⟨maintained.retain, Nat.le_trans (total_retain_le maintained) bounded.capped,
          bounded.depth, bounded.ceiling⟩
      · exact bounded
  | retainSystems live =>
      cases stepped
      exact ⟨maintained.retain, Nat.le_trans (total_retain_le maintained) bounded.capped,
        bounded.depth, bounded.ceiling⟩
  | markFailed systemId error nowUnixMs =>
      cases stepped
      exact ⟨maintained.systemMut fun _ => rfl, bounded.capped, bounded.depth, bounded.ceiling⟩
  | markUnsupported systemId nowUnixMs =>
      cases stepped
      exact ⟨maintained.systemMut fun _ => rfl, bounded.capped, bounded.depth, bounded.ceiling⟩

/-- Every finish time in a ring is at least that of the record before it. -/
def FinishOrdered (ring : CronJobCache) : Prop :=
  ring.records.Pairwise fun earlier later =>
    earlier.record.finishedUnixMs ≤ later.record.finishedUnixMs

theorem head_le_of_ordered {ring : CronJobCache} {head record : CronRecord}
    (ordered : FinishOrdered ring) (isHead : ring.records.head? = some head)
    (recordMem : record ∈ ring.records) :
    head.record.finishedUnixMs ≤ record.record.finishedUnixMs := by
  rcases List.head?_eq_some_iff.mp isHead with ⟨rest, records⟩
  rw [FinishOrdered, records] at ordered
  rw [records] at recordMem
  rcases List.mem_cons.mp recordMem with rfl | later
  · exact Nat.le_refl _
  · exact (List.pairwise_cons.mp ordered).1 record later

/-- From rings in the order of their finish times, no retained record finished before the head of
least finish time. -/
theorem finished_le_of_least {victim : OldestRecord} {record : CronRecord}
    (least : ∀ head ∈ cache.heads, victim.le head = true)
    (ordered : ∀ ring ∈ cache.rings, FinishOrdered ring) (recordMem : record ∈ cache.retained) :
    victim.finishedUnixMs ≤ record.record.finishedUnixMs := by
  rcases List.mem_flatMap.mp recordMem with ⟨ring, ringMem, inRing⟩
  rcases head_of_mem_ring ringMem inRing with ⟨head, isHead, other, otherMem, sameFinish⟩
  calc
    victim.finishedUnixMs ≤ other.finishedUnixMs :=
      OldestRecord.finished_le_of_le (least other otherMem)
    _ = head.record.finishedUnixMs := sameFinish
    _ ≤ record.record.finishedUnixMs := head_le_of_ordered (ordered ring ringMem) isHead inRing

/-- One turn of the eviction loop over rings in the order of their finish times. -/
theorem Evicts.removes_oldest {between after : CronCache} (evicts : between.Evicts after)
    (ordered : ∀ ring ∈ between.rings, FinishOrdered ring) :
    ∃ removed, between.retained.Perm (removed :: after.retained) ∧
      ∀ record ∈ between.retained,
        removed.record.finishedUnixMs ≤ record.record.finishedUnixMs := by
  cases evicts with
  | oldest _ isHead least =>
      rcases perm_evict isHead with ⟨removed, sameFinish, leaves⟩
      refine ⟨removed, leaves, ?_⟩
      intro record recordMem
      rw [sameFinish]
      exact finished_le_of_least least ordered recordMem

/-- Over every sequence of operations on a new cache: the counter is the number of retained
records and within the ceiling, every ring is within the per-job depth and free of repeated
records, and the eviction loop of a following merge ends at or below the ceiling. In each of its
turns that finds the rings in the order of their finish times, the one record that it removes
finished no later than any that is retained. -/
theorem bounds_of_run {perJob totalCap : ℕ} {ops : List CronOp}
    (ran : Machine.run step (new perJob totalCap) ops = some cache) :
    cache.total = cache.retained.length ∧
      cache.total ≤ clamp totalCap 1 MAX_TOTAL_CRON_RECORDS ∧
      (∀ ring ∈ cache.rings, ring.records.length ≤ clamp perJob 1 MAX_CACHE_HISTORY ∧
        ring.Distinct) ∧
      ∀ systemId history,
        Relation.ReflTransGen Evicts (cache.merged systemId history)
          (cache.applyHistory systemId history).1 ∧
        (cache.applyHistory systemId history).1.total ≤
          clamp totalCap 1 MAX_TOTAL_CRON_RECORDS ∧
        ∀ between after, Relation.ReflTransGen Evicts (cache.merged systemId history) between →
          between.Evicts after → (∀ ring ∈ between.rings, FinishOrdered ring) →
            ∃ removed, between.retained.Perm (removed :: after.retained) ∧
              ∀ record ∈ between.retained,
                removed.record.finishedUnixMs ≤ record.record.finishedUnixMs := by
  have bounded : cache.Bounded perJob totalCap := by
    apply Machine.run_induction (fun _ cache => cache.Bounded perJob totalCap) ran
    · exact bounded_new perJob totalCap
    · exact fun _ _ _ _ _ before stepped => before.step stepped
  have maintained := bounded.maintained
  refine ⟨?_, ?_, ?_, ?_⟩
  · rw [length_retained]
    exact maintained.counted
  · rw [← bounded.ceiling]
    exact bounded.capped
  · intro ring ringMem
    rcases mem_rings_iff.mp ringMem with ⟨systemId, state, name, foundState, foundRing⟩
    rw [← bounded.depth]
    have inBounds := maintained.rings systemId state foundState name ring foundRing
    exact ⟨inBounds.depth, inBounds.distinct⟩
  · intro systemId history
    rw [applyHistory_eq, ← bounded.ceiling]
    rcases enforceTotal_evicts (maintained.merged history).counted with ⟨evictions, within⟩
    refine ⟨evictions, within, ?_⟩
    intro between after _ evicts ordered
    exact evicts.removes_oldest ordered

/-- A successful run that ends at the given time. -/
def finishedRun (sequence finishedUnixMs : ℕ) : SchedulerRunRecordV2 where
  sequence := sequence
  scheduledUnixMs := finishedUnixMs
  startedUnixMs := some finishedUnixMs
  finishedUnixMs := finishedUnixMs
  outcome := .success
  exitCode := some 0
  signal := none
  durationMs := some 0
  delayMs := 0
  coalesced := false
  stdout := ⟨[], false⟩
  stderr := ⟨[], false⟩

/-- A history of one job, by the sequences and finish times of its runs. -/
def backupHistory (epoch : SchedulerEpochV2) (historyRevision : ℕ) (runs : List (ℕ × ℕ)) :
    SchedulerHistoryV2 where
  schemaVersion := 2
  generatedAtUnixMs := 0
  epoch := epoch
  historyRevision := historyRevision
  jobs := [{ name := "backup", records := runs.map fun run => finishedRun run.1 run.2 }]

/-- Three systems with one record each, under a ceiling of two. -/
def threeSystems : List CronOp :=
  [.applyHistory "alpha" (backupHistory ⟨1, 1⟩ 1 [(1, 9)]),
    .applyHistory "mike" (backupHistory ⟨1, 1⟩ 1 [(1, 8)]),
    .applyHistory "zulu" (backupHistory ⟨1, 1⟩ 1 [(1, 7)])]

theorem bounds_of_run_threeSystems :
    ∃ cache, Machine.run step (new 10 2) threeSystems = some cache ∧
      cache.retained.map (·.record.finishedUnixMs) = [9, 8] ∧ cache.total = cache.retained.length ∧
      ∀ ring ∈ cache.rings, ring.records.length ≤ 10 ∧ ring.Distinct := by
  have ran : (Machine.run step (new 10 2) threeSystems).map
      (·.retained.map (·.record.finishedUnixMs)) = some [9, 8] := by
    decide +kernel
  rcases Option.map_eq_some_iff.mp ran with ⟨cache, ran, kept⟩
  have bounds := bounds_of_run ran
  exact ⟨cache, ran, kept, bounds.1, bounds.2.2.1⟩

/-- The documents of a remote that restarted between two reads and issued sequence one again. -/
def restartedRemote : List SchedulerHistoryV2 :=
  [backupHistory ⟨1000, 1⟩ 1 [(1, 1000)], backupHistory ⟨2000, 2⟩ 1 [(1, 5000)]]

/-- The record of the earlier lifetime stays retained beside the one of the current epoch. -/
theorem earlierEpoch_retained :
    (∀ history ∈ restartedRemote, validateHistory history = []) ∧
      ∃ cache, Machine.run step (new DEFAULT_CACHE_HISTORY MAX_TOTAL_CRON_RECORDS)
          (restartedRemote.map (.applyHistory "sys")) = some cache ∧
        ∃ state, cache.system "sys" = some state ∧ state.epoch = some ⟨2000, 2⟩ ∧
          (state.jobRecords "backup").map (·.epoch) = [⟨1000, 1⟩, ⟨2000, 2⟩] := by
  refine ⟨by decide, ?_⟩
  have ran : ((Machine.run step (new DEFAULT_CACHE_HISTORY MAX_TOTAL_CRON_RECORDS)
      (restartedRemote.map (.applyHistory "sys"))).bind fun cache =>
        (cache.system "sys").map fun state =>
          (state.epoch, (state.jobRecords "backup").map (·.epoch))) =
      some (some ⟨2000, 2⟩, [⟨1000, 1⟩, ⟨2000, 2⟩]) := by
    decide +kernel
  rcases Option.bind_eq_some_iff.mp ran with ⟨cache, ran, found⟩
  rcases Option.map_eq_some_iff.mp found with ⟨state, found, facts⟩
  simp only [Prod.mk.injEq] at facts
  exact ⟨cache, ran, state, found, facts.1, facts.2⟩

end CronCache

end Gregg
