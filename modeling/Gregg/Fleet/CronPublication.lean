import Gregg.Clientd.Intents
import Gregg.Fleet.Reload
import Gregg.Lib.Window
import Mathlib.Order.Bounds.Basic

/-!
# The cron history that is published

The history records are the largest part of a document, so they ride along only for the jobs that
some frontend has open. What the frontends ask for is reduced to one depth for each system and job,
the deepest of them; it does not depend on which of them spoke last.
-/

namespace Gregg.Clientd.CronIntents

open Gregg.Fleet (MAX_DISPLAY_HISTORY)

def values (intents : CronIntents) : List CronIntent :=
  intents.entries.entries.map fun entry => entry.2

/-- The depth a frontend is served. -/
def clampedDepth (intent : CronIntent) : ℕ :=
  clamp intent.displayHistory 1 MAX_DISPLAY_HISTORY

/-- One turn of the loop of `requests`. -/
def reduceIntent (reduced : SortedMap String (SortedMap String ℕ)) (intent : CronIntent) :
    SortedMap String (SortedMap String ℕ) :=
  match intent.systemId, intent.job with
  | some systemId, some job =>
      if job.isEmpty then reduced
      else
        reduced.upsert systemId fun perSystem =>
          (perSystem.getD .empty).upsert job fun slot => max (slot.getD 0) (clampedDepth intent)
  | _, _ => reduced

def reduce (intents : List CronIntent) : SortedMap String (SortedMap String ℕ) :=
  intents.foldl reduceIntent .empty

/-- The reduced depths to publish, by system and job. -/
def requests (intents : CronIntents) : SortedMap String (SortedMap String ℕ) :=
  reduce intents.values

/-- The reduced requests for one system, or an empty set. -/
def requestsFor (intents : CronIntents) (systemId : String) : List (String × ℕ) :=
  ((intents.requests.find? systemId).map (·.entries)).getD []

section Reduction

variable {intents first second : List CronIntent} {intent : CronIntent} {systemId job : String}
  {reduced : SortedMap String (SortedMap String ℕ)}

/-- The jobs of one system that are asked for. -/
def perSystem (reduced : SortedMap String (SortedMap String ℕ)) (systemId : String) :
    SortedMap String ℕ :=
  (reduced.find? systemId).getD .empty

theorem requestsFor_eq (intents : CronIntents) (systemId : String) :
    intents.requestsFor systemId = (perSystem intents.requests systemId).entries := by
  rw [requestsFor, perSystem]
  cases intents.requests.find? systemId <;> rfl

/-- The intent is on this job of this system. -/
structure Names (systemId job : String) (intent : CronIntent) : Prop where
  systemId : intent.systemId = some systemId
  job : intent.job = some job

/-- The depths some intents ask for. -/
def depths (systemId job : String) (asks : CronIntent → Prop) : Set ℕ :=
  {depth | ∃ intent, asks intent ∧ Names systemId job intent ∧ depth = clampedDepth intent}

theorem perSystem_reduceIntent_of_not (notNamed : ¬Names systemId job intent) :
    (perSystem (reduceIntent reduced intent) systemId).find? job =
      (perSystem reduced systemId).find? job := by
  rw [reduceIntent]
  split
  · rename_i otherSystem otherJob isSystem isJob
    split
    · rfl
    · rw [perSystem, SortedMap.find?_upsert]
      split
      · rename_i sameSystem
        have otherName : job ≠ otherJob := by
          rintro rfl
          exact notNamed ⟨sameSystem ▸ isSystem, isJob⟩
        rw [Option.getD_some, SortedMap.find?_upsert, if_neg otherName, sameSystem]
        rfl
      · rfl
  · rfl

theorem perSystem_reduceIntent_of_names (named : Names systemId job intent) (hasName : job ≠ "") :
    (perSystem (reduceIntent reduced intent) systemId).find? job =
      some (max (((perSystem reduced systemId).find? job).getD 0) (clampedDepth intent)) := by
  have notEmpty : job.isEmpty = false := by
    rw [Bool.eq_false_iff]
    exact fun isEmpty => hasName (String.isEmpty_iff.mp isEmpty)
  rw [reduceIntent, named.systemId, named.job]
  simp only [notEmpty, Bool.false_eq_true, if_false]
  rw [perSystem, SortedMap.find?_upsert_self, Option.getD_some, SortedMap.find?_upsert_self]
  rfl

theorem perSystem_reduceIntent_empty :
    (perSystem (reduceIntent reduced intent) systemId).find? "" =
      (perSystem reduced systemId).find? "" := by
  rw [reduceIntent]
  split
  · rename_i otherSystem otherJob isSystem isJob
    split
    · rfl
    · rename_i notEmpty
      have otherName : "" ≠ otherJob := by
        rintro rfl
        exact notEmpty rfl
      rw [perSystem, SortedMap.find?_upsert]
      split
      · rename_i sameSystem
        rw [Option.getD_some, SortedMap.find?_upsert, if_neg otherName, sameSystem]
        rfl
      · rfl
  · rfl

/-- What is asked for a job is the deepest of the depths, and nothing where no intent names it. -/
theorem find?_reduce (intents : List CronIntent) (hasName : job ≠ "") :
    (∀ depth, (perSystem (reduce intents) systemId).find? job = some depth →
      IsGreatest (depths systemId job (· ∈ intents)) depth) ∧
    ((perSystem (reduce intents) systemId).find? job = none →
      ∀ intent ∈ intents, ¬Names systemId job intent) := by
  induction intents using List.reverseRecOn with
  | nil =>
      refine ⟨?_, fun _ intent isMember => absurd isMember List.not_mem_nil⟩
      rintro depth ⟨⟩
  | append_singleton intents intent ih =>
      rw [reduce, List.foldl_append, List.foldl_cons, List.foldl_nil, ← reduce]
      by_cases named : Names systemId job intent
      · rw [perSystem_reduceIntent_of_names named hasName]
        refine ⟨?_, fun impossible => absurd impossible (Option.some_ne_none _)⟩
        rintro depth ⟨⟩
        constructor
        · cases before : (perSystem (reduce intents) systemId).find? job with
          | none =>
              refine ⟨intent, by simp, named, ?_⟩
              rw [Option.getD_none, Nat.zero_max]
          | some deepest =>
              rw [Option.getD_some]
              rcases Nat.le_total deepest (clampedDepth intent) with deeper | shallower
              · exact ⟨intent, by simp, named, max_eq_right deeper⟩
              · rcases (ih.1 deepest before).1 with ⟨other, isMember, otherNamed, isDeepest⟩
                refine ⟨other, List.mem_append_left _ isMember, otherNamed, ?_⟩
                rw [max_eq_left shallower, isDeepest]
        · rintro depth ⟨other, isMember, otherNamed, rfl⟩
          rcases List.mem_append.mp isMember with earlier | isLast
          · cases before : (perSystem (reduce intents) systemId).find? job with
            | none => exact absurd otherNamed (ih.2 before other earlier)
            | some deepest =>
                exact ((ih.1 deepest before).2 ⟨other, earlier, otherNamed, rfl⟩).trans
                  (le_max_left _ _)
          · rw [List.mem_singleton.mp isLast]
            exact le_max_right _ _
      · rw [perSystem_reduceIntent_of_not named]
        have sameDepths : depths systemId job (· ∈ intents ++ [intent]) =
            depths systemId job (· ∈ intents) := by
          ext depth
          constructor
          · rintro ⟨other, isMember, otherNamed, isDepth⟩
            rcases List.mem_append.mp isMember with earlier | isLast
            · exact ⟨other, earlier, otherNamed, isDepth⟩
            · rw [List.mem_singleton.mp isLast] at otherNamed
              exact absurd otherNamed named
          · rintro ⟨other, earlier, otherNamed, isDepth⟩
            exact ⟨other, List.mem_append_left _ earlier, otherNamed, isDepth⟩
        rw [sameDepths]
        refine ⟨ih.1, ?_⟩
        intro nothing other isMember
        rcases List.mem_append.mp isMember with earlier | isLast
        · exact ih.2 nothing other earlier
        · rw [List.mem_singleton.mp isLast]
          exact named

theorem find?_reduce_empty (intents : List CronIntent) :
    (perSystem (reduce intents) systemId).find? "" = none := by
  induction intents using List.reverseRecOn with
  | nil => rfl
  | append_singleton intents intent ih =>
      rw [reduce, List.foldl_append, List.foldl_cons, List.foldl_nil, ← reduce,
        perSystem_reduceIntent_empty, ih]

/-- In which order the map yields its values does not matter. -/
theorem perSystem_reduce_congr (same : ∀ intent, intent ∈ first ↔ intent ∈ second) :
    perSystem (reduce first) systemId = perSystem (reduce second) systemId := by
  apply SortedMap.ext_find?
  intro job
  by_cases isEmpty : job = ""
  · rw [isEmpty, find?_reduce_empty, find?_reduce_empty]
  · have sameAsks : (· ∈ first) = (· ∈ second) := funext fun intent => propext (same intent)
    rcases @find?_reduce systemId job first isEmpty with ⟨firstDeepest, firstNothing⟩
    rcases @find?_reduce systemId job second isEmpty with ⟨secondDeepest, secondNothing⟩
    cases inFirst : (perSystem (reduce first) systemId).find? job with
    | none =>
        cases inSecond : (perSystem (reduce second) systemId).find? job with
        | none => rfl
        | some depth =>
            rcases (secondDeepest depth inSecond).1 with ⟨intent, isMember, named, -⟩
            exact absurd named (firstNothing inFirst intent ((same intent).mpr isMember))
    | some depth =>
        have isDeepest := firstDeepest depth inFirst
        cases inSecond : (perSystem (reduce second) systemId).find? job with
        | none =>
            rcases isDeepest.1 with ⟨intent, isMember, named, -⟩
            exact absurd named (secondNothing inSecond intent ((same intent).mp isMember))
        | some other =>
            rw [sameAsks] at isDeepest
            rw [isDeepest.unique (secondDeepest other inSecond)]

end Reduction

end Gregg.Clientd.CronIntents

namespace Gregg

namespace CronSystemState

/-- The newest `depth` records for one job, oldest first. -/
def recent (state : CronSystemState) (name : String) (depth : ℕ) : List CronRecord :=
  let records := state.jobRecords name
  if records.length ≤ depth then records else records.drop (records.length - depth)

theorem recent_eq_newest (state : CronSystemState) (name : String) (depth : ℕ) :
    state.recent name depth =
      Window.newest (min depth (state.jobRecords name).length) (state.jobRecords name) := by
  rw [recent]
  split
  · rename_i all
    rw [min_eq_right all, Window.newest_eq_self (Nat.le_refl _)]
  · rename_i deeper
    rw [min_eq_left (Nat.le_of_not_le deeper), Window.newest]

end CronSystemState

namespace CronCache

variable {cache next : CronCache} {ops : List CronOp} {perJob totalCap : ℕ}

/-- No ring has the empty name. -/
def Nonempty (cache : CronCache) : Prop :=
  ∀ systemId, ∀ state ∈ cache.system systemId, state.jobs.find? "" = none

theorem Nonempty.systemMut {systemId : String} {change : CronSystemState → CronSystemState}
    (nonempty : cache.Nonempty) (keeps : ∀ state : CronSystemState, state.jobs.find? "" = none →
      (change state).jobs.find? "" = none) : (cache.systemMut systemId change).Nonempty := by
  intro other state found
  rw [Option.mem_def, system, CronCache.systemMut, SortedMap.find?_upsert] at found
  split at found
  · cases found
    apply keeps
    cases before : cache.systems.find? systemId with
    | none => rfl
    | some held => exact nonempty systemId held before
  · exact nonempty other state found

theorem Nonempty.retain {keep : String → Bool} (nonempty : cache.Nonempty) :
    (recount { cache with systems := cache.systems.retain keep }).Nonempty := by
  intro other state found
  rw [Option.mem_def, system, recount, SortedMap.find?_retain] at found
  split at found
  · exact nonempty other state found
  · cases found

theorem Nonempty.enforceWithin {turns : ℕ} (nonempty : cache.Nonempty) :
    (enforceWithin turns cache).Nonempty := by
  induction turns generalizing cache with
  | zero => exact nonempty
  | succ turns ih =>
      rw [CronCache.enforceWithin]
      split
      · split
        · exact nonempty
        · apply ih
          intro other state found
          rw [Option.mem_def, system, evict, SortedMap.find?_modify] at found
          split at found
          · rcases Option.map_eq_some_iff.mp found with ⟨held, isHeld, rfl⟩
            have noRing := nonempty _ held isHeld
            rw [SortedMap.find?_modify]
            split
            · rename_i isVictim
              rw [← isVictim, noRing, Option.map_none]
            · exact noRing
          · exact nonempty other state found
      · exact nonempty

end CronCache

namespace CronSystemState

theorem find?_empty_applyHistory {state : CronSystemState} {history : SchedulerHistoryV2}
    {perJob : ℕ} (nonempty : state.jobs.find? "" = none) :
    (state.applyHistory history perJob).1.jobs.find? "" = none := by
  have merged : ∀ (jobs : List SchedulerJobHistoryV2)
      (first : SortedMap String CronJobCache × Bool), first.1.find? "" = none →
        (jobs.foldl (mergeJob history.epoch perJob) first).1.find? "" = none := by
    intro jobs
    induction jobs with
    | nil => exact fun _ held => held
    | cons job rest ih =>
        intro first held
        apply ih
        rw [mergeJob]
        split
        · exact held
        · rename_i kept
          rw [SortedMap.find?_upsert, if_neg, held]
          rintro isName
          rw [← isName] at kept
          exact kept rfl
  cases found : (state.applyHistory history perJob).1.jobs.find? "" with
  | none => rfl
  | some ring =>
      have before := find?_evictStaleJobs found
      exact absurd before (by simp [merged history.jobs (state.jobs, false) nonempty])

end CronSystemState

namespace CronCache

variable {cache next : CronCache} {ops : List CronOp} {perJob totalCap : ℕ}

theorem Nonempty.step {op : CronOp} (nonempty : cache.Nonempty)
    (stepped : cache.step op = some next) : next.Nonempty := by
  cases op with
  | applySummary systemId summary nowUnixMs =>
      cases stepped
      exact nonempty.systemMut fun _ held => held
  | applyHistory systemId history =>
      cases stepped
      have merged : (cache.merged systemId history).Nonempty := by
        intro other state found
        exact nonempty.systemMut (fun _ => CronSystemState.find?_empty_applyHistory) other state
          found
      rw [applyHistory_eq]
      exact merged.enforceWithin
  | resetSystem systemId =>
      cases stepped
      rw [resetSystem]
      split
      · exact nonempty.retain
      · exact nonempty
  | retainSystems live =>
      cases stepped
      exact nonempty.retain
  | markFailed systemId error nowUnixMs | markUnsupported systemId nowUnixMs =>
      cases stepped
      exact nonempty.systemMut fun _ held => held

theorem nonempty_of_run (ran : Machine.run step (new perJob totalCap) ops = some cache) :
    cache.Nonempty := by
  apply Machine.run_induction (fun _ cache => cache.Nonempty) ran
  · rintro systemId state ⟨⟩
  · exact fun _ _ _ _ _ before stepped => before.step stepped

end CronCache

end Gregg

namespace Gregg.Fleet

open Clientd (CronIntent CronIntents)
open Clientd.CronIntents (Names depths perSystem reduce)

structure CronJobHistoryDto where
  job : String
  records : List CronRecord

/-- One system's scheduler observability, as published. -/
structure SystemCronDto where
  systemId : String
  capability : CronCapability
  summary : Option SchedulerSummaryV2
  epoch : Option SchedulerEpochV2
  historyRevision : Option ℕ
  lastAttemptAtUnixMs : Option ℕ
  lastSuccessAtUnixMs : Option ℕ
  lastError : Option CronFetchError
  history : List CronJobHistoryDto

/-- The records of a job that ride along. -/
def SystemCronDto.recordsOf (dto : SystemCronDto) (job : String) : List CronRecord :=
  ((dto.history.find? fun entry => entry.job = job).map (·.records)).getD []

section Projection

variable {Snapshot Reason Entry Summary Health : Type}

/-- The history of one system for what is asked of it; a job without records is left out. -/
def historyFor (state : CronSystemState) (requests : List (String × ℕ)) : List CronJobHistoryDto :=
  (requests.map fun (job, depth) =>
    { job, records := state.recent job depth : CronJobHistoryDto }).filter
      fun entry => !entry.records.isEmpty

/-- The scheduler part of `to_dto_for`, the only one that depends on the intents. -/
def FleetState.cronToDto (fleet : FleetState Snapshot Reason Entry Summary Health)
    (intents : CronIntents) : List SystemCronDto :=
  fleet.systems.map fun system =>
    let state := fleet.cron.system system.id
    { systemId := system.id
      capability := (state.map (·.capability)).getD .unknown
      summary := state.bind (·.summary)
      epoch := state.bind (·.epoch)
      historyRevision := state.bind (·.historyRevision)
      lastAttemptAtUnixMs := state.bind (·.lastAttemptAtUnixMs)
      lastSuccessAtUnixMs := state.bind (·.lastSuccessAtUnixMs)
      lastError := state.bind (·.lastError)
      history :=
        (state.map fun state => historyFor state (intents.requestsFor system.id)).getD [] }

end Projection

/-- A call that changes the intents. -/
inductive IntentCall where
  | set (id : ℕ) (intent : CronIntent)
  | remove (id : ℕ)
  deriving DecidableEq

namespace IntentCall

def subscriber : IntentCall → ℕ
  | set id _ => id
  | remove id => id

def apply (intents : CronIntents) : IntentCall → CronIntents
  | set id intent => (intents.set id intent).1
  | remove id => intents.remove id

/-- The intents after some calls. -/
def after (calls : List IntentCall) : CronIntents :=
  calls.foldl apply .empty

/-- What a call leaves as its subscriber's intent. -/
def intent : IntentCall → Option CronIntent
  | set _ intent => some intent
  | remove _ => none

/-- The intent of the last call of a subscriber. -/
def current (calls : List IntentCall) (id : ℕ) : Option CronIntent :=
  ((calls.filter fun call => call.subscriber = id).getLast?).bind intent

variable {calls : List IntentCall} {id : ℕ}

theorem get_apply (intents : CronIntents) (call : IntentCall) :
    (apply intents call).get id =
      if call.subscriber = id then call.intent else intents.get id := by
  cases call with
  | set other value =>
      rw [apply, subscriber]
      split
      · rename_i same
        rw [← same, CronIntents.get_set]
        rfl
      · rename_i different
        exact CronIntents.get_set_ne (Ne.symm different)
  | remove other =>
      rw [apply, subscriber]
      split
      · rename_i same
        rw [← same, CronIntents.get_remove]
        rfl
      · rename_i different
        exact CronIntents.get_remove_ne (Ne.symm different)

theorem after_append_singleton (calls : List IntentCall) (call : IntentCall) :
    after (calls ++ [call]) = apply (after calls) call := by
  rw [after, List.foldl_append]
  rfl

theorem current_append_singleton (calls : List IntentCall) (call : IntentCall) (id : ℕ) :
    current (calls ++ [call]) id =
      if call.subscriber = id then call.intent else current calls id := by
  rw [current, current, List.filter_append]
  split
  · rename_i same
    rw [List.filter_singleton, decide_eq_true same, cond_true, List.getLast?_append]
    rfl
  · rename_i different
    rw [List.filter_singleton, decide_eq_false different, cond_false, List.append_nil]

/-- The set holds what each subscriber called last. -/
theorem get_after (calls : List IntentCall) (id : ℕ) : (after calls).get id = current calls id := by
  induction calls using List.reverseRecOn with
  | nil => exact CronIntents.get_empty
  | append_singleton calls call ih =>
      rw [after_append_singleton, get_apply, ih, current_append_singleton]

theorem mem_values_after {intent : CronIntent} :
    intent ∈ (after calls).values ↔ ∃ id, current calls id = some intent := by
  rw [CronIntents.values, List.mem_map]
  constructor
  · rintro ⟨⟨id, held⟩, isEntry, rfl⟩
    refine ⟨id, ?_⟩
    rw [← get_after]
    exact AList.mem_lookup_iff.mpr isEntry
  · rintro ⟨id, isCurrent⟩
    rw [← get_after] at isCurrent
    exact ⟨⟨id, intent⟩, AList.mem_lookup_iff.mp isCurrent, rfl⟩

theorem revision_apply (intents : CronIntents) (call : IntentCall) :
    (apply intents call).revision = satAdd intents.revision 1 := by
  cases call <;> rfl

/-- The revision counts the calls, as far as it goes. -/
theorem revision_after (calls : List IntentCall) :
    (after calls).revision = min calls.length u64Max := by
  induction calls using List.reverseRecOn with
  | nil => rfl
  | append_singleton calls call ih =>
      rw [after_append_singleton, revision_apply, ih, satAdd, List.length_append,
        List.length_singleton]
      omega

end IntentCall

section History

variable {state : CronSystemState} {requests : SortedMap String ℕ} {job : String}

theorem mem_historyFor {entry : CronJobHistoryDto} :
    entry ∈ historyFor state requests.entries ↔ ∃ depth, requests.find? entry.job = some depth ∧
      entry.records = state.recent entry.job depth ∧ entry.records ≠ [] := by
  rw [historyFor, List.mem_filter, List.mem_map]
  constructor
  · rintro ⟨⟨⟨name, depth⟩, isRequest, rfl⟩, kept⟩
    refine ⟨depth, SortedMap.find?_eq_some_iff.mpr isRequest, rfl, ?_⟩
    intro isEmpty
    rw [isEmpty] at kept
    cases kept
  · rintro ⟨depth, isRequest, isRecent, notEmpty⟩
    refine ⟨⟨(entry.job, depth), SortedMap.find?_eq_some_iff.mp isRequest, ?_⟩, ?_⟩
    · exact congrArg (CronJobHistoryDto.mk entry.job) isRecent.symm
    · rw [Bool.not_eq_true', List.isEmpty_eq_false_iff]
      exact notEmpty

/-- Each job has at most one entry. -/
theorem nodup_historyFor : ((historyFor state requests.entries).map (·.job)).Nodup := by
  rw [historyFor]
  refine List.Nodup.sublist (List.filter_sublist.map _) ?_
  rw [List.map_map]
  exact requests.nodup_keys

theorem recordsOf_historyFor {dto : SystemCronDto}
    (isHistory : dto.history = historyFor state requests.entries) :
    dto.recordsOf job = ((requests.find? job).map (state.recent job)).getD [] := by
  rw [SystemCronDto.recordsOf, isHistory]
  cases found : (historyFor state requests.entries).find? fun entry => entry.job = job with
  | none =>
      rw [List.find?_eq_none] at found
      cases asked : requests.find? job with
      | none => rfl
      | some depth =>
          by_contra notEmpty
          have isEntry : (⟨job, state.recent job depth⟩ : CronJobHistoryDto) ∈
              historyFor state requests.entries :=
            mem_historyFor.mpr ⟨depth, asked, rfl, fun isEmpty => notEmpty isEmpty.symm⟩
          exact found _ isEntry (decide_eq_true rfl)
  | some entry =>
      have isJob : entry.job = job := by simpa using List.find?_some found
      rcases mem_historyFor.mp (List.mem_of_find?_eq_some found) with ⟨depth, asked, isRecent, -⟩
      rw [isJob] at asked isRecent
      rw [asked, Option.map_some, Option.map_some, Option.getD_some, Option.getD_some, isRecent]

end History

section Union

variable {Snapshot Reason Entry Summary Health : Type}
  {fleet : FleetState Snapshot Reason Entry Summary Health} {calls other : List IntentCall}
  {ops : List CronCache.CronOp} {perJob totalCap : ℕ}

/-- Records retained for a job of a system, oldest first. -/
def retained (fleet : FleetState Snapshot Reason Entry Summary Health) (systemId job : String) :
    List CronRecord :=
  ((fleet.cron.system systemId).map (·.jobRecords job)).getD []

/-- The depths the current intents ask for. -/
def currentDepths (asks : ℕ → Option CronIntent) (systemId job : String) : Set ℕ :=
  depths systemId job fun intent => ∃ id, asks id = some intent

/-- A document carries what the current intents name, and nothing else. -/
structure PublishesUnion (fleet : FleetState Snapshot Reason Entry Summary Health)
    (asks : ℕ → Option CronIntent) (cron : List SystemCronDto) : Prop where
  systems : cron.map (·.systemId) = fleet.systems.map (·.id)
  jobs : ∀ dto ∈ cron, (dto.history.map (·.job)).Nodup
  records : ∀ dto ∈ cron, ∀ job deepest, IsGreatest (currentDepths asks dto.systemId job) deepest →
    dto.recordsOf job =
      Window.newest (min deepest (retained fleet dto.systemId job).length)
        (retained fleet dto.systemId job)
  nothing : ∀ dto ∈ cron, ∀ entry ∈ dto.history, ∃ id intent, asks id = some intent ∧
    Names dto.systemId entry.job intent

theorem requests_after (systemId : String) :
    (IntentCall.after calls).requestsFor systemId =
      (perSystem (reduce (IntentCall.after calls).values) systemId).entries :=
  CronIntents.requestsFor_eq _ _

theorem depths_after (systemId job : String) :
    depths systemId job (· ∈ (IntentCall.after calls).values) =
      currentDepths (IntentCall.current calls) systemId job := by
  have sameAsks : (· ∈ (IntentCall.after calls).values) =
      fun intent => ∃ id, IntentCall.current calls id = some intent :=
    funext fun intent => propext IntentCall.mem_values_after
  rw [currentDepths, sameAsks]

/-- The history of a system the cache knows, and nothing of another. -/
theorem history_cases {dto : SystemCronDto}
    (isDto : dto ∈ fleet.cronToDto (IntentCall.after calls)) :
    (∃ state, fleet.cron.system dto.systemId = some state ∧
        dto.history = historyFor state
          (perSystem (reduce (IntentCall.after calls).values) dto.systemId).entries) ∨
      fleet.cron.system dto.systemId = none ∧ dto.history = [] := by
  rcases List.mem_map.mp isDto with ⟨system, -, rfl⟩
  simp only [requests_after]
  cases known : fleet.cron.system system.id with
  | none => exact .inr ⟨rfl, rfl⟩
  | some state => exact .inl ⟨state, rfl, rfl⟩

theorem publishesUnion_after
    (ran : Machine.run CronCache.step (CronCache.new perJob totalCap) ops = some fleet.cron) :
    PublishesUnion fleet (IntentCall.current calls)
      (fleet.cronToDto (IntentCall.after calls)) := by
  refine ⟨?_, ?_, ?_, ?_⟩
  · rw [FleetState.cronToDto, List.map_map]
    rfl
  · intro dto isDto
    rcases history_cases isDto with ⟨state, -, isHistory⟩ | ⟨-, isHistory⟩
    · rw [isHistory]
      exact nodup_historyFor
    · rw [isHistory]
      exact List.nodup_nil
  · intro dto isDto job deepest isDeepest
    rcases history_cases isDto with ⟨state, known, isHistory⟩ | ⟨unknown, isHistory⟩
    · have isRetained : retained fleet dto.systemId job = state.jobRecords job := by
        rw [retained, known]
        rfl
      rw [recordsOf_historyFor isHistory, isRetained]
      by_cases isEmpty : job = ""
      · have noRing := CronCache.nonempty_of_run ran dto.systemId state known
        have noRecords : state.jobRecords "" = [] := by
          rw [CronSystemState.jobRecords, noRing]
          rfl
        rw [isEmpty, CronIntents.find?_reduce_empty, noRecords, Window.newest, List.drop_nil]
        rfl
      · rcases @CronIntents.find?_reduce dto.systemId job (IntentCall.after calls).values isEmpty
          with ⟨isGreatest, isNothing⟩
        rw [depths_after] at isGreatest
        cases asked :
            (perSystem (reduce (IntentCall.after calls).values) dto.systemId).find? job with
        | none =>
            rcases isDeepest.1 with ⟨intent, isCurrent, named, -⟩
            exact absurd named
              (isNothing asked intent (IntentCall.mem_values_after.mpr isCurrent))
        | some depth =>
            rw [(isGreatest depth asked).unique isDeepest, Option.map_some, Option.getD_some]
            exact state.recent_eq_newest job deepest
    · have isRetained : retained fleet dto.systemId job = [] := by
        rw [retained, unknown]
        rfl
      rw [SystemCronDto.recordsOf, isHistory, isRetained, Window.newest, List.drop_nil]
      rfl
  · intro dto isDto entry isEntry
    rcases history_cases isDto with ⟨state, -, isHistory⟩ | ⟨-, isHistory⟩
    · rw [isHistory] at isEntry
      rcases mem_historyFor.mp isEntry with ⟨depth, asked, -, -⟩
      by_cases isEmpty : entry.job = ""
      · rw [isEmpty, CronIntents.find?_reduce_empty] at asked
        cases asked
      · rcases @CronIntents.find?_reduce dto.systemId entry.job (IntentCall.after calls).values
          isEmpty with ⟨isGreatest, -⟩
        rcases (isGreatest depth asked).1 with ⟨intent, isMember, named, -⟩
        rcases IntentCall.mem_values_after.mp isMember with ⟨id, isCurrent⟩
        exact ⟨id, intent, isCurrent, named⟩
    · rw [isHistory] at isEntry
      cases isEntry

/-- Only what each subscriber called last decides what is projected. -/
theorem cronToDto_congr (same : ∀ id, IntentCall.current calls id = IntentCall.current other id) :
    fleet.cronToDto (IntentCall.after calls) = fleet.cronToDto (IntentCall.after other) := by
  have sameRequests : ∀ systemId, (IntentCall.after calls).requestsFor systemId =
      (IntentCall.after other).requestsFor systemId := by
    intro systemId
    rw [requests_after, requests_after]
    refine congrArg _ (CronIntents.perSystem_reduce_congr fun intent => ?_)
    rw [IntentCall.mem_values_after, IntentCall.mem_values_after]
    simp only [same]
  rw [FleetState.cronToDto, FleetState.cronToDto]
  simp only [sameRequests]

/-- The published history is the union of what is looked at, whatever the order of the subscribers,
and a call that changes it is told from none as long as the revision counts. -/
theorem publishesUnion_of_run
    (ran : Machine.run CronCache.step (CronCache.new perJob totalCap) ops = some fleet.cron) :
    PublishesUnion fleet (IntentCall.current calls) (fleet.cronToDto (IntentCall.after calls)) ∧
      (∀ other, (∀ id, calls.filter (fun call => call.subscriber = id) =
          other.filter fun call => call.subscriber = id) →
        fleet.cronToDto (IntentCall.after other) = fleet.cronToDto (IntentCall.after calls)) ∧
      ∀ call, calls.length < u64Max →
        fleet.cronToDto (IntentCall.after (calls ++ [call])) ≠
          fleet.cronToDto (IntentCall.after calls) →
        (IntentCall.after (calls ++ [call])).revision ≠ (IntentCall.after calls).revision := by
  refine ⟨publishesUnion_after ran, ?_, ?_⟩
  · intro other sameCalls
    apply cronToDto_congr
    intro id
    rw [IntentCall.current, IntentCall.current, sameCalls]
  · intro call counts _
    rw [IntentCall.revision_after, IntentCall.revision_after, List.length_append,
      List.length_singleton]
    omega

end Union

section Saturation

/-- One system with two records of one job. -/
def watchedFleet : FleetState Unit Unit Unit Unit Unit :=
  { FleetState.fromConfig FleetState.oneBox with
    cron := ((CronCache.new 10 10).applyHistory "sys-a"
      (CronCache.backupHistory ⟨1, 1⟩ 1 [(1, 9), (2, 10)])).1 }

/-- A frontend that shows one record of the job. -/
def backupPane : CronIntent where
  systemId := some "sys-a"
  job := some "backup"
  displayHistory := 1

theorem run_watchedFleet : Machine.run CronCache.step (CronCache.new 10 10)
    [.applyHistory "sys-a" (CronCache.backupHistory ⟨1, 1⟩ 1 [(1, 9), (2, 10)])] =
      some watchedFleet.cron :=
  rfl

/-- A frontend that shows two records of it. -/
def deepBackupPane : CronIntent where
  systemId := some "sys-a"
  job := some "backup"
  displayHistory := 2

/-- The second frontend reaches deeper than the first, and the projection goes as deep as either. -/
theorem publishesUnion_watchedFleet :
    let calls := [IntentCall.set 1 backupPane, .set 2 deepBackupPane]
    (watchedFleet.cronToDto (IntentCall.after (calls.take 1))).map (fun dto =>
        (dto.recordsOf "backup").map (·.record.sequence)) = [[2]] ∧
      (watchedFleet.cronToDto (IntentCall.after calls)).map (fun dto =>
        (dto.recordsOf "backup").map (·.record.sequence)) = [[1, 2]] ∧
      PublishesUnion watchedFleet (IntentCall.current calls)
        (watchedFleet.cronToDto (IntentCall.after calls)) :=
  ⟨by decide +kernel, by decide +kernel, (publishesUnion_of_run run_watchedFleet).1⟩

theorem current_replicate_remove (count id : ℕ) :
    IntentCall.current (List.replicate count (.remove 0)) id = none := by
  rw [IntentCall.current]
  cases isLast : ((List.replicate count (IntentCall.remove 0)).filter
      fun call => call.subscriber = id).getLast? with
  | none => rfl
  | some call =>
      have isMember := (List.mem_filter.mp (List.mem_of_getLast? isLast)).1
      rw [List.eq_of_mem_replicate isMember]
      rfl

/-- After as many calls as the revision can count, a pane that opens changes what is projected and
not the revision. -/
theorem revision_shared_by_saturated_calls : ∃ calls call,
    watchedFleet.cronToDto (IntentCall.after (calls ++ [call])) ≠
        watchedFleet.cronToDto (IntentCall.after calls) ∧
      (IntentCall.after (calls ++ [call])).revision = (IntentCall.after calls).revision := by
  refine ⟨List.replicate u64Max (.remove 0), .set 1 backupPane, ?_, ?_⟩
  · have noneBefore : watchedFleet.cronToDto
        (IntentCall.after (List.replicate u64Max (.remove 0))) =
          watchedFleet.cronToDto (IntentCall.after []) :=
      cronToDto_congr fun id => current_replicate_remove u64Max id
    have oneAfter : watchedFleet.cronToDto
        (IntentCall.after (List.replicate u64Max (.remove 0) ++ [.set 1 backupPane])) =
          watchedFleet.cronToDto (IntentCall.after [.set 1 backupPane]) := by
      apply cronToDto_congr
      intro id
      have alone := IntentCall.current_append_singleton [] (.set 1 backupPane) id
      rw [List.nil_append] at alone
      rw [IntentCall.current_append_singleton, current_replicate_remove, alone]
      rfl
    rw [noneBefore, oneAfter]
    intro same
    have sameCounts := congrArg (List.map fun dto => dto.history.length) same
    revert sameCounts
    decide +kernel
  · rw [IntentCall.revision_after, IntentCall.revision_after, List.length_append,
      List.length_replicate]
    omega

end Saturation

end Gregg.Fleet
