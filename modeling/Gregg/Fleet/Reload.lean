import Gregg.Fleet.State

/-!
# Reloading the configuration

What an accepted reload makes of the fleet: the configured systems in the configured order, those
that kept their target with everything known about them, the others new. Two settings are read when
the fleet is made and never again.
-/

namespace Gregg

namespace CronCache

variable {cache : CronCache} {systemId other : String}

/-- What recounting and every eviction keep, the eviction loop keeps. -/
theorem enforceTotal_of_kept (holds : CronCache → Prop) (initially : holds cache)
    (recounted : ∀ cache, holds cache → holds cache.recount)
    (evicted : ∀ cache victim, holds cache → holds (cache.evict victim)) :
    holds cache.enforceTotal := by
  have everyBound : ∀ turns cache, holds cache → holds (enforceWithin turns cache) := by
    intro turns
    induction turns with
    | zero => exact fun _ held => held
    | succ turns ih =>
        intro cache held
        simp only [enforceWithin]
        split
        · split
          · exact recounted cache held
          · exact ih _ (evicted cache _ held)
        · exact held
  exact everyBound _ cache initially

theorem system_systemMut {change : CronSystemState → CronSystemState} :
    (cache.systemMut systemId change).system other =
      if other = systemId then some (change ((cache.system systemId).getD .unknown))
      else cache.system other := SortedMap.find?_upsert

theorem system_merged {history : SchedulerHistoryV2} :
    (cache.merged systemId history).system other =
      if other = systemId then
        some (((cache.system systemId).getD .unknown).applyHistory history cache.perJob).1
      else cache.system other := SortedMap.find?_upsert

theorem system_evict {victim : OldestRecord} :
    (cache.evict victim).system other =
      if other = victim.system then
        (cache.system victim.system).map fun system =>
          { system with
            jobs := system.jobs.modify victim.job fun job => { records := job.records.tail } }
      else cache.system other := SortedMap.find?_modify

theorem system_retainSystems {live : List String} :
    (cache.retainSystems live).system other =
      if other ∈ live then cache.system other else none := by
  have retained : (cache.retainSystems live).system other =
      if live.contains other then cache.system other else none := SortedMap.find?_retain
  simpa using retained

theorem system_resetSystem :
    (cache.resetSystem systemId).1.system other =
      if other = systemId then none else cache.system other := by
  simp only [resetSystem]
  split
  · have retained : (recount { cache with
        systems := cache.systems.retain (· ≠ systemId) }).system other =
        if decide (other ≠ systemId) then cache.system other else none := SortedMap.find?_retain
    rw [retained]
    by_cases isReset : other = systemId <;> simp [isReset]
  · rename_i absent
    split
    · rename_i isReset
      rw [isReset]
      simpa using absent
    · rfl

theorem perJob_resetSystem : (cache.resetSystem systemId).1.perJob = cache.perJob := by
  simp only [resetSystem]
  split <;> rfl

theorem isSome_system_enforceTotal :
    (cache.enforceTotal.system other).isSome = (cache.system other).isSome := by
  apply enforceTotal_of_kept fun evicting =>
    (evicting.system other).isSome = (cache.system other).isSome
  · rfl
  · exact fun _ held => held
  · intro evicting victim held
    rw [← held, system_evict]
    split
    · rename_i isVictim
      rw [Option.isSome_map, isVictim]
    · rfl

/-- A merge brings in no system but its own. -/
theorem isSome_system_applyHistory {history : SchedulerHistoryV2} :
    ((cache.applyHistory systemId history).1.system other).isSome =
      (decide (other = systemId) || (cache.system other).isSome) := by
  rw [applyHistory_eq, isSome_system_enforceTotal, system_merged]
  split <;> rename_i isSystem <;> simp [isSystem]

theorem isSome_system_systemMut {change : CronSystemState → CronSystemState} :
    ((cache.systemMut systemId change).system other).isSome =
      (decide (other = systemId) || (cache.system other).isSome) := by
  rw [system_systemMut]
  split <;> rename_i isSystem <;> simp [isSystem]

end CronCache

namespace Fleet

open Clientd (SystemEntry Endpoint EggpoolState)

section Observations

variable {observation : CronObservation} {cache : CronCache} {other : String}

theorem apply_fst : (observation.apply cache).1 = (observation.record cache).1 := by
  simp only [CronObservation.apply]
  split <;> rfl

theorem isSome_system_recordHistory :
    ((observation.recordHistory cache).1.system other).isSome = true →
      other = observation.systemId ∨ (cache.system other).isSome = true := by
  simp only [CronObservation.recordHistory]
  split
  · rw [CronCache.isSome_system_applyHistory]
    simp
  · exact .inr

theorem isSome_system_recordError :
    ((observation.recordError cache).system other).isSome = true →
      other = observation.systemId ∨ (cache.system other).isSome = true := by
  simp only [CronObservation.recordError]
  split
  · rw [CronCache.isSome_system_systemMut]
    simp
  · exact .inr

/-- An observation brings in no system but its own. -/
theorem isSome_system_apply (found : ((observation.apply cache).1.system other).isSome = true) :
    other = observation.systemId ∨ (cache.system other).isSome = true := by
  rw [apply_fst, CronObservation.record] at found
  split at found
  · rcases isSome_system_recordError found with isOwn | found
    · exact .inl isOwn
    · rcases isSome_system_recordHistory found with isOwn | found
      · exact .inl isOwn
      · rw [CronCache.applySummary, CronCache.isSome_system_systemMut] at found
        simpa using found
  · rw [CronCache.isSome_system_systemMut] at found
    simpa using found
  · rw [CronCache.isSome_system_systemMut] at found
    simpa using found

end Observations

section Entries

variable {Snapshot Reason : Type} {ip : IpSyntax}

/-- The systems by id, when each id occurs once. -/
theorem find?_byId {systems : List (SystemState Snapshot Reason)} {id : String}
    {map : SortedMap String (SystemState Snapshot Reason)} (nodup : (systems.map (·.id)).Nodup) :
    (systems.foldl (fun map system => map.upsert system.id fun _ => system) map).find? id =
      ((systems.find? fun system => system.id = id).or (map.find? id)) := by
  induction systems generalizing map with
  | nil => rfl
  | cons system rest ih =>
      rw [List.map_cons, List.nodup_cons] at nodup
      rw [List.foldl_cons, ih nodup.2, SortedMap.find?_upsert]
      by_cases isFirst : system.id = id
      · have notLater : (rest.find? fun other => other.id = id) = none := by
          rw [List.find?_eq_none]
          intro other otherMem same
          rw [decide_eq_true_eq] at same
          exact nodup.1 (isFirst.trans same.symm ▸ List.mem_map_of_mem otherMem)
        simp [isFirst, notLater]
      · simp [isFirst, Ne.symm isFirst]

/-- An entry looks at the old system of its id only. -/
theorem reconcileEntry_congr {entry : SystemEntry}
    {oldById other : SortedMap String (SystemState Snapshot Reason)}
    (same : oldById.find? entry.id = other.find? entry.id) :
    (reconcileEntry ip oldById entry).1 = (reconcileEntry ip other entry).1 ∧
      (reconcileEntry ip oldById entry).2.2 = (reconcileEntry ip other entry).2.2 := by
  simp only [reconcileEntry, same]
  cases other.find? entry.id with
  | none => exact ⟨rfl, rfl⟩
  | some old =>
      simp only
      split <;> exact ⟨rfl, rfl⟩

/-- An entry leaves the old systems of other ids. -/
theorem find?_reconcileEntry {entry : SystemEntry} {id : String}
    {oldById : SortedMap String (SystemState Snapshot Reason)} (distinct : id ≠ entry.id) :
    (reconcileEntry ip oldById entry).2.1.find? id = oldById.find? id := by
  simp only [reconcileEntry]
  split
  · rfl
  · have retained : (oldById.retain fun other => decide (other ≠ entry.id)).find? id =
        oldById.find? id := by
      rw [SortedMap.find?_retain, if_pos (by simpa using distinct)]
    split <;> exact retained

/-- With unique ids each entry finds what was there before. -/
theorem reconcileEntries_eq {entries : List SystemEntry}
    {oldById : SortedMap String (SystemState Snapshot Reason)}
    (nodup : (entries.map (·.id)).Nodup) :
    reconcileEntries ip oldById entries =
      (entries.map fun entry => (reconcileEntry ip oldById entry).1,
        (entries.filter fun entry => (reconcileEntry ip oldById entry).2.2).map (·.id)) := by
  induction entries generalizing oldById with
  | nil => rfl
  | cons entry rest ih =>
      rw [List.map_cons, List.nodup_cons] at nodup
      have asBefore : ∀ later ∈ rest,
          (reconcileEntry ip (reconcileEntry ip oldById entry).2.1 later).1 =
              (reconcileEntry ip oldById later).1 ∧
            (reconcileEntry ip (reconcileEntry ip oldById entry).2.1 later).2.2 =
              (reconcileEntry ip oldById later).2.2 := by
        intro later laterMem
        apply reconcileEntry_congr
        apply find?_reconcileEntry
        intro same
        exact nodup.1 (same ▸ List.mem_map_of_mem laterMem)
      have sameSystems := List.map_congr_left fun later laterMem => (asBefore later laterMem).1
      have sameRepoints := List.filter_congr fun later laterMem => (asBefore later laterMem).2
      simp only [reconcileEntries, ih nodup.2, sameSystems, sameRepoints, List.map_cons,
        List.filter_cons]
      split <;> rfl

/-- What a system is polled as. -/
def SystemState.target (system : SystemState Snapshot Reason) : String × Endpoint :=
  (system.id, system.endpoint)

theorem target_applyResult {completedAt : ℕ} {result : PollResult Snapshot Reason}
    (system : SystemState Snapshot Reason) :
    (system.applyResult ip completedAt result).target = system.target := by
  simp only [SystemState.applyResult]
  split
  · split <;> rfl
  · rfl

/-- A poll batch leaves every system's target. -/
theorem targets_applyResults {completedAt index : ℕ} {systems : List (SystemState Snapshot Reason)}
    {results : List (PollResult Snapshot Reason)} :
    (applyResults ip completedAt systems index results).map (·.target) =
      systems.map (·.target) := by
  induction results generalizing systems index with
  | nil => rfl
  | cons result rest ih =>
      rw [applyResults, ih]
      split
      · apply List.ext_getElem?
        intro other
        simp only [List.getElem?_map, List.getElem?_modify]
        cases systems[other]? with
        | none => rfl
        | some system =>
            simp only [Option.map_some]
            split
            · exact congrArg some (target_applyResult system)
            · rfl
      · rfl

theorem ids_applyResults {completedAt index : ℕ} {systems : List (SystemState Snapshot Reason)}
    {results : List (PollResult Snapshot Reason)} :
    (applyResults ip completedAt systems index results).map (·.id) = systems.map (·.id) := by
  have sameTargets : (applyResults ip completedAt systems index results).map (·.target) =
      systems.map (·.target) := targets_applyResults
  have sameIds := congrArg (List.map Prod.fst) sameTargets
  rw [List.map_map, List.map_map] at sameIds
  exact sameIds

end Entries

/-- What reaches the fleet: poll results, scheduler observations, whatever the EggPool plane does to
its own part, and reloads of what the store accepts or rejects. -/
inductive FleetEvent (Snapshot Reason Entry Summary Health : Type) where
  | batch (batch : PollBatch Snapshot Reason)
  | observation (observation : CronObservation)
  | eggpool (next : Option (EggpoolState Entry Summary Health))
  | reload (loaded : Except String (Config Entry))

namespace FleetState

variable {Snapshot Reason Entry Summary Health : Type} {ip : IpSyntax}
  {fleet next : FleetState Snapshot Reason Entry Summary Health} {config : Config Entry}

def step (ip : IpSyntax) (fleet : FleetState Snapshot Reason Entry Summary Health)
    (event : FleetEvent Snapshot Reason Entry Summary Health) :
    Option (FleetState Snapshot Reason Entry Summary Health) :=
  match event with
  | .batch batch => some (fleet.applyBatch ip batch)
  | .observation observation => some (fleet.takeCronObservation ip observation).1
  | .eggpool next => some { fleet with eggpool := next }
  | .reload (.ok config) =>
      if config.validate ip = [] then some (fleet.reloadConfig ip (.ok config)).1 else none
  | .reload (.error error) => some (fleet.reloadConfig ip (.error error)).1

/-- System ids are unique, and cron state belongs to listed systems. -/
structure WellFormed (fleet : FleetState Snapshot Reason Entry Summary Health) : Prop where
  idsNodup : (fleet.systems.map (·.id)).Nodup
  cronListed : ∀ id, (fleet.cron.system id).isSome = true → id ∈ fleet.systems.map (·.id)

theorem wellFormed_fromConfig (accepted : config.Accepted ip) :
    (fromConfig config : FleetState Snapshot Reason Entry Summary Health).WellFormed where
  idsNodup := by
    have sameIds : (fromConfig config : FleetState Snapshot Reason Entry Summary
        Health).systems.map (·.id) = config.systems.map (·.id) := by
      simp only [fromConfig, List.map_map]
      rfl
    rw [sameIds]
    exact accepted.idsNodup
  cronListed := by
    intro id found
    cases found

theorem wellFormed_takeCronObservation {observation : CronObservation}
    (wellFormed : fleet.WellFormed) : (fleet.takeCronObservation ip observation).1.WellFormed := by
  simp only [takeCronObservation]
  split
  · rename_i accepted
    refine ⟨wellFormed.idsNodup, ?_⟩
    intro id found
    rcases isSome_system_apply found with rfl | found
    · rcases List.any_eq_true.mp accepted with ⟨system, systemMem, same⟩
      simp only [Bool.and_eq_true, beq_iff_eq] at same
      exact same.1.1 ▸ List.mem_map_of_mem systemMem
    · exact wellFormed.cronListed id found
  · exact wellFormed

/-- The old systems, as the reload looks them up. -/
def oldById (fleet : FleetState Snapshot Reason Entry Summary Health) :
    SortedMap String (SystemState Snapshot Reason) :=
  fleet.systems.foldl (fun map system => map.upsert system.id fun _ => system) .empty

theorem find?_oldById {id : String} (wellFormed : fleet.WellFormed) :
    fleet.oldById.find? id = fleet.systems.find? fun system => system.id = id := by
  rw [oldById, find?_byId wellFormed.idsNodup, SortedMap.find?_empty, Option.or_none]

theorem id_reconcileEntry {entry : SystemEntry}
    {oldById : SortedMap String (SystemState Snapshot Reason)}
    (sameIds : ∀ id old, oldById.find? id = some old → old.id = id) :
    (reconcileEntry ip oldById entry).1.id = entry.id ∧
      (reconcileEntry ip oldById entry).1.endpoint = entry.toEndpoint ∧
      (reconcileEntry ip oldById entry).1.configuredName = entry.name := by
  simp only [reconcileEntry]
  split
  · exact ⟨rfl, rfl, rfl⟩
  · rename_i old found
    split
    · exact ⟨sameIds entry.id old found, rfl, rfl⟩
    · exact ⟨rfl, rfl, rfl⟩

theorem id_oldById (wellFormed : fleet.WellFormed) {id : String} {old : SystemState Snapshot Reason}
    (found : fleet.oldById.find? id = some old) : old ∈ fleet.systems ∧ old.id = id := by
  rw [find?_oldById wellFormed] at found
  exact ⟨List.mem_of_find?_eq_some found, by simpa using List.find?_some found⟩

theorem system_foldl_resetSystem {ids : List String} {cache : CronCache} {id : String} :
    (ids.foldl (fun cron id => (cron.resetSystem id).1) cache).system id =
      if id ∈ ids then none else cache.system id := by
  induction ids generalizing cache with
  | nil => rfl
  | cons reset rest ih =>
      rw [List.foldl_cons, ih, CronCache.system_resetSystem]
      by_cases isReset : id = reset <;> by_cases later : id ∈ rest <;> simp [isReset, later]

theorem perJob_foldl_resetSystem {ids : List String} {cache : CronCache} :
    (ids.foldl (fun cron id => (cron.resetSystem id).1) cache).perJob = cache.perJob := by
  induction ids generalizing cache with
  | nil => rfl
  | cons reset rest ih => rw [List.foldl_cons, ih, CronCache.perJob_resetSystem]

/-- Adopting the EggPool entry leaves the rest of the fleet. -/
theorem adoptEggpool_frame (fleet : FleetState Snapshot Reason Entry Summary Health)
    (entry : Option Entry) :
    (fleet.adoptEggpool entry).systems = fleet.systems ∧
      (fleet.adoptEggpool entry).cron = fleet.cron ∧
      (fleet.adoptEggpool entry).cronDisplayHistory = fleet.cronDisplayHistory := by
  cases entry <;> exact ⟨rfl, rfl, rfl⟩

theorem endpoint_adoptEggpool (entry : Option Entry) :
    (fleet.adoptEggpool entry).eggpool.map (·.endpoint) = entry := by
  cases entry with
  | none => rfl
  | some entry =>
      simp only [adoptEggpool, Clientd.FleetState.adoptEggpoolEndpoint]
      cases fleet.eggpool <;> rfl

/-- What an accepted reload makes of the systems and of the cron cache. -/
theorem reloadConfig_ok (accepted : config.Accepted ip) (wellFormed : fleet.WellFormed) :
    let reloaded := (fleet.reloadConfig ip (.ok config)).1
    reloaded.systems = (config.systems.map fun entry =>
        (reconcileEntry ip fleet.oldById entry).1) ∧
      (∀ id, reloaded.cron.system id =
        if id ∈ config.systems.map (·.id) ∧ id ∉ (config.systems.filter fun entry =>
            (reconcileEntry ip fleet.oldById entry).2.2).map (·.id) then fleet.cron.system id
        else none) ∧
      reloaded.cronDisplayHistory = fleet.cronDisplayHistory ∧
      reloaded.cron.perJob = fleet.cron.perJob := by
  intro reloaded
  have reconciled : reconcileEntries ip fleet.oldById config.systems =
      (config.systems.map fun entry => (reconcileEntry ip fleet.oldById entry).1,
        (config.systems.filter fun entry =>
          (reconcileEntry ip fleet.oldById entry).2.2).map (·.id)) :=
    reconcileEntries_eq accepted.idsNodup
  rcases adoptEggpool_frame (fleet.reconcileSystems ip config) config.eggpool with
    ⟨sameSystems, sameCron, sameDisplay⟩
  have systems : reloaded.systems = (config.systems.map fun entry =>
      (reconcileEntry ip fleet.oldById entry).1) := calc
    reloaded.systems = (reconcileEntries ip fleet.oldById config.systems).1 := sameSystems
    _ = _ := congrArg Prod.fst reconciled
  have ids : reloaded.systems.map (·.id) = config.systems.map (·.id) := by
    rw [systems, List.map_map]
    apply List.map_congr_left
    intro entry _
    exact (id_reconcileEntry fun id old found => (id_oldById wellFormed found).2).1
  have cron : reloaded.cron = (((reconcileEntries ip fleet.oldById config.systems).2.foldl
      (fun cron id => (cron.resetSystem id).1) fleet.cron)).retainSystems
        (reloaded.systems.map (·.id)) := by
    simp only [reloaded, reloadConfig, sameCron]
    rfl
  refine ⟨systems, ?_, ?_, ?_⟩
  · intro id
    rw [cron, CronCache.system_retainSystems, system_foldl_resetSystem, ids, reconciled]
    by_cases listed : id ∈ config.systems.map (·.id)
    · rw [if_pos listed]
      simp only [listed, true_and]
      split <;> rfl
    · rw [if_neg listed, if_neg fun both => listed both.1]
  · exact sameDisplay
  · rw [cron, reconciled]
    exact perJob_foldl_resetSystem

theorem wellFormed_reloadConfig (accepted : config.Accepted ip) (wellFormed : fleet.WellFormed) :
    (fleet.reloadConfig ip (.ok config)).1.WellFormed := by
  rcases reloadConfig_ok accepted wellFormed with ⟨systems, cron, -, -⟩
  have ids : (fleet.reloadConfig ip (.ok config)).1.systems.map (·.id) =
      config.systems.map (·.id) := by
    rw [systems, List.map_map]
    apply List.map_congr_left
    intro entry _
    exact (id_reconcileEntry fun id old found => (id_oldById wellFormed found).2).1
  refine ⟨ids ▸ accepted.idsNodup, ?_⟩
  intro id found
  rw [cron id] at found
  split at found
  · rename_i kept
    exact ids ▸ kept.1
  · cases found

theorem wellFormed_of_run {events : List (FleetEvent Snapshot Reason Entry Summary Health)}
    (accepted : config.validate ip = [])
    (ran : Machine.run (step ip) (fromConfig config) events = some fleet) : fleet.WellFormed := by
  apply Machine.run_induction (fun _ fleet => fleet.WellFormed) ran
  · exact wellFormed_fromConfig (Config.accepted_of_validate accepted)
  · intro _ before event after _ wellFormed stepped
    cases event with
    | batch batch =>
        cases stepped
        simp only [applyBatch]
        split
        · refine ⟨?_, ?_⟩
          · rw [ids_applyResults]
            exact wellFormed.idsNodup
          · rw [ids_applyResults]
            exact wellFormed.cronListed
        · exact wellFormed
    | observation observation =>
        cases stepped
        exact wellFormed_takeCronObservation wellFormed
    | eggpool next =>
        cases stepped
        exact ⟨wellFormed.idsNodup, wellFormed.cronListed⟩
    | reload loaded =>
        cases loaded with
        | ok config =>
            simp only [step] at stepped
            split at stepped
            · rename_i valid
              cases stepped
              exact wellFormed_reloadConfig (Config.accepted_of_validate valid) wellFormed
            · cases stepped
        | error error =>
            cases stepped
            exact ⟨wellFormed.idsNodup, wellFormed.cronListed⟩

/-- The fleet after a reload reflects the configuration. -/
structure Reflects (ip : IpSyntax) (before after : FleetState Snapshot Reason Entry Summary Health)
    (config : Config Entry) : Prop where
  listed : after.systems.map (fun system => (system.id, system.endpoint, system.configuredName)) =
    config.systems.map fun entry => (entry.id, entry.toEndpoint, entry.name)
  kept : ∀ old ∈ before.systems, ∀ system ∈ after.systems, old.id = system.id →
    sameTarget ip old.endpoint system.endpoint = true →
      system.reachability = old.reachability ∧ system.latest = old.latest ∧
        after.cron.system system.id = before.cron.system system.id
  fresh : ∀ system ∈ after.systems, (∀ old ∈ before.systems, old.id = system.id →
    sameTarget ip old.endpoint system.endpoint = false) →
      system.reachability = .pending ∧ system.latest = none ∧
        after.cron.system system.id = none
  unlisted : ∀ id, id ∉ config.systems.map (·.id) → after.cron.system id = none
  eggpool : after.eggpool.map (·.endpoint) = config.eggpool
  displayHistory : after.cronDisplayHistory = config.cron.displayHistory
  cacheHistory : after.cron.perJob = config.cron.cacheHistory

theorem find?_oldById_of_mem (wellFormed : fleet.WellFormed) {old : SystemState Snapshot Reason}
    (member : old ∈ fleet.systems) : fleet.oldById.find? old.id = some old := by
  rw [find?_oldById wellFormed]
  cases found : fleet.systems.find? fun system => system.id = old.id with
  | none =>
      rw [List.find?_eq_none] at found
      exact absurd (decide_eq_true rfl) (found old member)
  | some other =>
      have sameId : other.id = old.id := by simpa using List.find?_some found
      have otherMem := List.mem_of_find?_eq_some found
      rw [List.inj_on_of_nodup_map wellFormed.idsNodup otherMem member sameId]

/-- A retained id keeps its cron state, a repointed or new one has none. -/
theorem cron_reloadConfig (accepted : config.Accepted ip) (wellFormed : fleet.WellFormed)
    {entry : SystemEntry} (member : entry ∈ config.systems) :
    (fleet.reloadConfig ip (.ok config)).1.cron.system entry.id =
      if (reconcileEntry ip fleet.oldById entry).2.2 = true then none
      else fleet.cron.system entry.id := by
  have listed : entry.id ∈ config.systems.map (·.id) := List.mem_map_of_mem member
  have repointed : entry.id ∈ (config.systems.filter fun entry =>
      (reconcileEntry ip fleet.oldById entry).2.2).map (·.id) ↔
        (reconcileEntry ip fleet.oldById entry).2.2 = true := by
    constructor
    · intro inFiltered
      rcases List.mem_map.mp inFiltered with ⟨other, otherMem, sameId⟩
      rcases List.mem_filter.mp otherMem with ⟨otherMem, isRepointed⟩
      rwa [← List.inj_on_of_nodup_map accepted.idsNodup otherMem member sameId]
    · intro isRepointed
      exact List.mem_map_of_mem (List.mem_filter.mpr ⟨member, isRepointed⟩)
  rw [(reloadConfig_ok accepted wellFormed).2.1 entry.id]
  simp only [listed, true_and, repointed]
  split <;> rename_i isRepointed <;> simp [isRepointed]

/-- Everything but the two depths is as configured after an accepted reload. -/
theorem reflects_of_depths (accepted : config.Accepted ip) (wellFormed : fleet.WellFormed)
    (display : fleet.cronDisplayHistory = config.cron.displayHistory)
    (depth : fleet.cron.perJob = config.cron.cacheHistory) :
    Reflects ip fleet (fleet.reloadConfig ip (.ok config)).1 config := by
  rcases reloadConfig_ok accepted wellFormed with ⟨systems, cron, sameDisplay, sameDepth⟩
  have configured : ∀ entry : SystemEntry, (reconcileEntry ip fleet.oldById entry).1.id = entry.id ∧
      (reconcileEntry ip fleet.oldById entry).1.endpoint = entry.toEndpoint ∧
      (reconcileEntry ip fleet.oldById entry).1.configuredName = entry.name := fun entry =>
    id_reconcileEntry fun id old found => (id_oldById wellFormed found).2
  refine ⟨?_, ?_, ?_, ?_, ?_, sameDisplay.trans display, sameDepth.trans depth⟩
  · rw [systems, List.map_map]
    apply List.map_congr_left
    intro entry _
    simp only [Function.comp_apply, configured entry]
  · intro old oldMem system systemMem sameId same
    rw [systems] at systemMem
    rcases List.mem_map.mp systemMem with ⟨entry, entryMem, rfl⟩
    rcases configured entry with ⟨id, endpoint, -⟩
    rw [id] at sameId
    have found : fleet.oldById.find? entry.id = some old :=
      sameId ▸ find?_oldById_of_mem wellFormed oldMem
    rw [endpoint] at same
    have keeps : reconcileEntry ip fleet.oldById entry =
        ({ old with endpoint := entry.toEndpoint, configuredName := entry.name },
          fleet.oldById.retain (· ≠ entry.id), false) := by
      simp only [reconcileEntry, found, same, ↓reduceIte]
    rw [id, cron_reloadConfig accepted wellFormed entryMem, keeps]
    exact ⟨rfl, rfl, rfl⟩
  · intro system systemMem noOld
    rw [systems] at systemMem
    rcases List.mem_map.mp systemMem with ⟨entry, entryMem, rfl⟩
    rcases configured entry with ⟨id, endpoint, -⟩
    rw [id, cron_reloadConfig accepted wellFormed entryMem]
    cases found : fleet.oldById.find? entry.id with
    | none =>
        have isNew : reconcileEntry ip fleet.oldById entry =
            (systemFromEntry entry, fleet.oldById, false) := by
          simp only [reconcileEntry, found]
        have notListed : entry.id ∉ fleet.systems.map (·.id) := by
          intro listed
          rcases List.mem_map.mp listed with ⟨old, oldMem, sameId⟩
          rw [← sameId, find?_oldById_of_mem wellFormed oldMem] at found
          cases found
        rw [isNew]
        refine ⟨rfl, rfl, ?_⟩
        cases held : fleet.cron.system entry.id with
        | none => rfl
        | some state => exact absurd (wellFormed.cronListed entry.id (by simp [held])) notListed
    | some old =>
        rcases id_oldById wellFormed found with ⟨oldMem, sameId⟩
        have differs := noOld old oldMem (sameId.trans id.symm)
        rw [endpoint] at differs
        have repointed : reconcileEntry ip fleet.oldById entry =
            (systemFromEntry entry, fleet.oldById.retain (· ≠ entry.id), true) := by
          simp only [reconcileEntry, found, differs, Bool.false_eq_true, ↓reduceIte]
        rw [repointed]
        exact ⟨rfl, rfl, rfl⟩
  · intro id notListed
    rw [cron id, if_neg fun both => notListed both.1]
  · exact endpoint_adoptEggpool config.eggpool

/-- In every fleet a run of the daemon reaches, an accepted reload makes the fleet reflect the
configuration exactly when the two cron depths are the ones the fleet already has, and a rejected
one changes nothing but the diagnostic. -/
theorem reflects_reloadConfig_iff {initial : Config Entry}
    {events : List (FleetEvent Snapshot Reason Entry Summary Health)}
    (validInitial : initial.validate ip = []) (valid : config.validate ip = [])
    (ran : Machine.run (step ip) (fromConfig initial) events = some fleet) :
    (Reflects ip fleet (fleet.reloadConfig ip (.ok config)).1 config ↔
        fleet.cronDisplayHistory = config.cron.displayHistory ∧
          fleet.cron.perJob = config.cron.cacheHistory) ∧
      ∀ error, (fleet.reloadConfig ip (.error error)).1 =
        { fleet with configReloadError := some ("config reload failed: " ++ error) } := by
  have accepted := Config.accepted_of_validate valid
  have wellFormed := wellFormed_of_run validInitial ran
  refine ⟨?_, fun error => rfl⟩
  constructor
  · intro reflects
    rcases reloadConfig_ok accepted wellFormed with ⟨-, -, sameDisplay, sameDepth⟩
    exact ⟨sameDisplay.symm.trans reflects.displayHistory,
      sameDepth.symm.trans reflects.cacheHistory⟩
  · rintro ⟨display, depth⟩
    exact reflects_of_depths accepted wellFormed display depth

/-- Hosts that are DNS names. -/
def dnsNames : IpSyntax where
  isIpv6 _ := false
  reprint _ := none
  reprint_printable := by
    rintro text printed ⟨⟩

/-- One system, under the default cron settings. -/
def oneBox : Config Unit where
  systems := [⟨"sys-a", "box", 11310, none⟩]
  eggpool := none
  cron := .default

/-- The configuration of an operator who asks for a deeper cron pane. -/
def deeperPane : Config Unit :=
  { oneBox with cron := { CronConfig.default with displayHistory := 7 } }

/-- Three systems and an EggPool. -/
def threeBoxes : Config String where
  systems := [⟨"sys-a", "box", 11310, none⟩, ⟨"sys-b", "rack", 11310, none⟩,
    ⟨"sys-c", "attic", 11310, none⟩]
  eggpool := some "pool"
  cron := .default

/-- The configuration of an operator who swaps the first two systems, renames one, repoints the
other, and drops the third and the EggPool. -/
def movedBoxes : Config String where
  systems := [⟨"sys-b", "rack", 11311, none⟩, ⟨"sys-a", "BOX", 11310, some "nas"⟩]
  eggpool := none
  cron := .default

/-- What a scheduler with one job reports after its first run. -/
def reportedBackup : SchedulerSummaryV2 where
  schemaVersion := 2
  generatedAtUnixMs := 10
  epoch := ⟨1, 1⟩
  historyRevision := 1
  jobs :=
    [{  name := "backup", schedule := "0 3 * * *", nextDueUnixMs := 20, state := .idle
        load := none, pendingSinceUnixMs := none, nextRetryUnixMs := none
        runningSinceUnixMs := none, last := some (CronCache.finishedRun 1 9).summary }]

/-- Every system is polled, and its scheduler read. -/
def polledBoxes : List (FleetEvent String Unit String Unit Unit) :=
  .batch ⟨1, 5, threeBoxes.systems.map fun entry =>
      ⟨entry.id, entry.toEndpoint, 3, .online ("of " ++ entry.host)⟩⟩ ::
    threeBoxes.systems.map fun entry =>
      .observation ⟨entry.id, entry.host, entry.port, .supported reportedBackup,
        some (CronCache.backupHistory ⟨1, 1⟩ 1 [(1, 9)]), none, 10⟩

/-- The number of records a fleet holds of each of three systems, where it holds cron state. -/
def recordCounts (fleet : FleetState String Unit String Unit Unit) : List (Option ℕ) :=
  ["sys-a", "sys-b", "sys-c"].map fun id => (fleet.cron.system id).map (·.recordCount)

/-- The renamed system keeps its snapshot and its record, the repointed one starts anew, and nothing
is left of the third. -/
theorem reflects_reloadConfig_iff_movedBoxes :
    ∃ fleet, Machine.run (step dnsNames) (fromConfig threeBoxes) polledBoxes = some fleet ∧
      fleet.systems.map (·.latest) = [some "of box", some "of rack", some "of attic"] ∧
      recordCounts fleet = [some 1, some 1, some 1] ∧
      (fleet.reloadConfig dnsNames (.ok movedBoxes)).1.systems.map (·.latest) =
        [none, some "of box"] ∧
      recordCounts (fleet.reloadConfig dnsNames (.ok movedBoxes)).1 = [some 1, none, none] ∧
      Reflects dnsNames fleet (fleet.reloadConfig dnsNames (.ok movedBoxes)).1 movedBoxes := by
  have before : (Machine.run (step dnsNames) (fromConfig threeBoxes) polledBoxes).map (fun fleet =>
      (fleet.systems.map (·.latest), recordCounts fleet)) =
      some ([some "of box", some "of rack", some "of attic"], [some 1, some 1, some 1]) := by
    decide +kernel
  have after : (Machine.run (step dnsNames) (fromConfig threeBoxes) polledBoxes).map (fun fleet =>
      ((fleet.reloadConfig dnsNames (.ok movedBoxes)).1.systems.map (·.latest),
        recordCounts (fleet.reloadConfig dnsNames (.ok movedBoxes)).1)) =
      some ([none, some "of box"], [some 1, none, none]) := by
    decide +kernel
  have settings : (Machine.run (step dnsNames) (fromConfig threeBoxes) polledBoxes).map
      (fun fleet => (fleet.cronDisplayHistory, fleet.cron.perJob)) =
      some (movedBoxes.cron.displayHistory, movedBoxes.cron.cacheHistory) := by
    decide +kernel
  rcases Option.map_eq_some_iff.mp before with ⟨fleet, ran, isBefore⟩
  rw [ran] at after settings
  simp only [Option.map_some, Option.some.injEq, Prod.mk.injEq] at after settings
  rcases Prod.mk.inj isBefore with ⟨polled, counted⟩
  exact ⟨fleet, ran, polled, counted, after.1, after.2,
    (reflects_reloadConfig_iff (by decide) (by decide) ran).1.mpr settings⟩

theorem not_reflects_deeperPane :
    oneBox.validate dnsNames = [] ∧ deeperPane.validate dnsNames = [] ∧
      ((fromConfig oneBox : FleetState Unit Unit Unit Unit Unit).reloadConfig dnsNames
        (.ok deeperPane)).2.1 = true ∧
      ¬Reflects dnsNames (fromConfig oneBox : FleetState Unit Unit Unit Unit Unit)
        ((fromConfig oneBox).reloadConfig dnsNames (.ok deeperPane)).1 deeperPane := by
  refine ⟨by decide, by decide, rfl, ?_⟩
  intro reflects
  cases reflects.displayHistory

end FleetState

end Fleet

end Gregg
