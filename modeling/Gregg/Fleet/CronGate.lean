import Gregg.Fleet.CronCoherence

/-!
# Suppressed fetches

The gate moves when the channel accepts an observation, the cache when the engine takes it, and the
cache of a system is reset when its target is dropped, which the gate learns at the next round. As
long as no target is configured again before that round, a suppressed fetch is right: the history
is on its way, or in the cache with nothing but evictions since.
-/

namespace Gregg

/-- Only evictions lie between two states of a system's records. -/
structure CronSystemState.Worn (before after : CronSystemState) : Prop where
  epoch : after.epoch = before.epoch
  revision : after.historyRevision = before.historyRevision
  records : ∀ name, after.jobRecords name <:+ before.jobRecords name

namespace CronSystemState

variable {state middle after : CronSystemState}

theorem Worn.refl (state : CronSystemState) : state.Worn state :=
  ⟨rfl, rfl, fun _ => List.suffix_rfl⟩

theorem Worn.trans (first : state.Worn middle) (second : middle.Worn after) : state.Worn after where
  epoch := second.epoch.trans first.epoch
  revision := second.revision.trans first.revision
  records := fun name => (second.records name).trans (first.records name)

end CronSystemState

namespace CronCache

variable {cache : CronCache} {systemId other : String} {state : CronSystemState}

/-- The eviction loop drops ring heads only. -/
theorem worn_enforceTotal (held : cache.system other = some state) :
    ∃ worn, cache.enforceTotal.system other = some worn ∧ state.Worn worn := by
  apply enforceTotal_of_kept fun evicting =>
    ∃ worn, evicting.system other = some worn ∧ state.Worn worn
  · exact ⟨state, held, .refl state⟩
  · exact fun _ kept => kept
  · rintro evicting victim ⟨worn, isWorn, wears⟩
    rw [system_evict]
    split
    · rename_i isVictim
      rw [← isVictim, isWorn]
      refine ⟨_, rfl, wears.trans ⟨rfl, rfl, ?_⟩⟩
      intro name
      simp only [CronSystemState.jobRecords, SortedMap.find?_modify]
      split
      · rename_i isName
        rw [isName]
        cases worn.jobs.find? victim.job with
        | none => exact List.suffix_rfl
        | some ring => exact List.tail_suffix ring.records
      · exact List.suffix_rfl
    · exact ⟨worn, isWorn, wears⟩

theorem worn_systemMut {change : CronSystemState → CronSystemState}
    (keeps : ∀ state, CronSystemState.Worn state (change state))
    (held : cache.system other = some state) :
    ∃ worn, (cache.systemMut systemId change).system other = some worn ∧ state.Worn worn := by
  rw [system_systemMut]
  split
  · rename_i isOwn
    rw [← isOwn, held]
    exact ⟨_, rfl, keeps state⟩
  · exact ⟨state, held, .refl state⟩

end CronCache

namespace Fleet

open Clientd (Endpoint)

namespace CronObservation

variable {observation : CronObservation} {cache : CronCache} {other : String}
  {state : CronSystemState}

/-- An observation wears the records of every system but the one whose history it brings. -/
theorem worn_record (spared : other = observation.systemId → observation.history = none)
    (held : cache.system other = some state) :
    ∃ worn, (observation.record cache).1.system other = some worn ∧ state.Worn worn := by
  have kept : ∀ (change : CronSystemState → CronSystemState) {before : CronCache}
      {state : CronSystemState},
      (∀ state, (change state).epoch = state.epoch ∧
        (change state).historyRevision = state.historyRevision ∧
          (change state).jobs = state.jobs) → before.system other = some state →
      ∃ worn, (before.systemMut observation.systemId change).system other = some worn ∧
        state.Worn worn := by
    intro change before state same
    apply CronCache.worn_systemMut
    intro state
    refine ⟨(same state).1, (same state).2.1, ?_⟩
    intro name
    rw [CronSystemState.jobRecords, (same state).2.2]
    exact List.suffix_rfl
  have failed : ∀ (error : CronFetchError) {before : CronCache} {state : CronSystemState},
      before.system other = some state →
      ∃ worn, (before.systemMut observation.systemId (·.markFailed error
        observation.nowUnixMs)).system other = some worn ∧ state.Worn worn :=
    fun error => kept (·.markFailed error observation.nowUnixMs) fun _ => ⟨rfl, rfl, rfl⟩
  simp only [record]
  split
  · rename_i document _
    rcases kept (·.applySummary document observation.nowUnixMs) (fun _ => ⟨rfl, rfl, rfl⟩) held with
      ⟨summarized, isSummarized, fromState⟩
    have merged : ∃ worn, (observation.recordHistory (cache.applySummary observation.systemId
        document observation.nowUnixMs)).1.system other = some worn ∧ summarized.Worn worn := by
      simp only [recordHistory]
      split
      · rename_i history isHistory
        have distinct : other ≠ observation.systemId := by
          intro isOwn
          rw [spared isOwn] at isHistory
          cases isHistory
        rw [CronCache.applyHistory_eq]
        apply CronCache.worn_enforceTotal
        rw [CronCache.system_merged, if_neg distinct]
        exact isSummarized
      · exact ⟨summarized, isSummarized, .refl summarized⟩
    rcases merged with ⟨worn, isWorn, fromSummarized⟩
    simp only [recordError]
    split
    · rename_i error _
      rcases failed error isWorn with ⟨marked, isMarked, fromWorn⟩
      exact ⟨marked, isMarked, (fromState.trans fromSummarized).trans fromWorn⟩
    · exact ⟨worn, isWorn, fromState.trans fromSummarized⟩
  · exact kept (fun state =>
      { state.markUnsupported with lastAttemptAtUnixMs := some observation.nowUnixMs })
      (fun _ => ⟨rfl, rfl, rfl⟩) held
  · rename_i error _
    exact failed error held

/-- A coherent observation with a history leaves its system at the identity of that history. -/
theorem merged_record {found : SchedulerHistoryV2} (coherent : observation.Coherent)
    (isFound : observation.history = some found) :
    ∃ merged, (observation.record cache).1.system observation.systemId = some merged ∧
      merged.epoch = some found.epoch ∧ merged.historyRevision = some found.historyRevision := by
  rcases coherent found isFound with ⟨noError, document, isSummary, -, -⟩
  let summarized := cache.applySummary observation.systemId document observation.nowUnixMs
  have isRecord : (observation.record cache).1 =
      (summarized.merged observation.systemId found).enforceTotal := by
    simp only [record, isSummary, recordHistory, isFound, recordError, noError]
    exact CronCache.applyHistory_eq _ _ _
  have own : (summarized.merged observation.systemId found).system observation.systemId =
      some (((summarized.system observation.systemId).getD .unknown).applyHistory found
        summarized.perJob).1 := by
    rw [CronCache.system_merged, if_pos rfl]
  have identity : ∀ state : CronSystemState,
      (state.applyHistory found summarized.perJob).1.epoch = some found.epoch ∧
        (state.applyHistory found summarized.perJob).1.historyRevision =
          some found.historyRevision := by
    intro state
    simp only [CronSystemState.applyHistory, CronSystemState.evictStaleJobs]
    split <;> exact ⟨rfl, rfl⟩
  rcases CronCache.worn_enforceTotal own with ⟨merged, isMerged, worn⟩
  rw [isRecord]
  exact ⟨merged, isMerged, worn.epoch.trans (identity _).1, worn.revision.trans (identity _).2⟩

end CronObservation

namespace CronPlane

open CronObservation

variable {Snapshot Reason Entry Summary Health : Type} {ip : IpSyntax}
  {plane next : CronPlane Snapshot Reason Entry Summary Health}
  {event : CronEvent Snapshot Reason Entry Summary Health} {config : Config Entry}
  {events : List (CronEvent Snapshot Reason Entry Summary Health)}

/-- A reload configures the target again only after the gate has forgotten it. -/
def ReaddsForgotten (ip : IpSyntax) (key : String)
    (plane : CronPlane Snapshot Reason Entry Summary Health) :
    CronEvent Snapshot Reason Entry Summary Health → Prop
  | .engine (.reload (.ok config)) => ∀ entry ∈ config.systems,
      endpointKey ip entry.toEndpoint = key →
        plane.Lists ip key ∨ plane.gate.entries.find? key = none
  | _ => True

/-- The engine took the observation in the course of the run, and nothing but evictions has touched
what it left of its system since. -/
def MergedIn (ip : IpSyntax) (config : Config Entry)
    (events : List (CronEvent Snapshot Reason Entry Summary Health))
    (plane : CronPlane Snapshot Reason Entry Summary Health) (observation : CronObservation) :
    Prop :=
  ∃ (before after : List (CronEvent Snapshot Reason Entry Summary Health))
    (earlier : CronPlane Snapshot Reason Entry Summary Health) (rest : List CronObservation)
    (merged state : CronSystemState),
    events = before ++ .take :: after ∧
      Machine.run (CronPlane.step ip) (start config) before = some earlier ∧
      earlier.channel = observation :: rest ∧
      earlier.fleet.acceptsCronObservation ip observation = true ∧
      (observation.apply earlier.fleet.cron).1.system observation.systemId = some merged ∧
      plane.fleet.cron.system observation.systemId = some state ∧ merged.Worn state

/-- A later state of the cache that is only more worn. -/
theorem MergedIn.snoc {observation : CronObservation}
    (mergedIn : MergedIn ip config events plane observation)
    (worn : ∀ state, plane.fleet.cron.system observation.systemId = some state →
      ∃ after, next.fleet.cron.system observation.systemId = some after ∧ state.Worn after) :
    MergedIn ip config (events ++ [event]) next observation := by
  rcases mergedIn with ⟨before, after, earlier, rest, merged, state, split, ran, queued, accepts,
    isMerged, held, wears⟩
  rcases worn state held with ⟨later, isLater, wearsOn⟩
  refine ⟨before, after ++ [event], earlier, rest, merged, later, ?_, ran, queued, accepts,
    isMerged, isLater, wears.trans wearsOn⟩
  rw [split, List.append_assoc, List.cons_append]

/-- Where the history of an observation is: still queued with no later one of its target behind it,
or merged with no later one queued. -/
inductive Kept (ip : IpSyntax) (config : Config Entry)
    (events : List (CronEvent Snapshot Reason Entry Summary Health))
    (plane : CronPlane Snapshot Reason Entry Summary Health) (observation : CronObservation) :
    Prop where
  | queued (before after : List CronObservation)
      (split : plane.channel = before ++ observation :: after)
      (last : ∀ later ∈ after, later.key ip = observation.key ip → later.history = none)
  | merged (last : ∀ later ∈ plane.channel, later.key ip = observation.key ip →
        later.history = none)
      (mergedIn : MergedIn ip config events plane observation)

/-- While a target is listed, the history the gate holds of it was accepted by the channel and is
kept. -/
def Remembered (ip : IpSyntax) (config : Config Entry) (key : String)
    (events : List (CronEvent Snapshot Reason Entry Summary Health))
    (plane : CronPlane Snapshot Reason Entry Summary Health) : Prop :=
  plane.Lists ip key → ∀ epoch revision,
    plane.gate.entries.find? key = some (epoch, revision) →
      ∃ observation ∈ plane.delivered, observation.key ip = key ∧
        (∃ found, observation.history = some found ∧ found.epoch = epoch ∧
          found.historyRevision = revision) ∧ Kept ip config events plane observation

/-- A step that leaves the cache, the channel and the gate of the target alone. -/
theorem Remembered.of_same {key : String} (remembered : Remembered ip config key events plane)
    (cron : next.fleet.cron = plane.fleet.cron) (endpoints : next.endpoints = plane.endpoints)
    (gate : plane.Lists ip key → next.gate.entries.find? key = plane.gate.entries.find? key)
    (channel : next.channel = plane.channel) (delivered : next.delivered = plane.delivered) :
    Remembered ip config key (events ++ [event]) next := by
  intro listed epoch revision found
  have wasListed : plane.Lists ip key := by
    rw [Lists, ← endpoints]
    exact listed
  rw [gate wasListed] at found
  rcases remembered wasListed epoch revision found with
    ⟨observation, member, isKey, isFound, kept⟩
  refine ⟨observation, delivered ▸ member, isKey, isFound, ?_⟩
  cases kept with
  | queued before after split last => exact .queued before after (channel ▸ split) last
  | merged last mergedIn =>
      refine .merged (channel ▸ last) (mergedIn.snoc ?_)
      intro state held
      exact ⟨state, cron ▸ held, .refl state⟩

theorem Remembered.begin {key : String} (remembered : Remembered ip config key events plane)
    (sound : plane.Sound ip) (begun : plane.beginRound ip = some next) :
    Remembered ip config key (events ++ [event]) next := by
  rcases fits_beginRound sound.endpoints begun with
    ⟨-, fleet, endpoints, channel, delivered, gate⟩
  refine remembered.of_same (fleet ▸ rfl) endpoints ?_ channel delivered
  rintro ⟨endpoint, endpointMem, rfl⟩
  have live : (plane.endpoints.map (endpointKey ip)).contains (endpointKey ip endpoint) = true := by
    simpa using ⟨endpoint, endpointMem, rfl⟩
  rw [gate, HistoryGate.forgetAbsent, SortedMap.find?_retain, if_pos live]

theorem Remembered.deliver {key : String} {nowUnixMs : ℕ} {finished : EndpointFetch}
    (remembered : Remembered ip config key events plane) (fleet : next.fleet = plane.fleet)
    (endpoints : next.endpoints = plane.endpoints)
    (gate : next.gate = ((settle ip finished nowUnixMs).2.map plane.gate.commit).getD plane.gate)
    (channel : next.channel = plane.channel ++ [(settle ip finished nowUnixMs).1])
    (delivered : next.delivered = plane.delivered ++ [(settle ip finished nowUnixMs).1]) :
    Remembered ip config key (events ++ [event]) next := by
  intro listed epoch revision found
  have wasListed : plane.Lists ip key := by
    rw [Lists, ← endpoints]
    exact listed
  have isKey := (key_settle ip finished nowUnixMs).1
  -- The old history stays where it was, unless a new one of the target comes behind it.
  have stays : ∀ observation : CronObservation,
      ((settle ip finished nowUnixMs).1.key ip = observation.key ip →
        (settle ip finished nowUnixMs).1.history = none) →
      Kept ip config events plane observation → Kept ip config (events ++ [event]) next
        observation := by
    intro observation bare kept
    cases kept with
    | queued before after split last =>
        refine .queued before (after ++ [(settle ip finished nowUnixMs).1]) ?_ ?_
        · rw [channel, split, List.append_assoc, List.cons_append]
        · intro later laterMem
          rcases List.mem_append.mp laterMem with earlier | isNew
          · exact last later earlier
          · rw [List.mem_singleton.mp isNew]
            exact bare
    | merged last mergedIn =>
        refine .merged ?_ (mergedIn.snoc ?_)
        · rw [channel]
          intro later laterMem
          rcases List.mem_append.mp laterMem with earlier | isNew
          · exact last later earlier
          · rw [List.mem_singleton.mp isNew]
            exact bare
        · intro state held
          exact ⟨state, fleet ▸ held, .refl state⟩
  have isNew : (settle ip finished nowUnixMs).1 ∈ next.delivered := by
    rw [delivered]
    simp
  have before : ∀ observation ∈ plane.delivered, observation ∈ next.delivered := by
    intro observation member
    rw [delivered]
    exact List.mem_append_left _ member
  have queuedLast : Kept ip config (events ++ [event]) next (settle ip finished nowUnixMs).1 :=
    .queued plane.channel [] channel (by simp)
  rw [gate] at found
  have settled := settled_settle ip finished nowUnixMs
  generalize settle ip finished nowUnixMs = outcome at settled found isNew isKey stays queuedLast
  cases settled with
  | bare historyError =>
      rcases remembered wasListed epoch revision found with
        ⟨observation, member, hasKey, isFound, kept⟩
      exact ⟨observation, before observation member, hasKey, isFound,
        stays observation (fun _ => rfl) kept⟩
  | coherent document found' =>
      by_cases sameKey : key = endpointKey ip finished.endpoint
      · rw [sameKey] at found
        cases SortedMap.find?_upsert_self.symm.trans found
        exact ⟨_, isNew, isKey.trans sameKey.symm, ⟨found', rfl, rfl, rfl⟩, queuedLast⟩
      · rcases remembered wasListed epoch revision
          ((SortedMap.find?_upsert_of_ne sameKey).symm.trans found) with
          ⟨observation, member, hasKey, isFound, kept⟩
        refine ⟨observation, before observation member, hasKey, isFound, stays observation ?_ kept⟩
        intro newKey
        exact absurd (hasKey.symm.trans (newKey.symm.trans isKey)) sameKey

theorem Remembered.take {key : String} {taken : CronObservation} {channel : List CronObservation}
    (remembered : Remembered ip config key events plane) (sound : plane.Sound ip)
    (coherent : ∀ observation ∈ plane.delivered, observation.Coherent)
    (ran : Machine.run (CronPlane.step ip) (start config) events = some plane)
    (queued : plane.channel = taken :: channel) :
    Remembered ip config key (events ++ [.take]) { plane with
      fleet := (plane.fleet.takeCronObservation ip taken).1, channel } := by
  intro listed epoch revision found
  have takenMem : taken ∈ plane.delivered := by
    rcases sound.queued with ⟨before, split⟩
    rw [split, queued]
    simp
  have takenHost := sound.hosts taken takenMem
  rcases remembered listed epoch revision found with ⟨observation, member, hasKey, isFound, kept⟩
  refine ⟨observation, member, hasKey, isFound, ?_⟩
  have host := sound.hosts observation member
  cases kept with
  | queued before after split last =>
      rcases before with _ | ⟨first, before⟩
      · -- It is taken now: its target is listed, so it is merged.
        have both : taken = observation ∧ channel = after := by
          rw [queued, List.nil_append] at split
          exact List.cons.inj split
        rcases both with ⟨rfl, rfl⟩
        have accepts := (sound.accepts_iff host).mpr (hasKey ▸ listed)
        rcases isFound with ⟨document, isDocument, -, -⟩
        rcases merged_record (coherent taken member) isDocument with ⟨merged, isMerged, -, -⟩
        have isTaken : (plane.fleet.takeCronObservation ip taken).1.cron =
            (taken.apply plane.fleet.cron).1 := by
          simp only [FleetState.takeCronObservation, accepts, ↓reduceIte]
        have inCache : (taken.apply plane.fleet.cron).1.system taken.systemId = some merged := by
          rw [apply_fst]
          exact isMerged
        refine .merged last ⟨events, [], plane, channel, merged, merged, rfl, ran, queued, accepts,
          inCache, ?_, .refl merged⟩
        rw [isTaken]
        exact inCache
      · have both : taken = first ∧ channel = before ++ observation :: after := by
          rw [queued, List.cons_append] at split
          exact List.cons.inj split
        exact .queued before after both.2 last
  | merged last mergedIn =>
      refine .merged (fun later laterMem => last later (queued ▸ List.mem_cons_of_mem _ laterMem))
        (mergedIn.snoc ?_)
      intro state held
      simp only [FleetState.takeCronObservation]
      split
      · rename_i accepts
        rw [apply_fst]
        refine worn_record ?_ held
        intro sameId
        rcases listed with ⟨endpoint, endpointMem, isKey⟩
        have endpointId := (eq_of_targetKey_eq (sound.endpoints.hosts endpoint endpointMem) host
          (isKey.trans hasKey.symm)).1
        apply last taken (queued ▸ List.mem_cons_self)
        rw [hasKey, ← isKey]
        by_contra distinct
        exact sound.id_ne_of_key_ne takenHost endpointMem distinct accepts
          (endpointId.trans sameId)
      · exact ⟨state, held, .refl state⟩

theorem Remembered.reload {key : String} {reloaded : Config Entry}
    (remembered : Remembered ip config key events plane) (sound : plane.Sound ip)
    (accepted : reloaded.Accepted ip)
    (forgotten : plane.ReaddsForgotten ip key (.engine (.reload (.ok reloaded)))) :
    Remembered ip config key (events ++ [event]) { plane with
      fleet := (plane.fleet.reloadConfig ip (.ok reloaded)).1
      endpoints := reloaded.systems.map (·.toEndpoint)
      notified := true } := by
  rintro ⟨endpoint, endpointMem, isKey⟩ epoch revision found
  rcases List.mem_map.mp endpointMem with ⟨entry, entryMem, rfl⟩
  have wasListed : plane.Lists ip key := by
    rcases forgotten entry entryMem isKey with stayed | absent
    · exact stayed
    · exact absurd found (by rw [absent]; simp)
  rcases remembered wasListed epoch revision found with
    ⟨observation, member, hasKey, isFound, kept⟩
  refine ⟨observation, member, hasKey, isFound, ?_⟩
  cases kept with
  | queued before after split last => exact .queued before after split last
  | merged last mergedIn =>
      refine .merged last (mergedIn.snoc ?_)
      intro state held
      rcases wasListed with ⟨before, beforeMem, beforeKey⟩
      have entryHost : HostAccepted ip entry.toEndpoint.host := accepted.hosts entry entryMem
      have entryId : entry.toEndpoint.id = observation.systemId :=
        (eq_of_targetKey_eq entryHost (sound.hosts observation member)
          (isKey.trans hasKey.symm)).1
      have stayed := sound.cron_of_stayed accepted beforeMem entryMem
        (beforeKey.trans isKey.symm)
      refine ⟨state, ?_, .refl state⟩
      rw [← entryId] at held ⊢
      exact stayed.trans held

theorem Remembered.step {key : String} (remembered : Remembered ip config key events plane)
    (sound : plane.Sound ip) (coherent : ∀ observation ∈ plane.delivered, observation.Coherent)
    (ran : Machine.run (CronPlane.step ip) (start config) events = some plane)
    (forgotten : plane.ReaddsForgotten ip key event) (stepped : plane.step ip event = some next) :
    Remembered ip config key (events ++ [event]) next := by
  cases moves_of_step stepped with
  | quiet event cron targets endpoints gate channel delivered fits =>
      exact remembered.of_same cron endpoints (fun _ => gate ▸ rfl) channel delivered
  | begin idle begun => exact remembered.begin sound begun
  | deliver index nowUnixMs round endpoint finished isRound isFinished fleet endpoints gate channel
      delivered rest =>
      exact remembered.deliver fleet endpoints gate channel delivered
  | take observation queued taken =>
      rw [taken]
      exact remembered.take sound coherent ran queued
  | reload reloaded valid isReloaded =>
      rw [isReloaded]
      exact remembered.reload sound (Config.accepted_of_validate valid) forgotten

theorem remembered_of_run {key : String} (valid : config.validate ip = [])
    (ran : Machine.run (CronPlane.step ip) (start config) events = some plane)
    (forgotten : Machine.EveryStep (CronPlane.step ip) (start config) events
      (ReaddsForgotten ip key)) : Remembered ip config key events plane := by
  revert forgotten
  apply Machine.run_induction (fun events plane =>
    Machine.EveryStep (CronPlane.step ip) (start config) events (ReaddsForgotten ip key) →
      Remembered ip config key events plane) ran
  · intro _ _ epoch revision found
    cases found
  · intro events before event after ranBefore remembered stepped forgotten
    rcases (Machine.everyStep_append_singleton ranBefore).mp forgotten with ⟨earlier, here⟩
    exact (remembered earlier).step (sound_of_run valid ranBefore)
      (told_of_run valid ranBefore).coherent ranBefore here stepped

/-- A fetch is about to be suppressed: its summary comes back as one whose history the gate of the
round does not ask for. -/
def Suppresses (ip : IpSyntax) (plane : CronPlane Snapshot Reason Entry Summary Health)
    (endpoint : Endpoint) (document : SchedulerSummaryV2) : Prop :=
  ∃ round ∈ plane.round, ⟨endpoint, .readingSummary⟩ ∈ round.inFlight ∧
    round.snapshot.needs (endpointKey ip endpoint) document = false

/-- Whenever the gate suppresses the fetch of a history for a target that is configured, an
observation of that target with exactly this history was accepted by the channel: it is queued, or
the engine has merged it and nothing but evictions has touched the records of the system since. In
every run in which the target is configured again only after the gate has forgotten it. -/
theorem kept_of_suppressed {endpoint : Endpoint} {document : SchedulerSummaryV2}
    (valid : config.validate ip = [])
    (ran : Machine.run (CronPlane.step ip) (start config) events = some plane)
    (suppresses : plane.Suppresses ip endpoint document)
    (listed : plane.Lists ip (endpointKey ip endpoint))
    (forgotten : Machine.EveryStep (CronPlane.step ip) (start config) events
      (ReaddsForgotten ip (endpointKey ip endpoint))) :
    ∃ observation ∈ plane.delivered, observation.key ip = endpointKey ip endpoint ∧
      (∃ found, observation.history = some found ∧ found.epoch = document.epoch ∧
        found.historyRevision = document.historyRevision) ∧
      (observation ∈ plane.channel ∨ (MergedIn ip config events plane observation ∧
        ∃ state, plane.fleet.cron.system endpoint.id = some state ∧
          state.epoch = some document.epoch ∧
          state.historyRevision = some document.historyRevision)) := by
  have sound := sound_of_run valid ran
  have coherent := (told_of_run valid ran).coherent
  rcases suppresses with ⟨round, isRound, isReading, suppressed⟩
  have remains : endpoint ∈ round.remaining :=
    List.mem_append_left _ (List.mem_map_of_mem isReading)
  have fits := sound.round round isRound
  have held : plane.gate.entries.find? (endpointKey ip endpoint) =
      some (document.epoch, document.historyRevision) :=
    (fits.asSnapshot endpoint remains).trans (needs_eq_false_iff.mp suppressed)
  rcases remembered_of_run valid ran forgotten listed _ _ held with
    ⟨observation, member, isKey, isFound, kept⟩
  refine ⟨observation, member, isKey, isFound, ?_⟩
  cases kept with
  | queued before after split last =>
      left
      rw [split]
      simp
  | merged last mergedIn =>
      refine .inr ⟨mergedIn, ?_⟩
      rcases isFound with ⟨found, isDocument, sameEpoch, sameRevision⟩
      rcases mergedIn with ⟨-, -, earlier, -, merged, state, -, -, -, -, isMerged, isState, worn⟩
      have recordedAt : ∃ recorded,
          (observation.record earlier.fleet.cron).1.system observation.systemId = some recorded ∧
            recorded.epoch = some found.epoch ∧
              recorded.historyRevision = some found.historyRevision :=
        merged_record (coherent observation member) isDocument
      rcases recordedAt with ⟨recorded, isRecorded, epoch, revision⟩
      have sameId : observation.systemId = endpoint.id :=
        (eq_of_targetKey_eq (sound.hosts observation member)
          (fits.accepted.hosts endpoint remains) isKey).1
      rw [apply_fst, isRecorded] at isMerged
      cases isMerged
      refine ⟨state, sameId ▸ isState, ?_, ?_⟩
      · rw [worn.epoch, epoch, sameEpoch]
      · rw [worn.revision, revision, sameRevision]

/-- The one target of the example configuration. -/
def boxEndpoint : Endpoint where
  id := "sys-a"
  host := "box"
  port := 11310
  name := none

/-- The events up to a second read of the summary, with what the engine did in between. -/
def secondRead (between : List (CronEvent Unit Unit Unit Unit Unit)) :
    List (CronEvent Unit Unit Unit Unit Unit) :=
  fetchingRound ["backup"] ["backup"] ++ between ++ [.beginRound]

/-- Whether a fetch of the one target is about to be suppressed. -/
def suppressing (plane : CronPlane Unit Unit Unit Unit Unit) : Bool :=
  plane.round.any fun round =>
    (round.inFlight.any fun fetch => fetch.endpoint = boxEndpoint &&
      match fetch.stage with
      | .readingSummary => true
      | _ => false) &&
      !round.snapshot.needs (endpointKey FleetState.dnsNames boxEndpoint) (firstSummary ["backup"])

theorem suppresses_of_suppressing {plane : CronPlane Unit Unit Unit Unit Unit}
    (isSuppressing : suppressing plane = true) :
    plane.Suppresses FleetState.dnsNames boxEndpoint (firstSummary ["backup"]) := by
  rcases (Option.any_eq_true _ _).mp isSuppressing with ⟨round, isRound, facts⟩
  rw [Bool.and_eq_true, List.any_eq_true, Bool.not_eq_true'] at facts
  rcases facts with ⟨⟨⟨endpoint, stage⟩, member, isReading⟩, suppressed⟩
  rw [Bool.and_eq_true, decide_eq_true_eq] at isReading
  rcases isReading with ⟨isEndpoint, isReading⟩
  cases stage with
  | readingSummary =>
      cases isEndpoint
      exact ⟨round, isRound, member, suppressed⟩
  | readingHistory => cases isReading
  | finished => cases isReading

theorem kept_of_suppressed_secondRead :
    ∃ plane, Machine.run (CronPlane.step FleetState.dnsNames) (start FleetState.oneBox)
        (secondRead [.take]) = some plane ∧ plane.channel = [] ∧
      ∃ state, plane.fleet.cron.system "sys-a" = some state ∧ state.epoch = some ⟨1, 1⟩ ∧
        state.historyRevision = some 1 := by
  have facts : ((Machine.run (CronPlane.step FleetState.dnsNames) (start FleetState.oneBox)
      (secondRead [.take])).map fun plane =>
        (plane.channel.isEmpty, suppressing plane, plane.endpoints)) =
      some (true, true, [boxEndpoint]) := by
    decide +kernel
  rcases Option.map_eq_some_iff.mp facts with ⟨plane, ran, facts⟩
  simp only [Prod.mk.injEq] at facts
  rcases facts with ⟨drained, isSuppressing, endpoints⟩
  have noneQueued : plane.channel = [] := List.isEmpty_iff.mp drained
  have listed : plane.Lists FleetState.dnsNames (endpointKey FleetState.dnsNames boxEndpoint) :=
    ⟨boxEndpoint, endpoints ▸ List.mem_singleton_self _, rfl⟩
  refine ⟨plane, ran, noneQueued, ?_⟩
  have kept := kept_of_suppressed (by decide) ran (suppresses_of_suppressing isSuppressing) listed
  have isKept := kept <| by
    -- No step of the run is a reload.
    intro before event after state split _
    have member : event ∈ secondRead [.take] := by
      rw [split]
      simp
    simp only [secondRead, fetchingRound, List.cons_append, List.nil_append, List.mem_cons,
      List.not_mem_nil, or_false] at member
    rcases member with rfl | rfl | rfl | rfl | rfl | rfl | rfl <;> trivial
  rcases isKept with ⟨observation, -, -, -, isQueued | ⟨-, inCache⟩⟩
  · rw [noneQueued] at isQueued
    cases isQueued
  · exact inCache

/-- The gate holds already what the engine has not taken yet. And it still holds the history of a
target that was dropped and configured again between two rounds, which the cache has lost. -/
theorem suppressed_without_records :
    (∃ plane, Machine.run (CronPlane.step FleetState.dnsNames) (start FleetState.oneBox)
        (secondRead []) = some plane ∧
      plane.Suppresses FleetState.dnsNames boxEndpoint (firstSummary ["backup"]) ∧
      plane.fleet.cron.system "sys-a" = none) ∧
      ∃ plane, Machine.run (CronPlane.step FleetState.dnsNames) (start FleetState.oneBox)
          (secondRead [.take, .engine (.reload (.ok noBox)),
            .engine (.reload (.ok FleetState.oneBox)), .interrupt]) = some plane ∧
        plane.Suppresses FleetState.dnsNames boxEndpoint (firstSummary ["backup"]) ∧
        plane.channel = [] ∧ plane.fleet.cron.system "sys-a" = none := by
  constructor
  · have facts : ((Machine.run (CronPlane.step FleetState.dnsNames) (start FleetState.oneBox)
        (secondRead [])).map fun plane =>
          (suppressing plane, (plane.fleet.cron.system "sys-a").isNone)) = some (true, true) := by
      decide +kernel
    rcases Option.map_eq_some_iff.mp facts with ⟨plane, ran, facts⟩
    simp only [Prod.mk.injEq, Option.isNone_iff_eq_none] at facts
    exact ⟨plane, ran, suppresses_of_suppressing facts.1, facts.2⟩
  · have facts : ((Machine.run (CronPlane.step FleetState.dnsNames) (start FleetState.oneBox)
        (secondRead [.take, .engine (.reload (.ok noBox)),
          .engine (.reload (.ok FleetState.oneBox)), .interrupt])).map fun plane =>
          (suppressing plane, plane.channel.isEmpty,
            (plane.fleet.cron.system "sys-a").isNone)) = some (true, true, true) := by
      decide +kernel
    rcases Option.map_eq_some_iff.mp facts with ⟨plane, ran, facts⟩
    simp only [Prod.mk.injEq, Option.isNone_iff_eq_none, List.isEmpty_iff] at facts
    exact ⟨plane, ran, suppresses_of_suppressing facts.1, facts.2.1, facts.2.2⟩

end CronPlane

end Fleet

end Gregg
