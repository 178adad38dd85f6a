import Gregg.Clientd.MetricsPlane
import Gregg.Fleet.CronRounds

/-!
# Where a shown snapshot comes from

However polls, deliveries and reloads interleave, a system shows nothing that was not answered, to a
request for the status of that very system, by a well-formed document. A batch that was under way
when the configuration changed is of no use to a system that now has another target.
-/

namespace Gregg.Metrics

open Fleet (IpSyntax FleetState NormalizedSnapshot HostAccepted sameTarget)
open Clientd (PollPlane PollEvent Endpoint)
open Poller
open Protocol

variable {Body Entry Summary Health : Type} {decoders : Decoders Body} {ip : IpSyntax}
  {events : List (MetricsEvent Body Entry Summary Health)}
  {event : MetricsEvent Body Entry Summary Health}

section Sources

/-- A request for an address ended in this way. -/
def Asked (events : List (MetricsEvent Body Entry Summary Health)) (url : List Char)
    (exchange : Exchange Body) : Prop :=
  ∃ index now, .poll (.answered index ⟨url, exchange, now⟩) ∈ events

/-- An endpoint delivered a document, of the first version only where it denied the second. -/
inductive Source (decoders : Decoders Body) (ip : IpSyntax)
    (events : List (MetricsEvent Body Entry Summary Health)) (endpoint : Endpoint) :
    NormalizedSnapshot → Prop where
  | v2 {url : List Char} {answer : Exchange Body} {payload : StatusPayloadV2}
      (isUrl : v2StatusUrl ip endpoint.host endpoint.port = some url)
      (asked : Asked events url answer)
      (delivers : Delivers decoders.statusPayloadV2 PayloadWellFormed answer payload) :
      Source decoders ip events endpoint (.fromV2Payload payload)
  | v1 {v2Url url : List Char} {body : Except BodyError Body} {answer : Exchange Body}
      {snapshot : StatusSnapshot}
      (isV2Url : v2StatusUrl ip endpoint.host endpoint.port = some v2Url)
      (denied : Asked events v2Url (.answered 404 body))
      (isUrl : statusUrl ip endpoint.host endpoint.port = some url)
      (asked : Asked events url answer)
      (delivers : Delivers decoders.statusSnapshot SnapshotWellFormed answer snapshot) :
      Source decoders ip events endpoint (.fromV1 snapshot)

theorem Asked.later {url : List Char} {exchange : Exchange Body}
    (asked : Asked events url exchange) : Asked (events ++ [event]) url exchange := by
  rcases asked with ⟨index, now, member⟩
  exact ⟨index, now, List.mem_append_left _ member⟩

theorem Source.later {endpoint : Endpoint} {normalized : NormalizedSnapshot}
    (source : Source decoders ip events endpoint normalized) :
    Source decoders ip (events ++ [event]) endpoint normalized := by
  cases source with
  | v2 isUrl asked delivers => exact .v2 isUrl asked.later delivers
  | v1 isV2Url denied isUrl asked delivers =>
      exact .v1 isV2Url denied.later isUrl asked.later delivers

/-- A result that is good for the fleet. -/
structure Genuine (decoders : Decoders Body) (ip : IpSyntax)
    (events : List (MetricsEvent Body Entry Summary Health)) (result : Poller.PollResult) :
    Prop where
  systemId : result.systemId = result.endpoint.id
  host : HostAccepted ip result.endpoint.host
  online : ∀ normalized, Fleet.reduceOutcome result.outcome = .online normalized →
    Source decoders ip events result.endpoint normalized

theorem Genuine.later {result : Poller.PollResult} (genuine : Genuine decoders ip events result) :
    Genuine decoders ip (events ++ [event]) result where
  systemId := genuine.systemId
  host := genuine.host
  online := by
    intro normalized isOnline
    exact (genuine.online normalized isOnline).later

/-- The poll of an endpoint against answers that were given is genuine. -/
theorem source_of_poll {endpoint : Endpoint} {exchange : List Char → Exchange Body}
    (asked : ∀ url ∈ requested decoders (prepared ip endpoint) exchange,
      Asked events url (exchange url))
    {normalized : NormalizedSnapshot}
    (isOnline : Fleet.reduceOutcome (pollPrepared decoders (prepared ip endpoint) exchange) =
      .online normalized) : Source decoders ip events endpoint normalized := by
  cases outcome : pollPrepared decoders (prepared ip endpoint) exchange with
  | onlineV2 payload =>
      rw [outcome] at isOnline
      cases isOnline
      rcases pollPrepared_eq_onlineV2_iff.mp outcome with ⟨url, isUrl, delivers⟩
      refine .v2 isUrl (asked url ?_) delivers
      rw [requested, isUrl]
      simp only
      split <;> exact List.mem_cons_self
  | online snapshot =>
      rw [outcome] at isOnline
      cases isOnline
      rcases pollPrepared_eq_online_iff.mp outcome with
        ⟨v2Url, body, url, isV2Url, isDenied, isUrl, delivers⟩
      have both : requested decoders (prepared ip endpoint) exchange = [v2Url, url] := by
        have notFound : (pollSingleUrl decoders .v2 (exchange v2Url)).isNotFound = true :=
          isNotFound_pollSingleUrl_iff.mpr ⟨body, isDenied⟩
        rw [requested, isV2Url]
        simp only [notFound, isUrl]
        rfl
      rw [both] at asked
      have denied := asked v2Url List.mem_cons_self
      rw [isDenied] at denied
      exact .v1 isV2Url denied isUrl (asked url (List.mem_cons_of_mem _ List.mem_cons_self))
        delivers
  | _ =>
      rw [outcome] at isOnline
      cases isOnline

theorem genuine_of_isResult {since : List (GenerationEvent Body)} {index : ℕ} {endpoint : Endpoint}
    {result : Poller.PollResult} (host : HostAccepted ip endpoint.host)
    (happened : ∀ taken ∈ since, .poll taken ∈ events)
    (isResult : IsResult decoders ip since index endpoint result) :
    Genuine decoders ip events result := by
  have isEndpoint := isResult.endpoint
  refine ⟨?_, ?_, ?_⟩
  · rw [isResult.systemId, isEndpoint]
  · rw [isEndpoint]
    exact host
  · intro normalized isOnline
    rw [isEndpoint]
    rcases isResult.outcome with ⟨cancelled, -⟩ | ⟨exchange, isOutcome, hears⟩
    · rw [cancelled] at isOnline
      cases isOnline
    · rw [isOutcome, poll_eq_pollPrepared] at isOnline
      refine source_of_poll ?_ isOnline
      intro url member
      rcases hears url member with ⟨now, answered⟩
      exact ⟨index, now, happened _ answered⟩

end Sources

section Targets

variable {Snapshot Reason : Type}

/-- Accepted hosts that are a same target are the same target. -/
theorem sameTarget_of_both {first second third : Endpoint} (accepted : HostAccepted ip first.host)
    (secondAccepted : HostAccepted ip second.host) (thirdAccepted : HostAccepted ip third.host)
    (same : sameTarget ip first second = true) (other : sameTarget ip first third = true) :
    sameTarget ip second third = true := by
  rcases accepted with ⟨_, normalizes, -⟩
  rcases secondAccepted with ⟨_, secondNormalizes, -⟩
  rcases thirdAccepted with ⟨_, thirdNormalizes, -⟩
  simp only [sameTarget, Fleet.equivalentEndpointHost, normalizes, secondNormalizes,
    thirdNormalizes, Fleet.eqIgnoreAsciiCase, Bool.and_eq_true, beq_iff_eq] at same other ⊢
  exact ⟨same.1.symm.trans other.1, same.2.symm.trans other.2⟩

theorem id_of_resolveResultIndex {systems : List (Fleet.SystemState Snapshot Reason)}
    {resultIndex position : ℕ} {systemId : String}
    (resolves : Fleet.resolveResultIndex systems resultIndex systemId = some position) :
    systems[position]?.any (·.id == systemId) = true := by
  rw [Fleet.resolveResultIndex] at resolves
  split at resolves
  · rename_i isAtIndex
    cases resolves
    exact isAtIndex
  · have isOwn := List.find?_some resolves
    exact isOwn

/-- What every result leaves of its system holds of every system. -/
theorem forall_applyResults {holds : Fleet.SystemState Snapshot Reason → Prop}
    {completedAt index : ℕ} {results : List (Fleet.PollResult Snapshot Reason)}
    {systems : List (Fleet.SystemState Snapshot Reason)}
    (taken : ∀ system, ∀ result ∈ results, result.systemId = system.id → holds system →
      holds (system.applyResult ip completedAt result))
    (initially : ∀ system ∈ systems, holds system) :
    ∀ system ∈ Fleet.applyResults ip completedAt systems index results, holds system := by
  induction results generalizing systems index with
  | nil => exact initially
  | cons result results ih =>
      rw [Fleet.applyResults]
      apply ih
      · intro system later member
        exact taken system later (List.mem_cons_of_mem _ member)
      · split
        · rename_i position resolves
          have isOwn := id_of_resolveResultIndex resolves
          intro system member
          rcases List.getElem?_of_mem member with ⟨other, found⟩
          rw [List.getElem?_modify] at found
          rcases Option.map_eq_some_iff.mp found with ⟨before, isBefore, isSystem⟩
          have earlier := initially before (List.mem_of_getElem? isBefore)
          split at isSystem
          · rename_i isPosition
            subst isPosition
            rw [isBefore, Option.any_some, beq_iff_eq] at isOwn
            cases isSystem
            exact taken before result List.mem_cons_self isOwn.symm earlier
          · cases isSystem
            exact earlier
        · exact initially

end Targets

section Provenance

variable {maxConcurrent : ℕ} {config : Fleet.Config Entry}
  {state next : MetricsPlane Entry Summary Health}

/-- A system shows what its target delivered, under some spelling of it. -/
def Shows (decoders : Decoders Body) (ip : IpSyntax)
    (events : List (MetricsEvent Body Entry Summary Health)) (system : Fleet.PolledSystem)
    (normalized : NormalizedSnapshot) : Prop :=
  ∃ endpoint, endpoint.id = system.id ∧ HostAccepted ip endpoint.host ∧
    sameTarget ip system.endpoint endpoint = true ∧ Source decoders ip events endpoint normalized

structure SystemSound (decoders : Decoders Body) (ip : IpSyntax)
    (events : List (MetricsEvent Body Entry Summary Health)) (system : Fleet.PolledSystem) :
    Prop where
  host : HostAccepted ip system.endpoint.host
  shows : ∀ normalized, system.latest = some normalized →
    Shows decoders ip events system normalized

theorem SystemSound.later {system : Fleet.PolledSystem}
    (sound : SystemSound decoders ip events system) :
    SystemSound decoders ip (events ++ [event]) system where
  host := sound.host
  shows := by
    intro normalized isLatest
    rcases sound.shows normalized isLatest with ⟨endpoint, isId, host, same, source⟩
    exact ⟨endpoint, isId, host, same, source.later⟩

/-- A genuine result is shown by the system it is of. -/
theorem SystemSound.applyResult {system : Fleet.PolledSystem} {result : Poller.PollResult}
    {completedAt : ℕ} (genuine : Genuine decoders ip events result)
    (isOwn : result.systemId = system.id) (sound : SystemSound decoders ip events system) :
    SystemSound decoders ip events
      (system.applyResult ip completedAt (Fleet.reduceResult result)) := by
  rw [Fleet.SystemState.applyResult]
  split
  · rename_i same
    cases outcome : (Fleet.reduceResult result).outcome with
    | online snapshot =>
        refine ⟨sound.host, ?_⟩
        rintro normalized ⟨⟩
        exact ⟨result.endpoint, genuine.systemId.symm.trans isOwn, genuine.host, same,
          genuine.online snapshot outcome⟩
    | offline reason => exact ⟨sound.host, sound.shows⟩
  · exact sound

/-- What the scheduler polls, or will poll, was accepted as a configuration. -/
structure Trusted (ip : IpSyntax) (plane : PollPlane PreparedUrl) : Prop where
  endpoints : ∀ endpoint ∈ plane.endpoints, HostAccepted ip endpoint.host
  commands : ∀ command ∈ plane.commands, ∀ endpoints, command.replacement = some endpoints →
    ∀ endpoint ∈ endpoints, HostAccepted ip endpoint.host

theorem mem_offer {Message : Type} {capacity : ℕ} {waiting : List Message}
    {message offered : Message} (member : message ∈ Mailbox.offer capacity waiting offered) :
    message ∈ waiting ∨ message = offered := by
  rw [Mailbox.offer] at member
  split at member
  · rcases List.mem_append.mp member with earlier | last
    · exact .inl earlier
    · exact .inr (List.mem_singleton.mp last)
  · exact .inl member

theorem Trusted.step {plane after : PollPlane PreparedUrl} {planeEvent : PollEvent}
    (trusted : Trusted ip plane)
    (accepted : ∀ endpoints, planeEvent.accepted = some endpoints →
      ∀ endpoint ∈ endpoints, HostAccepted ip endpoint.host)
    (stepped : plane.step (statusUrls ip) planeEvent = some after) : Trusted ip after := by
  cases PollPlane.moves_of_step stepped with
  | reload loaded reloaded =>
      rw [reloaded]
      cases loaded with
      | ok config =>
          refine ⟨trusted.endpoints, ?_⟩
          intro command member endpoints replaces
          rcases mem_offer member with earlier | rfl
          · exact trusted.commands command earlier endpoints replaces
          · cases replaces
            exact accepted _ rfl
      | error error =>
          refine ⟨trusted.endpoints, ?_⟩
          intro command member endpoints replaces
          rcases mem_offer member with earlier | rfl
          · exact trusted.commands command earlier endpoints replaces
          · cases replaces
  | receive command waiting endpoints prepared =>
      have front : command ∈ plane.commands := waiting ▸ List.mem_cons_self
      refine ⟨?_, ?_⟩
      · rw [endpoints]
        cases command with
        | refresh => exact trusted.endpoints
        | replaceEndpoints replacement => exact trusted.commands _ front replacement rfl
      · intro later member
        exact trusted.commands later (waiting ▸ List.mem_cons_of_mem _ member)
  | other event notReload commands endpoints prepared =>
      refine ⟨?_, ?_⟩
      · rw [endpoints]
        exact trusted.endpoints
      · rw [commands]
        exact trusted.commands

theorem Trusted.step_of_none {plane after : PollPlane PreparedUrl} {planeEvent : PollEvent}
    (trusted : Trusted ip plane) (notAccepted : planeEvent.accepted = none)
    (stepped : plane.step (statusUrls ip) planeEvent = some after) : Trusted ip after := by
  apply trusted.step ?_ stepped
  intro endpoints isAccepted
  rw [notAccepted] at isAccepted
  cases isAccepted

/-- Everything on its way to the fleet is genuine, and so is what the fleet has. -/
structure Provenance (decoders : Decoders Body) (ip : IpSyntax)
    (events : List (MetricsEvent Body Entry Summary Health))
    (state : MetricsPlane Entry Summary Health) : Prop where
  trusted : Trusted ip state.plane
  outgoing : ∀ batch, state.outgoing = some batch → ∀ result ∈ batch.results,
    Genuine decoders ip events result
  incoming : ∀ batch ∈ state.incoming, ∀ result ∈ batch.results,
    Genuine decoders ip events result
  systems : ∀ system ∈ state.fleet.systems, SystemSound decoders ip events system

theorem hosts_of_config (accepted : config.validate ip = []) :
    ∀ endpoint ∈ (pollConfig config).endpoints, HostAccepted ip endpoint.host :=
  (Fleet.endpointsAccepted_of_config (Fleet.Config.accepted_of_validate accepted)).hosts

theorem provenance_start (accepted : config.validate ip = []) :
    Provenance decoders ip ([] : List (MetricsEvent Body Entry Summary Health))
      (.start ip maxConcurrent config) where
  trusted := by
    refine ⟨?_, ?_⟩
    · rw [MetricsPlane.start, PollPlane.start, PollPlane.beginGeneration_endpoints]
      exact hosts_of_config accepted
    · rw [MetricsPlane.start, PollPlane.start, PollPlane.beginGeneration_commands]
      intro command member
      cases member
  outgoing := by
    rintro batch ⟨⟩
  incoming := by
    intro batch member
    cases member
  systems := by
    intro system member
    rcases List.mem_map.mp member with ⟨entry, entryMem, rfl⟩
    refine ⟨hosts_of_config accepted _ (List.mem_map_of_mem entryMem), ?_⟩
    rintro normalized ⟨⟩

/-- The results of a complete generation are genuine. -/
theorem genuine_of_complete (coupled : MetricsPlane.Coupled decoders ip maxConcurrent config events
      state) (trusted : Trusted ip state.plane) (polling : state.plane.phase = .polling) :
    ∀ result ∈ state.generation.pool.joined, Genuine decoders ip events result := by
  intro result member
  rcases List.getElem?_of_mem member with ⟨index, joined⟩
  rcases coupled.generation polling with ⟨since, ran, happened⟩
  rw [MetricsPlane.prepared_of_run coupled.plane] at ran
  rcases isResult_of_run ran joined with ⟨endpoint, isEndpoint, isResult⟩
  exact genuine_of_isResult (trusted.endpoints endpoint (List.mem_of_getElem? isEndpoint)) happened
    isResult

/-- A batch of genuine results leaves a sound fleet. -/
theorem systems_applyBatch {fleet : PolledFleet Entry Summary Health} {batch : Poller.PollBatch}
    (genuine : ∀ result ∈ batch.results, Genuine decoders ip events result)
    (sound : ∀ system ∈ fleet.systems, SystemSound decoders ip events system) :
    ∀ system ∈ (fleet.applyBatch ip (Fleet.reduceBatch batch)).systems,
      SystemSound decoders ip events system := by
  rw [FleetState.applyBatch]
  split
  · apply forall_applyResults
    · intro system reduced member isOwn held
      rcases List.mem_map.mp member with ⟨result, resultMem, rfl⟩
      exact held.applyResult (genuine result resultMem) isOwn
    · exact sound
  · exact sound

/-- A retained system is shown under the new spelling of its target. -/
theorem systems_reloadConfig {fleet : PolledFleet Entry Summary Health}
    (accepted : config.validate ip = []) (wellFormed : fleet.WellFormed)
    (sound : ∀ system ∈ fleet.systems, SystemSound decoders ip events system) :
    ∀ system ∈ (fleet.reloadConfig ip (.ok config)).1.systems,
      SystemSound decoders ip events system := by
  rw [(FleetState.reloadConfig_ok (Fleet.Config.accepted_of_validate accepted) wellFormed).1]
  intro system member
  rcases List.mem_map.mp member with ⟨entry, entryMem, rfl⟩
  have host : HostAccepted ip entry.toEndpoint.host :=
    hosts_of_config accepted _ (List.mem_map_of_mem entryMem)
  have isNew : SystemSound decoders ip events (Fleet.systemFromEntry entry) := by
    refine ⟨host, ?_⟩
    rintro normalized ⟨⟩
  rw [Fleet.reconcileEntry]
  cases found : fleet.oldById.find? entry.id with
  | none => exact isNew
  | some old =>
      rcases FleetState.id_oldById wellFormed found with ⟨oldMem, isId⟩
      have wasSound := sound old oldMem
      simp only
      split
      · rename_i retained
        refine ⟨host, ?_⟩
        intro normalized isLatest
        rcases wasSound.shows normalized isLatest with ⟨endpoint, sameId, polledHost, same, source⟩
        exact ⟨endpoint, sameId, polledHost,
          sameTarget_of_both wasSound.host host polledHost retained same, source⟩
      · exact isNew

theorem Provenance.step (accepted : config.validate ip = [])
    (coupled : MetricsPlane.Coupled decoders ip maxConcurrent config events state)
    (provenance : Provenance decoders ip events state)
    (moves : MetricsPlane.Moves decoders ip maxConcurrent state event next) :
    Provenance decoders ip (events ++ [event]) next := by
  have wellFormed := FleetState.wellFormed_of_run accepted coupled.fleet
  have outgoing : ∀ batch, state.outgoing = some batch → ∀ result ∈ batch.results,
      Genuine decoders ip (events ++ [event]) result := by
    intro batch isOutgoing result member
    exact (provenance.outgoing batch isOutgoing result member).later
  have incoming : ∀ batch ∈ state.incoming, ∀ result ∈ batch.results,
      Genuine decoders ip (events ++ [event]) result := by
    intro batch batchMem result member
    exact (provenance.incoming batch batchMem result member).later
  have systems : ∀ system ∈ state.fleet.systems,
      SystemSound decoders ip (events ++ [event]) system := by
    intro system member
    exact (provenance.systems system member).later
  cases moves with
  | poll event generation polling stepped =>
      exact ⟨provenance.trusted, outgoing, incoming, systems⟩
  | completed now plane complete stepped =>
      refine ⟨provenance.trusted.step_of_none rfl stepped, ?_, incoming, systems⟩
      rintro batch ⟨⟩ result member
      have polling := (MetricsPlane.of_polled stepped).1
      exact (genuine_of_complete coupled provenance.trusted polling result member).later
  | delivered plane running stepped =>
      refine ⟨provenance.trusted.step_of_none rfl stepped, ?_, ?_, systems⟩
      · rintro batch ⟨⟩
      · intro batch member
        rcases List.mem_append.mp member with waiting | sent
        · exact incoming batch waiting
        · exact outgoing batch (Option.mem_toList.mp sent)
  | applied batch rest plane waiting stepped =>
      refine ⟨provenance.trusted.step_of_none rfl stepped, outgoing, ?_, ?_⟩
      · intro later member
        exact incoming later (waiting ▸ List.mem_cons_of_mem _ member)
      · rw [FleetState.fst_applyBatchOwnedChanged wellFormed.idsNodup]
        exact systems_applyBatch (incoming batch (waiting ▸ List.mem_cons_self)) systems
  | woken event planeEvent plane generation isWake seen stepped begins =>
      refine ⟨provenance.trusted.step_of_none ?_ stepped, outgoing, incoming, systems⟩
      rcases isWake with rfl | rfl <;> rfl
  | reload loaded planeEvent plane fleet seen fleetStepped stepped =>
      cases loaded with
      | ok config =>
          rw [FleetState.step] at fleetStepped
          split at fleetStepped
          · rename_i valid
            cases fleetStepped
            cases seen
            refine ⟨provenance.trusted.step ?_ stepped, outgoing, incoming, ?_⟩
            · rintro endpoints ⟨⟩
              exact hosts_of_config valid
            · exact systems_reloadConfig valid wellFormed systems
          · cases fleetStepped
      | error error =>
          cases fleetStepped
          cases seen
          exact ⟨provenance.trusted.step_of_none rfl stepped, outgoing, incoming, systems⟩
  | other event fleetEvent fleet seen stepped sameSystems sameApplied =>
      refine ⟨provenance.trusted, outgoing, incoming, ?_⟩
      rw [sameSystems]
      exact systems

theorem provenance_of_run (accepted : config.validate ip = [])
    (ran : Machine.run (MetricsPlane.step decoders ip maxConcurrent)
      (.start ip maxConcurrent config) events = some state) :
    Provenance decoders ip events state := by
  have both : MetricsPlane.Coupled decoders ip maxConcurrent config events state ∧
      Provenance decoders ip events state := by
    apply Machine.run_induction (fun events (state : MetricsPlane Entry Summary Health) =>
      MetricsPlane.Coupled decoders ip maxConcurrent config events state ∧
        Provenance decoders ip events state) ran
    · exact ⟨MetricsPlane.coupled_start, provenance_start accepted⟩
    · intro _ _ _ _ ranBefore known stepped
      have moves := MetricsPlane.moves_of_step stepped
      exact ⟨known.1.step accepted ranBefore moves, known.2.step accepted known.1 moves⟩
  exact both.2

/-- In every run, whatever a system shows was delivered by its own target as a well-formed
document. -/
theorem shows_of_run (accepted : config.validate ip = [])
    (ran : Machine.run (MetricsPlane.step decoders ip maxConcurrent)
      (.start ip maxConcurrent config) events = some state) :
    ∀ system ∈ state.fleet.systems, ∀ normalized, system.latest = some normalized →
      Shows decoders ip events system normalized := by
  intro system member
  exact ((provenance_of_run accepted ran).systems system member).shows

theorem shows_of_run_firstGeneration :
    ∃ (state : MetricsPlane Unit Unit Unit) (system : Fleet.PolledSystem),
      system ∈ state.fleet.systems ∧
        Shows MetricsPlane.idleDecoders FleetState.dnsNames
          (MetricsPlane.firstGeneration ++ [.applied]) system
          (.fromV2Payload MetricsPlane.idlePayload) := by
  obtain ⟨state, system, ran, member, isLatest⟩ :
      ∃ (state : MetricsPlane Unit Unit Unit) (system : Fleet.PolledSystem),
        Machine.run (MetricsPlane.step MetricsPlane.idleDecoders FleetState.dnsNames 1)
            (.start FleetState.dnsNames 1 FleetState.oneBox)
            (MetricsPlane.firstGeneration ++ [.applied]) = some state ∧
          state.fleet.systems = [system] ∧
          system.latest = some (.fromV2Payload MetricsPlane.idlePayload) :=
    ⟨_, _, rfl, rfl, rfl⟩
  have isMember : system ∈ state.fleet.systems := member ▸ List.mem_singleton.mpr rfl
  exact ⟨state, system, isMember, shows_of_run (by decide) ran system isMember _ isLatest⟩

end Provenance

end Gregg.Metrics
