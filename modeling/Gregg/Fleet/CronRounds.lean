import Gregg.Fleet.CronWorker

/-!
# Targets and rounds

A target's key tells targets apart exactly as the engine does. Within a round every target is read
once, so the gate the round began with still stands for each target that has not been delivered.
-/

namespace Gregg.Fleet

open Clientd (SystemEntry Endpoint)

section Keys

variable {ip : IpSyntax}

/-- Texts that agree around a separator agree on both sides when it does not occur after. -/
theorem append_cons_inj {separator : Char} {before after otherBefore otherAfter : List Char}
    (same : before ++ separator :: after = otherBefore ++ separator :: otherAfter)
    (notAfter : separator ∉ after) (notOtherAfter : separator ∉ otherAfter) :
    before = otherBefore ∧ after = otherAfter := by
  rcases List.append_eq_append_iff.mp same with ⟨between, split, rest⟩ | ⟨between, split, rest⟩
  · cases between with
    | nil =>
        cases rest
        exact ⟨by simpa using split.symm, rfl⟩
    | cons first between =>
        rw [List.cons_append, List.cons.injEq] at rest
        exact absurd (by simp [rest.2]) notAfter
  · cases between with
    | nil =>
        cases rest
        exact ⟨by simpa using split, rfl⟩
    | cons first between =>
        rw [List.cons_append, List.cons.injEq] at rest
        exact absurd (by simp [rest.2]) notOtherAfter

theorem toList_port (port : UInt16) : (toString port).toList = Nat.toDigits 10 port.toNat :=
  Nat.toList_repr

theorem separator_notMem_port (port : UInt16) : '\x1f' ∉ (toString port).toList := by
  rw [toList_port]
  intro member
  have isDigit := Nat.isDigit_of_mem_toDigits (by decide) (by decide) member
  revert isDigit
  decide

theorem port_injective {left right : UInt16}
    (same : (toString left).toList = (toString right).toList) : left = right := by
  rw [toList_port, toList_port] at same
  have sameValue := congrArg (fun digits => Nat.ofDigitChars 10 digits 0) same
  rwa [Nat.ofDigitChars_ten_toDigits, Nat.ofDigitChars_ten_toDigits, UInt16.toNat_inj] at sameValue

/-- An endpoint of an accepted configuration. -/
def HostAccepted (ip : IpSyntax) (host : String) : Prop :=
  ∃ normalized, normalizeHost ip host.toList = some normalized ∧
    ∀ character ∈ normalized, Text.isControl character = false

/-- Lowercasing yields a unit separator from nothing else. -/
theorem eq_separator_of_toLower {character : Char} (lower : character.toLower = '\x1f') :
    character = '\x1f' := by
  unfold Char.toLower at lower
  split at lower
  · have sameCode := congrArg Char.val lower
    simp at sameCode
    grind
  · exact lower

theorem separator_notMem_lowercase {normalized : List Char}
    (printable : ∀ character ∈ normalized, Text.isControl character = false) :
    '\x1f' ∉ toAsciiLowercase normalized := by
  intro member
  rcases List.mem_map.mp member with ⟨character, characterMem, isSeparator⟩
  have control := printable character characterMem
  rw [eq_separator_of_toLower isSeparator] at control
  revert control
  decide

/-- Equal keys are the same id at the same target, as the engine compares targets. -/
theorem eq_of_targetKey_eq {id otherId host otherHost : String} {port otherPort : UInt16}
    (accepted : HostAccepted ip host) (otherAccepted : HostAccepted ip otherHost)
    (same : targetKey ip id host port = targetKey ip otherId otherHost otherPort) :
    id = otherId ∧ equivalentEndpointHost ip host otherHost = true ∧ port = otherPort := by
  rcases accepted with ⟨normalized, normalizes, printable⟩
  rcases otherAccepted with ⟨otherNormalized, otherNormalizes, otherPrintable⟩
  simp only [targetKey, normalizes, otherNormalizes, String.ofList_inj] at same
  rcases append_cons_inj same (separator_notMem_port port) (separator_notMem_port otherPort) with
    ⟨sameFront, samePort⟩
  rcases append_cons_inj sameFront (separator_notMem_lowercase printable)
    (separator_notMem_lowercase otherPrintable) with ⟨sameId, sameHost⟩
  refine ⟨String.toList_inj.mp sameId, ?_, port_injective samePort⟩
  simpa [equivalentEndpointHost, normalizes, otherNormalizes, eqIgnoreAsciiCase] using sameHost

/-- Where the engine sees the same target, the keys are equal. -/
theorem endpointKey_eq_of_sameTarget {endpoint other : Endpoint}
    (accepted : HostAccepted ip endpoint.host) (otherAccepted : HostAccepted ip other.host)
    (sameId : endpoint.id = other.id) (same : sameTarget ip endpoint other = true) :
    endpointKey ip endpoint = endpointKey ip other := by
  rcases accepted with ⟨normalized, normalizes, -⟩
  rcases otherAccepted with ⟨otherNormalized, otherNormalizes, -⟩
  have both : toAsciiLowercase normalized = toAsciiLowercase otherNormalized ∧
      endpoint.port = other.port := by
    simpa [sameTarget, equivalentEndpointHost, normalizes, otherNormalizes, eqIgnoreAsciiCase]
      using same
  simp only [endpointKey, targetKey, normalizes, otherNormalizes, sameId, both.1, both.2]

/-- The endpoints of an accepted configuration, or some of them. -/
structure EndpointsAccepted (ip : IpSyntax) (endpoints : List Endpoint) : Prop where
  idsNodup : (endpoints.map (·.id)).Nodup
  hosts : ∀ endpoint ∈ endpoints, HostAccepted ip endpoint.host

theorem endpointsAccepted_of_config {Entry : Type} {config : Config Entry}
    (accepted : config.Accepted ip) :
    EndpointsAccepted ip (config.systems.map (·.toEndpoint)) where
  idsNodup := by
    rw [List.map_map]
    exact accepted.idsNodup
  hosts := by
    intro endpoint member
    rcases List.mem_map.mp member with ⟨entry, entryMem, rfl⟩
    exact accepted.hosts entry entryMem

variable {endpoints : List Endpoint}

theorem EndpointsAccepted.eq_of_key_eq (accepted : EndpointsAccepted ip endpoints)
    {first second : Endpoint} (firstMem : first ∈ endpoints) (secondMem : second ∈ endpoints)
    (same : endpointKey ip first = endpointKey ip second) : first = second := by
  have sameId := (eq_of_targetKey_eq (accepted.hosts first firstMem)
    (accepted.hosts second secondMem) same).1
  exact List.inj_on_of_nodup_map accepted.idsNodup firstMem secondMem sameId

theorem EndpointsAccepted.sublist {fewer : List Endpoint}
    (accepted : EndpointsAccepted ip endpoints) (sublist : fewer.Sublist endpoints) :
    EndpointsAccepted ip fewer where
  idsNodup := accepted.idsNodup.sublist (sublist.map _)
  hosts := fun endpoint member => accepted.hosts endpoint (sublist.subset member)

theorem EndpointsAccepted.perm {other : List Endpoint} (accepted : EndpointsAccepted ip endpoints)
    (perm : other.Perm endpoints) : EndpointsAccepted ip other where
  idsNodup := (perm.map _).nodup_iff.mpr accepted.idsNodup
  hosts := fun endpoint member => accepted.hosts endpoint (perm.subset member)

end Keys

section Rounds

variable {ip : IpSyntax}

/-- The endpoints a round has not delivered. -/
def CronRound.remaining (round : CronRound) : List Endpoint :=
  round.inFlight.map (·.endpoint) ++ round.pending

/-- What the gate had said when a fetch came to its stage. -/
def InFlight.Fits (ip : IpSyntax) (gate : HistoryGate) (fetch : InFlight) : Prop :=
  match fetch.stage with
  | .readingSummary => True
  | .readingHistory summary => gate.needs (endpointKey ip fetch.endpoint) summary = true
  | .finished finished => finished.endpoint = fetch.endpoint ∧
      ∀ document, finished.summary = .supported document →
        (finished.history = .suppressed ↔
          gate.needs (endpointKey ip fetch.endpoint) document = false)

/-- A round reads each of its targets once, and none of those left has moved the gate. -/
structure CronRound.Fits (ip : IpSyntax) (gate : HistoryGate) (round : CronRound) : Prop where
  accepted : EndpointsAccepted ip round.remaining
  asSnapshot : ∀ endpoint ∈ round.remaining,
    gate.entries.find? (endpointKey ip endpoint) =
      round.snapshot.entries.find? (endpointKey ip endpoint)
  stages : ∀ fetch ∈ round.inFlight, fetch.Fits ip round.snapshot

theorem InFlight.fits_afterSummary {fetch : InFlight} {gate : HistoryGate}
    {outcome : SummaryOutcome} : (fetch.afterSummary ip gate outcome).Fits ip gate := by
  cases outcome with
  | supported document =>
      simp only [afterSummary]
      split
      · rename_i needed
        exact needed
      · rename_i notNeeded
        refine ⟨rfl, ?_⟩
        rintro other ⟨⟩
        simpa using notNeeded
  | unsupported =>
      refine ⟨rfl, ?_⟩
      rintro other ⟨⟩
  | failed error =>
      refine ⟨rfl, ?_⟩
      rintro other ⟨⟩

theorem endpoint_afterSummary {fetch : InFlight} {gate : HistoryGate} {outcome : SummaryOutcome} :
    (fetch.afterSummary ip gate outcome).endpoint = fetch.endpoint := by
  cases outcome with
  | supported document =>
      simp only [InFlight.afterSummary]
      split <;> rfl
  | unsupported => rfl
  | failed error => rfl

/-- What a finished fetch becomes: a coherent pair with its commit, or an observation without
history and without a commit. -/
inductive Settled (ip : IpSyntax) (finished : EndpointFetch) (nowUnixMs : ℕ) :
    CronObservation × Option PendingGateCommit → Prop where
  | coherent (document : SchedulerSummaryV2) (found : SchedulerHistoryV2)
      (isSummary : finished.summary = .supported document)
      (isHistory : finished.history = .fetched (.ok (some found)))
      (sameEpoch : found.epoch = document.epoch)
      (sameRevision : found.historyRevision = document.historyRevision) :
      Settled ip finished nowUnixMs
        (⟨finished.endpoint.id, finished.endpoint.host, finished.endpoint.port, finished.summary,
            some found, none, nowUnixMs⟩,
          some ⟨endpointKey ip finished.endpoint, found.epoch, found.historyRevision⟩)
  | bare (historyError : Option CronFetchError)
      (wasSuppressed : ∀ document, finished.summary = .supported document → historyError = none →
        finished.history = .suppressed) :
      Settled ip finished nowUnixMs
        (⟨finished.endpoint.id, finished.endpoint.host, finished.endpoint.port, finished.summary,
          none, historyError, nowUnixMs⟩, none)

theorem settled_settle (ip : IpSyntax) (finished : EndpointFetch) (nowUnixMs : ℕ) :
    Settled ip finished nowUnixMs (settle ip finished nowUnixMs) := by
  rcases finished with ⟨endpoint, summary, history⟩
  cases summary with
  | unsupported => exact .bare none (by rintro document ⟨⟩)
  | failed error => exact .bare none (by rintro document ⟨⟩)
  | supported document =>
      rcases history with _ | answer
      · exact .bare none fun _ _ _ => rfl
      · rcases answer with error | _ | found
        · exact .bare (some error) (by rintro _ _ ⟨⟩)
        · exact .bare _ (by rintro _ _ ⟨⟩)
        · simp only [settle]
          split
          · rename_i same
            exact .coherent document found rfl rfl same.1 same.2
          · exact .bare _ (by rintro _ _ ⟨⟩)

end Rounds

namespace CronPlane

variable {Snapshot Reason Entry Summary Health : Type} {ip : IpSyntax}
  {plane next : CronPlane Snapshot Reason Entry Summary Health}
  {event : CronEvent Snapshot Reason Entry Summary Health}

/-- What a step can do to the gate, the channel, the cache and the configured targets. -/
inductive Moves (ip : IpSyntax) (plane next : CronPlane Snapshot Reason Entry Summary Health) :
    CronEvent Snapshot Reason Entry Summary Health → Prop where
  | quiet (event : CronEvent Snapshot Reason Entry Summary Health)
      (cron : next.fleet.cron = plane.fleet.cron)
      (targets : next.fleet.systems.map (·.target) = plane.fleet.systems.map (·.target))
      (endpoints : next.endpoints = plane.endpoints) (gate : next.gate = plane.gate)
      (channel : next.channel = plane.channel) (delivered : next.delivered = plane.delivered)
      (fits : ∀ gate, (∀ round ∈ plane.round, round.Fits ip gate) →
        ∀ round ∈ next.round, round.Fits ip gate) : Moves ip plane next event
  | begin (idle : plane.round = none) (begun : plane.beginRound ip = some next) :
      Moves ip plane next .beginRound
  | deliver (index nowUnixMs : ℕ) (round : CronRound) (endpoint : Endpoint)
      (finished : EndpointFetch) (isRound : plane.round = some round)
      (isFinished : round.inFlight[index]? = some ⟨endpoint, .finished finished⟩)
      (fleet : next.fleet = plane.fleet) (endpoints : next.endpoints = plane.endpoints)
      (gate : next.gate =
        ((settle ip finished nowUnixMs).2.map plane.gate.commit).getD plane.gate)
      (channel : next.channel = plane.channel ++ [(settle ip finished nowUnixMs).1])
      (delivered : next.delivered = plane.delivered ++ [(settle ip finished nowUnixMs).1])
      (rest : next.round = some
        { round with
          pending := round.pending.tail
          inFlight := round.inFlight.eraseIdx index ++
            (round.pending.head?.map (⟨·, .readingSummary⟩)).toList }) :
      Moves ip plane next (.deliver index nowUnixMs)
  | take (observation : CronObservation) (queued : plane.channel = observation :: next.channel)
      (taken : next = { plane with
        fleet := (plane.fleet.takeCronObservation ip observation).1, channel := next.channel }) :
      Moves ip plane next .take
  | reload (config : Config Entry) (valid : config.validate ip = [])
      (reloaded : next = { plane with
        fleet := (plane.fleet.reloadConfig ip (.ok config)).1
        endpoints := config.systems.map (·.toEndpoint)
        notified := true }) :
      Moves ip plane next (.engine (.reload (.ok config)))

theorem map_endpoint_set {inFlight : List InFlight} {index : ℕ} {fetch read : InFlight}
    (isFetch : inFlight[index]? = some fetch) (sameEndpoint : read.endpoint = fetch.endpoint) :
    (inFlight.set index read).map (·.endpoint) = inFlight.map (·.endpoint) := by
  apply List.ext_getElem?
  intro other
  rw [List.getElem?_map, List.getElem?_map, List.getElem?_set]
  split
  · rename_i isIndex
    rw [← isIndex, isFetch]
    split
    · simp [sameEndpoint]
    · rename_i outside
      exact absurd (List.getElem?_eq_some_iff.mp isFetch).1 outside
  · rfl

/-- Replacing a fetch by the same one further on. -/
theorem fits_set {round : CronRound} {gate : HistoryGate} {index : ℕ} {fetch read : InFlight}
    (fits : round.Fits ip gate) (isFetch : round.inFlight[index]? = some fetch)
    (sameEndpoint : read.endpoint = fetch.endpoint) (readFits : read.Fits ip round.snapshot) :
    CronRound.Fits ip gate { round with inFlight := round.inFlight.set index read } := by
  have sameRemaining : CronRound.remaining { round with
      inFlight := round.inFlight.set index read } = round.remaining := by
    rw [CronRound.remaining, map_endpoint_set isFetch sameEndpoint]
    rfl
  refine ⟨sameRemaining ▸ fits.accepted, sameRemaining ▸ fits.asSnapshot, ?_⟩
  intro other otherMem
  rcases List.mem_or_eq_of_mem_set otherMem with before | rfl
  · exact fits.stages other before
  · exact readFits

theorem moves_of_engine {event : FleetEvent Snapshot Reason Entry Summary Health}
    (stepped : plane.engine ip event = some next) : Moves ip plane next (.engine event) := by
  cases event with
  | batch batch =>
      cases stepped
      have applied : (plane.fleet.applyBatch ip batch).cron = plane.fleet.cron ∧
          (plane.fleet.applyBatch ip batch).systems.map (·.target) =
            plane.fleet.systems.map (·.target) := by
        simp only [FleetState.applyBatch]
        split
        · exact ⟨rfl, targets_applyResults⟩
        · exact ⟨rfl, rfl⟩
      exact .quiet _ applied.1 applied.2 rfl rfl rfl rfl fun _ fits => fits
  | observation observation => cases stepped
  | eggpool eggpool =>
      cases stepped
      exact .quiet _ rfl rfl rfl rfl rfl rfl fun _ fits => fits
  | reload loaded =>
      cases loaded with
      | ok config =>
          rcases Option.map_eq_some_iff.mp stepped with ⟨fleet, reloaded, ⟨⟩⟩
          simp only [FleetState.step] at reloaded
          split at reloaded
          · rename_i valid
            cases reloaded
            exact .reload config valid rfl
          · cases reloaded
      | error error =>
          cases stepped
          exact .quiet _ rfl rfl rfl rfl rfl rfl fun _ fits => fits

theorem moves_of_step (stepped : plane.step ip event = some next) : Moves ip plane next event := by
  cases event with
  | beginRound =>
      have idle : plane.round = none := by
        simp only [step, beginRound] at stepped
        split at stepped
        · cases stepped
        · assumption
      exact .begin idle stepped
  | summaryRead index outcome =>
      rcases Option.bind_eq_some_iff.mp stepped with ⟨round, isRound, read⟩
      split at read
      · rename_i endpoint isFetch
        cases read
        refine .quiet _ rfl rfl rfl rfl rfl rfl ?_
        rintro gate fits _ ⟨⟩
        exact fits_set (fits round isRound) isFetch endpoint_afterSummary
          InFlight.fits_afterSummary
      · cases read
  | historyRead index answer =>
      rcases Option.bind_eq_some_iff.mp stepped with ⟨round, isRound, read⟩
      split at read
      · rename_i endpoint summary isFetch
        cases read
        refine .quiet _ rfl rfl rfl rfl rfl rfl ?_
        rintro gate fits _ ⟨⟩
        have needed := (fits round isRound).stages _ (List.mem_of_getElem? isFetch)
        refine fits_set (fits round isRound) isFetch rfl ⟨rfl, ?_⟩
        rintro document ⟨⟩
        simpa [InFlight.Fits] using needed
      · cases read
  | deliver index nowUnixMs =>
      rcases Option.bind_eq_some_iff.mp stepped with ⟨round, isRound, delivered⟩
      split at delivered
      · rename_i endpoint finished isFinished
        split at delivered
        · cases delivered
          exact .deliver index nowUnixMs round endpoint finished isRound isFinished rfl rfl rfl rfl
            rfl rfl
        · cases delivered
      · cases delivered
  | complete =>
      rcases Option.bind_eq_some_iff.mp stepped with ⟨round, isRound, completed⟩
      split at completed
      · cases completed
        refine .quiet _ rfl rfl rfl rfl rfl rfl ?_
        rintro gate fits _ ⟨⟩
      · cases completed
  | interrupt =>
      simp only [step, interrupt] at stepped
      split at stepped
      · cases stepped
        refine .quiet _ rfl rfl rfl rfl rfl rfl ?_
        rintro gate fits _ ⟨⟩
      · cases stepped
  | take =>
      simp only [step, take] at stepped
      split at stepped
      · cases stepped
      · rename_i observation rest queued
        cases stepped
        exact .take observation queued rfl
  | engine event => exact moves_of_engine stepped

/-- What every run of the plane keeps. -/
structure Sound (ip : IpSyntax) (plane : CronPlane Snapshot Reason Entry Summary Health) :
    Prop where
  fleet : plane.fleet.WellFormed
  endpoints : EndpointsAccepted ip plane.endpoints
  listed : plane.fleet.systems.map (·.target) = plane.endpoints.map fun endpoint =>
    (endpoint.id, endpoint)
  round : ∀ round ∈ plane.round, round.Fits ip plane.gate
  queued : ∃ taken, plane.delivered = taken ++ plane.channel
  hosts : ∀ observation ∈ plane.delivered, HostAccepted ip observation.host

/-- The round after a delivery, and the endpoint that left it. -/
theorem remaining_deliver {round : CronRound} {index : ℕ} {fetch : InFlight}
    (isFetch : round.inFlight[index]? = some fetch) :
    round.remaining.Perm (fetch.endpoint :: CronRound.remaining
      { round with
        pending := round.pending.tail
        inFlight := round.inFlight.eraseIdx index ++
          (round.pending.head?.map (⟨·, .readingSummary⟩)).toList }) := by
  rcases List.getElem?_eq_some_iff.mp isFetch with ⟨inRange, isFetch⟩
  have removed : (fetch :: round.inFlight.eraseIdx index).Perm round.inFlight :=
    isFetch ▸ List.getElem_cons_eraseIdx_perm inRange
  have started : ((round.pending.head?.map (InFlight.mk · .readingSummary)).toList.map
      (·.endpoint)) ++ round.pending.tail = round.pending := by
    cases round.pending <;> rfl
  have endpoints := (removed.map (·.endpoint)).symm
  simp only [CronRound.remaining, List.map_append, List.append_assoc, started]
  exact endpoints.append_right round.pending

theorem fits_deliver {round : CronRound} {gate : HistoryGate} {index nowUnixMs : ℕ}
    {endpoint : Endpoint} {finished : EndpointFetch} (fits : round.Fits ip gate)
    (isFinished : round.inFlight[index]? = some ⟨endpoint, .finished finished⟩) :
    CronRound.Fits ip (((settle ip finished nowUnixMs).2.map gate.commit).getD gate)
      { round with
        pending := round.pending.tail
        inFlight := round.inFlight.eraseIdx index ++
          (round.pending.head?.map (⟨·, .readingSummary⟩)).toList } := by
  have perm := remaining_deliver isFinished
  have stage := fits.stages _ (List.mem_of_getElem? isFinished)
  have isEndpoint : finished.endpoint = endpoint := stage.1
  have permuted := fits.accepted.perm perm.symm
  refine ⟨permuted.sublist (List.sublist_cons_self _ _), ?_, ?_⟩
  · intro other otherMem
    have otherRemains : other ∈ round.remaining :=
      perm.symm.subset (List.mem_cons_of_mem _ otherMem)
    rw [← fits.asSnapshot other otherRemains]
    have settled := settled_settle ip finished nowUnixMs
    generalize settle ip finished nowUnixMs = outcome at settled
    cases settled with
    | bare => rfl
    | coherent document found =>
        have distinct : endpointKey ip other ≠ endpointKey ip finished.endpoint := by
          intro sameKey
          rw [isEndpoint] at sameKey
          have same := permuted.eq_of_key_eq (List.mem_cons_of_mem _ otherMem)
            List.mem_cons_self sameKey
          have idsNodup := permuted.idsNodup
          rw [List.map_cons, List.nodup_cons] at idsNodup
          exact idsNodup.1 (same ▸ List.mem_map_of_mem otherMem)
        exact SortedMap.find?_upsert_of_ne distinct
  · intro other otherMem
    rcases List.mem_append.mp otherMem with before | started
    · exact fits.stages other ((List.eraseIdx_sublist _ _).subset before)
    · rcases Option.mem_toList.mp started with isStarted
      rcases Option.map_eq_some_iff.mp isStarted with ⟨_, -, rfl⟩
      trivial

theorem fits_beginRound (accepted : EndpointsAccepted ip plane.endpoints)
    (begun : plane.beginRound ip = some next) :
    (∀ round ∈ next.round, round.Fits ip next.gate) ∧ next.fleet = plane.fleet ∧
      next.endpoints = plane.endpoints ∧ next.channel = plane.channel ∧
      next.delivered = plane.delivered ∧
      next.gate = plane.gate.forgetAbsent (plane.endpoints.map (endpointKey ip)) := by
  simp only [beginRound] at begun
  split at begun
  · cases begun
  · cases begun
    refine ⟨?_, rfl, rfl, rfl, rfl, rfl⟩
    rintro round ⟨⟩
    have sameRemaining : ((plane.endpoints.take CRON_MAX_IN_FLIGHT).map
        (InFlight.mk · .readingSummary)).map (·.endpoint) ++
          plane.endpoints.drop CRON_MAX_IN_FLIGHT = plane.endpoints := by
      rw [List.map_map]
      exact (congrArg (· ++ _) (List.map_id _)).trans (List.take_append_drop _ _)
    refine ⟨?_, fun _ _ => rfl, ?_⟩
    · rw [CronRound.remaining, sameRemaining]
      exact accepted
    · intro fetch fetchMem
      rcases List.mem_map.mp fetchMem with ⟨_, -, rfl⟩
      trivial

theorem sound_start {config : Config Entry} (valid : config.validate ip = []) :
    (start config : CronPlane Snapshot Reason Entry Summary Health).Sound ip where
  fleet := FleetState.wellFormed_fromConfig (Config.accepted_of_validate valid)
  endpoints := endpointsAccepted_of_config (Config.accepted_of_validate valid)
  listed := by
    simp only [start, FleetState.fromConfig, List.map_map]
    rfl
  round := by rintro round ⟨⟩
  queued := ⟨[], rfl⟩
  hosts := by
    intro observation member
    cases member

theorem wellFormed_of_targets {fleet other : FleetState Snapshot Reason Entry Summary Health}
    (wellFormed : fleet.WellFormed) (cron : other.cron = fleet.cron)
    (targets : other.systems.map (·.target) = fleet.systems.map (·.target)) :
    other.WellFormed := by
  have ids : other.systems.map (·.id) = fleet.systems.map (·.id) := by
    have sameIds := congrArg (List.map Prod.fst) targets
    rw [List.map_map, List.map_map] at sameIds
    exact sameIds
  refine ⟨ids ▸ wellFormed.idsNodup, ?_⟩
  rw [cron, ids]
  exact wellFormed.cronListed

theorem systems_takeCronObservation {fleet : FleetState Snapshot Reason Entry Summary Health}
    {observation : CronObservation} :
    (fleet.takeCronObservation ip observation).1.systems = fleet.systems := by
  simp only [FleetState.takeCronObservation]
  split <;> rfl

theorem targets_reloadConfig {fleet : FleetState Snapshot Reason Entry Summary Health}
    {config : Config Entry} (accepted : config.Accepted ip) (wellFormed : fleet.WellFormed) :
    (fleet.reloadConfig ip (.ok config)).1.systems.map (·.target) =
      (config.systems.map (·.toEndpoint)).map fun endpoint => (endpoint.id, endpoint) := by
  rw [(FleetState.reloadConfig_ok accepted wellFormed).1, List.map_map, List.map_map]
  apply List.map_congr_left
  intro entry _
  have configured : (reconcileEntry ip fleet.oldById entry).1.id = entry.id ∧
      (reconcileEntry ip fleet.oldById entry).1.endpoint = entry.toEndpoint ∧
      (reconcileEntry ip fleet.oldById entry).1.configuredName = entry.name :=
    FleetState.id_reconcileEntry fun id old found => (FleetState.id_oldById wellFormed found).2
  exact Prod.ext configured.1 configured.2.1

theorem Sound.step (sound : plane.Sound ip) (stepped : plane.step ip event = some next) :
    next.Sound ip := by
  cases moves_of_step stepped with
  | quiet event cron targets endpoints gate channel delivered fits =>
      refine ⟨wellFormed_of_targets sound.fleet cron targets, endpoints ▸ sound.endpoints, ?_,
        gate ▸ fits _ sound.round, ?_, delivered ▸ sound.hosts⟩
      · rw [targets, endpoints]
        exact sound.listed
      · rw [delivered, channel]
        exact sound.queued
  | begin idle begun =>
      rcases fits_beginRound sound.endpoints begun with
        ⟨fits, fleet, endpoints, channel, delivered, -⟩
      refine ⟨fleet ▸ sound.fleet, endpoints ▸ sound.endpoints, ?_, fits, ?_,
        delivered ▸ sound.hosts⟩
      · rw [fleet, endpoints]
        exact sound.listed
      · rw [delivered, channel]
        exact sound.queued
  | deliver index nowUnixMs round endpoint finished isRound isFinished fleet endpoints gate channel
      delivered rest =>
      have fits := sound.round round isRound
      refine ⟨fleet ▸ sound.fleet, endpoints ▸ sound.endpoints, ?_, ?_, ?_, ?_⟩
      · rw [fleet, endpoints]
        exact sound.listed
      · rw [rest, gate]
        rintro _ ⟨⟩
        exact fits_deliver fits isFinished
      · rcases sound.queued with ⟨taken, split⟩
        exact ⟨taken, by rw [delivered, channel, split, List.append_assoc]⟩
      · rw [delivered]
        intro observation member
        rcases List.mem_append.mp member with before | isNew
        · exact sound.hosts observation before
        · rw [List.mem_singleton.mp isNew]
          have isEndpoint : finished.endpoint = endpoint :=
            (fits.stages _ (List.mem_of_getElem? isFinished)).1
          have remains : endpoint ∈ round.remaining :=
            List.mem_append_left _ (List.mem_map_of_mem (List.mem_of_getElem? isFinished))
          have accepted := fits.accepted.hosts endpoint remains
          rw [← isEndpoint] at accepted
          have settled := settled_settle ip finished nowUnixMs
          generalize settle ip finished nowUnixMs = outcome at settled
          cases settled <;> exact accepted
  | take observation queued taken =>
      rw [taken]
      refine ⟨FleetState.wellFormed_takeCronObservation sound.fleet, sound.endpoints, ?_,
        sound.round, ?_, sound.hosts⟩
      · rw [systems_takeCronObservation]
        exact sound.listed
      · rcases sound.queued with ⟨before, split⟩
        refine ⟨before ++ [observation], ?_⟩
        simp [split, queued]
  | reload config valid reloaded =>
      have accepted := Config.accepted_of_validate valid
      rw [reloaded]
      exact ⟨FleetState.wellFormed_reloadConfig accepted sound.fleet,
        endpointsAccepted_of_config accepted, targets_reloadConfig accepted sound.fleet,
        sound.round, sound.queued, sound.hosts⟩

/-- The configured systems are those of the shared list. -/
theorem Sound.endpoint_of_mem (sound : plane.Sound ip) {system : SystemState Snapshot Reason}
    (member : system ∈ plane.fleet.systems) :
    system.endpoint ∈ plane.endpoints ∧ system.endpoint.id = system.id := by
  have target : system.target ∈ plane.fleet.systems.map (·.target) := List.mem_map_of_mem member
  rw [sound.listed] at target
  rcases List.mem_map.mp target with ⟨endpoint, endpointMem, isTarget⟩
  have isId : endpoint.id = system.id := congrArg Prod.fst isTarget
  have isEndpoint : endpoint = system.endpoint := congrArg Prod.snd isTarget
  rw [← isEndpoint]
  exact ⟨endpointMem, isId⟩

theorem Sound.system_of_mem (sound : plane.Sound ip) {endpoint : Endpoint}
    (member : endpoint ∈ plane.endpoints) :
    ∃ system ∈ plane.fleet.systems, system.id = endpoint.id ∧ system.endpoint = endpoint := by
  have target : (endpoint.id, endpoint) ∈ plane.endpoints.map fun endpoint =>
      (endpoint.id, endpoint) := List.mem_map.mpr ⟨endpoint, member, rfl⟩
  rw [← sound.listed] at target
  rcases List.mem_map.mp target with ⟨system, systemMem, isTarget⟩
  exact ⟨system, systemMem, congrArg Prod.fst isTarget, congrArg Prod.snd isTarget⟩

/-- The shared list names the target. -/
def Lists (ip : IpSyntax) (plane : CronPlane Snapshot Reason Entry Summary Health)
    (key : String) : Prop :=
  ∃ endpoint ∈ plane.endpoints, endpointKey ip endpoint = key

/-- The engine takes exactly the observations of targets the shared list names. -/
theorem Sound.accepts_iff (sound : plane.Sound ip) {observation : CronObservation}
    (host : HostAccepted ip observation.host) :
    plane.fleet.acceptsCronObservation ip observation = true ↔
      plane.Lists ip (observation.key ip) := by
  let polled : Endpoint := ⟨observation.systemId, observation.host, observation.port, none⟩
  constructor
  · intro accepts
    rcases List.any_eq_true.mp accepts with ⟨system, systemMem, accepts⟩
    rw [Bool.and_eq_true, Bool.and_eq_true, beq_iff_eq, beq_iff_eq] at accepts
    rcases accepts with ⟨⟨sameId, samePort⟩, sameHost⟩
    rcases sound.endpoint_of_mem systemMem with ⟨endpointMem, isId⟩
    refine ⟨system.endpoint, endpointMem, ?_⟩
    have polledHost : HostAccepted ip polled.host := host
    have same : sameTarget ip system.endpoint polled = true := by
      rw [sameTarget, Bool.and_eq_true, beq_iff_eq]
      exact ⟨sameHost, samePort⟩
    have sameKey : endpointKey ip system.endpoint = endpointKey ip polled :=
      endpointKey_eq_of_sameTarget (sound.endpoints.hosts _ endpointMem) polledHost
        (isId.trans sameId) same
    exact sameKey
  · rintro ⟨endpoint, endpointMem, sameKey⟩
    rcases sound.system_of_mem endpointMem with ⟨system, systemMem, isId, isEndpoint⟩
    rcases eq_of_targetKey_eq (sound.endpoints.hosts endpoint endpointMem) host sameKey with
      ⟨sameId, sameHost, samePort⟩
    apply List.any_eq_true.mpr
    refine ⟨system, systemMem, ?_⟩
    rw [Bool.and_eq_true, Bool.and_eq_true, beq_iff_eq, beq_iff_eq, isEndpoint]
    exact ⟨⟨isId.trans sameId, samePort⟩, sameHost⟩

/-- What the cache holds after a reload it held before, for a target that stayed listed. -/
theorem Sound.kept_of_reload (sound : plane.Sound ip) {config : Config Entry}
    (accepted : config.Accepted ip) {id : String} {state : CronSystemState}
    (held : (plane.fleet.reloadConfig ip (.ok config)).1.cron.system id = some state) :
    plane.fleet.cron.system id = some state ∧ ∃ endpoint ∈ plane.endpoints,
      ∃ entry ∈ config.systems, endpoint.id = id ∧ entry.id = id ∧
        endpointKey ip endpoint = endpointKey ip entry.toEndpoint := by
  rw [(FleetState.reloadConfig_ok accepted sound.fleet).2.1 id] at held
  split at held
  · rename_i kept
    rcases kept with ⟨configured, notRepointed⟩
    rcases List.mem_map.mp configured with ⟨entry, entryMem, rfl⟩
    refine ⟨held, ?_⟩
    have listed := sound.fleet.cronListed entry.id (by rw [held]; rfl)
    rcases List.mem_map.mp listed with ⟨old, oldMem, sameId⟩
    rcases sound.endpoint_of_mem oldMem with ⟨endpointMem, isId⟩
    have isEntry : old.endpoint.id = entry.toEndpoint.id := isId.trans sameId
    refine ⟨old.endpoint, endpointMem, entry, entryMem, isEntry, rfl, ?_⟩
    have entryHost : HostAccepted ip entry.toEndpoint.host := accepted.hosts entry entryMem
    apply endpointKey_eq_of_sameTarget (sound.endpoints.hosts _ endpointMem) entryHost isEntry
    have found : plane.fleet.oldById.find? entry.id = some old := by
      rw [← sameId]
      exact FleetState.find?_oldById_of_mem sound.fleet oldMem
    cases same : sameTarget ip old.endpoint entry.toEndpoint with
    | true => rfl
    | false =>
        have repointed : (reconcileEntry ip plane.fleet.oldById entry).2.2 = true := by
          simp only [reconcileEntry, found, same, Bool.false_eq_true, ↓reduceIte]
        exact absurd (List.mem_map_of_mem (List.mem_filter.mpr ⟨entryMem, repointed⟩)) notRepointed
  · cases held

/-- A target that stays listed keeps what the cache holds of its system. -/
theorem Sound.cron_of_stayed (sound : plane.Sound ip) {config : Config Entry}
    (accepted : config.Accepted ip) {endpoint : Endpoint} {entry : SystemEntry}
    (endpointMem : endpoint ∈ plane.endpoints) (entryMem : entry ∈ config.systems)
    (sameKey : endpointKey ip endpoint = endpointKey ip entry.toEndpoint) :
    (plane.fleet.reloadConfig ip (.ok config)).1.cron.system entry.id =
      plane.fleet.cron.system entry.id := by
  rcases sound.system_of_mem endpointMem with ⟨old, oldMem, isId, isEndpoint⟩
  have entryHost : HostAccepted ip entry.toEndpoint.host := accepted.hosts entry entryMem
  rcases eq_of_targetKey_eq (sound.endpoints.hosts endpoint endpointMem) entryHost sameKey with
    ⟨sameId, sameHost, samePort⟩
  have found : plane.fleet.oldById.find? entry.id = some old := by
    have entryId : entry.id = old.id := sameId.symm.trans isId.symm
    rw [entryId]
    exact FleetState.find?_oldById_of_mem sound.fleet oldMem
  have same : sameTarget ip old.endpoint entry.toEndpoint = true := by
    rw [sameTarget, isEndpoint, Bool.and_eq_true, beq_iff_eq]
    exact ⟨sameHost, samePort⟩
  have stayed : (reconcileEntry ip plane.fleet.oldById entry).2.2 = false := by
    simp only [reconcileEntry, found, same, ↓reduceIte]
  rw [FleetState.cron_reloadConfig accepted sound.fleet entryMem, stayed]
  rfl

theorem sound_of_run {config : Config Entry}
    {events : List (CronEvent Snapshot Reason Entry Summary Health)}
    (valid : config.validate ip = [])
    (ran : Machine.run (CronPlane.step ip) (start config) events = some plane) :
    plane.Sound ip := by
  apply Machine.run_induction (fun _ plane => plane.Sound ip) ran
  · exact sound_start valid
  · exact fun _ _ _ _ _ before stepped => before.step stepped

end CronPlane

end Gregg.Fleet
