import Gregg.Fleet.CronObserved
import Gregg.Fleet.CronRounds
import Gregg.Lib.Outbox

/-!
# Coherent histories

Summary and history of one observation are two requests, and the gate is a memo of a third party.
What the channel accepts is nevertheless coherent, the gate knows only what was accepted, and an
observation that changes nothing visible changes no record. The last holds because the engine's
cache follows the worker's gate: a history is fetched only for an identity that the last
observation of its system did not show.
-/

namespace Gregg.Fleet

open Clientd (Endpoint)

namespace CronObservation

variable {observation : CronObservation}

/-- A history only beside the summary it belongs to. -/
def Coherent (observation : CronObservation) : Prop :=
  ∀ found ∈ observation.history, observation.historyError = none ∧
    ∃ document, observation.summary = .supported document ∧ found.epoch = document.epoch ∧
      found.historyRevision = document.historyRevision

/-- The observation shows its system at an identity, without a problem. -/
def ShowsAt (observation : CronObservation) (epoch : SchedulerEpochV2) (revision : ℕ) : Prop :=
  observation.historyError = none ∧ ∃ document, observation.summary = .supported document ∧
    document.epoch = epoch ∧ document.historyRevision = revision

theorem coherent_settle (ip : IpSyntax) (finished : EndpointFetch) (nowUnixMs : ℕ) :
    (settle ip finished nowUnixMs).1.Coherent := by
  have settled := settled_settle ip finished nowUnixMs
  generalize settle ip finished nowUnixMs = outcome at settled
  cases settled with
  | coherent document found isSummary isHistory sameEpoch sameRevision =>
      rintro _ ⟨⟩
      exact ⟨rfl, document, isSummary, sameEpoch, sameRevision⟩
  | bare historyError wasSuppressed => rintro found ⟨⟩

theorem key_settle (ip : IpSyntax) (finished : EndpointFetch) (nowUnixMs : ℕ) :
    (settle ip finished nowUnixMs).1.key ip = endpointKey ip finished.endpoint ∧
      (settle ip finished nowUnixMs).1.systemId = finished.endpoint.id := by
  have settled := settled_settle ip finished nowUnixMs
  generalize settle ip finished nowUnixMs = outcome at settled
  cases settled <;> exact ⟨rfl, rfl⟩

/-- What is drawn clean at an identity comes from an observation that shows the system there. -/
theorem showsAt_of_shows {before : CronRenderedState} {epoch : SchedulerEpochV2} {revision : ℕ}
    (noError : (observation.shows before).lastError = none)
    (identity : (observation.shows before).identity = some (epoch, revision)) :
    observation.ShowsAt epoch revision := by
  simp only [shows] at noError identity
  split at identity
  · rename_i document isSummary
    rw [isSummary] at noError
    cases identity
    exact ⟨noError, document, isSummary, rfl, rfl⟩
  · cases identity
  · rename_i error isSummary
    rw [isSummary] at noError
    cases noError

/-- The latest of the observations of a target. -/
def lastOf (ip : IpSyntax) (key : String) (observations : List CronObservation) :
    Option CronObservation :=
  Outbox.latest (fun observation => decide (observation.key ip = key)) observations

variable {ip : IpSyntax} {key : String}

theorem lastOf_append_own (isKey : observation.key ip = key)
    (observations : List CronObservation) :
    lastOf ip key (observations ++ [observation]) = some observation :=
  Outbox.latest_append_of_kind (by simpa using isKey) _

theorem lastOf_append_other (distinct : observation.key ip ≠ key)
    (observations : List CronObservation) :
    lastOf ip key (observations ++ [observation]) = lastOf ip key observations :=
  Outbox.latest_append_of_other (by simpa using distinct) _

end CronObservation

namespace CronPlane

open CronObservation

variable {Snapshot Reason Entry Summary Health : Type} {ip : IpSyntax}
  {plane next : CronPlane Snapshot Reason Entry Summary Health}
  {event : CronEvent Snapshot Reason Entry Summary Health}

/-- A reload lists no target again while an observation of it is queued. -/
def ReaddsDrained (ip : IpSyntax) (plane : CronPlane Snapshot Reason Entry Summary Health) :
    CronEvent Snapshot Reason Entry Summary Health → Prop
  | .engine (.reload (.ok config)) => ∀ observation ∈ plane.channel, ∀ entry ∈ config.systems,
      endpointKey ip entry.toEndpoint = observation.key ip → plane.Lists ip (observation.key ip)
  | _ => True

/-- Nothing is drawn of the target and nothing of it is queued. -/
structure Blank (ip : IpSyntax) (plane : CronPlane Snapshot Reason Entry Summary Health)
    (endpoint : Endpoint) (queued : List CronObservation) : Prop where
  unqueued : ∀ observation ∈ queued, observation.key ip ≠ endpointKey ip endpoint
  undrawn : plane.fleet.cron.system endpoint.id = none

/-- The cache follows the gate. A system is drawn clean at an identity only when the last taken
observation of its target shows it there; while the last delivered one does, the gate holds the
identity, unless the target was dropped in between; and a history that is queued has an identity
the observation before did not show, with the same exception. -/
structure Aligned (ip : IpSyntax) (plane : CronPlane Snapshot Reason Entry Summary Health) :
    Prop where
  gated : ∀ endpoint ∈ plane.endpoints, ∀ observation,
    lastOf ip (endpointKey ip endpoint) plane.delivered = some observation →
      ∀ epoch revision, observation.ShowsAt epoch revision →
        plane.gate.entries.find? (endpointKey ip endpoint) = some (epoch, revision) ∨
          plane.Blank ip endpoint plane.channel
  fresh : ∀ taken before observation after, plane.delivered = taken ++ plane.channel →
    plane.channel = before ++ observation :: after → ∀ endpoint ∈ plane.endpoints,
      endpointKey ip endpoint = observation.key ip → ∀ found ∈ observation.history, ∀ previous,
        lastOf ip (endpointKey ip endpoint) (taken ++ before) = some previous →
          previous.ShowsAt found.epoch found.historyRevision → plane.Blank ip endpoint before
  drawn : ∀ taken, plane.delivered = taken ++ plane.channel →
    ∀ id shown, (plane.fleet.cron.system id).map (·.renderedState) = some shown →
      shown.lastError = none → ∀ epoch revision, shown.identity = some (epoch, revision) →
        ∃ endpoint ∈ plane.endpoints, endpoint.id = id ∧ ∃ previous,
          lastOf ip (endpointKey ip endpoint) taken = some previous ∧
            previous.ShowsAt epoch revision

theorem aligned_start {config : Config Entry} :
    (start config : CronPlane Snapshot Reason Entry Summary Health).Aligned ip where
  gated := by
    intro endpoint _ observation found
    cases found
  fresh := by
    intro taken before observation after _ split
    simp [start] at split
  drawn := by
    intro taken _ id shown found
    cases found

theorem needs_eq_false_iff {gate : HistoryGate} {key : String} {summary : SchedulerSummaryV2} :
    gate.needs key summary = false ↔
      gate.entries.find? key = some (summary.epoch, summary.historyRevision) := by
  simp only [HistoryGate.needs]
  cases gate.entries.find? key with
  | none => simp
  | some entry => simp [Prod.ext_iff]

section Delivery

variable {index nowUnixMs : ℕ} {round : CronRound} {endpoint : Endpoint} {finished : EndpointFetch}

/-- After a delivery the gate holds what the new observation shows. -/
theorem gate_of_showsAt {epoch : SchedulerEpochV2} {revision : ℕ} (sound : plane.Sound ip)
    (isRound : plane.round = some round)
    (isFinished : round.inFlight[index]? = some ⟨endpoint, .finished finished⟩)
    (shown : (settle ip finished nowUnixMs).1.ShowsAt epoch revision) :
    (((settle ip finished nowUnixMs).2.map plane.gate.commit).getD plane.gate).entries.find?
      (endpointKey ip endpoint) = some (epoch, revision) := by
  have fits := sound.round round isRound
  have stage := fits.stages _ (List.mem_of_getElem? isFinished)
  have isEndpoint : finished.endpoint = endpoint := stage.1
  have settled := settled_settle ip finished nowUnixMs
  generalize settle ip finished nowUnixMs = outcome at settled shown
  rcases shown with ⟨noError, shownDocument, isShown, rfl, rfl⟩
  cases settled with
  | coherent document found isSummary isHistory sameEpoch sameRevision =>
      cases isSummary.symm.trans isShown
      rw [← sameEpoch, ← sameRevision, ← isEndpoint]
      exact SortedMap.find?_upsert_self
  | bare historyError wasSuppressed =>
      have remains : endpoint ∈ round.remaining :=
        List.mem_append_left _ (List.mem_map_of_mem (List.mem_of_getElem? isFinished))
      have notNeeded : round.snapshot.needs (endpointKey ip endpoint) shownDocument = false :=
        (stage.2 _ isShown).mp (wasSuppressed _ isShown noError)
      exact (fits.asSnapshot endpoint remains).trans (needs_eq_false_iff.mp notNeeded)

/-- A fetched history has an identity the gate did not hold. -/
theorem gate_ne_of_history {found : SchedulerHistoryV2} (sound : plane.Sound ip)
    (isRound : plane.round = some round)
    (isFinished : round.inFlight[index]? = some ⟨endpoint, .finished finished⟩)
    (isFound : found ∈ (settle ip finished nowUnixMs).1.history) :
    plane.gate.entries.find? (endpointKey ip endpoint) ≠
      some (found.epoch, found.historyRevision) := by
  have fits := sound.round round isRound
  have stage := fits.stages _ (List.mem_of_getElem? isFinished)
  have remains : endpoint ∈ round.remaining :=
    List.mem_append_left _ (List.mem_map_of_mem (List.mem_of_getElem? isFinished))
  have settled := settled_settle ip finished nowUnixMs
  generalize settle ip finished nowUnixMs = outcome at settled isFound
  cases settled with
  | coherent document found' isSummary isHistory sameEpoch sameRevision =>
      cases isFound
      intro held
      rw [fits.asSnapshot endpoint remains, sameEpoch, sameRevision] at held
      have wasSuppressed : finished.history = .suppressed :=
        (stage.2 document isSummary).mpr (needs_eq_false_iff.mpr held)
      rw [isHistory] at wasSuppressed
      cases wasSuppressed
  | bare historyError wasSuppressed => cases isFound

/-- A delivery moves the gate at its own key only. -/
theorem gate_of_other {key : String} (isEndpoint : finished.endpoint = endpoint)
    (distinct : key ≠ endpointKey ip endpoint) :
    (((settle ip finished nowUnixMs).2.map plane.gate.commit).getD plane.gate).entries.find? key =
      plane.gate.entries.find? key := by
  have settled := settled_settle ip finished nowUnixMs
  generalize settle ip finished nowUnixMs = outcome at settled
  cases settled with
  | bare => rfl
  | coherent => exact SortedMap.find?_upsert_of_ne (isEndpoint ▸ distinct)

theorem Aligned.deliver (aligned : plane.Aligned ip) (sound : plane.Sound ip)
    (isRound : plane.round = some round)
    (isFinished : round.inFlight[index]? = some ⟨endpoint, .finished finished⟩)
    (fleet : next.fleet = plane.fleet) (endpoints : next.endpoints = plane.endpoints)
    (gate : next.gate = ((settle ip finished nowUnixMs).2.map plane.gate.commit).getD plane.gate)
    (channel : next.channel = plane.channel ++ [(settle ip finished nowUnixMs).1])
    (delivered : next.delivered = plane.delivered ++ [(settle ip finished nowUnixMs).1]) :
    next.Aligned ip := by
  have isEndpoint : finished.endpoint = endpoint :=
    ((sound.round round isRound).stages _ (List.mem_of_getElem? isFinished)).1
  have isKey : (settle ip finished nowUnixMs).1.key ip = endpointKey ip endpoint :=
    isEndpoint ▸ (key_settle ip finished nowUnixMs).1
  have cancel : ∀ taken, next.delivered = taken ++ next.channel →
      plane.delivered = taken ++ plane.channel := by
    intro taken split
    rw [delivered, channel, ← List.append_assoc] at split
    exact List.append_cancel_right split
  refine ⟨?_, ?_, ?_⟩
  · intro current currentMem observation found epoch revision shown
    rw [endpoints] at currentMem
    rw [delivered] at found
    rw [gate]
    by_cases isOwn : (settle ip finished nowUnixMs).1.key ip = endpointKey ip current
    · rw [lastOf_append_own isOwn] at found
      cases found
      rw [← isOwn, isKey]
      exact .inl (gate_of_showsAt sound isRound isFinished shown)
    · rw [lastOf_append_other isOwn] at found
      rw [gate_of_other isEndpoint (isKey ▸ Ne.symm isOwn)]
      rcases aligned.gated current currentMem observation found epoch revision shown with
        held | blank
      · exact .inl held
      · refine .inr ⟨?_, fleet ▸ blank.undrawn⟩
        intro queued queuedMem
        rw [channel] at queuedMem
        rcases List.mem_append.mp queuedMem with before | isNew
        · exact blank.unqueued queued before
        · rwa [List.mem_singleton.mp isNew]
  · intro taken before observation after split channelSplit current currentMem sameKey found
      isFound previous isLast shown
    rw [endpoints] at currentMem
    rw [channel] at channelSplit
    rcases Machine.split_append_singleton.mp channelSplit with
      ⟨rfl, rfl, rfl⟩ | ⟨later, -, channelBefore⟩
    · rw [← cancel taken split] at isLast
      have absent := gate_ne_of_history sound isRound isFinished isFound
      rw [← isKey, ← sameKey] at absent
      rcases aligned.gated current currentMem previous isLast _ _ shown with held | blank
      · exact absurd held absent
      · exact ⟨blank.unqueued, fleet ▸ blank.undrawn⟩
    · have blank := aligned.fresh taken before observation later (cancel taken split)
        channelBefore current currentMem sameKey found isFound previous isLast shown
      exact ⟨blank.unqueued, fleet ▸ blank.undrawn⟩
  · intro taken split id shown isDrawn noError epoch revision identity
    rw [fleet] at isDrawn
    rw [endpoints]
    exact aligned.drawn taken (cancel taken split) id shown isDrawn noError epoch revision identity

end Delivery

/-- A step that leaves the cache, the channel and the gate of every listed target alone. -/
theorem Aligned.of_same (aligned : plane.Aligned ip) (cron : next.fleet.cron = plane.fleet.cron)
    (endpoints : next.endpoints = plane.endpoints)
    (gate : ∀ endpoint ∈ plane.endpoints, next.gate.entries.find? (endpointKey ip endpoint) =
      plane.gate.entries.find? (endpointKey ip endpoint))
    (channel : next.channel = plane.channel) (delivered : next.delivered = plane.delivered) :
    next.Aligned ip := by
  have blankAfter : ∀ {endpoint queued}, plane.Blank ip endpoint queued →
      next.Blank ip endpoint queued :=
    fun blank => ⟨blank.unqueued, cron ▸ blank.undrawn⟩
  refine ⟨?_, ?_, ?_⟩
  · rw [endpoints, delivered, channel]
    intro endpoint endpointMem observation found epoch revision shown
    rw [gate endpoint endpointMem]
    exact (aligned.gated endpoint endpointMem observation found epoch revision shown).imp_right
      blankAfter
  · rw [endpoints, delivered, channel]
    intro taken before observation after split channelSplit endpoint endpointMem sameKey found
      isFound previous isLast shown
    exact blankAfter (aligned.fresh taken before observation after split channelSplit endpoint
      endpointMem sameKey found isFound previous isLast shown)
  · rw [endpoints, delivered, channel, cron]
    exact aligned.drawn

theorem Aligned.begin (aligned : plane.Aligned ip) (sound : plane.Sound ip)
    (begun : plane.beginRound ip = some next) : next.Aligned ip := by
  rcases fits_beginRound sound.endpoints begun with
    ⟨-, fleet, endpoints, channel, delivered, gate⟩
  apply aligned.of_same (fleet ▸ rfl) endpoints _ channel delivered
  intro endpoint endpointMem
  have live : (plane.endpoints.map (endpointKey ip)).contains (endpointKey ip endpoint) = true := by
    simpa using ⟨endpoint, endpointMem, rfl⟩
  rw [gate, HistoryGate.forgetAbsent, SortedMap.find?_retain, if_pos live]

/-- What an observation that is not taken leaves, and what one that is taken draws. -/
theorem drawn_takeCronObservation {observation : CronObservation} {id : String}
    {shown : CronRenderedState}
    (isDrawn : ((plane.fleet.takeCronObservation ip observation).1.cron.system id).map
      (·.renderedState) = some shown) :
    (plane.fleet.acceptsCronObservation ip observation = true ∧ id = observation.systemId ∧
        ∃ before, shown = observation.shows before) ∨
      ((plane.fleet.acceptsCronObservation ip observation = true → id ≠ observation.systemId) ∧
        (plane.fleet.cron.system id).map (·.renderedState) = some shown) := by
  simp only [FleetState.takeCronObservation] at isDrawn
  split at isDrawn
  · rename_i accepts
    rw [apply_fst, rendered_record] at isDrawn
    split at isDrawn
    · rename_i isOwn
      exact .inl ⟨accepts, isOwn, _, (Option.some_inj.mp isDrawn).symm⟩
    · rename_i isOther
      exact .inr ⟨fun _ => isOther, isDrawn⟩
  · rename_i refused
    exact .inr ⟨fun accepts => absurd accepts refused, isDrawn⟩

theorem undrawn_takeCronObservation {observation : CronObservation} {id : String}
    (undrawn : plane.fleet.cron.system id = none)
    (notOwn : plane.fleet.acceptsCronObservation ip observation = true →
      id ≠ observation.systemId) :
    (plane.fleet.takeCronObservation ip observation).1.cron.system id = none := by
  cases held : (plane.fleet.takeCronObservation ip observation).1.cron.system id with
  | none => rfl
  | some state =>
      have isDrawn : ((plane.fleet.takeCronObservation ip observation).1.cron.system id).map
          (·.renderedState) = some state.renderedState := by rw [held]; rfl
      rcases drawn_takeCronObservation isDrawn with ⟨accepts, isOwn, -⟩ | ⟨-, wasDrawn⟩
      · exact absurd isOwn (notOwn accepts)
      · rw [undrawn] at wasDrawn
        cases wasDrawn

/-- A taken observation of another key than a listed one is of another system. -/
theorem Sound.id_ne_of_key_ne (sound : plane.Sound ip) {observation : CronObservation}
    {endpoint : Endpoint} (host : HostAccepted ip observation.host)
    (endpointMem : endpoint ∈ plane.endpoints)
    (distinct : observation.key ip ≠ endpointKey ip endpoint)
    (accepts : plane.fleet.acceptsCronObservation ip observation = true) :
    endpoint.id ≠ observation.systemId := by
  intro sameId
  rcases (sound.accepts_iff host).mp accepts with ⟨other, otherMem, otherKey⟩
  have otherId := (eq_of_targetKey_eq (sound.endpoints.hosts other otherMem) host otherKey).1
  have same : other = endpoint := List.inj_on_of_nodup_map sound.endpoints.idsNodup otherMem
    endpointMem (otherId.trans sameId.symm)
  exact distinct (same ▸ otherKey.symm)

theorem Aligned.take (aligned : plane.Aligned ip) (sound : plane.Sound ip)
    {observation : CronObservation} {channel : List CronObservation}
    (queued : plane.channel = observation :: channel) :
    Aligned ip { plane with
      fleet := (plane.fleet.takeCronObservation ip observation).1, channel } := by
  have member : observation ∈ plane.delivered := by
    rcases sound.queued with ⟨taken, split⟩
    rw [split, queued]
    simp
  have host := sound.hosts observation member
  have extend : ∀ taken, plane.delivered = taken ++ channel →
      ∃ before, taken = before ++ [observation] ∧ plane.delivered = before ++ plane.channel := by
    intro taken split
    rcases sound.queued with ⟨before, isBefore⟩
    refine ⟨before, ?_, isBefore⟩
    rw [isBefore, queued, List.append_cons] at split
    exact (List.append_cancel_right split).symm
  refine ⟨?_, ?_, ?_⟩
  · intro endpoint endpointMem last found epoch revision shown
    rcases aligned.gated endpoint endpointMem last found epoch revision shown with held | blank
    · exact .inl held
    · refine .inr ⟨?_, ?_⟩
      · intro other otherMem
        exact blank.unqueued other (queued ▸ List.mem_cons_of_mem _ otherMem)
      · have distinct := blank.unqueued observation (queued ▸ List.mem_cons_self)
        exact undrawn_takeCronObservation blank.undrawn
          (sound.id_ne_of_key_ne host endpointMem distinct)
  · intro taken before later after split channelSplit endpoint endpointMem sameKey found isFound
      previous isLast shown
    rcases extend taken split with ⟨earlier, rfl, isEarlier⟩
    rw [List.append_assoc, List.singleton_append] at isLast
    have wasQueued : plane.channel = (observation :: before) ++ later :: after :=
      queued.trans (congrArg (observation :: ·) channelSplit)
    have blank := aligned.fresh earlier (observation :: before) later after isEarlier wasQueued
      endpoint endpointMem sameKey found isFound previous isLast shown
    refine ⟨?_, ?_⟩
    · intro other otherMem
      exact blank.unqueued other (List.mem_cons_of_mem _ otherMem)
    · have distinct := blank.unqueued observation List.mem_cons_self
      exact undrawn_takeCronObservation blank.undrawn
        (sound.id_ne_of_key_ne host endpointMem distinct)
  · intro taken split id shown isDrawn noError epoch revision identity
    rcases extend taken split with ⟨earlier, rfl, isEarlier⟩
    rcases drawn_takeCronObservation isDrawn with ⟨accepts, rfl, before, rfl⟩ | ⟨notOwn, wasDrawn⟩
    · rcases (sound.accepts_iff host).mp accepts with ⟨endpoint, endpointMem, sameKey⟩
      have sameId := (eq_of_targetKey_eq (sound.endpoints.hosts endpoint endpointMem) host
        sameKey).1
      exact ⟨endpoint, endpointMem, sameId, observation, lastOf_append_own sameKey.symm earlier,
        showsAt_of_shows noError identity⟩
    · rcases aligned.drawn earlier isEarlier id shown wasDrawn noError epoch revision identity with
        ⟨endpoint, endpointMem, rfl, previous, isLast, showsAt⟩
      have distinct : observation.key ip ≠ endpointKey ip endpoint := by
        intro sameKey
        have accepts := (sound.accepts_iff host).mpr ⟨endpoint, endpointMem, sameKey.symm⟩
        exact notOwn accepts (eq_of_targetKey_eq (sound.endpoints.hosts endpoint endpointMem) host
          sameKey.symm).1
      exact ⟨endpoint, endpointMem, rfl, previous, (lastOf_append_other distinct earlier).trans
        isLast, showsAt⟩

theorem Aligned.reload (aligned : plane.Aligned ip) (sound : plane.Sound ip)
    {config : Config Entry} (accepted : config.Accepted ip)
    (drained : plane.ReaddsDrained ip (.engine (.reload (.ok config)))) :
    Aligned ip { plane with
      fleet := (plane.fleet.reloadConfig ip (.ok config)).1
      endpoints := config.systems.map (·.toEndpoint)
      notified := true } := by
  have accepts := endpointsAccepted_of_config accepted
  -- A target is blank after the reload when it was blank before, or was not listed before.
  have undrawn : ∀ endpoint ∈ config.systems.map (·.toEndpoint),
      (∀ before ∈ plane.endpoints, endpointKey ip before = endpointKey ip endpoint →
        plane.fleet.cron.system before.id = none) →
      (plane.fleet.reloadConfig ip (.ok config)).1.cron.system endpoint.id = none := by
    intro endpoint endpointMem wasUndrawn
    cases held : (plane.fleet.reloadConfig ip (.ok config)).1.cron.system endpoint.id with
    | none => rfl
    | some state =>
        rcases sound.kept_of_reload accepted held with
          ⟨wasHeld, before, beforeMem, entry, entryMem, beforeId, entryId, sameKey⟩
        have same : entry.toEndpoint = endpoint := List.inj_on_of_nodup_map accepts.idsNodup
          (List.mem_map_of_mem entryMem) endpointMem entryId
        have absent := wasUndrawn before beforeMem (sameKey.trans (congrArg _ same))
        rw [beforeId, wasHeld] at absent
        cases absent
  have blankOf : ∀ {before endpoint queued}, before ∈ plane.endpoints →
      endpoint ∈ config.systems.map (·.toEndpoint) →
      endpointKey ip before = endpointKey ip endpoint → plane.Blank ip before queued →
      (∀ observation ∈ queued, observation.key ip ≠ endpointKey ip endpoint) ∧
        (plane.fleet.reloadConfig ip (.ok config)).1.cron.system endpoint.id = none := by
    intro before endpoint queued beforeMem endpointMem sameKey blank
    refine ⟨sameKey ▸ blank.unqueued, undrawn endpoint endpointMem ?_⟩
    intro other otherMem otherKey
    rw [sound.endpoints.eq_of_key_eq otherMem beforeMem (otherKey.trans sameKey.symm)]
    exact blank.undrawn
  refine ⟨?_, ?_, ?_⟩
  · intro endpoint endpointMem observation found epoch revision shown
    by_cases listed : plane.Lists ip (endpointKey ip endpoint)
    · rcases listed with ⟨before, beforeMem, sameKey⟩
      rw [← sameKey] at found
      rcases aligned.gated before beforeMem observation found epoch revision shown with
        held | blank
      · exact .inl (sameKey ▸ held)
      · rcases blankOf beforeMem endpointMem sameKey blank with ⟨unqueued, isUndrawn⟩
        exact .inr ⟨unqueued, isUndrawn⟩
    · refine .inr ⟨?_, undrawn endpoint endpointMem ?_⟩
      · intro queued queuedMem sameKey
        rcases List.mem_map.mp endpointMem with ⟨entry, entryMem, rfl⟩
        exact listed (sameKey ▸ drained queued queuedMem entry entryMem sameKey.symm)
      · intro before beforeMem sameKey
        exact absurd ⟨before, beforeMem, sameKey⟩ listed
  · intro taken before observation after split channelSplit endpoint endpointMem sameKey found
      isFound previous isLast shown
    have queuedMem : observation ∈ plane.channel := by
      have isSplit : plane.channel = before ++ observation :: after := channelSplit
      rw [isSplit]
      simp
    rcases List.mem_map.mp endpointMem with ⟨entry, entryMem, rfl⟩
    rcases drained observation queuedMem entry entryMem sameKey with ⟨listed, listedMem, listedKey⟩
    have bothKeys : endpointKey ip listed = endpointKey ip entry.toEndpoint :=
      listedKey.trans sameKey.symm
    rw [← bothKeys] at isLast
    have blank := aligned.fresh taken before observation after split channelSplit listed listedMem
      listedKey found isFound previous isLast shown
    rcases blankOf listedMem endpointMem bothKeys blank with ⟨unqueued, isUndrawn⟩
    exact ⟨unqueued, isUndrawn⟩
  · intro taken split id shown isDrawn noError epoch revision identity
    rcases Option.map_eq_some_iff.mp isDrawn with ⟨state, held, isShown⟩
    rcases sound.kept_of_reload accepted held with
      ⟨wasHeld, before, beforeMem, entry, entryMem, beforeId, entryId, sameKey⟩
    have wasDrawn : (plane.fleet.cron.system id).map (·.renderedState) = some shown := by
      rw [wasHeld, ← isShown]
      rfl
    rcases aligned.drawn taken split id shown wasDrawn noError epoch revision identity with
      ⟨endpoint, endpointMem, endpointId, previous, isLast, showsAt⟩
    have same : endpoint = before := List.inj_on_of_nodup_map sound.endpoints.idsNodup endpointMem
      beforeMem (endpointId.trans beforeId.symm)
    rw [same, sameKey] at isLast
    exact ⟨entry.toEndpoint, List.mem_map_of_mem entryMem, entryId, previous, isLast, showsAt⟩

theorem Aligned.step (aligned : plane.Aligned ip) (sound : plane.Sound ip)
    (drained : plane.ReaddsDrained ip event) (stepped : plane.step ip event = some next) :
    next.Aligned ip := by
  cases moves_of_step stepped with
  | quiet event cron targets endpoints gate channel delivered fits =>
      exact aligned.of_same cron endpoints (fun _ _ => gate ▸ rfl) channel delivered
  | begin idle begun => exact aligned.begin sound begun
  | deliver index nowUnixMs round endpoint finished isRound isFinished fleet endpoints gate channel
      delivered rest =>
      exact aligned.deliver sound isRound isFinished fleet endpoints gate channel delivered
  | take observation queued taken =>
      rw [taken]
      exact aligned.take sound queued
  | reload config valid reloaded =>
      rw [reloaded]
      exact aligned.reload sound (Config.accepted_of_validate valid) drained

/-- Where the cache follows the gate, the next observation has no history unless it changes what is
drawn: a history comes with a summary that is drawn clean at its identity, which only an earlier
observation of the same target could have drawn, and then the gate would have held back the
fetch. -/
theorem history_of_unchanged {observation : CronObservation} {rest : List CronObservation}
    (aligned : plane.Aligned ip) (sound : plane.Sound ip) (coherent : observation.Coherent)
    (queued : plane.channel = observation :: rest)
    (accepts : plane.fleet.acceptsCronObservation ip observation = true)
    (unchanged : (observation.apply plane.fleet.cron).2 = false) : observation.history = none := by
  cases isHistory : observation.history with
  | none => rfl
  | some found =>
      rcases sound.queued with ⟨taken, split⟩
      have host := sound.hosts observation (by rw [split, queued]; simp)
      rcases coherent found isHistory with ⟨noError, document, isSummary, sameEpoch, sameRevision⟩
      have drawnSame : ((observation.apply plane.fleet.cron).1.system observation.systemId).map
          (·.renderedState) =
            (plane.fleet.cron.system observation.systemId).map (·.renderedState) :=
        (rendered_of_unchanged unchanged).2 _
      rw [apply_fst, rendered_record, if_pos rfl] at drawnSame
      let shown := observation.shows
        ((plane.fleet.cron.system observation.systemId).getD .unknown).renderedState
      have isShown : shown.lastError = none ∧
          shown.identity = some (found.epoch, found.historyRevision) := by
        simp only [shown, shows, isSummary, noError, sameEpoch, sameRevision, and_self]
      rcases aligned.drawn taken split observation.systemId shown drawnSame.symm isShown.1 _ _
        isShown.2 with ⟨endpoint, endpointMem, sameId, previous, isLast, showsAt⟩
      rcases (sound.accepts_iff host).mp accepts with ⟨listed, listedMem, sameKey⟩
      have listedId := (eq_of_targetKey_eq (sound.endpoints.hosts listed listedMem) host sameKey).1
      have same : endpoint = listed := List.inj_on_of_nodup_map sound.endpoints.idsNodup
        endpointMem listedMem (sameId.trans listedId.symm)
      have blank : plane.Blank ip endpoint [] :=
        aligned.fresh taken [] observation rest split queued
        endpoint endpointMem (same ▸ sameKey) found isHistory previous
        (by rw [List.append_nil]; exact isLast) showsAt
      rw [← sameId, blank.undrawn] at drawnSame
      cases drawnSame

theorem aligned_of_run {config : Config Entry}
    {events : List (CronEvent Snapshot Reason Entry Summary Health)}
    (valid : config.validate ip = [])
    (ran : Machine.run (CronPlane.step ip) (start config) events = some plane)
    (drained : Machine.EveryStep (CronPlane.step ip) (start config) events (ReaddsDrained ip)) :
    plane.Aligned ip := by
  have everyState : Machine.EveryState (CronPlane.step ip) (start config) events fun plane =>
      plane.Sound ip ∧ plane.Aligned ip := by
    refine drained.invariant ⟨sound_start valid, aligned_start⟩ ?_
    rintro before event after ⟨sound, aligned⟩ met stepped
    exact ⟨sound.step stepped, aligned.step sound met stepped⟩
  exact (everyState events [] plane (List.append_nil events).symm ran).2

theorem bounded_reloadConfig {perJob totalCap : ℕ} {config : Config Entry}
    {fleet : FleetState Snapshot Reason Entry Summary Health}
    (bounded : fleet.cron.Bounded perJob totalCap) :
    (fleet.reloadConfig ip (.ok config)).1.cron.Bounded perJob totalCap := by
  have resets : ∀ (ids : List String) (cache : CronCache), cache.Bounded perJob totalCap →
      (ids.foldl (fun cron id => (cron.resetSystem id).1) cache).Bounded perJob totalCap := by
    intro ids
    induction ids with
    | nil => exact fun _ bounded => bounded
    | cons id rest ih =>
        intro cache bounded
        exact ih _ (bounded.step (rfl : CronCache.step cache (.resetSystem id) = _))
  rcases FleetState.adoptEggpool_frame (fleet.reconcileSystems ip config) config.eggpool with
    ⟨-, sameCron, -⟩
  simp only [FleetState.reloadConfig, sameCron]
  exact (resets _ _ bounded).step (rfl : CronCache.step _ (.retainSystems _) = _)

/-- What every run of the plane keeps of the observations, the gate and the cache. -/
structure Told (ip : IpSyntax) (perJob : ℕ)
    (plane : CronPlane Snapshot Reason Entry Summary Health) : Prop where
  coherent : ∀ observation ∈ plane.delivered, observation.Coherent
  gate : ∀ key epoch revision, plane.gate.entries.find? key = some (epoch, revision) →
    ∃ observation ∈ plane.delivered, observation.key ip = key ∧
      ∃ found ∈ observation.history, found.epoch = epoch ∧ found.historyRevision = revision
  bounded : plane.fleet.cron.Bounded perJob MAX_TOTAL_CRON_RECORDS

theorem Told.step {perJob : ℕ} (told : plane.Told ip perJob) (sound : plane.Sound ip)
    (stepped : plane.step ip event = some next) : next.Told ip perJob := by
  cases moves_of_step stepped with
  | quiet event cron targets endpoints gate channel delivered fits =>
      exact ⟨delivered ▸ told.coherent, by rw [gate, delivered]; exact told.gate,
        cron ▸ told.bounded⟩
  | begin idle begun =>
      rcases fits_beginRound sound.endpoints begun with
        ⟨-, fleet, endpoints, channel, delivered, gate⟩
      refine ⟨delivered ▸ told.coherent, ?_, fleet ▸ told.bounded⟩
      intro key epoch revision found
      rw [gate, HistoryGate.forgetAbsent, SortedMap.find?_retain] at found
      rw [delivered]
      split at found
      · exact told.gate key epoch revision found
      · cases found
  | deliver index nowUnixMs round endpoint finished isRound isFinished fleet endpoints gate channel
      delivered rest =>
      refine ⟨?_, ?_, fleet ▸ told.bounded⟩
      · rw [delivered]
        intro observation member
        rcases List.mem_append.mp member with before | isNew
        · exact told.coherent observation before
        · rw [List.mem_singleton.mp isNew]
          exact coherent_settle ip finished nowUnixMs
      · intro key epoch revision found
        have before : ∀ observation ∈ plane.delivered, observation ∈ next.delivered := by
          intro observation member
          rw [delivered]
          exact List.mem_append_left _ member
        have isNew : (settle ip finished nowUnixMs).1 ∈ next.delivered := by
          rw [delivered]
          simp
        rw [gate] at found
        have settled := settled_settle ip finished nowUnixMs
        generalize settle ip finished nowUnixMs = outcome at settled found isNew
        cases settled with
        | bare historyError =>
            rcases told.gate key epoch revision found with ⟨observation, member, rest⟩
            exact ⟨observation, before observation member, rest⟩
        | coherent document found' =>
            by_cases isKey : key = endpointKey ip finished.endpoint
            · rw [isKey] at found
              cases SortedMap.find?_upsert_self.symm.trans found
              exact ⟨_, isNew, isKey.symm, found', rfl, rfl, rfl⟩
            · rcases told.gate key epoch revision
                ((SortedMap.find?_upsert_of_ne isKey).symm.trans found) with
                ⟨observation, member, rest⟩
              exact ⟨observation, before observation member, rest⟩
  | take observation queued taken =>
      rw [taken]
      refine ⟨told.coherent, told.gate, ?_⟩
      simp only [FleetState.takeCronObservation]
      split
      · rw [apply_fst]
        exact bounded_record told.bounded
      · exact told.bounded
  | reload config valid reloaded =>
      rw [reloaded]
      exact ⟨told.coherent, told.gate, bounded_reloadConfig told.bounded⟩

theorem told_of_run {config : Config Entry}
    {events : List (CronEvent Snapshot Reason Entry Summary Health)}
    (valid : config.validate ip = [])
    (ran : Machine.run (CronPlane.step ip) (start config) events = some plane) :
    plane.Told ip config.cron.cache := by
  have both : plane.Sound ip ∧ plane.Told ip config.cron.cache := by
    apply Machine.run_induction (fun _ plane => plane.Sound ip ∧ plane.Told ip config.cron.cache)
      ran
    · refine ⟨sound_start valid, ?_, ?_, CronCache.bounded_new _ _⟩
      · intro observation member
        cases member
      · intro key epoch revision found
        cases found
    · rintro _ before event after - ⟨sound, told⟩ stepped
      exact ⟨sound.step stepped, told.step sound stepped⟩
  exact both.2

/-- In every run, an observation that the channel accepted has a history only of the identity its
summary has, and the gate names a history only after an observation with that history was accepted.
Where applying the next observation reports no change, everything drawn is as it was, and so is
every record but those of jobs that the summary does not list; not even those go in a run whose
reloads list no target again while an observation of it is queued. -/
theorem coherent_of_run {config : Config Entry}
    {events : List (CronEvent Snapshot Reason Entry Summary Health)}
    (valid : config.validate ip = [])
    (ran : Machine.run (CronPlane.step ip) (start config) events = some plane) :
    (∀ observation ∈ plane.delivered, observation.Coherent) ∧
      (∀ key epoch revision, plane.gate.entries.find? key = some (epoch, revision) →
        ∃ observation ∈ plane.delivered, observation.key ip = key ∧
          ∃ found ∈ observation.history, found.epoch = epoch ∧ found.historyRevision = revision) ∧
      ∀ observation rest, plane.channel = observation :: rest →
        plane.fleet.acceptsCronObservation ip observation = true →
        (∀ document, observation.summary = .supported document →
          validateSummary document = []) →
        (observation.apply plane.fleet.cron).2 = false → ∀ id,
          ((observation.apply plane.fleet.cron).1.system id).map (·.renderedState) =
              (plane.fleet.cron.system id).map (·.renderedState) ∧
            (∀ name, (((observation.apply plane.fleet.cron).1.system id).getD .unknown).jobRecords
                name = ((plane.fleet.cron.system id).getD .unknown).jobRecords name ∨
              (((observation.apply plane.fleet.cron).1.system id).getD .unknown).jobRecords
                name = [] ∧ id = observation.systemId ∧
                ∃ document, observation.summary = .supported document ∧
                  name ∉ document.jobs.map (·.name)) ∧
            (Machine.EveryStep (CronPlane.step ip) (start config) events (ReaddsDrained ip) →
              (((observation.apply plane.fleet.cron).1.system id).getD .unknown).jobs =
                ((plane.fleet.cron.system id).getD .unknown).jobs) := by
  have sound := sound_of_run valid ran
  have told := told_of_run valid ran
  refine ⟨told.coherent, told.gate, ?_⟩
  intro observation rest queued accepts validated unchanged id
  have member : observation ∈ plane.delivered := by
    rcases sound.queued with ⟨taken, split⟩
    rw [split, queued]
    simp
  have few : ∀ document, observation.summary = .supported document →
      document.jobs.length ≤ MAX_CRON_JOBS_PER_SYSTEM := fun document isSummary =>
    (checkHeader_eq_nil_iff.mp
      (validateSummary_eq_nil_iff.mp (validated document isSummary)).1).2.2.2
  have nothing : (observation.record plane.fleet.cron).2 = false :=
    (rendered_of_unchanged unchanged).1
  refine ⟨(rendered_of_unchanged unchanged).2 id, ?_, ?_⟩
  · intro name
    rw [apply_fst]
    exact records_record told.bounded.maintained told.bounded.capped few nothing
  · intro drained
    rw [apply_fst]
    apply jobs_record
    intro _ _
    exact history_of_unchanged (aligned_of_run valid ran drained) sound (told.coherent _ member)
      queued accepts unchanged

/-- An idle job. -/
def idleJob (name : String) : SchedulerJobV2 where
  name := name
  schedule := "0 3 * * *"
  nextDueUnixMs := 9000
  state := .idle
  load := none
  pendingSinceUnixMs := none
  nextRetryUnixMs := none
  runningSinceUnixMs := none
  last := none

/-- A summary at the first history revision of one lifetime. -/
def firstSummary (names : List String) : SchedulerSummaryV2 where
  schemaVersion := 2
  generatedAtUnixMs := 0
  epoch := ⟨1, 1⟩
  historyRevision := 1
  jobs := names.map idleJob

/-- A history at the same identity, with one run of each job. -/
def firstHistory (names : List String) : SchedulerHistoryV2 where
  schemaVersion := 2
  generatedAtUnixMs := 0
  epoch := ⟨1, 1⟩
  historyRevision := 1
  jobs := names.map fun name => { name, records := [CronCache.finishedRun 1 1000] }

/-- A configuration without the one system. -/
def noBox : Config Unit :=
  { FleetState.oneBox with systems := [] }

/-- A round over one system whose gate asks for the history. -/
def fetchingRound (names historyNames : List String) : List (CronEvent Unit Unit Unit Unit Unit) :=
  [.beginRound, .summaryRead 0 (.supported (firstSummary names)),
    .historyRead 0 (.ok (some (firstHistory historyNames))), .deliver 0 2000, .complete]

/-- A round over one system whose gate does not. -/
def suppressedRound (names : List String) : List (CronEvent Unit Unit Unit Unit Unit) :=
  [.beginRound, .summaryRead 0 (.supported (firstSummary names)), .deliver 0 3000, .complete]

/-- The second round of a quiet remote changes nothing. -/
theorem coherent_of_run_suppressedRound :
    ∃ plane observation, Machine.run (CronPlane.step FleetState.dnsNames)
        (start FleetState.oneBox)
        (fetchingRound ["backup"] ["backup"] ++ .take :: suppressedRound ["backup"]) = some plane ∧
      plane.channel = [observation] ∧
      (∀ delivered ∈ plane.delivered, delivered.Coherent) ∧
      ∀ id, (((observation.apply plane.fleet.cron).1.system id).getD .unknown).jobs =
        ((plane.fleet.cron.system id).getD .unknown).jobs := by
  have facts : ((Machine.run (CronPlane.step FleetState.dnsNames)
      (start FleetState.oneBox)
      (fetchingRound ["backup"] ["backup"] ++ .take :: suppressedRound ["backup"])).map fun plane =>
        plane.channel.map fun observation =>
          (plane.fleet.acceptsCronObservation FleetState.dnsNames observation,
            (observation.apply plane.fleet.cron).2,
            match observation.summary with
            | .failed _ => true
            | .unsupported => true
            | .supported document => validateSummary document = [])) =
      some [(true, false, true)] := by
    decide +kernel
  rcases Option.map_eq_some_iff.mp facts with ⟨plane, ran, facts⟩
  rcases List.map_eq_singleton_iff.mp facts with ⟨observation, queued, facts⟩
  simp only [Prod.mk.injEq] at facts
  rcases facts with ⟨accepts, unchanged, validated⟩
  have coherent := coherent_of_run (by decide) ran
  have checked : ∀ document, observation.summary = .supported document →
      validateSummary document = [] := by
    intro document isSummary
    simpa [isSummary] using validated
  refine ⟨plane, observation, ran, queued, coherent.1, ?_⟩
  intro id
  apply (coherent.2.2 observation [] queued accepts checked unchanged id).2.2
  -- No step of the run is a reload.
  intro before event after state split _
  have member : event ∈ fetchingRound ["backup"] ["backup"] ++
      .take :: suppressedRound ["backup"] := by
    rw [split]
    simp
  simp only [fetchingRound, suppressedRound, List.cons_append, List.nil_append, List.mem_cons,
    List.not_mem_nil, or_false] at member
  rcases member with rfl | rfl | rfl | rfl | rfl | rfl | rfl | rfl | rfl | rfl <;> trivial

/-- Both observations of the system are still queued when the system is dropped and configured
again, and the remote answers the same identity with other jobs. The history that is fetched again
adds nothing and is reported as no change, but its merge drops the record of a job. -/
theorem record_dropped_unreported :
    (∀ names ∈ [["backup", "clean"], ["backup"]], validateSummary (firstSummary names) = [] ∧
        validateHistory (firstHistory names) = []) ∧
      ∃ plane observation, Machine.run (CronPlane.step FleetState.dnsNames)
        (start FleetState.oneBox)
        (fetchingRound ["backup", "clean"] ["backup", "clean"] ++ suppressedRound ["backup"] ++
          [.engine (.reload (.ok noBox)), .interrupt, .beginRound,
            .engine (.reload (.ok FleetState.oneBox)), .interrupt] ++
          fetchingRound ["backup"] ["backup"] ++ [.take, .take]) = some plane ∧
      plane.channel = [observation] ∧
      plane.fleet.acceptsCronObservation FleetState.dnsNames observation = true ∧
      (observation.apply plane.fleet.cron).2 = false ∧
      (((plane.fleet.cron.system "sys-a").getD .unknown).jobRecords "clean").length = 1 ∧
      (((observation.apply plane.fleet.cron).1.system "sys-a").getD .unknown).jobRecords "clean" =
        [] := by
  have facts : ((Machine.run (CronPlane.step FleetState.dnsNames)
      (start FleetState.oneBox)
      (fetchingRound ["backup", "clean"] ["backup", "clean"] ++ suppressedRound ["backup"] ++
        [.engine (.reload (.ok noBox)), .interrupt, .beginRound,
          .engine (.reload (.ok FleetState.oneBox)), .interrupt] ++
        fetchingRound ["backup"] ["backup"] ++ [.take, .take])).map fun plane =>
        plane.channel.map fun observation =>
          (plane.fleet.acceptsCronObservation FleetState.dnsNames observation,
            (observation.apply plane.fleet.cron).2,
            (((plane.fleet.cron.system "sys-a").getD .unknown).jobRecords "clean").length,
            (((observation.apply plane.fleet.cron).1.system "sys-a").getD .unknown).jobRecords
              "clean")) = some [(true, false, 1, [])] := by
    decide +kernel
  rcases Option.map_eq_some_iff.mp facts with ⟨plane, ran, facts⟩
  rcases List.map_eq_singleton_iff.mp facts with ⟨observation, queued, facts⟩
  simp only [Prod.mk.injEq] at facts
  rcases facts with ⟨accepts, unchanged, before, after⟩
  exact ⟨by decide +kernel, plane, observation, ran, queued, accepts, unchanged, before, after⟩

end CronPlane

end Gregg.Fleet
