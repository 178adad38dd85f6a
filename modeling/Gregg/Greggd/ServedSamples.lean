import Gregg.Greggd.HealthMemo
import Gregg.Greggd.Publication
import Gregg.Greggd.SamplerRun
import Gregg.Protocol.WellFormedStatus

/-!
# From the sampler to the routes

After every wait the loop tells the load gate and the server what it holds. Requests come in between
any two of its steps. What a status route answers with success is the document that was published
last, no older than the policy allows and not too often denied since; what the load gate holds is
the load of that document.
-/

namespace Gregg.Sampling

open Protocol
open Server (MemoVersion StalePolicy Serializers Answer)

def DEFAULT_MAX_CONSECUTIVE_FAILURES : ℕ := 3

/-- The policy that the daemon is started with. -/
def daemonPolicy (staleAfterMs : ℕ) : StalePolicy where
  maxConsecutiveFailures := DEFAULT_MAX_CONSECUTIVE_FAILURES
  maxSnapshotAge := fromMillis staleAfterMs

structure SamplingDaemon (Body : Type) where
  loop : SamplerLoop
  gate : LoadGateState
  server : Server.World Body

inductive SamplingEvent where
  | sampler (event : LoopEvent)
  | request (event : Server.Event)

def LoopEvent.isPublish : LoopEvent → Bool
  | .publish => true
  | _ => false

namespace SamplingDaemon

variable {Body : Type}

/-- Only the sampler updates the server. -/
def isRequest (event : Server.Event) : Bool :=
  event.update?.isNone

def start (sampler : Sampler) : SamplingDaemon Body where
  loop := .start sampler
  gate := { readiness := .warming, load := none }
  server := .start

section Step

variable (narrowed : ℕ → ℕ → F32) (serializers : Serializers Body) (policy : StalePolicy)

/-- The callback of the loop. -/
def onSample (daemon : SamplingDaemon Body) : Option (SamplingDaemon Body) :=
  let told := { daemon with gate := loadGateState daemon.loop.sampler }
  match syncSamplerState daemon.loop.sampler with
  | none => some told
  | some update =>
      (daemon.server.step serializers policy (.update update)).map fun server =>
        { told with server }

def step (daemon : SamplingDaemon Body) : SamplingEvent → Option (SamplingDaemon Body)
  | .sampler event =>
      (daemon.loop.step narrowed event).bind fun loop =>
        if event.isPublish then { daemon with loop }.onSample serializers policy
        else some { daemon with loop }
  | .request event =>
      if isRequest event then
        (daemon.server.step serializers policy event).map fun server => { daemon with server }
      else none

end Step

end SamplingDaemon

section Converted

/-- What is known of a published sample. -/
structure Converted (intervalMs : ℕ) (snapshot : Option StatusSnapshot)
    (payload : StatusPayloadV2) : Prop where
  wellFormed : PayloadWellFormed payload
  interval : payload.snapshot.sampleIntervalMs = intervalMs
  observed : ∀ v1, snapshot = some v1 →
    v1.observedAtUnixMs = payload.snapshot.observedAtUnixMs

variable {narrowed : ℕ → ℕ → F32} {intervalMs : ℕ} {moment : Moment}
  {result : Except CollectError CollectedMetrics} {snapshot : Option StatusSnapshot}
  {payload : StatusPayloadV2}

theorem of_validateV2Payload {checked : StatusPayloadV2}
    (validates : validateV2Payload payload = .ok checked) :
    checked = payload ∧ PayloadWellFormed payload := by
  rw [validateV2Payload] at validates
  split at validates
  · rename_i passes
    cases validates
    exact ⟨rfl, validatePayloadV2_eq_nil_iff.mp passes⟩
  · cases validates

/-- Whatever is published has passed the checks that a client makes. -/
theorem converted_of_convertSample {view : CollectorView} {metrics : CollectedMetrics} {nowMs : ℕ}
    (converts : convertSample narrowed intervalMs view metrics nowMs = .ok (snapshot, payload)) :
    Converted intervalMs snapshot payload ∧ payload.snapshot.observedAtUnixMs = nowMs := by
  rcases exists_of_bind_eq_ok converts with ⟨identity, -, converts⟩
  rcases exists_of_bind_eq_ok converts with ⟨pair, isPair, converts⟩
  rcases exists_of_bind_eq_ok converts with ⟨checked, validates, converts⟩
  rcases exists_of_bind_eq_ok isPair with ⟨cpu, -, isPair⟩
  rcases of_validateV2Payload validates with ⟨rfl, wellFormed⟩
  cases isPair
  cases converts
  refine ⟨⟨wellFormed, rfl, ?_⟩, rfl⟩
  intro v1 isV1
  split at isV1
  · cases isV1
    rfl
  · cases isV1

theorem of_outcomeOf_published
    (published : outcomeOf narrowed intervalMs moment result = .published snapshot payload) :
    Converted intervalMs snapshot payload ∧
      moment.nowUnixMs = some payload.snapshot.observedAtUnixMs := by
  cases result with
  | error error =>
      rw [outcomeOf] at published
      split at published <;> cases published
  | ok metrics =>
      rw [outcomeOf] at published
      split at published
      · rename_i converted isConverted
        cases published
        rcases Option.bind_eq_some_iff.mp isConverted with ⟨nowMs, isNow, converts⟩
        cases isResult : convertSample narrowed intervalMs moment.collector metrics nowMs with
        | error error =>
            rw [isResult] at converts
            cases converts
        | ok value =>
            rw [isResult] at converts
            cases converts
            rcases converted_of_convertSample isResult with ⟨isSound, observed⟩
            exact ⟨isSound, by rw [isNow, observed]⟩
      · cases published

end Converted

section Mirror

/-- What a publication has of a version. -/
def document : (version : MemoVersion) → Option StatusSnapshot × StatusPayloadV2 →
    Option version.Published
  | .v1, publication => publication.1
  | .v2, publication => some publication.2

/-- The readings from the first failure after the last publication on. -/
def failing (outcomes : List Outcome) : List Outcome :=
  (sinceLastPublished outcomes).reverse.dropWhile Outcome.isUndecided

/-- The server has what the outcomes amount to. It counts every reading after a failure. -/
structure Mirrors {Body : Type} (outcomes : List Outcome) (state : Server.PublishedState Body) :
    Prop where
  stored : ∀ version, (state.plane version).snapshot =
    (lastPublished outcomes).bind (document version)
  observed : state.lastObservedAtUnixMs =
    (lastPublished outcomes).map fun publication => publication.2.snapshot.observedAtUnixMs
  failures : state.consecutiveFailures = min (failing outcomes).length Server.u32Max
  ready : ∀ version, (state.plane version).health.state = .ready →
    readinessAfter outcomes = .ready

variable {outcomes : List Outcome} {outcome : Outcome}

/-- Nothing between two publications is a publication. -/
theorem isPublished_of_since (since : outcome ∈ sinceLastPublished outcomes) :
    outcome.isPublished = false := by
  have passes := List.mem_takeWhile_imp since
  simpa using passes

theorem failing_eq_nil (noFailure : (sinceLastPublished outcomes).any Outcome.isFailed = false) :
    failing outcomes = [] := by
  rw [failing, List.dropWhile_eq_nil_iff]
  intro outcome member
  rw [List.mem_reverse] at member
  have notPublished := isPublished_of_since member
  have notFailed := List.any_eq_false.mp noFailure outcome member
  cases outcome with
  | published snapshot payload => cases notPublished
  | failed => exact absurd rfl notFailed
  | undecided => rfl

theorem of_readinessAfter_ready (isReady : readinessAfter outcomes = .ready) :
    failing outcomes = [] ∧ ∃ publication, lastPublished outcomes = some publication := by
  rw [readinessAfter] at isReady
  split at isReady
  · cases isReady
  · rename_i noFailure
    split at isReady
    · rename_i isSome
      exact ⟨failing_eq_nil (Bool.eq_false_of_not_eq_true noFailure),
        Option.isSome_iff_exists.mp isSome⟩
    · cases isReady

theorem of_readinessAfter_warming (isWarming : readinessAfter outcomes = .warming) :
    failing outcomes = [] ∧ lastPublished outcomes = none := by
  rw [readinessAfter] at isWarming
  split at isWarming
  · cases isWarming
  · rename_i noFailure
    split at isWarming
    · cases isWarming
    · rename_i isNone
      exact ⟨failing_eq_nil (Bool.eq_false_of_not_eq_true noFailure),
        Option.not_isSome_iff_eq_none.mp isNone⟩

theorem length_failing_append
    (isFailing : readinessAfter (outcomes ++ [outcome]) = .failed) :
    outcome.isPublished = false ∧
      (failing (outcomes ++ [outcome])).length = (failing outcomes).length + 1 := by
  have anyFailed : (sinceLastPublished (outcomes ++ [outcome])).any Outcome.isFailed = true := by
    by_contra noFailure
    rw [readinessAfter, if_neg noFailure] at isFailing
    split at isFailing <;> cases isFailing
  have other : outcome.isPublished = false := by
    cases isPublished : outcome.isPublished with
    | false => rfl
    | true =>
        rw [sinceLastPublished_append_published isPublished] at anyFailed
        cases anyFailed
  refine ⟨other, ?_⟩
  rw [sinceLastPublished_append_other other] at anyFailed
  rw [failing, sinceLastPublished_append_other other, List.reverse_cons, List.dropWhile_append,
    ← failing]
  split
  · rename_i isEmpty
    rw [List.isEmpty_iff.mp isEmpty]
    -- Everything before was undecided, so this one is the failure.
    cases outcome with
    | published snapshot payload => cases other
    | failed => rfl
    | undecided =>
        change (sinceLastPublished outcomes).any Outcome.isFailed = true at anyFailed
        rcases List.any_eq_true.mp anyFailed with ⟨earlier, member, isFailed⟩
        rw [failing, List.isEmpty_iff, List.dropWhile_eq_nil_iff] at isEmpty
        have isUndecided := isEmpty earlier (List.mem_reverse.mpr member)
        cases earlier <;> simp_all [Outcome.isFailed, Outcome.isUndecided]
  · rw [List.length_append, List.length_singleton]

section Update

variable {Body : Type} {serializers : Serializers Body} {state : Server.PublishedState Body}
  {cell intervalMs : ℕ} {sampler : Sampler} {update : Server.Update}

/-- What the loop tells makes the server a mirror of what it has read by then. -/
theorem Mirrors.sync (mirrors : Mirrors outcomes state)
    (unserved : ∀ version, (state.plane version).health.category = some .notServing →
      (state.plane version).health.state ≠ .ready)
    (summarizes : Summarizes (outcomes ++ [outcome]) sampler)
    (converted : ∀ snapshot payload,
      lastPublished (outcomes ++ [outcome]) = some (snapshot, payload) →
      Converted intervalMs snapshot payload)
    (syncs : syncSamplerState sampler = some update) :
    Mirrors (outcomes ++ [outcome]) (state.update serializers cell update) := by
  have readiness := summarizes.readiness
  cases isReadiness : readinessAfter (outcomes ++ [outcome]) with
  | ready =>
      rcases of_readinessAfter_ready isReadiness with ⟨noFailing, ⟨snapshot, payload⟩, isLast⟩
      have isSnapshot := summarizes.snapshot
      have isPayload := summarizes.snapshotV2
      rw [isLast] at isSnapshot isPayload
      rw [isReadiness] at readiness
      simp only [syncSamplerState, readiness, isSnapshot, isPayload, Option.bind_some,
        Option.map_some] at syncs
      cases snapshot with
      | none =>
          cases syncs
          refine ⟨?_, ?_, ?_, fun _ _ => isReadiness⟩
          · intro version
            rw [isLast]
            cases version <;> rfl
          · rw [isLast]
            rfl
          · rw [noFailing]
            rfl
      | some snapshot =>
          cases syncs
          refine ⟨?_, ?_, ?_, fun _ _ => isReadiness⟩
          · intro version
            rw [isLast]
            cases version <;> rfl
          · rw [isLast]
            change some (max snapshot.observedAtUnixMs payload.snapshot.observedAtUnixMs) = _
            rw [(converted (some snapshot) payload isLast).observed snapshot rfl, Nat.max_self]
            rfl
          · rw [noFailing]
            rfl
  | warming =>
      rcases of_readinessAfter_warming isReadiness with ⟨noFailing, noLast⟩
      rw [isReadiness] at readiness
      rw [syncSamplerState, readiness] at syncs
      cases syncs
      refine ⟨?_, ?_, ?_, ?_⟩
      · intro version
        rw [noLast]
        rfl
      · rw [noLast]
        rfl
      · rw [noFailing]
        rfl
      · intro version isReady
        cases isReady
  | failed =>
      rw [isReadiness] at readiness
      rw [syncSamplerState, readiness] at syncs
      cases syncs
      rcases length_failing_append isReadiness with ⟨other, length⟩
      have last := @lastPublished_append_other outcomes outcome other
      refine ⟨?_, ?_, ?_, ?_⟩
      · intro version
        rw [last]
        exact mirrors.stored version
      · rw [last]
        exact mirrors.observed
      · rw [length]
        change min (state.consecutiveFailures + 1) Server.u32Max = _
        rw [mirrors.failures]
        omega
      · intro version isReady
        rcases Server.publishes_of_ready (unserved version) isReady with ⟨snapshot, publishes, -⟩
        cases publishes

end Update

end Mirror

section Told

variable {narrowed : ℕ → ℕ → F32} {loop next : SamplerLoop} {event : LoopEvent}

/-- What was told of the readings: all but the one that is being published. -/
def SamplerLoop.told (narrowed : ℕ → ℕ → F32) (loop : SamplerLoop) : List Outcome :=
  if loop.phase = .publishing then (loop.outcomes narrowed).dropLast else loop.outcomes narrowed

/-- There is something to publish. -/
def SamplerLoop.HasReading (loop : SamplerLoop) : Prop :=
  loop.phase = .publishing → loop.readings ≠ []

theorem SamplerLoop.told_of_reads {reading : Reading} (collecting : loop.phase = .collecting)
    (publishing : next.phase = .publishing) (readings : next.readings = loop.readings ++ [reading])
    (interval : next.sampler.intervalMs = loop.sampler.intervalMs) :
    next.told narrowed = loop.told narrowed ∧ next.HasReading := by
  constructor
  · rw [told, told, publishing, collecting, if_pos rfl, if_neg Phase.noConfusion, outcomes,
      readings, interval, List.map_append, List.map_singleton, List.dropLast_concat, outcomes]
  · intro _
    rw [readings]
    exact List.append_ne_nil_of_right_ne_nil _ (List.cons_ne_nil _ _)

theorem SamplerLoop.told_of_rests (calm : loop.phase ≠ .publishing)
    (goes : next.phase ≠ .publishing)
    (same : next.outcomes narrowed = loop.outcomes narrowed) :
    next.told narrowed = loop.told narrowed ∧ next.HasReading := by
  constructor
  · rw [told, told, if_neg calm, if_neg goes, same]
  · intro publishing
    exact absurd publishing goes

/-- A step that publishes nothing tells nothing. -/
theorem SamplerLoop.told_of_step (hasReading : loop.HasReading)
    (stepped : loop.step narrowed event = some next) (silent : event ≠ .publish) :
    next.told narrowed = loop.told narrowed ∧ next.HasReading := by
  cases event with
  | cycleEnds cycle result =>
      rw [step] at stepped
      split at stepped
      · cases stepped
        exact ⟨rfl, hasReading⟩
      · cases stepped
  | collect moment =>
      rw [step] at stepped
      split at stepped
      · rename_i cycle joined collecting handle isResult
        cases stepped
        apply told_of_reads collecting rfl rfl
        rw [applySampleResult_eq, intervalMs_takes]
      · cases stepped
  | timeout moment =>
      rw [step] at stepped
      split at stepped
      · rename_i waits
        cases stepped
        apply told_of_reads waits.1 rfl rfl
        rw [applySampleResult_eq, intervalMs_takes]
      · cases stepped
  | publish => exact absurd rfl silent
  | wake =>
      rw [step] at stepped
      split at stepped
      · rename_i sleeping
        cases stepped
        apply told_of_rests
        · rw [sleeping]
          exact Phase.noConfusion
        · rw [sampleOnBlockingPool]
          split <;> exact Phase.noConfusion
        · rw [sampleOnBlockingPool]
          split <;> rfl
      · cases stepped
  | shutdown =>
      rw [step] at stepped
      split at stepped
      · rename_i listens
        cases stepped
        refine told_of_rests ?_ Phase.noConfusion rfl
        intro publishing
        rcases listens with sleeping | ⟨collecting, -⟩
        · cases publishing.symm.trans sleeping
        · cases publishing.symm.trans collecting
      · cases stepped

/-- A step that publishes tells the last reading. -/
theorem SamplerLoop.told_of_publish (hasReading : loop.HasReading)
    (stepped : loop.step narrowed .publish = some next) :
    next.sampler = loop.sampler ∧ next.HasReading ∧
      next.told narrowed = next.outcomes narrowed ∧
      ∃ outcome, next.outcomes narrowed = loop.told narrowed ++ [outcome] := by
  rw [step] at stepped
  split at stepped
  · rename_i publishing
    cases stepped
    refine ⟨rfl, ?_, ?_, ?_⟩
    · intro sleeping
      cases sleeping
    · rw [told, if_neg Phase.noConfusion]
    · rw [told, if_pos publishing]
      have hasOutcome : loop.outcomes narrowed ≠ [] := by
        rw [outcomes, Ne, List.map_eq_nil_iff]
        exact hasReading publishing
      exact ⟨_, (List.dropLast_concat_getLast hasOutcome).symm⟩
  · cases stepped

end Told

section Published

variable {narrowed : ℕ → ℕ → F32} {loop : SamplerLoop} {outcomes : List Outcome}
  {snapshot : Option StatusSnapshot} {payload : StatusPayloadV2}

theorem mem_of_lastPublished (isLast : lastPublished outcomes = some (snapshot, payload)) :
    Outcome.published snapshot payload ∈ outcomes := by
  have member := List.mem_of_getLast? isLast
  rcases List.mem_filterMap.mp member with ⟨outcome, member, isPublication⟩
  cases outcome with
  | published _ _ =>
      cases isPublication
      exact member
  | failed => cases isPublication
  | undecided => cases isPublication

theorem converted_of_mem (member : .published snapshot payload ∈ loop.outcomes narrowed) :
    Converted loop.sampler.intervalMs snapshot payload := by
  rcases List.mem_map.mp member with ⟨reading, -, isOutcome⟩
  cases reading with
  | collected cycle moment result => exact (of_outcomeOf_published isOutcome).1
  | timedOut => cases isOutcome

theorem converted_of_told (isLast : lastPublished (loop.told narrowed) = some (snapshot, payload)) :
    Converted loop.sampler.intervalMs snapshot payload := by
  have member := mem_of_lastPublished isLast
  rw [SamplerLoop.told] at member
  split at member
  · exact converted_of_mem (List.mem_of_mem_dropLast member)
  · exact converted_of_mem member

end Published

namespace SamplingDaemon

variable {Body : Type} {narrowed : ℕ → ℕ → F32} {serializers : Serializers Body}
  {policy : StalePolicy} {sampler : Sampler} {daemon next : SamplingDaemon Body}
  {event : SamplingEvent} {events : List SamplingEvent}

/-- What the load gate is told of the outcomes. -/
def gateOf (outcomes : List Outcome) : LoadGateState where
  readiness := gateReadiness (readinessAfter outcomes)
  load := (lastPublished outcomes).bind fun publication =>
    publication.2.snapshot.load.map gateLoad

/-- The gate and the server have what they were told. -/
structure Coherent (narrowed : ℕ → ℕ → F32) (serializers : Serializers Body)
    (daemon : SamplingDaemon Body) : Prop where
  loop : daemon.loop.Sound narrowed
  hasReading : daemon.loop.HasReading
  server : Server.Sound serializers daemon.server
  mirrors : Mirrors (daemon.loop.told narrowed) daemon.server.published
  gate : daemon.gate = gateOf (daemon.loop.told narrowed)

section Steps

theorem loadGateState_eq {outcomes : List Outcome} (summarizes : Summarizes outcomes sampler) :
    loadGateState sampler = gateOf outcomes := by
  rw [loadGateState, gateOf, summarizes.readiness, summarizes.snapshotV2]
  cases lastPublished outcomes <;> rfl

/-- A ready sampler has a payload, so that there is always something to tell. -/
theorem syncSamplerState_isSome {outcomes : List Outcome}
    (summarizes : Summarizes outcomes sampler) :
    ∃ update, syncSamplerState sampler = some update := by
  have readiness := summarizes.readiness
  cases isReadiness : readinessAfter outcomes with
  | ready =>
      rcases of_readinessAfter_ready isReadiness with ⟨-, ⟨snapshot, payload⟩, isLast⟩
      have isPayload := summarizes.snapshotV2
      rw [isLast] at isPayload
      rw [isReadiness] at readiness
      simp only [syncSamplerState, readiness, isPayload, Option.map_some]
      cases sampler.snapshot <;> exact ⟨_, rfl⟩
  | warming =>
      rw [isReadiness] at readiness
      rw [syncSamplerState, readiness]
      exact ⟨_, rfl⟩
  | failed =>
      rw [isReadiness] at readiness
      rw [syncSamplerState, readiness]
      exact ⟨_, rfl⟩

theorem coherent_request (coherent : daemon.Coherent narrowed serializers) {event : Server.Event}
    (stepped : daemon.step narrowed serializers policy (.request event) = some next) :
    next.Coherent narrowed serializers := by
  rw [step] at stepped
  split at stepped
  · rename_i asks
    rcases Option.map_eq_some_iff.mp stepped with ⟨server, steps, rfl⟩
    rcases Option.map_eq_some_iff.mp steps with ⟨⟨_, answer⟩, responds, rfl⟩
    have other : event.update? = none := Option.isNone_iff_eq_none.mp asks
    refine ⟨coherent.loop, coherent.hasReading, Server.sound_respond coherent.server responds, ?_,
      coherent.gate⟩
    rw [Server.published_of_respond other responds]
    exact coherent.mirrors
  · cases stepped

theorem coherent_publish (coherent : daemon.Coherent narrowed serializers)
    (stepped : daemon.step narrowed serializers policy (.sampler .publish) = some next) :
    next.Coherent narrowed serializers := by
  rcases Option.bind_eq_some_iff.mp stepped with ⟨loop, steps, tells⟩
  have sound := SamplerLoop.sound_step coherent.loop steps
  rcases SamplerLoop.told_of_publish coherent.hasReading steps with
    ⟨same, hasReading, told, outcome, appended⟩
  have summarizes := sound.summarizes
  have converted := fun snapshot payload isLast =>
    @converted_of_mem narrowed loop snapshot payload (mem_of_lastPublished isLast)
  rw [appended] at told summarizes
  simp only [appended] at converted
  rcases syncSamplerState_isSome summarizes with ⟨update, syncs⟩
  rw [LoopEvent.isPublish, if_pos rfl, onSample] at tells
  simp only [syncs] at tells
  rcases Option.map_eq_some_iff.mp tells with ⟨server, updates, rfl⟩
  rcases Option.map_eq_some_iff.mp updates with ⟨⟨_, answer⟩, responds, rfl⟩
  refine ⟨sound, hasReading, Server.sound_respond coherent.server responds, ?_, ?_⟩
  · cases responds
    rw [told]
    exact coherent.mirrors.sync (fun version => (coherent.server.planes version).unserved)
      summarizes converted syncs
  · rw [told]
    exact loadGateState_eq summarizes

theorem coherent_step (coherent : daemon.Coherent narrowed serializers)
    (stepped : daemon.step narrowed serializers policy event = some next) :
    next.Coherent narrowed serializers := by
  cases event with
  | request event => exact coherent_request coherent stepped
  | sampler event =>
      by_cases silent : event = .publish
      · subst silent
        exact coherent_publish coherent stepped
      · rcases Option.bind_eq_some_iff.mp stepped with ⟨loop, steps, moves⟩
        rcases SamplerLoop.told_of_step coherent.hasReading steps silent with ⟨told, hasReading⟩
        have publishesNothing : event.isPublish = false := by
          cases event with
          | publish => exact absurd rfl silent
          | _ => rfl
        rw [publishesNothing, if_neg Bool.false_ne_true] at moves
        cases moves
        refine ⟨SamplerLoop.sound_step coherent.loop steps, hasReading, coherent.server, ?_, ?_⟩
        · rw [told]
          exact coherent.mirrors
        · rw [told]
          exact coherent.gate

theorem coherent_start {intervalMs : ℕ} (created : Sampler.withInterval intervalMs = some sampler) :
    (start sampler : SamplingDaemon Body).Coherent narrowed serializers := by
  have sound := @SamplerLoop.sound_start narrowed sampler intervalMs created
  rw [Sampler.withInterval] at created
  split at created
  · cases created
    refine ⟨sound, ?_, Server.sound_start, ⟨fun _ => rfl, rfl, rfl, ?_⟩, rfl⟩
    · intro publishing
      cases publishing
    · intro version isReady
      cases isReady
  · cases created

theorem coherence_of_run {intervalMs : ℕ} (created : Sampler.withInterval intervalMs = some sampler)
    (ran : Machine.run (step narrowed serializers policy) (start sampler) events = some daemon) :
    daemon.Coherent narrowed serializers := by
  apply Machine.run_induction (fun _ daemon => daemon.Coherent narrowed serializers) ran
    (coherent_start created)
  intro events daemon event next _ coherent stepped
  exact coherent_step coherent stepped

end Steps

section Routes

variable {staleAfterMs intervalMs : ℕ} {nowUnixMs : Option ℕ} {version : MemoVersion} {body : Body}
  {outcomes : List Outcome} {state : Server.PublishedState Body} {snapshot : Option StatusSnapshot}
  {payload : StatusPayloadV2}

/-- A publication that the policy still allows: not denied too often since, and neither too old nor
from the future. -/
structure Fresh (staleAfterMs : ℕ) (nowUnixMs : Option ℕ) (outcomes : List Outcome)
    (payload : StatusPayloadV2) : Prop where
  denied : (failing outcomes).length < DEFAULT_MAX_CONSECUTIVE_FAILURES
  aged : 0 < staleAfterMs → ∃ nowMs, nowUnixMs = some nowMs ∧
    payload.snapshot.observedAtUnixMs ≤ nowMs ∧
    nowMs - payload.snapshot.observedAtUnixMs < staleAfterMs

theorem isStale_eq_false_iff (mirrors : Mirrors outcomes state)
    (isLast : lastPublished outcomes = some (snapshot, payload)) :
    Server.isStale (daemonPolicy staleAfterMs) state nowUnixMs = false ↔
      Fresh staleAfterMs nowUnixMs outcomes payload := by
  have observed := mirrors.observed
  rw [isLast, Option.map_some] at observed
  have age : fromMillis staleAfterMs / 1000000 = staleAfterMs := by
    rw [fromMillis, Nat.mul_div_cancel _ (by decide)]
  have counts : DEFAULT_MAX_CONSECUTIVE_FAILURES ≤ state.consecutiveFailures ↔
      DEFAULT_MAX_CONSECUTIVE_FAILURES ≤ (failing outcomes).length := by
    rw [mirrors.failures, Nat.le_min]
    exact and_iff_left (by decide)
  simp only [Server.isStale, daemonPolicy, counts, age, observed]
  split
  · rename_i denied
    simp only [Bool.true_eq_false, false_iff]
    intro fresh
    exact absurd fresh.denied (Nat.not_lt.mpr denied.2)
  · rename_i notDenied
    have few : (failing outcomes).length < DEFAULT_MAX_CONSECUTIVE_FAILURES := by
      by_contra many
      exact notDenied ⟨by decide, Nat.not_lt.mp many⟩
    split
    · rename_i never
      rw [fromMillis, Nat.mul_eq_zero] at never
      simp only [true_iff]
      exact ⟨few, fun positive => by omega⟩
    · rename_i ages
      have positive : 0 < staleAfterMs := by
        rw [fromMillis, Nat.mul_eq_zero] at ages
        omega
      cases nowUnixMs with
      | none =>
          simp only [Bool.true_eq_false, false_iff]
          intro fresh
          rcases fresh.aged positive with ⟨nowMs, impossible, -⟩
          cases impossible
      | some nowMs =>
          simp only [Bool.or_eq_false_iff, decide_eq_false_iff_not, Nat.not_lt, Nat.not_le]
          constructor
          · rintro ⟨notAhead, notOld⟩
            exact ⟨few, fun _ => ⟨nowMs, rfl, notAhead, notOld⟩⟩
          · intro fresh
            rcases fresh.aged positive with ⟨_, ⟨⟩, notAhead, notOld⟩
            exact ⟨notAhead, notOld⟩

theorem statusResponse_of_none {now : Option ℕ} (isNone : (state.plane version).snapshot = none) :
    Server.statusResponse serializers policy state version now ≠
      .response (.status version) 200 body := by
  simp only [Server.statusResponse, isNone, Server.answerWith]
  cases serializers.health version _ with
  | none => simp
  | some body => simp

/-- What is stored is serialized before or within the request, to the same body. -/
theorem statusResponse_of_some {now : Option ℕ} {doc : version.Published}
    (isStored : (state.plane version).snapshot = some doc)
    (serialized : ∀ body, (state.plane version).statusBytes = some body →
      ∃ snapshot, (state.plane version).snapshot = some snapshot ∧
        serializers.status version snapshot = some body) :
    Server.statusResponse serializers policy state version now =
        .response (.status version) 200 body ↔
      Server.isStale policy state now = false ∧ serializers.status version doc = some body := by
  simp only [Server.statusResponse, isStored]
  split
  · rename_i isStale
    rw [isStale]
    simp only [Server.answerWith, Bool.true_eq_false, false_and, iff_false]
    cases serializers.health version _ with
    | none => simp
    | some body => simp
  · rename_i notStale
    rw [Bool.eq_false_of_not_eq_true notStale]
    simp only [true_and]
    split
    · rename_i bytes isBytes
      rcases serialized bytes isBytes with ⟨_, isSnapshot, isBody⟩
      cases isStored.symm.trans isSnapshot
      rw [isBody]
      simp
    · rw [Server.answerWith]
      cases serializers.status version doc <;> simp

theorem statusResponse_eq_ok_iff (coherent : daemon.Coherent narrowed serializers) :
    Server.statusResponse serializers (daemonPolicy staleAfterMs) daemon.server.published version
        nowUnixMs = .response (.status version) 200 body ↔
      ∃ snapshot payload doc,
        lastPublished (daemon.loop.told narrowed) = some (snapshot, payload) ∧
        Converted daemon.loop.sampler.intervalMs snapshot payload ∧
        document version (snapshot, payload) = some doc ∧
        Fresh staleAfterMs nowUnixMs (daemon.loop.told narrowed) payload ∧
        serializers.status version doc = some body := by
  have stored := coherent.mirrors.stored version
  cases isLast : lastPublished (daemon.loop.told narrowed) with
  | none =>
      rw [isLast] at stored
      simp [statusResponse_of_none stored]
  | some publication =>
      rcases publication with ⟨snapshot, payload⟩
      rw [isLast, Option.bind_some] at stored
      cases isDocument : document version (snapshot, payload) with
      | none =>
          rw [isDocument] at stored
          simp only [statusResponse_of_none stored, false_iff, not_exists]
          rintro _ _ doc ⟨⟨⟩, -, hasDocument, -⟩
          cases isDocument.symm.trans hasDocument
      | some doc =>
          rw [isDocument] at stored
          rw [statusResponse_of_some stored (coherent.server.planes version).status,
            isStale_eq_false_iff coherent.mirrors isLast]
          constructor
          · rintro ⟨fresh, isBody⟩
            exact ⟨snapshot, payload, doc, rfl, converted_of_told isLast, isDocument, fresh, isBody⟩
          · rintro ⟨_, _, _, ⟨⟩, -, hasDocument, fresh, isBody⟩
            cases isDocument.symm.trans hasDocument
            exact ⟨fresh, isBody⟩

/-- A status route answers with success exactly where a document of its version was published last,
that the policy allows. What it then answers is that document; one of version 2 is well formed. -/
theorem status_ok_iff (created : Sampler.withInterval intervalMs = some sampler)
    (ran : Machine.run (step narrowed serializers (daemonPolicy staleAfterMs)) (start sampler)
      events = some daemon) :
    Server.statusResponse serializers (daemonPolicy staleAfterMs) daemon.server.published version
        nowUnixMs = .response (.status version) 200 body ↔
      ∃ snapshot payload doc,
        lastPublished (daemon.loop.told narrowed) = some (snapshot, payload) ∧
        Converted daemon.loop.sampler.intervalMs snapshot payload ∧
        document version (snapshot, payload) = some doc ∧
        Fresh staleAfterMs nowUnixMs (daemon.loop.told narrowed) payload ∧
        serializers.status version doc = some body :=
  statusResponse_eq_ok_iff (coherence_of_run created ran)

/-- A status route answers its document, or that it has none. -/
theorem status_of_statusResponse {policy : StalePolicy} {route : Server.Route} {status : ℕ}
    (responds : Server.statusResponse serializers policy state version nowUnixMs =
      .response route status body) :
    route = .status version ∧ status = 200 ∨ status = 503 := by
  have of_answerWith : ∀ {route : Server.Route} {status : ℕ} {found : Option Body}
      {other : Server.Route} {code : ℕ}, Server.answerWith route status found =
        .response other code body → other = route ∧ code = status := by
    intro route status found other code answers
    cases found with
    | none => cases answers
    | some found =>
        cases answers
        exact ⟨rfl, rfl⟩
  rw [Server.statusResponse] at responds
  split at responds
  · split at responds
    · exact .inr (of_answerWith responds).2
    · split at responds
      · cases responds
        exact .inl ⟨rfl, rfl⟩
      · exact .inl (of_answerWith responds)
  · exact .inr (of_answerWith responds).2

end Routes

section Gate

theorem isFinite_of_isLoad {value : F32} (isLoad : IsLoad value) : value.isFinite = true := by
  rcases isLoad with ⟨number, rfl, -⟩
  rfl

/-- A load that the scheduler reads is one of a document that was checked. -/
theorem finiteLoad_gateOf {loop : SamplerLoop} : FiniteLoad (gateOf (loop.told narrowed)) := by
  intro values isLoad
  rcases Option.bind_eq_some_iff.mp isLoad with ⟨⟨snapshot, payload⟩, isLast, isLoad⟩
  rcases Option.map_eq_some_iff.mp isLoad with ⟨load, isFamily, rfl⟩
  have wellFormed := (converted_of_told isLast).wellFormed.snapshot.load.each load isFamily
  exact ⟨isFinite_of_isLoad wellFormed.one, isFinite_of_isLoad wellFormed.five,
    isFinite_of_isLoad wellFormed.fifteen⟩

/-- The load gate has the load of the document that was published last, with the readiness of what
was told since, and the load is finite. -/
theorem gate_of_run {intervalMs : ℕ} (created : Sampler.withInterval intervalMs = some sampler)
    (ran : Machine.run (step narrowed serializers policy) (start sampler) events = some daemon) :
    daemon.gate = gateOf (daemon.loop.told narrowed) ∧ FiniteLoad daemon.gate := by
  have coherent := coherence_of_run created ran
  refine ⟨coherent.gate, ?_⟩
  rw [coherent.gate]
  exact finiteLoad_gateOf

end Gate

section OneSample

/-- A sample of a machine without memory or swap. -/
def idleMetrics : CollectedMetrics where
  logicalCores := 1
  cpuUsagePct := some (.finite 0)
  cpuIowaitPct := none
  load := { one := .finite 0, five := .finite 0, fifteen := .finite 0 }
  memory := { usedBytes := 0, totalBytes := 0, usagePct := .finite 0 }
  swap := { usedBytes := 0, totalBytes := 0, usagePct := .finite 0 }
  commit := none
  drives := none
  cpuFrequencyHz := none
  diskIo := none
  network := none

/-- A collector that reports the load and nothing else, one second after the epoch. -/
def loadMoment : Moment where
  collector :=
    { identity := .ok
        { name := "host", hostname := "host", osName := "Linux", osVersion := "1"
          kernelName := "Linux", kernelRelease := "6.1", architecture := "x86_64" }
      capabilities := { cpuIowait := false }
      capabilitiesV2 :=
        { cpuIowait := false, loadAverage := true, swap := false, memoryCommit := false }
      supportsV1Snapshot := true }
  nowUnixMs := some 1000

/-- The first cycle ends, and what it found is told. -/
def firstSample : List SamplingEvent :=
  [.sampler (.cycleEnds 0 (.returned (.ok idleMetrics))), .sampler (.collect loadMoment),
    .sampler .publish]

theorem status_ok_iff_firstSample :
    ∃ daemon, Machine.run (step (fun _ _ => .nan) Server.readiness (daemonPolicy 5000))
        (start SamplerLoop.everySecond) firstSample = some daemon ∧
      Server.statusResponse Server.readiness (daemonPolicy 5000) daemon.server.published .v2
        (some 1200) = .response (.status .v2) 200 true ∧
      ∃ payload, Fresh 5000 (some 1200) (daemon.loop.told fun _ _ => .nan) payload := by
  refine ⟨_, rfl, rfl, ?_⟩
  have served := @status_ok_iff Bool (fun _ _ => .nan) Server.readiness SamplerLoop.everySecond _
    firstSample 5000 1000 (some 1200) .v2 true rfl rfl
  rcases served.mp rfl with ⟨snapshot, payload, doc, -, -, -, fresh, -⟩
  exact ⟨payload, fresh⟩

theorem gate_of_run_firstSample :
    ∃ daemon, Machine.run (step (fun _ _ => .nan) Server.readiness (daemonPolicy 5000))
        (start SamplerLoop.everySecond) firstSample = some daemon ∧
      daemon.gate.load.isSome = true ∧ FiniteLoad daemon.gate := by
  refine ⟨_, rfl, rfl, ?_⟩
  exact (@gate_of_run Bool (fun _ _ => .nan) Server.readiness (daemonPolicy 5000)
    SamplerLoop.everySecond _ firstSample 1000 rfl rfl).2

end OneSample

end SamplingDaemon

end Gregg.Sampling
