import Gregg.Fleet.Poller
import Gregg.Lib.TaskPool

/-!
# A generation of polls

A generation polls its targets in tasks of their own, as many at a time as there are permits, and
joins them in the order of the targets. A task that is cancelled, or that panics, still leaves a
result. Whatever order things happen in, there is one result for each target, and each is either the
poll of its target against the answers that it got or a cancellation with a cause.
-/

namespace Gregg.Poller

open Fleet (IpSyntax)
open Clientd (Endpoint PreparedTarget)
open TaskPool (Status Turn)

/-- A request that waits for its answer, and when its poll began. -/
structure Requesting where
  schema : ExpectedSchema
  url : List Char
  startedAt : ℕ

/-- What the clock reads around the beginning of a poll. -/
structure Opening where
  startedAt : ℕ
  now : ℕ

/-- The end of a request. -/
structure Answered (Body : Type) where
  url : List Char
  exchange : Exchange Body
  now : ℕ

def makeResult (endpoint : Endpoint) (outcome : PollOutcome) (start finish : ℕ) : PollResult where
  systemId := endpoint.id
  endpoint := endpoint
  latency := finish - start
  outcome := outcome

def cancelledResult (endpoint : Endpoint) : PollResult where
  systemId := endpoint.id
  endpoint := endpoint
  latency := 0
  outcome := .cancelled

/-- A poll at its next request, or its result. -/
def Progress.turn (endpoint : Endpoint) (startedAt now : ℕ) : Progress → Turn Requesting PollResult
  | requesting schema url => .continues ⟨schema, url, startedAt⟩
  | ended outcome => .ends (makeResult endpoint outcome startedAt now)

section Task

variable {Body : Type} (decoders : Decoders Body)

def pollTask : TaskPool.Behavior (PreparedTarget PreparedUrl) Requesting Opening (Answered Body)
    PollResult where
  first target opening := (begin target).turn target.endpoint opening.startedAt opening.now
  next target work answer :=
    if answer.url = work.url then
      some ((resume decoders target work.schema answer.exchange).turn target.endpoint
        work.startedAt answer.now)
    else none
  dropped target := cancelledResult target.endpoint

end Task

structure Generation where
  pool : TaskPool.Pool (PreparedTarget PreparedUrl) Requesting PollResult
  /-- The daemon shuts down. -/
  cancelled : Bool

inductive GenerationEvent (Body : Type) where
  | acquired (index : ℕ) (opening : Opening)
  | answered (index : ℕ) (answer : Answered Body)
  | cancel
  | cancelNoticed (index : ℕ)
  | panicked (index : ℕ)
  | joined

namespace GenerationEvent

variable {Body : Type}

/-- What an event is to the pool of tasks. -/
def poolEvent? : GenerationEvent Body → Option (TaskPool.Event Opening (Answered Body))
  | acquired index opening => some (.acquire index opening)
  | answered index answer => some (.resume index answer)
  | cancel => none
  | cancelNoticed index | panicked index => some (.drop index)
  | joined => some .join

/-- Whether an event may happen. A task looks for the cancellation before anything else. -/
def admitted (cancelled : Bool) : GenerationEvent Body → Bool
  | acquired _ _ | answered _ _ | cancel => !cancelled
  | cancelNoticed _ => cancelled
  | panicked _ | joined => true

end GenerationEvent

namespace Generation

variable {Body : Type}

def start (targets : List (PreparedTarget PreparedUrl)) (maxConcurrent : ℕ) : Generation where
  pool := .start targets maxConcurrent
  cancelled := false

def step (decoders : Decoders Body) (generation : Generation) (event : GenerationEvent Body) :
    Option Generation :=
  if event.admitted generation.cancelled then
    match event.poolEvent? with
    | none => some { generation with cancelled := true }
    | some poolEvent =>
        (generation.pool.step (pollTask decoders) poolEvent).map fun pool =>
          { generation with pool }
  else none

end Generation

section Tasks

variable {Body : Type} {decoders : Decoders Body} {ip : IpSyntax}
  {events : List (TaskPool.Event Opening (Answered Body))}
  {event : TaskPool.Event Opening (Answered Body)} {index : ℕ}
  {target : PreparedTarget PreparedUrl} {status before after : Status Requesting PollResult}

/-- A request of a task ended in this way. -/
def Heard (events : List (TaskPool.Event Opening (Answered Body))) (index : ℕ) (url : List Char)
    (exchange : Exchange Body) : Prop :=
  ∃ now, .resume index ⟨url, exchange, now⟩ ∈ events

/-- A result is the poll of its target against the answers that its task heard, or the task was
dropped. -/
structure Settles (decoders : Decoders Body)
    (events : List (TaskPool.Event Opening (Answered Body))) (index : ℕ)
    (target : PreparedTarget PreparedUrl) (result : PollResult) : Prop where
  systemId : result.systemId = target.endpoint.id
  endpoint : result.endpoint = target.endpoint
  outcome : result.outcome = .cancelled ∧ .drop index ∈ events ∨
    ∃ exchange, result.outcome = pollPrepared decoders target exchange ∧
      ∀ url ∈ requested decoders target exchange, Heard events index url (exchange url)

/-- What a task has done of its poll. -/
inductive Follows (decoders : Decoders Body)
    (events : List (TaskPool.Event Opening (Answered Body))) (index : ℕ)
    (target : PreparedTarget PreparedUrl) : Status Requesting PollResult → Prop where
  | waiting : Follows decoders events index target .waiting
  | v2 {url : List Char} {startedAt : ℕ} (isV2 : target.v2Url = some url) :
      Follows decoders events index target (.working ⟨.v2, url, startedAt⟩)
  | v1 {url v2Url : List Char} {startedAt : ℕ} {answer : Exchange Body}
      (isV1 : target.v1Url = some url) (isV2 : target.v2Url = some v2Url)
      (heard : Heard events index v2Url answer)
      (notFound : (pollSingleUrl decoders .v2 answer).isNotFound = true) :
      Follows decoders events index target (.working ⟨.v1, url, startedAt⟩)
  | finished {result : PollResult} (settles : Settles decoders events index target result) :
      Follows decoders events index target (.finished result)

theorem Heard.later {url : List Char} {exchange : Exchange Body}
    (heard : Heard events index url exchange) : Heard (events ++ [event]) index url exchange := by
  rcases heard with ⟨now, member⟩
  exact ⟨now, List.mem_append_left _ member⟩

theorem Settles.later {result : PollResult}
    (settles : Settles decoders events index target result) :
    Settles decoders (events ++ [event]) index target result where
  systemId := settles.systemId
  endpoint := settles.endpoint
  outcome := by
    rcases settles.outcome with ⟨cancelled, dropped⟩ | ⟨exchange, isOutcome, heard⟩
    · exact .inl ⟨cancelled, List.mem_append_left _ dropped⟩
    · refine .inr ⟨exchange, isOutcome, ?_⟩
      intro url member
      exact (heard url member).later

theorem Follows.later (follows : Follows decoders events index target status) :
    Follows decoders (events ++ [event]) index target status := by
  cases follows with
  | waiting => exact .waiting
  | v2 isV2 => exact .v2 isV2
  | v1 isV1 isV2 heard notFound => exact .v1 isV1 isV2 heard.later notFound
  | finished settles => exact .finished settles.later

/-- The two addresses of a target differ. -/
def Distinct (target : PreparedTarget PreparedUrl) : Prop :=
  ∀ url, target.v2Url = some url → target.v1Url ≠ some url

theorem distinct_of_prepared {endpoints : List Endpoint}
    (prepared : target ∈ Clientd.PollPlane.prepareTargets (statusUrls ip) endpoints) :
    Distinct target := by
  rcases List.mem_map.mp prepared with ⟨endpoint, -, rfl⟩
  intro url isV2 isV1
  rcases Option.map_eq_some_iff.mp isV2 with ⟨host, isHost, rfl⟩
  rcases Option.map_eq_some_iff.mp isV1 with ⟨other, isOther, same⟩
  cases isHost.symm.trans isOther
  have samePaths := List.append_cancel_left same
  exact absurd samePaths (by decide)

/-- A poll that ends leaves a result of its target. -/
theorem Follows.ended (exchange : List Char → Exchange Body) {outcome : PollOutcome}
    {startedAt now : ℕ}
    (isOutcome : outcome = pollPrepared decoders target exchange)
    (heard : ∀ url ∈ requested decoders target exchange, Heard events index url (exchange url)) :
    Follows decoders events index target
      ((Progress.ended outcome).turn target.endpoint startedAt now).status :=
  .finished ⟨rfl, rfl, .inr ⟨exchange, isOutcome, heard⟩⟩

theorem heard_of_takes {answer : Answered Body} :
    Heard (events ++ [.resume index answer]) index answer.url answer.exchange :=
  ⟨answer.now, List.mem_append_right _ (List.mem_singleton.mpr rfl)⟩

/-- The answer to the second version ends the poll, or it asks for the first. -/
theorem Follows.resume_v2 {answer : Answered Body} {startedAt : ℕ}
    (isV2 : target.v2Url = some answer.url) :
    Follows decoders (events ++ [.resume index answer]) index target
      ((resume decoders target .v2 answer.exchange).turn target.endpoint startedAt
        answer.now).status := by
  have heard : ∀ url ∈ [answer.url],
      Heard (events ++ [.resume index answer]) index url answer.exchange := by
    intro url member
    rw [List.mem_singleton.mp member]
    exact heard_of_takes
  rw [resume]
  cases notFound : (pollSingleUrl decoders .v2 answer.exchange).isNotFound with
  | false =>
      apply Follows.ended fun _ => answer.exchange
      · rw [pollPrepared_of_v2Url isV2, notFound]
        rfl
      · rw [requested, isV2]
        simp only [notFound]
        exact heard
  | true =>
      cases isV1 : target.v1Url with
      | none =>
          apply Follows.ended fun _ => answer.exchange
          · rw [pollPrepared_of_v2Url isV2, notFound, isV1]
            rfl
          · rw [requested, isV2]
            simp only [notFound, isV1]
            exact heard
      | some v1Url => exact .v1 isV1 isV2 heard_of_takes notFound

/-- The answer to the first version ends the poll. -/
theorem Follows.resume_v1 (distinct : Distinct target) {answer : Answered Body} {startedAt : ℕ}
    {v2Url : List Char} {v2Answer : Exchange Body} (isV1 : target.v1Url = some answer.url)
    (isV2 : target.v2Url = some v2Url) (heard : Heard events index v2Url v2Answer)
    (notFound : (pollSingleUrl decoders .v2 v2Answer).isNotFound = true) :
    Follows decoders (events ++ [.resume index answer]) index target
      ((resume decoders target .v1 answer.exchange).turn target.endpoint startedAt
        answer.now).status := by
  have different : answer.url ≠ v2Url := by
    rintro same
    exact distinct v2Url isV2 (same ▸ isV1)
  apply Follows.ended fun url => if url = v2Url then v2Answer else answer.exchange
  · rw [pollPrepared_of_v2Url isV2, if_pos rfl, notFound, isV1]
    simp only [if_neg different]
    rfl
  · intro url member
    rw [requested, isV2] at member
    simp only [if_true, notFound, isV1] at member
    rcases List.mem_cons.mp member with rfl | member
    · rw [if_pos rfl]
      exact heard.later
    · cases List.mem_singleton.mp member
      rw [if_neg different]
      exact heard_of_takes

/-- What a task does next is the next part of its poll. -/
theorem Follows.change (distinct : Distinct target)
    (follows : Follows decoders events index target before)
    (change : TaskPool.Change (pollTask decoders) index target event before after) :
    Follows decoders (events ++ [event]) index target after := by
  cases change with
  | acquired opening =>
      simp only [pollTask, begin]
      cases isV2 : target.v2Url with
      | none =>
          apply Follows.ended fun _ => .invalidUrl
          · rw [pollPrepared, isV2]
          · rw [requested, isV2]
            intro url member
            cases member
      | some url => exact .v2 isV2
  | @resumed work answer turn takes =>
      simp only [pollTask] at takes
      split at takes
      · rename_i isUrl
        cases takes
        cases follows with
        | v2 isV2 =>
            cases isUrl
            exact .resume_v2 isV2
        | v1 isV1 isV2 heard notFound =>
            cases isUrl
            exact .resume_v1 distinct isV1 isV2 heard notFound
      · cases takes
  | dropped notOver =>
      refine .finished ⟨rfl, rfl, .inl ⟨rfl, ?_⟩⟩
      exact List.mem_append_right _ (List.mem_singleton.mpr rfl)

end Tasks

section Runs

variable {Body : Type} {decoders : Decoders Body} {ip : IpSyntax} {endpoints : List Endpoint}
  {events : List (GenerationEvent Body)} {event : GenerationEvent Body} {maxConcurrent : ℕ}
  {targets : List (PreparedTarget PreparedUrl)} {generation next : Generation}

namespace Generation

/-- An event is the cancellation, or one of the pool. -/
theorem step_cases (stepped : generation.step decoders event = some next) :
    event.admitted generation.cancelled = true ∧
      ((event.poolEvent? = none ∧ event = .cancel ∧ next = { generation with cancelled := true }) ∨
        ∃ poolEvent, event.poolEvent? = some poolEvent ∧ next.cancelled = generation.cancelled ∧
          generation.pool.step (pollTask decoders) poolEvent = some next.pool) := by
  rw [step] at stepped
  split at stepped
  · rename_i admitted
    refine ⟨admitted, ?_⟩
    cases isEvent : event.poolEvent? with
    | none =>
        rw [isEvent] at stepped
        cases stepped
        cases event with
        | cancel => exact .inl ⟨rfl, rfl, rfl⟩
        | _ => cases isEvent
    | some poolEvent =>
        rw [isEvent] at stepped
        rcases Option.map_eq_some_iff.mp stepped with ⟨pool, poolStepped, rfl⟩
        exact .inr ⟨poolEvent, rfl, rfl, poolStepped⟩
  · cases stepped

/-- The tasks of a generation run as a pool. -/
theorem pool_of_run
    (ran : Machine.run (step decoders) (start targets maxConcurrent) events = some generation) :
    Machine.run (TaskPool.Pool.step (pollTask decoders)) (.start targets maxConcurrent)
      (events.filterMap GenerationEvent.poolEvent?) = some generation.pool := by
  apply Machine.run_induction (fun events generation =>
    Machine.run (TaskPool.Pool.step (pollTask decoders)) (.start targets maxConcurrent)
      (events.filterMap GenerationEvent.poolEvent?) = some generation.pool) ran
  · rfl
  · intro events generation event next _ ranPool stepped
    rw [List.filterMap_append]
    rcases (step_cases stepped).2 with ⟨isNone, -, rfl⟩ | ⟨poolEvent, isEvent, -, stepped⟩
    · simp only [List.filterMap_cons, isNone, List.filterMap_nil, List.append_nil]
      exact ranPool
    · simp only [List.filterMap_cons, isEvent, List.filterMap_nil]
      rw [Machine.run_append_singleton ranPool]
      exact stepped

/-- What is noticed of a cancellation was one. -/
theorem cancel_mem_of_run
    (ran : Machine.run (step decoders) (start targets maxConcurrent) events = some generation) :
    (generation.cancelled = true → .cancel ∈ events) ∧
      ∀ index, .cancelNoticed index ∈ events → .cancel ∈ events := by
  apply Machine.run_induction (fun events (generation : Generation) =>
    (generation.cancelled = true → GenerationEvent.cancel ∈ events) ∧
      ∀ index, GenerationEvent.cancelNoticed index ∈ events → .cancel ∈ events) ran
  · refine ⟨Bool.noConfusion, ?_⟩
    intro index member
    cases member
  · intro events generation event next _ known stepped
    rcases step_cases stepped with ⟨admitted, isStep⟩
    constructor
    · intro cancelled
      rcases isStep with ⟨-, rfl, -⟩ | ⟨poolEvent, -, same, -⟩
      · exact List.mem_append_right _ (List.mem_singleton.mpr rfl)
      · exact List.mem_append_left _ (known.1 (same.symm.trans cancelled))
    · intro index member
      rcases List.mem_append.mp member with earlier | last
      · exact List.mem_append_left _ (known.2 index earlier)
      · cases List.mem_singleton.mp last
        exact List.mem_append_left _ (known.1 admitted)

/-- There is at most one cancellation among the events. -/
theorem length_le_of_run
    (ran : Machine.run (step decoders) (start targets maxConcurrent) events = some generation) :
    events.length ≤ (events.filterMap GenerationEvent.poolEvent?).length + 1 := by
  have counted : events.length ≤ (events.filterMap GenerationEvent.poolEvent?).length +
      generation.cancelled.toNat := by
    apply Machine.run_induction (fun events (generation : Generation) =>
      events.length ≤ (events.filterMap GenerationEvent.poolEvent?).length +
        generation.cancelled.toNat) ran
    · exact Nat.le_refl 0
    · intro events generation event next _ counted stepped
      rw [List.filterMap_append, List.length_append, List.length_append, List.length_singleton]
      rcases step_cases stepped with ⟨admitted, ⟨isNone, rfl, rfl⟩ | ⟨poolEvent, isEvent, same, -⟩⟩
      · cases isCancelled : generation.cancelled with
        | true =>
            rw [isCancelled] at admitted
            cases admitted
        | false =>
            rw [isCancelled] at counted
            simp only [List.filterMap_cons, isNone, List.filterMap_nil, List.length_nil,
              Bool.toNat_false, Bool.toNat_true] at counted ⊢
            omega
      · rw [same]
        simp only [List.filterMap_cons, isEvent, List.filterMap_nil, List.length_singleton]
        omega
  have atMostOne := Bool.toNat_le generation.cancelled
  omega

end Generation

/-- A request of the task at an index ended in this way. -/
def Hears (events : List (GenerationEvent Body)) (index : ℕ) (url : List Char)
    (exchange : Exchange Body) : Prop :=
  ∃ now, .answered index ⟨url, exchange, now⟩ ∈ events

/-- The target of an endpoint as the scheduler prepares it. -/
def prepared (ip : IpSyntax) (endpoint : Endpoint) : PreparedTarget PreparedUrl where
  endpoint := endpoint
  v1Url := statusUrl ip endpoint.host endpoint.port
  v2Url := v2StatusUrl ip endpoint.host endpoint.port

/-- A result of an endpoint: its poll against the answers that were heard at its place, or a
cancellation, which only a shutdown or a task that panicked there leaves. -/
structure IsResult (decoders : Decoders Body) (ip : IpSyntax) (events : List (GenerationEvent Body))
    (index : ℕ) (polled : Endpoint) (result : PollResult) : Prop where
  systemId : result.systemId = polled.id
  endpoint : result.endpoint = polled
  outcome : result.outcome = .cancelled ∧ (.panicked index ∈ events ∨ .cancel ∈ events) ∨
    ∃ exchange, result.outcome = poll decoders ip polled exchange ∧
      ∀ url ∈ requested decoders (prepared ip polled) exchange,
        Hears events index url (exchange url)
  cancelled : result.outcome = .cancelled → .panicked index ∈ events ∨ .cancel ∈ events

/-- What a generation waits for is that a task begins, gets an answer or notices a cancellation. -/
def Generation.Ready (decoders : Decoders Body) (generation : Generation) : Prop :=
  (generation.step decoders .joined).isSome ∨
    (∃ index, ∀ opening, (generation.step decoders (.acquired index opening)).isSome) ∨
    (∃ index url, ∀ exchange now,
      (generation.step decoders (.answered index ⟨url, exchange, now⟩)).isSome) ∨
    ∃ index, (generation.step decoders (.cancelNoticed index)).isSome

theorem mem_poolEvents {poolEvent : TaskPool.Event Opening (Answered Body)}
    (member : poolEvent ∈ events.filterMap GenerationEvent.poolEvent?) :
    ∃ event ∈ events, event.poolEvent? = some poolEvent := by
  rcases List.mem_filterMap.mp member with ⟨event, eventMem, isEvent⟩
  exact ⟨event, eventMem, isEvent⟩

theorem Hears.of_heard {index : ℕ} {url : List Char} {exchange : Exchange Body}
    (heard : Heard (events.filterMap GenerationEvent.poolEvent?) index url exchange) :
    Hears events index url exchange := by
  rcases heard with ⟨now, member⟩
  rcases mem_poolEvents member with ⟨event, eventMem, isEvent⟩
  cases event with
  | answered other answer =>
      cases isEvent
      exact ⟨now, eventMem⟩
  | _ => cases isEvent

theorem dropped_of_mem {index : ℕ}
    (noticed : ∀ index, GenerationEvent.cancelNoticed index ∈ events → .cancel ∈ events)
    (member : .drop index ∈ events.filterMap GenerationEvent.poolEvent?) :
    .panicked index ∈ events ∨ .cancel ∈ events := by
  rcases mem_poolEvents member with ⟨event, eventMem, isEvent⟩
  cases event with
  | panicked other =>
      cases isEvent
      exact .inl eventMem
  | cancelNoticed other =>
      cases isEvent
      exact .inr (noticed _ eventMem)
  | _ => cases isEvent

theorem rank_pollTask : TaskPool.Ranked (pollTask decoders)
    (fun work => if work.schema = .v2 then 1 else 0) 2 where
  first := by
    intro target opening work isFirst
    split <;> omega
  next := by
    intro target work answer later takes
    simp only [pollTask] at takes
    split at takes
    · cases isSchema : work.schema with
      | v1 =>
          rw [isSchema] at takes
          cases takes
      | v2 =>
          rw [isSchema, resume] at takes
          split at takes
          · cases isV1 : target.v1Url with
            | none =>
                rw [isV1] at takes
                cases takes
            | some v1Url =>
                rw [isV1] at takes
                cases takes
                exact Nat.zero_lt_one
          · cases takes
    · cases takes

theorem isSome_step {poolEvent : TaskPool.Event Opening (Answered Body)}
    (isEvent : event.poolEvent? = some poolEvent)
    (admitted : event.admitted generation.cancelled = true)
    (enabled : (generation.pool.step (pollTask decoders) poolEvent).isSome) :
    (generation.step decoders event).isSome := by
  rw [Generation.step, if_pos admitted, isEvent]
  simpa using enabled

/-- Until everything was joined a generation is ready for an event. -/
theorem ready_of_sound
    (sound : TaskPool.Sound maxConcurrent targets generation.pool) (room : 0 < maxConcurrent)
    (unfinished : generation.pool.joined.length < targets.length) : generation.Ready decoders := by
  cases isCancelled : generation.cancelled with
  | true =>
      rcases @TaskPool.Sound.join_or_drop _ _ _ _ _ (pollTask decoders) _ _ _ sound unfinished with
        joins | ⟨index, drops⟩
      · exact .inl (isSome_step rfl rfl joins)
      · exact .inr (.inr (.inr ⟨index, isSome_step rfl isCancelled drops⟩))
  | false =>
      have admitted : (!generation.cancelled) = true := by rw [isCancelled]; rfl
      rcases @TaskPool.Sound.progress _ _ _ _ _ (pollTask decoders) _ _ _ sound room unfinished with
        joins | ⟨index, acquires⟩ | ⟨index, target, work, working⟩
      · exact .inl (isSome_step rfl rfl joins)
      · refine .inr (.inl ⟨index, ?_⟩)
        intro opening
        refine @isSome_step _ _ (.acquired index opening) _ _ rfl ?_ (acquires opening)
        exact admitted
      · refine .inr (.inr (.inl ⟨index, work.url, ?_⟩))
        intro exchange now
        refine @isSome_step _ _ (.answered index ⟨work.url, exchange, now⟩) _ _ rfl ?_ ?_
        · exact admitted
        · simp [TaskPool.Pool.step, working, pollTask]

theorem isResult_of_run {index : ℕ} {result : PollResult}
    (ran : Machine.run (Generation.step decoders)
      (.start (Clientd.PollPlane.prepareTargets (statusUrls ip) endpoints) maxConcurrent) events =
        some generation)
    (joined : generation.pool.joined[index]? = some result) :
    ∃ endpoint, endpoints[index]? = some endpoint ∧
      IsResult decoders ip events index endpoint result := by
  have ranPool := Generation.pool_of_run ran
  rcases (TaskPool.sound_of_run ranPool).finished_of_joined joined with ⟨target, isTarget, found⟩
  have follows := TaskPool.each_of_run
    (fun events index target status => Distinct target →
      Follows decoders events index target status)
    (fun _ _ _ => .waiting) (fun _ _ _ _ _ follows distinct => (follows distinct).later)
    (fun _ _ _ _ _ _ follows change distinct => (follows distinct).change distinct change)
    ranPool index _ found (distinct_of_prepared (List.mem_of_getElem? isTarget))
  rcases Option.map_eq_some_iff.mp (List.getElem?_map ▸ isTarget) with ⟨endpoint, isEndpoint, rfl⟩
  refine ⟨endpoint, isEndpoint, ?_⟩
  cases follows with
  | finished settles =>
      rcases settles.outcome with ⟨cancelled, dropped⟩ | ⟨exchange, isOutcome, heard⟩
      · have cause := dropped_of_mem (Generation.cancel_mem_of_run ran).2 dropped
        exact ⟨settles.systemId, settles.endpoint, .inl ⟨cancelled, cause⟩, fun _ => cause⟩
      · refine ⟨settles.systemId, settles.endpoint, .inr ⟨exchange, ?_, ?_⟩, ?_⟩
        · rw [poll_eq_pollPrepared]
          exact isOutcome
        · intro url member
          exact .of_heard (heard url member)
        · intro cancelled
          exact absurd (isOutcome.symm.trans cancelled) pollPrepared_ne_cancelled

/-- A generation never has more requests under way than it may, always has something to wait for
until it is complete, is complete after a bounded number of events, and then has the poll of every
endpoint, in order, with all its permits back. -/
theorem results_of_run (room : 0 < maxConcurrent)
    (ran : Machine.run (Generation.step decoders)
      (.start (Clientd.PollPlane.prepareTargets (statusUrls ip) endpoints) maxConcurrent) events =
        some generation) :
    generation.pool.working ≤ maxConcurrent ∧
      events.length ≤ 4 * endpoints.length + 1 ∧
      (generation.pool.joined.length < endpoints.length → generation.Ready decoders) ∧
      (generation.pool.joined.length = endpoints.length → generation.pool.free = maxConcurrent) ∧
      ∀ index result, generation.pool.joined[index]? = some result →
        ∃ endpoint, endpoints[index]? = some endpoint ∧
          IsResult decoders ip events index endpoint result := by
  have ranPool := Generation.pool_of_run ran
  have sound := TaskPool.sound_of_run ranPool
  have sameLength : (Clientd.PollPlane.prepareTargets (statusUrls ip) endpoints).length =
      endpoints.length := List.length_map ..
  refine ⟨sound.working_le, ?_, ?_, ?_, ?_⟩
  · have bounded := TaskPool.length_le_of_run rank_pollTask ranPool
    have withCancel := Generation.length_le_of_run ran
    omega
  · intro unfinished
    exact ready_of_sound sound room (by omega)
  · intro finished
    exact (sound.finished (by omega)).1
  · intro index result joined
    exact isResult_of_run ran joined

end Runs

section OnePermit

/-- Two daemons of one host. -/
def pairOfEndpoints : List Endpoint :=
  [{ id := "a", host := "h", port := 80, name := none },
    { id := "b", host := "h", port := 81, name := none }]

/-- The first daemon has no sample yet; the poll of the second panics. -/
def oneAfterTheOther : List (GenerationEvent Unit) :=
  [.acquired 0 ⟨0, 0⟩, .answered 0 ⟨"http://h:80/v2/status".toList, .answered 503 (.ok ()), 7⟩,
    .acquired 1 ⟨8, 8⟩, .joined, .panicked 1, .joined]

theorem results_of_run_onePermit : ∃ generation : Generation,
    generation.pool.joined.length = 2 ∧ generation.pool.free = 1 ∧
      ∀ index result, generation.pool.joined[index]? = some result →
        ∃ endpoint, pairOfEndpoints[index]? = some endpoint ∧
          IsResult ⟨fun _ => none, fun _ => none⟩ Fleet.FleetState.dnsNames oneAfterTheOther index
            endpoint result := by
  obtain ⟨generation, ran, finished⟩ : ∃ generation,
      Machine.run (Generation.step ⟨fun _ => none, fun _ => none⟩)
        (.start (Clientd.PollPlane.prepareTargets (statusUrls Fleet.FleetState.dnsNames)
          pairOfEndpoints) 1) oneAfterTheOther = some generation ∧
        generation.pool.joined.length = 2 := ⟨_, rfl, rfl⟩
  rcases results_of_run Nat.zero_lt_one ran with ⟨-, -, -, returned, each⟩
  exact ⟨generation, finished, returned finished, each⟩

end OnePermit

end Gregg.Poller
