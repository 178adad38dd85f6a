import Gregg.Greggd.Sampler

/-!
# Runs of the sampling loop

A read that hangs keeps one thread of the blocking pool, and no more: the loop waits for the same
cycle again, collects every cycle once and in the order they were spawned, and can be stopped at any
time. What the sampler holds is what its readings amount to, looked back from the last one that
could be published.
-/

namespace Gregg.Sampling

open Protocol

/-- What a reading amounts to. -/
inductive Outcome where
  | published (snapshot : Option StatusSnapshot) (payload : StatusPayloadV2)
  | failed
  | undecided

namespace Outcome

def isPublished : Outcome → Bool
  | published _ _ => true
  | _ => false

def isFailed : Outcome → Bool
  | failed => true
  | _ => false

def isUndecided : Outcome → Bool
  | undecided => true
  | _ => false

def publication : Outcome → Option (Option StatusSnapshot × StatusPayloadV2)
  | published snapshot payload => some (snapshot, payload)
  | _ => none

end Outcome

/-- A sample is published where the clock gives a time and its conversion succeeds. A baseline that
is missing decides nothing. -/
def outcomeOf (narrowed : ℕ → ℕ → F32) (intervalMs : ℕ) (moment : Moment) :
    Except CollectError CollectedMetrics → Outcome
  | .ok metrics =>
      match moment.nowUnixMs.bind fun nowMs =>
          (convertSample narrowed intervalMs moment.collector metrics nowMs).toOption with
      | some converted => .published converted.1 converted.2
      | none => .failed
  | .error error =>
      if error.kind = .warming ∨ error.kind = .counterReset then .undecided else .failed

def Reading.outcome (narrowed : ℕ → ℕ → F32) (intervalMs : ℕ) : Reading → Outcome
  | .collected _ moment result => outcomeOf narrowed intervalMs moment result
  | .timedOut => .failed

def Reading.cycle : Reading → Option ℕ
  | .collected cycle _ _ => some cycle
  | .timedOut => none

section History

/-- What was published last. -/
def lastPublished (outcomes : List Outcome) : Option (Option StatusSnapshot × StatusPayloadV2) :=
  (outcomes.filterMap Outcome.publication).getLast?

/-- What came after it, the latest first. -/
def sinceLastPublished (outcomes : List Outcome) : List Outcome :=
  outcomes.reverse.takeWhile fun outcome => !outcome.isPublished

/-- A failure since then is all that is known, however little was decided after it. -/
def readinessAfter (outcomes : List Outcome) : Protocol.ReadinessState :=
  if (sinceLastPublished outcomes).any Outcome.isFailed then .failed
  else if (lastPublished outcomes).isSome then .ready
  else .warming

variable {outcomes : List Outcome} {outcome : Outcome}

theorem lastPublished_append_published {snapshot : Option StatusSnapshot}
    {payload : StatusPayloadV2} :
    lastPublished (outcomes ++ [.published snapshot payload]) = some (snapshot, payload) := by
  rw [lastPublished, List.filterMap_append]
  exact List.getLast?_concat

theorem lastPublished_append_other (other : outcome.isPublished = false) :
    lastPublished (outcomes ++ [outcome]) = lastPublished outcomes := by
  rw [lastPublished, lastPublished, List.filterMap_append]
  cases outcome with
  | published snapshot payload => cases other
  | failed => exact congrArg List.getLast? (List.append_nil _)
  | undecided => exact congrArg List.getLast? (List.append_nil _)

theorem sinceLastPublished_append_published (isPublished : outcome.isPublished = true) :
    sinceLastPublished (outcomes ++ [outcome]) = [] := by
  rw [sinceLastPublished, List.reverse_append, List.reverse_singleton, List.singleton_append,
    List.takeWhile_cons, isPublished]
  rfl

theorem sinceLastPublished_append_other (other : outcome.isPublished = false) :
    sinceLastPublished (outcomes ++ [outcome]) = outcome :: sinceLastPublished outcomes := by
  rw [sinceLastPublished, sinceLastPublished, List.reverse_append, List.reverse_singleton,
    List.singleton_append, List.takeWhile_cons, other]
  rfl

end History

/-- What the sampler holds is what its readings amount to. -/
structure Summarizes (outcomes : List Outcome) (sampler : Sampler) : Prop where
  snapshot : sampler.snapshot = (lastPublished outcomes).bind Prod.fst
  snapshotV2 : sampler.snapshotV2 = (lastPublished outcomes).map Prod.snd
  readiness : sampler.readiness = readinessAfter outcomes
  failures : sampler.consecutiveFailures =
    min ((sinceLastPublished outcomes).countP Outcome.isFailed) Server.u32Max

section Apply

variable {narrowed : ℕ → ℕ → F32} {sampler : Sampler} {moment : Moment}
  {result : Except CollectError CollectedMetrics} {outcomes : List Outcome}

/-- What the sampler makes of an outcome. -/
def Sampler.takes (sampler : Sampler) : Outcome → Sampler
  | .published snapshot payload =>
      { sampler with
        readiness := .ready
        consecutiveFailures := 0
        snapshot
        snapshotV2 := some payload }
  | .failed => sampler.transitionToFailed
  | .undecided => sampler

/-- A sample without a percentage is refused by the conversion as well. -/
theorem convertSample_of_cpuUsagePct {view : CollectorView} {metrics : CollectedMetrics}
    {intervalMs nowMs : ℕ} (missing : metrics.cpuUsagePct = none) :
    (convertSample narrowed intervalMs view metrics nowMs).toOption = none := by
  cases isIdentity : view.identity with
  | error error => simp [convertSample, isIdentity, bind, Except.bind, Except.toOption]
  | ok identity =>
      simp [convertSample, intoSnapshotPair, validateCpuValues, isIdentity, missing, bind,
        Except.bind, Except.toOption]

theorem applySampleResult_eq : sampler.applySampleResult narrowed moment result =
    sampler.takes (outcomeOf narrowed sampler.intervalMs moment result) := by
  cases result with
  | ok metrics =>
      cases isClock : moment.nowUnixMs with
      | none =>
          simp only [Sampler.applySampleResult, outcomeOf, isClock, Option.bind_none, ite_self]
          rfl
      | some nowMs =>
          simp only [Sampler.applySampleResult, outcomeOf, isClock, Option.bind_some]
          split
          · rename_i missing
            rw [convertSample_of_cpuUsagePct (Option.isNone_iff_eq_none.mp missing)]
            rfl
          · split <;> rename_i converts <;> rw [converts] <;> rfl
  | error error =>
      simp only [Sampler.applySampleResult, outcomeOf]
      cases error.kind <;> simp [Sampler.takes]

@[simp]
theorem intervalMs_takes (outcome : Outcome) :
    (sampler.takes outcome).intervalMs = sampler.intervalMs := by
  cases outcome <;> rfl

@[simp]
theorem inFlight_takes (outcome : Outcome) :
    (sampler.takes outcome).inFlight = sampler.inFlight := by
  cases outcome <;> rfl

/-- Every reading goes into the summary. -/
theorem Summarizes.takes (summarizes : Summarizes outcomes sampler) (outcome : Outcome) :
    Summarizes (outcomes ++ [outcome]) (sampler.takes outcome) := by
  cases outcome with
  | published snapshot payload =>
      refine ⟨?_, ?_, ?_, ?_⟩
      · rw [lastPublished_append_published]
        rfl
      · rw [lastPublished_append_published]
        rfl
      · rw [readinessAfter, sinceLastPublished_append_published rfl, lastPublished_append_published]
        rfl
      · rw [sinceLastPublished_append_published rfl]
        rfl
  | failed =>
      refine ⟨?_, ?_, ?_, ?_⟩
      · rw [lastPublished_append_other rfl]
        exact summarizes.snapshot
      · rw [lastPublished_append_other rfl]
        exact summarizes.snapshotV2
      · rw [readinessAfter, sinceLastPublished_append_other rfl]
        rfl
      · rw [sinceLastPublished_append_other rfl, List.countP_cons_of_pos rfl]
        change min (sampler.consecutiveFailures + 1) Server.u32Max = _
        rw [summarizes.failures]
        omega
  | undecided =>
      have last := @lastPublished_append_other outcomes .undecided rfl
      have since := @sinceLastPublished_append_other outcomes .undecided rfl
      refine ⟨?_, ?_, ?_, ?_⟩
      · rw [last]
        exact summarizes.snapshot
      · rw [last]
        exact summarizes.snapshotV2
      · rw [readinessAfter, since, last]
        exact summarizes.readiness
      · rw [since, List.countP_cons_of_neg Bool.false_ne_true]
        exact summarizes.failures

end Apply

namespace SamplerLoop

/-- The cycles that were collected, in order. -/
def collected (loop : SamplerLoop) : List ℕ :=
  loop.readings.filterMap Reading.cycle

def outcomes (narrowed : ℕ → ℕ → F32) (loop : SamplerLoop) : List Outcome :=
  loop.readings.map (Reading.outcome narrowed loop.sampler.intervalMs)

/-- Where the last cycle is: on the pool, ended and not yet collected, or gone with the others. -/
inductive Flight (loop : SamplerLoop) : Prop where
  | idle (handle : loop.sampler.inFlight = none) (running : loop.running = [])
      (collected : loop.collected = List.range loop.spawned) (between : loop.phase ≠ .collecting)
  | running (last : ℕ) (spawned : loop.spawned = last + 1)
      (handle : loop.sampler.inFlight = some last) (running : loop.running = [last])
      (notEnded : loop.ended last = none) (collected : loop.collected = List.range last)
      (going : loop.phase ≠ .stopped)
  | ended (last : ℕ) (spawned : loop.spawned = last + 1)
      (handle : loop.sampler.inFlight = some last) (running : loop.running = [])
      (ended : (loop.ended last).isSome = true) (collected : loop.collected = List.range last)
      (going : loop.phase ≠ .stopped)
  | abandoned (last : ℕ) (spawned : loop.spawned = last + 1)
      (handle : loop.sampler.inFlight = none) (running : loop.running = [] ∨ loop.running = [last])
      (collected : loop.collected = List.range last) (stopped : loop.phase = .stopped)

structure Sound (narrowed : ℕ → ℕ → F32) (loop : SamplerLoop) : Prop where
  flight : loop.Flight
  fresh : ∀ cycle, loop.spawned ≤ cycle → loop.ended cycle = none
  summarizes : Summarizes (loop.outcomes narrowed) loop.sampler

variable {narrowed : ℕ → ℕ → F32} {sampler : Sampler} {loop next : SamplerLoop}
  {event : LoopEvent} {events : List LoopEvent}

section Steps

theorem collected_append (reading : Reading) (change : SamplerLoop)
    (appended : change.readings = loop.readings ++ [reading]) :
    change.collected = loop.collected ++ reading.cycle.toList := by
  rw [collected, appended, List.filterMap_append, collected]
  cases reading <;> rfl

/-- A reading is taken as it is summarized. -/
theorem summarizes_reads {reading : Reading} {holding : Sampler}
    (summarizes : Summarizes (loop.outcomes narrowed) holding)
    (interval : holding.intervalMs = loop.sampler.intervalMs)
    (readings : next.readings = loop.readings ++ [reading])
    (takes : next.sampler =
      holding.takes (reading.outcome narrowed loop.sampler.intervalMs)) :
    Summarizes (next.outcomes narrowed) next.sampler := by
  have sameOutcomes : next.outcomes narrowed =
      loop.outcomes narrowed ++ [reading.outcome narrowed loop.sampler.intervalMs] := by
    rw [outcomes, readings, takes, intervalMs_takes, interval, List.map_append, outcomes,
      List.map_singleton]
  rw [sameOutcomes, takes]
  exact summarizes.takes _

/-- A handle is no part of the summary. -/
theorem summarizes_inFlight {outcomes : List Outcome} (summarizes : Summarizes outcomes sampler)
    (handle : Option ℕ) : Summarizes outcomes { sampler with inFlight := handle } :=
  ⟨summarizes.snapshot, summarizes.snapshotV2, summarizes.readiness, summarizes.failures⟩

theorem sound_sampleOnBlockingPool (sound : loop.Sound narrowed) (going : loop.phase ≠ .stopped) :
    loop.sampleOnBlockingPool.Sound narrowed := by
  rcases sound with ⟨flight, fresh, summarizes⟩
  cases flight with
  | idle handle running collected between =>
      rw [sampleOnBlockingPool, handle]
      refine ⟨.running loop.spawned rfl rfl ?_ (fresh _ (Nat.le_refl _)) collected
        Phase.noConfusion, ?_, summarizes_inFlight summarizes _⟩
      · rw [running]
        rfl
      · intro cycle spawned
        exact fresh cycle (Nat.le_of_succ_le spawned)
  | running last spawned handle running notEnded collected =>
      rw [sampleOnBlockingPool, handle]
      exact ⟨.running last spawned handle running notEnded collected Phase.noConfusion, fresh,
        summarizes⟩
  | ended last spawned handle running ended collected =>
      rw [sampleOnBlockingPool, handle]
      exact ⟨.ended last spawned handle running ended collected Phase.noConfusion, fresh,
        summarizes⟩
  | abandoned last spawned handle running collected stopped => exact absurd stopped going

/-- Only the last cycle runs, so it is the one that ends. -/
theorem Sound.cycleEnds (sound : loop.Sound narrowed) {cycle : ℕ} {result : JoinResult}
    (isRunning : cycle ∈ loop.running) :
    Sound narrowed
      { loop with
        running := loop.running.erase cycle
        ended := fun other => if other = cycle then some result else loop.ended other } := by
  rcases sound with ⟨flight, fresh, summarizes⟩
  have others : ∀ last, loop.spawned = last + 1 → loop.running = [last] → cycle = last ∧
      loop.running.erase cycle = [] ∧
      ∀ other, loop.spawned ≤ other → (if other = cycle then some result else loop.ended other) =
        none := by
    intro last spawned running
    rw [running, List.mem_singleton] at isRunning
    refine ⟨isRunning, ?_, ?_⟩
    · rw [running, isRunning]
      simp
    · intro other later
      rw [if_neg (by omega)]
      exact fresh other later
  cases flight with
  | idle handle running collected between =>
      rw [running] at isRunning
      cases isRunning
  | running last spawned handle running notEnded collected going =>
      rcases others last spawned running with ⟨rfl, erased, fresh⟩
      refine ⟨.ended cycle spawned handle erased ?_ collected going, fresh, summarizes⟩
      simp
  | ended last spawned handle running ended collected going =>
      rw [running] at isRunning
      cases isRunning
  | abandoned last spawned handle running collected stopped =>
      rcases running with running | running
      · rw [running] at isRunning
        cases isRunning
      · rcases others last spawned running with ⟨rfl, erased, fresh⟩
        exact ⟨.abandoned cycle spawned handle (.inl erased) collected stopped, fresh, summarizes⟩

/-- The loop moves on, and the last cycle stays where it is. -/
theorem Flight.movesOn (flight : loop.Flight) (going : loop.phase ≠ .stopped)
    (spawned : next.spawned = loop.spawned)
    (handle : next.sampler.inFlight = loop.sampler.inFlight)
    (running : next.running = loop.running) (ended : next.ended = loop.ended)
    (collected : next.collected = loop.collected) (goes : next.phase ≠ .stopped)
    (between : next.phase ≠ .collecting) : next.Flight := by
  cases flight with
  | idle isHandle isRunning isCollected =>
      exact .idle (handle.trans isHandle) (running.trans isRunning)
        (by rw [collected, isCollected, spawned]) between
  | running last isSpawned isHandle isRunning notEnded isCollected =>
      exact .running last (spawned.trans isSpawned) (handle.trans isHandle)
        (running.trans isRunning) (by rw [ended, notEnded]) (collected.trans isCollected) goes
  | ended last isSpawned isHandle isRunning isEnded isCollected =>
      exact .ended last (spawned.trans isSpawned) (handle.trans isHandle)
        (running.trans isRunning) (by rw [ended, isEnded]) (collected.trans isCollected) goes
  | abandoned last isSpawned isHandle isRunning isCollected stopped => exact absurd stopped going

/-- The cycle whose end is known is the last one. -/
theorem Flight.collects (flight : loop.Flight) {cycle : ℕ} {joined : JoinResult}
    (isHandle : loop.sampler.inFlight = some cycle) (isResult : loop.result = some joined)
    (spawned : next.spawned = loop.spawned) (handle : next.sampler.inFlight = none)
    (running : next.running = loop.running) (collected : next.collected = loop.collected ++ [cycle])
    (between : next.phase ≠ .collecting) : next.Flight := by
  rw [result, isHandle, Option.bind_some] at isResult
  cases flight with
  | idle noHandle => cases noHandle.symm.trans isHandle
  | running last isSpawned wasHandle isRunning notEnded =>
      cases wasHandle.symm.trans isHandle
      cases notEnded.symm.trans isResult
  | ended last isSpawned wasHandle isRunning isEnded isCollected =>
      cases wasHandle.symm.trans isHandle
      refine .idle handle (running.trans isRunning) ?_ between
      rw [collected, isCollected, spawned, isSpawned, List.range_succ]
  | abandoned last isSpawned noHandle => cases noHandle.symm.trans isHandle

/-- A cycle that has not ended is left behind. -/
theorem Flight.stops (flight : loop.Flight) (going : loop.phase ≠ .stopped)
    (spawned : next.spawned = loop.spawned)
    (handle : next.sampler.inFlight = none) (running : next.running = loop.running)
    (collected : next.collected = loop.collected) (stopped : next.phase = .stopped) :
    next.Flight := by
  cases flight with
  | idle noHandle isRunning isCollected =>
      refine .idle handle (running.trans isRunning) (by rw [collected, isCollected, spawned]) ?_
      rw [stopped]
      exact Phase.noConfusion
  | running last isSpawned isHandle isRunning notEnded isCollected =>
      exact .abandoned last (spawned.trans isSpawned) handle (.inr (running.trans isRunning))
        (collected.trans isCollected) stopped
  | ended last isSpawned isHandle isRunning isEnded isCollected =>
      exact .abandoned last (spawned.trans isSpawned) handle (.inl (running.trans isRunning))
        (collected.trans isCollected) stopped
  | abandoned last isSpawned noHandle isRunning isCollected wasStopped =>
      exact absurd wasStopped going

/-- What every step keeps. -/
theorem sound_step (sound : loop.Sound narrowed) (stepped : loop.step narrowed event = some next) :
    next.Sound narrowed := by
  cases event with
  | cycleEnds cycle result =>
      rw [step] at stepped
      split at stepped
      · rename_i isRunning
        cases stepped
        exact sound.cycleEnds isRunning
      · cases stepped
  | collect moment =>
      rw [step] at stepped
      split at stepped
      · rename_i cycle joined isPhase handle isResult
        cases stepped
        rcases sound with ⟨flight, fresh, summarizes⟩
        have takes := @applySampleResult_eq narrowed { loop.sampler with inFlight := none } moment
          joined.result
        refine ⟨?_, fresh, summarizes_reads (summarizes_inFlight summarizes none) rfl rfl takes⟩
        refine flight.collects handle isResult rfl ?_ rfl ?_ Phase.noConfusion
        · rw [takes, inFlight_takes]
        · exact collected_append (.collected cycle moment joined.result) _ rfl
      · cases stepped
  | timeout moment =>
      rw [step] at stepped
      split at stepped
      · rename_i waits
        cases stepped
        rcases sound with ⟨flight, fresh, summarizes⟩
        have takes := @applySampleResult_eq narrowed loop.sampler moment (.error timedOut)
        have reads := @summarizes_reads narrowed loop
          { loop with
            sampler := loop.sampler.applySampleResult narrowed moment (.error timedOut)
            phase := .publishing
            readings := loop.readings ++ [.timedOut] }
          .timedOut loop.sampler summarizes rfl rfl takes
        refine ⟨?_, fresh, reads⟩
        refine flight.movesOn ?_ rfl ?_ rfl rfl ?_ Phase.noConfusion Phase.noConfusion
        · rw [waits.1]
          exact Phase.noConfusion
        · rw [takes, inFlight_takes]
        · exact (collected_append _ _ rfl).trans (List.append_nil _)
      · cases stepped
  | publish =>
      rw [step] at stepped
      split at stepped
      · rename_i isPhase
        cases stepped
        rcases sound with ⟨flight, fresh, summarizes⟩
        refine ⟨?_, fresh, summarizes⟩
        refine flight.movesOn ?_ rfl rfl rfl rfl rfl Phase.noConfusion Phase.noConfusion
        rw [isPhase]
        exact Phase.noConfusion
      · cases stepped
  | wake =>
      rw [step] at stepped
      split at stepped
      · rename_i isPhase
        cases stepped
        apply sound_sampleOnBlockingPool sound
        rw [isPhase]
        exact Phase.noConfusion
      · cases stepped
  | shutdown =>
      rw [step] at stepped
      split at stepped
      · rename_i stops
        cases stepped
        rcases sound with ⟨flight, fresh, summarizes⟩
        refine ⟨?_, fresh, summarizes_inFlight summarizes none⟩
        refine flight.stops ?_ rfl rfl rfl rfl rfl
        intro wasStopped
        rcases stops with sleeping | ⟨collecting, -⟩
        · cases wasStopped.symm.trans sleeping
        · cases wasStopped.symm.trans collecting
      · cases stepped

theorem sound_start {intervalMs : ℕ} (created : Sampler.withInterval intervalMs = some sampler) :
    (start sampler).Sound narrowed := by
  rw [Sampler.withInterval] at created
  split at created
  · cases created
    apply sound_sampleOnBlockingPool
    · exact ⟨.idle rfl rfl rfl Phase.noConfusion, fun _ _ => rfl, ⟨rfl, rfl, rfl, rfl⟩⟩
    · exact Phase.noConfusion
  · cases created

theorem sound_of_run {intervalMs : ℕ} (created : Sampler.withInterval intervalMs = some sampler)
    (ran : Machine.run (step narrowed) (start sampler) events = some loop) :
    loop.Sound narrowed := by
  apply Machine.run_induction (fun _ loop => loop.Sound narrowed) ran (sound_start created)
  intro events loop event next _ sound stepped
  exact sound_step sound stepped

end Steps

section Shutdown

/-- The events lead to the end of the loop. -/
def StopsBy (narrowed : ℕ → ℕ → F32) (loop : SamplerLoop) (events : List LoopEvent) : Prop :=
  ∃ stopped, Machine.run (step narrowed) loop events = some stopped ∧ stopped.phase = .stopped

theorem StopsBy.after (stepped : loop.step narrowed event = some next)
    (stops : next.StopsBy narrowed events) : loop.StopsBy narrowed (event :: events) := by
  rcases stops with ⟨stopped, ran, isStopped⟩
  refine ⟨stopped, ?_, isStopped⟩
  rw [Machine.run, stepped, Option.bind_some, ran]

theorem stopsBy_shutdown
    (listens : loop.phase = .sleeping ∨ loop.phase = .collecting ∧ loop.result.isNone = true) :
    loop.StopsBy narrowed [.shutdown] := by
  apply StopsBy.after
  · rw [step, if_pos listens]
  · exact ⟨_, rfl, rfl⟩

theorem stopsBy_publish (publishing : loop.phase = .publishing) :
    loop.StopsBy narrowed [.publish, .shutdown] := by
  apply StopsBy.after
  · rw [step, if_pos publishing]
  · exact stopsBy_shutdown (.inl rfl)

theorem stopsBy_collect {joined : JoinResult} (moment : Moment)
    (collecting : loop.phase = .collecting) (isResult : loop.result = some joined) :
    loop.StopsBy narrowed [.collect moment, .publish, .shutdown] := by
  rcases Option.bind_eq_some_iff.mp isResult with ⟨cycle, handle, -⟩
  apply StopsBy.after
  · simp only [step, collecting, handle, isResult]
    rfl
  · exact stopsBy_publish rfl

/-- A shutdown needs at most to take up a cycle that has ended, never to wait for one. -/
theorem stopsBy_of_going (going : loop.phase ≠ .stopped) (moment : Moment) :
    ∃ events ∈ [[LoopEvent.shutdown], [.publish, .shutdown],
      [.collect moment, .publish, .shutdown]], loop.StopsBy narrowed events := by
  cases isPhase : loop.phase with
  | stopped => exact absurd isPhase going
  | sleeping => exact ⟨_, by simp, stopsBy_shutdown (.inl isPhase)⟩
  | publishing => exact ⟨[.publish, .shutdown], by simp, stopsBy_publish isPhase⟩
  | collecting =>
      cases isResult : loop.result with
      | none => exact ⟨_, by simp, stopsBy_shutdown (.inr ⟨isPhase, by rw [isResult]; rfl⟩)⟩
      | some joined => exact ⟨_, by simp, stopsBy_collect moment isPhase isResult⟩

end Shutdown

/-- The loop as the daemon relies on it: one thread at most, every cycle collected once and in the
order it was spawned, a state that tells what was read, and an end that waits for no read. -/
structure Samples (narrowed : ℕ → ℕ → F32) (loop : SamplerLoop) : Prop where
  oneThread : loop.running.length ≤ 1
  inOrder : ∃ count, loop.collected = List.range count ∧ count ≤ loop.spawned ∧
    loop.spawned ≤ count + 1
  summarizes : Summarizes (loop.outcomes narrowed) loop.sampler
  stops : loop.phase ≠ .stopped → ∀ moment,
    ∃ events ∈
        [[LoopEvent.shutdown], [.publish, .shutdown], [.collect moment, .publish, .shutdown]],
      loop.StopsBy narrowed events

theorem Flight.oneThread (flight : loop.Flight) : loop.running.length ≤ 1 := by
  cases flight with
  | idle handle running => simp [running]
  | running last spawned handle running => simp [running]
  | ended last spawned handle running => simp [running]
  | abandoned last spawned handle running =>
      rcases running with running | running <;> simp [running]

theorem Flight.inOrder (flight : loop.Flight) : ∃ count, loop.collected = List.range count ∧
    count ≤ loop.spawned ∧ loop.spawned ≤ count + 1 := by
  cases flight with
  | idle handle running collected => exact ⟨_, collected, Nat.le_refl _, Nat.le_succ _⟩
  | running last spawned handle running notEnded collected =>
      exact ⟨last, collected, by omega, by omega⟩
  | ended last spawned handle running ended collected =>
      exact ⟨last, collected, by omega, by omega⟩
  | abandoned last spawned handle running collected => exact ⟨last, collected, by omega, by omega⟩

theorem samples_of_run {intervalMs : ℕ} (created : Sampler.withInterval intervalMs = some sampler)
    (ran : Machine.run (step narrowed) (start sampler) events = some loop) :
    loop.Samples narrowed := by
  have sound := sound_of_run created ran
  exact ⟨sound.flight.oneThread, sound.flight.inOrder, sound.summarizes,
    fun going moment => stopsBy_of_going going moment⟩

/-- A sampler at the default interval. -/
def everySecond : Sampler where
  intervalMs := 1000
  readiness := .warming
  snapshot := none
  snapshotV2 := none
  consecutiveFailures := 0
  inFlight := none

/-- A collector that knows nothing of its machine. -/
def silentMoment : Moment where
  collector :=
    { identity := .error ⟨.identityFallback, "identity unknown"⟩
      capabilities := { cpuIowait := false }
      capabilitiesV2 :=
        { cpuIowait := false, loadAverage := false, swap := false, memoryCommit := false }
      supportsV1Snapshot := false }
  nowUnixMs := none

/-- The first read hangs for two rounds, and is then collected. -/
def hangingRead : List LoopEvent :=
  [.timeout silentMoment, .publish, .wake, .timeout silentMoment, .publish, .wake,
    .cycleEnds 0 (.returned (.error ⟨.warming, "baseline"⟩)), .collect silentMoment, .publish,
    .wake]

theorem samples_of_run_hangingRead :
    Sampler.withInterval 1000 = some everySecond ∧
      ∃ loop, Machine.run (step fun _ _ => .nan) (start everySecond) hangingRead = some loop ∧
        loop.running = [1] ∧ loop.sampler.consecutiveFailures = 2 ∧
        loop.Samples fun _ _ => .nan := by
  refine ⟨rfl, _, rfl, rfl, rfl, ?_⟩
  exact @samples_of_run (fun _ _ => .nan) everySecond _ hangingRead 1000 rfl rfl

end SamplerLoop

end Gregg.Sampling
