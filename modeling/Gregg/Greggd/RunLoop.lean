import Gregg.Greggd.TickSelection

/-!
# Publications of the run loop

`run` publishes after every tick and after every child completion. A retry instant is stamped by
the tick that defers the occurrence, and the loop does not come back to a deferred job while the
child slot is taken, nor to one that orders after the job that takes the slot. A publication after
a launch or a completion reads the wall clock again, which may have passed a retry by then.
-/

namespace Gregg

/-- An occurrence that a load decision holds back. -/
def JobState.heldBack (state : JobState) : Option PendingOccurrence :=
  if state.lastGate.isSome then state.pending else none

theorem JobState.mem_heldBack {state : JobState} {pending : PendingOccurrence} :
    pending ∈ state.heldBack ↔ state.pending = some pending ∧ state.lastGate.isSome = true := by
  rw [heldBack, Option.mem_def, Option.ite_none_right_eq_some, and_comm]

/-- The reading blocks an occurrence that has waited its full time. -/
def PendingOccurrence.Lapses (pending : PendingOccurrence) (input : TickInput)
    (config : ScheduledJobConfig) : Prop :=
  loadBlocked config input.load = true ∧
    fromMillis config.effectiveMaxWaitMs ≤ input.now - pending.since

instance (pending : PendingOccurrence) (input : TickInput) (config : ScheduledJobConfig) :
    Decidable (pending.Lapses input config) :=
  inferInstanceAs (Decidable (_ ∧ _))

/-- A tick gets to an occurrence: the slot is free, its retry instant has passed on the monotonic
clock too, and nothing that may be launched comes before it. -/
def Engine.Reaches {configs : List ScheduledJobConfig} (engine : Engine configs)
    (input : TickInput) (slotFree : Bool) (index : Fin configs.length)
    (pending : PendingOccurrence) : Prop :=
  slotFree = true ∧ pending.retryAt ≤ input.now ∧
    ∀ other, ∀ occurrence ∈ (engine.states other).duePending input,
      occurrence.retryAt ≤ input.now → loadBlocked (configs.get other) input.load = false →
        rank (pending.since, index) ≤ rank (occurrence.since, other)

instance {configs : List ScheduledJobConfig} (engine : Engine configs) (input : TickInput)
    (slotFree : Bool) (index : Fin configs.length) (pending : PendingOccurrence) :
    Decidable (engine.Reaches input slotFree index pending) :=
  inferInstanceAs (Decidable (_ ∧ _ ∧ _))

section Ticks

variable {zone : LocalZone} {input : TickInput} {config : ScheduledJobConfig}
  {state after : JobState} {pending : PendingOccurrence}

theorem maxLoad_of_loadBlocked {load : LoadGateState} (blocked : loadBlocked config load = true) :
    config.maxLoad.isSome := by
  cases configured : config.maxLoad with
  | none => simp [loadBlocked, loadGate, configured] at blocked
  | some threshold => rfl

theorem lt_satAdd {reading interval : ℕ} (positive : 0 < interval) (room : reading < u64Max) :
    reading < satAdd reading interval := by
  unfold satAdd
  omega

theorem unixMillis_lt_u64Max {wallNow : DateTime}
    (representable : wallNow / 86400000000000 ≤ MAX_DATE) : unixMillis wallNow < u64Max := by
  have later : wallNow < (MAX_DATE + 1) * 86400000000000 :=
    Int.lt_mul_of_ediv_lt (by decide) (Int.lt_add_one_of_le representable)
  have millis : timestampMillis wallNow < 95026237 * 86400000 :=
    Int.ediv_lt_of_lt_mul (by decide) later
  unfold unixMillis u64Max
  omega

/-- Collecting the due times changes no retry and no age of a waiting occurrence. -/
theorem JobState.duePending_of_pending (input : TickInput)
    (waiting : state.pending = some pending) :
    ∃ due, state.duePending input = some due ∧ due.since = pending.since ∧
      due.retryAt = pending.retryAt ∧ due.retryAtUnixMs = pending.retryAtUnixMs := by
  unfold duePending
  rw [waiting]
  split
  · exact ⟨_, rfl, rfl, rfl, rfl⟩
  · exact ⟨pending, rfl, rfl, rfl, rfl⟩

/-- What is held back after a tick was held back before with the same retry, or the tick deferred
it. -/
theorem JobState.Gated.heldBack {slotFree : Bool}
    (gated : state.Gated zone input config slotFree after) (held : pending ∈ after.heldBack) :
    (∃ before ∈ state.heldBack, before.retryAtUnixMs = pending.retryAtUnixMs) ∨
      (config.maxLoad.isSome ∧
        pending.retryAtUnixMs = satAdd input.unixNow config.effectiveRetryIntervalMs) := by
  rcases mem_heldBack.mp held with ⟨waiting, decided⟩
  cases gated with
  | waits due _ =>
      left
      cases due with
      | notDue _ => exact ⟨pending, held, rfl⟩
      | coalesced _ before _ =>
          cases waiting
          exact ⟨_, mem_heldBack.mpr ⟨before, decided⟩, rfl⟩
      | made _ _ _ => cases decided
  | expires _ _ => cases waiting
  | defers _ _ _ _ blocked =>
      right
      rcases Option.map_eq_some_iff.mp waiting with ⟨found, -, rfl⟩
      exact ⟨maxLoad_of_loadBlocked blocked, rfl⟩
  | launches _ _ _ => cases waiting

/-- An occurrence that stays as it was, and whose retry has passed, stays held back. -/
theorem JobState.Gated.stays {slotFree : Bool} {before : PendingOccurrence}
    (gated : state.Gated zone input config slotFree after) (held : before ∈ state.heldBack)
    (waiting : after.pending = some pending)
    (notDeferred : config.maxLoad.isSome →
      pending.retryAtUnixMs ≠ satAdd input.unixNow config.effectiveRetryIntervalMs) :
    pending ∈ after.heldBack := by
  rcases mem_heldBack.mp held with ⟨isPending, decided⟩
  apply mem_heldBack.mpr
  refine ⟨waiting, ?_⟩
  cases gated with
  | waits due _ =>
      rw [(due.isExpired_iff config (by rw [isPending]; rfl)).2.2]
      exact decided
  | expires _ _ => cases waiting
  | defers _ _ _ _ blocked =>
      rcases Option.map_eq_some_iff.mp waiting with ⟨found, -, rfl⟩
      exact absurd rfl (notDeferred (maxLoad_of_loadBlocked blocked))
  | launches _ _ _ => cases waiting

end Ticks

namespace Engine

variable {configs : List ScheduledJobConfig} {engine ticked : Engine configs} {zone : LocalZone}
  {input : TickInput} {slotFree : Bool} {launch : Option (Launch configs.length)}
  {index : Fin configs.length} {pending due : PendingOccurrence}

/-- An occurrence that a tick gets to is launched, deferred or expired by it. -/
theorem Chooses.of_reaches (chooses : engine.Chooses input slotFree launch ticked)
    (waiting : (engine.states index).duePending input = some due)
    (young : ¬due.Lapses input (configs.get index))
    (reaches : engine.Reaches input slotFree index due) :
    (ticked.states index).pending = none ∨
      loadBlocked (configs.get index) input.load = true ∧
        (ticked.states index).pending = some (deferredPending input (configs.get index) due) := by
  rcases reaches with ⟨slot, retried, first⟩
  cases blocked : loadBlocked (configs.get index) input.load with
  | false =>
      left
      have eligible : engine.Eligible input index due := ⟨waiting, retried, blocked⟩
      rcases Option.isSome_iff_exists.mp (chooses.launches.mpr ⟨slot, index, due, eligible⟩) with
        ⟨chosen, isChosen⟩
      rcases chooses.launched chosen isChosen with ⟨winner, wins, -, emptied, least⟩
      have same : rank (winner.since, chosen.index) = rank (due.since, index) :=
        le_antisymm (least index due eligible)
          (first chosen.index winner wins.waiting wins.retried wins.admitted)
      rw [← (Prod.mk.inj (toLex.injective same)).2]
      exact emptied
  | true =>
      refine .inr ⟨rfl, chooses.deferred index due ?_⟩
      refine ⟨slot, waiting, retried, blocked, Nat.lt_of_not_le fun waited =>
        young ⟨blocked, waited⟩, ?_⟩
      intro chosen isChosen winner isWinner
      rcases chooses.launched chosen isChosen with ⟨other, wins, -, -, -⟩
      cases wins.waiting.symm.trans isWinner
      apply lt_of_le_of_ne (first chosen.index winner isWinner wins.retried wins.admitted)
      intro same
      rw [(Prod.mk.inj (toLex.injective same)).2, wins.admitted] at blocked
      cases blocked

/-- An occurrence that a tick neither gets to nor lets expire stays as it was. -/
theorem Chooses.of_not_reaches (chooses : engine.Chooses input slotFree launch ticked)
    (waiting : (engine.states index).duePending input = some due)
    (young : ¬due.Lapses input (configs.get index))
    (missed : ¬engine.Reaches input slotFree index due) :
    (ticked.states index).pending = some due := by
  rw [← waiting]
  apply chooses.kept
  · rintro chosen isChosen rfl
    rcases chooses.launched chosen isChosen with ⟨winner, wins, -, -, least⟩
    cases wins.waiting.symm.trans waiting
    refine missed ⟨(chooses.launches.mp (by rw [isChosen]; rfl)).1, wins.retried, ?_⟩
    intro other occurrence isDue retried admitted
    exact least other occurrence ⟨isDue, retried, admitted⟩
  · intro other expires
    cases expires.waiting.symm.trans waiting
    exact young ⟨expires.blocked, expires.waited⟩
  · intro other defers
    cases defers.waiting.symm.trans waiting
    refine missed ⟨defers.slotFree, defers.retried, ?_⟩
    intro job occurrence isDue retried admitted
    have eligible : engine.Eligible input job occurrence := ⟨isDue, retried, admitted⟩
    rcases Option.isSome_iff_exists.mp
      (chooses.launches.mpr ⟨defers.slotFree, job, occurrence, eligible⟩) with ⟨chosen, isChosen⟩
    rcases chooses.launched chosen isChosen with ⟨winner, wins, -, -, least⟩
    exact (defers.older chosen isChosen winner wins.waiting).le.trans
      (least job occurrence eligible)

/-- Collecting the due times makes no difference to whether a held-back occurrence lapses or is
reached. -/
theorem due_of_heldBack (input : TickInput) (slotFree : Bool)
    (held : pending ∈ (engine.states index).heldBack) :
    ∃ due, (engine.states index).duePending input = some due ∧
      due.retryAtUnixMs = pending.retryAtUnixMs ∧
      (due.Lapses input (configs.get index) ∨ engine.Reaches input slotFree index due ↔
        pending.Lapses input (configs.get index) ∨
          engine.Reaches input slotFree index pending) := by
  rcases JobState.duePending_of_pending input (JobState.mem_heldBack.mp held).1 with
    ⟨due, isDue, since, retryAt, retry⟩
  refine ⟨due, isDue, retry, ?_⟩
  rw [PendingOccurrence.Lapses, PendingOccurrence.Lapses, Reaches, Reaches, since, retryAt]

end Engine

section Retries

variable {configs : List ScheduledJobConfig} {scheduler : Scheduler configs} {zone : LocalZone}
  {input : TickInput} {expiredUnixMs : Fin configs.length → ℕ}
  {launch : Option (Launch configs.length)} {ticked : Engine configs}
  {index : Fin configs.length} {pending : PendingOccurrence}

variable
  (positive : ∀ index : Fin configs.length, (configs.get index).maxLoad.isSome →
    0 < (configs.get index).effectiveRetryIntervalMs)
  (room : input.unixNow < u64Max)
  (completed : scheduler.engine.tick zone input expiredUnixMs scheduler.active.isNone =
    .ok (launch, ticked))
include positive room completed

/-- What the tick neither gets to nor lets expire keeps its retry, which is then ahead. -/
theorem Scheduler.attended_of_ahead
    (ahead : ∀ index, ∀ pending ∈ (ticked.states index).heldBack,
      input.unixNow < pending.retryAtUnixMs)
    (held : pending ∈ (scheduler.engine.states index).heldBack)
    (passed : pending.retryAtUnixMs ≤ input.unixNow) :
    pending.Lapses input (configs.get index) ∨
      scheduler.engine.Reaches input scheduler.active.isNone index pending := by
  rcases Engine.due_of_heldBack input scheduler.active.isNone held with
    ⟨due, isDue, retry, attends⟩
  rw [← attends]
  by_contra missed
  rw [not_or] at missed
  have stillHeld : due ∈ (ticked.states index).heldBack := by
    apply (gated_of_tick completed index).stays held
      ((Engine.chooses_of_ok completed).of_not_reaches isDue missed.1 missed.2)
    intro isGated
    have later := lt_satAdd (positive index isGated) room
    omega
  have dueAhead := ahead index due stillHeld
  omega

/-- What is held back after the tick was deferred by it, or was ahead already. -/
theorem Scheduler.ahead_of_attended
    (attended : ∀ index, ∀ pending ∈ (scheduler.engine.states index).heldBack,
      pending.retryAtUnixMs ≤ input.unixNow →
        pending.Lapses input (configs.get index) ∨
          scheduler.engine.Reaches input scheduler.active.isNone index pending)
    (held : pending ∈ (ticked.states index).heldBack) :
    input.unixNow < pending.retryAtUnixMs := by
  have chooses := Engine.chooses_of_ok completed
  rcases (gated_of_tick completed index).heldBack held with
    ⟨before, wasHeld, sameRetry⟩ | ⟨isGated, retry⟩
  · by_contra notAhead
    have waiting := (JobState.mem_heldBack.mp held).1
    rcases Engine.due_of_heldBack input scheduler.active.isNone wasHeld with
      ⟨due, isDue, -, attends⟩
    have lapsesOrReaches := attends.mpr (attended index before wasHeld (by omega))
    rcases Classical.em (due.Lapses input (configs.get index)) with lapses | young
    · rw [chooses.expired index due ⟨isDue, lapses.1, lapses.2⟩] at waiting
      cases waiting
    · rcases chooses.of_reaches isDue young (lapsesOrReaches.resolve_left young) with
        emptied | ⟨blocked, deferred⟩
      · rw [emptied] at waiting
        cases waiting
      · rw [deferred] at waiting
        cases waiting
        have later := lt_satAdd (positive index (maxLoad_of_loadBlocked blocked)) room
        exact notAhead later
  · rw [retry]
    exact lt_satAdd (positive index isGated) room

/-- After a tick every retry is ahead of its wall clock exactly when it got to the occurrences whose
retry that clock had reached, or let them expire. -/
theorem Scheduler.retries_ahead_iff :
    (∀ index, ∀ pending ∈ (ticked.states index).heldBack,
      input.unixNow < pending.retryAtUnixMs) ↔
    ∀ index, ∀ pending ∈ (scheduler.engine.states index).heldBack,
      pending.retryAtUnixMs ≤ input.unixNow →
        pending.Lapses input (configs.get index) ∨
          scheduler.engine.Reaches input scheduler.active.isNone index pending :=
  ⟨fun ahead _ _ => attended_of_ahead positive room completed ahead,
    fun attended _ _ => ahead_of_attended positive room completed attended⟩

end Retries

/-- Where `run` is in its loop. A publication takes the reading of the tick before it, or a new
one; a wait ends with the next tick or with the child. -/
inductive ControlPoint where
  | ticking
  | publishing (reading : Option DateTime) (waits : Bool)
  | waiting
  deriving DecidableEq

/-- The state of `run`. -/
structure RunLoop (configs : List ScheduledJobConfig) where
  scheduler : Scheduler configs
  point : ControlPoint
  /-- The wall clock as a tick or a publication read it last, which the code does not keep. -/
  readUnixMs : ℕ

namespace RunLoop

variable {configs : List ScheduledJobConfig} {zone : LocalZone}
  {initial loop next : RunLoop configs} {event : SchedulerEvent configs.length}
  {events : List (SchedulerEvent configs.length)}

def start (zone : LocalZone) (configs : List ScheduledJobConfig) (input : Scheduler.StartInput) :
    Except EngineError (RunLoop configs) :=
  match Scheduler.start zone configs input with
  | .error error => .error error
  | .ok scheduler =>
      .ok { scheduler, point := .ticking, readUnixMs := unixMillis input.publishWall }

/-- What follows a tick: a launch is published with a new reading, and the next tick follows at
once; without one the tick's own reading is published, and the loop waits. -/
def afterTick (zone : LocalZone) (loop : RunLoop configs) (input : TickInput)
    (expiredUnixMs : Fin configs.length → ℕ) : Option ControlPoint :=
  match loop.scheduler.engine.tick zone input expiredUnixMs loop.scheduler.active.isNone with
  | .error _ => none
  | .ok (some _, _) => some (.publishing none false)
  | .ok (none, _) => some (.publishing (some input.wallNow) true)

/-- The point an event leads to, if it can happen at the point the loop is at. -/
def nextPoint (zone : LocalZone) (loop : RunLoop configs) :
    SchedulerEvent configs.length → Option ControlPoint
  | .tick input expiredUnixMs _ _ =>
      match loop.point with
      | .ticking => loop.afterTick zone input expiredUnixMs
      | .waiting => loop.afterTick zone input expiredUnixMs
      | .publishing _ _ => none
  | .complete _ _ _ =>
      match loop.point with
      | .waiting => some (.publishing none false)
      | _ => none
  | .publish wallNow _ =>
      match loop.point with
      | .publishing reading waits =>
          if reading.all (· = wallNow) then some (if waits then .waiting else .ticking) else none
      | _ => none

/-- The wall clock after an event. -/
def nextReading (loop : RunLoop configs) : SchedulerEvent configs.length → ℕ
  | .tick input _ _ _ => input.unixNow
  | .publish wallNow _ => unixMillis wallNow
  | .complete _ _ _ => loop.readUnixMs

/-- One event of the loop. -/
def step (zone : LocalZone) (loop : RunLoop configs) (event : SchedulerEvent configs.length) :
    Option (RunLoop configs) :=
  (loop.nextPoint zone event).bind fun point =>
    (loop.scheduler.step zone event).map fun scheduler =>
      { scheduler, point, readUnixMs := loop.nextReading event }

/-- Every run of the loop is a run of its scheduler. -/
theorem scheduler_of_step (stepped : loop.step zone event = some next) :
    loop.scheduler.step zone event = some next.scheduler ∧
      next.readUnixMs = loop.nextReading event := by
  rcases Option.bind_eq_some_iff.mp stepped with ⟨point, -, stepped⟩
  rcases Option.map_eq_some_iff.mp stepped with ⟨scheduler, schedulerStepped, rfl⟩
  exact ⟨schedulerStepped, rfl⟩

theorem reachable_of_run {input : Scheduler.StartInput}
    (started : start zone configs input = .ok initial)
    (ran : Machine.run (step zone) initial events = some loop) :
    loop.scheduler.Reachable zone := by
  apply Machine.run_induction (fun _ loop => loop.scheduler.Reachable zone) ran
  · unfold start at started
    split at started
    · cases started
    · rename_i scheduler schedulerStarted
      cases started
      exact ⟨input, scheduler, schedulerStarted, .refl⟩
  · rintro _ state event next - ⟨input, first, firstStarted, runs⟩ stepped
    exact ⟨input, first, firstStarted, runs.snoc event trivial (scheduler_of_step stepped).1⟩

/-- Every retry instant of a published summary lies after the document's own time stamp. -/
def RetriesAhead (publication : SchedulerPublication) : Prop :=
  ∀ row ∈ publication.summary.jobs, ∀ retryUnixMs ∈ row.nextRetryUnixMs,
    publication.summary.generatedAtUnixMs < retryUnixMs

/-- Whether nothing a client can see has changed since the last publication. -/
def unchanged (scheduler : Scheduler configs) : Bool :=
  let observer := scheduler.engine.observer
  observer.lastPublished.any fun previous => previous ==
    { epoch := observer.epoch
      historyRevision := observer.historyRevision
      jobs := List.ofFn (scheduler.engine.publishedJob scheduler.running) }

/-- A tick looks again at every held-back occurrence whose retry the wall clock has reached, or lets
it expire; and a publication does not find a retry that the wall clock has reached since it was read
last. -/
def Attends (loop : RunLoop configs) : SchedulerEvent configs.length → Prop
  | .tick input _ _ _ => ∀ index, ∀ pending ∈ (loop.scheduler.engine.states index).heldBack,
      pending.retryAtUnixMs ≤ input.unixNow →
        pending.Lapses input (configs.get index) ∨
          loop.scheduler.engine.Reaches input loop.scheduler.active.isNone index pending
  | .publish wallNow _ => ∀ index,
      ∀ pending ∈ (loop.scheduler.engine.states index).heldBack,
        ¬(loop.readUnixMs < pending.retryAtUnixMs ∧ pending.retryAtUnixMs ≤ unixMillis wallNow)
  | .complete _ _ _ => True

instance (loop : RunLoop configs) :
    (event : SchedulerEvent configs.length) → Decidable (loop.Attends event)
  | .tick input _ _ _ => inferInstanceAs (Decidable (∀ index,
      ∀ pending ∈ (loop.scheduler.engine.states index).heldBack,
        pending.retryAtUnixMs ≤ input.unixNow →
          pending.Lapses input (configs.get index) ∨
            loop.scheduler.engine.Reaches input loop.scheduler.active.isNone index pending))
  | .publish wallNow _ => inferInstanceAs (Decidable (∀ index,
      ∀ pending ∈ (loop.scheduler.engine.states index).heldBack,
        ¬(loop.readUnixMs < pending.retryAtUnixMs ∧ pending.retryAtUnixMs ≤ unixMillis wallNow)))
  | .complete _ _ _ => .isTrue trivial

/-- A tick whose wall clock the calendar can represent. -/
def InCalendar : SchedulerEvent configs.length → Prop
  | .tick input _ _ _ => input.wallNow / 86400000000000 ≤ MAX_DATE
  | _ => True

/-- The retry of every held-back occurrence lies after the last reading of the wall clock. -/
def HeldAhead (loop : RunLoop configs) : Prop :=
  ∀ index, ∀ pending ∈ (loop.scheduler.engine.states index).heldBack,
    loop.readUnixMs < pending.retryAtUnixMs

theorem handed_publish (scheduler : Scheduler configs) (wallNow : DateTime) (serializes : Bool) :
    (scheduler.publish wallNow serializes).handed = scheduler.handed ++
      if unchanged scheduler then []
      else [.of (unixMillis wallNow) scheduler.engine.observer.epoch
        scheduler.engine.observer.historyRevision
        (List.ofFn (scheduler.engine.publishedJob scheduler.running))
        (List.ofFn scheduler.engine.observer.wireHistory)] := by
  cases same : unchanged scheduler with
  | true =>
      simp only [unchanged] at same
      simp [Scheduler.publish, Engine.publish, SchedulerObserver.publish, same]
  | false =>
      simp only [unchanged] at same
      simp [Scheduler.publish, Engine.publish, SchedulerObserver.publish, same]

/-- A row shows a retry only of a held-back occurrence. -/
theorem heldBack_of_retry {engine : Engine configs} {running : Option (Fin configs.length × ℕ)}
    {index : Fin configs.length} {retryUnixMs : ℕ}
    (shown : (engine.publishedJob running index).nextRetryUnixMs = some retryUnixMs) :
    ∃ pending ∈ (engine.states index).heldBack, pending.retryAtUnixMs = retryUnixMs := by
  simp only [Engine.publishedJob, Option.ite_none_right_eq_some, Option.map_eq_some_iff,
    Bool.and_eq_true] at shown
  rcases shown with ⟨⟨⟨decided, -⟩, -⟩, pending, waiting, retry⟩
  exact ⟨pending, JobState.mem_heldBack.mpr ⟨waiting, decided⟩, retry⟩

/-- What is handed over while every retry is ahead carries only retries that are ahead. -/
theorem retriesAhead_of_publish {scheduler : Scheduler configs} {wallNow : DateTime}
    {serializes : Bool}
    (sofar : ∀ publication ∈ scheduler.handed, RetriesAhead publication)
    (ahead : ∀ index, ∀ pending ∈ (scheduler.engine.states index).heldBack,
      unixMillis wallNow < pending.retryAtUnixMs) :
    ∀ publication ∈ (scheduler.publish wallNow serializes).handed,
      RetriesAhead publication := by
  rw [handed_publish]
  intro publication publicationMem
  rcases List.mem_append.mp publicationMem with earlier | isNew
  · exact sofar publication earlier
  · simp only [List.mem_ite_nil_left, List.mem_singleton] at isNew
    rw [isNew.2]
    intro row rowMem retryUnixMs shown
    rcases (List.mem_ofFn' _ _).mp rowMem with ⟨index, rfl⟩
    rcases heldBack_of_retry shown with ⟨pending, held, rfl⟩
    exact ahead index pending held

section Steps

variable {config : Config} {platform : JobPlatform} {initial loop next : RunLoop config.jobs}
  {event : SchedulerEvent config.jobs.length} {events : List (SchedulerEvent config.jobs.length)}

/-- One event leaves every retry ahead of the wall clock exactly when it attends to those that the
clock has reached. -/
theorem heldAhead_step_iff (accepted : config.validateFor platform = [])
    (representable : InCalendar event) (held : loop.HeldAhead)
    (stepped : loop.step zone event = some next) : next.HeldAhead ↔ loop.Attends event := by
  rcases scheduler_of_step stepped with ⟨schedulerStepped, reading⟩
  unfold HeldAhead
  rw [reading]
  cases event with
  | tick input expired spawn failed =>
      simp only [Scheduler.step] at schedulerStepped
      split at schedulerStepped
      · cases schedulerStepped
      · rename_i launch ticked completed
        simp only [Option.some.injEq] at schedulerStepped
        rw [← schedulerStepped, Scheduler.afterTick_states]
        exact Scheduler.retries_ahead_iff
          (fun index => ((Config.accepted_of_validateFor accepted).jobs _
            (List.get_mem _ index)).retryPositive)
          (unixMillis_lt_u64Max representable) completed
  | complete exit stdout stderr =>
      rcases Scheduler.states_of_step schedulerStepped with ⟨-, same⟩ | ⟨_, _, _, _, impossible, -⟩
      · rw [same]
        exact iff_of_true held trivial
      · cases impossible
  | publish wallNow serializes =>
      rcases Scheduler.states_of_step schedulerStepped with ⟨-, same⟩ | ⟨_, _, _, _, impossible, -⟩
      · rw [same]
        refine forall_congr' fun index => forall₂_congr fun pending isHeld => ?_
        simp only [nextReading, held index pending isHeld, true_and, not_le]
      · cases impossible

/-- Nothing waits when the loop starts. -/
theorem noneHeld_start {configs : List ScheduledJobConfig} {initial : RunLoop configs}
    {input : Scheduler.StartInput} (started : start zone configs input = .ok initial) :
    initial.HeldAhead ∧ ∀ publication ∈ initial.scheduler.handed, RetriesAhead publication := by
  unfold start at started
  split at started
  · cases started
  · rename_i scheduler schedulerStarted
    cases started
    rcases Scheduler.start_eq_ok schedulerStarted with ⟨-, -, engine, -, states, rfl⟩
    have noneHeld : ∀ index, (engine.states index).heldBack = none := by
      intro index
      simp [JobState.heldBack, (Scheduler.initialState_eq_ok (states index)).1]
    have first : ∀ publication ∈
        (Scheduler.publish { engine, active := none, handed := [] } input.publishWall
          input.serializes).handed, RetriesAhead publication :=
      retriesAhead_of_publish (by simp) (by simp [noneHeld])
    refine ⟨?_, first⟩
    intro index pending held
    change pending ∈ (engine.states index).heldBack at held
    simp [noneHeld] at held

/-- As long as the retries stay ahead of the wall clock, they are ahead in every summary. -/
theorem retriesAhead_of_heldAhead {configs : List ScheduledJobConfig}
    {initial loop : RunLoop configs} {events : List (SchedulerEvent configs.length)}
    (initially : ∀ publication ∈ initial.scheduler.handed, RetriesAhead publication)
    (ran : Machine.run (step zone) initial events = some loop)
    (held : Machine.EveryState (step zone) initial events HeldAhead) :
    ∀ publication ∈ loop.scheduler.handed, RetriesAhead publication := by
  have sofar := Machine.run_induction (fun before (loop : RunLoop configs) =>
    Machine.EveryState (step zone) initial before HeldAhead →
      ∀ publication ∈ loop.scheduler.handed, RetriesAhead publication) ran
    (fun _ => initially) ?_
  · exact sofar held
  · intro before state event next ranBefore ih stepped heldAll
    have heldBefore : Machine.EveryState (step zone) initial before HeldAhead := by
      intro earlier after found split ranFound
      apply heldAll earlier (after ++ [event]) found _ ranFound
      rw [split, List.append_assoc]
    have heldNext : next.HeldAhead := by
      apply heldAll (before ++ [event]) [] next (by simp)
      rw [Machine.run_append_singleton ranBefore, stepped]
    rcases scheduler_of_step stepped with ⟨schedulerStepped, reading⟩
    rcases Scheduler.handed_of_step schedulerStepped with same | ⟨wallNow, serializes, rfl, isNext⟩
    · rw [same]
      exact ih heldBefore
    · rw [isNext]
      apply retriesAhead_of_publish (ih heldBefore)
      intro index pending isHeld
      have ahead := heldNext index pending
      rw [reading, isNext] at ahead
      exact ahead isHeld

/-- Over every run of the loop, from any accepted configuration and for any clock readings: where
every tick and every publication attends to the retries that the wall clock has reached, the retry
instants in all published summaries lie after their documents' time stamps. A step that does not
leaves a held-back occurrence whose retry has passed. -/
theorem retriesAhead_of_attends {input : Scheduler.StartInput}
    (accepted : config.validateFor platform = [])
    (representable : ∀ event ∈ events, InCalendar event)
    (started : start zone config.jobs input = .ok initial)
    (ran : Machine.run (step zone) initial events = some loop) :
    (Machine.EveryStep (step zone) initial events Attends →
      ∀ publication ∈ loop.scheduler.handed, RetriesAhead publication) ∧
    (Machine.EveryStep (step zone) initial events Attends ↔
      Machine.EveryState (step zone) initial events HeldAhead) := by
  rcases noneHeld_start started with ⟨held, first⟩
  have exact : Machine.EveryStep (step zone) initial events Attends ↔
      Machine.EveryState (step zone) initial events HeldAhead := by
    refine (Machine.everyState_iff_everyStep_of_run ran held ?_).symm
    intro before state event next isEvent _ heldBefore stepped
    exact heldAhead_step_iff accepted (representable event isEvent) heldBefore stepped
  exact ⟨fun attended => retriesAhead_of_heldAhead first ran (exact.mp attended), exact⟩

end Steps

/-- The wall clock readings of an event, in milliseconds and in the order they are taken. -/
def readings {jobCount : ℕ} : SchedulerEvent jobCount → List ℕ
  | .tick input expiredUnixMs spawn spawnFailedUnixMs =>
      input.unixNow :: (List.ofFn expiredUnixMs ++
        match spawn with
        | .spawned _ startedUnixMs => [startedUnixMs]
        | .failed _ => [spawnFailedUnixMs])
  | .complete exit _ _ => [exit.finishedUnixMs]
  | .publish wallNow _ => [unixMillis wallNow]

/-- A run whose wall clock never goes back. -/
def ClockAdvances (input : Scheduler.StartInput)
    (events : List (SchedulerEvent configs.length)) : Prop :=
  (unixMillis input.wallNow :: input.startedAtUnixMs :: unixMillis input.publishWall ::
    events.flatMap readings).Pairwise (· ≤ ·)

/-- A job that waits for a load of at most one, beside one that only waits for its time. -/
def backupAndSync : Config :=
  { Scheduler.minutelyConfig "sync" with
    jobs := [ScheduledJobConfig.hourlyWhenIdle "backup", ScheduledJobConfig.minutely "sync"] }

/-- At three o'clock the load defers the backup by five minutes and the sync takes the slot. -/
def busyLaunch : List (SchedulerEvent backupAndSync.jobs.length) :=
  [.tick (Scheduler.busyWake 0) (fun _ => 10800000) (.spawned 0 10800000) 10800000,
    .publish 10800000000000 true]

/-- The sync runs for ten minutes. -/
def longSync : List (SchedulerEvent backupAndSync.jobs.length) :=
  [.tick (Scheduler.busyWake 1000000) (fun _ => 10800001) (.failed "not reached") 10800001,
    .publish 10800001000000 true,
    .complete ⟨.ok ⟨some 0, none⟩, 600000000000, 11400000⟩ .new .new,
    .publish 11400000000000 true]

/-- The sync runs for half a minute. When the retry has come the loop looks at the backup again,
before it launches the next sync. -/
def backupRetry : List (SchedulerEvent backupAndSync.jobs.length) :=
  busyLaunch ++
    [.tick (Scheduler.busyWake 1000000) (fun _ => 10800001) (.failed "not reached") 10800001,
      .publish 10800001000000 true,
      .complete ⟨.ok ⟨some 0, none⟩, 30000000000, 10830000⟩ .new .new,
      .publish 10830000000000 true,
      .tick (Scheduler.busyWake 30001000000) (fun _ => 10830001) (.failed "not reached") 10830001,
      .publish 10830001000000 true,
      .tick (Scheduler.busyWake 300000000000) (fun _ => 11100000)
        (.spawned 300000000000 11100000) 11100000,
      .publish 11100001000000 true]

/-- The retries that the summaries announce are those of the first deferral, then of the second. -/
theorem retriesAhead_backupRetry :
    ∃ initial loop, start .utc backupAndSync.jobs Scheduler.epochStart = .ok initial ∧
      Machine.run (step .utc) initial backupRetry = some loop ∧
      (loop.scheduler.handed.map fun publication =>
        (publication.summary.generatedAtUnixMs,
          publication.summary.jobs.filterMap (·.nextRetryUnixMs))) =
        [(0, []), (10800000, [11100000]), (10830000, [11100000]), (11100001, [11400000])] ∧
      ∀ publication ∈ loop.scheduler.handed, RetriesAhead publication := by
  have ran : ((start .utc backupAndSync.jobs Scheduler.epochStart).toOption.bind fun initial =>
      (Machine.run (step .utc) initial backupRetry).map fun loop =>
        (decide (Machine.EveryStep (step .utc) initial backupRetry Attends),
          loop.scheduler.handed.map fun publication =>
            (publication.summary.generatedAtUnixMs,
              publication.summary.jobs.filterMap (·.nextRetryUnixMs)))) =
      some (true, [(0, []), (10800000, [11100000]), (10830000, [11100000]),
        (11100001, [11400000])]) := by
    decide +kernel
  rcases Option.bind_eq_some_iff.mp ran with ⟨initial, started, ran⟩
  rcases Option.map_eq_some_iff.mp ran with ⟨loop, ran, shown⟩
  simp only [Prod.mk.injEq, decide_eq_true_eq] at shown
  have started := Scheduler.eq_ok_of_toOption started
  have accepted : backupAndSync.validateFor .unix = [] := by decide
  have representable : ∀ event ∈ backupRetry, InCalendar event := by
    simp [backupRetry, busyLaunch, InCalendar, Scheduler.busyWake, MAX_DATE]
  exact ⟨initial, loop, started, ran, shown.2,
    (retriesAhead_of_attends accepted representable started ran).1 shown.1⟩

/-- When the sync completes, five minutes after the retry, the summary still announces it. -/
theorem not_retriesAhead_longSync :
    backupAndSync.validateFor .unix = [] ∧
      ClockAdvances Scheduler.epochStart (busyLaunch ++ longSync) ∧
      ∃ initial loop, start .utc backupAndSync.jobs Scheduler.epochStart = .ok initial ∧
        Machine.run (step .utc) initial (busyLaunch ++ longSync) = some loop ∧
        ∃ publication ∈ loop.scheduler.handed, ¬RetriesAhead publication := by
  have ran : ((start .utc backupAndSync.jobs Scheduler.epochStart).toOption.bind fun initial =>
      (Machine.run (step .utc) initial (busyLaunch ++ longSync)).map fun loop =>
        loop.scheduler.handed.any fun publication => publication.summary.jobs.any fun row =>
          row.nextRetryUnixMs.any (· ≤ publication.summary.generatedAtUnixMs)) = some true := by
    decide +kernel
  rcases Option.bind_eq_some_iff.mp ran with ⟨initial, started, ran⟩
  rcases Option.map_eq_some_iff.mp ran with ⟨loop, ran, published⟩
  have accepted : backupAndSync.validateFor .unix = [] := by decide
  have advances : ClockAdvances Scheduler.epochStart (busyLaunch ++ longSync) := by
    unfold ClockAdvances
    decide
  refine ⟨accepted, advances, initial, loop, Scheduler.eq_ok_of_toOption started, ran, ?_⟩
  simp only [List.any_eq_true, Option.any_eq_true, decide_eq_true_eq] at published
  rcases published with ⟨publication, publicationMem, row, rowMem, retryUnixMs, retry, passed⟩
  refine ⟨publication, publicationMem, fun ahead => ?_⟩
  exact Nat.not_lt_of_le passed (ahead row rowMem retryUnixMs retry)

end RunLoop

end Gregg
