import Gregg.Greggd.Conservation

/-!
# Wake-ups between the decision and the deadline

The loop decides with one reading of the monotonic clock and computes its wake deadline with a
later one. Due times always lie after both readings, so a retry or expiry instant is observed in
time exactly when it does not fall between them.
-/

namespace Gregg

namespace Engine

variable {configs : List ScheduledJobConfig} {engine ticked : Engine configs}

section Deadline

theorem foldl_earliest_some (candidates : List Instant) (current : Instant) :
    ∃ deadline, candidates.foldl earliest (some current) = some deadline ∧
      deadline ∈ current :: candidates ∧ ∀ candidate ∈ current :: candidates,
        deadline ≤ candidate := by
  induction candidates generalizing current with
  | nil => exact ⟨current, rfl, by simp, by simp⟩
  | cons candidate rest ih =>
      rcases ih (min current candidate) with ⟨deadline, folded, member, least⟩
      refine ⟨deadline, by simpa [earliest] using folded, ?_, ?_⟩
      · rcases List.mem_cons.mp member with rfl | inRest
        · rcases Nat.le_total current candidate with currentFirst | candidateFirst
          · simp [currentFirst]
          · simp [candidateFirst]
        · simp [inRest]
      · have leMin := least (min current candidate) (by simp)
        intro other otherMem
        simp only [List.mem_cons] at otherMem
        rcases otherMem with rfl | rfl | inRest
        · exact Nat.le_trans leMin (Nat.min_le_left _ _)
        · exact Nat.le_trans leMin (Nat.min_le_right _ _)
        · exact least other (by simp [inRest])

/-- With at least one job there is a deadline, and it is the least candidate. -/
theorem nextDeadline_eq_some (engine : Engine configs) (someJobs : configs ≠ [])
    (wallNow : DateTime) (now : Instant) (slotAvailable : Bool) :
    ∃ deadline, engine.nextDeadline wallNow now slotAvailable = some deadline ∧
      (∃ index, deadline ∈ engine.deadlineCandidates wallNow now slotAvailable index) ∧
      ∀ index, ∀ candidate ∈ engine.deadlineCandidates wallNow now slotAvailable index,
        deadline ≤ candidate := by
  have first : (⟨0, List.length_pos_of_ne_nil someJobs⟩ : Fin configs.length) ∈
      List.finRange configs.length := List.mem_finRange _
  cases listed : (List.finRange configs.length).flatMap
      (engine.deadlineCandidates wallNow now slotAvailable) with
  | nil =>
      have empty := List.flatMap_eq_nil_iff.mp listed _ first
      simp [deadlineCandidates] at empty
  | cons candidate rest =>
      rcases foldl_earliest_some rest candidate with ⟨deadline, folded, member, least⟩
      rw [← listed] at member least
      refine ⟨deadline, ?_, ?_, fun index candidate member => ?_⟩
      · rw [nextDeadline, listed]
        simpa [earliest] using folded
      · rcases List.mem_flatMap.mp member with ⟨index, -, member⟩
        exact ⟨index, member⟩
      · exact least candidate (List.mem_flatMap.mpr ⟨index, List.mem_finRange index, member⟩)

end Deadline

section DueTimes

variable {zone : LocalZone} {input : TickInput} {expiredUnixMs : Fin configs.length → ℕ}

@[simp]
theorem takeExpired_nextDue (index other : Fin configs.length) :
    ((takeExpired input expiredUnixMs engine index).states other).nextDue =
      (engine.states other).nextDue := by
  simp only [takeExpired]
  split
  · rfl
  · split
    · by_cases here : other = index
      · subst here
        simp [setState]
      · simp [setState, here]
    · rfl

@[simp]
theorem deferBlockedBefore_nextDue {winner : Option (Key configs)} (index : Fin configs.length) :
    ((engine.deferBlockedBefore winner input).states index).nextDue =
      (engine.states index).nextDue := by
  simp only [deferBlockedBefore]
  split <;> rfl

theorem collectDue_nextDue (completed : engine.collectDue zone input expiredUnixMs = .ok ticked)
    (index : Fin configs.length) : input.wallNow < (ticked.states index).nextDue := by
  unfold collectDue at completed
  split at completed
  · cases completed
  · rename_i states statesOk
    cases completed
    have unchanged := Loop.foldl_finRange_frame
      (fun current : Engine configs => (current.states index).nextDue)
      (takeExpired input expiredUnixMs) (fun _ other => takeExpired_nextDue other index)
      { engine with states }
    have due := JobState.marked_of_markDue (Loop.eq_ok_of_collect statesOk index)
    exact lt_of_lt_of_eq due.wallNow_lt unchanged.symm

/-- A tick that launches nothing leaves every due time after its wall clock. -/
theorem tick_none_nextDue {slotAvailable : Bool}
    (completed : engine.tick zone input expiredUnixMs slotAvailable = .ok (none, ticked))
    (index : Fin configs.length) : input.wallNow < (ticked.states index).nextDue := by
  unfold tick at completed
  split at completed
  · cases completed
  · rename_i collected collectedOk
    have due := collectDue_nextDue collectedOk index
    simp only [Except.ok.injEq] at completed
    split at completed
    · simp only [takeSlot] at completed
      split at completed
      · cases completed
        simpa using due
      · simp only [launch] at completed
        split at completed
        · cases completed
          simpa using due
        · cases completed
    · cases completed
      exact due

end DueTimes

section Between

/-- The instant a load-gated occurrence will have waited its full `max_wait`. -/
def expiryOf (config : ScheduledJobConfig) (pending : PendingOccurrence) : Instant :=
  pending.since + fromMillis config.effectiveMaxWaitMs

/-- The instants a tick at `decided` left for later: the retries and the load-wait expiries it did
not treat as elapsed. -/
def LeftForLater (engine : Engine configs) (decided instant : Instant) : Prop :=
  decided < instant ∧ ∃ index, ∃ pending ∈ (engine.states index).pending,
    instant = pending.retryAt ∨
      (configs.get index).maxLoad.isSome ∧ instant = expiryOf (configs.get index) pending

/-- The loop wakes for every instant left for later: by then, or at once if it has passed. -/
def WakesInTime (engine : Engine configs) (decided later wake : Instant) : Prop :=
  ∀ instant, engine.LeftForLater decided instant → wake ≤ max later instant

theorem lt_of_mem_deadlineCandidates {wallNow : DateTime} {now candidate : Instant}
    {slotAvailable : Bool} {index : Fin configs.length}
    (due : wallNow < (engine.states index).nextDue)
    (member : candidate ∈ engine.deadlineCandidates wallNow now slotAvailable index) :
    now < candidate := by
  have untilDue : 0 < ((engine.states index).nextDue - wallNow).toNat :=
    Int.lt_toNat.mpr (Int.sub_pos_of_lt due)
  simp only [deadlineCandidates, List.mem_cons] at member
  rcases member with rfl | member
  · exact Nat.lt_add_of_pos_right untilDue
  · split at member
    · cases member
    · simp only [List.mem_append, List.mem_ite_nil_right, List.mem_singleton, Bool.and_eq_true,
        decide_eq_true_eq] at member
      rcases member with ⟨⟨-, later⟩, rfl⟩ | ⟨⟨-, later⟩, rfl⟩
      · exact later
      · exact later

/-- After a tick that launches nothing the loop does not spin: computed at the same wall time and
any instant, the deadline lies after that instant. -/
theorem lt_nextDeadline_of_idle {zone : LocalZone} {input : TickInput}
    {expiredUnixMs : Fin configs.length → ℕ} {slotAvailable : Bool}
    (idle : engine.tick zone input expiredUnixMs slotAvailable = .ok (none, ticked))
    (later : Instant) (slotLater : Bool) :
    (configs ≠ [] → (ticked.nextDeadline input.wallNow later slotLater).isSome = true) ∧
      ∀ deadline ∈ ticked.nextDeadline input.wallNow later slotLater, later < deadline := by
  have due := tick_none_nextDue idle
  have deadlines : configs ≠ [] →
      ∃ deadline, ticked.nextDeadline input.wallNow later slotLater = some deadline ∧
        later < deadline := by
    intro someJobs
    rcases ticked.nextDeadline_eq_some someJobs input.wallNow later slotLater with
      ⟨deadline, computed, ⟨index, member⟩, -⟩
    exact ⟨deadline, computed, lt_of_mem_deadlineCandidates (due index) member⟩
  refine ⟨?_, ?_⟩
  · intro someJobs
    rcases deadlines someJobs with ⟨deadline, computed, -⟩
    rw [computed]
    rfl
  · intro deadline isDeadline
    have someJobs : configs ≠ [] := by
      rintro rfl
      cases isDeadline
    rcases deadlines someJobs with ⟨other, computed, after⟩
    rw [computed] at isDeadline
    cases isDeadline
    exact after

/-- Every instant left for later that the second reading has not passed is a candidate. -/
theorem mem_deadlineCandidates (wallNow : DateTime) {decided now instant : Instant}
    (left : engine.LeftForLater decided instant) (later : now < instant) :
    ∃ index, instant ∈ engine.deadlineCandidates wallNow now true index := by
  rcases left with ⟨-, index, pending, waiting, rfl | ⟨gated, rfl⟩⟩
  · exact ⟨index, by simp [deadlineCandidates, Option.mem_def.mp waiting, later]⟩
  · have isCandidate : pending.since + fromMillis (configs.get index).effectiveMaxWaitMs ∈
        engine.deadlineCandidates wallNow now true index := by
      simp only [deadlineCandidates, Option.mem_def.mp waiting, gated, Bool.true_and,
        decide_eq_true_eq]
      rw [if_pos (show now < pending.since + _ from later)]
      simp
    exact ⟨index, isCandidate⟩

/-- For a deadline after the second reading and before every later instant, waking in time means
that nothing left for later falls between the two readings. -/
theorem wakesInTime_iff {decided later wake : Instant} (afterReading : later < wake)
    (notLate : ∀ instant, engine.LeftForLater decided instant → later < instant →
      wake ≤ instant) :
    engine.WakesInTime decided later wake ↔
      ∀ instant, engine.LeftForLater decided instant → later < instant := by
  constructor
  · intro inTime instant left
    by_contra passed
    have notLater : instant ≤ later := Nat.le_of_not_lt passed
    have wakesAtOnce := inTime instant left
    rw [Nat.max_eq_left notLater] at wakesAtOnce
    exact Nat.not_lt_of_le wakesAtOnce afterReading
  · intro quiet instant left
    exact Nat.le_trans (notLate instant left (quiet instant left)) (Nat.le_max_right _ _)

end Between

end Engine

namespace Scheduler

variable {configs : List ScheduledJobConfig} {scheduler : Scheduler configs} {zone : LocalZone}
  {input : TickInput} {expiredUnixMs : Fin configs.length → ℕ} {ticked : Engine configs}

/-- In every reachable state without a running child, when a tick launches nothing and the wake
deadline is then computed from another clock reading, the loop wakes in time for every retry and
expiry the tick left for later if and only if none of them has passed by that reading. The cap
that `run` puts on the wake from a third reading changes nothing. -/
theorem wakesInTime_iff_noneBetween (reachable : scheduler.Reachable zone)
    (slotFree : scheduler.active = none)
    (idle : scheduler.engine.tick zone input expiredUnixMs scheduler.active.isNone =
      .ok (none, ticked)) (later : Instant) :
    ∃ deadline, ticked.nextDeadline input.wallNow later scheduler.active.isNone = some deadline ∧
      (ticked.WakesInTime input.now later deadline ↔
        ∀ instant, ticked.LeftForLater input.now instant → later < instant) ∧
      ∀ reread, later ≤ reread →
        (ticked.WakesInTime input.now later (boundedWakeDeadline deadline reread) ↔
          ∀ instant, ticked.LeftForLater input.now instant → later < instant) := by
  rcases reachable with ⟨_, initial, started, -⟩
  have someJobs := (start_eq_ok started).2.1
  rcases ticked.nextDeadline_eq_some someJobs input.wallNow later
    scheduler.active.isNone with ⟨deadline, computed, ⟨index, member⟩, least⟩
  have afterReading := Engine.lt_of_mem_deadlineCandidates
    (Engine.tick_none_nextDue idle index) member
  have notLate : ∀ instant, ticked.LeftForLater input.now instant → later < instant →
      deadline ≤ instant := by
    intro instant left afterwards
    rcases Engine.mem_deadlineCandidates input.wallNow left afterwards with ⟨other, candidate⟩
    rw [slotFree] at least
    exact least other instant candidate
  refine ⟨deadline, computed, Engine.wakesInTime_iff afterReading notLate, ?_⟩
  intro reread afterwards
  have recheck : later < reread + MAX_CIVIL_RECHECK :=
    Nat.lt_of_le_of_lt afterwards (Nat.lt_add_of_pos_right (by decide))
  refine Engine.wakesInTime_iff (Nat.lt_min.mpr ⟨afterReading, recheck⟩) ?_
  exact fun instant left after => Nat.le_trans (Nat.min_le_left _ _) (notLate instant left after)

/-- A wake at three o'clock and some, with a load of five in every window. -/
def busyWake (now : Instant) : TickInput where
  wallNow := 10800000000000 + now
  now := now
  load := ⟨.ready, some ⟨.finite 5, .finite 5, .finite 5⟩⟩

/-- A retry deferred by five minutes is not missed by a deadline computed one nanosecond later. -/
theorem wakesInTime_deferredRetry :
    ∃ scheduler : Scheduler [ScheduledJobConfig.hourlyWhenIdle "backup"],
      ∃ ticked deadline,
        scheduler.engine.tick .utc (busyWake 0) (fun _ => 0) scheduler.active.isNone =
          .ok (none, ticked) ∧
        ticked.nextDeadline (busyWake 0).wallNow 1 scheduler.active.isNone = some deadline ∧
        ticked.WakesInTime 0 1 deadline := by
  have deferred : ∃ scheduler : Scheduler [ScheduledJobConfig.hourlyWhenIdle "backup"],
      scheduler.Reachable .utc ∧ scheduler.active = none ∧ ∃ ticked pending,
        scheduler.engine.tick .utc (busyWake 0) (fun _ => 0) scheduler.active.isNone =
          .ok (none, ticked) ∧
        (∀ index, (ticked.states index).pending = some pending) ∧
        pending.retryAt = 300000000000 ∧ pending.since = 0 :=
    ⟨_, ⟨⟨0, 5, 1, 0, 0, 0, true⟩, _, rfl, .refl⟩, rfl, _, _, rfl,
      fun index => by rw [Fin.fin_one_eq_zero index]; rfl, rfl, rfl⟩
  rcases deferred with
    ⟨scheduler, reachable, slotFree, ticked, pending, idle, waiting, retry, since⟩
  rcases wakesInTime_iff_noneBetween reachable slotFree idle 1 with
    ⟨deadline, computed, inTime, -⟩
  refine ⟨scheduler, ticked, deadline, idle, computed, inTime.mpr ?_⟩
  rintro instant ⟨-, index, found, isPending, rfl | ⟨-, rfl⟩⟩
  · rw [waiting index] at isPending
    cases isPending
    rw [retry]
    decide
  · rw [waiting index] at isPending
    cases isPending
    rw [Fin.fin_one_eq_zero index]
    simp only [Engine.expiryOf, since]
    decide

/-- The job of `wakesInTime_deferredRetry` is not looked at again at once. -/
theorem hourlyWhenIdle_waits :
    ∃ scheduler : Scheduler [ScheduledJobConfig.hourlyWhenIdle "backup"],
      ∃ ticked, scheduler.engine.tick .utc (busyWake 0) (fun _ => 0) true = .ok (none, ticked) ∧
        ∀ deadline ∈ ticked.nextDeadline (busyWake 0).wallNow 1 true, 1 < deadline := by
  have started : ∃ scheduler : Scheduler [ScheduledJobConfig.hourlyWhenIdle "backup"],
      ∃ ticked, scheduler.engine.tick .utc (busyWake 0) (fun _ => 0) true = .ok (none, ticked) ∧
        scheduler.Reachable .utc :=
    ⟨_, _, rfl, ⟨⟨0, 5, 1, 0, 0, 0, true⟩, _, rfl, .refl⟩⟩
  rcases started with ⟨scheduler, ticked, idle, -⟩
  exact ⟨scheduler, ticked, idle, (Engine.lt_nextDeadline_of_idle idle 1 true).2⟩

/-- A tick one nanosecond before a retry leaves it for later, and a deadline computed at the retry
instant itself passes it over: the loop sleeps past a retry that is already due. -/
theorem not_wakesInTime_retryBetween :
    ∃ scheduler : Scheduler [ScheduledJobConfig.hourlyWhenIdle "backup"],
      scheduler.Reachable .utc ∧ scheduler.active = none ∧ ∃ ticked deadline,
        scheduler.engine.tick .utc (busyWake 299999999999) (fun _ => 0)
          scheduler.active.isNone = .ok (none, ticked) ∧
        ticked.nextDeadline (busyWake 299999999999).wallNow 300000000000
          scheduler.active.isNone = some deadline ∧
        ¬ticked.WakesInTime 299999999999 300000000000 deadline := by
  refine ⟨_, ⟨⟨0, 5, 1, 0, 0, 0, true⟩, _, rfl,
    Machine.RunsTo.refl.snoc
      (.tick (busyWake 0) (fun _ => 0) (.failed "not reached") 0) trivial rfl⟩,
    rfl, _, _, rfl, rfl, ?_⟩
  intro inTime
  have late := inTime 300000000000 ⟨by decide, 0, _, rfl, .inl rfl⟩
  revert late
  decide

end Scheduler

end Gregg
