import Gregg.Greggd.Publication
import Gregg.Greggd.WakeUp

/-!
# What a summary row says of its job

A tick leaves a job's occurrence waiting, lets it expire, defers it or launches it, and nothing
else changes an occurrence. A load decision beside a waiting occurrence is therefore always the
one a tick deferred that occurrence with, which is what the rows of a summary rely on.
-/

namespace Gregg

/-- Of two finite numbers, the one that is not at most the other is the greater one. -/
theorem F32.lt_of_not_le {left right : F32} (leftFinite : left.isFinite = true)
    (rightFinite : right.isFinite = true) (notLe : right.le left = false) :
    left.lt right = true := by
  cases left with
  | finite left =>
      cases right with
      | finite right =>
          have notLe : ¬right ≤ left := of_decide_eq_false notLe
          exact decide_eq_true (Rat.not_le.mp notLe)
      | infinity negative => simp [isFinite] at rightFinite
      | nan => simp [isFinite] at rightFinite
  | infinity negative => simp [isFinite] at leftFinite
  | nan => simp [isFinite] at leftFinite

/-- A refusal is by the job's own threshold, which a finite reading behind it exceeds. -/
theorem refused_of_loadBlocked {config : ScheduledJobConfig} {load : LoadGateState}
    {gate : SchedulerLoadGateV2} (accepted : config.Accepted) (finite : FiniteLoad load)
    (blocked : loadBlocked config load = true)
    (isGate : (loadGate config load).map LoadDecision.published = some gate) :
    config.maxLoad = some gate.threshold ∧
      ∀ observed ∈ gate.observed, gate.threshold.lt observed = true := by
  rcases Option.map_eq_some_iff.mp isGate with ⟨decision, decided, rfl⟩
  have refused : decision.allowed = false := by
    simpa [loadBlocked, decided] using blocked
  simp only [loadGate] at decided
  split at decided
  · cases decided
  · rename_i threshold configured
    cases decided
    refine ⟨configured, ?_⟩
    intro observed isObserved
    have isRead : observedLoad config load = some observed := isObserved
    have observedFinite := observedLoad_isFinite finite isRead
    apply F32.lt_of_not_le (accepted.thresholdFinite threshold configured) observedFinite
    simpa [isRead, observedFinite] using refused

/-- A step whose load readings are missing or finite, as the sampler's are. -/
def Scheduler.ReadsFiniteLoad {configs : List ScheduledJobConfig} (_ : Scheduler configs) :
    SchedulerEvent configs.length → Prop
  | .tick input _ _ _ => FiniteLoad input.load
  | .complete _ _ _ => True
  | .publish _ _ => True

/-- What a tick did with one job. `deferred` tells whether it rescheduled the occurrence. -/
inductive JobState.Ticked (zone : LocalZone) (input : TickInput) (config : ScheduledJobConfig)
    (state : JobState) (deferred : Bool) : JobState → Prop where
  | waits {marked : JobState} (due : state.Marked zone input marked)
      (notDeferred : deferred = false) : Ticked zone input config state deferred marked
  | expires {marked : JobState} (due : state.Marked zone input marked) :
      Ticked zone input config state deferred { marked with pending := none }
  | defers {marked : JobState} (due : state.Marked zone input marked)
      (isDeferred : deferred = true) :
      Ticked zone input config state deferred (Engine.deferredState input config marked)
  | launches {marked : JobState} (due : state.Marked zone input marked) :
      Ticked zone input config state deferred (Engine.launchedState input config marked)

namespace JobState

variable {zone : LocalZone} {input : TickInput} {config : ScheduledJobConfig}
  {state marked after : JobState} {deferred : Bool} {pending : PendingOccurrence}

/-- The occurrence `pending` waited in `state` already, since the same instant. -/
def WaitedIn (pending : PendingOccurrence) (state : JobState) : Prop :=
  ∃ before, state.pending = some before ∧ before.occurrence = pending.occurrence ∧
    before.sinceUnixMs = pending.sinceUnixMs

/-- Coalescing keeps the first instant. -/
theorem Marked.waiting (due : state.Marked zone input marked)
    (waiting : marked.pending = some pending) :
    WaitedIn pending state ∨ pending.occurrence = state.made := by
  cases due with
  | notDue _ => exact .inl ⟨pending, waiting, rfl, rfl⟩
  | coalesced _ before _ =>
      cases waiting
      exact .inl ⟨_, before, rfl, rfl⟩
  | made _ _ _ =>
      cases waiting
      exact .inr rfl

theorem Ticked.waiting (ticked : state.Ticked zone input config deferred after)
    (waiting : after.pending = some pending) :
    WaitedIn pending state ∨ pending.occurrence = state.made := by
  cases ticked with
  | waits due _ => exact due.waiting waiting
  | expires _ => cases waiting
  | defers due _ =>
      rcases Option.map_eq_some_iff.mp waiting with ⟨found, isPending, rfl⟩
      rcases due.waiting isPending with ⟨before, waited, occurrence, since⟩ | fresh
      · exact .inl ⟨before, waited, occurrence, since⟩
      · exact .inr fresh
  | launches _ => cases waiting

theorem Marked.made_le (due : state.Marked zone input marked) : state.made ≤ marked.made := by
  cases due with
  | notDue _ => exact Nat.le_refl _
  | coalesced _ _ _ => exact Nat.le_refl _
  | made _ _ _ => exact Nat.le_succ _

theorem Ticked.made_le (ticked : state.Ticked zone input config deferred after) :
    state.made ≤ after.made := by
  cases ticked with
  | waits due _ => exact due.made_le
  | expires due => exact due.made_le
  | defers due _ => exact due.made_le
  | launches due => exact due.made_le

/-- The occurrence `pending` waited in `state` already, under the same decision and retry. -/
def HeldIn (pending : PendingOccurrence) (gate : SchedulerLoadGateV2) (state : JobState) : Prop :=
  ∃ before, state.pending = some before ∧ state.lastGate = some gate ∧
    before.occurrence = pending.occurrence ∧ before.retryAtUnixMs = pending.retryAtUnixMs

/-- A decision beside a waiting occurrence is an earlier one that still stands, or the one the
tick deferred the occurrence with. -/
theorem Ticked.decided {gate : SchedulerLoadGateV2}
    (ticked : state.Ticked zone input config deferred after)
    (waiting : after.pending = some pending) (decided : after.lastGate = some gate) :
    (deferred = false ∧ HeldIn pending gate state) ∨
      (deferred = true ∧ (loadGate config input.load).map LoadDecision.published = some gate ∧
        pending.retryAtUnixMs = satAdd input.unixNow config.effectiveRetryIntervalMs) := by
  cases ticked with
  | waits due notDeferred =>
      left
      cases due with
      | notDue _ => exact ⟨notDeferred, pending, waiting, decided, rfl, rfl⟩
      | coalesced _ before _ =>
          cases waiting
          exact ⟨notDeferred, _, before, decided, rfl, rfl⟩
      | made _ _ _ => cases decided
  | expires _ => cases waiting
  | defers _ isDeferred =>
      right
      rcases Option.map_eq_some_iff.mp waiting with ⟨found, -, rfl⟩
      exact ⟨isDeferred, decided, rfl⟩
  | launches _ => cases waiting

/-- A job without a pending occurrence makes one exactly when its due time has come. -/
theorem Marked.of_idle (noPending : state.pending = none)
    (due : state.Marked zone input marked) :
    marked.made = state.made + (if state.nextDue ≤ input.wallNow then 1 else 0) ∧
      ∀ pending ∈ marked.pending, pending.scheduled = state.nextDue := by
  cases due with
  | notDue later => simp [noPending, Int.not_le.mpr later]
  | coalesced _ waiting _ =>
      rw [noPending] at waiting
      cases waiting
  | made due _ _ => simp [due]

theorem Ticked.of_idle (noPending : state.pending = none)
    (ticked : state.Ticked zone input config deferred after) :
    after.made = state.made + (if state.nextDue ≤ input.wallNow then 1 else 0) ∧
      ∀ pending ∈ after.pending, pending.scheduled = state.nextDue := by
  cases ticked with
  | waits due _ => exact due.of_idle noPending
  | expires due => exact ⟨(due.of_idle noPending).1, by simp⟩
  | defers due _ =>
      refine ⟨(due.of_idle noPending).1, ?_⟩
      intro pending waiting
      rcases Option.map_eq_some_iff.mp waiting with ⟨found, isPending, rfl⟩
      exact (due.of_idle noPending).2 found isPending
  | launches due => exact ⟨(due.of_idle noPending).1, by simp [Engine.launchedState]⟩

end JobState

namespace Engine

variable {configs : List ScheduledJobConfig} {engine collected ticked : Engine configs}
  {zone : LocalZone} {input : TickInput} {expiredUnixMs : Fin configs.length → ℕ}

theorem takeExpired_states (engine : Engine configs) (index other : Fin configs.length) :
    (takeExpired input expiredUnixMs engine other).states index = engine.states index ∨
      (takeExpired input expiredUnixMs engine other).states index =
        { engine.states index with pending := none } := by
  simp only [takeExpired]
  split
  · exact .inl rfl
  · split
    · by_cases here : index = other
      · subst here
        simp [setState]
      · simp [setState, here]
    · exact .inl rfl

/-- The due loop and the expiry loop treat each job on its own. -/
theorem collectDue_states
    (completed : engine.collectDue zone input expiredUnixMs = .ok collected)
    (index : Fin configs.length) :
    ∃ marked, (engine.states index).Marked zone input marked ∧
      (collected.states index = marked ∨
        collected.states index = { marked with pending := none }) := by
  unfold collectDue at completed
  split at completed
  · cases completed
  · rename_i states statesOk
    cases completed
    refine ⟨states index,
      JobState.marked_of_markDue (Loop.eq_ok_of_collect statesOk index), ?_⟩
    have turns := Loop.moves_of_foldl_finRange
      (fun before after : Engine configs => after.states index = before.states index ∨
        after.states index = { before.states index with pending := none })
      (takeExpired input expiredUnixMs)
      (fun engine other => .single (takeExpired_states engine index other))
      { engine with states }
    generalize (List.finRange configs.length).foldl (takeExpired input expiredUnixMs)
      { engine with states } = finished at turns
    induction turns with
    | refl => exact .inl rfl
    | tail _ turn ih =>
        rcases turn with same | emptied
        · rw [same]
          exact ih
        · rw [emptied]
          rcases ih with same | already
          · exact .inr (by rw [same])
          · exact .inr (by rw [already])

/-- What taking the free slot does to one job: it is launched, or it is one of the blocked jobs
ordered before the winner, or it is left alone. -/
theorem takeSlot_states (engine : Engine configs) (input : TickInput)
    (index : Fin configs.length) :
    (engine.takeSlot input).2.states index =
        launchedState input (configs.get index) (engine.states index) ∨
      (engine.takeSlot input).2.states index =
        if engine.isBlockedBefore (engine.select input) input index then
          deferredState input (configs.get index) (engine.states index)
        else engine.states index := by
  cases selected : engine.select input with
  | none =>
      right
      simp only [takeSlot, selected, deferBlockedBefore]
  | some winner =>
      simp only [takeSlot, selected, launch]
      split
      · exact .inr rfl
      · by_cases here : index = winner.2
        · left
          subst here
          simp only [setState, Function.update_self, deferBlockedBefore]
          split <;> rfl
        · right
          simp only [setState, Function.update_of_ne here, deferBlockedBefore]

/-- A launch carries the time its occurrence was due. -/
theorem scheduled_of_takeSlot {launch : Launch configs.length}
    (launched : (engine.takeSlot input).1 = some launch) :
    ∃ pending, (engine.states launch.index).pending = some pending ∧
      launch.scheduled = pending.scheduled := by
  cases selected : engine.select input with
  | none => simp [takeSlot, selected] at launched
  | some winner =>
      simp only [takeSlot, selected, Engine.launch] at launched
      split at launched
      · cases launched
      · rename_i found waiting
        cases launched
        simp only [deferBlockedBefore] at waiting
        split at waiting
        · simp only [deferredState, Option.map_eq_some_iff] at waiting
          rcases waiting with ⟨pending, waiting, rfl⟩
          exact ⟨pending, waiting, rfl⟩
        · exact ⟨found, waiting, rfl⟩

end Engine

namespace Scheduler

variable {configs : List ScheduledJobConfig} {zone : LocalZone}
  {initial scheduler next : Scheduler configs} {event : SchedulerEvent configs.length}
  {index : Fin configs.length} {input : TickInput} {expiredUnixMs : Fin configs.length → ℕ}
  {spawn : SpawnResult} {spawnFailedUnixMs : ℕ}

section Ticks

@[simp]
theorem afterTick_states {launch : Option (Launch configs.length)} :
    (scheduler.afterTick launch spawn spawnFailedUnixMs).engine.states =
      scheduler.engine.states := by
  cases launch with
  | none => rfl
  | some launch =>
      simp only [afterTick, startLaunch]
      split <;> rfl

/-- The four things a tick can do with a job, told apart by whether it deferred it. -/
theorem ticked_of_tick {launch : Option (Launch configs.length)} {ticked : Engine configs}
    (completed : scheduler.engine.tick zone input expiredUnixMs scheduler.active.isNone =
      .ok (launch, ticked)) (index : Fin configs.length) :
    (scheduler.engine.states index).Ticked zone input (configs.get index)
      (scheduler.defers zone input expiredUnixMs index) (ticked.states index) := by
  unfold Engine.tick at completed
  split at completed
  · cases completed
  · rename_i collected collectedOk
    rcases Engine.collectDue_states collectedOk index with ⟨marked, due, stateIs⟩
    have notBlocked : collected.states index = { marked with pending := none } →
        collected.isBlockedBefore (collected.select input) input index = false := by
      intro emptied
      simp [Engine.isBlockedBefore, emptied]
    have untouched : scheduler.defers zone input expiredUnixMs index = false →
        (scheduler.engine.states index).Ticked zone input (configs.get index)
          (scheduler.defers zone input expiredUnixMs index) (collected.states index) := by
      intro notDeferred
      rcases stateIs with same | emptied
      · rw [same]
        exact .waits due notDeferred
      · rw [emptied]
        exact .expires due
    cases slotFree : scheduler.active with
    | some child =>
        simp only [slotFree, Option.isNone_some, Bool.false_eq_true, ↓reduceIte,
          Except.ok.injEq, Prod.mk.injEq] at completed
        rcases completed with ⟨-, rfl⟩
        exact untouched (by simp [defers, collectedOk, slotFree])
    | none =>
        simp only [slotFree, Option.isNone_none, ↓reduceIte, Except.ok.injEq] at completed
        have isTicked : ticked = (collected.takeSlot input).2 := by rw [completed]
        have deferredIff : scheduler.defers zone input expiredUnixMs index =
            collected.isBlockedBefore (collected.select input) input index := by
          simp [defers, collectedOk, slotFree]
        rw [isTicked]
        rcases collected.takeSlot_states input index with launched | left
        · rw [launched]
          have launchedMarked : (scheduler.engine.states index).Ticked zone input
              (configs.get index) (scheduler.defers zone input expiredUnixMs index)
              (Engine.launchedState input (configs.get index) marked) := .launches due
          rcases stateIs with same | emptied
          · rwa [same]
          · rw [emptied]
            exact launchedMarked
        · rw [left]
          split
          · rename_i blocked
            rcases stateIs with same | emptied
            · rw [same]
              exact .defers due (deferredIff.trans blocked)
            · rw [notBlocked emptied] at blocked
              cases blocked
          · rename_i notBlocked
            exact untouched (deferredIff.trans (Bool.eq_false_of_not_eq_true notBlocked))

/-- A launch carries the time its occurrence was due. -/
theorem scheduled_of_tick {launch : Launch configs.length} {ticked : Engine configs}
    (completed : scheduler.engine.tick zone input expiredUnixMs scheduler.active.isNone =
      .ok (some launch, ticked)) :
    ∃ marked pending, (scheduler.engine.states launch.index).Marked zone input marked ∧
      marked.pending = some pending ∧ launch.scheduled = pending.scheduled := by
  unfold Engine.tick at completed
  split at completed
  · cases completed
  · rename_i collected collectedOk
    simp only [Except.ok.injEq] at completed
    split at completed
    · have launched : (collected.takeSlot input).1 = some launch := by rw [completed]
      rcases Engine.scheduled_of_takeSlot launched with ⟨pending, waiting, scheduled⟩
      rcases Engine.collectDue_states collectedOk launch.index with ⟨marked, due, same | emptied⟩
      · exact ⟨marked, pending, due, same ▸ waiting, scheduled⟩
      · rw [emptied] at waiting
        cases waiting
    · cases completed

end Ticks

section Steps

/-- Only a tick changes what a job waits for. -/
theorem states_of_step (stepped : step zone scheduler event = some next) :
    ((∀ input expiredUnixMs spawn spawnFailedUnixMs,
        event ≠ .tick input expiredUnixMs spawn spawnFailedUnixMs) ∧
      next.engine.states = scheduler.engine.states) ∨
    ∃ input expiredUnixMs spawn spawnFailedUnixMs,
      event = .tick input expiredUnixMs spawn spawnFailedUnixMs ∧
      ∀ index, (scheduler.engine.states index).Ticked zone input (configs.get index)
        (scheduler.defers zone input expiredUnixMs index) (next.engine.states index) := by
  cases event with
  | tick input expiredUnixMs spawn spawnFailedUnixMs =>
      right
      simp only [step] at stepped
      split at stepped
      · cases stepped
      · rename_i completed
        cases stepped
        refine ⟨_, _, _, _, rfl, fun index => ?_⟩
        rw [afterTick_states]
        exact ticked_of_tick completed index
  | complete exit stdout stderr =>
      left
      simp only [step] at stepped
      split at stepped
      · cases stepped
      · cases stepped
        exact ⟨by simp, rfl⟩
  | publish wallNow serializes =>
      left
      cases stepped
      exact ⟨by simp, rfl⟩

theorem waiting_of_step {pending : PendingOccurrence}
    (stepped : step zone scheduler event = some next)
    (waiting : (next.engine.states index).pending = some pending) :
    JobState.WaitedIn pending (scheduler.engine.states index) ∨
      pending.occurrence = (scheduler.engine.states index).made := by
  rcases states_of_step stepped with ⟨-, same⟩ | ⟨_, _, _, _, -, ticked⟩
  · rw [same] at waiting
    exact .inl ⟨pending, waiting, rfl, rfl⟩
  · exact (ticked index).waiting waiting

theorem made_le_of_step (stepped : step zone scheduler event = some next) :
    (scheduler.engine.states index).made ≤ (next.engine.states index).made := by
  rcases states_of_step stepped with ⟨-, same⟩ | ⟨_, _, _, _, -, ticked⟩
  · rw [same]
  · exact (ticked index).made_le

/-- An occurrence that stays pending keeps the instant it became pending at. -/
theorem since_of_runs {admissible : Scheduler configs → SchedulerEvent configs.length → Prop}
    {pending later : PendingOccurrence} (consistent : scheduler.Consistent zone)
    (runs : Machine.RunsTo (step zone) admissible scheduler next)
    (waiting : (scheduler.engine.states index).pending = some pending)
    (waitingLater : (next.engine.states index).pending = some later)
    (sameOccurrence : later.occurrence = pending.occurrence) :
    later.sinceUnixMs = pending.sinceUnixMs := by
  have alreadyMade : pending.occurrence < (scheduler.engine.states index).made :=
    (consistent.accounted.complete _).mpr (.inl (mem_waiting waiting))
  have kept := runs.invariant (fun state : Scheduler configs =>
    pending.occurrence < (state.engine.states index).made ∧
      ∀ found ∈ (state.engine.states index).pending, found.occurrence = pending.occurrence →
        found.sinceUnixMs = pending.sinceUnixMs) ?_ ?_
  · exact kept.2 later waitingLater sameOccurrence
  · refine ⟨alreadyMade, ?_⟩
    intro found isPending _
    rw [waiting] at isPending
    cases isPending
    rfl
  · rintro state event after ⟨made, since⟩ - stepped
    refine ⟨Nat.lt_of_lt_of_le made (made_le_of_step stepped), ?_⟩
    intro found isPending same
    rcases waiting_of_step stepped isPending with ⟨before, waited, occurrence, sinceSame⟩ | fresh
    · rw [← sinceSame]
      exact since before waited (occurrence.trans same)
    · rw [← same, fresh] at made
      exact absurd made (Nat.lt_irrefl _)

/-- While the same occurrence waits, or none does, a row reports the same instant. -/
theorem pendingSince_of_runs
    {admissible : Scheduler configs → SchedulerEvent configs.length → Prop}
    (consistent : scheduler.Consistent zone)
    (runs : Machine.RunsTo (step zone) admissible scheduler next)
    (sameOccurrence : next.pendingOrdinal index = scheduler.pendingOrdinal index) :
    (next.engine.publishedJob next.running index).pendingSinceUnixMs =
      (scheduler.engine.states index).pending.map (·.sinceUnixMs) := by
  have since : (next.engine.publishedJob next.running index).pendingSinceUnixMs =
      (next.engine.states index).pending.map (·.sinceUnixMs) := rfl
  rw [since]
  cases waiting : (scheduler.engine.states index).pending with
  | none =>
      cases waitingLater : (next.engine.states index).pending with
      | none => rfl
      | some later => simp [pendingOrdinal, waiting, waitingLater] at sameOccurrence
  | some pending =>
      cases waitingLater : (next.engine.states index).pending with
      | none => simp [pendingOrdinal, waiting, waitingLater] at sameOccurrence
      | some later =>
          simp only [pendingOrdinal, waiting, waitingLater, Option.map_some,
            Option.some.injEq] at sameOccurrence
          simp [since_of_runs consistent runs waiting waitingLater sameOccurrence]

end Steps

section Decisions

/-- The decision behind a retry: a tick of the run read a finite or missing load, refused the job
and deferred the occurrence that still waits by the job's retry interval. -/
def DeferredBy (zone : LocalZone) (initial scheduler : Scheduler configs)
    (index : Fin configs.length) (retryUnixMs : ℕ) (gate : SchedulerLoadGateV2) : Prop :=
  ∃ origin input expiredUnixMs spawn spawnFailedUnixMs next,
    Machine.RunsTo (step zone) ReadsFiniteLoad initial origin ∧
    step zone origin (.tick input expiredUnixMs spawn spawnFailedUnixMs) = some next ∧
    Machine.RunsTo (step zone) ReadsFiniteLoad next scheduler ∧
    next.pendingOrdinal index = scheduler.pendingOrdinal index ∧
    FiniteLoad input.load ∧
    origin.defers zone input expiredUnixMs index = true ∧
    (loadGate (configs.get index) input.load).map LoadDecision.published = some gate ∧
    retryUnixMs = satAdd input.unixNow (configs.get index).effectiveRetryIntervalMs

/-- A decision beside a waiting occurrence is the one a tick deferred that occurrence with. -/
theorem deferredBy_of_runs {pending : PendingOccurrence} {gate : SchedulerLoadGateV2}
    (idle : ∀ index, (initial.engine.states index).pending = none)
    (runs : Machine.RunsTo (step zone) ReadsFiniteLoad initial scheduler)
    (waiting : (scheduler.engine.states index).pending = some pending)
    (decided : (scheduler.engine.states index).lastGate = some gate) :
    DeferredBy zone initial scheduler index pending.retryAtUnixMs gate := by
  induction runs generalizing pending with
  | refl =>
      rw [idle index] at waiting
      cases waiting
  | @snoc state next before event allowed stepped ih =>
      have earlier : JobState.HeldIn pending gate (state.engine.states index) →
          DeferredBy zone initial next index pending.retryAtUnixMs gate := by
        rintro ⟨found, waited, stood, occurrence, retry⟩
        rcases ih waited stood with
          ⟨origin, input, expired, spawn, failed, after, toOrigin, ticked, fromTick, same, rest⟩
        rw [← retry]
        refine ⟨origin, input, expired, spawn, failed, after, toOrigin, ticked,
          fromTick.snoc event allowed stepped, same.trans ?_, rest⟩
        simp [pendingOrdinal, waited, waiting, occurrence]
      rcases states_of_step stepped with ⟨-, same⟩ | ⟨input, expired, spawn, failed, rfl, ticked⟩
      · rw [same] at waiting decided
        exact earlier ⟨pending, waiting, decided, rfl, rfl⟩
      · rcases (ticked index).decided waiting decided with ⟨-, held⟩ | ⟨defers, isGate, retry⟩
        · exact earlier held
        · exact ⟨state, input, expired, spawn, failed, next, before, stepped, .refl, rfl, allowed,
            defers, isGate, retry⟩

/-- The decision that deferred a job is a refusal. -/
theorem DeferredBy.refused {retryUnixMs : ℕ} {gate : SchedulerLoadGateV2}
    (accepted : (configs.get index).Accepted)
    (deferred : DeferredBy zone initial scheduler index retryUnixMs gate) :
    (configs.get index).maxLoad = some gate.threshold ∧
      ∀ observed ∈ gate.observed, gate.threshold.lt observed = true := by
  rcases deferred with ⟨origin, input, expired, -, -, -, -, -, -, -, finite, defers, isGate, -⟩
  have blocked : loadBlocked (configs.get index) input.load = true := by
    unfold Scheduler.defers at defers
    split at defers
    · cases defers
    · simp only [Bool.and_eq_true, Engine.isBlockedBefore, Option.any_eq_true] at defers
      rcases defers with ⟨-, _, -, -, blocked⟩
      exact blocked
  exact refused_of_loadBlocked accepted finite blocked isGate

end Decisions

section Rows

variable {wallNow : DateTime} {serializes : Bool} {publication : SchedulerPublication}

/-- What a row of a summary published by `scheduler` says of the job at `index`, after a run from
`initial`. -/
structure RowTruthful (zone : LocalZone) (initial scheduler : Scheduler configs)
    (index : Fin configs.length) (row : SchedulerJobV2) : Prop where
  running : row.state = .running ↔ ∃ child ∈ scheduler.active, child.index = index
  loadHigh : row.state = .loadHigh → ∃ gate ∈ row.load, ∃ observed ∈ gate.observed,
    (configs.get index).maxLoad = some gate.threshold ∧ gate.threshold.lt observed = true
  loadUnavailable : row.state = .loadUnavailable → ∃ gate ∈ row.load, gate.observed = none
  waitingForSlot : row.pendingSinceUnixMs.isSome → row.load = none → row.state ≠ .running →
    row.state = .waitingForSlot
  nextRetry : ∀ retryUnixMs ∈ row.nextRetryUnixMs, ∃ gate ∈ row.load,
    DeferredBy zone initial scheduler index retryUnixMs gate
  pendingSince : ∀ later, Machine.RunsTo (step zone) ReadsFiniteLoad scheduler later →
    later.pendingOrdinal index = scheduler.pendingOrdinal index →
    (later.engine.publishedJob later.running index).pendingSinceUnixMs = row.pendingSinceUnixMs
  idle : row.state = .idle → ∃ due, row.nextDueUnixMs = unixMillis due ∧
    ∀ input expiredUnixMs launch ticked,
      scheduler.engine.tick zone input expiredUnixMs scheduler.active.isNone =
        .ok (launch, ticked) →
      (ticked.states index).made =
          (scheduler.engine.states index).made + (if due ≤ input.wallNow then 1 else 0) ∧
        (∀ pending ∈ (ticked.states index).pending, pending.scheduled = due) ∧
        ∀ launched ∈ launch, launched.index = index → launched.scheduled = due

theorem publish_jobs {engine : Engine configs} {running : Option (Fin configs.length × ℕ)}
    (published : (engine.publish wallNow running serializes).1 = some publication) :
    publication.summary.jobs = List.ofFn (engine.publishedJob running) := by
  simp only [Engine.publish, SchedulerObserver.publish] at published
  split at published
  · cases published
  · cases published
    rfl

/-- Whether the row's job holds the child slot. -/
theorem runningHere_isSome_iff :
    (scheduler.running.filter fun active => active.1 == index).isSome = true ↔
      ∃ child ∈ scheduler.active, child.index = index := by
  cases active : scheduler.active with
  | none => simp [running, active]
  | some child => simp [running, active, Option.filter_some]

/-- The state and the retry of a row, by what the engine knows of the job. -/
inductive RowShape (state : JobState) : Bool → SchedulerJobStateV2 → Option ℕ → Prop where
  | running : RowShape state true .running none
  | idle (noPending : state.pending = none) : RowShape state false .idle none
  | waitingForSlot (undecided : state.lastGate = none) :
      RowShape state false .waitingForSlot none
  | loadUnavailable {pending : PendingOccurrence} {gate : SchedulerLoadGateV2}
      (waiting : state.pending = some pending) (decided : state.lastGate = some gate)
      (unobserved : gate.observed = none) :
      RowShape state false .loadUnavailable (some pending.retryAtUnixMs)
  | loadHigh {pending : PendingOccurrence} {gate : SchedulerLoadGateV2} {observed : F32}
      (waiting : state.pending = some pending) (decided : state.lastGate = some gate)
      (isObserved : gate.observed = some observed) :
      RowShape state false .loadHigh (some pending.retryAtUnixMs)

theorem publishedJob_shape (engine : Engine configs) (running : Option (Fin configs.length × ℕ))
    (index : Fin configs.length) :
    RowShape (engine.states index) (running.filter fun active => active.1 == index).isSome
      (engine.publishedJob running index).state
      (engine.publishedJob running index).nextRetryUnixMs := by
  simp only [Engine.publishedJob]
  cases runningHere : running.filter fun active => active.1 == index with
  | some active =>
      simp only [jobState, Option.isSome_some, Option.isNone_some, Bool.and_false, Bool.false_and,
        Bool.false_eq_true, ↓reduceIte]
      exact .running
  | none =>
      cases pending : (engine.states index).pending with
      | none =>
          simp only [jobState, Option.isSome_none, Bool.and_false, Bool.not_false, ↓reduceIte,
            Bool.false_eq_true]
          exact .idle pending
      | some occurrence =>
          cases gate : (engine.states index).lastGate with
          | none =>
              simp only [jobState, Option.isSome_none, Option.isSome_some, Option.isNone_none,
                Bool.false_and, Bool.not_true, Bool.false_eq_true, ↓reduceIte]
              exact .waitingForSlot gate
          | some decision =>
              simp only [jobState, Option.isSome_none, Option.isSome_some, Option.isNone_none,
                Bool.and_self, Bool.not_true, Bool.false_eq_true, ↓reduceIte, Option.map_some]
              cases observed : decision.observed with
              | none => exact .loadUnavailable pending gate observed
              | some value => exact .loadHigh pending gate observed

/-- The next tick makes an occurrence of an idle job exactly when the due time it reads has come,
and schedules it for that time. -/
theorem tick_of_idle {launch : Option (Launch configs.length)} {ticked : Engine configs}
    (noPending : (scheduler.engine.states index).pending = none)
    (completed : scheduler.engine.tick zone input expiredUnixMs scheduler.active.isNone =
      .ok (launch, ticked)) :
    (ticked.states index).made = (scheduler.engine.states index).made +
        (if (scheduler.engine.states index).nextDue ≤ input.wallNow then 1 else 0) ∧
      (∀ pending ∈ (ticked.states index).pending,
        pending.scheduled = (scheduler.engine.states index).nextDue) ∧
      ∀ launched ∈ launch, launched.index = index →
        launched.scheduled = (scheduler.engine.states index).nextDue := by
  have ticked := (ticked_of_tick completed index).of_idle noPending
  refine ⟨ticked.1, ticked.2, ?_⟩
  rintro launched ⟨⟩ rfl
  rcases scheduled_of_tick completed with ⟨marked, pending, due, waiting, scheduled⟩
  rw [scheduled]
  exact (due.of_idle noPending).2 pending waiting

/-- Every row of every summary a reachable scheduler publishes is truthful. -/
theorem rows_truthful {config : Config} {platform : JobPlatform} {input : StartInput}
    {initial scheduler : Scheduler config.jobs} (accepted : config.validateFor platform = [])
    (started : start zone config.jobs input = .ok initial)
    (runs : Machine.RunsTo (step zone) ReadsFiniteLoad initial scheduler)
    (published : (scheduler.engine.publish wallNow scheduler.running serializes).1 =
      some publication) :
    ∃ rows : Fin config.jobs.length → SchedulerJobV2,
      publication.summary.jobs = List.ofFn rows ∧
        ∀ index, RowTruthful zone initial scheduler index (rows index) := by
  refine ⟨scheduler.engine.publishedJob scheduler.running, publish_jobs published, ?_⟩
  intro index
  have jobAccepted : (config.jobs.get index).Accepted :=
    (Config.accepted_of_validateFor accepted).jobs _ (List.get_mem _ _)
  have consistent : scheduler.Consistent zone := consistent_of_runs started runs
  have idleAtStart : ∀ index, (initial.engine.states index).pending = none := by
    rcases start_eq_ok started with ⟨-, -, engine, -, states, rfl⟩
    exact fun index => (initialState_eq_ok (states index)).1
  have deferredBy : ∀ {pending gate}, (scheduler.engine.states index).pending = some pending →
      (scheduler.engine.states index).lastGate = some gate →
      DeferredBy zone initial scheduler index pending.retryAtUnixMs gate :=
    fun waiting decided => deferredBy_of_runs idleAtStart runs waiting decided
  have shape := publishedJob_shape scheduler.engine scheduler.running index
  have holdsSlot : (scheduler.running.filter fun active => active.1 == index).isSome = true ↔
      ∃ child ∈ scheduler.active, child.index = index := runningHere_isSome_iff
  generalize (scheduler.running.filter fun active => active.1 == index).isSome = runningHere
    at shape holdsSlot
  have load : (scheduler.engine.publishedJob scheduler.running index).load =
      (scheduler.engine.states index).lastGate := rfl
  have since : (scheduler.engine.publishedJob scheduler.running index).pendingSinceUnixMs =
      (scheduler.engine.states index).pending.map (·.sinceUnixMs) := rfl
  have due : (scheduler.engine.publishedJob scheduler.running index).nextDueUnixMs =
      unixMillis (scheduler.engine.states index).nextDue := rfl
  generalize scheduler.engine.publishedJob scheduler.running index = row at shape load since due
  rcases row with ⟨name, schedule, nextDueUnixMs, state, gate, pendingSinceUnixMs,
    nextRetryUnixMs, runningSinceUnixMs, last⟩
  simp only at shape load since due
  subst load
  refine ⟨?_, ?_, ?_, ?_, ?_, ?_, ?_⟩
  · rw [← holdsSlot]
    cases shape <;> simp
  · rintro ⟨⟩
    cases shape with
    | loadHigh waiting decided isObserved =>
        have refused := (deferredBy waiting decided).refused jobAccepted
        exact ⟨_, decided, _, isObserved, refused.1, refused.2 _ isObserved⟩
  · rintro ⟨⟩
    cases shape with
    | loadUnavailable _ decided unobserved => exact ⟨_, decided, unobserved⟩
  · intro pending undecided notRunning
    cases shape with
    | running => exact absurd rfl notRunning
    | idle noPending => simp [since, noPending] at pending
    | waitingForSlot _ => rfl
    | loadUnavailable _ decided _ => exact absurd (decided.symm.trans undecided) (by simp)
    | loadHigh _ decided _ => exact absurd (decided.symm.trans undecided) (by simp)
  · rintro retryUnixMs ⟨⟩
    cases shape with
    | loadUnavailable waiting decided _ => exact ⟨_, decided, deferredBy waiting decided⟩
    | loadHigh waiting decided _ => exact ⟨_, decided, deferredBy waiting decided⟩
  · intro later runsLater sameOccurrence
    rw [since]
    exact pendingSince_of_runs consistent runsLater sameOccurrence
  · rintro ⟨⟩
    cases shape with
    | idle noPending =>
        exact ⟨_, due, fun _ _ _ _ completed => tick_of_idle noPending completed⟩

/-- A configuration with one job that is due every hour and waits for a load of at most one. -/
def idleConfig (name : String) : Config :=
  { minutelyConfig name with jobs := [ScheduledJobConfig.hourlyWhenIdle name] }

theorem eq_ok_of_toOption {Failure State : Type} {outcome : Except Failure State} {state : State}
    (succeeded : outcome.toOption = some state) : outcome = .ok state := by
  cases outcome with
  | error error => cases succeeded
  | ok other =>
      cases succeeded
      rfl

/-- A load of five defers the job, and the row published then is truthful. -/
theorem rows_truthful_loadHigh :
    ∃ initial scheduler : Scheduler (idleConfig "backup").jobs, ∃ publication,
      Machine.RunsTo (step .utc) ReadsFiniteLoad initial scheduler ∧
      (scheduler.engine.publish (busyWake 0).wallNow scheduler.running true).1 =
        some publication ∧
      publication.summary.jobs.map (·.state) = [.loadHigh] ∧
      ∃ rows : Fin (idleConfig "backup").jobs.length → SchedulerJobV2,
        publication.summary.jobs = List.ofFn rows ∧
          ∀ index, RowTruthful .utc initial scheduler index (rows index) := by
  have finite : FiniteLoad (busyWake 0).load := by
    rintro values ⟨⟩
    exact ⟨rfl, rfl, rfl⟩
  have deferred : ((start .utc (idleConfig "backup").jobs epochStart).toOption.bind fun initial =>
      (step .utc initial (.tick (busyWake 0) (fun _ => 0) (.failed "not reached") 0)).bind
        fun scheduler =>
          (scheduler.engine.publish (busyWake 0).wallNow scheduler.running true).1.map
            fun publication => publication.summary.jobs.map (·.state)) = some [.loadHigh] := by
    decide +kernel
  rcases Option.bind_eq_some_iff.mp deferred with ⟨initial, started, deferred⟩
  rcases Option.bind_eq_some_iff.mp deferred with ⟨scheduler, stepped, deferred⟩
  rcases Option.map_eq_some_iff.mp deferred with ⟨publication, published, states⟩
  have started := eq_ok_of_toOption started
  have runs : Machine.RunsTo (step .utc) ReadsFiniteLoad initial scheduler :=
    .single (.tick (busyWake 0) (fun _ => 0) (.failed "not reached") 0) finite stepped
  have accepted : (idleConfig "backup").validateFor .unix = [] := by decide
  exact ⟨initial, scheduler, publication, runs, published, states,
    rows_truthful accepted started runs published⟩

end Rows

end Scheduler

end Gregg
