import Gregg.Greggd.Rows
import Gregg.Tui.LoadGate

/-!
# The load comparison of a published row

A row without a waiting occurrence keeps the decision of its job's last occurrence. A launch
leaves a decision that admitted the job; an expiry leaves the refusal the occurrence waited under,
and the row is then rendered as if that refusal had been an admission.
-/

namespace Gregg

variable {config : ScheduledJobConfig} {load : LoadGateState} {gate : SchedulerLoadGateV2}

/-- A finite reading behind the decision is within the threshold. -/
def SchedulerLoadGateV2.Admits (gate : SchedulerLoadGateV2) : Prop :=
  ∀ observed ∈ gate.observed, observed.isFinite = true → observed.le gate.threshold = true

/-- A finite reading behind the decision is above the threshold. -/
def SchedulerLoadGateV2.Refuses (gate : SchedulerLoadGateV2) : Prop :=
  ∀ observed ∈ gate.observed, observed.isFinite = true → gate.threshold.lt observed = true

/-- The decision was taken on a reading that is a number. -/
def SchedulerLoadGateV2.HasReading (gate : SchedulerLoadGateV2) : Prop :=
  ∃ observed ∈ gate.observed, observed.isFinite = true

theorem F32.not_le_of_lt {left right : F32} (leftFinite : left.isFinite = true)
    (rightFinite : right.isFinite = true) (lt : left.lt right = true) :
    ¬right.le left = true := by
  cases left with
  | finite left =>
      cases right with
      | finite right =>
          have lt : left < right := of_decide_eq_true lt
          simpa [le] using Rat.not_le.mpr lt
      | infinity negative => simp [isFinite] at rightFinite
      | nan => simp [isFinite] at rightFinite
  | infinity negative => simp [isFinite] at leftFinite
  | nan => simp [isFinite] at leftFinite

/-- A refusal with a reading admits nothing. -/
theorem SchedulerLoadGateV2.admits_iff_of_refuses (finite : gate.threshold.isFinite = true)
    (refuses : gate.Refuses) : gate.Admits ↔ ¬gate.HasReading := by
  constructor
  · rintro admits ⟨observed, isObserved, isNumber⟩
    exact F32.not_le_of_lt finite isNumber (refuses observed isObserved isNumber)
      (admits observed isObserved isNumber)
  · intro noReading observed isObserved isNumber
    exact absurd ⟨observed, isObserved, isNumber⟩ noReading

theorem admits_of_not_loadBlocked (admitted : loadBlocked config load = false)
    (decided : (loadGate config load).map LoadDecision.published = some gate) : gate.Admits := by
  rcases Option.map_eq_some_iff.mp decided with ⟨decision, isDecision, rfl⟩
  intro observed isObserved _
  have allowed : decision.allowed = true := by
    simpa [loadBlocked, isDecision] using admitted
  simp only [loadGate] at isDecision
  split at isDecision
  · cases isDecision
  · cases isDecision
    have isRead : observedLoad config load = some observed := isObserved
    simp only [isRead, Option.any_some, Bool.and_eq_true] at allowed
    exact allowed.2

theorem refuses_of_loadBlocked (accepted : config.Accepted)
    (blocked : loadBlocked config load = true)
    (decided : (loadGate config load).map LoadDecision.published = some gate) :
    gate.threshold.isFinite = true ∧ gate.Refuses := by
  rcases Option.map_eq_some_iff.mp decided with ⟨decision, isDecision, rfl⟩
  have refused : decision.allowed = false := by
    simpa [loadBlocked, isDecision] using blocked
  simp only [loadGate] at isDecision
  split at isDecision
  · cases isDecision
  · rename_i threshold configured
    cases isDecision
    have finite := accepted.thresholdFinite threshold configured
    refine ⟨finite, ?_⟩
    intro observed isObserved isNumber
    have isRead : observedLoad config load = some observed := isObserved
    apply F32.lt_of_not_le finite isNumber
    simpa [isRead, isNumber] using refused

namespace JobState

variable {zone : LocalZone} {input : TickInput} {state marked after : JobState}

/-- What a tick did with one job, with what it read of the job's load gate. -/
inductive Gated (zone : LocalZone) (input : TickInput) (config : ScheduledJobConfig)
    (state : JobState) (slotFree : Bool) : JobState → Prop where
  | waits {marked : JobState} (due : state.Marked zone input marked)
      (kept : marked.isExpired input config = false) : Gated zone input config state slotFree marked
  | expires {marked : JobState} (due : state.Marked zone input marked)
      (isExpired : marked.isExpired input config = true) :
      Gated zone input config state slotFree { marked with pending := none }
  | defers {marked : JobState} (due : state.Marked zone input marked)
      (waiting : marked.pending.isSome = true) (kept : marked.isExpired input config = false)
      (slot : slotFree = true) (blocked : loadBlocked config input.load = true) :
      Gated zone input config state slotFree (Engine.deferredState input config marked)
  | launches {marked : JobState} (due : state.Marked zone input marked) (slot : slotFree = true)
      (admitted : loadBlocked config input.load = false) :
      Gated zone input config state slotFree (Engine.launchedState input config marked)

theorem isExpired_of_pending {pending : PendingOccurrence}
    (waiting : state.pending = some pending) :
    state.isExpired input config = (loadBlocked config input.load &&
      decide (fromMillis config.effectiveMaxWaitMs ≤ input.now - pending.since)) := by
  rw [isExpired, waiting, Option.any_some]

/-- Coalescing keeps the instant an occurrence has waited from. -/
theorem Marked.isExpired_iff (config : ScheduledJobConfig) (due : state.Marked zone input marked)
    (waiting : state.pending.isSome = true) :
    marked.isExpired input config = state.isExpired input config ∧
      marked.pending.isSome = true ∧ marked.lastGate = state.lastGate := by
  cases due with
  | notDue _ => exact ⟨rfl, waiting, rfl⟩
  | coalesced _ before _ =>
      refine ⟨?_, rfl, rfl⟩
      rw [isExpired_of_pending before, isExpired_of_pending rfl]
  | made _ idle _ => simp [idle] at waiting

theorem Marked.lastGate_of_idle (due : state.Marked zone input marked)
    (idle : state.pending = none) : marked = state ∨ marked.lastGate = none := by
  cases due with
  | notDue _ => exact .inl rfl
  | coalesced _ before _ => simp [idle] at before
  | made _ _ _ => exact .inr rfl

end JobState

namespace Engine

variable {configs : List ScheduledJobConfig} {engine collected : Engine configs}
  {zone : LocalZone} {input : TickInput} {expiredUnixMs : Fin configs.length → ℕ}
  {index : Fin configs.length}

/-- What the expiry loop leaves of one job. -/
def expiredState (input : TickInput) (config : ScheduledJobConfig) (state : JobState) : JobState :=
  if state.isExpired input config then { state with pending := none } else state

theorem takeExpired_states_self (engine : Engine configs) :
    (takeExpired input expiredUnixMs engine index).states index =
      expiredState input (configs.get index) (engine.states index) := by
  simp only [takeExpired, expiredState]
  cases waiting : (engine.states index).pending with
  | none => simp [JobState.isExpired, waiting]
  | some pending =>
      simp only
      split
      · simp [setState]
      · rfl

theorem takeExpired_states_of_ne {other : Fin configs.length} (ne : other ≠ index)
    (engine : Engine configs) :
    (takeExpired input expiredUnixMs engine other).states index = engine.states index := by
  simp only [takeExpired]
  split
  · rfl
  · split
    · simp [setState, Ne.symm ne]
    · rfl

/-- The due loop and the expiry loop, each job on its own. -/
theorem collectDue_eq_expiredState
    (completed : engine.collectDue zone input expiredUnixMs = .ok collected)
    (index : Fin configs.length) :
    ∃ marked, (engine.states index).Marked zone input marked ∧
      collected.states index = expiredState input (configs.get index) marked := by
  unfold collectDue at completed
  split at completed
  · cases completed
  · rename_i states statesOk
    cases completed
    have settled := Loop.foldl_finRange_slot (fun state : Engine configs => state.states index)
      (takeExpired input expiredUnixMs) index (expiredState input (configs.get index))
      takeExpired_states_self (fun state _ ne => takeExpired_states_of_ne ne state)
      { engine with states }
    generalize (List.finRange configs.length).foldl (takeExpired input expiredUnixMs)
      { engine with states } = finished at settled
    exact ⟨states index, JobState.marked_of_markDue (Loop.eq_ok_of_collect statesOk index),
      settled⟩

/-- The winner of the selection is eligible. -/
theorem isEligible_of_select {winner : Key configs} (selected : engine.select input = some winner) :
    (engine.states winner.2).isEligible input (configs.get winner.2) = true := by
  have everyTurn : ∀ (indices : List (Fin configs.length)) (current : Option (Key configs)),
      (∀ key ∈ current, (engine.states key.2).isEligible input (configs.get key.2) = true) →
      ∀ key ∈ indices.foldl (engine.selectTurn input) current,
        (engine.states key.2).isEligible input (configs.get key.2) = true := by
    intro indices
    induction indices with
    | nil => exact fun _ eligible => eligible
    | cons index rest ih =>
        intro current eligible
        apply ih
        intro key isKey
        simp only [selectTurn] at isKey
        split at isKey
        · exact eligible key isKey
        · split at isKey
          · rename_i isEligible
            split at isKey
            · cases isKey
              exact isEligible
            · exact eligible key isKey
          · exact eligible key isKey
  exact everyTurn _ none (by simp) winner selected

/-- A job whose gate is open is not deferred. -/
theorem deferBlockedBefore_states_of_admitted {winner : Option (Key configs)}
    (admitted : loadBlocked (configs.get index) input.load = false) :
    (engine.deferBlockedBefore winner input).states index = engine.states index := by
  have notBlocked : engine.isBlockedBefore winner input index = false := by
    simp only [isBlockedBefore, admitted, Bool.and_false]
    cases (engine.states index).pending <;> rfl
  simp only [deferBlockedBefore, notBlocked, Bool.false_eq_true, ↓reduceIte]

theorem not_loadBlocked_of_isEligible {state : JobState} {config : ScheduledJobConfig}
    (eligible : state.isEligible input config = true) :
    loadBlocked config input.load = false := by
  simp only [JobState.isEligible, Option.any_eq_true] at eligible
  rcases eligible with ⟨pending, -, decided⟩
  simp only [Bool.not_or, Bool.and_eq_true, Bool.not_eq_true'] at decided
  exact decided.2

/-- A launched job waits for nothing any more, under the decision that admitted it. -/
theorem admits_of_takeSlot {launch : Launch configs.length} {ticked : Engine configs}
    (launched : engine.takeSlot input = (some launch, ticked)) :
    (ticked.states launch.index).pending = none ∧
      ∀ gate ∈ (ticked.states launch.index).lastGate, gate.Admits := by
  cases selected : engine.select input with
  | none => simp [takeSlot, selected] at launched
  | some winner =>
      have admitted := not_loadBlocked_of_isEligible (isEligible_of_select selected)
      simp only [takeSlot, selected, Engine.launch] at launched
      split at launched
      · cases launched
      · cases launched
        simp only [setState, launchOf, Function.update_self, launchedState, true_and]
        exact fun gate decided => admits_of_not_loadBlocked admitted decided

end Engine

namespace Scheduler

variable {configs : List ScheduledJobConfig} {zone : LocalZone}
  {initial scheduler next : Scheduler configs} {event : SchedulerEvent configs.length}
  {index : Fin configs.length} {input : TickInput} {expiredUnixMs : Fin configs.length → ℕ}
  {spawn : SpawnResult} {spawnFailedUnixMs : ℕ}

section Ticks

/-- Every job is left alone, expired, deferred or launched by a tick, for the reason the gate
gave. -/
theorem gated_of_tick {launch : Option (Launch configs.length)} {ticked : Engine configs}
    (completed : scheduler.engine.tick zone input expiredUnixMs scheduler.active.isNone =
      .ok (launch, ticked)) (index : Fin configs.length) :
    (scheduler.engine.states index).Gated zone input (configs.get index) scheduler.active.isNone
      (ticked.states index) := by
  unfold Engine.tick at completed
  split at completed
  · cases completed
  · rename_i collected collectedOk
    rcases Engine.collectDue_eq_expiredState collectedOk index with ⟨marked, due, collectedIs⟩
    have untouched : (scheduler.engine.states index).Gated zone input (configs.get index)
        scheduler.active.isNone (collected.states index) := by
      rw [collectedIs, Engine.expiredState]
      split
      · rename_i isExpired
        exact .expires due isExpired
      · rename_i notExpired
        exact .waits due (Bool.eq_false_of_not_eq_true notExpired)
    have waitingKept : ∀ pending ∈ (collected.states index).pending,
        marked.isExpired input (configs.get index) = false ∧ collected.states index = marked := by
      intro pending waiting
      rw [collectedIs, Engine.expiredState] at waiting ⊢
      split at waiting
      · cases waiting
      · rename_i notExpired
        rw [if_neg notExpired]
        exact ⟨Bool.eq_false_of_not_eq_true notExpired, rfl⟩
    simp only [Except.ok.injEq] at completed
    split at completed
    · rename_i slotFree
      have isTicked : ticked = (collected.takeSlot input).2 := by rw [completed]
      rw [isTicked]
      have deferredOrLeft : (scheduler.engine.states index).Gated zone input (configs.get index)
          scheduler.active.isNone
          ((collected.deferBlockedBefore (collected.select input) input).states index) := by
        simp only [Engine.deferBlockedBefore]
        split
        · rename_i blocked
          simp only [Engine.isBlockedBefore, Option.any_eq_true, Bool.and_eq_true] at blocked
          rcases blocked with ⟨pending, waiting, -, blocked⟩
          rcases waitingKept pending waiting with ⟨kept, same⟩
          rw [same] at waiting ⊢
          exact .defers due (by rw [waiting]; rfl) kept slotFree blocked
        · exact untouched
      cases selected : collected.select input with
      | none =>
          rw [selected] at deferredOrLeft
          simpa only [Engine.takeSlot, selected] using deferredOrLeft
      | some winner =>
          rw [selected] at deferredOrLeft
          have eligible := Engine.isEligible_of_select selected
          simp only [Engine.takeSlot, selected, Engine.launch]
          split
          · exact deferredOrLeft
          · by_cases here : index = winner.2
            · subst here
              have admitted := Engine.not_loadBlocked_of_isEligible eligible
              simp only [JobState.isEligible, Option.any_eq_true] at eligible
              rcases eligible with ⟨pending, waiting, -⟩
              have notDeferred :
                  (collected.deferBlockedBefore (some winner) input).states winner.2 = marked := by
                rw [Engine.deferBlockedBefore_states_of_admitted admitted]
                exact (waitingKept pending waiting).2
              simp only [Engine.setState, Function.update_self]
              rw [notDeferred]
              exact .launches due slotFree admitted
            · simp only [Engine.setState, Function.update_of_ne here]
              exact deferredOrLeft
    · cases completed
      exact untouched

theorem gated_of_step (stepped : step zone scheduler
      (.tick input expiredUnixMs spawn spawnFailedUnixMs) = some next)
    (index : Fin configs.length) :
    (scheduler.engine.states index).Gated zone input (configs.get index) scheduler.active.isNone
      (next.engine.states index) := by
  simp only [step] at stepped
  split at stepped
  · cases stepped
  · rename_i completed
    cases stepped
    rw [afterTick_states]
    exact gated_of_tick completed index

/-- A tick makes a child only of an occurrence it launches, under the decision that admitted it. -/
theorem active_of_tick (stepped : step zone scheduler
      (.tick input expiredUnixMs spawn spawnFailedUnixMs) = some next) :
    next.active = scheduler.active ∨ scheduler.active = none ∧ ∃ child,
      next.active = some child ∧ (next.engine.states child.index).pending = none ∧
        ∀ gate ∈ (next.engine.states child.index).lastGate, gate.Admits := by
  simp only [step] at stepped
  split at stepped
  · cases stepped
  · rename_i launch ticked completed
    cases stepped
    cases launch with
    | none => exact .inl rfl
    | some launch =>
        simp only [afterTick, startLaunch]
        split
        · rename_i child created
          right
          have isIndex : child.index = launch.index := startChild_index created
          unfold Engine.tick at completed
          split at completed
          · cases completed
          · rename_i collected collectedOk
            simp only [Except.ok.injEq] at completed
            split at completed
            · rename_i slotFree
              refine ⟨by simpa using slotFree, _, rfl, ?_⟩
              rw [show (attachLaunch child launch).index = child.index from rfl, isIndex]
              exact Engine.admits_of_takeSlot completed
            · cases completed
        · exact .inl rfl

end Ticks

section Decisions

/-- Whose decision a job keeps: a waiting occurrence was refused and its job is not running, and a
running job was admitted. -/
structure GatesKept (scheduler : Scheduler configs) : Prop where
  waiting : ∀ index, (scheduler.engine.states index).pending.isSome = true →
    ∀ gate ∈ (scheduler.engine.states index).lastGate, gate.threshold.isFinite = true ∧
      gate.Refuses ∧ ∀ child ∈ scheduler.active, child.index ≠ index
  running : ∀ child ∈ scheduler.active, (scheduler.engine.states child.index).pending = none →
    ∀ gate ∈ (scheduler.engine.states child.index).lastGate, gate.Admits

/-- The decision a job without a waiting occurrence keeps is an admission. -/
def KeepsAdmissions (scheduler : Scheduler configs) : Prop :=
  ∀ index, (scheduler.engine.states index).pending = none →
    ∀ gate ∈ (scheduler.engine.states index).lastGate, gate.Admits

/-- A tick lets no occurrence expire that waits under a refusal with a reading. -/
def ExpiresNoRefusal (scheduler : Scheduler configs) : SchedulerEvent configs.length → Prop
  | .tick input _ _ _ => ∀ index,
      (scheduler.engine.states index).isExpired input (configs.get index) = true →
        ∀ gate ∈ (scheduler.engine.states index).lastGate, ¬gate.HasReading
  | .complete _ _ _ => True
  | .publish _ _ => True

theorem isSome_pending_of_isExpired {state : JobState} {config : ScheduledJobConfig}
    (isExpired : state.isExpired input config = true) : state.pending.isSome = true := by
  cases waiting : state.pending with
  | none => simp [JobState.isExpired, waiting] at isExpired
  | some pending => rfl

/-- The decision after a tick beside what it left waiting. -/
theorem gatesKept_of_gated {after : JobState} {slotFree : Bool}
    (accepted : (configs.get index).Accepted) (kept : scheduler.GatesKept)
    (gated : (scheduler.engine.states index).Gated zone input (configs.get index) slotFree after)
    (waiting : after.pending.isSome = true) {gate : SchedulerLoadGateV2}
    (decided : after.lastGate = some gate) :
    gate.threshold.isFinite = true ∧ gate.Refuses ∧
      (slotFree = false → ∀ child ∈ scheduler.active, child.index ≠ index) := by
  cases gated with
  | waits due _ =>
      cases due with
      | notDue _ =>
          rcases kept.waiting index waiting gate decided with ⟨finite, refuses, idle⟩
          exact ⟨finite, refuses, fun _ => idle⟩
      | coalesced _ before _ =>
          rcases kept.waiting index (by rw [before]; rfl) gate decided with ⟨finite, refuses, idle⟩
          exact ⟨finite, refuses, fun _ => idle⟩
      | made _ _ _ => cases decided
  | expires _ _ => cases waiting
  | defers _ _ _ slot blocked =>
      rcases refuses_of_loadBlocked accepted blocked decided with ⟨finite, refuses⟩
      exact ⟨finite, refuses, fun taken => by rw [slot] at taken; cases taken⟩
  | launches _ _ _ => cases waiting

/-- The decision after a tick beside no waiting occurrence is an admission, unless the tick let a
refused one expire. -/
theorem admits_iff_of_gated {after : JobState} {slotFree : Bool} (kept : scheduler.GatesKept)
    (admitted : (scheduler.engine.states index).pending = none →
      ∀ gate ∈ (scheduler.engine.states index).lastGate, gate.Admits)
    (gated : (scheduler.engine.states index).Gated zone input (configs.get index) slotFree after) :
    (after.pending = none → ∀ gate ∈ after.lastGate, gate.Admits) ↔
      ((scheduler.engine.states index).isExpired input (configs.get index) = true →
        ∀ gate ∈ (scheduler.engine.states index).lastGate, ¬gate.HasReading) := by
  have keptOf : ∀ {marked}, (scheduler.engine.states index).Marked zone input marked →
      marked.isExpired input (configs.get index) = false →
      (scheduler.engine.states index).isExpired input (configs.get index) = false := by
    intro marked due notExpired
    by_contra isExpired
    have isExpired := Bool.eq_true_of_not_eq_false isExpired
    have same := (due.isExpired_iff (configs.get index)
      (isSome_pending_of_isExpired isExpired)).1
    rw [notExpired, isExpired] at same
    cases same
  cases gated with
  | waits due notExpired =>
      constructor
      · intro _ isExpired
        rw [keptOf due notExpired] at isExpired
        cases isExpired
      · intro _ idle
        cases due with
        | notDue _ => exact admitted idle
        | coalesced _ _ _ => cases idle
        | made _ _ _ => cases idle
  | @expires marked due isExpired =>
      cases idle : (scheduler.engine.states index).pending with
      | none =>
          have notExpired : (scheduler.engine.states index).isExpired input
              (configs.get index) = false := by simp [JobState.isExpired, idle]
          constructor
          · intro _ expired
            rw [notExpired] at expired
            cases expired
          · intro _ _
            rcases due.lastGate_of_idle idle with rfl | undecided
            · exact admitted idle
            · simp [undecided]
      | some pending =>
          have isWaiting : (scheduler.engine.states index).pending.isSome = true := by
            rw [idle]
            rfl
          rcases due.isExpired_iff (configs.get index) isWaiting with ⟨same, -, sameGate⟩
          have gates : ∀ gate ∈ (scheduler.engine.states index).lastGate,
              gate.Admits ↔ ¬gate.HasReading := by
            intro gate decided
            rcases kept.waiting index isWaiting gate decided with ⟨finite, refuses, -⟩
            exact SchedulerLoadGateV2.admits_iff_of_refuses finite refuses
          constructor
          · intro admits _ gate decided
            apply (gates gate decided).mp
            exact admits rfl gate (sameGate.trans decided)
          · intro noReading _ gate decided
            have decided := sameGate.symm.trans decided
            apply (gates gate decided).mpr
            exact noReading (same.symm.trans isExpired) gate decided
  | @defers marked due isWaiting notExpired _ _ =>
      constructor
      · intro _ isExpired
        rw [keptOf due notExpired] at isExpired
        cases isExpired
      · intro _ idle
        have waits : marked.pending = none := by simpa [Engine.deferredState] using idle
        simp [waits] at isWaiting
  | launches _ _ admits =>
      constructor
      · intro _ isExpired
        rw [JobState.isExpired, admits] at isExpired
        cases isExpired
      · intro _ _ gate decided
        exact admits_of_not_loadBlocked admits decided

/-- The decisions kept after a step, and whether the ones of idle jobs are still admissions. -/
theorem keepsAdmissions_of_step (accepted : ∀ index, (configs.get index).Accepted)
    (kept : scheduler.GatesKept) (stepped : step zone scheduler event = some next) :
    next.GatesKept ∧ (scheduler.KeepsAdmissions →
      (next.KeepsAdmissions ↔ scheduler.ExpiresNoRefusal event)) := by
  cases event with
  | tick input expiredUnixMs spawn spawnFailedUnixMs =>
      have gated := gated_of_step stepped
      have active := active_of_tick stepped
      have keepsAt : scheduler.KeepsAdmissions → ∀ index,
          ((next.engine.states index).pending = none →
            ∀ gate ∈ (next.engine.states index).lastGate, gate.Admits) ↔
          ((scheduler.engine.states index).isExpired input (configs.get index) = true →
            ∀ gate ∈ (scheduler.engine.states index).lastGate, ¬gate.HasReading) :=
        fun admissions index => admits_iff_of_gated kept (admissions index) (gated index)
      refine ⟨⟨?_, ?_⟩, fun admissions => forall_congr' (keepsAt admissions)⟩
      · intro index isWaiting gate decided
        rcases gatesKept_of_gated (accepted index) kept (gated index) isWaiting decided with
          ⟨finite, refuses, notRunning⟩
        refine ⟨finite, refuses, ?_⟩
        intro child isActive
        rcases active with same | ⟨-, launched, isLaunched, noLonger, -⟩
        · rw [same] at isActive
          apply notRunning _ child isActive
          rw [Option.mem_def.mp isActive]
          rfl
        · rintro rfl
          cases isActive.symm.trans isLaunched
          simp [noLonger] at isWaiting
      · intro child isActive idle
        rcases active with same | ⟨-, launched, isLaunched, -, admits⟩
        · rw [same] at isActive
          apply (admits_iff_of_gated kept (kept.running child isActive) (gated child.index)).mpr _
            idle
          intro isExpired gate decided
          have isWaiting := isSome_pending_of_isExpired isExpired
          exact absurd rfl ((kept.waiting child.index isWaiting gate decided).2.2 child isActive)
        · cases isActive.symm.trans isLaunched
          exact admits
  | complete exit stdout stderr =>
      simp only [step] at stepped
      split at stepped
      · cases stepped
      · cases stepped
        refine ⟨⟨?_, by simp⟩, fun admissions => ⟨fun _ => trivial, fun _ => admissions⟩⟩
        intro index isWaiting gate decided
        rcases kept.waiting index isWaiting gate decided with ⟨finite, refuses, -⟩
        exact ⟨finite, refuses, by simp⟩
  | publish wallNow serializes =>
      cases stepped
      exact ⟨⟨kept.waiting, kept.running⟩,
        fun admissions => ⟨fun _ => trivial, fun _ => admissions⟩⟩

end Decisions

section GateRows

variable {inert : String → String}

/-- The rows a publication of this state carries. -/
def rows (scheduler : Scheduler configs) : List SchedulerJobV2 :=
  List.ofFn (scheduler.engine.publishedJob scheduler.running)

theorem rows_of_publish {wallNow : DateTime} {serializes : Bool}
    {publication : SchedulerPublication}
    (published : (scheduler.engine.publish wallNow scheduler.running serializes).1 =
      some publication) : publication.summary.jobs = scheduler.rows :=
  publish_jobs published

theorem gateTruthful_received_iff {job : SchedulerJobV2} :
    Tui.GateTruthful inert job.received ↔ ∀ gate ∈ job.load, ∀ observed ∈ gate.observed,
      observed.isFinite = true → Tui.stateRelation job.state gate.threshold observed := by
  rw [Tui.gateTruthful_iff]
  simp only [SchedulerJobV2.received, SchedulerLoadGateV2.received, Option.mem_def,
    Option.map_eq_some_iff, forall_exists_index, and_imp, forall_apply_eq_imp_iff₂,
    Option.filter_eq_some_iff]

/-- The rows are rendered truthfully exactly when the idle jobs keep admissions. -/
theorem gateTruthful_rows_iff (kept : scheduler.GatesKept) :
    (∀ row ∈ scheduler.rows, Tui.GateTruthful inert row.received) ↔
      scheduler.KeepsAdmissions := by
  simp only [rows, List.forall_mem_ofFn_iff]
  apply forall_congr'
  intro index
  rw [gateTruthful_received_iff]
  have shape := publishedJob_shape scheduler.engine scheduler.running index
  have holdsSlot : (scheduler.running.filter fun active => active.1 == index).isSome = true ↔
      ∃ child ∈ scheduler.active, child.index = index := runningHere_isSome_iff
  generalize (scheduler.running.filter fun active => active.1 == index).isSome = runningHere
    at shape holdsSlot
  have load : (scheduler.engine.publishedJob scheduler.running index).load =
      (scheduler.engine.states index).lastGate := rfl
  rw [load]
  generalize (scheduler.engine.publishedJob scheduler.running index).state = rowState at shape
  generalize (scheduler.engine.publishedJob scheduler.running index).nextRetryUnixMs = retry
    at shape
  cases shape with
  | running =>
      rcases holdsSlot.mp rfl with ⟨child, isActive, rfl⟩
      have admits : ∀ gate ∈ (scheduler.engine.states child.index).lastGate, gate.Admits := by
        intro gate decided
        cases waiting : (scheduler.engine.states child.index).pending with
        | none => exact kept.running child isActive waiting gate decided
        | some pending =>
            have elsewhere := (kept.waiting child.index (by rw [waiting]; rfl) gate decided).2.2
            exact absurd rfl (elsewhere child isActive)
      exact ⟨fun _ _ => admits, fun _ => admits⟩
  | idle noPending => exact ⟨fun compares _ => compares, fun admits => admits noPending⟩
  | waitingForSlot undecided => simp [undecided]
  | loadUnavailable waiting _ _ => simp [waiting, Tui.stateRelation]
  | loadHigh waiting decided _ =>
      have refuses := (kept.waiting index (by rw [waiting]; rfl) _ decided).2.1
      simp only [waiting, decided]
      constructor
      · intro _ impossible
        cases impossible
      · rintro - _ ⟨⟩
        exact refuses

/-- A publication carries the rows of the state it is made in, and in a run of the scheduler these
are always rendered truthfully exactly when no tick lets an occurrence expire that waits under a
refusal with a reading. -/
theorem everyState_gateTruthful_iff {config : Config} {platform : JobPlatform} {input : StartInput}
    {initial finish : Scheduler config.jobs} {events : List (SchedulerEvent config.jobs.length)}
    (accepted : config.validateFor platform = [])
    (started : start zone config.jobs input = .ok initial)
    (ran : Machine.run (step zone) initial events = some finish) :
    (∀ (scheduler : Scheduler config.jobs) wallNow serializes publication,
      (scheduler.engine.publish wallNow scheduler.running serializes).1 = some publication →
        publication.summary.jobs = scheduler.rows) ∧
    (Machine.EveryState (step zone) initial events (fun scheduler =>
        ∀ row ∈ scheduler.rows, Tui.GateTruthful inert row.received) ↔
      Machine.EveryStep (step zone) initial events ExpiresNoRefusal) := by
  refine ⟨fun _ _ _ _ published => rows_of_publish published, ?_⟩
  have jobAccepted : ∀ index, (config.jobs.get index).Accepted := fun index =>
    (Config.accepted_of_validateFor accepted).jobs _ (List.get_mem _ _)
  have idleAtStart : initial.GatesKept ∧ initial.KeepsAdmissions := by
    rcases start_eq_ok started with ⟨-, -, engine, -, states, rfl⟩
    have idle : ∀ index, (engine.states index).pending = none ∧
        (engine.states index).lastGate = none :=
      fun index => ⟨(initialState_eq_ok (states index)).1, (initialState_eq_ok (states index)).2.1⟩
    refine ⟨⟨?_, ?_⟩, ?_⟩
    · intro index isWaiting
      simp [(idle index).1] at isWaiting
    · rintro _ ⟨⟩
    · intro index _
      simp [(idle index).2]
  have kept : ∀ before scheduler, Machine.run (step zone) initial before = some scheduler →
      scheduler.GatesKept := by
    intro before scheduler ranBefore
    have runs : Machine.RunsTo (step zone) Machine.anyEvent initial scheduler :=
      Machine.runsTo_of_run ranBefore fun _ _ _ => trivial
    exact runs.invariant GatesKept idleAtStart.1
      fun state event next kept _ stepped => (keepsAdmissions_of_step jobAccepted kept stepped).1
  apply Machine.everyState_iff_everyStep_of_run ran
  · exact (gateTruthful_rows_iff idleAtStart.1).mpr idleAtStart.2
  · intro before scheduler event next _ ranBefore truthful stepped
    have keptHere := kept before scheduler ranBefore
    rcases keepsAdmissions_of_step jobAccepted keptHere stepped with ⟨keptNext, decides⟩
    rw [gateTruthful_rows_iff keptNext]
    exact decides ((gateTruthful_rows_iff keptHere).mp truthful)

/-- The load of five keeps deferring the job, so every state of the run is rendered truthfully. -/
theorem everyState_gateTruthful_deferred :
    ∃ initial finish : Scheduler (idleConfig "backup").jobs,
      Machine.run (step .utc) initial
        [.tick (busyWake 0) (fun _ => 0) (.failed "not reached") 0] = some finish ∧
      (Machine.EveryState (step .utc) initial
          [.tick (busyWake 0) (fun _ => 0) (.failed "not reached") 0] (fun scheduler =>
            ∀ row ∈ scheduler.rows, Tui.GateTruthful id row.received) ↔
        Machine.EveryStep (step .utc) initial
          [.tick (busyWake 0) (fun _ => 0) (.failed "not reached") 0] ExpiresNoRefusal) := by
  have deferred : ((start .utc (idleConfig "backup").jobs epochStart).toOption.bind fun initial =>
      (Machine.run (step .utc) initial
        [.tick (busyWake 0) (fun _ => 0) (.failed "not reached") 0]).map fun scheduler =>
          scheduler.rows.map (·.state)) = some [.loadHigh] := by
    decide +kernel
  rcases Option.bind_eq_some_iff.mp deferred with ⟨initial, started, deferred⟩
  rcases Option.map_eq_some_iff.mp deferred with ⟨finish, ran, -⟩
  have accepted : (idleConfig "backup").validateFor .unix = [] := by decide
  exact ⟨initial, finish, ran,
    (everyState_gateTruthful_iff accepted (eq_ok_of_toOption started) ran).2⟩

/-- A job that waits at most ten seconds for a load of at most one. -/
def impatientConfig (name : String) : Config :=
  { minutelyConfig name with
    jobs := [{ ScheduledJobConfig.hourlyWhenIdle name with
      retryIntervalMs := some 10000, maxWaitMs := some 10000 }] }

/-- After ten seconds under a load of five the occurrence expires, and the published row of the
now idle job is rendered as a last gate with five at most one. -/
theorem not_gateTruthful_expired :
    (impatientConfig "backup").validateFor .unix = [] ∧
    ∃ initial finish : Scheduler (impatientConfig "backup").jobs, ∃ publication row label,
      start .utc (impatientConfig "backup").jobs epochStart = .ok initial ∧
      Machine.run (step .utc) initial
        [.tick (busyWake 0) (fun _ => 0) (.failed "not reached") 0, .publish 0 true,
          .tick (busyWake 10000000000) (fun _ => 0) (.failed "not reached") 0] = some finish ∧
      (finish.engine.publish 0 finish.running true).1 = some publication ∧
      publication.summary.jobs = [row] ∧
      Tui.loadGateLabel id row.received = some label ∧
      label.relation = .atMost (.finite 5) ∧ label.threshold = .finite 1 ∧
      ¬Tui.GateTruthful id row.received := by
  refine ⟨by decide, ?_⟩
  have expired : ((start .utc (impatientConfig "backup").jobs epochStart).toOption.bind
      fun initial =>
        (Machine.run (step .utc) initial
          [.tick (busyWake 0) (fun _ => 0) (.failed "not reached") 0, .publish 0 true,
            .tick (busyWake 10000000000) (fun _ => 0) (.failed "not reached") 0]).bind
          fun finish => (finish.engine.publish 0 finish.running true).1.map fun publication =>
            publication.summary.jobs.map fun row => (Tui.loadGateLabel id row.received).map
              fun label => (label.relation, label.threshold)) =
      some [some (.atMost (.finite 5), .finite 1)] := by
    decide +kernel
  rcases Option.bind_eq_some_iff.mp expired with ⟨initial, started, expired⟩
  rcases Option.bind_eq_some_iff.mp expired with ⟨finish, ran, expired⟩
  rcases Option.map_eq_some_iff.mp expired with ⟨publication, published, expired⟩
  rcases List.map_eq_singleton_iff.mp expired with ⟨row, isRow, expired⟩
  rcases Option.map_eq_some_iff.mp expired with ⟨label, isLabel, relations⟩
  rcases Prod.mk.inj relations with ⟨relation, threshold⟩
  refine ⟨initial, finish, publication, row, label, eq_ok_of_toOption started, ran, published,
    isRow, isLabel, relation, threshold, ?_⟩
  intro truthful
  cases load : row.received.load with
  | none => simp [Tui.loadGateLabel, load] at isLabel
  | some gate =>
      have said := truthful gate load label isLabel
      have compares := (said.atMost _ relation).2
      rw [← said.threshold, threshold] at compares
      exact absurd compares (by decide)

end GateRows

end Scheduler

end Gregg
