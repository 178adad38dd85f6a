import Mathlib.Data.List.Induction
import Mathlib.Order.Basic

/-!
# Partial deterministic machines

A machine is a step function that may refuse an event. A run takes events one after the other,
each admissible in the state it finds; an invariant is established once and then holds in every
state a run reaches. Where it matters which events a run took, and in which order, the run of a
list of events is the same thing as a computation.
-/

namespace Machine

universe u v w

variable {State : Type u} {Event : Type v}

/-- The states reached from `start` by steps that each satisfy `admissible`. -/
inductive RunsTo (step : State → Event → Option State) (admissible : State → Event → Prop)
    (start : State) : State → Prop where
  | refl : RunsTo step admissible start start
  | snoc {state next : State} (before : RunsTo step admissible start state) (event : Event)
      (allowed : admissible state event) (stepped : step state event = some next) :
      RunsTo step admissible start next

/-- No condition on the steps of a run. -/
def anyEvent : State → Event → Prop := fun _ _ => True

variable {step : State → Event → Option State} {admissible : State → Event → Prop}
  {start finish : State}

/-- Every step keeps the invariant, so every reached state has it. -/
theorem RunsTo.invariant (holds : State → Prop) (runs : RunsTo step admissible start finish)
    (initially : holds start)
    (preserved : ∀ state event next, holds state → admissible state event →
      step state event = some next → holds next) : holds finish := by
  induction runs with
  | refl => exact initially
  | snoc _ event allowed stepped ih => exact preserved _ event _ ih allowed stepped

/-- An invariant may be used in showing that another one is kept. -/
theorem RunsTo.invariant_of {known holds : State → Prop}
    (runs : RunsTo step admissible start finish)
    (knownAlways : ∀ {state}, RunsTo step admissible start state → known state)
    (initially : holds start)
    (preserved : ∀ state event next, known state → holds state → admissible state event →
      step state event = some next → holds next) : holds finish := by
  induction runs with
  | refl => exact initially
  | snoc before event allowed stepped ih =>
      exact preserved _ event _ (knownAlways before) ih allowed stepped

theorem RunsTo.single {next : State} (event : Event) (allowed : admissible start event)
    (stepped : step start event = some next) : RunsTo step admissible start next :=
  RunsTo.refl.snoc event allowed stepped

theorem RunsTo.trans {middle : State} (first : RunsTo step admissible start middle)
    (second : RunsTo step admissible middle finish) : RunsTo step admissible start finish := by
  induction second with
  | refl => exact first
  | snoc _ event allowed stepped ih => exact ih.snoc event allowed stepped

/-- The state after a list of events, `none` when one of them is refused. -/
def run (step : State → Event → Option State) : State → List Event → Option State
  | state, [] => some state
  | state, event :: events => (step state event).bind fun next => run step next events

variable {state next : State} {event : Event} {events : List Event}

theorem run_append (before after : List Event) :
    run step start (before ++ after) =
      (run step start before).bind fun state => run step state after := by
  induction before generalizing start with
  | nil => rfl
  | cons event before ih =>
      simp only [List.cons_append, run]
      cases step start event with
      | none => rfl
      | some next => exact ih

theorem run_append_singleton (ran : run step start events = some state) (event : Event) :
    run step start (events ++ [event]) = step state event := by
  rw [run_append, ran, Option.bind_some, run]
  cases step state event with
  | none => rfl
  | some next => rfl

/-- Events that are admissible everywhere make a run. -/
theorem runsTo_of_run (ran : run step start events = some finish)
    (allowed : ∀ event ∈ events, ∀ state, admissible state event) :
    RunsTo step admissible start finish := by
  induction events generalizing start with
  | nil =>
      cases ran
      exact .refl
  | cons event events ih =>
      rcases Option.bind_eq_some_iff.mp ran with ⟨next, stepped, ranAfter⟩
      have first : RunsTo step admissible start next :=
        .single event (allowed event (by simp) start) stepped
      apply first.trans
      apply ih ranAfter
      intro later member
      exact allowed later (by simp [member])

theorem run_induction (holds : List Event → State → Prop)
    (ran : run step start events = some finish) (initially : holds [] start)
    (preserved : ∀ events state event next, run step start events = some state →
      holds events state → step state event = some next → holds (events ++ [event]) next) :
    holds events finish := by
  induction events using List.reverseRecOn generalizing finish with
  | nil =>
      cases ran
      exact initially
  | append_singleton events event ih =>
      rw [run_append] at ran
      rcases Option.bind_eq_some_iff.mp ran with ⟨state, ranBefore, stepped⟩
      rw [run] at stepped
      rcases Option.bind_eq_some_iff.mp stepped with ⟨next, stepped, ⟨⟩⟩
      exact preserved events state event finish ranBefore (ih ranBefore) stepped

/-- What the steps of a run say, each of them in the state that it finds. -/
def outputs {Output : Type w} (step : State → Event → Option State)
    (output : State → Event → List Output) : State → List Event → List Output
  | _, [] => []
  | state, event :: events =>
      output state event ++ (step state event).elim [] fun next => outputs step output next events

theorem outputs_append_singleton {Output : Type w} {output : State → Event → List Output}
    (ran : run step start events = some state) (event : Event) :
    outputs step output start (events ++ [event]) =
      outputs step output start events ++ output state event := by
  induction events generalizing start with
  | nil =>
      cases ran
      simp only [List.nil_append, outputs]
      cases step state event <;> exact List.append_nil _
  | cons first events ih =>
      rcases Option.bind_eq_some_iff.mp ran with ⟨next, stepped, ranAfter⟩
      simp only [List.cons_append, outputs, stepped, Option.elim_some, ih ranAfter,
        List.append_assoc]

theorem split_append_singleton {before after : List Event} {last : Event} :
    events ++ [last] = before ++ event :: after ↔
      (after = [] ∧ events = before ∧ last = event) ∨
        ∃ later, after = later ++ [last] ∧ events = before ++ event :: later := by
  rcases List.eq_nil_or_concat after with rfl | ⟨later, final, rfl⟩
  · constructor
    · intro same
      left
      rcases List.append_inj' same rfl with ⟨rfl, ⟨⟩⟩
      exact ⟨rfl, rfl, rfl⟩
    · rintro (⟨-, rfl, rfl⟩ | ⟨later, impossible, -⟩)
      · rfl
      · simp at impossible
  · rw [List.concat_eq_append]
    constructor
    · intro same
      right
      rw [← List.cons_append, ← List.append_assoc] at same
      rcases List.append_inj' same rfl with ⟨rfl, ⟨⟩⟩
      exact ⟨later, rfl, rfl⟩
    · rintro (⟨impossible, -, -⟩ | ⟨other, same, rfl⟩)
      · simp at impossible
      · rw [same]
        simp

section RunConditions

variable {condition : State → Event → Prop} {isKind : Event → Bool}

/-- Every event of a run meets a condition in the state it finds. -/
def EveryStep (step : State → Event → Option State) (start : State) (events : List Event)
    (condition : State → Event → Prop) : Prop :=
  ∀ before event after state, events = before ++ event :: after →
    run step start before = some state → condition state event

/-- The last event of a kind, if there is one, meets a condition in the state it finds. -/
def LastStep (step : State → Event → Option State) (start : State) (events : List Event)
    (isKind : Event → Bool) (condition : State → Event → Prop) : Prop :=
  ∀ before event after state, events = before ++ event :: after → isKind event = true →
    (∀ later ∈ after, isKind later = false) → run step start before = some state →
    condition state event

/-- Every state a run goes through has a property. -/
def EveryState (step : State → Event → Option State) (start : State) (events : List Event)
    (holds : State → Prop) : Prop :=
  ∀ before after state, events = before ++ after → run step start before = some state → holds state

/-- What every step that meets the condition keeps, a run whose steps all meet it has throughout. -/
theorem EveryStep.invariant {holds : State → Prop}
    (everyStep : EveryStep step start events condition) (initially : holds start)
    (preserved : ∀ state event next, holds state → condition state event →
      step state event = some next → holds next) : EveryState step start events holds := by
  intro before
  induction before using List.reverseRecOn with
  | nil =>
      rintro _ _ - ⟨⟩
      exact initially
  | append_singleton before event ih =>
      intro after next split ranNext
      rw [List.append_assoc, List.singleton_append] at split
      rw [run_append] at ranNext
      rcases Option.bind_eq_some_iff.mp ranNext with ⟨state, ranBefore, ranLast⟩
      rw [run] at ranLast
      rcases Option.bind_eq_some_iff.mp ranLast with ⟨last, stepped, ⟨⟩⟩
      have held := ih (event :: after) state split ranBefore
      exact preserved state event next held (everyStep before event after state split ranBefore)
        stepped

/-- Where the condition decides whether a step keeps the property, the runs whose steps all meet
it are the runs that have the property throughout. -/
theorem everyState_iff_everyStep {holds : State → Prop} (initially : holds start)
    (decides : ∀ state event next, holds state → step state event = some next →
      (holds next ↔ condition state event))
    (refused : ∀ state event, step state event = none → condition state event) :
    EveryState step start events holds ↔ EveryStep step start events condition := by
  constructor
  · intro everyState before event after state split ranBefore
    cases stepped : step state event with
    | none => exact refused state event stepped
    | some next =>
        have held := everyState before (event :: after) state split ranBefore
        apply (decides state event next held stepped).mp
        apply everyState (before ++ [event]) after
        · rw [split, List.append_assoc, List.singleton_append]
        · rw [run_append_singleton ranBefore, stepped]
  · intro everyStep
    apply everyStep.invariant initially
    intro state event next held met stepped
    exact (decides state event next held stepped).mpr met

/-- The same for a run that took all its events; a step is looked at in a state that was reached. -/
theorem everyState_iff_everyStep_of_run {holds : State → Prop}
    (ran : run step start events = some finish) (initially : holds start)
    (decides : ∀ before state event next, event ∈ events → run step start before = some state →
      holds state → step state event = some next → (holds next ↔ condition state event)) :
    EveryState step start events holds ↔ EveryStep step start events condition := by
  have stepsOn : ∀ before event after state, events = before ++ event :: after →
      run step start before = some state →
      ∃ next, step state event = some next ∧ run step start (before ++ [event]) = some next := by
    intro before event after state split ranBefore
    rw [split, run_append, ranBefore, Option.bind_some, run] at ran
    rcases Option.bind_eq_some_iff.mp ran with ⟨next, stepped, -⟩
    exact ⟨next, stepped, (run_append_singleton ranBefore event).trans stepped⟩
  constructor
  · intro everyState before event after state split ranBefore
    have held := everyState before (event :: after) state split ranBefore
    rcases stepsOn before event after state split ranBefore with ⟨next, stepped, ranNext⟩
    apply (decides before state event next (by simp [split]) ranBefore held stepped).mp
    apply everyState (before ++ [event]) after next _ ranNext
    rw [split, List.append_assoc, List.singleton_append]
  · intro everyStep before
    induction before using List.reverseRecOn with
    | nil =>
        rintro _ _ - ⟨⟩
        exact initially
    | append_singleton before event ih =>
        intro after next split ranNext
        rw [List.append_assoc, List.singleton_append] at split
        rw [run_append] at ranNext
        rcases Option.bind_eq_some_iff.mp ranNext with ⟨state, ranBefore, ranLast⟩
        rw [run] at ranLast
        rcases Option.bind_eq_some_iff.mp ranLast with ⟨last, stepped, ⟨⟩⟩
        have held := ih (event :: after) state split ranBefore
        have met := everyStep before event after state split ranBefore
        have isEvent : event ∈ events := by simp [split]
        exact (decides before state event next isEvent ranBefore held stepped).mpr met

theorem everyStep_nil : EveryStep step start [] condition := by
  intro before event after state impossible
  simp at impossible

theorem lastStep_nil : LastStep step start [] isKind condition := by
  intro before event after state impossible
  simp at impossible

theorem everyStep_cons :
    EveryStep step start (event :: events) condition ↔
      condition start event ∧
        ∀ next, step start event = some next → EveryStep step next events condition := by
  constructor
  · intro everyStep
    refine ⟨everyStep [] event events start rfl rfl, ?_⟩
    intro next stepped before later after state split ranBefore
    apply everyStep (event :: before) later after state (by rw [split, List.cons_append])
    rw [run, stepped]
    exact ranBefore
  · rintro ⟨here, everyNext⟩ before later after state split ranBefore
    cases before with
    | nil =>
        cases ranBefore
        cases split
        exact here
    | cons first before =>
        cases split
        rcases Option.bind_eq_some_iff.mp ranBefore with ⟨next, stepped, ranBefore⟩
        exact everyNext next stepped before later after state rfl ranBefore

/-- Whether every event of a run meets a condition is found by running it. -/
instance decidableEveryStep [∀ state event, Decidable (condition state event)] :
    (start : State) → (events : List Event) → Decidable (EveryStep step start events condition)
  | _, [] => isTrue everyStep_nil
  | start, event :: events =>
      match stepped : step start event with
      | none => decidable_of_iff (condition start event) (by simp [everyStep_cons, stepped])
      | some next =>
          have := decidableEveryStep next events
          decidable_of_iff (condition start event ∧ EveryStep step next events condition)
            (by simp [everyStep_cons, stepped])

/-- Conditions that agree wherever a run gets to are met by the same runs. -/
theorem everyStep_congr {other : State → Event → Prop}
    (agree : ∀ before event state, run step start before = some state →
      (condition state event ↔ other state event)) :
    EveryStep step start events condition ↔ EveryStep step start events other := by
  constructor
  · intro everyStep before event after state split ranBefore
    exact (agree before event state ranBefore).mp
      (everyStep before event after state split ranBefore)
  · intro everyStep before event after state split ranBefore
    exact (agree before event state ranBefore).mpr
      (everyStep before event after state split ranBefore)

theorem everyStep_append_singleton (ran : run step start events = some state) :
    EveryStep step start (events ++ [event]) condition ↔
      EveryStep step start events condition ∧ condition state event := by
  constructor
  · intro everyStep
    refine ⟨?_, everyStep events event [] state rfl ran⟩
    intro before other after found split
    apply everyStep before other (after ++ [event]) found
    rw [split, List.append_assoc, List.cons_append]
  · rintro ⟨everyStep, here⟩ before other after found split ranBefore
    rcases split_append_singleton.mp split with ⟨-, rfl, rfl⟩ | ⟨later, -, splitBefore⟩
    · cases ran.symm.trans ranBefore
      exact here
    · exact everyStep before other later found splitBefore ranBefore

theorem lastStep_append_of_kind (ran : run step start events = some state)
    (isLast : isKind event = true) :
    LastStep step start (events ++ [event]) isKind condition ↔ condition state event := by
  constructor
  · intro lastStep
    exact lastStep events event [] state rfl isLast (by simp) ran
  · intro here before other after found split _ noneAfter ranBefore
    rcases split_append_singleton.mp split with ⟨-, rfl, rfl⟩ | ⟨later, rfl, -⟩
    · cases ran.symm.trans ranBefore
      exact here
    · have notLast := noneAfter event (by simp)
      rw [isLast] at notLast
      cases notLast

theorem lastStep_append_of_other (isOther : isKind event = false) :
    LastStep step start (events ++ [event]) isKind condition ↔
      LastStep step start events isKind condition := by
  constructor
  · intro lastStep before other after found split isLast noneAfter
    apply lastStep before other (after ++ [event]) found _ isLast
    · intro later member
      rcases List.mem_append.mp member with earlier | new
      · exact noneAfter later earlier
      · rwa [List.mem_singleton.mp new]
    · rw [split, List.append_assoc, List.cons_append]
  · intro lastStep before other after found split isLast noneAfter
    rcases split_append_singleton.mp split with ⟨-, -, rfl⟩ | ⟨later, rfl, splitBefore⟩
    · rw [isOther] at isLast
      cases isLast
    · apply lastStep before other later found splitBefore isLast
      intro earlier member
      exact noneAfter earlier (by simp [member])

end RunConditions

end Machine
