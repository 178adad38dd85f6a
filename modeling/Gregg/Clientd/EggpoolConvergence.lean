import Gregg.Lib.Machine
import Gregg.Clientd.Engine

/-!
# The engine drives its worker with what it will accept

After a reduce tick the worker works on the window and the generation that the fleet expects a
result for, and the pane says that it is refreshing only while a frontend has it open. Two things
break this: the departure of the last frontend with the pane open while it is refreshing, and a
generation counter that has run out.
-/

namespace Gregg.Clientd

open Eggpool (EggpoolDesiredState EggpoolResult)

namespace EggpoolIntents

variable {intents : EggpoolIntents} {id : ℕ} {active : Bool} {period fallback : EggpoolPeriod}

theorem anyActive_iff :
    intents.anyActive = true ↔
      ∃ id intent, intents.get id = some intent ∧ intent.active = true := by
  simp only [anyActive, values, List.any_map, List.any_eq_true, Function.comp_apply]
  constructor
  · rintro ⟨⟨id, intent⟩, member, active⟩
    exact ⟨id, intent, AList.mem_lookup_iff.mpr member, active⟩
  · rintro ⟨id, intent, found, active⟩
    exact ⟨⟨id, intent⟩, AList.mem_lookup_iff.mp found, active⟩

theorem anyActive_set_same (same : intents.get id = some ⟨active, period⟩) :
    (intents.set id active period).1.anyActive = intents.anyActive := by
  rw [Bool.eq_iff_iff, anyActive_iff, anyActive_iff]
  have entries : ∀ other, (intents.set id active period).1.get other = intents.get other := by
    intro other
    by_cases isIt : other = id
    · rw [isIt, get_set, same]
    · exact get_set_ne isIt
  simp only [entries]

theorem values_set_absent (absent : intents.get id = none) :
    (intents.set id active period).1.values = ⟨active, period⟩ :: intents.values := by
  have notMem : id ∉ intents.entries := AList.lookup_eq_none.mp absent
  simp [values, set, AList.insert_of_notMem notMem]

theorem anyActive_set_attach (absent : intents.get id = none) :
    (intents.set id false period).1.anyActive = intents.anyActive := by
  simp [anyActive, values_set_absent absent]

theorem convergedPeriod_set_attach (absent : intents.get id = none) :
    (intents.set id false period).1.convergedPeriod fallback =
      intents.convergedPeriod fallback := by
  simp [convergedPeriod, values_set_absent absent]

theorem convergedPeriod_of_inactive (inactive : intents.anyActive = false) :
    intents.convergedPeriod fallback = fallback := by
  have none_ : intents.values.filter (fun intent => intent.active) = [] := by
    rw [List.filter_eq_nil_iff]
    intro intent member active
    have found : intents.anyActive = true := List.any_eq_true.mpr ⟨intent, member, active⟩
    rw [inactive] at found
    cases found
  simp [convergedPeriod, none_]

@[simp]
theorem convergedPeriod_convergedPeriod :
    intents.convergedPeriod (intents.convergedPeriod fallback) =
      intents.convergedPeriod fallback := by
  unfold convergedPeriod
  cases ((intents.values.filter fun intent => intent.active).map fun intent =>
    intent.period).min? with
  | none => rfl
  | some shortest => rfl

end EggpoolIntents

namespace EggpoolState

variable {Entry Summary Health : Type} {eggpool : EggpoolState Entry Summary Health}
  {intents : EggpoolIntents}

/-- The entry after its window has followed the intents, with a new request if it moved. -/
def followed (eggpool : EggpoolState Entry Summary Health) (intents : EggpoolIntents) :
    EggpoolState Entry Summary Health :=
  if eggpool.period = intents.convergedPeriod eggpool.period then eggpool
  else
    { eggpool with
      period := intents.convergedPeriod eggpool.period
      summary := none
      lastError := none
      requestGeneration := satAdd eggpool.requestGeneration 1
      workerState := if intents.anyActive then .refreshing else .idle }

@[simp]
theorem endpoint_followed : (eggpool.followed intents).endpoint = eggpool.endpoint := by
  unfold followed
  split <;> rfl

theorem period_followed :
    (eggpool.followed intents).period = intents.convergedPeriod eggpool.period := by
  unfold followed
  split
  · assumption
  · rfl

/-- The window that was followed is the one the intents still ask for. -/
theorem desiredState_followed : ((eggpool.followed intents).desiredState intents).period =
    (eggpool.followed intents).period := by
  simp [desiredState, period_followed]

theorem refreshing_followed (open_ : eggpool.workerState = .refreshing → intents.anyActive = true)
    (refreshing : (eggpool.followed intents).workerState = .refreshing) :
    intents.anyActive = true := by
  unfold followed at refreshing
  split at refreshing
  · exact open_ refreshing
  · by_contra closed
    simp [closed] at refreshing

theorem followed_of_inactive (inactive : intents.anyActive = false) :
    eggpool.followed intents = eggpool :=
  if_pos (EggpoolIntents.convergedPeriod_of_inactive inactive).symm

end EggpoolState

namespace FleetState

variable {Entry Summary Health : Type} {fleet : FleetState Entry Summary Health}
  {eggpool : EggpoolState Entry Summary Health}

theorem eq_of_eggpool (here : fleet.eggpool = some eggpool) : fleet = ⟨some eggpool⟩ := by
  cases fleet
  exact congrArg mk here

variable [DecidableEq Summary] [DecidableEq Health] {result : EggpoolResult Summary Health}

theorem applySummary_applyHealth (eggpool : EggpoolState Entry Summary Health)
    (result : EggpoolResult Summary Health) :
    let applied := ((eggpool.applySummary result).1.applyHealth result).1
    applied.endpoint = eggpool.endpoint ∧ applied.period = eggpool.period ∧
      applied.requestGeneration = eggpool.requestGeneration ∧
      applied.workerState = eggpool.workerState := by
  unfold EggpoolState.applyHealth EggpoolState.applySummary
  split <;> split <;> exact ⟨rfl, rfl, rfl, rfl⟩

/-- A result is dropped, or it leaves the entry idle with the request it had. -/
theorem applyEggpoolResultChanged_cases (fleet : FleetState Entry Summary Health)
    (result : EggpoolResult Summary Health) :
    (fleet.applyEggpoolResultChanged result).1 = fleet ∨
      ∃ before after, fleet.eggpool = some before ∧
        (fleet.applyEggpoolResultChanged result).1.eggpool = some after ∧
        after.endpoint = before.endpoint ∧ after.period = before.period ∧
        after.requestGeneration = before.requestGeneration ∧ after.workerState = .idle := by
  unfold applyEggpoolResultChanged
  split
  · exact .inl rfl
  · rename_i before here
    split
    · exact .inl rfl
    · right
      dsimp only
      split
      · exact ⟨before, _, here, rfl, rfl, rfl, rfl, rfl⟩
      · rcases applySummary_applyHealth { before with workerState := .idle } result with
          ⟨endpoint, period, generation, idle⟩
        exact ⟨before, _, here, rfl, endpoint, period, generation, idle⟩

end FleetState

namespace Engine

variable {Entry Summary Health : Type} {engine next : Engine Entry Summary Health}
  {eggpool : EggpoolState Entry Summary Health} {worker : EggpoolWorkerHandle Entry}
  {desired : EggpoolDesiredState}

/-- The worker is driven with the request the fleet expects a result for, and only an open pane is
refreshing. -/
structure Driven (engine : Engine Entry Summary Health)
    (eggpool : EggpoolState Entry Summary Health) (worker : EggpoolWorkerHandle Entry) : Prop where
  period : worker.published.period = eggpool.period
  generation : worker.published.generation = eggpool.requestGeneration
  refreshing : eggpool.workerState = .refreshing → engine.intents.anyActive = true

/-- What the engine knows of its worker: it was spawned for the configured entry, it was last driven
with the memo, and a request begun since then has another generation. -/
structure Wired (engine : Engine Entry Summary Health) : Prop where
  endpoint : (engine.eggpoolWorker.map fun worker => worker.endpoint) =
    engine.fleet.eggpool.map fun eggpool => eggpool.endpoint
  spawned : ∀ desired, engine.converged = some desired → engine.eggpoolWorker.isSome
  driven : ∀ desired worker, engine.converged = some desired →
    engine.eggpoolWorker = some worker → worker.live = true → worker.published = desired
  begun : ∀ desired eggpool, engine.converged = some desired →
    engine.fleet.eggpool = some eggpool →
      desired.generation < eggpool.requestGeneration ∨
        (desired.generation = eggpool.requestGeneration ∧ desired.period = eggpool.period) ∨
        eggpool.requestGeneration = u64Max

/-- What the next tick needs to find while the worker is live. -/
def Ready (engine : Engine Entry Summary Health) (intents : EggpoolIntents) : Prop :=
  ∀ eggpool worker, engine.fleet.eggpool = some eggpool →
    engine.eggpoolWorker = some worker → worker.live = true →
      (eggpool.workerState = .refreshing → intents.anyActive = true) ∧
        (engine.converged = some (eggpool.desiredState intents) →
          eggpool.period = intents.convergedPeriod eggpool.period)

theorem reduceIntents_eq (here : engine.fleet.eggpool = some eggpool)
    (wired : engine.eggpoolWorker = some worker) :
    engine.reduceIntents.1 =
      if engine.converged = some (eggpool.desiredState engine.intents) then engine
      else if worker.live then
        { engine with
          fleet := ⟨some (eggpool.followed engine.intents)⟩
          converged := some ((eggpool.followed engine.intents).desiredState engine.intents)
          eggpoolWorker := some { worker with
            published := (eggpool.followed engine.intents).desiredState engine.intents } }
      else
        { engine with
          fleet := ⟨some { eggpool.followed engine.intents with
            workerState := .workerUnavailable }⟩
          converged := some ((eggpool.followed engine.intents).desiredState engine.intents) } := by
  have fleetIs := FleetState.eq_of_eggpool here
  unfold reduceIntents EggpoolState.followed
  simp only [fleetIs, wired, FleetState.eggpoolDesiredState, Option.map_some]
  by_cases memo : engine.converged = some (eggpool.desiredState engine.intents)
  · rw [if_pos memo, if_pos memo]
  · rw [if_neg memo, if_neg memo]
    by_cases same : eggpool.period = engine.intents.convergedPeriod eggpool.period
    · have kept : eggpool.period = (eggpool.desiredState engine.intents).period := same
      simp only [FleetState.setEggpoolPeriod, if_pos kept, if_pos same, Option.map_some,
        Option.getD_some, Bool.false_eq_true, if_false]
      cases worker.live with
      | true => rfl
      | false => rfl
    · have moved : ¬eggpool.period = (eggpool.desiredState engine.intents).period := same
      simp only [FleetState.setEggpoolPeriod, if_neg moved, if_neg same, Option.map_some,
        Option.getD_some, if_true, FleetState.beginEggpoolRequest]
      cases worker.live with
      | true => rfl
      | false => rfl

theorem reduceIntents_of_none
    (none_ : engine.fleet.eggpool = none ∨ engine.eggpoolWorker = none) :
    engine.reduceIntents.1 = engine := by
  unfold reduceIntents
  split
  · rename_i worker desired isWorker isDesired
    rcases none_ with noEntry | noWorker
    · simp [FleetState.eggpoolDesiredState, noEntry] at isDesired
    · rw [noWorker] at isWorker
      cases isWorker
  · rfl

theorem Wired.entry_of_worker (wired : engine.Wired)
    (isWorker : engine.eggpoolWorker = some worker) :
    ∃ eggpool, engine.fleet.eggpool = some eggpool := by
  rw [← Option.isSome_iff_exists, ← Option.isSome_map, ← wired.endpoint, Option.isSome_map]
  exact Option.isSome_of_eq_some isWorker

theorem Wired.entry_of_memo (wired : engine.Wired) (memo : engine.converged = some desired) :
    ∃ eggpool, engine.fleet.eggpool = some eggpool := by
  rcases Option.isSome_iff_exists.mp (wired.spawned desired memo) with ⟨worker, isWorker⟩
  exact wired.entry_of_worker isWorker

theorem Wired.worker_of_entry (wired : engine.Wired) (here : engine.fleet.eggpool = some eggpool) :
    ∃ worker, engine.eggpoolWorker = some worker := by
  rw [← Option.isSome_iff_exists, ← Option.isSome_map, wired.endpoint, Option.isSome_map]
  exact Option.isSome_of_eq_some here

theorem wired_reduceIntents (wired : engine.Wired) : engine.reduceIntents.1.Wired := by
  cases here : engine.fleet.eggpool with
  | none =>
      rw [reduceIntents_of_none (.inl here)]
      exact wired
  | some eggpool =>
      cases isWorker : engine.eggpoolWorker with
      | none =>
          rw [reduceIntents_of_none (.inr isWorker)]
          exact wired
      | some worker =>
          have endpoint := wired.endpoint
          simp only [here, isWorker, Option.map_some, Option.some.injEq] at endpoint
          rw [reduceIntents_eq here isWorker]
          split
          · exact wired
          · split
            · refine ⟨?_, ?_, ?_, ?_⟩
              · simpa using endpoint
              · intro _ _
                rfl
              · rintro _ _ ⟨⟩ ⟨⟩ _
                rfl
              · rintro _ _ ⟨⟩ ⟨⟩
                exact .inr (.inl ⟨rfl, EggpoolState.desiredState_followed⟩)
            · rename_i dead
              refine ⟨?_, ?_, ?_, ?_⟩
              · simpa [isWorker] using endpoint
              · intro _ _
                simp [isWorker]
              · intro _ found _ isFound live
                rw [isWorker] at isFound
                cases isFound
                exact absurd live dead
              · rintro _ _ ⟨⟩ ⟨⟩
                exact .inr (.inl ⟨rfl, EggpoolState.desiredState_followed⟩)

/-- The entry after a frontend's intent: its window is the reduced one, and either a new request was
begun or the intent was the one it had. -/
theorem setEggpoolIntent_eggpool {subscriber : ℕ} {active : Bool} {period : EggpoolPeriod}
    {refresh : Bool} (here : engine.fleet.eggpool = some eggpool) :
    ∃ after, (engine.setEggpoolIntent subscriber active period refresh).fleet.eggpool =
        some after ∧ after.endpoint = eggpool.endpoint ∧
      after.period =
        (engine.intents.set subscriber active period).1.convergedPeriod eggpool.period ∧
      ((after.requestGeneration = satAdd eggpool.requestGeneration 1 ∧
          (after.workerState = .refreshing →
            (engine.intents.set subscriber active period).1.anyActive = true)) ∨
        (after = eggpool ∧ engine.intents.get subscriber = some ⟨active, period⟩)) := by
  have fleetIs := FleetState.eq_of_eggpool here
  unfold setEggpoolIntent
  simp only [fleetIs, FleetState.eggpoolDesiredState, Option.map_some, FleetState.setEggpoolPeriod]
  by_cases same : eggpool.period =
      (eggpool.desiredState (engine.intents.set subscriber active period).1).period
  · rw [if_pos same]
    by_cases asked : (decide ((engine.intents.set subscriber active period).2 ≠
        some ⟨active, period⟩) || refresh) = true
    · simp only [Bool.false_or, asked, if_true, FleetState.beginEggpoolRequest, Option.map_some]
      refine ⟨_, rfl, rfl, same, .inl ⟨rfl, ?_⟩⟩
      intro refreshing
      by_contra closed
      simp [EggpoolState.desiredState, closed] at refreshing
    · simp only [Bool.false_or, asked]
      refine ⟨eggpool, rfl, rfl, same, .inr ⟨rfl, ?_⟩⟩
      simp only [ne_eq, decide_not, Bool.or_eq_true, Bool.not_eq_eq_eq_not, Bool.not_true,
        decide_eq_false_iff_not, not_or, Decidable.not_not] at asked
      exact asked.1
  · rw [if_neg same]
    simp only [Bool.true_or, if_true, FleetState.beginEggpoolRequest, Option.map_some]
    refine ⟨_, rfl, rfl, rfl, .inl ⟨rfl, ?_⟩⟩
    intro refreshing
    by_contra closed
    simp [EggpoolState.desiredState, closed] at refreshing

/-- What a disconnect and a reload must not do: close the last open pane while it is refreshing, or,
once the generation counter is full, take the intents back to where the worker was last driven with
the window elsewhere; and replace a worker that has ended under a closed pane that is refreshing. -/
def Keeps (engine : Engine Entry Summary Health) : EngineEvent Entry Summary Health → Prop
  | .disconnect subscriber =>
      ∀ eggpool worker, engine.fleet.eggpool = some eggpool →
        engine.eggpoolWorker = some worker → worker.live = true →
          (eggpool.workerState = .refreshing →
            (engine.intents.remove subscriber).anyActive = true) ∧
          (eggpool.requestGeneration = u64Max →
            engine.converged = some (eggpool.desiredState (engine.intents.remove subscriber)) →
              eggpool.period =
                (engine.intents.remove subscriber).convergedPeriod eggpool.period)
  | .reloadConfig (some (some entry)) =>
      ∀ eggpool worker, engine.fleet.eggpool = some eggpool →
        engine.eggpoolWorker = some worker → worker.live = false → worker.endpoint ≠ entry →
          eggpool.workerState = .refreshing → engine.intents.anyActive = true
  | _ => True

theorem ready_disconnect_iff (wired : engine.Wired) {subscriber : ℕ} :
    engine.Ready (engine.intents.remove subscriber) ↔ engine.Keeps (.disconnect subscriber) := by
  constructor
  · intro ready eggpool worker here isWorker live
    rcases ready eggpool worker here isWorker live with ⟨refreshing, period⟩
    exact ⟨refreshing, fun _ => period⟩
  · intro keeps eggpool worker here isWorker live
    rcases keeps eggpool worker here isWorker live with ⟨refreshing, period⟩
    refine ⟨refreshing, ?_⟩
    intro memo
    rcases wired.begun _ eggpool memo here with behind | ⟨-, same⟩ | full
    · exact absurd behind (Nat.lt_irrefl _)
    · exact same.symm
    · exact period full memo

theorem ready_setEggpoolIntent (wired : engine.Wired) (ready : engine.Ready engine.intents)
    {subscriber : ℕ} {active : Bool} {period : EggpoolPeriod} {refresh : Bool} :
    (engine.setEggpoolIntent subscriber active period refresh).Ready
      (engine.intents.set subscriber active period).1 := by
  intro after worker isAfter isWorker live
  rcases wired.entry_of_worker isWorker with ⟨eggpool, here⟩
  rcases setEggpoolIntent_eggpool here with
    ⟨found, isFound, -, window, ⟨-, refreshing⟩ | ⟨same, unchanged⟩⟩
  · rw [isFound] at isAfter
    cases isAfter
    refine ⟨refreshing, ?_⟩
    intro _
    rw [window, EggpoolIntents.convergedPeriod_convergedPeriod]
  · rw [isFound] at isAfter
    cases isAfter
    refine ⟨?_, ?_⟩
    · rw [same, EggpoolIntents.anyActive_set_same unchanged]
      exact (ready eggpool worker here isWorker live).1
    · intro _
      rw [window, EggpoolIntents.convergedPeriod_convergedPeriod]

theorem endpoint_setEggpoolIntent {subscriber : ℕ} {active : Bool} {period : EggpoolPeriod}
    {refresh : Bool} :
    ((engine.setEggpoolIntent subscriber active period refresh).fleet.eggpool.map
        fun eggpool => eggpool.endpoint) =
      engine.fleet.eggpool.map fun eggpool => eggpool.endpoint := by
  cases here : engine.fleet.eggpool with
  | none =>
      simp only [setEggpoolIntent, FleetState.eggpoolDesiredState, here, Option.map_none]
      split
      · simp [FleetState.beginEggpoolRequest, here]
      · rw [here]
        rfl
  | some eggpool =>
      rcases setEggpoolIntent_eggpool here with ⟨after, isAfter, endpoint, -⟩
      rw [isAfter, Option.map_some, Option.map_some, endpoint]

theorem endpoint_adopt {entry : Entry} :
    ((engine.reloadConfig (some (some entry))).fleet.eggpool.map fun eggpool => eggpool.endpoint) =
      some entry := by
  unfold reloadConfig FleetState.adoptEggpoolEndpoint
  cases engine.fleet.eggpool with
  | none => rfl
  | some eggpool => rfl

variable [DecidableEq Entry]

theorem syncEggpoolWorker_cases (engine : Engine Entry Summary Health) :
    ((engine.eggpoolWorker.map fun worker => worker.endpoint) =
          (engine.fleet.eggpool.map fun eggpool => eggpool.endpoint) ∧
        engine.syncEggpoolWorker = engine) ∨
      ((engine.eggpoolWorker.map fun worker => worker.endpoint) ≠
          (engine.fleet.eggpool.map fun eggpool => eggpool.endpoint) ∧
        engine.syncEggpoolWorker =
          { engine with
            converged := none
            eggpoolWorker := (engine.fleet.eggpool.map fun eggpool => eggpool.endpoint).map
              fun endpoint => ⟨endpoint, .INACTIVE, true⟩ }) := by
  unfold syncEggpoolWorker
  by_cases same : (engine.eggpoolWorker.map fun worker => worker.endpoint) =
      engine.fleet.eggpool.map fun eggpool => eggpool.endpoint
  · exact .inl ⟨same, if_pos same⟩
  · exact .inr ⟨same, if_neg same⟩

@[simp]
theorem intents_syncEggpoolWorker : engine.syncEggpoolWorker.intents = engine.intents := by
  unfold syncEggpoolWorker
  dsimp only
  split <;> rfl

theorem wired_syncEggpoolWorker
    (spawned : ∀ desired, engine.converged = some desired →
      engine.eggpoolWorker.isSome ∨ engine.fleet.eggpool.isSome)
    (driven : ∀ desired worker, engine.converged = some desired →
      engine.eggpoolWorker = some worker → worker.live = true → worker.published = desired)
    (begun : ∀ desired eggpool, engine.converged = some desired →
      engine.fleet.eggpool = some eggpool →
        desired.generation < eggpool.requestGeneration ∨
          (desired.generation = eggpool.requestGeneration ∧ desired.period = eggpool.period) ∨
          eggpool.requestGeneration = u64Max) : engine.syncEggpoolWorker.Wired := by
  rcases engine.syncEggpoolWorker_cases with ⟨endpoint, same⟩ | ⟨-, replaced⟩
  · rw [same]
    refine ⟨endpoint, ?_, driven, begun⟩
    intro desired memo
    rcases spawned desired memo with isWorker | isEntry
    · exact isWorker
    · rw [← Option.isSome_map, ← endpoint, Option.isSome_map] at isEntry
      exact isEntry
  · rw [replaced]
    refine ⟨?_, ?_, ?_, ?_⟩
    · cases engine.fleet.eggpool with
      | none => rfl
      | some eggpool => rfl
    · rintro _ ⟨⟩
    · rintro _ _ ⟨⟩
    · rintro _ _ ⟨⟩

theorem start_wired (entry : Option Entry) :
    (start entry : Engine Entry Summary Health).Wired := by
  unfold start
  apply wired_syncEggpoolWorker
  · intro desired memo
    right
    rw [FleetState.eggpoolDesiredState, Option.map_eq_some_iff] at memo
    rcases memo with ⟨eggpool, here, -⟩
    rw [here]
    rfl
  · rintro _ _ _ ⟨⟩
  · intro desired eggpool memo here
    rw [FleetState.eggpoolDesiredState, here] at memo
    cases memo
    exact .inr (.inl ⟨rfl, rfl⟩)

theorem behind_satAdd {memo generation : ℕ} {same : Prop}
    (behind : memo < generation ∨ (memo = generation ∧ same) ∨ generation = u64Max) :
    memo < satAdd generation 1 ∨ satAdd generation 1 = u64Max := by
  unfold satAdd
  rcases behind with earlier | ⟨rfl, -⟩ | rfl
  · omega
  · omega
  · omega

theorem wired_reloadConfig (wired : engine.Wired) (config : Option (Option Entry)) :
    (engine.reloadConfig config).syncEggpoolWorker.Wired := by
  have spawned := wired.spawned
  cases config with
  | none =>
      exact wired_syncEggpoolWorker (fun _ memo => .inl (spawned _ memo)) wired.driven wired.begun
  | some config =>
      cases config with
      | none =>
          apply wired_syncEggpoolWorker
          · exact fun _ memo => .inl (spawned _ memo)
          · exact wired.driven
          · rintro _ _ _ ⟨⟩
      | some entry =>
          apply wired_syncEggpoolWorker
          · exact fun _ memo => .inl (spawned _ memo)
          · exact wired.driven
          · intro desired after memo isAfter
            rcases wired.entry_of_memo memo with ⟨eggpool, here⟩
            simp only [reloadConfig, FleetState.adoptEggpoolEndpoint, here] at isAfter
            cases isAfter
            exact wired.begun desired eggpool memo here

theorem ready_step_setEggpoolIntent (wired : engine.Wired) (ready : engine.Ready engine.intents)
    {subscriber : ℕ} {active : Bool} {period : EggpoolPeriod} {refresh : Bool} :
    (engine.setEggpoolIntent subscriber active period refresh).syncEggpoolWorker.Ready
      (engine.intents.set subscriber active period).1 := by
  have same : (engine.setEggpoolIntent subscriber active period refresh).syncEggpoolWorker =
      engine.setEggpoolIntent subscriber active period refresh :=
    if_pos (wired.endpoint.trans endpoint_setEggpoolIntent.symm)
  rw [same]
  exact ready_setEggpoolIntent wired ready

theorem ready_reloadConfig_iff (wired : engine.Wired) (ready : engine.Ready engine.intents)
    (config : Option (Option Entry)) :
    (engine.reloadConfig config).syncEggpoolWorker.Ready engine.intents ↔
      engine.Keeps (.reloadConfig config) := by
  cases config with
  | none =>
      refine iff_of_true ?_ trivial
      have same : engine.syncEggpoolWorker = engine := if_pos wired.endpoint
      rw [reloadConfig, same]
      exact ready
  | some config =>
      cases config with
      | none =>
          refine iff_of_true ?_ trivial
          intro eggpool worker here
          rcases syncEggpoolWorker_cases (engine.reloadConfig (some none)) with
            ⟨-, same⟩ | ⟨-, replaced⟩
          · rw [same] at here
            cases here
          · rw [replaced] at here
            cases here
      | some entry =>
          rcases syncEggpoolWorker_cases (engine.reloadConfig (some (some entry))) with
            ⟨kept, same⟩ | ⟨moved, replaced⟩
          · rw [same]
            rw [endpoint_adopt] at kept
            refine iff_of_true ?_ ?_
            · intro after worker isAfter isWorker live
              rcases wired.entry_of_worker isWorker with ⟨eggpool, here⟩
              simp only [reloadConfig, FleetState.adoptEggpoolEndpoint, here] at isAfter
              cases isAfter
              exact ready eggpool worker here isWorker live
            · intro eggpool worker _ isWorker _ differs
              have isEntry : engine.eggpoolWorker.map (fun worker => worker.endpoint) =
                  some entry := kept
              rw [isWorker] at isEntry
              exact absurd (Option.some.inj isEntry) differs
          · rw [replaced]
            rw [endpoint_adopt] at moved
            constructor
            · intro readyAfter eggpool worker here isWorker _ _ refreshing
              have isAfter : (engine.reloadConfig (some (some entry))).fleet.eggpool =
                  some { eggpool with endpoint := entry } := by
                simp only [reloadConfig, FleetState.adoptEggpoolEndpoint, here]
              apply (readyAfter _ ⟨entry, .INACTIVE, true⟩ isAfter _ rfl).1 refreshing
              simp [isAfter]
            · intro keeps after fresh isAfter _ _
              refine ⟨?_, fun memo => by cases memo⟩
              intro refreshing
              cases here : engine.fleet.eggpool with
              | none =>
                  simp only [reloadConfig, FleetState.adoptEggpoolEndpoint, here] at isAfter
                  cases isAfter
                  cases refreshing
              | some eggpool =>
                  simp only [reloadConfig, FleetState.adoptEggpoolEndpoint, here] at isAfter
                  cases isAfter
                  rcases wired.worker_of_entry here with ⟨worker, isWorker⟩
                  have differs : worker.endpoint ≠ entry := by
                    rintro rfl
                    apply moved
                    have found : engine.eggpoolWorker.map (fun worker => worker.endpoint) =
                        some worker.endpoint := congrArg (Option.map _) isWorker
                    exact found
                  cases live : worker.live with
                  | true => exact (ready eggpool worker here isWorker live).1 refreshing
                  | false => exact keeps eggpool worker here isWorker live differs refreshing

theorem start_ready (entry : Option Entry) :
    Ready (start entry : Engine Entry Summary Health)
      (start entry : Engine Entry Summary Health).intents := by
  cases entry with
  | none => rintro _ _ ⟨⟩
  | some entry =>
      rintro _ _ ⟨⟩ ⟨⟩ _
      constructor
      · intro impossible
        cases impossible
      · intro impossible
        cases impossible

variable [DecidableEq Summary] [DecidableEq Health]

/-- Whatever state the engine is in, a reduce tick taken now leaves a live worker driven. -/
def TickDrives (engine : Engine Entry Summary Health) : Prop :=
  ∀ next eggpool worker, engine.step .tick = some next → next.fleet.eggpool = some eggpool →
    next.eggpoolWorker = some worker → worker.live = true → next.Driven eggpool worker

theorem tickDrives_iff (wired : engine.Wired) :
    engine.TickDrives ↔ engine.Ready engine.intents := by
  constructor
  · intro drives eggpool worker here isWorker live
    have reduced := reduceIntents_eq here isWorker
    by_cases memo : engine.converged = some (eggpool.desiredState engine.intents)
    · rw [if_pos memo] at reduced
      have driven := drives engine eggpool worker (congrArg some reduced) here isWorker live
      have period := driven.period
      rw [wired.driven _ worker memo isWorker live] at period
      exact ⟨driven.refreshing, fun _ => period.symm⟩
    · rw [if_neg memo, if_pos live] at reduced
      have driven := drives _ _ _ (congrArg some reduced) rfl rfl live
      refine ⟨?_, fun isMemo => absurd isMemo memo⟩
      intro refreshing
      by_contra closed
      rw [Bool.not_eq_true] at closed
      rw [EggpoolState.followed_of_inactive closed] at driven
      have open_ := driven.refreshing refreshing
      rw [closed] at open_
      cases open_
  · intro ready next after driven stepped isAfter isDriven live
    have isNext : engine.reduceIntents.1 = next := Option.some.inj stepped
    subst isNext
    cases here : engine.fleet.eggpool with
    | none =>
        rw [reduceIntents_of_none (.inl here), here] at isAfter
        cases isAfter
    | some eggpool =>
        cases isWorker : engine.eggpoolWorker with
        | none =>
            rw [reduceIntents_of_none (.inr isWorker), isWorker] at isDriven
            cases isDriven
        | some worker =>
            rw [reduceIntents_eq here isWorker] at isAfter isDriven ⊢
            split at isAfter
            · rename_i memo
              rw [if_pos memo] at isDriven ⊢
              rw [here] at isAfter
              rw [isWorker] at isDriven
              cases isAfter
              cases isDriven
              rcases ready after driven here isWorker live with ⟨refreshing, period⟩
              have published := wired.driven _ driven memo isWorker live
              refine ⟨?_, ?_, refreshing⟩
              · rw [published]
                exact (period memo).symm
              · rw [published]
                rfl
            · rename_i memo
              rw [if_neg memo] at isDriven ⊢
              split at isAfter
              · rename_i wasLive
                rw [if_pos wasLive] at isDriven ⊢
                cases isAfter
                cases isDriven
                rcases ready eggpool worker here isWorker wasLive with ⟨refreshing, -⟩
                exact ⟨EggpoolState.desiredState_followed, rfl,
                  EggpoolState.refreshing_followed refreshing⟩
              · rename_i dead
                rw [if_neg dead] at isDriven
                rw [isWorker] at isDriven
                cases isDriven
                exact absurd live dead

theorem wired_step (wired : engine.Wired) {event : EngineEvent Entry Summary Health}
    (stepped : engine.step event = some next) : next.Wired := by
  cases event with
  | attach subscriber =>
      simp only [step] at stepped
      split at stepped
      · cases stepped
        exact ⟨wired.endpoint, wired.spawned, wired.driven, wired.begun⟩
      · cases stepped
  | setEggpoolIntent subscriber active period refresh =>
      cases stepped
      apply wired_syncEggpoolWorker
      · exact fun _ memo => .inl (wired.spawned _ memo)
      · exact wired.driven
      · intro desired after memo isAfter
        rcases wired.entry_of_memo memo with ⟨eggpool, here⟩
        rcases setEggpoolIntent_eggpool here with
          ⟨found, isFound, -, period, ⟨generation, -⟩ | ⟨same, -⟩⟩
        · rw [isFound] at isAfter
          cases isAfter
          rw [generation]
          rcases behind_satAdd (wired.begun desired eggpool memo here) with behind | full
          · exact .inl behind
          · exact .inr (.inr full)
        · rw [isFound] at isAfter
          cases isAfter
          rw [same]
          exact wired.begun desired eggpool memo here
  | disconnect subscriber =>
      cases stepped
      exact ⟨wired.endpoint, wired.spawned, wired.driven, wired.begun⟩
  | tick =>
      cases stepped
      exact wired_reduceIntents wired
  | result result =>
      simp only [step] at stepped
      split at stepped
      · cases stepped
        rcases engine.fleet.applyEggpoolResultChanged_cases result with
          same | ⟨before, after, here, isAfter, endpoint, period, generation, -⟩
        · rw [same]
          exact wired
        · refine ⟨?_, wired.spawned, wired.driven, ?_⟩
          · rw [wired.endpoint, here, isAfter, Option.map_some, Option.map_some, endpoint]
          · intro desired found memo isFound
            rw [isAfter] at isFound
            cases isFound
            rw [generation, period]
            exact wired.begun desired before memo here
      · cases stepped
  | reloadConfig config =>
      cases stepped
      exact wired_reloadConfig wired config
  | otherRequest =>
      cases stepped
      exact wired_syncEggpoolWorker (fun _ memo => .inl (wired.spawned _ memo)) wired.driven
        wired.begun
  | workerEnds =>
      rcases Option.map_eq_some_iff.mp stepped with ⟨worker, isWorker, rfl⟩
      have endpoint := wired.endpoint
      rw [isWorker] at endpoint
      refine ⟨endpoint, fun _ _ => rfl, ?_, wired.begun⟩
      rintro _ _ _ ⟨⟩ impossible
      cases impossible

/-- Only a disconnect and a reload can leave the next tick without what it needs. -/
theorem ready_iff_of_step (wired : engine.Wired) (ready : engine.Ready engine.intents)
    {event : EngineEvent Entry Summary Health} (stepped : engine.step event = some next) :
    next.Ready next.intents ↔ engine.Keeps event := by
  cases event with
  | attach subscriber =>
      simp only [step] at stepped
      split at stepped
      · rename_i absent
        cases stepped
        refine iff_of_true ?_ trivial
        intro eggpool worker here isWorker live
        rcases ready eggpool worker here isWorker live with ⟨refreshing, period⟩
        simp only [EggpoolState.desiredState, EggpoolIntents.anyActive_set_attach absent,
          EggpoolIntents.convergedPeriod_set_attach absent]
        exact ⟨refreshing, period⟩
      · cases stepped
  | setEggpoolIntent subscriber active period refresh =>
      cases stepped
      refine iff_of_true ?_ trivial
      rw [intents_syncEggpoolWorker]
      exact ready_step_setEggpoolIntent wired ready
  | disconnect subscriber =>
      cases stepped
      exact ready_disconnect_iff wired
  | tick =>
      refine iff_of_true ?_ trivial
      have drives := (tickDrives_iff wired).mpr ready
      cases stepped
      intro eggpool worker here isWorker live
      have driven := drives _ _ _ rfl here isWorker live
      refine ⟨driven.refreshing, ?_⟩
      intro memo
      have published := (wired_reduceIntents wired).driven _ worker memo isWorker live
      have period := driven.period
      rw [published] at period
      exact period.symm
  | result result =>
      simp only [step] at stepped
      split at stepped
      · cases stepped
        refine iff_of_true ?_ trivial
        rcases engine.fleet.applyEggpoolResultChanged_cases result with
          same | ⟨before, after, here, isAfter, -, period, generation, idle⟩
        · rw [same]
          exact ready
        · intro eggpool worker isEntry isWorker live
          rw [isAfter] at isEntry
          cases isEntry
          rcases ready before worker here isWorker live with ⟨-, window⟩
          refine ⟨?_, ?_⟩
          · intro refreshing
            rw [idle] at refreshing
            cases refreshing
          · rw [EggpoolState.desiredState, generation, period]
            exact window
      · cases stepped
  | reloadConfig config =>
      cases stepped
      rw [intents_syncEggpoolWorker]
      have intents : (engine.reloadConfig config).intents = engine.intents := by
        rcases config with _ | _ | entry <;> rfl
      rw [intents]
      exact ready_reloadConfig_iff wired ready config
  | otherRequest =>
      cases stepped
      have same : engine.syncEggpoolWorker = engine := if_pos wired.endpoint
      rw [same]
      exact iff_of_true ready trivial
  | workerEnds =>
      rcases Option.map_eq_some_iff.mp stepped with ⟨worker, isWorker, rfl⟩
      refine iff_of_true ?_ trivial
      rintro _ _ _ ⟨⟩ impossible
      cases impossible

theorem wired_of_run {entry : Option Entry} {events : List (EngineEvent Entry Summary Health)}
    (ran : Machine.run step (start entry) events = some engine) : engine.Wired :=
  Machine.run_induction (fun _ engine => engine.Wired) ran (start_wired entry)
    fun _ _ _ _ _ wired stepped => wired_step wired stepped

/-- At every point of a run the next reduce tick leaves a live worker driven, as long as no step
takes that away. -/
theorem everyState_tickDrives_iff (entry : Option Entry)
    (events : List (EngineEvent Entry Summary Health)) :
    Machine.EveryState step (start entry) events TickDrives ↔
      Machine.EveryStep step (start entry) events Keeps := by
  have decided : Machine.EveryState step (start entry) events
        (fun engine => engine.Wired ∧ engine.Ready engine.intents) ↔
      Machine.EveryStep step (start entry) events Keeps := by
    apply Machine.everyState_iff_everyStep
    · exact ⟨start_wired entry, start_ready entry⟩
    · rintro engine event next ⟨wired, ready⟩ stepped
      rw [← ready_iff_of_step wired ready stepped]
      exact and_iff_right (wired_step wired stepped)
    · intro engine event refused
      cases event with
      | attach _ => exact trivial
      | result _ => exact trivial
      | workerEnds => exact trivial
      | setEggpoolIntent _ _ _ _ => cases refused
      | disconnect _ => cases refused
      | tick => cases refused
      | reloadConfig _ => cases refused
      | otherRequest => cases refused
  rw [← decided]
  constructor
  · intro drives before after engine split ran
    have wired := wired_of_run ran
    exact ⟨wired, (tickDrives_iff wired).mp (drives before after engine split ran)⟩
  · intro holds before after engine split ran
    rcases holds before after engine split ran with ⟨wired, ready⟩
    exact (tickDrives_iff wired).mpr ready

section Example

/-- One frontend opens the pane and is gone before the result. -/
def abandoned : List (EngineEvent Unit Unit Unit) :=
  [.attach 1, .setEggpoolIntent 1 true .hour false, .tick, .disconnect 1]

theorem refreshing_abandoned :
    (Machine.run step (start (some ())) (abandoned ++ [.tick])).map (fun engine =>
      (engine.fleet.eggpool.map fun eggpool => eggpool.workerState,
        engine.eggpoolWorker.map fun worker => worker.live, engine.intents.anyActive)) =
      some (some .refreshing, some true, false) := by
  decide +kernel

theorem not_tickDrives_abandoned :
    ¬Machine.EveryState step (start (some ())) abandoned TickDrives := by
  intro drives
  rcases Option.map_eq_some_iff.mp refreshing_abandoned with ⟨next, ran, facts⟩
  simp only [Prod.mk.injEq, Option.map_eq_some_iff] at facts
  rcases facts with ⟨⟨eggpool, here, refreshing⟩, ⟨worker, isWorker, live⟩, closed⟩
  rw [Machine.run_append] at ran
  rcases Option.bind_eq_some_iff.mp ran with ⟨engine, ranBefore, ranTick⟩
  rw [Machine.run] at ranTick
  rcases Option.bind_eq_some_iff.mp ranTick with ⟨_, stepped, ⟨⟩⟩
  have driven := drives abandoned [] engine (List.append_nil _).symm ranBefore next eggpool worker
    stepped here isWorker live
  have open_ := driven.refreshing refreshing
  rw [closed] at open_
  cases open_

end Example

end Engine

end Gregg.Clientd
