import Gregg.Eggpool.Worker

/-!
# What is pending at the worker's select

An active worker back at its select either fetches what it wants or waits for its deadline, never
both and never neither; an inactive one does nothing. While a result waits to be handed over neither
is pending, and the result is the one of the newest state adopted. What the worker wants is what was
published last, unless that publication is one it has not seen.
-/

namespace Gregg.Eggpool

variable {Summary Health : Type}

namespace EggpoolWorkerState

/-- A request for the desired state in flight, or a deadline armed, but not both; nothing at all
while inactive. -/
def OnePending (worker : EggpoolWorkerState) : Prop :=
  if worker.desired.active then
    (worker.request = some ⟨worker.desired.period, worker.desired.generation⟩ ∧
        worker.nextRefreshAt = none) ∨
      (worker.request = none ∧ worker.nextRefreshAt.isSome)
  else worker.request = none ∧ worker.nextRefreshAt = none

/-- Nothing is pending for an active desired state. -/
structure Resting (worker : EggpoolWorkerState) : Prop where
  active : worker.desired.active = true
  request : worker.request = none
  nextRefreshAt : worker.nextRefreshAt = none

variable {worker : EggpoolWorkerState} {desired : EggpoolDesiredState}

theorem onePending_startRequest (active : worker.desired.active = true)
    (noDeadline : worker.nextRefreshAt = none) : worker.startRequest.OnePending := by
  have stillActive : worker.startRequest.desired.active = true := active
  rw [OnePending, if_pos stillActive]
  exact .inl ⟨rfl, noDeadline⟩

theorem Resting.startRequest (resting : worker.Resting) : worker.startRequest.OnePending :=
  onePending_startRequest resting.active resting.nextRefreshAt

theorem Resting.armed (resting : worker.Resting) (deadline : ℕ) :
    { worker with nextRefreshAt := some deadline }.OnePending := by
  have active := resting.active
  simp [OnePending, active, resting.request]

theorem resting_of_request {request : Request} (onePending : worker.OnePending)
    (inFlight : worker.request = some request) :
    { worker with request := none }.Resting ∧
      request = ⟨worker.desired.period, worker.desired.generation⟩ := by
  rw [OnePending, inFlight] at onePending
  split at onePending
  · rename_i active
    rcases onePending with ⟨isIt, noDeadline⟩ | ⟨impossible, -⟩
    · exact ⟨⟨active, rfl, noDeadline⟩, Option.some.inj isIt⟩
    · cases impossible
  · cases onePending.1

theorem resting_of_deadline {deadline : ℕ} (onePending : worker.OnePending)
    (armed : worker.nextRefreshAt = some deadline) :
    { worker with nextRefreshAt := none }.Resting := by
  rw [OnePending, armed] at onePending
  split at onePending
  · rename_i active
    rcases onePending with ⟨-, impossible⟩ | ⟨noRequest, -⟩
    · cases impossible
    · exact ⟨active, noRequest, rfl⟩
  · cases onePending.2

theorem converge_cases (worker : EggpoolWorkerState) (desired : EggpoolDesiredState) :
    (desired.active = false ∧
        worker.converge desired = ({ desired, request := none, nextRefreshAt := none }, false)) ∨
      (desired.active = true ∧ desired ≠ worker.desired ∧
        worker.converge desired = ({ desired, request := none, nextRefreshAt := none }, true)) ∨
      (desired.active = true ∧ desired = worker.desired ∧
        worker.converge desired = (worker, false)) := by
  unfold converge
  cases active : desired.active with
  | false => simp
  | true =>
      by_cases same : desired = worker.desired
      · subst same
        simp [active]
      · refine .inr (.inl ⟨rfl, same, ?_⟩)
        have differs : worker.desired.active = true → worker.desired.period = desired.period →
            ¬worker.desired.generation = desired.generation := by
          intro wasActive samePeriod sameGeneration
          apply same
          rcases desired with ⟨_, _, _⟩
          rcases worker with ⟨⟨_, _, _⟩, _, _⟩
          simp_all
        simpa using differs

theorem onePending_of_inactive (inactive : desired.active = false) :
    OnePending { desired, request := none, nextRefreshAt := none } := by
  simp [OnePending, inactive]

theorem converge_desired (worker : EggpoolWorkerState) (desired : EggpoolDesiredState) :
    (worker.converge desired).1.desired = desired := by
  rcases worker.converge_cases desired with
    ⟨-, converged⟩ | ⟨-, -, converged⟩ | ⟨-, same, converged⟩
  · rw [converged]
  · rw [converged]
  · rw [converged, same]

@[simp]
theorem adopt_desired (worker : EggpoolWorkerState) (desired : EggpoolDesiredState) :
    (worker.adopt desired).desired = desired := by
  unfold adopt
  dsimp only
  split
  · exact worker.converge_desired desired
  · exact worker.converge_desired desired

@[simp]
theorem refresh_desired (worker : EggpoolWorkerState) (desired : EggpoolDesiredState) :
    (worker.refresh desired).desired = desired := by
  unfold refresh
  dsimp only
  split
  · exact converge_desired _ desired
  · exact converge_desired _ desired

theorem adopt_onePending (onePending : worker.OnePending) :
    (worker.adopt desired).OnePending := by
  unfold adopt
  rcases worker.converge_cases desired with
    ⟨inactive, converged⟩ | ⟨active, -, converged⟩ | ⟨-, -, converged⟩
  · rw [converged]
    exact onePending_of_inactive inactive
  · rw [converged]
    exact onePending_startRequest active rfl
  · rw [converged]
    exact onePending

/-- A resting worker must find a new state, or none would be pending. -/
theorem adopt_onePending_of_ne (moved : desired.active = true → desired ≠ worker.desired) :
    (worker.adopt desired).OnePending := by
  unfold adopt
  rcases worker.converge_cases desired with
    ⟨inactive, converged⟩ | ⟨active, -, converged⟩ | ⟨active, same, -⟩
  · rw [converged]
    exact onePending_of_inactive inactive
  · rw [converged]
    exact onePending_startRequest active rfl
  · exact absurd same (moved active)

theorem refresh_onePending (resting : { worker with nextRefreshAt := none }.Resting) :
    (worker.refresh desired).OnePending := by
  unfold refresh
  rcases converge_cases { worker with nextRefreshAt := none } desired with
    ⟨inactive, converged⟩ | ⟨active, -, converged⟩ | ⟨active, -, converged⟩
  · simp only [converged, inactive]
    exact onePending_of_inactive inactive
  · simp only [converged, Bool.true_or]
    exact onePending_startRequest active rfl
  · have noRequest := resting.request
    simp only [converged, active, noRequest, Option.isNone_none, Bool.and_self, Bool.or_true,
      if_true]
    exact resting.startRequest

end EggpoolWorkerState

namespace WorkerLoop

variable {loop next : WorkerLoop Summary Health} {event : WorkerEvent Summary Health}

/-- A result is the one of the desired state the worker has converged onto. -/
def Answers (worker : EggpoolWorkerState) (result : EggpoolResult Summary Health) : Prop :=
  result.period = worker.desired.period ∧ result.generation = worker.desired.generation

/-- What is pending in each phase of the task. -/
def Pending (loop : WorkerLoop Summary Health) : Prop :=
  match loop.phase with
  | .selecting => loop.worker.OnePending
  | .delivering result => loop.worker.Resting ∧ Answers loop.worker result
  | .ended => True

theorem ne_of_supersedes {worker : EggpoolWorkerState} {desired : EggpoolDesiredState}
    {result : EggpoolResult Summary Health} (answers : Answers worker result)
    (supersedes : supersedesResult result desired = true) (active : desired.active = true) :
    desired ≠ worker.desired := by
  rintro rfl
  simp [supersedesResult, active, answers.1, answers.2] at supersedes

theorem pending_observe (pending : loop.Pending) (observed : loop.observe = some next) :
    next.Pending := by
  unfold observe at observed
  unfold Pending at pending
  split at observed
  · cases observed
  · rename_i selecting
    rw [selecting] at pending
    split at observed
    · cases observed
      exact EggpoolWorkerState.adopt_onePending pending
    · split at observed
      · cases observed
        exact trivial
      · cases observed
  · rename_i result delivering
    rw [delivering] at pending
    rcases pending with ⟨resting, answers⟩
    split at observed
    · split at observed
      · rename_i supersedes
        cases observed
        exact EggpoolWorkerState.adopt_onePending_of_ne (ne_of_supersedes answers supersedes)
      · cases observed
        simpa only [Pending, delivering] using ⟨resting, answers⟩
    · split at observed
      · cases observed
        exact trivial
      · cases observed

/-- A result that is handed over answers the desired state, and a deadline is armed for it. -/
theorem pending_reserve {now : ℕ} (pending : loop.Pending)
    (reserved : loop.reserve now = some next) :
    next.Pending ∧ ∀ result, next.results = loop.results ++ [result] →
      Answers loop.worker result := by
  unfold reserve at reserved
  unfold Pending at pending
  split at reserved
  · rename_i result delivering
    rw [delivering] at pending
    rcases pending with ⟨resting, answers⟩
    split at reserved
    · cases reserved
      refine ⟨trivial, ?_⟩
      intro other impossible
      simp [unwind] at impossible
    · split at reserved
      · cases reserved
        refine ⟨?_, ?_⟩
        · simp only [Pending, resting.active, if_true]
          exact resting.armed _
        · intro other sent
          rcases List.append_inj' sent rfl with ⟨-, ⟨⟩⟩
          exact answers
      · cases reserved
  · cases reserved

theorem pending_step (pending : loop.Pending) (stepped : loop.step event = some next) :
    next.Pending := by
  cases event with
  | publish desired =>
      simp only [step] at stepped
      split at stepped
      · cases stepped
      · split at stepped
        · cases stepped
        · cases stepped
          exact pending
  | dropPublisher =>
      cases stepped
      exact pending
  | cancel =>
      cases stepped
      exact pending
  | receive =>
      simp only [step] at stepped
      split at stepped
      · cases stepped
      · cases stepped
        exact pending
  | dropReceiver =>
      cases stepped
      exact pending
  | cancelled =>
      simp only [step] at stepped
      split at stepped
      · cases stepped
      · split at stepped
        · cases stepped
          exact trivial
        · cases stepped
  | observe => exact pending_observe pending stepped
  | deadline now =>
      simp only [step] at stepped
      split at stepped
      · rename_i selecting armed
        unfold Pending at pending
        rw [selecting] at pending
        split at stepped
        · cases stepped
          have refreshed : (loop.worker.refresh loop.published).OnePending :=
            EggpoolWorkerState.refresh_onePending
              (EggpoolWorkerState.resting_of_deadline pending armed)
          simpa only [Pending, selecting] using refreshed
        · cases stepped
      · cases stepped
  | completed fetched now =>
      simp only [step] at stepped
      split at stepped
      · rename_i request selecting inFlight
        unfold Pending at pending
        rw [selecting] at pending
        cases stepped
        rcases EggpoolWorkerState.resting_of_request pending inFlight with ⟨resting, rfl⟩
        refine ⟨resting, ?_⟩
        cases fetched with
        | none => exact ⟨rfl, rfl⟩
        | some done => exact ⟨rfl, rfl⟩
      · cases stepped
  | reserve now => exact (pending_reserve pending stepped).1

theorem start_pending : (start : WorkerLoop Summary Health).Pending := by
  refine ⟨rfl, rfl⟩

theorem pending_of_run {events : List (WorkerEvent Summary Health)}
    (ran : Machine.run step start events = some loop) : loop.Pending :=
  Machine.run_induction (fun _ loop => loop.Pending) ran start_pending
    fun _ _ _ _ _ pending stepped => pending_step pending stepped

/-- The worker has converged onto what was published, unless it has not seen it yet. -/
def Converged (loop : WorkerLoop Summary Health) : Prop :=
  loop.changed = false → loop.worker.desired = loop.published

/-- A publication that does not supersede the result of the desired state is that state again. -/
theorem eq_of_not_supersedes {worker : EggpoolWorkerState} {desired : EggpoolDesiredState}
    {result : EggpoolResult Summary Health} (active : worker.desired.active = true)
    (answers : Answers worker result) (kept : ¬supersedesResult result desired = true) :
    worker.desired = desired := by
  simp only [supersedesResult, answers.1, answers.2, Bool.or_eq_true, Bool.not_eq_true',
    decide_eq_true_eq, not_or, Bool.not_eq_false, not_not] at kept
  rcases kept with ⟨⟨stillActive, period⟩, generation⟩
  rcases desired with ⟨_, _, _⟩
  rcases wanted : worker.desired with ⟨_, _, _⟩
  simp_all

theorem converged_observe (pending : loop.Pending) (converged : loop.Converged)
    (observed : loop.observe = some next) : next.Converged := by
  unfold observe at observed
  unfold Pending at pending
  split at observed
  · cases observed
  · split at observed
    · cases observed
      intro _
      simp [adoptPublished]
    · split at observed
      · cases observed
        exact converged
      · cases observed
  · rename_i result delivering
    rw [delivering] at pending
    split at observed
    · split at observed
      · cases observed
        intro _
        simp [adoptPublished]
      · rename_i equivalent
        cases observed
        intro _
        exact eq_of_not_supersedes pending.1.active pending.2 equivalent
    · split at observed
      · cases observed
        exact converged
      · cases observed

theorem converged_reserve {now : ℕ} (converged : loop.Converged)
    (reserved : loop.reserve now = some next) : next.Converged := by
  unfold reserve at reserved
  split at reserved
  · split at reserved
    · cases reserved
      exact converged
    · split at reserved
      · cases reserved
        intro seen
        dsimp only
        split
        · exact converged seen
        · exact converged seen
      · cases reserved
  · cases reserved

theorem converged_step (pending : loop.Pending) (converged : loop.Converged)
    (stepped : loop.step event = some next) : next.Converged := by
  cases event with
  | publish desired =>
      simp only [step] at stepped
      split at stepped
      · cases stepped
      · split at stepped
        · cases stepped
        · cases stepped
          intro seen
          cases seen
  | dropPublisher =>
      cases stepped
      exact converged
  | cancel =>
      cases stepped
      exact converged
  | receive =>
      simp only [step] at stepped
      split at stepped
      · cases stepped
      · cases stepped
        exact converged
  | dropReceiver =>
      cases stepped
      exact converged
  | cancelled =>
      simp only [step] at stepped
      split at stepped
      · cases stepped
      · split at stepped
        · cases stepped
          exact converged
        · cases stepped
  | observe => exact converged_observe pending converged stepped
  | deadline now =>
      simp only [step] at stepped
      split at stepped
      · split at stepped
        · cases stepped
          intro _
          simp
        · cases stepped
      · cases stepped
  | completed fetched now =>
      simp only [step] at stepped
      split at stepped
      · cases stepped
        exact converged
      · cases stepped
  | reserve now => exact converged_reserve converged stepped

theorem converged_of_run {events : List (WorkerEvent Summary Health)}
    (ran : Machine.run step start events = some loop) : loop.Converged := by
  have both := Machine.run_induction
    (fun _ (loop : WorkerLoop Summary Health) => loop.Pending ∧ loop.Converged) ran
    ⟨start_pending, fun _ => rfl⟩ fun _ _ _ _ _ kept stepped =>
      ⟨pending_step kept.1 stepped, converged_step kept.1 kept.2 stepped⟩
  exact both.2

theorem results_of_step (stepped : loop.step event = some next) :
    (∃ now, event = .reserve now) ∨ next.results.length ≤ loop.results.length := by
  cases event with
  | publish desired =>
      simp only [step] at stepped
      split at stepped
      · cases stepped
      · split at stepped
        · cases stepped
        · cases stepped
          exact .inr le_rfl
  | dropPublisher =>
      cases stepped
      exact .inr le_rfl
  | cancel =>
      cases stepped
      exact .inr le_rfl
  | receive =>
      simp only [step] at stepped
      split at stepped
      · cases stepped
      · rename_i first rest isResults
        cases stepped
        right
        simp [isResults]
  | dropReceiver =>
      cases stepped
      exact .inr le_rfl
  | cancelled =>
      simp only [step] at stepped
      split at stepped
      · cases stepped
      · split at stepped
        · cases stepped
          exact .inr le_rfl
        · cases stepped
  | observe =>
      right
      simp only [step, observe] at stepped
      repeat' split at stepped
      all_goals cases stepped
      all_goals exact le_rfl
  | deadline now =>
      simp only [step] at stepped
      split at stepped
      · split at stepped
        · cases stepped
          exact .inr le_rfl
        · cases stepped
      · cases stepped
  | completed fetched now =>
      simp only [step] at stepped
      split at stepped
      · cases stepped
        exact .inr le_rfl
      · cases stepped
  | reserve now => exact .inl ⟨now, rfl⟩

/-- Whatever happens on its channels, the worker back at its select has one request or one deadline
pending for an active desired state and nothing for an inactive one. What it desires is the state
published last, once it has seen that publication, and every result it hands over is the one of the
newest state it has converged onto. -/
theorem worker_keeps_one_pending (events : List (WorkerEvent Summary Health)) :
    Machine.EveryState step start events
        (fun loop => loop.phase = .selecting → loop.worker.OnePending) ∧
      Machine.EveryState step start events Converged ∧
      Machine.EveryStep step start events (fun loop event =>
        ∀ next result, loop.step event = some next → next.results = loop.results ++ [result] →
          Answers loop.worker result) := by
  refine ⟨?_, ?_, ?_⟩
  · intro before after loop _ ran selecting
    have pending := pending_of_run ran
    rw [Pending, selecting] at pending
    exact pending
  · intro before after loop _ ran
    exact converged_of_run ran
  · intro before event after loop _ ran next result stepped sent
    rcases results_of_step stepped with ⟨now, rfl⟩ | notMore
    · exact (pending_reserve (pending_of_run ran) stepped).2 result sent
    · rw [sent, List.length_append] at notMore
      exact absurd notMore (Nat.not_succ_le_self _)

/-- The pane opens on the last day, and its result is handed over. The last hour is chosen when the
refresh is due, which fetches that one; the fetch panics. -/
def dayThenHour : List (WorkerEvent Unit Unit) :=
  [.publish ⟨true, .day, 1⟩, .observe, .completed (some ⟨0, .online (), .online ()⟩) 250,
    .reserve 250, .publish ⟨true, .hour, 2⟩, .deadline 60250, .completed none 60300,
    .reserve 60300]

theorem worker_keeps_one_pending_dayThenHour :
    (Machine.run step start dayThenHour).map (fun loop =>
        (loop.results.map fun result => (result.period, result.generation, result.summary),
          loop.worker)) =
      some ([(.day, 1, .online ()), (.hour, 2, .networkError)],
        { desired := ⟨true, .hour, 2⟩, request := none, nextRefreshAt := some 120300 }) ∧
      Machine.EveryState step start dayThenHour
        (fun loop => loop.phase = .selecting → loop.worker.OnePending) ∧
      Machine.EveryState step start dayThenHour Converged ∧
      Machine.EveryStep step start dayThenHour (fun loop event =>
        ∀ next result, loop.step event = some next → next.results = loop.results ++ [result] →
          Answers loop.worker result) :=
  ⟨by decide +kernel, worker_keeps_one_pending dayThenHour⟩

end WorkerLoop

end Gregg.Eggpool
