import Mathlib.Algebra.GroupWithZero.Nat
import Gregg.Lib.Machine

/-!
# Task pools with permits

Tasks wait for one of a number of permits, work with it in turns, and give it back when they are
over; a task may be dropped while it waits or works. Their outputs are joined in the order of the
tasks, each as soon as it is there. However the turns interleave, no more tasks work than there are
permits, no output is lost or joined twice, and where the turns of a task are bounded so are those
of the pool.
-/

namespace TaskPool

universe u

/-- Where a task is. -/
inductive Status (Work Output : Type u) where
  | waiting
  | working (work : Work)
  | finished (output : Output)

/-- What a turn of a task comes to. -/
inductive Turn (Work Output : Type u) where
  | continues (work : Work)
  | ends (output : Output)

structure Task (Job Work Output : Type u) where
  job : Job
  status : Status Work Output

/-- What the tasks do: their first turn, the turns after it, each on an input that the work takes,
and what a dropped task leaves. -/
structure Behavior (Job Work Opening Input Output : Type u) where
  first : Job → Opening → Turn Work Output
  next : Job → Work → Input → Option (Turn Work Output)
  dropped : Job → Output

structure Pool (Job Work Output : Type u) where
  tasks : List (Task Job Work Output)
  free : ℕ
  joined : List Output

inductive Event (Opening Input : Type u) where
  | acquire (index : ℕ) (opening : Opening)
  | resume (index : ℕ) (input : Input)
  | drop (index : ℕ)
  | join

variable {Job Work Opening Input Output : Type u}

namespace Status

def output? : Status Work Output → Option Output
  | finished output => some output
  | _ => none

/-- The permits that a task has. -/
def held : Status Work Output → ℕ
  | working _ => 1
  | _ => 0

end Status

@[simp]
def Turn.status : Turn Work Output → Status Work Output
  | continues work => .working work
  | ends output => .finished output

namespace Pool

def start (jobs : List Job) (limit : ℕ) : Pool Job Work Output where
  tasks := jobs.map fun job => ⟨job, .waiting⟩
  free := limit
  joined := []

/-- The permits that the tasks have. -/
def working (pool : Pool Job Work Output) : ℕ :=
  (pool.tasks.map (·.status.held)).sum

/-- After a turn with a permit, which is given back at the end. -/
def settle (pool : Pool Job Work Output) (index : ℕ) (job : Job) :
    Turn Work Output → Pool Job Work Output
  | .continues work => { pool with tasks := pool.tasks.set index ⟨job, .working work⟩ }
  | .ends output =>
      { pool with
        tasks := pool.tasks.set index ⟨job, .finished output⟩
        free := pool.free + 1 }

def step (behavior : Behavior Job Work Opening Input Output) (pool : Pool Job Work Output) :
    Event Opening Input → Option (Pool Job Work Output)
  | .acquire index opening =>
      match pool.tasks[index]? with
      | some ⟨job, .waiting⟩ =>
          if 0 < pool.free then
            some ({ pool with free := pool.free - 1 }.settle index job
              (behavior.first job opening))
          else none
      | _ => none
  | .resume index input =>
      match pool.tasks[index]? with
      | some ⟨job, .working work⟩ => (behavior.next job work input).map (pool.settle index job)
      | _ => none
  | .drop index =>
      match pool.tasks[index]? with
      | some ⟨job, .waiting⟩ =>
          some { pool with tasks := pool.tasks.set index ⟨job, .finished (behavior.dropped job)⟩ }
      | some ⟨job, .working _⟩ => some (pool.settle index job (.ends (behavior.dropped job)))
      | _ => none
  | .join =>
      match pool.tasks[pool.joined.length]? with
      | some ⟨_, .finished output⟩ => some { pool with joined := pool.joined ++ [output] }
      | _ => none

end Pool

section Step

variable {behavior : Behavior Job Work Opening Input Output} {pool next : Pool Job Work Output}
  {event : Event Opening Input} {index : ℕ} {job : Job}

/-- What an event does to the one task it concerns. -/
inductive Change (behavior : Behavior Job Work Opening Input Output) (index : ℕ) (job : Job) :
    Event Opening Input → Status Work Output → Status Work Output → Prop where
  | acquired (opening : Opening) :
      Change behavior index job (.acquire index opening) .waiting
        (behavior.first job opening).status
  | resumed {work : Work} {input : Input} {turn : Turn Work Output}
      (takes : behavior.next job work input = some turn) :
      Change behavior index job (.resume index input) (.working work) turn.status
  | dropped {before : Status Work Output} (notOver : before.output? = none) :
      Change behavior index job (.drop index) before (.finished (behavior.dropped job))

/-- The pool after one of its tasks changed. -/
structure Changed (pool next : Pool Job Work Output) (index : ℕ) (job : Job)
    (before after : Status Work Output) : Prop where
  found : pool.tasks[index]? = some ⟨job, before⟩
  tasks : next.tasks = pool.tasks.set index ⟨job, after⟩
  permits : next.free + after.held = pool.free + before.held
  joined : next.joined = pool.joined

theorem changed_settle {turn : Turn Work Output} {before : Status Work Output}
    (found : pool.tasks[index]? = some ⟨job, before⟩) {free : ℕ}
    (permits : free + 1 = pool.free + before.held) :
    Changed pool ({ pool with free }.settle index job turn) index job before turn.status := by
  cases turn with
  | continues work => exact ⟨found, rfl, permits, rfl⟩
  | ends output => exact ⟨found, rfl, permits, rfl⟩

/-- An event changes one task, or joins the next output. -/
theorem step_cases (stepped : pool.step behavior event = some next) :
    (∃ index job before after, Change behavior index job event before after ∧
      Changed pool next index job before after) ∨
    ∃ job output, event = .join ∧ pool.tasks[pool.joined.length]? = some ⟨job, .finished output⟩ ∧
      next = { pool with joined := pool.joined ++ [output] } := by
  cases event with
  | acquire index opening =>
      simp only [Pool.step] at stepped
      split at stepped
      · rename_i job found
        split at stepped
        · rename_i available
          cases stepped
          refine .inl ⟨index, job, .waiting, _, .acquired opening, changed_settle found ?_⟩
          simp only [Status.held]
          omega
        · cases stepped
      · cases stepped
  | resume index input =>
      simp only [Pool.step] at stepped
      split at stepped
      · rename_i job work found
        rcases Option.map_eq_some_iff.mp stepped with ⟨turn, takes, rfl⟩
        exact .inl ⟨index, job, .working work, _, .resumed takes, changed_settle found rfl⟩
      · cases stepped
  | drop index =>
      simp only [Pool.step] at stepped
      split at stepped
      · rename_i job found
        cases stepped
        exact .inl ⟨index, job, .waiting, _, .dropped rfl, ⟨found, rfl, rfl, rfl⟩⟩
      · rename_i job work found
        cases stepped
        exact .inl ⟨index, job, .working work, _, .dropped rfl, changed_settle found rfl⟩
      · cases stepped
  | join =>
      simp only [Pool.step] at stepped
      split at stepped
      · rename_i job output found
        cases stepped
        exact .inr ⟨job, output, rfl, found, rfl⟩
      · cases stepped

/-- What is over stays as it is. -/
theorem Change.output?_before {before after : Status Work Output}
    (change : Change behavior index job event before after) : before.output? = none := by
  cases change with
  | acquired => rfl
  | resumed => rfl
  | dropped notOver => exact notOver

end Step

section Invariant

variable {behavior : Behavior Job Work Opening Input Output} {pool next : Pool Job Work Output}
  {event : Event Opening Input} {events : List (Event Opening Input)} {index limit : ℕ}
  {job : Job} {jobs : List Job} {before after : Status Work Output}

theorem sum_map_set {Item : Type u} {items : List Item} {measure : Item → ℕ} {item other : Item}
    (found : items[index]? = some item) :
    ((items.set index other).map measure).sum + measure item =
      (items.map measure).sum + measure other := by
  induction items generalizing index with
  | nil => cases found
  | cons first rest ih =>
      cases index with
      | zero =>
          cases found
          simp only [List.set_cons_zero, List.map_cons, List.sum_cons]
          omega
      | succ index =>
          have later := ih found
          simp only [List.set_cons_succ, List.map_cons, List.sum_cons]
          omega

/-- What is the same after every step of a pool. -/
structure Sound (limit : ℕ) (jobs : List Job) (pool : Pool Job Work Output) : Prop where
  jobs : pool.tasks.map Task.job = jobs
  permits : pool.free + pool.working = limit
  /-- What was joined is what the first tasks left. -/
  joined : (pool.tasks.take pool.joined.length).map (·.status.output?) = pool.joined.map some

theorem sound_start : Sound limit jobs (Pool.start jobs limit : Pool Job Work Output) where
  jobs := by
    rw [Pool.start, List.map_map]
    exact List.map_id jobs
  permits := by
    have noneWorks : ((Pool.start jobs limit : Pool Job Work Output).tasks.map
        (·.status.held)).sum = 0 := by
      rw [List.sum_eq_zero_iff_forall_eq_nat]
      intro held member
      rw [Pool.start, List.map_map] at member
      rcases List.mem_map.mp member with ⟨job, -, rfl⟩
      rfl
    rw [Pool.working, noneWorks]
    rfl
  joined := rfl

/-- A task that changes is none of those that were joined. -/
theorem Sound.le_of_unfinished (sound : Sound limit jobs pool) {task : Task Job Work Output}
    (found : pool.tasks[index]? = some task) (unfinished : task.status.output? = none) :
    pool.joined.length ≤ index := by
  by_contra joined
  have at_index := congrArg (·[index]?) sound.joined
  simp only [List.getElem?_map, List.getElem?_take_of_lt (Nat.not_le.mp joined), found,
    Option.map_some, unfinished] at at_index
  rw [List.getElem?_eq_getElem (Nat.not_le.mp joined)] at at_index
  cases at_index

theorem Sound.changed (sound : Sound limit jobs pool)
    (changed : Changed pool next index job before after) (unfinished : before.output? = none) :
    Sound limit jobs next where
  jobs := by
    rw [← sound.jobs, changed.tasks]
    apply List.ext_getElem?
    intro other
    rw [List.getElem?_map, List.getElem?_set, List.getElem?_map]
    split
    · rename_i isIndex
      subst isIndex
      rw [if_pos (List.getElem?_eq_some_iff.mp changed.found).1, changed.found]
      rfl
    · rfl
  permits := by
    have sums : ((pool.tasks.set index ⟨job, after⟩).map (·.status.held)).sum + before.held =
        (pool.tasks.map (·.status.held)).sum + after.held := sum_map_set changed.found
    have conserved := sound.permits
    have permits := changed.permits
    rw [Pool.working] at conserved
    rw [Pool.working, changed.tasks]
    omega
  joined := by
    have later := sound.le_of_unfinished changed.found unfinished
    rw [changed.joined, changed.tasks, ← sound.joined, List.take_set_of_le later]

theorem Sound.join (sound : Sound limit jobs pool) {output : Output}
    (found : pool.tasks[pool.joined.length]? = some ⟨job, .finished output⟩) :
    Sound limit jobs { pool with joined := pool.joined ++ [output] } where
  jobs := sound.jobs
  permits := sound.permits
  joined := by
    rw [List.length_append, List.length_singleton, List.take_add_one, found, List.map_append,
      sound.joined, List.map_append]
    rfl

theorem sound_of_run
    (ran : Machine.run (Pool.step behavior) (.start jobs limit) events = some pool) :
    Sound limit jobs pool := by
  apply Machine.run_induction (fun _ pool => Sound limit jobs pool) ran sound_start
  intro _ pool event next _ sound stepped
  rcases step_cases stepped with ⟨index, job, before, after, change, changed⟩ |
    ⟨job, output, -, found, rfl⟩
  · exact sound.changed changed change.output?_before
  · exact sound.join found

/-- No more tasks work than there are permits. -/
theorem Sound.working_le (sound : Sound limit jobs pool) : pool.working ≤ limit := by
  have permits := sound.permits
  omega

theorem Sound.length_tasks (sound : Sound limit jobs pool) : pool.tasks.length = jobs.length := by
  rw [← sound.jobs, List.length_map]

/-- When everything was joined, every permit is back. -/
theorem Sound.finished (sound : Sound limit jobs pool)
    (finished : pool.joined.length = jobs.length) :
    pool.free = limit ∧ pool.tasks.map (·.status.output?) = pool.joined.map some := by
  have outputs : pool.tasks.map (·.status.output?) = pool.joined.map some := by
    rw [← sound.joined, finished, ← sound.length_tasks, List.take_length]
  refine ⟨?_, outputs⟩
  have noneWorks : (pool.tasks.map (·.status.held)).sum = 0 := by
    rw [List.sum_eq_zero_iff_forall_eq_nat]
    intro held member
    rcases List.mem_map.mp member with ⟨task, taskMem, rfl⟩
    have isSome : task.status.output? ∈ pool.joined.map some :=
      outputs ▸ List.mem_map_of_mem taskMem
    rcases List.mem_map.mp isSome with ⟨output, -, isOutput⟩
    cases isStatus : task.status with
    | finished output => rfl
    | _ =>
        rw [isStatus] at isOutput
        cases isOutput
  have permits := sound.permits
  rw [Pool.working, noneWorks] at permits
  exact permits

theorem Status.eq_finished {status : Status Work Output} {output : Output}
    (isOutput : status.output? = some output) : status = .finished output := by
  cases status with
  | finished other =>
      cases isOutput
      rfl
  | _ => cases isOutput

/-- What was joined came from the task at its place. -/
theorem Sound.finished_of_joined (sound : Sound limit jobs pool) {output : Output}
    (joined : pool.joined[index]? = some output) :
    ∃ job, jobs[index]? = some job ∧ pool.tasks[index]? = some ⟨job, .finished output⟩ := by
  have inRange := (List.getElem?_eq_some_iff.mp joined).1
  have atIndex := congrArg (·[index]?) sound.joined
  simp only [List.getElem?_map, List.getElem?_take_of_lt inRange, joined, Option.map_some]
    at atIndex
  rcases Option.map_eq_some_iff.mp atIndex with ⟨⟨job, status⟩, found, isOutput⟩
  cases Status.eq_finished isOutput
  refine ⟨job, ?_, found⟩
  rw [← sound.jobs, List.getElem?_map, found]
  rfl

/-- What holds of a waiting task and is kept by what happens to it holds of every task. -/
theorem each_of_run
    (holds : List (Event Opening Input) → ℕ → Job → Status Work Output → Prop)
    (initially : ∀ index job, holds [] index job .waiting)
    (later : ∀ events event index job status, holds events index job status →
      holds (events ++ [event]) index job status)
    (preserved : ∀ events event index job before after, holds events index job before →
      Change behavior index job event before after → holds (events ++ [event]) index job after)
    (ran : Machine.run (Pool.step behavior) (.start jobs limit) events = some pool) :
    ∀ index task, pool.tasks[index]? = some task → holds events index task.job task.status := by
  apply Machine.run_induction (fun events pool => ∀ index task, pool.tasks[index]? = some task →
    holds events index task.job task.status) ran
  · intro index task found
    rw [Pool.start, List.getElem?_map] at found
    rcases Option.map_eq_some_iff.mp found with ⟨job, -, rfl⟩
    exact initially index job
  · intro events pool event next _ each stepped index task found
    rcases step_cases stepped with ⟨changedIndex, job, before, after, change, changed⟩ |
      ⟨job, output, -, -, rfl⟩
    · rw [changed.tasks, List.getElem?_set] at found
      split at found
      · rename_i isIndex
        subst isIndex
        rw [if_pos (List.getElem?_eq_some_iff.mp changed.found).1] at found
        cases found
        have earlier := each changedIndex _ changed.found
        exact preserved events event changedIndex job before after earlier change
      · exact later events event _ _ _ (each index task found)
    · exact later events event _ _ _ (each index task found)

end Invariant

section Cost

variable {behavior : Behavior Job Work Opening Input Output} {pool next : Pool Job Work Output}
  {event : Event Opening Input} {events : List (Event Opening Input)} {limit bound : ℕ}
  {jobs : List Job} {rank : Work → ℕ}

/-- The turns of a task lead to its end: each has a lower rank than the one before. -/
structure Ranked (behavior : Behavior Job Work Opening Input Output) (rank : Work → ℕ)
    (bound : ℕ) : Prop where
  first : ∀ job opening work, behavior.first job opening = .continues work → rank work < bound
  next : ∀ job work input later, behavior.next job work input = some (.continues later) →
    rank later < rank work

/-- The turns that a task has left at most. -/
def Status.cost (rank : Work → ℕ) (bound : ℕ) : Status Work Output → ℕ
  | .waiting => bound + 1
  | .working work => rank work + 1
  | .finished _ => 0

/-- The events that a pool has left at most. -/
def Pool.cost (rank : Work → ℕ) (bound : ℕ) (pool : Pool Job Work Output) : ℕ :=
  (pool.tasks.map (·.status.cost rank bound)).sum + (pool.tasks.length - pool.joined.length)

theorem Change.cost_lt {index : ℕ} {job : Job} {before after : Status Work Output}
    (ranked : Ranked behavior rank bound)
    (change : Change behavior index job event before after) :
    after.cost rank bound < before.cost rank bound := by
  cases change with
  | acquired opening =>
      cases isFirst : behavior.first job opening with
      | continues work => exact Nat.succ_lt_succ (ranked.first job opening work isFirst)
      | ends output => exact Nat.succ_pos bound
  | @resumed work input turn takes =>
      cases turn with
      | continues later => exact Nat.succ_lt_succ (ranked.next job work input later takes)
      | ends output => exact Nat.succ_pos (rank work)
  | dropped notOver =>
      cases before with
      | waiting => exact Nat.succ_pos bound
      | working work => exact Nat.succ_pos (rank work)
      | finished output => cases notOver

theorem cost_step (ranked : Ranked behavior rank bound)
    (stepped : pool.step behavior event = some next) :
    next.cost rank bound < pool.cost rank bound := by
  rcases step_cases stepped with ⟨index, job, before, after, change, changed⟩ |
    ⟨job, output, -, found, rfl⟩
  · have sums : ((pool.tasks.set index ⟨job, after⟩).map (·.status.cost rank bound)).sum +
        before.cost rank bound =
        (pool.tasks.map (·.status.cost rank bound)).sum + after.cost rank bound :=
      sum_map_set changed.found
    have lower := change.cost_lt ranked
    simp only [Pool.cost, changed.tasks, changed.joined, List.length_set]
    omega
  · have inRange := (List.getElem?_eq_some_iff.mp found).1
    simp only [Pool.cost, List.length_append, List.length_singleton]
    omega

theorem cost_start : (Pool.start jobs limit : Pool Job Work Output).cost rank bound =
    (bound + 2) * jobs.length := by
  have each : ((Pool.start jobs limit : Pool Job Work Output).tasks.map
      (·.status.cost rank bound)) = jobs.map fun _ => bound + 1 := by
    rw [Pool.start, List.map_map]
    rfl
  rw [Pool.cost, each, List.map_const', List.sum_replicate_nat]
  simp only [Pool.start, List.length_map, List.length_nil, Nat.sub_zero]
  rw [Nat.mul_comm (bound + 2)]
  rfl

/-- A pool comes to its end. -/
theorem length_le_of_run (ranked : Ranked behavior rank bound)
    (ran : Machine.run (Pool.step behavior) (.start jobs limit) events = some pool) :
    events.length + pool.cost rank bound ≤ (bound + 2) * jobs.length := by
  apply Machine.run_induction (fun events pool =>
    events.length + pool.cost rank bound ≤ (bound + 2) * jobs.length) ran
  · simp [cost_start]
  · intro events pool event next _ bounded stepped
    have lower := cost_step ranked stepped
    rw [List.length_append, List.length_singleton]
    omega

end Cost

section Progress

variable {behavior : Behavior Job Work Opening Input Output} {pool : Pool Job Work Output}
  {limit : ℕ} {jobs : List Job}

theorem exists_working (someWorks : 0 < pool.working) :
    ∃ (index : ℕ) (job : Job) (work : Work), pool.tasks[index]? = some ⟨job, .working work⟩ := by
  by_contra noneWorks
  have isZero : (pool.tasks.map (·.status.held)).sum = 0 := by
    rw [List.sum_eq_zero_iff_forall_eq_nat]
    intro held member
    rcases List.mem_map.mp member with ⟨task, taskMem, rfl⟩
    rcases List.getElem?_of_mem taskMem with ⟨index, found⟩
    rcases task with ⟨job, status⟩
    cases status with
    | working work => exact absurd ⟨index, job, work, found⟩ noneWorks
    | _ => rfl
  rw [Pool.working, isZero] at someWorks
  exact Nat.lt_irrefl 0 someWorks

/-- As long as something is to be joined, a task may get a permit, a task works, or an output is
joined. -/
theorem Sound.progress (sound : Sound limit jobs pool) (room : 0 < limit)
    (unfinished : pool.joined.length < jobs.length) :
    (pool.step behavior .join).isSome ∨
      (∃ index, ∀ opening, (pool.step behavior (.acquire index opening)).isSome) ∨
      ∃ (index : ℕ) (job : Job) (work : Work),
        pool.tasks[index]? = some ⟨job, .working work⟩ := by
  rw [← sound.length_tasks] at unfinished
  have found := List.getElem?_eq_getElem unfinished
  cases isTask : pool.tasks[pool.joined.length] with
  | mk job status =>
      rw [isTask] at found
      cases status with
      | waiting =>
          right
          by_cases available : 0 < pool.free
          · refine .inl ⟨pool.joined.length, ?_⟩
            intro opening
            simp [Pool.step, found, available]
          · have permits := sound.permits
            have someWorks : 0 < pool.working := by omega
            exact .inr (exists_working someWorks)
      | working work => exact .inr (.inr ⟨_, job, work, found⟩)
      | finished output =>
          left
          simp [Pool.step, found]

/-- As long as something is to be joined, it can be joined or dropped. -/
theorem Sound.join_or_drop (sound : Sound limit jobs pool)
    (unfinished : pool.joined.length < jobs.length) :
    (pool.step behavior .join).isSome ∨
      ∃ index, (pool.step behavior (.drop index)).isSome := by
  rw [← sound.length_tasks] at unfinished
  have found := List.getElem?_eq_getElem unfinished
  cases isTask : pool.tasks[pool.joined.length] with
  | mk job status =>
      rw [isTask] at found
      cases status with
      | finished output =>
          left
          simp [Pool.step, found]
      | _ =>
          right
          refine ⟨pool.joined.length, ?_⟩
          simp [Pool.step, found]

end Progress

end TaskPool
