import Gregg.Tui.EventLoop

/-!
# What the daemon knows of the open cron pane

A key action forwards the cron intent it leaves behind; a document does not, although it may change
what the state implies. What the sink took last is therefore the intent implied right after the last
action that found the sink ready.
-/

namespace Gregg.Tui

open Gregg.Clientd

/-- A key action that finds the sink ready for a cron intent. -/
def FrontendEvent.takesCron : FrontendEvent → Bool
  | action _ sink => sink.cron
  | _ => false

namespace Frontend

variable {env : Surroundings} {frontend next : Frontend} {event : FrontendEvent}
  {events : List FrontendEvent} {terminalSize : Option (ℕ × ℕ)}

/-- The render model and the remembered cron intent. -/
structure SameCron (before after : Frontend) : Prop where
  app : after.app = before.app
  lastCronIntent : after.lastCronIntent = before.lastCronIntent

theorem sameCron_forwardEggpoolIntent {before : AppState} {isRefresh taken : Bool} :
    SameCron frontend (frontend.forwardEggpoolIntent before isRefresh taken) := by
  unfold forwardEggpoolIntent
  split
  · exact ⟨rfl, rfl⟩
  · simp only
    split <;> exact ⟨rfl, rfl⟩

theorem sameCron_retryPendingEggpoolIntent {taken : Bool} :
    SameCron frontend (frontend.retryPendingEggpoolIntent taken) := by
  unfold retryPendingEggpoolIntent
  split
  · simp only
    split
    · exact ⟨rfl, rfl⟩
    · split <;> exact ⟨rfl, rfl⟩
  · exact ⟨rfl, rfl⟩

theorem forwardCronIntent_lastCronIntent {taken : Bool} :
    (frontend.forwardCronIntent taken).lastCronIntent =
      if taken then some frontend.app.cronIntent else frontend.lastCronIntent := by
  unfold forwardCronIntent
  simp only
  split
  · rename_i unchanged
    cases taken with
    | false => rfl
    | true => exact unchanged
  · rfl

theorem dispatchAction_lastCronIntent {action : Action} {sink : Sink} :
    (frontend.dispatchAction env action sink).lastCronIntent =
      if sink.cron then some (frontend.dispatchAction env action sink).app.cronIntent
      else frontend.lastCronIntent := by
  unfold dispatchAction
  simp only
  split
  · rw [forwardCronIntent_lastCronIntent, forwardCronIntent_app]
    rfl
  · rw [sameCron_forwardEggpoolIntent.lastCronIntent, sameCron_forwardEggpoolIntent.app,
      forwardCronIntent_lastCronIntent, forwardCronIntent_app]

/-- Only an action that finds the sink ready changes what the daemon was told. -/
theorem lastCronIntent_of_step (stepped : step env frontend event = some next) :
    next.lastCronIntent =
      if event.takesCron then some next.app.cronIntent else frontend.lastCronIntent := by
  cases turns_of_step stepped with
  | action action sink armed dispatched =>
      rw [dispatched]
      exact dispatchAction_lastCronIntent
  | document document sink applied =>
      rw [applied]
      exact sameCron_retryPendingEggpoolIntent.lastCronIntent
  | highlightExpired expired =>
      rw [expired]
      rfl

/-- The step leaves a state that implies the intent. -/
def LeavesImplied (env : Surroundings) (intent : CronIntentRequest) (before : Frontend)
    (event : FrontendEvent) : Prop :=
  ∀ after, step env before event = some after → after.app.cronIntent = intent

theorem toldIntent_iff {intent : CronIntentRequest}
    (ran : Machine.run (step env) (start env terminalSize) events = some frontend) :
    frontend.lastCronIntent.getD .closed = intent ↔
      Machine.LastStep (step env) (start env terminalSize) events FrontendEvent.takesCron
          (LeavesImplied env intent) ∧
        ((∀ event ∈ events, event.takesCron = false) → intent = .closed) := by
  apply Machine.run_induction
    (fun events (frontend : Frontend) => frontend.lastCronIntent.getD .closed = intent ↔
      Machine.LastStep (step env) (start env terminalSize) events FrontendEvent.takesCron
          (LeavesImplied env intent) ∧
        ((∀ event ∈ events, event.takesCron = false) → intent = .closed)) ran
  · constructor
    · rintro rfl
      refine ⟨Machine.lastStep_nil, ?_⟩
      intro _
      rfl
    · rintro ⟨-, untold⟩
      exact (untold (by simp)).symm
  · intro events before event after ranBefore ih stepped
    rw [lastCronIntent_of_step stepped]
    cases takes : event.takesCron with
    | false =>
        rw [Machine.lastStep_append_of_other takes]
        simp only [Bool.false_eq_true, if_false, List.mem_append, List.mem_singleton, or_imp,
          forall_and, forall_eq, takes, and_true]
        exact ih
    | true =>
        rw [Machine.lastStep_append_of_kind ranBefore takes]
        constructor
        · intro told
          refine ⟨?_, ?_⟩
          · intro other steppedOther
            cases stepped.symm.trans steppedOther
            exact told
          · intro none
            have here := none event (by simp)
            rw [takes] at here
            cases here
        · rintro ⟨leaves, -⟩
          exact leaves after stepped

/-- In every reached state, the last cron intent the sink took is the one the state implies if and
only if the state still implies what it implied right after the last key action that found the
sink ready, or a closed pane when there was no such action. -/
theorem takenCronIntent_eq_iff
    (ran : Machine.run (step env) (start env terminalSize) events = some frontend) :
    frontend.takenCronIntent = frontend.app.cronIntent ↔
      Machine.LastStep (step env) (start env terminalSize) events FrontendEvent.takesCron
          (LeavesImplied env frontend.app.cronIntent) ∧
        ((∀ event ∈ events, event.takesCron = false) → frontend.app.cronIntent = .closed) := by
  rw [takenCronIntent, ← (remembers_of_run ran).cron]
  exact toldIntent_iff ran

/-- An action finds the sink ready or implies nothing new; anything else implies nothing new. -/
def KeepsImplied (env : Surroundings) (before : Frontend) (event : FrontendEvent) : Prop :=
  event.takesCron = true ∨ LeavesImplied env before.app.cronIntent before event

theorem start_cronIntent : (start env terminalSize).app.cronIntent = .closed := by
  cases terminalSize <;> rfl

/-- As long as every step keeps the implied intent or forwards it, the daemon knows it. -/
theorem takenCronIntent_eq_of_runsTo
    (runs : Machine.RunsTo (step env) (KeepsImplied env) (start env terminalSize) frontend) :
    frontend.takenCronIntent = frontend.app.cronIntent := by
  have told : Remembers frontend ∧
      frontend.lastCronIntent.getD .closed = frontend.app.cronIntent := by
    apply runs.invariant fun frontend =>
      Remembers frontend ∧ frontend.lastCronIntent.getD .closed = frontend.app.cronIntent
    · exact ⟨⟨rfl, rfl⟩, start_cronIntent.symm⟩
    · rintro before event after ⟨remembers, told⟩ keeps stepped
      refine ⟨remembers_of_step stepped remembers, ?_⟩
      rw [lastCronIntent_of_step stepped]
      cases takes : event.takesCron with
      | true => rfl
      | false =>
          rcases keeps with ready | leaves
          · rw [takes] at ready
            cases ready
          · rw [leaves after stepped]
            exact told
  rw [takenCronIntent, ← told.1.cron]
  exact told.2

section Example

/-- One pending system whose scheduler reports these jobs, if it has reported at all. -/
def oneHostDocument (generation : ℕ) (jobs : Option (List SchedulerJobV2)) : FrontendSnapshot where
  generation
  pollInitialized := false
  systems :=
    [{ id := "a"
       endpoint := { id := "a", host := "10.0.0.1", port := 11310, name := none }
       configuredName := none
       reachability := .pending
       latest := none }]
  cronDisplayHistory := 5
  cron :=
    [{ systemId := "a"
       summary := jobs.map fun jobs =>
         { schemaVersion := 2
           generatedAtUnixMs := 0
           epoch := { startedAtUnixMs := 1, nonce := 1 }
           historyRevision := 0
           jobs }
       lastError := none
       history := [] }]
  eggpool := none

def backupJob : SchedulerJobV2 where
  name := "backup"
  schedule := "* * * * *"
  nextDueUnixMs := 60000
  state := .idle
  load := none
  pendingSinceUnixMs := none
  nextRetryUnixMs := none
  runningSinceUnixMs := none
  last := none

/-- The intents taken and implied after a run. -/
def intentsAfter (events : List FrontendEvent) :
    Option (CronIntentRequest × CronIntentRequest) :=
  (Machine.run (step .plain) (start .plain (some (80, 24))) events).map fun frontend =>
    (frontend.takenCronIntent, frontend.app.cronIntent)

/-- A pane opened after the job is known. -/
def openedLate : List FrontendEvent :=
  [.document (oneHostDocument 1 (some [backupJob])) .ready, .action .toggleCron .ready]

theorem takenCronIntent_openedLate : ∃ frontend,
    Machine.run (step .plain) (start .plain (some (80, 24))) openedLate = some frontend ∧
      frontend.takenCronIntent = ⟨some "a", some "backup", 5⟩ ∧
      Machine.LastStep (step .plain) (start .plain (some (80, 24))) openedLate
        FrontendEvent.takesCron (LeavesImplied .plain ⟨some "a", some "backup", 5⟩) := by
  have after : intentsAfter openedLate =
      some (⟨some "a", some "backup", 5⟩, ⟨some "a", some "backup", 5⟩) := by
    decide +kernel
  rcases Option.map_eq_some_iff.mp after with ⟨frontend, ran, intents⟩
  rcases Prod.mk.inj intents with ⟨taken, implied⟩
  refine ⟨frontend, ran, taken, ?_⟩
  rw [← implied]
  exact ((takenCronIntent_eq_iff ran).mp (taken.trans implied.symm)).1

/-- The pane is opened before the job is known. The document that reports it makes the pane show
it, but nothing is sent. -/
theorem takenCronIntent_openedEarly : ∃ frontend,
    Machine.run (step .plain) (start .plain (some (80, 24)))
        [.document (oneHostDocument 1 none) .ready, .action .toggleCron .ready,
          .document (oneHostDocument 2 (some [backupJob])) .ready] = some frontend ∧
      frontend.app.lastSnapshotGeneration = 2 ∧
      frontend.takenCronIntent ≠ frontend.app.cronIntent := by
  refine ⟨_, rfl, rfl, ?_⟩
  decide +kernel

end Example

end Frontend

end Gregg.Tui
