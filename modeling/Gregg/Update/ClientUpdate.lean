import Gregg.Update.SelfUpdate

/-!
# The update of the client

The client's update asks first whether its background daemon runs, and looks after it once the
executable is replaced: the daemon is stopped and started again on the new one. A daemon that does
not come back is part of the report, and does not undo the update.
-/

namespace Gregg.Update

open Script

section Lifecycle

/-- What an update did to the client daemon of its config. -/
inductive DaemonLifecycle where
  | noneWasRunning
  | relaunched (id : String)
  | relaunchFailed (id reason : String)

def DaemonLifecycle.ofRelaunch (id : String) : Except String Unit → DaemonLifecycle
  | .ok _ => .relaunched id
  | .error reason => .relaunchFailed id reason

structure UpdateReport where
  outcome : UpdateOutcome
  daemon : DaemonLifecycle

def runtime : Attempt Unit :=
  Script.mapErr UpdateError.io (perform .buildRuntime)

/-- Whether a daemon for the config says that it runs. -/
def clientWasRunning : Attempt Bool := do
  runtime
  let status ← perform .clientDaemonRunning
  pure (status.toOption.getD false)

def relaunch : ExceptT String Program Unit := do
  Script.mapErr id (perform .stopClientDaemon)
  Script.mapErr id (perform .startClientDaemon)

/-- The part of an update after the executable was looked at. -/
def reconcileDaemon (id : String) (wasRunning : Bool) : UpdateOutcome → Attempt UpdateReport
  | .alreadyCurrent version => pure ⟨.alreadyCurrent version, .noneWasRunning⟩
  | outcome =>
      if wasRunning then do
        runtime
        let relaunched ← relaunch.run
        pure ⟨outcome, .ofRelaunch id relaunched⟩
      else pure ⟨outcome, .noneWasRunning⟩

def runUpdateLifecycle (host : Host) (spec : UpdateSpec) (id : String) : Attempt UpdateReport := do
  let wasRunning ← clientWasRunning
  let outcome ← runSimpleUpdate host spec
  reconcileDaemon id wasRunning outcome

end Lifecycle

section Evidence

/-- The question with which an update of the client begins. -/
def asked (status : Except String Bool) : List Entry :=
  [⟨.buildRuntime, .ok ()⟩, ⟨.clientDaemonRunning, status⟩]

/-- The executable is replaced, and the daemon that ran before is still to be looked after. -/
inductive Outdated (host : Host) (spec : UpdateSpec) : List Entry → Prop where
  | mk {latest : String} {fromCargo : Bool} {updating : List Entry}
      (replaced : Replaced host spec latest fromCargo updating) :
      Outdated host spec (asked (.ok true) ++ updating)

/-- The executable is replaced by candidates that may. The daemon is stopped only once it is, where
it ran before, and started only once it was stopped. -/
def ClientAllowed (host : Host) (spec : UpdateSpec) (history : List Entry) : Action → Prop
  | .selfReplace candidate =>
      ∃ status before latest fromCargo staged, history = asked status ++ before ∧
        candidate = staged.path ∧ Replaceable host spec latest fromCargo staged before
  | .stopClientDaemon =>
      ∃ before, Outdated host spec before ∧ history = before ++ [⟨.buildRuntime, .ok ()⟩]
  | .startClientDaemon =>
      ∃ before, Outdated host spec before ∧
        history = before ++ [⟨.buildRuntime, .ok ()⟩, ⟨.stopClientDaemon, .ok ()⟩]
  | action => action.IsQuiet

/-- What an update did about the daemon, by its status before and by the outcome. -/
inductive Reconciled (id : String) (status : Except String Bool) :
    UpdateOutcome → DaemonLifecycle → List Entry → Prop where
  | current (version : String) :
      Reconciled id status (.alreadyCurrent version) .noneWasRunning []
  | untouched {outcome : UpdateOutcome} (notRunning : status ≠ .ok true) :
      Reconciled id status outcome .noneWasRunning []
  | relaunched {outcome : UpdateOutcome} (wasRunning : status = .ok true) :
      Reconciled id status outcome (.relaunched id)
        [⟨.buildRuntime, .ok ()⟩, ⟨.stopClientDaemon, .ok ()⟩, ⟨.startClientDaemon, .ok ()⟩]
  | notStopped {outcome : UpdateOutcome} {reason : String} (wasRunning : status = .ok true) :
      Reconciled id status outcome (.relaunchFailed id reason)
        [⟨.buildRuntime, .ok ()⟩, ⟨.stopClientDaemon, .error reason⟩]
  | notStarted {outcome : UpdateOutcome} {reason : String} (wasRunning : status = .ok true) :
      Reconciled id status outcome (.relaunchFailed id reason)
        [⟨.buildRuntime, .ok ()⟩, ⟨.stopClientDaemon, .ok ()⟩, ⟨.startClientDaemon, .error reason⟩]

/-- What an update of the client has done when it reports. One error comes after a replacement: no
runtime can be built to look after the daemon. -/
def ClientReported (host : Host) (spec : UpdateSpec) (id : String) (history : List Entry) :
    Except UpdateError UpdateReport → Prop
  | .ok report =>
      ∃ status updating after, history = asked status ++ updating ++ after ∧
        Reported host spec updating (.ok report.outcome) ∧
          Reconciled id status report.outcome report.daemon after
  | .error failure =>
      (∀ candidate, ⟨.selfReplace candidate, .ok ()⟩ ∉ history) ∨
        ∃ before reason, failure = .io reason ∧ Outdated host spec before ∧
          history = before ++ [⟨.buildRuntime, .error reason⟩]

variable {host : Host} {spec : UpdateSpec} {id : String} {status : Except String Bool}

theorem clientAllowed_of_allowed {later : List Entry} {action : Action}
    (allowed : Allowed host spec later action) :
    ClientAllowed host spec (asked status ++ later) action := by
  cases action with
  | selfReplace candidate =>
      rcases allowed with ⟨latest, fromCargo, staged, same, replaceable⟩
      exact ⟨status, later, latest, fromCargo, staged, rfl, same, replaceable⟩
  | stopClientDaemon => exact False.elim allowed
  | startClientDaemon => exact False.elim allowed
  | _ => exact allowed

theorem leaves_asked : Leaves (asked status) [] :=
  .refl _

/-- Whatever was asked, nothing was replaced by it. -/
theorem not_replaced_of_asked {trace : List Entry}
    (notReplaced : ∀ candidate, ⟨.selfReplace candidate, .ok ()⟩ ∉ trace) (candidate : OsPath) :
    (⟨.selfReplace candidate, .ok ()⟩ : Entry) ∉ asked status ++ trace := by
  apply List.not_mem_append
  · simp [asked]
  · exact notReplaced candidate

/-- What was done about the daemon after the update is reported with its outcome. -/
theorem reported_of_reconciled {outcome : UpdateOutcome} {daemon : DaemonLifecycle}
    {updating after : List Entry} (reported : Reported host spec updating (.ok outcome))
    (leaves : Leaves updating []) (leavesNothing : Leaves after [])
    (reconciled : Reconciled id status outcome daemon after) :
    Leaves (asked status ++ updating ++ after) [] ∧
      ClientReported host spec id (asked status ++ updating ++ after) (.ok ⟨outcome, daemon⟩) :=
  ⟨(leaves_asked.append leaves).append leavesNothing, status, updating, after, rfl, reported,
    reconciled⟩

/-- The daemon after a replacement: it is stopped and then started, and either can fail. -/
theorem meets_relaunch {outcome : UpdateOutcome} {updating : List Entry}
    (outdated : Outdated host spec (asked (.ok true) ++ updating))
    (reported : Reported host spec updating (.ok outcome)) (leaves : Leaves updating []) :
    (do
      runtime
      let relaunched ← relaunch.run
      pure ⟨outcome, .ofRelaunch id relaunched⟩ : Attempt UpdateReport).run.Meets
      (ClientAllowed host spec)
      (fun history outcome => Leaves history [] ∧ ClientReported host spec id history outcome)
      (asked (.ok true) ++ updating) := by
  rw [meets_run_bind, runtime, meets_run_mapErr]
  apply meets_perform.mpr
  refine ⟨trivial, ?_⟩
  intro built
  cases built with
  | error reason =>
      exact ⟨(leaves_asked.append leaves).append (.refl _), .inr ⟨_, reason, rfl, outdated, rfl⟩⟩
  | ok built =>
      dsimp only [Settled]
      rw [meets_run_bind, meets_run_lift, relaunch, meets_run_bind, meets_run_mapErr]
      apply meets_perform.mpr
      refine ⟨⟨_, outdated, rfl⟩, ?_⟩
      intro stopped
      cases stopped with
      | error reason =>
          rw [List.append_assoc]
          exact reported_of_reconciled reported leaves (.refl _) (.notStopped rfl)
      | ok stopped =>
          dsimp only [Settled]
          rw [meets_run_mapErr]
          apply meets_perform.mpr
          refine ⟨⟨_, outdated, by rw [List.append_assoc]; rfl⟩, ?_⟩
          intro started
          rw [List.append_assoc, List.append_assoc]
          cases started with
          | error reason => exact reported_of_reconciled reported leaves (.refl _) (.notStarted rfl)
          | ok started => exact reported_of_reconciled reported leaves (.refl _) (.relaunched rfl)

theorem meets_reconcileDaemon {outcome : UpdateOutcome} {updating : List Entry}
    (reported : Reported host spec updating (.ok outcome)) (leaves : Leaves updating []) :
    (reconcileDaemon id (status.toOption.getD false) outcome).run.Meets (ClientAllowed host spec)
      (fun history outcome => Leaves history [] ∧ ClientReported host spec id history outcome)
      (asked status ++ updating) := by
  cases wasRunning : status.toOption.getD false with
  | false =>
      have notRunning : status ≠ .ok true := by
        rintro rfl
        cases wasRunning
      rw [← List.append_nil (asked status ++ updating)]
      cases outcome with
      | alreadyCurrent version =>
          exact reported_of_reconciled reported leaves leaves_nil (.current version)
      | updatedBinary old new =>
          exact reported_of_reconciled reported leaves leaves_nil (.untouched notRunning)
      | updatedFromCargo old new =>
          exact reported_of_reconciled reported leaves leaves_nil (.untouched notRunning)
  | true =>
      have isRunning : status = .ok true := by
        cases status with
        | error error => cases wasRunning
        | ok running =>
            cases running with
            | true => rfl
            | false => cases wasRunning
      subst isRunning
      cases outcome with
      | alreadyCurrent version =>
          rw [← List.append_nil (asked (.ok true) ++ updating)]
          exact reported_of_reconciled reported leaves leaves_nil (.current version)
      | updatedBinary old new => exact meets_relaunch (.mk reported.2) reported leaves
      | updatedFromCargo old new => exact meets_relaunch (.mk reported.2) reported leaves

theorem meets_runUpdateLifecycle (host : Host) (spec : UpdateSpec) (id : String) :
    (runUpdateLifecycle host spec id).run.Meets (ClientAllowed host spec)
      (fun history outcome => Leaves history [] ∧ ClientReported host spec id history outcome)
      [] := by
  rw [runUpdateLifecycle, meets_run_bind, clientWasRunning, meets_run_bind, runtime,
    meets_run_mapErr]
  apply meets_perform.mpr
  refine ⟨trivial, ?_⟩
  intro built
  cases built with
  | error reason => exact ⟨.refl _, .inl (by simp)⟩
  | ok built =>
      dsimp only [Settled]
      rw [meets_run_bind, meets_run_lift]
      apply meets_perform.mpr
      refine ⟨trivial, ?_⟩
      intro status
      have wholeUpdate : (runSimpleUpdate host spec >>=
          reconcileDaemon id (status.toOption.getD false)).run.Meets (ClientAllowed host spec)
          (fun history outcome => Leaves history [] ∧ ClientReported host spec id history outcome)
          (asked status ++ []) := by
        rw [meets_run_bind]
        refine (meets_runSimpleUpdate host spec).embed
          (fun _ _ allowed => clientAllowed_of_allowed allowed) ?_
        rintro updating outcome ⟨leaves, reported⟩
        cases outcome with
        | error failure =>
            exact ⟨leaves_asked.append leaves, .inl (not_replaced_of_asked reported)⟩
        | ok outcome => exact meets_reconcileDaemon reported leaves
      exact wholeUpdate

/-- Whatever happens in the world, an update of the client touches its daemon only when it ran
before and once the executable is replaced by a candidate with complete evidence, starts it only
once it was stopped, and reports what became of it. -/
theorem clientUpdate_of_run (host : Host) (spec : UpdateSpec) (id : String) :
    (∀ before action answer,
        (runUpdateLifecycle host spec id).run.Reaches (before ++ [⟨action, answer⟩]) →
          ClientAllowed host spec before action) ∧
      ∀ history outcome, (runUpdateLifecycle host spec id).run.Runs history outcome →
        Leaves history [] ∧ ClientReported host spec id history outcome := by
  have meets := meets_runUpdateLifecycle host spec id
  exact meets.everyRun

end Evidence

end Gregg.Update
