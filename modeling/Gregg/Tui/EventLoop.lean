import Gregg.Lib.Machine
import Gregg.Tui.Action

/-!
# The frontend's event loop

Key actions and published documents change the render model; what they imply is offered to the
daemon through a bounded sink that may refuse. The loop remembers the intents the sink took, so that
an unchanged one is not offered again. Everything that was offered is logged.

Of the frames only documents change the model. The loop is followed until it ends.
-/

namespace Gregg.Tui

open Gregg.Clientd

structure EggpoolIntentRequest where
  active : Bool
  period : EggpoolPeriod
  refresh : Bool
  deriving DecidableEq

/-- What a frontend has open in a cron detail block. -/
structure CronIntentRequest where
  systemId : Option String
  job : Option String
  displayHistory : ℕ
  deriving DecidableEq

/-- The intent of a closed pane, which the daemon assumes until it hears of another. -/
def CronIntentRequest.closed : CronIntentRequest where
  systemId := none
  job := none
  displayHistory := 0

/-- The cron intent a state implies. -/
def AppState.cronIntent (state : AppState) : CronIntentRequest :=
  if state.cronExpanded then
    match state.selectedId, state.selectedCronJob with
    | some systemId, some job =>
        { systemId := some systemId
          job := some job
          displayHistory := state.cronDisplayHistory }
    -- Expanded but nothing to show yet.
    | _, _ => .closed
  else .closed

/-- A request handed to the sink, and whether it was taken. -/
structure Offer where
  request : DaemonRequest
  taken : Bool
  deriving DecidableEq

/-- Whether the sink takes a request of each kind during one event. -/
structure Sink where
  reload : Bool
  eggpool : Bool
  cron : Bool
  deriving DecidableEq

def Sink.ready : Sink where
  reload := true
  eggpool := true
  cron := true

def Sink.full : Sink where
  reload := false
  eggpool := false
  cron := false

structure Frontend where
  app : AppState
  requestGeneration : ℕ
  lastIntent : Option EggpoolIntentRequest
  lastCronIntent : Option CronIntentRequest
  highlightArmed : Bool
  offers : List Offer

inductive FrontendEvent where
  | action (action : Action) (sink : Sink)
  | document (document : FrontendSnapshot) (sink : Sink)
  | highlightExpired

namespace Offer

def cronIntent (offer : Offer) : Option CronIntentRequest :=
  match offer.request with
  | .setCronIntent systemId job displayHistory _ => some ⟨systemId, job, displayHistory⟩
  | _ => none

def eggpoolIntent (offer : Offer) : Option EggpoolIntentRequest :=
  match offer.request with
  | .setEggpoolIntent active period refresh _ => some ⟨active, period, refresh⟩
  | _ => none

/-- A reading of the offers the sink took. -/
def whenTaken {Reading : Type} (read : Offer → Option Reading) (offer : Offer) : Option Reading :=
  if offer.taken then read offer else none

end Offer

/-- The last of the offers a reading applies to, as it reads it. -/
def latest {Reading : Type} (read : Offer → Option Reading) (offers : List Offer) :
    Option Reading :=
  (offers.filterMap read).getLast?

@[simp]
theorem latest_nil {Reading : Type} {read : Offer → Option Reading} : latest read [] = none :=
  rfl

@[simp]
theorem latest_append_singleton {Reading : Type} {read : Offer → Option Reading}
    {offers : List Offer} {offer : Offer} :
    latest read (offers ++ [offer]) = (read offer).or (latest read offers) := by
  unfold latest
  rw [List.filterMap_append]
  cases reading : read offer with
  | none => simp [reading]
  | some value => simp [reading]

namespace Frontend

/-- The loop as it starts, on a terminal whose size may be known. -/
def start (env : Surroundings) (terminalSize : Option (ℕ × ℕ)) : Frontend where
  app :=
    match terminalSize with
    | some (width, height) => AppState.blank.applyAction env (.resize width height)
    | none => AppState.blank
  requestGeneration := 0
  lastIntent := none
  lastCronIntent := none
  highlightArmed := false
  offers := []

def offer (frontend : Frontend) (request : ℕ → DaemonRequest) (taken : Bool) : Frontend :=
  let generation := satAdd frontend.requestGeneration 1
  { frontend with
    requestGeneration := generation
    offers := frontend.offers ++ [⟨request generation, taken⟩] }

/-- The last cron intent the sink took, which is closed when there is none. -/
def takenCronIntent (frontend : Frontend) : CronIntentRequest :=
  (latest (Offer.whenTaken Offer.cronIntent) frontend.offers).getD .closed

def takenEggpoolIntent (frontend : Frontend) : Option EggpoolIntentRequest :=
  latest (Offer.whenTaken Offer.eggpoolIntent) frontend.offers

def offeredEggpoolIntent (frontend : Frontend) : Option EggpoolIntentRequest :=
  latest Offer.eggpoolIntent frontend.offers

/-- Forward the current cron intent when it has changed. -/
def forwardCronIntent (frontend : Frontend) (taken : Bool) : Frontend :=
  let intent := frontend.app.cronIntent
  if frontend.lastCronIntent = some intent then frontend
  else
    { frontend.offer (.setCronIntent intent.systemId intent.job intent.displayHistory) taken with
      -- A dropped intent is not remembered as sent.
      lastCronIntent := if taken then some intent else frontend.lastCronIntent }

def offerEggpoolIntent (frontend : Frontend) (intent : EggpoolIntentRequest) (taken : Bool) :
    Frontend :=
  { frontend.offer (.setEggpoolIntent intent.active intent.period intent.refresh) taken with
    lastIntent := if taken then some intent else frontend.lastIntent }

def isActive (frontend : Frontend) : Bool :=
  frontend.app.activePane = .eggpool

/-- Re-offer an EggPool period the daemon has not taken yet. -/
def retryPendingEggpoolIntent (frontend : Frontend) (taken : Bool) : Frontend :=
  match frontend.app.eggpoolPeriodRequest, frontend.app.eggpool with
  | some period, some eggpool =>
      if eggpool.period = period then frontend
      else
        let intent : EggpoolIntentRequest := ⟨frontend.isActive, period, false⟩
        if frontend.lastIntent = some intent then frontend
        else frontend.offerEggpoolIntent intent taken
  | _, _ => frontend

/-- What an action implies for the EggPool worker, given the state `before` it. -/
def forwardEggpoolIntent (before : AppState) (isRefresh : Bool) (frontend : Frontend)
    (taken : Bool) : Frontend :=
  match frontend.app.eggpool with
  | none => frontend
  | some eggpool =>
      let period := frontend.app.eggpoolPeriodRequest.getD eggpool.period
      let periodMoved := before.eggpool.map EggpoolState.period ≠ some period
      let paneMoved := before.activePane ≠ frontend.app.activePane
      let intent : EggpoolIntentRequest := ⟨frontend.isActive, period, isRefresh⟩
      if isRefresh = false ∧ ¬paneMoved ∧ ¬periodMoved ∧ frontend.lastIntent = some intent then
        frontend
      else frontend.offerEggpoolIntent intent taken

/-- Apply one action and forward whatever it implies to the daemon. -/
def dispatchAction (env : Surroundings) (frontend : Frontend) (action : Action) (sink : Sink) :
    Frontend :=
  let isRefresh : Bool := action = .refreshNow
  let applied := { frontend with app := frontend.app.applyAction env action }
  if isRefresh && applied.app.activePane ≠ .eggpool then
    (applied.offer .reloadConfig sink.reload).forwardCronIntent sink.cron
  else
    (applied.forwardCronIntent sink.cron).forwardEggpoolIntent frontend.app isRefresh sink.eggpool

/-- Adopt one document and settle everything it implies. -/
def applyDocument (env : Surroundings) (frontend : Frontend) (document : FrontendSnapshot)
    (sink : Sink) : Frontend :=
  { frontend with
    app := frontend.app.adoptSnapshot env document }.retryPendingEggpoolIntent sink.eggpool

def selectionChangingSystemsAction (action : Action) (pane : Pane) : Bool :=
  pane = .systems &&
    action ∈ [Action.moveDown, .moveUp, .pageDown, .pageUp, .selectFirst, .selectLast]

/-- One turn of the loop, which `Quit` ends. -/
def step (env : Surroundings) (frontend : Frontend) (event : FrontendEvent) : Option Frontend :=
  match event with
  | .action .quit _ => none
  | .action action sink =>
      let dispatched :=
        { frontend with
          requestGeneration := satAdd frontend.requestGeneration 1 }.dispatchAction env action sink
      let armed :=
        if selectionChangingSystemsAction action frontend.app.activePane then true
        else if !dispatched.app.selectionHighlightActive && frontend.app.selectionHighlightActive
          then false
        else frontend.highlightArmed
      some { dispatched with highlightArmed := armed }
  | .document document sink => some (frontend.applyDocument env document sink)
  | .highlightExpired =>
      if frontend.highlightArmed then
        some { frontend with
          app := frontend.app.applyAction env .clearSelectionHighlight
          highlightArmed := false }
      else none

variable {env : Surroundings} {frontend next : Frontend} {event : FrontendEvent}
  {events : List FrontendEvent} {terminalSize : Option (ℕ × ℕ)}

@[simp]
theorem forwardCronIntent_app {taken : Bool} :
    (frontend.forwardCronIntent taken).app = frontend.app := by
  unfold forwardCronIntent
  simp only
  split <;> rfl

@[simp]
theorem forwardEggpoolIntent_app {before : AppState} {isRefresh taken : Bool} :
    (forwardEggpoolIntent before isRefresh frontend taken).app = frontend.app := by
  unfold forwardEggpoolIntent
  split
  · rfl
  · simp only
    split <;> rfl

@[simp]
theorem retry_app {taken : Bool} :
    (frontend.retryPendingEggpoolIntent taken).app = frontend.app := by
  unfold retryPendingEggpoolIntent
  split
  · simp only
    split
    · rfl
    · split <;> rfl
  · rfl

@[simp]
theorem dispatchAction_app {action : Action} {sink : Sink} :
    (frontend.dispatchAction env action sink).app = frontend.app.applyAction env action := by
  unfold dispatchAction
  simp only
  split <;> simp [offer]

/-- The memory of the loop is what the sink took last. -/
structure Remembers (frontend : Frontend) : Prop where
  eggpool : frontend.lastIntent = frontend.takenEggpoolIntent
  cron : frontend.lastCronIntent = latest (Offer.whenTaken Offer.cronIntent) frontend.offers

theorem remembers_offerEggpoolIntent {intent : EggpoolIntentRequest} {taken : Bool}
    (remembers : Remembers frontend) : Remembers (frontend.offerEggpoolIntent intent taken) := by
  constructor
  · cases taken <;>
      simp [offerEggpoolIntent, offer, takenEggpoolIntent, Offer.whenTaken, Offer.eggpoolIntent,
        remembers.eggpool]
  · simp [offerEggpoolIntent, offer, Offer.whenTaken, Offer.cronIntent, remembers.cron]

theorem remembers_forwardCronIntent {taken : Bool} (remembers : Remembers frontend) :
    Remembers (frontend.forwardCronIntent taken) := by
  unfold forwardCronIntent
  simp only
  split
  · exact remembers
  · constructor
    · simp [offer, takenEggpoolIntent, Offer.whenTaken, Offer.eggpoolIntent, remembers.eggpool]
    · cases taken <;> simp [offer, Offer.whenTaken, Offer.cronIntent, remembers.cron]

theorem remembers_offer_reloadConfig {taken : Bool} (remembers : Remembers frontend) :
    Remembers (frontend.offer .reloadConfig taken) := by
  constructor
  · simp [offer, takenEggpoolIntent, Offer.whenTaken, Offer.eggpoolIntent, remembers.eggpool]
  · simp [offer, Offer.whenTaken, Offer.cronIntent, remembers.cron]

theorem remembers_forwardEggpoolIntent {before : AppState} {isRefresh taken : Bool}
    (remembers : Remembers frontend) :
    Remembers (frontend.forwardEggpoolIntent before isRefresh taken) := by
  unfold forwardEggpoolIntent
  split
  · exact remembers
  · simp only
    split
    · exact remembers
    · exact remembers_offerEggpoolIntent remembers

theorem remembers_retryPendingEggpoolIntent {taken : Bool} (remembers : Remembers frontend) :
    Remembers (frontend.retryPendingEggpoolIntent taken) := by
  unfold retryPendingEggpoolIntent
  split
  · simp only
    split
    · exact remembers
    · split
      · exact remembers
      · exact remembers_offerEggpoolIntent remembers
  · exact remembers

theorem remembers_dispatchAction {action : Action} {sink : Sink} (remembers : Remembers frontend) :
    Remembers (frontend.dispatchAction env action sink) := by
  have applied : Remembers { frontend with app := frontend.app.applyAction env action } :=
    ⟨remembers.eggpool, remembers.cron⟩
  unfold dispatchAction
  simp only
  split
  · exact remembers_forwardCronIntent (remembers_offer_reloadConfig applied)
  · exact remembers_forwardEggpoolIntent (remembers_forwardCronIntent applied)

/-- What a step is made of. -/
inductive Turns (env : Surroundings) (frontend next : Frontend) : FrontendEvent → Prop where
  | action (action : Action) (sink : Sink) (armed : Bool)
      (dispatched : next =
        { { frontend with requestGeneration := satAdd frontend.requestGeneration 1 }.dispatchAction
            env action sink with
          highlightArmed := armed }) : Turns env frontend next (.action action sink)
  | document (document : FrontendSnapshot) (sink : Sink)
      (applied : next = frontend.applyDocument env document sink) :
      Turns env frontend next (.document document sink)
  | highlightExpired
      (expired : next =
        { frontend with
          app := frontend.app.applyAction env .clearSelectionHighlight
          highlightArmed := false }) : Turns env frontend next .highlightExpired

theorem turns_of_step (stepped : step env frontend event = some next) :
    Turns env frontend next event := by
  cases event with
  | action action sink =>
      cases action <;> cases stepped <;> exact .action _ _ _ rfl
  | document document sink =>
      cases stepped
      exact .document _ _ rfl
  | highlightExpired =>
      simp only [step] at stepped
      split at stepped
      · cases stepped
        exact .highlightExpired rfl
      · cases stepped

theorem remembers_of_step (stepped : step env frontend event = some next)
    (remembers : Remembers frontend) : Remembers next := by
  cases turns_of_step stepped with
  | action action sink armed dispatched =>
      have counted : Remembers
          { frontend with requestGeneration := satAdd frontend.requestGeneration 1 } :=
        ⟨remembers.eggpool, remembers.cron⟩
      rw [dispatched]
      rcases remembers_dispatchAction counted with ⟨eggpool, cron⟩
      exact ⟨eggpool, cron⟩
  | document document sink applied =>
      rw [applied]
      apply remembers_retryPendingEggpoolIntent
      exact ⟨remembers.eggpool, remembers.cron⟩
  | highlightExpired expired =>
      rw [expired]
      exact ⟨remembers.eggpool, remembers.cron⟩

theorem remembers_of_run
    (ran : Machine.run (step env) (start env terminalSize) events = some frontend) :
    Remembers frontend := by
  apply Machine.run_induction (fun _ frontend => Remembers frontend) ran
  · exact ⟨rfl, rfl⟩
  · intro _ _ _ _ _ remembers stepped
    exact remembers_of_step stepped remembers

end Frontend

end Gregg.Tui
