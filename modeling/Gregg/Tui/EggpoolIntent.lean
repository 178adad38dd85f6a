import Gregg.Tui.EventLoop

/-!
# What the daemon knows of the EggPool pane

A document re-offers the EggPool intent only while a period request is pending that it does not
confirm. In every other case what the sink took before has to fit the state the document leaves,
whose pane may have been opened by the document itself.
-/

namespace Gregg.Tui

open Gregg.Clientd

/-- An adopted document that carries an EggPool entry and finds the sink ready. -/
def FrontendEvent.Settles (frontend : Frontend) : FrontendEvent → Prop
  | .document published sink =>
      published.isNewerThan frontend.app.lastSnapshotGeneration = true ∧
        published.eggpool.isSome = true ∧ sink.eggpool = true
  | _ => False

namespace Frontend

variable {env : Surroundings} {frontend next : Frontend} {event : FrontendEvent}
  {events : List FrontendEvent} {terminalSize : Option (ℕ × ℕ)} {document : FrontendSnapshot}
  {sink : Sink}

def toldActive (frontend : Frontend) : Bool :=
  (frontend.takenEggpoolIntent.map EggpoolIntentRequest.active).getD false

/-- The window of the last intent the sink took, when it says that the pane is open. -/
def toldPeriod (frontend : Frontend) : Option EggpoolPeriod :=
  (frontend.takenEggpoolIntent.filter EggpoolIntentRequest.active).map EggpoolIntentRequest.period

def askedPeriod (frontend : Frontend) : Option EggpoolPeriod :=
  frontend.offeredEggpoolIntent.map EggpoolIntentRequest.period

/-- A window that the operator waits for or, without a pending request, one the frontend last asked
for or sees. -/
def Wants (frontend : Frontend) (period : EggpoolPeriod) : Prop :=
  match frontend.app.eggpoolPeriodRequest with
  | some request => period = request
  | none =>
      frontend.askedPeriod = some period ∨
        frontend.app.eggpool.map EggpoolState.period = some period

/-- The daemon knows whether the pane is open, and a window the frontend wants if it is. -/
structure EggpoolKnown (frontend : Frontend) : Prop where
  active : frontend.toldActive = frontend.isActive
  period : ∀ period, frontend.toldPeriod = some period → frontend.Wants period

/-- What the sink took before fits what the document leaves: the pane, and a window that was last
asked for or that the document carries. -/
structure FitsDocument (frontend : Frontend) (document : FrontendSnapshot) : Prop where
  active : frontend.toldActive = decide (frontend.app.paneAfter document = .eggpool)
  period : ∀ period, frontend.toldPeriod = some period →
    frontend.askedPeriod = some period ∨
      document.eggpool.map EggpoolSnapshotDto.period = some period

/-- A pending request outlives the document, or what was told before fits it. -/
def KnowsAfter (frontend : Frontend) : FrontendEvent → Prop
  | .document document _ =>
      (frontend.app.requestAfter document).isSome = true ∨ frontend.FitsDocument document
  | _ => True

/-- A document adopted before anything is offered again. -/
def adopt (env : Surroundings) (frontend : Frontend) (document : FrontendSnapshot) : Frontend :=
  { frontend with app := frontend.app.adoptSnapshot env document }

/-- A request the document confirms or does not find leaves nothing to re-offer. -/
theorem applyDocument_of_none
    (newer : document.isNewerThan frontend.app.lastSnapshotGeneration = true)
    (confirmed : frontend.app.requestAfter document = none) :
    frontend.applyDocument env document sink = frontend.adopt env document := by
  have adopted : AppState.Adopted _ _ (frontend.app.adoptSnapshot env document) :=
    AppState.adopted_adoptSnapshot newer
  have request : (frontend.adopt env document).app.eggpoolPeriodRequest = none :=
    adopted.eggpoolPeriodRequest.trans confirmed
  show (frontend.adopt env document).retryPendingEggpoolIntent sink.eggpool = _
  rw [retryPendingEggpoolIntent, request]

/-- A request that outlives the document is for another window than the document's. -/
theorem requestAfter_ne {dto : EggpoolSnapshotDto} {request : EggpoolPeriod}
    (entry : document.eggpool = some dto)
    (pending : frontend.app.requestAfter document = some request) : dto.period ≠ request := by
  simp only [AppState.requestAfter, entry] at pending
  split at pending
  · cases pending
  · rename_i different
    rintro rfl
    exact different pending

theorem takenEggpoolIntent_offer {intent : EggpoolIntentRequest} :
    (frontend.offerEggpoolIntent intent true).takenEggpoolIntent = some intent := by
  simp [offerEggpoolIntent, offer, takenEggpoolIntent, Offer.whenTaken, Offer.eggpoolIntent]

/-- A retry tells the daemon the pane and the pending request, or it was told before. -/
theorem takenEggpoolIntent_retry {eggpool : EggpoolState} {request : EggpoolPeriod}
    (remembers : Remembers frontend) (entry : frontend.app.eggpool = some eggpool)
    (pending : frontend.app.eggpoolPeriodRequest = some request)
    (different : eggpool.period ≠ request) :
    (frontend.retryPendingEggpoolIntent true).takenEggpoolIntent =
      some ⟨frontend.isActive, request, false⟩ := by
  simp only [retryPendingEggpoolIntent, pending, entry, if_neg different]
  split
  · rename_i told
    exact remembers.eggpool.symm.trans told
  · exact takenEggpoolIntent_offer

/-- With a request outstanding, an adopted document makes the daemon know. -/
theorem known_of_outstanding {request : EggpoolPeriod} (remembers : Remembers frontend)
    (settles : FrontendEvent.Settles frontend (.document document sink))
    (pending : frontend.app.requestAfter document = some request) :
    EggpoolKnown (frontend.applyDocument env document sink) := by
  rcases settles with ⟨newer, carries, ready⟩
  rcases Option.isSome_iff_exists.mp carries with ⟨dto, entry⟩
  have adopted : AppState.Adopted _ _ (frontend.app.adoptSnapshot env document) :=
    AppState.adopted_adoptSnapshot newer
  have rememberedAdopted : Remembers (frontend.adopt env document) :=
    ⟨remembers.eggpool, remembers.cron⟩
  have shows : (frontend.adopt env document).app.eggpool = some ⟨dto.period⟩ := by
    refine adopted.eggpool.trans ?_
    rw [entry, Option.map_some]
  have asks : (frontend.adopt env document).app.eggpoolPeriodRequest = some request :=
    adopted.eggpoolPeriodRequest.trans pending
  have told := takenEggpoolIntent_retry rememberedAdopted shows asks (requestAfter_ne entry pending)
  have applied : frontend.applyDocument env document sink =
      (frontend.adopt env document).retryPendingEggpoolIntent true := by
    rw [← ready]
    rfl
  have sameActive : (frontend.applyDocument env document sink).isActive =
      (frontend.adopt env document).isActive := by
    rw [applied, isActive, retry_app]
    rfl
  constructor
  · rw [toldActive, sameActive, applied, told]
    rfl
  · intro period toldPeriod
    rw [Frontend.toldPeriod, applied, told] at toldPeriod
    rw [Wants, applied, retry_app, asks]
    cases active : (frontend.adopt env document).isActive with
    | false => simp [Option.filter, active] at toldPeriod
    | true =>
        simp only [Option.filter, active, if_true, Option.map_some, Option.some.injEq]
          at toldPeriod
        exact toldPeriod.symm

theorem known_iff_fits (settles : FrontendEvent.Settles frontend (.document document sink))
    (confirmed : frontend.app.requestAfter document = none) :
    EggpoolKnown (frontend.applyDocument env document sink) ↔ frontend.FitsDocument document := by
  rcases settles with ⟨newer, -, -⟩
  have adopted : AppState.Adopted _ _ (frontend.app.adoptSnapshot env document) :=
    AppState.adopted_adoptSnapshot newer
  rw [applyDocument_of_none newer confirmed]
  have pane : (frontend.adopt env document).isActive =
      decide (frontend.app.paneAfter document = .eggpool) := by
    rw [isActive]
    congr 1
    rw [adopt, adopted.activePane]
  have shown : (frontend.adopt env document).app.eggpool.map EggpoolState.period =
      document.eggpool.map EggpoolSnapshotDto.period := by
    rw [adopt, adopted.eggpool, Option.map_map]
    rfl
  have wants : ∀ period, (frontend.adopt env document).Wants period ↔
      frontend.askedPeriod = some period ∨
        document.eggpool.map EggpoolSnapshotDto.period = some period := by
    intro period
    have request : (frontend.adopt env document).app.eggpoolPeriodRequest = none :=
      adopted.eggpoolPeriodRequest.trans confirmed
    rw [Wants, request, ← shown]
    rfl
  constructor
  · rintro ⟨active, period⟩
    refine ⟨active.trans pane, ?_⟩
    intro told isTold
    exact (wants told).mp (period told isTold)
  · rintro ⟨active, period⟩
    refine ⟨active.trans pane.symm, ?_⟩
    intro told isTold
    exact (wants told).mpr (period told isTold)

theorem known_iff_knowsAfter (remembers : Remembers frontend) (settles : event.Settles frontend)
    (stepped : step env frontend event = some next) :
    EggpoolKnown next ↔ frontend.KnowsAfter event := by
  cases event with
  | action _ _ => cases settles
  | highlightExpired => cases settles
  | document document sink =>
      cases stepped
      cases pending : frontend.app.requestAfter document with
      | some request =>
          apply iff_of_true (known_of_outstanding remembers settles pending)
          left
          rw [pending]
          rfl
      | none =>
          rw [known_iff_fits settles pending, KnowsAfter, pending]
          simp

/-- The documents that settle the EggPool intent leave the daemon knowing it. -/
def SettlesKnown (env : Surroundings) (before : Frontend) (event : FrontendEvent) : Prop :=
  event.Settles before → ∀ after, step env before event = some after → EggpoolKnown after

/-- In every run, each adopted document with an EggPool entry that finds the sink ready leaves the
daemon knowing the pane and the window if and only if, for each of them, a pending request outlives
it or what was told before fits it. -/
theorem everyStep_settlesKnown_iff (env : Surroundings) (terminalSize : Option (ℕ × ℕ))
    (events : List FrontendEvent) :
    Machine.EveryStep (step env) (start env terminalSize) events (SettlesKnown env) ↔
      Machine.EveryStep (step env) (start env terminalSize) events
        (fun before event => event.Settles before → before.KnowsAfter event) := by
  apply Machine.everyStep_congr
  intro earlier event before ranBefore
  have remembers := remembers_of_run ranBefore
  constructor
  · intro known settles
    cases stepped : step env before event with
    | some after =>
        exact (known_iff_knowsAfter remembers settles stepped).mp (known settles _ stepped)
    | none =>
        cases event with
        | action _ _ => cases settles
        | highlightExpired => cases settles
        | document _ _ => cases stepped
  · intro knows settles after stepped
    exact (known_iff_knowsAfter remembers settles stepped).mpr (knows settles)

/-- The sink takes what an action offers, and a document leaves the pane as it is. -/
def KeepsTelling (before : Frontend) : FrontendEvent → Prop
  | .action _ sink => sink.eggpool = true
  | .document document _ => before.app.paneAfter document = before.app.activePane
  | .highlightExpired => True

/-- What was told is the pane, and the window last asked for, the pending one if there is one. -/
structure Tells (frontend : Frontend) : Prop where
  active : frontend.toldActive = frontend.isActive
  asked : ∀ period, frontend.toldPeriod = some period → frontend.askedPeriod = some period
  pending : ∀ request period, frontend.app.eggpoolPeriodRequest = some request →
    frontend.toldPeriod = some period → period = request

theorem Tells.known (tells : Tells frontend) : EggpoolKnown frontend := by
  refine ⟨tells.active, ?_⟩
  intro period told
  unfold Wants
  split
  · rename_i request asks
    exact tells.pending request period asks told
  · exact .inl (tells.asked period told)

/-- What counts for the EggPool pane. -/
structure SameTelling (before after : Frontend) : Prop where
  app : AppState.SameEggpool before.app after.app
  taken : after.takenEggpoolIntent = before.takenEggpoolIntent
  offered : after.offeredEggpoolIntent = before.offeredEggpoolIntent

theorem Tells.of_same (tells : Tells frontend) (same : SameTelling frontend next) :
    Tells next := by
  have active : next.isActive = frontend.isActive := by
    rw [isActive, isActive, same.app.activePane]
  constructor
  · rw [active, toldActive, same.taken]
    exact tells.active
  · intro period told
    rw [askedPeriod, same.offered]
    rw [toldPeriod, same.taken] at told
    exact tells.asked period told
  · intro request period asks told
    rw [same.app.eggpoolPeriodRequest] at asks
    rw [toldPeriod, same.taken] at told
    exact tells.pending request period asks told

theorem sameTelling_forwardCronIntent {taken : Bool} :
    SameTelling frontend (frontend.forwardCronIntent taken) := by
  unfold forwardCronIntent
  simp only
  split
  · exact ⟨⟨rfl, rfl, rfl⟩, rfl, rfl⟩
  · refine ⟨⟨rfl, rfl, rfl⟩, ?_, ?_⟩
    · simp [takenEggpoolIntent, offer, Offer.whenTaken, Offer.eggpoolIntent]
    · simp [offeredEggpoolIntent, offer, Offer.eggpoolIntent]

theorem sameTelling_offer_reloadConfig {taken : Bool} :
    SameTelling frontend (frontend.offer .reloadConfig taken) := by
  refine ⟨⟨rfl, rfl, rfl⟩, ?_, ?_⟩
  · simp [takenEggpoolIntent, offer, Offer.whenTaken, Offer.eggpoolIntent]
  · simp [offeredEggpoolIntent, offer, Offer.eggpoolIntent]

theorem toldPeriod_of_taken {intent : EggpoolIntentRequest} {period : EggpoolPeriod}
    (taken : frontend.takenEggpoolIntent = some intent)
    (told : frontend.toldPeriod = some period) : period = intent.period := by
  rw [toldPeriod, taken] at told
  cases active : intent.active with
  | false => simp [Option.filter, active] at told
  | true =>
      simp only [Option.filter, active, if_true, Option.map_some, Option.some.injEq] at told
      exact told.symm

theorem tells_of_taken {intent : EggpoolIntentRequest}
    (taken : frontend.takenEggpoolIntent = some intent) (active : intent.active = frontend.isActive)
    (asked : ∀ period, frontend.toldPeriod = some period → frontend.askedPeriod = some period)
    (current : ∀ request, frontend.app.eggpoolPeriodRequest = some request →
      intent.period = request) : Tells frontend := by
  refine ⟨?_, asked, ?_⟩
  · rw [toldActive, taken]
    exact active
  · intro request period asks told
    exact (toldPeriod_of_taken taken told).trans (current request asks)

theorem askedPeriod_offer {intent : EggpoolIntentRequest} {taken : Bool} :
    (frontend.offerEggpoolIntent intent taken).askedPeriod = some intent.period := by
  simp [askedPeriod, offeredEggpoolIntent, offerEggpoolIntent, offer, Offer.eggpoolIntent]

theorem asked_offerEggpoolIntent {intent : EggpoolIntentRequest} {period : EggpoolPeriod}
    (told : (frontend.offerEggpoolIntent intent true).toldPeriod = some period) :
    (frontend.offerEggpoolIntent intent true).askedPeriod = some period := by
  rw [toldPeriod_of_taken takenEggpoolIntent_offer told]
  exact askedPeriod_offer

/-- A refused offer of the pending window changes nothing in what was told. -/
theorem tells_of_refused {intent : EggpoolIntentRequest} (tells : Tells frontend)
    (pending : frontend.app.eggpoolPeriodRequest = some intent.period) :
    Tells (frontend.offerEggpoolIntent intent false) := by
  have taken : (frontend.offerEggpoolIntent intent false).takenEggpoolIntent =
      frontend.takenEggpoolIntent := by
    simp [takenEggpoolIntent, offerEggpoolIntent, offer, Offer.whenTaken]
  constructor
  · rw [toldActive, taken]
    exact tells.active
  · intro period told
    rw [toldPeriod, taken] at told
    rw [askedPeriod_offer, tells.pending intent.period period pending told]
  · intro request period asks told
    rw [toldPeriod, taken] at told
    exact tells.pending request period asks told

/-- After an action with an entry, the sink holds the current pane and window. -/
theorem tells_forwardEggpoolIntent {before : AppState} {isRefresh : Bool} {eggpool : EggpoolState}
    (remembers : Remembers frontend) (entry : frontend.app.eggpool = some eggpool)
    (asked : ∀ period, frontend.toldPeriod = some period → frontend.askedPeriod = some period) :
    Tells (frontend.forwardEggpoolIntent before isRefresh true) := by
  have current : ∀ request, frontend.app.eggpoolPeriodRequest = some request →
      frontend.app.eggpoolPeriodRequest.getD eggpool.period = request := by
    intro request asks
    rw [asks, Option.getD_some]
  simp only [forwardEggpoolIntent, entry]
  split
  · rename_i unchanged
    exact tells_of_taken (remembers.eggpool.symm.trans unchanged.2.2.2) rfl asked current
  · refine tells_of_taken takenEggpoolIntent_offer rfl ?_ current
    intro period told
    exact asked_offerEggpoolIntent told

theorem tells_dispatchAction {action : Action} (remembers : Remembers frontend)
    (tells : Tells frontend) (ready : sink.eggpool = true) :
    Tells (frontend.dispatchAction env action sink) := by
  have keeps : AppState.KeepsEggpool frontend.app (frontend.app.applyAction env action) :=
    AppState.keepsEggpool_applyAction
  let applied : Frontend := { frontend with app := frontend.app.applyAction env action }
  have rememberedApplied : Remembers applied := ⟨remembers.eggpool, remembers.cron⟩
  unfold dispatchAction
  simp only
  split
  · rename_i reloads
    have unchanged : SameTelling frontend applied := by
      refine ⟨?_, rfl, rfl⟩
      simp only [Bool.and_eq_true, decide_eq_true_eq] at reloads
      have same : AppState.SameEggpool frontend.app frontend.app := ⟨rfl, rfl, rfl⟩
      simpa [applied, reloads.1, AppState.applyAction] using same
    exact ((tells.of_same unchanged).of_same sameTelling_offer_reloadConfig).of_same
      sameTelling_forwardCronIntent
  · have forwarded : SameTelling applied (applied.forwardCronIntent sink.cron) :=
      sameTelling_forwardCronIntent
    cases entry : (applied.forwardCronIntent sink.cron).app.eggpool with
    | none =>
        have withoutEntry : frontend.app.eggpool = none := by
          rw [← keeps.eggpool, ← entry, forwarded.app.eggpool]
        have unchanged : SameTelling frontend applied :=
          ⟨keeps.withoutEntry withoutEntry, rfl, rfl⟩
        rw [forwardEggpoolIntent]
        simp only [applied] at entry
        rw [entry]
        exact (tells.of_same unchanged).of_same forwarded
    | some eggpool =>
        rw [ready]
        apply tells_forwardEggpoolIntent (remembers_forwardCronIntent rememberedApplied) entry
        intro period told
        rw [toldPeriod, forwarded.taken] at told
        rw [askedPeriod, forwarded.offered]
        exact tells.asked period told

theorem tells_adopt (tells : Tells frontend)
    (keeps : frontend.app.paneAfter document = frontend.app.activePane) :
    Tells (frontend.adopt env document) := by
  by_cases newer : document.isNewerThan frontend.app.lastSnapshotGeneration = true
  · have adopted : AppState.Adopted _ _ (frontend.app.adoptSnapshot env document) :=
      AppState.adopted_adoptSnapshot newer
    refine ⟨?_, tells.asked, ?_⟩
    · rw [isActive, adopt, adopted.activePane, keeps]
      exact tells.active
    · intro request period asks told
      rw [adopt, adopted.eggpoolPeriodRequest] at asks
      exact tells.pending request period (AppState.request_of_requestAfter asks) told
  · rw [adopt, AppState.adoptSnapshot, if_neg newer]
    exact tells

theorem tells_retryPendingEggpoolIntent {taken : Bool} (tells : Tells frontend) :
    Tells (frontend.retryPendingEggpoolIntent taken) := by
  unfold retryPendingEggpoolIntent
  split
  · rename_i request eggpool pending entry
    simp only
    split
    · exact tells
    · split
      · exact tells
      · cases taken with
        | true =>
            refine tells_of_taken takenEggpoolIntent_offer rfl ?_ ?_
            · intro period told
              exact asked_offerEggpoolIntent told
            · intro other asks
              exact Option.some.inj (pending.symm.trans asks)
        | false => exact tells_of_refused tells pending
  · exact tells

theorem tells_applyDocument (tells : Tells frontend)
    (keeps : frontend.app.paneAfter document = frontend.app.activePane) :
    Tells (frontend.applyDocument env document sink) := by
  apply tells_retryPendingEggpoolIntent
  exact tells_adopt tells keeps

theorem start_tells : Tells (start env terminalSize) := by
  refine ⟨?_, ?_, ?_⟩
  · cases terminalSize <;> rfl
  · intro period told
    cases told
  · intro request period asks told
    cases told

/-- As long as the sink takes what actions offer and no document opens or closes the pane, the
daemon knows the pane and the window in every state. -/
theorem eggpoolKnown_of_runsTo
    (runs : Machine.RunsTo (step env) KeepsTelling (start env terminalSize) frontend) :
    EggpoolKnown frontend := by
  have told : Remembers frontend ∧ Tells frontend := by
    apply runs.invariant fun frontend => Remembers frontend ∧ Tells frontend
    · exact ⟨⟨rfl, rfl⟩, start_tells⟩
    · rintro before event after ⟨remembers, tells⟩ keeps stepped
      refine ⟨remembers_of_step stepped remembers, ?_⟩
      cases turns_of_step stepped with
      | action action sink armed dispatched =>
          rw [dispatched]
          let counting : Frontend :=
            { before with requestGeneration := satAdd before.requestGeneration 1 }
          have remembersCounting : Remembers counting := ⟨remembers.eggpool, remembers.cron⟩
          have counted : SameTelling before counting := ⟨⟨rfl, rfl, rfl⟩, rfl, rfl⟩
          have told : Tells (counting.dispatchAction env action sink) :=
            tells_dispatchAction remembersCounting (tells.of_same counted) keeps
          exact told.of_same ⟨⟨rfl, rfl, rfl⟩, rfl, rfl⟩
      | document document sink applied =>
          rw [applied]
          exact tells_applyDocument tells keeps
      | highlightExpired expired =>
          rw [expired]
          apply tells.of_same
          exact ⟨AppState.sameEggpool_clearSelectionHighlight, rfl, rfl⟩
  exact told.2.known

section Example

/-- A fleet without systems, with an EggPool entry. -/
def eggpoolDocument (generation : ℕ) (systems : List SystemSnapshotDto) : FrontendSnapshot where
  generation
  pollInitialized := true
  systems
  cronDisplayHistory := 5
  cron := []
  eggpool := some ⟨.day⟩

def oneHost : SystemSnapshotDto where
  id := "a"
  endpoint := { id := "a", host := "10.0.0.1", port := 11310, name := none }
  configuredName := none
  reachability := .online
  latest := none

theorem not_settlesKnown {start : Frontend} {earlier : List FrontendEvent} {before after : Frontend}
    (settles : event.Settles before) (stepped : step env before event = some after)
    (ranBefore : Machine.run (step env) start earlier = some before)
    (differs : after.toldActive ≠ after.isActive) :
    ¬Machine.EveryStep (step env) start (earlier ++ [event]) (SettlesKnown env) := by
  intro known
  exact differs (known earlier event [] before rfl ranBefore settles after stepped).active

/-- The first document of an EggPool-only fleet opens the pane, and nothing is sent. A refused
activation is not offered again by the document that follows it. -/
theorem not_settlesKnown_eggpoolOnly :
    ¬Machine.EveryStep (step .plain) (start .plain none)
        [.document (eggpoolDocument 1 []) .ready] (SettlesKnown .plain) ∧
      ¬Machine.EveryStep (step .plain) (start .plain none)
        ([.document (eggpoolDocument 1 [oneHost]) .ready, .action .nextPane .full] ++
          [.document (eggpoolDocument 2 [oneHost]) .ready]) (SettlesKnown .plain) := by
  constructor
  · have ranBefore : Machine.run (step .plain) (start .plain none) [] =
        some (start .plain none) := rfl
    apply not_settlesKnown _ rfl ranBefore
    · decide +kernel
    · exact ⟨rfl, rfl, rfl⟩
  · apply not_settlesKnown _ rfl rfl
    · decide +kernel
    · exact ⟨rfl, rfl, rfl⟩

end Example

end Frontend

end Gregg.Tui
