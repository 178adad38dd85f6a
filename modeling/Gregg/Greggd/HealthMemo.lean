import Gregg.Greggd.Server

/-!
# The memo of a ready health body

Every update installs a cell that no request has seen, so that a request whose cell is still the
published one has seen no update since it took the snapshot. What it answers is then made of the
last update.
-/

namespace Gregg.Server

open Protocol

/-- The snapshot that an update publishes for a version. -/
def Update.publishes : Update → (version : MemoVersion) → Option version.Published
  | .snapshot snap _, .v1 => some snap
  | .snapshot _ payload, .v2 => some payload
  | .snapshotV2Only _, .v1 => none
  | .snapshotV2Only payload, .v2 => some payload
  | .snapshotV1Only snap, .v1 => some snap
  | .snapshotV1Only _, .v2 => none
  | .warming, _ => none
  | .failed _, _ => none

def Update.isFailure : Update → Bool
  | .failed _ => true
  | _ => false

def Event.update? : Event → Option Update
  | .update made => some made
  | _ => none

/-- The last update of a run. -/
def lastUpdate (events : List Event) : Option Update :=
  (events.filterMap Event.update?).getLast?

/-- The last update that was no failure. -/
def lastStored (events : List Event) : Option Update :=
  ((events.filterMap Event.update?).filter fun update => !update.isFailure).getLast?

section History

variable {events : List Event} {update : Update}

theorem lastUpdate_append_update : lastUpdate (events ++ [.update update]) = some update := by
  rw [lastUpdate, List.filterMap_append]
  exact List.getLast?_concat

theorem lastUpdate_append_other {event : Event} (other : event.update? = none) :
    lastUpdate (events ++ [event]) = lastUpdate events := by
  simp [lastUpdate, List.filterMap_append, other]

theorem lastStored_append_other {event : Event} (other : event.update? = none) :
    lastStored (events ++ [event]) = lastStored events := by
  simp [lastStored, List.filterMap_append, other]

theorem lastStored_append_failed {message : List Char} :
    lastStored (events ++ [.update (.failed message)]) = lastStored events := by
  rw [lastStored, List.filterMap_append, List.filter_append]
  exact congrArg List.getLast? (List.append_nil _)

theorem lastStored_append_stored (stores : update.isFailure = false) :
    lastStored (events ++ [.update update]) = some update := by
  have kept : (([Event.update update].filterMap Event.update?).filter
      fun update => !update.isFailure) = [update] := by
    change [update].filter (fun update => !update.isFailure) = [update]
    rw [List.filter_singleton, stores]
    rfl
  rw [lastStored, List.filterMap_append, List.filter_append, kept]
  exact List.getLast?_concat

end History

variable {Body : Type} {serializers : Serializers Body} {policy : StalePolicy}
  {version : MemoVersion} {world next : World Body}

section Update

variable {state : PublishedState Body} {cell : ℕ} {update : Update}

theorem healthCell_update : ((state.update serializers cell update).plane version).healthCell =
    cell := by
  cases update <;> cases version <;> rfl

theorem snapshot_update (stores : update.isFailure = false) :
    ((state.update serializers cell update).plane version).snapshot = update.publishes version := by
  cases update with
  | failed message => cases stores
  | _ => cases version <;> rfl

/-- A version is ready after an update that published it. -/
theorem publishes_of_ready
    (unserved : (state.plane version).health.category = some .notServing →
      (state.plane version).health.state ≠ .ready)
    (isReady : ((state.update serializers cell update).plane version).health.state = .ready) :
    ∃ snapshot, update.publishes version = some snapshot ∧
      ((state.update serializers cell update).plane version).snapshot = some snapshot := by
  cases update with
  | snapshot snapshot payload => cases version <;> exact ⟨_, rfl, rfl⟩
  | snapshotV2Only payload =>
      cases version with
      | v1 => cases isReady
      | v2 => exact ⟨_, rfl, rfl⟩
  | snapshotV1Only snapshot =>
      cases version with
      | v1 => exact ⟨_, rfl, rfl⟩
      | v2 => cases isReady
  | warming => cases isReady
  | failed message =>
      change (if (state.plane version).health.category = some .notServing then
          (state.plane version).health
        else .failed .collectorFailure message).state = .ready at isReady
      split at isReady
      · rename_i isUnserved
        exact absurd isReady (unserved isUnserved)
      · cases isReady

theorem statusBytes_update {body : Body}
    (stored : ∀ body, (state.plane version).statusBytes = some body →
      ∃ snapshot, (state.plane version).snapshot = some snapshot ∧
        serializers.status version snapshot = some body)
    (isBody : ((state.update serializers cell update).plane version).statusBytes = some body) :
    ∃ snapshot, ((state.update serializers cell update).plane version).snapshot = some snapshot ∧
      serializers.status version snapshot = some body := by
  cases update with
  | snapshot snap payload => cases version <;> exact ⟨_, rfl, isBody⟩
  | snapshotV2Only payload =>
      cases version with
      | v1 => cases isBody
      | v2 => exact ⟨_, rfl, isBody⟩
  | snapshotV1Only snap =>
      cases version with
      | v1 => exact ⟨_, rfl, isBody⟩
      | v2 => cases isBody
  | warming => cases isBody
  | failed message => exact stored body isBody

/-- A version that is not served is not ready. -/
theorem unserved_update
    (unserved : (state.plane version).health.category = some .notServing →
      (state.plane version).health.state ≠ .ready)
    (isUnserved : ((state.update serializers cell update).plane version).health.category =
      some .notServing) :
    ((state.update serializers cell update).plane version).health.state ≠ .ready := by
  intro isReady
  rcases publishes_of_ready unserved isReady with ⟨snapshot, publishes, -⟩
  cases update with
  | snapshot snap payload => cases version <;> cases isUnserved
  | snapshotV2Only payload =>
      cases version with
      | v1 => cases publishes
      | v2 => cases isUnserved
  | snapshotV1Only snap =>
      cases version with
      | v1 => cases isUnserved
      | v2 => cases publishes
  | warming => cases publishes
  | failed message => cases publishes

end Update

/-- What is known of a version between two steps. -/
structure PlaneSound (serializers : Serializers Body) (world : World Body)
    (version : MemoVersion) : Prop where
  known : (world.published.plane version).healthCell < world.nextCell
  blank : ∀ number, world.nextCell ≤ number → world.cells version number = none
  memo : ∀ body, world.cells version (world.published.plane version).healthCell = some body →
    ∃ snapshot, (world.published.plane version).snapshot = some snapshot ∧
      serializers.readyHealth version snapshot = some body
  status : ∀ body, (world.published.plane version).statusBytes = some body →
    ∃ snapshot, (world.published.plane version).snapshot = some snapshot ∧
      serializers.status version snapshot = some body
  unserved : (world.published.plane version).health.category = some .notServing →
    (world.published.plane version).health.state ≠ .ready

/-- What a request has, as long as its cell is the published one, is of the published snapshot. -/
def RequestSound (serializers : Serializers Body) (world : World Body) : Request Body → Prop
  | .idle => True
  | .asking _ _ => True
  | .holding version _ snapshot cell => cell < world.nextCell ∧
      (cell = (world.published.plane version).healthCell →
        (world.published.plane version).snapshot = some snapshot)
  | .filled version _ cell body => cell < world.nextCell ∧
      (cell = (world.published.plane version).healthCell →
        ∃ snapshot, (world.published.plane version).snapshot = some snapshot ∧
          serializers.readyHealth version snapshot = some body)

structure Sound (serializers : Serializers Body) (world : World Body) : Prop where
  planes : ∀ version, PlaneSound serializers world version
  requests : ∀ who, RequestSound serializers world (world.requests who)

section Steps

theorem of_healthNow_serialize {state : PublishedState Body} {nowUnixMs : Option ℕ}
    {snapshot : version.Published} {cell : ℕ}
    (serializes : healthNow serializers policy state version nowUnixMs =
      .serialize snapshot cell) :
    (state.plane version).snapshot = some snapshot ∧
      cell = (state.plane version).healthCell := by
  simp only [healthNow] at serializes
  split at serializes
  · split at serializes
    · cases serializes
    · split at serializes
      · rename_i isSnapshot
        cases serializes
        exact ⟨isSnapshot, rfl⟩
      · cases serializes
  · cases serializes

/-- No request has the cell of an update yet. -/
theorem Sound.update (sound : Sound serializers world) (update : Update) :
    Sound serializers
      { world with
        published := world.published.update serializers world.nextCell update
        nextCell := world.nextCell + 1 } := by
  refine ⟨fun version => ⟨?_, ?_, ?_, ?_, ?_⟩, fun who => ?_⟩
  · rw [healthCell_update]
    exact Nat.lt_succ_self _
  · intro number isNew
    exact (sound.planes version).blank number (Nat.le_of_succ_le isNew)
  · intro body isBody
    rw [healthCell_update, (sound.planes version).blank _ (Nat.le_refl _)] at isBody
    cases isBody
  · exact fun body isBody => statusBytes_update (sound.planes version).status isBody
  · exact fun isUnserved => unserved_update (sound.planes version).unserved isUnserved
  · have requestSound := sound.requests who
    change RequestSound serializers _ (world.requests who)
    cases isRequest : world.requests who with
    | idle => trivial
    | asking version attempt => trivial
    | holding version attempt snapshot cell =>
        rw [isRequest] at requestSound
        refine ⟨Nat.lt_succ_of_lt requestSound.1, fun isCell => ?_⟩
        rw [healthCell_update] at isCell
        exact absurd isCell (Nat.ne_of_lt requestSound.1)
    | filled version attempt cell body =>
        rw [isRequest] at requestSound
        refine ⟨Nat.lt_succ_of_lt requestSound.1, fun isCell => ?_⟩
        rw [healthCell_update] at isCell
        exact absurd isCell (Nat.ne_of_lt requestSound.1)

theorem PlaneSound.setRequest (sound : PlaneSound serializers world version) (who : ℕ)
    (request : Request Body) : PlaneSound serializers (world.setRequest who request) version :=
  ⟨sound.known, sound.blank, sound.memo, sound.status, sound.unserved⟩

theorem Sound.setRequest (sound : Sound serializers world) (who : ℕ) {request : Request Body}
    (requestSound : RequestSound serializers world request) :
    Sound serializers (world.setRequest who request) := by
  refine ⟨fun version => (sound.planes version).setRequest who request, fun other => ?_⟩
  change RequestSound serializers world (if other = who then request else world.requests other)
  split
  · exact requestSound
  · exact sound.requests other

/-- A cell is filled with the body of the snapshot that was taken with it. -/
theorem Sound.setCell (sound : Sound serializers world) {attempt cell : ℕ}
    {snapshot : version.Published} {body : Body}
    (holds : RequestSound serializers world (.holding version attempt snapshot cell))
    (isBody : serializers.readyHealth version snapshot = some body) :
    Sound serializers (world.setCell version cell body) := by
  refine ⟨fun other => ⟨(sound.planes other).known, ?_, ?_, (sound.planes other).status,
    (sound.planes other).unserved⟩, fun who => ?_⟩
  · intro number isNew
    change (if other = version ∧ number = cell then some body else world.cells other number) = none
    rw [if_neg, (sound.planes other).blank number isNew]
    rintro ⟨-, rfl⟩
    exact absurd holds.1 (Nat.not_lt.mpr isNew)
  · intro stored isStored
    change (if other = version ∧ (world.published.plane other).healthCell = cell then some body
      else world.cells other (world.published.plane other).healthCell) = some stored at isStored
    split at isStored
    · rename_i isCell
      rcases isCell with ⟨rfl, isCell⟩
      exact ⟨snapshot, holds.2 isCell.symm, isBody.trans isStored⟩
    · exact (sound.planes other).memo stored isStored
  · have requestSound := sound.requests who
    change RequestSound serializers _ (world.requests who)
    cases isRequest : world.requests who with
    | _ =>
        rw [isRequest] at requestSound
        exact requestSound

variable {event : Event} {answer : Option (Answer Body)}

theorem sound_respond (sound : Sound serializers world)
    (responds : world.respond serializers policy event = some (next, answer)) :
    Sound serializers next := by
  cases event with
  | update update =>
      cases responds
      exact sound.update update
  | status version nowUnixMs =>
      cases responds
      exact sound
  | ask who version =>
      rw [World.respond] at responds
      split at responds
      · cases responds
        exact sound.setRequest who trivial
      · cases responds
  | look who nowUnixMs =>
      simp only [World.respond] at responds
      split at responds
      · split at responds
        · cases responds
          exact sound.setRequest who trivial
        · rename_i serializes
          cases responds
          rcases of_healthNow_serialize serializes with ⟨isSnapshot, rfl⟩
          exact sound.setRequest who ⟨(sound.planes _).known, fun _ => isSnapshot⟩
      · cases responds
  | fill who =>
      simp only [World.respond] at responds
      split at responds
      · rename_i version attempt snapshot cell isHolding
        have holds := sound.requests who
        rw [isHolding] at holds
        split at responds
        · rename_i body isFilled
          cases responds
          refine sound.setRequest who ⟨holds.1, fun isCell => ?_⟩
          rw [isCell] at isFilled
          exact (sound.planes version).memo body isFilled
        · split at responds
          · cases responds
            exact sound.setRequest who trivial
          · rename_i body isBody
            cases responds
            exact (sound.setCell holds isBody).setRequest who
              ⟨holds.1, fun isCell => ⟨snapshot, holds.2 isCell, isBody⟩⟩
      · cases responds
  | check who =>
      simp only [World.respond] at responds
      split at responds
      · split at responds
        · cases responds
          exact sound.setRequest who trivial
        · split at responds
          · cases responds
            exact sound.setRequest who trivial
          · cases responds
            exact sound.setRequest who trivial
      · cases responds

theorem sound_start : Sound serializers (World.start : World Body) where
  planes _ :=
    { known := Nat.one_pos
      blank := fun _ _ => rfl
      memo := fun _ isBody => absurd isBody.symm (Option.some_ne_none _)
      status := fun _ isBody => absurd isBody.symm (Option.some_ne_none _)
      unserved := fun _ isReady => Protocol.ReadinessState.noConfusion isReady }
  requests _ := trivial

theorem published_of_respond (other : event.update? = none)
    (responds : world.respond serializers policy event = some (next, answer)) :
    next.published = world.published := by
  cases event with
  | update update => cases other
  | status version nowUnixMs =>
      cases responds
      rfl
  | ask who version =>
      simp only [World.respond] at responds
      split at responds
      · cases responds
        rfl
      · cases responds
  | look who nowUnixMs =>
      simp only [World.respond] at responds
      split at responds
      · split at responds <;> cases responds <;> rfl
      · cases responds
  | fill who =>
      simp only [World.respond] at responds
      split at responds
      · split at responds
        · cases responds
          rfl
        · split at responds <;> cases responds <;> rfl
      · cases responds
  | check who =>
      simp only [World.respond] at responds
      split at responds
      · split at responds
        · cases responds
          rfl
        · split at responds <;> cases responds <;> rfl
      · cases responds

end Steps

/-- What is published is what the last updates left. -/
structure Told (events : List Event) (world : World Body) : Prop where
  ready : ∀ version, (world.published.plane version).health.state = .ready →
    ∃ update snapshot, lastUpdate events = some update ∧
      update.publishes version = some snapshot ∧
      (world.published.plane version).snapshot = some snapshot
  stored : ∀ version snapshot, (world.published.plane version).snapshot = some snapshot →
    ∃ update, lastStored events = some update ∧ update.publishes version = some snapshot

section Runs

variable {events : List Event} {event : Event}

theorem told_step (sound : Sound serializers world) (told : Told events world)
    (stepped : world.step serializers policy event = some next) :
    Told (events ++ [event]) next := by
  rcases Option.map_eq_some_iff.mp stepped with ⟨⟨_, answer⟩, responds, rfl⟩
  cases isUpdate : event.update? with
  | none =>
      have same := published_of_respond isUpdate responds
      refine ⟨fun version isReady => ?_, fun version snapshot isSnapshot => ?_⟩
      · rw [same] at isReady ⊢
        rw [lastUpdate_append_other isUpdate]
        exact told.ready version isReady
      · rw [same] at isSnapshot
        rw [lastStored_append_other isUpdate]
        exact told.stored version snapshot isSnapshot
  | some update =>
      have isEvent : event = .update update := by
        cases event <;> cases isUpdate
        rfl
      subst isEvent
      cases responds
      refine ⟨fun version isReady => ?_, fun version snapshot isSnapshot => ?_⟩
      · rcases publishes_of_ready (sound.planes version).unserved isReady with
          ⟨snapshot, publishes, isSnapshot⟩
        exact ⟨update, snapshot, lastUpdate_append_update, publishes, isSnapshot⟩
      · cases stores : update.isFailure with
        | false =>
            rw [snapshot_update stores] at isSnapshot
            exact ⟨update, lastStored_append_stored stores, isSnapshot⟩
        | true =>
            cases update with
            | failed message =>
                rw [lastStored_append_failed]
                exact told.stored version snapshot isSnapshot
            | _ => cases stores

theorem sound_told_of_run
    (ran : Machine.run (World.step serializers policy) World.start events = some world) :
    Sound serializers world ∧ Told events world := by
  refine Machine.run_induction (fun events world => Sound serializers world ∧ Told events world)
    ran ⟨sound_start, ?_⟩ ?_
  · refine ⟨fun version isReady => Protocol.ReadinessState.noConfusion isReady,
      fun version snapshot isSnapshot => ?_⟩
    exact absurd isSnapshot.symm (Option.some_ne_none _)
  · rintro events world event next - ⟨sound, told⟩ stepped
    rcases Option.map_eq_some_iff.mp stepped with ⟨⟨_, answer⟩, responds, rfl⟩
    exact ⟨sound_respond sound responds, told_step sound told stepped⟩

end Runs

/-- A body of a health response that is not ready. -/
def Denies (serializers : Serializers Body) (version : MemoVersion) (body : Body) : Prop :=
  ∃ document : HealthDocument version.Shown, document.state ≠ .ready ∧
    serializers.health version document = some body

/-- What an answer says, after so many events. A ready health body is made of the last update, which
published its version; a status body is made of the last update that was no failure. -/
def Truthful (serializers : Serializers Body) (events : List Event) (world : World Body) :
    Answer Body → Prop
  | .internalError => True
  | .response (.health version) status body =>
      (status = 200 ∧ ∃ update snapshot, lastUpdate events = some update ∧
        update.publishes version = some snapshot ∧
        (world.published.plane version).snapshot = some snapshot ∧
        (world.published.plane version).health.state = .ready ∧
        serializers.readyHealth version snapshot = some body) ∨
      (status = 503 ∧ Denies serializers version body)
  | .response (.status version) status body =>
      (status = 200 ∧ ∃ update snapshot, lastStored events = some update ∧
        update.publishes version = some snapshot ∧
        serializers.status version snapshot = some body) ∨
      (status = 503 ∧ Denies serializers version body)

section Answers

variable {events : List Event} {event : Event} {metadata : HealthMetadata}
  {codec : SnapshotCodec version.Shown}

theorem state_response_of_notReady (notReady : metadata.state ≠ .ready)
    (snapshot : Option version.Shown) :
    (metadata.response version codec snapshot).state ≠ .ready := by
  simp only [HealthMetadata.response]
  split
  · rename_i isReady
    exact absurd isReady notReady
  · exact fun isReady => Protocol.ReadinessState.noConfusion isReady
  · exact fun isReady => Protocol.ReadinessState.noConfusion isReady

/-- Without a snapshot nothing is ready. -/
theorem state_response_none : (metadata.response version codec none).state ≠ .ready := by
  by_cases isReady : metadata.state = .ready
  · simp only [HealthMetadata.response, isReady]
    exact fun isReady => Protocol.ReadinessState.noConfusion isReady
  · exact state_response_of_notReady isReady none

theorem state_staleResponse : (metadata.staleResponse version codec).state ≠ .ready := by
  rw [HealthMetadata.staleResponse]
  split
  · exact fun isReady => Protocol.ReadinessState.noConfusion isReady
  · exact state_response_none

theorem truthful_status_denial {document : HealthDocument version.Shown}
    (notReady : document.state ≠ .ready) :
    Truthful serializers events world
      (answerWith (.status version) 503 (serializers.health version document)) := by
  rw [answerWith]
  cases isBody : serializers.health version document with
  | none => trivial
  | some body => exact .inr ⟨rfl, document, notReady, isBody⟩

theorem truthful_health_denial {document : HealthDocument version.Shown}
    (notReady : document.state ≠ .ready) :
    Truthful serializers events world
      (answerWith (.health version) 503 (serializers.health version document)) := by
  rw [answerWith]
  cases isBody : serializers.health version document with
  | none => trivial
  | some body => exact .inr ⟨rfl, document, notReady, isBody⟩

theorem truthful_statusResponse {nowUnixMs : Option ℕ} (sound : Sound serializers world)
    (told : Told events world) :
    Truthful serializers events world
      (statusResponse serializers policy world.published version nowUnixMs) := by
  simp only [statusResponse]
  split
  · rename_i snapshot isSnapshot
    rcases told.stored version snapshot isSnapshot with ⟨update, isLast, publishes⟩
    split
    · exact truthful_status_denial state_staleResponse
    · split
      · rename_i body isBody
        rcases (sound.planes version).status body isBody with ⟨_, isStored, isStatus⟩
        cases isSnapshot.symm.trans isStored
        exact .inl ⟨rfl, update, snapshot, isLast, publishes, isStatus⟩
      · rw [answerWith]
        cases isStatus : serializers.status version snapshot with
        | none => trivial
        | some body => exact .inl ⟨rfl, update, snapshot, isLast, publishes, isStatus⟩
  · exact truthful_status_denial state_response_none

/-- Where the memo is not asked, the response is not ready. -/
theorem truthful_healthNow {nowUnixMs : Option ℕ} {answer : Answer Body}
    (immediate : healthNow serializers policy world.published version nowUnixMs =
      .immediate answer) : Truthful serializers events world answer := by
  simp only [healthNow] at immediate
  split at immediate
  · split at immediate
    · cases immediate
      exact truthful_health_denial fun isReady => Protocol.ReadinessState.noConfusion isReady
    · split at immediate
      · cases immediate
      · cases immediate
        exact truthful_health_denial state_response_none
  · rename_i notReady
    cases immediate
    have denied := @state_response_of_notReady version _ (serializers.codec version) notReady
      ((world.published.plane version).snapshot.map version.shown)
    rw [decide_eq_false denied, Bool.false_and, if_neg Bool.false_ne_true]
    exact truthful_health_denial denied

theorem truthful_of_respond {answer : Answer Body} (sound : Sound serializers world)
    (told : Told events world)
    (responds : world.respond serializers policy event = some (next, some answer)) :
    Truthful serializers events world answer := by
  cases event with
  | update update => cases responds
  | status version nowUnixMs =>
      cases responds
      exact truthful_statusResponse sound told
  | ask who version =>
      simp only [World.respond] at responds
      split at responds <;> cases responds
  | look who nowUnixMs =>
      simp only [World.respond] at responds
      split at responds
      · split at responds
        · rename_i immediate
          cases responds
          exact truthful_healthNow immediate
        · cases responds
      · cases responds
  | fill who =>
      simp only [World.respond] at responds
      split at responds
      · split at responds
        · cases responds
        · split at responds <;> cases responds
          trivial
      · cases responds
  | check who =>
      simp only [World.respond] at responds
      split at responds
      · rename_i version attempt cell body isFilled
        have isSound := sound.requests who
        rw [isFilled] at isSound
        split at responds
        · rename_i isCurrent
          cases responds
          rw [memoIsCurrent, Bool.and_eq_true, decide_eq_true_eq, decide_eq_true_eq] at isCurrent
          rcases isSound.2 isCurrent.2.symm with ⟨snapshot, isSnapshot, isBody⟩
          rcases told.ready version isCurrent.1 with
            ⟨update, published, isLast, publishes, isPublished⟩
          cases isSnapshot.symm.trans isPublished
          exact .inl ⟨rfl, update, snapshot, isLast, publishes, isSnapshot, isCurrent.1, isBody⟩
        · split at responds
          · cases responds
            exact truthful_health_denial fun isReady => Protocol.ReadinessState.noConfusion isReady
          · cases responds
      · cases responds

/-- Whatever updates and requests interleave, what is answered is true at that moment. -/
theorem answers_truthful {answer : Answer Body}
    (ran : Machine.run (World.step serializers policy) World.start events = some world)
    (responds : world.respond serializers policy event = some (next, some answer)) :
    Truthful serializers events world answer := by
  rcases sound_told_of_run ran with ⟨sound, told⟩
  exact truthful_of_respond sound told responds

end Answers

section OneRequest

/-- Bodies that only tell whether a health response is ready. -/
def readiness : Serializers Bool where
  codec version := withoutSnapshots version.Shown
  status _ _ := some true
  health _ document := some (document.state = .ready)

def neverStale : StalePolicy where
  maxConsecutiveFailures := 0
  maxSnapshotAge := 0

def sample : StatusSnapshot where
  schemaVersion := 1
  observedAtUnixMs := 0
  sampleIntervalMs := 1000
  capabilities := { cpuIowait := false }
  system :=
    { name := "host", hostname := "host", osName := "Linux", osVersion := "1"
      kernelName := "Linux", kernelRelease := "6.1", architecture := "x86_64" }
  cpu := { logicalCores := 1, usagePct := .finite 0, iowaitPct := none }
  load := { one := .finite 0, five := .finite 0, fifteen := .finite 0 }
  memory := { usedBytes := 0, totalBytes := 1, usagePct := .finite 0 }
  swap := { usedBytes := 0, totalBytes := 1, usagePct := .finite 0 }

/-- A request that fills the memo of a publication. -/
def filling : List Event :=
  [.update (.snapshotV1Only sample), .ask 0 .v1, .look 0 none, .fill 0]

/-- A failure while the memo is filled: the request starts again and is then refused. -/
def failing : List Event :=
  filling ++ [.update (.failed []), .check 0]

theorem answers_truthful_oneRequest :
    (∃ world next, Machine.run (World.step readiness neverStale) World.start filling = some world ∧
        world.respond readiness neverStale (.check 0) =
          some (next, some (.response (.health .v1) 200 true)) ∧
        Truthful readiness filling world (.response (.health .v1) 200 true)) ∧
      ∃ world next, Machine.run (World.step readiness neverStale) World.start failing = some world ∧
        world.respond readiness neverStale (.look 0 none) =
          some (next, some (.response (.health .v1) 503 false)) := by
  refine ⟨⟨_, _, rfl, rfl, ?_⟩, _, _, rfl, rfl⟩
  exact @answers_truthful Bool readiness neverStale _ _ filling (.check 0) _ rfl rfl

end OneRequest

end Gregg.Server
