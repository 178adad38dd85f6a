import Gregg.Clientd.HandshakeGate

/-!
# What a departed frontend leaves behind

A connection task takes its entry out of a set once, after its loop. A request that still waits in
the engine's channel then puts it back, and nobody is left to take it out again.
-/

namespace Gregg.Clientd

/-- The two sets a frontend has an entry in. -/
inductive IntentKind where
  | eggpool
  | cron
  deriving DecidableEq

/-- Whether a request changes the entry in a set. -/
def DaemonRequest.sets : IntentKind → DaemonRequest → Bool
  | .eggpool, .setEggpoolIntent _ _ _ _ => true
  | .cron, .setCronIntent _ _ _ _ => true
  | _, _ => false

/-- Whether a task at this stage has taken its entry out of a set. -/
def Stage.removed : IntentKind → Stage → Bool
  | .eggpool, .leaving => true
  | _, .gone => true
  | _, _ => false

/-- The step that takes a subscriber's entry out of a set. -/
def DaemonEvent.Removes (subscriber : ℕ) : IntentKind → DaemonEvent → Prop
  | .eggpool, .removeIntent other => other = subscriber
  | .cron, .removeCronIntent other => other = subscriber
  | _, _ => False

namespace Daemon

variable {Snapshot : Type} {hub : Hub Snapshot} {daemon next : Daemon Snapshot}
  {task : ConnectionTask Snapshot} {subscriber other : ℕ} {event : DaemonEvent}
  {events : List DaemonEvent} {kind : IntentKind}

def HasEntry (daemon : Daemon Snapshot) (subscriber : ℕ) : IntentKind → Prop
  | .eggpool => (daemon.intents.get subscriber).isSome = true
  | .cron => (daemon.cronIntents.get subscriber).isSome = true

/-- A request of the subscriber that changes its entry waits for the engine. -/
def HasQueued (daemon : Daemon Snapshot) (subscriber : ℕ) (kind : IntentKind) : Prop :=
  ∃ inbound ∈ daemon.requests, inbound.subscriber = subscriber ∧ inbound.request.sets kind = true

/-- The entry is there, or is going to be. -/
def Lingers (daemon : Daemon Snapshot) (subscriber : ℕ) (kind : IntentKind) : Prop :=
  daemon.HasEntry subscriber kind ∨ daemon.HasQueued subscriber kind

/-- The entry is taken out while nothing waits that would put it back. -/
def RemovesAll (subscriber : ℕ) (kind : IntentKind) (before : Daemon Snapshot)
    (event : DaemonEvent) : Prop :=
  event.Removes subscriber kind → ¬before.HasQueued subscriber kind

theorem hasEntry_congr (intents : next.intents.get subscriber = daemon.intents.get subscriber)
    (cronIntents : next.cronIntents.get subscriber = daemon.cronIntents.get subscriber) :
    next.HasEntry subscriber kind ↔ daemon.HasEntry subscriber kind := by
  cases kind with
  | eggpool => rw [HasEntry, HasEntry, intents]
  | cron => rw [HasEntry, HasEntry, cronIntents]

theorem hasEntry_enlist (distinct : subscriber ≠ other) :
    (daemon.enlist other).HasEntry subscriber kind ↔ daemon.HasEntry subscriber kind :=
  hasEntry_congr (EggpoolIntents.get_set_ne distinct) (CronIntents.get_set_ne distinct)

theorem hasEntry_afterTake {before taken : Serving Snapshot} (distinct : subscriber ≠ other) :
    (daemon.afterTake other before taken).HasEntry subscriber kind ↔
      daemon.HasEntry subscriber kind := by
  unfold afterTake
  simp only
  split
  · exact hasEntry_enlist distinct
  · exact hasEntry_congr rfl rfl

/-- The engine's answer to a request puts an entry where the request says, and only there. -/
theorem hasEntry_handleRequest {inbound : Inbound} {reloaded : Bool} {detail : Option String} :
    (daemon.handleRequest inbound reloaded detail).HasEntry subscriber kind ↔
      daemon.HasEntry subscriber kind ∨
        inbound.subscriber = subscriber ∧ inbound.request.sets kind = true := by
  rcases inbound with ⟨sender, request⟩
  cases request with
  | handshake protocolVersion version daemonId =>
      cases kind <;> simp [handleRequest, DaemonRequest.sets]
  | reloadConfig generation =>
      cases kind <;> simp [handleRequest, DaemonRequest.sets, HasEntry]
  | shutdown generation =>
      cases kind <;> simp [handleRequest, DaemonRequest.sets, HasEntry]
  | setEggpoolIntent active period refresh generation =>
      cases kind with
      | cron => simp [handleRequest, DaemonRequest.sets, HasEntry]
      | eggpool =>
          by_cases own : sender = subscriber
          · subst own
            simp [handleRequest, DaemonRequest.sets, HasEntry]
          · have kept : (daemon.intents.set sender active period).1.get subscriber =
                daemon.intents.get subscriber := EggpoolIntents.get_set_ne (Ne.symm own)
            simp [handleRequest, DaemonRequest.sets, HasEntry, kept, own]
  | setCronIntent systemId job displayHistory generation =>
      cases kind with
      | eggpool => simp [handleRequest, DaemonRequest.sets, HasEntry]
      | cron =>
          by_cases own : sender = subscriber
          · subst own
            simp [handleRequest, DaemonRequest.sets, HasEntry]
          · have kept : (daemon.cronIntents.set sender ⟨systemId, job, displayHistory⟩).1.get
                subscriber = daemon.cronIntents.get subscriber :=
              CronIntents.get_set_ne (Ne.symm own)
            simp [handleRequest, DaemonRequest.sets, HasEntry, kept, own]

theorem requests_handleRequest {inbound : Inbound} {reloaded : Bool} {detail : Option String} :
    (daemon.handleRequest inbound reloaded detail).requests = daemon.requests := by
  unfold handleRequest
  split <;> simp

/-- Once the loop of a task has ended, only taking the entry out changes whether it lingers. -/
theorem lingers_of_moves (gated : Gated hub daemon) (moves : Moves hub daemon next event)
    (known : daemon.tasks subscriber = some task) (ended : task.stage.isServing = false)
    (notRemoved : ¬event.Removes subscriber kind) :
    next.Lingers subscriber kind ↔ daemon.Lingers subscriber kind := by
  cases moves with
  | accept inbound isNext =>
      rw [isNext]
      exact or_congr (hasEntry_congr rfl rfl) Iff.rfl
  | take other turn active updated taken otherKnown taking room took proceeded isNext =>
      have distinct : subscriber ≠ other := by
        rintro rfl
        rw [otherKnown] at known
        cases known
        rw [taking] at ended
        cases ended
      rw [isNext]
      apply or_congr
      · exact hasEntry_afterTake distinct
      · have own := gated.own_of_take otherKnown taking took
        simp only [HasQueued, requests_setTask, requests_afterTake, List.mem_append]
        constructor
        · rintro ⟨inbound, old | new, sender, sets⟩
          · exact ⟨inbound, old, sender, sets⟩
          · exact absurd (sender.symm.trans (own inbound new).1) distinct
        · rintro ⟨inbound, old, sender, sets⟩
          exact ⟨inbound, .inl old, sender, sets⟩
  | wait other branch farewell active ready updated selected otherKnown waiting received branchTaken
      proceeded isNext =>
      rw [isNext]
      exact or_congr (hasEntry_congr rfl rfl) Iff.rfl
  | removeIntent other active otherKnown otherEnded isNext =>
      rw [isNext]
      apply or_congr _ Iff.rfl
      cases kind with
      | cron => exact Iff.rfl
      | eggpool =>
          have distinct : subscriber ≠ other := Ne.symm notRemoved
          exact hasEntry_congr (EggpoolIntents.get_remove_ne distinct) rfl
  | removeCronIntent other active otherKnown leaving isNext =>
      rw [isNext]
      apply or_congr _ Iff.rfl
      cases kind with
      | eggpool => exact Iff.rfl
      | cron =>
          have distinct : subscriber ≠ other := Ne.symm notRemoved
          exact hasEntry_congr rfl (CronIntents.get_remove_ne distinct)
  | handle reloaded detail inbound requests queue isNext =>
      rw [isNext]
      simp only [Lingers, hasEntry_handleRequest, HasQueued, requests_handleRequest, queue,
        List.mem_cons, or_and_right, exists_or, exists_eq_left]
      rw [or_assoc]
      exact or_congr (hasEntry_congr rfl rfl) Iff.rfl
  | cancel isNext =>
      rw [isNext]
      exact or_congr (hasEntry_congr rfl rfl) Iff.rfl

/-- The task of a subscriber has taken its entry out of a set. -/
def HasRemoved (daemon : Daemon Snapshot) (subscriber : ℕ) (kind : IntentKind) : Prop :=
  ∃ task, daemon.tasks subscriber = some task ∧ task.stage.removed kind = true

theorem removed_proceed {serving : Serving Snapshot} {farewell : List WriteOutcome} {stage : Stage}
    {updated : ConnectionTask Snapshot} (serves : stage.isServing = true)
    (proceeded : task.proceed hub serving farewell stage = some updated) :
    updated.stage.removed kind = false := by
  unfold ConnectionTask.proceed at proceeded
  split at proceeded
  · rcases Option.map_eq_some_iff.mp proceeded with ⟨told, -, rfl⟩
    cases kind <;> rfl
  · cases proceeded
    cases stage <;> cases kind <;> first | rfl | cases serves

theorem removed_of_serving {stage : Stage} (serves : stage.isServing = true) :
    stage.removed kind = false := by
  cases stage <;> cases kind <;> first | rfl | cases serves

theorem hasRemoved_setTask {updated : ConnectionTask Snapshot}
    (known : daemon.tasks other = some task)
    (same : updated.stage.removed kind = task.stage.removed kind) :
    (daemon.setTask other updated).HasRemoved subscriber kind ↔
      daemon.HasRemoved subscriber kind := by
  by_cases own : subscriber = other
  · subst own
    simp [HasRemoved, known, same]
  · simp [HasRemoved, setTask_ne own]

theorem hasRemoved_sendAck {frame : FrontendFrame Snapshot} :
    (daemon.sendAck other frame).HasRemoved subscriber kind ↔
      daemon.HasRemoved subscriber kind := by
  unfold sendAck
  split
  · rename_i task known
    apply hasRemoved_setTask known
    unfold ConnectionTask.sendAck
    split <;> rfl
  · exact Iff.rfl

theorem hasRemoved_handleRequest {inbound : Inbound} {reloaded : Bool} {detail : Option String} :
    (daemon.handleRequest inbound reloaded detail).HasRemoved subscriber kind ↔
      daemon.HasRemoved subscriber kind := by
  unfold handleRequest
  split
  · exact Iff.rfl
  · exact hasRemoved_sendAck
  · exact hasRemoved_sendAck
  · exact hasRemoved_sendAck
  · exact hasRemoved_sendAck

theorem hasRemoved_advance {updated : ConnectionTask Snapshot}
    (known : daemon.tasks other = some task) (removed : updated.stage.removed kind = true) :
    (daemon.setTask other updated).HasRemoved subscriber kind ↔
      daemon.HasRemoved subscriber kind ∨ other = subscriber := by
  by_cases own : subscriber = other
  · subst own
    simp [HasRemoved, removed]
  · simp [HasRemoved, setTask_ne own, Ne.symm own]

theorem hasRemoved_of_moves (gated : Gated hub daemon) (moves : Moves hub daemon next event) :
    next.HasRemoved subscriber kind ↔
      daemon.HasRemoved subscriber kind ∨ event.Removes subscriber kind := by
  cases moves with
  | accept inbound isNext =>
      rw [isNext]
      have unmoved : ¬DaemonEvent.Removes subscriber kind (.accept inbound) := by
        cases kind <;> exact id
      rw [or_iff_left unmoved]
      by_cases own : subscriber = daemon.nextSubscriber
      · subst own
        have unknown := gated.fresh _ (Nat.le_refl _)
        apply iff_of_false
        · rintro ⟨found, lookup, removed⟩
          have isNew := setTask_self.symm.trans lookup
          cases isNew
          cases kind <;> cases removed
        · rintro ⟨found, lookup, -⟩
          rw [unknown] at lookup
          cases lookup
      · simp only [HasRemoved, setTask_ne own]
  | take other turn active updated taken otherKnown taking room took proceeded isNext =>
      have unmoved : ¬DaemonEvent.Removes subscriber kind (.take other turn) := by
        cases kind <;> exact id
      rw [isNext, or_iff_left unmoved]
      have stays : updated.stage.removed kind = active.stage.removed kind := by
        rw [removed_proceed rfl proceeded, taking, removed_of_serving rfl]
      rw [hasRemoved_setTask (by rwa [tasks_afterTake]) stays]
      simp only [HasRemoved, tasks_afterTake]
  | wait other branch farewell active ready updated selected otherKnown waiting received branchTaken
      proceeded isNext =>
      have unmoved : ¬DaemonEvent.Removes subscriber kind (.wait other branch farewell) := by
        cases kind <;> exact id
      rw [isNext, or_iff_left unmoved]
      apply hasRemoved_setTask otherKnown
      rw [removed_proceed rfl proceeded, waiting, removed_of_serving rfl]
  | removeIntent other active otherKnown ended isNext =>
      rw [isNext]
      cases kind with
      | eggpool => exact hasRemoved_advance otherKnown rfl
      | cron =>
          rw [or_iff_left (id : ¬DaemonEvent.Removes subscriber .cron (.removeIntent other))]
          apply hasRemoved_setTask otherKnown
          rw [ended]
          rfl
  | removeCronIntent other active otherKnown leaving isNext =>
      rw [isNext]
      cases kind with
      | cron => exact hasRemoved_advance otherKnown rfl
      | eggpool =>
          rw [or_iff_left (id : ¬DaemonEvent.Removes subscriber .eggpool (.removeCronIntent other))]
          apply hasRemoved_setTask otherKnown
          rw [leaving]
          rfl
  | handle reloaded detail inbound requests queue isNext =>
      have unmoved : ¬DaemonEvent.Removes subscriber kind (.handle reloaded detail) := by
        cases kind <;> exact id
      rw [isNext, or_iff_left unmoved]
      exact hasRemoved_handleRequest
  | cancel isNext =>
      have unmoved : ¬DaemonEvent.Removes subscriber kind .cancel := by
        cases kind <;> exact id
      rw [isNext, or_iff_left unmoved]
      exact Iff.rfl

/-- The step that takes an entry out is taken once, and leaves what is queued. -/
theorem lingers_of_removes (moves : Moves hub daemon next event)
    (removes : event.Removes subscriber kind) :
    ¬daemon.HasRemoved subscriber kind ∧
      (next.Lingers subscriber kind ↔ daemon.HasQueued subscriber kind) := by
  cases moves with
  | removeIntent other active known ended isNext =>
      cases kind with
      | cron => cases removes
      | eggpool =>
          cases removes
          constructor
          · rintro ⟨found, lookup, removed⟩
            rw [known] at lookup
            cases lookup
            rw [ended] at removed
            cases removed
          · rw [isNext, Lingers]
            apply or_iff_right
            simp [HasEntry]
  | removeCronIntent other active known leaving isNext =>
      cases kind with
      | eggpool => cases removes
      | cron =>
          cases removes
          constructor
          · rintro ⟨found, lookup, removed⟩
            rw [known] at lookup
            cases lookup
            rw [leaving] at removed
            cases removed
          · rw [isNext, Lingers]
            apply or_iff_right
            simp [HasEntry]
  | accept _ _ => cases kind <;> cases removes
  | take _ _ _ _ _ _ _ _ _ _ _ => cases kind <;> cases removes
  | wait _ _ _ _ _ _ _ _ _ _ _ _ _ => cases kind <;> cases removes
  | handle _ _ _ _ _ _ => cases kind <;> cases removes
  | cancel _ => cases kind <;> cases removes

/-- Before an entry is taken out no step is to blame; after it, the entry lingers if one is. -/
structure Settled (hub : Hub Snapshot) (subscriber : ℕ) (kind : IntentKind)
    (events : List DaemonEvent) (daemon : Daemon Snapshot) : Prop where
  present : ¬daemon.HasRemoved subscriber kind →
    Machine.EveryStep (step hub) new events (RemovesAll subscriber kind)
  removed : daemon.HasRemoved subscriber kind →
    (daemon.Lingers subscriber kind ↔
      ¬Machine.EveryStep (step hub) new events (RemovesAll subscriber kind))

theorem settled_of_step (gated : Gated hub daemon)
    (ran : Machine.run (step hub) new events = some daemon)
    (settled : Settled hub subscriber kind events daemon)
    (stepped : step hub daemon event = some next) :
    Settled hub subscriber kind (events ++ [event]) next := by
  have moves := moves_of_step stepped
  have everyStep : Machine.EveryStep (step hub) new (events ++ [event])
      (RemovesAll subscriber kind) ↔ _ := Machine.everyStep_append_singleton ran
  constructor
  · intro notRemoved
    rw [hasRemoved_of_moves gated moves, not_or] at notRemoved
    apply everyStep.mpr
    refine ⟨settled.present notRemoved.1, ?_⟩
    intro removes
    exact absurd removes notRemoved.2
  · intro hasRemoved
    rw [everyStep]
    by_cases removes : event.Removes subscriber kind
    · rcases lingers_of_removes moves removes with ⟨notBefore, lingers⟩
      rw [lingers, RemovesAll]
      simp [settled.present notBefore, removes]
    · have before : daemon.HasRemoved subscriber kind :=
        (hasRemoved_of_moves gated moves |>.mp hasRemoved).resolve_right removes
      rcases before with ⟨task, known, removed⟩
      have ended : task.stage.isServing = false := by
        by_contra serving
        rw [removed_of_serving (by simpa using serving)] at removed
        cases removed
      rw [lingers_of_moves gated moves known ended removes, settled.removed ⟨task, known, removed⟩]
      simp [RemovesAll, removes]

theorem settled_of_run (ran : Machine.run (step hub) new events = some daemon) :
    Settled hub subscriber kind events daemon := by
  have both : Gated hub daemon ∧ Settled hub subscriber kind events daemon := by
    apply Machine.run_induction
      (fun events daemon => Gated hub daemon ∧ Settled hub subscriber kind events daemon) ran
    · refine ⟨gated_new, fun _ => Machine.everyStep_nil, ?_⟩
      rintro ⟨task, impossible, -⟩
      cases impossible
    · rintro events before event after ranBefore ⟨gated, settled⟩ stepped
      exact ⟨gated_of_step gated stepped, settled_of_step gated ranBefore settled stepped⟩
  exact both.2

/-- Once the task of a subscriber is gone and the engine has handled every request, the subscriber
is in neither set if and only if both times its entry was taken out no request of it that changes
that set was waiting. -/
theorem departed_iff (hub : Hub Snapshot)
    (ran : Machine.run (step hub) (new : Daemon Snapshot) events = some daemon)
    (known : daemon.tasks subscriber = some task) (gone : task.stage = .gone)
    (drained : daemon.requests = []) :
    (daemon.intents.get subscriber = none ∧ daemon.cronIntents.get subscriber = none) ↔
      Machine.EveryStep (step hub) new events fun before event =>
        ∀ kind, RemovesAll subscriber kind before event := by
  have absent : ∀ kind, ¬daemon.HasEntry subscriber kind ↔
      Machine.EveryStep (step hub) new events (RemovesAll subscriber kind) := by
    intro kind
    have removed : daemon.HasRemoved subscriber kind := by
      refine ⟨task, known, ?_⟩
      rw [gone]
      cases kind <;> rfl
    have noneQueued : ¬daemon.HasQueued subscriber kind := by
      rintro ⟨inbound, member, -⟩
      rw [drained] at member
      cases member
    rw [not_iff_comm, ← (settled_of_run ran).removed removed, Lingers, or_iff_left noneQueued]
  have eggpool := absent .eggpool
  have cron := absent .cron
  simp only [HasEntry, Option.isSome_iff_ne_none, not_not] at eggpool cron
  rw [eggpool, cron]
  constructor
  · rintro ⟨eggpoolAll, cronAll⟩ before event after state split ranBefore kind
    cases kind with
    | eggpool => exact eggpoolAll before event after state split ranBefore
    | cron => exact cronAll before event after state split ranBefore
  · intro all
    constructor
    · intro before event after state split ranBefore
      exact all before event after state split ranBefore .eggpool
    · intro before event after state split ranBefore
      exact all before event after state split ranBefore .cron

section Example

def openText : List UInt8 := Utf8.asciiBytes
  ("\x7b\"t\":\"set_eggpool_intent\",\"active\":true,\"period\":\"1h\",\"refresh\":false," ++
    "\"generation\":1\x7d").toList

/-- The daemon for `home`, and a client that opens the EggPool pane. -/
def eggpoolHub : Hub ℕ :=
  { Serving.exampleHub with
    wire :=
      { frames := Serving.exampleHub.wire.frames
        requests := .ofTable
          [(.handshake 1 "0.1.0" "home", Serving.handshakeText),
            (.setEggpoolIntent true .hour false 1, openText)] } }

/-- The client sends its handshake and the intent, and leaves once both were read. -/
def briefVisit : List DaemonEvent :=
  let turn := Serving.readingTurn .wouldBlock
  let frames := lengthPrefix Serving.handshakeText.length ++ Serving.handshakeText ++
    (lengthPrefix openText.length ++ openText)
  [.accept frames, .take 1 turn, .wait 1 (.poll [] (.bytes frames)) [], .take 1 turn,
    .wait 1 (.poll [] .wouldBlock) [], .take 1 turn, .wait 1 (.poll [] (.bytes [])) []]

/-- What is left of subscriber 1 after some events: its stage, the length of the engine's queue and
its entries. -/
def leftBehind (events : List DaemonEvent) :
    Option (Option Stage × ℕ × Option EggpoolIntent × Option CronIntent) :=
  (Machine.run (step eggpoolHub) new events).map fun daemon =>
    ((daemon.tasks 1).map ConnectionTask.stage, daemon.requests.length, daemon.intents.get 1,
      daemon.cronIntents.get 1)

/-- The engine handles the intent before the task takes the entries out: nothing is left. -/
theorem departed_handledBefore : ∃ daemon : Daemon ℕ,
    Machine.run (step eggpoolHub) new
      (briefVisit ++ [.handle true none, .removeIntent 1, .removeCronIntent 1]) = some daemon ∧
    Machine.EveryStep (step eggpoolHub) new
      (briefVisit ++ [.handle true none, .removeIntent 1, .removeCronIntent 1])
      (fun before event => ∀ kind, RemovesAll 1 kind before event) := by
  have reached : leftBehind (briefVisit ++ [.handle true none, .removeIntent 1,
      .removeCronIntent 1]) = some (some .gone, 0, none, none) := by
    decide +kernel
  rcases Option.map_eq_some_iff.mp reached with ⟨daemon, ran, facts⟩
  simp only [Prod.mk.injEq, Option.map_eq_some_iff, List.length_eq_zero_iff] at facts
  rcases facts with ⟨⟨task, known, gone⟩, drained, eggpool, cron⟩
  exact ⟨daemon, ran, (departed_iff eggpoolHub ran known gone drained).mp ⟨eggpool, cron⟩⟩

/-- The engine handles it after: an active entry of a frontend that is gone. -/
theorem departed_handledAfter : ∃ (daemon : Daemon ℕ) (task : ConnectionTask ℕ),
    Machine.run (step eggpoolHub) new
      (briefVisit ++ [.removeIntent 1, .removeCronIntent 1, .handle true none]) = some daemon ∧
    daemon.tasks 1 = some task ∧ task.stage = .gone ∧ daemon.requests = [] ∧
    daemon.intents.get 1 = some ⟨true, .hour⟩ := by
  have reached : leftBehind (briefVisit ++ [.removeIntent 1, .removeCronIntent 1,
      .handle true none]) = some (some .gone, 0, some ⟨true, .hour⟩, none) := by
    decide +kernel
  rcases Option.map_eq_some_iff.mp reached with ⟨daemon, ran, facts⟩
  simp only [Prod.mk.injEq, Option.map_eq_some_iff, List.length_eq_zero_iff] at facts
  rcases facts with ⟨⟨task, known, gone⟩, drained, eggpool, -⟩
  exact ⟨daemon, task, ran, known, gone, drained, eggpool⟩

end Example

end Daemon

end Gregg.Clientd
