import Gregg.Lib.Machine
import Gregg.Clientd.Forwarding
import Gregg.Clientd.Daemon

/-!
# The handshake gate

What a connection may do before its handshake is answered is to say hello or to say farewell. The
gate is one flag of the loop, but three things go past it: requests, documents and acknowledgements,
of which the last exist only because the engine was handed a request before.

Nothing is assumed of the inbound bytes, nor of the library that reads JSON.
-/

namespace Gregg.Clientd

/-- Actions that need an answered handshake. -/
def ServeAction.Gated {Snapshot : Type} : ServeAction Snapshot → Prop
  | forwarded _ => True
  | published _ => True
  | wrote (.controlAck _ _ _) => True
  | wrote (.snapshot _) => True
  | wrote _ => False

/-- Actions that neither need the handshake nor answer it. -/
def ServeAction.Quiet {Snapshot : Type} : ServeAction Snapshot → Prop
  | wrote .shuttingDown => True
  | wrote (.protocolError _) => True
  | _ => False

/-- Some bytes begin with a handshake frame in the daemon's protocol version and for its
configuration, after which `rest` follows. -/
def Hub.OpensWith {Snapshot : Type} (hub : Hub Snapshot) (inbound rest : List UInt8) : Prop :=
  ∃ body version, frameFormat.takeFrame inbound = .ok (some (body, rest)) ∧
    hub.wire.requests.fromSlice body = .ok (.handshake PROTOCOL_VERSION version hub.daemonId)

/-- A log in which no gated action comes before a hello. -/
def Greeted {Snapshot : Type} (log : List (ServeAction Snapshot)) : Prop :=
  ∃ before payload after, log = before ++ .wrote (.hello payload) :: after ∧
    ∀ action ∈ before, action.Quiet

theorem Greeted.append {Snapshot : Type} {log : List (ServeAction Snapshot)}
    (greeted : Greeted log) (more : List (ServeAction Snapshot)) : Greeted (log ++ more) := by
  rcases greeted with ⟨before, payload, after, rfl, quiet⟩
  exact ⟨before, payload, after ++ more, by simp, quiet⟩

namespace Serving

variable {Snapshot : Type} {hub : Hub Snapshot} {serving next : Serving Snapshot} {turn : Turn}
  {outcomes : List WriteOutcome} {inbound rest : List UInt8}

theorem not_gated_of_quiet {action : ServeAction Snapshot} (quiet : action.Quiet) :
    ¬action.Gated := by
  cases action with
  | forwarded _ => cases quiet
  | published _ => cases quiet
  | wrote frame => cases frame <;> first | exact id | cases quiet

section Logs

theorem log_writeFrame {frame : FrontendFrame Snapshot}
    (wrote : serving.writeFrame hub frame outcomes = some next) :
    next.log = serving.log ++ [.wrote frame] := by
  rcases Option.map_eq_some_iff.mp wrote with ⟨written, -, rfl⟩
  rfl

theorem log_writeDocument {document : Document}
    (wrote : serving.writeDocument document outcomes = some next) :
    next.log = serving.log ++ [.published document] := by
  rcases Option.map_eq_some_iff.mp wrote with ⟨written, -, rfl⟩
  rfl

theorem log_receive {input : ReadOutcome} (received : serving.receive input = some next) :
    next.log = serving.log := by
  unfold receive at received
  split at received
  · split at received
    · cases received
    · split at received
      · split at received <;> (cases received; rfl)
      · cases received
  · cases received
    rfl
  · split at received
    · cases received
      rfl
    · cases received
  · cases received
    rfl

/-- What the wait adds to the log: before the handshake nothing but a farewell, unless there is an
acknowledgement to write. -/
theorem log_select {branch : Branch} (selected : serving.select hub branch = some next) :
    ∃ actions, next.log = serving.log ++ actions ∧
      (serving.handshakeDone = false →
        (∀ generation accepted detail outcomes, branch ≠ .ack generation accepted detail outcomes) →
        ∀ action ∈ actions, action.Quiet) := by
  cases branch with
  | changed latest outcomes =>
      simp only [select] at selected
      split at selected
      · rename_i done
        refine ⟨_, log_writeDocument selected, ?_⟩
        intro notDone
        rw [done] at notDone
        cases notDone
      · cases selected
        exact ⟨[], by simp⟩
  | closed outcomes =>
      rcases Option.map_eq_some_iff.mp selected with ⟨told, wrote, rfl⟩
      have logged := log_writeFrame wrote
      refine ⟨[.wrote .shuttingDown], logged, ?_⟩
      intro _ _ action member
      rw [List.mem_singleton.mp member]
      exact trivial
  | ack generation accepted detail outcomes =>
      refine ⟨_, log_writeFrame selected, ?_⟩
      intro _ other
      exact absurd rfl (other _ _ _ _)
  | poll flush input =>
      rcases Option.bind_eq_some_iff.mp selected with ⟨written, -, received⟩
      refine ⟨[], ?_, by simp⟩
      unfold andThen at received
      split at received
      · cases received
        rfl
      · rw [log_receive received]
        rfl

theorem log_sayFarewell (told : serving.sayFarewell hub outcomes = some next) :
    ∃ actions, next.log = serving.log ++ actions ∧ ∀ action ∈ actions, action.Quiet := by
  unfold sayFarewell at told
  split at told
  · rename_i error _
    rcases Option.map_eq_some_iff.mp told with ⟨after, wrote, rfl⟩
    have logged := log_writeFrame wrote
    refine ⟨[.wrote (.protocolError error.display)], logged, ?_⟩
    intro action member
    rw [List.mem_singleton.mp member]
    exact trivial
  · cases told
    exact ⟨[], by simp⟩

end Logs

/-- What the first half of a turn comes to. -/
inductive Takes (hub : Hub Snapshot) (serving next : Serving Snapshot) : Prop where
  | waits (same : next = serving)
  | fails (connection : Connection) (error : TransportError)
      (failed : next = { serving with connection, result := some (.error error) })
      (shorter : connection.buffer <:+ serving.connection.buffer)
  | forwards (connection : Connection) (request : DaemonRequest)
      (done : serving.handshakeDone = true) (handshaken : connection.handshaken = true)
      (queued : next =
        { serving with
          connection
          log := serving.log ++ [.forwarded ⟨hub.subscriber, request⟩] })
      (shorter : connection.buffer <:+ serving.connection.buffer)
  | greets (rest : List UInt8) (payload : HelloPayload) (documents : List (ServeAction Snapshot))
      (notDone : serving.handshakeDone = false)
      (opens : hub.OpensWith serving.connection.buffer rest)
      (left : next.connection.buffer ++ next.unread = rest ++ serving.unread)
      (handshaken : next.connection.handshaken = true) (done : next.handshakeDone = true)
      (logged : next.log = serving.log ++ .wrote (.hello payload) :: documents)
      (noneForwarded : documents.filterMap ServeAction.inbound = [])

/-- The answer to the handshake: a hello, and the current document if the hello could be written. -/
theorem greeted_of_answer (serving : Serving Snapshot) {payload : HelloPayload}
    {state : List WriteOutcome} {document : Document}
    (answered : (writeFrame hub (.hello payload) outcomes serving).bind
      (fun serving => serving.andThen (writeDocument document state)) = some next) :
    SameAccount serving next ∧ ∃ documents,
      next.log = serving.log ++ .wrote (.hello payload) :: documents ∧
        documents.filterMap ServeAction.inbound = [] := by
  rcases Option.bind_eq_some_iff.mp answered with ⟨told, wroteHello, followed⟩
  refine ⟨(SameAccount.writeFrame wroteHello).trans
    (SameAccount.andThen SameAccount.writeDocument followed), ?_⟩
  have hello := log_writeFrame wroteHello
  unfold andThen at followed
  split at followed
  · cases followed
    exact ⟨[], hello, rfl⟩
  · refine ⟨[.published document], ?_, rfl⟩
    rw [log_writeDocument followed, hello, List.append_assoc]
    rfl

theorem takes_of_takeRequest
    (agrees : serving.connection.handshaken = serving.handshakeDone)
    (taken : serving.takeRequest hub turn = some next) : Takes hub serving next := by
  unfold takeRequest at taken
  simp only [Connection.tryReadRequest, Connection.tryReadFrame, Connection.takeBody_eq] at taken
  cases first : frameFormat.takeFrame serving.connection.buffer with
  | error error =>
      simp only [first, Option.some.injEq] at taken
      exact .fails _ _ taken.symm (List.suffix_refl _)
  | ok frame =>
      rcases frame with _ | ⟨body, rest⟩
      · simp only [first, Option.some.injEq] at taken
        exact .waits taken.symm
      · have shorter := Framing.Format.suffix_of_takeFrame first
        cases decoded : hub.wire.requests.fromSlice body with
        | error error =>
            simp only [first, decoded, Option.some.injEq] at taken
            exact .fails { serving.connection with buffer := rest } _ taken.symm shorter
        | ok request =>
            simp only [first, decoded, Connection.admitRequest] at taken
            cases done : serving.handshakeDone with
            | true =>
                have handshaken := agrees.trans done
                rw [if_pos handshaken] at taken
                simp only at taken
                rw [if_pos done, Option.some.injEq, forward] at taken
                split at taken
                · exact .forwards { serving.connection with buffer := rest } request done handshaken
                    taken.symm shorter
                · exact .fails { serving.connection with buffer := rest } _ taken.symm shorter
            | false =>
                have refused : ∀ error, some { serving with
                    connection := { serving.connection with buffer := rest }
                    result := some (.error error) } = some next → Takes hub serving next := by
                  intro error failed
                  exact .fails _ error (Option.some.inj failed).symm shorter
                have unknown := agrees.trans done
                rw [if_neg (by rw [unknown]; exact Bool.false_ne_true)] at taken
                cases request with
                | handshake protocolVersion version daemonId =>
                    simp only at taken
                    by_cases speaks : protocolVersion = PROTOCOL_VERSION
                    · subst speaks
                      rw [if_pos rfl] at taken
                      simp only at taken
                      rw [if_neg (by rw [done]; exact Bool.false_ne_true)] at taken
                      simp only [answerHandshake, Connection.verifyDaemonId] at taken
                      by_cases same : daemonId = hub.daemonId
                      · subst same
                        rw [if_pos rfl] at taken
                        rcases greeted_of_answer _ taken with
                          ⟨account, documents, logged, noneForwarded⟩
                        exact .greets rest _ documents done ⟨body, version, first, decoded⟩
                          account.inbound account.handshaken account.handshakeDone logged
                          noneForwarded
                      · rw [if_neg same] at taken
                        exact .fails
                          { serving.connection with
                            buffer := rest
                            claimedDaemonId := some daemonId
                            handshaken := true } _ (Option.some.inj taken).symm shorter
                    · rw [if_neg speaks] at taken
                      exact refused _ taken
                | reloadConfig generation => exact refused _ taken
                | shutdown generation => exact refused _ taken
                | setEggpoolIntent active period refresh generation => exact refused _ taken
                | setCronIntent systemId job displayHistory generation => exact refused _ taken

/-- A connection before and after the gate, on the stream `inbound`. -/
structure Gate (hub : Hub Snapshot) (inbound : List UInt8) (serving : Serving Snapshot) : Prop where
  agrees : serving.result = none → serving.connection.handshaken = serving.handshakeDone
  untouched : serving.handshakeDone = false → serving.result = none →
    serving.connection.buffer ++ serving.unread = inbound
  quiet : serving.handshakeDone = false → ∀ action ∈ serving.log, action.Quiet
  opened : serving.handshakeDone = true → Greeted serving.log ∧
    ∃ rest, hub.OpensWith inbound rest ∧ serving.connection.buffer ++ serving.unread <:+ rest

theorem gate_new (hub : Hub Snapshot) (inbound : List UInt8) :
    Gate hub inbound (new inbound : Serving Snapshot) where
  agrees := fun _ => rfl
  untouched := fun _ _ => rfl
  quiet := by simp [new]
  opened := by simp [new]

theorem Gate.of_same {actions : List (ServeAction Snapshot)} (gate : Gate hub inbound serving)
    (same : SameAccount serving next) (alive : next.result = none → serving.result = none)
    (logged : next.log = serving.log ++ actions)
    (quiet : serving.handshakeDone = false → ∀ action ∈ actions, action.Quiet) :
    Gate hub inbound next where
  agrees := by
    intro running
    rw [same.handshaken, same.handshakeDone]
    exact gate.agrees (alive running)
  untouched := by
    intro notDone running
    rw [same.handshakeDone] at notDone
    rw [same.inbound]
    exact gate.untouched notDone (alive running)
  quiet := by
    intro notDone action member
    rw [same.handshakeDone] at notDone
    rw [logged] at member
    rcases List.mem_append.mp member with old | new
    · exact gate.quiet notDone action old
    · exact quiet notDone action new
  opened := by
    intro done
    rw [same.handshakeDone] at done
    rcases gate.opened done with ⟨greeted, rest, opens, left⟩
    rw [logged, same.inbound]
    exact ⟨greeted.append actions, rest, opens, left⟩

theorem result_sayFarewell (told : serving.sayFarewell hub outcomes = some next) :
    next.result = serving.result := by
  unfold sayFarewell at told
  split at told
  · rcases Option.map_eq_some_iff.mp told with ⟨_, -, rfl⟩
    rfl
  · cases told
    rfl

theorem Gate.sayFarewell (gate : Gate hub inbound serving)
    (told : serving.sayFarewell hub outcomes = some next) : Gate hub inbound next := by
  rcases log_sayFarewell told with ⟨actions, logged, quiet⟩
  apply gate.of_same (SameAccount.sayFarewell told) _ logged fun _ => quiet
  intro running
  rwa [result_sayFarewell told] at running

theorem Gate.select {branch : Branch} (gate : Gate hub inbound serving)
    (alive : serving.result = none)
    (noAck : serving.handshakeDone = false → ∀ generation accepted detail outcomes,
      branch ≠ .ack generation accepted detail outcomes)
    (selected : serving.select hub branch = some next) : Gate hub inbound next := by
  rcases log_select selected with ⟨actions, logged, quiet⟩
  apply gate.of_same (SameAccount.select selected) (fun _ => alive) logged
  intro notDone
  exact quiet notDone (noAck notDone)

/-- The first half of a turn opens the gate only for a handshake that matches. -/
theorem Gate.takes (gate : Gate hub inbound serving) (alive : serving.result = none)
    (takes : Takes hub serving next) : Gate hub inbound next := by
  cases takes with
  | waits same =>
      rw [same]
      exact gate
  | fails connection error failed shorter =>
      subst failed
      refine ⟨by simp, by simp, gate.quiet, ?_⟩
      intro done
      rcases gate.opened done with ⟨greeted, rest, opens, left⟩
      refine ⟨greeted, rest, opens, ?_⟩
      rcases shorter with ⟨consumed, split⟩
      apply List.IsSuffix.trans _ left
      rw [← split, List.append_assoc]
      exact List.suffix_append _ _
  | forwards connection request done handshaken queued shorter =>
      subst queued
      refine ⟨fun _ => handshaken.trans done.symm, ?_, ?_, ?_⟩
      · intro notDone
        rw [done] at notDone
        cases notDone
      · intro notDone
        rw [done] at notDone
        cases notDone
      · intro _
        rcases gate.opened done with ⟨greeted, rest, opens, left⟩
        refine ⟨greeted.append _, rest, opens, ?_⟩
        rcases shorter with ⟨consumed, split⟩
        apply List.IsSuffix.trans _ left
        rw [← split, List.append_assoc]
        exact List.suffix_append _ _
  | greets rest payload documents notDone opens left handshaken done logged noneForwarded =>
      refine ⟨fun _ => handshaken.trans done.symm, ?_, ?_, ?_⟩
      · intro impossible
        rw [done] at impossible
        cases impossible
      · intro impossible
        rw [done] at impossible
        cases impossible
      · intro _
        refine ⟨⟨serving.log, payload, documents, logged, gate.quiet notDone⟩,
          rest ++ serving.unread, ?_, ?_⟩
        · rcases opens with ⟨body, version, first, decoded⟩
          refine ⟨body, version, ?_, decoded⟩
          rw [← gate.untouched notDone alive]
          exact Framing.Format.takeFrame_append serving.unread first
        · simp only [left, List.suffix_refl]

end Serving

namespace ConnectionTask

variable {Snapshot : Type} {hub : Hub Snapshot} {task next : ConnectionTask Snapshot}

/-- A task at the gate: without an answered handshake there is nothing to acknowledge. -/
structure Gated (hub : Hub Snapshot) (task : ConnectionTask Snapshot) : Prop where
  gate : Serving.Gate hub task.inbound task.serving
  acks : task.serving.handshakeDone = false → task.acks = []
  alive : task.stage.isServing = true → task.serving.result = none

theorem gated_new (hub : Hub Snapshot) (inbound : List UInt8) :
    Gated hub (.new inbound) where
  gate := Serving.gate_new hub inbound
  acks := fun _ => rfl
  alive := fun _ => rfl

theorem gated_proceed {serving : Serving Snapshot} {farewell : List WriteOutcome} {stage : Stage}
    (gate : Serving.Gate hub task.inbound serving)
    (acks : serving.handshakeDone = false → task.acks = [])
    (proceeded : task.proceed hub serving farewell stage = some next) :
    Gated hub next ∧ next.serving.handshakeDone = serving.handshakeDone := by
  unfold proceed at proceeded
  split at proceeded
  · rcases Option.map_eq_some_iff.mp proceeded with ⟨told, farewelled, rfl⟩
    have same := Serving.SameAccount.sayFarewell farewelled
    refine ⟨⟨gate.sayFarewell farewelled, ?_, by simp [Stage.isServing]⟩, same.handshakeDone⟩
    rw [same.handshakeDone]
    exact acks
  · rename_i running
    cases proceeded
    refine ⟨⟨gate, acks, ?_⟩, rfl⟩
    intro _
    simpa using running

theorem gated_sendAck {frame : FrontendFrame Snapshot} (gated : Gated hub task)
    (done : task.serving.handshakeDone = true) : Gated hub (task.sendAck frame) := by
  unfold sendAck
  split
  · refine ⟨gated.gate, ?_, gated.alive⟩
    intro notDone
    rw [done] at notDone
    cases notDone
  · exact gated

theorem sendAck_serving {frame : FrontendFrame Snapshot} :
    (task.sendAck frame).serving = task.serving := by
  unfold sendAck
  split <;> rfl

theorem inbound_receiveAck {branch : Branch} (received : task.receiveAck branch = some next) :
    next.inbound = task.inbound := by
  unfold receiveAck at received
  split at received
  · split at received
    · split at received
      · cases received
        rfl
      · cases received
    · cases received
  · cases received
    rfl

theorem gated_receiveAck {branch : Branch} (gated : Gated hub task)
    (received : task.receiveAck branch = some next) :
    Gated hub next ∧ next.serving = task.serving ∧ next.stage = task.stage ∧
      (task.serving.handshakeDone = false → ∀ generation accepted detail outcomes,
        branch ≠ .ack generation accepted detail outcomes) := by
  cases branch with
  | ack generation accepted detail outcomes =>
      have done : task.serving.handshakeDone = true := by
        by_contra notDone
        have noAcks := gated.acks (by simpa using notDone)
        simp [receiveAck, noAcks] at received
      have answered : task.serving.handshakeDone ≠ false := by simp [done]
      simp only [receiveAck] at received
      split at received
      · split at received
        · cases received
          refine ⟨⟨gated.gate, ?_, gated.alive⟩, rfl, rfl, fun notDone => absurd notDone answered⟩
          intro notDone
          exact absurd notDone answered
        · cases received
      · cases received
  | changed latest outcomes =>
      cases received
      exact ⟨gated, rfl, rfl, by simp⟩
  | closed outcomes =>
      cases received
      exact ⟨gated, rfl, rfl, by simp⟩
  | poll flush input =>
      cases received
      exact ⟨gated, rfl, rfl, by simp⟩

end ConnectionTask

namespace Daemon

variable {Snapshot : Type} {hub : Hub Snapshot} {daemon next : Daemon Snapshot}
  {task updated : ConnectionTask Snapshot} {subscriber : ℕ} {event : DaemonEvent}

/-- Every connection is at the gate, and requests are queued only for those past it. -/
structure Gated (hub : Hub Snapshot) (daemon : Daemon Snapshot) : Prop where
  tasks : ∀ subscriber task, daemon.tasks subscriber = some task →
    task.Gated (hub.forSubscriber subscriber)
  requests : ∀ inbound ∈ daemon.requests, ∃ task, daemon.tasks inbound.subscriber = some task ∧
    task.serving.handshakeDone = true
  fresh : ∀ subscriber, daemon.nextSubscriber ≤ subscriber → daemon.tasks subscriber = none

theorem gated_new : Gated hub (new : Daemon Snapshot) where
  tasks := by
    intro subscriber task impossible
    cases impossible
  requests := by simp [new]
  fresh := fun _ _ => rfl

theorem Gated.of_fields (gated : Gated hub daemon) (tasks : next.tasks = daemon.tasks)
    (requests : ∀ inbound ∈ next.requests, inbound ∈ daemon.requests)
    (nextSubscriber : next.nextSubscriber = daemon.nextSubscriber) : Gated hub next where
  tasks := by
    rw [tasks]
    exact gated.tasks
  requests := by
    intro inbound member
    rw [tasks]
    exact gated.requests inbound (requests inbound member)
  fresh := by
    rw [tasks, nextSubscriber]
    exact gated.fresh

/-- A task may change as long as an answered handshake stays answered. -/
theorem Gated.setTask (gated : Gated hub daemon) (known : daemon.tasks subscriber = some task)
    (changed : updated.Gated (hub.forSubscriber subscriber))
    (kept : task.serving.handshakeDone = true → updated.serving.handshakeDone = true) :
    Gated hub (daemon.setTask subscriber updated) where
  tasks := by
    intro other found lookup
    by_cases same : other = subscriber
    · subst same
      rw [setTask_self] at lookup
      cases lookup
      exact changed
    · rw [setTask_ne same] at lookup
      exact gated.tasks other found lookup
  requests := by
    intro inbound member
    rcases gated.requests inbound member with ⟨found, lookup, done⟩
    by_cases same : inbound.subscriber = subscriber
    · rw [same, known] at lookup
      cases lookup
      exact ⟨updated, by rw [same, setTask_self], kept done⟩
    · exact ⟨found, by rwa [setTask_ne same], done⟩
  fresh := by
    intro other above
    have unknown := gated.fresh other above
    have distinct : other ≠ subscriber := by
      intro same
      rw [same, known] at unknown
      cases unknown
    rwa [setTask_ne distinct]

/-- A request may be queued for a connection past the gate. -/
theorem Gated.enqueue (gated : Gated hub daemon) (known : daemon.tasks subscriber = some task)
    {more : List Inbound} (own : ∀ inbound ∈ more, inbound.subscriber = subscriber ∧
      task.serving.handshakeDone = true) (tasks : next.tasks = daemon.tasks)
    (requests : next.requests = daemon.requests ++ more)
    (nextSubscriber : next.nextSubscriber = daemon.nextSubscriber) : Gated hub next where
  tasks := by
    rw [tasks]
    exact gated.tasks
  requests := by
    intro inbound member
    rw [tasks]
    rw [requests] at member
    rcases List.mem_append.mp member with old | new
    · exact gated.requests inbound old
    · rw [(own inbound new).1]
      exact ⟨task, known, (own inbound new).2⟩
  fresh := by
    rw [tasks, nextSubscriber]
    exact gated.fresh

theorem Gated.accept (gated : Gated hub daemon) (inbound : List UInt8) :
    Gated hub { daemon.setTask daemon.nextSubscriber (.new inbound) with
      nextSubscriber := daemon.nextSubscriber + 1 } where
  tasks := by
    intro other found lookup
    by_cases same : other = daemon.nextSubscriber
    · subst same
      have isNew : (daemon.setTask _ (.new inbound)).tasks _ = some found := lookup
      rw [setTask_self] at isNew
      cases isNew
      exact ConnectionTask.gated_new _ inbound
    · have old := (setTask_ne same).symm.trans lookup
      exact gated.tasks other found old
  requests := by
    intro queued member
    rcases gated.requests queued member with ⟨found, lookup, done⟩
    refine ⟨found, ?_, done⟩
    have distinct : queued.subscriber ≠ daemon.nextSubscriber := by
      intro same
      rw [same, gated.fresh _ (Nat.le_refl _)] at lookup
      cases lookup
    exact (setTask_ne distinct).trans lookup
  fresh := by
    intro other above
    have later : daemon.nextSubscriber < other := above
    have distinct : other ≠ daemon.nextSubscriber := by omega
    exact (setTask_ne distinct).trans (gated.fresh other (by omega))

/-- The first half of a turn forwards only the connection's own requests, through the gate. -/
theorem Gated.own_of_take {turn : Turn} {taken : Serving Snapshot} (gated : Gated hub daemon)
    (known : daemon.tasks subscriber = some task) (taking : task.stage = .taking)
    (took : task.serving.takeRequest (hub.forSubscriber subscriber) turn = some taken) :
    ∀ inbound ∈ (taken.log.drop task.serving.log.length).filterMap ServeAction.inbound,
      inbound.subscriber = subscriber ∧ task.serving.handshakeDone = true := by
  have before := gated.tasks subscriber task known
  have alive := before.alive (by rw [taking]; rfl)
  intro inbound member
  cases Serving.takes_of_takeRequest (before.gate.agrees alive) took with
  | waits same =>
      rw [same, List.drop_length] at member
      cases member
  | fails connection error failed shorter =>
      rw [failed, List.drop_length] at member
      cases member
  | forwards connection request done handshaken queued shorter =>
      rw [queued, List.drop_left] at member
      have only : inbound = ⟨subscriber, request⟩ := by
        simpa [ServeAction.inbound, Hub.forSubscriber] using member
      rw [only]
      exact ⟨rfl, done⟩
  | greets rest payload documents notDone opens left handshaken done logged noneForwarded =>
      have nothing : (.wrote (.hello payload) :: documents).filterMap ServeAction.inbound = [] :=
        noneForwarded
      rw [logged, List.drop_left, nothing] at member
      cases member

theorem Gated.take {turn : Turn} {taken : Serving Snapshot} (gated : Gated hub daemon)
    (known : daemon.tasks subscriber = some task) (taking : task.stage = .taking)
    (took : task.serving.takeRequest (hub.forSubscriber subscriber) turn = some taken)
    (proceeded : task.proceed (hub.forSubscriber subscriber) taken turn.farewell .waiting =
      some updated) :
    Gated hub ((daemon.afterTake subscriber task.serving taken).setTask subscriber updated) := by
  have before := gated.tasks subscriber task known
  have alive := before.alive (by rw [taking]; rfl)
  have takes := Serving.takes_of_takeRequest (before.gate.agrees alive) took
  have kept : task.serving.handshakeDone = true → taken.handshakeDone = true := by
    intro done
    cases takes with
    | waits same => rwa [same]
    | fails connection error failed shorter => rwa [failed]
    | forwards connection request _ handshaken queued shorter => rwa [queued]
    | greets rest payload documents notDone opens left handshaken nowDone logged noneForwarded =>
        exact nowDone
  have noAcks : taken.handshakeDone = false → task.acks = [] := by
    intro notDone
    apply before.acks
    by_contra done
    rw [kept (by simpa using done)] at notDone
    cases notDone
  rcases ConnectionTask.gated_proceed (before.gate.takes alive takes) noAcks proceeded with
    ⟨after, sameDone⟩
  have queued : Gated hub (daemon.afterTake subscriber task.serving taken) :=
    gated.enqueue known (gated.own_of_take known taking took) tasks_afterTake requests_afterTake
      nextSubscriber_afterTake
  apply queued.setTask (by rwa [tasks_afterTake]) after
  intro done
  rw [sameDone]
  exact kept done

theorem Gated.sendAck {frame : FrontendFrame Snapshot} (gated : Gated hub daemon)
    (known : daemon.tasks subscriber = some task) (done : task.serving.handshakeDone = true) :
    Gated hub (daemon.sendAck subscriber frame) := by
  rw [Daemon.sendAck, known]
  apply gated.setTask known
  · exact ConnectionTask.gated_sendAck (gated.tasks subscriber task known) done
  · rw [ConnectionTask.sendAck_serving]
    exact id

theorem Gated.handleRequest {inbound : Inbound} {reloaded : Bool} {detail : Option String}
    (gated : Gated hub daemon) (known : daemon.tasks inbound.subscriber = some task)
    (done : task.serving.handshakeDone = true) :
    Gated hub (daemon.handleRequest inbound reloaded detail) := by
  unfold Daemon.handleRequest
  split
  · exact gated
  · exact gated.sendAck known done
  · refine Gated.sendAck ?_ known done
    exact gated.of_fields rfl (fun _ => id) rfl
  · refine Gated.sendAck ?_ known done
    exact gated.of_fields rfl (fun _ => id) rfl
  · refine Gated.sendAck ?_ known done
    exact gated.of_fields rfl (fun _ => id) rfl

theorem gated_of_step (gated : Gated hub daemon) (stepped : step hub daemon event = some next) :
    Gated hub next := by
  cases moves_of_step stepped with
  | accept inbound isNext =>
      rw [isNext]
      exact gated.accept inbound
  | take subscriber turn task updated taken known taking room took proceeded isNext =>
      rw [isNext]
      exact gated.take known taking took proceeded
  | wait subscriber branch farewell task ready updated selected known waiting received branchTaken
      proceeded isNext =>
      rcases ConnectionTask.gated_receiveAck (gated.tasks subscriber task known) received with
        ⟨readyGated, sameServing, sameStage, noAck⟩
      have alive : ready.serving.result = none := by
        apply readyGated.alive
        rw [sameStage, waiting]
        rfl
      have same := Serving.SameAccount.select branchTaken
      rw [← sameServing] at noAck
      rcases ConnectionTask.gated_proceed (readyGated.gate.select alive noAck branchTaken)
        (by rw [same.handshakeDone]; exact readyGated.acks) proceeded with ⟨after, sameDone⟩
      rw [isNext]
      apply gated.setTask known after
      rw [sameDone, same.handshakeDone, sameServing]
      exact id
  | removeIntent subscriber task known ended isNext =>
      have before := gated.tasks subscriber task known
      have left : ConnectionTask.Gated (hub.forSubscriber subscriber)
          { task with stage := .leaving } :=
        ⟨before.gate, before.acks, by simp [Stage.isServing]⟩
      rw [isNext]
      exact (gated.setTask known left id).of_fields rfl (fun _ => id) rfl
  | removeCronIntent subscriber task known leaving isNext =>
      have before := gated.tasks subscriber task known
      have left : ConnectionTask.Gated (hub.forSubscriber subscriber)
          { task with stage := .gone } :=
        ⟨before.gate, before.acks, by simp [Stage.isServing]⟩
      rw [isNext]
      exact (gated.setTask known left id).of_fields rfl (fun _ => id) rfl
  | handle reloaded detail inbound requests queue isNext =>
      rcases gated.requests inbound (by simp [queue]) with ⟨task, known, done⟩
      have shorter : Gated hub { daemon with requests } := by
        refine gated.of_fields rfl ?_ rfl
        intro other member
        simp [queue, member]
      rw [isNext]
      exact shorter.handleRequest known done
  | cancel isNext =>
      rw [isNext]
      exact gated.of_fields rfl (fun _ => id) rfl

theorem gated_of_runsTo
    (runs : Machine.RunsTo (step hub) Machine.anyEvent (new : Daemon Snapshot) daemon) :
    Gated hub daemon := by
  apply runs.invariant (Gated hub) gated_new
  intro before event after gated _ stepped
  exact gated_of_step gated stepped

/-- A task stands between two turns of its connection's own loop, or in the middle of one. -/
inductive Turning (hub : Hub Snapshot) (task : ConnectionTask Snapshot) : Prop where
  | between (notWaiting : task.stage ≠ .waiting)
      (runs : Machine.RunsTo (Serving.step hub) Machine.anyEvent (.new task.inbound) task.serving)
  | within (before : Serving Snapshot) (turn : Turn) (waiting : task.stage = .waiting)
      (runs : Machine.RunsTo (Serving.step hub) Machine.anyEvent (.new task.inbound) before)
      (running : before.result = none) (took : before.takeRequest hub turn = some task.serving)

theorem step_of_halves {hub : Hub Snapshot} {before taken selected told : Serving Snapshot}
    {turn : Turn} {branch : Branch} {farewell : List WriteOutcome} (running : before.result = none)
    (took : before.takeRequest hub turn = some taken) (alive : taken.result = none)
    (branchTaken : taken.select hub branch = some selected)
    (farewelled : selected.sayFarewell hub farewell = some told) :
    before.step hub { turn with branch, farewell } = some told := by
  have sameTake : before.takeRequest hub { turn with branch, farewell } = some taken := took
  simp [Serving.step, running, sameTake, Serving.andThen, alive, branchTaken, farewelled]

theorem turning_proceed {serving : Serving Snapshot} {farewell : List WriteOutcome}
    (proceeded : task.proceed hub serving farewell .taking = some updated) :
    updated.inbound = task.inbound ∧ updated.stage ≠ .waiting ∧
      serving.sayFarewell hub farewell = some updated.serving := by
  unfold ConnectionTask.proceed at proceeded
  split at proceeded
  · rcases Option.map_eq_some_iff.mp proceeded with ⟨told, farewelled, rfl⟩
    exact ⟨rfl, by simp, farewelled⟩
  · rename_i running
    cases proceeded
    refine ⟨rfl, by simp, ?_⟩
    have alive : serving.result = none := by simpa using running
    simp [Serving.sayFarewell, alive]

theorem Turning.setTask
    (turning : ∀ subscriber task, daemon.tasks subscriber = some task →
      Turning (hub.forSubscriber subscriber) task)
    (changed : Turning (hub.forSubscriber subscriber) updated) (other : ℕ)
    (found : ConnectionTask Snapshot) (lookup : (daemon.setTask subscriber updated).tasks other =
      some found) : Turning (hub.forSubscriber other) found := by
  by_cases same : other = subscriber
  · subst same
    rw [setTask_self] at lookup
    cases lookup
    exact changed
  · rw [setTask_ne same] at lookup
    exact turning other found lookup

theorem Turning.move_on {stage : Stage} (turning : Turning hub task)
    (before : task.stage ≠ .waiting)
    (after : stage ≠ .waiting) : Turning hub { task with stage } := by
  cases turning with
  | between notWaiting runs => exact .between after runs
  | within _ _ waiting _ _ _ => exact absurd waiting before

theorem turning_sendAck {frame : FrontendFrame Snapshot} (turning : Turning hub task) :
    Turning hub (task.sendAck frame) := by
  unfold ConnectionTask.sendAck
  split
  · cases turning with
    | between notWaiting runs => exact .between notWaiting runs
    | within before turn waiting runs running took =>
        exact .within before turn waiting runs running took
  · exact turning

theorem Turning.daemon_sendAck {frame : FrontendFrame Snapshot}
    (turning : ∀ subscriber task, daemon.tasks subscriber = some task →
      Turning (hub.forSubscriber subscriber) task) (same : next.tasks = daemon.tasks) (other : ℕ)
    (found : ConnectionTask Snapshot)
    (lookup : (next.sendAck subscriber frame).tasks other = some found) :
    Turning (hub.forSubscriber other) found := by
  rw [← same] at turning
  unfold sendAck at lookup
  split at lookup
  · rename_i task known
    exact Turning.setTask turning (turning_sendAck (turning subscriber task known)) other found
      lookup
  · exact turning other found lookup

theorem turning_of_step (gated : Gated hub daemon)
    (turning : ∀ subscriber task, daemon.tasks subscriber = some task →
      Turning (hub.forSubscriber subscriber) task)
    (stepped : step hub daemon event = some next) (other : ℕ) (found : ConnectionTask Snapshot)
    (lookup : next.tasks other = some found) : Turning (hub.forSubscriber other) found := by
  cases moves_of_step stepped with
  | accept inbound isNext =>
      rw [isNext] at lookup
      exact Turning.setTask turning (.between (by simp [ConnectionTask.new]) .refl) other found
        lookup
  | take subscriber turn task updated taken known taking room took proceeded isNext =>
      rw [isNext] at lookup
      have running : task.serving.result = none :=
        (gated.tasks subscriber task known).alive (by rw [taking]; rfl)
      have runs : Machine.RunsTo (Serving.step (hub.forSubscriber subscriber)) Machine.anyEvent
          (.new task.inbound) task.serving := by
        cases turning subscriber task known with
        | between notWaiting runs => exact runs
        | within _ _ waiting _ _ _ =>
            rw [taking] at waiting
            cases waiting
      have advanced : Turning (hub.forSubscriber subscriber) updated := by
        unfold ConnectionTask.proceed at proceeded
        split at proceeded
        · rename_i ended
          rcases Option.map_eq_some_iff.mp proceeded with ⟨told, farewelled, rfl⟩
          apply Turning.between (by simp)
          apply runs.snoc turn trivial
          simp [Serving.step, running, took, Serving.andThen, ended, farewelled]
        · cases proceeded
          exact .within task.serving turn rfl runs running took
      have queued : ∀ other found, (daemon.afterTake subscriber task.serving
          taken).tasks other = some found → Turning (hub.forSubscriber other) found := by
        rw [tasks_afterTake]
        exact turning
      exact Turning.setTask queued advanced other found lookup
  | wait subscriber branch farewell task ready updated selected known waiting received branchTaken
      proceeded isNext =>
      rw [isNext] at lookup
      rcases ConnectionTask.gated_receiveAck (gated.tasks subscriber task known) received with
        ⟨readyGated, sameServing, sameStage, -⟩
      have alive : task.serving.result = none :=
        (gated.tasks subscriber task known).alive (by rw [waiting]; rfl)
      rcases turning_proceed proceeded with ⟨sameInbound, notWaiting, farewelled⟩
      have advanced : Turning (hub.forSubscriber subscriber) updated := by
        cases turning subscriber task known with
        | between notWaiting _ => exact absurd waiting notWaiting
        | within before turn _ runs running took =>
            apply Turning.between notWaiting
            rw [sameInbound, ConnectionTask.inbound_receiveAck received]
            rw [sameServing] at branchTaken
            exact runs.snoc _ trivial (step_of_halves running took alive branchTaken farewelled)
      exact Turning.setTask turning advanced other found lookup
  | removeIntent subscriber task known ended isNext =>
      rw [isNext] at lookup
      have moved : Turning (hub.forSubscriber subscriber) { task with stage := .leaving } :=
        (turning subscriber task known).move_on (by simp [ended]) (by simp)
      exact Turning.setTask turning moved other found lookup
  | removeCronIntent subscriber task known leaving isNext =>
      rw [isNext] at lookup
      have moved : Turning (hub.forSubscriber subscriber) { task with stage := .gone } :=
        (turning subscriber task known).move_on (by simp [leaving]) (by simp)
      exact Turning.setTask turning moved other found lookup
  | handle reloaded detail inbound requests queue isNext =>
      rw [isNext] at lookup
      unfold handleRequest at lookup
      split at lookup
      · exact turning other found lookup
      all_goals
        refine Turning.daemon_sendAck turning ?_ other found lookup
        rfl
  | cancel isNext =>
      rw [isNext] at lookup
      exact turning other found lookup

/-- Whatever the tasks and the engine do, each connection goes through turns of its own loop. -/
theorem turning_of_runsTo
    (runs : Machine.RunsTo (step hub) Machine.anyEvent (new : Daemon Snapshot) daemon)
    (known : daemon.tasks subscriber = some task) :
    Turning (hub.forSubscriber subscriber) task := by
  have turning : ∀ subscriber task, daemon.tasks subscriber = some task →
      Turning (hub.forSubscriber subscriber) task := by
    apply runs.invariant_of fun ran => gated_of_runsTo ran
    · intro subscriber task impossible
      cases impossible
    · intro before event after gated turning _ stepped
      exact turning_of_step gated turning stepped
  exact turning subscriber task known

/-- Where a gated action stands in a log, a hello stands before it. -/
theorem hello_before {log before after : List (ServeAction Snapshot)}
    {action : ServeAction Snapshot} (greeted : Greeted log)
    (split : log = before ++ action :: after)
    (isGated : action.Gated) : ∃ payload, .wrote (.hello payload) ∈ before := by
  rcases greeted with ⟨quietOnes, payload, later, greetedSplit, quiet⟩
  refine ⟨payload, ?_⟩
  rw [split] at greetedSplit
  rcases List.append_eq_append_iff.mp greetedSplit with ⟨between, isBefore, here⟩ |
    ⟨between, isBefore, here⟩
  · rcases between with _ | ⟨first, between⟩
    · cases here
      exact absurd isGated id
    · cases here
      exact absurd isGated (Serving.not_gated_of_quiet (quiet action (by simp [isBefore])))
  · rcases between with _ | ⟨first, between⟩
    · cases here
      exact absurd isGated id
    · cases here
      simp [isBefore]

/-- Whatever bytes a frontend sends: no request is forwarded and no document or acknowledgement is
written but after a hello, and after the handshake that opens the stream was taken off it. On a
stream that opens otherwise there is never one. -/
theorem handshake_gate (hub : Hub Snapshot)
    (runs : Machine.RunsTo (step hub) Machine.anyEvent (new : Daemon Snapshot) daemon)
    (known : daemon.tasks subscriber = some task) :
    (∀ before action after, task.serving.log = before ++ action :: after → action.Gated →
        (∃ payload, .wrote (.hello payload) ∈ before) ∧
          ∃ rest, hub.OpensWith task.inbound rest ∧
            task.serving.connection.buffer ++ task.serving.unread <:+ rest) ∧
      ((∀ rest, ¬hub.OpensWith task.inbound rest) →
        ∀ action ∈ task.serving.log, ¬action.Gated) := by
  have gate := ((gated_of_runsTo runs).tasks subscriber task known).gate
  have passed : ∀ action ∈ task.serving.log, action.Gated → task.serving.handshakeDone = true := by
    intro action member isGated
    by_contra notDone
    exact Serving.not_gated_of_quiet (gate.quiet (by simpa using notDone) action member) isGated
  constructor
  · intro before action after split isGated
    rcases gate.opened (passed action (by simp [split]) isGated) with ⟨greeted, opens⟩
    exact ⟨hello_before greeted split isGated, opens⟩
  · intro mismatched action member isGated
    rcases gate.opened (passed action member isGated) with ⟨-, rest, opens, -⟩
    exact mismatched rest opens

/-- A client that sends its handshake and a reload in one piece: the reload goes through. -/
theorem handshake_gate_pipelined :
    ∃ (daemon : Daemon ℕ) (task : ConnectionTask ℕ), daemon.tasks 1 = some task ∧
      task.serving.forwarded = [.reloadConfig 1] ∧
      ∀ before action after, task.serving.log = before ++ action :: after → action.Gated →
        (∃ payload, .wrote (.hello payload) ∈ before) ∧
          ∃ rest, Serving.exampleHub.OpensWith task.inbound rest ∧
            task.serving.connection.buffer ++ task.serving.unread <:+ rest := by
  let turn := Serving.readingTurn .wouldBlock
  have reached : ((Machine.run (step Serving.exampleHub) (new : Daemon ℕ)
      [.accept (Serving.exampleHandshake.bytes ++ Serving.exampleReload.bytes), .take 1 turn,
        .wait 1 (.poll [] Serving.wholeInbound) [], .take 1 turn, .wait 1 (.poll [] .wouldBlock) [],
        .take 1 turn]).bind fun daemon =>
          (daemon.tasks 1).map fun task => task.serving.forwarded) = some [.reloadConfig 1] := by
    decide +kernel
  rcases Option.bind_eq_some_iff.mp reached with ⟨daemon, ran, facts⟩
  rcases Option.map_eq_some_iff.mp facts with ⟨task, known, forwarded⟩
  have runs := Machine.runsTo_of_run ran fun _ _ _ => trivial
  exact ⟨daemon, task, known, forwarded, (handshake_gate Serving.exampleHub runs known).1⟩

end Daemon

end Gregg.Clientd
