import Gregg.Clientd.Serve

/-!
# Which requests reach the engine

Of the inbound stream of a connection, every turn hands at most one request over, and a turn that
ends the loop is no exception. What was forwarded together with what is still buffered or unread is
therefore the whole stream at any moment, and the requests that are lost are those a last turn
leaves behind.
-/

namespace Gregg.Clientd

namespace Connection

/-- Writing touches neither the read buffer nor the handshake. -/
structure SameInbound (before after : Connection) : Prop where
  buffer : after.buffer = before.buffer
  handshaken : after.handshaken = before.handshaken

theorem sameInbound_refill {conn next : Connection} (refilled : conn.refill = some next) :
    SameInbound conn next := by
  unfold refill at refilled
  split at refilled
  · rcases Option.map_eq_some_iff.mp refilled with ⟨queued, -, rfl⟩
    exact ⟨rfl, rfl⟩
  · cases refilled
    exact ⟨rfl, rfl⟩

theorem sameInbound_flushOutbound {conn : Connection} {outcomes : List WriteOutcome}
    {written : Written Bool} (flushed : conn.flushOutbound outcomes = some written) :
    SameInbound conn written.conn := by
  induction outcomes generalizing conn written with
  | nil =>
      rw [flushOutbound] at flushed
      cases refilled : conn.refill with
      | none =>
          simp only [refilled, Option.some.injEq] at flushed
          subst flushed
          exact ⟨rfl, rfl⟩
      | some next =>
          simp only [refilled, Option.some.injEq] at flushed
          subst flushed
          exact sameInbound_refill refilled
  | cons outcome outcomes ih =>
      rw [flushOutbound] at flushed
      cases refilled : conn.refill with
      | none =>
          simp only [refilled, Option.some.injEq] at flushed
          subst flushed
          exact ⟨rfl, rfl⟩
      | some next =>
          have same := sameInbound_refill refilled
          simp only [refilled] at flushed
          cases outcome with
          | wouldBlock =>
              cases flushed
              exact same
          | failed error =>
              cases flushed
              exact same
          | took count =>
              simp only at flushed
              split at flushed
              · cases flushed
                exact same
              · split at flushed
                · cases flushed
                · rcases Option.map_eq_some_iff.mp flushed with ⟨rest, restFlushed, rfl⟩
                  have later := ih restFlushed
                  exact ⟨later.buffer.trans same.buffer, later.handshaken.trans same.handshaken⟩

theorem sameInbound_writeEncoded {conn : Connection} {encoded : List UInt8}
    {outcomes : List WriteOutcome} {written : Written Unit}
    (wrote : conn.writeEncoded encoded outcomes = some written) :
    SameInbound conn written.conn := by
  rcases Option.map_eq_some_iff.mp wrote with ⟨flushed, flushedEq, rfl⟩
  have same := sameInbound_flushOutbound flushedEq
  unfold place at same
  split at same
  · exact ⟨same.buffer, same.handshaken⟩
  · exact ⟨same.buffer, same.handshaken⟩

theorem sameInbound_writeFrame {Value : Type} {codec : Codec Value} {conn : Connection}
    {value : Value} {outcomes : List WriteOutcome} {written : Written Unit}
    (wrote : conn.writeFrame codec value outcomes = some written) :
    SameInbound conn written.conn := by
  unfold writeFrame at wrote
  split at wrote
  · cases wrote
    exact ⟨rfl, rfl⟩
  · exact sameInbound_writeEncoded wrote

end Connection

namespace Serving

variable {Snapshot : Type} {hub : Hub Snapshot} {serving next final : Serving Snapshot}
  {turn : Turn} {outcomes : List WriteOutcome}

/-- The inbound bytes not consumed, the handshake and the forwarded requests are the same. -/
structure SameAccount (before after : Serving Snapshot) : Prop where
  inbound : after.connection.buffer ++ after.unread = before.connection.buffer ++ before.unread
  handshaken : after.connection.handshaken = before.connection.handshaken
  handshakeDone : after.handshakeDone = before.handshakeDone
  forwarded : after.forwarded = before.forwarded

namespace SameAccount

theorem refl (serving : Serving Snapshot) : SameAccount serving serving := ⟨rfl, rfl, rfl, rfl⟩

theorem trans (first : SameAccount serving next) (second : SameAccount next final) :
    SameAccount serving final where
  inbound := second.inbound.trans first.inbound
  handshaken := second.handshaken.trans first.handshaken
  handshakeDone := second.handshakeDone.trans first.handshakeDone
  forwarded := second.forwarded.trans first.forwarded

theorem after {Result : Type} {written : Written Result} {actions : List (ServeAction Snapshot)}
    (same : Connection.SameInbound serving.connection written.conn)
    (noForward : actions.filterMap ServeAction.request = []) :
    SameAccount serving (serving.after actions written) where
  inbound := by simp only [Serving.after, same.buffer]
  handshaken := same.handshaken
  handshakeDone := rfl
  forwarded := by
    rw [Serving.forwarded, Serving.after, List.filterMap_append, noForward, List.append_nil,
      Serving.forwarded]

theorem writeFrame {frame : FrontendFrame Snapshot}
    (wrote : serving.writeFrame hub frame outcomes = some next) : SameAccount serving next := by
  rcases Option.map_eq_some_iff.mp wrote with ⟨written, writtenEq, rfl⟩
  exact after (Connection.sameInbound_writeFrame writtenEq) rfl

theorem writeDocument {document : Document}
    (wrote : serving.writeDocument document outcomes = some next) : SameAccount serving next := by
  rcases Option.map_eq_some_iff.mp wrote with ⟨written, writtenEq, rfl⟩
  exact after (Connection.sameInbound_writeEncoded writtenEq) rfl

theorem andThen {act : Serving Snapshot → Option (Serving Snapshot)}
    (acts : ∀ {after}, act serving = some after → SameAccount serving after)
    (acted : serving.andThen act = some next) : SameAccount serving next := by
  unfold Serving.andThen at acted
  split at acted
  · cases acted
    exact refl serving
  · exact acts acted

theorem receive {input : ReadOutcome} (received : serving.receive input = some next) :
    SameAccount serving next := by
  unfold Serving.receive at received
  split at received
  · split at received
    · cases received
    · split at received
      · rename_i chunk _ _ isPrefix
        split at received
        · cases received
          exact ⟨rfl, rfl, rfl, rfl⟩
        · rename_i pushed
          cases received
          unfold Connection.pushBytes at pushed
          split at pushed
          · cases pushed
          · cases pushed
            rcases List.isPrefixOf_iff_prefix.mp isPrefix with ⟨rest, split⟩
            refine ⟨?_, rfl, rfl, rfl⟩
            simp only [← split, List.drop_left, List.append_assoc]
      · cases received
  · cases received
    exact refl serving
  · split at received
    · cases received
      exact ⟨rfl, rfl, rfl, rfl⟩
    · cases received
  · cases received
    exact ⟨rfl, rfl, rfl, rfl⟩

theorem select {branch : Branch} (selected : serving.select hub branch = some next) :
    SameAccount serving next := by
  cases branch with
  | changed latest outcomes =>
      simp only [Serving.select] at selected
      split at selected
      · exact writeDocument selected
      · cases selected
        exact refl serving
  | closed outcomes =>
      rcases Option.map_eq_some_iff.mp selected with ⟨told, wrote, rfl⟩
      have same := writeFrame wrote
      exact ⟨same.inbound, same.handshaken, same.handshakeDone, same.forwarded⟩
  | ack generation accepted detail outcomes => exact writeFrame selected
  | poll flush input =>
      rcases Option.bind_eq_some_iff.mp selected with ⟨written, flushed, received⟩
      have flushedSame : SameAccount serving (serving.after [] written) :=
        after (Connection.sameInbound_flushOutbound flushed) rfl
      exact flushedSame.trans (andThen receive received)

theorem sayFarewell (told : serving.sayFarewell hub outcomes = some next) :
    SameAccount serving next := by
  unfold Serving.sayFarewell at told
  split at told
  · rcases Option.map_eq_some_iff.mp told with ⟨after, wrote, rfl⟩
    have same := writeFrame wrote
    exact ⟨same.inbound, same.handshaken, same.handshakeDone, same.forwarded⟩
  · cases told
    exact refl serving

end SameAccount

section Account

variable {handshake : EncodedFrame hub.wire.requests}
  {requests remaining : List (EncodedFrame hub.wire.requests)}

/-- What the engine got and what it is still owed make up the whole inbound stream. -/
structure Owes (handshake : EncodedFrame hub.wire.requests)
    (requests : List (EncodedFrame hub.wire.requests)) (serving : Serving Snapshot)
    (remaining : List (EncodedFrame hub.wire.requests)) : Prop where
  stream : StreamOf (serving.connection.buffer ++ serving.unread) remaining []
  handshaken : serving.connection.handshaken = serving.handshakeDone
  pristine : serving.handshakeDone = false →
    serving.forwarded = [] ∧ remaining = handshake :: requests
  account : serving.handshakeDone = true →
    serving.forwarded ++ remaining.map (·.value) = requests.map (·.value)

theorem Owes.of_same (owes : Owes handshake requests serving remaining)
    (same : SameAccount serving next) : Owes handshake requests next remaining where
  stream := by
    rw [same.inbound]
    exact owes.stream
  handshaken := by rw [same.handshaken, same.handshakeDone, owes.handshaken]
  pristine := by
    rw [same.handshakeDone, same.forwarded]
    exact owes.pristine
  account := by
    rw [same.handshakeDone, same.forwarded]
    exact owes.account

theorem owes_new (handshake : EncodedFrame hub.wire.requests)
    (requests : List (EncodedFrame hub.wire.requests)) :
    Owes handshake requests
      (new ((handshake :: requests).flatMap EncodedFrame.bytes) : Serving Snapshot)
      (handshake :: requests) where
  stream := by
    have stream := streamOf_append (handshake :: requests) Framing.Format.unfinished_nil
    rwa [List.append_nil] at stream
  handshaken := rfl
  pristine := fun _ => ⟨rfl, rfl⟩
  account := by
    intro impossible
    cases impossible

/-- The handshake a daemon answers: its protocol version, for its configuration. -/
def Matches (hub : Hub Snapshot) (handshake : EncodedFrame hub.wire.requests) : Prop :=
  ∃ version, handshake.value = .handshake PROTOCOL_VERSION version hub.daemonId

/-- The first half of a turn takes the first frame that is still owed, or finds none complete. -/
theorem Owes.takeRequest (owes : Owes handshake requests serving remaining)
    (roundTrips : hub.wire.requests.RoundTrips) (valid : Matches hub handshake)
    (room : turn.room = true) (taken : serving.takeRequest hub turn = some next) :
    (frameFormat.takeFrame serving.connection.buffer = .ok none ∧
        next.handshakeDone = serving.handshakeDone ∧ Owes handshake requests next remaining) ∨
      ∃ frame others rest, remaining = frame :: others ∧
        StreamOf (rest ++ serving.unread) others [] ∧ next.handshakeDone = true ∧
        Owes handshake requests next others := by
  unfold Serving.takeRequest at taken
  rcases Connection.tryReadFrame_stream roundTrips owes.stream with
    ⟨waits, nothing⟩ | ⟨frame, rest, others, rfl, found, left⟩
  · left
    simp only [Connection.tryReadRequest, waits, Option.some.injEq] at taken
    subst taken
    exact ⟨nothing, rfl, owes⟩
  · right
    refine ⟨frame, others, rest, rfl, left, ?_⟩
    simp only [Connection.tryReadRequest, found] at taken
    cases done : serving.handshakeDone with
    | true =>
        have handshaken : serving.connection.handshaken = true := owes.handshaken.trans done
        simp only [Connection.admitRequest, handshaken, done, forward, room, ↓reduceIte,
          Option.some.injEq] at taken
        subst taken
        refine ⟨rfl, left, rfl, ?_, ?_⟩
        · intro impossible
          cases impossible
        · intro _
          have account := owes.account done
          rw [List.map_cons] at account
          rw [← account]
          simp [forwarded, ServeAction.request]
    | false =>
        have handshaken : serving.connection.handshaken = false := owes.handshaken.trans done
        rcases owes.pristine done with ⟨noneForwarded, ⟨⟩⟩
        rcases valid with ⟨version, isHandshake⟩
        simp only [Connection.admitRequest, handshaken, done, isHandshake, answerHandshake,
          Connection.verifyDaemonId, Bool.false_eq_true, ↓reduceIte] at taken
        rcases Option.bind_eq_some_iff.mp taken with ⟨greeted, wroteHello, published⟩
        have same := (SameAccount.writeFrame wroteHello).trans
          (SameAccount.andThen SameAccount.writeDocument published)
        refine ⟨same.handshakeDone, ?_⟩
        apply Owes.of_same _ same
        refine ⟨left, rfl, ?_, ?_⟩
        · intro impossible
          cases impossible
        · intro _
          have noRequest : serving.log.filterMap ServeAction.request = [] := noneForwarded
          simp only [forwarded, noRequest, List.nil_append]

/-- A whole turn forwards at most one of the requests that are still owed. -/
theorem Owes.step (owes : Owes handshake requests serving remaining)
    (roundTrips : hub.wire.requests.RoundTrips) (valid : Matches hub handshake)
    (room : turn.room = true) (stepped : serving.step hub turn = some next) :
    (frameFormat.takeFrame serving.connection.buffer = .ok none ∧
        next.handshakeDone = serving.handshakeDone ∧ Owes handshake requests next remaining) ∨
      ∃ frame others rest, remaining = frame :: others ∧
        StreamOf (rest ++ serving.unread) others [] ∧ next.handshakeDone = true ∧
        Owes handshake requests next others := by
  unfold Serving.step at stepped
  split at stepped
  · cases stepped
  · rcases Option.bind_eq_some_iff.mp stepped with ⟨selected, taken, told⟩
    rcases Option.bind_eq_some_iff.mp taken with ⟨middle, taken, selected⟩
    have same := (SameAccount.andThen SameAccount.select selected).trans
      (SameAccount.sayFarewell told)
    rcases owes.takeRequest roundTrips valid room taken with
      ⟨nothing, handshakeDone, owesMiddle⟩ | ⟨frame, others, rest, split, left, done, owesMiddle⟩
    · left
      exact ⟨nothing, same.handshakeDone.trans handshakeDone, owesMiddle.of_same same⟩
    · right
      exact ⟨frame, others, rest, split, left, same.handshakeDone.trans done,
        owesMiddle.of_same same⟩

/-- The turn finds room in the engine's channel. -/
def HasRoom (_ : Serving Snapshot) (turn : Turn) : Prop := turn.room = true

/-- The turn finds at most one complete request that was not forwarded, in the read buffer, and
nothing unread; before the handshake is answered, at most the handshake itself. -/
def NothingLeftBehind (hub : Hub Snapshot) (serving : Serving Snapshot) : Prop :=
  if serving.handshakeDone then
    serving.unread = [] ∧
      (onWire hub.wire.requests serving.connection.buffer).length ≤ 1
  else
    (onWire hub.wire.requests (serving.connection.buffer ++ serving.unread)).length ≤ 1

theorem forwarded_eq_iff
    (account : serving.forwarded ++ remaining.map (·.value) = requests.map (·.value)) :
    serving.forwarded = requests.map (·.value) ↔ remaining = [] := by
  rw [← account, List.self_eq_append_right, List.map_eq_nil_iff]

/-- The inbound stream of a matching handshake, some requests and the close of the peer. -/
def accepted (handshake : EncodedFrame hub.wire.requests)
    (requests : List (EncodedFrame hub.wire.requests)) : Serving Snapshot :=
  new ((handshake :: requests).flatMap EncodedFrame.bytes)

/-- For every turn a run reaches, and so for the one that ends the loop: every request of the
inbound stream was forwarded, exactly once and in order, if and only if that turn found at most one
of them not yet forwarded, and that one in the read buffer. -/
theorem requests_forwarded_iff (roundTrips : hub.wire.requests.RoundTrips)
    (valid : Matches hub handshake)
    (runs : Machine.RunsTo (step hub) HasRoom (accepted handshake requests) serving)
    (room : HasRoom serving turn) (stepped : serving.step hub turn = some final) :
    final.forwarded = requests.map (·.value) ↔ NothingLeftBehind hub serving := by
  have owed : ∃ remaining, Owes handshake requests serving remaining := by
    apply runs.invariant fun serving => ∃ remaining, Owes handshake requests serving remaining
    · exact ⟨_, owes_new handshake requests⟩
    · rintro state turn next ⟨remaining, owes⟩ room stepped
      rcases owes.step roundTrips valid room stepped with
        ⟨-, -, owesNext⟩ | ⟨-, others, -, -, -, -, owesNext⟩
      · exact ⟨remaining, owesNext⟩
      · exact ⟨others, owesNext⟩
  rcases owed with ⟨remaining, owes⟩
  have turnTaken := owes.step roundTrips valid room stepped
  cases done : serving.handshakeDone with
  | true =>
      rw [NothingLeftBehind, if_pos done]
      rcases turnTaken with
        ⟨nothing, sameDone, owesFinal⟩ | ⟨frame, others, rest, rfl, left, finalDone, owesFinal⟩
      · rw [forwarded_eq_iff (owesFinal.account (sameDone.trans done))]
        constructor
        · rintro rfl
          have empty := List.append_eq_nil_iff.mp owes.stream.bytes_eq
          rw [empty.1]
          exact ⟨empty.2, Nat.zero_le _⟩
        · rintro ⟨allRead, -⟩
          have stream := owes.stream
          rw [allRead, List.append_nil] at stream
          exact List.map_eq_nil_iff.mp (stream.nil_of_takeFrame nothing).1
      · rw [forwarded_eq_iff (owesFinal.account finalDone)]
        have stream := owes.stream
        constructor
        · rintro rfl
          have allRead := (List.append_eq_nil_iff.mp left.bytes_eq).2
          rw [allRead, List.append_nil] at stream
          rw [onWire_stream roundTrips stream]
          exact ⟨allRead, Nat.le_refl _⟩
        · rintro ⟨allRead, atMostOne⟩
          rw [allRead, List.append_nil] at stream
          rw [onWire_stream roundTrips stream, List.length_map, List.length_cons] at atMostOne
          exact List.length_eq_zero_iff.mp (by omega)
  | false =>
      have notDone : ¬serving.handshakeDone = true := by simp [done]
      rw [NothingLeftBehind, if_neg notDone]
      rcases owes.pristine done with ⟨-, rfl⟩
      have noneForwarded : final.forwarded = [] := by
        rcases turnTaken with
          ⟨-, sameDone, owesFinal⟩ | ⟨frame, others, rest, ⟨⟩, -, finalDone, owesFinal⟩
        · exact (owesFinal.pristine (sameDone.trans done)).1
        · exact List.append_left_eq_self.mp (owesFinal.account finalDone)
      rw [noneForwarded, onWire_stream roundTrips owes.stream, List.length_map, List.length_cons]
      constructor
      · intro same
        rw [List.map_eq_nil_iff.mp same.symm]
        exact Nat.le_refl _
      · intro atMostOne
        have noRequests : requests = [] := List.length_eq_zero_iff.mp (by omega)
        rw [noRequests]
        rfl

end Account

section Examples

def exampleHello : HelloPayload where
  protocolVersion := 1
  version := "0.1.0"
  daemonId := "home"
  currentGeneration := 1

def helloText : List UInt8 := Utf8.asciiBytes
  ("\x7b\"t\":\"hello\",\"protocol_version\":1,\"version\":\"0.1.0\"," ++
    "\"daemon_id\":\"home\",\"current_generation\":1\x7d").toList

def handshakeText : List UInt8 := Utf8.asciiBytes
  ("\x7b\"t\":\"handshake\",\"protocol_version\":1,\"version\":\"0.1.0\"," ++
    "\"daemon_id\":\"home\"\x7d").toList

def reloadText : List UInt8 := Utf8.asciiBytes
  "\x7b\"t\":\"reload_config\",\"generation\":1\x7d".toList

/-- A daemon for the configuration `home`. -/
def exampleHub : Hub ℕ where
  wire :=
    { frames := .ofTable [(.hello exampleHello, helloText)]
      requests := .ofTable
        [(.handshake 1 "0.1.0" "home", handshakeText), (.reloadConfig 1, reloadText)] }
  debug := fun _ => "a request"
  daemonId := "home"
  version := "0.1.0"
  subscriber := 1

theorem exampleHub_roundTrips : exampleHub.wire.requests.RoundTrips := by
  apply Codec.ofTable_roundTrips
  decide +kernel

def exampleHandshake : EncodedFrame exampleHub.wire.requests where
  value := .handshake 1 "0.1.0" "home"
  body := handshakeText
  serialized := by decide +kernel
  fits := by decide +kernel

def exampleReload : EncodedFrame exampleHub.wire.requests where
  value := .reloadConfig 1
  body := reloadText
  serialized := by decide +kernel
  fits := by decide +kernel

def exampleDocument : Document where
  generation := 1
  encoded := lengthPrefix 31 ++ Utf8.asciiBytes "\x7b\"t\":\"snapshot\",\"generation\":1\x7d".toList

/-- A turn that reads, on a socket that takes the answer to the handshake whole. -/
def readingTurn (input : ReadOutcome) : Turn where
  room := true
  current := exampleDocument
  hello := [.took 103]
  state := [.took 40]
  branch := .poll [] input
  farewell := []

def wholeInbound : ReadOutcome :=
  .bytes (exampleHandshake.bytes ++ exampleReload.bytes)

theorem hasRoom_readingTurns (inputs : List ReadOutcome) :
    ∀ turn ∈ inputs.map readingTurn, ∀ serving : Serving ℕ, HasRoom serving turn := by
  intro turn member serving
  rcases List.mem_map.mp member with ⟨input, -, rfl⟩
  rfl

theorem exampleHandshake_matches : Matches exampleHub exampleHandshake :=
  ⟨"0.1.0", rfl⟩

/-- A client that leaves only after the daemon had one more turn to take its reload. -/
theorem requests_forwarded_patient :
    ∃ final : Serving ℕ, final.result = some (.ok ()) ∧
      final.forwarded = [exampleReload].map (·.value) := by
  have reached : ((Machine.run (step exampleHub) (accepted exampleHandshake [exampleReload])
      ([wholeInbound, .wouldBlock].map readingTurn)).map fun serving =>
        (serving.handshakeDone, serving.unread.length,
          (onWire exampleHub.wire.requests serving.connection.buffer).length,
          (serving.step exampleHub (readingTurn (.bytes []))).bind (·.result))) =
      some (true, 0, 1, some (.ok ())) := by
    decide +kernel
  rcases Option.map_eq_some_iff.mp reached with ⟨serving, ran, facts⟩
  simp only [Prod.mk.injEq, Option.bind_eq_some_iff] at facts
  rcases facts with ⟨done, allRead, one, final, stepped, ended⟩
  have runs := Machine.runsTo_of_run ran (hasRoom_readingTurns _)
  have room : HasRoom serving (readingTurn (.bytes [])) := rfl
  refine ⟨final, ended, ?_⟩
  apply (requests_forwarded_iff exampleHub_roundTrips exampleHandshake_matches runs room
    stepped).mpr
  rw [NothingLeftBehind, if_pos done]
  exact ⟨List.length_eq_zero_iff.mp allRead, Nat.le_of_eq one⟩

/-- A client that sends its handshake and a reload and leaves: the turn that answers the handshake
reads the end of file, and the reload stays in the buffer. -/
theorem requests_forwarded_hasty :
    ∃ final : Serving ℕ,
      Machine.RunsTo (step exampleHub) HasRoom (accepted exampleHandshake [exampleReload]) final ∧
      final.result = some (.ok ()) ∧ final.forwarded ≠ [exampleReload].map (·.value) := by
  have reached : ((Machine.run (step exampleHub) (accepted exampleHandshake [exampleReload])
      ([wholeInbound, .bytes []].map readingTurn)).map fun serving =>
        (serving.result, serving.forwarded)) = some (some (.ok ()), []) := by
    decide +kernel
  rcases Option.map_eq_some_iff.mp reached with ⟨final, ran, facts⟩
  rw [Prod.mk.injEq] at facts
  refine ⟨final, Machine.runsTo_of_run ran (hasRoom_readingTurns _), facts.1, ?_⟩
  rw [facts.2]
  exact (List.cons_ne_nil _ _).symm

end Examples

end Serving

end Gregg.Clientd
