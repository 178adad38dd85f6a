import Gregg.Lib.Machine
import Gregg.Clientd.Frontend

/-!
# Serving one frontend

The daemon serves a connection in turns. A turn takes at most one buffered request, then waits for
whichever comes first: a new state document, an acknowledgement, or the moment to flush and read.
The inbound bytes of a connection are fixed in advance; a read hands some of them over, and the end
of file shows when none is left.

The engine at the other end of the channels, the clock and the socket are inputs of a turn.
-/

namespace Gregg.Clientd

/-- One publication: the encoded frame plus the generation it carries. -/
structure Document where
  generation : ℕ
  encoded : List UInt8
  deriving DecidableEq

/-- One decoded request plus the frontend that sent it. -/
structure Inbound where
  subscriber : ℕ
  request : DaemonRequest
  deriving DecidableEq

/-- What the connections of a daemon share, and the identity this one was given. `debug` is the
derived text of a request. -/
structure Hub (Snapshot : Type) where
  wire : Wire Snapshot
  debug : DaemonRequest → String
  daemonId : String
  version : String
  subscriber : ℕ

/-- What a connection did: a frame or a document handed to the socket, or a request to the
engine. -/
inductive ServeAction (Snapshot : Type) where
  | wrote (frame : FrontendFrame Snapshot)
  | published (document : Document)
  | forwarded (inbound : Inbound)

/-- The request an action hands to the engine. -/
def ServeAction.request {Snapshot : Type} : ServeAction Snapshot → Option DaemonRequest
  | forwarded inbound => some inbound.request
  | _ => none

/-- A connection being served, with the inbound bytes it has not read, the bytes its socket took,
what it did so far and, once its loop ended, how. -/
structure Serving (Snapshot : Type) where
  connection : Connection
  handshakeDone : Bool
  unread : List UInt8
  wire : List UInt8
  log : List (ServeAction Snapshot)
  result : Option (Except TransportError Unit)

/-- The branch of the wait that is taken. -/
inductive Branch where
  | changed (latest : Document) (outcomes : List WriteOutcome)
  | closed (outcomes : List WriteOutcome)
  | ack (generation : ℕ) (accepted : Bool) (detail : Option String)
      (outcomes : List WriteOutcome)
  | poll (flush : List WriteOutcome) (input : ReadOutcome)

/-- What the rest of the world does during one turn: whether the engine's channel has room, the
current document, and how the socket takes each of the writes. -/
structure Turn where
  room : Bool
  current : Document
  hello : List WriteOutcome
  state : List WriteOutcome
  branch : Branch
  farewell : List WriteOutcome

namespace Serving

/-- Read buffer for one connection. -/
def READ_BUFFER_BYTES : ℕ := 8192

variable {Snapshot : Type}

def new (inbound : List UInt8) : Serving Snapshot where
  connection := .new
  handshakeDone := false
  unread := inbound
  wire := []
  log := []
  result := none

/-- The requests handed to the engine, in order. -/
def forwarded (serving : Serving Snapshot) : List DaemonRequest :=
  serving.log.filterMap ServeAction.request

/-- The connection after a write, whose failure ends the loop. -/
def after (serving : Serving Snapshot) (actions : List (ServeAction Snapshot)) {Result : Type}
    (written : Written Result) : Serving Snapshot :=
  { serving with
    connection := written.conn
    wire := serving.wire ++ written.taken
    log := serving.log ++ actions
    result :=
      match written.result with
      | .ok _ => serving.result
      | .error error => some (.error error) }

/-- The `?` operator: nothing more happens once the loop ended. -/
def andThen (serving : Serving Snapshot) (next : Serving Snapshot → Option (Serving Snapshot)) :
    Option (Serving Snapshot) :=
  if serving.result.isSome then some serving else next serving

def writeFrame (hub : Hub Snapshot) (frame : FrontendFrame Snapshot) (outcomes : List WriteOutcome)
    (serving : Serving Snapshot) : Option (Serving Snapshot) :=
  (serving.connection.writeFrame hub.wire.frames frame outcomes).map
    (serving.after [.wrote frame])

def writeDocument (document : Document) (outcomes : List WriteOutcome)
    (serving : Serving Snapshot) : Option (Serving Snapshot) :=
  (serving.connection.writeEncoded document.encoded outcomes).map
    (serving.after [.published document])

/-- The answer to a request before the handshake is done. -/
def answerHandshake (hub : Hub Snapshot) (serving : Serving Snapshot) (turn : Turn)
    (request : DaemonRequest) : Option (Serving Snapshot) :=
  match request with
  | .handshake _ _ _ =>
      match serving.connection.verifyDaemonId hub.daemonId with
      | .error error => some { serving with result := some (.error error) }
      | .ok _ =>
          let hello : HelloPayload :=
            { protocolVersion := PROTOCOL_VERSION
              version := hub.version
              daemonId := hub.daemonId
              currentGeneration := turn.current.generation }
          (writeFrame hub (.hello hello) turn.hello { serving with handshakeDone := true }).bind
            fun serving => serving.andThen (writeDocument turn.current turn.state)
  | other =>
      some { serving with
        result := some (.error (.protocol s!"expected a handshake, got {hub.debug other}")) }

/-- Hand a request to the engine's bounded channel. -/
def forward (hub : Hub Snapshot) (serving : Serving Snapshot) (turn : Turn)
    (request : DaemonRequest) : Serving Snapshot :=
  if turn.room then
    { serving with log := serving.log ++ [.forwarded ⟨hub.subscriber, request⟩] }
  else
    { serving with
      result := some (.error (.protocol "the client daemon is not accepting requests")) }

/-- The first half of a turn: at most one buffered request. -/
def takeRequest (hub : Hub Snapshot) (serving : Serving Snapshot) (turn : Turn) :
    Option (Serving Snapshot) :=
  match serving.connection.tryReadRequest hub.wire.requests hub.debug with
  | (connection, .error error) =>
      some { serving with connection, result := some (.error error) }
  | (connection, .ok none) => some { serving with connection }
  | (connection, .ok (some request)) =>
      if serving.handshakeDone then some (forward hub { serving with connection } turn request)
      else answerHandshake hub { serving with connection } turn request

/-- Hand over what the read yields; the end of file shows only when every byte was read. -/
def receive (serving : Serving Snapshot) (input : ReadOutcome) : Option (Serving Snapshot) :=
  match input.available with
  | .ok chunk =>
      if READ_BUFFER_BYTES < chunk.length then none
      else if chunk.isPrefixOf serving.unread then
        match serving.connection.pushBytes chunk with
        | .error error => some { serving with result := some (.error error) }
        | .ok connection =>
            some { serving with connection, unread := serving.unread.drop chunk.length }
      else none
  | .error .wouldBlock => some serving
  | .error .disconnected =>
      if serving.unread = [] then some { serving with result := some (.ok ()) } else none
  | .error error => some { serving with result := some (.error error) }

/-- The second half of a turn: the branch that is taken. -/
def select (hub : Hub Snapshot) (branch : Branch) (serving : Serving Snapshot) :
    Option (Serving Snapshot) :=
  match branch with
  | .changed latest outcomes =>
      -- The notification of a document published before the handshake is dropped.
      if serving.handshakeDone then writeDocument latest outcomes serving else some serving
  | .closed outcomes =>
      (writeFrame hub .shuttingDown outcomes serving).map fun serving =>
        { serving with result := some (.ok ()) }
  | .ack generation accepted detail outcomes =>
      writeFrame hub (.controlAck generation accepted detail) outcomes serving
  | .poll flush input =>
      (serving.connection.flushOutbound flush).bind fun written =>
        (serving.after [] written).andThen fun serving => serving.receive input

/-- The farewell of `serve` when the loop failed, which is best-effort. -/
def sayFarewell (hub : Hub Snapshot) (outcomes : List WriteOutcome) (serving : Serving Snapshot) :
    Option (Serving Snapshot) :=
  match serving.result with
  | some (.error error) =>
      (writeFrame hub (.protocolError error.display) outcomes serving).map fun told =>
        { told with result := serving.result }
  | _ => some serving

/-- One turn of the loop, with what follows when the loop ends in it. -/
def step (hub : Hub Snapshot) (serving : Serving Snapshot) (turn : Turn) :
    Option (Serving Snapshot) :=
  if serving.result.isSome then none
  else
    ((takeRequest hub serving turn).bind fun serving =>
      serving.andThen (select hub turn.branch)).bind (sayFarewell hub turn.farewell)

end Serving

end Gregg.Clientd
