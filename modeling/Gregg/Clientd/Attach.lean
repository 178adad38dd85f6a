import Gregg.Clientd.HandshakeGate

/-!
# Attaching to a daemon

A frontend dials, sends its handshake and judges the daemon by the first frame it gets back. What a
daemon answers depends on the local protocol version it was built with, so that version is an
argument here; at this source's own version the answer is the one the connection writes.
-/

namespace Gregg.Clientd

variable {Snapshot : Type}

/-- The check of a request, in a build whose `PROTOCOL_VERSION` is the given one. -/
def Connection.admitRequestAt (protocolVersion : ℕ) (debug : DaemonRequest → String)
    (conn : Connection) (request : DaemonRequest) :
    Connection × Except TransportError (Option DaemonRequest) :=
  if conn.handshaken then (conn, .ok (some request))
  else
    match request with
    | .handshake version _ daemonId =>
        if version = protocolVersion then
          ({ conn with claimedDaemonId := some daemonId, handshaken := true }, .ok (some request))
        else (conn, .error (.versionMismatch protocolVersion version))
    | other => (conn, .error (.protocol s!"expected a handshake before {debug other}"))

theorem Connection.admitRequestAt_current :
    Connection.admitRequestAt PROTOCOL_VERSION = Connection.admitRequest :=
  rfl

/-- A serving daemon, as its handshake shows it. -/
structure DaemonProcess where
  protocolVersion : ℕ
  version : String
  daemonId : String
  generation : ℕ
  deriving DecidableEq

namespace DaemonProcess

def hello (daemon : DaemonProcess) : HelloPayload where
  protocolVersion := daemon.protocolVersion
  version := daemon.version
  daemonId := daemon.daemonId
  currentGeneration := daemon.generation

/-- The first frame a daemon writes on a connection whose first request is the given one. -/
def firstFrame (daemon : DaemonProcess) (debug : DaemonRequest → String)
    (request : DaemonRequest) : FrontendFrame Snapshot :=
  match Connection.new.admitRequestAt daemon.protocolVersion debug request with
  | (_, .error error) => .protocolError error.display
  | (conn, .ok _) =>
      match conn.verifyDaemonId daemon.daemonId with
      | .error error => .protocolError error.display
      | .ok _ => .hello daemon.hello

end DaemonProcess

/-- The process that serves a connection, as its handshake shows it. -/
def Hub.process (hub : Hub Snapshot) (turn : Turn) : DaemonProcess where
  protocolVersion := PROTOCOL_VERSION
  version := hub.version
  daemonId := hub.daemonId
  generation := turn.current.generation

section FirstFrame

variable {hub : Hub Snapshot} {serving taken told : Serving Snapshot} {turn : Turn}
  {connection : Connection} {request : DaemonRequest} {outcomes : List WriteOutcome}

theorem log_of_failed {error : TransportError} (failed : taken.result = some (.error error))
    (said : taken.sayFarewell hub outcomes = some told) :
    told.log = taken.log ++ [.wrote (.protocolError error.display)] := by
  simp only [Serving.sayFarewell, failed] at said
  rcases Option.map_eq_some_iff.mp said with ⟨after, wrote, rfl⟩
  have logged := Serving.log_writeFrame wrote
  exact logged

/-- The first frame on a connection is the one of the process that serves it. -/
theorem firstFrame_of_turn
    (decoded : serving.connection.tryReadFrame hub.wire.requests =
      (connection, .ok (some request)))
    (fresh : connection.handshaken = false) (notDone : serving.handshakeDone = false)
    (took : serving.takeRequest hub turn = some taken)
    (said : taken.sayFarewell hub outcomes = some told) :
    ∃ rest, told.log =
      serving.log ++ .wrote ((hub.process turn).firstFrame hub.debug request) :: rest := by
  simp only [Serving.takeRequest, Connection.tryReadRequest, decoded, Connection.admitRequest,
    fresh, Bool.false_eq_true, if_false, notDone] at took
  cases request with
  | handshake version name daemonId =>
      by_cases same : version = PROTOCOL_VERSION
      · simp only [same, if_true, Serving.answerHandshake, Connection.verifyDaemonId] at took
        by_cases ours : daemonId = hub.daemonId
        · simp only [ours, if_true] at took
          rcases Serving.greeted_of_answer _ took with ⟨-, documents, logged, -⟩
          rcases Serving.log_sayFarewell said with ⟨farewell, after, -⟩
          refine ⟨documents ++ farewell, ?_⟩
          rw [after, logged]
          simp [DaemonProcess.firstFrame, Connection.admitRequestAt, Connection.new,
            Connection.verifyDaemonId, Hub.process, DaemonProcess.hello, same, ours]
        · simp only [ours, if_false] at took
          cases took
          refine ⟨[], ?_⟩
          rw [log_of_failed rfl said]
          simp [DaemonProcess.firstFrame, Connection.admitRequestAt, Connection.new,
            Connection.verifyDaemonId, Hub.process, same, ours]
      · simp only [same, if_false] at took
        cases took
        refine ⟨[], ?_⟩
        rw [log_of_failed rfl said]
        simp [DaemonProcess.firstFrame, Connection.admitRequestAt, Connection.new, Hub.process,
          same]
  | _ =>
      cases took
      refine ⟨[], ?_⟩
      rw [log_of_failed rfl said]
      simp [DaemonProcess.firstFrame, Connection.admitRequestAt, Connection.new]

end FirstFrame

/-- A daemon of another protocol version refuses the handshake, and says so in a protocol error. -/
theorem firstFrame_of_ne {daemon : DaemonProcess} {debug : DaemonRequest → String}
    {version : ℕ} {name daemonId : String} (differs : version ≠ daemon.protocolVersion) :
    (daemon.firstFrame debug (.handshake version name daemonId) : FrontendFrame Snapshot) =
      .protocolError
        (TransportError.versionMismatch daemon.protocolVersion version).display := by
  simp [DaemonProcess.firstFrame, Connection.admitRequestAt, Connection.new, differs]

/-- `std::io::ErrorKind`, as far as `classify` tells its values apart. -/
inductive IoErrorKind where
  | notFound
  | connectionRefused
  | other
  deriving DecidableEq

/-- Why a frontend could not attach to a client daemon; `io` is a transport error of that kind. -/
inductive AttachError where
  | io (kind : IoErrorKind) (message : String)
  | transport (error : TransportError)
  | handshakeTimeout
  | disconnected
  | versionMismatch (daemon frontend : ℕ)
  | refused (message : String)
  deriving DecidableEq

namespace AttachError

def display : AttachError → String
  | io _ message => s!"no client daemon is listening for this config: io error: {message}"
  | transport error => s!"no client daemon is listening for this config: {error.display}"
  | handshakeTimeout => "the client daemon did not complete a handshake in time"
  | disconnected => "the client daemon closed the connection during the handshake"
  | versionMismatch daemon frontend =>
      s!"the client daemon for this config speaks local protocol {daemon}, but this frontend " ++
        s!"speaks {frontend}; stop it with \x60gregg daemon stop\x60 and start it again with " ++
        "the current binary"
  | refused message => s!"the client daemon refused this frontend: {message}"

end AttachError

def attachOf (debug : FrontendFrame Snapshot → String) :
    FrontendFrame Snapshot → Except AttachError HelloPayload
  | .hello hello => .ok hello
  | .versionMismatch payload => .error (.versionMismatch payload.daemon payload.frontend)
  | .protocolError message => .error (.refused message)
  | other => .error (.refused s!"expected a hello frame, got {debug other}")

end Gregg.Clientd
