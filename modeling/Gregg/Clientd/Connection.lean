import Gregg.Clientd.Protocol

/-!
# The buffers of one local connection

A connection keeps the bytes it has read and not consumed, the frame it is writing minus what the
peer has taken, and one frame that waits for that one to drain. What the stream does on each call
is an input: how many bytes a write takes, what a read yields. The stream is the Unix one, whose
`flush` does nothing.
-/

namespace Gregg.Clientd

def MAX_BUFFERED_BYTES : ℕ := MAX_FRAME_BYTES + 64 * 1024

inductive TransportError where
  | disconnected
  | wouldBlock
  | decode (error : DecodeError)
  | io (error : String)
  | protocol (message : String)
  | versionMismatch (daemon frontend : ℕ)
  | configMismatch (actual expected : String)
  deriving DecidableEq

namespace TransportError

def display : TransportError → String
  | disconnected => "peer disconnected"
  | wouldBlock => "no data available"
  | decode error => error.display
  | io error => s!"io error: {error}"
  | protocol message => s!"protocol error: {message}"
  | versionMismatch daemon frontend =>
      s!"client daemon speaks protocol {daemon}, this frontend speaks {frontend}"
  | configMismatch actual expected =>
      s!"endpoint is serving client daemon {actual}, not the requested {expected}"

/-- `From<DecodeError>`. -/
def ofDecode : DecodeError → TransportError
  | .closed => disconnected
  | other => decode other

end TransportError

/-- One established connection, with its read and write buffers. -/
structure Connection where
  buffer : List UInt8
  handshaken : Bool
  claimedDaemonId : Option String
  inflight : List UInt8
  queued : Option (List UInt8)
  deriving DecidableEq

/-- What the stream does with one write: take some of the bytes it is offered, block, or fail. -/
inductive WriteOutcome where
  | took (count : ℕ)
  | wouldBlock
  | failed (error : String)
  deriving DecidableEq

/-- What the stream does with one read; no byte at all is the end of file. -/
inductive ReadOutcome where
  | bytes (chunk : List UInt8)
  | wouldBlock
  | failed (error : String)
  deriving DecidableEq

/-- A connection after a write call, the bytes the stream took in it and the result. -/
structure Written (Result : Type) where
  conn : Connection
  taken : List UInt8
  result : Except TransportError Result

namespace Connection

def new : Connection where
  buffer := []
  handshaken := false
  claimedDaemonId := none
  inflight := []
  queued := none

/-- Check the peer's claimed config identity against this daemon's own. -/
def verifyDaemonId (conn : Connection) (expected : String) : Except TransportError Unit :=
  match conn.claimedDaemonId with
  | none => .error (.protocol "no handshake identity was presented")
  | some claimed =>
      if claimed = expected then .ok () else .error (.configMismatch claimed expected)

/-- The framing half of `try_read_request` and `try_read_frame`. -/
def takeBody (conn : Connection) : Connection × Except TransportError (Option (List UInt8)) :=
  if conn.buffer.length < LEN_PREFIX_BYTES then (conn, .ok none)
  else
    match parseLength (conn.buffer.take LEN_PREFIX_BYTES) with
    | .error error => (conn, .error (.ofDecode error))
    | .ok len =>
        let frameEnd := satAdd LEN_PREFIX_BYTES len
        if conn.buffer.length < frameEnd then (conn, .ok none)
        else
          ({ conn with buffer := conn.buffer.drop frameEnd },
            .ok (some ((conn.buffer.take frameEnd).drop LEN_PREFIX_BYTES)))

/-- Take one complete frame of an arbitrary type from the buffer. -/
def tryReadFrame {Value : Type} (codec : Codec Value) (conn : Connection) :
    Connection × Except TransportError (Option Value) :=
  match conn.takeBody with
  | (conn, .error error) => (conn, .error error)
  | (conn, .ok none) => (conn, .ok none)
  | (conn, .ok (some body)) =>
      match codec.fromSlice body with
      | .error error => (conn, .error (.protocol error))
      | .ok value => (conn, .ok (some value))

/-- The check of a request against the handshake state; `debug` is the derived text of one. -/
def admitRequest (debug : DaemonRequest → String) (conn : Connection) (request : DaemonRequest) :
    Connection × Except TransportError (Option DaemonRequest) :=
  if conn.handshaken then (conn, .ok (some request))
  else
    match request with
    | .handshake protocolVersion _ daemonId =>
        if protocolVersion = PROTOCOL_VERSION then
          ({ conn with claimedDaemonId := some daemonId, handshaken := true }, .ok (some request))
        else (conn, .error (.versionMismatch PROTOCOL_VERSION protocolVersion))
    | other => (conn, .error (.protocol s!"expected a handshake before {debug other}"))

def tryReadRequest (codec : Codec DaemonRequest) (debug : DaemonRequest → String)
    (conn : Connection) : Connection × Except TransportError (Option DaemonRequest) :=
  match conn.tryReadFrame codec with
  | (conn, .error error) => (conn, .error error)
  | (conn, .ok none) => (conn, .ok none)
  | (conn, .ok (some request)) => conn.admitRequest debug request

def pushBytes (conn : Connection) (bytes : List UInt8) : Except TransportError Connection :=
  if MAX_BUFFERED_BYTES < conn.buffer.length + bytes.length then
    .error (.protocol s!"peer buffered more than {MAX_BUFFERED_BYTES} bytes without draining")
  else .ok { conn with buffer := conn.buffer ++ bytes }

/-- The connection with a frame to write, `none` when nothing is left to write. -/
def refill (conn : Connection) : Option Connection :=
  if conn.inflight.isEmpty then
    conn.queued.map fun queued => { conn with inflight := queued, queued := none }
  else some conn

/-- Push as much of the outbound buffer as the peer will take right now. The stream blocks once the
given outcomes are used up, and it never takes more than it is offered. -/
def flushOutbound (conn : Connection) : List WriteOutcome → Option (Written Bool)
  | [] =>
      match conn.refill with
      | none => some ⟨conn, [], .ok true⟩
      | some conn => some ⟨conn, [], .ok false⟩
  | outcome :: outcomes =>
      match conn.refill with
      | none => some ⟨conn, [], .ok true⟩
      | some conn =>
          match outcome with
          | .wouldBlock => some ⟨conn, [], .ok false⟩
          | .failed error => some ⟨conn, [], .error (.io error)⟩
          | .took count =>
              if count = 0 then
                some ⟨conn, [], .error (.io "the peer accepted none of a non-empty frame")⟩
              else if conn.inflight.length < count then none
              else
                (flushOutbound { conn with inflight := conn.inflight.drop count } outcomes).map
                  fun rest => { rest with taken := conn.inflight.take count ++ rest.taken }

def place (conn : Connection) (encoded : List UInt8) : Connection :=
  if conn.inflight.isEmpty then { conn with inflight := encoded }
  else { conn with queued := some encoded }

def writeEncoded (conn : Connection) (encoded : List UInt8) (outcomes : List WriteOutcome) :
    Option (Written Unit) :=
  ((conn.place encoded).flushOutbound outcomes).map fun written =>
    { written with result := written.result.map fun _ => () }

def writeFrame {Value : Type} (codec : Codec Value) (conn : Connection) (value : Value)
    (outcomes : List WriteOutcome) : Option (Written Unit) :=
  match encodeFrame codec value with
  | .error error => some ⟨conn, [], .error (.protocol error.display)⟩
  | .ok encoded => conn.writeEncoded encoded outcomes

end Connection

/-- Read whatever bytes are available right now. -/
def ReadOutcome.available : ReadOutcome → Except TransportError (List UInt8)
  | bytes [] => .error .disconnected
  | bytes chunk => .ok chunk
  | wouldBlock => .error .wouldBlock
  | failed error => .error (.io error)

end Gregg.Clientd
