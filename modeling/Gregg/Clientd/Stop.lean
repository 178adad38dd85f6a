import Gregg.Clientd.Endpoint

/-!
# Stopping the daemon

`stop` attaches, asks for a shutdown and reads until it is answered. Then it polls until no
candidate path of the configuration holds a file any more, and that is what it takes for the daemon
being gone.
-/

namespace Gregg.Clientd

/-- State documents that are skipped while a stop waits for its answer. -/
def MAX_STOP_SKIPPED_DOCUMENTS : ℕ := 8

def STOP_POLLS : ℕ := 200

namespace FrontError

def display : FrontError → String
  | transport error => s!"the client daemon connection failed: {error.display}"
  | decode error => s!"the client daemon sent an invalid frame: {error.display}"
  | malformed message => s!"the client daemon sent a malformed frame: {message}"
  | disconnected => "the client daemon closed the connection"
  | timeout => "the client daemon did not answer in time"
  | channelFull => "the client daemon has not acknowledged recent requests"

end FrontError

/-- What a stop finds: the candidate paths and what stands there, what the handshake with a listener
comes to, what is read before the deadline after the request, and the poll before which the daemon
that was asked has unlinked its own endpoint. -/
structure StopScene (Path Snapshot : Type) where
  candidates : List Path
  contents : Path → PathEntry
  handshake : ℕ → Except AttachError HelloPayload
  replies : List (Except FrontError (FrontendFrame Snapshot))
  cleanup : Option ℕ

/-- The loop that reads the answer. -/
def readAnswer {Snapshot : Type} (debug : FrontendFrame Snapshot → String) (skipped : ℕ) :
    List (Except FrontError (FrontendFrame Snapshot)) → Except AttachError Unit
  | [] => .error (.refused "the client daemon did not answer the stop request in time")
  | .error error :: _ =>
      if error = .disconnected then .ok () else .error (.refused error.display)
  | .ok frame :: replies =>
      if frame.isDocument ∧ skipped < MAX_STOP_SKIPPED_DOCUMENTS then
        readAnswer debug (skipped + 1) replies
      else
        match frame with
        | .controlAck _ accepted detail =>
            if accepted then .ok ()
            else .error (.refused (detail.getD "the daemon refused the stop request"))
        | other =>
            .error (.refused
              (s!"the client daemon answered the stop request with {debug other} " ++
                "instead of an acknowledgement"))

namespace StopScene

variable {Path Snapshot : Type} [DecidableEq Path]

/-- What stands at the candidates at a poll, once the daemon at a path was asked to stop. -/
def contentsAt (scene : StopScene Path Snapshot) (asked : Path) (poll : ℕ) : Path → PathEntry :=
  if scene.cleanup.any fun unlinked => decide (unlinked ≤ poll) then
    Function.update scene.contents asked .absent
  else scene.contents

def waitGone (scene : StopScene Path Snapshot) (asked : Path) : Except AttachError Unit :=
  if (List.range STOP_POLLS).any fun poll =>
      scene.candidates.all fun path => !(scene.contentsAt asked poll path).isLive then
    .ok ()
  else .error (.refused "the client daemon accepted the stop but is still listening")

/-- `daemon::stop`, with the path of the daemon that was asked. The request fits into its channel,
which is new. -/
def stop (debug : FrontendFrame Snapshot → String) (scene : StopScene Path Snapshot) :
    Except AttachError Unit × Option Path :=
  match connect scene.contents scene.candidates with
  | .error error => (.error error, none)
  | .ok (path, listener) =>
      match scene.handshake listener with
      | .error error => (.error error, none)
      | .ok _ =>
          match readAnswer debug 0 scene.replies with
          | .error error => (.error error, some path)
          | .ok _ => (scene.waitGone path, some path)

end StopScene

end Gregg.Clientd
