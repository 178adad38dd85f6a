import Gregg.Clientd.Endpoint

/-!
# Binding an endpoint and releasing it

Any number of daemons of one configuration walk the same candidates. A daemon that starts looks at a
path, probes it, unlinks what does not answer, binds and listens, and one that stops closes its
listener and unlinks by path. Each of these is a step of its own, and any of the others may come
between two of them.
-/

namespace Gregg.Clientd

/-- What lies at a path. A socket file has the daemon that bound it, or is from before. -/
inductive Inode where
  | absent
  | file
  | socket (maker : Option ℕ)
  deriving DecidableEq

structure BoundEndpoint (Path : Type) where
  path : Path
  primary : Bool
  deriving DecidableEq

/-- What is next at a candidate: `symlink_metadata`, the probe and the unlink of
`remove_stale_socket`, then the two system calls of `UnixListener::bind`. -/
inductive BindPoint where
  | stat
  | probe
  | unlink
  | bind
  | listen
  deriving DecidableEq

/-- One turn of the loop of `bind`, with the candidates after this one. -/
structure Attempt (Path : Type) where
  path : Path
  rest : List Path
  primary : Bool
  last : Option TransportError
  deriving DecidableEq

/-- Where a daemon is on its way from `bind` to the end of `run_daemon`. It is `deaf` when it runs
on after its accept loop gave up. -/
inductive DaemonStage (Path : Type) where
  | idle
  | binding (attempt : Attempt Path) (point : BindPoint)
  | running (endpoint : BoundEndpoint Path)
  | deaf (endpoint : BoundEndpoint Path)
  | closed (endpoint : BoundEndpoint Path)
  | exited
  | failed (error : TransportError)
  deriving DecidableEq

namespace DaemonStage

variable {Path : Type}

def accepts : DaemonStage Path → Bool
  | running _ => true
  | _ => false

def endpoint : DaemonStage Path → Option (BoundEndpoint Path)
  | running endpoint | deaf endpoint => some endpoint
  | _ => none

/-- The next turn of the loop, or what `bind` returns after the last one. -/
def enter (primary : Bool) (last : Option TransportError) : List Path → DaemonStage Path
  | [] => failed (last.getD (.io "no usable client-daemon socket location"))
  | path :: rest => binding ⟨path, rest, primary, last⟩ .stat

end DaemonStage

namespace Attempt

variable {Path : Type}

def goOn (attempt : Attempt Path) (error : TransportError) : DaemonStage Path :=
  .enter false (some error) attempt.rest

/-- What a failure of `remove_stale_socket` does: at the first candidate it ends the start. -/
def refuse (attempt : Attempt Path) (error : TransportError) : DaemonStage Path :=
  if attempt.primary then .failed error else attempt.goOn error

end Attempt

/-- The candidates of one configuration, what the file system allows there and holds, and every
daemon that was ever started. -/
structure EndpointWorld (Path : Type) where
  candidates : List Path
  parentIsDir : Path → Bool
  writable : Path → Bool
  files : Path → Inode
  stages : ℕ → DaemonStage Path

inductive EndpointEvent where
  | start (who : ℕ)
  | advance (who : ℕ)
  | encodeFailed (who : ℕ)
  | acceptFailed (who : ℕ)
  | close (who : ℕ)
  | cleanup (who : ℕ)
  deriving DecidableEq

def EndpointEvent.who : EndpointEvent → ℕ
  | start who | advance who | encodeFailed who | acceptFailed who | close who | cleanup who => who

namespace EndpointWorld

variable {Path : Type}

def fresh [DecidableEq Path] (primary fallback : Option Path) (parentIsDir writable : Path → Bool)
    (leftover : Path → Inode) : EndpointWorld Path where
  candidates := Clientd.candidates primary fallback
  parentIsDir := parentIsDir
  writable := writable
  files := leftover
  stages := fun _ => .idle

/-- Entries can be made and removed at a path. -/
def creatable (world : EndpointWorld Path) (path : Path) : Bool :=
  world.parentIsDir path && world.writable path

/-- What stands at a path for one who connects. -/
def contents (world : EndpointWorld Path) (path : Path) : PathEntry :=
  match world.files path with
  | .absent => .absent
  | .file => .file
  | .socket maker => .socket (maker.filter fun who => (world.stages who).accepts)

def setStage (world : EndpointWorld Path) (who : ℕ) (stage : DaemonStage Path) :
    EndpointWorld Path :=
  { world with stages := Function.update world.stages who stage }

variable [DecidableEq Path]

def setFile (world : EndpointWorld Path) (path : Path) (inode : Inode) : EndpointWorld Path :=
  { world with files := Function.update world.files path inode }

/-- The next system call of a daemon that binds. -/
def advance (display : Path → String) (world : EndpointWorld Path) (who : ℕ)
    (attempt : Attempt Path) : BindPoint → EndpointWorld Path
  | .stat =>
      if world.parentIsDir attempt.path then
        match world.files attempt.path with
        | .absent => world.setStage who (.binding attempt .bind)
        | .file =>
            world.setStage who
              (attempt.refuse (.io s!"{display attempt.path} exists and is not a socket"))
        | .socket _ => world.setStage who (.binding attempt .probe)
      else
        world.setStage who
          (attempt.goOn (.io s!"the parent directory of {display attempt.path} does not exist"))
  | .probe =>
      if (world.contents attempt.path).listens then
        world.setStage who (attempt.refuse
          (.io s!"a client daemon is already listening on {display attempt.path}"))
      else world.setStage who (.binding attempt .unlink)
  | .unlink =>
      if world.files attempt.path = .absent then
        world.setStage who (attempt.refuse (.io "No such file or directory (os error 2)"))
      else if world.creatable attempt.path then
        (world.setFile attempt.path .absent).setStage who (.binding attempt .bind)
      else world.setStage who (attempt.refuse (.io "Permission denied (os error 13)"))
  | .bind =>
      if world.files attempt.path = .absent then
        if world.creatable attempt.path then
          (world.setFile attempt.path (.socket (some who))).setStage who (.binding attempt .listen)
        else world.setStage who (attempt.goOn (.io "Permission denied (os error 13)"))
      else world.setStage who (attempt.goOn (.io "Address already in use (os error 98)"))
  | .listen => world.setStage who (.running ⟨attempt.path, attempt.primary⟩)

/-- `cleanup`, which unlinks what lies at the path, whoever bound it. -/
def cleanup (world : EndpointWorld Path) (who : ℕ) (endpoint : BoundEndpoint Path) :
    EndpointWorld Path :=
  (world.setStage who .exited).setFile endpoint.path .absent

/-- One step of one daemon. A daemon may clean up with its accept loop still running, when that does
not end in the time it has. -/
def step (display : Path → String) (world : EndpointWorld Path) :
    EndpointEvent → Option (EndpointWorld Path)
  | .start who =>
      match world.stages who with
      | .idle => some (world.setStage who (.enter true none world.candidates))
      | _ => none
  | .advance who =>
      match world.stages who with
      | .binding attempt point => some (world.advance display who attempt point)
      | _ => none
  | .encodeFailed who =>
      match world.stages who with
      | .running _ => some (world.setStage who .exited)
      | _ => none
  | .acceptFailed who =>
      match world.stages who with
      | .running endpoint => some (world.setStage who (.deaf endpoint))
      | _ => none
  | .close who =>
      match world.stages who with
      | .running endpoint => some (world.setStage who (.closed endpoint))
      | _ => none
  | .cleanup who =>
      match world.stages who with
      | .running endpoint | .deaf endpoint | .closed endpoint =>
          some (world.cleanup who endpoint)
      | _ => none

end EndpointWorld

end Gregg.Clientd
