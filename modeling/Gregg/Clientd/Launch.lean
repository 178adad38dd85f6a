import Gregg.Lib.Machine
import Gregg.Clientd.Attach

/-!
# Starting a daemon when there is none

A launcher probes the endpoint, takes the launch lock of its configuration, probes again and then
attaches, replaces an older daemon, or spawns one. Any number of launchers, each built with a local
protocol version of its own, act on one endpoint; the probes, the lock and what a stop comes to are
inputs where the system decides them.
-/

namespace Gregg.Clientd

/-- How long a spawned daemon is waited for, in seconds. -/
def READY_TIMEOUT : ℕ := 15

/-- Why a launch failed. -/
inductive EnsureError where
  | foreignPeer (message : String)
  | incompatibleOwned (daemon frontend : ℕ)
  | spawn (message : String)
  | notReady (seconds : ℕ)
  | lock (message : String)
  | transport (error : AttachError)
  deriving DecidableEq

/-- What an attach attempt told about the endpoint. -/
inductive Classification where
  | absent
  | rotate
  | foreign
  | incompatible
  deriving DecidableEq

/-- `classify`, in a build whose `PROTOCOL_VERSION` is the given one. -/
def classify (protocolVersion : ℕ) : AttachError → Classification
  | .io .notFound _ | .io .connectionRefused _ => .absent
  | .io .other _ => .foreign
  | .versionMismatch daemon _ => if protocolVersion < daemon then .incompatible else .rotate
  | .refused _ | .disconnected | .handshakeTimeout | .transport _ => .foreign

/-- What one attach attempt resolved to, with no side effects. -/
inductive Probe where
  | ready (hello : HelloPayload)
  | absent
  | replaceable
  deriving DecidableEq

def probeOf (protocolVersion : ℕ) : Except AttachError HelloPayload → Except EnsureError Probe
  | .ok hello => .ok (.ready hello)
  | .error error =>
      match classify protocolVersion error with
      | .absent => .ok .absent
      | .rotate => .ok .replaceable
      | .foreign => .error (.foreignPeer error.display)
      | .incompatible =>
          .error (.incompatibleOwned
            (match error with
              | .versionMismatch daemon _ => daemon
              | _ => 0)
            protocolVersion)

/-- What the caller of `wait_ready` is told when the time is up. -/
def waitReadyError : Option AttachError → EnsureError
  | some (.io _ _) | some (.transport _) | none => .notReady READY_TIMEOUT
  | some other => .transport other

/-- How an attempt to attach goes wrong on the way, whatever serves the endpoint. -/
inductive Fault where
  | connect (message : String)
  | timeout
  | disconnected
  deriving DecidableEq

def Fault.error : Fault → AttachError
  | connect message => .io .other message
  | timeout => .handshakeTimeout
  | disconnected => .disconnected

/-- Where a launcher is in `ensure_running`. -/
inductive LaunchStage where
  | probing
  | locking
  | reprobing
  | rotating
  | leaving
  | reattaching
  | spawning
  | waiting (last : Option AttachError)
  | finished (result : Except EnsureError HelloPayload)
  deriving DecidableEq

structure Launcher where
  protocolVersion : ℕ
  version : String
  stage : LaunchStage
  deriving DecidableEq

/-- The endpoint of one configuration, its launch lock, and who acts on them. The daemons' first
frames and the requests to stop are kept in the order they were made. -/
structure LaunchWorld (Snapshot : Type) where
  daemonId : String
  served : Option DaemonProcess
  asked : Bool
  starting : List DaemonProcess
  lockHolder : Option ℕ
  launchers : ℕ → Option Launcher
  answers : List (ℕ × FrontendFrame Snapshot)
  stopRequests : List (ℕ × DaemonProcess)

inductive LaunchEvent where
  | launch (who protocolVersion : ℕ) (version : String)
  | probe (who : ℕ) (fault : Option Fault)
  | lock (who : ℕ) (failure : Option String)
  | reprobe (who : ℕ) (fault : Option Fault)
  | stop (who : ℕ) (fault : Option Fault) (refusal : Option AttachError)
  | waitGone (who : ℕ)
  | reattach (who : ℕ) (fault : Option Fault)
  | spawn (who : ℕ) (failure : Option String)
  | ready (who : ℕ) (fault : Option Fault)
  | giveUp (who : ℕ)
  | bind
  | exit

/-- The derived texts of a request and of a frame. -/
structure DebugTexts (Snapshot : Type) where
  request : DaemonRequest → String
  frame : FrontendFrame Snapshot → String

namespace LaunchWorld

variable {Snapshot : Type}

/-- The endpoint of a configuration served by a daemon, before anybody launches. -/
def servedBy (daemon : DaemonProcess) : LaunchWorld Snapshot where
  daemonId := daemon.daemonId
  served := some daemon
  asked := false
  starting := []
  lockHolder := none
  launchers := fun _ => none
  answers := []
  stopRequests := []

def setStage (world : LaunchWorld Snapshot) (who : ℕ) (launcher : Launcher) (stage : LaunchStage) :
    LaunchWorld Snapshot :=
  { world with launchers := Function.update world.launchers who (some { launcher with stage }) }

/-- The first frame that the handshake of a launcher gets, if anything serves the endpoint. -/
def answer (texts : DebugTexts Snapshot) (world : LaunchWorld Snapshot) (launcher : Launcher) :
    Option (FrontendFrame Snapshot) :=
  world.served.map fun daemon =>
    daemon.firstFrame texts.request
      (.handshake launcher.protocolVersion launcher.version world.daemonId)

/-- `daemon::attach`. -/
def attach (texts : DebugTexts Snapshot) (world : LaunchWorld Snapshot) (launcher : Launcher)
    (fault : Option Fault) : Except AttachError HelloPayload :=
  match fault with
  | some fault => .error fault.error
  | none =>
      match world.answer texts launcher with
      | some frame => attachOf texts.frame frame
      | none => .error (.io .notFound "no client-daemon socket location exists for this config")

/-- The world with the daemon's answer on record. -/
def answered (texts : DebugTexts Snapshot) (world : LaunchWorld Snapshot) (who : ℕ)
    (launcher : Launcher) (fault : Option Fault) : LaunchWorld Snapshot :=
  match fault with
  | some _ => world
  | none =>
      { world with
        answers := world.answers ++
          ((world.answer texts launcher).map fun frame => (who, frame)).toList }

/-- The launch lock is released when the launcher's guard drops. -/
def unlock (world : LaunchWorld Snapshot) (who : ℕ) : LaunchWorld Snapshot :=
  if world.lockHolder = some who then { world with lockHolder := none } else world

/-- The launcher at the given stage. -/
def launcherAt (world : LaunchWorld Snapshot) (who : ℕ) (stage : LaunchStage) : Option Launcher :=
  (world.launchers who).filter fun launcher => launcher.stage = stage

def finish (world : LaunchWorld Snapshot) (who : ℕ) (launcher : Launcher)
    (result : Except EnsureError HelloPayload) : LaunchWorld Snapshot :=
  (world.setStage who launcher (.finished result)).unlock who

def step (texts : DebugTexts Snapshot) (world : LaunchWorld Snapshot) (event : LaunchEvent) :
    Option (LaunchWorld Snapshot) :=
  match event with
  | .launch who protocolVersion version =>
      if world.launchers who = none then
        some (world.setStage who ⟨protocolVersion, version, .probing⟩ .probing)
      else none
  | .probe who fault =>
      (world.launcherAt who .probing).map fun launcher =>
        let after := world.answered texts who launcher fault
        match probeOf launcher.protocolVersion (world.attach texts launcher fault) with
        | .error error => after.finish who launcher (.error error)
        | .ok (.ready hello) => after.finish who launcher (.ok hello)
        | .ok _ => after.setStage who launcher .locking
  | .lock who failure =>
      (world.launcherAt who .locking).bind fun launcher =>
        match failure with
        | some message => some (world.finish who launcher (.error (.lock message)))
        | none =>
            if world.lockHolder = none then
              some { world.setStage who launcher .reprobing with lockHolder := some who }
            else none
  | .reprobe who fault =>
      (world.launcherAt who .reprobing).map fun launcher =>
        let after := world.answered texts who launcher fault
        match probeOf launcher.protocolVersion (world.attach texts launcher fault) with
        | .error error => after.finish who launcher (.error error)
        | .ok (.ready hello) => after.finish who launcher (.ok hello)
        | .ok .replaceable => after.setStage who launcher .rotating
        | .ok .absent => after.setStage who launcher .spawning
  | .stop who fault refusal =>
      -- The stop that rotation needs attaches first, in the launcher's own version.
      (world.launcherAt who .rotating).map fun launcher =>
        let after := world.answered texts who launcher fault
        match world.attach texts launcher fault with
        | .error error => after.finish who launcher (.error (.transport error))
        | .ok _ =>
            let asked :=
              { after with
                asked := true
                stopRequests := after.stopRequests ++
                  (world.served.map fun daemon => (who, daemon)).toList }
            match refusal with
            | some error => asked.finish who launcher (.error (.transport error))
            | none => asked.setStage who launcher .leaving
  | .waitGone who =>
      (world.launcherAt who .leaving).map fun launcher =>
        world.setStage who launcher .reattaching
  | .reattach who fault =>
      (world.launcherAt who .reattaching).map fun launcher =>
        let after := world.answered texts who launcher fault
        match world.attach texts launcher fault with
        | .error error => after.finish who launcher (.error (.transport error))
        | .ok hello => after.finish who launcher (.ok hello)
  | .spawn who failure =>
      (world.launcherAt who .spawning).map fun launcher =>
        match failure with
        | some message => world.finish who launcher (.error (.spawn message))
        | none =>
            { world.setStage who launcher (.waiting none) with
              starting := world.starting ++
                [⟨launcher.protocolVersion, launcher.version, world.daemonId, 1⟩] }
  | .ready who fault =>
      (world.launchers who).bind fun launcher =>
        match launcher.stage with
        | .waiting _ =>
            let after := world.answered texts who launcher fault
            match world.attach texts launcher fault with
            | .ok hello => some (after.finish who launcher (.ok hello))
            | .error error => some (after.setStage who launcher (.waiting (some error)))
        | _ => none
  | .giveUp who =>
      (world.launchers who).bind fun launcher =>
        match launcher.stage with
        | .waiting last => some (world.finish who launcher (.error (waitReadyError last)))
        | _ => none
  | .bind =>
      match world.starting with
      | [] => none
      | daemon :: starting =>
          match world.served with
          | some _ => some { world with starting }
          | none => some { world with served := some daemon, asked := false, starting }
  | .exit => if world.asked then some { world with served := none, asked := false } else none

end LaunchWorld

end Gregg.Clientd
