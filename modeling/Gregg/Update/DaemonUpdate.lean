import Gregg.Update.Restart
import Gregg.Update.SelfUpdate

/-!
# The update of the daemon

The daemon's update looks at whom the running service belongs to once there is a verified
candidate, and does not start to replace anything where that cannot be told. Afterwards it restarts
only what it had found to be its own, and only if that still runs.
-/

namespace Gregg.Update

open Script

section Lifecycle

inductive UpdateLifecycle where
  | managedRunning
  | managedStopped
  | directRunning
  | stopped
  | foreignPreserved
  deriving DecidableEq

variable (parseHealth : List UInt8 → Option Protocol.ReadinessState)

def UpdateLifecycle.isRunning : UpdateLifecycle → Bool
  | .managedRunning | .directRunning => true
  | _ => false

end Lifecycle

section Update

inductive DaemonOutcome where
  | alreadyCurrent (version : String)
  | updatedBinary (old new : String)
  | updatedFromCargo (old new : String)
  | updatedButRestartFailed (old new restartError : String)

def DaemonOutcome.updated (fromCargo : Bool) (old new : String) : DaemonOutcome :=
  if fromCargo then .updatedFromCargo old new else .updatedBinary old new

variable (parseHealth : List UInt8 → Option Protocol.ReadinessState)

end Update

section Evidence

variable {parseHealth : List UInt8 → Option Protocol.ReadinessState} {host : Host}
  {spec : UpdateSpec} {exe configPath : OsPath} {explicit : Bool}

end Evidence

end Gregg.Update
