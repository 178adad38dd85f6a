import Gregg.Protocol.Scheduler
import Gregg.Clientd.Protocol
import Gregg.Clientd.PollPlane

/-!
# The published document

A frontend renders from one complete document. Of a system's telemetry the parts that decide how
many rows it takes are kept, with the names in them; ages, latencies and the EggPool figures are
only ever displayed and are left out.
-/

namespace Gregg.Clientd

inductive Reachability where
  | pending
  | online
  | offline
  deriving DecidableEq

structure NormalizedDrive where
  name : String
  usedBytes : ℕ
  totalBytes : ℕ
  deriving DecidableEq

structure NormalizedDiskIoDevice where
  id : String
  name : String
  driveName : Option String
  deriving DecidableEq

structure NormalizedDiskIo where
  devices : List NormalizedDiskIoDevice
  deriving DecidableEq

structure NormalizedNetworkInterface where
  id : String
  name : String
  deriving DecidableEq

structure NormalizedNetwork where
  interfaces : List NormalizedNetworkInterface
  deriving DecidableEq

structure NormalizedSnapshot where
  drives : Option (List NormalizedDrive)
  diskIo : Option NormalizedDiskIo
  network : Option NormalizedNetwork
  deriving DecidableEq

/-- One monitored system, as published to frontends. -/
structure SystemSnapshotDto where
  id : String
  endpoint : Endpoint
  configuredName : Option String
  reachability : Reachability
  latest : Option NormalizedSnapshot
  deriving DecidableEq

/-- A terminal record together with the remote lifetime it belongs to. -/
structure CronRecord where
  epoch : SchedulerEpochV2
  record : SchedulerRunRecordV2
  deriving DecidableEq

structure CronJobHistoryDto where
  job : String
  records : List CronRecord
  deriving DecidableEq

/-- One system's scheduler observability. History is there for the jobs a frontend has open. -/
structure SystemCronDto where
  systemId : String
  summary : Option SchedulerSummaryV2
  lastError : Option String
  history : List CronJobHistoryDto

structure EggpoolSnapshotDto where
  period : EggpoolPeriod
  deriving DecidableEq

structure FrontendSnapshot where
  generation : ℕ
  pollInitialized : Bool
  systems : List SystemSnapshotDto
  cronDisplayHistory : ℕ
  cron : List SystemCronDto
  eggpool : Option EggpoolSnapshotDto

/-- A first frontend accepts whatever it is given, later only a newer generation. -/
def FrontendSnapshot.isNewerThan (snapshot : FrontendSnapshot) (lastApplied : ℕ) : Bool :=
  lastApplied == 0 || lastApplied < snapshot.generation

namespace EggpoolPeriod

/-- The next longer period, clamping at one month. -/
def longer : EggpoolPeriod → EggpoolPeriod
  | hour => day
  | day => week
  | week | month => month

/-- The next shorter period, clamping at one hour. -/
def shorter : EggpoolPeriod → EggpoolPeriod
  | hour | day => hour
  | week => day
  | month => week

end EggpoolPeriod

end Gregg.Clientd
