import Gregg.RustStd

/-!
# The status documents

What a daemon reports of its machine, in the two versions of the wire schema. Version two makes
swap and load optional and adds the commit charge, the drives, and disk and network throughput.
-/

namespace Gregg.Protocol

def SCHEMA_VERSION_V1 : ℕ := 1

structure MetricCapabilities where
  cpuIowait : Bool
  deriving DecidableEq

structure SystemIdentity where
  name : String
  hostname : String
  osName : String
  osVersion : String
  kernelName : String
  kernelRelease : String
  architecture : String
  deriving DecidableEq

structure CpuMetrics where
  logicalCores : ℕ
  usagePct : F32
  iowaitPct : Option F32

/-- Equality is that of the source, which compares floats as IEEE does. -/
structure LoadAverage where
  one : F32
  five : F32
  fifteen : F32
  deriving BEq

/-- Physical memory utilization. -/
structure MemoryMetrics where
  usedBytes : ℕ
  totalBytes : ℕ
  usagePct : F32
  deriving BEq

structure SwapMetrics where
  usedBytes : ℕ
  totalBytes : ℕ
  usagePct : F32

/-- A snapshot of schema version one. -/
structure StatusSnapshot where
  schemaVersion : ℕ
  observedAtUnixMs : ℕ
  sampleIntervalMs : ℕ
  capabilities : MetricCapabilities
  system : SystemIdentity
  cpu : CpuMetrics
  load : LoadAverage
  memory : MemoryMetrics
  swap : SwapMetrics

structure DriveMetrics where
  name : String
  usedBytes : ℕ
  totalBytes : ℕ
  availableBytes : Option ℕ
  deriving DecidableEq

structure DiskIoMetrics where
  id : String
  name : String
  readBytesPerSec : ℕ
  writeBytesPerSec : ℕ
  driveName : Option String
  deriving DecidableEq

structure DiskIoPayload where
  aggregateReadBytesPerSec : ℕ
  aggregateWriteBytesPerSec : ℕ
  devices : List DiskIoMetrics
  deriving DecidableEq

structure NetworkInterfaceMetrics where
  id : String
  name : String
  rxBytesPerSec : ℕ
  txBytesPerSec : ℕ
  rxCapacityBps : Option ℕ
  txCapacityBps : Option ℕ
  isLoopback : Bool
  aggregateMember : Bool
  deriving DecidableEq

structure NetworkPayload where
  aggregateRxBytesPerSec : ℕ
  aggregateTxBytesPerSec : ℕ
  aggregateRxCapacityBps : Option ℕ
  aggregateTxCapacityBps : Option ℕ
  interfaces : List NetworkInterfaceMetrics
  deriving DecidableEq

structure MetricCapabilitiesV2 where
  cpuIowait : Bool
  loadAverage : Bool
  swap : Bool
  memoryCommit : Bool
  deriving DecidableEq

structure CpuMetricsV2 where
  logicalCores : ℕ
  usagePct : F32
  iowaitPct : Option F32

namespace V2

structure SwapMetrics where
  usedBytes : ℕ
  totalBytes : ℕ
  usagePct : F32

structure CommitMetrics where
  usedBytes : ℕ
  limitBytes : ℕ
  usagePct : F32

end V2

structure StatusSnapshotV2 where
  schemaVersion : ℕ
  observedAtUnixMs : ℕ
  sampleIntervalMs : ℕ
  capabilities : MetricCapabilitiesV2
  system : SystemIdentity
  cpu : CpuMetricsV2
  load : Option LoadAverage
  memory : MemoryMetrics
  swap : Option V2.SwapMetrics
  commit : Option V2.CommitMetrics

/-- The flat payload of schema version two: a snapshot and the optional families. -/
structure StatusPayloadV2 where
  snapshot : StatusSnapshotV2
  drives : Option (List DriveMetrics)
  cpuFrequencyHz : Option ℕ
  diskIo : Option DiskIoPayload
  network : Option NetworkPayload

end Gregg.Protocol
