import Gregg.Protocol.Health

/-!
# Validation of the status documents

The daemon checks what it collected before it publishes it, and a client checks what it decoded
before it shows it. A check returns the violations it pushes, in the order of the source. A document
passes exactly when it is well formed, which is stated here without the checks.
-/

namespace Gregg.Protocol

section Bounds

def MAX_SAMPLE_INTERVAL_MS : ℕ := 86400000

def MAX_IDENTITY_FIELD_BYTES : ℕ := 512

def MAX_DRIVE_ENTRIES : ℕ := 32

def MAX_DRIVE_NAME_BYTES : ℕ := 512

def MAX_DISK_IO_ENTRIES : ℕ := 32

def MAX_NETWORK_INTERFACE_ENTRIES : ℕ := 32

def MAX_LIVE_METRIC_ID_BYTES : ℕ := 512

def MAX_LIVE_METRIC_NAME_BYTES : ℕ := 512

def MAX_RATE_BYTES_PER_SEC : ℕ := 2 ^ 40

def MAX_CAPACITY_BITS_PER_SEC : ℕ := 2 ^ 48

def MAX_CPU_FREQUENCY_HZ : ℕ := 2 ^ 34

end Bounds

section Violations

/-- The kind of a violation of schema version one. -/
inductive ViolationKind where
  | unsupportedSchemaVersion (found : ℕ)
  | zeroNotAllowed
  | sampleIntervalOutOfRange (maxMs : ℕ)
  | percentageNotFinite
  | percentageOutOfRange
  | loadValueOutOfRange
  | usedExceedsTotal
  | iowaitCapabilityMismatch
  | invalidIdentityField
  deriving DecidableEq

/-- The kind of a violation of schema version two. -/
inductive ViolationKindV2 where
  | unsupportedSchemaVersion (found : ℕ)
  | zeroNotAllowed
  | sampleIntervalOutOfRange (maxMs : ℕ)
  | percentageNotFinite
  | percentageOutOfRange
  | loadValueOutOfRange
  | usedExceedsTotal
  | availableExceedsTotal
  | iowaitCapabilityMismatch
  | loadCapabilityMismatch
  | swapCapabilityMismatch
  | commitCapabilityMismatch
  | emptyDriveName
  | driveNameTooLong (maxBytes : ℕ)
  | duplicateDriveName
  | unknownDriveAssociation
  | tooManyDrives (maxEntries : ℕ)
  | cpuFrequencyZero
  | cpuFrequencyExceedsMaximum (maxHz : ℕ)
  | tooManyDiskIoDevices (maxEntries : ℕ)
  | diskIoIdInvalid
  | diskIoIdTooLong (maxBytes : ℕ)
  | diskIoNameInvalid
  | diskIoNameTooLong (maxBytes : ℕ)
  | duplicateDiskIoId
  | tooManyNetworkInterfaces (maxEntries : ℕ)
  | networkInterfaceIdInvalid
  | networkInterfaceIdTooLong (maxBytes : ℕ)
  | networkInterfaceNameInvalid
  | networkInterfaceNameTooLong (maxBytes : ℕ)
  | duplicateNetworkInterfaceId
  | zeroCapacity
  | capacityExceedsMaximum (maxBitsPerSec : ℕ)
  | loopbackAggregateMember
  | rateExceedsMaximum (maxBytesPerSec : ℕ)
  | invalidIdentityField
  deriving DecidableEq

structure ValidationViolation (Kind : Type) where
  kind : Kind
  field : String
  deriving DecidableEq

/-- What the checks that both versions make push. -/
structure CommonKinds (Kind : Type) where
  unsupportedSchemaVersion : ℕ → Kind
  zeroNotAllowed : Kind
  sampleIntervalOutOfRange : ℕ → Kind
  percentageNotFinite : Kind
  percentageOutOfRange : Kind
  loadValueOutOfRange : Kind
  usedExceedsTotal : Kind
  iowaitCapabilityMismatch : Kind
  invalidIdentityField : Kind

def CommonKinds.v1 : CommonKinds ViolationKind where
  unsupportedSchemaVersion := .unsupportedSchemaVersion
  zeroNotAllowed := .zeroNotAllowed
  sampleIntervalOutOfRange := .sampleIntervalOutOfRange
  percentageNotFinite := .percentageNotFinite
  percentageOutOfRange := .percentageOutOfRange
  loadValueOutOfRange := .loadValueOutOfRange
  usedExceedsTotal := .usedExceedsTotal
  iowaitCapabilityMismatch := .iowaitCapabilityMismatch
  invalidIdentityField := .invalidIdentityField

def CommonKinds.v2 : CommonKinds ViolationKindV2 where
  unsupportedSchemaVersion := .unsupportedSchemaVersion
  zeroNotAllowed := .zeroNotAllowed
  sampleIntervalOutOfRange := .sampleIntervalOutOfRange
  percentageNotFinite := .percentageNotFinite
  percentageOutOfRange := .percentageOutOfRange
  loadValueOutOfRange := .loadValueOutOfRange
  usedExceedsTotal := .usedExceedsTotal
  iowaitCapabilityMismatch := .iowaitCapabilityMismatch
  invalidIdentityField := .invalidIdentityField

end Violations

/-- A text without a character that is no white space, or with a NUL. -/
def isInvalidLabel (text : String) : Bool :=
  (Text.trim text.toList).isEmpty || text.toList.contains nul

section Common

variable {Kind : Type} (kinds : CommonKinds Kind)

def percentageViolations (value : F32) (field : String) : List (ValidationViolation Kind) :=
  if !value.isFinite then [⟨kinds.percentageNotFinite, field⟩]
  else if !((F32.finite 0).le value && value.le (.finite 100)) then
    [⟨kinds.percentageOutOfRange, field⟩]
  else []

def loadViolations (value : F32) (field : String) : List (ValidationViolation Kind) :=
  if !value.isFinite || value.lt (.finite 0) then [⟨kinds.loadValueOutOfRange, field⟩] else []

/-- The rules that memory, swap and commit charge share. -/
def usageViolations (usedBytes totalBytes : ℕ) (usagePct : F32)
    (pctField usedField totalField : String) : List (ValidationViolation Kind) :=
  let flagged := percentageViolations kinds usagePct pctField
  flagged ++
  (if usedBytes > totalBytes then [⟨kinds.usedExceedsTotal, usedField⟩] else []) ++
  if totalBytes = 0 ∧ (usedBytes > 0 ∨ usagePct != .finite 0) then
    [⟨kinds.zeroNotAllowed, totalField⟩] ++
    (if flagged.isEmpty && usagePct != .finite 0 then
      [⟨kinds.percentageOutOfRange, pctField⟩] else [])
  else []

def identityViolations (system : SystemIdentity) : List (ValidationViolation Kind) :=
  let fields :=
    [("system.name", system.name),
     ("system.hostname", system.hostname),
     ("system.os_name", system.osName),
     ("system.os_version", system.osVersion),
     ("system.kernel_name", system.kernelName),
     ("system.kernel_release", system.kernelRelease),
     ("system.architecture", system.architecture)]
  fields.flatMap fun entry =>
    if isInvalidLabel entry.2 || entry.2.utf8ByteSize > MAX_IDENTITY_FIELD_BYTES then
      [⟨kinds.invalidIdentityField, entry.1⟩]
    else []

def cpuViolations (logicalCores : ℕ) (usagePct : F32) (iowaitPct : Option F32)
    (cpuIowait : Bool) : List (ValidationViolation Kind) :=
  (if logicalCores = 0 then [⟨kinds.zeroNotAllowed, "cpu.logical_cores"⟩] else []) ++
  percentageViolations kinds usagePct "cpu.usage_pct" ++
  match iowaitPct with
  | none => if cpuIowait then [⟨kinds.iowaitCapabilityMismatch, "cpu.iowait_pct"⟩] else []
  | some value =>
      percentageViolations kinds value "cpu.iowait_pct" ++
      (if !cpuIowait then [⟨kinds.iowaitCapabilityMismatch, "cpu.iowait_pct"⟩] else [])

/-- The rules about the version, the time and the interval of a snapshot. -/
def headerViolations (supported schemaVersion observedAtUnixMs sampleIntervalMs : ℕ) :
    List (ValidationViolation Kind) :=
  (if schemaVersion ≠ supported then
    [⟨kinds.unsupportedSchemaVersion schemaVersion, "schema_version"⟩] else []) ++
  (if observedAtUnixMs = 0 then [⟨kinds.zeroNotAllowed, "observed_at_unix_ms"⟩] else []) ++
  (if sampleIntervalMs = 0 then [⟨kinds.zeroNotAllowed, "sample_interval_ms"⟩]
  else if sampleIntervalMs > MAX_SAMPLE_INTERVAL_MS then
    [⟨kinds.sampleIntervalOutOfRange MAX_SAMPLE_INTERVAL_MS, "sample_interval_ms"⟩]
  else [])

end Common

section VersionOne

abbrev ViolationsV1 := List (ValidationViolation ViolationKind)

def checkPercentage : F32 → String → ViolationsV1 :=
  percentageViolations .v1

def checkLoad : F32 → String → ViolationsV1 :=
  loadViolations .v1

def validateIdentity : SystemIdentity → ViolationsV1 :=
  identityViolations .v1

def validateCpu (cpu : CpuMetrics) (cpuIowait : Bool) : ViolationsV1 :=
  cpuViolations .v1 cpu.logicalCores cpu.usagePct cpu.iowaitPct cpuIowait

def validateLoad (load : LoadAverage) : ViolationsV1 :=
  checkLoad load.one "load.one" ++ checkLoad load.five "load.five" ++
    checkLoad load.fifteen "load.fifteen"

def validateMemory (memory : MemoryMetrics) : ViolationsV1 :=
  usageViolations .v1 memory.usedBytes memory.totalBytes memory.usagePct
    "memory.usage_pct" "memory.used_bytes" "memory.total_bytes"

def validateSwap (swap : SwapMetrics) : ViolationsV1 :=
  usageViolations .v1 swap.usedBytes swap.totalBytes swap.usagePct
    "swap.usage_pct" "swap.used_bytes" "swap.total_bytes"

/-- Every invariant of a snapshot of version one. -/
def validate (snap : StatusSnapshot) : ViolationsV1 :=
  headerViolations .v1 SCHEMA_VERSION_V1 snap.schemaVersion snap.observedAtUnixMs
    snap.sampleIntervalMs ++
  validateIdentity snap.system ++
  validateCpu snap.cpu snap.capabilities.cpuIowait ++
  validateLoad snap.load ++
  validateMemory snap.memory ++
  validateSwap snap.swap

end VersionOne

section VersionTwo

abbrev ViolationsV2 := List (ValidationViolation ViolationKindV2)

def checkPercentageV2 : F32 → String → ViolationsV2 :=
  percentageViolations .v2

def checkLoadV2 : F32 → String → ViolationsV2 :=
  loadViolations .v2

def validateIdentityV2 : SystemIdentity → ViolationsV2 :=
  identityViolations .v2

def validateCpuV2 (cpu : CpuMetricsV2) (cpuIowait : Bool) : ViolationsV2 :=
  cpuViolations .v2 cpu.logicalCores cpu.usagePct cpu.iowaitPct cpuIowait

/-- The rule that a family is there exactly where the capability says so. -/
def familyViolations {Family : Type} (mismatch : ViolationKindV2) (field : String)
    (check : Family → ViolationsV2) (family : Option Family) (capable : Bool) : ViolationsV2 :=
  match family with
  | none => if capable then [⟨mismatch, field⟩] else []
  | some family => check family ++ (if !capable then [⟨mismatch, field⟩] else [])

def validateLoadV2 : Option LoadAverage → Bool → ViolationsV2 :=
  familyViolations .loadCapabilityMismatch "load" fun load =>
    checkLoadV2 load.one "load.one" ++ checkLoadV2 load.five "load.five" ++
      checkLoadV2 load.fifteen "load.fifteen"

def validateMemoryV2 (memory : MemoryMetrics) : ViolationsV2 :=
  usageViolations .v2 memory.usedBytes memory.totalBytes memory.usagePct
    "memory.usage_pct" "memory.used_bytes" "memory.total_bytes"

def validateSwapV2 : Option V2.SwapMetrics → Bool → ViolationsV2 :=
  familyViolations .swapCapabilityMismatch "swap" fun swap =>
    usageViolations .v2 swap.usedBytes swap.totalBytes swap.usagePct
      "swap.usage_pct" "swap.used_bytes" "swap.total_bytes"

def validateCommitV2 : Option V2.CommitMetrics → Bool → ViolationsV2 :=
  familyViolations .commitCapabilityMismatch "commit" fun commit =>
    usageViolations .v2 commit.usedBytes commit.limitBytes commit.usagePct
      "commit.usage_pct" "commit.used_bytes" "commit.limit_bytes"

/-- Every invariant of a snapshot of version two, without the optional families of its payload. -/
def validateV2 (snap : StatusSnapshotV2) : ViolationsV2 :=
  headerViolations .v2 SCHEMA_VERSION_V2 snap.schemaVersion snap.observedAtUnixMs
    snap.sampleIntervalMs ++
  validateIdentityV2 snap.system ++
  validateCpuV2 snap.cpu snap.capabilities.cpuIowait ++
  validateLoadV2 snap.load snap.capabilities.loadAverage ++
  validateMemoryV2 snap.memory ++
  validateSwapV2 snap.swap snap.capabilities.swap ++
  validateCommitV2 snap.commit snap.capabilities.memoryCommit

/-- The loop over the entries of a family: each is checked, and its key against the ones before. -/
def validateEntriesFrom {Entry : Type} (check : ℕ → Entry → ViolationsV2)
    (key : Entry → List Char) (duplicate : ℕ → ValidationViolation ViolationKindV2)
    (seen : List (List Char)) (index : ℕ) : List Entry → ViolationsV2
  | [] => []
  | entry :: rest =>
      check index entry ++
      (if seen.contains (key entry) then [duplicate index] else []) ++
      validateEntriesFrom check key duplicate (key entry :: seen) (index + 1) rest

/-- What a drive is known by. -/
def driveKey (drive : DriveMetrics) : List Char :=
  Text.trim drive.name.toList

def deviceKey (device : DiskIoMetrics) : List Char :=
  Text.trim device.id.toList

def interfaceKey (interface : NetworkInterfaceMetrics) : List Char :=
  Text.trim interface.id.toList

def validateDrive (index : ℕ) (drive : DriveMetrics) : ViolationsV2 :=
  let field := "drives[" ++ toString index ++ "]"
  (if isInvalidLabel drive.name then [⟨.emptyDriveName, field ++ ".name"⟩] else []) ++
  (if drive.name.utf8ByteSize > MAX_DRIVE_NAME_BYTES then
    [⟨.driveNameTooLong MAX_DRIVE_NAME_BYTES, field ++ ".name"⟩] else []) ++
  (if drive.totalBytes = 0 ∧
      (drive.usedBytes > 0 ∨ drive.availableBytes.any fun available => available > 0) then
    [⟨.zeroNotAllowed, field ++ ".total_bytes"⟩] else []) ++
  (if drive.usedBytes > drive.totalBytes then
    [⟨.usedExceedsTotal, field ++ ".used_bytes"⟩] else []) ++
  (if drive.availableBytes.any fun available => available > drive.totalBytes then
    [⟨.availableExceedsTotal, field ++ ".available_bytes"⟩] else [])

/-- The checks of the optional drive data. -/
def validateDrives (drives : List DriveMetrics) : ViolationsV2 :=
  (if drives.length > MAX_DRIVE_ENTRIES then
    [⟨.tooManyDrives MAX_DRIVE_ENTRIES, "drives"⟩] else []) ++
  validateEntriesFrom validateDrive driveKey
    (fun index => ⟨.duplicateDriveName, "drives[" ++ toString index ++ "].name"⟩) [] 0 drives

def checkRate (rate : ℕ) (field : String) : ViolationsV2 :=
  if rate > MAX_RATE_BYTES_PER_SEC then
    [⟨.rateExceedsMaximum MAX_RATE_BYTES_PER_SEC, field⟩] else []

def validateCapacity (capacity : Option ℕ) (field : String) : ViolationsV2 :=
  match capacity with
  | some 0 => [⟨.zeroCapacity, field⟩]
  | some bps =>
      if bps > MAX_CAPACITY_BITS_PER_SEC then
        [⟨.capacityExceedsMaximum MAX_CAPACITY_BITS_PER_SEC, field⟩] else []
  | none => []

def validateDiskIoName (name field : String) : ViolationsV2 :=
  (if isInvalidLabel name then [⟨.diskIoNameInvalid, field⟩] else []) ++
  (if name.utf8ByteSize > MAX_LIVE_METRIC_NAME_BYTES then
    [⟨.diskIoNameTooLong MAX_LIVE_METRIC_NAME_BYTES, field⟩] else [])

/-- Without a drive list an association cannot be verified. -/
def validateDiskIoDevice (knownDrives : Option (List (List Char))) (index : ℕ)
    (device : DiskIoMetrics) : ViolationsV2 :=
  let field := "disk_io.devices[" ++ toString index ++ "]"
  (if isInvalidLabel device.id then [⟨.diskIoIdInvalid, field ++ ".id"⟩] else []) ++
  (if device.id.utf8ByteSize > MAX_LIVE_METRIC_ID_BYTES then
    [⟨.diskIoIdTooLong MAX_LIVE_METRIC_ID_BYTES, field ++ ".id"⟩] else []) ++
  validateDiskIoName device.name (field ++ ".name") ++
  (match device.driveName with
    | some driveName =>
        validateDiskIoName driveName (field ++ ".drive_name") ++
        (if knownDrives.any fun known => !known.contains (Text.trim driveName.toList) then
          [⟨.unknownDriveAssociation, field ++ ".drive_name"⟩] else [])
    | none => []) ++
  checkRate device.readBytesPerSec (field ++ ".read_bytes_per_sec") ++
  checkRate device.writeBytesPerSec (field ++ ".write_bytes_per_sec")

def validateDiskIo (diskIo : DiskIoPayload) (drives : Option (List DriveMetrics)) :
    ViolationsV2 :=
  checkRate diskIo.aggregateReadBytesPerSec "disk_io.aggregate_read_bytes_per_sec" ++
  checkRate diskIo.aggregateWriteBytesPerSec "disk_io.aggregate_write_bytes_per_sec" ++
  (if diskIo.devices.length > MAX_DISK_IO_ENTRIES then
    [⟨.tooManyDiskIoDevices MAX_DISK_IO_ENTRIES, "disk_io.devices"⟩] else []) ++
  validateEntriesFrom (validateDiskIoDevice (drives.map fun drives => drives.map driveKey))
    deviceKey
    (fun index => ⟨.duplicateDiskIoId, "disk_io.devices[" ++ toString index ++ "].id"⟩)
    [] 0 diskIo.devices

def validateNetworkInterface (index : ℕ) (interface : NetworkInterfaceMetrics) : ViolationsV2 :=
  let field := "network.interfaces[" ++ toString index ++ "]"
  (if isInvalidLabel interface.id then [⟨.networkInterfaceIdInvalid, field ++ ".id"⟩] else []) ++
  (if interface.id.utf8ByteSize > MAX_LIVE_METRIC_ID_BYTES then
    [⟨.networkInterfaceIdTooLong MAX_LIVE_METRIC_ID_BYTES, field ++ ".id"⟩] else []) ++
  (if isInvalidLabel interface.name then
    [⟨.networkInterfaceNameInvalid, field ++ ".name"⟩] else []) ++
  (if interface.name.utf8ByteSize > MAX_LIVE_METRIC_NAME_BYTES then
    [⟨.networkInterfaceNameTooLong MAX_LIVE_METRIC_NAME_BYTES, field ++ ".name"⟩] else []) ++
  validateCapacity interface.rxCapacityBps (field ++ ".rx_capacity_bps") ++
  validateCapacity interface.txCapacityBps (field ++ ".tx_capacity_bps") ++
  checkRate interface.rxBytesPerSec (field ++ ".rx_bytes_per_sec") ++
  checkRate interface.txBytesPerSec (field ++ ".tx_bytes_per_sec") ++
  (if interface.isLoopback && interface.aggregateMember then
    [⟨.loopbackAggregateMember, field ++ ".aggregate_member"⟩] else [])

def validateNetwork (network : NetworkPayload) : ViolationsV2 :=
  checkRate network.aggregateRxBytesPerSec "network.aggregate_rx_bytes_per_sec" ++
  checkRate network.aggregateTxBytesPerSec "network.aggregate_tx_bytes_per_sec" ++
  validateCapacity network.aggregateRxCapacityBps "network.aggregate_rx_capacity_bps" ++
  validateCapacity network.aggregateTxCapacityBps "network.aggregate_tx_capacity_bps" ++
  (if network.interfaces.length > MAX_NETWORK_INTERFACE_ENTRIES then
    [⟨.tooManyNetworkInterfaces MAX_NETWORK_INTERFACE_ENTRIES, "network.interfaces"⟩] else []) ++
  validateEntriesFrom validateNetworkInterface interfaceKey
    (fun index =>
      ⟨.duplicateNetworkInterfaceId, "network.interfaces[" ++ toString index ++ "].id"⟩)
    [] 0 network.interfaces

/-- The checks of the optional frequency. -/
def validateFrequency (frequency : Option ℕ) : ViolationsV2 :=
  (if frequency.any fun hz => hz = 0 then [⟨.cpuFrequencyZero, "cpu_frequency_hz"⟩] else []) ++
  (if frequency.any fun hz => hz > MAX_CPU_FREQUENCY_HZ then
    [⟨.cpuFrequencyExceedsMaximum MAX_CPU_FREQUENCY_HZ, "cpu_frequency_hz"⟩] else [])

/-- A flat payload of version two, including its optional families. -/
def validatePayloadV2 (payload : StatusPayloadV2) : ViolationsV2 :=
  validateV2 payload.snapshot ++
  payload.drives.elim [] validateDrives ++
  validateFrequency payload.cpuFrequencyHz ++
  payload.diskIo.elim [] (fun diskIo => validateDiskIo diskIo payload.drives) ++
  payload.network.elim [] validateNetwork

end VersionTwo

end Gregg.Protocol
