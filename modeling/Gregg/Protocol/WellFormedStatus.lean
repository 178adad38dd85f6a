import Gregg.Protocol.ValidateStatus
import Mathlib.Algebra.Order.Ring.Unbundled.Rat
import Mathlib.Data.List.TakeWhile

/-!
# Well-formed status documents

What the checks of a status document amount to, stated without them: finite percentages, parts that
are no larger than the whole, families that are there where the capabilities say so, and lists
within their bounds whose entries have different names.
-/

namespace Gregg.Protocol

section Values

def IsPercentage (value : F32) : Prop :=
  ∃ number : ℚ, value = .finite number ∧ 0 ≤ number ∧ number ≤ 100

def IsLoad (value : F32) : Prop :=
  ∃ number : ℚ, value = .finite number ∧ 0 ≤ number

/-- A text that shows something, and that is no longer than a bound. -/
@[mk_iff isLabel_iff]
structure IsLabel (maxBytes : ℕ) (text : String) : Prop where
  shown : ∃ character ∈ text.toList, Text.isWhitespace character = false
  noNul : nul ∉ text.toList
  fits : text.utf8ByteSize ≤ maxBytes

/-- A part of a whole with its percentage. Nothing of nothing is used. -/
@[mk_iff usageWellFormed_iff]
structure UsageWellFormed (usedBytes totalBytes : ℕ) (usagePct : F32) : Prop where
  percentage : IsPercentage usagePct
  used_le : usedBytes ≤ totalBytes
  empty : totalBytes = 0 → usagePct = .finite 0

def SystemIdentity.fields (system : SystemIdentity) : List String :=
  [system.name, system.hostname, system.osName, system.osVersion, system.kernelName,
    system.kernelRelease, system.architecture]

/-- A family is there exactly where the capability says so. -/
@[mk_iff familyWellFormed_iff]
structure FamilyWellFormed {Family : Type} (wellFormed : Family → Prop) (capable : Bool)
    (family : Option Family) : Prop where
  present : family.isSome = capable
  each : ∀ value, family = some value → wellFormed value

@[mk_iff cpuWellFormed_iff]
structure CpuWellFormed (logicalCores : ℕ) (usagePct : F32) (iowaitPct : Option F32)
    (cpuIowait : Bool) : Prop where
  cores : 0 < logicalCores
  usage : IsPercentage usagePct
  iowait : FamilyWellFormed IsPercentage cpuIowait iowaitPct

@[mk_iff loadWellFormed_iff]
structure LoadWellFormed (load : LoadAverage) : Prop where
  one : IsLoad load.one
  five : IsLoad load.five
  fifteen : IsLoad load.fifteen

@[mk_iff headerWellFormed_iff]
structure HeaderWellFormed (supported schemaVersion observedAtUnixMs sampleIntervalMs : ℕ) :
    Prop where
  version : schemaVersion = supported
  observed : 0 < observedAtUnixMs
  interval_pos : 0 < sampleIntervalMs
  interval_le : sampleIntervalMs ≤ MAX_SAMPLE_INTERVAL_MS

/-- A list within its bound, whose entries have different keys. -/
@[mk_iff entriesWellFormed_iff]
structure EntriesWellFormed {Entry : Type} (wellFormed : Entry → Prop) (key : Entry → List Char)
    (maxEntries : ℕ) (entries : List Entry) : Prop where
  bounded : entries.length ≤ maxEntries
  each : ∀ entry ∈ entries, wellFormed entry
  distinct : (entries.map key).Nodup

def IsRate (rate : ℕ) : Prop :=
  rate ≤ MAX_RATE_BYTES_PER_SEC

def IsCapacity (capacity : Option ℕ) : Prop :=
  ∀ bps, capacity = some bps → 0 < bps ∧ bps ≤ MAX_CAPACITY_BITS_PER_SEC

end Values

section Documents

@[mk_iff snapshotWellFormed_iff]
structure SnapshotWellFormed (snap : StatusSnapshot) : Prop where
  header : HeaderWellFormed SCHEMA_VERSION_V1 snap.schemaVersion snap.observedAtUnixMs
    snap.sampleIntervalMs
  identity : ∀ field ∈ snap.system.fields, IsLabel MAX_IDENTITY_FIELD_BYTES field
  cpu : CpuWellFormed snap.cpu.logicalCores snap.cpu.usagePct snap.cpu.iowaitPct
    snap.capabilities.cpuIowait
  load : LoadWellFormed snap.load
  memory : UsageWellFormed snap.memory.usedBytes snap.memory.totalBytes snap.memory.usagePct
  swap : UsageWellFormed snap.swap.usedBytes snap.swap.totalBytes snap.swap.usagePct

@[mk_iff snapshotWellFormedV2_iff]
structure SnapshotWellFormedV2 (snap : StatusSnapshotV2) : Prop where
  header : HeaderWellFormed SCHEMA_VERSION_V2 snap.schemaVersion snap.observedAtUnixMs
    snap.sampleIntervalMs
  identity : ∀ field ∈ snap.system.fields, IsLabel MAX_IDENTITY_FIELD_BYTES field
  cpu : CpuWellFormed snap.cpu.logicalCores snap.cpu.usagePct snap.cpu.iowaitPct
    snap.capabilities.cpuIowait
  load : FamilyWellFormed LoadWellFormed snap.capabilities.loadAverage snap.load
  memory : UsageWellFormed snap.memory.usedBytes snap.memory.totalBytes snap.memory.usagePct
  swap : FamilyWellFormed
    (fun swap => UsageWellFormed swap.usedBytes swap.totalBytes swap.usagePct)
    snap.capabilities.swap snap.swap
  commit : FamilyWellFormed
    (fun commit => UsageWellFormed commit.usedBytes commit.limitBytes commit.usagePct)
    snap.capabilities.memoryCommit snap.commit

@[mk_iff driveWellFormed_iff]
structure DriveWellFormed (drive : DriveMetrics) : Prop where
  name : IsLabel MAX_DRIVE_NAME_BYTES drive.name
  used_le : drive.usedBytes ≤ drive.totalBytes
  available_le : ∀ available, drive.availableBytes = some available →
    available ≤ drive.totalBytes

abbrev DrivesWellFormed : List DriveMetrics → Prop :=
  EntriesWellFormed DriveWellFormed driveKey MAX_DRIVE_ENTRIES

/-- Where the drives are known, a device is associated with one of them. -/
@[mk_iff deviceWellFormed_iff]
structure DeviceWellFormed (drives : Option (List DriveMetrics)) (device : DiskIoMetrics) :
    Prop where
  id : IsLabel MAX_LIVE_METRIC_ID_BYTES device.id
  name : IsLabel MAX_LIVE_METRIC_NAME_BYTES device.name
  associated : ∀ driveName, device.driveName = some driveName →
    IsLabel MAX_LIVE_METRIC_NAME_BYTES driveName ∧
      ∀ known, drives = some known → ∃ drive ∈ known, driveKey drive = Text.trim driveName.toList
  read : IsRate device.readBytesPerSec
  write : IsRate device.writeBytesPerSec

@[mk_iff diskIoWellFormed_iff]
structure DiskIoWellFormed (drives : Option (List DriveMetrics)) (diskIo : DiskIoPayload) :
    Prop where
  read : IsRate diskIo.aggregateReadBytesPerSec
  write : IsRate diskIo.aggregateWriteBytesPerSec
  devices : EntriesWellFormed (DeviceWellFormed drives) deviceKey MAX_DISK_IO_ENTRIES
    diskIo.devices

@[mk_iff interfaceWellFormed_iff]
structure InterfaceWellFormed (interface : NetworkInterfaceMetrics) : Prop where
  id : IsLabel MAX_LIVE_METRIC_ID_BYTES interface.id
  name : IsLabel MAX_LIVE_METRIC_NAME_BYTES interface.name
  rxCapacity : IsCapacity interface.rxCapacityBps
  txCapacity : IsCapacity interface.txCapacityBps
  rx : IsRate interface.rxBytesPerSec
  tx : IsRate interface.txBytesPerSec
  notAggregated : interface.isLoopback = true → interface.aggregateMember = false

@[mk_iff networkWellFormed_iff]
structure NetworkWellFormed (network : NetworkPayload) : Prop where
  rx : IsRate network.aggregateRxBytesPerSec
  tx : IsRate network.aggregateTxBytesPerSec
  rxCapacity : IsCapacity network.aggregateRxCapacityBps
  txCapacity : IsCapacity network.aggregateTxCapacityBps
  interfaces : EntriesWellFormed InterfaceWellFormed interfaceKey MAX_NETWORK_INTERFACE_ENTRIES
    network.interfaces

@[mk_iff payloadWellFormed_iff]
structure PayloadWellFormed (payload : StatusPayloadV2) : Prop where
  snapshot : SnapshotWellFormedV2 payload.snapshot
  drives : ∀ drives, payload.drives = some drives → DrivesWellFormed drives
  frequency : ∀ hz, payload.cpuFrequencyHz = some hz → 0 < hz ∧ hz ≤ MAX_CPU_FREQUENCY_HZ
  diskIo : ∀ diskIo, payload.diskIo = some diskIo → DiskIoWellFormed payload.drives diskIo
  network : ∀ network, payload.network = some network → NetworkWellFormed network

end Documents

section Common

variable {Kind : Type} {kinds : CommonKinds Kind} {value : F32} {field : String}

theorem isInvalidLabel_eq_false_iff {text : String} :
    isInvalidLabel text = false ↔
      (∃ character ∈ text.toList, Text.isWhitespace character = false) ∧ nul ∉ text.toList := by
  have blank : (Text.trim text.toList).isEmpty = true ↔
      ∀ character ∈ text.toList, Text.isWhitespace character = true := by
    rw [List.isEmpty_iff, Text.trim, List.reverse_eq_nil_iff, List.dropWhile_eq_nil_iff]
    simp only [List.mem_reverse]
    constructor
    · intro blank
      cases rest : text.toList.dropWhile Text.isWhitespace with
      | nil => exact List.dropWhile_eq_nil_iff.mp rest
      | cons first others =>
          -- What is left begins with a character that is no white space.
          have isFirst := List.head?_dropWhile_not Text.isWhitespace text.toList
          simp only [rest, List.head?_cons] at isFirst
          rw [blank first (by simp [rest])] at isFirst
          cases isFirst
    · intro blank character member
      exact blank character ((List.dropWhile_suffix _).subset member)
  rw [isInvalidLabel, Bool.or_eq_false_iff, ← Bool.not_eq_true, blank, List.contains_eq_mem,
    decide_eq_false_iff_not]
  simp only [not_forall, Bool.not_eq_true, exists_prop]

@[simp]
theorem percentageViolations_eq_nil_iff :
    percentageViolations kinds value field = [] ↔ IsPercentage value := by
  cases value with
  | finite number => simp [percentageViolations, IsPercentage, F32.isFinite, F32.le]
  | infinity negative => simp [percentageViolations, IsPercentage, F32.isFinite]
  | nan => simp [percentageViolations, IsPercentage, F32.isFinite]

@[simp]
theorem loadViolations_eq_nil_iff : loadViolations kinds value field = [] ↔ IsLoad value := by
  cases value with
  | finite number => simp [loadViolations, IsLoad, F32.isFinite, F32.lt]
  | infinity negative => simp [loadViolations, IsLoad, F32.isFinite]
  | nan => simp [loadViolations, IsLoad, F32.isFinite]

@[simp]
theorem beq_zero_iff : (value == .finite 0) = true ↔ value = .finite 0 := by
  change (value.le (.finite 0) && (F32.finite 0).le value) = true ↔ value = .finite 0
  cases value with
  | finite number =>
      simp only [F32.le, Bool.and_eq_true, decide_eq_true_eq, F32.finite.injEq]
      constructor
      · intro both
        exact Rat.le_antisymm both.1 both.2
      · rintro rfl
        exact ⟨Rat.le_refl, Rat.le_refl⟩
  | infinity negative => cases negative <;> simp [F32.le]
  | nan => simp [F32.le]

/-- The rule on an empty whole adds to the other two that nothing is not in use. -/
@[simp]
theorem usageViolations_eq_nil_iff {usedBytes totalBytes : ℕ}
    {pctField usedField totalField : String} :
    usageViolations kinds usedBytes totalBytes value pctField usedField totalField = [] ↔
      UsageWellFormed usedBytes totalBytes value := by
  rw [usageViolations, usageWellFormed_iff, List.append_eq_nil_iff, List.append_eq_nil_iff,
    percentageViolations_eq_nil_iff, ite_singleton_eq_nil_iff, Nat.not_lt, and_assoc]
  apply and_congr_right
  intro _
  apply and_congr_right
  intro used_le
  split
  · rename_i claims
    rcases claims with ⟨isEmpty, claims⟩
    simp only [List.append_eq_nil_iff, List.cons_ne_nil, false_and, isEmpty, forall_const,
      false_iff]
    intro isZero
    rw [isZero] at claims
    rcases claims with used | percentage
    · omega
    · rw [bne, beq_zero_iff.mpr rfl] at percentage
      cases percentage
  · rename_i claimsNothing
    simp only [true_iff]
    intro isEmpty
    rw [not_and, not_or, bne, Bool.not_eq_true', Bool.not_eq_false] at claimsNothing
    exact beq_zero_iff.mp (claimsNothing isEmpty).2

@[simp]
theorem identityViolations_eq_nil_iff {system : SystemIdentity} :
    identityViolations kinds system = [] ↔
      ∀ field ∈ system.fields, IsLabel MAX_IDENTITY_FIELD_BYTES field := by
  simp [identityViolations, SystemIdentity.fields, isLabel_iff, isInvalidLabel_eq_false_iff,
    and_assoc]

@[simp]
theorem cpuViolations_eq_nil_iff {logicalCores : ℕ} {iowaitPct : Option F32} {cpuIowait : Bool} :
    cpuViolations kinds logicalCores value iowaitPct cpuIowait = [] ↔
      CpuWellFormed logicalCores value iowaitPct cpuIowait := by
  simp only [cpuViolations, cpuWellFormed_iff, List.append_eq_nil_iff, ite_singleton_eq_nil_iff,
    percentageViolations_eq_nil_iff, and_assoc, familyWellFormed_iff, Nat.pos_iff_ne_zero, ne_eq]
  cases iowaitPct with
  | none => cases cpuIowait <;> simp
  | some iowait => cases cpuIowait <;> simp

@[simp]
theorem headerViolations_eq_nil_iff {supported version observed interval : ℕ} :
    headerViolations kinds supported version observed interval = [] ↔
      HeaderWellFormed supported version observed interval := by
  rw [headerViolations, headerWellFormed_iff, List.append_eq_nil_iff, List.append_eq_nil_iff,
    ite_singleton_eq_nil_iff, ite_singleton_eq_nil_iff, not_not, and_assoc, ← ne_eq observed,
    ← Nat.pos_iff_ne_zero]
  apply and_congr_right
  intro _
  apply and_congr_right
  intro _
  split
  · rename_i isZero
    simp [isZero]
  · rename_i notZero
    rw [ite_singleton_eq_nil_iff, Nat.not_lt]
    simp [Nat.pos_of_ne_zero notZero]

end Common

section Families

@[simp]
theorem familyViolations_eq_nil_iff {Family : Type} {mismatch : ViolationKindV2} {field : String}
    {check : Family → ViolationsV2} {wellFormed : Family → Prop} {family : Option Family}
    {capable : Bool} (decides : ∀ value, check value = [] ↔ wellFormed value) :
    familyViolations mismatch field check family capable = [] ↔
      FamilyWellFormed wellFormed capable family := by
  cases family with
  | none => cases capable <;> simp [familyViolations, familyWellFormed_iff]
  | some value => cases capable <;> simp [familyViolations, familyWellFormed_iff, decides]

/-- A list passes when every entry does and their keys are different from each other and from those
that were seen before. -/
theorem validateEntriesFrom_eq_nil_iff {Entry : Type} {check : ℕ → Entry → ViolationsV2}
    {key : Entry → List Char} {duplicate : ℕ → ValidationViolation ViolationKindV2}
    {wellFormed : Entry → Prop} (decides : ∀ index entry, check index entry = [] ↔ wellFormed entry)
    {seen : List (List Char)} {index : ℕ} {entries : List Entry} :
    validateEntriesFrom check key duplicate seen index entries = [] ↔
      (∀ entry ∈ entries, wellFormed entry) ∧ (entries.map key).Nodup ∧
        ∀ entry ∈ entries, key entry ∉ seen := by
  induction entries generalizing seen index with
  | nil => simp [validateEntriesFrom]
  | cons entry rest ih =>
      simp only [validateEntriesFrom, List.append_eq_nil_iff, decides, ih,
        ite_singleton_eq_nil_iff, List.contains_eq_mem, decide_eq_true_eq, List.map_cons,
        List.nodup_cons, List.mem_map, not_exists, not_and, List.mem_cons, not_or, forall_eq_or_imp]
      constructor
      · rintro ⟨⟨here, fresh⟩, each, distinct, unseen⟩
        refine ⟨⟨here, each⟩, ⟨?_, distinct⟩, fresh, ?_⟩
        · intro other member sameKey
          exact (unseen other member).1 sameKey
        · intro other member
          exact (unseen other member).2
      · rintro ⟨⟨here, each⟩, ⟨different, distinct⟩, fresh, unseen⟩
        refine ⟨⟨here, fresh⟩, each, distinct, ?_⟩
        intro other member
        exact ⟨different other member, unseen other member⟩

/-- A list with its bound. -/
theorem entries_eq_nil_iff {Entry : Type} {check : ℕ → Entry → ViolationsV2}
    {key : Entry → List Char} {duplicate : ℕ → ValidationViolation ViolationKindV2}
    {tooMany : ValidationViolation ViolationKindV2} {wellFormed : Entry → Prop}
    (decides : ∀ index entry, check index entry = [] ↔ wellFormed entry) {maxEntries : ℕ}
    {entries : List Entry} :
    (if entries.length > maxEntries then [tooMany] else []) ++
        validateEntriesFrom check key duplicate [] 0 entries = [] ↔
      EntriesWellFormed wellFormed key maxEntries entries := by
  rw [List.append_eq_nil_iff, ite_singleton_eq_nil_iff, Nat.not_lt, entriesWellFormed_iff,
    validateEntriesFrom_eq_nil_iff decides]
  simp

@[simp]
theorem checkRate_eq_nil_iff {rate : ℕ} {field : String} :
    checkRate rate field = [] ↔ IsRate rate := by
  rw [checkRate, ite_singleton_eq_nil_iff, Nat.not_lt, IsRate]

@[simp]
theorem validateCapacity_eq_nil_iff {capacity : Option ℕ} {field : String} :
    validateCapacity capacity field = [] ↔ IsCapacity capacity := by
  rcases capacity with _ | _ | bps <;> simp [validateCapacity, IsCapacity]

theorem validateDrive_eq_nil_iff {index : ℕ} {drive : DriveMetrics} :
    validateDrive index drive = [] ↔ DriveWellFormed drive := by
  simp only [validateDrive, driveWellFormed_iff, isLabel_iff, List.append_eq_nil_iff,
    ite_singleton_eq_nil_iff, Bool.not_eq_true, isInvalidLabel_eq_false_iff, Nat.not_lt, and_assoc,
    Option.any_eq_true, decide_eq_true_eq, not_exists, not_and, not_or]
  apply and_congr_right
  intro _
  apply and_congr_right
  intro _
  apply and_congr_right
  intro _
  constructor
  · rintro ⟨-, used, available⟩
    exact ⟨used, available⟩
  · rintro ⟨used, available⟩
    -- Nothing fits in an empty drive, so the rule on a zero total adds nothing.
    refine ⟨?_, used, available⟩
    intro isEmpty
    rw [isEmpty] at used available
    exact ⟨used, available⟩

theorem validateDiskIoName_eq_nil_iff {name field : String} :
    validateDiskIoName name field = [] ↔ IsLabel MAX_LIVE_METRIC_NAME_BYTES name := by
  simp [validateDiskIoName, isLabel_iff, isInvalidLabel_eq_false_iff, and_assoc]

theorem validateDiskIoDevice_eq_nil_iff {drives : Option (List DriveMetrics)} {index : ℕ}
    {device : DiskIoMetrics} :
    validateDiskIoDevice (drives.map fun drives => drives.map driveKey) index device = [] ↔
      DeviceWellFormed drives device := by
  cases isAssociated : device.driveName with
  | none =>
      simp [validateDiskIoDevice, validateDiskIoName_eq_nil_iff, deviceWellFormed_iff, isLabel_iff,
        isInvalidLabel_eq_false_iff, isAssociated, and_assoc]
  | some driveName =>
      cases drives with
      | none =>
          simp [validateDiskIoDevice, validateDiskIoName_eq_nil_iff, deviceWellFormed_iff,
            isLabel_iff, isInvalidLabel_eq_false_iff, isAssociated, and_assoc]
      | some drives =>
          simp [validateDiskIoDevice, validateDiskIoName_eq_nil_iff, deviceWellFormed_iff,
            isLabel_iff, isInvalidLabel_eq_false_iff, isAssociated, and_assoc]

theorem validateNetworkInterface_eq_nil_iff {index : ℕ} {interface : NetworkInterfaceMetrics} :
    validateNetworkInterface index interface = [] ↔ InterfaceWellFormed interface := by
  simp [validateNetworkInterface, interfaceWellFormed_iff, isLabel_iff,
    isInvalidLabel_eq_false_iff, and_assoc]

end Families

section Documents

/-- A snapshot of version one passes exactly when it is well formed. -/
theorem validate_eq_nil_iff {snap : StatusSnapshot} :
    validate snap = [] ↔ SnapshotWellFormed snap := by
  simp [validate, validateIdentity, validateCpu, validateLoad, checkLoad, validateMemory,
    validateSwap, snapshotWellFormed_iff, loadWellFormed_iff, and_assoc]

theorem validateLoadV2_eq_nil_iff {load : Option LoadAverage} {capable : Bool} :
    validateLoadV2 load capable = [] ↔ FamilyWellFormed LoadWellFormed capable load := by
  apply familyViolations_eq_nil_iff
  simp [checkLoadV2, loadWellFormed_iff]

theorem validateSwapV2_eq_nil_iff {swap : Option V2.SwapMetrics} {capable : Bool} :
    validateSwapV2 swap capable = [] ↔
      FamilyWellFormed
        (fun swap => UsageWellFormed swap.usedBytes swap.totalBytes swap.usagePct) capable swap :=
  familyViolations_eq_nil_iff fun _ => usageViolations_eq_nil_iff

theorem validateCommitV2_eq_nil_iff {commit : Option V2.CommitMetrics} {capable : Bool} :
    validateCommitV2 commit capable = [] ↔
      FamilyWellFormed
        (fun commit => UsageWellFormed commit.usedBytes commit.limitBytes commit.usagePct)
        capable commit :=
  familyViolations_eq_nil_iff fun _ => usageViolations_eq_nil_iff

theorem validateV2_eq_nil_iff {snap : StatusSnapshotV2} :
    validateV2 snap = [] ↔ SnapshotWellFormedV2 snap := by
  simp only [validateV2, validateIdentityV2, validateCpuV2, validateMemoryV2,
    List.append_eq_nil_iff, headerViolations_eq_nil_iff, identityViolations_eq_nil_iff,
    cpuViolations_eq_nil_iff, validateLoadV2_eq_nil_iff, usageViolations_eq_nil_iff,
    validateSwapV2_eq_nil_iff, validateCommitV2_eq_nil_iff, snapshotWellFormedV2_iff, and_assoc]

theorem validateDrives_eq_nil_iff {drives : List DriveMetrics} :
    validateDrives drives = [] ↔ DrivesWellFormed drives := by
  rw [validateDrives]
  apply entries_eq_nil_iff
  intro index drive
  exact validateDrive_eq_nil_iff

theorem validateDiskIo_eq_nil_iff {diskIo : DiskIoPayload} {drives : Option (List DriveMetrics)} :
    validateDiskIo diskIo drives = [] ↔ DiskIoWellFormed drives diskIo := by
  rw [validateDiskIo, List.append_assoc, List.append_assoc, List.append_eq_nil_iff,
    List.append_eq_nil_iff, checkRate_eq_nil_iff, checkRate_eq_nil_iff, diskIoWellFormed_iff]
  apply and_congr_right
  intro _
  apply and_congr_right
  intro _
  apply entries_eq_nil_iff
  intro index device
  exact validateDiskIoDevice_eq_nil_iff

theorem validateNetwork_eq_nil_iff {network : NetworkPayload} :
    validateNetwork network = [] ↔ NetworkWellFormed network := by
  rw [validateNetwork, List.append_assoc, List.append_eq_nil_iff, List.append_eq_nil_iff,
    List.append_eq_nil_iff, List.append_eq_nil_iff, checkRate_eq_nil_iff, checkRate_eq_nil_iff,
    validateCapacity_eq_nil_iff, validateCapacity_eq_nil_iff, networkWellFormed_iff, ← and_assoc,
    ← and_assoc, ← and_assoc]
  apply and_congr_right
  intro _
  apply entries_eq_nil_iff
  intro index interface
  exact validateNetworkInterface_eq_nil_iff

theorem validateFrequency_eq_nil_iff {frequency : Option ℕ} :
    validateFrequency frequency = [] ↔
      ∀ hz, frequency = some hz → 0 < hz ∧ hz ≤ MAX_CPU_FREQUENCY_HZ := by
  cases frequency with
  | none => simp [validateFrequency]
  | some hz => simp [validateFrequency, Nat.pos_iff_ne_zero]

/-- A family that is not there has nothing to check. -/
theorem elim_eq_nil_iff {Family : Type} {check : Family → ViolationsV2}
    {wellFormed : Family → Prop} (decides : ∀ value, check value = [] ↔ wellFormed value)
    {family : Option Family} :
    family.elim [] check = [] ↔ ∀ value, family = some value → wellFormed value := by
  cases family with
  | none => simp
  | some value => simp [decides]

/-- A payload of version two passes exactly when it is well formed. -/
theorem validatePayloadV2_eq_nil_iff {payload : StatusPayloadV2} :
    validatePayloadV2 payload = [] ↔ PayloadWellFormed payload := by
  rw [validatePayloadV2, List.append_eq_nil_iff, List.append_eq_nil_iff, List.append_eq_nil_iff,
    List.append_eq_nil_iff, validateV2_eq_nil_iff, validateFrequency_eq_nil_iff,
    elim_eq_nil_iff fun drives => validateDrives_eq_nil_iff,
    elim_eq_nil_iff fun diskIo => validateDiskIo_eq_nil_iff,
    elim_eq_nil_iff fun network => validateNetwork_eq_nil_iff, payloadWellFormed_iff, and_assoc,
    and_assoc, and_assoc]

/-- The checks of both generations find fault with exactly the documents that are not well
formed. -/
theorem passes_iff_wellFormed (snap : StatusSnapshot) (payload : StatusPayloadV2) :
    (validate snap = [] ↔ SnapshotWellFormed snap) ∧
      (validatePayloadV2 payload = [] ↔ PayloadWellFormed payload) :=
  ⟨validate_eq_nil_iff, validatePayloadV2_eq_nil_iff⟩

end Documents

end Gregg.Protocol
