import Gregg.Protocol.Scheduler
import Gregg.Protocol.Status

/-!
# Normalized snapshots

The client keeps one form of telemetry for both versions of the wire schema. Either version is
converted by two routines, one for a payload that is borrowed and one for a payload that is given
away.
-/

namespace Gregg.Fleet

open Protocol

structure NormalizedDrive where
  name : String
  usedBytes : ℕ
  totalBytes : ℕ
  availableBytes : Option ℕ
  deriving DecidableEq

structure NormalizedDiskIoDevice where
  id : String
  name : String
  readBytesPerSec : ℕ
  writeBytesPerSec : ℕ
  driveName : Option String
  deriving DecidableEq

structure NormalizedDiskIo where
  aggregateReadBytesPerSec : ℕ
  aggregateWriteBytesPerSec : ℕ
  devices : List NormalizedDiskIoDevice
  deriving DecidableEq

structure NormalizedNetworkInterface where
  id : String
  name : String
  rxBytesPerSec : ℕ
  txBytesPerSec : ℕ
  rxCapacityBps : Option ℕ
  txCapacityBps : Option ℕ
  isLoopback : Bool
  aggregateMember : Bool
  deriving DecidableEq

structure NormalizedNetwork where
  aggregateRxBytesPerSec : ℕ
  aggregateTxBytesPerSec : ℕ
  aggregateRxCapacityBps : Option ℕ
  aggregateTxCapacityBps : Option ℕ
  interfaces : List NormalizedNetworkInterface
  deriving DecidableEq

/-- Swap utilization, from either version. -/
structure SwapMetrics where
  usedBytes : ℕ
  totalBytes : ℕ
  usagePct : F32
  deriving BEq

/-- Commit charge, from version two only. -/
structure CommitMetrics where
  usedBytes : ℕ
  limitBytes : ℕ
  usagePct : F32
  deriving BEq

/-- What the client keeps of a snapshot; `none` stands for a metric the platform lacks. -/
structure NormalizedSnapshot where
  wireVersion : ℕ
  observedAtUnixMs : ℕ
  sampleIntervalMs : ℕ
  cpuIowaitSupported : Bool
  loadSupported : Bool
  swapSupported : Bool
  commitSupported : Bool
  system : SystemIdentity
  logicalCores : ℕ
  usagePct : F32
  iowaitPct : Option F32
  cpuFrequencyHz : Option ℕ
  load : Option Protocol.LoadAverage
  memory : MemoryMetrics
  swap : Option SwapMetrics
  commit : Option CommitMetrics
  drives : Option (List NormalizedDrive)
  diskIo : Option NormalizedDiskIo
  network : Option NormalizedNetwork
  deriving BEq

def normalizeDiskIo (payload : DiskIoPayload) : NormalizedDiskIo where
  aggregateReadBytesPerSec := payload.aggregateReadBytesPerSec
  aggregateWriteBytesPerSec := payload.aggregateWriteBytesPerSec
  devices := payload.devices.map fun device =>
    { id := device.id
      name := device.name
      readBytesPerSec := device.readBytesPerSec
      writeBytesPerSec := device.writeBytesPerSec
      driveName := device.driveName }

def normalizeDiskIoOwned : DiskIoPayload → NormalizedDiskIo
  | ⟨aggregateReadBytesPerSec, aggregateWriteBytesPerSec, devices⟩ =>
    { aggregateReadBytesPerSec
      aggregateWriteBytesPerSec
      devices := devices.map fun ⟨id, name, readBytesPerSec, writeBytesPerSec, driveName⟩ =>
        { id, name, readBytesPerSec, writeBytesPerSec, driveName } }

def normalizeNetwork (payload : NetworkPayload) : NormalizedNetwork where
  aggregateRxBytesPerSec := payload.aggregateRxBytesPerSec
  aggregateTxBytesPerSec := payload.aggregateTxBytesPerSec
  aggregateRxCapacityBps := payload.aggregateRxCapacityBps
  aggregateTxCapacityBps := payload.aggregateTxCapacityBps
  interfaces := payload.interfaces.map fun interface =>
    { id := interface.id
      name := interface.name
      rxBytesPerSec := interface.rxBytesPerSec
      txBytesPerSec := interface.txBytesPerSec
      rxCapacityBps := interface.rxCapacityBps
      txCapacityBps := interface.txCapacityBps
      isLoopback := interface.isLoopback
      aggregateMember := interface.aggregateMember }

def normalizeNetworkOwned : NetworkPayload → NormalizedNetwork
  | ⟨aggregateRxBytesPerSec, aggregateTxBytesPerSec, aggregateRxCapacityBps,
      aggregateTxCapacityBps, interfaces⟩ =>
    { aggregateRxBytesPerSec
      aggregateTxBytesPerSec
      aggregateRxCapacityBps
      aggregateTxCapacityBps
      interfaces := interfaces.map fun ⟨id, name, rxBytesPerSec, txBytesPerSec, rxCapacityBps,
          txCapacityBps, isLoopback, aggregateMember⟩ =>
        { id, name, rxBytesPerSec, txBytesPerSec, rxCapacityBps, txCapacityBps, isLoopback,
          aggregateMember } }

namespace NormalizedSnapshot

/-- Normalize an owned v1 wire snapshot. -/
def fromV1Owned : StatusSnapshot → NormalizedSnapshot
  | ⟨_, observedAtUnixMs, sampleIntervalMs, capabilities, system, cpu, load, memory, swap⟩ =>
    { wireVersion := SCHEMA_VERSION_V1
      observedAtUnixMs
      sampleIntervalMs
      cpuIowaitSupported := capabilities.cpuIowait
      loadSupported := true
      swapSupported := true
      commitSupported := false
      system
      logicalCores := cpu.logicalCores
      usagePct := cpu.usagePct
      iowaitPct := cpu.iowaitPct
      cpuFrequencyHz := none
      load := some load
      memory
      swap := some
        { usedBytes := swap.usedBytes
          totalBytes := swap.totalBytes
          usagePct := swap.usagePct }
      commit := none
      drives := none
      diskIo := none
      network := none }

/-- Normalize a v1 wire snapshot. -/
def fromV1 (snap : StatusSnapshot) : NormalizedSnapshot where
  wireVersion := SCHEMA_VERSION_V1
  observedAtUnixMs := snap.observedAtUnixMs
  sampleIntervalMs := snap.sampleIntervalMs
  cpuIowaitSupported := snap.capabilities.cpuIowait
  loadSupported := true
  swapSupported := true
  commitSupported := false
  system := snap.system
  logicalCores := snap.cpu.logicalCores
  usagePct := snap.cpu.usagePct
  iowaitPct := snap.cpu.iowaitPct
  cpuFrequencyHz := none
  load := some snap.load
  memory := snap.memory
  swap := some
    { usedBytes := snap.swap.usedBytes
      totalBytes := snap.swap.totalBytes
      usagePct := snap.swap.usagePct }
  commit := none
  drives := none
  diskIo := none
  network := none

def fromV2Parts (snap : StatusSnapshotV2) (drives : Option (List NormalizedDrive))
    (cpuFrequencyHz : Option ℕ) (diskIo : Option NormalizedDiskIo)
    (network : Option NormalizedNetwork) : NormalizedSnapshot where
  wireVersion := SCHEMA_VERSION_V2
  observedAtUnixMs := snap.observedAtUnixMs
  sampleIntervalMs := snap.sampleIntervalMs
  cpuIowaitSupported := snap.capabilities.cpuIowait
  loadSupported := snap.capabilities.loadAverage
  swapSupported := snap.capabilities.swap
  commitSupported := snap.capabilities.memoryCommit
  system := snap.system
  logicalCores := snap.cpu.logicalCores
  usagePct := snap.cpu.usagePct
  iowaitPct := snap.cpu.iowaitPct
  cpuFrequencyHz
  load := snap.load
  memory := snap.memory
  swap := snap.swap.map fun s =>
    { usedBytes := s.usedBytes
      totalBytes := s.totalBytes
      usagePct := s.usagePct }
  commit := snap.commit.map fun c =>
    { usedBytes := c.usedBytes
      limitBytes := c.limitBytes
      usagePct := c.usagePct }
  drives
  diskIo
  network

/-- Normalize a v2 status payload. -/
def fromV2Payload (payload : StatusPayloadV2) : NormalizedSnapshot :=
  let drives := payload.drives.map fun drives => drives.map fun drive =>
    { name := drive.name
      usedBytes := drive.usedBytes
      totalBytes := drive.totalBytes
      availableBytes := drive.availableBytes }
  let diskIo := payload.diskIo.map normalizeDiskIo
  let network := payload.network.map normalizeNetwork
  fromV2Parts payload.snapshot drives payload.cpuFrequencyHz diskIo network

/-- Normalize an owned v2 status payload. -/
def fromV2PayloadOwned : StatusPayloadV2 → NormalizedSnapshot
  | ⟨⟨_, observedAtUnixMs, sampleIntervalMs, capabilities, system, cpu, load, memory, swap, commit⟩,
      drives, cpuFrequencyHz, diskIo, network⟩ =>
    { wireVersion := SCHEMA_VERSION_V2
      observedAtUnixMs
      sampleIntervalMs
      cpuIowaitSupported := capabilities.cpuIowait
      loadSupported := capabilities.loadAverage
      swapSupported := capabilities.swap
      commitSupported := capabilities.memoryCommit
      system
      logicalCores := cpu.logicalCores
      usagePct := cpu.usagePct
      iowaitPct := cpu.iowaitPct
      cpuFrequencyHz
      load
      memory
      swap := swap.map fun s =>
        { usedBytes := s.usedBytes
          totalBytes := s.totalBytes
          usagePct := s.usagePct }
      commit := commit.map fun c =>
        { usedBytes := c.usedBytes
          limitBytes := c.limitBytes
          usagePct := c.usagePct }
      drives := drives.map fun drives => drives.map fun ⟨name, usedBytes, totalBytes,
          availableBytes⟩ =>
        { name, usedBytes, totalBytes, availableBytes }
      diskIo := diskIo.map normalizeDiskIoOwned
      network := network.map normalizeNetworkOwned }

theorem fromV1Owned_eq (snap : StatusSnapshot) : fromV1Owned snap = fromV1 snap :=
  rfl

theorem fromV2PayloadOwned_eq (payload : StatusPayloadV2) :
    fromV2PayloadOwned payload = fromV2Payload payload :=
  rfl

/-- No float of the snapshot is infinite or no number. -/
structure Finite (snapshot : NormalizedSnapshot) : Prop where
  usage : snapshot.usagePct.isFinite = true
  iowait : ∀ value ∈ snapshot.iowaitPct, value.isFinite = true
  load : ∀ load ∈ snapshot.load,
    load.one.isFinite = true ∧ load.five.isFinite = true ∧ load.fifteen.isFinite = true
  memory : snapshot.memory.usagePct.isFinite = true
  swap : ∀ swap ∈ snapshot.swap, swap.usagePct.isFinite = true
  commit : ∀ commit ∈ snapshot.commit, commit.usagePct.isFinite = true

end NormalizedSnapshot

section Equality

/-- Values that compare equal are the same. -/
def SoundEq (Value : Type) [BEq Value] : Prop :=
  ∀ left right : Value, (left == right) = true → left = right

theorem SoundEq.option {Value : Type} [BEq Value] (sound : SoundEq Value) :
    SoundEq (Option Value) := by
  intro left right same
  cases left with
  | none =>
      cases right with
      | none => rfl
      | some value => cases same
  | some value =>
      cases right with
      | none => cases same
      | some other => rw [sound value other same]

theorem soundEq_f32 : SoundEq F32 := by
  intro left right same
  change (left.le right && right.le left) = true at same
  rw [Bool.and_eq_true] at same
  rcases same with ⟨le, ge⟩
  cases left with
  | finite value =>
      cases right with
      | finite other =>
          have below : value ≤ other := of_decide_eq_true le
          have above : other ≤ value := of_decide_eq_true ge
          rw [Rat.le_antisymm below above]
      | infinity negative => cases negative <;> simp_all [F32.le]
      | nan => simp [F32.le] at le
  | infinity negative =>
      cases right with
      | finite other => cases negative <;> simp_all [F32.le]
      | infinity other => cases negative <;> cases other <;> simp_all [F32.le]
      | nan => simp [F32.le] at le
  | nan => simp [F32.le] at le

theorem beq_self_f32 {value : F32} (finite : value.isFinite = true) : (value == value) = true := by
  cases value with
  | finite value =>
      change (decide (value ≤ value) && decide (value ≤ value)) = true
      simp
  | infinity negative => cases finite
  | nan => cases finite

theorem soundEq_load : SoundEq Protocol.LoadAverage := by
  rintro ⟨one, five, fifteen⟩ ⟨otherOne, otherFive, otherFifteen⟩ same
  change Protocol.instBEqLoadAverage.beq _ _ = true at same
  simp only [Protocol.instBEqLoadAverage.beq, Bool.and_eq_true] at same
  rw [soundEq_f32 _ _ same.1, soundEq_f32 _ _ same.2.1, soundEq_f32 _ _ same.2.2]

theorem soundEq_memory : SoundEq MemoryMetrics := by
  rintro ⟨used, total, usage⟩ ⟨otherUsed, otherTotal, otherUsage⟩ same
  change Protocol.instBEqMemoryMetrics.beq _ _ = true at same
  simp only [Protocol.instBEqMemoryMetrics.beq, Bool.and_eq_true, beq_iff_eq] at same
  rw [same.1, same.2.1, soundEq_f32 _ _ same.2.2]

theorem soundEq_swap : SoundEq SwapMetrics := by
  rintro ⟨used, total, usage⟩ ⟨otherUsed, otherTotal, otherUsage⟩ same
  change instBEqSwapMetrics.beq _ _ = true at same
  simp only [instBEqSwapMetrics.beq, Bool.and_eq_true, beq_iff_eq] at same
  rw [same.1, same.2.1, soundEq_f32 _ _ same.2.2]

theorem soundEq_commit : SoundEq CommitMetrics := by
  rintro ⟨used, limit, usage⟩ ⟨otherUsed, otherLimit, otherUsage⟩ same
  change instBEqCommitMetrics.beq _ _ = true at same
  simp only [instBEqCommitMetrics.beq, Bool.and_eq_true, beq_iff_eq] at same
  rw [same.1, same.2.1, soundEq_f32 _ _ same.2.2]

theorem soundEq_snapshot : SoundEq NormalizedSnapshot := by
  intro left right same
  cases left
  cases right
  change instBEqNormalizedSnapshot.beq _ _ = true at same
  simp only [instBEqNormalizedSnapshot.beq, Bool.and_eq_true, beq_iff_eq] at same
  rcases same with ⟨rfl, rfl, rfl, rfl, rfl, rfl, rfl, rfl, rfl, usage, iowait, rfl, load, memory,
    swap, commit, rfl, rfl, rfl⟩
  rw [soundEq_f32 _ _ usage, soundEq_f32.option _ _ iowait, soundEq_load.option _ _ load,
    soundEq_memory _ _ memory, soundEq_swap.option _ _ swap, soundEq_commit.option _ _ commit]

theorem beq_self_option {Value : Type} [BEq Value] {held : Option Value}
    (reflexive : ∀ value ∈ held, (value == value) = true) : (held == held) = true := by
  cases held with
  | none => rfl
  | some value => exact reflexive value rfl

/-- Finite snapshots compare equal to themselves. -/
theorem NormalizedSnapshot.Finite.beq_self {snapshot : NormalizedSnapshot}
    (finite : snapshot.Finite) : (snapshot == snapshot) = true := by
  have load : (snapshot.load == snapshot.load) = true := by
    apply beq_self_option
    intro load held
    rcases finite.load load held with ⟨one, five, fifteen⟩
    change Protocol.instBEqLoadAverage.beq _ _ = true
    simp only [Protocol.instBEqLoadAverage.beq, beq_self_f32 one, beq_self_f32 five,
      beq_self_f32 fifteen, Bool.and_self]
  have memory : (snapshot.memory == snapshot.memory) = true := by
    change Protocol.instBEqMemoryMetrics.beq _ _ = true
    simp only [Protocol.instBEqMemoryMetrics.beq, beq_self_f32 finite.memory, beq_self_eq_true,
      Bool.and_self]
  have swap : (snapshot.swap == snapshot.swap) = true := by
    apply beq_self_option
    intro swap held
    change instBEqSwapMetrics.beq _ _ = true
    simp only [instBEqSwapMetrics.beq, beq_self_f32 (finite.swap swap held), beq_self_eq_true,
      Bool.and_self]
  have commit : (snapshot.commit == snapshot.commit) = true := by
    apply beq_self_option
    intro commit held
    change instBEqCommitMetrics.beq _ _ = true
    simp only [instBEqCommitMetrics.beq, beq_self_f32 (finite.commit commit held),
      beq_self_eq_true, Bool.and_self]
  have usage := beq_self_f32 finite.usage
  have iowait : (snapshot.iowaitPct == snapshot.iowaitPct) = true :=
    beq_self_option fun value held => beq_self_f32 (finite.iowait value held)
  cases snapshot
  change instBEqNormalizedSnapshot.beq _ _ = true
  simp only [instBEqNormalizedSnapshot.beq, beq_self_eq_true, Bool.true_and]
  simp only [usage, iowait, load, memory, swap, commit, Bool.and_self]

end Equality

end Gregg.Fleet
