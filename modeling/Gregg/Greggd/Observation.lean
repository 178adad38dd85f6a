import Gregg.Protocol.Scheduler

/-!
# Bounded, memory-only scheduler observability

The observer owns the epoch, the bounded per-job history and the comparison that decides whether a
publication happens. Its job set never changes, so the per-job histories are a function on the job
indices. Each terminal record carries the ordinal of the occurrence it finalizes, and the observer
keeps the list of all the records it ever assigned a sequence to; the code computes with neither.
-/

namespace Gregg

/-- Fixed-capacity tail of one child output stream. -/
structure OutputTail where
  buffer : List UInt8
  capacity : ℕ
  truncated : Bool
  totalBytes : ℕ
  deriving DecidableEq

namespace OutputTail

def new : OutputTail :=
  { buffer := [], capacity := MAX_SCHEDULER_OUTPUT_BYTES, truncated := false, totalBytes := 0 }

def push (tail : OutputTail) (bytes : List UInt8) : OutputTail :=
  let totalBytes := satAdd tail.totalBytes bytes.length
  if bytes.length ≥ tail.capacity then
    { tail with
      buffer := bytes.drop (bytes.length - tail.capacity), truncated := true, totalBytes }
  else
    let overflow := tail.buffer.length + bytes.length - tail.capacity
    { tail with
      buffer := tail.buffer.drop overflow ++ bytes
      truncated := tail.truncated || 0 < overflow
      totalBytes }

def intoWire (tail : OutputTail) : SchedulerOutputV2 :=
  let (text, truncated) := outputTextFromBytes tail.buffer tail.truncated
  { text, truncated }

/-- Whatever a child wrote, its published text is within the wire's budget. -/
theorem textEscapedLen_intoWire_le (tail : OutputTail) :
    textEscapedLen tail.intoWire.text ≤ MAX_SCHEDULER_OUTPUT_TEXT_BYTES :=
  textEscapedLen_outputTextFromBytes_le tail.buffer tail.truncated

end OutputTail

def toLeBytes (value : ℕ) : List ℕ :=
  (List.range 8).map fun position => value >>> (8 * position) % 256

/-- The FNV-1a hash of the little-endian bytes of each value. -/
def fnv1a (values : List ℕ) : ℕ :=
  (values.flatMap toLeBytes).foldl
    (fun hash byte => (hash ^^^ byte) * 0x100000001b3 % 2 ^ 64) 0xcbf29ce484222325

/-- Build a restart discriminator for one scheduler lifetime. -/
def makeEpoch (processId epochCounter startedAtUnixMs : ℕ) : SchedulerEpochV2 :=
  { startedAtUnixMs, nonce := fnv1a [processId, startedAtUnixMs, epochCounter] }

structure JobHistory where
  name : String
  records : List SchedulerRunRecordV2

/-- Append one record and drop the oldest ones past the limit. -/
def JobHistory.pushBounded (history : JobHistory) (limit : ℕ) (record : SchedulerRunRecordV2) :
    JobHistory :=
  let records := history.records ++ [record]
  { history with records := records.drop (records.length - limit) }

/-- Terminal outcome of one finished occurrence, as the execution layer reports it. -/
structure TerminalRecord where
  /-- Which of the job's occurrences this finalizes. -/
  occurrence : ℕ
  scheduledUnixMs : ℕ
  startedUnixMs : Option ℕ
  finishedUnixMs : ℕ
  delayMs : ℕ
  coalesced : Bool
  exitCode : Option ℤ
  signal : Option ℕ
  durationMs : Option ℕ
  stdout : OutputTail
  stderr : OutputTail

def TerminalRecord.withoutChild (occurrence scheduledUnixMs finishedUnixMs delayMs : ℕ)
    (coalesced : Bool) : TerminalRecord where
  occurrence := occurrence
  scheduledUnixMs := scheduledUnixMs
  startedUnixMs := none
  finishedUnixMs := finishedUnixMs
  delayMs := delayMs
  coalesced := coalesced
  exitCode := none
  signal := none
  durationMs := none
  stdout := .new
  stderr := .new

/-- The part of a publication that decides whether state actually changed. -/
structure PublishedComparable where
  epoch : SchedulerEpochV2
  historyRevision : ℕ
  jobs : List SchedulerJobV2
  deriving BEq

/-- One coherent summary/history pair, as handed to `try_publish`. -/
structure SchedulerPublication where
  summary : SchedulerSummaryV2
  history : SchedulerHistoryV2

/-- The pair `try_publish` serializes. -/
def SchedulerPublication.of (generatedAtUnixMs : ℕ) (epoch : SchedulerEpochV2)
    (historyRevision : ℕ) (jobs : List SchedulerJobV2)
    (histories : List SchedulerJobHistoryV2) : SchedulerPublication where
  summary := { schemaVersion := 2, generatedAtUnixMs, epoch, historyRevision, jobs }
  history := { schemaVersion := 2, generatedAtUnixMs, epoch, historyRevision, jobs := histories }

/-- One terminal record the observer was asked for: the job, the occurrence, the sequence the
record was assigned and its outcome. -/
structure IssuedRecord (jobCount : ℕ) where
  index : Fin jobCount
  occurrence : ℕ
  sequence : ℕ
  outcome : SchedulerOutcomeV2
  deriving DecidableEq

/-- Owner of the epoch, the bounded history and publication for a fixed number of jobs. -/
structure SchedulerObserver (jobCount : ℕ) where
  epoch : SchedulerEpochV2
  limit : ℕ
  histories : Fin jobCount → JobHistory
  nextSequence : ℕ
  historyRevision : ℕ
  lastPublished : Option PublishedComparable
  /-- Every record ever issued, oldest first. -/
  issued : List (IssuedRecord jobCount)

namespace SchedulerObserver

variable {jobCount : ℕ}

/-- Create an observer for one scheduler lifetime. -/
def new (jobNames : Fin jobCount → String) (limit : ℕ) (epoch : SchedulerEpochV2) :
    SchedulerObserver jobCount where
  epoch := epoch
  limit := limit
  histories := fun index => { name := jobNames index, records := [] }
  nextSequence := 1
  historyRevision := 0
  lastPublished := none
  issued := []

def wireRecord (sequence : ℕ) (record : TerminalRecord) (outcome : SchedulerOutcomeV2) :
    SchedulerRunRecordV2 where
  sequence := sequence
  scheduledUnixMs := record.scheduledUnixMs
  startedUnixMs := record.startedUnixMs
  finishedUnixMs := record.finishedUnixMs
  outcome := outcome
  exitCode := record.exitCode
  signal := record.signal
  durationMs := record.durationMs
  delayMs := record.delayMs
  coalesced := record.coalesced
  stdout := record.stdout.intoWire
  stderr := record.stderr.intoWire

def recordTerminal (observer : SchedulerObserver jobCount) (index : Fin jobCount)
    (record : TerminalRecord) (outcome : SchedulerOutcomeV2) :
    ℕ × SchedulerObserver jobCount :=
  let sequence := observer.nextSequence
  let advanced :=
    { observer with
      nextSequence := satAdd observer.nextSequence 1
      historyRevision := satAdd observer.historyRevision 1
      issued := observer.issued ++ [⟨index, record.occurrence, sequence, outcome⟩] }
  if observer.limit = 0 then (sequence, advanced)
  else
    (sequence,
      { advanced with
        histories := Function.update observer.histories index
          (JobHistory.pushBounded (observer.histories index) observer.limit
            (wireRecord sequence record outcome)) })

def lastSummary (observer : SchedulerObserver jobCount) (index : Fin jobCount) :
    Option SchedulerRunSummaryV2 :=
  (observer.histories index).records.getLast?.map fun record =>
    { sequence := record.sequence
      scheduledUnixMs := record.scheduledUnixMs
      finishedUnixMs := record.finishedUnixMs
      outcome := record.outcome
      exitCode := record.exitCode
      signal := record.signal
      durationMs := record.durationMs
      delayMs := record.delayMs
      coalesced := record.coalesced }

/-- One history row of a publication. A disabled history still names every job. -/
def wireHistory (observer : SchedulerObserver jobCount) (index : Fin jobCount) :
    SchedulerJobHistoryV2 :=
  { name := (observer.histories index).name
    records := if observer.limit = 0 then [] else (observer.histories index).records }

/-- Publish current live state, but only when it differs from the last publication: the pair
handed to `try_publish`, if any, and the observer after it. `serializes` tells whether the two
documents serialize; when they do not, the previous publication is kept. -/
def publish (observer : SchedulerObserver jobCount) (jobs : List SchedulerJobV2)
    (generatedAtUnixMs : ℕ) (serializes : Bool) :
    Option SchedulerPublication × SchedulerObserver jobCount :=
  let comparable : PublishedComparable :=
    { epoch := observer.epoch, historyRevision := observer.historyRevision, jobs }
  if observer.lastPublished.any fun previous => previous == comparable then (none, observer)
  else
    let publication := SchedulerPublication.of generatedAtUnixMs observer.epoch
      observer.historyRevision jobs (List.ofFn observer.wireHistory)
    (some publication,
      if serializes then { observer with lastPublished := some comparable } else observer)

section Records

variable {observer : SchedulerObserver jobCount} {index : Fin jobCount}
  {record : TerminalRecord} {outcome : SchedulerOutcomeV2}

@[simp]
theorem recordTerminal_issued :
    (observer.recordTerminal index record outcome).2.issued =
      observer.issued ++ [⟨index, record.occurrence, observer.nextSequence, outcome⟩] := by
  unfold recordTerminal
  split <;> rfl

@[simp]
theorem recordTerminal_nextSequence :
    (observer.recordTerminal index record outcome).2.nextSequence =
      satAdd observer.nextSequence 1 := by
  unfold recordTerminal
  split <;> rfl

@[simp]
theorem recordTerminal_epoch :
    (observer.recordTerminal index record outcome).2.epoch = observer.epoch := by
  unfold recordTerminal
  split <;> rfl

@[simp]
theorem recordTerminal_limit :
    (observer.recordTerminal index record outcome).2.limit = observer.limit := by
  unfold recordTerminal
  split <;> rfl

theorem recordTerminal_histories_of_ne {other : Fin jobCount} (otherNe : other ≠ index) :
    (observer.recordTerminal index record outcome).2.histories other =
      observer.histories other := by
  unfold recordTerminal
  split
  · rfl
  · exact Function.update_of_ne otherNe _ _

@[simp]
theorem recordTerminal_histories_name (other : Fin jobCount) :
    ((observer.recordTerminal index record outcome).2.histories other).name =
      (observer.histories other).name := by
  by_cases same : other = index
  · subst same
    unfold recordTerminal
    split
    · rfl
    · simp [JobHistory.pushBounded]
  · rw [recordTerminal_histories_of_ne same]

theorem recordTerminal_histories_of_disabled (disabled : observer.limit = 0) :
    (observer.recordTerminal index record outcome).2.histories = observer.histories := by
  simp [recordTerminal, disabled]

/-- An enabled history keeps the most recent of its earlier records and the new one. -/
theorem recordTerminal_records_suffix (enabled : observer.limit ≠ 0) :
    ((observer.recordTerminal index record outcome).2.histories index).records <:+
      (observer.histories index).records ++ [wireRecord observer.nextSequence record outcome] := by
  simpa [recordTerminal, enabled, JobHistory.pushBounded] using List.drop_suffix _ _

/-- What holds of the retained records and of the new one holds of all records after it. -/
theorem recordTerminal_records_forall {holds : SchedulerRunRecordV2 → Prop}
    (earlier : ∀ other, ∀ found ∈ (observer.histories other).records, holds found)
    (new : holds (wireRecord observer.nextSequence record outcome)) (other : Fin jobCount) :
    ∀ found ∈ ((observer.recordTerminal index record outcome).2.histories other).records,
      holds found := by
  by_cases disabled : observer.limit = 0
  · rw [recordTerminal_histories_of_disabled disabled]
    exact earlier other
  · by_cases same : other = index
    · subst same
      intro found isFound
      rcases List.mem_append.mp ((recordTerminal_records_suffix disabled).subset isFound) with
        before | isNew
      · exact earlier other found before
      · rw [List.mem_singleton.mp isNew]
        exact new
    · rw [recordTerminal_histories_of_ne same]
      exact earlier other

theorem recordTerminal_records_length_le
    (bounded : ∀ other, (observer.histories other).records.length ≤ observer.limit)
    (other : Fin jobCount) :
    ((observer.recordTerminal index record outcome).2.histories other).records.length ≤
      observer.limit := by
  by_cases same : other = index
  · subst same
    by_cases disabled : observer.limit = 0
    · rw [recordTerminal_histories_of_disabled disabled]
      exact bounded other
    · simp only [recordTerminal, disabled, ↓reduceIte, JobHistory.pushBounded,
        Function.update_self, List.length_drop]
      omega
  · rw [recordTerminal_histories_of_ne same]
    exact bounded other

/-- The sequences are the numbers from 1, up to the point where the counter saturates. -/
structure Numbered (observer : SchedulerObserver jobCount) : Prop where
  next : observer.nextSequence = min (observer.issued.length + 1) u64Max
  issued : observer.issued.map (·.sequence) =
    (List.range observer.issued.length).map fun position => min (position + 1) u64Max

theorem Numbered.recordTerminal (numbered : observer.Numbered) :
    (observer.recordTerminal index record outcome).2.Numbered where
  next := by
    simp only [recordTerminal_nextSequence, numbered.next, recordTerminal_issued, satAdd,
      List.length_append, List.length_singleton]
    omega
  issued := by
    simp only [recordTerminal_issued, List.map_append, numbered.issued, List.length_append,
      List.length_singleton, List.range_succ, List.map_cons, List.map_nil, numbered.next]

/-- Below saturation the sequences increase strictly. -/
theorem Numbered.increasing (numbered : observer.Numbered)
    (unsaturated : observer.issued.length ≤ u64Max) :
    observer.issued.Pairwise fun earlier later => earlier.sequence < later.sequence := by
  have increasing : ((List.range observer.issued.length).map
      fun position => min (position + 1) u64Max).Pairwise (· < ·) := by
    rw [List.pairwise_map]
    apply List.Pairwise.imp_of_mem ?_ List.pairwise_lt_range
    intro earlier later _ laterMem lt
    have := List.mem_range.mp laterMem
    omega
  rwa [← numbered.issued, List.pairwise_map] at increasing

/-- Each job's retained sequences are the most recent ones it was assigned. -/
structure Retained (observer : SchedulerObserver jobCount) : Prop where
  recent : ∀ index, (observer.histories index).records.map (·.sequence) <:+
    (observer.issued.filter fun issued => issued.index = index).map (·.sequence)
  disabled : observer.limit = 0 → ∀ index, (observer.histories index).records = []

theorem Retained.recordTerminal (retained : observer.Retained) :
    (observer.recordTerminal index record outcome).2.Retained where
  recent := by
    intro other
    by_cases disabled : observer.limit = 0
    · rw [recordTerminal_histories_of_disabled disabled, retained.disabled disabled other]
      exact List.nil_suffix
    · by_cases same : other = index
      · subst same
        have recent : ((observer.histories other).records ++
              [wireRecord observer.nextSequence record outcome]).map (·.sequence) <:+
            ((observer.recordTerminal other record outcome).2.issued.filter
              fun issued => issued.index = other).map (·.sequence) := by
          simpa [wireRecord, List.suffix_append_self_iff] using retained.recent other
        exact ((recordTerminal_records_suffix disabled).map _).trans recent
      · rw [recordTerminal_histories_of_ne same]
        simpa [Ne.symm same] using retained.recent other
  disabled := by
    intro disabled other
    rw [recordTerminal_limit] at disabled
    rw [recordTerminal_histories_of_disabled disabled]
    exact retained.disabled disabled other

end Records

end SchedulerObserver

/-- Derive the current wire state of one job from scheduler-owned facts. -/
def jobState (running pending : Bool) (gate : Option SchedulerLoadGateV2) :
    SchedulerJobStateV2 :=
  if running then .running
  else if !pending then .idle
  else
    match gate with
    | none => .waitingForSlot
    | some gate => if gate.observed.isNone then .loadUnavailable else .loadHigh

end Gregg
