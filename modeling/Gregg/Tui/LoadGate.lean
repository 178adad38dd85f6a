import Gregg.Protocol.Scheduler

/-!
# The load gate of a cron row

The line a cron pane renders for the load gate of a job. The relation it asserts is inferred from
the state of the row, as the document carries the two numbers but not how they compared.
-/

namespace Gregg

/-- The gate as a client decodes it. JSON has no number for a reading that is not finite: the
daemon writes `null`, which reads back as no observation. -/
def SchedulerLoadGateV2.received (gate : SchedulerLoadGateV2) : SchedulerLoadGateV2 :=
  { gate with observed := gate.observed.filter F32.isFinite }

def SchedulerJobV2.received (job : SchedulerJobV2) : SchedulerJobV2 :=
  { job with load := job.load.map SchedulerLoadGateV2.received }

namespace Tui

/-- What a load-gate line asserts of the observation. -/
inductive GateRelation where
  | above (observed : F32)
  | atMost (observed : F32)
  | unavailable
  deriving DecidableEq

/-- A load-gate line, with the retry context of a delayed job. -/
structure LoadGateLabel where
  lead : String
  window : String
  relation : GateRelation
  threshold : F32
  retry : Option (Option ℕ)
  deriving DecidableEq

/-- `load_gate_label`, or `none` for a time-only job. -/
def loadGateLabel (inert : String → String) (job : SchedulerJobV2) : Option LoadGateLabel :=
  job.load.map fun gate =>
    let (lead, relation) : String × GateRelation :=
      match job.state, gate.observed with
      | .loadHigh, some observed => ("", .above observed)
      | .running, some observed => ("start ", .atMost observed)
      | .idle, some observed => ("last gate ", .atMost observed)
      | .waitingForSlot, some observed => ("last gate ", .atMost observed)
      | .running, none => ("start ", .unavailable)
      | .idle, none => ("last gate ", .unavailable)
      | .waitingForSlot, none => ("last gate ", .unavailable)
      | .loadHigh, none => ("", .unavailable)
      | .loadUnavailable, _ => ("", .unavailable)
    { lead
      window := inert gate.window
      relation
      threshold := gate.threshold
      retry :=
        match job.state with
        | .loadHigh => some job.nextRetryUnixMs
        | .loadUnavailable => some job.nextRetryUnixMs
        | _ => none }

/-- The text of the line. `fixed` is `{:.2}` and `countdown` is `countdown_to`. -/
def LoadGateLabel.text (label : LoadGateLabel) (fixed : F32 → String) (countdown : ℕ → String) :
    String :=
  let load := s!"{label.lead}load{label.window}"
  let line :=
    match label.relation with
    | .above observed => s!"{load} {fixed observed} > {fixed label.threshold}"
    | .atMost observed => s!"{load} {fixed observed} <= {fixed label.threshold}"
    | .unavailable => s!"{load} unavailable (max {fixed label.threshold})"
  match label.retry with
  | none => line
  | some none => s!"{line} retry pending"
  | some (some retry) => s!"{line} retry {countdown retry}"

example : (loadGateLabel id
      { name := "backup", schedule := "@hourly", nextDueUnixMs := 0, state := .loadHigh,
        load := some ⟨"15m", .finite 1, some (.finite 5)⟩, pendingSinceUnixMs := some 0,
        nextRetryUnixMs := none, runningSinceUnixMs := none, last := none }).map
      (·.text (fun value => if value = .finite 1 then "1.00" else "5.00") fun _ => "1m") =
    some "load15m 5.00 > 1.00 retry pending" := by
  decide

/-- A load-gate line that is true of its row: the comparison it asserts holds of the published
numbers, and a missing observation is named as unavailable. -/
structure LoadGateLabel.Truthful (label : LoadGateLabel) (gate : SchedulerLoadGateV2) : Prop where
  threshold : label.threshold = gate.threshold
  above : ∀ observed, label.relation = .above observed →
    gate.observed = some observed ∧ gate.threshold.lt observed = true
  atMost : ∀ observed, label.relation = .atMost observed →
    gate.observed = some observed ∧ observed.le gate.threshold = true
  missing : gate.observed = none → label.relation = .unavailable

/-- The line rendered for the row is true of it. -/
def GateTruthful (inert : String → String) (job : SchedulerJobV2) : Prop :=
  ∀ gate ∈ job.load, ∀ label ∈ loadGateLabel inert job, label.Truthful gate

/-- The comparison a row's state stands for. -/
def stateRelation (state : SchedulerJobStateV2) (threshold observed : F32) : Prop :=
  match state with
  | .loadHigh => threshold.lt observed = true
  | .loadUnavailable => True
  | _ => observed.le threshold = true

/-- A row is rendered truthfully exactly when its numbers compare as its state says. -/
theorem gateTruthful_iff {inert : String → String} {job : SchedulerJobV2} :
    GateTruthful inert job ↔ ∀ gate ∈ job.load, ∀ observed ∈ gate.observed,
      stateRelation job.state gate.threshold observed := by
  rcases job with ⟨name, schedule, nextDueUnixMs, state, load, pendingSinceUnixMs,
    nextRetryUnixMs, runningSinceUnixMs, last⟩
  cases load with
  | none => simp [GateTruthful]
  | some gate =>
      rcases gate with ⟨window, threshold, observed⟩
      constructor
      · rintro truthful _ ⟨⟩ value ⟨⟩
        have label := truthful _ rfl _ rfl
        cases state with
        | loadHigh => exact (label.above value rfl).2
        | loadUnavailable => exact trivial
        | idle => exact (label.atMost value rfl).2
        | waitingForSlot => exact (label.atMost value rfl).2
        | running => exact (label.atMost value rfl).2
      · rintro compares _ ⟨⟩ _ ⟨⟩
        cases observed with
        | none => refine ⟨rfl, ?_, ?_, ?_⟩ <;> cases state <;> simp
        | some value =>
            have compares := compares _ rfl value rfl
            cases state with
            | loadHigh => exact ⟨rfl, by rintro _ ⟨⟩; exact ⟨rfl, compares⟩, by simp, by simp⟩
            | loadUnavailable => exact ⟨rfl, by simp, by simp, by simp⟩
            | idle => exact ⟨rfl, by simp, by rintro _ ⟨⟩; exact ⟨rfl, compares⟩, by simp⟩
            | waitingForSlot =>
                exact ⟨rfl, by simp, by rintro _ ⟨⟩; exact ⟨rfl, compares⟩, by simp⟩
            | running => exact ⟨rfl, by simp, by rintro _ ⟨⟩; exact ⟨rfl, compares⟩, by simp⟩

end Tui

end Gregg
