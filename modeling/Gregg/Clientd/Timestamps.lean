import Mathlib.Algebra.Order.Group.Int
import Mathlib.Algebra.Order.Group.Abs
import Mathlib.Data.List.Forall2
import Gregg.RustStd

/-!
# Ages across the local connection

The daemon publishes when a target last answered in Unix milliseconds, and a frontend turns the
stamps back into instants of its own monotonic clock. Both clocks are read in nanoseconds. Of a
document only the stamps are followed here.
-/

namespace Gregg.Clientd

/-- `now_unix_ms`, from the wall clock in nanoseconds after the Unix epoch. -/
def nowUnixMs (wall : ℤ) : ℕ :=
  toU64 (wall / 1000000).toNat

def elapsedToUnixMs (value : Option ℤ) (now : ℤ) (nowUnixMs : ℕ) : Option ℕ :=
  value.map fun value => satAdd (toU64 ((now - value).toNat / 1000000)) nowUnixMs

/-- `Instant::checked_sub`, where `earliest` is the first instant the platform can represent. -/
def checkedSub (earliest time : ℤ) (duration : ℕ) : Option ℤ :=
  if earliest ≤ time - duration then some (time - duration) else none

def instantFromUnixMs (earliest : ℤ) (value : Option ℕ) (now : ℤ) (nowUnixMs : ℕ) : Option ℤ :=
  value.map fun value => (checkedSub earliest now (fromMillis (nowUnixMs - value))).getD now

/-- When a system last answered and was last asked. -/
structure SystemTimes (Stamp : Type) where
  lastSuccess : Option Stamp
  lastAttempt : Option Stamp
  deriving DecidableEq

/-- The same for the two planes of the EggPool pane. -/
structure EggpoolTimes (Stamp : Type) where
  lastSuccess : Option Stamp
  lastAttempt : Option Stamp
  lastHealthSuccess : Option Stamp
  lastHealthAttempt : Option Stamp
  deriving DecidableEq

structure FleetTimes (Stamp : Type) where
  systems : List (SystemTimes Stamp)
  eggpool : Option (EggpoolTimes Stamp)
  deriving DecidableEq

/-- The stamps of `system_to_dto`. -/
def systemToDto (now : ℤ) (nowUnixMs : ℕ) (system : SystemTimes ℤ) : SystemTimes ℕ where
  lastSuccess := elapsedToUnixMs system.lastSuccess now nowUnixMs
  lastAttempt := elapsedToUnixMs system.lastAttempt now nowUnixMs

def eggpoolToDto (now : ℤ) (nowUnixMs : ℕ) (eggpool : EggpoolTimes ℤ) : EggpoolTimes ℕ where
  lastSuccess := elapsedToUnixMs eggpool.lastSuccess now nowUnixMs
  lastAttempt := elapsedToUnixMs eggpool.lastAttempt now nowUnixMs
  lastHealthSuccess := elapsedToUnixMs eggpool.lastHealthSuccess now nowUnixMs
  lastHealthAttempt := elapsedToUnixMs eggpool.lastHealthAttempt now nowUnixMs

/-- The stamps of a document produced at a reading of both clocks. -/
def publishTimes (fleet : FleetTimes ℤ) (now wall : ℤ) : FleetTimes ℕ where
  systems := fleet.systems.map (systemToDto now (nowUnixMs wall))
  eggpool := fleet.eggpool.map (eggpoolToDto now (nowUnixMs wall))

def systemFromDto (earliest now : ℤ) (nowUnixMs : ℕ) (dto : SystemTimes ℕ) : SystemTimes ℤ where
  lastSuccess := instantFromUnixMs earliest dto.lastSuccess now nowUnixMs
  lastAttempt := instantFromUnixMs earliest dto.lastAttempt now nowUnixMs

def eggpoolFromDto (earliest now : ℤ) (nowUnixMs : ℕ) (dto : EggpoolTimes ℕ) : EggpoolTimes ℤ where
  lastSuccess := instantFromUnixMs earliest dto.lastSuccess now nowUnixMs
  lastAttempt := instantFromUnixMs earliest dto.lastAttempt now nowUnixMs
  lastHealthSuccess := instantFromUnixMs earliest dto.lastHealthSuccess now nowUnixMs
  lastHealthAttempt := instantFromUnixMs earliest dto.lastHealthAttempt now nowUnixMs

/-- The instants that `adopt_snapshot` rebuilds from a document. -/
def adoptTimes (earliest : ℤ) (document : FleetTimes ℕ) (now wall : ℤ) : FleetTimes ℤ where
  systems := document.systems.map (systemFromDto earliest now (nowUnixMs wall))
  eggpool := document.eggpool.map (eggpoolFromDto earliest now (nowUnixMs wall))

namespace FleetTimes

variable {Stamp : Type}

def systemStamps (system : SystemTimes Stamp) : List (Option Stamp) :=
  [system.lastSuccess, system.lastAttempt]

def eggpoolStamps (eggpool : EggpoolTimes Stamp) : List (Option Stamp) :=
  [eggpool.lastSuccess, eggpool.lastAttempt, eggpool.lastHealthSuccess, eggpool.lastHealthAttempt]

/-- Every stamp of a fleet, in a fixed order. -/
def stamps (fleet : FleetTimes Stamp) : List (Option Stamp) :=
  fleet.systems.flatMap systemStamps ++ (fleet.eggpool.map eggpoolStamps).getD []

end FleetTimes

/-- A reconstructed instant is less than two milliseconds away, and a missing one stays missing. -/
def Near : Option ℤ → Option ℤ → Prop
  | some event, some shown => |shown - event| < 2 * 1000000
  | none, none => True
  | _, _ => False

section Reconstruction

variable {earliest event publication adoption wall : ℤ}

/-- The instant `adopt_snapshot` rebuilds for an event, `adoption - publication` after the document
was produced. -/
def reconstructed (earliest publication adoption wall event : ℤ) : ℤ :=
  let published := satAdd (toU64 ((publication - event).toNat / 1000000)) (nowUnixMs wall)
  (checkedSub earliest adoption
    (fromMillis (nowUnixMs (wall + (adoption - publication)) - published))).getD adoption

/-- The lag between an event and its publication counted twice, once in whole milliseconds, and
what the two wall readings miss of the time since. -/
def doubledLag (publication adoption wall event : ℤ) : ℤ :=
  (publication - event) + (publication - event) / 1000000 * 1000000 +
    ((adoption - publication) -
      ((nowUnixMs (wall + (adoption - publication)) : ℤ) - nowUnixMs wall) * 1000000)

/-- The document is adopted right after the event, or the doubled lag is lost in the rounding. -/
def AgeSurvives (earliest publication adoption wall event : ℤ) : Prop :=
  adoption - event < 2 * 1000000 ∨
    doubledLag publication adoption wall event < 2 * 1000000 ∧
      earliest ≤ event + doubledLag publication adoption wall event

theorem nowUnixMs_le : nowUnixMs wall ≤ u64Max :=
  Nat.min_le_right _ _

/-- Neither saturation of a published stamp can be seen in the age it is read as. -/
theorem shownAge_eq {reading lag published : ℕ} (bounded : reading ≤ u64Max) :
    reading - satAdd (toU64 lag) published = reading - (lag + published) := by
  unfold satAdd toU64
  omega

/-- Two wall readings differ by less than a millisecond more than the time between them. -/
theorem readings_lt {passed : ℤ} (forward : 0 ≤ passed) :
    ((nowUnixMs (wall + passed) : ℤ) - nowUnixMs wall) * 1000000 < passed + 1000000 := by
  unfold nowUnixMs toU64
  omega

/-- The wall clock is read again after the lag, so the age that is left misses it twice. -/
theorem reconstructed_near_iff (past : event ≤ publication) (after : publication ≤ adoption) :
    |reconstructed earliest publication adoption wall event - event| < 2 * 1000000 ↔
      AgeSurvives earliest publication adoption wall event := by
  have gap : ((nowUnixMs (wall + _) : ℤ) - nowUnixMs wall) * 1000000 < _ :=
    readings_lt (sub_nonneg.mpr after)
  unfold AgeSurvives doubledLag reconstructed fromMillis checkedSub
  simp only
  rw [shownAge_eq nowUnixMs_le, abs_lt]
  generalize nowUnixMs (wall + (adoption - publication)) = readLater at gap ⊢
  generalize nowUnixMs wall = readFirst at gap ⊢
  split
  · rw [Option.getD_some]
    omega
  · rw [Option.getD_none]
    omega

theorem reconstructed_of_publish (value : Option ℤ) :
    instantFromUnixMs earliest (elapsedToUnixMs value publication (nowUnixMs wall)) adoption
        (nowUnixMs (wall + (adoption - publication))) =
      value.map (reconstructed earliest publication adoption wall) := by
  cases value with
  | none => rfl
  | some event => rfl

end Reconstruction

/-- A document of the fleet as a frontend reads it back. -/
def adopted (earliest : ℤ) (fleet : FleetTimes ℤ) (publication adoption wall : ℤ) : FleetTimes ℤ :=
  adoptTimes earliest (publishTimes fleet publication wall) adoption
    (wall + (adoption - publication))

theorem stamps_adopted (earliest : ℤ) (fleet : FleetTimes ℤ) (publication adoption wall : ℤ) :
    (adopted earliest fleet publication adoption wall).stamps =
      fleet.stamps.map (Option.map (reconstructed earliest publication adoption wall)) := by
  rcases fleet with ⟨systems, eggpool⟩
  have ofSystems : ((systems.map (systemToDto publication (nowUnixMs wall))).map
      (systemFromDto earliest adoption (nowUnixMs (wall + (adoption - publication))))).flatMap
        FleetTimes.systemStamps =
      (systems.flatMap FleetTimes.systemStamps).map
        (Option.map (reconstructed earliest publication adoption wall)) := by
    induction systems with
    | nil => rfl
    | cons system systems ih =>
        simp only [List.map_cons, List.flatMap_cons, List.map_append, ih]
        simp [FleetTimes.systemStamps, systemFromDto, systemToDto, reconstructed_of_publish]
  simp only [adopted, adoptTimes, publishTimes, FleetTimes.stamps, List.map_append, ofSystems]
  cases eggpool with
  | none => rfl
  | some eggpool =>
      simp [FleetTimes.eggpoolStamps, eggpoolFromDto, eggpoolToDto, reconstructed_of_publish]

/-- The ages of a fleet survive the connection if and only if for each stamp the document is adopted
within two milliseconds of the event, or the lag before its publication is lost in the rounding. -/
theorem ages_survive_iff (earliest : ℤ) (fleet : FleetTimes ℤ) (publication adoption wall : ℤ)
    (past : ∀ event, some event ∈ fleet.stamps → event ≤ publication)
    (after : publication ≤ adoption) :
    List.Forall₂ Near fleet.stamps (adopted earliest fleet publication adoption wall).stamps ↔
      ∀ event, some event ∈ fleet.stamps →
        AgeSurvives earliest publication adoption wall event := by
  rw [stamps_adopted, List.forall₂_map_right_iff, List.forall₂_same]
  constructor
  · intro near event member
    exact (reconstructed_near_iff (past event member) after).mp (near (some event) member)
  · intro survives stamp member
    cases stamp with
    | none => trivial
    | some event =>
        exact (reconstructed_near_iff (past event member) after).mpr (survives event member)

section Example

/-- One system that last answered three seconds before its document was produced. -/
def quietFleet : FleetTimes ℤ where
  systems := [⟨some 7000000000, none⟩]
  eggpool := none

/-- Published less than a millisecond after the answer, the age is right at any later time. -/
theorem ages_survive_promptly :
    (∀ event, some event ∈ quietFleet.stamps → event ≤ 7000400000) ∧
      (7000400000 : ℤ) ≤ 9000000000 ∧
      List.Forall₂ Near quietFleet.stamps
        (adopted 0 quietFleet 7000400000 9000000000 1700000000000000000).stamps := by
  have past : ∀ event, some event ∈ quietFleet.stamps → event ≤ 7000400000 := by
    simp [quietFleet, FleetTimes.stamps, FleetTimes.systemStamps]
  have after : (7000400000 : ℤ) ≤ 9000000000 := by decide +kernel
  refine ⟨past, after, ?_⟩
  apply (ages_survive_iff 0 quietFleet 7000400000 9000000000 1700000000000000000 past after).mpr
  intro event member
  have only : event = 7000000000 := by
    simpa [quietFleet, FleetTimes.stamps, FleetTimes.systemStamps] using member
  rw [only]
  right
  decide +kernel

/-- A stamp of an event is later than its publication: a frontend that adopts the document a second
later takes the system for one that answered just now. -/
theorem adopted_quietFleet :
    (adopted 0 quietFleet 10000000000 11000000000 1700000000000000000).stamps =
        [some 11000000000, none] ∧
      ¬List.Forall₂ Near quietFleet.stamps
        (adopted 0 quietFleet 10000000000 11000000000 1700000000000000000).stamps := by
  have shown : (adopted 0 quietFleet 10000000000 11000000000 1700000000000000000).stamps =
      [some 11000000000, none] := by decide +kernel
  refine ⟨shown, ?_⟩
  rw [shown]
  intro kept
  have far : ¬|(11000000000 : ℤ) - 7000000000| < 2 * 1000000 := by decide +kernel
  rcases kept with _ | ⟨near, -⟩
  exact far near

end Example

end Gregg.Clientd
