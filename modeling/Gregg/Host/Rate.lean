import Mathlib.Data.List.Infix
import Mathlib.Data.String.Basic
import Gregg.RustStd
import Gregg.Lib.SortedMap

/-!
# Rates of counters

Two cumulative counters of each identity are compared with those of its last observation. Where an
identity was not listed in between, or everything was discarded, the next observation starts anew.
-/

namespace Gregg.Host

/-- One observation of two cumulative counters. -/
structure CounterSample where
  observedAt : Instant
  first : UInt64
  second : UInt64
  deriving DecidableEq

structure CounterRates where
  firstPerSec : UInt64
  secondPerSec : UInt64
  deriving DecidableEq

/-- The last observation of each identity. -/
structure CounterBaselines where
  samples : SortedMap String CounterSample

def u128Max : ℕ := 2 ^ 128 - 1

def ratePerSecond (delta : UInt64) (elapsed : ℕ) : Option UInt64 :=
  let scaled := delta.toNat * 1000000000
  if scaled > u128Max then none
  else if elapsed = 0 then none
  else if scaled / elapsed > u64Max then none
  else some (UInt64.ofNat (scaled / elapsed))

/-- The rates between two observations. -/
def ratesBetween (previous current : CounterSample) : Option CounterRates :=
  if current.observedAt < previous.observedAt then none
  else
    let elapsed := current.observedAt - previous.observedAt
    if elapsed = 0 ∨ current.first < previous.first ∨ current.second < previous.second then none
    else
      (ratePerSecond (current.first - previous.first) elapsed).bind fun firstPerSec =>
        (ratePerSecond (current.second - previous.second) elapsed).map fun secondPerSec =>
          { firstPerSec, secondPerSec }

namespace CounterBaselines

def empty : CounterBaselines where
  samples := .empty

def observe (baselines : CounterBaselines) (id : String) (current : CounterSample) :
    CounterBaselines × Option CounterRates :=
  ({ samples := baselines.samples.upsert id fun _ => current },
    (baselines.samples.find? id).bind fun previous => ratesBetween previous current)

/-- The test of `retain_ids` for an enumeration without a change. -/
def unchanged (baselines : CounterBaselines) (ids : List String) : Bool :=
  ids.length == baselines.samples.keys.length &&
    ids.all fun id => (baselines.samples.find? id).isSome

def retainIds (baselines : CounterBaselines) (ids : List String) : CounterBaselines :=
  if baselines.unchanged ids then baselines
  else { samples := baselines.samples.retain fun id => ids.contains id }

def clear (_ : CounterBaselines) : CounterBaselines :=
  empty

end CounterBaselines

/-- A call that changes the baselines. -/
inductive Call where
  | observe (id : String) (current : CounterSample)
  | retainIds (ids : List String)
  | clear

def CounterBaselines.step (baselines : CounterBaselines) : Call → CounterBaselines
  | .observe id current => (baselines.observe id current).1
  | .retainIds ids => baselines.retainIds ids
  | .clear => baselines.clear

/-- The baselines after some calls. -/
def afterCalls (calls : List Call) : CounterBaselines :=
  calls.foldl CounterBaselines.step .empty

section Rates

variable {previous current : CounterSample} {rates : CounterRates}

/-- A counter difference per second, rounded down. -/
def perSecond (before after elapsed : ℕ) : ℕ :=
  (after - before) * 1000000000 / elapsed

theorem ratePerSecond_eq_some_iff {before after rate : UInt64} {elapsed : ℕ}
    (positive : 0 < elapsed) (le : before ≤ after) :
    ratePerSecond (after - before) elapsed = some rate ↔
      rate.toNat = perSecond before.toNat after.toNat elapsed := by
  have bound := after.toNat_lt
  have small := rate.toNat_lt
  have inRange : ¬(after.toNat - before.toNat) * 1000000000 > u128Max := by
    rw [u128Max]
    omega
  rw [ratePerSecond, UInt64.toNat_sub_of_le _ _ le, perSecond]
  simp only [if_neg inRange, if_neg (Nat.ne_of_gt positive)]
  generalize (after.toNat - before.toNat) * 1000000000 / elapsed = quotient
  split
  · rename_i overflows
    rw [u64Max] at overflows
    refine iff_of_false (by rintro ⟨⟩) fun same => ?_
    have wide : rate.toNat < 2 ^ 64 := small
    omega
  · rename_i fits
    rw [u64Max] at fits
    have wide : quotient < 2 ^ 64 := by omega
    rw [Option.some_inj, ← UInt64.toNat_inj, UInt64.toNat_ofNat_of_lt' wide]
    exact eq_comm

/-- Two observations give rates when time has advanced, neither counter has decreased and both rates
fit 64 bits. -/
theorem ratesBetween_eq_some_iff :
    ratesBetween previous current = some rates ↔
      (previous.observedAt < current.observedAt ∧ previous.first ≤ current.first ∧
        previous.second ≤ current.second) ∧
        rates.firstPerSec.toNat = perSecond previous.first.toNat current.first.toNat
          (current.observedAt - previous.observedAt) ∧
        rates.secondPerSec.toNat = perSecond previous.second.toNat current.second.toNat
          (current.observedAt - previous.observedAt) := by
  rw [ratesBetween]
  split
  · rename_i isBefore
    exact iff_of_false (by rintro ⟨⟩) fun both => Nat.lt_asymm both.1.1 isBefore
  dsimp only
  split
  · rename_i discontinued
    refine iff_of_false (by rintro ⟨⟩) ?_
    rintro ⟨⟨advanced, first, second⟩, -⟩
    rcases discontinued with still | less | less
    · exact Nat.not_le.mpr advanced (Nat.sub_eq_zero_iff_le.mp still)
    · exact UInt64.not_lt.mpr first less
    · exact UInt64.not_lt.mpr second less
  · rename_i continued
    rw [not_or, not_or, UInt64.not_lt, UInt64.not_lt] at continued
    rcases continued with ⟨advanced, first, second⟩
    have positive : 0 < current.observedAt - previous.observedAt := Nat.pos_of_ne_zero advanced
    have later : previous.observedAt < current.observedAt := Nat.sub_pos_iff_lt.mp positive
    simp only [Option.bind_eq_some_iff, Option.map_eq_some_iff,
      ratePerSecond_eq_some_iff positive first, ratePerSecond_eq_some_iff positive second]
    constructor
    · rintro ⟨_, isFirst, _, isSecond, rfl⟩
      exact ⟨⟨later, first, second⟩, isFirst, isSecond⟩
    · rintro ⟨-, isFirst, isSecond⟩
      exact ⟨_, isFirst, _, isSecond, rfl⟩

end Rates

section Histories

/-- Whether a call leaves the last observation of an identity as it was. -/
def Call.Keeps (id : String) : Call → Prop
  | .observe other _ => other ≠ id
  | .retainIds ids => id ∈ ids
  | .clear => False

/-- The last observation of an identity that no call has ended since. -/
def Continuous (calls : List Call) (id : String) (previous : CounterSample) : Prop :=
  ∃ before after, calls = before ++ .observe id previous :: after ∧
    ∀ call ∈ after, call.Keeps id

/-- The rates that an observation gives span no gap: there are rates exactly when the last
observation of the identity is continuous, time has advanced, neither counter has decreased and both
rates fit 64 bits. -/
def SpansNoGap (calls : List Call) (id : String) (current : CounterSample) : Prop :=
  ∀ rates, ((afterCalls calls).observe id current).2 = some rates ↔
    ∃ previous, Continuous calls id previous ∧
      (previous.observedAt < current.observedAt ∧ previous.first ≤ current.first ∧
        previous.second ≤ current.second) ∧
        rates.firstPerSec.toNat = perSecond previous.first.toNat current.first.toNat
          (current.observedAt - previous.observedAt) ∧
        rates.secondPerSec.toNat = perSecond previous.second.toNat current.second.toNat
          (current.observedAt - previous.observedAt)

/-- An enumeration that passes for one without a change names every identity that is known. -/
def CounterBaselines.Prunes (baselines : CounterBaselines) (ids : List String) : Prop :=
  baselines.unchanged ids = true → ∀ id ∈ baselines.samples.keys, id ∈ ids

variable {calls : List Call} {call : Call} {id : String} {previous : CounterSample}

theorem continuous_concat :
    Continuous (calls ++ [call]) id previous ↔
      call = .observe id previous ∨ Continuous calls id previous ∧ call.Keeps id := by
  constructor
  · rintro ⟨before, after, isCalls, kept⟩
    rcases List.eq_nil_or_concat after with rfl | ⟨front, last, rfl⟩
    · exact .inl (List.cons.inj (List.append_inj' isCalls rfl).2).1
    · rw [List.concat_eq_append, List.forall_mem_append] at kept
      rw [List.concat_eq_append, ← List.cons_append, ← List.append_assoc] at isCalls
      rcases List.append_inj' isCalls rfl with ⟨isFront, isLast⟩
      rw [(List.cons.inj isLast).1]
      exact .inr ⟨⟨before, front, isFront, kept.1⟩, kept.2 last List.mem_cons_self⟩
  · rintro (rfl | ⟨⟨before, after, rfl, kept⟩, keeps⟩)
    · exact ⟨calls, [], rfl, by simp⟩
    · refine ⟨before, after ++ [call], by simp, ?_⟩
      rw [List.forall_mem_append]
      exact ⟨kept, by simpa using keeps⟩

theorem afterCalls_concat : afterCalls (calls ++ [call]) = (afterCalls calls).step call := by
  rw [afterCalls, List.foldl_append]
  rfl

/-- What a call does to the last observations of a pruned enumeration: what it keeps stays. -/
theorem find?_step {baselines : CounterBaselines}
    (prunes : ∀ ids, call = .retainIds ids → baselines.Prunes ids) :
    (baselines.step call).samples.find? id = some previous ↔
      call = .observe id previous ∨ baselines.samples.find? id = some previous ∧ call.Keeps id := by
  cases call with
  | observe other current =>
      rw [CounterBaselines.step, CounterBaselines.observe, SortedMap.find?_upsert, Call.Keeps,
        Call.observe.injEq]
      by_cases same : id = other
      · subst same
        simp
      · simp [same, Ne.symm same]
  | retainIds ids =>
      have other : Call.retainIds ids ≠ .observe id previous := by rintro ⟨⟩
      rw [CounterBaselines.step, CounterBaselines.retainIds, Call.Keeps, or_iff_right other]
      split
      · rename_i passes
        refine ⟨fun found => ⟨found, ?_⟩, And.left⟩
        exact prunes ids rfl passes id (SortedMap.mem_keys_iff.mpr ⟨previous, found⟩)
      · rw [SortedMap.find?_retain]
        by_cases listed : id ∈ ids <;> simp [listed]
  | clear =>
      refine iff_of_false (by rintro ⟨⟩) ?_
      rintro (⟨⟨⟩⟩ | ⟨-, ⟨⟩⟩)

/-- The last observations that are known are the continuous ones. -/
def Exact (calls : List Call) : Prop :=
  ∀ id previous, (afterCalls calls).samples.find? id = some previous ↔ Continuous calls id previous

theorem exact_nil : Exact [] := by
  intro id previous
  refine iff_of_false (by rintro ⟨⟩) ?_
  rintro ⟨before, after, isNil, -⟩
  exact List.append_ne_nil_of_right_ne_nil before (List.cons_ne_nil _ _) isNil.symm

/-- A call keeps the baselines exact. -/
theorem exact_concat (exactly : Exact calls)
    (prunes : ∀ ids, call = .retainIds ids → (afterCalls calls).Prunes ids) :
    Exact (calls ++ [call]) := by
  intro id previous
  rw [afterCalls_concat, find?_step prunes, continuous_concat, exactly]

theorem spansNoGap_of_exact (exactly : Exact calls) (id : String) (current : CounterSample) :
    SpansNoGap calls id current := by
  intro rates
  rw [CounterBaselines.observe]
  simp only [Option.bind_eq_some_iff, exactly id, ratesBetween_eq_some_iff]

/-- An identity that an enumeration passes over is not pruned: the next observation of it gives
rates. -/
theorem not_spansNoGap {ids : List String} (passes : (afterCalls calls).unchanged ids = true)
    (known : (afterCalls calls).samples.find? id = some previous) (absent : id ∉ ids) :
    ¬SpansNoGap (calls ++ [.retainIds ids]) id
      { previous with observedAt := previous.observedAt + 1 } := by
  intro spans
  have state : afterCalls (calls ++ [.retainIds ids]) = afterCalls calls := by
    rw [afterCalls_concat]
    exact if_pos passes
  have rates : ratesBetween previous { previous with observedAt := previous.observedAt + 1 } =
      some { firstPerSec := 0, secondPerSec := 0 } := by
    rw [ratesBetween_eq_some_iff]
    refine ⟨⟨Nat.lt_succ_self _, UInt64.le_refl _, UInt64.le_refl _⟩, ?_, ?_⟩
    · simp [perSecond]
    · simp [perSecond]
  have observed : ((afterCalls (calls ++ [.retainIds ids])).observe id
      { previous with observedAt := previous.observedAt + 1 }).2 =
        some { firstPerSec := 0, secondPerSec := 0 } := by
    rw [state, CounterBaselines.observe, known]
    exact rates
  rcases (spans _).mp observed with ⟨last, continuous, -⟩
  rcases continuous_concat.mp continuous with ⟨⟨⟩⟩ | ⟨-, listed⟩
  exact absent listed

/-- An enumeration without repetitions prunes. -/
theorem CounterBaselines.prunes_of_nodup {baselines : CounterBaselines} {ids : List String}
    (distinct : ids.Nodup) : baselines.Prunes ids := by
  intro passes id known
  rw [unchanged, Bool.and_eq_true, beq_iff_eq, List.all_eq_true] at passes
  have part : ids ⊆ baselines.samples.keys := by
    intro other listed
    exact SortedMap.mem_keys_iff.mpr (Option.isSome_iff_exists.mp (passes.2 other listed))
  have same := (List.subperm_of_subset distinct part).perm_of_length_le passes.1.ge
  exact same.mem_iff.mpr known

/-- After every part of a run no observation spans a gap, exactly when each enumeration of the run
that passes for one without a change names every identity that is known. -/
theorem spansNoGap_iff (calls : List Call) :
    (∀ before, before <+: calls → ∀ id current, SpansNoGap before id current) ↔
      ∀ before ids, before ++ [.retainIds ids] <+: calls → (afterCalls before).Prunes ids := by
  constructor
  · intro spans before ids isPart passes id known
    by_contra absent
    rcases SortedMap.mem_keys_iff.mp known with ⟨previous, found⟩
    exact not_spansNoGap passes found absent (spans _ isPart _ _)
  · intro prunes before isPart
    apply spansNoGap_of_exact
    induction before using List.reverseRecOn with
    | nil => exact exact_nil
    | append_singleton before call ih =>
        apply exact_concat (ih ((List.prefix_append _ _).trans isPart))
        rintro ids rfl
        exact prunes before ids isPart

/-- Of two identities one is listed twice and the other one not at all. -/
theorem not_spansNoGap_repeated :
    ¬SpansNoGap [.observe "a" ⟨0, 0, 0⟩, .observe "b" ⟨0, 0, 0⟩, .retainIds ["a", "a"]] "b"
      ⟨1, 0, 0⟩ :=
  @not_spansNoGap [.observe "a" ⟨0, 0, 0⟩, .observe "b" ⟨0, 0, 0⟩] "b" ⟨0, 0, 0⟩ ["a", "a"]
    rfl rfl (by decide)

end Histories

end Gregg.Host
