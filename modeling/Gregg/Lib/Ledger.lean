import Mathlib.Data.Finset.Dedup
import Mathlib.Data.Finset.Card
import Mathlib.Data.Set.Insert
import Mathlib.Logic.Relation

/-!
# Exactly-once accounting

A ledger follows tokens from their creation to their settlement: each created token waits, may
hold the single active place, and is settled at last. `Accounted` says that every created token is
in exactly one of the three places and was settled at most once; every step keeps it.
-/

universe u

/-- The places of the tokens created so far. -/
@[ext]
structure Ledger (Token : Type u) where
  made : Set Token
  waiting : Set Token
  active : Option Token
  settled : List Token

namespace Ledger

variable {Token : Type u}

/-- The ledger without tokens. -/
def empty : Ledger Token where
  made := ∅
  waiting := ∅
  active := none
  settled := []

/-- The four moves of a token. -/
inductive Step : Ledger Token → Ledger Token → Prop where
  | make {ledger : Ledger Token} {token : Token} (fresh : token ∉ ledger.made) :
      Step ledger
        { ledger with
          made := insert token ledger.made, waiting := insert token ledger.waiting }
  | settle {ledger : Ledger Token} {token : Token} (waits : token ∈ ledger.waiting) :
      Step ledger
        { ledger with
          waiting := ledger.waiting \ {token}, settled := ledger.settled ++ [token] }
  | start {ledger : Ledger Token} {token : Token} (waits : token ∈ ledger.waiting)
      (placeFree : ledger.active = none) :
      Step ledger
        { ledger with waiting := ledger.waiting \ {token}, active := some token }
  | finish {ledger : Ledger Token} {token : Token} (runs : ledger.active = some token) :
      Step ledger { ledger with active := none, settled := ledger.settled ++ [token] }

/-- Every created token is waiting, active or settled, in one place only and once only. -/
structure Accounted (ledger : Ledger Token) : Prop where
  complete : ∀ token, token ∈ ledger.made ↔
    token ∈ ledger.waiting ∨ ledger.active = some token ∨ token ∈ ledger.settled
  waitingOnly : ∀ token ∈ ledger.waiting, ledger.active ≠ some token ∧ token ∉ ledger.settled
  activeOnly : ∀ token, ledger.active = some token → token ∉ ledger.settled
  settledOnce : ledger.settled.Nodup

theorem accounted_empty : (empty : Ledger Token).Accounted where
  complete := by simp [empty]
  waitingOnly := by simp [empty]
  activeOnly := by simp [empty]
  settledOnce := by simp [empty]

theorem nodup_append_singleton {settled : List Token} {token : Token} (nodup : settled.Nodup)
    (unsettled : token ∉ settled) : (settled ++ [token]).Nodup := by
  rw [List.nodup_append]
  refine ⟨nodup, List.nodup_singleton token, ?_⟩
  rintro other otherSettled found foundMem rfl
  rw [List.mem_singleton.mp foundMem] at otherSettled
  exact unsettled otherSettled

/-- Each move keeps the accounts. -/
theorem Accounted.step {before after : Ledger Token} (accounted : before.Accounted)
    (step : Step before after) : after.Accounted := by
  rcases accounted with ⟨complete, waitingOnly, activeOnly, settledOnce⟩
  cases step with
  | @make token fresh =>
      have elsewhere := mt (complete token).mpr fresh
      simp only [not_or] at elsewhere
      refine ⟨fun other => ?_, fun other waits => ?_, activeOnly, settledOnce⟩
      · simp only [Set.mem_insert_iff, complete other]
        tauto
      · rcases waits with rfl | waits
        · exact elsewhere.2
        · exact waitingOnly other waits
  | @settle token waits =>
      have exclusive := waitingOnly token waits
      refine ⟨fun other => ?_, fun other stillWaits => ?_, fun other runs => ?_,
        nodup_append_singleton settledOnce exclusive.2⟩
      · simp only [complete other, Set.mem_sdiff, Set.mem_singleton_iff, List.mem_append,
          List.mem_singleton]
        by_cases same : other = token
        · subst same
          simp [waits]
        · simp [same]
      · have unsettled := waitingOnly other stillWaits.1
        exact ⟨unsettled.1, by simpa using ⟨unsettled.2, stillWaits.2⟩⟩
      · have otherNe : other ≠ token := fun same => exclusive.1 (same ▸ runs)
        simpa using ⟨activeOnly other runs, otherNe⟩
  | @start token waits placeFree =>
      have exclusive := waitingOnly token waits
      refine ⟨fun other => ?_, fun other stillWaits => ?_, fun other runs => ?_, settledOnce⟩
      · simp only [complete other, Set.mem_sdiff, Set.mem_singleton_iff, placeFree,
          Option.some.injEq, reduceCtorEq, false_or]
        by_cases same : other = token
        · subst same
          simp [waits]
        · simp [same, Ne.symm same]
      · exact ⟨fun same => stillWaits.2 (Option.some.inj same).symm,
          (waitingOnly other stillWaits.1).2⟩
      · rw [← Option.some.inj runs]
        exact exclusive.2
  | @finish token runs =>
      have unsettled := activeOnly token runs
      refine ⟨fun other => ?_, fun other waits => ?_, by simp,
        nodup_append_singleton settledOnce unsettled⟩
      · simp only [complete other, runs, Option.some.injEq, List.mem_append, List.mem_singleton,
          reduceCtorEq, false_or, eq_comm]
        tauto
      · have exclusive := waitingOnly other waits
        have otherNe : other ≠ token := fun same => exclusive.1 (same ▸ runs)
        exact ⟨by simp, by simpa using ⟨exclusive.2, otherNe⟩⟩

/-- A component whose every step is at most one move keeps the accounts. -/
theorem Accounted.of_reflGen {before after : Ledger Token} (accounted : before.Accounted)
    (atMostOne : Relation.ReflGen Step before after) : after.Accounted := by
  cases atMostOne with
  | refl => exact accounted
  | single step => exact accounted.step step

/-- The settlements of tokens drawn from a finite set are at most as many as the set. -/
theorem Accounted.length_settled_le [DecidableEq Token] {ledger : Ledger Token}
    (accounted : ledger.Accounted) {bound : Finset Token}
    (within : ∀ token ∈ ledger.made, token ∈ bound) : ledger.settled.length ≤ bound.card := by
  rw [← List.toFinset_card_of_nodup accounted.settledOnce]
  refine Finset.card_le_card fun token settled => within token ?_
  exact (accounted.complete token).mpr (.inr (.inr (List.mem_toFinset.mp settled)))

end Ledger
