import Mathlib.Algebra.BigOperators.Group.Finset.Basic
import Mathlib.Algebra.Order.BigOperators.Group.Finset
import Mathlib.Data.List.Infix
import Mathlib.Logic.Relation

/-!
# Queues under one ceiling

A family of queues shares a ceiling. As long as they hold more items than that, the head with the
least key is taken. An item is reached after the items of its own queue before it, and after those
of another queue up to the first one whose key exceeds all keys of its own queue so far.
-/

universe u v w

namespace Gregg.Eviction

open scoped BigOperators

variable {Id : Type u} {Item : Type v} {Key : Type w} [DecidableEq Id] [LinearOrder Key]

/-- One head is taken, the least of all. -/
inductive Takes (key : Id → Item → Key) (queues : Id → List Item) : (Id → List Item) → Prop where
  | head {id : Id} {item : Item} {rest : List Item} (isHead : queues id = item :: rest)
      (least : ∀ other first, (queues other).head? = some first → key id item ≤ key other first) :
      Takes key queues (Function.update queues id rest)

/-- The number of items in the queues. -/
def size (ids : Finset Id) (queues : Id → List Item) : ℕ :=
  ∑ id ∈ ids, (queues id).length

/-- A head is taken from queues over the ceiling. -/
def Evicts (key : Id → Item → Key) (ids : Finset Id) (ceiling : ℕ)
    (queues next : Id → List Item) : Prop :=
  ceiling < size ids queues ∧ Takes key queues next

/-- The items of another queue that are reached later than an item, `reached` being its queue up to
it. -/
def later (key : Id → Item → Key) (id : Id) (reached : List Item) (other : Id)
    (queue : List Item) : List Item :=
  queue.dropWhile fun item => reached.any fun earlier => key other item < key id earlier

/-- The number of items that are reached no earlier than the item between `before` and `after` in
the queue `id`. -/
def outlasting (key : Id → Item → Key) (ids : Finset Id) (queues : Id → List Item) (id : Id)
    (before : List Item) (item : Item) (after : List Item) : ℕ :=
  (item :: after).length +
    ∑ other ∈ ids.erase id, (later key id (before ++ [item]) other (queues other)).length

section Dropping

variable {front rest : List Item} {stop : Item → Bool}

theorem length_le_dropWhile {head found : Item} (foundMem : found ∈ front ++ [head])
    (stops : stop found = false) :
    (head :: rest).length ≤ ((front ++ head :: rest).dropWhile stop).length := by
  induction front with
  | nil =>
      rw [List.nil_append, List.mem_singleton] at foundMem
      subst foundMem
      simp [stops]
  | cons first front ih =>
      rw [List.cons_append, List.dropWhile_cons]
      split
      · rename_i goesOn
        apply ih
        rcases List.mem_cons.mp foundMem with rfl | inRest
        · simp [stops] at goesOn
        · exact inRest
      · simp only [List.length_cons, List.length_append]
        omega

theorem dropWhile_le_length (goesOn : ∀ item ∈ front, stop item = true) :
    ((front ++ rest).dropWhile stop).length ≤ rest.length := by
  rw [List.dropWhile_append_of_pos goesOn]
  exact (List.dropWhile_suffix stop).length_le

end Dropping

variable {key : Id → Item → Key} {ids : Finset Id} {ceiling : ℕ}
  {queues rest next front : Id → List Item} {id : Id} {before after : List Item} {item : Item}

theorem size_eq_add_erase (idMem : id ∈ ids) :
    size ids queues = (queues id).length + ∑ other ∈ ids.erase id, (queues other).length :=
  (Finset.add_sum_erase ids (fun other => (queues other).length) idMem).symm

/-- Where taking heads has come to: what it took of every queue, and what is left. The items taken
of one queue come before the head that is left of another. -/
structure Stands (key : Id → Item → Key) (queues front rest : Id → List Item) : Prop where
  split : ∀ id, front id ++ rest id = queues id
  ordered : ∀ id other first, id ≠ other → (rest other).head? = some first →
    ∃ item ∈ front other ++ [first], ∀ taken ∈ front id, key id taken < key other item

omit [DecidableEq Id] in
theorem stands_start : Stands key queues (fun _ => []) queues where
  split := fun _ => rfl
  ordered := by
    intro id other first distinct isHead
    exact ⟨first, by simp, by simp⟩

omit [DecidableEq Id] in
/-- The head taken comes before every other head that is left, as do those taken before it. -/
theorem Stands.after_taken {other : Id} {first : Item} (stands : Stands key queues front rest)
    (distinct : id ≠ other) (isHead : (rest other).head? = some first)
    (before : key id item < key other first) :
    ∃ found ∈ front other ++ [first], key id item < key other found ∧
      ∀ taken ∈ front id, key id taken < key other found := by
  rcases stands.ordered id other first distinct isHead with ⟨found, foundMem, exceeds⟩
  rcases lt_or_ge (key id item) (key other found) with higher | notHigher
  · exact ⟨found, foundMem, higher, exceeds⟩
  · refine ⟨first, by simp, before, ?_⟩
    intro taken takenMem
    calc
      key id taken < key other found := exceeds taken takenMem
      _ ≤ key id item := notHigher
      _ < key other first := before

section Run

variable (separate : ∀ id other item second, key id item = key other second → id = other)
include separate

theorem Stands.takes (stands : Stands key queues front rest) (takes : Takes key rest next) :
    ∃ front, Stands key queues front next := by
  cases takes with
  | @head id item left isHead least =>
      refine ⟨Function.update front id (front id ++ [item]), ?_, ?_⟩
      · intro other
        rcases eq_or_ne other id with rfl | distinct
        · simpa [isHead] using stands.split other
        · simpa [distinct] using stands.split other
      · intro taken other first distinct isFirst
        rcases eq_or_ne other id with rfl | notTaken
        · -- The new head comes after the one just taken.
          rw [Function.update_self] at isFirst ⊢
          rw [Function.update_of_ne distinct]
          rcases stands.ordered taken other item distinct (by simp [isHead]) with
            ⟨found, foundMem, exceeds⟩
          exact ⟨found, List.mem_append_left _ foundMem, exceeds⟩
        · rw [Function.update_of_ne notTaken] at isFirst ⊢
          rcases eq_or_ne taken id with rfl | other
          · have before : key taken item < key other first :=
              lt_of_le_of_ne (least other first isFirst)
                fun same => distinct (separate _ _ _ _ same)
            rcases stands.after_taken distinct isFirst before with
              ⟨found, foundMem, higher, exceeds⟩
            refine ⟨found, foundMem, ?_⟩
            intro gone goneMem
            rw [Function.update_self] at goneMem
            rcases List.mem_append.mp goneMem with earlier | last
            · exact exceeds gone earlier
            · rw [List.mem_singleton.mp last]
              exact higher
          · rw [Function.update_of_ne other]
            exact stands.ordered taken _ first distinct isFirst

theorem stands_of_run (ran : Relation.ReflTransGen (Evicts key ids ceiling) queues rest) :
    ∃ front, Stands key queues front rest := by
  induction ran with
  | refl => exact ⟨_, stands_start⟩
  | tail _ evicted ih =>
      rcases ih with ⟨front, stands⟩
      exact stands.takes separate evicted.2

theorem suffix_of_run (ran : Relation.ReflTransGen (Evicts key ids ceiling) queues rest) :
    rest id <:+ queues id := by
  rcases stands_of_run separate ran with ⟨front, stands⟩
  exact ⟨front id, stands.split id⟩

/-- When an item's turn comes, what is left are items that outlast it. -/
theorem Stands.size_le_outlasting (stands : Stands key queues front rest) (idMem : id ∈ ids)
    (queue : queues id = before ++ item :: after) (turn : rest id = item :: after)
    (least : ∀ other first, (rest other).head? = some first → key id item ≤ key other first) :
    size ids rest ≤ outlasting key ids queues id before item after := by
  have taken : front id = before := by
    have split := stands.split id
    rw [turn, queue] at split
    exact List.append_cancel_right split
  rw [size_eq_add_erase idMem, turn, outlasting]
  apply Nat.add_le_add_left
  apply Finset.sum_le_sum
  intro other otherMem
  have distinct : id ≠ other := (Finset.ne_of_mem_erase otherMem).symm
  cases left : rest other with
  | nil => exact Nat.zero_le _
  | cons first others =>
      have isFirst : (rest other).head? = some first := by simp [left]
      have comesBefore : key id item < key other first :=
        lt_of_le_of_ne (least other first isFirst) fun same => distinct (separate _ _ _ _ same)
      rcases stands.after_taken distinct isFirst comesBefore with
        ⟨found, foundMem, higher, exceeds⟩
      rw [← stands.split other, left]
      apply length_le_dropWhile foundMem
      rw [List.any_eq_false]
      intro earlier earlierMem
      rw [decide_eq_true_eq, not_lt]
      rcases List.mem_append.mp earlierMem with inFront | last
      · exact (exceeds earlier (taken ▸ inFront)).le
      · rw [List.mem_singleton.mp last]
        exact higher.le

/-- An item is left by the evictions exactly when the items that outlast it fit under the
ceiling. -/
theorem kept_iff (ran : Relation.ReflTransGen (Evicts key ids ceiling) queues rest)
    (within : size ids rest ≤ ceiling) (idMem : id ∈ ids)
    (queue : queues id = before ++ item :: after) :
    item :: after <:+ rest id ↔
      outlasting key ids queues id before item after ≤ ceiling := by
  constructor
  · intro kept
    rcases stands_of_run separate ran with ⟨front, stands⟩
    rcases kept with ⟨middle, left⟩
    have reached : front id ++ middle = before := by
      have split := stands.split id
      rw [← left, queue, ← List.append_assoc] at split
      exact List.append_cancel_right split
    refine le_trans ?_ within
    rw [size_eq_add_erase idMem, outlasting]
    apply Nat.add_le_add
    · rw [← left, List.length_append]
      omega
    · apply Finset.sum_le_sum
      intro other otherMem
      rw [later, ← stands.split other]
      apply dropWhile_le_length
      intro taken takenMem
      have hasHead : ∃ first, (rest id).head? = some first ∧ first ∈ middle ++ [item] := by
        rw [← left]
        cases middle <;> simp
      rcases hasHead with ⟨first, isFirst, firstMem⟩
      rcases stands.ordered other id first (Finset.ne_of_mem_erase otherMem) isFirst with
        ⟨found, foundMem, exceeds⟩
      rw [List.any_eq_true]
      refine ⟨found, ?_, decide_eq_true (exceeds taken takenMem)⟩
      rw [← reached, List.append_assoc]
      rcases List.mem_append.mp foundMem with inFront | last
      · exact List.mem_append_left _ inFront
      · rw [List.mem_singleton.mp last]
        exact List.mem_append_right _ firstMem
  · -- Were it taken, then at its turn the items left, all of which outlast it, were too many.
    intro fits
    clear within
    induction ran with
    | refl => exact ⟨before, queue.symm⟩
    | @tail state last run evicted ih =>
        rcases stands_of_run separate run with ⟨front, stands⟩
        rcases evicted with ⟨tooMany, takes⟩
        cases takes with
        | @head taken head left isHead least =>
            rcases eq_or_ne id taken with rfl | distinct
            · rw [isHead] at ih
              rw [Function.update_self]
              rcases List.suffix_cons_iff.mp ih with whole | inLeft
              · cases whole
                have few := stands.size_le_outlasting separate idMem queue isHead least
                exact absurd (lt_of_lt_of_le tooMany few) (not_lt.mpr fits)
              · exact inLeft
            · rw [Function.update_of_ne distinct]
              exact ih

end Run

end Gregg.Eviction
