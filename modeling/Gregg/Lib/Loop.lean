import Mathlib.Data.Fin.Tuple.Basic
import Mathlib.Data.List.FinRange
import Mathlib.Logic.Relation

/-!
# Loops over the indices of a fixed-size collection

Two loop shapes: a fallible one that computes one value for each index and stops at the first
failure, and a fold that threads a state through the indices in order. A loop is a chain of moves
when each of its turns is.
-/

namespace Loop

universe u v

variable {Failure : Type u} {Item : Type v}

/-- Compute one value for each index in order, stopping at the first failure. -/
def collect : {count : ℕ} → (Fin count → Except Failure Item) → Except Failure (Fin count → Item)
  | 0, _ => .ok Fin.elim0
  | _ + 1, body =>
      match body 0 with
      | .error failure => .error failure
      | .ok first =>
          match collect fun index => body index.succ with
          | .error failure => .error failure
          | .ok rest => .ok (Fin.cons first rest)

theorem eq_ok_of_collect {count : ℕ} {body : Fin count → Except Failure Item}
    {items : Fin count → Item} (completed : collect body = .ok items) (index : Fin count) :
    body index = .ok (items index) := by
  induction count with
  | zero => exact index.elim0
  | succ count ih =>
      simp only [collect] at completed
      split at completed
      · cases completed
      · rename_i first firstOk
        split at completed
        · cases completed
        · rename_i rest restOk
          cases completed
          refine Fin.cases ?_ (fun index => ?_) index
          · simpa using firstOk
          · simpa using ih restOk index

theorem collect_eq_error_iff {count : ℕ} {body : Fin count → Except Failure Item} :
    (∃ failure, collect body = .error failure) ↔ ∃ index failure, body index = .error failure := by
  induction count with
  | zero => simp [collect]
  | succ count ih =>
      rw [Fin.exists_fin_succ]
      cases first : body 0 with
      | error failure => simp [collect, first]
      | ok item =>
          have rest := @ih fun index => body index.succ
          simp only [collect, first, reduceCtorEq, exists_false, false_or]
          rw [← rest]
          cases collect fun index => body index.succ with
          | error failure => simp
          | ok items => simp

variable {State : Type u} {count : ℕ}

/-- What no turn of the loop changes, the loop does not change. -/
theorem foldl_finRange_frame {View : Type v} (view : State → View)
    (body : State → Fin count → State) (turn : ∀ state index, view (body state index) = view state)
    (start : State) : view ((List.finRange count).foldl body start) = view start := by
  have everyList : ∀ (indices : List (Fin count)) (state : State),
      view (indices.foldl body state) = view state := by
    intro indices
    induction indices with
    | nil => exact fun _ => rfl
    | cons index rest ih => exact fun state => (ih _).trans (turn state index)
  exact everyList _ _

/-- What only the turn at one index changes, the loop changes once. -/
theorem foldl_finRange_slot {View : Type v} (view : State → View)
    (body : State → Fin count → State) (index : Fin count) (change : View → View)
    (here : ∀ state, view (body state index) = change (view state))
    (elsewhere : ∀ state other, other ≠ index → view (body state other) = view state)
    (start : State) :
    view ((List.finRange count).foldl body start) = change (view start) := by
  have without : ∀ (indices : List (Fin count)) (state : State), index ∉ indices →
      view (indices.foldl body state) = view state := by
    intro indices
    induction indices with
    | nil => exact fun _ _ => rfl
    | cons other rest ih =>
        intro state absent
        rw [List.mem_cons, not_or] at absent
        exact (ih _ absent.2).trans (elsewhere state other (Ne.symm absent.1))
  rcases List.append_of_mem (List.mem_finRange index) with ⟨before, after, split⟩
  have nodup := List.nodup_finRange count
  rw [split, List.nodup_middle, List.nodup_cons, List.mem_append, not_or] at nodup
  rw [split, List.foldl_append, List.foldl_cons, without after _ nodup.1.2, here,
    without before _ nodup.1.1]

/-- When every turn of the loop is a chain of moves, so is the loop. -/
theorem moves_of_foldl_finRange (move : State → State → Prop) (body : State → Fin count → State)
    (turn : ∀ state index, Relation.ReflTransGen move state (body state index)) (start : State) :
    Relation.ReflTransGen move start ((List.finRange count).foldl body start) := by
  have everyList : ∀ (indices : List (Fin count)) (state : State),
      Relation.ReflTransGen move state (indices.foldl body state) := by
    intro indices
    induction indices with
    | nil => exact fun _ => .refl
    | cons index rest ih => exact fun state => (turn state index).trans (ih _)
  exact everyList _ _

/-- Replacing every slot of a collection is a chain of single replacements, each of a slot that
still has its first content. -/
theorem moves_of_updates {Slot : Type v} {move : State → State → Prop}
    (embed : (Fin count → Slot) → State) (before : Fin count → Slot) {after : Fin count → Slot}
    (turn : ∀ current index, current index = before index →
      Relation.ReflTransGen move (embed current)
        (embed (Function.update current index (after index)))) :
    Relation.ReflTransGen move (embed before) (embed after) := by
  have everyList : ∀ (indices : List (Fin count)) (current : Fin count → Slot), indices.Nodup →
      (∀ index ∈ indices, current index = before index) →
      (∀ index, index ∉ indices → current index = after index) →
      Relation.ReflTransGen move (embed current) (embed after) := by
    intro indices
    induction indices with
    | nil =>
        intro current _ _ settled
        have done : current = after := funext fun index => settled index (by simp)
        rw [done]
    | cons index rest ih =>
        intro current nodup untouched settled
        rw [List.nodup_cons] at nodup
        refine (turn current index (untouched index (by simp))).trans (ih _ nodup.2 ?_ ?_)
        · intro other otherMem
          have otherNe : other ≠ index := fun same => nodup.1 (same ▸ otherMem)
          rw [Function.update_of_ne otherNe]
          exact untouched other (by simp [otherMem])
        · intro other otherNotMem
          by_cases same : other = index
          · subst same
            simp
          · rw [Function.update_of_ne same]
            exact settled other (by simp [same, otherNotMem])
  exact everyList (List.finRange count) before (List.nodup_finRange count)
    (fun _ _ => rfl) (fun index notMem => absurd (List.mem_finRange index) notMem)

section Search

variable {Item : Type u} {Hit : Type v} {find : Item → Option Hit} {items : List Item}

/-- Searching a list of lists is searching each of them in turn. -/
theorem findSome?_flatMap {Group : Type u} (body : Group → List Item) (groups : List Group) :
    (groups.flatMap body).findSome? find =
      groups.findSome? fun group => (body group).findSome? find := by
  induction groups with
  | nil => rfl
  | cons group rest ih =>
      rw [List.flatMap_cons, List.findSome?_append, ih, List.findSome?_cons]
      cases (body group).findSome? find with
      | none => rfl
      | some hit => rfl

/-- What a search through an ordered list finds belongs to the first item that has a hit. -/
theorem first_of_findSome? {order : Item → Item → Prop} (ordered : items.Pairwise order) {hit : Hit}
    (found : items.findSome? find = some hit) :
    ∃ item ∈ items, find item = some hit ∧
      ∀ other ∈ items, (find other).isSome = true → other = item ∨ order item other := by
  rcases List.findSome?_eq_some_iff.mp found with ⟨before, item, after, rfl, isHit, missed⟩
  refine ⟨item, by simp, isHit, ?_⟩
  intro other otherMem hasHit
  rcases List.mem_append.mp otherMem with inBefore | inRest
  · simp [missed other inBefore] at hasHit
  · rcases List.mem_cons.mp inRest with rfl | inAfter
    · exact .inl rfl
    · rw [List.pairwise_append, List.pairwise_cons] at ordered
      exact .inr (ordered.2.1.1 other inAfter)

end Search

section Least

variable {Item : Type u} {Key : Type v} {Rank : Type*} [LinearOrder Rank]

/-- One turn of a search for the candidate of least rank: an earlier candidate is kept against a
later one of its rank. -/
def leastTurn (rank : Key → Rank) (candidate : Item → Option Key) (selected : Option Key)
    (item : Item) : Option Key :=
  match candidate item with
  | none => selected
  | some key => if selected.all fun current => decide (rank key < rank current) then some key
      else selected

variable {rank : Key → Rank} {candidate : Item → Option Key}

theorem foldl_leastTurn_eq_none (items : List Item) (selected : Option Key) :
    items.foldl (leastTurn rank candidate) selected = none ↔
      selected = none ∧ ∀ item ∈ items, candidate item = none := by
  induction items generalizing selected with
  | nil => simp
  | cons item rest ih =>
      rw [List.foldl_cons, ih, List.forall_mem_cons, ← and_assoc]
      refine and_congr_left fun _ => ?_
      unfold leastTurn
      cases candidate item with
      | none => simp
      | some key =>
          cases selected with
          | none => simp
          | some current =>
              simp only [reduceCtorEq, false_and, iff_false]
              split <;> simp

/-- The search returns a candidate of least rank. -/
theorem foldl_leastTurn_least (items : List Item) {selected : Option Key} {least : Key}
    (found : items.foldl (leastTurn rank candidate) selected = some least) :
    (selected = some least ∨ ∃ item ∈ items, candidate item = some least) ∧
      (∀ current ∈ selected, rank least ≤ rank current) ∧
        ∀ item ∈ items, ∀ key ∈ candidate item, rank least ≤ rank key := by
  induction items generalizing selected with
  | nil =>
      cases found
      simp
  | cons item rest ih =>
      rw [List.foldl_cons] at found
      rcases ih found with ⟨isFound, belowSelected, belowRest⟩
      unfold leastTurn at isFound belowSelected
      cases here : candidate item with
      | none =>
          rw [here] at isFound belowSelected
          refine ⟨isFound.imp_right fun ⟨other, isOther, isLeast⟩ =>
            ⟨other, .tail _ isOther, isLeast⟩, belowSelected, ?_⟩
          rw [List.forall_mem_cons]
          exact ⟨by simp [here], belowRest⟩
      | some key =>
          simp only [here] at isFound belowSelected
          by_cases isLess : (selected.all fun current => decide (rank key < rank current)) = true
          · rw [if_pos isLess] at isFound belowSelected
            rw [Option.all_eq_true] at isLess
            have leKey : rank least ≤ rank key := belowSelected key rfl
            refine ⟨.inr ?_, ?_, ?_⟩
            · rcases isFound with same | ⟨other, isOther, isLeast⟩
              · exact ⟨item, .head _, here.trans same⟩
              · exact ⟨other, .tail _ isOther, isLeast⟩
            · intro current isCurrent
              exact leKey.trans (of_decide_eq_true (isLess current isCurrent)).le
            · rw [List.forall_mem_cons]
              refine ⟨?_, belowRest⟩
              intro other isOther
              rw [here] at isOther
              cases isOther
              exact leKey
          · rw [if_neg isLess] at isFound belowSelected
            rw [Option.all_eq_true] at isLess
            push Not at isLess
            rcases isLess with ⟨current, isCurrent, notLess⟩
            refine ⟨isFound.imp_right fun ⟨other, isOther, isLeast⟩ =>
              ⟨other, .tail _ isOther, isLeast⟩, belowSelected, ?_⟩
            rw [List.forall_mem_cons]
            refine ⟨?_, belowRest⟩
            intro other isOther
            rw [here] at isOther
            cases isOther
            have le : rank current ≤ rank key := not_lt.mp fun lt => notLess (decide_eq_true lt)
            exact (belowSelected current isCurrent).trans le

end Least

end Loop
