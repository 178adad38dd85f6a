import Mathlib.Algebra.GroupWithZero.Nat
import Mathlib.Algebra.Order.BigOperators.Group.List
import Mathlib.Algebra.Order.Group.Nat
import Mathlib.Data.List.Sort
import Mathlib.Order.Defs.LinearOrder

/-!
# Sorted maps

A finite map as an association list whose keys increase strictly. The order is part of the value:
two maps with the same entries are equal, and a traversal meets the keys from the least one on.
-/

universe u v

structure SortedMap (Key : Type u) (Value : Type v) [LinearOrder Key] where
  entries : List (Key × Value)
  sorted : entries.Pairwise fun earlier later => earlier.1 < later.1

namespace SortedMap

variable {Key : Type u} {Value : Type v} [LinearOrder Key]

def empty : SortedMap Key Value where
  entries := []
  sorted := .nil

def keys (map : SortedMap Key Value) : List Key :=
  map.entries.map Prod.fst

def find? (map : SortedMap Key Value) (key : Key) : Option Value :=
  (map.entries.find? fun entry => entry.1 = key).map Prod.snd

def upsertEntries (key : Key) (change : Option Value → Value) :
    List (Key × Value) → List (Key × Value)
  | [] => [(key, change none)]
  | (other, value) :: rest =>
      if key < other then (key, change none) :: (other, value) :: rest
      else if key = other then (key, change (some value)) :: rest
      else (other, value) :: upsertEntries key change rest

section Entries

variable {map : SortedMap Key Value} {key other : Key} {value : Value}

theorem ext_entries {left right : SortedMap Key Value} (same : left.entries = right.entries) :
    left = right := by
  cases left
  cases right
  cases same
  rfl

theorem find?_eq_some_iff : map.find? key = some value ↔ (key, value) ∈ map.entries := by
  rcases map with ⟨entries, sorted⟩
  simp only [find?]
  induction entries with
  | nil => simp
  | cons entry rest ih =>
      rcases List.pairwise_cons.mp sorted with ⟨least, restSorted⟩
      by_cases same : entry.1 = key
      · subst same
        have notLater : (entry.1, value) ∉ rest := fun member =>
          lt_irrefl entry.1 (least (entry.1, value) member)
        simp [notLater, Prod.ext_iff, eq_comm]
      · have notFirst : (key, value) ≠ entry := fun first => same (first ▸ rfl)
        simp [same, notFirst, ih restSorted]

theorem find?_eq_none_iff : map.find? key = none ↔ key ∉ map.keys := by
  simp only [find?, Option.map_eq_none_iff, List.find?_eq_none, decide_eq_true_eq, keys,
    List.mem_map, not_exists, not_and]

theorem mem_keys_iff : key ∈ map.keys ↔ ∃ value, map.find? key = some value := by
  rw [← Option.ne_none_iff_exists', ne_eq, find?_eq_none_iff, not_not]

theorem nodup_keys (map : SortedMap Key Value) : map.keys.Nodup :=
  List.pairwise_map.mpr (map.sorted.imp ne_of_lt)

/-- A key before the first entry is absent. -/
theorem find?_cons_of_lt {first : Key × Value} {rest : List (Key × Value)} (before : key < first.1)
    (least : ∀ entry ∈ rest, first.1 < entry.1) :
    (first :: rest).find? (fun entry => entry.1 = key) = none := by
  rw [List.find?_eq_none]
  intro entry member
  have later : key < entry.1 := by
    rcases List.mem_cons.mp member with rfl | later
    · exact before
    · exact before.trans (least entry later)
  simpa using later.ne'

theorem mem_upsertEntries {change : Option Value → Value} {entry : Key × Value}
    {entries : List (Key × Value)}
    (member : entry ∈ upsertEntries key change entries) :
    entry.1 = key ∨ entry ∈ entries := by
  induction entries with
  | nil => simp_all [upsertEntries]
  | cons first rest ih =>
      simp only [upsertEntries] at member
      split at member
      · rcases List.mem_cons.mp member with rfl | later
        · exact .inl rfl
        · exact .inr later
      · split at member
        · rcases List.mem_cons.mp member with rfl | later
          · exact .inl rfl
          · exact .inr (List.mem_cons_of_mem _ later)
        · rcases List.mem_cons.mp member with rfl | later
          · exact .inr List.mem_cons_self
          · exact (ih later).imp_right (List.mem_cons_of_mem _)

theorem sorted_upsertEntries {change : Option Value → Value} {entries : List (Key × Value)}
    (sorted : entries.Pairwise fun earlier later => earlier.1 < later.1) :
    (upsertEntries key change entries).Pairwise fun earlier later => earlier.1 < later.1 := by
  induction entries with
  | nil => simp [upsertEntries]
  | cons first rest ih =>
      rcases List.pairwise_cons.mp sorted with ⟨least, restSorted⟩
      simp only [upsertEntries]
      split
      · rename_i before
        refine List.pairwise_cons.mpr ⟨?_, sorted⟩
        intro entry member
        rcases List.mem_cons.mp member with rfl | later
        · exact before
        · exact before.trans (least entry later)
      · rename_i notBefore
        split
        · rename_i same
          exact List.pairwise_cons.mpr ⟨fun entry later => same ▸ least entry later, restSorted⟩
        · rename_i distinct
          refine List.pairwise_cons.mpr ⟨?_, ih restSorted⟩
          intro entry member
          rcases mem_upsertEntries member with isKey | later
          · rw [isKey]
            exact lt_of_le_of_ne (not_lt.mp notBefore) (Ne.symm distinct)
          · exact least entry later

end Entries

/-- Replace the value of a key, or make one if the key is absent. -/
def upsert (map : SortedMap Key Value) (key : Key) (change : Option Value → Value) :
    SortedMap Key Value where
  entries := upsertEntries key change map.entries
  sorted := sorted_upsertEntries map.sorted

/-- Change the value of a key, if it is present. -/
def modify (map : SortedMap Key Value) (key : Key) (change : Value → Value) :
    SortedMap Key Value where
  entries := map.entries.map fun entry =>
    if entry.1 = key then (entry.1, change entry.2) else entry
  sorted := by
    rw [List.pairwise_map]
    apply map.sorted.imp
    intro earlier later before
    split <;> split <;> exact before

/-- Keep the entries whose keys satisfy a test. -/
def retain (map : SortedMap Key Value) (keep : Key → Bool) : SortedMap Key Value where
  entries := map.entries.filter fun entry => keep entry.1
  sorted := map.sorted.filter _

/-- Drop the least keys until at most `limit` are left. -/
def keepLast (map : SortedMap Key Value) (limit : ℕ) : SortedMap Key Value where
  entries := map.entries.drop (map.entries.length - limit)
  sorted := map.sorted.drop

/-- The sum of a measure over all values. -/
def sum (map : SortedMap Key Value) (measure : Value → ℕ) : ℕ :=
  (map.entries.map fun entry => measure entry.2).sum

section Operations

variable {map : SortedMap Key Value} {key other : Key}

@[simp]
theorem find?_empty : (empty : SortedMap Key Value).find? key = none := rfl

theorem find?_upsert {change : Option Value → Value} :
    (map.upsert key change).find? other =
      if other = key then some (change (map.find? key)) else map.find? other := by
  rcases map with ⟨entries, sorted⟩
  simp only [upsert, find?]
  induction entries with
  | nil =>
      by_cases same : other = key
      · simp [upsertEntries, same]
      · simp [upsertEntries, same, Ne.symm same]
  | cons first rest ih =>
      rcases List.pairwise_cons.mp sorted with ⟨least, restSorted⟩
      simp only [upsertEntries]
      split
      · rename_i before
        rw [find?_cons_of_lt before least]
        by_cases same : other = key
        · simp [same]
        · simp [same, Ne.symm same]
      · split
        · rename_i same
          subst same
          by_cases same : other = first.1
          · simp [same]
          · simp [same, Ne.symm same]
        · rename_i distinct
          have firstNe : first.1 ≠ key := Ne.symm distinct
          by_cases isFirst : first.1 = other
          · subst isFirst
            simp [firstNe]
          · simpa [isFirst, firstNe] using ih restSorted

@[simp]
theorem find?_upsert_self {change : Option Value → Value} :
    (map.upsert key change).find? key = some (change (map.find? key)) := by
  rw [find?_upsert, if_pos rfl]

theorem ext_find? {left right : SortedMap Key Value}
    (same : ∀ key, left.find? key = right.find? key) : left = right := by
  apply ext_entries
  have irreflexive : Std.Irrefl fun earlier later : Key × Value => earlier.1 < later.1 :=
    ⟨fun entry => lt_irrefl entry.1⟩
  have antisymmetric : Std.Antisymm fun earlier later : Key × Value => earlier.1 < later.1 :=
    ⟨fun _ _ before after => absurd before (lt_asymm after)⟩
  apply left.sorted.eq_of_mem_iff right.sorted
  rintro ⟨key, value⟩
  rw [← find?_eq_some_iff, ← find?_eq_some_iff, same key]

theorem upsert_eq_self {change : Option Value → Value} {value : Value}
    (found : map.find? key = some value) (same : change (some value) = value) :
    map.upsert key change = map := by
  apply ext_find?
  intro other
  rw [find?_upsert, found, same]
  split
  · rename_i isKey
    rw [isKey, found]
  · rfl

theorem find?_upsert_of_ne {change : Option Value → Value} (distinct : other ≠ key) :
    (map.upsert key change).find? other = map.find? other := by
  rw [find?_upsert, if_neg distinct]

theorem find?_modify {change : Value → Value} :
    (map.modify key change).find? other =
      if other = key then (map.find? key).map change else map.find? other := by
  simp only [modify, find?]
  induction map.entries with
  | nil => simp
  | cons first rest ih =>
      by_cases isKey : first.1 = key
      · by_cases same : other = key
        · simp [isKey, same]
        · have notFirst : first.1 ≠ other := fun isOther => same (isOther.symm.trans isKey)
          simpa [isKey, same, notFirst, Ne.symm same] using ih
      · by_cases isOther : first.1 = other
        · subst isOther
          simp [isKey]
        · simpa [isKey, isOther] using ih

theorem find?_retain {keep : Key → Bool} :
    (map.retain keep).find? other = if keep other then map.find? other else none := by
  cases found : map.find? other with
  | none =>
      rw [find?_eq_none_iff, keys, List.mem_map, not_exists] at found
      have absent : (map.retain keep).find? other = none := by
        rw [find?_eq_none_iff, keys, List.mem_map, not_exists]
        rintro entry ⟨member, same⟩
        exact found entry ⟨(List.mem_filter.mp member).1, same⟩
      simp [absent]
  | some value =>
      have inMap := find?_eq_some_iff.mp found
      by_cases kept : keep other = true
      · rw [if_pos kept]
        exact find?_eq_some_iff.mpr (List.mem_filter.mpr ⟨inMap, kept⟩)
      · rw [if_neg kept, find?_eq_none_iff, keys, List.mem_map, not_exists]
        rintro entry ⟨inRetained, rfl⟩
        have inFilter : entry ∈ map.entries.filter fun entry => keep entry.1 := inRetained
        exact kept (List.mem_filter.mp inFilter).2

/-- The sum trades the measure of the old value for the one of the new value. -/
theorem sum_upsert {change : Option Value → Value} {measure : Value → ℕ} :
    (map.upsert key change).sum measure + (map.find? key).elim 0 measure =
      map.sum measure + measure (change (map.find? key)) := by
  rcases map with ⟨entries, sorted⟩
  simp only [upsert, sum, find?]
  induction entries with
  | nil => simp [upsertEntries]
  | cons first rest ih =>
      rcases List.pairwise_cons.mp sorted with ⟨least, restSorted⟩
      simp only [upsertEntries]
      split
      · rename_i before
        rw [find?_cons_of_lt before least]
        simp only [List.map_cons, List.sum_cons, Option.map_none, Option.elim_none]
        omega
      · split
        · rename_i same
          subst same
          simp only [List.map_cons, List.sum_cons, List.find?_cons, decide_true, Option.map_some,
            Option.elim_some]
          omega
        · rename_i distinct
          have firstNe : first.1 ≠ key := Ne.symm distinct
          have restSums := ih restSorted
          simp only [List.map_cons, List.sum_cons, List.find?_cons, firstNe, decide_false]
          omega

theorem sum_modify {change : Value → Value} {measure : Value → ℕ} {value : Value}
    (found : map.find? key = some value) :
    (map.modify key change).sum measure + measure value =
      map.sum measure + measure (change value) := by
  rcases map with ⟨entries, sorted⟩
  simp only [modify, sum, find?] at found ⊢
  induction entries with
  | nil => simp at found
  | cons first rest ih =>
      rcases List.pairwise_cons.mp sorted with ⟨least, restSorted⟩
      by_cases isKey : first.1 = key
      · subst isKey
        simp only [List.find?_cons, decide_true, Option.map_some, Option.some.injEq] at found
        subst found
        have restUnchanged : (rest.map fun entry : Key × Value =>
            if entry.1 = first.1 then (entry.1, change entry.2) else entry) = rest := by
          have later : ∀ entry ∈ rest, (if entry.1 = first.1 then (entry.1, change entry.2)
              else entry) = entry := fun entry member => if_neg (least entry member).ne'
          exact (List.map_congr_left later).trans (List.map_id rest)
        simp only [List.map_cons, ↓reduceIte, List.sum_cons, restUnchanged]
        omega
      · simp only [List.find?_cons, isKey, decide_false] at found
        have restSums := ih restSorted found
        simp only [List.map_cons, isKey, ↓reduceIte, List.sum_cons]
        omega

theorem sum_retain_le {keep : Key → Bool} {measure : Value → ℕ} :
    (map.retain keep).sum measure ≤ map.sum measure :=
  (List.filter_sublist.map _).sum_le_sum fun _ _ => Nat.zero_le _

/-- Which keys are kept decides nothing about the values that are. -/
theorem find?_keepLast {limit : ℕ} {value : Value}
    (found : (map.keepLast limit).find? key = some value) : map.find? key = some value :=
  find?_eq_some_iff.mpr (List.mem_of_mem_drop (find?_eq_some_iff.mp found))

theorem keepLast_eq_self {limit : ℕ} (few : map.keys.length ≤ limit) :
    map.keepLast limit = map := by
  apply ext_entries
  rw [keys, List.length_map] at few
  simp only [keepLast, Nat.sub_eq_zero_of_le few, List.drop_zero]

theorem sum_keepLast_le {limit : ℕ} {measure : Value → ℕ} :
    (map.keepLast limit).sum measure ≤ map.sum measure :=
  ((List.drop_sublist _ _).map _).sum_le_sum fun _ _ => Nat.zero_le _

end Operations

end SortedMap
