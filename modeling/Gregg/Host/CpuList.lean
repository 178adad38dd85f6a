import Mathlib.Order.Interval.Finset.Nat
import Gregg.RustStd

/-!
# Lists of CPUs

A list of CPUs is numbers and ranges between commas and white space. It is parsed into the set of
the listed identities, which the parser keeps from growing past a bound at every item.
-/

namespace Gregg.Host

def MAX_LOGICAL_CORES : ℕ := 8192

def MAX_CPU_SET_MEMBERS : ℕ := MAX_LOGICAL_CORES

/-- `str::parse::<u32>`. -/
def parseU32 (text : List Char) : Option ℕ :=
  (Text.parseUsize text).filter (· < 2 ^ 32)

def isSeparator (character : Char) : Bool :=
  character == ',' || Text.isWhitespace character

/-- The ends of a range, which are the same for a single number. -/
def parseRange (item : List Char) : Option (ℕ × ℕ) :=
  match Text.splitOnce '-' item with
  | none => (parseU32 item).map fun value => (value, value)
  | some (start, last) =>
      (parseU32 start).bind fun start => (parseU32 last).map fun last => (start, last)

/-- The body of the loop: the set with an item. -/
def addItem (ids : Finset ℕ) (item : List Char) : Option (Finset ℕ) :=
  (parseRange item).bind fun (start, last) =>
    if last < start then none
    else
      let span := last - start + 1
      if span > MAX_CPU_SET_MEMBERS then none
      else if ids.card + span ≤ MAX_CPU_SET_MEMBERS then some (ids ∪ Finset.Icc start last)
      else
        let fresh := span - (ids.filter fun id => start ≤ id ∧ id ≤ last).card
        if fresh = 0 then some ids
        else if ids.card + fresh > MAX_CPU_SET_MEMBERS then none
        else some (ids ∪ Finset.Icc start last)

def addItems (items : List (List Char)) : Option (Finset ℕ) :=
  items.foldlM addItem ∅

def parseCpuListIds (raw : List Char) : Option (Finset ℕ) :=
  (addItems (Text.fields isSeparator (Text.trim raw))).filter fun ids => ids ≠ ∅

section Numbers

/-- A decimal number of 32 bits, after a plus sign or not. -/
def Number (text : List Char) (value : ℕ) : Prop :=
  ∃ digits, (text = digits ∨ text = '+' :: digits) ∧ digits ≠ [] ∧
    (∀ digit ∈ digits, digit.isDigit = true) ∧ Nat.ofDigitChars 10 digits 0 = value ∧
      value < 2 ^ 32

theorem parseU32_eq_some_iff {text : List Char} {value : ℕ} :
    parseU32 text = some value ↔ Number text value := by
  have wide : 2 ^ 32 ≤ u64Max := by decide
  rw [parseU32, Option.filter_eq_some_iff, Text.parseUsize_eq_some_iff, Number, decide_eq_true_eq]
  constructor
  · rintro ⟨⟨digits, isText, nonempty, read⟩, small⟩
    rcases (Text.parseDigits_eq_some_iff (Nat.zero_le _)).mp read with ⟨decimal, isValue, -⟩
    exact ⟨digits, isText, nonempty, decimal, isValue, small⟩
  · rintro ⟨digits, isText, nonempty, decimal, isValue, small⟩
    have read := (Text.parseDigits_eq_some_iff (Nat.zero_le _)).mpr
      ⟨decimal, isValue, small.le.trans wide⟩
    exact ⟨⟨digits, isText, nonempty, read⟩, small⟩

end Numbers

section Items

/-- An item that lists the identities between two ends: one number, or an ascending range of two. -/
def Lists (item : List Char) (start last : ℕ) : Prop :=
  Number item start ∧ last = start ∨
    ∃ before after, item = before ++ '-' :: after ∧ Number before start ∧ Number after last ∧
      start ≤ last

variable {item before after : List Char} {start last : ℕ}

/-- No number has a dash. -/
theorem dash_not_mem (number : Number item start) : '-' ∉ item := by
  rcases number with ⟨digits, isText, -, decimal, -⟩
  have notDigit : '-' ∉ digits := fun isDash => absurd (decimal '-' isDash) (by decide)
  rcases isText with rfl | rfl
  · exact notDigit
  · rw [List.mem_cons, not_or]
    exact ⟨by decide, notDigit⟩

theorem lists_iff :
    Lists item start last ↔ parseRange item = some (start, last) ∧ start ≤ last := by
  rw [Lists, parseRange]
  cases split : Text.splitOnce '-' item with
  | none =>
      have noDash : ∀ before after : List Char, item ≠ before ++ '-' :: after := by
        rintro before after rfl
        rcases List.eq_append_cons_of_mem
          (List.mem_append_right before List.mem_cons_self : '-' ∈ before ++ '-' :: after) with
          ⟨front, back, isItem, notMem⟩
        rw [isItem, Text.splitOnce_append notMem] at split
        cases split
      simp only [Option.map_eq_some_iff, Prod.mk.injEq, parseU32_eq_some_iff]
      constructor
      · rintro (⟨number, rfl⟩ | ⟨before, after, isItem, -⟩)
        · exact ⟨⟨last, number, rfl, rfl⟩, le_rfl⟩
        · exact absurd isItem (noDash before after)
      · rintro ⟨⟨value, number, rfl, rfl⟩, -⟩
        exact .inl ⟨number, rfl⟩
  | some parts =>
      rcases parts with ⟨before, after⟩
      have isItem := Text.eq_of_splitOnce split
      simp only [Option.bind_eq_some_iff, Option.map_eq_some_iff, Prod.mk.injEq,
        parseU32_eq_some_iff]
      constructor
      · rintro (⟨number, -⟩ | ⟨front, back, sameItem, first, second, ascending⟩)
        · refine absurd (dash_not_mem number) (not_not.mpr ?_)
          rw [isItem]
          exact List.mem_append_right before List.mem_cons_self
        · rw [sameItem, Text.splitOnce_append (dash_not_mem first)] at split
          cases split
          exact ⟨⟨start, first, last, second, rfl, rfl⟩, ascending⟩
      · rintro ⟨⟨_, first, _, second, rfl, rfl⟩, ascending⟩
        exact .inr ⟨before, after, isItem, first, second, ascending⟩

/-- An item lists one range. -/
theorem Lists.unique {others : ℕ × ℕ} (lists : Lists item start last)
    (other : Lists item others.1 others.2) : others = (start, last) := by
  have read := (lists_iff.mp lists).1
  rw [(lists_iff.mp other).1] at read
  exact Option.some_inj.mp read

variable {ids next : Finset ℕ}

/-- The identities that a range adds are those that are counted. -/
theorem card_union_range (ids : Finset ℕ) (ascending : start ≤ last) :
    (ids ∪ Finset.Icc start last).card =
      ids.card + (last - start + 1 - (ids.filter fun id => start ≤ id ∧ id ≤ last).card) := by
  have inBoth : ids.filter (fun id => start ≤ id ∧ id ≤ last) = ids ∩ Finset.Icc start last := by
    ext id
    simp
  have total := Finset.card_union_add_card_inter ids (Finset.Icc start last)
  have part := Finset.card_le_card (@Finset.inter_subset_right _ _ ids (Finset.Icc start last))
  rw [Nat.card_Icc] at total part
  rw [inBoth]
  omega

/-- An item is added where it is well formed and the set stays in bounds, and only there. -/
theorem addItem_eq_some_iff (bounded : ids.card ≤ MAX_CPU_SET_MEMBERS) :
    addItem ids item = some next ↔
      ∃ start last, Lists item start last ∧ next = ids ∪ Finset.Icc start last ∧
        next.card ≤ MAX_CPU_SET_MEMBERS := by
  cases read : parseRange item with
  | none =>
      rw [addItem, read]
      refine iff_of_false (by rintro ⟨⟩) ?_
      rintro ⟨start, last, lists, -⟩
      rw [(lists_iff.mp lists).1] at read
      cases read
  | some range =>
      rcases range with ⟨start, last⟩
      have only : (∃ first final, Lists item first final ∧ next = ids ∪ Finset.Icc first final ∧
          next.card ≤ MAX_CPU_SET_MEMBERS) ↔ start ≤ last ∧ next = ids ∪ Finset.Icc start last ∧
            next.card ≤ MAX_CPU_SET_MEMBERS := by
        constructor
        · rintro ⟨first, final, lists, isNext, small⟩
          have same := (lists_iff.mp lists).1
          rw [read] at same
          cases same
          exact ⟨(lists_iff.mp lists).2, isNext, small⟩
        · rintro ⟨ascending, added⟩
          exact ⟨start, last, lists_iff.mpr ⟨read, ascending⟩, added⟩
      rw [only, addItem, read, Option.bind_some]
      dsimp only
      split
      · rename_i reversed
        exact iff_of_false (by rintro ⟨⟩) fun added => Nat.not_lt.mpr added.1 reversed
      rename_i ascending
      have total := @card_union_range start last ids (by omega)
      have counted := Finset.card_le_card
        (Finset.filter_subset (fun id => start ≤ id ∧ id ≤ last) ids)
      have union : (ids ∪ Finset.Icc start last).card ≤ MAX_CPU_SET_MEMBERS →
          (some (ids ∪ Finset.Icc start last) = some next ↔ start ≤ last ∧
            next = ids ∪ Finset.Icc start last ∧ next.card ≤ MAX_CPU_SET_MEMBERS) := by
        intro small
        rw [Option.some_inj]
        constructor
        · rintro rfl
          exact ⟨by omega, rfl, small⟩
        · exact fun added => added.2.1.symm
      have overflows : ¬(ids ∪ Finset.Icc start last).card ≤ MAX_CPU_SET_MEMBERS →
          (none = some next ↔ start ≤ last ∧ next = ids ∪ Finset.Icc start last ∧
            next.card ≤ MAX_CPU_SET_MEMBERS) := by
        intro large
        refine iff_of_false (by rintro ⟨⟩) fun added => large ?_
        rw [← added.2.1]
        exact added.2.2
      split
      · exact overflows (by omega)
      split
      · exact union (by omega)
      split
      · -- Nothing is fresh: every identity of the range is in the set.
        have same : ids = ids ∪ Finset.Icc start last :=
          Finset.eq_of_subset_of_card_le Finset.subset_union_left (by omega)
        rw [← same] at union ⊢
        exact union bounded
      split
      · exact overflows (by omega)
      · exact union (by omega)

/-- The identities that some items list. -/
def Listed (items : List (List Char)) : Set ℕ :=
  {id | ∃ item ∈ items, ∃ start last, Lists item start last ∧ start ≤ id ∧ id ≤ last}

theorem listed_cons {items : List (List Char)} (lists : Lists item start last) :
    Listed (item :: items) = ↑(Finset.Icc start last) ∪ Listed items := by
  ext id
  simp only [Listed, Set.mem_ofPred_eq, List.exists_mem_cons_iff, Set.mem_union, Finset.coe_Icc,
    Set.mem_Icc]
  apply or_congr_left
  constructor
  · rintro ⟨first, final, other, within⟩
    cases @Lists.unique item start last (first, final) lists other
    exact within
  · exact fun within => ⟨start, last, lists, within⟩

/-- What the loop makes of a set in bounds: the set with every identity listed, where all items are
well formed and it stays in bounds. -/
theorem foldlM_addItem_eq_some_iff {items : List (List Char)}
    (bounded : ids.card ≤ MAX_CPU_SET_MEMBERS) :
    items.foldlM addItem ids = some next ↔
      (∀ item ∈ items, ∃ start last, Lists item start last) ∧
        (next : Set ℕ) = ↑ids ∪ Listed items ∧ next.card ≤ MAX_CPU_SET_MEMBERS := by
  induction items generalizing ids with
  | nil =>
      have none : Listed [] = ∅ := by
        ext id
        simp [Listed]
      rw [List.foldlM_nil, none, Set.union_empty, Finset.coe_inj]
      constructor
      · rintro ⟨⟩
        exact ⟨by simp, rfl, bounded⟩
      · exact fun all => congrArg some all.2.1.symm
  | cons item items ih =>
      rw [List.foldlM_cons, List.forall_mem_cons]
      constructor
      · intro added
        rcases Option.bind_eq_some_iff.mp added with ⟨middle, first, later⟩
        rcases (addItem_eq_some_iff bounded).mp first with ⟨start, last, lists, rfl, small⟩
        rcases (ih small).mp later with ⟨all, isNext, fits⟩
        refine ⟨⟨⟨start, last, lists⟩, all⟩, ?_, fits⟩
        rw [listed_cons lists, isNext, Finset.coe_union, Set.union_assoc]
      · rintro ⟨⟨⟨start, last, lists⟩, all⟩, isNext, fits⟩
        rw [listed_cons lists, ← Set.union_assoc, ← Finset.coe_union] at isNext
        have part : ids ∪ Finset.Icc start last ⊆ next := by
          rw [← Finset.coe_subset, isNext]
          exact Set.subset_union_left
        have small := (Finset.card_le_card part).trans fits
        rw [(addItem_eq_some_iff bounded).mpr ⟨start, last, lists, rfl, small⟩]
        exact (ih small).mpr ⟨all, isNext, fits⟩

end Items

/-- A list of CPUs is parsed exactly or rejected whole: a set is returned when every item is well
formed, there is one, and the identities listed are in bounds; it is these identities, and no set on
the way to it is out of bounds. -/
structure ParsedWhole (raw : List Char) : Prop where
  parsed : ∀ ids, parseCpuListIds raw = some ids ↔
    Text.fields isSeparator raw ≠ [] ∧
      (∀ item ∈ Text.fields isSeparator raw, ∃ start last, Lists item start last) ∧
        (ids : Set ℕ) = Listed (Text.fields isSeparator raw) ∧ ids.card ≤ MAX_CPU_SET_MEMBERS
  bounded : ∀ items ids, items <+: Text.fields isSeparator (Text.trim raw) →
    addItems items = some ids → ids.card ≤ MAX_CPU_SET_MEMBERS

theorem parseCpuListIds_whole (raw : List Char) : ParsedWhole raw := by
  have separates : ∀ character, Text.isWhitespace character = true →
      isSeparator character = true :=
    fun character isSpace => Bool.or_eq_true_iff.mpr (.inr isSpace)
  have added := fun items ids => @foldlM_addItem_eq_some_iff ∅ ids items (Nat.zero_le _)
  refine ⟨fun ids => ?_, fun items ids _ isAdded => ((added items ids).mp isAdded).2.2⟩
  rw [parseCpuListIds, Text.fields_trim separates, Option.filter_eq_some_iff, addItems, added,
    Finset.coe_empty, Set.empty_union, decide_eq_true_eq]
  constructor
  · rintro ⟨⟨all, isListed, fits⟩, nonempty⟩
    refine ⟨fun noItems => nonempty ?_, all, isListed, fits⟩
    rw [noItems] at isListed
    rw [← Finset.coe_eq_empty, isListed]
    ext id
    simp [Listed]
  · rintro ⟨someItems, all, isListed, fits⟩
    refine ⟨⟨all, isListed, fits⟩, ?_⟩
    rcases List.exists_mem_of_ne_nil _ someItems with ⟨item, isItem⟩
    rcases all item isItem with ⟨start, last, lists⟩
    have isIn : start ∈ (ids : Set ℕ) := by
      rw [isListed]
      exact ⟨item, isItem, start, last, lists, le_rfl, (lists_iff.mp lists).2⟩
    exact Finset.ne_empty_of_mem (Finset.mem_coe.mp isIn)

example : parseCpuListIds "0-3, 2-4,1\n".toList = some {0, 1, 2, 3, 4} := by decide +kernel

end Gregg.Host
