import Mathlib.Data.List.Sort

/-!
# Windows of a growing stream

A reader of a stream keeps the newest few of the items it has seen, and learns of new ones from
windows of the stream. Items carry a strictly increasing key. Appending to the ring what it does
not hold, and then dropping from the front, keeps the newest items exactly when the window brings
back nothing older, or brings enough that is newer.
-/

namespace Window

universe u

variable {Item : Type u} {key : Item → ℕ}

/-- The items stand in the order of their keys. -/
def Increasing (key : Item → ℕ) (items : List Item) : Prop :=
  items.Pairwise fun earlier later => key earlier < key later

instance (items : List Item) : Decidable (Increasing key items) :=
  inferInstanceAs (Decidable (items.Pairwise fun earlier later => key earlier < key later))

/-- The last `count` items. -/
def newest (count : ℕ) (items : List Item) : List Item :=
  items.drop (items.length - count)

section Lists

variable {first second items : List Item} {count : ℕ}

/-- Lists in the order of their keys are the same when they have the same items. -/
theorem Increasing.ext (firstIncreasing : Increasing key first)
    (secondIncreasing : Increasing key second) (same : ∀ item, item ∈ first ↔ item ∈ second) :
    first = second := by
  have irreflexive : Std.Irrefl fun earlier later => key earlier < key later :=
    ⟨fun _ => Nat.lt_irrefl _⟩
  have antisymmetric : Std.Antisymm fun earlier later : Item => key earlier < key later :=
    ⟨fun _ _ before after => absurd before (Nat.lt_asymm after)⟩
  exact firstIncreasing.eq_of_mem_iff secondIncreasing same

theorem newest_eq_self (few : items.length ≤ count) : newest count items = items := by
  rw [newest, Nat.sub_eq_zero_of_le few, List.drop_zero]

theorem newest_suffix (count : ℕ) (items : List Item) : newest count items <:+ items :=
  List.drop_suffix _ _

theorem newest_append (count : ℕ) (older newer : List Item) :
    newest count (older ++ newer) = newest (count - newer.length) older ++ newest count newer := by
  simp only [newest, List.drop_append, List.length_append]
  have fromNewer : older.length + newer.length - count - older.length = newer.length - count := by
    omega
  rw [fromNewer]
  rcases Nat.le_total count newer.length with enough | short
  · have allDropped : older.length ≤ older.length + newer.length - count := by omega
    have noneLeft : older.length ≤ older.length - (count - newer.length) := by omega
    rw [List.drop_eq_nil_of_le allDropped, List.drop_eq_nil_of_le noneLeft]
  · congr 2
    omega

theorem newest_newest {fewer : ℕ} (le : fewer ≤ count) :
    newest fewer (newest count items) = newest fewer items := by
  simp only [newest, List.drop_drop, List.length_drop]
  congr 1
  omega

theorem Increasing.le_last {item last : Item} (increasing : Increasing key items)
    (isLast : items.getLast? = some last) (member : item ∈ items) : key item ≤ key last := by
  rcases List.getLast?_eq_some_iff.mp isLast with ⟨before, rfl⟩
  rcases List.mem_append.mp member with inBefore | isLast
  · exact Nat.le_of_lt ((List.pairwise_append.mp increasing).2.2 item inBefore last (by simp))
  · rw [List.mem_singleton.mp isLast]

theorem Increasing.key_injective {item other : Item} (increasing : Increasing key items)
    (member : item ∈ items) (otherMember : other ∈ items) (same : key item = key other) :
    item = other := by
  have nodup : (items.map key).Nodup := List.pairwise_map.mpr (increasing.imp Nat.ne_of_lt)
  exact List.inj_on_of_nodup_map nodup member otherMember same

/-- The last item is among the newest. -/
theorem getLast?_newest (positive : 0 < count) :
    (newest count items).getLast? = items.getLast? := by
  simp only [newest, List.getLast?_drop]
  split
  · cases items with
    | nil => rfl
    | cons item rest =>
        simp only [List.length_cons] at *
        omega
  · rfl

end Lists

section Merge

variable {stream window ring items : List Item} {seen : Item → Bool} {depth : ℕ}

/-- The item comes after everything in the ring. -/
def newerThan (key : Item → ℕ) (ring : List Item) (item : Item) : Bool :=
  ring.all fun kept => key kept < key item

theorem not_newerThan_iff {item : Item} :
    newerThan key ring item = false ↔ ∃ kept ∈ ring, key item ≤ key kept := by
  simp [newerThan]

/-- What was seen does not come after the newest of it. -/
theorem not_newerThan_newest {item : Item} (increasing : Increasing key items)
    (positive : 0 < depth) (member : item ∈ items) :
    newerThan key (newest depth items) item = false := by
  cases isLast : items.getLast? with
  | none =>
      rw [List.getLast?_eq_none_iff.mp isLast] at member
      cases member
  | some last =>
      have inRing : last ∈ newest depth items := by
        apply List.mem_of_getLast?
        rw [getLast?_newest positive, isLast]
      exact not_newerThan_iff.mpr ⟨last, inRing, increasing.le_last isLast member⟩

variable [DecidableEq Item]

/-- What the ring becomes when a window is appended without what it already holds. -/
def appendMissing (ring window : List Item) : List Item :=
  ring ++ window.filter fun item => item ∉ ring

/-- Appending a window item by item. -/
theorem appendMissing_cons {item : Item} (once : item ∉ window) :
    appendMissing ring (item :: window) =
      appendMissing (if item ∈ ring then ring else ring ++ [item]) window := by
  by_cases held : item ∈ ring
  · simp [appendMissing, held]
  · have sameRest : (window.filter fun later => later ∉ ring) =
        window.filter fun later => later ∉ ring ++ [item] := by
      apply List.filter_congr
      intro later inWindow
      have distinct : later ≠ item := fun same => once (same ▸ inWindow)
      simp [distinct]
    rw [if_neg held, appendMissing, appendMissing, ← sameRest, List.append_assoc,
      List.filter_cons_of_pos (by simpa using held), List.singleton_append]

/-- The items of a window that the ring lacks although it holds newer ones. -/
def resurrected (key : Item → ℕ) (ring window : List Item) : List Item :=
  window.filter fun item => item ∉ ring && !newerThan key ring item

/-- The items of a window that come after everything in the ring. -/
def fresh (key : Item → ℕ) (ring window : List Item) : List Item :=
  window.filter (newerThan key ring)

theorem resurrected_eq_nil_iff :
    resurrected key ring window = [] ↔
      ∀ item ∈ window, item ∈ ring ∨ newerThan key ring item = true := by
  simp only [resurrected, List.filter_eq_nil_iff, Bool.and_eq_true, decide_eq_true_eq,
    Bool.not_eq_true', not_and, Bool.not_eq_false]
  exact forall₂_congr fun item _ => or_iff_not_imp_left.symm

/-- In an increasing window the resurrected items come before the fresh ones. -/
theorem appendMissing_eq (increasing : Increasing key window) :
    appendMissing ring window =
      ring ++ (resurrected key ring window ++ fresh key ring window) := by
  have split : (resurrected key ring window ++ fresh key ring window).Pairwise
      fun earlier later => key earlier < key later := by
    rw [List.pairwise_append]
    refine ⟨increasing.filter _, increasing.filter _, ?_⟩
    intro earlier earlierMem later laterMem
    simp only [resurrected, List.mem_filter, Bool.and_eq_true, Bool.not_eq_true',
      not_newerThan_iff] at earlierMem
    rcases earlierMem with ⟨-, -, kept, keptMem, notBefore⟩
    simp only [fresh, List.mem_filter, newerThan, List.all_eq_true,
      decide_eq_true_eq] at laterMem
    have keptBefore := laterMem.2 kept keptMem
    omega
  have filtered : Increasing key (window.filter fun item => item ∉ ring) := increasing.filter _
  rw [appendMissing]
  congr 1
  apply filtered.ext split
  intro item
  simp only [resurrected, fresh, List.mem_append, List.mem_filter, Bool.and_eq_true,
    decide_eq_true_eq, Bool.not_eq_true']
  constructor
  · rintro ⟨inWindow, missing⟩
    cases newer : newerThan key ring item with
    | true => exact .inr ⟨inWindow, rfl⟩
    | false => exact .inl ⟨inWindow, missing, rfl⟩
  · rintro (⟨inWindow, missing, -⟩ | ⟨inWindow, newer⟩)
    · exact ⟨inWindow, missing⟩
    · refine ⟨inWindow, fun member => ?_⟩
      rw [not_newerThan_iff.mpr ⟨item, member, Nat.le_refl _⟩] at newer
      cases newer

/-- What has been seen after a window splits into what the ring had passed by and the fresh
items. -/
theorem filter_seen_eq (increasing : Increasing key stream) (positive : 0 < depth)
    (sublist : window.Sublist stream) :
    let ring := newest depth (stream.filter seen)
    (stream.filter fun item => seen item || item ∈ window) =
      (stream.filter fun item => (seen item || item ∈ window) && !newerThan key ring item) ++
        fresh key ring window := by
  intro ring
  have seenIncreasing : Increasing key (stream.filter seen) := increasing.filter _
  have appended : Increasing key
      ((stream.filter fun item => (seen item || item ∈ window) && !newerThan key ring item) ++
        fresh key ring window) := by
    refine List.pairwise_append.mpr
      ⟨increasing.filter _, (increasing.sublist sublist).filter _, ?_⟩
    intro earlier earlierMem later laterMem
    simp only [List.mem_filter, Bool.and_eq_true, Bool.not_eq_true',
      not_newerThan_iff] at earlierMem
    rcases earlierMem with ⟨-, -, kept, keptMem, notBefore⟩
    simp only [fresh, List.mem_filter, newerThan, List.all_eq_true,
      decide_eq_true_eq] at laterMem
    exact Nat.lt_of_le_of_lt notBefore (laterMem.2 kept keptMem)
  have after : Increasing key (stream.filter fun item => seen item || item ∈ window) :=
    increasing.filter _
  apply after.ext appended
  intro item
  simp only [fresh, List.mem_append, List.mem_filter, Bool.or_eq_true, decide_eq_true_eq,
    Bool.and_eq_true, Bool.not_eq_true']
  constructor
  · rintro ⟨inStream, known⟩
    cases newer : newerThan key ring item with
    | false => exact .inl ⟨inStream, known, rfl⟩
    | true =>
        right
        rcases known with wasSeen | inWindow
        · have passed := not_newerThan_newest seenIncreasing positive
            (List.mem_filter.mpr ⟨inStream, wasSeen⟩)
          rw [newer] at passed
          cases passed
        · exact ⟨inWindow, rfl⟩
  · rintro (⟨inStream, known, -⟩ | ⟨inWindow, -⟩)
    · exact ⟨inStream, known⟩
    · exact ⟨sublist.subset inWindow, .inr inWindow⟩

/-- The ring keeps the newest of all items seen exactly when the window resurrects nothing, or
brings at least as many fresh items as the ring holds. -/
theorem newest_appendMissing_iff (increasing : Increasing key stream) (positive : 0 < depth)
    (sublist : window.Sublist stream) :
    let ring := newest depth (stream.filter seen)
    newest depth (appendMissing ring window) =
        newest depth (stream.filter fun item => seen item || item ∈ window) ↔
      resurrected key ring window = [] ∨ depth ≤ (fresh key ring window).length := by
  intro ring
  let passed := stream.filter fun item => (seen item || item ∈ window) && !newerThan key ring item
  have split : (stream.filter fun item => seen item || item ∈ window) =
      passed ++ fresh key ring window := filter_seen_eq increasing positive sublist
  rw [appendMissing_eq (increasing.sublist sublist), split, ← List.append_assoc,
    newest_append depth (ring ++ resurrected key ring window), newest_append depth passed,
    List.append_left_inj]
  constructor
  · intro same
    by_contra neither
    rcases not_or.mp neither with ⟨someOld, fewFresh⟩
    have someLeft : 0 < depth - (fresh key ring window).length := by omega
    have sameLast := congrArg List.getLast? same
    rw [getLast?_newest someLeft, getLast?_newest someLeft,
      List.getLast?_append_of_ne_nil _ someOld, List.getLast?_eq_some_getLast someOld] at sameLast
    have isOld : (resurrected key ring window).getLast someOld ∈ resurrected key ring window :=
      List.getLast_mem someOld
    generalize (resurrected key ring window).getLast someOld = old at sameLast isOld
    simp only [resurrected, List.mem_filter, Bool.and_eq_true, decide_eq_true_eq,
      Bool.not_eq_true', not_newerThan_iff] at isOld
    rcases isOld with ⟨inWindow, missing, kept, keptMem, notAfter⟩
    have keptSeen := (newest_suffix depth (stream.filter seen)).subset keptMem
    have keptPassed : kept ∈ passed := by
      refine List.mem_filter.mpr ⟨(List.mem_filter.mp keptSeen).1, ?_⟩
      simp only [(List.mem_filter.mp keptSeen).2, Bool.true_or, Bool.true_and, Bool.not_eq_true',
        not_newerThan_iff]
      exact ⟨kept, keptMem, Nat.le_refl _⟩
    have passedIncreasing : Increasing key passed := increasing.filter _
    have notBefore := passedIncreasing.le_last sameLast.symm keptPassed
    have same : old = kept := increasing.key_injective (sublist.subset inWindow)
      (List.mem_filter.mp keptSeen).1 (Nat.le_antisymm notAfter notBefore)
    exact missing (same ▸ keptMem)
  · rintro (noneOld | enoughFresh)
    · have passedSeen : passed = stream.filter seen := by
        apply List.filter_congr
        intro item inStream
        cases wasSeen : seen item with
        | true =>
            have notNewer := not_newerThan_newest (increasing.filter seen) positive
              (List.mem_filter.mpr ⟨inStream, wasSeen⟩)
            simp [ring, notNewer]
        | false =>
            simp only [Bool.false_or, Bool.and_eq_false_imp, decide_eq_true_eq,
              Bool.not_eq_false']
            intro inWindow
            by_contra notNewer
            have missing : item ∉ ring := by
              intro inRing
              have inSeen := (newest_suffix depth (stream.filter seen)).subset inRing
              rw [(List.mem_filter.mp inSeen).2] at wasSeen
              cases wasSeen
            have isOld : item ∈ resurrected key ring window := by
              simp [resurrected, inWindow, missing, Bool.eq_false_of_not_eq_true notNewer]
            rw [noneOld] at isOld
            cases isOld
      rw [noneOld, List.append_nil, passedSeen, newest_newest (Nat.sub_le _ _)]
    · rw [Nat.sub_eq_zero_of_le enoughFresh]
      simp [newest]

end Merge

end Window
