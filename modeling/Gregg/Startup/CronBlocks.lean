import Mathlib.Data.List.TakeWhile
import Gregg.Startup.Cron

/-!
# The blocks of a crontab

The commands after each marker line, and when the two judges of a block take it for the selected
config: the classifier looks at the table as a whole, the removal at one block at a time.
-/

namespace Gregg

/-- The commands of the blocks, in order. -/
def blocksOf : List (List Char) → List (List (List Char))
  | [] => []
  | line :: rest =>
      if isMarker line then rest.takeWhile isCroncheck :: blocksOf rest else blocksOf rest

section Commands

variable {line command : List Char} {parts : OsPath × Option OsPath}

/-- No command is a marker: the marker has no `k`. -/
theorem isMarker_of_isCroncheck (isCommand : isCroncheck line = true) : isMarker line = false := by
  have isIn : 'k' ∈ line :=
    (of_decide_eq_true isCommand).subset (by decide : 'k' ∈ "croncheck".toList)
  have counts : (Text.trim line).count 'k' = line.count 'k' :=
    Search.count_trimMatches (by decide)
  rw [isMarker, beq_eq_false_iff_ne]
  intro isMarkerLine
  have none : CRON_MANAGED_MARKER.count 'k' = 0 := by decide
  rw [isMarkerLine, none] at counts
  exact absurd counts (Nat.ne_of_lt (List.count_pos_iff.mpr isIn))

theorem suffix_of_cronCommand (isCommand : cronCommand line = some command) : command <:+ line := by
  rw [cronCommand] at isCommand
  split at isCommand
  · rename_i rest isReboot
    cases isCommand
    exact ⟨_, (Search.stripPrefix_eq_some_iff.mp isReboot).symm⟩
  · rcases Option.map_eq_some_iff.mp isCommand with ⟨field, isField, rfl⟩
    exact (List.dropWhile_suffix _).trans (Search.suffix_of_getElem?_splitN isField)

/-- A command that is parsed has its verb. -/
theorem isInfix_of_parseCommand (read : parseCommand command = some parts) :
    "croncheck".toList <:+: command := by
  rw [parseCommand] at read
  rcases Option.bind_eq_some_iff.mp read with ⟨quoted, isQuoted, read⟩
  rcases Option.bind_eq_some_iff.mp read with ⟨⟨encoded, rest⟩, isEncoded, read⟩
  dsimp only at read
  split at read
  · cases read
  · rcases Option.bind_eq_some_iff.mp read with ⟨arguments, isVerb, -⟩
    have verb : "croncheck".toList <:+: Text.trim rest :=
      ⟨arguments, [], by rw [List.append_nil, Search.stripSuffix_eq_some_iff.mp isVerb]⟩
    have isRest : rest <:+ quoted :=
      ⟨encoded ++ ['\''], by rw [List.append_assoc, Search.eq_of_splitOnce isEncoded]⟩
    have isCommand : quoted <:+ command :=
      ⟨['\''], (Search.stripPrefix_eq_some_iff.mp isQuoted).symm⟩
    exact verb.trans ((Search.isInfix_trimMatches _ rest).trans (isRest.trans isCommand).isInfix)

/-- A line that is parsed belongs to the block of a marker before it. -/
theorem isCroncheck_of_parts (read : parseCronCommandParts line = some parts) :
    isCroncheck line = true := by
  rcases Option.bind_eq_some_iff.mp read with ⟨command, isCommand, parsed⟩
  exact decide_eq_true
    ((isInfix_of_parseCommand parsed).trans (suffix_of_cronCommand isCommand).isInfix)

end Commands

section Selected

variable {resolve : OsPath → OsPath} {exe config : OsPath} {explicit : Bool}

/-- Whether a block has commands, and each of them runs the executable with the selected config. -/
def isForSelected (resolve : OsPath → OsPath) (exe config : OsPath) (explicit : Bool)
    (block : List (List Char)) : Bool :=
  !block.isEmpty && block.all fun command =>
    (parseCronCommandParts command).any fun parts =>
      pathsEquivalent resolve parts.1 exe && matchesSelected parts.2 config explicit

/-- Configs that are the same as a selected one are the selected ones. -/
theorem sameConfig_of_matchesSelected {first : Option OsPath}
    (selected : matchesSelected first config explicit = true) (other : Option OsPath) :
    sameConfig other first = matchesSelected other config explicit := by
  cases first with
  | none =>
      cases explicit with
      | true => cases selected
      | false => cases other <;> rfl
  | some first =>
      cases explicit with
      | false => cases selected
      | true =>
          have same : first.components = config.components := eq_of_beq selected
          cases other with
          | none => rfl
          | some other =>
              have left : sameConfig (some other) (some first) =
                  (other.components == first.components) := rfl
              rw [left, same]
              rfl

/-- The removal takes exactly the blocks for the executable and the selected config. -/
theorem blockIsOwnedBy_eq (block : List (List Char)) :
    blockIsOwnedBy resolve exe config explicit block =
      isForSelected resolve exe config explicit block := by
  cases block with
  | nil => rfl
  | cons first rest =>
      rw [blockIsOwnedBy, isForSelected, List.head?_cons, Option.bind_some, List.isEmpty_cons,
        Bool.not_false, Bool.true_and]
      cases read : parseCronCommandParts first with
      | none =>
          rw [List.all_cons, read]
          rfl
      | some parts =>
          rcases parts with ⟨blockExe, blockConfig⟩
          dsimp only
          cases selected : matchesSelected blockConfig config explicit with
          | false =>
              rw [Bool.and_false, List.all_cons, read, Option.any_some]
              dsimp only
              rw [selected, Bool.and_false, Bool.false_and]
          | true =>
              simp only [sameConfig_of_matchesSelected selected, Bool.and_true]
              rw [List.all_cons, read, Option.any_some]
              dsimp only
              rw [selected, Bool.and_true]
              cases pathsEquivalent resolve blockExe exe <;> rfl

end Selected

section Classifier

variable {resolve : OsPath → OsPath} {exe config : OsPath} {explicit : Bool}
  {table : List Char} {lines before after : List (List Char)} {marker : List Char}

theorem length_blocksOf (lines : List (List Char)) :
    (blocksOf lines).length = lines.countP isMarker := by
  induction lines with
  | nil => rfl
  | cons line lines ih =>
      rw [blocksOf, List.countP_cons]
      split
      · rw [List.length_cons, ih]
      · exact ih

theorem blocksOf_of_noMarker (noMarker : ∀ line ∈ lines, isMarker line = false) :
    blocksOf lines = [] := by
  rw [← List.length_eq_zero_iff, length_blocksOf, List.countP_eq_zero]
  intro line isLine
  rw [noMarker line isLine]
  decide

/-- A table with one block is lines before its marker, and lines after it. -/
theorem exists_of_blocksOf {block : List (List Char)} (isOnly : blocksOf lines = [block]) :
    ∃ before marker after, lines = before ++ marker :: after ∧
      (∀ line ∈ before, isMarker line = false) ∧ isMarker marker = true ∧
        (∀ line ∈ after, isMarker line = false) ∧ after.takeWhile isCroncheck = block := by
  induction lines with
  | nil => cases isOnly
  | cons line lines ih =>
      rw [blocksOf] at isOnly
      split at isOnly
      · rename_i begins
        rcases List.cons.inj isOnly with ⟨isBlock, none⟩
        refine ⟨[], line, lines, rfl, by simp, begins, fun other isLine => ?_, isBlock⟩
        have count : lines.countP isMarker = 0 := by rw [← length_blocksOf, none]; rfl
        exact Bool.eq_false_iff.mpr (List.countP_eq_zero.mp count other isLine)
      · rename_i other
        rcases ih isOnly with ⟨before, marker, after, rfl, noBefore, rest⟩
        refine ⟨line :: before, marker, after, rfl, ?_, rest⟩
        rw [List.forall_mem_cons]
        exact ⟨Bool.eq_false_iff.mpr other, noBefore⟩

variable {first second : List Char} {block : List (List Char)}

theorem takeWhile_eq_pair_iff : after.takeWhile isCroncheck = [first, second] ↔
    after[0]? = some first ∧ after[1]? = some second ∧ isCroncheck first = true ∧
      isCroncheck second = true ∧ after[2]?.any isCroncheck = false := by
  rcases after with _ | ⟨line, _ | ⟨next, rest⟩⟩
  · simp
  · by_cases isCommand : isCroncheck line <;> simp [isCommand]
  · have ends : rest.takeWhile isCroncheck = [] ↔ rest[0]?.any isCroncheck = false := by
      cases rest with
      | nil => simp
      | cons last rest => by_cases isLast : isCroncheck last <;> simp [isLast]
    by_cases isFirst : isCroncheck line
    · by_cases isSecond : isCroncheck next
      · rw [List.takeWhile_cons_of_pos isFirst, List.takeWhile_cons_of_pos isSecond,
          List.cons.injEq, List.cons.injEq, ends]
        simp only [List.getElem?_cons_zero, List.getElem?_cons_succ, Option.some_inj]
        constructor
        · rintro ⟨rfl, rfl, noMore⟩
          exact ⟨rfl, rfl, isFirst, isSecond, noMore⟩
        · rintro ⟨rfl, rfl, -, -, noMore⟩
          exact ⟨rfl, rfl, noMore⟩
      · rw [List.takeWhile_cons_of_pos isFirst, List.takeWhile_cons_of_neg isSecond]
        refine iff_of_false (by simp) ?_
        rintro ⟨-, ⟨⟩, -, isCommand, -⟩
        exact isSecond isCommand
    · rw [List.takeWhile_cons_of_neg isFirst]
      refine iff_of_false (by simp) ?_
      rintro ⟨⟨⟩, -, isCommand, -⟩
      exact isFirst isCommand

/-- The commands of the only block of a table, when it has two of them for one executable. -/
def IsPair (lines : List (List Char)) (left right : OsPath × Option OsPath) : Prop :=
  ∃ first second, blocksOf lines = [[first, second]] ∧
    parseCronCommandParts first = some left ∧ parseCronCommandParts second = some right ∧
      left.1.samePath right.1 = true

theorem blocksOf_append (noBefore : ∀ line ∈ before, isMarker line = false) :
    blocksOf (before ++ lines) = blocksOf lines := by
  induction before with
  | nil => rfl
  | cons line before ih =>
      rw [List.forall_mem_cons] at noBefore
      rw [List.cons_append, blocksOf, if_neg (by rw [noBefore.1]; decide), ih noBefore.2]

/-- What the only block of a table is, by the lines after its marker. -/
theorem isPair_iff (noBefore : ∀ line ∈ before, isMarker line = false)
    (begins : isMarker marker = true) (noAfter : ∀ line ∈ after, isMarker line = false)
    {left right : OsPath × Option OsPath} : IsPair (before ++ marker :: after) left right ↔
      after[0]?.bind parseCronCommandParts = some left ∧
        after[1]?.bind parseCronCommandParts = some right ∧ after[2]?.any isCroncheck = false ∧
          left.1.samePath right.1 = true := by
  have blocks : blocksOf (before ++ marker :: after) = [after.takeWhile isCroncheck] := by
    rw [blocksOf_append noBefore, blocksOf, if_pos begins, blocksOf_of_noMarker noAfter]
  rw [IsPair, blocks]
  constructor
  · rintro ⟨first, second, isBlock, readFirst, readSecond, same⟩
    rcases takeWhile_eq_pair_iff.mp (List.head_eq_of_cons_eq isBlock) with
      ⟨isFirst, isSecond, -, -, ends⟩
    rw [isFirst, isSecond]
    exact ⟨readFirst, readSecond, ends, same⟩
  · rintro ⟨readFirst, readSecond, ends, same⟩
    rcases Option.bind_eq_some_iff.mp readFirst with ⟨first, isFirst, readFirst⟩
    rcases Option.bind_eq_some_iff.mp readSecond with ⟨second, isSecond, readSecond⟩
    have isBlock := takeWhile_eq_pair_iff.mpr ⟨isFirst, isSecond, isCroncheck_of_parts readFirst,
      isCroncheck_of_parts readSecond, ends⟩
    exact ⟨first, second, congrArg (· :: []) isBlock, readFirst, readSecond, same⟩

theorem getElem?_after (before : List (List Char)) (marker : List Char)
    (after : List (List Char)) (offset : ℕ) :
    (before ++ marker :: after)[before.length + 1 + offset]? = after[offset]? := by
  rw [Nat.add_assoc, List.getElem?_append_right (Nat.le_add_right _ _),
    Nat.add_sub_cancel_left, Nat.add_comm 1 offset, List.getElem?_cons_succ]

theorem markerPositions_of_single (noBefore : ∀ line ∈ before, isMarker line = false)
    (begins : isMarker marker = true) (noAfter : ∀ line ∈ after, isMarker line = false) :
    markerPositions (before ++ marker :: after) = [before.length] := by
  rw [markerPositions, List.findIdxs_append, List.findIdxs_eq_nil_iff.mpr noBefore,
    List.nil_append, List.findIdxs_cons, if_pos begins, List.findIdxs_eq_nil_iff.mpr noAfter,
    Nat.zero_add]

theorem findIdx?_of_single (noBefore : ∀ line ∈ before, isMarker line = false)
    (begins : isMarker marker = true) :
    (before ++ marker :: after).findIdx? isMarker = some before.length := by
  rw [List.findIdx?_append, List.findIdx?_eq_none_iff.mpr noBefore, List.findIdx?_cons,
    if_pos begins]
  simp

theorem length_markerPositions (lines : List (List Char)) :
    (markerPositions lines).length = (blocksOf lines).length := by
  rw [length_blocksOf, markerPositions, List.length_findIdxs]

/-- The classifier takes a table for the one of the executable when its only block is a pair of
commands that run it. -/
theorem cronBlockOwnership_eq_owned_iff : cronBlockOwnership resolve table exe = .owned ↔
    ∃ left right, IsPair (Lines.split table) left right ∧
      pathsEquivalent resolve left.1 exe = true := by
  by_cases single : (blocksOf (Lines.split table)).length = 1
  · rcases List.length_eq_one_iff.mp single with ⟨block, isOnly⟩
    rcases exists_of_blocksOf isOnly with
      ⟨before, marker, after, isTable, noBefore, begins, noAfter, -⟩
    have length : (Lines.split table).length = before.length + 1 + after.length := by
      rw [isTable, List.length_append, List.length_cons]
      omega
    simp only [isTable, isPair_iff noBefore begins noAfter]
    have line := getElem?_after before marker after
    have isFirst : (before ++ marker :: after)[before.length + 1]? = after[0]? := line 0
    have isSecond : (before ++ marker :: after)[before.length + 2]? = after[1]? := line 1
    have isThird : (before ++ marker :: after)[before.length + 3]? = after[2]? := line 2
    simp only [cronBlockOwnership, isTable, markerPositions_of_single noBefore begins noAfter,
      isFirst, isSecond, isThird]
    by_cases two : 2 ≤ after.length
    · have within : ¬([before.length].length ≠ 1 ∨
          before.length + 2 ≥ (before ++ marker :: after).length) := by
        rw [List.length_singleton, List.length_append, List.length_cons]
        omega
      rw [if_neg within]
      cases readFirst : after[0]?.bind parseCronCommandParts with
      | none => simp
      | some left =>
          cases readSecond : after[1]?.bind parseCronCommandParts with
          | none => simp
          | some right =>
              rcases left with ⟨left, leftConfig⟩
              rcases right with ⟨right, rightConfig⟩
              simp only [Option.some_inj, and_assoc, exists_and_left, exists_eq_left']
              cases after[2]?.any isCroncheck <;> cases left.samePath right <;>
                cases pathsEquivalent resolve left exe <;> simp
    · have short : before.length + 2 ≥ (before ++ marker :: after).length := by
        rw [List.length_append, List.length_cons]
        omega
      have noSecond : after[1]? = none := List.getElem?_eq_none (by omega)
      rw [if_pos (.inr short), noSecond]
      simp
  · constructor
    · intro isOwned
      have several : (markerPositions (Lines.split table)).length ≠ 1 := by
        rwa [length_markerPositions]
      rw [cronBlockOwnership] at isOwned
      split at isOwned
      · cases isOwned
      · rename_i positions
        rw [positions] at several
        rw [positions, if_pos (.inl several)] at isOwned
        cases isOwned
    · rintro ⟨left, right, ⟨first, second, isOnly, -⟩, -⟩
      exact absurd (by rw [isOnly]; rfl) single

theorem sameConfig_comm (left right : Option OsPath) :
    sameConfig left right = sameConfig right left := by
  cases left with
  | none => cases right <;> rfl
  | some left =>
      cases right with
      | none => rfl
      | some right => exact BEq.comm

/-- The classifier takes a table for the selected one when its only block is a pair of commands
that run the executable with the selected config. -/
theorem cronBlockOwnershipForConfig_eq_owned_iff :
    cronBlockOwnershipForConfig resolve table exe config explicit = .owned ↔
      ∃ left right, IsPair (Lines.split table) left right ∧
        pathsEquivalent resolve left.1 exe = true ∧
          matchesSelected left.2 config explicit = true ∧
            matchesSelected right.2 config explicit = true := by
  by_cases isOwned : cronBlockOwnership resolve table exe = .owned
  · rcases cronBlockOwnership_eq_owned_iff.mp isOwned with ⟨left, right, pair, isExe⟩
    rcases pair with ⟨first, second, isOnly, readFirst, readSecond, same⟩
    rcases exists_of_blocksOf isOnly with
      ⟨before, marker, after, isTable, noBefore, begins, noAfter, isBlock⟩
    rcases takeWhile_eq_pair_iff.mp isBlock with ⟨isFirst, isSecond, -, -, ends⟩
    have atFirst : (before ++ marker :: after)[before.length + 1]? = some first :=
      (getElem?_after before marker after 0).trans isFirst
    have atSecond : (before ++ marker :: after)[before.length + 2]? = some second :=
      (getElem?_after before marker after 1).trans isSecond
    rw [isTable] at isOnly ⊢
    have determined : (∃ left right, IsPair (before ++ marker :: after) left right ∧
        pathsEquivalent resolve left.1 exe = true ∧
          matchesSelected left.2 config explicit = true ∧
            matchesSelected right.2 config explicit = true) ↔
        matchesSelected left.2 config explicit = true ∧
          matchesSelected right.2 config explicit = true := by
      constructor
      · rintro ⟨otherLeft, otherRight, pair, -, selected⟩
        rw [isPair_iff noBefore begins noAfter, isFirst, isSecond, Option.bind_some,
          Option.bind_some, readFirst, readSecond] at pair
        cases pair.1
        cases pair.2.1
        exact selected
      · intro selected
        exact ⟨left, right, ⟨first, second, isOnly, readFirst, readSecond, same⟩, isExe, selected⟩
    rw [determined]
    simp only [cronBlockOwnershipForConfig, isOwned, isTable, findIdx?_of_single noBefore begins,
      atFirst, atSecond, Option.getD_some, readFirst, readSecond]
    cases selected : matchesSelected left.2 config explicit with
    | false => cases sameConfig left.2 right.2 <;> simp
    | true =>
        rw [sameConfig_comm, sameConfig_of_matchesSelected selected]
        cases matchesSelected right.2 config explicit <;> simp
  · refine iff_of_false ?_ ?_
    · rw [cronBlockOwnershipForConfig]
      split
      · rename_i owned
        exact absurd owned isOwned
      · exact isOwned
    · rintro ⟨left, right, pair, isExe, -⟩
      exact isOwned (cronBlockOwnership_eq_owned_iff.mpr ⟨left, right, pair, isExe⟩)

end Classifier

end Gregg
