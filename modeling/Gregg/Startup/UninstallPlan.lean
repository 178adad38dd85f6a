import Mathlib.Data.List.Flatten
import Gregg.Startup.Watchdog

/-!
# The plan of an uninstall and the removal of the watchdog

The plan classifies the table as a whole, the removal goes through it block by block and writes the
lines it kept. When the two agree, and when every other byte of the table is still there.
-/

namespace Gregg

/-- What listing the crontab of the account gave. -/
inductive CrontabList where
  | content (table : List Char)
  | notFound
  | failed

/-- `read_cron_evidence`: whether the table has a marker, who owns its block, and whether there is a
`crontab` at all. -/
def readCronEvidence (resolve : OsPath → OsPath) (exe config : OsPath) (explicit : Bool) :
    CrontabList → Bool × ArtifactOwnership × Bool
  | .content table =>
      (decide (CRON_MANAGED_MARKER <:+: table),
        cronBlockOwnershipForConfig resolve table exe config explicit, true)
  | .notFound => (false, .absent, false)
  | .failed => (false, .unknown, true)

/-- Whether the plan of an uninstall removes the watchdog. -/
def cronTeardown (resolve : OsPath → OsPath) (exe config : OsPath) (explicit : Bool)
    (listed : CrontabList) : Bool :=
  (readCronEvidence resolve exe config explicit listed).2.1.isOwned

section Bytes

/-- The lines of a table with their line endings. -/
def rawLines : List Char → List (List Char)
  | [] => []
  | character :: rest =>
      if character = '\n' then ['\n'] :: rawLines rest
      else
        match rawLines rest with
        | [] => [[character]]
        | line :: lines => (character :: line) :: lines

/-- A line without its line ending. -/
def lineText (raw : List Char) : List Char :=
  if raw.getLast? = some '\n' then Lines.stripReturn raw.dropLast else raw

/-- The lines outside the blocks that are owned, with their line endings. After the marker of such a
block its commands are left out. -/
def keepRaw (owned : List (List Char) → Bool) : Bool → List (List Char) → List (List Char)
  | _, [] => []
  | inOwned, raw :: rest =>
      if isMarker (lineText raw) then
        if owned ((rest.map lineText).takeWhile isCroncheck) then keepRaw owned true rest
        else raw :: keepRaw owned false rest
      else if inOwned && isCroncheck (lineText raw) then keepRaw owned true rest
      else raw :: keepRaw owned false rest

/-- A table of which every byte outside the owned blocks is left. -/
def otherBytes (owned : List (List Char) → Bool) (table : List Char) : List Char :=
  (keepRaw owned false (rawLines table)).flatten

variable {lines : List (List Char)} {last : List Char}

theorem rawLines_append {line : List Char} (single : '\n' ∉ line) (rest : List Char) :
    rawLines (line ++ '\n' :: rest) = (line ++ ['\n']) :: rawLines rest := by
  induction line with
  | nil => exact if_pos rfl
  | cons character line ih =>
      rw [List.mem_cons, not_or] at single
      rw [List.cons_append, rawLines, if_neg (Ne.symm single.1), ih single.2]
      rfl

theorem rawLines_last (single : '\n' ∉ last) :
    rawLines last = if last = [] then [] else [last] := by
  induction last with
  | nil => rfl
  | cons character last ih =>
      rw [List.mem_cons, not_or] at single
      rw [rawLines, if_neg (Ne.symm single.1), ih single.2, if_neg (List.cons_ne_nil _ _)]
      cases last <;> rfl

/-- The lines of a text that is given by its lines and what comes after the last one. -/
theorem rawLines_parts (single : ∀ line ∈ lines, '\n' ∉ line) (lastSingle : '\n' ∉ last) :
    rawLines (Lines.join lines ++ last) =
      lines.map (· ++ ['\n']) ++ if last = [] then [] else [last] := by
  induction lines with
  | nil => exact rawLines_last lastSingle
  | cons line lines ih =>
      rw [List.forall_mem_cons] at single
      rw [Lines.join_cons, List.append_assoc, List.cons_append, rawLines_append single.1,
        ih single.2]
      rfl

theorem flatten_parts (lines : List (List Char)) (last : List Char) :
    (lines.map (· ++ ['\n']) ++ if last = [] then [] else [last]).flatten =
      Lines.join lines ++ last := by
  have whole : (lines.map (· ++ ['\n'])).flatten = Lines.join lines :=
    (List.flatMap_def ..).symm
  rw [List.flatten_append, whole]
  split
  · rename_i isEmpty
    rw [isEmpty]
    rfl
  · rw [List.flatten_singleton]

theorem flatten_rawLines (table : List Char) : (rawLines table).flatten = table := by
  rcases Lines.exists_parts table with ⟨lines, last, single, lastSingle, rfl⟩
  rw [rawLines_parts single lastSingle, flatten_parts]

theorem ne_nil_of_mem_rawLines {table raw : List Char} (isRaw : raw ∈ rawLines table) :
    raw ≠ [] := by
  rcases Lines.exists_parts table with ⟨lines, last, single, lastSingle, rfl⟩
  rw [rawLines_parts single lastSingle] at isRaw
  rcases List.mem_append.mp isRaw with isEnded | isLast
  · rcases List.mem_map.mp isEnded with ⟨line, -, rfl⟩
    simp
  · split at isLast
    · cases isLast
    · rename_i nonempty
      rwa [List.mem_singleton.mp isLast]

theorem lineText_ended (line : List Char) : lineText (line ++ ['\n']) = Lines.stripReturn line := by
  rw [lineText, if_pos List.getLast?_concat, List.dropLast_concat]

theorem lineText_last (single : '\n' ∉ last) : lineText last = last := by
  rw [lineText, if_neg]
  intro isFeed
  exact single (List.mem_of_getLast? isFeed)

theorem map_lineText_parts (lines : List (List Char)) (lastSingle : '\n' ∉ last) :
    (lines.map (· ++ ['\n']) ++ if last = [] then [] else [last]).map lineText =
      lines.map Lines.stripReturn ++ if last = [] then [] else [last] := by
  rw [List.map_append, List.map_map]
  congr 1
  · exact List.map_congr_left fun line _ => lineText_ended line
  · split
    · rfl
    · exact congrArg (· :: []) (lineText_last lastSingle)

theorem map_lineText_rawLines (table : List Char) :
    (rawLines table).map lineText = Lines.split table := by
  rcases Lines.exists_parts table with ⟨lines, last, single, lastSingle, rfl⟩
  rw [rawLines_parts single lastSingle, Lines.split_parts single lastSingle,
    map_lineText_parts lines lastSingle]

/-- Some lines of a table in their order: only the last line of the table can be without a line
feed. -/
theorem exists_parts_of_sublist {table : List Char} {kept : List (List Char)}
    (sublist : kept.Sublist (rawLines table)) : ∃ lines last,
      (∀ line ∈ lines, '\n' ∉ line) ∧ '\n' ∉ last ∧
        kept = List.map (· ++ ['\n']) lines ++ (if last = [] then [] else [last]) ∧
          (last ≠ [] → table.getLast? ≠ some '\n') := by
  rcases Lines.exists_parts table with ⟨lines, last, single, lastSingle, rfl⟩
  rw [rawLines_parts single lastSingle] at sublist
  rcases List.sublist_append_iff.mp sublist with ⟨ended, rest, rfl, isEnded, isRest⟩
  rcases List.sublist_map_iff.mp isEnded with ⟨keptLines, isKept, rfl⟩
  have keptSingle : ∀ line ∈ keptLines, '\n' ∉ line :=
    fun line isLine => single line (isKept.subset isLine)
  by_cases isEmpty : rest = []
  · subst isEmpty
    exact ⟨keptLines, [], keptSingle, List.not_mem_nil, rfl, fun nonempty => absurd rfl nonempty⟩
  · by_cases noLast : last = []
    · rw [if_pos noLast, List.sublist_nil] at isRest
      exact absurd isRest isEmpty
    · rw [if_neg noLast, List.sublist_singleton] at isRest
      refine ⟨keptLines, last, keptSingle, lastSingle, ?_, fun _ isFeed => ?_⟩
      · rw [if_neg noLast, isRest.resolve_left isEmpty]
      · rw [List.getLast?_append_of_ne_nil _ noLast] at isFeed
        exact lastSingle (List.mem_of_getLast? isFeed)

theorem return_suffix_iff {line : List Char} :
    ['\r', '\n'] <:+ line ++ ['\n'] ↔ line.getLast? = some '\r' := by
  rw [List.getLast?_eq_some_iff, List.suffix_concat_iff]
  constructor
  · rintro (⟨⟨⟩⟩ | ⟨before, isBefore, within⟩)
    have isReturn : before = ['\r'] := List.append_cancel_right isBefore.symm
    rcases within with ⟨rest, rfl⟩
    exact ⟨rest, by rw [isReturn]⟩
  · rintro ⟨rest, rfl⟩
    exact .inr ⟨['\r'], rfl, rest, rfl⟩

end Bytes

section Blocks

variable {line : List Char} {lines : List (List Char)} {owned : List (List Char) → Bool}

theorem takeWhile_append_keepUnowned (lines : List (List Char)) :
    lines.takeWhile isCroncheck ++ keepUnowned owned (lines.dropWhile isCroncheck) =
      keepUnowned owned lines := by
  have noMarker : ∀ line ∈ lines.takeWhile isCroncheck, isMarker line = false :=
    fun line isLine => isMarker_of_isCroncheck (List.mem_takeWhile_imp isLine)
  rw [← keepUnowned_append noMarker, List.takeWhile_append_dropWhile]

theorem keepUnowned_line (other : isMarker line = false) (rest : List (List Char)) :
    keepUnowned owned (line :: rest) = line :: keepUnowned owned rest := by
  rw [keepUnowned, if_pos (by rw [other]; rfl)]

theorem keepUnowned_marker (begins : isMarker line = true) (rest : List (List Char)) :
    keepUnowned owned (line :: rest) =
      if owned (rest.takeWhile isCroncheck) then keepUnowned owned (rest.dropWhile isCroncheck)
      else line :: keepUnowned owned rest := by
  rw [keepUnowned, if_neg (by rw [begins]; decide), List.cons_append,
    takeWhile_append_keepUnowned]

/-- The lines that the removal keeps, with their line endings. -/
theorem map_keepRaw (inOwned : Bool) (raws : List (List Char)) :
    (keepRaw owned inOwned raws).map lineText = keepUnowned owned
      (if inOwned then (raws.map lineText).dropWhile isCroncheck else raws.map lineText) := by
  induction raws generalizing inOwned with
  | nil => cases inOwned <;> rw [keepRaw] <;> exact (keepUnowned.eq_1 owned).symm
  | cons raw rest ih =>
      have atMarker : isMarker (lineText raw) = true → isCroncheck (lineText raw) = false := by
        intro begins
        by_contra isCommand
        rw [isMarker_of_isCroncheck (Bool.of_not_eq_false isCommand)] at begins
        cases begins
      have opened : isMarker (lineText raw) = true →
          (if inOwned then ((raw :: rest).map lineText).dropWhile isCroncheck
            else (raw :: rest).map lineText) = lineText raw :: rest.map lineText := by
        intro begins
        cases inOwned with
        | false => rfl
        | true => exact List.dropWhile_cons_of_neg (by rw [atMarker begins]; decide)
      rw [keepRaw]
      by_cases begins : isMarker (lineText raw)
      · rw [if_pos begins, opened begins, keepUnowned_marker begins]
        split
        · exact ih true
        · rw [List.map_cons, ih]
          rfl
      · have other : isMarker (lineText raw) = false := Bool.eq_false_iff.mpr begins
        rw [if_neg begins]
        by_cases skipped : (inOwned && isCroncheck (lineText raw)) = true
        · rcases Bool.and_eq_true_iff.mp skipped with ⟨rfl, isCommand⟩
          rw [if_pos skipped, ih, List.map_cons]
          simp only [if_true]
          rw [List.dropWhile_cons_of_pos isCommand]
        · have atLine : (if inOwned then ((raw :: rest).map lineText).dropWhile isCroncheck
              else (raw :: rest).map lineText) = lineText raw :: rest.map lineText := by
            cases inOwned with
            | false => rfl
            | true => exact List.dropWhile_cons_of_neg fun isCommand =>
                skipped (Bool.and_eq_true_iff.mpr ⟨rfl, isCommand⟩)
          rw [if_neg skipped, atLine, List.map_cons, ih, keepUnowned_line other]
          rfl

theorem keepRaw_sublist (inOwned : Bool) (raws : List (List Char)) :
    (keepRaw owned inOwned raws).Sublist raws := by
  induction raws generalizing inOwned with
  | nil => rw [keepRaw]
  | cons raw rest ih =>
      rw [keepRaw]
      split
      · split
        · exact (ih true).cons raw
        · exact (ih false).cons_cons raw
      · split
        · exact (ih true).cons raw
        · exact (ih false).cons_cons raw

/-- Without an owned block every line is kept. -/
theorem keepRaw_eq_self {raws : List (List Char)}
    (none : ∀ block ∈ blocksOf (raws.map lineText), owned block = false) :
    keepRaw owned false raws = raws := by
  induction raws with
  | nil => rw [keepRaw]
  | cons raw rest ih =>
      rw [List.map_cons, blocksOf] at none
      rw [keepRaw]
      split
      · rename_i begins
        rw [if_pos begins, List.forall_mem_cons] at none
        rw [if_neg (by rw [none.1]; decide), ih none.2]
      · rename_i other
        rw [if_neg other] at none
        rw [Bool.false_and, if_neg Bool.false_ne_true, ih none]

/-- An owned block is left out. -/
theorem length_keepRaw_lt {raws : List (List Char)} {block : List (List Char)} (inOwned : Bool)
    (whole : ∀ raw ∈ raws, raw ≠ []) (isBlock : block ∈ blocksOf (raws.map lineText))
    (isOwned : owned block = true) :
    (keepRaw owned inOwned raws).flatten.length < raws.flatten.length := by
  induction raws generalizing inOwned with
  | nil => cases isBlock
  | cons raw rest ih =>
      rw [List.forall_mem_cons] at whole
      rw [List.map_cons, blocksOf] at isBlock
      have some := List.length_pos_of_ne_nil whole.1
      have shorter := (@keepRaw_sublist owned true rest).flatten.length_le
      rw [keepRaw, List.flatten_cons, List.length_append]
      split
      · rename_i begins
        rw [if_pos begins] at isBlock
        rcases List.mem_cons.mp isBlock with rfl | isLater
        · rw [if_pos isOwned]
          omega
        · have later := ih false whole.2 isLater
          split
          · omega
          · rw [List.flatten_cons, List.length_append]
            omega
      · rename_i other
        rw [if_neg other] at isBlock
        have later := ih false whole.2 isBlock
        split
        · omega
        · rw [List.flatten_cons, List.length_append]
          omega

end Blocks

section Rejoined

variable {owned : List (List Char) → Bool} {table : List Char} {lines : List (List Char)}
  {last : List Char}

theorem single_map_stripReturn (single : ∀ line ∈ lines, '\n' ∉ line) :
    ∀ line ∈ lines.map Lines.stripReturn, '\n' ∉ line := by
  intro stripped isStripped
  rcases List.mem_map.mp isStripped with ⟨line, isLine, rfl⟩
  exact fun isFeed => single line isLine (Lines.stripReturn_subset line isFeed)

theorem join_map_stripReturn_iff (single : ∀ line ∈ lines, '\n' ∉ line) :
    Lines.join (lines.map Lines.stripReturn) = Lines.join lines ↔
      lines.map Lines.stripReturn = lines := by
  constructor
  · exact Lines.join_injective (single_map_stripReturn single) single
  · intro same
    rw [same]

theorem noReturn_iff (lastSingle : '\n' ∉ last) :
    (∀ raw ∈ lines.map (· ++ ['\n']) ++ (if last = [] then [] else [last]),
        ¬['\r', '\n'] <:+ raw) ↔ lines.map Lines.stripReturn = lines := by
  have lastEnds : ∀ raw ∈ (if last = [] then [] else [last]), ¬['\r', '\n'] <:+ raw := by
    intro raw isRaw isSuffix
    split at isRaw
    · cases isRaw
    · rw [List.mem_singleton.mp isRaw] at isSuffix
      exact lastSingle (isSuffix.subset (by simp))
  have same : lines.map Lines.stripReturn = lines ↔
      ∀ line ∈ lines, Lines.stripReturn line = line := by
    conv_lhs => rw [← List.map_id lines, List.map_map]
    exact List.map_inj_left
  rw [List.forall_mem_append, and_iff_left lastEnds, List.forall_mem_map, same]
  exact forall₂_congr fun line _ => (not_congr return_suffix_iff).trans stripReturn_eq_self_iff.symm

/-- What is left of a table is written as it was: no line of it ends with a carriage return, it is
not one blank line, and its last line ends as the table does. -/
structure Tidy (owned : List (List Char) → Bool) (table : List Char) : Prop where
  noReturn : ∀ raw ∈ keepRaw owned false (rawLines table), ¬['\r', '\n'] <:+ raw
  notBlank : keepRaw owned false (rawLines table) ≠ [['\n']]
  ended : ∀ raw ∈ (keepRaw owned false (rawLines table)).getLast?,
    raw.getLast? = some '\n' → table.getLast? = some '\n'

theorem map_append_newline_eq_iff :
    lines.map (· ++ ['\n']) = [['\n']] ↔ lines = [[]] := by
  rw [List.map_eq_singleton_iff]
  constructor
  · rintro ⟨line, rfl, isFeed⟩
    rw [List.append_left_eq_self.mp isFeed]
  · rintro rfl
    exact ⟨[], rfl, rfl⟩

/-- The removal writes every byte that is left of the table. -/
theorem rejoin_eq_iff :
    rejoin table (keepUnowned owned (Lines.split table)) = otherBytes owned table ↔
      Tidy owned table := by
  have kept : (keepRaw owned false (rawLines table)).map lineText =
      keepUnowned owned (Lines.split table) := by
    rw [map_keepRaw, map_lineText_rawLines]
    rfl
  rcases exists_parts_of_sublist (@keepRaw_sublist owned false (rawLines table)) with
    ⟨lines, last, single, lastSingle, parts, unended⟩
  have tidy : Tidy owned table ↔ lines.map Lines.stripReturn = lines ∧
      (keepRaw owned false (rawLines table) ≠ [['\n']]) ∧
        ∀ raw ∈ (keepRaw owned false (rawLines table)).getLast?,
          raw.getLast? = some '\n' → table.getLast? = some '\n' := by
    rw [← noReturn_iff lastSingle, ← parts]
    constructor
    · rintro ⟨noReturn, notBlank, ended⟩
      exact ⟨noReturn, notBlank, ended⟩
    · rintro ⟨noReturn, notBlank, ended⟩
      exact ⟨noReturn, notBlank, ended⟩
  rw [tidy, otherBytes, ← kept, parts, flatten_parts, map_lineText_parts lines lastSingle]
  by_cases isEnded : last = []
  · subst isEnded
    simp only [if_true, List.append_nil]
    by_cases none : lines = []
    · subst none
      simp [rejoin, List.intercalate]
    · rcases List.eq_nil_or_concat lines with isEmpty | ⟨before, line, isLines⟩
      · exact absurd isEmpty none
      have stripped : lines.map Lines.stripReturn ≠ [] := by
        rwa [Ne, List.map_eq_nil_iff]
      have joined := Lines.intercalate_append_newline stripped
      have ended : (∀ raw ∈ (lines.map (· ++ ['\n'])).getLast?,
          raw.getLast? = some '\n' → table.getLast? = some '\n') ↔
            table.getLast? = some '\n' := by
        rw [isLines, List.concat_eq_append, List.map_append, List.map_singleton,
          List.getLast?_concat]
        simp
      have blank : lines.map (· ++ ['\n']) ≠ [['\n']] ↔ lines ≠ [[]] :=
        not_congr map_append_newline_eq_iff
      rw [ended, blank, rejoin]
      by_cases feed : table.getLast? = some '\n'
      · by_cases isBlank : ['\n'].intercalate (lines.map Lines.stripReturn) = []
        · rw [if_neg fun both => both.2 isBlank, isBlank]
          apply iff_of_false
          · intro isJoin
            rw [isLines, List.concat_eq_append, Lines.join_append] at isJoin
            simp at isJoin
          · rintro ⟨same, notBlank, -⟩
            apply notBlank
            rw [isBlank, same] at joined
            exact Lines.join_injective single (by simp) (joined.symm.trans rfl)
        · rw [if_pos ⟨feed, isBlank⟩, joined, join_map_stripReturn_iff single]
          refine ⟨fun same => ⟨same, ?_, feed⟩, fun both => both.1⟩
          rintro rfl
          exact isBlank rfl
      · rw [if_neg fun both => feed both.1]
        refine iff_of_false (fun same => ?_) fun both => feed both.2.2
        have longer : Lines.join (lines ++ [[]]) = Lines.join (lines.map Lines.stripReturn) := by
          rw [← joined, same, Lines.join_append]
          rfl
        have longerSingle : ∀ line ∈ lines ++ [[]], '\n' ∉ line := by
          rw [List.forall_mem_append]
          exact ⟨single, by simp⟩
        have length := congrArg List.length
          (Lines.join_injective longerSingle (single_map_stripReturn single) longer)
        rw [List.length_append, List.length_map, List.length_singleton] at length
        omega
  · have feed := unended isEnded
    have notBlank : lines.map (· ++ ['\n']) ++ [last] ≠ [['\n']] := by
      intro isBlank
      have isLast := congrArg List.getLast? isBlank
      rw [List.getLast?_concat] at isLast
      cases isLast
      exact lastSingle List.mem_cons_self
    have ended : ∀ raw ∈ (lines.map (· ++ ['\n']) ++ [last]).getLast?,
        raw.getLast? = some '\n' → table.getLast? = some '\n' := by
      intro raw isRaw isFeed
      rw [List.getLast?_concat] at isRaw
      cases isRaw
      exact absurd (List.mem_of_getLast? isFeed) lastSingle
    rw [if_neg isEnded, rejoin, if_neg fun both => feed both.1, Lines.intercalate_append_singleton,
      List.append_left_inj, join_map_stripReturn_iff single, and_iff_left ⟨notBlank, ended⟩]

/-- The lines of what is left of a table. -/
theorem split_otherBytes (owned : List (List Char) → Bool) (table : List Char) :
    Lines.split (otherBytes owned table) = keepUnowned owned (Lines.split table) := by
  have kept : (keepRaw owned false (rawLines table)).map lineText =
      keepUnowned owned (Lines.split table) := by
    rw [map_keepRaw, map_lineText_rawLines]
    rfl
  rcases exists_parts_of_sublist (@keepRaw_sublist owned false (rawLines table)) with
    ⟨lines, last, single, lastSingle, parts, -⟩
  rw [otherBytes, ← kept, parts, flatten_parts, map_lineText_parts lines lastSingle,
    Lines.split_parts single lastSingle]

theorem takeWhile_dropWhile_isCroncheck (lines : List (List Char)) :
    (lines.dropWhile isCroncheck).takeWhile isCroncheck = [] := by
  induction lines with
  | nil => rfl
  | cons line lines ih =>
      by_cases isCommand : isCroncheck line
      · rwa [List.dropWhile_cons_of_pos isCommand]
      · rw [List.dropWhile_cons_of_neg isCommand, List.takeWhile_cons_of_neg isCommand]

theorem takeWhile_marker {line : List Char} (begins : isMarker line = true)
    (rest : List (List Char)) : (line :: rest).takeWhile isCroncheck = [] := by
  refine List.takeWhile_cons_of_neg fun isCommand => ?_
  rw [isMarker_of_isCroncheck isCommand] at begins
  cases begins

/-- The commands in front of the other lines are kept. -/
theorem takeWhile_keepUnowned (lines : List (List Char)) :
    (keepUnowned owned lines).takeWhile isCroncheck = lines.takeWhile isCroncheck := by
  fun_induction keepUnowned owned lines with
  | case1 => rfl
  | case2 line rest other ih => rw [List.takeWhile_cons, List.takeWhile_cons, ih]
  | case3 line rest begins isOwned ih =>
      have isMarkerLine : isMarker line = true := by simpa using begins
      rw [ih, takeWhile_dropWhile_isCroncheck, takeWhile_marker isMarkerLine]
  | case4 line rest begins isOwned ih =>
      have isMarkerLine : isMarker line = true := by simpa using begins
      rw [List.cons_append, takeWhile_marker isMarkerLine, takeWhile_marker isMarkerLine]

/-- No block that is owned is left. -/
theorem owned_of_mem_blocksOf {block : List (List Char)}
    (isBlock : block ∈ blocksOf (keepUnowned owned lines)) : owned block = false := by
  fun_induction keepUnowned owned lines with
  | case1 => cases isBlock
  | case2 line rest other ih =>
      rw [blocksOf, if_neg (by simpa using other)] at isBlock
      exact ih isBlock
  | case3 line rest begins isOwned ih => exact ih isBlock
  | case4 line rest begins isOwned ih =>
      have noMarker : ∀ line ∈ rest.takeWhile isCroncheck, isMarker line = false :=
        fun line isLine => isMarker_of_isCroncheck (List.mem_takeWhile_imp isLine)
      rw [List.cons_append, takeWhile_append_keepUnowned, blocksOf,
        if_pos (by simpa using begins), takeWhile_keepUnowned, List.mem_cons] at isBlock
      rcases isBlock with rfl | isLater
      · exact Bool.eq_false_iff.mpr isOwned
      · rw [← takeWhile_append_keepUnowned, blocksOf_append noMarker] at isLater
        exact ih isLater

end Rejoined

section Uninstall

variable {resolve : OsPath → OsPath} {exe config : OsPath} {explicit : Bool} {table : List Char}

/-- The table after an uninstall, which removes the watchdog where the plan says so. -/
def tableAfterUninstall (resolve : OsPath → OsPath) (exe config : OsPath) (explicit : Bool)
    (table : List Char) : List Char :=
  if cronTeardown resolve exe config explicit (.content table) then
    (cronUninstallChangedForConfig resolve table exe config explicit).getD table
  else table

/-- The plan and the removal agree: the watchdog is planned to go when the removal changes the
table, the removal changes it when it has a block for the executable and the selected config, every
other byte is left, and so is no such block. -/
structure UninstallAgrees (resolve : OsPath → OsPath) (exe config : OsPath) (explicit : Bool)
    (table : List Char) : Prop where
  planned : cronTeardown resolve exe config explicit (.content table) = true ↔
    (cronUninstallChangedForConfig resolve table exe config explicit).isSome = true
  removed : (cronUninstallChangedForConfig resolve table exe config explicit).isSome = true ↔
    ∃ block ∈ blocksOf (Lines.split table), isForSelected resolve exe config explicit block = true
  preserved : ∀ left ∈ cronUninstallChangedForConfig resolve table exe config explicit,
    left = otherBytes (isForSelected resolve exe config explicit) table
  gone : ∀ block ∈ blocksOf (Lines.split (tableAfterUninstall resolve exe config explicit table)),
    isForSelected resolve exe config explicit block = false

/-- The plan recognises every block that the removal takes: such a block is the only one and a pair
of commands, and both commands of a pair for the selected config run the executable when one of
them does. -/
structure Plannable (resolve : OsPath → OsPath) (exe config : OsPath) (explicit : Bool)
    (table : List Char) : Prop where
  alone : ∀ block ∈ blocksOf (Lines.split table),
    isForSelected resolve exe config explicit block = true →
      ∃ left right, IsPair (Lines.split table) left right
  together : ∀ left right, IsPair (Lines.split table) left right →
    matchesSelected left.2 config explicit = true →
      matchesSelected right.2 config explicit = true →
        pathsEquivalent resolve left.1 exe = true → pathsEquivalent resolve right.1 exe = true

/-- When the only block of a table is a pair, what the removal asks of it. -/
theorem exists_isForSelected_iff {left right : OsPath × Option OsPath}
    (pair : IsPair (Lines.split table) left right) :
    (∃ block ∈ blocksOf (Lines.split table),
        isForSelected resolve exe config explicit block = true) ↔
      (pathsEquivalent resolve left.1 exe = true ∧
        matchesSelected left.2 config explicit = true) ∧
          pathsEquivalent resolve right.1 exe = true ∧
            matchesSelected right.2 config explicit = true := by
  rcases pair with ⟨first, second, isOnly, readFirst, readSecond, -⟩
  rw [isOnly]
  simp [isForSelected, readFirst, readSecond]

theorem cronTeardown_iff : cronTeardown resolve exe config explicit (.content table) = true ↔
    cronBlockOwnershipForConfig resolve table exe config explicit = .owned := by
  rw [cronTeardown, readCronEvidence, ArtifactOwnership.isOwned, beq_iff_eq]

theorem otherBytes_eq_self_iff {owned : List (List Char) → Bool} :
    otherBytes owned table = table ↔
      ¬∃ block ∈ blocksOf (Lines.split table), owned block = true := by
  constructor
  · rintro same ⟨block, isBlock, isOwned⟩
    rw [← map_lineText_rawLines] at isBlock
    have shorter := length_keepRaw_lt false (fun raw isRaw => ne_nil_of_mem_rawLines isRaw) isBlock
      isOwned
    rw [← otherBytes, same, flatten_rawLines] at shorter
    exact absurd shorter (Nat.lt_irrefl _)
  · intro none
    rw [otherBytes, keepRaw_eq_self, flatten_rawLines]
    intro block isBlock
    rw [map_lineText_rawLines] at isBlock
    exact Bool.eq_false_iff.mpr fun isOwned => none ⟨block, isBlock, isOwned⟩

theorem removeManagedCronBlockForConfig_eq :
    removeManagedCronBlockForConfig resolve table exe config explicit =
      rejoin table (keepUnowned (isForSelected resolve exe config explicit)
        (Lines.split table)) := by
  have same : blockIsOwnedBy resolve exe config explicit =
      isForSelected resolve exe config explicit := funext blockIsOwnedBy_eq
  rw [removeManagedCronBlockForConfig, same]

/-- Exactly when the plan and the removal agree: what is left of the table is written as it was, and
the plan recognises every block that the removal takes. -/
theorem uninstallAgrees_iff : UninstallAgrees resolve exe config explicit table ↔
    Tidy (isForSelected resolve exe config explicit) table ∧
      Plannable resolve exe config explicit table := by
  rw [← rejoin_eq_iff, ← removeManagedCronBlockForConfig_eq]
  constructor
  · rintro ⟨planned, removed, preserved, -⟩
    refine ⟨?_, ?_, ?_⟩
    · by_cases changes : removeManagedCronBlockForConfig resolve table exe config explicit = table
      · have none : cronUninstallChangedForConfig resolve table exe config explicit = none :=
          if_neg (not_not_intro changes)
        rw [changes, eq_comm, otherBytes_eq_self_iff, ← removed, none]
        exact Bool.false_ne_true
      · exact preserved _ (if_pos changes)
    · intro block isBlock isSelected
      have isOwned := planned.mpr (removed.mpr ⟨block, isBlock, isSelected⟩)
      rcases cronBlockOwnershipForConfig_eq_owned_iff.mp (cronTeardown_iff.mp isOwned) with
        ⟨left, right, pair, -⟩
      exact ⟨left, right, pair⟩
    · intro left right pair leftSelected rightSelected isExe
      have isOwned := cronTeardown_iff.mpr (cronBlockOwnershipForConfig_eq_owned_iff.mpr
        ⟨left, right, pair, isExe, leftSelected, rightSelected⟩)
      exact ((exists_isForSelected_iff pair).mp (removed.mp (planned.mp isOwned))).2.1
  · rintro ⟨whole, alone, together⟩
    have changed : cronUninstallChangedForConfig resolve table exe config explicit =
        if otherBytes (isForSelected resolve exe config explicit) table ≠ table then
          some (otherBytes (isForSelected resolve exe config explicit) table)
        else none := by
      rw [cronUninstallChangedForConfig, whole]
    have removed : (cronUninstallChangedForConfig resolve table exe config explicit).isSome =
        true ↔ ∃ block ∈ blocksOf (Lines.split table),
          isForSelected resolve exe config explicit block = true := by
      rw [changed, ← not_iff_not, ← otherBytes_eq_self_iff]
      split
      · rename_i changes
        exact iff_of_false (by simp) changes
      · rename_i same
        exact iff_of_true (by simp) (not_not.mp same)
    have planned : cronTeardown resolve exe config explicit (.content table) = true ↔
        ∃ block ∈ blocksOf (Lines.split table),
          isForSelected resolve exe config explicit block = true := by
      rw [cronTeardown_iff, cronBlockOwnershipForConfig_eq_owned_iff]
      constructor
      · rintro ⟨left, right, pair, isExe, leftSelected, rightSelected⟩
        have alsoExe := together left right pair leftSelected rightSelected isExe
        exact (exists_isForSelected_iff pair).mpr ⟨⟨isExe, leftSelected⟩, alsoExe, rightSelected⟩
      · rintro ⟨block, isBlock, isSelected⟩
        rcases alone block isBlock isSelected with ⟨left, right, pair⟩
        rcases (exists_isForSelected_iff pair).mp ⟨block, isBlock, isSelected⟩ with
          ⟨⟨isExe, leftSelected⟩, -, rightSelected⟩
        exact ⟨left, right, pair, isExe, leftSelected, rightSelected⟩
    have preserved : ∀ left ∈ cronUninstallChangedForConfig resolve table exe config explicit,
        left = otherBytes (isForSelected resolve exe config explicit) table := by
      intro left isLeft
      rw [changed] at isLeft
      split at isLeft
      · exact (Option.some_inj.mp isLeft).symm
      · cases isLeft
    refine ⟨planned.trans removed.symm, removed, preserved, ?_⟩
    intro block isBlock
    rw [tableAfterUninstall] at isBlock
    split at isBlock
    · rename_i isPlanned
      rcases Option.isSome_iff_exists.mp (removed.mpr (planned.mp isPlanned)) with ⟨left, isLeft⟩
      rw [isLeft, Option.getD_some, preserved left isLeft, split_otherBytes] at isBlock
      exact owned_of_mem_blocksOf isBlock
    · rename_i notPlanned
      exact Bool.eq_false_iff.mpr fun isSelected =>
        notPlanned (planned.mpr ⟨block, isBlock, isSelected⟩)

/-- The watchdogs of two configs in one table: the removal would take the one for the first, and the
plan leaves it. -/
theorem not_uninstallAgrees_twoConfigs : ¬UninstallAgrees id (.ofText "/usr/bin/greggd".toList)
    (.ofText "/etc/a.toml".toList) true
    (Lines.join ["# greggd managed watchdog".toList,
      "@reboot '/usr/bin/greggd' --config '/etc/a.toml' croncheck".toList,
      "* * * * * '/usr/bin/greggd' --config '/etc/a.toml' croncheck".toList,
      "# greggd managed watchdog".toList,
      "@reboot '/usr/bin/greggd' --config '/etc/b.toml' croncheck".toList,
      "* * * * * '/usr/bin/greggd' --config '/etc/b.toml' croncheck".toList]) := by
  intro agrees
  have isPlanned := agrees.planned.mpr (agrees.removed.mpr
    ⟨["@reboot '/usr/bin/greggd' --config '/etc/a.toml' croncheck".toList,
      "* * * * * '/usr/bin/greggd' --config '/etc/a.toml' croncheck".toList], by decide +kernel,
      by decide +kernel⟩)
  revert isPlanned
  decide +kernel

end Uninstall

end Gregg
