import Gregg.Lib.Search

/-!
# The lines of a text

A line ends with a line feed, which may follow a carriage return; the last line may end without
one, and keeps a carriage return then.
-/

namespace Lines

variable {line text : List Char} {lines : List (List Char)}

/-- A line that ended with a line feed loses one carriage return. -/
def stripReturn (line : List Char) : List Char :=
  if line.getLast? = some '\r' then line.dropLast else line

/-- The lines among the pieces between line feeds. -/
def ofPieces : List (List Char) → List (List Char)
  | [] => []
  | [last] => if last = [] then [] else [last]
  | line :: next :: pieces => stripReturn line :: ofPieces (next :: pieces)

/-- The lines of a text. -/
def split (text : List Char) : List (List Char) :=
  ofPieces (text.splitOn '\n')

/-- Lines, each with its line feed. -/
def join (lines : List (List Char)) : List Char :=
  lines.flatMap (· ++ ['\n'])

@[simp]
theorem join_nil : join [] = [] := rfl

@[simp]
theorem join_cons (line : List Char) (lines : List (List Char)) :
    join (line :: lines) = line ++ '\n' :: join lines := by
  simp [join]

theorem join_append (before after : List (List Char)) :
    join (before ++ after) = join before ++ join after := by
  simp [join]

theorem ofPieces_append {pieces : List (List Char)} (nonempty : pieces ≠ []) :
    ofPieces (lines ++ pieces) = lines.map stripReturn ++ ofPieces pieces := by
  induction lines with
  | nil => rfl
  | cons line lines ih =>
      rcases List.exists_cons_of_ne_nil nonempty with ⟨next, rest, rfl⟩
      cases lines with
      | nil => rfl
      | cons other lines => simpa [ofPieces] using ih

/-- A line feed ends the lines before it. -/
theorem split_append (before after : List Char) :
    split (before ++ '\n' :: after) = (before.splitOn '\n').map stripReturn ++ split after := by
  rw [split, List.splitOn_append_cons_self, ofPieces_append (List.splitOn_ne_nil _ _), split]

theorem split_line (single : '\n' ∉ line) (after : List Char) :
    split (line ++ '\n' :: after) = stripReturn line :: split after := by
  rw [split_append, List.splitOn_eq_singleton single]
  rfl

theorem split_join (single : ∀ line ∈ lines, '\n' ∉ line) (after : List Char) :
    split (join lines ++ after) = lines.map stripReturn ++ split after := by
  induction lines with
  | nil => rfl
  | cons line lines ih =>
      rw [List.forall_mem_cons] at single
      rw [join_cons, List.append_assoc, List.cons_append, split_line single.1, ih single.2]
      rfl

/-- A text is lines with line feeds, and what comes after the last one. -/
theorem exists_parts (text : List Char) : ∃ lines last, (∀ line ∈ lines, '\n' ∉ line) ∧
    '\n' ∉ last ∧ text = join lines ++ last := by
  induction text with
  | nil => exact ⟨[], [], by simp, by simp, rfl⟩
  | cons character text ih =>
      rcases ih with ⟨lines, last, single, lastSingle, rfl⟩
      by_cases isFeed : character = '\n'
      · subst isFeed
        exact ⟨[] :: lines, last, by simpa using single, lastSingle, by simp⟩
      · cases lines with
        | nil =>
            refine ⟨[], character :: last, by simp, ?_, by simp⟩
            rw [List.mem_cons, not_or]
            exact ⟨Ne.symm isFeed, lastSingle⟩
        | cons line lines =>
            rw [List.forall_mem_cons] at single
            refine ⟨(character :: line) :: lines, last, ?_, lastSingle, by simp⟩
            rw [List.forall_mem_cons, List.mem_cons, not_or]
            exact ⟨⟨Ne.symm isFeed, single.1⟩, single.2⟩

theorem split_last (single : '\n' ∉ line) :
    split line = if line = [] then [] else [line] := by
  rw [split, List.splitOn_eq_singleton single]
  rfl

theorem split_parts {last : List Char} (single : ∀ line ∈ lines, '\n' ∉ line)
    (lastSingle : '\n' ∉ last) : split (join lines ++ last) =
      lines.map stripReturn ++ if last = [] then [] else [last] := by
  rw [split_join single, split_last lastSingle]

theorem stripReturn_subset (line : List Char) : stripReturn line ⊆ line := by
  rw [stripReturn]
  split
  · exact List.dropLast_subset line
  · exact List.Subset.refl line

/-- No line of a text has a line feed in it. -/
theorem single_of_mem_split (isLine : line ∈ split text) : '\n' ∉ line := by
  rcases exists_parts text with ⟨lines, last, single, lastSingle, rfl⟩
  rw [split_parts single lastSingle] at isLine
  rcases List.mem_append.mp isLine with isLine | isLast
  · rcases List.mem_map.mp isLine with ⟨whole, isWhole, rfl⟩
    exact fun isFeed => single whole isWhole (stripReturn_subset whole isFeed)
  · split at isLast
    · cases isLast
    · rwa [List.mem_singleton.mp isLast]

/-- A search through the lines passes those where nothing is found. -/
theorem findSome?_split_join {Found : Type} {search : List Char → Option Found}
    {rest : List (List Char)} (single : ∀ line ∈ lines, '\n' ∉ line)
    (nothing : ∀ line ∈ lines, search (stripReturn line) = none) (lineSingle : '\n' ∉ line) :
    (split (join (lines ++ line :: rest))).findSome? search =
      (search (stripReturn line)).or ((split (join rest)).findSome? search) := by
  have passed : (lines.map stripReturn).findSome? search = none := by
    rw [List.findSome?_eq_none_iff]
    intro stripped isLine
    rcases List.mem_map.mp isLine with ⟨whole, isWhole, rfl⟩
    exact nothing whole isWhole
  rw [join_append, join_cons, split_join single, split_line lineSingle, List.findSome?_append,
    passed, Option.none_or, List.findSome?_cons]
  cases search (stripReturn line) <;> rfl

/-- Lines with a line feed between each two, the last of which is given. -/
theorem intercalate_append_singleton (lines : List (List Char)) (last : List Char) :
    ['\n'].intercalate (lines ++ [last]) = join lines ++ last := by
  induction lines with
  | nil => simp [List.intercalate]
  | cons line lines ih =>
      have next : ['\n'].intercalate (line :: (lines ++ [last])) =
          line ++ '\n' :: ['\n'].intercalate (lines ++ [last]) := by
        cases lines <;> simp [List.intercalate]
      rw [List.cons_append, next, ih, join_cons, List.append_assoc, List.cons_append]

/-- A nonempty list of lines is ended by one more line feed. -/
theorem intercalate_append_newline (nonempty : lines ≠ []) :
    ['\n'].intercalate lines ++ ['\n'] = join lines := by
  rcases List.eq_nil_or_concat lines with rfl | ⟨before, last, rfl⟩
  · exact absurd rfl nonempty
  · rw [List.concat_eq_append, intercalate_append_singleton, join_append]
    simp

theorem splitOn_join (single : ∀ line ∈ lines, '\n' ∉ line) :
    (join lines).splitOn '\n' = lines ++ [[]] := by
  rw [← List.append_nil (join lines), ← intercalate_append_singleton]
  refine List.splitOn_intercalate '\n' ?_ (by simp)
  rw [List.forall_mem_append]
  exact ⟨single, by simp⟩

/-- A text has one reading as lines that end with a line feed. -/
theorem join_injective {others : List (List Char)} (single : ∀ line ∈ lines, '\n' ∉ line)
    (otherSingle : ∀ line ∈ others, '\n' ∉ line) (same : join lines = join others) :
    lines = others := by
  have pieces := splitOn_join single
  rw [same, splitOn_join otherSingle] at pieces
  exact (List.append_cancel_right pieces).symm

/-- Without the line feeds at its end, a text of lines ends with its last line that is not
empty. -/
theorem rdropWhile_intercalate (single : ∀ line ∈ lines, '\n' ∉ line) :
    (lines.rdropWhile List.isEmpty = [] ∧
        (['\n'].intercalate lines).rdropWhile (· == '\n') = []) ∨
      (['\n'].intercalate lines).rdropWhile (· == '\n') ≠ [] ∧
        (['\n'].intercalate lines).rdropWhile (· == '\n') ++ ['\n'] =
          join (lines.rdropWhile List.isEmpty) := by
  induction lines using List.reverseRecOn with
  | nil => exact .inl ⟨rfl, rfl⟩
  | append_singleton lines last ih =>
      rw [intercalate_append_singleton]
      rw [List.forall_mem_append] at single
      by_cases empty : last = []
      · subst empty
        rw [List.rdropWhile_concat_pos _ _ _ rfl, List.append_nil]
        by_cases none : lines = []
        · subst none
          exact .inl ⟨rfl, rfl⟩
        · rw [← intercalate_append_newline none, List.rdropWhile_concat_pos _ _ _ (by simp)]
          exact ih single.1
      · have whole : (join lines ++ last).rdropWhile (· == '\n') = join lines ++ last := by
          rw [List.rdropWhile_eq_self_iff]
          intro nonempty isFeed
          rw [List.getLast_append_of_ne_nil _ empty, beq_iff_eq] at isFeed
          exact single.2 last List.mem_cons_self (isFeed ▸ List.getLast_mem empty)
        rw [whole, List.rdropWhile_concat_neg _ _ _ (by simpa using empty), join_append]
        exact .inr ⟨by simp [empty], by simp⟩

end Lines
