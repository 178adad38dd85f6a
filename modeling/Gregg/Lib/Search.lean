import Mathlib.Data.List.DropRight
import Mathlib.Data.List.TakeWhile

/-!
# Searching a list for a pattern

Splitting a list at the occurrences of a pattern and replacing them, with the rules that move a
search past a part no occurrence can begin in. Such a part is recognized by a test, so that a
search through a fixed text with an unknown part computes up to the unknown part.
-/

namespace Search

variable {Symbol : Type} [DecidableEq Symbol] {pattern text after : List Symbol}

/-- What follows a prefix. -/
def stripPrefix : List Symbol → List Symbol → Option (List Symbol)
  | [], text => some text
  | _ :: _, [] => none
  | first :: pattern, symbol :: text =>
      if first = symbol then stripPrefix pattern text else none

/-- What comes before a suffix. -/
def stripSuffix (pattern text : List Symbol) : Option (List Symbol) :=
  (stripPrefix pattern.reverse text.reverse).map List.reverse

/-- The parts before and after the first occurrence of a pattern. -/
def splitOnce (pattern : List Symbol) : List Symbol → Option (List Symbol × List Symbol)
  | [] => if pattern = [] then some ([], []) else none
  | symbol :: text =>
      match stripPrefix pattern (symbol :: text) with
      | some after => some ([], after)
      | none => (splitOnce pattern text).map fun (before, after) => (symbol :: before, after)

/-- The parts between the occurrences of a pattern, after some symbols of the last one. -/
def splitAfter (pattern : List Symbol) : Nat → List Symbol → List (List Symbol)
  | _, [] => [[]]
  | skipped + 1, _ :: text => splitAfter pattern skipped text
  | 0, symbol :: text =>
      if pattern <+: symbol :: text then [] :: splitAfter pattern (pattern.length - 1) text
      else (splitAfter pattern 0 text).modifyHead (symbol :: ·)

/-- The parts between the occurrences of a pattern. -/
def split (pattern text : List Symbol) : List (List Symbol) :=
  splitAfter pattern 0 text

def replace (pattern replacement text : List Symbol) : List Symbol :=
  replacement.intercalate (split pattern text)

/-- At most `count` parts between separators, the last of which keeps the separators left. -/
def splitN (isSeparator : Symbol → Bool) : Nat → List Symbol → List (List Symbol)
  | 0, _ => []
  | 1, text => [text]
  | count + 2, text =>
      match text.dropWhile (!isSeparator ·) with
      | [] => [text]
      | _ :: rest => text.takeWhile (!isSeparator ·) :: splitN isSeparator (count + 1) rest

/-- Without the matches at either end. -/
def trimMatches (isMatch : Symbol → Bool) (text : List Symbol) : List Symbol :=
  (text.dropWhile isMatch).rdropWhile isMatch

section Prefixes

@[simp]
theorem stripPrefix_append (pattern text : List Symbol) :
    stripPrefix pattern (pattern ++ text) = some text := by
  induction pattern with
  | nil => rfl
  | cons first pattern ih => simpa [stripPrefix] using ih

theorem stripPrefix_eq_some_iff :
    stripPrefix pattern text = some after ↔ text = pattern ++ after := by
  constructor
  · intro stripped
    induction pattern generalizing text with
    | nil => simpa [stripPrefix] using stripped
    | cons first pattern ih =>
        cases text with
        | nil => simp [stripPrefix] at stripped
        | cons symbol text =>
            simp only [stripPrefix] at stripped
            split at stripped
            · rename_i same
              rw [same, ih stripped, List.cons_append]
            · cases stripped
  · rintro rfl
    exact stripPrefix_append pattern after

theorem stripPrefix_eq_none_iff : stripPrefix pattern text = none ↔ ¬pattern <+: text := by
  rw [Option.eq_none_iff_forall_ne_some]
  constructor
  · rintro never ⟨after, rfl⟩
    exact never after (stripPrefix_append pattern after)
  · intro notPrefix after stripped
    exact notPrefix ⟨after, (stripPrefix_eq_some_iff.mp stripped).symm⟩

theorem stripSuffix_eq_some_iff :
    stripSuffix pattern text = some after ↔ text = after ++ pattern := by
  rw [stripSuffix, Option.map_eq_some_iff]
  constructor
  · rintro ⟨reversed, stripped, rfl⟩
    rw [stripPrefix_eq_some_iff] at stripped
    rw [← List.reverse_reverse text, stripped, List.reverse_append, List.reverse_reverse]
  · rintro rfl
    exact ⟨after.reverse, by rw [List.reverse_append, stripPrefix_append], List.reverse_reverse _⟩

@[simp]
theorem stripSuffix_append (text pattern : List Symbol) :
    stripSuffix pattern (text ++ pattern) = some text :=
  stripSuffix_eq_some_iff.mpr rfl

end Prefixes

section Searches

/-- Nothing that starts with `text` starts with the pattern: they differ within both. -/
def clashes : List Symbol → List Symbol → Bool
  | first :: pattern, symbol :: text => first ≠ symbol || clashes pattern text
  | _, _ => false

/-- No occurrence of the pattern begins in `text`, whatever comes after it. -/
def avoids (pattern : List Symbol) : List Symbol → Bool
  | [] => true
  | symbol :: text => clashes pattern (symbol :: text) && avoids pattern text

theorem not_prefix_of_clashes (clash : clashes pattern text = true) (after : List Symbol) :
    ¬pattern <+: text ++ after := by
  induction pattern generalizing text with
  | nil => simp [clashes] at clash
  | cons first pattern ih =>
      cases text with
      | nil => simp [clashes] at clash
      | cons symbol text =>
          simp only [clashes, Bool.or_eq_true, decide_eq_true_eq] at clash
          rw [List.cons_append, List.cons_prefix_cons]
          rintro ⟨rfl, isPrefix⟩
          exact ih (clash.resolve_left fun differs => differs rfl) isPrefix

/-- A pattern does not begin in a text without its first symbol. -/
theorem avoids_of_not_mem {first : Symbol} (notMem : first ∉ text) :
    avoids (first :: pattern) text = true := by
  induction text with
  | nil => rfl
  | cons symbol text ih =>
      rw [List.mem_cons, not_or] at notMem
      simp [avoids, clashes, notMem.1, ih notMem.2]

theorem clashes_append (clash : clashes pattern text = true) (after : List Symbol) :
    clashes pattern (text ++ after) = true := by
  induction pattern generalizing text with
  | nil => simp [clashes] at clash
  | cons first pattern ih =>
      cases text with
      | nil => simp [clashes] at clash
      | cons symbol text =>
          simp only [clashes, List.cons_append, Bool.or_eq_true] at clash ⊢
          exact clash.imp_right ih

theorem avoids_append (avoid : avoids pattern text = true)
    (avoidAfter : avoids pattern after = true) : avoids pattern (text ++ after) = true := by
  induction text with
  | nil => exact avoidAfter
  | cons symbol text ih =>
      simp only [avoids, List.cons_append, Bool.and_eq_true] at avoid ⊢
      exact ⟨clashes_append avoid.1 after, ih avoid.2⟩

/-- The first occurrence is past a part that avoids the pattern. -/
theorem splitOnce_append (avoid : avoids pattern text = true) (after : List Symbol) :
    splitOnce pattern (text ++ after) =
      (splitOnce pattern after).map fun (before, rest) => (text ++ before, rest) := by
  induction text with
  | nil => simp
  | cons symbol text ih =>
      simp only [avoids, Bool.and_eq_true] at avoid
      have notHere := not_prefix_of_clashes avoid.1 after
      rw [List.cons_append] at notHere ⊢
      rw [splitOnce, stripPrefix_eq_none_iff.mpr notHere, ih avoid.2, Option.map_map]
      rfl

/-- A pattern that is found is between the parts around it. -/
theorem eq_of_splitOnce {before : List Symbol}
    (found : splitOnce pattern text = some (before, after)) :
    text = before ++ (pattern ++ after) := by
  induction text generalizing before with
  | nil =>
      rw [splitOnce] at found
      split at found
      · rename_i empty
        cases found
        rw [empty]
        rfl
      · cases found
  | cons symbol text ih =>
      rw [splitOnce] at found
      split at found
      · rename_i stripped
        rcases Prod.mk.inj (Option.some.inj found) with ⟨rfl, rfl⟩
        have whole := stripPrefix_eq_some_iff.mp stripped
        exact whole
      · rcases Option.map_eq_some_iff.mp found with ⟨⟨front, back⟩, later, same⟩
        cases same
        rw [List.cons_append, ← ih later]

/-- A pattern with other symbols around it is found. -/
theorem isSome_splitOnce (before pattern after : List Symbol) :
    (splitOnce pattern (before ++ (pattern ++ after))).isSome = true := by
  induction before with
  | nil =>
      cases pattern with
      | nil => cases after <;> rfl
      | cons first pattern =>
          rw [List.nil_append, List.cons_append, splitOnce, ← List.cons_append,
            stripPrefix_append]
          rfl
  | cons symbol before ih =>
      rw [List.cons_append, splitOnce]
      split
      · rfl
      · rwa [Option.isSome_map]

theorem splitOnce_pattern (nonempty : pattern ≠ []) (after : List Symbol) :
    splitOnce pattern (pattern ++ after) = some ([], after) := by
  cases pattern with
  | nil => exact absurd rfl nonempty
  | cons first pattern =>
      rw [List.cons_append, splitOnce, ← List.cons_append, stripPrefix_append]

theorem splitOnce_of_avoids (nonempty : pattern ≠ []) (avoid : avoids pattern text = true)
    (after : List Symbol) :
    splitOnce pattern (text ++ (pattern ++ after)) = some (text, after) := by
  rw [splitOnce_append avoid, splitOnce_pattern nonempty]
  simp

/-- A part that avoids the pattern belongs to the first piece. -/
theorem split_append (avoid : avoids pattern text = true) (after : List Symbol) :
    split pattern (text ++ after) = (split pattern after).modifyHead (text ++ ·) := by
  induction text with
  | nil => cases pieces : split pattern after <;> simp [pieces]
  | cons symbol text ih =>
      simp only [avoids, Bool.and_eq_true] at avoid
      have notHere := not_prefix_of_clashes avoid.1 after
      rw [split] at ih ⊢
      rw [List.cons_append] at notHere ⊢
      rw [splitAfter, if_neg notHere, ih avoid.2, List.modifyHead_modifyHead]
      rfl

theorem splitAfter_skipped (pattern skipped after : List Symbol) :
    splitAfter pattern skipped.length (skipped ++ after) = splitAfter pattern 0 after := by
  induction skipped with
  | nil => rfl
  | cons symbol skipped ih => exact ih

theorem split_pattern (nonempty : pattern ≠ []) (after : List Symbol) :
    split pattern (pattern ++ after) = [] :: split pattern after := by
  cases pattern with
  | nil => exact absurd rfl nonempty
  | cons first pattern =>
      have isPrefix : first :: pattern <+: first :: (pattern ++ after) := ⟨after, rfl⟩
      rw [split, List.cons_append, splitAfter, if_pos isPrefix, List.length_cons,
        Nat.add_sub_cancel, splitAfter_skipped, split]

theorem split_of_avoids (nonempty : pattern ≠ []) (avoid : avoids pattern text = true)
    (after : List Symbol) :
    split pattern (text ++ (pattern ++ after)) = text :: split pattern after := by
  rw [split_append avoid, split_pattern nonempty, List.modifyHead_cons, List.append_nil]

theorem split_eq_singleton (avoid : avoids pattern text = true) : split pattern text = [text] := by
  have whole := split_append avoid []
  have empty : split pattern [] = [[]] := rfl
  rwa [empty, List.modifyHead_cons, List.append_nil] at whole

/-- A pattern that occurs once is replaced there. -/
theorem replace_of_avoids (nonempty : pattern ≠ []) (before : avoids pattern text = true)
    (behind : avoids pattern after = true) (replacement : List Symbol) :
    replace pattern replacement (text ++ (pattern ++ after)) = text ++ (replacement ++ after) := by
  rw [replace, split_of_avoids nonempty before, split_eq_singleton behind]
  simp [List.intercalate]

theorem split_ne_nil (pattern text : List Symbol) : split pattern text ≠ [] := by
  have each : ∀ skipped, splitAfter pattern skipped text ≠ [] := by
    induction text with
    | nil => simp [splitAfter]
    | cons symbol text ih =>
        intro skipped
        cases skipped with
        | zero =>
            rw [splitAfter]
            split
            · exact List.cons_ne_nil _ _
            · simpa using ih 0
        | succ skipped => exact ih skipped
  exact each 0

theorem replace_append (avoid : avoids pattern text = true) (replacement after : List Symbol) :
    replace pattern replacement (text ++ after) = text ++ replace pattern replacement after := by
  rcases List.exists_cons_of_ne_nil (split_ne_nil pattern after) with ⟨first, rest, pieces⟩
  rw [replace, replace, split_append avoid, pieces, List.modifyHead_cons]
  cases rest <;> simp [List.intercalate]

theorem replace_pattern (nonempty : pattern ≠ []) (replacement after : List Symbol) :
    replace pattern replacement (pattern ++ after) =
      replacement ++ replace pattern replacement after := by
  rcases List.exists_cons_of_ne_nil (split_ne_nil pattern after) with ⟨first, rest, pieces⟩
  rw [replace, replace, split_pattern nonempty, pieces]
  simp [List.intercalate]

/-- In a text of codes, of which none but the pattern itself has an occurrence of the pattern begin
in it, a replacement is one of the codes. -/
theorem replace_flatMap {Source : Type} (nonempty : pattern ≠ []) {replacement : List Symbol}
    {code decode : Source → List Symbol} (each : ∀ source,
      (code source = pattern ∧ decode source = replacement) ∨
        (avoids pattern (code source) = true ∧ decode source = code source))
    (sources : List Source) :
    replace pattern replacement (sources.flatMap code) = sources.flatMap decode := by
  induction sources with
  | nil => rw [List.flatMap_nil, List.flatMap_nil, replace, split_eq_singleton rfl]; rfl
  | cons source sources ih =>
      rw [List.flatMap_cons, List.flatMap_cons, ← ih]
      rcases each source with ⟨isPattern, decoded⟩ | ⟨avoid, kept⟩
      · rw [isPattern, decoded, replace_pattern nonempty]
      · rw [kept, replace_append avoid]

/-- Replacing one symbol replaces each of its occurrences. -/
theorem replace_singleton (symbol : Symbol) (replacement text : List Symbol) :
    replace [symbol] replacement text =
      text.flatMap fun other => if other = symbol then replacement else [other] := by
  induction text with
  | nil => rfl
  | cons other text ih =>
      rcases List.exists_cons_of_ne_nil (split_ne_nil [symbol] text) with ⟨first, rest, pieces⟩
      rw [List.flatMap_cons, ← ih, replace, replace, pieces]
      by_cases same : other = symbol
      · subst same
        have occurs : split [other] (other :: text) = [] :: split [other] text :=
          split_pattern (List.cons_ne_nil _ _) text
        rw [occurs, pieces, if_pos rfl]
        simp [List.intercalate]
      · have avoid : avoids [symbol] [other] = true := by simp [avoids, clashes, Ne.symm same]
        have isPart : split [symbol] (other :: text) =
            (split [symbol] text).modifyHead ([other] ++ ·) := split_append avoid text
        rw [isPart, pieces, if_neg same]
        cases rest <;> simp [List.intercalate]

end Searches

section Separators

variable {separator symbol : Symbol} {piece : List Symbol}

theorem splitOn_cons (separator first : Symbol) (text : List Symbol) :
    (first = separator ∧ (first :: text).splitOn separator = [] :: text.splitOn separator) ∨
      first ≠ separator ∧ ∃ piece pieces, text.splitOn separator = piece :: pieces ∧
        (first :: text).splitOn separator = (first :: piece) :: pieces := by
  rw [List.splitOn_cons_eq_if_modifyHead]
  split
  · rename_i same
    exact .inl ⟨eq_of_beq same, rfl⟩
  · rename_i differs
    rcases List.exists_cons_of_ne_nil (List.splitOn_ne_nil separator text) with
      ⟨piece, pieces, split⟩
    rw [split]
    exact .inr ⟨fun same => differs (beq_iff_eq.mpr same), piece, pieces, rfl, rfl⟩

/-- A piece between separators has no separator, and only symbols of the text. -/
theorem of_mem_splitOn (isPiece : piece ∈ text.splitOn separator) :
    separator ∉ piece ∧ ∀ symbol ∈ piece, symbol ∈ text := by
  induction text generalizing piece with
  | nil => simp_all
  | cons first text ih =>
      rcases splitOn_cons separator first text with
        ⟨-, split⟩ | ⟨differs, head, pieces, tail, split⟩
      · rw [split] at isPiece
        rcases List.mem_cons.mp isPiece with rfl | isPiece
        · simp
        · exact ⟨(ih isPiece).1, fun symbol isIn => List.mem_cons_of_mem _ ((ih isPiece).2 _ isIn)⟩
      · rw [split] at isPiece
        rw [tail] at ih
        rcases List.mem_cons.mp isPiece with rfl | isPiece
        · have inHead := ih List.mem_cons_self
          refine ⟨?_, ?_⟩
          · rw [List.mem_cons, not_or]
            exact ⟨Ne.symm differs, inHead.1⟩
          · intro symbol isIn
            rcases List.mem_cons.mp isIn with rfl | isIn
            · exact List.mem_cons_self
            · exact List.mem_cons_of_mem _ (inHead.2 symbol isIn)
        · have inTail := ih (List.mem_cons_of_mem _ isPiece)
          exact ⟨inTail.1, fun symbol isIn => List.mem_cons_of_mem _ (inTail.2 symbol isIn)⟩

/-- Every symbol but the separators is in a piece. -/
theorem exists_mem_splitOn (isIn : symbol ∈ text) (differs : symbol ≠ separator) :
    ∃ piece ∈ text.splitOn separator, symbol ∈ piece := by
  induction text with
  | nil => cases isIn
  | cons first text ih =>
      rcases splitOn_cons separator first text with
        ⟨same, split⟩ | ⟨-, head, pieces, tail, split⟩
      · rw [split]
        rcases List.mem_cons.mp isIn with rfl | isIn
        · exact absurd same differs
        · rcases ih isIn with ⟨piece, isPiece, inPiece⟩
          exact ⟨piece, List.mem_cons_of_mem _ isPiece, inPiece⟩
      · rw [split]
        rw [tail] at ih
        rcases List.mem_cons.mp isIn with rfl | isIn
        · exact ⟨_, List.mem_cons_self, List.mem_cons_self⟩
        · rcases ih isIn with ⟨piece, isPiece, inPiece⟩
          rcases List.mem_cons.mp isPiece with rfl | isPiece
          · exact ⟨_, List.mem_cons_self, List.mem_cons_of_mem _ inPiece⟩
          · exact ⟨piece, List.mem_cons_of_mem _ isPiece, inPiece⟩

end Separators

section Trimming

variable {isMatch : Symbol → Bool}

omit [DecidableEq Symbol]

theorem dropWhile_eq_self_iff_head? : text.dropWhile isMatch = text ↔
    ∀ symbol ∈ text.head?, isMatch symbol = false := by
  cases text with
  | nil => simp
  | cons symbol text => simp [List.dropWhile_eq_self_iff]

theorem rdropWhile_eq_self_iff_getLast? : text.rdropWhile isMatch = text ↔
    ∀ symbol ∈ text.getLast?, isMatch symbol = false := by
  rw [List.rdropWhile_eq_self_iff]
  constructor
  · rintro notLast symbol isLast
    rcases List.mem_getLast?_eq_getLast isLast with ⟨nonempty, rfl⟩
    exact Bool.eq_false_iff.mpr (notLast nonempty)
  · intro notLast nonempty
    exact Bool.eq_false_iff.mp (notLast _ (List.getLast?_eq_some_getLast nonempty))

/-- Trimming changes a text exactly when one of its ends matches. -/
theorem trimMatches_eq_self_iff : trimMatches isMatch text = text ↔
    (∀ symbol ∈ text.head?, isMatch symbol = false) ∧
      ∀ symbol ∈ text.getLast?, isMatch symbol = false := by
  rw [← dropWhile_eq_self_iff_head?, ← rdropWhile_eq_self_iff_getLast?]
  constructor
  · intro kept
    have fromEnd := (List.rdropWhile_prefix isMatch (text.dropWhile isMatch)).length_le
    have fromStart : (text.dropWhile isMatch).length ≤ text.length :=
      (List.dropWhile_suffix isMatch).length_le
    have length : (trimMatches isMatch text).length = text.length := by rw [kept]
    have same : text.dropWhile isMatch = text := by
      apply (List.dropWhile_suffix isMatch).eq_of_length
      rw [trimMatches] at length
      omega
    refine ⟨same, ?_⟩
    rwa [trimMatches, same] at kept
  · rintro ⟨fromStart, fromEnd⟩
    rw [trimMatches, fromStart, fromEnd]

/-- A trimmed text is a part of the text. -/
theorem isInfix_trimMatches (isMatch : Symbol → Bool) (text : List Symbol) :
    trimMatches isMatch text <:+: text :=
  (List.rdropWhile_prefix isMatch _).isInfix.trans (List.dropWhile_suffix isMatch).isInfix

/-- The last part that the count leaves is the end of the text. -/
theorem suffix_of_getElem?_splitN {count : ℕ} {piece : List Symbol}
    (isLast : (splitN isMatch (count + 1) text)[count]? = some piece) : piece <:+ text := by
  induction count generalizing text with
  | zero =>
      cases isLast
      exact List.suffix_refl piece
  | succ count ih =>
      rw [splitN] at isLast
      split at isLast
      · cases isLast
      · rename_i separator rest isAfter
        have within : separator :: rest <:+ text := isAfter ▸ List.dropWhile_suffix _
        exact (ih isLast).trans ((List.suffix_cons separator rest).trans within)

/-- Around a trimmed text, matches are trimmed away. -/
theorem trimMatches_surround {symbol : Symbol} (isEnd : isMatch symbol = true)
    (nonempty : text ≠ []) (trimmed : trimMatches isMatch text = text) :
    trimMatches isMatch (symbol :: text ++ [symbol]) = text := by
  have ends := trimMatches_eq_self_iff.mp trimmed
  have fromStart : (text ++ [symbol]).dropWhile isMatch = text ++ [symbol] := by
    refine dropWhile_eq_self_iff_head?.mpr ?_
    rw [List.head?_append_of_ne_nil _ nonempty]
    exact ends.1
  rw [trimMatches, List.cons_append, List.dropWhile_cons_of_pos isEnd, fromStart,
    List.rdropWhile_concat_pos _ _ _ isEnd]
  exact rdropWhile_eq_self_iff_getLast?.mpr ends.2

/-- Trimming one kind after another changes nothing exactly when neither does. -/
theorem trimMatches_trimMatches_eq_self_iff {isOther : Symbol → Bool} :
    trimMatches isOther (trimMatches isMatch text) = text ↔
      trimMatches isMatch text = text ∧ trimMatches isOther text = text := by
  constructor
  · intro kept
    have inner := (isInfix_trimMatches isMatch text).length_le
    have outer := (isInfix_trimMatches isOther (trimMatches isMatch text)).length_le
    rw [kept] at outer
    have same : trimMatches isMatch text = text :=
      (isInfix_trimMatches isMatch text).eq_of_length (Nat.le_antisymm inner outer)
    rw [same] at kept
    exact ⟨same, kept⟩
  · rintro ⟨first, second⟩
    rw [first, second]

/-- Trimming keeps every symbol that does not match. -/
theorem count_trimMatches [DecidableEq Symbol] {symbol : Symbol} (kept : isMatch symbol = false) :
    (trimMatches isMatch text).count symbol = text.count symbol := by
  have dropped : ∀ text : List Symbol, (text.dropWhile isMatch).count symbol =
      text.count symbol := by
    intro text
    induction text with
    | nil => rfl
    | cons other text ih =>
        rw [List.dropWhile_cons]
        split
        · rename_i isDropped
          have differs : other ≠ symbol := by
            rintro rfl
            rw [kept] at isDropped
            cases isDropped
          rw [ih, List.count_cons_of_ne differs]
        · rfl
  rw [trimMatches, List.rdropWhile, List.count_reverse, dropped, List.count_reverse, dropped]

end Trimming

section Endings

variable {isMatch : Symbol → Bool} {part ending : List Symbol}

omit [DecidableEq Symbol]

theorem rdropWhile_append_of_all (all : ∀ symbol ∈ ending, isMatch symbol = true) :
    (text ++ ending).rdropWhile isMatch = text.rdropWhile isMatch := by
  induction ending using List.reverseRecOn with
  | nil => rw [List.append_nil]
  | append_singleton ending last ih =>
      rw [List.forall_mem_append, List.forall_mem_singleton] at all
      rw [← List.append_assoc, List.rdropWhile_concat_pos _ _ _ all.2, ih all.1]

theorem rdropWhile_append_of_not_all (other : ¬∀ symbol ∈ ending, isMatch symbol = true) :
    (text ++ ending).rdropWhile isMatch = text ++ ending.rdropWhile isMatch := by
  induction ending using List.reverseRecOn with
  | nil => exact absurd (by simp) other
  | append_singleton ending last ih =>
      rw [← List.append_assoc]
      by_cases isEnd : isMatch last
      · rw [List.rdropWhile_concat_pos _ _ _ isEnd, List.rdropWhile_concat_pos _ _ _ isEnd]
        apply ih
        intro all
        exact other (List.forall_mem_append.mpr ⟨all, List.forall_mem_singleton.mpr isEnd⟩)
      · rw [List.rdropWhile_concat_neg _ _ _ isEnd, List.rdropWhile_concat_neg _ _ _ isEnd,
          List.append_assoc]

/-- The matches at the end of a text begin past its first symbol, unless it consists of them. -/
theorem rdropWhile_cons_of_not_all {symbol : Symbol}
    (other : ¬∀ other ∈ symbol :: text, isMatch other = true) :
    (symbol :: text).rdropWhile isMatch = symbol :: text.rdropWhile isMatch := by
  by_cases all : ∀ other ∈ text, isMatch other = true
  · have notMatch : ¬isMatch symbol = true := fun isEnd =>
      other (List.forall_mem_cons.mpr ⟨isEnd, all⟩)
    have alone : ([symbol] ++ text).rdropWhile isMatch = [symbol].rdropWhile isMatch :=
      rdropWhile_append_of_all all
    rw [List.singleton_append, List.rdropWhile_singleton, if_neg notMatch] at alone
    rw [alone, List.rdropWhile_eq_nil_iff.mpr all]
  · rw [← List.singleton_append, rdropWhile_append_of_not_all all, List.singleton_append]

end Endings

end Search
