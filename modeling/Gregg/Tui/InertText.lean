import Mathlib.Data.Bool.AllAny
import Gregg.Tui.Sanitize

/-!
# What the sanitizer leaves

The rows of a text are its lines, with every character shown as terminal cells. The sanitizer
gives the first rows the bound allows, and says whether there were more. Cleaning a text and
bounding it later is not bounding it at once where a row needed an escape, or where the last line
is empty.
-/

namespace Gregg.Tui

/-- What a character of a line is shown as. -/
def cell (character : Char) : List Char :=
  if character = '\t' then TAB_CELLS else (escape character).getD [character]

/-- What a character of a field of one row is shown as. -/
def singleCell (character : Char) : List Char :=
  if character = '\n' then ['^', 'J'] else cell character

def row (line : List Char) : List Char :=
  line.flatMap cell

def hasEscape (line : List Char) : Bool :=
  line.any fun character => (escape character).isSome

/-- The lines within a bound. -/
def within (maxLines : Option ℕ) (lines : List (List Char)) : List (List Char) :=
  maxLines.elim lines lines.take

/-- Whether there are more lines than a bound. -/
def exceeds (maxLines : Option ℕ) (lines : List (List Char)) : Bool :=
  maxLines.any fun limit => limit < lines.length

/-- A printable character of ASCII. -/
def Visible (character : Char) : Prop :=
  0x20 ≤ character.toNat ∧ character.toNat ≤ 0x7e

instance (character : Char) : Decidable (Visible character) :=
  inferInstanceAs (Decidable (_ ∧ _))

/-- The codes with the Unicode property `Bidi_Control`. -/
def IsBidiControl (code : ℕ) : Prop :=
  code = 0x061c ∨ code = 0x200e ∨ code = 0x200f ∨ (0x202a ≤ code ∧ code ≤ 0x202e) ∨
    (0x2066 ≤ code ∧ code ≤ 0x2069)

/-- No control of C0, DEL or C1, no line or paragraph separator, and no control of the text's
direction. -/
def Inert (character : Char) : Prop :=
  ¬(character.toNat ≤ 0x1f ∨ (0x7f ≤ character.toNat ∧ character.toNat ≤ 0x9f)) ∧
    ¬(character.toNat = 0x2028 ∨ character.toNat = 0x2029) ∧ ¬IsBidiControl character.toNat

/-- U+061C, which also has the property `Bidi_Control`. -/
def arabicLetterMark : Char :=
  Char.ofNat 0x061c

section Cells

variable {character shown : Char}

theorem visible_caret {code : ℕ} (low : 0x40 ≤ code) (high : code ≤ 0x5f) :
    ∀ shown ∈ caret code, Visible shown := by
  have everyCode : ((List.range' 0x40 0x20).all fun code =>
      (caret code).all fun shown => decide (Visible shown)) = true := by
    decide
  have listed : code ∈ List.range' 0x40 0x20 := by
    rw [List.mem_range'_1]
    omega
  intro shown shownMem
  exact of_decide_eq_true (List.all_eq_true.mp (List.all_eq_true.mp everyCode code listed) shown
    shownMem)

theorem visible_hex {code : ℕ} (special : (0x202a ≤ code ∧ code ≤ 0x202e) ∨
    (0x2066 ≤ code ∧ code ≤ 0x2069) ∨ code = 0x200e ∨ code = 0x200f ∨ code = 0x2028 ∨
      code = 0x2029) : ∀ shown ∈ ['\\', 'u'] ++ Text.formatHex 4 code, Visible shown := by
  have listed : code ∈ [0x202a, 0x202b, 0x202c, 0x202d, 0x202e, 0x2066, 0x2067, 0x2068, 0x2069,
      0x200e, 0x200f, 0x2028, 0x2029] := by
    simp only [List.mem_cons, List.not_mem_nil, or_false]
    omega
  have everyCode : ([0x202a, 0x202b, 0x202c, 0x202d, 0x202e, 0x2066, 0x2067, 0x2068, 0x2069,
      0x200e, 0x200f, 0x2028, 0x2029].all fun code =>
        (['\\', 'u'] ++ Text.formatHex 4 code).all fun shown => decide (Visible shown)) = true := by
    decide
  intro shown shownMem
  exact of_decide_eq_true (List.all_eq_true.mp (List.all_eq_true.mp everyCode code listed) shown
    shownMem)

/-- An escape is made of printable characters. -/
theorem visible_escape {replacement : List Char} (escaped : escape character = some replacement) :
    replacement ≠ [] ∧ ∀ shown ∈ replacement, Visible shown := by
  simp only [escape] at escaped
  split at escaped
  · cases escaped
  split at escaped
  · cases escaped
    exact ⟨by simp [caret], visible_caret (by omega) (by omega)⟩
  split at escaped
  · cases escaped
    refine ⟨by simp, ?_⟩
    rw [List.forall_mem_cons, List.forall_mem_singleton]
    decide
  split at escaped
  · cases escaped
    refine ⟨by simp, ?_⟩
    rw [List.forall_mem_append, List.forall_mem_cons, List.forall_mem_singleton]
    exact ⟨by decide, visible_caret (by omega) (by omega)⟩
  split at escaped
  · cases escaped
    exact ⟨by simp, visible_hex (by omega)⟩
  split at escaped
  · cases escaped
    exact ⟨by simp, visible_hex (by omega)⟩
  · cases escaped

/-- The characters that are emitted unchanged. -/
theorem escape_eq_none_iff (notFeed : character ≠ '\n') (notTab : character ≠ '\t') :
    escape character = none ↔ Inert character ∨ character = arabicLetterMark := by
  have isMark : character = arabicLetterMark ↔ character.toNat = 0x061c := by
    rw [← Char.toNat_inj]
    rfl
  rw [isMark, Inert, IsBidiControl]
  simp only [escape]
  rw [if_neg (by simp [notFeed, notTab])]
  split
  · simp only [reduceCtorEq, false_iff]
    omega
  split
  · simp only [reduceCtorEq, false_iff]
    omega
  split
  · simp only [reduceCtorEq, false_iff]
    omega
  split
  · simp only [reduceCtorEq, false_iff]
    omega
  split
  · simp only [reduceCtorEq, false_iff]
    omega
  · simp only [true_iff]
    omega

theorem inert_of_visible (visible : Visible shown) : Inert shown := by
  rw [Visible] at visible
  rw [Inert, IsBidiControl]
  omega

theorem Visible.ne_feed (visible : Visible shown) : shown ≠ '\n' := by
  rintro rfl
  exact absurd visible (by decide)

theorem Visible.ne_tab (visible : Visible shown) : shown ≠ '\t' := by
  rintro rfl
  exact absurd visible (by decide)

/-- A character stands for itself, or printable characters stand for it. -/
theorem cell_cases (character : Char) :
    (cell character = [character] ∧ character ≠ '\t' ∧ escape character = none) ∨
      cell character ≠ [] ∧ ∀ shown ∈ cell character, Visible shown := by
  rw [cell]
  split
  · right
    rw [TAB_CELLS]
    exact ⟨by simp, List.all_iff_forall_prop.mp (by decide)⟩
  · rename_i notTab
    cases escaped : escape character with
    | none => exact .inl ⟨rfl, notTab, rfl⟩
    | some replacement => exact .inr (visible_escape escaped)

/-- Every character is shown as something. -/
theorem cell_ne_nil (character : Char) : cell character ≠ [] := by
  rcases cell_cases character with ⟨itself, -, -⟩ | ⟨nonempty, -⟩
  · rw [itself]
    exact List.cons_ne_nil _ _
  · exact nonempty

theorem cell_of_visible (visible : Visible shown) :
    cell shown = [shown] ∧ escape shown = none := by
  have kept : escape shown = none :=
    (escape_eq_none_iff visible.ne_feed visible.ne_tab).mpr (.inl (inert_of_visible visible))
  rw [cell, if_neg visible.ne_tab, kept]
  exact ⟨rfl, rfl⟩

/-- What is shown is shown unchanged again. -/
theorem cell_of_mem_cell (shownMem : shown ∈ cell character) :
    cell shown = [shown] ∧ escape shown = none := by
  rcases cell_cases character with ⟨itself, notTab, kept⟩ | ⟨-, visible⟩
  · rw [itself, List.mem_singleton] at shownMem
    subst shownMem
    exact ⟨itself, kept⟩
  · exact cell_of_visible (visible shown shownMem)

/-- What is shown of a character is inert, but for the mark that is no escape. -/
theorem inert_of_mem_cell (notFeed : character ≠ '\n') (shownMem : shown ∈ cell character) :
    Inert shown ∨ shown = arabicLetterMark ∧ character = arabicLetterMark := by
  rcases cell_cases character with ⟨itself, notTab, kept⟩ | ⟨-, visible⟩
  · rw [itself, List.mem_singleton] at shownMem
    subst shownMem
    rcases (escape_eq_none_iff notFeed notTab).mp kept with inert | isMark
    · exact .inl inert
    · exact .inr ⟨isMark, isMark⟩
  · exact .inl (inert_of_visible (visible shown shownMem))

theorem escape_return : escape '\r' = some ['^', 'M'] := by
  decide

theorem cell_return : cell '\r' = ['^', 'M'] := by
  decide

theorem row_cons (character : Char) (line : List Char) :
    row (character :: line) = cell character ++ row line :=
  rfl

end Cells

namespace Sanitized

variable {maxLines : Option ℕ} {out : Sanitized} {current line text : List Char} {escaped : Bool}
  {emitted : ℕ}

/-- The loop at a line feed. -/
def close (maxLines : Option ℕ) (out : Sanitized) (emitted : ℕ) (line : List Char)
    (escaped : Bool) (rest : List Char) : Sanitized :=
  if some emitted = maxLines then { out with droppedLines := true }
  else loop maxLines true (out.push emitted line escaped) [] false (emitted + 1) rest

theorem stripReturn_cons (character : Char) (nonempty : line ≠ []) :
    Lines.stripReturn (character :: line) = character :: Lines.stripReturn line := by
  rcases List.exists_cons_of_ne_nil nonempty with ⟨next, rest, rfl⟩
  rw [Lines.stripReturn, Lines.stripReturn, List.getLast?_cons_cons]
  split
  · rfl
  · rfl

/-- One character of a line. -/
theorem loop_cons {character : Char} (notFeed : character ≠ '\n')
    (notPair : character = '\r' → text.head? ≠ some '\n') :
    loop maxLines true out current escaped emitted (character :: text) =
      loop maxLines true out (current ++ cell character) (escaped || (escape character).isSome)
        emitted text := by
  rw [loop, if_neg notFeed]
  by_cases isReturn : character = '\r'
  · subst isReturn
    have noPair := notPair rfl
    rw [if_pos rfl, if_neg (by simpa using noPair), cell_return, escape_return, Option.isSome_some,
      Bool.or_true]
  · rw [if_neg isReturn]
    by_cases isTab : character = '\t'
    · subst isTab
      rw [if_pos rfl, cell, if_pos rfl]
      simp [escape]
    · rw [if_neg isTab, cell, if_neg isTab]
      cases escape character with
      | none => simp
      | some replacement => simp

/-- A line up to its line feed. -/
theorem loop_line (single : '\n' ∉ line) (rest : List Char) :
    loop maxLines true out current escaped emitted (line ++ '\n' :: rest) =
      close maxLines out emitted (current ++ row (Lines.stripReturn line))
        (escaped || hasEscape (Lines.stripReturn line)) rest := by
  induction line generalizing current escaped with
  | nil => simp [loop, close, Lines.stripReturn, row, hasEscape]
  | cons character line ih =>
      rw [List.mem_cons, not_or] at single
      rcases eq_or_ne line [] with rfl | nonempty
      · by_cases isReturn : character = '\r'
        · subst isReturn
          have pair : loop maxLines true out current escaped emitted ('\r' :: '\n' :: rest) =
              loop maxLines true out current escaped emitted ('\n' :: rest) := by
            rw [loop, if_neg (by decide), if_pos rfl, if_pos (by simp)]
          exact pair.trans (ih (by simp))
        · have kept : Lines.stripReturn [character] = [character] :=
            if_neg (by simpa using isReturn)
          rw [List.cons_append, loop_cons (Ne.symm single.1) (fun isPair => absurd isPair isReturn),
            ih (by simp), kept]
          simp [row, hasEscape, Lines.stripReturn]
      · have next : (line ++ '\n' :: rest).head? ≠ some '\n' := by
          rcases List.exists_cons_of_ne_nil nonempty with ⟨next, others, rfl⟩
          intro isFeed
          rw [List.cons_append, List.head?_cons, Option.some.injEq] at isFeed
          exact single.2 (isFeed ▸ List.mem_cons_self)
        rw [List.cons_append, loop_cons (Ne.symm single.1) fun _ => next, ih single.2,
          stripReturn_cons character nonempty, row_cons]
        simp [hasEscape, Bool.or_assoc]

/-- What follows the last line feed. -/
theorem loop_last (single : '\n' ∉ line) :
    loop maxLines true out current escaped emitted line =
      if current ++ row line = [] then out
      else if some emitted = maxLines then { out with droppedLines := true }
      else out.push emitted (current ++ row line) (escaped || hasEscape line) := by
  induction line generalizing current escaped with
  | nil => simp [loop, row, hasEscape]
  | cons character line ih =>
      rw [List.mem_cons, not_or] at single
      have noPair : character = '\r' → line.head? ≠ some '\n' :=
        fun _ isFeed => single.2 (List.mem_of_mem_head? isFeed)
      rw [loop_cons (Ne.symm single.1) noPair, ih single.2, row_cons]
      simp [hasEscape, Bool.or_assoc]

/-- What the loop has made of the lines that it went through. -/
def ofRows (lines : List (List Char)) : Sanitized where
  text := ['\n'].intercalate (lines.map row)
  escaped := lines.any hasEscape
  droppedLines := false

theorem push_ofRows (lines : List (List Char)) (line : List Char) :
    (ofRows lines).push lines.length (row line) (hasEscape line) = ofRows (lines ++ [line]) := by
  have joined : ['\n'].intercalate (lines.map row) ++
      (if lines.length > 0 then ['\n'] else []) ++ row line =
        ['\n'].intercalate ((lines ++ [line]).map row) := by
    rw [List.map_append, List.map_singleton, Lines.intercalate_append_singleton]
    rcases eq_or_ne lines [] with rfl | nonempty
    · rfl
    · have someRows : lines.map row ≠ [] := by simpa using nonempty
      rw [if_pos (List.length_pos_of_ne_nil nonempty), Lines.intercalate_append_newline someRows]
  simp only [push, ofRows, joined, List.any_append, List.any_cons, List.any_nil, Bool.or_false]

/-- The lines of a text, one after the other, until the bound is reached. -/
def emit (maxLines : Option ℕ) (emitted : List (List Char)) :
    List (List Char) → Sanitized
  | [] => ofRows emitted
  | line :: lines =>
      if some emitted.length = maxLines then { ofRows emitted with droppedLines := true }
      else emit maxLines (emitted ++ [line]) lines

theorem row_eq_nil_iff : row line = [] ↔ line = [] := by
  constructor
  · intro blank
    cases line with
    | nil => rfl
    | cons character line =>
        rw [row_cons, List.append_eq_nil_iff] at blank
        exact absurd blank.1 (cell_ne_nil character)
  · rintro rfl
    rfl

theorem loop_eq_emit (emitted : List (List Char)) (text : List Char) :
    loop maxLines true (ofRows emitted) [] false emitted.length text =
      emit maxLines emitted (Lines.split text) := by
  rcases Lines.exists_parts text with ⟨lines, last, single, lastSingle, rfl⟩
  rw [Lines.split_parts single lastSingle]
  induction lines generalizing emitted with
  | nil =>
      rw [Lines.join_nil, List.nil_append, loop_last lastSingle, List.nil_append, Bool.false_or]
      by_cases isEmpty : last = []
      · subst isEmpty
        rfl
      · have shown : row last ≠ [] := fun blank => isEmpty (row_eq_nil_iff.mp blank)
        rw [if_neg shown, if_neg isEmpty, List.map_nil, List.nil_append, emit, emit, push_ofRows]
  | cons line lines ih =>
      rw [List.forall_mem_cons] at single
      rw [Lines.join_cons, List.append_assoc, List.cons_append, loop_line single.1,
        List.nil_append, Bool.false_or, List.map_cons, List.cons_append, emit, close]
      split
      · rfl
      · have next := ih (emitted ++ [Lines.stripReturn line]) single.2
        rw [List.length_append, List.length_singleton] at next
        rw [push_ofRows, next]

theorem emit_eq (emitted lines : List (List Char)) (room : ∀ limit ∈ maxLines,
    emitted.length ≤ limit) : emit maxLines emitted lines =
      { ofRows (within maxLines (emitted ++ lines)) with
        droppedLines := exceeds maxLines (emitted ++ lines) } := by
  induction lines generalizing emitted with
  | nil =>
      cases maxLines with
      | none => simp [emit, within, exceeds, ofRows]
      | some limit =>
          have fits := room limit rfl
          simp [emit, within, exceeds, ofRows, List.take_of_length_le fits, fits]
  | cons line lines ih =>
      rw [emit]
      split
      · rename_i full
        subst full
        simp [within, exceeds]
      · rename_i notFull
        rw [ih]
        · simp
        · rintro limit rfl
          have fits := room limit rfl
          have distinct : emitted.length ≠ limit := fun same => notFull (congrArg some same)
          rw [List.length_append, List.length_singleton]
          omega

end Sanitized

open Sanitized

variable {text : List Char} {maxLines : Option ℕ}

/-- The sanitizer shows the lines within the bound, and says whether there are more. -/
theorem sanitize_eq (text : List Char) (maxLines : Option ℕ) : sanitize text maxLines =
    { ofRows (within maxLines (Lines.split text)) with
      droppedLines := exceeds maxLines (Lines.split text) } := by
  have emitted := @loop_eq_emit maxLines [] text
  rw [emit_eq [] _ fun _ _ => Nat.zero_le _] at emitted
  exact emitted

section Rows

variable {line : List Char} {lines rows : List (List Char)}

theorem mem_row_iff {shown : Char} :
    shown ∈ row line ↔ ∃ character ∈ line, shown ∈ cell character :=
  List.mem_flatMap

theorem row_row (line : List Char) : row (row line) = row line := by
  have everyShown : ∀ shown ∈ row line, cell shown = [shown] := by
    intro shown shownMem
    rcases mem_row_iff.mp shownMem with ⟨character, -, inCell⟩
    exact (cell_of_mem_cell inCell).1
  rw [row, List.flatMap_congr everyShown]
  exact List.flatMap_singleton' _

theorem hasEscape_row (line : List Char) : hasEscape (row line) = false := by
  rw [hasEscape, List.any_eq_false]
  intro shown shownMem
  rcases mem_row_iff.mp shownMem with ⟨character, -, inCell⟩
  simp [(cell_of_mem_cell inCell).2]

/-- A row has no line break in it. -/
theorem unbroken_row (single : '\n' ∉ line) : '\n' ∉ row line ∧ '\r' ∉ row line := by
  constructor
  · intro isShown
    rcases mem_row_iff.mp isShown with ⟨character, isCharacter, inCell⟩
    rcases cell_cases character with ⟨itself, -, -⟩ | ⟨-, visible⟩
    · rw [itself, List.mem_singleton] at inCell
      exact single (inCell ▸ isCharacter)
    · exact (visible _ inCell).ne_feed rfl
  · intro isShown
    rcases mem_row_iff.mp isShown with ⟨character, -, inCell⟩
    have kept := (cell_of_mem_cell inCell).2
    rw [escape_return] at kept
    cases kept

/-- Rows without an empty one at their end. -/
def trimLast (rows : List (List Char)) : List (List Char) :=
  if rows.getLast? = some [] then rows.dropLast else rows

theorem split_intercalate (unbroken : ∀ shown ∈ rows, '\n' ∉ shown ∧ '\r' ∉ shown) :
    Lines.split (['\n'].intercalate rows) = trimLast rows := by
  induction rows using List.reverseRecOn with
  | nil => rfl
  | append_singleton rows last _ =>
      rw [List.forall_mem_append, List.forall_mem_singleton] at unbroken
      have strips : rows.map Lines.stripReturn = rows := by
        refine (List.map_congr_left ?_).trans (List.map_id rows)
        intro shown shownMem
        rw [Lines.stripReturn, if_neg]
        · rfl
        · intro isReturn
          exact (unbroken.1 shown shownMem).2 (List.mem_of_getLast? isReturn)
      rw [Lines.intercalate_append_singleton,
        Lines.split_parts (fun shown shownMem => (unbroken.1 shown shownMem).1) unbroken.2.1,
        strips, trimLast, List.getLast?_concat, List.dropLast_concat]
      by_cases isEmpty : last = []
      · rw [if_pos isEmpty, if_pos (congrArg some isEmpty), List.append_nil]
      · rw [if_neg isEmpty, if_neg fun same => isEmpty (Option.some.inj same)]

theorem map_within (maxLines : Option ℕ) (lines : List (List Char)) :
    (within maxLines lines).map row = within maxLines (lines.map row) := by
  cases maxLines with
  | none => rfl
  | some limit => exact List.map_take

theorem exceeds_map (maxLines : Option ℕ) (lines : List (List Char)) :
    exceeds maxLines (lines.map row) = exceeds maxLines lines := by
  rw [exceeds, exceeds, List.length_map]

theorem getLast?_map_row : (lines.map row).getLast? = some [] ↔ lines.getLast? = some [] := by
  rw [List.getLast?_map, Option.map_eq_some_iff]
  constructor
  · rintro ⟨line, isLast, blank⟩
    rw [isLast, Sanitized.row_eq_nil_iff.mp blank]
  · intro isLast
    exact ⟨[], isLast, rfl⟩

theorem mem_of_mem_within (lineMem : line ∈ within maxLines lines) : line ∈ lines := by
  cases maxLines with
  | none => exact lineMem
  | some limit => exact List.mem_of_mem_take lineMem

theorem unbroken_rows (text : List Char) (maxLines : Option ℕ) :
    ∀ shown ∈ within maxLines ((Lines.split text).map row), '\n' ∉ shown ∧ '\r' ∉ shown := by
  intro shown shownMem
  rcases List.mem_map.mp (mem_of_mem_within shownMem) with ⟨line, lineMem, rfl⟩
  exact unbroken_row (Lines.single_of_mem_split lineMem)

/-- Within a bound that is not exceeded lie all rows. -/
theorem within_eq_self (fits : exceeds maxLines rows = false) : within maxLines rows = rows := by
  cases maxLines with
  | none => rfl
  | some limit =>
      have few : rows.length ≤ limit := by simpa [exceeds] using fits
      exact List.take_of_length_le few

theorem length_trimLast : (trimLast rows).length =
    if rows.getLast? = some [] then rows.length - 1 else rows.length := by
  rw [trimLast]
  split
  · exact List.length_dropLast
  · rfl

/-- An exceeded bound gives the same rows without an empty one at the end. -/
theorem within_trimLast_of_exceeds (exceeded : exceeds maxLines rows = true) :
    within maxLines (trimLast rows) = within maxLines rows := by
  cases maxLines with
  | none => cases exceeded
  | some limit =>
      have more : limit < rows.length := by simpa [exceeds] using exceeded
      rw [trimLast]
      split
      · change rows.dropLast.take limit = rows.take limit
        rw [List.dropLast_eq_take, List.take_take]
        congr 1
        omega
      · rfl

theorem within_trimLast_of_fits (fits : exceeds maxLines rows = false) :
    within maxLines (trimLast rows) = trimLast rows := by
  apply within_eq_self
  cases maxLines with
  | none => rfl
  | some limit =>
      have few : rows.length ≤ limit := by simpa [exceeds] using fits
      have fewer := @length_trimLast rows
      simp only [exceeds, Option.any_some, decide_eq_false_iff_not, not_lt]
      split at fewer <;> omega

/-- The bound is exceeded the same without an empty row at the end, unless only that one is
beyond it. -/
theorem exceeds_trimLast_iff : exceeds maxLines (trimLast rows) = exceeds maxLines rows ↔
    ∀ limit ∈ maxLines, limit + 1 = rows.length → rows.getLast? ≠ some [] := by
  cases maxLines with
  | none => simp [exceeds]
  | some limit =>
      have fewer := @length_trimLast rows
      simp only [exceeds, Option.any_some, Option.mem_def, Option.some.injEq, forall_eq',
        decide_eq_decide]
      split at fewer
      · rename_i blank
        have nonempty : 0 < rows.length := by
          apply List.length_pos_of_ne_nil
          rintro rfl
          cases blank
        simp only [blank, ne_eq, not_true_eq_false, imp_false]
        omega
      · rename_i notBlank
        simp [fewer, notBlank]

/-- An empty row at the end is seen in the text, unless it is the only one. -/
theorem intercalate_trimLast_iff : ['\n'].intercalate (trimLast rows) = ['\n'].intercalate rows ↔
    (rows.getLast? = some [] → rows.length ≤ 1) := by
  rw [trimLast]
  split
  · rename_i blank
    rcases List.eq_nil_or_concat rows with rfl | ⟨others, last, rfl⟩
    · cases blank
    · rw [List.concat_eq_append] at blank ⊢
      rw [List.getLast?_concat, Option.some.injEq] at blank
      subst blank
      rw [List.dropLast_concat, Lines.intercalate_append_singleton, List.append_nil,
        List.length_append, List.length_singleton]
      rcases eq_or_ne others [] with rfl | nonempty
      · simp
      · have ended := Lines.intercalate_append_newline nonempty
        have more := List.length_pos_of_ne_nil nonempty
        constructor
        · intro same
          have lengths := congrArg List.length ended
          rw [← same, List.length_append, List.length_singleton] at lengths
          omega
        · intro few
          have only := few (by simp)
          omega
  · rename_i notBlank
    simp [notBlank]

end Rows

section Composition

theorem split_sanitize (text : List Char) : Lines.split (sanitize text none).text =
    trimLast ((Lines.split text).map row) := by
  rw [sanitize_eq]
  exact split_intercalate (unbroken_rows text none)

/-- Rows that were shown are shown the same again, with nothing to escape. -/
theorem ofRows_shown {shown lines : List (List Char)} (fromLines : shown ⊆ lines.map row) :
    shown.map row = shown ∧ shown.any hasEscape = false := by
  constructor
  · refine (List.map_congr_left ?_).trans (List.map_id shown)
    intro line lineMem
    rcases List.mem_map.mp (fromLines lineMem) with ⟨original, -, rfl⟩
    exact row_row original
  · rw [List.any_eq_false]
    intro line lineMem
    rcases List.mem_map.mp (fromLines lineMem) with ⟨original, -, rfl⟩
    simp [hasEscape_row]

/-- A cleaned text is bounded as the text itself is, exactly when none of the lines within the
bound needs an escape, and the text ends with no empty line, or with one among several that are
cut with it or its only one that is not. -/
theorem sanitize_sanitize_iff (text : List Char) (maxLines : Option ℕ) :
    sanitize (sanitize text none).text maxLines = sanitize text maxLines ↔
      (∀ line ∈ within maxLines (Lines.split text), hasEscape line = false) ∧
        ((Lines.split text).getLast? = some [] →
          (∀ limit ∈ maxLines, limit + 1 ≠ (Lines.split text).length) ∧
            (exceeds maxLines (Lines.split text) = false → (Lines.split text).length ≤ 1)) := by
  let lines := Lines.split text
  let rows := lines.map row
  have fromLines : within maxLines (trimLast rows) ⊆ lines.map row := by
    intro shown shownMem
    have inRows := mem_of_mem_within shownMem
    rw [trimLast] at inRows
    split at inRows
    · exact List.dropLast_subset _ inRows
    · exact inRows
  rcases ofRows_shown fromLines with ⟨sameRows, noEscape⟩
  have sameText : ['\n'].intercalate (within maxLines (trimLast rows)) =
      ['\n'].intercalate (within maxLines rows) ↔
        (exceeds maxLines lines = false → lines.getLast? = some [] → lines.length ≤ 1) := by
    have exceedsRows : exceeds maxLines rows = exceeds maxLines lines := exceeds_map maxLines lines
    rw [← exceedsRows, ← getLast?_map_row, ← List.length_map (f := row)]
    cases exceeded : exceeds maxLines rows with
    | true => simp [within_trimLast_of_exceeds exceeded]
    | false =>
        rw [within_trimLast_of_fits exceeded, within_eq_self exceeded, intercalate_trimLast_iff]
        simp [rows]
  have sameDropped : exceeds maxLines (trimLast rows) = exceeds maxLines lines ↔
      ∀ limit ∈ maxLines, limit + 1 = lines.length → lines.getLast? ≠ some [] := by
    rw [← exceeds_map maxLines lines, exceeds_trimLast_iff, List.length_map, ne_eq,
      getLast?_map_row]
  rw [sanitize_eq, sanitize_eq text maxLines, split_sanitize]
  change Sanitized.mk (['\n'].intercalate ((within maxLines (trimLast rows)).map row))
      ((within maxLines (trimLast rows)).any hasEscape) (exceeds maxLines (trimLast rows)) =
    Sanitized.mk (['\n'].intercalate ((within maxLines lines).map row))
      ((within maxLines lines).any hasEscape) (exceeds maxLines lines) ↔ _
  rw [Sanitized.mk.injEq, sameRows, noEscape, map_within, sameText, sameDropped,
    eq_comm (a := false), List.any_eq_false]
  simp only [Bool.not_eq_true]
  change _ ↔ (∀ line ∈ within maxLines lines, hasEscape line = false) ∧
    (lines.getLast? = some [] → (∀ limit ∈ maxLines, limit + 1 ≠ lines.length) ∧
      (exceeds maxLines lines = false → lines.length ≤ 1))
  tauto

/-- The bound of one line is reached, but cutting it again drops nothing. -/
theorem sanitize_sanitize_blankEnd :
    sanitize "a\n\n".toList (some 1) = ⟨['a'], false, true⟩ ∧
      sanitize (sanitize "a\n\n".toList none).text (some 1) = ⟨['a'], false, false⟩ ∧
      sanitize "a\n\n".toList none = ⟨['a', '\n'], false, false⟩ ∧
      sanitize (sanitize "a\n\n".toList none).text none = ⟨['a'], false, false⟩ ∧
      sanitize [Char.ofNat 0x1b] none = ⟨['^', '['], true, false⟩ ∧
      sanitize (sanitize [Char.ofNat 0x1b] none).text none = ⟨['^', '['], false, false⟩ := by
  decide

end Composition

section SingleLine

variable {current : List Char} {escaped : Bool} {out : Sanitized} {emitted : ℕ}

theorem loop_single (text : List Char) :
    loop none false out current escaped emitted text =
      if current ++ text.flatMap singleCell = [] then out
      else out.push emitted (current ++ text.flatMap singleCell)
        (escaped || text.any fun character => character = '\n' || (escape character).isSome) := by
  induction text generalizing current escaped with
  | nil =>
      rw [loop]
      simp
  | cons character text ih =>
      have next : loop none false out current escaped emitted (character :: text) =
          loop none false out (current ++ singleCell character)
            (escaped || (character = '\n' || (escape character).isSome)) emitted text := by
        rw [loop, singleCell]
        by_cases isFeed : character = '\n'
        · simp [isFeed]
        · rw [if_neg isFeed, if_neg isFeed]
          by_cases isReturn : character = '\r'
          · subst isReturn
            rw [if_pos rfl, if_neg (by simp), cell_return, escape_return]
            simp
          · rw [if_neg isReturn]
            by_cases isTab : character = '\t'
            · subst isTab
              rw [if_pos rfl, cell, if_pos rfl]
              simp [escape]
            · rw [if_neg isTab, cell, if_neg isTab]
              cases escape character <;> simp [isFeed]
      rw [next, ih]
      simp [Bool.or_assoc]

/-- A field of one row shows all characters, one after the other. -/
theorem sanitizeSingleLine_text (text : List Char) :
    (sanitizeSingleLine text).text = text.flatMap singleCell := by
  rw [sanitizeSingleLine, sanitizeInner, loop_single, List.nil_append]
  split
  · rename_i blank
    rw [blank]
  · rfl

/-- Nothing is left out without a visible replacement. -/
theorem singleCell_cases (character : Char) : singleCell character = [character] ∨
    singleCell character ≠ [] ∧ ∀ shown ∈ singleCell character, Visible shown := by
  rw [singleCell]
  split
  · right
    rw [List.forall_mem_cons, List.forall_mem_singleton]
    exact ⟨by simp, by decide, by decide⟩
  · rcases cell_cases character with ⟨itself, -⟩ | visible
    · exact .inl itself
    · exact .inr visible

theorem inert_singleCell_iff (character : Char) :
    (∀ shown ∈ singleCell character, Inert shown) ↔ character ≠ arabicLetterMark := by
  constructor
  · rintro inert rfl
    have marked := inert arabicLetterMark (by decide)
    exact marked.2.2 (.inl rfl)
  · intro notMark shown shownMem
    rw [singleCell] at shownMem
    split at shownMem
    · have visible : ∀ shown ∈ ['^', 'J'], Visible shown := by
        rw [List.forall_mem_cons, List.forall_mem_singleton]
        exact ⟨by decide, by decide⟩
      exact inert_of_visible (visible shown shownMem)
    · rename_i notFeed
      rcases inert_of_mem_cell notFeed shownMem with inert | ⟨-, isMark⟩
      · exact inert
      · exact absurd isMark notMark

end SingleLine

section Inertness

/-- What the sanitizer is for: only inert text, in both modes, the first of its lines that fit and
a note when that are not all of them, and a visible stand-in for whatever is replaced in a field of
one row. -/
structure Neutralizes (text : List Char) (maxLines : Option ℕ) : Prop where
  inert : ∀ shown ∈ (sanitize text maxLines).text, shown = '\n' ∨ Inert shown
  lines : Lines.split (sanitize text maxLines).text =
    within maxLines (Lines.split (sanitize text none).text)
  dropped : (sanitize text maxLines).droppedLines =
    exceeds maxLines (Lines.split (sanitize text none).text)
  inertSingle : ∀ shown ∈ (sanitizeSingleLine text).text, Inert shown
  replaced : (sanitizeSingleLine text).text = text.flatMap singleCell ∧
    ∀ character ∈ text, singleCell character = [character] ∨
      singleCell character ≠ [] ∧ ∀ shown ∈ singleCell character, Visible shown

theorem mem_of_mem_intercalate {lines : List (List Char)} {character : Char}
    (member : character ∈ ['\n'].intercalate lines) :
    character = '\n' ∨ ∃ line ∈ lines, character ∈ line := by
  rcases List.eq_nil_or_concat lines with rfl | ⟨others, last, rfl⟩
  · cases member
  · rw [List.concat_eq_append] at member ⊢
    rw [Lines.intercalate_append_singleton, List.mem_append, Lines.join, List.mem_flatMap] at member
    rcases member with ⟨line, lineMem, inLine⟩ | inLast
    · rcases List.mem_append.mp inLine with inLine | isFeed
      · exact .inr ⟨line, List.mem_append_left _ lineMem, inLine⟩
      · exact .inl (List.mem_singleton.mp isFeed)
    · exact .inr ⟨last, by simp, inLast⟩

/-- A line has characters of its text only. -/
theorem subset_of_mem_split {text line : List Char} (lineMem : line ∈ Lines.split text) :
    line ⊆ text := by
  rcases Lines.exists_parts text with ⟨lines, last, single, lastSingle, rfl⟩
  rw [Lines.split_parts single lastSingle] at lineMem
  rcases List.mem_append.mp lineMem with isLine | isLast
  · rcases List.mem_map.mp isLine with ⟨whole, wholeMem, rfl⟩
    intro character inLine
    apply List.mem_append_left
    rw [Lines.join, List.mem_flatMap]
    exact ⟨whole, wholeMem, List.mem_append_left _ (Lines.stripReturn_subset whole inLine)⟩
  · split at isLast
    · cases isLast
    · rw [List.mem_singleton.mp isLast]
      exact List.subset_append_right _ _

/-- The lines shown are the first ones of the text shown in full unless the last of them is empty
and there are more. -/
theorem split_within_iff (text : List Char) (maxLines : Option ℕ) :
    Lines.split (sanitize text maxLines).text =
        within maxLines (Lines.split (sanitize text none).text) ↔
      (exceeds maxLines (Lines.split text) = true →
        (within maxLines (Lines.split text)).getLast? ≠ some []) := by
  let rows := (Lines.split text).map row
  have shown : Lines.split (sanitize text maxLines).text = trimLast (within maxLines rows) := by
    rw [sanitize_eq]
    change Lines.split (['\n'].intercalate ((within maxLines (Lines.split text)).map row)) = _
    rw [map_within, split_intercalate (unbroken_rows text maxLines)]
  rw [shown, split_sanitize, ← exceeds_map, ne_eq, ← getLast?_map_row, map_within]
  change trimLast (within maxLines rows) = within maxLines (trimLast rows) ↔
    (exceeds maxLines rows = true → (within maxLines rows).getLast? ≠ some [])
  cases exceeded : exceeds maxLines rows with
  | true =>
      rw [within_trimLast_of_exceeds exceeded, trimLast]
      split
      · rename_i blank
        have shorter : (within maxLines rows).dropLast ≠ within maxLines rows := by
          intro same
          have lengths := congrArg List.length same
          have nonempty : 0 < (within maxLines rows).length := by
            apply List.length_pos_of_ne_nil
            intro none
            rw [none] at blank
            cases blank
          rw [List.length_dropLast] at lengths
          omega
        simp [shorter, blank]
      · rename_i notBlank
        simp [notBlank]
  | false =>
      rw [within_trimLast_of_fits exceeded, within_eq_self exceeded]
      simp

/-- The first lines of the text are shown and a longer text is marked, for every text and bound.
All of what the sanitizer is for it does exactly when U+061C is not in the text, no empty line is
the last one before the cut, and an empty last line is not the only one cut. -/
theorem neutralizes_iff (text : List Char) (maxLines : Option ℕ) :
    ((sanitize text maxLines).text =
        ['\n'].intercalate ((within maxLines (Lines.split text)).map row) ∧
      (sanitize text maxLines).droppedLines = exceeds maxLines (Lines.split text)) ∧
    (Neutralizes text maxLines ↔
      arabicLetterMark ∉ text ∧
        (exceeds maxLines (Lines.split text) = true →
          (within maxLines (Lines.split text)).getLast? ≠ some []) ∧
        ∀ limit ∈ maxLines, limit + 1 = (Lines.split text).length →
          (Lines.split text).getLast? ≠ some []) := by
  refine ⟨by rw [sanitize_eq]; exact ⟨rfl, rfl⟩, ?_⟩
  have marked : (∀ shown ∈ (sanitizeSingleLine text).text, Inert shown) ↔
      arabicLetterMark ∉ text := by
    rw [sanitizeSingleLine_text]
    constructor
    · intro inert inText
      have markInert : ∀ shown ∈ singleCell arabicLetterMark, Inert shown :=
        fun shown shownMem => inert shown (List.mem_flatMap.mpr ⟨_, inText, shownMem⟩)
      exact (inert_singleCell_iff arabicLetterMark).mp markInert rfl
    · intro unmarked shown shownMem
      rcases List.mem_flatMap.mp shownMem with ⟨character, inText, inCell⟩
      refine (inert_singleCell_iff character).mpr ?_ shown inCell
      rintro rfl
      exact unmarked inText
  have dropped : (sanitize text maxLines).droppedLines =
      exceeds maxLines (Lines.split (sanitize text none).text) ↔
        ∀ limit ∈ maxLines, limit + 1 = (Lines.split text).length →
          (Lines.split text).getLast? ≠ some [] := by
    rw [split_sanitize, sanitize_eq, eq_comm]
    change exceeds maxLines (trimLast ((Lines.split text).map row)) =
      exceeds maxLines (Lines.split text) ↔ _
    rw [← exceeds_map maxLines (Lines.split text), exceeds_trimLast_iff, List.length_map, ne_eq,
      getLast?_map_row]
  constructor
  · intro neutralizes
    exact ⟨marked.mp neutralizes.inertSingle, (split_within_iff text maxLines).mp neutralizes.lines,
      dropped.mp neutralizes.dropped⟩
  · rintro ⟨unmarked, keptLast, cutLast⟩
    refine ⟨?_, (split_within_iff text maxLines).mpr keptLast, dropped.mpr cutLast,
      marked.mpr unmarked, sanitizeSingleLine_text text, fun character _ =>
        singleCell_cases character⟩
    intro shown shownMem
    rw [sanitize_eq] at shownMem
    rcases mem_of_mem_intercalate shownMem with isFeed | ⟨shownRow, rowMem, inRow⟩
    · exact .inl isFeed
    · right
      rcases List.mem_map.mp rowMem with ⟨line, lineMem, rfl⟩
      have lineMem := mem_of_mem_within lineMem
      rcases mem_row_iff.mp inRow with ⟨character, inLine, inCell⟩
      have notFeed : character ≠ '\n' := by
        rintro rfl
        exact Lines.single_of_mem_split lineMem inLine
      rcases inert_of_mem_cell notFeed inCell with inert | ⟨-, isMark⟩
      · exact inert
      · exact absurd (subset_of_mem_split lineMem inLine) (isMark ▸ unmarked)

/-- The mark goes through both modes. -/
theorem arabicLetterMark_unescaped :
    (sanitize [arabicLetterMark] none).text = [arabicLetterMark] ∧
      (sanitizeSingleLine [arabicLetterMark]).text = [arabicLetterMark] ∧
      IsBidiControl arabicLetterMark.toNat ∧ ¬Neutralizes [arabicLetterMark] none := by
  refine ⟨by decide, by decide, .inl rfl, ?_⟩
  intro neutralizes
  have inert := neutralizes.inertSingle arabicLetterMark (by decide)
  exact inert.2.2 (.inl rfl)

end Inertness

end Gregg.Tui
