import Gregg.Startup.CronBlocks
import Gregg.Startup.ServiceConfig

/-!
# The watchdog of one config

What the parser reads back of a written watchdog command, and what becomes of a table into which a
watchdog is merged. The writer escapes a quote by closing and opening the quotes around it, where
the parser takes the first quote for the end of the path.
-/

namespace Gregg

/-- A text in quotes, with its own quotes escaped. -/
def quoteText (text : List Char) : List Char :=
  '\'' :: Search.replace ['\''] "'\\''".toList text ++ ['\'']

/-- What the parser takes for something else than the argument of a command. -/
def isOperator (character : Char) : Bool :=
  [';', '|', '&', '$', '\n', '\r'].contains character

/-- A written command is read back: neither path is empty or has a quote, and the config has no
operator of the shell. -/
def ReadsBack (exe : List Char) (config : Option (List Char)) : Prop :=
  (exe ≠ [] ∧ '\'' ∉ exe) ∧
    ∀ text, config = some text → (text ≠ [] ∧ '\'' ∉ text) ∧ text.any isOperator = false

section Quote

variable {text : List Char}

theorem quoteText_of_not_mem (noQuote : '\'' ∉ text) :
    quoteText text = '\'' :: text ++ ['\''] := by
  have avoid : Search.avoids ['\''] text = true := Search.avoids_of_not_mem noQuote
  rw [quoteText, Search.replace, Search.split_eq_singleton avoid, List.intercalate_singleton]

/-- The first quote in a text is written with a backslash after it. -/
theorem quoteText_of_mem (isQuote : '\'' ∈ text) :
    ∃ before rest, '\'' ∉ before ∧ quoteText text = '\'' :: (before ++ '\'' :: '\\' :: rest) := by
  rcases List.eq_append_cons_of_mem isQuote with ⟨before, after, rfl, noQuote⟩
  have avoid : Search.avoids ['\''] before = true := Search.avoids_of_not_mem noQuote
  have isQuoted : Search.replace ['\''] "'\\''".toList (before ++ '\'' :: after) =
      before ++ ("'\\''".toList ++ Search.replace ['\''] "'\\''".toList after) := by
    rw [Search.replace_append avoid]
    exact congrArg (before ++ ·) (Search.replace_pattern (List.cons_ne_nil _ _) _ after)
  refine ⟨before, ['\'', '\''] ++ Search.replace ['\''] "'\\''".toList after ++ ['\''],
    noQuote, ?_⟩
  rw [quoteText, isQuoted, List.cons_append, List.append_assoc, List.append_assoc]
  rfl

theorem any_quoteText {isBad : Char → Bool} (quote : isBad '\'' = false)
    (backslash : isBad '\\' = false) (text : List Char) :
    (quoteText text).any isBad = text.any isBad := by
  have escaped : (text.flatMap fun other => if other = '\'' then "'\\''".toList else [other]).any
      isBad = text.any isBad := by
    rw [List.any_flatMap]
    congr 1
    funext character
    split
    · rename_i isQuote
      subst isQuote
      simp [quote, backslash]
    · simp
  rw [quoteText, Search.replace_singleton, List.any_append, List.any_cons, escaped]
  simp [quote]

theorem shellQuote_eq_ok_iff {path : OsPath} {quoted : List Char} :
    shellQuote path = .ok quoted ↔
      path.toStringLossy.any Text.isControl = false ∧ quoted = quoteText path.toStringLossy := by
  have feed : path.toStringLossy.contains '\n' = true → path.toStringLossy.any Text.isControl :=
    fun isIn => List.any_eq_true.mpr ⟨'\n', List.contains_iff_mem.mp isIn, by decide⟩
  have carriage : path.toStringLossy.contains '\r' = true →
      path.toStringLossy.any Text.isControl :=
    fun isIn => List.any_eq_true.mpr ⟨'\r', List.contains_iff_mem.mp isIn, by decide⟩
  simp only [shellQuote]
  split
  · rename_i breaks
    refine iff_of_false (fun same => nomatch same) fun clean => ?_
    rcases Bool.or_eq_true_iff.mp breaks with isFeed | isReturn
    · exact Bool.noConfusion (clean.1.symm.trans (feed isFeed))
    · exact Bool.noConfusion (clean.1.symm.trans (carriage isReturn))
  · split
    · rename_i control
      exact iff_of_false (fun same => nomatch same) fun clean =>
        Bool.noConfusion (clean.1.symm.trans control)
    · rename_i clean
      rw [Except.ok.injEq]
      exact ⟨fun same => ⟨Bool.eq_false_iff.mpr clean, same.symm⟩, fun same => same.2.symm⟩

/-- The text is read back from its quotes. -/
theorem splitOnce_quote (noQuote : '\'' ∉ text) (rest : List Char) :
    Search.splitOnce ['\''] (text ++ '\'' :: rest) = some (text, rest) :=
  Search.splitOnce_of_avoids (List.cons_ne_nil _ _) (Search.avoids_of_not_mem noQuote) rest

theorem replace_of_not_mem (noQuote : '\'' ∉ text) :
    Search.replace "'\\''".toList ['\''] text = text := by
  have avoid : Search.avoids "'\\''".toList text = true := Search.avoids_of_not_mem noQuote
  rw [Search.replace, Search.split_eq_singleton avoid, List.intercalate_singleton]

/-- A text that starts with something else than white space still does when it is trimmed. -/
theorem exists_trim_cons {first : Char} (solid : Text.isWhitespace first = false)
    (rest : List Char) : ∃ kept, Text.trim (first :: rest) = first :: kept := by
  have kept : Text.trim (first :: rest) = (first :: rest).rdropWhile Text.isWhitespace := by
    rw [Text.trim, List.dropWhile_cons_of_neg (by simp [solid])]
    rfl
  rw [kept, Search.rdropWhile_cons_of_not_all]
  · exact ⟨_, rfl⟩
  · intro all
    exact Bool.noConfusion (solid.symm.trans (all first List.mem_cons_self))

end Quote

section Command

variable {exe text : List Char}

/-- Between quotes nothing is trimmed. -/
theorem trim_space_quoteText (text : List Char) :
    Text.trim (' ' :: quoteText text) = quoteText text := by
  have isLast : (quoteText text).getLast? = some '\'' := by
    rw [quoteText, List.getLast?_concat]
  exact (Text.trim_eq_self rfl isLast (by decide) (by decide) :
    Text.trim (quoteText text) = quoteText text)

/-- An argument after the flag is read back where it has no quote. -/
theorem parseConfigArgument_quoteText (text : List Char) :
    parseConfigArgument ("--config".toList ++ ' ' :: quoteText text) =
      if text ≠ [] ∧ '\'' ∉ text then some (some (.ofText text)) else none := by
  have nonempty : ("--config".toList ++ ' ' :: quoteText text).isEmpty = false := rfl
  rw [parseConfigArgument, nonempty, if_neg Bool.false_ne_true, Search.stripPrefix_append,
    Option.bind_some, trim_space_quoteText]
  by_cases isQuote : '\'' ∈ text
  · rcases quoteText_of_mem isQuote with ⟨before, rest, noQuote, isQuoted⟩
    rcases exists_trim_cons (by decide : Text.isWhitespace '\\' = false) rest with ⟨kept, isKept⟩
    have stripped : Search.stripPrefix ['\''] ('\'' :: (before ++ '\'' :: '\\' :: rest)) =
        some (before ++ '\'' :: '\\' :: rest) := Search.stripPrefix_append ['\''] _
    rw [isQuoted, stripped, Option.bind_some, splitOnce_quote noQuote, Option.bind_some]
    simp only [isKept, List.isEmpty_cons, Bool.not_false, Bool.true_or, if_true]
    rw [if_neg fun reads => reads.2 isQuote]
  · have stripped : Search.stripPrefix ['\''] ('\'' :: (text ++ ['\''])) =
        some (text ++ ['\'']) := Search.stripPrefix_append ['\''] _
    have blank : (Text.trim []).isEmpty = true := rfl
    rw [quoteText_of_not_mem isQuote, List.cons_append, stripped, Option.bind_some,
      splitOnce_quote isQuote, Option.bind_some]
    simp only [replace_of_not_mem isQuote, blank, Bool.not_true, Bool.false_or]
    cases text with
    | nil => rfl
    | cons first rest =>
        rw [List.isEmpty_cons, if_neg Bool.false_ne_true,
          if_pos ⟨List.cons_ne_nil _ _, isQuote⟩]

/-- What is read after the executable. -/
def parseRemainder (remainder : List Char) : Option (Option OsPath) :=
  if remainder.any isOperator || !(remainder == "croncheck".toList ||
      (Search.stripSuffix " croncheck".toList remainder).isSome) then none
  else
    (Search.stripSuffix "croncheck".toList remainder).bind fun arguments =>
      parseConfigArgument (Text.trim arguments)

/-- What the parser reads of a command without a quote in its executable. -/
theorem parseCommand_of_not_mem (noQuote : '\'' ∉ exe) (nonempty : exe ≠ []) (tail : List Char) :
    parseCommand (quoteText exe ++ tail) =
      (parseRemainder (Text.trim tail)).map fun config => (.ofText exe, config) := by
  have stripped : Search.stripPrefix ['\''] ('\'' :: (exe ++ '\'' :: tail)) =
      some (exe ++ '\'' :: tail) := Search.stripPrefix_append ['\''] _
  have isCommand : quoteText exe ++ tail = '\'' :: (exe ++ '\'' :: tail) := by
    rw [quoteText_of_not_mem noQuote, List.cons_append, List.cons_append, List.append_assoc]
    rfl
  have isTarget : exe.isEmpty = false := by
    cases exe with
    | nil => exact absurd rfl nonempty
    | cons first rest => rfl
  rw [parseCommand, isCommand, stripped, Option.bind_some, splitOnce_quote noQuote,
    Option.bind_some]
  simp only [replace_of_not_mem noQuote, isTarget, Bool.false_or]
  rw [parseRemainder, apply_ite (Option.map _), Option.map_none, Option.map_bind]
  rfl

/-- A command with a quote in its executable is not read back. -/
theorem parseCommand_of_mem (isQuote : '\'' ∈ exe) (tail : List Char) :
    parseCommand (quoteText exe ++ tail) = none := by
  rcases quoteText_of_mem isQuote with ⟨before, rest, noQuote, isQuoted⟩
  have isCommand : quoteText exe ++ tail =
      '\'' :: (before ++ '\'' :: '\\' :: (rest ++ tail)) := by
    rw [isQuoted, List.cons_append, List.append_assoc]
    rfl
  have stripped : Search.stripPrefix ['\''] ('\'' :: (before ++ '\'' :: '\\' :: (rest ++ tail))) =
      some (before ++ '\'' :: '\\' :: (rest ++ tail)) := Search.stripPrefix_append ['\''] _
  rcases exists_trim_cons (by decide : Text.isWhitespace '\\' = false) (rest ++ tail) with
    ⟨kept, isKept⟩
  -- What follows the first quote starts with the backslash, which no argument does.
  have unread : ∀ arguments, Search.stripSuffix "croncheck".toList ('\\' :: kept) =
      some arguments → parseConfigArgument (Text.trim arguments) = none := by
    intro arguments isSuffix
    have whole := Search.stripSuffix_eq_some_iff.mp isSuffix
    cases arguments with
    | nil => exact absurd (List.cons.inj whole).1 (by decide)
    | cons first more =>
        rw [List.cons_append, List.cons.injEq] at whole
        rcases exists_trim_cons (by decide : Text.isWhitespace '\\' = false) more with
          ⟨trimmed, isTrimmed⟩
        rw [← whole.1, isTrimmed]
        rfl
  rw [parseCommand, isCommand, stripped, Option.bind_some, splitOnce_quote noQuote,
    Option.bind_some]
  simp only [isKept]
  split
  · rfl
  · cases isSuffix : Search.stripSuffix "croncheck".toList ('\\' :: kept) with
    | none => rfl
    | some arguments => rw [Option.bind_some, unread arguments isSuffix, Option.map_none]

theorem parseCommand_nil (tail : List Char) : parseCommand (quoteText [] ++ tail) = none := by
  rfl

/-- The config argument of a command. -/
def configArgument (text : List Char) : List Char :=
  "--config".toList ++ ' ' :: quoteText text

theorem configArgument_eq (text : List Char) :
    configArgument text = "--config".toList ++ ' ' :: quoteText text := rfl

theorem trim_argument (text : List Char) :
    Text.trim (' ' :: (configArgument text ++ " croncheck".toList)) =
      configArgument text ++ " croncheck".toList := by
  have isLast : (configArgument text ++ " croncheck".toList).getLast? = some 'k' := by
    rw [List.getLast?_append]
    rfl
  have trimmed : Text.trim (configArgument text ++ " croncheck".toList) =
      configArgument text ++ " croncheck".toList :=
    Text.trim_eq_self rfl isLast (by decide) (by decide)
  exact trimmed

/-- The space in front of the verb is trimmed away. -/
theorem trim_configArgument (text : List Char) :
    Text.trim (configArgument text ++ [' ']) = configArgument text := by
  have isLast : (configArgument text).getLast? = some '\'' := by
    rw [configArgument_eq, quoteText, ← List.cons_append, ← List.append_assoc, List.getLast?_concat]
  have atFront : (configArgument text ++ [' ']).dropWhile Text.isWhitespace =
      configArgument text ++ [' '] := Search.dropWhile_eq_self_iff_head?.mpr (by
    rintro _ ⟨⟩
    decide)
  have atEnd : (configArgument text).rdropWhile Text.isWhitespace = configArgument text :=
    Search.rdropWhile_eq_self_iff_getLast?.mpr (by
      rw [isLast]
      rintro _ ⟨⟩
      decide)
  rw [Text.trim, atFront]
  exact (List.rdropWhile_concat_pos _ _ _ (by decide)).trans atEnd

theorem any_isOperator_configArgument (text : List Char) :
    (configArgument text ++ " croncheck".toList).any isOperator = text.any isOperator := by
  have flag : "--config".toList.any isOperator = false := by decide
  have verb : " croncheck".toList.any isOperator = false := by decide
  have space : isOperator ' ' = false := by decide
  rw [List.any_append, configArgument_eq, List.any_append, List.any_cons,
    any_quoteText (by decide) (by decide), flag, verb, space, Bool.false_or, Bool.false_or,
    Bool.or_false]

theorem parseRemainder_configArgument (text : List Char) :
    parseRemainder (configArgument text ++ " croncheck".toList) =
      if text.any isOperator = false ∧ text ≠ [] ∧ '\'' ∉ text then
        some (some (.ofText text)) else none := by
  have spaced : configArgument text ++ " croncheck".toList =
      (configArgument text ++ [' ']) ++ "croncheck".toList := by
    rw [List.append_assoc]
    rfl
  have isVerb : (Search.stripSuffix " croncheck".toList
      (configArgument text ++ " croncheck".toList)).isSome = true := by
    rw [Search.stripSuffix_append]
    rfl
  have stripped : Search.stripSuffix "croncheck".toList
      (configArgument text ++ " croncheck".toList) = some (configArgument text ++ [' ']) := by
    rw [spaced, Search.stripSuffix_append]
  rw [parseRemainder, any_isOperator_configArgument, isVerb, stripped, Option.bind_some,
    trim_configArgument, configArgument_eq, parseConfigArgument_quoteText, Bool.or_true,
    Bool.not_true, Bool.or_false]
  cases text.any isOperator with
  | false => simp only [Bool.false_eq_true, if_false, true_and]
  | true => rfl

/-- A written command is read back exactly under these conditions. -/
theorem parseCommand_eq_some_iff {config : Option (List Char)} {parts : OsPath × Option OsPath} :
    parseCommand (watchdogCommand (quoteText exe) (config.map quoteText)) = some parts ↔
      ReadsBack exe config ∧ parts = (.ofText exe, config.map OsPath.ofText) := by
  have isCommand : watchdogCommand (quoteText exe) (config.map quoteText) = quoteText exe ++
      config.elim " croncheck".toList fun text =>
        ' ' :: (configArgument text ++ " croncheck".toList) := by
    cases config with
    | none => rfl
    | some text =>
        rw [Option.map_some, watchdogCommand, List.append_assoc, List.append_assoc]
        refine congrArg (quoteText exe ++ ·) ?_
        simp only [configArgument_eq, List.append_assoc]
        rfl
  rw [isCommand, ReadsBack]
  by_cases isQuote : '\'' ∈ exe
  · rw [parseCommand_of_mem isQuote]
    exact iff_of_false (fun read => Option.some_ne_none _ read.symm)
      fun reads => reads.1.1.2 isQuote
  · by_cases isEmpty : exe = []
    · subst isEmpty
      rw [parseCommand_nil]
      exact iff_of_false (fun read => Option.some_ne_none _ read.symm) fun reads => reads.1.1.1 rfl
    · rw [parseCommand_of_not_mem isQuote isEmpty]
      cases config with
      | none =>
          have read : parseRemainder (Text.trim " croncheck".toList) = some none := rfl
          rw [Option.elim_none, read, Option.map_some, Option.some_inj, eq_comm]
          refine ⟨fun same => ⟨⟨⟨isEmpty, isQuote⟩, ?_⟩, same⟩, fun reads => reads.2⟩
          exact fun _ absent => absurd absent.symm (Option.some_ne_none _)
      | some text =>
          rw [Option.elim_some, trim_argument, parseRemainder_configArgument]
          split
          · rename_i reads
            rw [Option.map_some, Option.some_inj, eq_comm]
            refine ⟨fun same => ⟨⟨⟨isEmpty, isQuote⟩, ?_⟩, same⟩, fun reads => reads.2⟩
            rintro _ ⟨⟩
            exact ⟨reads.2, reads.1⟩
          · rename_i unread
            refine iff_of_false (fun read => Option.some_ne_none _ read.symm) fun reads => unread ?_
            exact ⟨(reads.1.2 text rfl).2, (reads.1.2 text rfl).1⟩

end Command

section Lines

variable {line : List Char} {lines : List (List Char)}

/-- A space at the end is trimmed away. -/
theorem trim_concat {last : Char} (space : Text.isWhitespace last = true) (text : List Char) :
    Text.trim (text ++ [last]) = Text.trim text := by
  rw [Text.trim, Text.trim, List.dropWhile_append]
  split
  · rename_i isEmpty
    rw [List.isEmpty_iff.mp isEmpty, List.dropWhile_cons_of_pos space]
    rfl
  · rw [List.reverse_append]
    exact congrArg List.reverse (List.dropWhile_cons_of_pos space)

theorem stripReturn_eq_self_iff :
    Lines.stripReturn line = line ↔ line.getLast? ≠ some '\r' := by
  rw [Lines.stripReturn]
  split
  · rename_i isReturn
    refine iff_of_false (fun same => ?_) fun other => other isReturn
    rcases List.getLast?_eq_some_iff.mp isReturn with ⟨front, rfl⟩
    have length := congrArg List.length same
    rw [List.dropLast_concat, List.length_append, List.length_singleton] at length
    omega
  · rename_i other
    exact iff_of_true rfl other

theorem isMarker_marker : isMarker CRON_MANAGED_MARKER = true := by
  decide +kernel

theorem isMarker_stripReturn (line : List Char) :
    isMarker (Lines.stripReturn line) = isMarker line := by
  rw [Lines.stripReturn]
  split
  · rename_i isReturn
    rcases List.getLast?_eq_some_iff.mp isReturn with ⟨front, rfl⟩
    rw [List.dropLast_concat, isMarker, isMarker, trim_concat (by decide)]
  · rfl

theorem isPrefix_stripReturn (line : List Char) : Lines.stripReturn line <+: line := by
  rw [Lines.stripReturn]
  split
  · exact List.dropLast_prefix line
  · exact List.prefix_rfl

/-- A line that loses no carriage return in two goes has none. -/
theorem stripReturn_of_twice
    (same : Lines.stripReturn (Lines.stripReturn line) = line) : Lines.stripReturn line = line := by
  have inner := (isPrefix_stripReturn line).length_le
  have outer := (isPrefix_stripReturn (Lines.stripReturn line)).length_le
  rw [same] at outer
  exact (isPrefix_stripReturn line).eq_of_length (Nat.le_antisymm inner outer)

/-- The lines of a table up to empty ones at its end. -/
def contentLines (table : List Char) : List (List Char) :=
  (Lines.split table).rdropWhile List.isEmpty

/-- Lines that are written and read again are the same exactly when none loses a carriage
return. -/
theorem rdropWhile_map_stripReturn_iff (ends : lines.rdropWhile List.isEmpty = lines) :
    (lines.map fun line => Lines.stripReturn (Lines.stripReturn line)).rdropWhile List.isEmpty =
        lines ↔
      ∀ line ∈ lines, Lines.stripReturn line = line := by
  constructor
  · intro same
    have isFront := List.rdropWhile_prefix List.isEmpty
      (lines.map fun line => Lines.stripReturn (Lines.stripReturn line))
    rw [same] at isFront
    have whole := isFront.eq_of_length (List.length_map _).symm
    have each : lines.map id =
        lines.map fun line => Lines.stripReturn (Lines.stripReturn line) := by
      rw [List.map_id]
      exact whole
    intro line isLine
    exact stripReturn_of_twice (List.map_inj_left.mp each line isLine).symm
  · intro tight
    have each : lines.map (fun line => Lines.stripReturn (Lines.stripReturn line)) = lines := by
      refine (List.map_inj_left.mpr fun line isLine => ?_).trans (List.map_id lines)
      rw [tight line isLine, tight line isLine, id]
    rw [each, ends]

end Lines

section Merge

variable {lines commands : List (List Char)} {owned : List (List Char) → Bool} {marker : List Char}

/-- Lines outside the blocks are kept. -/
theorem keepUnowned_append (noMarker : ∀ line ∈ lines, isMarker line = false)
    (rest : List (List Char)) :
    keepUnowned owned (lines ++ rest) = lines ++ keepUnowned owned rest := by
  induction lines with
  | nil => rfl
  | cons line lines ih =>
      rw [List.forall_mem_cons] at noMarker
      rw [List.cons_append, keepUnowned, if_pos (by rw [noMarker.1]; rfl), ih noMarker.2]
      rfl

theorem keepUnowned_eq_self (noMarker : ∀ line ∈ lines, isMarker line = false) :
    keepUnowned owned lines = lines := by
  have whole := @keepUnowned_append lines owned noMarker []
  rw [List.append_nil, keepUnowned, List.append_nil] at whole
  exact whole

/-- A block at the end is all that goes. -/
theorem keepUnowned_block (noMarker : ∀ line ∈ lines, isMarker line = false)
    (begins : isMarker marker = true) (isBlock : ∀ line ∈ commands, isCroncheck line = true)
    (isOwned : owned commands = true) :
    keepUnowned owned (lines ++ marker :: commands) = lines := by
  have all : commands.takeWhile isCroncheck = commands := List.takeWhile_eq_self_iff.mpr isBlock
  have none : commands.dropWhile isCroncheck = [] := List.dropWhile_eq_nil_iff.mpr isBlock
  rw [keepUnowned_append noMarker, keepUnowned, if_neg (by rw [begins]; decide), all, none,
    if_pos isOwned, keepUnowned, List.append_nil]

end Merge

/-- The end of a table with the lines that are kept does not matter once it is trimmed. -/
theorem rdropWhile_rejoin (crontab : List Char) (kept : List (List Char)) :
    (rejoin crontab kept).rdropWhile (· == '\n') =
      (['\n'].intercalate kept).rdropWhile (· == '\n') := by
  simp only [rejoin]
  split
  · exact List.rdropWhile_concat_pos _ _ _ (by decide)
  · rfl

theorem getLast?_join {block : List (List Char)} (nonempty : block ≠ []) :
    (Lines.join block).getLast? = some '\n' := by
  rcases List.eq_nil_or_concat block with isEmpty | ⟨before, last, rfl⟩
  · exact absurd isEmpty nonempty
  · rw [List.concat_eq_append, Lines.join_append, Lines.join_cons, Lines.join_nil,
      ← List.append_assoc, List.getLast?_concat]

/-- What a merge writes: the kept lines up to empty ones at their end, and the block. -/
theorem mergeCrontab_join {resolve : OsPath → OsPath} {existing : List Char} {exe config : OsPath}
    {explicit : Bool} {block : List (List Char)} (nonempty : block ≠ [])
    (single : ∀ line ∈ keepUnowned (blockIsOwnedBy resolve exe config explicit)
      (Lines.split existing), '\n' ∉ line) :
    mergeCrontab resolve existing (Lines.join block) exe config explicit =
      Lines.join ((keepUnowned (blockIsOwnedBy resolve exe config explicit)
        (Lines.split existing)).rdropWhile List.isEmpty ++ block) := by
  simp only [mergeCrontab, removeManagedCronBlockForConfig, rdropWhile_rejoin]
  rcases Lines.rdropWhile_intercalate single with ⟨isEmpty, blank⟩ | ⟨content, whole⟩
  · rw [blank, isEmpty]
    simp only [List.isEmpty_nil, if_true, List.nil_append]
    rw [if_pos (getLast?_join nonempty)]
  · have isContent : ((['\n'].intercalate (keepUnowned (blockIsOwnedBy resolve exe config explicit)
        (Lines.split existing))).rdropWhile (· == '\n')).isEmpty = false := by
      rw [List.isEmpty_eq_false_iff]
      exact content
    rw [isContent, if_neg Bool.false_ne_true, List.append_cons, whole, ← Lines.join_append,
      if_pos (getLast?_join (List.append_ne_nil_of_right_ne_nil _ nonempty))]

/-- The lines of a table that is joined again. -/
theorem contentLines_rejoin {crontab : List Char} {kept : List (List Char)}
    (ended : crontab.getLast? = some '\n') (single : ∀ line ∈ kept, '\n' ∉ line) :
    contentLines (rejoin crontab kept) =
      (kept.map Lines.stripReturn).rdropWhile List.isEmpty := by
  simp only [rejoin]
  by_cases isEmpty : ['\n'].intercalate kept = []
  · rw [isEmpty, if_neg fun both => both.2 rfl]
    cases kept with
    | nil => rfl
    | cons first rest =>
        cases rest with
        | nil =>
            rw [List.intercalate_singleton] at isEmpty
            rw [isEmpty]
            rfl
        | cons second rest =>
            rw [List.intercalate_cons_cons] at isEmpty
            simp at isEmpty
  · have nonempty : kept ≠ [] := fun none => isEmpty (none ▸ rfl)
    have parts := Lines.split_join single []
    rw [List.append_nil] at parts
    rw [if_pos ⟨ended, isEmpty⟩, Lines.intercalate_append_newline nonempty, contentLines, parts]
    exact congrArg (List.rdropWhile List.isEmpty) (List.append_nil _)

section Block

variable {exe config : OsPath} {explicit : Bool} {resolve : OsPath → OsPath}

/-- The config that a block names. -/
def writtenConfig (config : OsPath) (explicit : Bool) : Option (List Char) :=
  if explicit then some config.toStringLossy else none

/-- What both commands of a block run. -/
def blockCommand (exe config : OsPath) (explicit : Bool) : List Char :=
  watchdogCommand (quoteText exe.toStringLossy) ((writtenConfig config explicit).map quoteText)

def blockLines (exe config : OsPath) (explicit : Bool) : List (List Char) :=
  ["@reboot ".toList ++ blockCommand exe config explicit,
    "* * * * * ".toList ++ blockCommand exe config explicit]

/-- A block is written for paths without control characters. -/
theorem cronBlock_eq_ok {block : List Char} (accepted : cronBlock exe config explicit = .ok block) :
    block = Lines.join (CRON_MANAGED_MARKER :: blockLines exe config explicit) ∧
      exe.toStringLossy.any Text.isControl = false ∧
        ∀ text, writtenConfig config explicit = some text → text.any Text.isControl = false := by
  cases isExe : shellQuote exe with
  | error rejected =>
      rw [cronBlock, isExe] at accepted
      cases accepted
  | ok quoted =>
      rcases shellQuote_eq_ok_iff.mp isExe with ⟨cleanExe, rfl⟩
      rw [cronBlock, isExe] at accepted
      cases explicit with
      | false =>
          cases accepted
          exact ⟨rfl, cleanExe, fun _ absent => nomatch absent⟩
      | true =>
          cases isConfig : shellQuote config with
          | error rejected =>
              rw [isConfig] at accepted
              cases accepted
          | ok quoted =>
              rcases shellQuote_eq_ok_iff.mp isConfig with ⟨cleanConfig, rfl⟩
              rw [isConfig] at accepted
              cases accepted
              refine ⟨rfl, cleanExe, ?_⟩
              rintro _ ⟨⟩
              exact cleanConfig

/-- The command ends with its verb. -/
theorem verb_suffix_blockCommand : " croncheck".toList <:+ blockCommand exe config explicit := by
  rw [blockCommand]
  cases (writtenConfig config explicit).map quoteText with
  | none => exact List.suffix_append _ _
  | some config => exact List.suffix_append _ _

theorem isCroncheck_of_mem {line : List Char} (isLine : line ∈ blockLines exe config explicit) :
    isCroncheck line = true := by
  have verb : "croncheck".toList <:+ " croncheck".toList := List.suffix_cons _ _
  have isCommand := verb.trans (@verb_suffix_blockCommand exe config explicit)
  refine decide_eq_true (List.IsSuffix.isInfix ?_)
  rcases List.mem_cons.mp isLine with rfl | isLine
  · exact isCommand.trans (List.suffix_append _ _)
  · rw [List.mem_singleton.mp isLine]
    exact isCommand.trans (List.suffix_append _ _)

theorem stripReturn_of_mem {line : List Char} (isLine : line ∈ blockLines exe config explicit) :
    Lines.stripReturn line = line := by
  have ends : ∀ front, (front ++ blockCommand exe config explicit).getLast? = some 'k' := by
    intro front
    rcases @verb_suffix_blockCommand exe config explicit with ⟨before, isCommand⟩
    rw [← isCommand, List.getLast?_append, List.getLast?_append]
    rfl
  rw [stripReturn_eq_self_iff]
  rcases List.mem_cons.mp isLine with rfl | isLine
  · rw [ends]
    decide
  · rw [List.mem_singleton.mp isLine, ends]
    decide

theorem isMarker_of_mem {line : List Char} (isLine : line ∈ blockLines exe config explicit) :
    isMarker line = false := by
  have differs : ∀ first rest, Text.isWhitespace first = false → first ≠ '#' →
      isMarker (first :: rest) = false := by
    intro first rest solid differs
    rcases exists_trim_cons solid rest with ⟨kept, isKept⟩
    rw [isMarker, isKept, beq_eq_false_iff_ne]
    exact fun same => differs (List.cons.inj same).1
  rcases List.mem_cons.mp isLine with rfl | isLine
  · exact differs '@' _ (by decide) (by decide)
  · rw [List.mem_singleton.mp isLine]
    exact differs '*' _ (by decide) (by decide)

/-- A block has no control characters but its line feeds. -/
theorem single_of_mem {line : List Char} (cleanExe : exe.toStringLossy.any Text.isControl = false)
    (cleanConfig : ∀ text, writtenConfig config explicit = some text →
      text.any Text.isControl = false)
    (isLine : line ∈ blockLines exe config explicit) : '\n' ∉ line := by
  have quoted : ∀ text : List Char, text.any Text.isControl = false →
      (quoteText text).any Text.isControl = false := fun text clean =>
    (any_quoteText (by decide) (by decide) text).trans clean
  have cleanCommand : (blockCommand exe config explicit).any Text.isControl = false := by
    have flag : " --config ".toList.any Text.isControl = false := by decide
    have verb : " croncheck".toList.any Text.isControl = false := by decide
    rw [blockCommand]
    cases isConfig : writtenConfig config explicit with
    | none =>
        rw [Option.map_none, watchdogCommand, List.any_append, quoted _ cleanExe, verb]
        rfl
    | some text =>
        rw [Option.map_some, watchdogCommand, List.any_append, List.any_append, List.any_append,
          quoted _ cleanExe, quoted _ (cleanConfig text isConfig), flag, verb]
        rfl
  have notIn : ∀ start : List Char, start.any Text.isControl = false →
      '\n' ∉ start ++ blockCommand exe config explicit := by
    intro start clean isIn
    have control : (start ++ blockCommand exe config explicit).any Text.isControl = true :=
      List.any_eq_true.mpr ⟨'\n', isIn, by decide⟩
    rw [List.any_append, clean, cleanCommand] at control
    cases control
  rcases List.mem_cons.mp isLine with rfl | isLine
  · exact notIn _ (by decide)
  · rw [List.mem_singleton.mp isLine]
    exact notIn _ (by decide)

theorem cronCommand_of_mem {line : List Char} (isLine : line ∈ blockLines exe config explicit) :
    cronCommand line = some (blockCommand exe config explicit) := by
  rcases List.mem_cons.mp isLine with rfl | isLine
  · rw [cronCommand, Search.stripPrefix_append]
  · rw [List.mem_singleton.mp isLine]
    have isFields : Search.splitN Text.isWhitespace 6
        ("* * * * * ".toList ++ blockCommand exe config explicit) =
          [['*'], ['*'], ['*'], ['*'], ['*'], blockCommand exe config explicit] := rfl
    have notReboot : Search.stripPrefix "@reboot ".toList
        ("* * * * * ".toList ++ blockCommand exe config explicit) = none := rfl
    have isQuoted : (blockCommand exe config explicit).head? = some '\'' := by
      rw [blockCommand]
      cases (writtenConfig config explicit).map quoteText <;> rfl
    have solid : (blockCommand exe config explicit).dropWhile Text.isWhitespace =
        blockCommand exe config explicit := Search.dropWhile_eq_self_iff_head?.mpr (by
      rw [isQuoted]
      rintro _ ⟨⟩
      decide)
    simp only [cronCommand, notReboot, isFields]
    exact congrArg some solid

/-- What the parser reads of both commands of a block. -/
theorem parseCronCommandParts_of_mem {line : List Char}
    (isLine : line ∈ blockLines exe config explicit) :
    parseCronCommandParts line = parseCommand (blockCommand exe config explicit) := by
  rw [parseCronCommandParts, cronCommand_of_mem isLine, Option.bind_some]

/-- The parser reads the paths of the block back. -/
def Recognised (resolve : OsPath → OsPath) (exe config : OsPath) (explicit : Bool) : Prop :=
  ∃ parts, parseCommand (blockCommand exe config explicit) = some parts ∧
    pathsEquivalent resolve parts.1 exe = true ∧ matchesSelected parts.2 config explicit = true

/-- When a written block names its paths: they can be read back, and their texts name them. -/
theorem recognised_iff :
    Recognised resolve exe config explicit ↔
      ReadsBack exe.toStringLossy (writtenConfig config explicit) ∧
        pathsEquivalent resolve (.ofText exe.toStringLossy) exe = true ∧
          (explicit = true → config.IsText) := by
  have selected : matchesSelected ((writtenConfig config explicit).map OsPath.ofText) config
      explicit = true ↔ (explicit = true → config.IsText) := by
    cases explicit with
    | false => exact iff_of_true rfl fun same => nomatch same
    | true =>
        have isSame : matchesSelected ((writtenConfig config true).map OsPath.ofText) config true =
            (OsPath.ofText config.toStringLossy).samePath config := rfl
        rw [isSame, OsPath.samePath_toStringLossy_iff]
        exact ⟨fun isText _ => isText, fun isText => isText rfl⟩
  constructor
  · rintro ⟨parts, read, isExe, isConfig⟩
    rcases parseCommand_eq_some_iff.mp read with ⟨reads, rfl⟩
    exact ⟨reads, isExe, selected.mp isConfig⟩
  · rintro ⟨reads, isExe, isConfig⟩
    exact ⟨_, parseCommand_eq_some_iff.mpr ⟨reads, rfl⟩, isExe, selected.mpr isConfig⟩

theorem sameConfig_refl (config : Option OsPath) : sameConfig config config = true := by
  cases config with
  | none => rfl
  | some config => exact OsPath.samePath_refl config

/-- The removal takes a written block for the selected one where it is recognised. -/
theorem blockIsOwnedBy_blockLines :
    blockIsOwnedBy resolve exe config explicit (blockLines exe config explicit) = true ↔
      Recognised resolve exe config explicit := by
  have first : (blockLines exe config explicit).head?.bind parseCronCommandParts =
      parseCommand (blockCommand exe config explicit) :=
    parseCronCommandParts_of_mem List.mem_cons_self
  rw [blockIsOwnedBy, first, Recognised]
  cases read : parseCommand (blockCommand exe config explicit) with
  | none =>
      apply iff_of_false Bool.false_ne_true
      rintro ⟨_, ⟨⟩, _⟩
  | some parts =>
      simp only [Option.some_inj, exists_eq_left', Bool.and_eq_true, List.all_eq_true]
      constructor
      · rintro ⟨⟨isExe, -⟩, isConfig⟩
        exact ⟨isExe, isConfig⟩
      · rintro ⟨isExe, isConfig⟩
        refine ⟨⟨isExe, fun line isLine => ?_⟩, isConfig⟩
        rw [parseCronCommandParts_of_mem isLine, read]
        exact Bool.and_eq_true_iff.mpr ⟨isExe, sameConfig_refl _⟩

/-- The classifier takes a written block after other lines for the selected one where it is
recognised. -/
theorem cronBlockOwnershipForConfig_block {table : List Char} {lines : List (List Char)}
    (isTable : Lines.split table = lines ++ CRON_MANAGED_MARKER :: blockLines exe config explicit)
    (noMarker : ∀ line ∈ lines, isMarker line = false) :
    cronBlockOwnershipForConfig resolve table exe config explicit = .owned ↔
      Recognised resolve exe config explicit := by
  have noMarkerAfter : ∀ line ∈ blockLines exe config explicit, isMarker line = false :=
    fun line => isMarker_of_mem
  have reboot : (blockLines exe config explicit)[0]?.bind parseCronCommandParts =
      parseCommand (blockCommand exe config explicit) :=
    parseCronCommandParts_of_mem List.mem_cons_self
  have timed : (blockLines exe config explicit)[1]?.bind parseCronCommandParts =
      parseCommand (blockCommand exe config explicit) :=
    parseCronCommandParts_of_mem (List.mem_cons_of_mem _ List.mem_cons_self)
  rw [cronBlockOwnershipForConfig_eq_owned_iff, isTable, Recognised]
  simp only [isPair_iff noMarker isMarker_marker noMarkerAfter, reboot, timed]
  constructor
  · rintro ⟨left, right, ⟨read, -⟩, isExe, isConfig, -⟩
    exact ⟨left, read, isExe, isConfig⟩
  · rintro ⟨parts, read, isExe, isConfig⟩
    exact ⟨parts, parts, ⟨read, read, rfl, OsPath.samePath_refl _⟩, isExe, isConfig, isConfig⟩

/-- The watchdog of a table can be recognised, replaced and removed again: merged into the table it
is owned, merging it again changes nothing, and a removal gives the lines of the table back, up to
empty ones at the end. -/
structure WatchdogReturns (resolve : OsPath → OsPath) (exe config : OsPath) (explicit : Bool)
    (existing block : List Char) : Prop where
  owned : cronBlockOwnershipForConfig resolve
    (mergeCrontab resolve existing block exe config explicit) exe config explicit = .owned
  mergedAgain : mergeCrontab resolve (mergeCrontab resolve existing block exe config explicit)
    block exe config explicit = mergeCrontab resolve existing block exe config explicit
  removed : ∃ restored, cronUninstallChangedForConfig resolve
      (mergeCrontab resolve existing block exe config explicit) exe config explicit =
        some restored ∧
    contentLines restored = contentLines existing

section Merged

variable {existing : List Char}

/-- A table with the block after its lines. -/
def withBlock (existing : List Char) (exe config : OsPath) (explicit : Bool) : List Char :=
  Lines.join (contentLines existing ++ CRON_MANAGED_MARKER :: blockLines exe config explicit)

theorem contentLines_subset : contentLines existing ⊆ Lines.split existing :=
  (List.rdropWhile_prefix _ _).subset

theorem mem_contentLines {line : List Char} (isLine : line ∈ Lines.split existing) :
    line ∈ contentLines existing ∨ line = [] := by
  have parts : (Lines.split existing).rdropWhile List.isEmpty ++
      (Lines.split existing).rtakeWhile List.isEmpty = Lines.split existing :=
    List.rdropWhile_append_rtakeWhile
  rw [← parts] at isLine
  rcases List.mem_append.mp isLine with isContent | isBlank
  · exact .inl isContent
  · exact .inr (List.isEmpty_iff.mp (List.mem_rtakeWhile_imp isBlank))

theorem single_contentLines {line : List Char} (isLine : line ∈ contentLines existing) :
    '\n' ∉ line :=
  Lines.single_of_mem_split (contentLines_subset isLine)

theorem split_withBlock (cleanExe : exe.toStringLossy.any Text.isControl = false)
    (cleanConfig : ∀ text, writtenConfig config explicit = some text →
      text.any Text.isControl = false) :
    Lines.split (withBlock existing exe config explicit) =
      (contentLines existing).map Lines.stripReturn ++
        CRON_MANAGED_MARKER :: blockLines exe config explicit := by
  have single : ∀ line ∈ contentLines existing ++
      CRON_MANAGED_MARKER :: blockLines exe config explicit, '\n' ∉ line := by
    rw [List.forall_mem_append, List.forall_mem_cons]
    exact ⟨fun line => single_contentLines, by decide,
      fun line => single_of_mem cleanExe cleanConfig⟩
  have isBlock : (blockLines exe config explicit).map Lines.stripReturn =
      blockLines exe config explicit :=
    (List.map_inj_left.mpr fun line isLine => stripReturn_of_mem isLine).trans (List.map_id _)
  have parts := Lines.split_join single []
  rw [List.append_nil, List.map_append, List.map_cons, isBlock] at parts
  exact parts.trans (List.append_nil _)

variable (noBlock : ∀ line ∈ Lines.split existing, isMarker line = false)
include noBlock

theorem mergeCrontab_withBlock :
    mergeCrontab resolve existing
      (Lines.join (CRON_MANAGED_MARKER :: blockLines exe config explicit)) exe config explicit =
        withBlock existing exe config explicit := by
  have isKept := @keepUnowned_eq_self _ (blockIsOwnedBy resolve exe config explicit) noBlock
  rw [mergeCrontab_join (List.cons_ne_nil _ _), isKept]
  · rfl
  · rw [isKept]
    exact fun line => Lines.single_of_mem_split

theorem isMarker_map_stripReturn :
    ∀ line ∈ (contentLines existing).map Lines.stripReturn, isMarker line = false := by
  rw [List.forall_mem_map]
  intro line isLine
  rw [isMarker_stripReturn, noBlock line (contentLines_subset isLine)]

/-- The removal of a recognised block keeps the lines in front of it. -/
theorem keepUnowned_withBlock (recognised : Recognised resolve exe config explicit) :
    keepUnowned (blockIsOwnedBy resolve exe config explicit)
      ((contentLines existing).map Lines.stripReturn ++
        CRON_MANAGED_MARKER :: blockLines exe config explicit) =
      (contentLines existing).map Lines.stripReturn :=
  keepUnowned_block (isMarker_map_stripReturn noBlock) isMarker_marker
    (fun _ => isCroncheck_of_mem) (blockIsOwnedBy_blockLines.mpr recognised)

end Merged

/-- When a watchdog can be recognised, replaced and removed again: its paths can be read back, their
texts name them, and no line of the table ends with a carriage return. -/
theorem watchdogReturns_iff {existing block : List Char}
    (accepted : cronBlock exe config explicit = .ok block)
    (noBlock : ∀ line ∈ Lines.split existing, isMarker line = false) :
    WatchdogReturns resolve exe config explicit existing block ↔
      (ReadsBack exe.toStringLossy (writtenConfig config explicit) ∧
        pathsEquivalent resolve (.ofText exe.toStringLossy) exe = true ∧
          (explicit = true → config.IsText)) ∧
        ∀ line ∈ Lines.split existing, line.getLast? ≠ some '\r' := by
  rcases cronBlock_eq_ok accepted with ⟨rfl, cleanExe, cleanConfig⟩
  have isMerged := @mergeCrontab_withBlock exe config explicit resolve existing noBlock
  have isSplit := @split_withBlock exe config explicit existing cleanExe cleanConfig
  have isOwned := @cronBlockOwnershipForConfig_block exe config explicit resolve _ _ isSplit
    (isMarker_map_stripReturn noBlock)
  have ended : (withBlock existing exe config explicit).getLast? = some '\n' :=
    getLast?_join (List.append_ne_nil_of_right_ne_nil _ (List.cons_ne_nil _ _))
  have singleKept : ∀ line ∈ (contentLines existing).map Lines.stripReturn, '\n' ∉ line := by
    rw [List.forall_mem_map]
    exact fun line isLine isFeed =>
      single_contentLines isLine (Lines.stripReturn_subset line isFeed)
  have ends : (contentLines existing).rdropWhile List.isEmpty = contentLines existing :=
    List.rdropWhile_idempotent _ _
  have isTight : (∀ line ∈ contentLines existing, Lines.stripReturn line = line) ↔
      ∀ line ∈ Lines.split existing, line.getLast? ≠ some '\r' := by
    constructor
    · intro tight line isLine
      rcases mem_contentLines isLine with isContent | rfl
      · exact stripReturn_eq_self_iff.mp (tight line isContent)
      · exact fun isReturn => nomatch isReturn
    · exact fun tight line isLine =>
        stripReturn_eq_self_iff.mpr (tight line (contentLines_subset isLine))
  have isRemoved : Recognised resolve exe config explicit →
      removeManagedCronBlockForConfig resolve (withBlock existing exe config explicit) exe config
        explicit = rejoin (withBlock existing exe config explicit)
          ((contentLines existing).map Lines.stripReturn) := fun recognised => by
    rw [removeManagedCronBlockForConfig, isSplit, keepUnowned_withBlock noBlock recognised]
  have isRestored := contentLines_rejoin ended singleKept
  rw [List.map_map] at isRestored
  rw [← recognised_iff, ← isTight]
  constructor
  · rintro ⟨owned, -, restored, removed, same⟩
    rw [isMerged] at owned removed
    have recognised := isOwned.mp owned
    simp only [cronUninstallChangedForConfig, isRemoved recognised] at removed
    split at removed
    · cases removed
      exact ⟨recognised, (rdropWhile_map_stripReturn_iff ends).mp (isRestored.symm.trans same)⟩
    · cases removed
  · rintro ⟨recognised, tight⟩
    have isKept := keepUnowned_withBlock noBlock recognised
    have sameLines : (contentLines existing).map Lines.stripReturn = contentLines existing :=
      (List.map_inj_left.mpr tight).trans (List.map_id _)
    refine ⟨?_, ?_, ?_⟩
    · rw [isMerged]
      exact isOwned.mpr recognised
    · rw [isMerged, mergeCrontab_join (List.cons_ne_nil _ _), isSplit, isKept, sameLines, ends]
      · rfl
      · rw [isSplit, isKept]
        exact singleKept
    · have content := isRestored.trans ((rdropWhile_map_stripReturn_iff ends).mpr tight)
      refine ⟨_, ?_, content⟩
      rw [isMerged, cronUninstallChangedForConfig]
      simp only [isRemoved recognised]
      rw [if_pos]
      intro same
      -- The marker of the block is not among the lines that are left.
      have isMarkerLine :
          CRON_MANAGED_MARKER ∈ Lines.split (withBlock existing exe config explicit) := by
        rw [isSplit]
        exact List.mem_append_right _ List.mem_cons_self
      rcases mem_contentLines isMarkerLine with isLeft | isEmpty
      · rw [← same, content] at isLeft
        have notMarker := noBlock _ (contentLines_subset isLeft)
        exact Bool.noConfusion (notMarker.symm.trans isMarker_marker)
      · exact absurd isEmpty (by decide)

theorem watchdogReturns_system :
    ∃ block, cronBlock (.ofText "/usr/bin/greggd".toList) (.ofText "/etc/greggd.toml".toList) true =
        .ok block ∧
      WatchdogReturns id (.ofText "/usr/bin/greggd".toList) (.ofText "/etc/greggd.toml".toList) true
        "0 5 * * * backup\n".toList block := by
  refine ⟨_, rfl, (watchdogReturns_iff rfl (by decide)).mpr ⟨⟨⟨by decide, ?_⟩, ?_, ?_⟩, by decide⟩⟩
  · rintro _ ⟨⟩
    decide
  · exact beq_self_eq_true _
  · exact fun _ => OsPath.isText_ofText _

/-- A quote in the path of the executable: the block that is written is not owned. -/
theorem not_watchdogReturns_quote :
    ∃ block, cronBlock (.ofText "/home/o'neil/greggd".toList) (.ofText "/etc/greggd.toml".toList)
        false = .ok block ∧
      (∀ line ∈ Lines.split [], isMarker line = false) ∧
      ¬WatchdogReturns id (.ofText "/home/o'neil/greggd".toList)
        (.ofText "/etc/greggd.toml".toList) false [] block := by
  have accepted : cronBlock (.ofText "/home/o'neil/greggd".toList)
      (.ofText "/etc/greggd.toml".toList) false = .ok (Lines.join (CRON_MANAGED_MARKER ::
        blockLines (.ofText "/home/o'neil/greggd".toList) (.ofText "/etc/greggd.toml".toList)
          false)) := rfl
  have noBlock : ∀ line ∈ Lines.split [], isMarker line = false := by decide
  refine ⟨_, accepted, noBlock, fun returns => ?_⟩
  have owned := returns.owned
  rw [mergeCrontab_withBlock noBlock] at owned
  have recognised := (cronBlockOwnershipForConfig_block (split_withBlock (by decide)
    (by rintro _ ⟨⟩)) (isMarker_map_stripReturn noBlock)).mp owned
  exact (recognised_iff.mp recognised).1.1.2 (by decide)

end Block

end Gregg
