import Mathlib.Data.Bool.AllAny
import Gregg.Startup.ServiceFiles

/-!
# The config a service file names

What each reader gets back from the text its writer made of a config path, and the paths that come
back as they were. The systemd reader splits at white space and trims quotes, semicolons and
braces without undoing an escape; the launchd reader does not undo the XML escapes.
-/

namespace Gregg

open Search (trimMatches)

theorem configAfterFlag_cons {Argument : Type} {isFlag : Argument → Bool} (first : Argument)
    (rest : List Argument) : configAfterFlag isFlag (first :: rest) =
      if isFlag first then rest.head? else configAfterFlag isFlag rest := by
  cases rest with
  | nil => simp [configAfterFlag]
  | cons second rest =>
      cases matched : isFlag first <;> simp [configAfterFlag, matched]

section Systemd

variable {path : OsPath}

theorem systemdUnitContent_eq (path : OsPath) : systemdUnitContent path =
    Lines.join SYSTEMD_UNIT_HEAD ++
      ("ExecStart=".toList ++ unitCommand (systemdQuotePath path) ++
        '\n' :: Lines.join SYSTEMD_UNIT_TAIL) := by
  rw [systemdUnitContent, SYSTEMD_UNIT_TEMPLATE, Lines.join_append, Lines.join_cons]
  exact Search.replace_of_avoids (by decide +kernel) (by decide +kernel) (by decide +kernel) _

/-- The reader takes the first word of the quoted path for the config. -/
theorem parseCommandTarget_unitCommand (quoted : List Char) :
    parseCommandTarget (unitCommand quoted) = some (.ofText STANDARD_BINARY,
      ((((Text.splitWhitespace quoted).map trimToken).head?).filter (!·.isEmpty)).map .ofText) := by
  have words : Text.splitWhitespace (unitCommand quoted) =
      STANDARD_BINARY :: "run".toList :: "--config".toList :: Text.splitWhitespace quoted := by
    have first : Text.splitWhitespace STANDARD_BINARY = [STANDARD_BINARY] := by decide
    have second : Text.splitWhitespace "run".toList = ["run".toList] := by decide
    have third : Text.splitWhitespace "--config".toList = ["--config".toList] := by decide
    rw [unitCommand, Text.splitWhitespace_append (by decide),
      Text.splitWhitespace_append (by decide), Text.splitWhitespace_append (by decide), first,
      second, third]
    rfl
  have command : ((Search.stripPrefix "\x7b path=".toList (unitCommand quoted)).or
      (Search.stripPrefix "\x7bpath=".toList (unitCommand quoted))).getD (unitCommand quoted) =
      unitCommand quoted := rfl
  have first : ((unitCommand quoted).splitOnP fun character =>
      Text.isWhitespace character || character == ';' || character == '}').head? =
      some STANDARD_BINARY := by
    have binary : (STANDARD_BINARY.splitOnP fun character =>
        Text.isWhitespace character || character == ';' || character == '}') =
        [STANDARD_BINARY] := by decide
    rw [unitCommand, List.splitOnP_append_cons _ _ (by decide), binary]
    rfl
  have target : trimMatches (· == '"') ((Search.stripPrefix ['-']
      (trimMatches (· == '"') STANDARD_BINARY)).getD STANDARD_BINARY) = STANDARD_BINARY := by
    decide
  have usable : (STANDARD_BINARY.isEmpty || STANDARD_BINARY.contains '=' ||
      STANDARD_BINARY.head? != some '/') = false := by decide
  have tokens : configAfterFlag (· == "--config".toList)
      ((STANDARD_BINARY :: "run".toList :: "--config".toList ::
        Text.splitWhitespace quoted).map trimToken) =
      ((Text.splitWhitespace quoted).map trimToken).head? := by
    have notBinary : (trimToken STANDARD_BINARY == "--config".toList) = false := by decide
    have notRun : (trimToken "run".toList == "--config".toList) = false := by decide
    have isFlag : (trimToken "--config".toList == "--config".toList) = true := by decide
    simp only [List.map_cons, configAfterFlag_cons, notBinary, notRun, isFlag,
      Bool.false_eq_true, if_false, if_true]
  rw [parseCommandTarget, command, first, words]
  simp only [Option.bind_some, List.head?_cons, target, usable, Bool.false_eq_true, if_false,
    tokens]

theorem unitCommand_eq (quoted : List Char) :
    unitCommand quoted = unitCommand [] ++ quoted := by
  rw [unitCommand, unitCommand, List.append_assoc, List.cons_append, List.append_assoc,
    List.cons_append, List.append_assoc, List.cons_append, List.nil_append]

theorem Text.trim_eq_self {text : List Char} {first last : Char}
    (isFirst : text.head? = some first) (isLast : text.getLast? = some last)
    (solidFirst : Text.isWhitespace first = false)
    (solidLast : Text.isWhitespace last = false) : Text.trim text = text := by
  refine Search.trimMatches_eq_self_iff.mpr ⟨?_, ?_⟩
  · simpa [isFirst] using solidFirst
  · simpa [isLast] using solidLast

/-- The reader finds the command of the unit. -/
theorem parseExecStartTarget_systemdUnitContent {last : Char}
    (singleLine : '\n' ∉ systemdQuotePath path)
    (isLast : (systemdQuotePath path).getLast? = some last)
    (solid : Text.isWhitespace last = false) :
    parseExecStartTarget (systemdUnitContent path) =
      parseCommandTarget (unitCommand (systemdQuotePath path)) := by
  have headSingle : ∀ line ∈ SYSTEMD_UNIT_HEAD, '\n' ∉ line := by decide +kernel
  have lineSingle : '\n' ∉ "ExecStart=".toList ++ unitCommand (systemdQuotePath path) := by
    have fixed : '\n' ∉ unitCommand [] := by decide +kernel
    intro isIn
    rcases List.mem_append.mp isIn with isLabel | isCommand
    · revert isLabel
      decide
    · rw [unitCommand_eq] at isCommand
      exact (List.mem_append.mp isCommand).elim fixed singleLine
  have headNone : (SYSTEMD_UNIT_HEAD.map Lines.stripReturn).findSome? (fun line =>
      Search.stripPrefix "ExecStart=".toList (Text.trim line)) = none := by decide +kernel
  have commandLast : (unitCommand (systemdQuotePath path)).getLast? = some last := by
    simp [unitCommand, List.getLast?_append, List.getLast?_cons, isLast]
  have lineLast : ("ExecStart=".toList ++ unitCommand (systemdQuotePath path)).getLast? =
      some last := by
    rw [List.getLast?_append, commandLast]
    rfl
  have noReturn : Lines.stripReturn ("ExecStart=".toList ++
      unitCommand (systemdQuotePath path)) = "ExecStart=".toList ++
        unitCommand (systemdQuotePath path) := by
    rw [Lines.stripReturn, if_neg]
    rintro isReturn
    rw [lineLast, Option.some_inj] at isReturn
    subst isReturn
    cases solid
  have lineTrim : Text.trim ("ExecStart=".toList ++ unitCommand (systemdQuotePath path)) =
      "ExecStart=".toList ++ unitCommand (systemdQuotePath path) :=
    Text.trim_eq_self rfl lineLast (by decide) solid
  have commandTrim : Text.trim (unitCommand (systemdQuotePath path)) =
      unitCommand (systemdQuotePath path) :=
    Text.trim_eq_self rfl commandLast (by decide) solid
  rw [parseExecStartTarget, systemdUnitContent_eq, Lines.split_join headSingle,
    Lines.split_line lineSingle, List.findSome?_append, headNone, Option.none_or,
    List.findSome?_cons, noReturn, lineTrim, Search.stripPrefix_append]
  simp only [Option.some_or, Option.bind_some, commandTrim]

/-- What the systemd reader gets back as it was. -/
structure UnitSafe (text : List Char) : Prop where
  nonempty : text ≠ []
  solid : ∀ character ∈ text, Text.isWhitespace character = false
  unescaped : '"' ∉ text ∧ '\\' ∉ text
  first : ∀ character ∈ text.head?, character ≠ ';' ∧ character ≠ '}'
  last : ∀ character ∈ text.getLast?, character ≠ ';' ∧ character ≠ '}'

def systemdEscape (text : List Char) : List Char :=
  text.flatMap fun character =>
    if character = '"' then ['\\', '"'] else if character = '\\' then ['\\', '\\']
    else [character]

/-- Backslashes are escaped before quotes, so that no escape is escaped again. -/
theorem replace_replace_eq_systemdEscape (text : List Char) :
    Search.replace ['"'] ['\\', '"'] (Search.replace ['\\'] ['\\', '\\'] text) =
      systemdEscape text := by
  rw [Search.replace_singleton, Search.replace_singleton, List.flatMap_assoc]
  rw [systemdEscape]
  congr 1
  funext character
  by_cases quote : character = '"'
  · simp [quote]
  · by_cases backslash : character = '\\'
    · simp [backslash]
    · simp [quote, backslash]

/-- A path is written bare or escaped in quotes. -/
theorem systemdQuotePath_cases (path : OsPath) :
    (systemdQuotePath path = path.toStringLossy ∧ path.toStringLossy ≠ [] ∧
      (∀ character ∈ path.toStringLossy, Text.isWhitespace character = false) ∧
        '"' ∉ path.toStringLossy ∧ '\\' ∉ path.toStringLossy) ∨
      systemdQuotePath path = '"' :: systemdEscape path.toStringLossy ++ ['"'] := by
  rw [systemdQuotePath]
  generalize path.toStringLossy = text
  split
  · right
    rw [replace_replace_eq_systemdEscape]
  · rename_i bare
    simp only [Bool.or_eq_true, List.any_eq_true, not_or, not_exists, not_and, List.isEmpty_iff,
      Bool.not_eq_true] at bare
    refine .inl ⟨rfl, bare.1, fun character isIn => (bare.2 character isIn).1, ?_, ?_⟩
    · intro isIn
      have := (bare.2 _ isIn).2
      simp at this
    · intro isIn
      have := (bare.2 _ isIn).2
      simp at this

theorem systemdEscape_eq_self {text : List Char} (noQuote : '"' ∉ text)
    (noBackslash : '\\' ∉ text) : systemdEscape text = text := by
  induction text with
  | nil => rfl
  | cons character text ih =>
      rw [List.mem_cons, not_or] at noQuote noBackslash
      rw [systemdEscape, List.flatMap_cons, if_neg (Ne.symm noQuote.1),
        if_neg (Ne.symm noBackslash.1), ← systemdEscape, ih noQuote.2 noBackslash.2]
      rfl

/-- Every quote and every backslash of the text gets one more backslash. -/
theorem count_systemdEscape (text : List Char) : (systemdEscape text).count '\\' =
    2 * text.count '\\' + text.count '"' := by
  induction text with
  | nil => rfl
  | cons character text ih =>
      rw [systemdEscape, List.flatMap_cons, List.count_append, ← systemdEscape, ih]
      by_cases quote : character = '"'
      · subst quote
        simp
        omega
      · by_cases backslash : character = '\\'
        · subst backslash
          simp
          omega
        · simp [quote, backslash]

theorem trimMatches_of_not_mem {text : List Char} {trimmed : Char} (notMem : trimmed ∉ text) :
    trimMatches (· == trimmed) text = text := by
  refine Search.trimMatches_eq_self_iff.mpr ⟨?_, ?_⟩
  · rintro character isFirst
    exact beq_eq_false_iff_ne.mpr fun same => notMem (same ▸ List.mem_of_head? isFirst)
  · rintro character isLast
    exact beq_eq_false_iff_ne.mpr fun same => notMem (same ▸ List.mem_of_getLast? isLast)

/-- Semicolons and braces are trimmed from a text that has them at an end. -/
theorem trimEnds_eq_self_iff {text : List Char} :
    trimMatches (· == '}') (trimMatches (· == ';') text) = text ↔
      (∀ character ∈ text.head?, character ≠ ';' ∧ character ≠ '}') ∧
        ∀ character ∈ text.getLast?, character ≠ ';' ∧ character ≠ '}' := by
  rw [Search.trimMatches_trimMatches_eq_self_iff, Search.trimMatches_eq_self_iff,
    Search.trimMatches_eq_self_iff]
  simp only [beq_eq_false_iff_ne, ne_eq]
  grind

/-- The reader gets a text without quotes back up to its ends, quoted or not. -/
theorem trimToken_of_not_mem {text : List Char} (noQuote : '"' ∉ text) (nonempty : text ≠ []) :
    trimToken text = trimMatches (· == '}') (trimMatches (· == ';') text) ∧
      trimToken ('"' :: text ++ ['"']) =
        trimMatches (· == '}') (trimMatches (· == ';') text) := by
  have bare := trimMatches_of_not_mem noQuote
  have quoted : trimMatches (· == '"') ('"' :: text ++ ['"']) = text :=
    Search.trimMatches_surround rfl nonempty bare
  exact ⟨by rw [trimToken, bare], by rw [trimToken, quoted]⟩

theorem count_trimToken (token : List Char) :
    (trimToken token).count '\\' = token.count '\\' := by
  rw [trimToken, Search.count_trimMatches (by decide), Search.count_trimMatches (by decide),
    Search.count_trimMatches (by decide)]

theorem mem_systemdEscape {text : List Char} {character : Char}
    (isIn : character ∈ systemdEscape text) : character ∈ text ∨ character = '\\' := by
  rcases List.mem_flatMap.mp isIn with ⟨source, isSource, isWritten⟩
  split at isWritten
  · rename_i quote
    subst quote
    simp only [List.mem_cons, List.not_mem_nil, or_false] at isWritten
    rcases isWritten with rfl | rfl
    · exact .inr rfl
    · exact .inl isSource
  · split at isWritten
    · simp only [List.mem_cons, List.not_mem_nil, or_false, or_self] at isWritten
      exact .inr isWritten
    · rw [List.mem_singleton] at isWritten
      exact .inl (isWritten ▸ isSource)

theorem isInfix_trimToken (token : List Char) : trimToken token <:+: token :=
  ((Search.isInfix_trimMatches _ _).trans (Search.isInfix_trimMatches _ _)).trans
    (Search.isInfix_trimMatches _ _)

theorem splitWhitespace_quoted {text : List Char}
    (solid : ∀ character ∈ text, Text.isWhitespace character = false) :
    Text.splitWhitespace ('"' :: text ++ ['"']) = ['"' :: text ++ ['"']] := by
  apply Text.splitWhitespace_of_solid
  · exact List.cons_ne_nil _ _
  · intro character isIn
    simp only [List.cons_append, List.mem_cons, List.mem_append, List.not_mem_nil,
      or_false] at isIn
    rcases isIn with rfl | isIn | rfl
    · rfl
    · exact solid character isIn
    · rfl

/-- The token the reader takes for the config is the path exactly when the path is safe. -/
theorem head?_tokens_iff (path : OsPath) :
    ((Text.splitWhitespace (systemdQuotePath path)).map trimToken).head?.filter (!·.isEmpty) =
      some path.toStringLossy ↔ UnitSafe path.toStringLossy := by
  have cases := systemdQuotePath_cases path
  generalize path.toStringLossy = text at *
  generalize systemdQuotePath path = quoted at *
  constructor
  · intro isRead
    rw [Option.filter_eq_some_iff, List.head?_map, Option.map_eq_some_iff] at isRead
    rcases isRead with ⟨⟨word, isWord, isText⟩, nonempty⟩
    have nonempty : text ≠ [] := by simpa using nonempty
    have solid : ∀ character ∈ text, Text.isWhitespace character = false := by
      intro character isIn
      rw [← isText] at isIn
      exact Text.solid_of_mem_splitWhitespace (List.mem_of_head? isWord) character
        ((isInfix_trimToken word).subset isIn)
    rcases cases with ⟨rfl, -, -, noQuote, noBackslash⟩ | rfl
    · rw [Text.splitWhitespace_of_solid nonempty solid, List.head?_cons, Option.some_inj]
        at isWord
      rw [← isWord, (trimToken_of_not_mem noQuote nonempty).1] at isText
      have ends := trimEnds_eq_self_iff.mp isText
      exact ⟨nonempty, solid, ⟨noQuote, noBackslash⟩, ends.1, ends.2⟩
    · have solidEscape : ∀ character ∈ systemdEscape text,
          Text.isWhitespace character = false := by
        intro character isIn
        rcases mem_systemdEscape isIn with isIn | rfl
        · exact solid character isIn
        · rfl
      rw [splitWhitespace_quoted solidEscape, List.head?_cons, Option.some_inj] at isWord
      -- Escaping adds backslashes, and trimming takes none away.
      have counts := count_trimToken word
      rw [isText, ← isWord, List.count_append, List.count_cons_of_ne (by decide),
        count_systemdEscape] at counts
      have noQuote : '"' ∉ text := List.count_eq_zero.mp (by omega)
      have noBackslash : '\\' ∉ text := List.count_eq_zero.mp (by omega)
      rw [← isWord, systemdEscape_eq_self noQuote noBackslash,
        (trimToken_of_not_mem noQuote nonempty).2] at isText
      have ends := trimEnds_eq_self_iff.mp isText
      exact ⟨nonempty, solid, ⟨noQuote, noBackslash⟩, ends.1, ends.2⟩
  · intro safe
    have read := trimToken_of_not_mem safe.unescaped.1 safe.nonempty
    rw [trimEnds_eq_self_iff.mpr ⟨safe.first, safe.last⟩] at read
    have isOneWord : Text.splitWhitespace quoted = [quoted] ∧ trimToken quoted = text := by
      rcases cases with ⟨rfl, -, -, -, -⟩ | rfl
      · exact ⟨Text.splitWhitespace_of_solid safe.nonempty safe.solid, read.1⟩
      · rw [systemdEscape_eq_self safe.unescaped.1 safe.unescaped.2]
        exact ⟨splitWhitespace_quoted safe.solid, read.2⟩
    rw [isOneWord.1, List.map_singleton, isOneWord.2]
    simp [safe.nonempty]

theorem systemdQuotePath_last (path : OsPath) :
    ∃ last, (systemdQuotePath path).getLast? = some last ∧ Text.isWhitespace last = false := by
  rcases systemdQuotePath_cases path with ⟨bare, nonempty, solid, -⟩ | quoted
  · rw [bare]
    exact ⟨_, List.getLast?_eq_some_getLast nonempty, solid _ (List.getLast_mem nonempty)⟩
  · rw [quoted, List.getLast?_append]
    exact ⟨'"', rfl, rfl⟩

theorem newline_not_mem_systemdQuotePath
    (noControl : ∀ character ∈ path.toStringLossy, Text.isControl character = false) :
    '\n' ∉ systemdQuotePath path := by
  have notInText : '\n' ∉ path.toStringLossy := fun isIn => nomatch noControl _ isIn
  rcases systemdQuotePath_cases path with ⟨bare, -⟩ | quoted
  · rwa [bare]
  · intro isIn
    rw [quoted] at isIn
    simp only [List.cons_append, List.mem_cons, List.mem_append, List.not_mem_nil,
      or_false] at isIn
    rcases isIn with isQuote | isIn | isQuote
    · cases isQuote
    · rcases mem_systemdEscape isIn with isIn | isBackslash
      · exact notInText isIn
      · cases isBackslash
    · cases isQuote

theorem map_ofText_eq_some_iff {text : Option (List Char)} :
    text.map OsPath.ofText = some path ↔ path.IsText ∧ text = some path.toStringLossy := by
  rw [Option.map_eq_some_iff]
  constructor
  · rintro ⟨text, rfl, same⟩
    rw [OsPath.ofText_eq_iff] at same
    exact ⟨same.1, congrArg some same.2⟩
  · rintro ⟨isText, rfl⟩
    exact ⟨_, rfl, isText⟩

/-- The unit names the config it was written for exactly when the path is safe. -/
theorem systemd_names_config_iff
    (noControl : ∀ character ∈ path.toStringLossy, Text.isControl character = false) :
    parseExecStartTarget (systemdUnitContent path) =
        some (.ofText STANDARD_BINARY, some path) ↔
      path.IsText ∧ UnitSafe path.toStringLossy := by
  rcases systemdQuotePath_last path with ⟨last, isLast, solid⟩
  rw [parseExecStartTarget_systemdUnitContent (newline_not_mem_systemdQuotePath noControl) isLast
    solid, parseCommandTarget_unitCommand, Option.some_inj, Prod.mk.injEq, map_ofText_eq_some_iff,
    head?_tokens_iff]
  exact and_iff_right rfl

end Systemd

section Launchd

variable {path : OsPath}

theorem xmlEscapeChar_cases (character : Char) :
    (character ∉ ['&', '<', '>', '"', '\''] ∧ xmlEscapeChar character = [character]) ∨
      (character ∈ ['&', '<', '>', '"', '\''] ∧ 4 ≤ (xmlEscapeChar character).length ∧
        '<' ∉ xmlEscapeChar character) := by
  rw [xmlEscapeChar]
  split
  · subst character
    exact .inr (by decide)
  · split
    · subst character
      exact .inr (by decide)
    · split
      · subst character
        exact .inr (by decide)
      · split
        · subst character
          exact .inr (by decide)
        · split
          · subst character
            exact .inr (by decide)
          · rename_i ampersand less greater quote apostrophe
            simp [ampersand, less, greater, quote, apostrophe]

/-- An escaped text opens no element. -/
theorem lt_not_mem_xmlEscape (text : List Char) : '<' ∉ xmlEscape text := by
  intro isIn
  rcases List.mem_flatMap.mp isIn with ⟨character, -, isWritten⟩
  rcases xmlEscapeChar_cases character with ⟨plain, unchanged⟩ | ⟨-, -, closed⟩
  · rw [unchanged, List.mem_singleton] at isWritten
    subst isWritten
    simp at plain
  · exact closed isWritten

theorem length_le_length_xmlEscape (text : List Char) :
    text.length ≤ (xmlEscape text).length := by
  induction text with
  | nil => exact Nat.le_refl _
  | cons character text ih =>
      rw [xmlEscape, List.flatMap_cons, ← xmlEscape, List.length_append, List.length_cons]
      rcases xmlEscapeChar_cases character with ⟨-, unchanged⟩ | ⟨-, longer, -⟩
      · rw [unchanged, List.length_singleton]
        omega
      · omega

/-- Escaping a text changes it exactly when it has a character to escape. -/
theorem xmlEscape_eq_self_iff (text : List Char) :
    xmlEscape text = text ↔ ∀ character ∈ text, character ∉ ['&', '<', '>', '"', '\''] := by
  induction text with
  | nil => simp [xmlEscape]
  | cons character text ih =>
      rw [xmlEscape, List.flatMap_cons, ← xmlEscape, List.forall_mem_cons, ← ih]
      rcases xmlEscapeChar_cases character with ⟨plain, unchanged⟩ | ⟨special, longer, -⟩
      · rw [unchanged, List.singleton_append, List.cons.injEq]
        simp only [plain, not_false_eq_true, true_and]
      · refine iff_of_false (fun same => ?_) (fun plain => plain.1 special)
        have lengths := congrArg List.length same
        have rest := length_le_length_xmlEscape text
        rw [List.length_append, List.length_cons] at lengths
        omega

/-- The program arguments from the key to the config. -/
def argumentsBefore : List Char :=
  '\n' :: (Lines.join LAUNCHD_PLIST_ARGUMENTS.tail ++ "        <string>".toList)

theorem LAUNCHD_PLIST_ARGUMENTS_eq : LAUNCHD_PLIST_ARGUMENTS =
    ("    ".toList ++ "<key>ProgramArguments</key>".toList) :: LAUNCHD_PLIST_ARGUMENTS.tail := by
  decide +kernel

theorem LAUNCHD_PLIST_ARRAY_END_eq : "</string>".toList ++ '\n' :: LAUNCHD_PLIST_ARRAY_END =
    "</string>\n    ".toList ++ "</array>".toList := by
  decide +kernel

/-- The config line of the plist occurs in it once. -/
theorem launchdPlistContent_eq (path : OsPath) : launchdPlistContent path =
    Lines.join (LAUNCHD_PLIST_HEAD ++ LAUNCHD_PLIST_ARGUMENTS) ++
      (configArgumentLine (xmlEscape path.toStringLossy) ++
        '\n' :: Lines.join (LAUNCHD_PLIST_ARRAY_END :: LAUNCHD_PLIST_TAIL)) := by
  rw [launchdPlistContent, LAUNCHD_PLIST_TEMPLATE, Lines.join_append, Lines.join_cons]
  exact Search.replace_of_avoids (by decide +kernel) (by decide +kernel) (by decide +kernel) _

/-- The parts of the plist around its key, its config and the end of its list. -/
theorem append_parts {head arguments tag escaped close arrayEnd tail spaces key before
      closing array : List Char}
    (atKey : arguments ++ tag = spaces ++ (key ++ before))
    (atEnd : close ++ '\n' :: arrayEnd = closing ++ array) :
    (head ++ arguments) ++ ((tag ++ (escaped ++ close)) ++ '\n' :: (arrayEnd ++ '\n' :: tail)) =
      (head ++ spaces) ++
        (key ++ (before ++ (escaped ++ (closing ++ (array ++ '\n' :: tail))))) := by
  calc (head ++ arguments) ++ ((tag ++ (escaped ++ close)) ++ '\n' :: (arrayEnd ++ '\n' :: tail))
      = head ++ ((arguments ++ tag) ++ (escaped ++ ((close ++ '\n' :: arrayEnd) ++
          '\n' :: tail))) := by simp
    _ = _ := by
        rw [atKey, atEnd]
        simp

theorem launchdPlistContent_parts (path : OsPath) : launchdPlistContent path =
    (Lines.join LAUNCHD_PLIST_HEAD ++ "    ".toList) ++
      ("<key>ProgramArguments</key>".toList ++ (argumentsBefore ++
        (xmlEscape path.toStringLossy ++ ("</string>\n    ".toList ++
          ("</array>".toList ++ '\n' :: Lines.join LAUNCHD_PLIST_TAIL))))) := by
  have atKey : Lines.join LAUNCHD_PLIST_ARGUMENTS ++ "        <string>".toList =
      "    ".toList ++ ("<key>ProgramArguments</key>".toList ++ argumentsBefore) := by
    rw [LAUNCHD_PLIST_ARGUMENTS_eq, Lines.join_cons, argumentsBefore, List.append_assoc,
      List.cons_append, List.append_assoc]
  rw [launchdPlistContent_eq, Lines.join_append, Lines.join_cons]
  exact append_parts atKey LAUNCHD_PLIST_ARRAY_END_eq

/-- The strings of the list, of which the last is the config. -/
theorem argumentStrings {escaped : List Char} (noElement : '<' ∉ escaped) :
    ((Search.split "<string>".toList
      (argumentsBefore ++ (escaped ++ "</string>\n    ".toList))).drop 1).filterMap (fun part =>
        (Search.splitOnce "</string>".toList part).map Prod.fst) =
      [STANDARD_BINARY, "run".toList, "--config".toList, escaped] := by
  have nonempty : "<string>".toList ≠ [] := by decide
  have parts : argumentsBefore = "\n    <array>\n        ".toList ++ ("<string>".toList ++
      (STANDARD_BINARY ++ "</string>\n        ".toList ++ ("<string>".toList ++
        ("run</string>\n        ".toList ++ ("<string>".toList ++
          ("--config</string>\n        ".toList ++ "<string>".toList)))))) := by decide +kernel
  have last : Search.avoids "<string>".toList (escaped ++ "</string>\n    ".toList) = true :=
    Search.avoids_append (Search.avoids_of_not_mem noElement) (by decide)
  have closing : Search.splitOnce "</string>".toList (escaped ++ "</string>\n    ".toList) =
      some (escaped, "\n    ".toList) :=
    Search.splitOnce_of_avoids (by decide) (Search.avoids_of_not_mem noElement) _
  have closed : [STANDARD_BINARY ++ "</string>\n        ".toList,
      "run</string>\n        ".toList, "--config</string>\n        ".toList].filterMap
        (fun part => (Search.splitOnce "</string>".toList part).map Prod.fst) =
      [STANDARD_BINARY, "run".toList, "--config".toList] := by decide +kernel
  have pieces : Search.split "<string>".toList (argumentsBefore ++
      (escaped ++ "</string>\n    ".toList)) = "\n    <array>\n        ".toList ::
        ([STANDARD_BINARY ++ "</string>\n        ".toList, "run</string>\n        ".toList,
          "--config</string>\n        ".toList] ++ [escaped ++ "</string>\n    ".toList]) := by
    rw [parts]
    simp only [List.append_assoc]
    rw [Search.split_of_avoids nonempty (by decide), ← List.append_assoc STANDARD_BINARY,
      Search.split_of_avoids nonempty (by decide), Search.split_of_avoids nonempty (by decide),
      Search.split_of_avoids nonempty (by decide), Search.split_eq_singleton last]
    rfl
  have isLast : [escaped ++ "</string>\n    ".toList].filterMap (fun part =>
      (Search.splitOnce "</string>".toList part).map Prod.fst) = [escaped] := by
    rw [List.filterMap_cons, closing]
    rfl
  rw [pieces, List.drop_succ_cons, List.drop_zero, List.filterMap_append, closed, isLast]
  rfl

/-- The reader takes the escaped path for the config. -/
theorem parseProgramArguments_launchdPlistContent (path : OsPath) :
    parseProgramArguments (launchdPlistContent path) =
      some (.ofText STANDARD_BINARY, some (.ofText (xmlEscape path.toStringLossy))) := by
  have content := launchdPlistContent_parts path
  have noElement := lt_not_mem_xmlEscape path.toStringLossy
  generalize xmlEscape path.toStringLossy = escaped at *
  have toKey : Search.splitOnce "<key>ProgramArguments</key>".toList (launchdPlistContent path) =
      some (Lines.join LAUNCHD_PLIST_HEAD ++ "    ".toList,
        argumentsBefore ++ (escaped ++ ("</string>\n    ".toList ++
        ("</array>".toList ++ '\n' :: Lines.join LAUNCHD_PLIST_TAIL)))) := by
    rw [content]
    exact Search.splitOnce_of_avoids (by decide) (by decide +kernel) _
  have list : Search.avoids "</array>".toList
      (argumentsBefore ++ (escaped ++ "</string>\n    ".toList)) = true :=
    Search.avoids_append (by decide +kernel)
      (Search.avoids_append (Search.avoids_of_not_mem noElement) (by decide))
  have toEnd := Search.splitOnce_of_avoids (by decide) list ('\n' :: Lines.join LAUNCHD_PLIST_TAIL)
  simp only [List.append_assoc] at toEnd
  rw [parseProgramArguments, toKey, Option.bind_some]
  dsimp only
  rw [toEnd, Option.bind_some]
  dsimp only
  rw [argumentStrings noElement]
  rfl

/-- The plist names the config it was written for exactly when the path has nothing to escape. -/
theorem launchd_names_config_iff (path : OsPath) :
    parseProgramArguments (launchdPlistContent path) =
        some (.ofText STANDARD_BINARY, some path) ↔
      path.IsText ∧
        ∀ character ∈ path.toStringLossy, character ∉ ['&', '<', '>', '"', '\''] := by
  rw [parseProgramArguments_launchdPlistContent, Option.some_inj, Prod.mk.injEq, Option.some_inj,
    and_iff_right rfl, OsPath.ofText_eq_iff, xmlEscape_eq_self_iff]

end Launchd

section ServiceFiles

variable {path : OsPath}

/-- A text with nothing either reader trims, splits at or leaves escaped. -/
structure PlainConfig (text : List Char) : Prop where
  nonempty : text ≠ []
  plain : ∀ character ∈ text, Text.isWhitespace character = false ∧
    character ∉ ['"', '\\', '&', '<', '>', '\'']
  first : ∀ character ∈ text.head?, character ≠ ';' ∧ character ≠ '}'
  last : ∀ character ∈ text.getLast?, character ≠ ';' ∧ character ≠ '}'

theorem plainConfig_iff {text : List Char} : PlainConfig text ↔
    UnitSafe text ∧ ∀ character ∈ text, character ∉ ['&', '<', '>', '"', '\''] := by
  constructor
  · intro plain
    refine ⟨⟨plain.nonempty, fun character isIn => (plain.plain character isIn).1, ⟨?_, ?_⟩,
      plain.first, plain.last⟩, ?_⟩
    · exact fun isIn => absurd (plain.plain _ isIn).2 (by decide)
    · exact fun isIn => absurd (plain.plain _ isIn).2 (by decide)
    · intro character isIn special
      have notSpecial := (plain.plain character isIn).2
      simp only [List.mem_cons, List.not_mem_nil, or_false, not_or] at special notSpecial
      tauto
  · rintro ⟨safe, unescaped⟩
    refine ⟨safe.nonempty, ?_, safe.first, safe.last⟩
    intro character isIn
    refine ⟨safe.solid character isIn, ?_⟩
    have notSpecial := unescaped character isIn
    have notQuote : character ≠ '"' := fun same => safe.unescaped.1 (same ▸ isIn)
    have notBackslash : character ≠ '\\' := fun same => safe.unescaped.2 (same ▸ isIn)
    simp only [List.mem_cons, List.not_mem_nil, or_false, not_or] at notSpecial ⊢
    tauto

/-- Both service files name the config they were written for exactly when its path is a plain
text. -/
theorem service_files_name_config_iff
    (noControl : ∀ character ∈ path.toStringLossy, Text.isControl character = false) :
    (parseExecStartTarget (systemdUnitContent path) =
        some (.ofText STANDARD_BINARY, some path) ∧
      parseProgramArguments (launchdPlistContent path) =
        some (.ofText STANDARD_BINARY, some path)) ↔
      path.IsText ∧ PlainConfig path.toStringLossy := by
  rw [systemd_names_config_iff noControl, launchd_names_config_iff, plainConfig_iff]
  tauto

/-- A config with a dollar sign in its path is quoted in the unit, and named. -/
theorem service_files_name_quoted_config :
    systemdQuotePath (.ofText "/srv/$lab/greggd.toml".toList) =
        "\"/srv/$lab/greggd.toml\"".toList ∧
      parseExecStartTarget (systemdUnitContent (.ofText "/srv/$lab/greggd.toml".toList)) =
        some (.ofText STANDARD_BINARY, some (.ofText "/srv/$lab/greggd.toml".toList)) ∧
      parseProgramArguments (launchdPlistContent (.ofText "/srv/$lab/greggd.toml".toList)) =
        some (.ofText STANDARD_BINARY, some (.ofText "/srv/$lab/greggd.toml".toList)) := by
  have plain : PlainConfig "/srv/$lab/greggd.toml".toList :=
    ⟨by decide, List.all_iff_forall_prop.mp (by decide +kernel),
      fun _ isFirst => by cases isFirst; decide, fun _ isLast => by cases isLast; decide⟩
  exact ⟨by decide +kernel,
    (service_files_name_config_iff (List.all_iff_forall_prop.mp (by decide +kernel))).mpr
      ⟨OsPath.isText_ofText _, by rwa [OsPath.toStringLossy_ofText]⟩⟩

/-- A config with a blank in its path is named as the part before the blank, with the rest of the
quotes gone. -/
theorem systemd_misnames_blank :
    (∀ character ∈ (OsPath.ofText "/etc/my gregg/greggd.toml".toList).toStringLossy,
        Text.isControl character = false) ∧
      parseExecStartTarget (systemdUnitContent (.ofText "/etc/my gregg/greggd.toml".toList)) =
        some (.ofText STANDARD_BINARY, some (.ofText "/etc/my".toList)) ∧
      OsPath.ofText "/etc/my".toList ≠ .ofText "/etc/my gregg/greggd.toml".toList := by
  have quoted : systemdQuotePath (.ofText "/etc/my gregg/greggd.toml".toList) =
      "\"/etc/my gregg/greggd.toml\"".toList := by decide +kernel
  have token : (((Text.splitWhitespace "\"/etc/my gregg/greggd.toml\"".toList).map
      trimToken).head?).filter (!·.isEmpty) = some "/etc/my".toList := by decide +kernel
  have isLast : (systemdQuotePath (.ofText "/etc/my gregg/greggd.toml".toList)).getLast? =
      some '"' := by
    rw [quoted]
    decide +kernel
  have noControl : ∀ character ∈
      (OsPath.ofText "/etc/my gregg/greggd.toml".toList).toStringLossy,
        Text.isControl character = false := List.all_iff_forall_prop.mp (by decide +kernel)
  refine ⟨noControl, ?_, by decide +kernel⟩
  rw [parseExecStartTarget_systemdUnitContent (newline_not_mem_systemdQuotePath noControl) isLast
    rfl, quoted, parseCommandTarget_unitCommand, token]
  rfl

end ServiceFiles

end Gregg
