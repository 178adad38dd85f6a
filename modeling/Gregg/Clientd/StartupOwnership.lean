import Mathlib.Data.Bool.AllAny
import Gregg.Clientd.CronCycle
import Gregg.Clientd.StartupFiles
import Gregg.Startup.ServiceConfig

/-!
# What a startup file says of its owner

Each writer's quoting is undone by its reader, so that a file names the text of its target's
executable and of its config. The entry of the Startup folder takes the first `--config` for the
flag, and an executable of that name comes before it.
-/

namespace Gregg.Clientd

section SystemdUnit

theorem quoteSystemd_eq (value : List Char) :
    quoteSystemd value = '"' :: systemdEscape value ++ ['"'] := by
  rw [quoteSystemd, replace_replace_eq_systemdEscape]

/-- In quotes, the reader undoes the escapes. -/
theorem foldl_systemdEscape (parts : List (List Char)) (current value : List Char) :
    (systemdEscape value).foldl UnitScan.step ⟨parts, current, true, false⟩ =
      ⟨parts, current ++ value, true, false⟩ := by
  induction value generalizing current with
  | nil => simp [systemdEscape]
  | cons character value ih =>
      rw [systemdEscape, List.flatMap_cons, List.foldl_append, ← systemdEscape]
      have stepped : (if character = '"' then ['\\', '"'] else
          if character = '\\' then ['\\', '\\'] else [character]).foldl UnitScan.step
            ⟨parts, current, true, false⟩ = ⟨parts, current ++ [character], true, false⟩ := by
        by_cases quote : character = '"'
        · subst quote
          rfl
        · by_cases backslash : character = '\\'
          · subst backslash
            rfl
          · simp [quote, backslash, UnitScan.step]
      rw [stepped, ih, List.append_assoc, List.singleton_append]

theorem foldl_quoteSystemd (parts : List (List Char)) (value : List Char) :
    (quoteSystemd value).foldl UnitScan.step ⟨parts, [], false, false⟩ =
      ⟨parts, value, false, false⟩ := by
  have opened : UnitScan.step ⟨parts, [], false, false⟩ '"' = ⟨parts, [], true, false⟩ := rfl
  have closed : UnitScan.step ⟨parts, value, true, false⟩ '"' = ⟨parts, value, false, false⟩ := rfl
  rw [quoteSystemd_eq, List.cons_append, List.foldl_cons, opened, List.foldl_append,
    foldl_systemdEscape, List.nil_append, List.foldl_cons, closed, List.foldl_nil]

/-- A word without quotes, backslashes and white space is added to the current part. -/
theorem foldl_word (word : List Char) (plain : ∀ character ∈ word, character ≠ '"' ∧
      character ≠ '\\' ∧ Text.isWhitespace character = false)
    (parts : List (List Char)) (current : List Char) :
    word.foldl UnitScan.step ⟨parts, current, false, false⟩ =
      ⟨parts, current ++ word, false, false⟩ := by
  induction word generalizing current with
  | nil => simp
  | cons character word ih =>
      rw [List.forall_mem_cons] at plain
      rcases plain with ⟨⟨quote, backslash, solid⟩, others⟩
      have stepped : UnitScan.step ⟨parts, current, false, false⟩ character =
          ⟨parts, current ++ [character], false, false⟩ := by
        simp [UnitScan.step, quote, backslash, solid]
      rw [List.foldl_cons, stepped, ih others, List.append_assoc, List.singleton_append]

/-- A space ends a part. -/
theorem step_space {current : List Char} (nonempty : current ≠ []) (parts : List (List Char)) :
    UnitScan.step ⟨parts, current, false, false⟩ ' ' = ⟨parts ++ [current], [], false, false⟩ := by
  have space : Text.isWhitespace ' ' = true := by decide
  simp [UnitScan.step, space, nonempty]

/-- The reader's parts of the command are its arguments. -/
theorem foldl_execCommand {target : StartupTarget}
    (executable : target.executable.toStringLossy ≠ [])
    (config : target.config.toStringLossy ≠ []) :
    (execCommand target).foldl UnitScan.step ⟨[], [], false, false⟩ =
      ⟨[target.executable.toStringLossy, "--config".toList, target.config.toStringLossy,
        "daemon".toList], "run".toList, false, false⟩ := by
  generalize isExe : target.executable.toStringLossy = exe at *
  generalize isFile : target.config.toStringLossy = file at *
  have flag : (" --config ".toList).foldl UnitScan.step ⟨[], exe, false, false⟩ =
      ⟨[exe, "--config".toList], [], false, false⟩ := by
    have word : " --config ".toList = ' ' :: ("--config".toList ++ [' ']) := by decide
    rw [word, List.foldl_cons, step_space executable, List.foldl_append,
      foldl_word "--config".toList (List.all_iff_forall_prop.mp (by decide)), List.foldl_cons,
      step_space (by decide)]
    rfl
  have command : (" daemon run".toList).foldl UnitScan.step
      ⟨[exe, "--config".toList], file, false, false⟩ =
      ⟨[exe, "--config".toList, file, "daemon".toList], "run".toList, false, false⟩ := by
    have words : " daemon run".toList = ' ' :: ("daemon".toList ++ ' ' :: "run".toList) := by
      decide
    rw [words, List.foldl_cons, step_space config, List.foldl_append,
      foldl_word "daemon".toList (List.all_iff_forall_prop.mp (by decide)), List.foldl_cons,
      step_space (by decide), foldl_word "run".toList (List.all_iff_forall_prop.mp (by decide))]
    rfl
  rw [execCommand, isExe, isFile, List.foldl_append, foldl_quoteSystemd, List.foldl_append, flag,
    List.foldl_append, foldl_quoteSystemd, command]

theorem feed_not_mem_quoteSystemd {value : List Char} (single : '\n' ∉ value) :
    '\n' ∉ quoteSystemd value := by
  rw [quoteSystemd_eq]
  intro isIn
  rcases List.mem_append.mp isIn with isIn | isQuote
  · rcases List.mem_cons.mp isIn with isQuote | isEscaped
    · cases isQuote
    · rcases mem_systemdEscape isEscaped with isValue | isBackslash
      · exact single isValue
      · cases isBackslash
  · cases List.mem_singleton.mp isQuote

/-- A line between fixed characters is read as it is. -/
theorem trim_stripReturn_of_ends {line : List Char} {first last : Char}
    (isFirst : line.head? = some first) (isLast : line.getLast? = some last)
    (solidFirst : Text.isWhitespace first = false)
    (solidLast : Text.isWhitespace last = false) : Text.trim (Lines.stripReturn line) = line := by
  have notReturn : ¬line.getLast? = some '\r' := by
    intro isReturn
    rw [isLast, Option.some_inj] at isReturn
    subst isReturn
    cases solidLast
  rw [Lines.stripReturn, if_neg notReturn]
  exact Text.trim_eq_self isFirst isLast solidFirst solidLast

/-- The reader of a unit gets the text of each path. -/
theorem parseSystemdExecStart_render {target : StartupTarget} (single : target.SingleLine)
    (executable : target.executable.toStringLossy ≠ [])
    (config : target.config.toStringLossy ≠ []) :
    parseSystemdExecStart (renderSystemdUserUnit target) =
      some (.ofText target.executable.toStringLossy,
        some (.ofText target.config.toStringLossy)) := by
  have command : '\n' ∉ execCommand target :=
    List.not_mem_append (feed_not_mem_quoteSystemd single.1) (List.not_mem_append (by decide)
      (List.not_mem_append (feed_not_mem_quoteSystemd single.2) (by decide)))
  have identity : '\n' ∉ target.identity := fun isIn =>
    single_markerLine (List.mem_append_right _ isIn)
  have description : Search.stripPrefix "ExecStart=".toList (Text.trim (Lines.stripReturn
      ("Description=Gregg client daemon (".toList ++ (target.identity ++ [')'])))) = none := by
    have ends : ("Description=Gregg client daemon (".toList ++
        (target.identity ++ [')'])).getLast? = some ')' := by
      rw [← List.append_assoc, List.getLast?_append]
      rfl
    rw [trim_stripReturn_of_ends rfl ends (by decide) (by decide)]
    rfl
  have commandLast : (execCommand target).getLast? = some 'n' := by
    rw [execCommand, List.getLast?_append, List.getLast?_append, List.getLast?_append]
    rfl
  have execLine : Text.trim (Lines.stripReturn ("ExecStart=".toList ++ execCommand target)) =
      "ExecStart=".toList ++ execCommand target := by
    have lineLast : ("ExecStart=".toList ++ execCommand target).getLast? = some 'n' := by
      rw [List.getLast?_append, commandLast]
      rfl
    exact trim_stripReturn_of_ends rfl lineLast (by decide) (by decide)
  have found : (Lines.split (renderSystemdUserUnit target)).findSome? (fun line =>
      Search.stripPrefix "ExecStart=".toList (Text.trim line)) = some (execCommand target) := by
    have head : ∀ line ∈ unitHead target.identity, '\n' ∉ line ∧
        Search.stripPrefix "ExecStart=".toList (Text.trim (Lines.stripReturn line)) = none := by
      rw [unitHead, List.forall_mem_cons, List.forall_mem_cons]
      refine ⟨by decide, ⟨?_, description⟩, by decide +kernel⟩
      exact List.not_mem_append (by decide) (List.not_mem_append identity (by decide))
    rw [renderSystemdUserUnit, Lines.findSome?_split_join (fun line isLine => (head line isLine).1)
      (fun line isLine => (head line isLine).2) (List.not_mem_append (by decide) command),
      execLine, Search.stripPrefix_append]
    rfl
  have trimmed : Text.trim (execCommand target) = execCommand target :=
    Text.trim_eq_self rfl commandLast (by decide) (by decide)
  rw [parseSystemdExecStart, found, Option.map_some, trimmed, Option.bind_some]
  dsimp only
  rw [foldl_execCommand executable config]
  rfl

end SystemdUnit

section Entities

def ENTITIES : List Char :=
  ['&', '<', '>', '"', '\'']

/-- The escape of a character, where the entities of some characters were undone. -/
def escapeUnless (undone : List Char) (character : Char) : List Char :=
  if character ∈ undone then [character] else xmlEscapeChar character

theorem escapeEntities_eq (value : List Char) : escapeEntities value = xmlEscape value := by
  rw [escapeEntities, Search.replace_singleton, Search.replace_singleton,
    Search.replace_singleton, Search.replace_singleton, Search.replace_singleton,
    List.flatMap_assoc, List.flatMap_assoc, List.flatMap_assoc, List.flatMap_assoc, xmlEscape]
  congr 1
  funext character
  by_cases special : character ∈ ENTITIES
  · revert character
    exact List.all_iff_forall_prop.mp (by decide)
  · simp only [ENTITIES, List.mem_cons, List.not_mem_nil, or_false, not_or] at special
    rcases special with ⟨ampersand, less, greater, quote, apostrophe⟩
    simp only [xmlEscapeChar, ampersand, less, greater, quote, apostrophe, if_false,
      List.flatMap_singleton]

theorem avoids_entity : ∀ special ∈ ENTITIES, ∀ other ∈ ENTITIES, other ≠ special →
    Search.avoids (xmlEscapeChar special) (xmlEscapeChar other) = true := by
  have everyPair : ENTITIES.all (fun special => ENTITIES.all fun other => other == special ||
      Search.avoids (xmlEscapeChar special) (xmlEscapeChar other)) = true := by decide
  intro special isSpecial other isOther different
  have pair := List.all_eq_true.mp (List.all_eq_true.mp everyPair special isSpecial) other isOther
  rwa [beq_eq_false_iff_ne.mpr different, Bool.false_or] at pair

theorem head?_entity : ∀ special ∈ ENTITIES, (xmlEscapeChar special).head? = some '&' :=
  List.all_iff_forall_prop.mp (by decide)

theorem xmlEscapeChar_of_not_mem {character : Char} (plain : character ∉ ENTITIES) :
    xmlEscapeChar character = [character] := by
  rcases xmlEscapeChar_cases character with ⟨-, unchanged⟩ | ⟨special, -⟩
  · exact unchanged
  · exact absurd special plain

/-- Undoing one entity leaves the others as they are. -/
theorem replace_entity {undone : List Char} {special : Char} (isSpecial : special ∈ ENTITIES)
    (isNew : special ∉ undone) (ampersand : '&' ∉ undone) (text : List Char) :
    Search.replace (xmlEscapeChar special) [special] (text.flatMap (escapeUnless undone)) =
      text.flatMap (escapeUnless (special :: undone)) := by
  rcases List.head?_eq_some_iff.mp (head?_entity special isSpecial) with ⟨rest, entity⟩
  apply Search.replace_flatMap
  · rw [entity]
    exact List.cons_ne_nil _ _
  · intro character
    by_cases same : character = special
    · subst same
      exact .inl ⟨if_neg isNew, if_pos List.mem_cons_self⟩
    · have notUndone : character ∈ special :: undone ↔ character ∈ undone := by
        rw [List.mem_cons, or_iff_right same]
      refine .inr ⟨?_, by simp only [escapeUnless, notUndone]⟩
      rw [escapeUnless]
      split
      · rename_i isUndone
        rw [entity]
        apply Search.avoids_of_not_mem
        rw [List.mem_singleton]
        exact fun isAmpersand => ampersand (isAmpersand ▸ isUndone)
      · by_cases other : character ∈ ENTITIES
        · exact avoids_entity special isSpecial character other same
        · rw [xmlEscapeChar_of_not_mem other, entity]
          apply Search.avoids_of_not_mem
          rw [List.mem_singleton]
          rintro rfl
          exact other List.mem_cons_self

/-- The ampersand is escaped first and unescaped last. -/
theorem unescapeEntities_escapeEntities (value : List Char) :
    unescapeEntities (escapeEntities value) = value := by
  have names : "&quot;".toList = xmlEscapeChar '"' ∧ "&apos;".toList = xmlEscapeChar '\'' ∧
      "&gt;".toList = xmlEscapeChar '>' ∧ "&lt;".toList = xmlEscapeChar '<' ∧
        "&amp;".toList = xmlEscapeChar '&' := by decide
  have start : xmlEscape value = value.flatMap (escapeUnless []) := by
    rw [xmlEscape]
    congr 1
  have ends : escapeUnless ['&', '<', '>', '\'', '"'] = fun character => [character] := by
    funext character
    rw [escapeUnless]
    split
    · rfl
    · rename_i other
      have all : ∀ special ∈ ENTITIES, special ∈ ['&', '<', '>', '\'', '"'] :=
        List.all_iff_forall_prop.mp (by decide)
      exact xmlEscapeChar_of_not_mem fun special => other (all character special)
  rw [escapeEntities_eq, unescapeEntities, names.1, names.2.1, names.2.2.1, names.2.2.2.1,
    names.2.2.2.2, start, replace_entity (by decide) (by decide) (by decide),
    replace_entity (by decide) (by decide) (by decide),
    replace_entity (by decide) (by decide) (by decide),
    replace_entity (by decide) (by decide) (by decide),
    replace_entity (by decide) (by decide) (by decide), ends]
  exact List.flatMap_singleton' value

end Entities

section LaunchAgent

variable {target : StartupTarget}

theorem findText_of_avoids {pattern text : List Char} (nonempty : pattern ≠ [])
    (avoid : Search.avoids pattern text = true) (after : List Char) :
    findText pattern (text ++ (pattern ++ after)) = some text.length := by
  rw [findText, Search.splitOnce_of_avoids nonempty avoid]
  rfl

theorem append_argument (front spaces tag argument close rest tail : List Char) :
    front ++ (((spaces ++ (tag ++ (argument ++ close))) ++ '\n' :: rest) ++ tail) =
      (front ++ spaces) ++ (tag ++ ((argument ++ (close ++ ['\n'])) ++ (rest ++ tail))) := by
  simp

/-- The strings of argument lines are read back in order. -/
theorem mapM_split_argumentLines (read : List Char → OsPath) {arguments : List (List Char)}
    (noElement : ∀ argument ∈ arguments, '<' ∉ argument) {front tail : List Char}
    (avoidFront : Search.avoids "<string>".toList front = true)
    (avoidTail : Search.avoids "<string>".toList tail = true) :
    ((Search.split "<string>".toList
      (front ++ (Lines.join (arguments.map argumentLine) ++ tail))).drop 1).mapM (fun value =>
        (findText "</string>".toList value).map fun ending => read (value.take ending)) =
      some (arguments.map read) := by
  induction arguments generalizing front with
  | nil =>
      rw [List.map_nil, Lines.join_nil, List.nil_append,
        Search.split_eq_singleton (Search.avoids_append avoidFront avoidTail)]
      rfl
  | cons argument arguments ih =>
      rw [List.forall_mem_cons] at noElement
      have close : Search.avoids "<string>".toList (argument ++ "</string>\n".toList) = true :=
        Search.avoids_append (Search.avoids_of_not_mem noElement.1) (by decide)
      have ended : "</string>\n".toList = "</string>".toList ++ ['\n'] := by decide
      have parts : front ++ (Lines.join ((argument :: arguments).map argumentLine) ++ tail) =
          (front ++ "    ".toList) ++ ("<string>".toList ++ ((argument ++ "</string>\n".toList) ++
            (Lines.join (arguments.map argumentLine) ++ tail))) := by
        rw [List.map_cons, Lines.join_cons, ended]
        exact append_argument _ _ _ _ _ _ _
      have others := ih noElement.2 close
      rcases List.exists_cons_of_ne_nil (Search.split_ne_nil "<string>".toList
        (Lines.join (arguments.map argumentLine) ++ tail)) with ⟨first, pieces, split⟩
      rw [Search.split_append close, split, List.modifyHead_cons, List.drop_succ_cons,
        List.drop_zero] at others
      have readFirst : (findText "</string>".toList
          ((argument ++ "</string>\n".toList) ++ first)).map (fun ending =>
            read (((argument ++ "</string>\n".toList) ++ first).take ending)) =
          some (read argument) := by
        have nonempty : "</string>".toList ≠ [] := by decide
        have avoid : Search.avoids "</string>".toList argument = true :=
          Search.avoids_of_not_mem noElement.1
        rw [ended, List.append_assoc, List.append_assoc, findText_of_avoids nonempty avoid,
          Option.map_some, List.take_left]
      rw [parts, Search.split_of_avoids (by decide) (Search.avoids_append avoidFront (by decide)),
        Search.split_append close, split, List.modifyHead_cons, List.drop_succ_cons,
        List.drop_zero, List.mapM_cons, readFirst, others]
      rfl

theorem avoids_join_argumentLines {arguments : List (List Char)}
    (noElement : ∀ argument ∈ arguments, '<' ∉ argument) :
    Search.avoids "</array>".toList (Lines.join (arguments.map argumentLine)) = true := by
  induction arguments with
  | nil => rfl
  | cons argument arguments ih =>
      rw [List.forall_mem_cons] at noElement
      rw [List.map_cons, Lines.join_cons]
      have feed : Search.avoids "</array>".toList ['\n'] = true := by decide
      have line : Search.avoids "</array>".toList (argumentLine argument) = true :=
        Search.avoids_append (by decide) (Search.avoids_append (by decide)
          (Search.avoids_append (Search.avoids_of_not_mem noElement.1) (by decide)))
      exact Search.avoids_append line (Search.avoids_append feed (ih noElement.2))

/-- The parts of a plist around its argument array. -/
theorem append_array (head label spaces key opening arguments closing tail : List Char) :
    head ++ (label ++ '\n' :: ((spaces ++ key) ++ '\n' :: ((spaces ++ opening) ++
        '\n' :: (arguments ++ ((spaces ++ closing) ++ '\n' :: tail))))) =
      (head ++ (label ++ '\n' :: spaces)) ++ (key ++ ((['\n'] ++ spaces) ++ (opening ++
        ((['\n'] ++ (arguments ++ spaces)) ++ (closing ++ '\n' :: tail))))) := by
  simp

/-- The plist before the key of its arguments. -/
def launchagentFront (target : StartupTarget) : List Char :=
  Lines.join LAUNCHAGENT_HEAD ++ (("  ".toList ++ stringElement ("com.eggstack.".toList ++
    target.artifactName)) ++ '\n' :: "  ".toList)

/-- The array of the plist, from its first element on. -/
def argumentArray (target : StartupTarget) : List Char :=
  ['\n'] ++ (Lines.join ((programArguments target).map argumentLine) ++ "  ".toList)

theorem renderLaunchagent_eq (target : StartupTarget) : renderLaunchagent target =
    launchagentFront target ++ (PROGRAM_ARGUMENTS_KEY ++ ((['\n'] ++ "  ".toList) ++
      ("<array>".toList ++ (argumentArray target ++
        ("</array>".toList ++ '\n' :: Lines.join LAUNCHAGENT_TAIL))))) := by
  rw [renderLaunchagent, Lines.join_append, Lines.join_cons, Lines.join_cons, Lines.join_cons,
    Lines.join_append, Lines.join_cons]
  exact append_array _ _ _ _ _ _ _ _

theorem avoids_launchagentFront (target : StartupTarget) :
    Search.avoids PROGRAM_ARGUMENTS_KEY (launchagentFront target) = true := by
  have identity : '<' ∉ target.identity := fun isIn =>
    not_mem_markerLine (by decide) (by decide) (List.mem_append_right CRON_MARKER isIn)
  have name : Search.avoids PROGRAM_ARGUMENTS_KEY target.artifactName = true :=
    Search.avoids_append (by decide) (Search.avoids_of_not_mem identity)
  have label : Search.avoids PROGRAM_ARGUMENTS_KEY ("  ".toList ++
      stringElement ("com.eggstack.".toList ++ target.artifactName)) = true :=
    Search.avoids_append (by decide) (Search.avoids_append (by decide)
      (Search.avoids_append (Search.avoids_append (by decide) name) (by decide)))
  exact Search.avoids_append (by decide +kernel) (Search.avoids_append label (by decide))

theorem lt_not_mem_programArguments (target : StartupTarget) :
    ∀ argument ∈ programArguments target, '<' ∉ argument := by
  have flag : '<' ∉ "--config".toList := by decide
  have words : '<' ∉ "daemon".toList ∧ '<' ∉ "run".toList := by decide
  have escaped : ∀ value, '<' ∉ escapeEntities value := fun value => by
    rw [escapeEntities_eq]
    exact lt_not_mem_xmlEscape value
  rw [programArguments]
  simp only [List.forall_mem_cons]
  exact ⟨escaped _, flag, escaped _, words.1, words.2, by simp⟩

theorem map_unescape_programArguments (target : StartupTarget) :
    (programArguments target).map (fun argument => OsPath.ofText (unescapeEntities argument)) =
      [.ofText target.executable.toStringLossy, .ofText "--config".toList,
        .ofText target.config.toStringLossy, .ofText "daemon".toList, .ofText "run".toList] := by
  have flag : unescapeEntities "--config".toList = "--config".toList := by decide +kernel
  have daemon : unescapeEntities "daemon".toList = "daemon".toList := by decide +kernel
  have run : unescapeEntities "run".toList = "run".toList := by decide +kernel
  rw [programArguments, List.map_cons, List.map_cons, List.map_cons, List.map_cons, List.map_cons,
    unescapeEntities_escapeEntities, unescapeEntities_escapeEntities, flag, daemon, run]
  rfl

/-- A part between two marks is cut out at the first place of each. -/
theorem find_between {opening closing front body : List Char} (nonempty : opening ≠ [])
    (noOpening : Search.avoids opening front = true) (nonemptyClosing : closing ≠ [])
    (noClosing : Search.avoids closing (front ++ (opening ++ body)) = true) (after : List Char) :
    ∃ start ending,
      findText opening (front ++ (opening ++ (body ++ (closing ++ after)))) = some start ∧
      findText closing (front ++ (opening ++ (body ++ (closing ++ after)))) = some ending ∧
      ¬ending < start ∧
      ((front ++ (opening ++ (body ++ (closing ++ after)))).take ending).drop start =
        opening ++ body := by
  have whole : front ++ (opening ++ (body ++ (closing ++ after))) =
      (front ++ (opening ++ body)) ++ (closing ++ after) := by simp
  refine ⟨front.length, (front ++ (opening ++ body)).length,
    findText_of_avoids nonempty noOpening _, ?_, ?_, ?_⟩
  · rw [whole]
    exact findText_of_avoids nonemptyClosing noClosing after
  · rw [List.length_append]
    omega
  · rw [whole, List.take_left, List.drop_left]

/-- The reader of an agent gets the text of each path. -/
theorem parseLaunchagentProgramArguments_render (target : StartupTarget) :
    parseLaunchagentProgramArguments (renderLaunchagent target) =
      some [.ofText target.executable.toStringLossy, .ofText "--config".toList,
        .ofText target.config.toStringLossy, .ofText "daemon".toList, .ofText "run".toList] := by
  have noElement := lt_not_mem_programArguments target
  have nonempty : PROGRAM_ARGUMENTS_KEY ≠ [] := by decide
  have key := findText_of_avoids nonempty (avoids_launchagentFront target)
    ((['\n'] ++ "  ".toList) ++ ("<array>".toList ++ (argumentArray target ++
      ("</array>".toList ++ '\n' :: Lines.join LAUNCHAGENT_TAIL))))
  rw [← renderLaunchagent_eq] at key
  have opens : Search.avoids "<array>".toList
      (PROGRAM_ARGUMENTS_KEY ++ (['\n'] ++ "  ".toList)) = true := by decide +kernel
  have array : Search.avoids "</array>".toList (argumentArray target) = true :=
    Search.avoids_append (by decide)
      (Search.avoids_append (avoids_join_argumentLines noElement) (by decide))
  have closes : Search.avoids "</array>".toList
      ((PROGRAM_ARGUMENTS_KEY ++ (['\n'] ++ "  ".toList)) ++
        ("<array>".toList ++ argumentArray target)) = true :=
    Search.avoids_append (by decide +kernel) (Search.avoids_append (by decide) array)
  rcases find_between (by decide) opens (by decide) closes ('\n' :: Lines.join LAUNCHAGENT_TAIL)
    with ⟨start, ending, opening, closing, inOrder, body⟩
  have avoidFront : Search.avoids "<string>".toList ("<array>".toList ++ ['\n']) = true := by
    decide
  have avoidTail : Search.avoids "<string>".toList "  ".toList = true := by decide
  have values := mapM_split_argumentLines
    (fun argument => OsPath.ofText (unescapeEntities argument)) noElement avoidFront avoidTail
  rw [List.append_assoc PROGRAM_ARGUMENTS_KEY] at opening closing body
  rw [List.append_assoc] at values
  rw [parseLaunchagentProgramArguments, key, renderLaunchagent_eq]
  simp only [Option.bind_eq_bind, Option.bind_some]
  rw [List.drop_left, opening, Option.bind_some, closing, Option.bind_some, if_neg inOrder, body,
    argumentArray, values, map_unescape_programArguments]
  rfl

end LaunchAgent

section StartupEntry

variable {target : StartupTarget}

/-- In quotes, the reader takes every other character. -/
theorem foldl_quoted {value : List Char} (noQuote : '"' ∉ value) (tokens : List (List Char))
    (current : List Char) : value.foldl EntryScan.step ⟨tokens, current, true, true⟩ =
      ⟨tokens, current ++ value, true, true⟩ := by
  induction value generalizing current with
  | nil => simp
  | cons character value ih =>
      rw [List.mem_cons, not_or] at noQuote
      have stepped : EntryScan.step ⟨tokens, current, true, true⟩ character =
          ⟨tokens, current ++ [character], true, true⟩ := by
        simp [EntryScan.step, Ne.symm noQuote.1]
      rw [List.foldl_cons, stepped, ih noQuote.2, List.append_assoc, List.singleton_append]

/-- The reader's tokens of the invocation. -/
theorem foldl_startLine (executable : '"' ∉ target.executable.toStringLossy)
    (config : '"' ∉ target.config.toStringLossy) :
    ((startLine target).drop 6).foldl EntryScan.step ⟨[], [], false, false⟩ =
      ⟨[[], target.executable.toStringLossy, "--config".toList, target.config.toStringLossy,
        "daemon".toList], "run".toList, false, false⟩ := by
  have dropped : (startLine target).drop 6 = "\"\" \"".toList ++
      (target.executable.toStringLossy ++ ("\" --config \"".toList ++
        (target.config.toStringLossy ++ "\" daemon run".toList))) := rfl
  have title : ("\"\" \"".toList).foldl EntryScan.step ⟨[], [], false, false⟩ =
      ⟨[[]], [], true, true⟩ := rfl
  rw [dropped, List.foldl_append, title, List.foldl_append, foldl_quoted executable,
    List.foldl_append, List.nil_append]
  generalize target.executable.toStringLossy = exe
  generalize target.config.toStringLossy = file at *
  have flag : ("\" --config \"".toList).foldl EntryScan.step ⟨[[]], exe, true, true⟩ =
      ⟨[[], exe, "--config".toList], [], true, true⟩ := rfl
  have command : ("\" daemon run".toList).foldl EntryScan.step
      ⟨[[], exe, "--config".toList], file, true, true⟩ =
      ⟨[[], exe, "--config".toList, file, "daemon".toList], "run".toList, false, false⟩ := rfl
  rw [flag, List.foldl_append, foldl_quoted config, List.nil_append, command]

theorem stripReturn_concat (line : List Char) : Lines.stripReturn (line ++ ['\r']) = line := by
  rw [Lines.stripReturn, if_pos List.getLast?_concat, List.dropLast_concat]

/-- The lines of the entry are read without their carriage returns. -/
theorem split_renderWindowsStartupEntry (single : target.SingleLine) :
    Lines.split (renderWindowsStartupEntry target) =
      ["@echo off".toList, "REM gregg-client-daemon ".toList ++ target.identity,
        startLine target] := by
  have identity : '\n' ∉ target.identity := fun isIn =>
    single_markerLine (List.mem_append_right _ isIn)
  have start : '\n' ∉ startLine target := List.not_mem_append (by decide)
    (List.not_mem_append single.1 (List.not_mem_append (by decide)
      (List.not_mem_append single.2 (by decide))))
  have remark : '\n' ∉ "REM gregg-client-daemon ".toList ++ target.identity :=
    List.not_mem_append (by decide) identity
  have echo : '\n' ∉ "@echo off".toList := by decide
  rw [renderWindowsStartupEntry]
  generalize startLine target = third at *
  generalize "REM gregg-client-daemon ".toList ++ target.identity = second at *
  generalize "@echo off".toList = first at *
  have singles : ∀ line ∈ [first, second, third].map (· ++ ['\r']), '\n' ∉ line := by
    simp [echo, remark, start]
  have lines := Lines.split_join singles []
  rw [List.append_nil, List.map_map] at lines
  rw [lines]
  simp [Lines.split, Lines.ofPieces, stripReturn_concat]

/-- The reader of an entry gets the text of the executable, and for the config what comes after
the first `--config`. -/
theorem parseWindowsStartupEntry_render (single : target.SingleLine)
    (executable : '"' ∉ target.executable.toStringLossy)
    (config : '"' ∉ target.config.toStringLossy) :
    parseWindowsStartupEntry (renderWindowsStartupEntry target) =
      some (.ofText target.executable.toStringLossy, some (.ofText
        (if target.executable.toStringLossy = "--config".toList then "--config".toList
          else target.config.toStringLossy))) := by
  have found : (Lines.split (renderWindowsStartupEntry target)).find? (fun line =>
      "start ".toList.isPrefixOf (Fleet.toAsciiLowercase (line.dropWhile Text.isWhitespace))) =
      some (startLine target) := by
    have echo : "start ".toList.isPrefixOf (Fleet.toAsciiLowercase
        ("@echo off".toList.dropWhile Text.isWhitespace)) = false := by decide
    have remark : "start ".toList.isPrefixOf (Fleet.toAsciiLowercase
        (("REM gregg-client-daemon ".toList ++ target.identity).dropWhile Text.isWhitespace)) =
        false := rfl
    have start : "start ".toList.isPrefixOf (Fleet.toAsciiLowercase
        ((startLine target).dropWhile Text.isWhitespace)) = true := rfl
    rw [split_renderWindowsStartupEntry single, List.find?_cons, echo, List.find?_cons, remark,
      List.find?_cons, start]
  have solid : (startLine target).dropWhile Text.isWhitespace = startLine target := rfl
  rw [parseWindowsStartupEntry, found, Option.bind_some]
  dsimp only
  rw [solid, foldl_startLine executable config]
  generalize target.executable.toStringLossy = exe
  generalize target.config.toStringLossy = file
  have title : (([] : List Char) == "--config".toList) = false := by decide
  have flag : ("--config".toList == "--config".toList) = true := by decide
  have value : configAfterFlag (· == "--config".toList)
      ([[], exe, "--config".toList, file, "daemon".toList] ++ ["run".toList]) =
      some (if exe = "--config".toList then "--config".toList else file) := by
    simp only [List.cons_append, configAfterFlag_cons, title, flag, beq_iff_eq, List.head?_cons,
      Bool.false_eq_true, if_false, if_true]
    split <;> rfl
  have notEmpty : (false || !("run".toList).isEmpty) = true := by decide
  rw [notEmpty, if_pos rfl, value]
  rfl

end StartupEntry

inductive StartupArtifact where
  | systemdUnit
  | launchAgent
  | startupEntry
  deriving DecidableEq

namespace StartupArtifact

def render : StartupArtifact → StartupTarget → List Char
  | systemdUnit => renderSystemdUserUnit
  | launchAgent => renderLaunchagent
  | startupEntry => renderWindowsStartupEntry

def ownership (paths : PathEquality) :
    StartupArtifact → List Char → OsPath → OsPath → ArtifactOwnership
  | systemdUnit => systemdUnitOwnership paths
  | launchAgent => launchagentOwnership paths
  | startupEntry => windowsEntryOwnership paths

/-- The paths are not empty and have no control characters, and for an entry no double quote. -/
structure Plain (artifact : StartupArtifact) (target : StartupTarget) : Prop where
  executable : target.executable ≠ []
  config : target.config ≠ []
  printable : ∀ path ∈ [target.executable, target.config], ∀ character ∈ path.toStringLossy,
    Text.isControl character = false
  unquoted : artifact = startupEntry → '"' ∉ target.executable.toStringLossy ∧
    '"' ∉ target.config.toStringLossy

/-- The file of one target is owned by another one exactly when both have the same executable and
the same config, and foreign otherwise. -/
def ProvesOwner (paths : PathEquality) (artifact : StartupArtifact)
    (target other : StartupTarget) : Prop :=
  artifact.ownership paths (artifact.render target) other.executable other.config =
    if paths.same target.executable other.executable && paths.same target.config other.config
    then .owned else .foreign

/-- The text taken for the config. -/
def readConfig (artifact : StartupArtifact) (target : StartupTarget) : List Char :=
  if artifact = startupEntry ∧ target.executable.toStringLossy = "--config".toList then
    "--config".toList
  else target.config.toStringLossy

variable {artifact : StartupArtifact} {target : StartupTarget} {paths : PathEquality}

theorem Plain.singleLine (plain : artifact.Plain target) : target.SingleLine := by
  have isControl : Text.isControl '\n' = true := by decide
  have single : ∀ path ∈ [target.executable, target.config], '\n' ∉ path.toStringLossy := by
    intro path isPath isIn
    rw [plain.printable path isPath _ isIn] at isControl
    cases isControl
  exact ⟨single _ (by simp), single _ (by simp)⟩

theorem append_remark (first remark name identity rest : List Char) :
    (first ++ ['\r']) ++ '\n' :: ((((remark ++ name) ++ identity) ++ ['\r']) ++ '\n' :: rest) =
      (first ++ (['\r', '\n'] ++ remark)) ++ (name ++ (identity ++ ('\r' :: '\n' :: rest))) := by
  simp

theorem containsText_renderWindowsStartupEntry (target : StartupTarget) :
    containsText "gregg-client-daemon ".toList (renderWindowsStartupEntry target) = true := by
  have remark : "REM gregg-client-daemon ".toList =
      "REM ".toList ++ "gregg-client-daemon ".toList := by decide
  rw [renderWindowsStartupEntry, List.map_cons, List.map_cons, Lines.join_cons, Lines.join_cons,
    remark, append_remark]
  exact Search.isSome_splitOnce _ _ _

/-- What a file says of its owner is the text of the executable, and the text taken for the
config. -/
theorem ownership_render (plain : artifact.Plain target) (executable config : OsPath) :
    artifact.ownership paths (artifact.render target) executable config =
      if paths.same (.ofText target.executable.toStringLossy) executable &&
        paths.same (.ofText (artifact.readConfig target)) config then .owned else .foreign := by
  have executableText : target.executable.toStringLossy ≠ [] := by
    simpa [OsPath.toStringLossy] using plain.executable
  have configText : target.config.toStringLossy ≠ [] := by
    simpa [OsPath.toStringLossy] using plain.config
  cases artifact with
  | systemdUnit =>
      change systemdUnitOwnership paths (renderSystemdUserUnit target) executable config = _
      rw [systemdUnitOwnership,
        parseSystemdExecStart_render plain.singleLine executableText configText]
      rfl
  | launchAgent =>
      change launchagentOwnership paths (renderLaunchagent target) executable config = _
      have whole : launchAgent.readConfig target = target.config.toStringLossy :=
        if_neg fun flagged => by cases flagged.1
      rw [launchagentOwnership, parseLaunchagentProgramArguments_render, whole]
      simp only [List.getElem?_cons_zero, List.getElem?_cons_succ, Option.any_some, paths.refl,
        Bool.and_true]
  | startupEntry =>
      have unquoted := plain.unquoted rfl
      change windowsEntryOwnership paths (renderWindowsStartupEntry target) executable config = _
      rw [windowsEntryOwnership, if_pos (containsText_renderWindowsStartupEntry target),
        parseWindowsStartupEntry_render plain.singleLine unquoted.1 unquoted.2, readConfig]
      simp only [true_and]

/-- A file proves its owner exactly when its paths are valid text, and an executable `--config`
in an entry comes with the config of that name. -/
theorem provesOwner_iff (paths : PathEquality) (plain : artifact.Plain target) :
    (∀ other, artifact.Plain other → artifact.ProvesOwner paths target other) ↔
      target.executable.IsText ∧ target.config.IsText ∧
        (artifact = startupEntry → target.executable = .ofText "--config".toList →
          paths.same target.config (.ofText "--config".toList) = true) := by
  constructor
  · intro proves
    have own := proves target plain
    rw [ProvesOwner, ownership_render plain, paths.refl, paths.refl, Bool.and_self, if_pos rfl]
      at own
    have read : (paths.same (.ofText target.executable.toStringLossy) target.executable &&
        paths.same (.ofText (artifact.readConfig target)) target.config) = true := by
      by_contra notOwned
      rw [if_neg notOwned] at own
      cases own
    rw [Bool.and_eq_true] at read
    refine ⟨paths.isText read.1 (OsPath.isText_ofText _),
      paths.isText read.2 (OsPath.isText_ofText _), ?_⟩
    rintro rfl flag
    have flagText : target.executable.toStringLossy = "--config".toList := by
      rw [flag, OsPath.toStringLossy_ofText]
    rw [readConfig, if_pos ⟨rfl, flagText⟩] at read
    exact paths.symm read.2
  · rintro ⟨executable, config, flag⟩ other -
    have sameConfig : paths.same (.ofText (artifact.readConfig target)) target.config = true := by
      rw [readConfig]
      split
      · rename_i flagged
        apply paths.symm
        refine flag flagged.1 ?_
        rw [← flagged.2, executable]
      · rw [config]
        exact paths.refl _
    have read : paths.same (.ofText (artifact.readConfig target)) other.config =
        paths.same target.config other.config := by
      rw [Bool.eq_iff_iff]
      exact ⟨fun isSame => paths.trans (paths.symm sameConfig) isSame,
        fun isSame => paths.trans sameConfig isSame⟩
    rw [ProvesOwner, ownership_render plain, read, executable]

/-- Both paths have a blank, and the config's also a quote and a backslash. -/
def quotedTarget : StartupTarget :=
  { sampleTarget with
    executable := .ofText "/opt/my gregg/gregg".toList
    config := .ofText "/home/ann/\"lab\" a\\b.toml".toList }

theorem provesOwner_quotedTarget :
    quoteSystemd quotedTarget.config.toStringLossy =
        "\"/home/ann/\\\"lab\\\" a\\\\b.toml\"".toList ∧
      systemdUnit.Plain quotedTarget ∧
      ∀ other, systemdUnit.Plain other → systemdUnit.ProvesOwner .unix quotedTarget other := by
  have plain : systemdUnit.Plain quotedTarget :=
    ⟨by decide, by decide,
      List.forall_mem_cons.mpr ⟨List.all_iff_forall_prop.mp (by decide +kernel),
        List.forall_mem_singleton.mpr (List.all_iff_forall_prop.mp (by decide +kernel))⟩,
      fun isEntry => nomatch isEntry⟩
  exact ⟨by decide +kernel, plain, (provesOwner_iff .unix plain).mpr
    ⟨by decide +kernel, by decide +kernel, fun isEntry => nomatch isEntry⟩⟩

/-- The config's name is the byte `0xff`, which is no text. -/
def illFormedTarget : StartupTarget :=
  { sampleTarget with config := [.char '/', .illFormed [0xff]] }

/-- The unit of such a config is foreign to its own target. -/
theorem illFormedTarget_is_foreign :
    systemdUnit.Plain illFormedTarget ∧
      ¬systemdUnit.ProvesOwner .unix illFormedTarget illFormedTarget := by
  have plain : systemdUnit.Plain illFormedTarget :=
    ⟨by decide, by decide,
      List.forall_mem_cons.mpr ⟨List.all_iff_forall_prop.mp (by decide +kernel),
        List.forall_mem_singleton.mpr (List.all_iff_forall_prop.mp (by decide +kernel))⟩,
      fun isEntry => nomatch isEntry⟩
  refine ⟨plain, ?_⟩
  rw [ProvesOwner, ownership_render plain, PathEquality.refl, PathEquality.refl]
  decide +kernel

end StartupArtifact

end Gregg.Clientd
