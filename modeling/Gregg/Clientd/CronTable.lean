import Mathlib.Data.Bool.AllAny
import Gregg.Clientd.StartupCron

/-!
# Foreign lines of the crontab

What a merge and a removal write keeps every line of another's, up to blank lines at the end,
exactly when no block holds such a line. A block is a line that starts with the marker and the
line after it, whatever it is.
-/

namespace Gregg.Clientd

def isBlank (line : List Char) : Bool :=
  line.all Text.isWhitespace

namespace StartupTarget

variable (target : StartupTarget)

/-- The two lines that are the target's own. -/
def isOwn (line : List Char) : Bool :=
  line == target.markerLine || line == target.commandLine

/-- The lines outside the blocks. -/
def outsideBlocks : Bool → List (List Char) → List (List Char)
  | _, [] => []
  | true, _ :: rest => outsideBlocks false rest
  | false, line :: rest =>
      if target.markerLine.isPrefixOf line then outsideBlocks true rest
      else line :: outsideBlocks false rest

end StartupTarget

section Loop

variable {target : StartupTarget}

/-- The loop keeps the lines outside the blocks. -/
theorem stripBlock_fst (inBlock : Bool) (lines : List (List Char)) :
    (stripBlock target.markerLine inBlock lines).1 = target.outsideBlocks inBlock lines := by
  induction lines generalizing inBlock with
  | nil => cases inBlock <;> rfl
  | cons line lines ih =>
      cases inBlock with
      | true => exact ih false
      | false =>
          rw [stripBlock, StartupTarget.outsideBlocks]
          split
          · exact ih true
          · exact congrArg (line :: ·) (ih false)

theorem outsideBlocks_sublist (inBlock : Bool) (lines : List (List Char)) :
    (target.outsideBlocks inBlock lines).Sublist lines := by
  induction lines generalizing inBlock with
  | nil => cases inBlock <;> exact List.Sublist.slnil
  | cons line lines ih =>
      cases inBlock with
      | true => exact (ih false).cons line
      | false =>
          rw [StartupTarget.outsideBlocks]
          split
          · exact (ih true).cons line
          · exact (ih false).cons_cons line

end Loop

section Written

variable {target : StartupTarget} {table : List Char}

theorem not_mem_markerLine {character : Char} (notMarker : character ∉ CRON_MARKER)
    (notDigit : Text.hexValue character = none) : character ∉ target.markerLine := by
  intro isIn
  rcases List.mem_append.mp isIn with isMarker | isDigit
  · exact notMarker isMarker
  · have digit := target.isDigest character isDigit
    rw [notDigit] at digit
    cases digit

theorem single_markerLine : '\n' ∉ target.markerLine :=
  not_mem_markerLine (by decide) (by decide)

theorem stripReturn_markerLine : Lines.stripReturn target.markerLine = target.markerLine := by
  have notReturn : '\r' ∉ target.markerLine := not_mem_markerLine (by decide) (by decide)
  rw [Lines.stripReturn, if_neg fun isLast => notReturn (List.mem_of_getLast? isLast)]

/-- The merge finds the marker of the block. -/
theorem findSome?_identity : (Lines.split (renderCronWatchdog target)).findSome?
    (Search.stripPrefix CRON_MARKER) = some target.identity := by
  rw [renderCronWatchdog, Lines.join_cons, Lines.split_line single_markerLine,
    stripReturn_markerLine, List.findSome?_cons, StartupTarget.markerLine,
    Search.stripPrefix_append]

/-- A merge writes the lines outside the blocks, and one block. -/
theorem mergeCronBlock_eq (target : StartupTarget) (table : List Char) :
    mergeCronBlock table (renderCronWatchdog target) =
      Lines.join ((target.outsideBlocks false (Lines.split table)).rdropWhile List.isEmpty) ++
        renderCronWatchdog target := by
  have ends : (renderCronWatchdog target).getLast? = some '\n' := by
    simp [renderCronWatchdog, Lines.join, List.getLast?_cons]
  have ended : ∀ before, (before ++ renderCronWatchdog target).getLast? = some '\n' := fun before =>
    by rw [List.getLast?_append, ends]; rfl
  have single : ∀ line ∈ target.outsideBlocks false (Lines.split table), '\n' ∉ line :=
    fun line isLine => Lines.single_of_mem_split ((outsideBlocks_sublist _ _).subset isLine)
  rw [mergeCronBlock, findSome?_identity]
  dsimp only
  rw [if_pos (ended _), ← StartupTarget.markerLine, stripBlock_fst]
  rcases Lines.rdropWhile_intercalate single with ⟨noLines, noText⟩ | ⟨someText, written⟩
  · rw [noLines, noText]
    rfl
  · rw [if_neg (by simpa using someText), written]

end Written

section Results

variable {target : StartupTarget} {table : List Char}

theorem getLast?_commandLine : target.commandLine.getLast? = some '1' := by
  have suffix : (" >> /dev/null 2>&1".toList).getLast? = some '1' := by decide
  have ends : ∀ before middle : List Char,
      (before ++ (middle ++ " >> /dev/null 2>&1".toList)).getLast? = some '1' := by
    intro before middle
    rw [List.getLast?_append, List.getLast?_append, suffix]
    rfl
  exact ends _ _

/-- The target's command is what makes a table owned. -/
theorem cronBlockOwnership_eq_owned_iff {executable config : OsPath} :
    cronBlockOwnership table executable config = .owned ↔ table ≠ [] ∧
      (Lines.split table).any (containsText (daemonCommand executable config)) = true := by
  rw [cronBlockOwnership]
  dsimp only
  generalize (Lines.split table).any (fun line => CRON_MARKER.isPrefixOf line) = anyOurs
  generalize (Lines.split table).any (containsText (daemonCommand executable config)) = anyWanted
  cases table <;> cases anyOurs <;> cases anyWanted <;> simp

theorem cronBlockOwnership_eq_absent_iff {executable config : OsPath} :
    cronBlockOwnership table executable config = .absent ↔ table = [] := by
  rw [cronBlockOwnership]
  dsimp only
  generalize (Lines.split table).any (fun line => CRON_MARKER.isPrefixOf line) = anyOurs
  generalize (Lines.split table).any (containsText (daemonCommand executable config)) = anyWanted
  cases table <;> cases anyOurs <;> cases anyWanted <;> simp

/-- A registration of the program `/g` for the file `/c`. -/
def sampleTarget : StartupTarget :=
  ⟨.ofText ['/', 'g'], .ofText ['/', 'c'], ['a'], List.all_iff_forall_prop.mp (by decide)⟩

end Results

end Gregg.Clientd
