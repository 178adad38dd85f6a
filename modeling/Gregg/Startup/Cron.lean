import Mathlib.Data.List.Infix
import Gregg.Lib.Lines
import Gregg.Lib.Search
import Gregg.Startup.Path

/-!
# The cron watchdog

The managed block of a crontab: how it is written, how its commands are read back, who owns it,
and how it is merged into and removed from a table. What a path resolves to on the file system is
a parameter.
-/

namespace Gregg

inductive ShellQuoteError where
  | containsControl (path : List Char)
  | containsNewline (path : List Char)

/-- Quote a path for a shell line: in single quotes, with a single quote inside written as a
quoted one between two quoted parts. -/
def shellQuote (path : OsPath) : Except ShellQuoteError (List Char) :=
  let text := path.toStringLossy
  if text.contains '\n' || text.contains '\r' then .error (.containsNewline text)
  else if text.any Text.isControl then .error (.containsControl text)
  else .ok ('\'' :: Search.replace ['\''] "'\\''".toList text ++ ['\''])

def CRON_MANAGED_MARKER : List Char :=
  "# greggd managed watchdog".toList

inductive ArtifactOwnership where
  | absent
  | owned
  | foreign
  | unknown
  deriving DecidableEq

def ArtifactOwnership.isOwned (ownership : ArtifactOwnership) : Bool :=
  ownership == .owned

/-- `paths_equivalent`, given what each path resolves to. -/
def pathsEquivalent (resolve : OsPath → OsPath) (left right : OsPath) : Bool :=
  (resolve left).samePath (resolve right)

/-- Equality of two optional paths. -/
def sameConfig : Option OsPath → Option OsPath → Bool
  | none, none => true
  | some left, some right => left.samePath right
  | _, _ => false

/-- The command of a crontab line: what follows `@reboot` or five fields. -/
def cronCommand (line : List Char) : Option (List Char) :=
  match Search.stripPrefix "@reboot ".toList line with
  | some rest => some rest
  | none => (Search.splitN Text.isWhitespace 6 line)[5]?.map (·.dropWhile Text.isWhitespace)

/-- The `--config` argument in front of the verb, if there is one. -/
def parseConfigArgument (arguments : List Char) : Option (Option OsPath) :=
  if arguments.isEmpty then some none
  else
    (Search.stripPrefix "--config".toList arguments).bind fun rest =>
      (Search.stripPrefix ['\''] (Text.trim rest)).bind fun quoted =>
        (Search.splitOnce ['\''] quoted).bind fun (encoded, rest) =>
          let decoded := Search.replace "'\\''".toList ['\''] encoded
          if !(Text.trim rest).isEmpty || decoded.isEmpty then none
          else some (some (.ofText decoded))

/-- The executable and the config of a watchdog command. -/
def parseCommand (command : List Char) : Option (OsPath × Option OsPath) :=
  (Search.stripPrefix ['\''] command).bind fun quoted =>
    (Search.splitOnce ['\''] quoted).bind fun (encoded, rest) =>
      let target := Search.replace "'\\''".toList ['\''] encoded
      let remainder := Text.trim rest
      if target.isEmpty ||
          remainder.any (fun character => [';', '|', '&', '$', '\n', '\r'].contains character) ||
          !(remainder == "croncheck".toList ||
            (Search.stripSuffix " croncheck".toList remainder).isSome) then none
      else
        (Search.stripSuffix "croncheck".toList remainder).bind fun arguments =>
          (parseConfigArgument (Text.trim arguments)).map fun config => (.ofText target, config)

def parseCronCommandParts (line : List Char) : Option (OsPath × Option OsPath) :=
  (cronCommand line).bind parseCommand

def isMarker (line : List Char) : Bool :=
  Text.trim line == CRON_MANAGED_MARKER

def isCroncheck (line : List Char) : Bool :=
  decide ("croncheck".toList <:+: line)

/-- The positions of the marker lines. -/
def markerPositions (lines : List (List Char)) : List ℕ :=
  lines.findIdxs isMarker

/-- `cron_block_ownership`. -/
def cronBlockOwnership (resolve : OsPath → OsPath) (crontab : List Char) (exe : OsPath) :
    ArtifactOwnership :=
  let lines := Lines.split crontab
  let markers := markerPositions lines
  match markers with
  | [] => .absent
  | marker :: _ =>
      if markers.length ≠ 1 ∨ marker + 2 ≥ lines.length then .unknown
      else
        match lines[marker + 1]?.bind parseCronCommandParts,
          lines[marker + 2]?.bind parseCronCommandParts with
        | some (first, _), some (second, _) =>
            if lines[marker + 3]?.any isCroncheck then .unknown
            else if !first.samePath second then .unknown
            else if pathsEquivalent resolve first exe then .owned
            else .foreign
        | _, _ => .unknown

/-- Whether the config of a block is the selected one. -/
def matchesSelected (block : Option OsPath) (config : OsPath) (explicit : Bool) : Bool :=
  match block, explicit with
  | some block, true => block.samePath config
  | none, false => true
  | _, _ => false

/-- `cron_block_ownership_for_config`. -/
def cronBlockOwnershipForConfig (resolve : OsPath → OsPath) (crontab : List Char)
    (exe config : OsPath) (explicit : Bool) : ArtifactOwnership :=
  match cronBlockOwnership resolve crontab exe with
  | .owned =>
      let lines := Lines.split crontab
      match lines.findIdx? isMarker with
      | none => .absent
      | some marker =>
          match parseCronCommandParts (lines[marker + 1]?.getD []),
            parseCronCommandParts (lines[marker + 2]?.getD []) with
          | some (_, first), some (_, second) =>
              if !sameConfig first second then .unknown
              else if matchesSelected first config explicit then .owned
              else .foreign
          | _, _ => .unknown
  | other => other

/-- The two commands of a block, after their schedules. -/
def watchdogCommand (exe : List Char) (config : Option (List Char)) : List Char :=
  match config with
  | some config => exe ++ " --config ".toList ++ config ++ " croncheck".toList
  | none => exe ++ " croncheck".toList

/-- `cron_block`. -/
def cronBlock (exe config : OsPath) (explicit : Bool) : Except ShellQuoteError (List Char) := do
  let exe ← shellQuote exe
  let config ← if explicit then (shellQuote config).map some else .ok none
  return Lines.join [CRON_MANAGED_MARKER, "@reboot ".toList ++ watchdogCommand exe config,
    "* * * * * ".toList ++ watchdogCommand exe config]

/-- Whether every command of a block names the executable and the selected config. -/
def blockIsOwnedBy (resolve : OsPath → OsPath) (exe config : OsPath) (explicit : Bool)
    (block : List (List Char)) : Bool :=
  match block.head?.bind parseCronCommandParts with
  | none => false
  | some (blockExe, blockConfig) =>
      pathsEquivalent resolve blockExe exe &&
        block.all (fun line => (parseCronCommandParts line).any fun (lineExe, lineConfig) =>
          pathsEquivalent resolve lineExe exe && sameConfig lineConfig blockConfig) &&
        matchesSelected blockConfig config explicit

/-- The loop of `remove_managed_cron_block_for_config`: the lines outside the blocks that are
owned. A block is a marker line and the commands right after it. -/
def keepUnowned (owned : List (List Char) → Bool) : List (List Char) → List (List Char)
  | [] => []
  | line :: rest =>
      if !isMarker line then line :: keepUnowned owned rest
      else if owned (rest.takeWhile isCroncheck) then
        keepUnowned owned (rest.dropWhile isCroncheck)
      else line :: rest.takeWhile isCroncheck ++ keepUnowned owned (rest.dropWhile isCroncheck)
  termination_by lines => lines.length
  decreasing_by
    all_goals
      have shorter : (rest.dropWhile isCroncheck).length ≤ rest.length :=
        (List.dropWhile_suffix isCroncheck).length_le
      simp only [List.length_cons]
      omega

/-- The kept lines, with a final line feed where the table had one and something is left. -/
def rejoin (crontab : List Char) (kept : List (List Char)) : List Char :=
  let result := ['\n'].intercalate kept
  if crontab.getLast? = some '\n' ∧ result ≠ [] then result ++ ['\n'] else result

def removeManagedCronBlockForConfig (resolve : OsPath → OsPath) (crontab : List Char)
    (exe config : OsPath) (explicit : Bool) : List Char :=
  rejoin crontab (keepUnowned (blockIsOwnedBy resolve exe config explicit) (Lines.split crontab))

def mergeCrontab (resolve : OsPath → OsPath) (existing newBlock : List Char)
    (exe config : OsPath) (explicit : Bool) : List Char :=
  let stripped := removeManagedCronBlockForConfig resolve existing exe config explicit
  let kept := stripped.rdropWhile (· == '\n')
  let merged := if kept.isEmpty then newBlock else kept ++ '\n' :: newBlock
  if merged.getLast? = some '\n' then merged else merged ++ ['\n']

/-- `cron_uninstall_changed_for_config`. -/
def cronUninstallChangedForConfig (resolve : OsPath → OsPath) (existing : List Char)
    (exe config : OsPath) (explicit : Bool) : Option (List Char) :=
  let stripped := removeManagedCronBlockForConfig resolve existing exe config explicit
  if stripped ≠ existing then some stripped else none

end Gregg
