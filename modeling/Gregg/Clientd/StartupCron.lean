import Gregg.Lib.Lines
import Gregg.Lib.Search
import Gregg.Startup.Path

/-!
# The client's entry in the user's crontab

A managed block is two lines: a marker with the identity of the configuration, and the command that
starts the daemon. The marker and the command are recognised independently of each other.
-/

namespace Gregg.Clientd

inductive ArtifactOwnership where
  /-- The artifact names this exact executable and config. -/
  | owned
  /-- The artifact is parseable, but names something else. -/
  | foreign
  /-- The artifact is not provably ours. -/
  | unknown
  | absent
  deriving DecidableEq

/-- What a startup registration should run. The identity is a digest. -/
structure StartupTarget where
  executable : OsPath
  config : OsPath
  identity : List Char
  isDigest : ∀ character ∈ identity, (Text.hexValue character).isSome = true

inductive StartupError where
  /-- The command of a manager failed, with what it reported. -/
  | manager (command message : String)
  deriving DecidableEq

def shellSafe (character : Char) : Bool :=
  character.isAlphanum || "@%+=:,./-_".toList.contains character

/-- Single-quote one path for a POSIX shell command line. -/
def shellQuote (value : List Char) : List Char :=
  if !value.isEmpty && value.all shellSafe then value
  else '\'' :: Search.replace ['\''] "'\\''".toList value ++ ['\'']

/-- The daemon's invocation, by which a table's line is recognised. -/
def daemonCommand (executable config : OsPath) : List Char :=
  shellQuote executable.toStringLossy ++ (" --config ".toList ++
    (shellQuote config.toStringLossy ++ " daemon run".toList))

def CRON_MARKER : List Char :=
  "# gregg-client-daemon ".toList

def StartupTarget.markerLine (target : StartupTarget) : List Char :=
  CRON_MARKER ++ target.identity

def StartupTarget.commandLine (target : StartupTarget) : List Char :=
  "@reboot ".toList ++
    (daemonCommand target.executable target.config ++ " >> /dev/null 2>&1".toList)

/-- `render_cron_watchdog`. -/
def renderCronWatchdog (target : StartupTarget) : List Char :=
  Lines.join [target.markerLine, target.commandLine]

/-- `str::contains`. -/
def containsText (pattern text : List Char) : Bool :=
  (Search.splitOnce pattern text).isSome

/-- Decide whether a crontab block is Gregg's. -/
def cronBlockOwnership (crontab : List Char) (executable config : OsPath) : ArtifactOwnership :=
  if crontab.isEmpty then .absent
  else
    let lines := Lines.split crontab
    let anyOurs := lines.any fun line => CRON_MARKER.isPrefixOf line
    let anyWanted := lines.any (containsText (daemonCommand executable config))
    if anyOurs && anyWanted then .owned
    else if anyOurs then .foreign
    -- An unmarked command is a hand-written line, ours in substance.
    else if anyWanted then .owned
    else .unknown

/-- The loop over the lines of a table: the lines kept, and whether a marker was found. After a
marker one more line is skipped, whatever it is. -/
def stripBlock (marker : List Char) : Bool → List (List Char) → List (List Char) × Bool
  | _, [] => ([], false)
  | true, _ :: rest => stripBlock marker false rest
  | false, line :: rest =>
      if marker.isPrefixOf line then ((stripBlock marker true rest).1, true)
      else (line :: (stripBlock marker false rest).1, (stripBlock marker false rest).2)

/-- Replace or append the managed block, leaving everything else alone. -/
def mergeCronBlock (existing block : List Char) : List Char :=
  match (Lines.split block).findSome? (Search.stripPrefix CRON_MARKER) with
  | none => existing
  | some identity =>
      let kept := (stripBlock (CRON_MARKER ++ identity) false (Lines.split existing)).1
      let merged := (['\n'].intercalate kept).rdropWhile (· == '\n')
      let merged := (if merged.isEmpty then merged else merged ++ ['\n']) ++ block
      if merged.getLast? = some '\n' then merged else merged ++ ['\n']

/-- Remove the managed block, leaving everything else alone. -/
def removeCronBlock (existing identity : List Char) : List Char × Bool :=
  let (kept, removed) := stripBlock (CRON_MARKER ++ identity) false (Lines.split existing)
  ((['\n'].intercalate kept).rdropWhile Text.isWhitespace ++ ['\n'], removed)

/-- `install_cron`: the table that is written, or why none is. -/
def installCron (target : StartupTarget) (existing : List Char) :
    Except StartupError (List Char) :=
  match cronBlockOwnership existing target.executable target.config with
  | .foreign =>
      .error (.manager "crontab"
        ("this crontab already contains a different Gregg client-daemon entry; " ++
          "remove it by hand rather than having Gregg overwrite it"))
  | .unknown =>
      .error (.manager "crontab"
        ("this crontab is not Gregg-managed, so Gregg will not rewrite it; " ++
          "add the line from \x60gregg daemon startup instructions\x60 yourself"))
  | _ => .ok (mergeCronBlock existing (renderCronWatchdog target))

inductive UninstallAction where
  | removeOwned
  | alreadyAbsent
  | preservedForeign
  | preservedUnknown
  deriving DecidableEq

/-- `inspect_with` for a crontab. -/
def inspectCron (target : StartupTarget) (existing : List Char) : UninstallAction :=
  match cronBlockOwnership existing target.executable target.config with
  | .foreign => .preservedForeign
  | .unknown => .preservedForeign
  | .owned => .removeOwned
  | .absent => .alreadyAbsent

/-- `uninstall_with` for a crontab: the report, and the table that is written, if any. -/
def uninstallCron (target : StartupTarget) (existing : List Char) :
    UninstallAction × Option (List Char) :=
  if inspectCron target existing = .removeOwned then
    let (remaining, removed) := removeCronBlock existing target.identity
    if removed then (.removeOwned, some remaining) else (.alreadyAbsent, none)
  else (inspectCron target existing, none)

end Gregg.Clientd
