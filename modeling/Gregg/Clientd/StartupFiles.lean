import Gregg.Clientd.StartupCron
import Gregg.Fleet.Config
import Gregg.Startup.ServiceFiles

/-!
# The client's startup files

A registration is a systemd user unit, a launch agent or an entry of the Startup folder. Each is
read back to decide whether it starts this executable for this config.
-/

namespace Gregg.Clientd

namespace StartupTarget

/-- `artifact_name`, without a suffix. -/
def artifactName (target : StartupTarget) : List Char :=
  "gregg-client-".toList ++ target.identity

end StartupTarget

section SystemdUnit

/-- Quote one argument for a systemd `ExecStart` line. -/
def quoteSystemd (value : List Char) : List Char :=
  '"' :: Search.replace ['"'] ['\\', '"'] (Search.replace ['\\'] ['\\', '\\'] value) ++ ['"']

def execCommand (target : StartupTarget) : List Char :=
  quoteSystemd target.executable.toStringLossy ++ (" --config ".toList ++
    (quoteSystemd target.config.toStringLossy ++ " daemon run".toList))

/-- The lines of the unit before its `ExecStart`. -/
def unitHead (identity : List Char) : List (List Char) :=
  "[Unit]".toList :: ("Description=Gregg client daemon (".toList ++ (identity ++ [')'])) ::
    ["# Restarts on failure; the daemon is a long-lived background observer.", "Restart=always",
      "RestartSec=5", "", "[Service]", "Type=simple"].map String.toList

/-- `render_systemd_user_unit`. -/
def renderSystemdUserUnit (target : StartupTarget) : List Char :=
  Lines.join (unitHead target.identity ++ ("ExecStart=".toList ++ execCommand target) ::
    ["", "[Install]", "WantedBy=default.target"].map String.toList)

/-- The state of the loop over the characters of an `ExecStart` line. -/
structure UnitScan where
  parts : List (List Char)
  current : List Char
  quoted : Bool
  escaped : Bool
  deriving DecidableEq

def UnitScan.step (scan : UnitScan) (character : Char) : UnitScan :=
  if scan.escaped then
    { scan with current := scan.current ++ [character], escaped := false }
  else if character = '\\' then { scan with escaped := true }
  else if character = '"' then { scan with quoted := !scan.quoted }
  else if Text.isWhitespace character && !scan.quoted then
    if scan.current.isEmpty then scan
    else { scan with parts := scan.parts ++ [scan.current], current := [] }
  else { scan with current := scan.current ++ [character] }

/-- Parse an `ExecStart=` line into the executable and its `--config` value. -/
def parseSystemdExecStart (text : List Char) : Option (OsPath × Option OsPath) :=
  (((Lines.split text).findSome? fun line =>
      Search.stripPrefix "ExecStart=".toList (Text.trim line)).map Text.trim).bind fun line =>
    let scan := line.foldl UnitScan.step ⟨[], [], false, false⟩
    match if scan.current.isEmpty then scan.parts else scan.parts ++ [scan.current] with
    | [] => none
    | executable :: arguments =>
        some (.ofText executable, (configAfterFlag (· == "--config".toList) arguments).map .ofText)

/-- Decide whether a unit file is Gregg's. -/
def systemdUnitOwnership (paths : PathEquality) (text : List Char) (executable config : OsPath) :
    ArtifactOwnership :=
  match parseSystemdExecStart text with
  | none => .unknown
  | some (_, none) => .foreign
  | some (foundExe, some foundConfig) =>
      if paths.same foundExe executable && paths.same foundConfig config then .owned
      else .foreign

end SystemdUnit

section LaunchAgent

/-- Escape the five XML predefined entities. -/
def escapeEntities (value : List Char) : List Char :=
  Search.replace ['\''] "&apos;".toList (Search.replace ['"'] "&quot;".toList
    (Search.replace ['>'] "&gt;".toList (Search.replace ['<'] "&lt;".toList
      (Search.replace ['&'] "&amp;".toList value))))

/-- `xml_unescape`. -/
def unescapeEntities (value : List Char) : List Char :=
  Search.replace "&amp;".toList ['&'] (Search.replace "&lt;".toList ['<']
    (Search.replace "&gt;".toList ['>'] (Search.replace "&apos;".toList ['\'']
      (Search.replace "&quot;".toList ['"'] value))))

def stringElement (text : List Char) : List Char :=
  "<string>".toList ++ (text ++ "</string>".toList)

/-- The plist before its label. -/
def LAUNCHAGENT_HEAD : List (List Char) :=
  ["<?xml version=\"1.0\" encoding=\"UTF-8\"?>".toList,
    "<!DOCTYPE plist PUBLIC \"-//Apple//DTD PLIST 1.0//EN\" ".toList ++
      "\"http://www.apple.com/DTDs/PropertyList-1.0.dtd\">".toList,
    "<plist version=\"1.0\">".toList, "<dict>".toList, "  <key>Label</key>".toList]

def PROGRAM_ARGUMENTS_KEY : List Char :=
  "<key>ProgramArguments</key>".toList

/-- The strings of the argument array. -/
def programArguments (target : StartupTarget) : List (List Char) :=
  [escapeEntities target.executable.toStringLossy, "--config".toList,
    escapeEntities target.config.toStringLossy, "daemon".toList, "run".toList]

def argumentLine (argument : List Char) : List Char :=
  "    ".toList ++ stringElement argument

/-- The plist after its argument array. -/
def LAUNCHAGENT_TAIL : List (List Char) :=
  ["  <key>RunAtLoad</key>", "  <true/>", "  <key>KeepAlive</key>", "  <true/>",
    "  <key>ProcessType</key>", "  <string>Background</string>", "</dict>", "</plist>"].map
      String.toList

/-- `render_launchagent`. -/
def renderLaunchagent (target : StartupTarget) : List Char :=
  Lines.join (LAUNCHAGENT_HEAD ++
    ("  ".toList ++ stringElement ("com.eggstack.".toList ++ target.artifactName)) ::
    ("  ".toList ++ PROGRAM_ARGUMENTS_KEY) :: ("  ".toList ++ "<array>".toList) ::
    ((programArguments target).map argumentLine ++
      ("  ".toList ++ "</array>".toList) :: LAUNCHAGENT_TAIL))

/-- `str::find`. -/
def findText (pattern text : List Char) : Option ℕ :=
  (Search.splitOnce pattern text).map (·.1.length)

/-- Parse the `ProgramArguments` array back out of a plist. -/
def parseLaunchagentProgramArguments (text : List Char) : Option (List OsPath) := do
  let start ← findText PROGRAM_ARGUMENTS_KEY text
  let rest := text.drop start
  let opening ← findText "<array>".toList rest
  let closing ← findText "</array>".toList rest
  if closing < opening then none
  else
    let values := (Search.split "<string>".toList ((rest.take closing).drop opening)).drop 1
    let arguments ← values.mapM fun value =>
      (findText "</string>".toList value).map fun ending =>
        OsPath.ofText (unescapeEntities (value.take ending))
    if arguments.isEmpty then none else some arguments

/-- Decide whether a plist is Gregg's. -/
def launchagentOwnership (paths : PathEquality) (text : List Char) (executable config : OsPath) :
    ArtifactOwnership :=
  match parseLaunchagentProgramArguments text with
  | none => .unknown
  | some arguments =>
      let isAt (index : ℕ) (path : OsPath) := arguments[index]?.any (paths.same · path)
      if isAt 0 executable && isAt 1 (.ofText "--config".toList) && isAt 2 config &&
        isAt 3 (.ofText "daemon".toList) && isAt 4 (.ofText "run".toList) then .owned
      else .foreign

end LaunchAgent

section StartupEntry

def startLine (target : StartupTarget) : List Char :=
  "start \"\" \"".toList ++ (target.executable.toStringLossy ++ ("\" --config \"".toList ++
    (target.config.toStringLossy ++ "\" daemon run".toList)))

/-- `render_windows_startup_entry`: each line ends with a carriage return and a line feed. -/
def renderWindowsStartupEntry (target : StartupTarget) : List Char :=
  Lines.join (["@echo off".toList, "REM gregg-client-daemon ".toList ++ target.identity,
    startLine target].map (· ++ ['\r']))

/-- The state of the loop over the characters of a `start` line. -/
structure EntryScan where
  tokens : List (List Char)
  current : List Char
  inQuotes : Bool
  quotedRun : Bool
  deriving DecidableEq

def EntryScan.step (scan : EntryScan) (character : Char) : EntryScan :=
  if character = '"' then
    if scan.inQuotes then ⟨scan.tokens ++ [scan.current], [], false, false⟩
    else ⟨scan.tokens, [], true, true⟩
  else if Text.isWhitespace character && !scan.inQuotes then
    if scan.quotedRun || !scan.current.isEmpty then
      { scan with tokens := scan.tokens ++ [scan.current], current := [], quotedRun := false }
    else scan
  else { scan with current := scan.current ++ [character] }

/-- Parse the `start` invocation back out of a Startup-folder entry. -/
def parseWindowsStartupEntry (text : List Char) : Option (OsPath × Option OsPath) :=
  ((Lines.split text).find? fun line => "start ".toList.isPrefixOf
      (Fleet.toAsciiLowercase (line.dropWhile Text.isWhitespace))).bind fun line =>
    let rest := (line.dropWhile Text.isWhitespace).drop 6
    let scan := rest.foldl EntryScan.step ⟨[], [], false, false⟩
    let tokens := if scan.quotedRun || !scan.current.isEmpty then scan.tokens ++ [scan.current]
      else scan.tokens
    -- The first token is the window title of `start`.
    tokens[1]?.map fun executable =>
      (.ofText executable, (configAfterFlag (· == "--config".toList) tokens).map .ofText)

/-- Decide whether a Startup-folder entry is Gregg's. -/
def windowsEntryOwnership (paths : PathEquality) (text : List Char) (executable config : OsPath) :
    ArtifactOwnership :=
  if containsText "gregg-client-daemon ".toList text then
    match parseWindowsStartupEntry text with
    | none => .unknown
    | some (foundExe, some found) =>
        if paths.same foundExe executable && paths.same found config then .owned else .foreign
    | some (_, none) => .foreign
  else .unknown

end StartupEntry

end Gregg.Clientd
