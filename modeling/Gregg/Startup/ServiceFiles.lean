import Gregg.Lib.Lines
import Gregg.Lib.Search
import Gregg.Startup.Path

/-!
# The service files and the targets read back from them

`startup install` writes the path of the selected config into a systemd unit or a launchd plist,
and restart, update and uninstall read the executable and the config back from those texts.
-/

namespace Gregg

open Search (trimMatches)

/-- The executable and the config a service names. -/
abbrev ServiceTarget := OsPath × Option OsPath

def STANDARD_BINARY : List Char :=
  "/usr/local/bin/greggd".toList

section Systemd

/-- The lines of the unit before its `ExecStart`. -/
def SYSTEMD_UNIT_HEAD : List (List Char) :=
  ["[Unit]", "Description=Gregg metrics daemon",
    "Documentation=https://github.com/eggstack/gregg", "After=network-online.target",
    "Wants=network-online.target", "", "[Service]", "Type=simple", "User=greggd", "Group=greggd",
    "RuntimeDirectory=gregg"].map String.toList

/-- The command of a unit, given its config argument. -/
def unitCommand (config : List Char) : List Char :=
  STANDARD_BINARY ++ ' ' :: ("run".toList ++ ' ' :: ("--config".toList ++ ' ' :: config))

def execStartLine (config : List Char) : List Char :=
  "ExecStart=".toList ++ unitCommand config

/-- The lines of the unit after its `ExecStart`. -/
def SYSTEMD_UNIT_TAIL : List (List Char) :=
  ["Restart=on-failure", "RestartSec=5", "StartLimitIntervalSec=60", "StartLimitBurst=5", "",
    "# Security hardening", "NoNewPrivileges=true", "ProtectSystem=strict", "ProtectHome=true",
    "ReadOnlyPaths=/proc /sys", "ReadWritePaths=/etc/gregg", "PrivateTmp=true",
    "ProtectKernelTunables=true", "ProtectKernelModules=true", "ProtectControlGroups=true",
    "RestrictNamespaces=true", "RestrictSUIDSGID=true", "MemoryDenyWriteExecute=true",
    "RestrictRealtime=true", "LockPersonality=true", "SystemCallFilter=@system-service",
    "SystemCallArchitectures=native", "", "# Network access", "IPAddressAllow=any",
    "IPAddressDeny=", "", "# Capabilities", "CapabilityBoundingSet=", "AmbientCapabilities=", "",
    "[Install]", "WantedBy=multi-user.target"].map String.toList

def SYSTEMD_UNIT_TEMPLATE : List Char :=
  Lines.join (SYSTEMD_UNIT_HEAD ++
    execStartLine "/etc/gregg/greggd.toml".toList :: SYSTEMD_UNIT_TAIL)

/-- Quote a path for `ExecStart`: bare when safe, otherwise in double quotes with backslashes and
quotes escaped. -/
def systemdQuotePath (path : OsPath) : List Char :=
  let text := path.toStringLossy
  let needsQuote := text.isEmpty || text.any fun character =>
    Text.isWhitespace character || ['"', '\\', '\'', ';', '$', '\x60'].contains character
  if needsQuote then
    '"' :: Search.replace ['"'] ['\\', '"'] (Search.replace ['\\'] ['\\', '\\'] text) ++ ['"']
  else text

def systemdUnitContent (configPath : OsPath) : List Char :=
  Search.replace (execStartLine "/etc/gregg/greggd.toml".toList)
    (execStartLine (systemdQuotePath configPath)) SYSTEMD_UNIT_TEMPLATE

/-- One token of a command without the quotes, semicolons and braces around it. -/
def trimToken (token : List Char) : List Char :=
  trimMatches (· == '}') (trimMatches (· == ';') (trimMatches (· == '"') token))

/-- The value after the first `--config`. -/
def configAfterFlag {Argument : Type} (isFlag : Argument → Bool) (arguments : List Argument) :
    Option Argument :=
  ((arguments.zip arguments.tail).find? fun pair => isFlag pair.1).map Prod.snd

def parseCommandTarget (value : List Char) : Option ServiceTarget :=
  let command := ((Search.stripPrefix "\x7b path=".toList value).or
    (Search.stripPrefix "\x7bpath=".toList value)).getD value
  (command.splitOnP fun character =>
      Text.isWhitespace character || character == ';' || character == '}').head?.bind fun first =>
    (Text.splitWhitespace command).head?.bind fun word =>
      let target := trimMatches (· == '"')
        ((Search.stripPrefix ['-'] (trimMatches (· == '"') first)).getD word)
      if target.isEmpty || target.contains '=' || target.head? != some '/' then none
      else
        let tokens := (Text.splitWhitespace value).map trimToken
        let config := (configAfterFlag (· == "--config".toList) tokens).filter (!·.isEmpty)
        some (.ofText target, config.map .ofText)

/-- `parse_exec_start_target`. -/
def parseExecStartTarget (text : List Char) : Option ServiceTarget :=
  let unitLine := (Lines.split text).findSome? fun line =>
    Search.stripPrefix "ExecStart=".toList (Text.trim line)
  let shown := if (Text.trim text).head? = some '{' then some (Text.trim text) else none
  (unitLine.or shown).bind fun value => parseCommandTarget (Text.trim value)

end Systemd

section Launchd

/-- The line of a config argument. -/
def configArgumentLine (config : List Char) : List Char :=
  "        <string>".toList ++ (config ++ "</string>".toList)

/-- The plist before its program arguments. -/
def LAUNCHD_PLIST_HEAD : List (List Char) :=
  ["<?xml version=\"1.0\" encoding=\"UTF-8\"?>".toList,
    "<!DOCTYPE plist PUBLIC \"-//Apple//DTD ".toList ++
      ("PLIST 1.0//EN\" \"http://www.apple.com/".toList ++
        "DTDs/PropertyList-1.0.dtd\">".toList)] ++
    ["<plist version=\"1.0\">", "<dict>", "    <key>Label</key>",
      "    <string>com.eggstack.greggd</string>", ""].map String.toList

/-- The program arguments before the config. -/
def LAUNCHD_PLIST_ARGUMENTS : List (List Char) :=
  ["    <key>ProgramArguments</key>", "    <array>",
    "        <string>/usr/local/bin/greggd</string>", "        <string>run</string>",
    "        <string>--config</string>"].map String.toList

def LAUNCHD_PLIST_ARRAY_END : List Char :=
  "    </array>".toList

/-- The plist after its program arguments. -/
def LAUNCHD_PLIST_TAIL : List (List Char) :=
  ["", "    <key>RunAtLoad</key>", "    <true/>", "", "    <key>KeepAlive</key>",
    "    <dict>", "        <key>SuccessfulExit</key>", "        <false/>",
    "        <key>Crashed</key>", "        <true/>", "    </dict>", "",
    "    <key>ThrottleInterval</key>", "    <integer>10</integer>", "",
    "    <key>StandardOutPath</key>", "    <string>/var/log/greggd.log</string>", "",
    "    <key>StandardErrorPath</key>", "    <string>/var/log/greggd.log</string>", "",
    "    <key>HardResourceLimits</key>", "    <dict>", "        <key>NumberOfFiles</key>",
    "        <integer>1024</integer>", "    </dict>", "", "    <key>SoftResourceLimits</key>",
    "    <dict>", "        <key>NumberOfFiles</key>", "        <integer>1024</integer>",
    "    </dict>", "</dict>", "</plist>"].map String.toList

/-- The config of a standard installation. -/
def LAUNCHD_CONFIG : List Char :=
  "/Library/Application Support/gregg/greggd.toml".toList

def LAUNCHD_PLIST_TEMPLATE : List Char :=
  Lines.join (LAUNCHD_PLIST_HEAD ++ LAUNCHD_PLIST_ARGUMENTS ++
    configArgumentLine LAUNCHD_CONFIG :: LAUNCHD_PLIST_ARRAY_END :: LAUNCHD_PLIST_TAIL)

def xmlEscapeChar (character : Char) : List Char :=
  if character = '&' then "&amp;".toList
  else if character = '<' then "&lt;".toList
  else if character = '>' then "&gt;".toList
  else if character = '"' then "&quot;".toList
  else if character = '\'' then "&apos;".toList
  else [character]

def xmlEscape (text : List Char) : List Char :=
  text.flatMap xmlEscapeChar

def launchdPlistContent (configPath : OsPath) : List Char :=
  Search.replace (configArgumentLine LAUNCHD_CONFIG)
    (configArgumentLine (xmlEscape configPath.toStringLossy)) LAUNCHD_PLIST_TEMPLATE

/-- `parse_program_arguments`. -/
def parseProgramArguments (text : List Char) : Option ServiceTarget :=
  (Search.splitOnce "<key>ProgramArguments</key>".toList text).bind fun (_, rest) =>
    (Search.splitOnce "</array>".toList rest).bind fun (list, _) =>
      let arguments := ((Search.split "<string>".toList list).drop 1).filterMap fun part =>
        (Search.splitOnce "</string>".toList part).map Prod.fst
      arguments.head?.bind fun target =>
        if target.isEmpty then none
        else
          some (.ofText target,
            (configAfterFlag (· == "--config".toList) arguments).map .ofText)

end Launchd

end Gregg
