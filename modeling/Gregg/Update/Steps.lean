import Gregg.Lib.Script
import Gregg.Startup.Cron
import Gregg.Update.Release

/-!
# The steps of an update

An update is a program that acts on the world: it runs commands, reads and writes files, and asks
the manager of services. What it prints on the way is left out.
-/

namespace Gregg.Update

section World

inductive IoErrorKind where
  | alreadyExists
  | permissionDenied
  | timedOut
  | outOfMemory
  | other
  deriving DecidableEq

structure IoError where
  kind : IoErrorKind
  message : String

/-- A child process to run. What it prints is discarded, or captured within two bounds. -/
structure Command where
  program : OsPath
  arguments : List OsPath
  timeoutMs : ℕ
  captured : Option (ℕ × ℕ)

/-- How a child process ended, and what it printed within the bounds and one byte more. There is no
code after a signal. -/
structure Output where
  code : Option ℤ
  stdout : List UInt8
  stderr : List UInt8

def Output.success (output : Output) : Bool :=
  output.code == some 0

/-- What names of probe files are made of: the process, the time and a counter. -/
structure ProbeStamp where
  pid : ℕ
  nanos : ℕ
  seq : ℕ

inductive IpAddr where
  | v4 (bits : ℕ)
  | v6 (bits : ℕ)
  deriving DecidableEq

structure SocketAddr where
  ip : IpAddr
  port : ℕ
  deriving DecidableEq

/-- What came of the bounded fetch of the health of an endpoint. -/
inductive FetchOutcome where
  /-- Nothing accepts traffic there. -/
  | refused
  | failed
  | responded (bytes : List UInt8)

inductive StopOutcome where
  | stopped
  | notRunning
  /-- A daemon that does not answer cannot be told from one that is not there. -/
  | uncertain

inductive ControlError where
  | io (error : IoError)
  | other (message : String)

def ControlError.isDenied : ControlError → Bool
  | io error => error.kind == .permissionDenied
  | other _ => false

def ControlError.display : ControlError → String
  | io error => s!"control socket filesystem error: {error.message}"
  | other message => message

inductive Action where
  | run (command : Command)
  | currentExe
  | canonicalize (path : OsPath)
  | isSymlink (path : OsPath)
  | readLink (path : OsPath)
  | probeStamp
  | createNew (path : OsPath)
  | removeFile (path : OsPath)
  /-- A directory with a fresh name that starts with the label. -/
  | createTempDir (label : String)
  | removeDir (path : OsPath)
  | createDirAll (path : OsPath)
  | setMode (path : OsPath) (mode : ℕ)
  | fileLen (path : OsPath)
  | isFile (path : OsPath)
  /-- As much text of a file as a bound says. -/
  | readText (path : OsPath) (limit : ℕ)
  | openFile (path : OsPath)
  | readBytes (path : OsPath)
  /-- The running executable is replaced by a copy of a file. -/
  | selfReplace (candidate : OsPath)
  | currentDir
  | pathExists (path : OsPath)
  | readToString (path : OsPath)
  | isSystemdEnvironment
  | systemctl (arguments : List String)
  /-- The address of the endpoint that a config sets up. -/
  | loadConfig (path : OsPath) (explicit : Bool)
  | fetchHealth (target : SocketAddr)
  | sendStop (config : OsPath)
  | spawnDaemon (exe config : OsPath) (explicit : Bool)
  /-- How the daemon that was spawned ended, if it is already over. -/
  | childExited
  | killChild
  | clientDaemonRunning
  | buildRuntime
  | stopClientDaemon
  | startClientDaemon

@[reducible]
def Action.Answer : Action → Type
  | .run _ => Except IoError Output
  | .currentExe => Except IoError OsPath
  | .canonicalize _ => Except IoError OsPath
  | .isSymlink _ => Bool
  | .readLink _ => Except IoError OsPath
  | .probeStamp => ProbeStamp
  | .createNew _ => Except IoError Unit
  | .removeFile _ => Unit
  | .createTempDir _ => Except IoError OsPath
  | .removeDir _ => Unit
  | .createDirAll _ => Except IoError Unit
  | .setMode _ _ => Except IoError Unit
  | .fileLen _ => Except IoError ℕ
  | .isFile _ => Bool
  | .readText _ _ => Except IoError (List Char)
  | .openFile _ => Except IoError Unit
  | .readBytes _ => Except IoError (List UInt8)
  | .selfReplace _ => Except IoError Unit
  | .currentDir => Except IoError OsPath
  | .pathExists _ => Bool
  | .readToString _ => Except IoError (List Char)
  | .isSystemdEnvironment => Bool
  | .systemctl _ => Except IoError Output
  | .loadConfig _ _ => Except String SocketAddr
  | .fetchHealth _ => FetchOutcome
  | .sendStop _ => Except ControlError StopOutcome
  | .spawnDaemon _ _ _ => Except IoError Unit
  | .childExited => Except IoError (Option String)
  | .killChild => Unit
  | .clientDaemonRunning => Except String Bool
  | .buildRuntime => Except String Unit
  | .stopClientDaemon => Except String Unit
  | .startClientDaemon => Except String Unit

abbrev Entry : Type := Script.Entry Action.Answer

abbrev Program (Result : Type) : Type := Script Action Action.Answer Result

inductive UpdateError where
  | currentExe (message : String)
  | curlMissing (message : String)
  | cargoMissing (message : String)
  | versionLookup (message : String)
  | invalidVersion (input reason : String)
  | releaseDownloadFailed (url reason : String)
  | checksumRetrieval (message : String)
  | checksumMismatch (file expected actual : String)
  | candidateMismatch (message : String)
  | permissionDenied (message elevated : String)
  | cargoFallback (message : String)
  | replacement (message : String)
  | restartFailed (message : String)
  | io (message : String)

def UpdateError.display : UpdateError → String
  | currentExe message => s!"failed to determine current executable: {message}"
  | curlMissing message =>
      s!"curl is not available: {message}. Install curl or update manually from " ++
        "https://github.com/eggstack/gregg/releases"
  | cargoMissing message =>
      s!"cargo is not available: {message}. Install Rust 1.89+ from https://rustup.rs or " ++
        "download the release asset manually"
  | versionLookup message => s!"version lookup failed: {message}"
  | invalidVersion input reason => s!"invalid version \x27{input}\x27: {reason}"
  | releaseDownloadFailed url reason => s!"release download failed for {url}: {reason}"
  | checksumRetrieval message => s!"checksum retrieval failed: {message}"
  | checksumMismatch file expected actual =>
      s!"checksum mismatch for {file}: expected {expected}, actual {actual}"
  | candidateMismatch message => s!"candidate identity/version mismatch: {message}"
  | permissionDenied message elevated => s!"permission denied: {message}. Rerun: {elevated}"
  | cargoFallback message => s!"cargo fallback failed: {message}"
  | replacement message => s!"replacement failed: {message}"
  | restartFailed message => s!"restart failed: {message}"
  | io message => s!"I/O error: {message}"

/-- A part of an update, which can fail. -/
abbrev Attempt (Result : Type) : Type :=
  ExceptT UpdateError (Script Action Action.Answer) Result

def perform (action : Action) : Program action.Answer :=
  Script.perform action

end World

section Paths

/-- `Path::display`. -/
def display (path : OsPath) : String :=
  String.ofList path.toStringLossy

/-- The text of a root flag and names. -/
def ofComponents : Bool × List OsPath → OsPath
  | (rooted, names) => (if rooted then [.char '/'] else []) ++ [.char '/'].intercalate names

/-- `Path::parent`, written with single separators. -/
def parent (path : OsPath) : Option OsPath :=
  match path.components with
  | (_, []) => none
  | (rooted, first :: rest) => some (ofComponents (rooted, (first :: rest).dropLast))

def isAbsolute (path : OsPath) : Bool :=
  path.head? == some (.char '/')

/-- `Path::join`. -/
def join (path name : OsPath) : OsPath :=
  if isAbsolute name then name
  else if path = [] then name
  else if path.getLast? = some (.char '/') then path ++ name
  else path ++ .char '/' :: name

def fileIn (directory : OsPath) (name : String) : OsPath :=
  join directory (.ofText name.toList)

/-- One name of a path that is normalized, after the ones before it in reverse. -/
def pushComponent (rooted : Bool) (names : List OsPath) (name : OsPath) : List OsPath :=
  if name = [.char '.'] then names
  else if name = [.char '.', .char '.'] then
    match names with
    | last :: before =>
        if last = [.char '.', .char '.'] then (if rooted then names else name :: names) else before
    | [] => if rooted then [] else [name]
  else name :: names

def normalizeLexically (path : OsPath) : OsPath :=
  let rooted := path.components.1
  let names := (path.components.2.foldl (pushComponent rooted) []).reverse
  let normalized := ofComponents (rooted, names)
  if normalized = [] then [.char '.'] else normalized

def unixShellQuote (path : OsPath) : String :=
  String.ofList ('\'' :: Search.replace ['\''] "'\\''".toList path.toStringLossy ++ ['\''])

def elevatedRerunHint (exe : OsPath) (operation : String) : String :=
  s!"sudo {unixShellQuote exe} {operation}"

end Paths

end Gregg.Update
