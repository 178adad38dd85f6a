import Gregg.Update.Steps

/-!
# Candidates

How an update gets hold of a new executable and looks at it before it is used: the lookup of the
newest version, the downloads, the checksum, the version that the candidate itself reports, and the
build by Cargo where nothing is published for the host. A private directory is removed with the
value that holds it.
-/

namespace Gregg.Update

section Commands

def MAX_DOWNLOAD_BYTES : ℕ := 64 * 1024 * 1024
def MAX_STDERR_BYTES : ℕ := 64 * 1024
def MAX_DOWNLOAD_STATUS_BYTES : ℕ := 1024
def MAX_CANDIDATE_OUTPUT_BYTES : ℕ := 16 * 1024
def CRATES_IO_TIMEOUT_SECS : String := "15"
def DOWNLOAD_TIMEOUT_SECS : String := "90"
def CANDIDATE_TIMEOUT : ℕ := 5000
def CAPTURE_TIMEOUT : ℕ := 20000
def DOWNLOAD_WALL_TIMEOUT : ℕ := 100000
def CARGO_TIMEOUT : ℕ := 600000
def DISCOVERY_TIMEOUT : ℕ := 5000

def RESPONSE_TOO_LARGE_FRAGMENT : String := "response too large"

def POST_EXIT_DRAIN_FRAGMENT : String := "an inherited writer is holding the pipe open"

def contains (text fragment : String) : Bool :=
  (Search.splitOnce fragment.toList text.toList).isSome

/-- What a child printed, if it is within the bounds of its command. -/
def withinBounds (command : Command) (output : Output) : Except IoError Output :=
  match command.captured with
  | none => .ok output
  | some (maxStdoutBytes, maxStderrBytes) =>
      if maxStdoutBytes < output.stdout.length ∨ maxStderrBytes < output.stderr.length then
        .error ⟨.outOfMemory, s!"child {RESPONSE_TOO_LARGE_FRAGMENT}"⟩
      else .ok output

/-- `run_child_with_timeout` and its bounded variants. -/
def runChild (command : Command) : Program (Except IoError Output) := do
  let answer ← perform (.run command)
  pure (answer.bind (withinBounds command))

/-- Options of a command line. -/
def options (arguments : List String) : List OsPath :=
  arguments.map fun argument => .ofText argument.toList

def versionProbe (tool : String) : Command where
  program := .ofText tool.toList
  arguments := options ["--version"]
  timeoutMs := DISCOVERY_TIMEOUT
  captured := none

/-- The first of some tools that runs. -/
def discoverTool (missing : UpdateError) : List String → Attempt String
  | [] => throw missing
  | candidate :: rest => do
      match ← runChild (versionProbe candidate) with
      | .ok status => if status.success then pure candidate else discoverTool missing rest
      | .error _ => discoverTool missing rest

def findCurl : Attempt String :=
  discoverTool (.curlMissing "curl not found in PATH") ["curl", "curl.exe"]

def findCargo : Attempt String :=
  discoverTool (.cargoMissing "cargo not found in PATH") ["cargo", "cargo.exe"]

/-- The code of an exit status in a message. -/
def debugCode : Option ℤ → String
  | none => "None"
  | some code => s!"Some({code})"

/-- `String::from_utf8_lossy`. -/
def lossyText (bytes : List UInt8) : String :=
  String.ofList (Utf8.fromUtf8Lossy bytes)

end Commands

section Lookup

def mapCaptureError (error : IoError) : String :=
  if error.kind = .timedOut ∧ contains error.message POST_EXIT_DRAIN_FRAGMENT then error.message
  else if error.kind = .timedOut then "curl timed out and was killed"
  else if error.kind = .outOfMemory ∨ contains error.message RESPONSE_TOO_LARGE_FRAGMENT then
    "crates.io response too large"
  else s!"failed to spawn curl: {error.message}"

def captureCommand (curl : String) (arguments : List String) : Command where
  program := .ofText curl.toList
  arguments := options arguments
  timeoutMs := CAPTURE_TIMEOUT
  captured := some (MAX_CRATES_IO_BYTES, MAX_STDERR_BYTES)

/-- The standard output of a `curl` that succeeded. -/
def captured (outcome : Except IoError Output) : Except String (List UInt8) :=
  match outcome with
  | .ok output =>
      if output.success then .ok output.stdout
      else .error
        s!"curl failed (status {debugCode output.code}): {lossyText output.stderr}"
  | .error error => .error (mapCaptureError error)

def runCurlCapture (curl : String) (arguments : List String) :
    Program (Except String (List UInt8)) := do
  let outcome ← runChild (captureCommand curl arguments)
  pure (captured outcome)

def lookupArguments (crateName program currentVersion : String) : List String :=
  let userAgent := s!"{program}/{currentVersion} (https://github.com/eggstack/gregg)"
  ["--proto", "=https", "--tlsv1.2", "-fsSL", "--max-time", CRATES_IO_TIMEOUT_SECS, "-H",
    s!"User-Agent: {userAgent}", s!"https://crates.io/api/v1/crates/{crateName}"]

def fetchLatestStableVersion (host : Host) (spec : UpdateSpec) : Attempt String := do
  if !isValidCrateName spec.crateName.toList then
    throw (.versionLookup s!"invalid crate name: {host.debug spec.crateName}")
  else
    let curl ← findCurl
    let stdout ← Script.mapErr
      (fun inner => .versionLookup s!"crates.io request failed for {spec.crateName}: {inner}")
      (runCurlCapture curl
        (lookupArguments spec.crateName spec.programName spec.currentVersion))
    match parseStableVersionResponse host stdout with
    | .ok version => pure version
    | .error message => throw (.versionLookup message)

inductive UpdatePlan where
  | alreadyCurrent (version : String)
  | available (current latest : String) (target : Option String)

def resolvePlan (host : Host) (spec : UpdateSpec) : Attempt UpdatePlan := do
  let latest ← fetchLatestStableVersion host spec
  match compareVersions spec.currentVersion.toList latest.toList with
  | none =>
      throw (.invalidVersion s!"current={spec.currentVersion} latest={latest}"
        "failed to parse version")
  | some ordering =>
      if ordering ≠ .lt then pure (.alreadyCurrent spec.currentVersion)
      else pure (.available spec.currentVersion latest (detectTargetFor host.os host.arch))

end Lookup

section Downloads

inductive DownloadOutcome where
  | success
  /-- The asset is absent. Nothing else leads to a build. -/
  | notFound
  | failed (reason : String)

/-- `str::parse::<u16>`. -/
def parseU16 (text : List Char) : Option ℕ :=
  (Text.parseUsize text).filter (· ≤ 65535)

def downloadCommand (curl url : String) (dest : OsPath) : Command where
  program := .ofText curl.toList
  arguments :=
    options ((if url.startsWith "https://" then ["--proto", "=https", "--tlsv1.2"] else []) ++
      ["-fsSL", "--max-time", DOWNLOAD_TIMEOUT_SECS, "--max-filesize", toString MAX_DOWNLOAD_BYTES,
        "-o"]) ++ dest :: options ["-w", "%\x7bhttp_code\x7d", url]
  timeoutMs := DOWNLOAD_WALL_TIMEOUT
  captured := some (MAX_DOWNLOAD_STATUS_BYTES, MAX_STDERR_BYTES)

/-- What is there of a download is removed, and the download has the outcome. -/
def discard (dest : OsPath) (outcome : DownloadOutcome) : Program DownloadOutcome := do
  perform (.removeFile dest)
  pure outcome

def downloadedAssetWithinCap (dest : OsPath) : Program DownloadOutcome := do
  match ← perform (.fileLen dest) with
  | .ok size =>
      if size ≤ MAX_DOWNLOAD_BYTES then pure .success
      else
        discard dest (.failed (s!"downloaded asset is {size} bytes, exceeding the " ++
          s!"{MAX_DOWNLOAD_BYTES} byte maximum"))
  | .error error => discard dest (.failed s!"downloaded asset is unreadable: {error.message}")

/-- The status line that `curl` printed. -/
def statusLine (output : Output) : List Char :=
  Text.trim (Utf8.fromUtf8Lossy output.stdout)

def downloadFile (host : Host) (curl url : String) (dest : OsPath) : Program DownloadOutcome := do
  match ← runChild (downloadCommand curl url dest) with
  | .ok output =>
      if output.success then
        match parseU16 (statusLine output) with
        | some code =>
            if 200 ≤ code ∧ code < 300 then downloadedAssetWithinCap dest
            else if code = 404 then discard dest .notFound
            else discard dest (.failed s!"unexpected HTTP {code} for {url}")
        | none =>
            discard dest (.failed
              (s!"unparseable HTTP status {host.debug (String.ofList (statusLine output))} " ++
                s!"for {url}"))
      else if statusLine output = "404".toList then discard dest .notFound
      else
        discard dest (.failed
          s!"curl exit {debugCode output.code}: {lossyText output.stderr}")
  | .error error => discard dest (.failed s!"curl failed: {error.message}")

end Downloads

section Verification

def parseChecksumFile (host : Host) (path : OsPath) : Attempt (List Char) := do
  let unreadable : IoError → UpdateError := fun error =>
    .checksumRetrieval s!"failed to read checksum file: {error.message}"
  let size ← Script.mapErr unreadable (perform (.fileLen path))
  if MAX_CHECKSUM_FILE_BYTES < size then
    throw (.checksumRetrieval s!"checksum file too large ({size} bytes)")
  else
    let content ← Script.mapErr unreadable (perform (.readText path (MAX_CHECKSUM_FILE_BYTES + 1)))
    if MAX_CHECKSUM_FILE_BYTES < byteLen content then
      throw (.checksumRetrieval "checksum file too large")
    else
      match publishedDigest host content with
      | .ok digest => pure digest
      | .error message => throw (.checksumRetrieval message)

def computeSha256 (host : Host) (path : OsPath) : Attempt (List Char) := do
  Script.mapErr (fun error => .io s!"failed to open {display path}: {error.message}")
    (perform (.openFile path))
  let bytes ← Script.mapErr
    (fun error => .io s!"failed to read {display path}: {error.message}")
    (perform (.readBytes path))
  pure (hexDigest (host.sha256 bytes))

def verifyChecksum (host : Host) (file shaFile : OsPath) : Attempt Unit := do
  let expected ← parseChecksumFile host shaFile
  let actual ← computeSha256 host file
  if expected ≠ actual then
    throw (.checksumMismatch (display file) (String.ofList expected) (String.ofList actual))
  else pure ()

def identityCommand (candidate : OsPath) : Command where
  program := candidate
  arguments := options ["version"]
  timeoutMs := CANDIDATE_TIMEOUT
  captured := some (MAX_CANDIDATE_OUTPUT_BYTES, MAX_CANDIDATE_OUTPUT_BYTES)

/-- `run_command_with_timeout`. -/
def candidateError (error : IoError) : UpdateError :=
  match error.kind with
  | .timedOut => .candidateMismatch "candidate 'version' timed out"
  | .outOfMemory => .candidateMismatch "candidate 'version' output too large"
  | _ => .candidateMismatch s!"candidate process failed: {error.message}"

def validateCandidate (host : Host) (candidate : OsPath) (program expectedVersion : String) :
    Attempt Unit := do
  let size ← Script.mapErr
    (fun error => .candidateMismatch s!"candidate missing: {error.message}")
    (perform (.fileLen candidate))
  if size < 1024 then throw (.candidateMismatch s!"candidate too small ({size} bytes)")
  else
    Script.mapErr
      (fun error => .io
        s!"failed to set executable permission on {display candidate}: {error.message}")
      (perform (.setMode candidate 0o755))
    let output ← Script.mapErr candidateError (runChild (identityCommand candidate))
    if !output.success then
      throw (.candidateMismatch (s!"candidate \x27version\x27 failed with status " ++
        s!"{debugCode output.code}: {lossyText output.stderr}"))
    else if !candidateOutputMatches program expectedVersion (Utf8.fromUtf8Lossy output.stdout) then
      let expected := host.debug (String.ofList (identityLine program expectedVersion))
      let shown := host.debug (String.ofList (Text.trim (Utf8.fromUtf8Lossy output.stdout)))
      throw (.candidateMismatch s!"candidate version mismatch: expected {expected}, got {shown}")
    else pure ()

end Verification

section Staging

/-- A verified candidate with the directory that is removed with it. -/
structure StagedCandidate where
  tempDir : OsPath
  path : OsPath

def createTempDir (label : String) : Attempt OsPath := do
  let tempDir ← Script.mapErr
    (fun error => .io s!"failed to create private temp dir: {error.message}")
    (perform (.createTempDir label))
  Script.onError
    (Script.mapErr (fun error => .io s!"failed to secure private temp dir: {error.message}")
      (perform (.setMode tempDir 0o700)))
    (perform (.removeDir tempDir))
  pure tempDir

def cargoCommand (cargo program version : String) (cargoRoot : OsPath) : Command where
  program := .ofText cargo.toList
  arguments := options ["install", "--locked", "--version", s!"={version}", "--root"] ++
    cargoRoot :: options [program]
  timeoutMs := CARGO_TIMEOUT
  captured := none

/-- `run_command_with_timeout_for_cargo`. -/
def cargoError (operation : String) (timeoutMs : ℕ) (error : IoError) : UpdateError :=
  if error.kind = .timedOut then
    .cargoFallback s!"cargo {operation} timed out after {timeoutMs / 1000}s"
  else .cargoFallback s!"cargo {operation} process failed: {error.message}"

/-- The build in a directory that is there. -/
def buildIn (host : Host) (cargo program version : String) (tempRoot : OsPath) :
    Attempt StagedCandidate := do
  let cargoRoot := fileIn tempRoot "cargo-root"
  Script.mapErr (fun error => .io s!"failed to create cargo root: {error.message}")
    (perform (.createDirAll cargoRoot))
  let output ← Script.mapErr (cargoError "install" CARGO_TIMEOUT)
    (runChild (cargoCommand cargo program version cargoRoot))
  if !output.success then
    throw (.cargoFallback (s!"cargo install {program} --version ={version} failed " ++
      s!"(status {debugCode output.code})"))
  else
    let staged := fileIn (fileIn cargoRoot "bin") program
    if !(← perform (.isFile staged)) then
      throw (.cargoFallback s!"cargo install succeeded but {display staged} not found")
    else
      validateCandidate host staged program version
      pure ⟨tempRoot, staged⟩

def cargoFallback (host : Host) (program version : String) : Attempt StagedCandidate := do
  let cargo ← findCargo
  let tempRoot ← createTempDir s!"gregg-cargo-{program}"
  Script.onError (buildIn host cargo program version tempRoot) (perform (.removeDir tempRoot))

/-- The checks of an asset that is there, with the download of its checksum. -/
def verifyAsset (host : Host) (curl program latest shaUrl : String)
    (tempDir assetPath shaPath : OsPath) : Attempt (Bool × StagedCandidate) := do
  match ← downloadFile host curl shaUrl shaPath with
  | .success =>
      verifyChecksum host assetPath shaPath
      validateCandidate host assetPath program latest
      pure (false, ⟨tempDir, assetPath⟩)
  | .notFound => throw (.checksumRetrieval s!"checksum not found at {shaUrl} (HTTP 404)")
  | .failed reason => throw (.checksumRetrieval reason)

/-- The candidate for a target that there are assets for. -/
def downloadCandidate (host : Host) (spec : UpdateSpec) (latest target : String) :
    Attempt (Bool × StagedCandidate) := do
  let program := spec.programName
  let (assetUrl, shaUrl) := githubUrls program target latest
  let curl ← findCurl
  let tempDir ← createTempDir s!"{program}-update"
  let assetPath := fileIn tempDir (assetName program target)
  let shaPath := fileIn tempDir s!"{assetName program target}.sha256"
  match ← downloadFile host curl assetUrl assetPath with
  | .success =>
      Script.onError (verifyAsset host curl program latest shaUrl tempDir assetPath shaPath)
        (perform (.removeDir tempDir))
  | .notFound =>
      Script.andThen (do
        let staged ← cargoFallback host program latest
        pure (true, staged)) (perform (.removeDir tempDir))
  | .failed reason =>
      Script.andThen (throw (.releaseDownloadFailed assetUrl reason)) (perform (.removeDir tempDir))

/-- A verified candidate, and whether it was built here. -/
def prepareCandidate (host : Host) (spec : UpdateSpec) (latest : String) (target : Option String) :
    Attempt (Bool × StagedCandidate) :=
  match target.filter isSupportedBinaryTarget with
  | some target => downloadCandidate host spec latest target
  | none => do
      let staged ← cargoFallback host spec.programName latest
      pure (true, staged)

end Staging

end Gregg.Update
